import EtherDevice.Lib.CyclicList
import EtherDevice.Lib.Transition

/-!
# The linked list and the message queue of the GPS library

`linked_list` is a list that is linked in both directions, into which elements are put at the head
and from which they are taken at the tail or by a search. It does what it does to the sequence of
its entries, and `msg_q` passes on its messages in the order in which they were sent.
-/

namespace EtherDevice.GpsUtils

open Lib Lib.Linked

inductive Err
  | success
  | failureGeneral
  | invalidParameter
  | unavailableResource
deriving DecidableEq

/-- `list_state` with the memory of its elements. The links of the null are `p_head` and `p_tail`,
so that where the code has a null in place of a neighbour it writes one of these. `dealloc` tells
which elements have a `dealloc_func`, `deallocated` has the data that were given to one, and
`faulted` that a freed element was read or freed again. -/
structure LinkedList where
  links : Linked (Option Nat) := ⟨fun _ => none, fun _ => none⟩
  data : Nat → Nat := fun _ => 0
  dealloc : Nat → Bool := fun _ => false
  live : List Nat := []
  deallocated : List Nat := []
  faulted : Bool := false

namespace LinkedList

/-- The operations, with the element that is allocated, and for a search whether the data are copied
out. `0` is the null pointer. -/
inductive Op
  | add (node : Option Nat) (data : Nat) (dealloc : Bool)
  | remove
  | search (equal : Nat → Bool) (copied rmIfFound : Bool)
  | flush

variable (s : LinkedList)

def free (a : Nat) : LinkedList :=
  { s with live := s.live.erase a, faulted := s.faulted || decide (a ∉ s.live) }

/-- The data of an element are given to its `dealloc_func`, if it has one. -/
def giveBack (a : Nat) : LinkedList :=
  if s.dealloc a then { s with deallocated := s.deallocated ++ [s.data a] } else s

def add (node : Option Nat) (data : Nat) (dealloc : Bool) : Err × LinkedList :=
  if data = 0 then (.invalidParameter, s)
  else
    match node with
    | none => (.failureGeneral, s)
    | some a =>
      (.success, { s with
        links := s.links.insert none (some a) (s.links.next none)
        data := Function.update s.data a data
        dealloc := Function.update s.dealloc a dealloc
        live := a :: s.live })

def remove : Err × Option Nat × LinkedList :=
  match s.links.prev none with
  | none => (.unavailableResource, none, s)
  | some a =>
    let t := { s with
      links.next := Function.update s.links.next (s.links.prev (some a)) none
      links.prev := Function.update s.links.prev none (s.links.prev (some a)) }
    (.success, some (s.data a), t.free a)

def searchLoop (equal : Nat → Bool) : Nat → Option Nat → Option (Option Nat)
  | 0, _ => none
  | _ + 1, none => some none
  | fuel + 1, some a =>
    if a ∉ s.live then none
    else if equal (s.data a) then some (some a)
    else searchLoop equal fuel (s.links.next (some a))

def search (equal : Nat → Bool) (copied rmIfFound : Bool) : Err × Option Nat × LinkedList :=
  if s.links.prev none = none then (.unavailableResource, none, s)
  else
    match s.searchLoop equal (s.live.length + 1) (s.links.next none) with
    | none => (.success, none, { s with faulted := true })
    | some none => (.success, none, s)
    | some (some a) =>
      if rmIfFound then
        let t := { s with links := s.links.bypass (some a) }
        (.success, some (s.data a), (if copied then t else t.giveBack a).free a)
      else (.success, some (s.data a), s)

def flushLoop : Nat → LinkedList → LinkedList
  | 0, s => { s with faulted := true }
  | fuel + 1, s =>
    match s.links.next none with
    | none => s
    | some a =>
      let t := (s.giveBack a).free a
      flushLoop fuel
        { t with links.next := Function.update s.links.next none (s.links.next (some a)) }

def flush : LinkedList :=
  let t := flushLoop (s.live.length + 1) s
  { t with links.prev := Function.update t.links.prev none none }

def exec (s : LinkedList) : Op → LinkedList
  | .add node data dealloc => (s.add node data dealloc).2
  | .remove => s.remove.2.2
  | .search equal copied rmIfFound => (s.search equal copied rmIfFound).2.2
  | .flush => s.flush

def Enabled : Op → Prop
  | .add node _ _ => ∀ a ∈ node, a ∉ s.live
  | _ => True

structure Holds (s : LinkedList) (nodes : List Nat) : Prop where
  lists : s.links.Lists nodes
  live : s.live.Perm nodes
  sound : s.faulted = false

/-- The data of an element, and whether it has a `dealloc_func`. -/
def entry (a : Nat) : Nat × Bool := (s.data a, s.dealloc a)

def givenBack (entries : List (Nat × Bool)) : List Nat := (entries.filter (·.2)).map (·.1)

/-- An operation does what it does to the sequence of the entries from head to tail, and the list
stays well formed. -/
def Refines (op : Op) : Prop :=
  (∃ nodes, s.Holds nodes) ∧ ∀ nodes, s.Holds nodes → ∃ nodes', (s.exec op).Holds nodes' ∧
    let seq := nodes.map s.entry
    let seq' := nodes'.map (s.exec op).entry
    match op with
    | .add node d dealloc => ((s.add node d dealloc).1, seq') =
        (if d = 0 then (Err.invalidParameter, seq)
        else if node = none then (.failureGeneral, seq) else (.success, (d, dealloc) :: seq)) ∧
        (s.exec (.add node d dealloc)).deallocated = s.deallocated
    | .remove => (s.remove.1, s.remove.2.1) =
        (if seq = [] then (.unavailableResource, none)
        else (.success, seq.getLast?.map (·.1))) ∧ seq' = seq.dropLast ∧
        (s.exec .remove).deallocated = s.deallocated
    | .search equal copied rmIfFound =>
        let found := seq.find? (equal ·.1)
        ((s.search equal copied rmIfFound).1, (s.search equal copied rmIfFound).2.1) =
          (if seq = [] then Err.unavailableResource else .success, found.map (·.1)) ∧
        seq' = (if rmIfFound then seq.eraseP (equal ·.1) else seq) ∧
        (s.exec (.search equal copied rmIfFound)).deallocated = s.deallocated ++
          (if rmIfFound && !copied then givenBack found.toList else [])
    | .flush => seq' = [] ∧ (s.exec .flush).deallocated = s.deallocated ++ givenBack seq

variable {s} {nodes u v : List Nat} {a : Nat}

theorem Holds.next (h : s.Holds nodes) : s.links.next none = nodes.head? :=
  (Lists.links (u := []) h.lists).1

theorem Holds.prev (h : s.Holds nodes) : s.links.prev none = nodes.getLast? :=
  (Lists.links (v := []) ((List.append_nil nodes).symm ▸ h.lists)).2

theorem giveBack_eq : s.giveBack a =
    { s with deallocated := s.deallocated ++ givenBack [s.entry a] } := by
  unfold giveBack
  cases h : s.dealloc a <;> simp [givenBack, entry, h]

theorem Holds.free (h : s.Holds (u ++ a :: v)) {t : LinkedList}
    (hlinks : t.links = s.links.bypass (some a)) (hlive : t.live = s.live)
    (hsound : t.faulted = s.faulted) : (t.free a).Holds (u ++ v) := by
  refine ⟨?_, ?_, ?_⟩
  · exact hlinks ▸ h.lists.bypass
  · have herase := (h.live.trans List.perm_middle).erase a
    rw [List.erase_cons_head] at herase
    simpa only [LinkedList.free, hlive] using herase
  · have hmem : a ∈ t.live := hlive ▸ h.live.mem_iff.mpr (by simp)
    simp [LinkedList.free, hmem, hsound, h.sound]

theorem Holds.searchLoop {f : Nat → Bool} {k : Nat} (h : s.Holds (u ++ v))
    (hfuel : v.length < k) :
    s.searchLoop f k v.head? = some (v.find? (f <| s.data ·)) := by
  induction v generalizing u k with
  | nil =>
    obtain ⟨k, rfl⟩ := Nat.exists_eq_add_of_lt hfuel
    simp [LinkedList.searchLoop]
  | cons a v ih =>
    obtain ⟨k, rfl⟩ := Nat.exists_eq_add_of_lt (Nat.zero_lt_of_lt hfuel)
    have hlive : a ∈ s.live := h.live.mem_iff.mpr (by simp)
    have hnext : s.links.next (some a) = v.head? := (Lists.around h.lists).1
    have hrest : s.Holds ((u ++ [a]) ++ v) := by simpa using h
    rw [Nat.zero_add, List.head?_cons, LinkedList.searchLoop, if_neg (not_not.mpr hlive), hnext,
      ih hrest (by simpa using hfuel), List.find?_cons]
    cases f (s.data a) <;> rfl

theorem Holds.flushLoop {t : LinkedList} {k : Nat} (h : s.links.Lists (u ++ v))
    (hnone : t.links.next none = v.head?)
    (hnext : ∀ b, t.links.next (some b) = s.links.next (some b)) (hlive : t.live.Perm v)
    (hsound : t.faulted = false) (hfuel : v.length < k) :
    (flushLoop k t).links.next none = none ∧ (flushLoop k t).live = [] ∧
      (flushLoop k t).faulted = false ∧
        (flushLoop k t).deallocated = t.deallocated ++ givenBack (v.map t.entry) := by
  induction v generalizing u t k with
  | nil =>
    obtain ⟨k, rfl⟩ := Nat.exists_eq_add_of_lt hfuel
    simp [LinkedList.flushLoop, hnone, hlive.eq_nil, hsound, givenBack]
  | cons a v ih =>
    obtain ⟨k, rfl⟩ := Nat.exists_eq_add_of_lt (Nat.zero_lt_of_lt hfuel)
    have hmem : a ∈ t.live := hlive.mem_iff.mpr List.mem_cons_self
    have hafter : t.links.next (some a) = v.head? := (hnext a).trans (Lists.around h).1
    have hrest : s.links.Lists ((u ++ [a]) ++ v) := by simpa using h
    have herase := hlive.erase a
    rw [List.erase_cons_head] at herase
    rw [Nat.zero_add, LinkedList.flushLoop, hnone]
    simp only [List.head?_cons, giveBack_eq, LinkedList.free]
    obtain ⟨hlinks, hlive', hsound', hdeallocated⟩ := ih
      (t := { t with
        links.next := Function.update t.links.next none (t.links.next (some a))
        live := t.live.erase a
        deallocated := t.deallocated ++ givenBack [t.entry a]
        faulted := t.faulted || decide (a ∉ t.live) }) hrest (k := k)
      (by simpa using hafter) (by simpa using hnext) herase (by simp [hsound, hmem])
      (by simpa using hfuel)
    refine ⟨hlinks, hlive', hsound', hdeallocated.trans ?_⟩
    rw [List.append_assoc, List.map_cons]
    exact congrArg _ (by simp [givenBack, ← List.map_append, ← List.filter_append]; rfl)

theorem refines (hexists : ∃ nodes, s.Holds nodes) (op : Op) (henabled : s.Enabled op) :
    s.Refines op := by
  refine ⟨hexists, fun nodes h => ?_⟩
  have hnext := h.next
  have hprev := h.prev
  have hlength : nodes.length < s.live.length + 1 := by
    rw [h.live.length_eq]
    exact Nat.lt_succ_self _
  cases op with
  | add node d dealloc =>
    by_cases hd : d = 0
    · refine ⟨nodes, ?_⟩
      simp [exec, add, hd, h]
    · cases node with
      | none =>
        refine ⟨nodes, ?_⟩
        simp [exec, add, hd, h]
      | some a =>
        have ha : a ∉ nodes := mt h.live.mem_iff.mpr (henabled a rfl)
        refine ⟨a :: nodes, ?_⟩
        simp only [exec, add, hd, if_false, hnext]
        refine ⟨⟨Lists.insert (u := []) h.lists ha, h.live.cons a, h.sound⟩, ?_, trivial⟩
        have hother : ∀ b ∈ nodes, b ≠ a := fun b hb => ne_of_mem_of_not_mem hb ha
        simpa [entry] using fun b hb => by simp [hother b hb]
  | remove =>
    obtain rfl | ⟨nodes, a, rfl⟩ := nodes.eq_nil_or_concat'
    · refine ⟨[], ?_⟩
      rw [List.getLast?_nil] at hprev
      simp [exec, remove, hprev, h]
    · obtain ⟨hafter, -⟩ := Lists.around (v := []) h.lists
      rw [List.getLast?_concat] at hprev
      refine ⟨nodes, ?_⟩
      simp only [exec, remove, hprev]
      refine ⟨?_, by simp [entry], ?_, rfl⟩
      · have hfree := h.free (t := { s with
            links.next := Function.update s.links.next (s.links.prev (some a)) none
            links.prev := Function.update s.links.prev none (s.links.prev (some a)) })
          (by simp [bypass, hafter]) rfl rfl
        rwa [List.append_nil] at hfree
      · rw [List.map_append, List.map_singleton, List.dropLast_concat]
        rfl
  | search equal copied rmIfFound =>
    have hloop := h.searchLoop (f := equal) (u := []) hlength
    have hfind : (nodes.map s.entry).find? (equal ·.1) =
        (nodes.find? (equal <| s.data ·)).map s.entry := List.find?_map
    have hempty : s.links.prev none = none ↔ nodes.map s.entry = [] := by
      rw [hprev, List.getLast?_eq_none_iff, List.map_eq_nil_iff]
    by_cases hnone : s.links.prev none = none
    · have hnil := List.map_eq_nil_iff.mp (hempty.mp hnone)
      refine ⟨nodes, ?_⟩
      simpa [exec, search, hnone, hnil, givenBack] using hnil ▸ h
    · have hseq : nodes.map s.entry ≠ [] := mt hempty.mpr hnone
      cases hfound : nodes.find? (equal <| s.data ·) with
      | none =>
        have hsearch : s.search equal copied rmIfFound = (.success, none, s) := by
          rw [search, if_neg hnone, hnext, hloop, hfound]
        have hnot : ∀ e ∈ nodes.map s.entry, ¬ equal e.1 = true :=
          List.forall_mem_map.mpr fun a ha => List.find?_eq_none.mp hfound a ha
        rw [hfound] at hfind
        refine ⟨nodes, ?_⟩
        simp only [exec, hsearch, hfind, if_neg hseq]
        exact ⟨h, rfl, by simp [List.eraseP_of_forall_not hnot], by simp [givenBack]⟩
      | some a =>
        obtain ⟨hequal, u, v, hsplit, hbefore⟩ := List.find?_eq_some_iff_append.mp hfound
        have hsearch : s.search equal copied rmIfFound = (.success, some (s.data a),
            if rmIfFound then
              (if copied then { s with links := s.links.bypass (some a) }
              else { s with links := s.links.bypass (some a) }.giveBack a).free a
            else s) := by
          rw [search, if_neg hnone, hnext, hloop, hfound]
          cases rmIfFound <;> rfl
        have herase : (nodes.map s.entry).eraseP (equal ·.1) = (u ++ v).map s.entry := by
          rw [hsplit, List.map_append, List.eraseP_append_right, List.map_cons, List.map_append]
          · exact congrArg _ (List.eraseP_cons_of_pos hequal)
          · exact List.forall_mem_map.mpr fun b hb => by simpa [entry] using hbefore b hb
        rw [hfound] at hfind
        refine ⟨if rmIfFound then u ++ v else nodes, ?_⟩
        simp only [exec, hsearch, hfind, if_neg hseq, herase, giveBack_eq]
        cases rmIfFound with
        | false => exact ⟨h, rfl, rfl, by simp⟩
        | true =>
          refine ⟨(hsplit ▸ h).free ?_ ?_ ?_, rfl, ?_, ?_⟩ <;> cases copied <;>
            first | rfl | simp [LinkedList.free]
  | flush =>
    obtain ⟨hnone, hlive, hsound, hdeallocated⟩ :=
      Holds.flushLoop (u := []) h.lists hnext (fun _ => rfl) h.live h.sound hlength
    refine ⟨[], ⟨?_, ?_, hsound⟩, rfl, hdeallocated⟩
    · exact Ring.empty.mpr ⟨hnone, by simp [exec, flush]⟩
    · exact .of_eq hlive

theorem holds_new : Holds {} [] := ⟨Ring.empty.mpr ⟨rfl, rfl⟩, .nil, rfl⟩

end LinkedList

structure MsgQ where
  msg_list : LinkedList := {}
  unblocked : Bool := false

namespace MsgQ

/-- The operations, each of which holds the mutex. A receiver that has waited for a message and is
woken up does not look at `unblocked` again. -/
inductive Op
  | snd (node : Option Nat) (msg : Nat) (dealloc : Bool)
  | rcv (waited : Bool)
  | flush
  | unblock

variable (q : MsgQ)

def snd (node : Option Nat) (msg : Nat) (dealloc : Bool) : Err × MsgQ :=
  if msg = 0 then (.invalidParameter, q)
  else if q.unblocked then (.unavailableResource, q)
  else
    let r := q.msg_list.add node msg dealloc
    (r.1, { q with msg_list := r.2 })

def rcv (waited : Bool) : Err × Option Nat × MsgQ :=
  if q.unblocked && !waited then (.unavailableResource, none, q)
  else
    let r := q.msg_list.remove
    (r.1, r.2.1, { q with msg_list := r.2.2 })

def exec (q : MsgQ) : Op → MsgQ
  | .snd node msg dealloc => (q.snd node msg dealloc).2
  | .rcv waited => (q.rcv waited).2.2
  | .flush => { q with msg_list := q.msg_list.flush }
  | .unblock => { q with unblocked := true }

/-- An element is allocated where none is, and a receiver waits until there is a message or the
queue is unblocked. -/
def Enabled : Op → Prop
  | .snd node _ _ => ∀ a ∈ node, a ∉ q.msg_list.live
  | .rcv _ => q.unblocked = true ∨ q.msg_list.links.next none ≠ none
  | _ => True

def pending (nodes : List Nat) : List (Nat × Bool) := (nodes.map q.msg_list.entry).reverse

def accepted : Op → List (Nat × Bool)
  | .snd node msg dealloc =>
    if (q.snd node msg dealloc).1 = .success then [(msg, dealloc)] else []
  | _ => []

def received (pending : List (Nat × Bool)) : Op → List (Nat × Bool)
  | .rcv waited => if (q.rcv waited).1 = .success then pending.take 1 else []
  | _ => []

/-- Messages are accepted at the end of the queue and received from its front, a message that is
received is the one that is copied out, and what is flushed is deallocated once. -/
def Delivers (op : Op) : Prop :=
  (∃ nodes, q.msg_list.Holds nodes) ∧ ∀ nodes, q.msg_list.Holds nodes →
    ∃ nodes', (q.exec op).msg_list.Holds nodes' ∧
    let flushed := match op with
      | .flush => q.pending nodes
      | _ => []
    q.received (q.pending nodes) op ++ flushed ++ (q.exec op).pending nodes' =
      q.pending nodes ++ q.accepted op ∧
    (q.exec op).msg_list.deallocated =
      q.msg_list.deallocated ++ LinkedList.givenBack flushed.reverse ∧
    ∀ waited, op = .rcv waited →
      (q.rcv waited).2.1 = (q.received (q.pending nodes) op).head?.map (·.1)

variable {q} {nodes : List Nat}

theorem delivers (hexists : ∃ nodes, q.msg_list.Holds nodes) {op : Op} (henabled : q.Enabled op) :
    q.Delivers op := by
  refine ⟨hexists, fun nodes h => ?_⟩
  have hempty : ∀ entries : List (Nat × Bool),
      ([] : List (Nat × Bool)) ++ [] ++ entries = entries ++ [] := by simp
  have hnone : LinkedList.givenBack [] = [] := rfl
  cases op with
  | unblock => exact ⟨nodes, h, hempty _, (List.append_nil _).symm, nofun⟩
  | flush =>
    obtain ⟨nodes', hholds, hnil, hdeallocated⟩ :=
      (LinkedList.refines ⟨nodes, h⟩ .flush trivial).2 nodes h
    have hnil := List.map_eq_nil_iff.mp hnil
    refine ⟨nodes', hholds, ?_, ?_, nofun⟩
    · simp [received, accepted, pending, hnil]
    · rw [pending, List.reverse_reverse]
      exact hdeallocated
  | snd node msg dealloc =>
    obtain ⟨nodes', hholds, hseq, hdeallocated⟩ :=
      (LinkedList.refines ⟨nodes, h⟩ (.add node msg dealloc) henabled).2 nodes h
    by_cases hrefused : msg = 0 ∨ q.unblocked = true
    · have hsnd : (q.snd node msg dealloc).1 ≠ .success ∧ (q.snd node msg dealloc).2 = q := by
        unfold snd
        by_cases hzero : msg = 0
        · simp [hzero]
        · simp [hzero, hrefused.resolve_left hzero]
      refine ⟨nodes, ?_⟩
      simp only [exec, accepted, if_neg hsnd.1, hsnd.2]
      exact ⟨h, hempty _, (List.append_nil _).symm, nofun⟩
    · obtain ⟨hzero, hblocked⟩ := not_or.mp hrefused
      have hsnd : q.snd node msg dealloc = ((q.msg_list.add node msg dealloc).1,
          { q with msg_list := (q.msg_list.add node msg dealloc).2 }) := by
        rw [snd, if_neg hzero, if_neg hblocked]
      refine ⟨nodes', ?_⟩
      simp only [exec, accepted, hsnd]
      refine ⟨hholds, ?_, hdeallocated.trans (List.append_nil _).symm, nofun⟩
      rw [if_neg hzero] at hseq
      split_ifs at hseq with hnode <;> obtain ⟨herr, hentries⟩ := Prod.mk.inj hseq
      · rw [herr]
        exact congrArg List.reverse hentries |>.trans (List.append_nil _).symm
      · rw [herr]
        exact (congrArg List.reverse hentries).trans List.reverse_cons
  | rcv waited =>
    obtain ⟨nodes', hholds, hseq, hrest, hdeallocated⟩ :=
      (LinkedList.refines ⟨nodes, h⟩ .remove trivial).2 nodes h
    by_cases hblocked : q.unblocked && !waited
    · refine ⟨nodes, ?_⟩
      simp only [exec, received, rcv, if_pos hblocked]
      refine ⟨h, hempty _, (List.append_nil _).symm, ?_⟩
      rintro _ ⟨⟩
      rw [if_pos hblocked]
      rfl
    · refine ⟨nodes', ?_⟩
      simp only [exec, received, rcv, if_neg hblocked]
      refine ⟨hholds, ?_, hdeallocated.trans (List.append_nil _).symm, ?_⟩
      · change _ ++ [] ++ (nodes'.map (q.msg_list.exec .remove).entry).reverse = _
        obtain hnil | ⟨seq, e, hconcat⟩ := (nodes.map q.msg_list.entry).eq_nil_or_concat'
        · simp [pending, accepted, hrest, hnil]
        · rw [hconcat, if_neg (by simp)] at hseq
          obtain ⟨herr, -⟩ := Prod.mk.inj hseq
          simp [pending, accepted, hrest, hconcat, herr]
      · rintro _ ⟨⟩
        rw [if_neg hblocked]
        obtain hnil | ⟨seq, e, hconcat⟩ := (nodes.map q.msg_list.entry).eq_nil_or_concat'
        · rw [if_pos hnil] at hseq
          obtain ⟨-, hmsg⟩ := Prod.mk.inj hseq
          simp [pending, hnil, hmsg]
        · rw [hconcat, if_neg (by simp)] at hseq
          obtain ⟨herr, hmsg⟩ := Prod.mk.inj hseq
          simp [pending, hconcat, herr, hmsg]

end MsgQ

/-- In every run, the operations of a list refine those of the sequence of its entries, and the
messages of a queue pass through it in order. -/
theorem linkedList_msgQ_along :
    (∀ ops, System.Along LinkedList.Enabled LinkedList.exec ops {} →
      System.Along LinkedList.Refines LinkedList.exec ops {}) ∧
    ∀ ops, System.Along MsgQ.Enabled MsgQ.exec ops {} →
      System.Along MsgQ.Delivers MsgQ.exec ops {} := by
  refine ⟨fun ops henabled => ?_, fun ops henabled => ?_⟩
  · refine System.Along.imp (P := fun s => ∃ nodes, s.Holds nodes) (fun s op h henabled => ?_)
      ⟨[], LinkedList.holds_new⟩ henabled
    obtain ⟨nodes', hholds, -⟩ := (LinkedList.refines h _ henabled).2 _ h.choose_spec
    exact ⟨LinkedList.refines h _ henabled, nodes', hholds⟩
  · refine System.Along.imp (P := fun q => ∃ nodes, q.msg_list.Holds nodes)
      (fun q op h henabled => ?_) ⟨[], LinkedList.holds_new⟩ henabled
    obtain ⟨nodes', hholds, -⟩ := (MsgQ.delivers h henabled).2 _ h.choose_spec
    exact ⟨MsgQ.delivers h henabled, nodes', hholds⟩

/-- Two entries of which the older one is found, and two messages of which one is received. -/
theorem linkedList_msgQ_along_two :
    System.Along LinkedList.Refines LinkedList.exec
      [.add (some 0) 7 true, .add (some 1) 8 false, .search (· == 7) false true, .flush] {} ∧
    System.Along MsgQ.Delivers MsgQ.exec
      [.snd (some 0) 7 true, .snd (some 1) 8 true, .rcv false, .flush] {} :=
  ⟨linkedList_msgQ_along.1 _ (by simp [System.Along, LinkedList.Enabled, LinkedList.exec,
    LinkedList.add]), linkedList_msgQ_along.2 _ (by simp [System.Along, MsgQ.Enabled, MsgQ.exec,
    MsgQ.snd, LinkedList.add, insert_next])⟩

end EtherDevice.GpsUtils
