import EtherDevice.Lib.Chain
import EtherDevice.Lib.Transition
import Mathlib.Data.List.Range
import Mathlib.Logic.Function.Basic

/-!
# The command queue

`PostEvt` appends a message to the queue of `MessageQueue`, and the thread of `Process` takes the
messages from it. A step is a locked section, or a read or write outside of one. Pointers are
numbers, with `0` for `NULL`, and `new` may give the address of a message that was deleted.
-/

namespace EtherDevice.Ipacm.CmdQueue

open Lib

structure MessageQueue where
  head : Nat := 0
  tail : Nat := 0

/-- Where a thread is in `getInstance`, or which queue it got there. -/
inductive Phase
  | outside | creating | returning
  | has (queue : Nat)
deriving DecidableEq

inductive ProcessPc
  | looping
  | waiting (signalled : Bool)
  | handling (item : Nat)
  | deleting (item : Nat)
deriving DecidableEq

/-- The thread `none` is that of `Process`; the others post, those included that a handler is on.
A message gets a number when it is enqueued, and `handed` and `deleted` list the numbers of the
messages that were. -/
structure State where
  inst : Option Nat := none
  queues : Nat → MessageQueue := fun _ => {}
  created : Nat := 0
  next : Nat → Nat := fun _ => 0
  live : Nat → Bool := fun _ => false
  phase : Option Nat → Phase := fun _ => .outside
  item : Nat → Nat := fun _ => 0
  process : ProcessPc := .looping
  number : Nat → Nat := fun _ => 0
  enqueued : Nat := 0
  handed : List Nat := []
  deleted : List Nat := []
  fault : Bool := false

namespace State

variable (s : State)

def touch (p : Nat) : State := { s with fault := s.fault || !s.live p }

def setPhase (t : Option Nat) (phase : Phase) : State :=
  { s with phase := Function.update s.phase t phase }

/-- `getInstance` in three steps: the test of `inst`, the creation, and the read for the result. -/
def check (t : Option Nat) : State :=
  s.setPhase t (if s.inst = none then .creating else .returning)

def create (t : Option Nat) : State :=
  { s.setPhase t .returning with
    inst := some s.created
    queues := Function.update s.queues s.created {}
    created := s.created + 1 }

def ret (t : Option Nat) : State :=
  match s.inst with
  | none => s
  | some q => s.setPhase t (.has q)

def newMessage (t a : Nat) : State :=
  { s with
    next := Function.update s.next a 0
    live := Function.update s.live a true
    item := Function.update s.item t a }

def enqueue (q item : Nat) : State :=
  let queue := s.queues q
  if queue.head = 0 then { s with queues := Function.update s.queues q ⟨item, item⟩ }
  else
    let last := if queue.tail = 0 then queue.head else queue.tail
    { s.touch last with
      next := Function.update s.next last item
      queues := Function.update s.queues q { queue with tail := item } }

def dequeue (q : Nat) : State × Nat :=
  let queue := s.queues q
  if queue.head = 0 then (s, 0)
  else
    ({ s.touch queue.head with
        queues := Function.update s.queues q { queue with head := s.next queue.head } }, queue.head)

/-- `pthread_cond_signal` wakes the thread of `Process` if it waits. -/
def signal : ProcessPc → ProcessPc
  | .waiting _ => .waiting true
  | pc => pc

def post (t : Nat) : State :=
  match s.phase (some t) with
  | .has q =>
    { (s.enqueue q (s.item t)).setPhase (some t) .outside with
      item := Function.update s.item t 0
      process := signal s.process
      number := Function.update s.number (s.item t) s.enqueued
      enqueued := s.enqueued + 1 }
  | _ => s

/-- The locked section of `Process`, up to the wait if nothing is there. -/
def take : State :=
  match s.phase none with
  | .has q =>
    let taken := s.dequeue q
    { taken.1 with process := if taken.2 = 0 then .waiting false else .handling taken.2 }
  | _ => s

def callback : State :=
  match s.process with
  | .handling a =>
    { s.touch a with process := .deleting a, handed := s.handed ++ [s.number a] }
  | _ => s

def delete : State :=
  match s.process with
  | .deleting a =>
    { s.touch a with
      process := .looping
      live := Function.update s.live a false
      deleted := s.deleted ++ [s.number a] }
  | _ => s

end State

inductive Label
  | check (t : Option Nat)
  | create (t : Option Nat)
  | ret (t : Option Nat)
  | newMessage (t a : Nat)
  | post (t : Nat)
  | take | wake | callback | delete

def next (s : State) : Label → State
  | .check t => s.check t
  | .create t => s.create t
  | .ret t => s.ret t
  | .newMessage t a => s.newMessage t a
  | .post t => s.post t
  | .take => s.take
  | .wake => { s with process := .looping }
  | .callback => s.callback
  | .delete => s.delete

def Phase.queue : Phase → Option Nat
  | .has q => some q
  | _ => none

/-- A wait may end without a signal. -/
def Enabled (s : State) : Label → Prop
  | .check t => s.phase t = .outside
  | .create t => s.phase t = .creating
  | .ret t => s.phase t = .returning
  | .newMessage t a => (s.phase (some t)).queue ≠ none ∧ s.item t = 0 ∧ a ≠ 0 ∧ s.live a = false
  | .post t => (s.phase (some t)).queue ≠ none ∧ s.item t ≠ 0
  | .take => (s.phase none).queue ≠ none ∧ s.process = .looping
  | .wake => s.process = .waiting true ∨ s.process = .waiting false
  | .callback => ∃ a, s.process = .handling a
  | .delete => ∃ a, s.process = .deleting a

/-- No thread finds that there is no queue while another one is on its way to create it. -/
def Cond (s : State) : Label → Prop
  | .check _ => s.inst = none → ∀ t, s.phase t ≠ .creating
  | _ => True

def system : System State Label := System.ofFunction (· = {}) Enabled next

/-- The messages are handed over and deleted once each, in the order in which they came, and
`Process` does not sleep over one. -/
structure Delivered (s : State) : Prop where
  fault : s.fault = false
  handed : s.handed = List.range s.handed.length
  handed_le : s.handed.length ≤ s.enqueued
  deleted : s.deleted = List.range s.deleted.length
  deleted_le : s.deleted.length ≤ s.handed.length ∧ s.handed.length ≤ s.deleted.length + 1
  blocked : s.process = .waiting false → (∀ q ∈ (s.phase none).queue, (s.queues q).head = 0) ∧
    s.handed.length = s.enqueued ∧ s.deleted = s.handed

/-! ## The invariant -/

/-- The pointer to follow from a message. That of `0` is the head of the first queue. -/
def State.link (s : State) (p : Nat) : Nat := if p = 0 then (s.queues 0).head else s.next p

/-- The message that was taken and is not handed over yet. -/
def ProcessPc.taken : ProcessPc → List Nat
  | .handling a => [a]
  | _ => []

def ProcessPc.item : ProcessPc → Option Nat
  | .handling a => some a
  | .deleting a => some a
  | _ => none

def OneQueue (s : State) (l : List Nat) : Prop :=
  (s.inst = none ∧ s.created = 0 ∧ l = [] ∧ (∀ t, s.phase t = .outside ∨ s.phase t = .creating) ∧
      ∀ t t', s.phase t = .creating → s.phase t' = .creating → t = t') ∨
    s.inst = some 0 ∧ ∀ t, s.phase t = .outside ∨ s.phase t = .returning ∨ s.phase t = .has 0

/-- The queue holds the messages of `l`, in that order. -/
structure Inv (s : State) (l : List Nat) : Prop where
  one : OneQueue s l
  walk : Walk s.link 0 l
  nodup : (0 :: l).Nodup
  tail : l ≠ [] → (s.queues 0).tail = lastOf 0 l
  live : ∀ a ∈ l, s.live a = true
  current : ∀ a ∈ s.process.item, s.live a = true ∧ a ∉ l ∧ a ≠ 0
  items : ∀ t, s.item t ≠ 0 → s.live (s.item t) = true ∧ s.item t ∉ l ∧
    s.item t ∉ s.process.item ∧ s.next (s.item t) = 0
  items_ne : ∀ t t', s.item t ≠ 0 → s.item t = s.item t' → t = t'
  numbers : (s.process.taken ++ l).map s.number =
    List.range' s.handed.length (s.enqueued - s.handed.length)
  handed : s.handed = List.range s.handed.length
  handed_le : s.handed.length ≤ s.enqueued
  deleted : match s.process with
    | .deleting a => s.handed = s.deleted ++ [s.number a]
    | _ => s.handed = s.deleted
  blocked : s.process = .waiting false → l = []
  fault : s.fault = false

theorem inv_init : Inv {} [] where
  one := Or.inl ⟨rfl, rfl, rfl, fun _ => Or.inl rfl, fun _ _ h => by cases h⟩
  walk := rfl
  nodup := by simp
  tail h := absurd rfl h
  live := by simp
  current := by simp [ProcessPc.item]
  items := by simp
  items_ne := by simp
  numbers := by simp [ProcessPc.taken]
  handed := rfl
  handed_le := Nat.le_refl _
  deleted := rfl
  blocked h := by cases h
  fault := rfl

variable {s : State} {l : List Nat}

theorem Inv.head_eq (hs : Inv s l) : (s.queues 0).head = l.headD 0 := hs.walk.next_eq

theorem Inv.delivered (hs : Inv s l) : Delivered s := by
  have hdeleted := hs.deleted
  have hrange := hs.handed
  have hlengths : s.deleted = List.range s.deleted.length ∧
      s.deleted.length ≤ s.handed.length ∧ s.handed.length ≤ s.deleted.length + 1 := by
    cases hprocess : s.process with
    | deleting a =>
      rw [hprocess] at hdeleted
      dsimp only at hdeleted
      have hlen := congrArg List.length hdeleted
      rw [List.length_append, List.length_singleton] at hlen
      refine ⟨?_, by omega, by omega⟩
      rw [hdeleted] at hrange
      rw [List.length_append, List.length_singleton, List.range_succ] at hrange
      exact (List.append_inj' hrange rfl).1
    | looping | waiting | handling =>
      rw [hprocess] at hdeleted
      dsimp only at hdeleted
      rw [← hdeleted]
      exact ⟨hrange, Nat.le_refl _, Nat.le_succ _⟩
  refine ⟨hs.fault, hrange, hs.handed_le, hlengths.1, hlengths.2, fun hblocked => ?_⟩
  have hnil := hs.blocked hblocked
  subst hnil
  have hnumbers := congrArg List.length hs.numbers
  have hle := hs.handed_le
  rw [hblocked] at hnumbers hdeleted
  simp only [ProcessPc.taken, List.append_nil, List.map_nil, List.length_nil,
    List.length_range'] at hnumbers
  refine ⟨fun q hq => ?_, by omega, hdeleted.symm⟩
  obtain ⟨-, -, -, hphase, -⟩ | ⟨-, hphase⟩ := hs.one
  · obtain h | h := hphase none <;> simp [h, Phase.queue] at hq
  · obtain h | h | h := hphase none <;> simp [h, Phase.queue] at hq
    subst hq
    exact hs.head_eq

/-! ## The steps -/

theorem Inv.of_phases (hs : Inv s l) {s' : State} (hone : OneQueue s' l)
    (hqueue : s'.queues 0 = s.queues 0) (hrest : (s'.next, s'.live, s'.item, s'.process, s'.number,
      s'.enqueued, s'.handed, s'.deleted, s'.fault) = (s.next, s.live, s.item, s.process, s.number,
      s.enqueued, s.handed, s.deleted, s.fault)) : Inv s' l := by
  simp only [Prod.mk.injEq] at hrest
  obtain ⟨hnext, hlive, hitem, hprocess, hnumber, henqueued, hhanded, hdeleted, hfault⟩ := hrest
  have hlink : s'.link = s.link := by
    funext p
    simp only [State.link, hqueue, hnext]
  refine ⟨hone, ?_, hs.nodup, ?_, ?_, ?_, ?_, ?_, ?_, ?_, ?_, ?_, ?_, ?_⟩
  · rw [hlink]
    exact hs.walk
  · rw [hqueue]
    exact hs.tail
  · rw [hlive]
    exact hs.live
  · rw [hprocess, hlive]
    exact hs.current
  · rw [hitem, hlive, hprocess, hnext]
    exact hs.items
  · rw [hitem]
    exact hs.items_ne
  · rw [hprocess, hnumber, hhanded, henqueued]
    exact hs.numbers
  · rw [hhanded]
    exact hs.handed
  · rw [hhanded, henqueued]
    exact hs.handed_le
  · rw [hprocess, hhanded, hdeleted, hnumber]
    exact hs.deleted
  · rw [hprocess]
    exact hs.blocked
  · rw [hfault]
    exact hs.fault

theorem Inv.check (hs : Inv s l) {t : Option Nat} (hcond : Cond s (.check t)) :
    Inv (s.check t) l := by
  refine hs.of_phases ?_ rfl rfl
  obtain ⟨hinst, hcreated, hnil, hphase, hunique⟩ | ⟨hinst, hphase⟩ := hs.one
  · refine Or.inl ⟨hinst, hcreated, hnil, fun t' => ?_, fun t₁ t₂ h₁ h₂ => ?_⟩
    · by_cases ht : t' = t
      · subst ht
        exact Or.inr (by simp [State.check, State.setPhase, hinst])
      · simpa [State.check, State.setPhase, ht] using hphase t'
    · have hnone := hcond hinst
      have hself : ∀ t', (s.check t).phase t' = .creating → t' = t := by
        intro t' ht'
        by_contra hne
        simp only [State.check, State.setPhase, Function.update_of_ne hne] at ht'
        exact hnone t' ht'
      rw [hself t₁ h₁, hself t₂ h₂]
  · refine Or.inr ⟨hinst, fun t' => ?_⟩
    by_cases ht : t' = t
    · subst ht
      exact Or.inr (Or.inl (by simp [State.check, State.setPhase, hinst]))
    · simpa [State.check, State.setPhase, ht] using hphase t'

theorem Inv.create (hs : Inv s l) {t : Option Nat} (ht : s.phase t = .creating) :
    Inv (s.create t) l := by
  obtain ⟨hinst, hcreated, rfl, hphase, hunique⟩ | ⟨-, hphase⟩ := hs.one
  · have hone : OneQueue (s.create t) [] := by
      refine Or.inr ⟨by simp [State.create, State.setPhase, hcreated], fun t' => ?_⟩
      by_cases ht' : t' = t
      · subst ht'
        exact Or.inr (Or.inl (by simp [State.create, State.setPhase]))
      · simp only [State.create, State.setPhase, Function.update_of_ne ht']
        obtain h | h := hphase t'
        · exact Or.inl h
        · exact absurd (hunique t' t h ht) ht'
    refine ⟨hone, ?_, hs.nodup, fun h => absurd rfl h, hs.live, hs.current, hs.items, hs.items_ne,
      hs.numbers, hs.handed, hs.handed_le, hs.deleted, hs.blocked, hs.fault⟩
    show (s.create t).link 0 = 0
    simp [State.create, State.setPhase, State.link, hcreated]
  · obtain h | h | h := hphase t <;> simp [h] at ht

theorem Inv.ret (hs : Inv s l) (t : Option Nat) : Inv (s.ret t) l := by
  rw [State.ret]
  split
  · exact hs
  · rename_i q hq
    refine hs.of_phases ?_ rfl rfl
    obtain ⟨hinst, -⟩ | ⟨hinst, hphase⟩ := hs.one
    · simp [hinst] at hq
    · obtain rfl : 0 = q := by simpa [hinst] using hq
      refine Or.inr ⟨hinst, fun t' => ?_⟩
      by_cases ht : t' = t
      · subst ht
        exact Or.inr (Or.inr (by simp [State.setPhase]))
      · simpa [State.setPhase, ht] using hphase t'

theorem Inv.has_zero (hs : Inv s l) {t : Option Nat} {q : Nat} (ht : s.phase t = .has q) :
    q = 0 ∧ s.inst = some 0 := by
  obtain ⟨-, -, -, hphase, -⟩ | ⟨hinst, hphase⟩ := hs.one
  · obtain h | h := hphase t <;> simp [h] at ht
  · obtain h | h | h := hphase t <;> simp [h] at ht
    exact ⟨ht.symm, hinst⟩

theorem Inv.newMessage (hs : Inv s l) {t a : Nat} (ht : s.item t = 0) (ha : a ≠ 0)
    (hfree : s.live a = false) : Inv (s.newMessage t a) l := by
  have hnot : ∀ b, s.live b = true → b ≠ a := by
    rintro b hb rfl
    simp [hb] at hfree
  have hother : ∀ t', t' ≠ t → (s.newMessage t a).item t' = s.item t' := fun t' hne => by
    simp [State.newMessage, hne]
  have hself : (s.newMessage t a).item t = a := by simp [State.newMessage]
  refine ⟨hs.one, hs.walk.congr fun x hx => ?_, hs.nodup, hs.tail, fun b hb => ?_, fun b hb => ?_,
    fun t' ht' => ?_, fun t₁ t₂ h₁ h₂ => ?_, hs.numbers, hs.handed, hs.handed_le, hs.deleted,
    hs.blocked, hs.fault⟩
  · obtain rfl | hx := List.mem_cons.1 hx
    · rfl
    · simp [State.link, State.newMessage, hnot x (hs.live x hx)]
  · simp [State.newMessage, hnot b (hs.live b hb), hs.live b hb]
  · obtain ⟨hlive, hmem⟩ := hs.current b hb
    simp [State.newMessage, hnot b hlive, hlive, hmem]
  · by_cases hne : t' = t
    · subst hne
      rw [hself]
      refine ⟨by simp [State.newMessage], fun hmem => hnot a (hs.live a hmem) rfl, fun hmem => ?_,
        by simp [State.newMessage]⟩
      exact hnot a (hs.current a hmem).1 rfl
    · rw [hother t' hne] at ht' ⊢
      obtain ⟨hlive, hmem, hitem, hnext⟩ := hs.items t' ht'
      simp [State.newMessage, hnot _ hlive, hlive, hmem, hnext]
      simpa using hitem
  · by_cases hne₁ : t₁ = t <;> by_cases hne₂ : t₂ = t
    · rw [hne₁, hne₂]
    · rw [hne₁, hself, hother t₂ hne₂] at h₂
      exact absurd h₂.symm (hnot _ (hs.items t₂ (by rw [← h₂]; exact ha)).1)
    · rw [hne₂, hself, hother t₁ hne₁] at h₂
      exact absurd h₂ (hnot _ (hs.items t₁ (by rw [h₂]; exact ha)).1)
    · rw [hother t₁ hne₁] at h₁ h₂
      rw [hother t₂ hne₂] at h₂
      exact hs.items_ne t₁ t₂ h₁ h₂

theorem Inv.enqueue (hs : Inv s l) {item : Nat} (hnext : s.next item = 0) (hitem : item ≠ 0)
    (hmem : item ∉ l) : ∃ next queues,
      s.enqueue 0 item = { s with next := next, queues := queues } ∧
      Walk ({ s with next := next, queues := queues } : State).link 0 (l ++ [item]) ∧
      (queues 0).tail = item ∧ ∀ b ∉ l, next b = s.next b := by
  have hhead := hs.head_eq
  cases l with
  | nil =>
    refine ⟨s.next, Function.update s.queues 0 ⟨item, item⟩, ?_, ?_, by simp, fun _ _ => rfl⟩
    · rw [List.headD_nil] at hhead
      simp [State.enqueue, hhead]
    · simp [Walk, State.link, hitem, hnext]
  | cons h l =>
    rw [List.headD_cons] at hhead
    have hlast : lastOf 0 (h :: l) ∈ h :: l := lastOf_mem h l
    have hlast0 : lastOf 0 (h :: l) ≠ 0 := by
      rintro heq
      rw [heq] at hlast
      exact (List.nodup_cons.1 hs.nodup).1 hlast
    have hh : h ≠ 0 := by
      rintro rfl
      exact (List.nodup_cons.1 hs.nodup).1 List.mem_cons_self
    have htail := hs.tail (by simp)
    refine ⟨Function.update s.next (lastOf 0 (h :: l)) item,
      Function.update s.queues 0 ⟨h, item⟩, ?_, ?_, by simp, fun b hb => ?_⟩
    · simp [State.enqueue, State.touch, hhead, hh, htail, hlast0, hs.live _ hlast, hs.fault]
    · refine hs.walk.concat hs.nodup hitem ?_ ?_ fun x hx hne => ?_
      · simp [State.link, hlast0]
      · have : item ≠ lastOf 0 (h :: l) := by
          rintro rfl
          exact hmem hlast
        simp [State.link, hitem, this, hnext]
      · by_cases hx0 : x = 0
        · subst hx0
          simp [State.link, hhead]
        · simp [State.link, hx0, hne]
    · rw [Function.update_of_ne]
      rintro rfl
      exact hb hlast

@[simp] theorem taken_signal (pc : ProcessPc) : (State.signal pc).taken = pc.taken := by
  cases pc <;> rfl

@[simp] theorem item_signal (pc : ProcessPc) : (State.signal pc).item = pc.item := by
  cases pc <;> rfl

theorem mem_item_of_mem_taken {pc : ProcessPc} {b : Nat} (h : b ∈ pc.taken) : b ∈ pc.item := by
  cases pc <;> simp_all [ProcessPc.taken, ProcessPc.item]

theorem Inv.post (hs : Inv s l) {t : Nat} (ht : s.item t ≠ 0) : ∃ l', Inv (s.post t) l' := by
  rw [State.post]
  split
  swap
  · exact ⟨l, hs⟩
  rename_i q hq
  obtain ⟨rfl, hinst⟩ := hs.has_zero hq
  obtain ⟨hlive, hmem, hitem, hnext⟩ := hs.items t ht
  obtain ⟨next, queues, henqueue, hwalk, htail, hkept⟩ := hs.enqueue hnext ht hmem
  rw [henqueue]
  have hphase : OneQueue ({ s with next := next, queues := queues }.setPhase (some t) .outside)
      (l ++ [s.item t]) := by
    obtain ⟨hnone, -⟩ | ⟨-, hphase⟩ := hs.one
    · simp [hinst] at hnone
    · refine Or.inr ⟨hinst, fun t' => ?_⟩
      by_cases ht' : t' = some t
      · exact Or.inl (by simp [State.setPhase, ht'])
      · simpa [State.setPhase, ht'] using hphase t'
  have hother : ∀ t', Function.update s.item t 0 t' ≠ 0 →
      t' ≠ t ∧ Function.update s.item t 0 t' = s.item t' ∧ s.item t' ≠ 0 := by
    intro t' ht'
    by_cases hne : t' = t
    · simp [hne] at ht'
    · simpa [hne] using ht'
  refine ⟨l ++ [s.item t], hphase, hwalk, ?_, fun _ => ?_, fun b hb => ?_, fun b hb => ?_,
    fun t' ht' => ?_, fun t₁ t₂ h₁ h₂ => ?_, ?_, hs.handed, ?_, ?_, fun hblocked => ?_, hs.fault⟩
  · rw [← List.cons_append, List.nodup_append]
    refine ⟨hs.nodup, List.nodup_singleton _, fun a ha b hb => ?_⟩
    obtain rfl := List.mem_singleton.1 hb
    rintro rfl
    exact (List.mem_cons.1 ha).elim ht hmem
  · exact htail.trans (lastOf_concat 0 _ l).symm
  · obtain hb | hb := List.mem_append.1 hb
    · exact hs.live b hb
    · rwa [List.mem_singleton.1 hb]
  · rw [item_signal] at hb
    obtain ⟨hblive, hbmem, hb0⟩ := hs.current b hb
    refine ⟨hblive, fun hin => ?_, hb0⟩
    obtain hin | hin := List.mem_append.1 hin
    · exact hbmem hin
    · rw [List.mem_singleton.1 hin] at hb
      exact hitem hb
  · obtain ⟨hne, heq, hne0⟩ := hother t' ht'
    obtain ⟨hlive', hmem', hitem', hnext'⟩ := hs.items t' hne0
    dsimp only [State.setPhase]
    rw [heq, item_signal]
    refine ⟨hlive', fun hin => ?_, hitem', (hkept _ hmem').trans hnext'⟩
    obtain hin | hin := List.mem_append.1 hin
    · exact hmem' hin
    · exact hne (hs.items_ne t' t hne0 (List.mem_singleton.1 hin))
  · obtain ⟨hne, heq, hne0⟩ := hother t₁ h₁
    dsimp only [State.setPhase] at h₂
    rw [heq] at h₂
    obtain ⟨hne₂, heq₂, -⟩ := hother t₂ (by rw [← h₂]; exact hne0)
    exact hs.items_ne t₁ t₂ hne0 (h₂.trans heq₂)
  · -- the new message has the next number
    have hold : (s.process.taken ++ l).map (Function.update s.number (s.item t) s.enqueued) =
        (s.process.taken ++ l).map s.number := by
      apply List.map_congr_left
      intro b hb
      rw [Function.update_of_ne]
      rintro rfl
      exact (List.mem_append.1 hb).elim (fun h => hitem (mem_item_of_mem_taken h)) hmem
    have hle := hs.handed_le
    dsimp only [State.setPhase]
    rw [taken_signal, ← List.append_assoc, List.map_append, hold, hs.numbers,
      show s.enqueued + 1 - s.handed.length = s.enqueued - s.handed.length + 1 by omega,
      List.range'_concat]
    simp only [List.map_cons, Function.update_self, List.map_nil, List.append_cancel_left_eq,
      List.cons.injEq, and_true]
    omega
  · have hle := hs.handed_le
    exact Nat.le_succ_of_le hle
  · have hdeleted := hs.deleted
    dsimp only [State.setPhase]
    cases hprocess : s.process with
    | deleting a =>
      rw [hprocess] at hdeleted hitem
      have : a ≠ s.item t := fun h => hitem (by simp [ProcessPc.item, h])
      simpa [State.signal, this] using hdeleted
    | looping | waiting | handling =>
      rw [hprocess] at hdeleted
      exact hdeleted
  · dsimp only [State.setPhase] at hblocked
    cases hprocess : s.process <;> simp [hprocess, State.signal] at hblocked

theorem Inv.take (hs : Inv s l) (hprocess : s.process = .looping) : ∃ l', Inv s.take l' := by
  rw [State.take]
  split
  swap
  · exact ⟨l, hs⟩
  rename_i q hq
  obtain ⟨rfl, hinst⟩ := hs.has_zero hq
  have hhead := hs.head_eq
  have hone : ∀ s' : State, s'.inst = s.inst → s'.phase = s.phase → ∀ l', OneQueue s' l' := by
    intro s' hi hp l'
    obtain ⟨hnone, -⟩ | ⟨-, hphase⟩ := hs.one
    · simp [hinst] at hnone
    · refine Or.inr ?_
      rw [hi, hp]
      exact ⟨hinst, hphase⟩
  have hdeleted := hs.deleted
  have hnumbers := hs.numbers
  rw [hprocess] at hdeleted hnumbers
  cases l with
  | nil =>
    rw [List.headD_nil] at hhead
    simp only [State.dequeue, hhead, if_true]
    exact ⟨[], hone _ rfl rfl _, hs.walk, hs.nodup, hs.tail, hs.live, by simp [ProcessPc.item],
      fun t ht => by simpa [ProcessPc.item, hprocess] using hs.items t ht, hs.items_ne, hnumbers,
      hs.handed, hs.handed_le, hdeleted, fun _ => rfl, hs.fault⟩
  | cons h l =>
    rw [List.headD_cons] at hhead
    obtain ⟨h0, hnodup⟩ := List.nodup_cons.1 hs.nodup
    obtain ⟨hnot, -⟩ := List.nodup_cons.1 hnodup
    have hh : h ≠ 0 := by
      rintro rfl
      exact h0 List.mem_cons_self
    have hlive := hs.live h List.mem_cons_self
    simp only [State.dequeue, hhead, hh, if_false]
    refine ⟨l, hone _ rfl rfl _, ?_, ?_, fun hne => ?_, fun b hb => ?_, ?_, fun t ht => ?_,
      hs.items_ne, hnumbers, hs.handed, hs.handed_le, hdeleted, (by simp), ?_⟩
    · refine @Walk.unlink _ _ _ _ [] _ hs.walk hs.nodup ?_ fun x hx hne => ?_
      · simp [State.link, lastOf, hh]
      · have hx0 : x ≠ 0 := hne
        simp [State.link, hx0, State.touch]
    · exact List.nodup_cons.2 ⟨fun h => h0 (List.mem_cons_of_mem _ h), hnodup.of_cons⟩
    · have htail := hs.tail (by simp)
      cases l with
      | nil => exact absurd rfl hne
      | cons b l => simpa [State.touch, lastOf] using htail
    · exact hs.live b (List.mem_cons_of_mem _ hb)
    · intro b hb
      obtain rfl : h = b := by simpa [ProcessPc.item] using hb
      exact ⟨hlive, hnot, hh⟩
    · obtain ⟨hlive', hmem', -, hnext'⟩ := hs.items t ht
      refine ⟨hlive', fun hin => hmem' (List.mem_cons_of_mem _ hin), ?_, hnext'⟩
      intro hin
      have heq : h = s.item t := by simpa [ProcessPc.item, State.touch] using hin
      exact hmem' (by rw [← heq]; exact List.mem_cons_self)
    · simp [State.touch, hs.fault, hlive]

theorem Inv.wake (hs : Inv s l)
    (hprocess : s.process = .waiting true ∨ s.process = .waiting false) :
    Inv { s with process := .looping } l := by
  have hdeleted := hs.deleted
  have hnumbers := hs.numbers
  have hitems := hs.items
  obtain hprocess | hprocess := hprocess
  all_goals
    rw [hprocess] at hdeleted hnumbers
    simp only [hprocess] at hitems
    exact ⟨hs.one, hs.walk, hs.nodup, hs.tail, hs.live, by simp [ProcessPc.item], hitems,
      hs.items_ne, hnumbers, hs.handed, hs.handed_le, hdeleted, (by simp), hs.fault⟩

theorem Inv.callback (hs : Inv s l) {a : Nat} (hprocess : s.process = .handling a) :
    Inv s.callback l := by
  have hdeleted := hs.deleted
  have hnumbers := hs.numbers
  have hitems := hs.items
  have hcurrent := hs.current
  have hle := hs.handed_le
  rw [hprocess] at hdeleted hnumbers hcurrent
  simp only [hprocess] at hitems
  have hlive := (hcurrent a rfl).1
  -- the message in hand is the first that was not handed over
  obtain ⟨n, hn⟩ : ∃ n, s.enqueued - s.handed.length = n + 1 := by
    have hlen := congrArg List.length hnumbers
    simp only [ProcessPc.taken, List.singleton_append, List.map_cons, List.length_cons,
      List.length_range'] at hlen
    exact ⟨_, hlen.symm⟩
  rw [hn, List.range'_succ] at hnumbers
  simp only [ProcessPc.taken, List.singleton_append, List.map_cons, List.cons.injEq] at hnumbers
  rw [State.callback, hprocess]
  refine ⟨hs.one, hs.walk, hs.nodup, hs.tail, hs.live, hcurrent, hitems, hs.items_ne, ?_, ?_, ?_,
    ?_, (by simp), by simp [State.touch, hs.fault, hlive]⟩
  · simp only [ProcessPc.taken, List.nil_append, State.touch, List.length_append,
      List.length_singleton]
    rw [hnumbers.2]
    congr 1
    omega
  · simp only [List.length_append, List.length_singleton]
    rw [List.range_succ, ← hs.handed, hnumbers.1]
  · simp only [State.touch, List.length_append, List.length_singleton]
    omega
  · simp only [State.touch]
    rw [hdeleted]

theorem Inv.delete (hs : Inv s l) {a : Nat} (hprocess : s.process = .deleting a) :
    Inv s.delete l := by
  have hdeleted := hs.deleted
  have hnumbers := hs.numbers
  have hcurrent := hs.current
  rw [hprocess] at hdeleted hnumbers hcurrent
  obtain ⟨hlive, hmem, -⟩ := hcurrent a rfl
  rw [State.delete, hprocess]
  refine ⟨hs.one, hs.walk, hs.nodup, hs.tail, fun b hb => ?_, by simp [ProcessPc.item],
    fun t ht => ?_, hs.items_ne, hnumbers, hs.handed, hs.handed_le, hdeleted, (by simp),
    by simp [State.touch, hs.fault, hlive]⟩
  · have hne : b ≠ a := by
      rintro rfl
      exact hmem hb
    simpa [State.touch, hne] using hs.live b hb
  · obtain ⟨hlive', hmem', hitem', hnext'⟩ := hs.items t ht
    have hne : s.item t ≠ a := by
      rintro heq
      exact hitem' (by simp [hprocess, ProcessPc.item, heq])
    refine ⟨?_, hmem', by simp [ProcessPc.item], hnext'⟩
    simpa [State.touch, hne] using hlive'

theorem Inv.next (hs : Inv s l) {i : Label} (henabled : Enabled s i) (hcond : Cond s i) :
    ∃ l', Inv (next s i) l' := by
  cases i with
  | check t => exact ⟨l, hs.check hcond⟩
  | create t => exact ⟨l, hs.create henabled⟩
  | ret t => exact ⟨l, hs.ret t⟩
  | newMessage t a => exact ⟨l, hs.newMessage henabled.2.1 henabled.2.2.1 henabled.2.2.2⟩
  | post t => exact hs.post henabled.2
  | take => exact hs.take henabled.2
  | wake => exact ⟨l, hs.wake henabled⟩
  | callback =>
    obtain ⟨a, ha⟩ := henabled
    exact ⟨l, hs.callback ha⟩
  | delete =>
    obtain ⟨a, ha⟩ := henabled
    exact ⟨l, hs.delete ha⟩

theorem invariant : (system.restrict Cond).Invariant fun s => ∃ l, Inv s l := by
  refine System.Invariant.of_restrict (fun s hs => ?_) fun s i s' hs hcond hstep => ?_
  · subst hs
    exact ⟨[], inv_init⟩
  · obtain ⟨l, hs⟩ := hs
    obtain ⟨henabled, rfl⟩ := hstep
    exact hs.next henabled hcond

/-! ## Every message is handed over -/

def Label.OfProcess : Label → Prop
  | .take | .wake | .callback | .delete => True
  | _ => False

@[simp] theorem enqueued_callback (s : State) : s.callback.enqueued = s.enqueued := by
  rw [State.callback]
  split <;> rfl

@[simp] theorem enqueued_delete (s : State) : s.delete.enqueued = s.enqueued := by
  rw [State.delete]
  split <;> rfl

@[simp] theorem phase_callback (s : State) : s.callback.phase = s.phase := by
  rw [State.callback]
  split <;> rfl

@[simp] theorem phase_delete (s : State) : s.delete.phase = s.phase := by
  rw [State.delete]
  split <;> rfl

/-- `Process` can go on alone until it has handed over and deleted all that was enqueued. -/
def Drains (s : State) : Prop :=
  ∃ labels : List Label, (∀ i ∈ labels, i.OfProcess) ∧ System.Along Enabled next labels s ∧
    (labels.foldl next s).handed.length = s.enqueued ∧
    (labels.foldl next s).deleted = (labels.foldl next s).handed

theorem Drains.of_step {i : Label} (hi : i.OfProcess) (henabled : Enabled s i)
    (henqueued : (next s i).enqueued = s.enqueued) (h : Drains (next s i)) : Drains s := by
  obtain ⟨labels, hall, halong, hhanded, hdeleted⟩ := h
  refine ⟨i :: labels, List.forall_mem_cons.2 ⟨hi, hall⟩, ⟨henabled, halong⟩, ?_, hdeleted⟩
  rw [← henqueued]
  exact hhanded

theorem Inv.drains_of_looping (hs : Inv s l) (hprocess : s.process = .looping)
    (hphase : s.phase none = .has 0) : Drains s := by
  obtain ⟨n, hn⟩ : ∃ n, s.enqueued - s.handed.length = n := ⟨_, rfl⟩
  have hle := hs.handed_le
  have hdeleted := hs.deleted
  rw [hprocess] at hdeleted
  induction n generalizing s l with
  | zero => exact ⟨[], by simp, trivial, by simp only [List.foldl_nil]; omega, hdeleted.symm⟩
  | succ n ih =>
    have hnumbers := hs.numbers
    rw [hprocess, hn] at hnumbers
    obtain ⟨h, hhead, h0⟩ : ∃ h, (s.queues 0).head = h ∧ h ≠ 0 := by
      cases l with
      | nil => simp [ProcessPc.taken] at hnumbers
      | cons b l =>
        refine ⟨b, hs.head_eq, ?_⟩
        rintro rfl
        exact (List.nodup_cons.1 hs.nodup).1 List.mem_cons_self
    have htake : Enabled s .take := ⟨by simp [hphase, Phase.queue], hprocess⟩
    obtain ⟨l₁, hs₁⟩ := hs.take hprocess
    have hprocess₁ : s.take.process = .handling h := by
      simp [State.take, hphase, State.dequeue, hhead, h0]
    have hsame : s.take.enqueued = s.enqueued ∧ s.take.handed = s.handed ∧
        s.take.phase = s.phase := by
      simp [State.take, hphase, State.dequeue, hhead, h0, State.touch]
    have hs₂ := hs₁.callback hprocess₁
    have hprocess₂ : s.take.callback.process = .deleting h := by
      simp [State.callback, hprocess₁]
    have hs₃ := hs₂.delete hprocess₂
    have hround : s.take.callback.delete.handed.length = s.handed.length + 1 ∧
        s.take.callback.delete.process = .looping := by
      simp [State.delete, State.touch, State.callback, hprocess₁, hsame]
    obtain ⟨hhanded, hprocess₃⟩ := hround
    have hdeleted₃ := hs₃.deleted
    rw [hprocess₃] at hdeleted₃
    have hdrains := ih hs₃ hprocess₃ (by simp [hsame, hphase]) (by simp [hsame, hhanded]; omega)
      hs₃.handed_le hdeleted₃
    have hdelete : Drains s.take.callback :=
      @Drains.of_step _ .delete trivial ⟨h, hprocess₂⟩ (enqueued_delete _) hdrains
    have hcallback : Drains s.take :=
      @Drains.of_step _ .callback trivial ⟨h, hprocess₁⟩ (enqueued_callback _) hdelete
    exact @Drains.of_step _ .take trivial htake hsame.1 hcallback

theorem Inv.drains (hs : Inv s l) (hphase : s.phase none = .has 0) : Drains s := by
  have hdeleting : ∀ {s : State} {l : List Nat} {a : Nat}, Inv s l → s.process = .deleting a →
      s.phase none = .has 0 → Drains s := by
    intro s l a hs hprocess hphase
    have hlooping : s.delete.process = .looping := by simp [State.delete, hprocess]
    exact @Drains.of_step _ .delete trivial ⟨a, hprocess⟩ (enqueued_delete _)
      ((hs.delete hprocess).drains_of_looping hlooping (by simp [hphase]))
  cases hprocess : s.process with
  | looping => exact hs.drains_of_looping hprocess hphase
  | waiting signalled =>
    have hwaiting : s.process = .waiting true ∨ s.process = .waiting false := by
      cases signalled <;> simp [hprocess]
    exact @Drains.of_step _ .wake trivial hwaiting rfl
      ((hs.wake hwaiting).drains_of_looping rfl hphase)
  | handling a =>
    have hnext : s.callback.process = .deleting a := by simp [State.callback, hprocess]
    exact @Drains.of_step _ .callback trivial ⟨a, hprocess⟩ (enqueued_callback _)
      (hdeleting (hs.callback hprocess) hnext
        ((congrFun (phase_callback s) none).trans hphase))
  | deleting a => exact hdeleting hs hprocess hphase

/-- Where no two threads create the queue, every state that is reached is in order, and nothing
is left once `Process` went on for long enough. -/
theorem delivered_of_reachable (hs : (system.restrict Cond).Reachable s) :
    Delivered s ∧ ((s.phase none).queue ≠ none → Drains s) := by
  obtain ⟨l, hinv⟩ := invariant.reachable hs
  refine ⟨hinv.delivered, fun hqueue => hinv.drains ?_⟩
  cases hphase : s.phase none with
  | has q =>
    obtain ⟨rfl, -⟩ := hinv.has_zero hphase
    rfl
  | outside | creating | returning => simp [hphase, Phase.queue] at hqueue

/-- Thread 3 posts a message, and `Process` takes the queue that it made. -/
def onePost : List Label :=
  [.check (some 3), .create (some 3), .ret (some 3), .newMessage 3 40, .post 3, .check none,
    .ret none, .take]

theorem delivered_onePost : Delivered (onePost.foldl next {}) ∧
    (((onePost.foldl next {}).phase none).queue ≠ none → Drains (onePost.foldl next {})) := by
  refine delivered_of_reachable (System.reachable_foldl ?_ (.init rfl))
  refine ⟨⟨fun _ _ h => (by cases h), rfl⟩, ⟨trivial, rfl⟩, ⟨trivial, rfl⟩,
    ⟨trivial, by decide, rfl, by decide, rfl⟩, ⟨trivial, by decide, by decide⟩,
    ⟨fun h => (by cases h), rfl⟩, ⟨trivial, rfl⟩, ⟨trivial, by decide, rfl⟩, trivial⟩

/-- Thread 3 and `Process` both find that there is no queue. -/
def twoQueues : List Label :=
  [.check (some 3), .check none, .create (some 3), .ret (some 3), .create none, .ret none,
    .newMessage 3 40, .post 3, .take]

/-- The message is in the queue that was given up, and `Process` waits at the other one. -/
theorem not_delivered : ¬ ∀ s, system.Reachable s → Delivered s := by
  intro h
  have hreach : system.Reachable (twoQueues.foldl next {}) := by
    have hstart : (system.restrict fun _ _ => True).Reachable {} := .init rfl
    refine (System.reachable_foldl ?_ hstart).of_restrict
    refine ⟨⟨trivial, rfl⟩, ⟨trivial, rfl⟩, ⟨trivial, rfl⟩, ⟨trivial, rfl⟩, ⟨trivial, rfl⟩,
      ⟨trivial, rfl⟩, ⟨trivial, by decide, rfl, by decide, rfl⟩, ⟨trivial, by decide, by decide⟩,
      ⟨trivial, by decide, rfl⟩, trivial⟩
  exact absurd ((h _ hreach).blocked rfl).2.1 (by decide)

end EtherDevice.Ipacm.CmdQueue
