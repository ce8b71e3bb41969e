import Mathlib
import EtherDevice.Ipacm.TempEntries

/-!
# The STA clients

`HandleSTAClientAddEvt` and `HandleSTAClientDelEvt` keep the addresses of the STA clients in an
array, and `ProcessTCPorUDPMsg` looks a target address up in its first `StaClntCnt` slots.
`StaRun` has next to the listener the clients that were added and not deleted since. The array
holds them exactly if a deletion never leaves a hole, that is, if it is always the client in the
last slot that is deleted.
-/

namespace EtherDevice.Ipacm

open Lib

namespace ConntrackListener

variable (l : ConntrackListener)

/-- The loop of `ProcessTCPorUDPMsg` that looks a target address up. -/
def isStaClient (targetIp : UInt32) : Bool :=
  targetIp ∈ l.staClntIpv4Addr.take l.staClntCnt.toNat

def StaDistinct : Prop :=
  ∀ (i j : Nat) (addr : UInt32), l.staClntIpv4Addr[i]? = some addr →
    l.staClntIpv4Addr[j]? = some addr → addr ≠ 0 → i = j

def staStored : Nat := l.staClntIpv4Addr.countP fun addr => decide (addr ≠ 0)

/-- The array is the set of clients. -/
structure StaRight (clients : List UInt32) : Prop where
  lookup : ∀ targetIp, l.isStaClient targetIp = true ↔ targetIp ∈ clients
  distinct : l.StaDistinct
  count : l.staClntCnt = l.staStored

/-- The slots behind that of the client are free. -/
def NoneBehind (clntIpAddr : UInt32) : Prop :=
  ∀ (i j : Nat) (addr : UInt32), l.staClntIpv4Addr[i]? = some clntIpAddr → i < j →
    l.staClntIpv4Addr[j]? = some addr → addr = 0

end ConntrackListener

/-- The listener, and the clients that were added and not deleted since. -/
structure StaRun where
  listener : ConntrackListener
  clients : List UInt32

namespace StaRun

/-- What happens to the STA clients. -/
inductive Op where
  | staClientAdd (clntIpAddr : UInt32)
  | staClientDel (clntIpAddr : UInt32)

def exec (s : StaRun) : Op → StaRun
  | .staClientAdd clntIpAddr =>
    { listener := s.listener.handleSTAClientAddEvt clntIpAddr
      clients := if clntIpAddr ∈ s.clients then s.clients else s.clients ++ [clntIpAddr] }
  | .staClientDel clntIpAddr =>
    { listener := s.listener.handleSTAClientDelEvt clntIpAddr
      clients := s.clients.erase clntIpAddr }

/-- There are never more clients than slots, and each has an address. -/
def Fits (s : StaRun) : Op → Prop
  | .staClientAdd clntIpAddr =>
    clntIpAddr ≠ 0 ∧ (clntIpAddr ∈ s.clients ∨ s.clients.length < maxStaClntIfaces)
  | .staClientDel clntIpAddr => clntIpAddr ≠ 0

/-- A client is deleted only if no other one is stored behind it. -/
def LeavesNoHole (s : StaRun) : Op → Prop
  | .staClientAdd _ => True
  | .staClientDel clntIpAddr => s.listener.NoneBehind clntIpAddr

def system : System StaRun Op :=
  .ofFunction (fun s => s.listener.Initial ∧ s.clients = []) Fits exec

def compactSystem : System StaRun Op := system.restrict LeavesNoHole

variable {s : StaRun} {addr : UInt32}

/-- The clients are stored one after the other, in the order in which they came. -/
structure Inv (s : StaRun) : Prop where
  array : s.listener.staClntIpv4Addr =
    s.clients ++ List.replicate (maxStaClntIfaces - s.clients.length) 0
  count : s.listener.staClntCnt = s.clients.length
  nodup : s.clients.Nodup
  nonzero : 0 ∉ s.clients
  room : s.clients.length ≤ maxStaClntIfaces

theorem Inv.getElem?_client (h : s.Inv) {i : Nat} (hi : i < s.clients.length) :
    s.listener.staClntIpv4Addr[i]? = s.clients[i]? := by
  rw [h.array, List.getElem?_append_left hi]

theorem Inv.getElem?_free (h : s.Inv) {i : Nat} (hi : s.clients.length ≤ i)
    (hget : s.listener.staClntIpv4Addr[i]? = some addr) : addr = 0 := by
  rw [h.array, List.getElem?_append_right hi] at hget
  exact List.eq_of_mem_replicate (List.mem_of_getElem? hget)

theorem Inv.client_of_getElem? (h : s.Inv) {i : Nat} (haddr : addr ≠ 0)
    (hget : s.listener.staClntIpv4Addr[i]? = some addr) : s.clients[i]? = some addr := by
  by_cases hi : i < s.clients.length
  · rw [← h.getElem?_client hi]
    exact hget
  · exact absurd (h.getElem?_free (Nat.le_of_not_lt hi) hget) haddr

theorem Inv.staRight (h : s.Inv) : s.listener.StaRight s.clients where
  lookup targetIp := by
    simp [ConntrackListener.isStaClient, h.array, h.count]
  distinct i j addr hi hj haddr := by
    have hi := h.client_of_getElem? haddr hi
    have hj := h.client_of_getElem? haddr hj
    obtain ⟨hlt, hi⟩ := List.getElem?_eq_some_iff.mp hi
    obtain ⟨hlt', hj⟩ := List.getElem?_eq_some_iff.mp hj
    exact (List.getElem_inj h.nodup).mp (hi.trans hj.symm)
  count := by
    unfold ConntrackListener.staStored
    have hall : s.clients.countP (fun addr => decide (addr ≠ 0)) = s.clients.length := by
      rw [List.countP_eq_length]
      intro addr hmem
      exact decide_eq_true fun h0 => h.nonzero (h0 ▸ hmem)
    rw [h.array, List.countP_append, hall, List.countP_replicate, h.count]
    simp

theorem Inv.find_stored (h : s.Inv) (hmem : addr ∈ s.clients) :
    s.listener.staClntIpv4Addr[s.listener.staClntIpv4Addr.findIdx fun a =>
      decide (a ≠ 0 ∧ a = addr ∨ a = 0)]? = some addr := by
  have hstop : ∃ a ∈ s.clients, decide (a ≠ 0 ∧ a = addr ∨ a = 0) = true := by
    refine ⟨addr, hmem, decide_eq_true (.inl ⟨?_, rfl⟩)⟩
    rintro rfl
    exact h.nonzero hmem
  have hlt := List.findIdx_lt_length_of_exists hstop
  rw [h.array, List.findIdx_append, if_pos hlt, List.getElem?_append_left hlt,
    List.getElem?_eq_getElem hlt]
  have hfound := of_decide_eq_true (List.findIdx_getElem (w := hlt))
  rcases hfound with hfound | hzero
  · exact congrArg some hfound.2
  · exact absurd (hzero ▸ List.getElem_mem hlt) h.nonzero

theorem Inv.find_new (h : s.Inv) (hmem : addr ∉ s.clients)
    (hroom : s.clients.length < maxStaClntIfaces) :
    (s.listener.staClntIpv4Addr.findIdx fun a => decide (a ≠ 0 ∧ a = addr ∨ a = 0)) =
      s.clients.length := by
  have hpass : ∀ a ∈ s.clients, decide (a ≠ 0 ∧ a = addr ∨ a = 0) = false := by
    intro a ha
    refine decide_eq_false ?_
    rintro (⟨-, rfl⟩ | rfl)
    · exact hmem ha
    · exact h.nonzero ha
  obtain ⟨free, hfree⟩ : ∃ free, maxStaClntIfaces - s.clients.length = free + 1 :=
    ⟨maxStaClntIfaces - s.clients.length - 1, by omega⟩
  have hnone := List.findIdx_eq_length.mpr hpass
  rw [h.array, List.findIdx_append, hnone, if_neg (Nat.lt_irrefl _), hfree,
    List.replicate_succ, List.findIdx_cons]
  simp

theorem Inv.staClientAdd (h : s.Inv) (hfits : s.Fits (.staClientAdd addr)) :
    (s.exec (.staClientAdd addr)).Inv := by
  obtain ⟨haddr, hroom⟩ := hfits
  unfold exec ConntrackListener.handleSTAClientAddEvt
  by_cases hmem : addr ∈ s.clients
  · simp only [if_pos hmem]
    split
    · exact h
    · rw [h.find_stored hmem, if_neg (fun h0 => haddr (Option.some.inj h0))]
      exact h
  · have hroom := hroom.resolve_left hmem
    have hlen : s.clients.length < s.listener.staClntIpv4Addr.length := by
      rw [h.array, List.length_append, List.length_replicate]
      omega
    have hfree : s.listener.staClntIpv4Addr[s.clients.length]? = some 0 := by
      rw [List.getElem?_eq_getElem hlen]
      exact congrArg some (h.getElem?_free (Nat.le_refl _) (List.getElem?_eq_getElem hlen))
    have hfew : ¬ s.listener.staClntCnt ≥ (maxStaClntIfaces : Int) := by
      rw [h.count]
      omega
    simp only [if_neg hmem, if_neg hfew, h.find_new hmem hroom, if_pos hfree]
    refine ⟨?_, ?_, ?_, ?_, ?_⟩
    · show s.listener.staClntIpv4Addr.set s.clients.length addr = _
      obtain ⟨free, hfree⟩ : ∃ free, maxStaClntIfaces - s.clients.length = free + 1 :=
        ⟨maxStaClntIfaces - s.clients.length - 1, by omega⟩
      have hfree' : maxStaClntIfaces - (s.clients ++ [addr]).length = free := by
        rw [List.length_append, List.length_singleton]
        omega
      rw [h.array, hfree', hfree, List.replicate_succ,
        List.set_append_right _ _ (Nat.le_refl _), Nat.sub_self, List.set_cons_zero,
        List.append_assoc, List.singleton_append]
    · show s.listener.staClntCnt + 1 = _
      simp [h.count]
    · rw [List.nodup_append]
      refine ⟨h.nodup, List.pairwise_singleton _ addr, ?_⟩
      rintro a ha b hb rfl
      exact hmem (List.mem_singleton.mp hb ▸ ha)
    · intro h0
      rcases List.mem_append.mp h0 with h0 | h0
      · exact h.nonzero h0
      · exact haddr (List.mem_singleton.mp h0).symm
    · rw [List.length_append, List.length_singleton]
      omega

section Deletion

variable {before behind : List UInt32}

theorem Inv.array_del (h : s.Inv) (hsplit : s.clients = before ++ addr :: behind)
    (hbefore : addr ∉ before) :
    (s.exec (.staClientDel addr)).listener.staClntIpv4Addr =
        before ++ 0 :: (behind ++ List.replicate (maxStaClntIfaces - s.clients.length) 0) ∧
      (s.exec (.staClientDel addr)).listener.staClntCnt = before.length + behind.length ∧
      (s.exec (.staClientDel addr)).clients = before ++ behind := by
  have hmem : addr ∈ s.clients := by
    simp [hsplit]
  have haddr : addr ≠ 0 := fun h0 => h.nonzero (h0 ▸ hmem)
  have hpass : ∀ a ∈ before, decide (a ≠ 0 ∧ a = addr) = false := fun a ha =>
    decide_eq_false fun hfound => hbefore (hfound.2 ▸ ha)
  have harray : s.listener.staClntIpv4Addr = before ++ addr ::
      (behind ++ List.replicate (maxStaClntIfaces - s.clients.length) 0) := by
    simp [h.array, hsplit]
  have hcnt : (s.listener.staClntIpv4Addr.findIdx fun a => decide (a ≠ 0 ∧ a = addr)) =
      before.length := by
    simp_all [List.findIdx_append, List.findIdx_cons]
  have hlt : before.length < s.listener.staClntIpv4Addr.length := by
    simp [harray]
  unfold exec ConntrackListener.handleSTAClientDelEvt
  simp only [hcnt, if_pos hlt]
  refine ⟨?_, ?_, ?_⟩
  · rw [harray, List.set_append_right _ _ (Nat.le_refl _), Nat.sub_self, List.set_cons_zero]
  · rw [h.count, hsplit, List.length_append, List.length_cons]
    omega
  · rw [hsplit, List.erase_append_right _ hbefore, List.erase_cons_head]

theorem Inv.exec_del_of_not_mem (h : s.Inv) (hmem : addr ∉ s.clients) (haddr : addr ≠ 0) :
    s.exec (.staClientDel addr) = s := by
  have hnone : (s.listener.staClntIpv4Addr.findIdx fun a => decide (a ≠ 0 ∧ a = addr)) =
      s.listener.staClntIpv4Addr.length := by
    rw [List.findIdx_eq_length]
    intro a ha
    refine decide_eq_false ?_
    rintro ⟨-, rfl⟩
    obtain ⟨i, hi⟩ := List.mem_iff_getElem?.mp ha
    exact hmem (List.mem_of_getElem? (h.client_of_getElem? haddr hi))
  unfold exec ConntrackListener.handleSTAClientDelEvt
  simp only [hnone, Nat.lt_irrefl, if_false, List.erase_of_not_mem hmem]

theorem Inv.split (h : s.Inv) (hmem : addr ∈ s.clients) : ∃ before behind,
    s.clients = before ++ addr :: behind ∧ addr ∉ before ∧ addr ∉ behind := by
  obtain ⟨before, behind, hsplit⟩ := List.append_of_mem hmem
  have hnodup := h.nodup
  grind

theorem Inv.noneBehind_iff (h : s.Inv) (hsplit : s.clients = before ++ addr :: behind)
    (haddr : addr ≠ 0) (hbefore : addr ∉ before) (hbehind : addr ∉ behind) :
    s.listener.NoneBehind addr ↔ behind = [] := by
  constructor
  · intro hnone
    cases behind with
    | nil => rfl
    | cons b behind =>
      have hslot : s.clients[before.length]? = some addr := by
        simp [hsplit]
      have hnext : s.clients[before.length + 1]? = some b := by
        simp [hsplit]
      obtain ⟨hlt, -⟩ := List.getElem?_eq_some_iff.mp hslot
      obtain ⟨hlt', -⟩ := List.getElem?_eq_some_iff.mp hnext
      have hzero := hnone before.length (before.length + 1) b
        ((h.getElem?_client hlt).trans hslot) (Nat.lt_succ_self _)
        ((h.getElem?_client hlt').trans hnext)
      exact absurd (hzero ▸ List.mem_of_getElem? hnext) h.nonzero
  · rintro rfl i j a hi hij hj
    have hi := h.client_of_getElem? haddr hi
    obtain ⟨hlt, hi⟩ := List.getElem?_eq_some_iff.mp hi
    have hlast : i = before.length := by
      grind
    refine h.getElem?_free ?_ hj
    rw [hsplit, List.length_append, List.length_singleton]
    omega

theorem Inv.staClientDel (h : s.Inv) (haddr : addr ≠ 0) (hnone : s.listener.NoneBehind addr) :
    (s.exec (.staClientDel addr)).Inv := by
  by_cases hmem : addr ∈ s.clients
  · obtain ⟨before, behind, hsplit, hbefore, hbehind⟩ := h.split hmem
    obtain rfl := (h.noneBehind_iff hsplit haddr hbefore hbehind).mp hnone
    obtain ⟨harray, hcount, hclients⟩ := h.array_del hsplit hbefore
    rw [List.append_nil] at hclients
    have hlen : s.clients.length = before.length + 1 := by
      rw [hsplit, List.length_append, List.length_singleton]
    have hroom := h.room
    have hnodup := h.nodup
    rw [hsplit] at hnodup
    refine ⟨?_, ?_, ?_, ?_, ?_⟩
    · rw [harray, hclients, List.nil_append, ← List.replicate_succ, hlen]
      congr 2
      omega
    · rw [hcount, hclients]
      simp
    · rw [hclients]
      exact (List.nodup_append.mp hnodup).1
    · rw [hclients]
      intro h0
      refine h.nonzero ?_
      simp [hsplit, h0]
    · rw [hclients]
      omega
  · rw [h.exec_del_of_not_mem hmem haddr]
    exact h

theorem Inv.not_staRight_del (h : s.Inv) (hsplit : s.clients = before ++ addr :: behind)
    (hbefore : addr ∉ before) (hne : behind ≠ []) :
    ¬ (s.exec (.staClientDel addr)).listener.StaRight (s.exec (.staClientDel addr)).clients := by
  intro hright
  obtain ⟨harray, hcount, hclients⟩ := h.array_del hsplit hbefore
  obtain ⟨init, last, rfl⟩ : ∃ init last, behind = init ++ [last] :=
    ⟨behind.dropLast, behind.getLast hne, (List.dropLast_concat_getLast hne).symm⟩
  have hstored : last ∈ s.clients := by
    rw [hsplit]
    simp
  have hlookup := (hright.lookup last).mpr (by rw [hclients]; simp)
  unfold ConntrackListener.isStaClient at hlookup
  have htake : (before ++ 0 :: (init ++ [last] ++
      List.replicate (maxStaClntIfaces - s.clients.length) 0)).take
        ((before.length : Int) + (init ++ [last]).length).toNat = before ++ 0 :: init := by
    have hlen : ((before.length : Int) + (init ++ [last]).length).toNat =
        (before ++ 0 :: init).length := by
      simp only [List.length_append, List.length_cons, List.length_nil]
      omega
    grind
  rw [harray, hcount, htake, decide_eq_true_iff] at hlookup
  have hnodup := h.nodup
  rw [hsplit] at hnodup
  rcases List.mem_append.mp hlookup with hin | hin
  · exact (List.nodup_append.mp hnodup).2.2 last hin last (by simp) rfl
  · rcases List.mem_cons.mp hin with h0 | hin
    · exact h.nonzero (h0 ▸ hstored)
    grind

theorem Inv.staRight_del_iff (h : s.Inv) (haddr : addr ≠ 0) :
    (s.exec (.staClientDel addr)).listener.StaRight (s.exec (.staClientDel addr)).clients ↔
      s.listener.NoneBehind addr := by
  constructor
  · intro hright
    by_cases hmem : addr ∈ s.clients
    · obtain ⟨before, behind, hsplit, hbefore, hbehind⟩ := h.split hmem
      rw [h.noneBehind_iff hsplit haddr hbefore hbehind]
      by_contra hne
      exact h.not_staRight_del hsplit hbefore hne hright
    · intro i j a hi
      exact absurd (List.mem_of_getElem? (h.client_of_getElem? haddr hi)) hmem
  · intro hnone
    exact (h.staClientDel haddr hnone).staRight

end Deletion

theorem inv_invariant : compactSystem.Invariant Inv := by
  constructor
  · rintro s ⟨hinit, hclients⟩
    refine ⟨?_, ?_, ?_, ?_, ?_⟩
    · rw [hinit.staClntIpv4Addr, hclients]
      rfl
    · rw [hinit.staClntCnt, hclients]
      rfl
    · simp_all
    · simp_all
    simp_all
  · rintro s op s' h ⟨hhole, hfits, rfl⟩
    cases op with
    | staClientAdd addr => exact h.staClientAdd hfits
    | staClientDel addr => exact h.staClientDel hfits hhole

/-- In the runs whose deletions leave no hole, the array is the set of the clients; and a
deletion keeps it so exactly if it leaves no hole. -/
theorem staRight_of_reachable (hs : compactSystem.Reachable s) :
    s.listener.StaRight s.clients ∧ ∀ addr, addr ≠ 0 →
      ((s.exec (.staClientDel addr)).listener.StaRight (s.exec (.staClientDel addr)).clients ↔
        s.listener.NoneBehind addr) := by
  have hinv := inv_invariant.reachable hs
  exact ⟨hinv.staRight, fun addr haddr => hinv.staRight_del_iff haddr⟩

instance (l : ConntrackListener) (addr : UInt32) : Decidable (l.NoneBehind addr) :=
  decidable_of_iff (∀ i < l.staClntIpv4Addr.length, ∀ j < l.staClntIpv4Addr.length,
      l.staClntIpv4Addr[i]? = some addr → i < j → l.staClntIpv4Addr[j]?.all (· == 0) = true) <| by
    simp only [Option.all_eq_true, beq_iff_eq]
    constructor
    · intro h i j a hi hij hj
      obtain ⟨hlt, -⟩ := List.getElem?_eq_some_iff.mp hi
      obtain ⟨hlt', -⟩ := List.getElem?_eq_some_iff.mp hj
      exact h i hlt j hlt' hi hij a hj
    · intro h i _ j _ hi hij a hj
      exact h i j a hi hij hj

instance (s : StaRun) : (op : Op) → Decidable (s.Fits op)
  | .staClientAdd _ => inferInstanceAs (Decidable (_ ∧ (_ ∨ _)))
  | .staClientDel _ => inferInstanceAs (Decidable (_ ≠ _))

instance (s : StaRun) : (op : Op) → Decidable (s.LeavesNoHole op)
  | .staClientAdd _ => .isTrue trivial
  | .staClientDel addr => inferInstanceAs (Decidable (s.listener.NoneBehind addr))

def initialStaRun : StaRun := ⟨TempRun.initialRun.listener, []⟩

theorem init_initialStaRun : system.init initialStaRun := ⟨TempRun.init_initialRun.1, rfl⟩

def lastLeaves : List Op :=
  [.staClientAdd 0xC0A82B05, .staClientAdd 0xC0A82B06, .staClientDel 0xC0A82B06]

theorem staRight_of_reachable_lastLeaves : ∃ s : StaRun, s.clients = [0xC0A82B05] ∧
    s.listener.StaRight s.clients ∧
      (s.exec (.staClientDel 0xC0A82B05)).listener.StaRight
        (s.exec (.staClientDel 0xC0A82B05)).clients := by
  have hrun : (System.follow (fun s op => LeavesNoHole s op ∧ Fits s op) exec lastLeaves
      initialStaRun).any (fun s => s.clients = [0xC0A82B05] ∧
        s.listener.NoneBehind 0xC0A82B05) = true := by decide +kernel
  obtain ⟨s, hs, hcond⟩ := (Option.any_eq_true _ _).mp hrun
  obtain ⟨hclients, hnone⟩ := of_decide_eq_true hcond
  obtain ⟨hright, hdel⟩ :=
    staRight_of_reachable (System.reachable_follow lastLeaves (.init init_initialStaRun) hs)
  exact ⟨s, hclients, hright, (hdel 0xC0A82B05 (by decide)).mpr hnone⟩

def firstLeaves : List Op :=
  [.staClientAdd 0xC0A82B05, .staClientAdd 0xC0A82B06, .staClientDel 0xC0A82B05]

/-- The second client is not found any more, and is stored twice when it is added again. -/
theorem not_staRight : ∃ s : StaRun, system.Reachable s ∧ s.clients = [0xC0A82B06] ∧
    s.listener.isStaClient 0xC0A82B06 = false ∧
      ¬ (s.exec (.staClientAdd 0xC0A82B06)).listener.StaDistinct := by
  have hrun : (System.follow (fun s op => True ∧ Fits s op) exec firstLeaves
      initialStaRun).any (fun s => s.clients = [0xC0A82B06] ∧
        s.listener.isStaClient 0xC0A82B06 = false ∧
        ((s.exec (.staClientAdd 0xC0A82B06)).listener.staClntIpv4Addr[0]? = some 0xC0A82B06) ∧
        (s.exec (.staClientAdd 0xC0A82B06)).listener.staClntIpv4Addr[1]? = some 0xC0A82B06) =
      true := by decide +kernel
  obtain ⟨s, hs, hcond⟩ := (Option.any_eq_true _ _).mp hrun
  obtain ⟨hclients, hlookup, hfirst, hsecond⟩ := of_decide_eq_true hcond
  have hinit : (system.restrict fun _ _ => True).Reachable initialStaRun :=
    .init init_initialStaRun
  have hreach := System.reachable_follow firstLeaves hinit hs
  refine ⟨s, hreach.of_restrict, hclients, hlookup, fun hdistinct => ?_⟩
  exact absurd (hdistinct 0 1 _ hfirst hsecond (by decide)) (by decide)

end StaRun

end EtherDevice.Ipacm
