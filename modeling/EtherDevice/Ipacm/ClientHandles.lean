import Mathlib
import EtherDevice.Ipacm.ClientRemoval

/-!
# The clients and the driver agree

The driver's routing rules and headers are those that the rows record with their flags set, and
nothing is deleted twice. Power save, the removal of a client, a new address and a reset all
delete what the flags say and clear the flags.

The interface frees its table when it goes down. It deletes the handles of its clients before,
but not if it has no address or if one of its filter rules cannot be deleted.
-/

namespace EtherDevice.Ipacm.ClientTable

open Lib

/-! ## Slots of a row -/

/-- Where a row records a routing rule. -/
inductive Slot
  | v4 (tx : Nat)
  | v6 (tx num : Nat)
  | v6Wan (tx num : Nat)
  deriving DecidableEq

def Slot.tx : Slot → Nat
  | .v4 tx | .v6 tx _ | .v6Wan tx _ => tx

namespace Client

variable {c c' : Client} {txs nums : List Nat} {slots : List Slot} {fresh : Fresh}
  {routing header : Handles} {held : Multiset Nat} {txProp : List IpType}

def slot (c : Client) : Slot → Nat
  | .v4 tx => (c.rtHdl tx).v4
  | .v6 tx num => (c.rtHdl tx).v6 num
  | .v6Wan tx num => (c.rtHdl tx).v6Wan num

def setSlot (c : Client) (slot : Slot) (handle : Nat) : Client :=
  match slot with
  | .v4 tx => { c with
      rtHdl := Function.update c.rtHdl tx { c.rtHdl tx with v4 := handle } }
  | .v6 tx num => { c with
      rtHdl := Function.update c.rtHdl tx { c.rtHdl tx with
        v6 := Function.update (c.rtHdl tx).v6 num handle } }
  | .v6Wan tx num => { c with
      rtHdl := Function.update c.rtHdl tx { c.rtHdl tx with
        v6Wan := Function.update (c.rtHdl tx).v6Wan num handle } }

theorem slot_setSlot_self (slot : Slot) (handle : Nat) :
    (c.setSlot slot handle).slot slot = handle := by
  cases slot <;> simp [setSlot, Client.slot]

theorem slot_setSlot_of_ne {slot other : Slot} {handle : Nat} (hne : other ≠ slot) :
    (c.setSlot slot handle).slot other = c.slot other := by
  by_cases htx : other.tx = slot.tx
  · -- the same TX property: another kind of rule, or another address
    cases slot with
    | v4 tx =>
      cases other with
      | v4 tx' => exact absurd (congrArg Slot.v4 htx) hne
      | v6 tx' num' | v6Wan tx' num' => cases htx; simp [setSlot, Client.slot]
    | v6 tx num =>
      cases other with
      | v6 tx' num' =>
        cases htx
        simp_all [setSlot, Client.slot]
      | v4 tx' => cases htx; simp [setSlot, Client.slot]
      | v6Wan tx' num' => cases htx; simp [setSlot, Client.slot]
    | v6Wan tx num =>
      cases other with
      | v6Wan tx' num' =>
        cases htx
        simp_all [setSlot, Client.slot]
      | v4 tx' => cases htx; simp [setSlot, Client.slot]
      | v6 tx' num' => cases htx; simp [setSlot, Client.slot]
  · have hrow : (c.setSlot slot handle).rtHdl other.tx = c.rtHdl other.tx := by
      cases slot <;> exact Function.update_of_ne htx _ _
    cases other with
    | v4 tx => exact congrArg RtHdl.v4 hrow
    | v6 tx num => exact congrArg (fun rt => rt.v6 num) hrow
    | v6Wan tx num => exact congrArg (fun rt => rt.v6Wan num) hrow

theorem setSlot_eq (slot : Slot) (handle : Nat) :
    c.setSlot slot handle = { c with rtHdl := (c.setSlot slot handle).rtHdl } := by
  cases slot <;> rfl

def slotsV4 (txs : List Nat) : List Slot := txs.map .v4

def slotsV6 (txs nums : List Nat) : List Slot :=
  txs.flatMap fun tx => nums.flatMap fun num => [.v6 tx num, .v6Wan tx num]

theorem slot_congr (hrt : c'.rtHdl = c.rtHdl) : c'.slot = c.slot := by
  funext slot
  cases slot <;> simp [Client.slot, hrt]

/-! ## Rules are added slot by slot -/

def addSlot (fresh : Fresh) (state : Handles × Client) (slot : Slot) : Handles × Client :=
  ((state.1.add fresh).2, state.2.setSlot slot (state.1.add fresh).1)

theorem addRulesV4_eq : c.addRulesV4 fresh txs routing =
    (slotsV4 txs).foldl (addSlot fresh) (routing, c) := by
  rw [slotsV4, List.foldl_map]
  rfl

theorem addRuleV6_eq (state : Handles × Client) (tx num : Nat) :
    addRuleV6 fresh tx state num =
      addSlot fresh (addSlot fresh state (.v6 tx num)) (.v6Wan tx num) := by
  simp [addRuleV6, addSlot, setRtV6, setSlot]

theorem addRulesV6_eq : c.addRulesV6 fresh txs routing =
    (slotsV6 txs (List.range' c.routeRuleSetV6 (c.ipv6Set - c.routeRuleSetV6))).foldl
      (addSlot fresh) (routing, c) := by
  simp only [addRulesV6, slotsV6, List.foldl_flatMap]
  congr 1
  funext state tx
  congr 1
  funext state num
  exact addRuleV6_eq state tx num

theorem foldl_addSlot (fresh : Fresh) (hslots : slots.Nodup) (h : routing.Owned held) :
    ((slots.foldl (addSlot fresh) (routing, c)).1.Owned
        (↑(slots.map (slots.foldl (addSlot fresh) (routing, c)).2.slot) + held)) ∧
      (∀ other ∉ slots, (slots.foldl (addSlot fresh) (routing, c)).2.slot other = c.slot other) ∧
      (slots.foldl (addSlot fresh) (routing, c)).2 =
        { c with rtHdl := (slots.foldl (addSlot fresh) (routing, c)).2.rtHdl } := by
  induction slots generalizing routing c held with
  | nil => exact ⟨h.congr (by simp), fun _ _ => rfl, rfl⟩
  | cons slot slots ih =>
    obtain ⟨hnotMem, hslots⟩ := List.nodup_cons.mp hslots
    obtain ⟨howned, hother, hframe⟩ :=
      ih (c := c.setSlot slot (routing.add fresh).1) hslots (h.add fresh)
    rw [List.foldl_cons]
    refine ⟨howned.congr ?_, fun other hmem => ?_, ?_⟩
    · rw [List.map_cons, addSlot, hother slot hnotMem, slot_setSlot_self, ← Multiset.cons_coe,
        Multiset.cons_add, Multiset.add_cons]
    · rw [List.mem_cons, not_or] at hmem
      rw [addSlot, hother other hmem.2, slot_setSlot_of_ne hmem.1]
    · rw [addSlot, hframe, setSlot_eq]

/-! ## Rules and headers that are recorded -/

theorem nodup_slotsV4 (htxs : txs.Nodup) : (slotsV4 txs).Nodup :=
  htxs.map fun _ _ => Slot.v4.inj

theorem mem_slotsV6 {slot : Slot} : slot ∈ slotsV6 txs nums ↔
    ∃ tx ∈ txs, ∃ num ∈ nums, slot = .v6 tx num ∨ slot = .v6Wan tx num := by
  simp [slotsV6, List.mem_flatMap]

theorem nodup_slotsV6 (htxs : txs.Nodup) (hnums : nums.Nodup) : (slotsV6 txs nums).Nodup := by
  refine List.nodup_flatMap.mpr ⟨fun tx _ => List.nodup_flatMap.mpr ⟨?_, ?_⟩, ?_⟩
  · simp
  · refine hnums.imp fun {num num'} hne => ?_
    simp [Function.onFun, Ne.symm hne]
  · refine htxs.imp fun {tx tx'} hne => ?_
    rintro slot hmem hmem'
    grind

def rulesV4 (c : Client) (txs : List Nat) : List Nat :=
  if c.routeRuleSetV4 then (slotsV4 txs).map c.slot else []

def rulesV6 (c : Client) (txs : List Nat) : List Nat :=
  (slotsV6 txs (List.range c.routeRuleSetV6)).map c.slot

def headersV4 (c : Client) : List Nat := if c.ipv4HeaderSet then [c.hdrHdlV4] else []
def headersV6 (c : Client) : List Nat := if c.ipv6HeaderSet then [c.hdrHdlV6] else []

theorem rulesV4_congr (hrt : c'.rtHdl = c.rtHdl) (hset : c'.routeRuleSetV4 = c.routeRuleSetV4) :
    c'.rulesV4 txs = c.rulesV4 txs := by
  rw [rulesV4, rulesV4, slot_congr hrt, hset]

theorem rulesV6_congr (hrt : c'.rtHdl = c.rtHdl) (hset : c'.routeRuleSetV6 = c.routeRuleSetV6) :
    c'.rulesV6 txs = c.rulesV6 txs := by
  rw [rulesV6, rulesV6, slot_congr hrt, hset]

@[simp] theorem rulesV4_setV4 (set : Bool) :
    Client.rulesV4 { c with routeRuleSetV4 := set } txs =
      if set then (slotsV4 txs).map c.slot else [] := by
  rfl

@[simp] theorem rulesV6_setV4 (set : Bool) :
    Client.rulesV6 { c with routeRuleSetV4 := set } txs = c.rulesV6 txs := rulesV6_congr rfl rfl

@[simp] theorem rulesV4_setV6 (num : Nat) :
    Client.rulesV4 { c with routeRuleSetV6 := num } txs = c.rulesV4 txs := rulesV4_congr rfl rfl

@[simp] theorem rulesV6_setV6 (num : Nat) :
    Client.rulesV6 { c with routeRuleSetV6 := num } txs =
      (slotsV6 txs (List.range num)).map c.slot := by
  rfl

theorem owned_foldl_deleteRoutingHdl {handles : List Nat} (h : routing.Owned (↑handles + held)) :
    (handles.foldl deleteRoutingHdl routing).Owned held := by
  induction handles generalizing routing with
  | nil => exact h.congr (by simp)
  | cons handle handles ih =>
    have hne : handle ≠ 0 := h.ne_zero (Multiset.mem_add.mpr (.inl List.mem_cons_self))
    refine ih ?_
    rw [deleteRoutingHdl, if_neg hne]
    refine Handles.Owned.del (h.congr ?_)
    rw [← Multiset.cons_coe, Multiset.cons_add]

theorem owned_deleteRulesV4 (h : routing.Owned (↑(c.rulesV4 txs) + held)) :
    (c.deleteRulesV4 txs routing).Owned held := by
  have hfold : c.deleteRulesV4 txs routing =
      (c.rulesV4 txs).foldl deleteRoutingHdl routing := by
    unfold deleteRulesV4 rulesV4
    split_ifs
    · simp [slotsV4, List.foldl_map, Client.slot]
    · rfl
  rw [hfold]
  exact owned_foldl_deleteRoutingHdl h

theorem owned_deleteRulesV6 (h : routing.Owned (↑(c.rulesV6 txs) + held)) :
    (c.deleteRulesV6 txs routing).Owned held := by
  have hfold : c.deleteRulesV6 txs routing =
      (c.rulesV6 txs).foldl deleteRoutingHdl routing := by
    simp [deleteRulesV6, rulesV6, slotsV6, List.foldl_map, List.foldl_flatMap, Client.slot]
  rw [hfold]
  exact owned_foldl_deleteRoutingHdl h

theorem owned_addRulesV4 (htxs : txs.Nodup) (h : routing.Owned held)
    {added : Handles × Client} (hadded : c.addRulesV4 fresh txs routing = added) :
    added.1.Owned (↑((slotsV4 txs).map added.2.slot) + held) ∧
      (∀ txs', added.2.rulesV6 txs' = c.rulesV6 txs') ∧
      added.2 = { c with rtHdl := added.2.rtHdl } := by
  subst hadded
  rw [addRulesV4_eq]
  obtain ⟨howned, hother, hframe⟩ :=
    foldl_addSlot (c := c) fresh (nodup_slotsV4 htxs) h
  refine ⟨howned, fun txs' => ?_, hframe⟩
  have hset : ((slotsV4 txs).foldl (addSlot fresh) (routing, c)).2.routeRuleSetV6 =
      c.routeRuleSetV6 := by rw [hframe]
  rw [rulesV6, rulesV6, hset]
  refine List.map_congr_left fun slot hslot => hother slot fun hv4 => ?_
  obtain ⟨_, _, _, _, rfl | rfl⟩ := mem_slotsV6.mp hslot <;> simp [slotsV4] at hv4

theorem slotsV6_range_perm (hle : c.routeRuleSetV6 ≤ c.ipv6Set) :
    (slotsV6 txs (List.range c.ipv6Set)).Perm
      (slotsV6 txs (List.range c.routeRuleSetV6) ++
        slotsV6 txs (List.range' c.routeRuleSetV6 (c.ipv6Set - c.routeRuleSetV6))) := by
  have hrange : List.range c.ipv6Set = List.range c.routeRuleSetV6 ++
      List.range' c.routeRuleSetV6 (c.ipv6Set - c.routeRuleSetV6) := by
    obtain ⟨count, hcount⟩ := Nat.exists_eq_add_of_le hle
    have happend := List.range'_append_1 (s := 0) (m := c.routeRuleSetV6) (n := count)
    simp_all [List.range_eq_range']
  simp [slotsV6, List.flatMap_append_perm, symm, hrange]

theorem owned_addRulesV6 (held : Multiset Nat) (htxs : txs.Nodup)
    (hlt : c.routeRuleSetV6 < c.ipv6Set)
    (h : routing.Owned (↑(c.rulesV6 txs) + held))
    {added : Handles × Client} (hadded : c.addRulesV6 fresh txs routing = added) :
    added.1.Owned (↑((slotsV6 txs (List.range c.ipv6Set)).map added.2.slot) + held) ∧
      (∀ txs', added.2.rulesV4 txs' = c.rulesV4 txs') ∧
      added.2 = { c with rtHdl := added.2.rtHdl } := by
  subst hadded
  rw [addRulesV6_eq]
  have hnums : (List.range' c.routeRuleSetV6 (c.ipv6Set - c.routeRuleSetV6)).Nodup :=
    List.nodup_range'
  obtain ⟨howned, hother, hframe⟩ :=
    foldl_addSlot (c := c) fresh (nodup_slotsV6 htxs hnums) h
  generalize hstate : (slotsV6 txs (List.range' c.routeRuleSetV6
    (c.ipv6Set - c.routeRuleSetV6))).foldl (addSlot fresh) (routing, c) = state at *
  refine ⟨howned.congr ?_, fun txs' => ?_, hframe⟩
  · have hold : (slotsV6 txs (List.range c.routeRuleSetV6)).map state.2.slot =
        c.rulesV6 txs := by
      refine List.map_congr_left fun slot hslot => hother slot fun hnew => ?_
      obtain ⟨tx, _, num, hnum, heq⟩ := mem_slotsV6.mp hslot
      obtain ⟨tx', _, num', hnum', heq'⟩ := mem_slotsV6.mp hnew
      grind
    rw [Multiset.coe_eq_coe.mpr ((slotsV6_range_perm hlt.le).map state.2.slot),
      List.map_append, ← Multiset.coe_add, hold, add_assoc, add_left_comm]
  · rw [rulesV4, rulesV4, hframe]
    split_ifs
    · refine List.map_congr_left fun slot hslot => ?_
      obtain ⟨tx, -, rfl⟩ := List.mem_map.mp hslot
      rw [← hframe]
      refine hother _ fun hv6 => ?_
      obtain ⟨_, _, _, _, heq | heq⟩ := mem_slotsV6.mp hv6 <;> cases heq
    · rfl

/-! ## Headers -/

theorem owned_deleteHeaderV4 (h : header.Owned (↑c.headersV4 + held)) : ∃ header',
    c.deleteHeaderV4 header = (true, { c with ipv4HeaderSet := false }, header') ∧
      header'.Owned held := by
  unfold deleteHeaderV4
  unfold headersV4 at h
  split_ifs at h ⊢ with hset hzero
  · exact absurd hzero (h.ne_zero (by simp))
  · exact ⟨_, rfl, Handles.Owned.del (h.congr (by simp))⟩
  · have hsame : { c with ipv4HeaderSet := false } = c := by
      rw [Bool.not_eq_true] at hset
      rw [← hset]
    exact ⟨header, by rw [hsame], h.congr (by simp)⟩

theorem owned_deleteHeaderV6 (h : header.Owned (↑c.headersV6 + held)) : ∃ header',
    c.deleteHeaderV6 header = (true, { c with ipv6HeaderSet := false }, header') ∧
      header'.Owned held := by
  unfold deleteHeaderV6
  unfold headersV6 at h
  split_ifs at h ⊢ with hset hzero
  · exact absurd hzero (h.ne_zero (by simp))
  · exact ⟨_, rfl, Handles.Owned.del (h.congr (by simp))⟩
  · have hsame : { c with ipv6HeaderSet := false } = c := by
      rw [Bool.not_eq_true] at hset
      rw [← hset]
    exact ⟨header, by rw [hsame], h.congr (by simp)⟩

def headers (c : Client) : Multiset Nat := ↑c.headersV4 + ↑c.headersV6

theorem owned_deleteHeaders (h : header.Owned (c.headers + held)) : ∃ header',
    c.deleteHeaders header =
        (true, { c with ipv4HeaderSet := false, ipv6HeaderSet := false }, header') ∧
      header'.Owned held := by
  obtain ⟨header4, h4, howned4⟩ :=
    owned_deleteHeaderV4 (c := c) (h.congr (add_assoc _ _ _))
  obtain ⟨header6, h6, howned6⟩ :=
    owned_deleteHeaderV6 (c := { c with ipv4HeaderSet := false }) howned4
  simp [deleteHeaders, howned6, h4, h6]

def HeadersRegistered (c : Client) (txProp : List IpType) : Prop :=
  (c.ipv4HeaderSet = true → .v4 ∈ txProp) ∧ (c.ipv6HeaderSet = true → .v6 ∈ txProp)

theorem owned_addHeaderV4 (fresh : Fresh) (hset : c.ipv4HeaderSet = true → .v4 ∈ txProp)
    (h : header.Owned held) :
    (c.addHeaderV4 fresh txProp header).1.Owned
        (↑(c.addHeaderV4 fresh txProp header).2.headersV4 + held) ∧
      ((c.addHeaderV4 fresh txProp header).2.ipv4HeaderSet = true → .v4 ∈ txProp) := by
  unfold addHeaderV4
  split_ifs with hv4
  · exact ⟨(h.add fresh).congr (by simp [headersV4]), fun _ => hv4⟩
  simp_all [headersV4]

theorem owned_addHeaderV6 (fresh : Fresh) (hset : c.ipv6HeaderSet = true → .v6 ∈ txProp)
    (h : header.Owned held) :
    (c.addHeaderV6 fresh txProp header).1.Owned
        (↑(c.addHeaderV6 fresh txProp header).2.headersV6 + held) ∧
      ((c.addHeaderV6 fresh txProp header).2.ipv6HeaderSet = true → .v6 ∈ txProp) := by
  unfold addHeaderV6
  split_ifs with hv6
  · exact ⟨(h.add fresh).congr (by simp [headersV6]), fun _ => hv6⟩
  simp_all [headersV6]

theorem addHeaderV4_v6 : (c.addHeaderV4 fresh txProp header).2.ipv6HeaderSet =
    c.ipv6HeaderSet := by
  unfold addHeaderV4
  split_ifs <;> rfl

theorem addHeaderV6_v4 (fresh : Fresh) (txProp : List IpType) (header : Handles) :
    (c.addHeaderV6 fresh txProp header).2.headersV4 = c.headersV4 ∧
      (c.addHeaderV6 fresh txProp header).2.ipv4HeaderSet = c.ipv4HeaderSet := by
  unfold addHeaderV6
  split_ifs <;> exact ⟨rfl, rfl⟩

theorem owned_addHeaders (fresh : Fresh) (hregistered : c.HeadersRegistered txProp)
    (h : header.Owned held) :
    (c.addHeaders fresh txProp header).1.Owned
        ((c.addHeaders fresh txProp header).2.headers + held) ∧
      (c.addHeaders fresh txProp header).2.HeadersRegistered txProp := by
  obtain ⟨howned4, hset4⟩ :=
    owned_addHeaderV4 fresh hregistered.1 h
  obtain ⟨howned6, hset6⟩ := owned_addHeaderV6 fresh
    (addHeaderV4_v6 ▸ hregistered.2) howned4
  obtain ⟨hheaders4, hset4'⟩ := addHeaderV6_v4
    (c := (c.addHeaderV4 fresh txProp header).2) fresh txProp
    (c.addHeaderV4 fresh txProp header).1
  refine ⟨howned6.congr ?_, fun hset => hset4 (hset4' ▸ hset), hset6⟩
  rw [addHeaders, headers, hheaders4, add_assoc, add_left_comm]

end Client

namespace Iface

variable {s s' : Iface} {index : Nat} {c : Client} {iptype : IpType} {fresh : Fresh} {mac : Mac}

/-! ## What the tables record -/

def rulesOf (s : Iface) (c : Client) : Multiset Nat :=
  ↑(c.rulesV4 (s.txOf .v4)) + ↑(c.rulesV6 (s.txOf .v6))

def recordedRules (s : Iface) : Multiset Nat :=
  if s.isActive then ∑ index ∈ Finset.range s.num, s.rulesOf (s.rows index) else 0

def recordedHeaders (s : Iface) : Multiset Nat :=
  if s.isActive then ∑ index ∈ Finset.range s.num, (s.rows index).headers else 0

theorem recordedRules_of_active (hactive : s.isActive = true) :
    s.recordedRules = ∑ index ∈ Finset.range s.num, s.rulesOf (s.rows index) := if_pos hactive

theorem recordedHeaders_of_active (hactive : s.isActive = true) :
    s.recordedHeaders = ∑ index ∈ Finset.range s.num, (s.rows index).headers := if_pos hactive

/-- The driver has what the tables record, each handle once, and none was deleted in vain. -/
structure Agrees (s : Iface) : Prop where
  routing : s.routing.Owned s.recordedRules
  header : s.header.Owned s.recordedHeaders

structure Inv (s : Iface) : Prop extends Agrees s where
  registered : s.isActive = true → ∀ index, (s.rows index).HeadersRegistered s.txs
  unregistered : s.isActive = true → s.txProp = none → s.num = 0

/-- An interface does not go down with clients whose handles it does not delete. -/
def Ok (s : Iface) : Op → Prop
  | .down filtersDeleted => s.ipType ≠ .null ∧ filtersDeleted = true ∨
      s.recordedRules = 0 ∧ s.recordedHeaders = 0
  | _ => True

/-! ## Rows and sums -/

theorem sum_update {f : Client → Multiset Nat} {rows : Nat → Client} {num : Nat}
    (hindex : index < num) :
    ∑ i ∈ Finset.range num, f (Function.update rows index c i) =
      f c + ∑ i ∈ (Finset.range num).erase index, f (rows i) := by
  rw [← Finset.add_sum_erase _ _ (Finset.mem_range.mpr hindex), Function.update_self]
  simp_all [Finset.sum_congr]

theorem sum_remove {f : Nat → Multiset Nat} {num : Nat} (hindex : index < num)
    (hzero : f index = 0) :
    ∑ j ∈ Finset.range (num - 1), f (if j < index then j else j + 1) =
      ∑ j ∈ Finset.range num, f j := by
  obtain ⟨num, rfl⟩ : ∃ n, num = n + 1 := ⟨num - 1, by omega⟩
  rw [Nat.add_sub_cancel]
  induction num with
  | zero =>
    simp_all
  | succ num ih =>
    rw [Finset.sum_range_succ f (num + 1)]
    by_cases hlast : index = num + 1
    · simp_all [Finset.sum_congr]
    · rw [Finset.sum_range_succ _ num, ih (by omega), if_neg (by omega)]

def otherRules (s : Iface) (index : Nat) : Multiset Nat :=
  ∑ i ∈ (Finset.range s.num).erase index, s.rulesOf (s.rows i)

def otherHeaders (s : Iface) (index : Nat) : Multiset Nat :=
  ∑ i ∈ (Finset.range s.num).erase index, (s.rows i).headers

theorem Inv.routing_row (h : Inv s) (hactive : s.isActive = true) (hindex : index < s.num) :
    s.routing.Owned (s.rulesOf (s.rows index) + s.otherRules index) := by
  refine h.routing.congr ?_
  rw [recordedRules, if_pos hactive]
  exact (Finset.add_sum_erase _ _ (Finset.mem_range.mpr hindex)).symm

theorem Inv.header_row (h : Inv s) (hactive : s.isActive = true) (hindex : index < s.num) :
    s.header.Owned ((s.rows index).headers + s.otherHeaders index) := by
  refine h.header.congr ?_
  rw [recordedHeaders, if_pos hactive]
  exact (Finset.add_sum_erase _ _ (Finset.mem_range.mpr hindex)).symm

theorem Inv.setRow (h : Inv s) (hactive : s.isActive = true) (hindex : index < s.num)
    (hs' : s' = { s.setRow index c with routing := s'.routing, header := s'.header })
    (hrouting : s'.routing.Owned (s.rulesOf c + s.otherRules index))
    (hheader : s'.header.Owned (c.headers + s.otherHeaders index))
    (hregistered : c.HeadersRegistered s.txs) : Inv s' where
  routing := by
    have hrecorded : s'.recordedRules = if s.isActive then
        ∑ i ∈ Finset.range s.num, s.rulesOf (Function.update s.rows index c i) else 0 := by
      rw [hs']
      rfl
    rw [hrecorded, if_pos hactive, sum_update hindex]
    exact hrouting
  header := by
    have hrecorded : s'.recordedHeaders = if s.isActive then
        ∑ i ∈ Finset.range s.num, (Function.update s.rows index c i).headers else 0 := by
      rw [hs']
      rfl
    rw [hrecorded, if_pos hactive, sum_update hindex]
    exact hheader
  registered _ i := by
    have hrow : s'.rows i = Function.update s.rows index c i := by rw [hs']; rfl
    have htxs : s'.txs = s.txs := by rw [hs']; rfl
    rw [hrow, htxs]
    by_cases hi : i = index
    · subst hi
      rwa [Function.update_self]
    simp [hi, h.registered, hactive]
  unregistered := by
    have htx : s'.txProp = s.txProp := by rw [hs']; rfl
    have hnum : s'.num = s.num := by rw [hs']; rfl
    rw [htx, hnum]
    exact fun _ => h.unregistered hactive

structure Quiet (c c' : Client) : Prop where
  rtHdl : c'.rtHdl = c.rtHdl
  rulesV4 : c'.routeRuleSetV4 = c.routeRuleSetV4
  rulesV6 : c'.routeRuleSetV6 = c.routeRuleSetV6
  headersV4 : c'.headersV4 = c.headersV4
  headersV6 : c'.headersV6 = c.headersV6
  registered : ∀ txProp, c.HeadersRegistered txProp → c'.HeadersRegistered txProp

theorem Quiet.rulesOf {c' : Client} (h : Quiet c c') : s.rulesOf c' = s.rulesOf c := by
  rw [Iface.rulesOf, Iface.rulesOf, Client.rulesV4_congr h.rtHdl h.rulesV4,
    Client.rulesV6_congr h.rtHdl h.rulesV6]

theorem Quiet.headers {c' : Client} (h : Quiet c c') : c'.headers = c.headers := by
  rw [Client.headers, Client.headers, h.headersV4, h.headersV6]

theorem Inv.setRow_quiet (h : Inv s) (hactive : s.isActive = true) (hindex : index < s.num)
    (hquiet : Quiet (s.rows index) c) : Inv (s.setRow index c) := by
  refine h.setRow hactive hindex rfl ?_ ?_ (hquiet.registered _ (h.registered hactive index))
  · exact (h.routing_row hactive hindex).congr (by rw [hquiet.rulesOf])
  · exact (h.header_row hactive hindex).congr (by rw [hquiet.headers])

/-! ## The handlers -/

theorem nodup_txOf : (s.txOf iptype).Nodup := List.nodup_range.filter _

theorem Inv.deleteRtRules (h : Inv s) (hactive : s.isActive = true) (hindex : index < s.num)
    (iptype : IpType) : Inv (s.deleteRtRules index iptype) := by
  have hrouting := h.routing_row hactive hindex
  have hheader := h.header_row hactive hindex
  cases iptype with
  | v4 =>
    refine h.setRow (c := { s.rows index with routeRuleSetV4 := false }) hactive hindex rfl ?_
      hheader (h.registered hactive index)
    exact Client.owned_deleteRulesV4 (hrouting.congr (add_assoc _ _ _))
  | v6 =>
    refine h.setRow (c := { s.rows index with routeRuleSetV6 := 0 }) hactive hindex rfl ?_
      hheader (h.registered hactive index)
    have hleft : s.rulesOf { s.rows index with routeRuleSetV6 := 0 } =
        ↑((s.rows index).rulesV4 (s.txOf .v4)) := by
      have hnone : Client.slotsV6 (s.txOf .v6) [] = [] := by simp [Client.slotsV6]
      simp [rulesOf, hnone]
    rw [hleft]
    refine Client.owned_deleteRulesV6 (hrouting.congr ?_)
    rw [rulesOf, add_assoc, add_left_comm]

theorem Inv.addRtRules (h : Inv s) (hactive : s.isActive = true) (hindex : index < s.num)
    (iptype : IpType) (fresh : Fresh) : Inv (s.addRtRules index iptype fresh) := by
  have hrouting := h.routing_row hactive hindex
  have hheader := h.header_row hactive hindex
  unfold Iface.addRtRules
  cases iptype with
  | v4 =>
    dsimp only
    split_ifs with hneeded
    · rcases hadded : (s.rows index).addRulesV4 fresh (s.txOf .v4) s.routing with ⟨routing, c⟩
      obtain ⟨howned, hv6, hframe⟩ := Client.owned_addRulesV4 nodup_txOf hrouting hadded
      dsimp only at howned hv6 hframe ⊢
      refine h.setRow (c := { c with routeRuleSetV4 := true }) hactive hindex rfl ?_ ?_ ?_
      · refine howned.congr ?_
        have hold : (s.rows index).rulesV4 (s.txOf .v4) = [] := by
          simp [Client.rulesV4, hneeded.1]
        simp only [rulesOf, hold, hv6, Client.rulesV4_setV4, Client.rulesV6_setV4, if_true,
          Multiset.coe_nil, zero_add, add_assoc]
      · refine hheader.congr ?_
        rw [hframe]
        rfl
      · rw [hframe]
        exact h.registered hactive index
    · exact h
  | v6 =>
    dsimp only
    split_ifs with hneeded
    · rcases hadded : (s.rows index).addRulesV6 fresh (s.txOf .v6) s.routing with ⟨routing, c⟩
      obtain ⟨howned, hv4, hframe⟩ := Client.owned_addRulesV6
        (↑((s.rows index).rulesV4 (s.txOf .v4)) + s.otherRules index) nodup_txOf hneeded
        (hrouting.congr (by rw [rulesOf, add_assoc, add_left_comm])) hadded
      dsimp only at howned hv4 hframe ⊢
      have haddresses : c.ipv6Set = (s.rows index).ipv6Set := by rw [hframe]
      refine h.setRow (c := { c with routeRuleSetV6 := c.ipv6Set }) hactive hindex rfl ?_ ?_ ?_
      · refine howned.congr ?_
        simp only [rulesOf, Client.rulesV4_setV6, Client.rulesV6_setV6, hv4]
        rw [haddresses, add_left_comm, add_assoc]
      · refine hheader.congr ?_
        rw [hframe]
        rfl
      · rw [hframe]
        exact h.registered hactive index
    · exact h

theorem Inv.addClient (h : Inv s) (hactive : s.isActive = true) (hregistered : s.txProp ≠ none)
    (hc : c.HeadersRegistered s.txs) : Inv (s.addClient c fresh) := by
  obtain ⟨howned, hset⟩ := Client.owned_addHeaders fresh hc h.header
  have hcleared : s.rulesOf (c.addHeaders fresh s.txs s.header).2.cleared = 0 := by
    simp [Client.slotsV6, rulesOf, Client.rulesV4, Client.rulesV6, Client.cleared]
  have hsum {f : Client → Multiset Nat} (c' : Client) :
      ∑ i ∈ Finset.range (s.num + 1), f (Function.update s.rows s.num c' i) =
        f c' + ∑ i ∈ Finset.range s.num, f (s.rows i) := by
    grind [Finset.sum_range_succ, Finset.sum_congr]
  refine ⟨⟨h.routing.congr ?_, howned.congr ?_⟩, fun _ i => ?_,
    fun _ hnone => absurd hnone hregistered⟩
  · have hrecorded : (s.addClient c fresh).recordedRules = if s.isActive then
        ∑ i ∈ Finset.range (s.num + 1), s.rulesOf (Function.update s.rows s.num
          (c.addHeaders fresh s.txs s.header).2.cleared i) else 0 := rfl
    rw [hrecorded, recordedRules, if_pos hactive, if_pos hactive, hsum, hcleared, zero_add]
  · have hrecorded : (s.addClient c fresh).recordedHeaders = if s.isActive then
        ∑ i ∈ Finset.range (s.num + 1), (Function.update s.rows s.num
          (c.addHeaders fresh s.txs s.header).2.cleared i).headers else 0 := rfl
    rw [hrecorded, recordedHeaders, if_pos hactive, if_pos hactive, hsum]
    rfl
  · have hrow : (s.addClient c fresh).rows i = Function.update s.rows s.num
        (c.addHeaders fresh s.txs s.header).2.cleared i := rfl
    rw [hrow]
    by_cases hi : i = s.num
    · rw [hi, Function.update_self]
      exact hset
    · rw [Function.update_of_ne hi]
      exact h.registered hactive i

/-! ### Clients removed -/

theorem Inv.deleteHandles (h : Inv s) (hactive : s.isActive = true) (hindex : index < s.num) :
    ∃ left, s.deleteHandles index = (true, left) ∧ Inv left ∧ left.isActive = true ∧
      left.num = s.num ∧ left.txs = s.txs ∧ left.rulesOf (left.rows index) = 0 ∧
      (left.rows index).headers = 0 := by
  have hrules := (h.deleteRtRules hactive hindex .v4).deleteRtRules (by simpa using hactive)
    (by simpa using hindex) .v6
  have hactive' : ((s.deleteRtRules index .v4).deleteRtRules index .v6).isActive = true := by
    simpa using hactive
  have hindex' : index < ((s.deleteRtRules index .v4).deleteRtRules index .v6).num := by
    simpa using hindex
  have hset : (((s.deleteRtRules index .v4).deleteRtRules index .v6).rows index).routeRuleSetV4 =
      false ∧
      (((s.deleteRtRules index .v4).deleteRtRules index .v6).rows index).routeRuleSetV6 = 0 := by
    simp [Iface.deleteRtRules]
  have htxs : ((s.deleteRtRules index .v4).deleteRtRules index .v6).txs = s.txs := rfl
  have hnum : ((s.deleteRtRules index .v4).deleteRtRules index .v6).num = s.num := by simp
  unfold Iface.deleteHandles
  generalize (s.deleteRtRules index .v4).deleteRtRules index .v6 = stripped at *
  obtain ⟨header, hdeleted, howned⟩ :=
    Client.owned_deleteHeaders (hrules.header_row hactive' hindex')
  have hnone : Client.slotsV6 (stripped.txOf .v6) [] = [] := by simp [Client.slotsV6]
  have hzero (c' : Client) (h4 : c'.routeRuleSetV4 = false) (h6 : c'.routeRuleSetV6 = 0) :
      stripped.rulesOf c' = 0 := by simp [rulesOf, Client.rulesV4, Client.rulesV6, h4, h6, hnone]
  refine ⟨{ stripped with header := header }.setRow index { stripped.rows index with
    ipv4HeaderSet := false, ipv6HeaderSet := false }, ?_, ?_, hactive', hnum, htxs, ?_, ?_⟩
  · rw [Iface.deleteHeaders, hdeleted]
  · refine hrules.setRow hactive' hindex' rfl ?_ ?_ ⟨by simp, by simp⟩
    · refine (hrules.routing_row hactive' hindex').congr (congrArg (· + _) ?_)
      exact (hzero _ hset.1 hset.2).trans (hzero _ hset.1 hset.2).symm
    · simpa [Client.headers, Client.headersV4, Client.headersV6] using howned
  · rw [rows_setRow, Function.update_self]
    exact hzero _ hset.1 hset.2
  · simp [Client.headers, Client.headersV4, Client.headersV6]

theorem sameEth_rulesOf {c' : Client} (h : Client.SameEth s.txs.length c c') :
    s.rulesOf c' = s.rulesOf c := by
  have hlt {iptype : IpType} : ∀ tx ∈ s.txOf iptype, tx < s.txs.length := fun tx htx =>
    List.mem_range.mp (List.mem_of_mem_filter htx)
  have h4 : c'.rulesV4 (s.txOf .v4) = c.rulesV4 (s.txOf .v4) := by
    rw [Client.rulesV4, Client.rulesV4, h.routeRuleSetV4]
    split_ifs
    · refine List.map_congr_left fun slot hslot => ?_
      obtain ⟨tx, htx, rfl⟩ := List.mem_map.mp hslot
      exact h.rtV4 tx (hlt tx htx)
    · rfl
  have h6 : c'.rulesV6 (s.txOf .v6) = c.rulesV6 (s.txOf .v6) := by
    rw [Client.rulesV6, Client.rulesV6, h.routeRuleSetV6]
    refine List.map_congr_left fun slot hslot => ?_
    obtain ⟨tx, htx, num, hnum, rfl | rfl⟩ := Client.mem_slotsV6.mp hslot
    · exact (h.rtV6 tx (hlt tx htx) num (List.mem_range.mp hnum)).1
    · exact (h.rtV6 tx (hlt tx htx) num (List.mem_range.mp hnum)).2
  rw [rulesOf, rulesOf, h4, h6]

theorem sameEth_headers {c' : Client} {txs : Nat} (h : Client.SameEth txs c c') :
    c'.headers = c.headers := by
  rw [Client.headers, Client.headers, Client.headersV4, Client.headersV4, Client.headersV6,
    Client.headersV6, h.ipv4HeaderSet, h.ipv6HeaderSet, h.hdrHdlV4, h.hdrHdlV6]

theorem Inv.dropRow {copy : Client → Client → Client} (h : Inv s) (hactive : s.isActive = true)
    (hindex : index < s.num) (hcopy : ∀ dst src, Client.SameEth s.txs.length src (copy dst src))
    (hrules : s.rulesOf (s.rows index) = 0) (hheaders : (s.rows index).headers = 0) :
    Inv (s.dropRow copy index) := by
  have hsum {f : Client → Multiset Nat} (hf : ∀ dst src, f (copy dst src) = f src)
      (hzero : f (s.rows index) = 0) :
      ∑ j ∈ Finset.range (s.num - 1), f ((s.dropRow copy index).rows j) =
        ∑ j ∈ Finset.range s.num, f (s.rows j) := by
    grind [sum_remove, Finset.sum_congr, rows_dropRow]
  refine ⟨⟨h.routing.congr ?_, h.header.congr ?_⟩, fun _ i => ?_, fun _ hnone => ?_⟩
  · rw [recordedRules_of_active hactive,
      recordedRules_of_active (s := s.dropRow copy index) hactive]
    exact (hsum (fun dst src => sameEth_rulesOf (hcopy dst src)) hrules).symm
  · rw [recordedHeaders_of_active hactive,
      recordedHeaders_of_active (s := s.dropRow copy index) hactive]
    exact (hsum (fun dst src => sameEth_headers (hcopy dst src)) hheaders).symm
  · change ((shiftRows copy (s.num - 1 - index) index
      (Function.update s.rows index (s.rows index).reset)) i).HeadersRegistered s.txs
    have hrow : (Function.update s.rows index (s.rows index).reset i).HeadersRegistered s.txs := by
      by_cases hi : i = index
      · subst hi
        rw [Function.update_self]
        exact ⟨nofun, nofun⟩
      simp [hi, h.registered, hactive]
    rw [shiftRows_eq]
    split_ifs with hshifted
    · rw [Function.update_of_ne (show i + 1 ≠ index by omega)]
      have hsame := hcopy (Function.update s.rows index (s.rows index).reset i) (s.rows (i + 1))
      have hregistered := h.registered hactive (i + 1)
      rwa [Client.HeadersRegistered, hsame.ipv4HeaderSet, hsame.ipv6HeaderSet]
    · exact hrow
  · exact congrArg (· - 1) (h.unregistered hactive hnone)

theorem Inv.removeClient {copy : Client → Client → Client} (h : Inv s)
    (hactive : s.isActive = true)
    (hcopy : ∀ dst src, Client.SameEth s.txs.length src (copy dst src)) :
    Inv (s.removeClient copy mac).2 ∧ (s.removeClient copy mac).2.isActive = true := by
  unfold Iface.removeClient
  cases hindex : s.getClientIndex mac with
  | none => exact ⟨h, hactive⟩
  | some index =>
    obtain ⟨left, hleft, hinv, hactive', hnum, htxs, hrules, hheaders⟩ :=
      h.deleteHandles hactive (getClientIndex_lt hindex)
    simp only [hleft]
    exact ⟨hinv.dropRow hactive' (hnum ▸ getClientIndex_lt hindex) (htxs ▸ hcopy) hrules hheaders,
      hactive'⟩

/-! ### Addresses, power save and resets -/

theorem Inv.handleClientIpaddr (h : Inv s) (hactive : s.isActive = true) (data : EventData) :
    Inv (s.handleClientIpaddr data).2 := by
  unfold Iface.handleClientIpaddr
  cases hindex : s.getClientIndex data.mac with
  | none => exact h
  | some index =>
    have hlt := getClientIndex_lt hindex
    cases data.iptype with
    | v4 =>
      dsimp only
      split_ifs
      · exact h
      · exact h.setRow_quiet hactive hlt ⟨rfl, rfl, rfl, rfl, rfl, fun _ => id⟩
      · exact h
      · exact (h.deleteRtRules hactive hlt .v4).setRow_quiet (by simpa using hactive)
          (by simpa using hlt) ⟨rfl, rfl, rfl, rfl, rfl, fun _ => id⟩
    | v6 =>
      dsimp only
      split_ifs
      · exact h
      · exact h
      · exact h.setRow_quiet hactive hlt ⟨rfl, rfl, rfl, rfl, rfl, fun _ => id⟩
      · exact h

theorem isActive_handleClientIpaddr (data : EventData) :
    (s.handleClientIpaddr data).2.isActive = s.isActive := by
  unfold Iface.handleClientIpaddr
  cases s.getClientIndex data.mac with
  | none => rfl
  | some index =>
    dsimp only
    cases data.iptype with
    | v4 =>
      split_ifs <;> simp
    | v6 =>
      split_ifs <;> simp

@[simp] theorem isActive_addRtRules : (s.addRtRules index iptype fresh).isActive = s.isActive := by
  unfold addRtRules
  cases iptype with
  | v4 =>
    dsimp only
    split_ifs <;> rfl
  | v6 =>
    dsimp only
    split_ifs <;> rfl

theorem Inv.handleEthClientRouteRule (h : Inv s) (hactive : s.isActive = true) :
    Inv (s.handleEthClientRouteRule mac iptype fresh) := by
  unfold Iface.handleEthClientRouteRule
  split_ifs
  · exact h
  · cases hindex : s.getClientIndex mac with
    | none => exact h
    | some index => exact h.addRtRules hactive (getClientIndex_lt hindex) iptype fresh

theorem Inv.handleWlanClientRouteRule (h : Inv s) (hactive : s.isActive = true) (mac : Mac)
    (iptype : IpType) (fresh : Fresh) :
    Inv (s.handleWlanClientRouteRule mac iptype fresh) ∧
      (s.handleWlanClientRouteRule mac iptype fresh).isActive = true := by
  unfold Iface.handleWlanClientRouteRule
  split_ifs
  · exact ⟨h, hactive⟩
  · cases hindex : s.getClientIndex mac with
    | none => exact ⟨h, hactive⟩
    | some index =>
      dsimp only
      split_ifs
      · exact ⟨h, hactive⟩
      · exact ⟨h.addRtRules hactive (getClientIndex_lt hindex) iptype fresh, by simpa⟩

theorem Inv.handleWlanClientPwrsave (h : Inv s) (hactive : s.isActive = true) :
    Inv (s.handleWlanClientPwrsave mac) := by
  unfold Iface.handleWlanClientPwrsave
  cases hindex : s.getClientIndex mac with
  | none => exact h
  | some index =>
    have hlt := getClientIndex_lt hindex
    dsimp only
    split_ifs
    · exact h
    · refine ((h.deleteRtRules hactive hlt .v4).deleteRtRules ?_ ?_ .v6).setRow_quiet ?_ ?_
        ⟨rfl, rfl, rfl, rfl, rfl, fun _ => id⟩
      all_goals simpa

theorem Inv.handleWlanClientRecover (h : Inv s) (hactive : s.isActive = true) :
    Inv (s.handleWlanClientRecover mac fresh) := by
  unfold Iface.handleWlanClientRecover
  cases hindex : s.getClientIndex mac with
  | none => exact h
  | some index =>
    dsimp only
    split_ifs
    · exact h
    all_goals
      have hawake := h.setRow_quiet (c := { s.rows index with powerSaveSet := false }) hactive
        (getClientIndex_lt hindex) ⟨rfl, rfl, rfl, rfl, rfl, fun _ => id⟩
    · obtain ⟨h4, hactive4⟩ := hawake.handleWlanClientRouteRule hactive mac .v4 fresh
      exact (h4.handleWlanClientRouteRule hactive4 mac .v6 fresh).1
    · exact (hawake.handleWlanClientRouteRule hactive _ _ _).1
    · exact (hawake.handleWlanClientRouteRule hactive _ _ _).1
    · exact hawake

theorem Inv.handleWlanClientInitEx (h : Inv s) (hactive : s.isActive = true)
    {newMac : Option Mac} {info total : Nat} :
    Inv (s.handleWlanClientInitEx newMac info total fresh) := by
  unfold Iface.handleWlanClientInitEx
  split_ifs
  · exact h
  · cases htx : s.txProp with
    | none => exact h
    | some txProp =>
      refine h.addClient hactive (by simp [htx]) ?_
      split_ifs <;> exact h.registered hactive s.num

theorem Inv.handleEthHdrInit (h : Inv s) (hactive : s.isActive = true) (mac : Mac)
    (fresh : Fresh) :
    Inv (s.handleEthHdrInit mac fresh) ∧ (s.handleEthHdrInit mac fresh).isActive = true := by
  unfold Iface.handleEthHdrInit
  split_ifs
  · exact ⟨h, hactive⟩
  · cases htx : s.txProp with
    | none =>
      -- the row behind the last client gets an address
      have hnum := h.unregistered hactive htx
      refine ⟨⟨⟨h.routing.congr ?_, h.header.congr ?_⟩, fun _ i => ?_, h.unregistered⟩, hactive⟩
      · simp_all [recordedRules_of_active]
      · simp_all [recordedHeaders_of_active]
      · rw [rows_setRow]
        by_cases hi : i = s.num
        · subst hi
          rw [Function.update_self]
          exact h.registered hactive s.num
        · rw [Function.update_of_ne hi]
          exact h.registered hactive i
    | some txProp =>
      exact ⟨h.addClient hactive (by simp [htx]) (h.registered hactive s.num), hactive⟩

theorem Inv.resetAddr (h : Inv s) (hactive : s.isActive = true) (hindex : index < s.num) :
    Inv (s.resetAddr index iptype) := by
  cases iptype <;>
    exact h.setRow_quiet hactive hindex ⟨rfl, rfl, rfl, rfl, rfl, fun _ => id⟩

@[simp] theorem num_resetAddr : (s.resetAddr index iptype).num = s.num := by
  cases iptype <;> rfl

@[simp] theorem isActive_resetAddr : (s.resetAddr index iptype).isActive = s.isActive := by
  cases iptype <;> rfl

theorem Inv.resetWlanClients {indices : List Nat} (h : Inv s) (hactive : s.isActive = true)
    (hindices : ∀ index ∈ indices, index < s.num) : Inv (resetWlanClients iptype indices s) := by
  induction indices generalizing s with
  | nil => exact h
  | cons index indices ih =>
    have hdeleted := h.deleteRtRules hactive (hindices index List.mem_cons_self) iptype
    unfold Iface.resetWlanClients
    dsimp only
    split_ifs
    · exact hdeleted
    · refine ih (hdeleted.resetAddr ?_ ?_) ?_ ?_
      · simpa
      · simpa using hindices index List.mem_cons_self
      · simpa
      · simpa using fun i hi => hindices i (List.mem_cons_of_mem _ hi)

theorem Inv.foldl {indices : List Nat} (visit : Iface → Nat → Iface)
    (hvisit : ∀ s index, Inv s → s.isActive = true → index < s.num →
      Inv (visit s index) ∧ (visit s index).isActive = true ∧ (visit s index).num = s.num)
    (h : Inv s) (hactive : s.isActive = true) (hindices : ∀ index ∈ indices, index < s.num) :
    Inv (indices.foldl visit s) ∧ (indices.foldl visit s).isActive = true ∧
      (indices.foldl visit s).num = s.num := by
  induction indices generalizing s with
  | nil => exact ⟨h, hactive, rfl⟩
  | cons index indices ih =>
    simp_all

theorem Inv.handleLanClientResetRt (h : Inv s) (hactive : s.isActive = true) :
    Inv (s.handleLanClientResetRt iptype) := by
  obtain ⟨hinv, hactive', -⟩ := h.foldl
    (fun s index => s.deleteRtRules index iptype)
    (fun s index h hactive hindex => ⟨h.deleteRtRules hactive hindex iptype, by simpa, by simp⟩)
    hactive (fun index hmem => List.mem_range.mp hmem)
  exact (hinv.foldl (fun s index => s.resetAddr index iptype)
    (fun s index h hactive hindex => ⟨h.resetAddr hactive hindex, by simpa, by simp⟩)
    hactive' (fun index hmem => List.mem_range.mp hmem)).1

/-! ### Interface down -/

theorem owned_deleteRtRules {held : Multiset Nat}
    (h : s.routing.Owned (s.rulesOf (s.rows index) + held)) :
    ((s.deleteRtRules index .v4).deleteRtRules index .v6).routing.Owned held := by
  have hrow : (s.deleteRtRules index .v4).rows index =
      { s.rows index with routeRuleSetV4 := false } := Function.update_self _ _ _
  have h4 : (s.deleteRtRules index .v4).routing.Owned
      (↑((s.rows index).rulesV6 (s.txOf .v6)) + held) :=
    Client.owned_deleteRulesV4 (h.congr (add_assoc _ _ _))
  refine Client.owned_deleteRulesV6 (h4.congr ?_)
  rw [hrow]
  rfl

theorem owned_downClients {indices : List Nat} (hnodup : indices.Nodup)
    (hrouting : s.routing.Owned (indices.map fun index => s.rulesOf (s.rows index)).sum)
    (hheader : s.header.Owned (indices.map fun index => (s.rows index).headers).sum) :
    (downClients indices s).routing.Owned 0 ∧ (downClients indices s).header.Owned 0 := by
  induction indices generalizing s with
  | nil => exact ⟨hrouting, hheader⟩
  | cons index indices ih =>
    obtain ⟨hnotMem, hnodup⟩ := List.nodup_cons.mp hnodup
    rw [List.map_cons, List.sum_cons] at hrouting hheader
    have hrules := owned_deleteRtRules hrouting
    have hother : ∀ i ∈ indices,
        ((s.deleteRtRules index .v4).deleteRtRules index .v6).rows i = s.rows i := fun i hi => by
      have hne : i ≠ index := fun heq => hnotMem (heq ▸ hi)
      rw [rows_deleteRtRules_of_ne hne, rows_deleteRtRules_of_ne hne]
    have hheaders : (((s.deleteRtRules index .v4).deleteRtRules index .v6).rows index).headers =
        (s.rows index).headers := by
      simp [Iface.deleteRtRules, Client.headers, Client.headersV4, Client.headersV6]
    have htx : ((s.deleteRtRules index .v4).deleteRtRules index .v6).header = s.header := by simp
    have hrulesOf : ((s.deleteRtRules index .v4).deleteRtRules index .v6).rulesOf = s.rulesOf :=
      rfl
    unfold downClients
    dsimp only
    generalize (s.deleteRtRules index .v4).deleteRtRules index .v6 = stripped at *
    rw [← hheaders, ← htx] at hheader
    obtain ⟨header, hdeleted, howned⟩ := Client.owned_deleteHeaders hheader
    rw [hdeleted]
    refine ih hnodup (hrules.congr ?_) (howned.congr ?_)
    · refine congrArg List.sum (List.map_congr_left fun i hi => ?_)
      change s.rulesOf (s.rows i) = stripped.rulesOf (stripped.rows i)
      rw [hother i hi, hrulesOf]
    simp_all [List.map_congr_left]

theorem inv_inactive (hinactive : s.isActive = false) (hrouting : s.routing.Owned 0)
    (hheader : s.header.Owned 0) : Inv s := by
  refine ⟨⟨hrouting.congr ?_, hheader.congr ?_⟩, fun hactive => ?_, fun hactive => ?_⟩
  · simp [recordedRules, hinactive]
  · simp [recordedHeaders, hinactive]
  · cases hinactive.symm.trans hactive
  · cases hinactive.symm.trans hactive

theorem Inv.handleDownEvt (h : Inv s) (hactive : s.isActive = true) {filtersDeleted : Bool}
    (hok : Ok s (.down filtersDeleted)) : Inv (s.handleDownEvt filtersDeleted) := by
  have hrouting : s.routing.Owned
      ((List.range s.num).map fun index => s.rulesOf (s.rows index)).sum :=
    h.routing.congr (recordedRules_of_active hactive)
  have hheader : s.header.Owned
      ((List.range s.num).map fun index => (s.rows index).headers).sum :=
    h.header.congr (recordedHeaders_of_active hactive)
  obtain ⟨hrouting', hheader'⟩ := owned_downClients List.nodup_range hrouting hheader
  unfold Iface.handleDownEvt
  split_ifs with hskipped
  · rcases hok with ⟨hup, hfilters⟩ | ⟨hrules, hheaders⟩
    · exact absurd hskipped (by simp [hup, hfilters])
    · exact inv_inactive rfl (h.routing.congr hrules) (h.header.congr hheaders)
  · exact inv_inactive rfl hrouting' hheader'

theorem not_agrees_down (h : Inv s) {filtersDeleted : Bool}
    (hok : ¬ Ok s (.down filtersDeleted)) : ¬ Agrees (s.eventCallback (.down filtersDeleted)) := by
  intro hagrees
  obtain ⟨hskipped, hrecorded⟩ := not_or.mp hok
  by_cases hactive : s.isActive = true
  · have hnext : s.eventCallback (.down filtersDeleted) = { s with isActive := false } := by
      have hskip : s.ipType = .null ∨ filtersDeleted = false := by
        rw [← Bool.not_eq_true]
        exact not_and_or.mp hskipped |>.imp_left not_not.mp
      rw [Iface.eventCallback, if_pos hactive, handle, Iface.handleDownEvt, if_pos hskip]
    rw [hnext] at hagrees
    exact hrecorded ⟨h.routing.live.symm.trans hagrees.routing.live,
      h.header.live.symm.trans hagrees.header.live⟩
  · exact hrecorded ⟨if_neg hactive, if_neg hactive⟩

/-! ## Runs -/

theorem Inv.eventCallback {op : Op} (h : Inv s) (hok : Ok s op) : Inv (s.eventCallback op) := by
  unfold Iface.eventCallback
  split_ifs with hactive
  · cases op with
    | addrAdd iptype => exact ⟨⟨h.routing, h.header⟩, h.registered, h.unregistered⟩
    | wlanClientAddEx mac info total fresh => exact h.handleWlanClientInitEx hactive
    | wlanNeighAdd data fresh =>
      have hinv := h.handleClientIpaddr hactive data
      have hactive' := (isActive_handleClientIpaddr (s := s) data).trans hactive
      unfold handle
      dsimp only
      generalize s.handleClientIpaddr data = result at *
      rcases result with ⟨_ | _, s'⟩
      · exact hinv
      · exact (hinv.handleWlanClientRouteRule hactive' _ _ _).1
    | wlanPowerSave mac => exact h.handleWlanClientPwrsave hactive
    | wlanRecover mac fresh => exact h.handleWlanClientRecover hactive
    | wlanClientDel mac =>
      exact (h.removeClient hactive fun dst src => Client.sameEth_copyWlan).1
    | wlanResetRt iptype =>
      exact h.resetWlanClients hactive fun index hmem => List.mem_range.mp hmem
    | lanNeighAdd data fresh =>
      obtain ⟨hinit, hactiveInit⟩ := h.handleEthHdrInit hactive data.mac fresh
      unfold handle
      dsimp only
      generalize s.handleEthHdrInit data.mac fresh = s' at *
      have hinv := hinit.handleClientIpaddr hactiveInit data
      have hactive' := (isActive_handleClientIpaddr (s := s') data).trans hactiveInit
      generalize s'.handleClientIpaddr data = result at *
      rcases result with ⟨_ | _, s''⟩
      · exact hinv
      · exact hinv.handleEthClientRouteRule hactive'
    | lanNeighDel mac => exact (h.removeClient hactive fun dst src => Client.sameEth_copyEth).1
    | lanResetRt iptype => exact h.handleLanClientResetRt hactive
    | down filtersDeleted => exact h.handleDownEvt hactive hok
  · exact h

theorem inv_invariant : (system.restrict Ok).Invariant Inv := by
  refine .of_restrict ?_ ?_
  · rintro s ⟨kind, txProp, rfl⟩
    refine ⟨⟨Handles.owned_empty, Handles.owned_empty⟩, fun _ _ => ⟨nofun, nofun⟩,
      fun _ _ => rfl⟩
  · rintro s op s' h hok ⟨-, rfl⟩
    exact h.eventCallback hok

/-- As long as no interface goes down without deleting the handles of its clients, the driver and
the tables agree, and an interface that is down has left nothing behind. A step that does so is
where that ends. -/
theorem agrees_of_reachable (hs : (system.restrict Ok).Reachable s) :
    Agrees s ∧ (s.isActive = false → s.routing.live = 0 ∧ s.header.live = 0) ∧
      ∀ op, Agrees (s.eventCallback op) ↔ Ok s op := by
  have h := inv_invariant.reachable hs
  refine ⟨h.toAgrees, fun hinactive => ⟨?_, ?_⟩, fun op => ⟨fun hagrees => ?_, fun hok =>
    (h.eventCallback hok).toAgrees⟩⟩
  · exact h.routing.live.trans (by simp [recordedRules, hinactive])
  · exact h.header.live.trans (by simp [recordedHeaders, hinactive])
  · by_contra hok
    cases op with
    | down filtersDeleted => exact not_agrees_down h hok hagrees
    | _ => exact hok trivial

instance (s : Iface) (op : Op) : Decidable (Ok s op) := by
  cases op <;> (unfold Ok; infer_instance)

/-- A client with addresses of both families saves power, recovers and goes down with the
interface. -/
def clientLife : List Op :=
  [.wlanClientAddEx (some 1) 0 0 .next, .addrAdd .v4,
    .wlanNeighAdd { mac := 1, iptype := .v4, v4Addr := 5 } .next,
    .wlanNeighAdd { mac := 1, iptype := .v6, v6Addr := (1, 2, 3, 4) } .next,
    .wlanPowerSave 1, .wlanRecover 1 .next]

theorem agrees_clientLife : ∃ s : Iface, Agrees s ∧ s.routing.live = {1, 2, 3} ∧
    s.header.live = {1, 2} ∧ Agrees (s.eventCallback (.down true)) ∧
    ¬ Agrees (s.eventCallback (.down false)) := by
  have hrun : (System.follow (fun s op => Ok s op ∧ Enabled s op) eventCallback clientLife
      { kind := .wlan, txProp := some [.v4, .v6] }).any
      (fun s => s.routing.live = {1, 2, 3} ∧ s.header.live = {1, 2} ∧ Ok s (.down true) ∧
        ¬ Ok s (.down false)) = true := by
    decide +kernel
  obtain ⟨s, hs, hend⟩ := (Option.any_eq_true _ _).mp hrun
  obtain ⟨hrouting, hheader, hok, hbad⟩ := of_decide_eq_true hend
  have hinit : (system.restrict Ok).Reachable
      { kind := .wlan, txProp := some [.v4, .v6] } := .init ⟨.wlan, _, rfl⟩
  obtain ⟨hagrees, -, hnext⟩ := agrees_of_reachable (System.reachable_follow _ hinit hs)
  exact ⟨s, hagrees, hrouting, hheader, (hnext _).mpr hok, fun h => hbad ((hnext _).mp h)⟩

/-- A client comes before the interface has an address, and then the interface goes down. -/
theorem not_agrees_noAddress : ¬ ∀ s, system.Reachable s →
    Agrees s ∧ (s.isActive = false → s.routing.live = 0 ∧ s.header.live = 0) := by
  intro hall
  have hrun : (System.follow (fun s op => True ∧ Enabled s op) eventCallback
      [.wlanClientAddEx (some 1) 0 0 .next, .down true]
      { kind := .wlan, txProp := some [.v4] }).any
      (fun s => s.isActive = false ∧ s.header.live ≠ 0) = true := by
    decide +kernel
  obtain ⟨s, hs, hend⟩ := (Option.any_eq_true _ _).mp hrun
  obtain ⟨hinactive, hlive⟩ := of_decide_eq_true hend
  have hinit : (system.restrict fun _ _ => True).Reachable
      { kind := .wlan, txProp := some [.v4] } := .init ⟨.wlan, _, rfl⟩
  exact hlive ((hall s (System.reachable_follow _ hinit hs).of_restrict).2 hinactive).2

end Iface

end EtherDevice.Ipacm.ClientTable
