import EtherDevice.Ipacm.ClientTable

/-!
# Removing one client

The rows behind a removed client are copied forward field by field. The copy of a WLAN row
leaves `power_save_set` out, so each of these clients gets the flag of the client that was in
its new place. The other fields arrive.
-/

namespace EtherDevice.Ipacm.ClientTable

open Lib

namespace Client

/-- The fields that both classes have. Addresses and rules count up to the number that is set. -/
structure SameEth (txs : Nat) (c c' : Client) : Prop where
  mac : c'.mac = c.mac
  v4Addr : c'.v4Addr = c.v4Addr
  ipv4Set : c'.ipv4Set = c.ipv4Set
  ipv6Set : c'.ipv6Set = c.ipv6Set
  v6Addr : ∀ num < c.ipv6Set, c'.v6Addr num = c.v6Addr num
  hdrHdlV4 : c'.hdrHdlV4 = c.hdrHdlV4
  hdrHdlV6 : c'.hdrHdlV6 = c.hdrHdlV6
  ipv4HeaderSet : c'.ipv4HeaderSet = c.ipv4HeaderSet
  ipv6HeaderSet : c'.ipv6HeaderSet = c.ipv6HeaderSet
  routeRuleSetV4 : c'.routeRuleSetV4 = c.routeRuleSetV4
  routeRuleSetV6 : c'.routeRuleSetV6 = c.routeRuleSetV6
  rtV4 : ∀ tx < txs, (c'.rtHdl tx).v4 = (c.rtHdl tx).v4
  rtV6 : ∀ tx < txs, ∀ num < c.routeRuleSetV6,
    (c'.rtHdl tx).v6 num = (c.rtHdl tx).v6 num ∧
      (c'.rtHdl tx).v6Wan num = (c.rtHdl tx).v6Wan num

structure SameWlan (txs : Nat) (c c' : Client) : Prop extends SameEth txs c c' where
  pHdrInfo : c'.pHdrInfo = c.pHdrInfo
  powerSaveSet : c'.powerSaveSet = c.powerSaveSet

variable {txs : Nat} {c dst src : Client}

theorem SameEth.refl : SameEth txs c c := by
  constructor <;> intros <;> first | rfl | exact ⟨rfl, rfl⟩

theorem SameWlan.refl : SameWlan txs c c := ⟨.refl, rfl, rfl⟩

theorem sameEth_copyEth : SameEth txs src (copyEth txs dst src) where
  mac := rfl
  v4Addr := rfl
  ipv4Set := rfl
  ipv6Set := rfl
  v6Addr num hnum := if_pos hnum
  hdrHdlV4 := rfl
  hdrHdlV6 := rfl
  ipv4HeaderSet := rfl
  ipv6HeaderSet := rfl
  routeRuleSetV4 := rfl
  routeRuleSetV6 := rfl
  rtV4 tx htx := by simp [copyEth, htx]
  rtV6 tx htx num hnum := by simp [copyEth, htx, hnum]

theorem sameEth_copyWlan : SameEth txs src (copyWlan txs dst src) :=
  have heth : SameEth txs src (copyEth txs dst src) := sameEth_copyEth
  { heth with }

theorem sameWlan_copyWlan_iff :
    SameWlan txs src (copyWlan txs dst src) ↔ dst.powerSaveSet = src.powerSaveSet := by
  constructor
  · exact SameWlan.powerSaveSet
  · exact fun hpower => ⟨sameEth_copyWlan, rfl, hpower⟩

/-- `DeleteHeaderHdl` refuses no header that is set. -/
def HeadersDeletable (c : Client) : Prop :=
  (c.ipv4HeaderSet = true → c.hdrHdlV4 ≠ 0) ∧ (c.ipv6HeaderSet = true → c.hdrHdlV6 ≠ 0)

theorem deleteHeaderV4_fst (header : Handles) :
    (c.deleteHeaderV4 header).1 = true ↔ (c.ipv4HeaderSet = true → c.hdrHdlV4 ≠ 0) := by
  unfold deleteHeaderV4
  split_ifs with hset hzero
  · simp [hset, hzero]
  · simp [hzero]
  · simp [hset]

theorem deleteHeaderV6_fst (header : Handles) :
    (c.deleteHeaderV6 header).1 = true ↔ (c.ipv6HeaderSet = true → c.hdrHdlV6 ≠ 0) := by
  unfold deleteHeaderV6
  split_ifs with hset hzero
  · simp [hset, hzero]
  · simp [hzero]
  · simp [hset]

theorem deleteHeaderV4_v6 (header : Handles) :
    (c.deleteHeaderV4 header).2.1.ipv6HeaderSet = c.ipv6HeaderSet ∧
      (c.deleteHeaderV4 header).2.1.hdrHdlV6 = c.hdrHdlV6 := by
  unfold deleteHeaderV4
  split_ifs <;> exact ⟨rfl, rfl⟩

theorem powerSaveSet_deleteHeaders (header : Handles) :
    (c.deleteHeaders header).2.1.powerSaveSet = c.powerSaveSet := by
  have h4 : (c.deleteHeaderV4 header).2.1.powerSaveSet = c.powerSaveSet := by
    unfold deleteHeaderV4
    split_ifs <;> rfl
  have h6 (c' : Client) (header' : Handles) :
      (c'.deleteHeaderV6 header').2.1.powerSaveSet = c'.powerSaveSet := by
    unfold deleteHeaderV6
    split_ifs <;> rfl
  grind [deleteHeaders]

theorem deleteHeaders_fst (header : Handles) :
    (c.deleteHeaders header).1 = true ↔ c.HeadersDeletable := by
  grind [deleteHeaderV4_fst, deleteHeaderV4_v6, deleteHeaders, HeadersDeletable, deleteHeaderV6_fst]

end Client

namespace Iface

variable {s s' : Iface} {index : Nat} {mac : Mac} {iptype : IpType}

/-- The clients of `s` but the one in row `index`, in order, and each row as it was. -/
def RowsKept (same : Client → Client → Prop) (s : Iface) (index : Nat) (s' : Iface) : Prop :=
  s'.num = s.num - 1 ∧
    ∀ j < s.num - 1, same (s.rows (if j < index then j else j + 1)) (s'.rows j)

theorem getClientIndex_lt (h : s.getClientIndex mac = some index) : index < s.num :=
  List.mem_range.mp (List.mem_of_find?_eq_some h)

theorem rows_deleteRtRules_of_ne {j : Nat} (hj : j ≠ index) :
    (s.deleteRtRules index iptype).rows j = s.rows j := by
  cases iptype <;> exact Function.update_of_ne hj _ _

theorem headersDeletable_deleteRtRules :
    ((s.deleteRtRules index iptype).rows index).HeadersDeletable ↔
      (s.rows index).HeadersDeletable := by
  cases iptype <;> simp [deleteRtRules, Client.HeadersDeletable]

theorem deleteHandles_fst :
    (s.deleteHandles index).1 = true ↔ (s.rows index).HeadersDeletable := by
  have hfst : (s.deleteHandles index).1 =
      ((((s.deleteRtRules index .v4).deleteRtRules index .v6).rows index).deleteHeaders
        s.header).1 := by simp [deleteHandles, deleteHeaders]
  simp [Client.deleteHeaders_fst, headersDeletable_deleteRtRules, hfst]

@[simp] theorem num_deleteHandles (index : Nat) : (s.deleteHandles index).2.num = s.num := by
  simp [deleteHandles, deleteHeaders]

theorem rows_deleteHandles_of_ne {j : Nat} (hj : j ≠ index) :
    (s.deleteHandles index).2.rows j = s.rows j := by
  simp [deleteHandles, deleteHeaders, Function.update_of_ne hj, rows_deleteRtRules_of_ne hj]

theorem rows_dropRow (copy : Client → Client → Client) (hindex : index < s.num) {j : Nat}
    (hj : j < s.num - 1) :
    (s.dropRow copy index).rows j =
      if j < index then s.rows j
      else copy (Function.update s.rows index (s.rows index).reset j) (s.rows (j + 1)) := by
  unfold dropRow
  dsimp only
  rw [shiftRows_eq]
  by_cases hfront : j < index
  · rw [if_neg (by omega), if_pos hfront, Function.update_of_ne (by omega)]
  · rw [if_pos (by omega), if_neg hfront]
    congr 1
    rw [Function.update_of_ne (by omega)]

theorem removeClient_of_deletable (copy : Client → Client → Client)
    (hindex : s.getClientIndex mac = some index)
    (hheaders : (s.rows index).HeadersDeletable) :
    s.removeClient copy mac = (true, (s.deleteHandles index).2.dropRow copy index) := by
  have hres : (s.deleteHandles index).1 = true := deleteHandles_fst.mpr hheaders
  grind [removeClient]

theorem num_removeClient (copy : Client → Client → Client)
    (hindex : s.getClientIndex mac = some index)
    (hheaders : ¬ (s.rows index).HeadersDeletable) :
    (s.removeClient copy mac).2.num = s.num := by
  have hres : (s.deleteHandles index).1 ≠ true := fun h => hheaders (deleteHandles_fst.mp h)
  grind [num_deleteHandles, removeClient]

/-- From the removed client on, all have the same flag. -/
def PowerSaveSame (s : Iface) (index : Nat) : Prop :=
  ∀ j, index ≤ j → j + 1 < s.num → (s.rows j).powerSaveSet = (s.rows (j + 1)).powerSaveSet

def overwritten (s : Iface) (index : Nat) : Nat → Client :=
  Function.update (s.deleteHandles index).2.rows index
    ((s.deleteHandles index).2.rows index).reset

theorem powerSaveSet_overwritten (j : Nat) :
    (s.overwritten index j).powerSaveSet = (s.rows j).powerSaveSet := by
  by_cases hj : j = index
  · subst hj
    simp [overwritten, deleteHandles, deleteHeaders, deleteRtRules, Client.reset, Client.cleared,
      Client.powerSaveSet_deleteHeaders]
  · rw [overwritten, Function.update_of_ne hj, rows_deleteHandles_of_ne hj]

theorem rowsKept_removeClient_iff {same : Client → Client → Prop}
    {copy : Client → Client → Client} (hrefl : ∀ c, same c c)
    (hindex : s.getClientIndex mac = some index) :
    RowsKept same s index (s.removeClient copy mac).2 ↔
      (s.rows index).HeadersDeletable ∧
        ∀ j, index ≤ j → j + 1 < s.num →
          same (s.rows (j + 1)) (copy (s.overwritten index j) (s.rows (j + 1))) := by
  have hlt := getClientIndex_lt hindex
  by_cases hheaders : (s.rows index).HeadersDeletable
  · rw [removeClient_of_deletable copy hindex hheaders]
    have hrow {j : Nat} (hj : j < s.num - 1) (hbehind : index ≤ j) :
        ((s.deleteHandles index).2.dropRow copy index).rows j =
          copy (s.overwritten index j) (s.rows (j + 1)) := by
      rw [rows_dropRow copy (by rwa [num_deleteHandles]) (by rwa [num_deleteHandles]),
        if_neg (by omega), rows_deleteHandles_of_ne (show j + 1 ≠ index by omega), overwritten]
    constructor
    · refine fun h => ⟨hheaders, fun j hbehind hj => ?_⟩
      have hkept := h.2 j (by omega)
      rwa [if_neg (by omega), hrow (by omega) hbehind] at hkept
    · refine fun h => ⟨congrArg (· - 1) (num_deleteHandles _), fun j hj => ?_⟩
      by_cases hfront : j < index
      · rw [if_pos hfront, rows_dropRow copy (by rwa [num_deleteHandles])
          (by rwa [num_deleteHandles]), if_pos hfront, rows_deleteHandles_of_ne (by omega)]
        exact hrefl _
      · rw [if_neg hfront, hrow hj (by omega)]
        exact h.2 j (by omega) (by omega)
  · refine iff_of_false (fun h => ?_) fun h => hheaders h.1
    have hkept := h.1
    rw [num_removeClient copy hindex hheaders] at hkept
    omega

theorem rowsKept_wlan_iff (hindex : s.getClientIndex mac = some index) :
    RowsKept (Client.SameWlan s.txs.length) s index (s.handleWlanClientDownEvt mac).2 ↔
      (s.rows index).HeadersDeletable ∧ s.PowerSaveSame index := by
  rw [handleWlanClientDownEvt, rowsKept_removeClient_iff (fun _ => .refl) hindex]
  simp only [Client.sameWlan_copyWlan_iff, powerSaveSet_overwritten, PowerSaveSame]

theorem rowsKept_eth_iff (hindex : s.getClientIndex mac = some index) :
    RowsKept (Client.SameEth s.txs.length) s index (s.handleEthClientDownEvt mac).2 ↔
      (s.rows index).HeadersDeletable := by
  rw [handleEthClientDownEvt, rowsKept_removeClient_iff (fun _ => .refl) hindex]
  exact and_iff_left fun _ _ _ => Client.sameEth_copyEth

/-- A LAN client is removed and nothing else, whenever its headers can be deleted. The WLAN
handler needs the flags from the removed client on to be equal as well. -/
theorem rowsKept_iff (hindex : s.getClientIndex mac = some index) :
    (RowsKept (Client.SameWlan s.txs.length) s index (s.handleWlanClientDownEvt mac).2 ↔
        (s.rows index).HeadersDeletable ∧ s.PowerSaveSame index) ∧
      (RowsKept (Client.SameEth s.txs.length) s index (s.handleEthClientDownEvt mac).2 ↔
        (s.rows index).HeadersDeletable) :=
  ⟨rowsKept_wlan_iff hindex, rowsKept_eth_iff hindex⟩

def twoClients : Iface where
  kind := .wlan
  txProp := some [.v4, .v6]
  rows := fun index => { mac := BitVec.ofNat 48 (index + 1), powerSaveSet := index = 1 }
  num := 2

theorem rowsKept_twoClients :
    RowsKept (Client.SameEth 2) twoClients 0 (twoClients.handleEthClientDownEvt 1).2 ∧
      ¬ RowsKept (Client.SameWlan 2) twoClients 0 (twoClients.handleWlanClientDownEvt 1).2 := by
  have hindex : twoClients.getClientIndex 1 = some 0 := by decide
  have hheaders : (twoClients.rows 0).HeadersDeletable := ⟨nofun, nofun⟩
  obtain ⟨hwlan, heth⟩ := rowsKept_iff hindex
  refine ⟨heth.mpr hheaders, fun h => ?_⟩
  have hsame := (hwlan.mp h).2 0 (Nat.le_refl 0) (by decide)
  exact absurd hsame (by decide)

/-- The client in power save mode moves to the first row and is out of it there. -/
theorem not_rowsKept : ¬ ∀ (s : Iface) (mac : Mac) (index : Nat),
    s.getClientIndex mac = some index →
      RowsKept (Client.SameWlan s.txs.length) s index (s.handleWlanClientDownEvt mac).2 := by
  intro hall
  have hkept := (hall twoClients 1 0 (by decide)).2 0 (by decide)
  exact absurd hkept.powerSaveSet (by decide)

end Iface

end EtherDevice.Ipacm.ClientTable
