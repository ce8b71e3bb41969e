import EtherDevice.Ipacm.ClientHandles

/-!
# The route reset of LAN clients

`handle_lan_client_reset_rt` deletes the routing rules of all clients, tells the LAN-to-LAN module
that they are disconnected, and forgets their addresses. Here is the function with its messages. The
message about an IPv6 address has its first word only.
-/

namespace EtherDevice.Ipacm.ClientTable

open Lib

structure LanClientEvent where
  iptype : IpType
  ipv4Addr : UInt32 := 0
  ipv6Addr : V6Addr := (0, 0, 0, 0)
  macAddr : Mac := 0
  pIface : Nat
  deriving DecidableEq

namespace Client

variable (c : Client)

def withoutRules : IpType → Client
  | .v4 => { c with routeRuleSetV4 := false }
  | .v6 => { c with routeRuleSetV6 := 0 }

def withoutAddr : IpType → Client
  | .v4 => { c with ipv4Set := false }
  | .v6 => { c with ipv6Set := 0 }

/-- The messages about one client. All four words of an IPv6 address are copied to the first. -/
def disconnectMsgs (lan : Nat) : IpType → List LanClientEvent
  | .v4 => if c.ipv4Set then [{ iptype := .v4, ipv4Addr := c.v4Addr, pIface := lan }] else []
  | .v6 => (List.range c.ipv6Set).map fun j =>
      { iptype := .v6, ipv6Addr := ((c.v6Addr j).1, 0, 0, 0), pIface := lan }

def completeMsgs (lan : Nat) : IpType → List LanClientEvent
  | .v4 => if c.ipv4Set then [{ iptype := .v4, ipv4Addr := c.v4Addr, pIface := lan }] else []
  | .v6 => (List.range c.ipv6Set).map fun j =>
      { iptype := .v6, ipv6Addr := c.v6Addr j, pIface := lan }

end Client

namespace Iface

variable (s : Iface)

def postLan2lanClientDisconnectMsg (lan : Nat) (iptype : IpType) (fails : Option Nat) :
    Bool × List LanClientEvent :=
  let msgs := (List.range s.num).flatMap fun index => (s.rows index).disconnectMsgs lan iptype
  match fails with
  | none => (true, msgs)
  | some k => (decide (msgs.length ≤ k), msgs.take k)

/-- `handle_lan_client_reset_rt`, with the messages that it posts. -/
def lanClientResetRt (lan : Nat) (iptype : IpType) (fails : Option Nat) :
    Bool × Iface × List LanClientEvent :=
  let s := (List.range s.num).foldl (fun s index => s.deleteRtRules index iptype) s
  match s.postLan2lanClientDisconnectMsg lan iptype fails with
  | (false, msgs) => (false, s, msgs)
  | (true, msgs) =>
    (true, (List.range s.num).foldl (fun s index => s.resetAddr index iptype) s, msgs)

def clientRules (c : Client) : IpType → List Nat
  | .v4 => c.rulesV4 (s.txOf .v4)
  | .v6 => c.rulesV6 (s.txOf .v6)

def rulesOfType (iptype : IpType) : List Nat :=
  (List.range s.num).flatMap fun index => s.clientRules (s.rows index) iptype

def completeMsgs (lan : Nat) (iptype : IpType) : List LanClientEvent :=
  (List.range s.num).flatMap fun index => (s.rows index).completeMsgs lan iptype

/-- What a route reset is for: the rules of the type are deleted and no others, each recorded
address was posted, and the rows of the clients have lost what they had of the type. -/
structure Withdraws (lan : Nat) (iptype : IpType) (others : Multiset Nat)
    (r : Bool × Iface × List LanClientEvent) : Prop where
  success : r.1 = true
  routing : r.2.1.routing.Owned others
  posted : r.2.2.Perm (s.completeMsgs lan iptype)
  rows : ∀ index, r.2.1.rows index =
    if index < s.num then ((s.rows index).withoutRules iptype).withoutAddr iptype
    else s.rows index
  rest : r.2.1 = { s with rows := r.2.1.rows, routing := r.2.1.routing }

/-- An IPv6 address that a message can carry. -/
def FirstWordOnly (iptype : IpType) : Prop :=
  iptype = .v6 → ∀ index < s.num, ∀ j < (s.rows index).ipv6Set,
    ((s.rows index).v6Addr j).2 = (0, 0, 0)

variable {s : Iface} {iptype : IpType} {others : Multiset Nat} {lan : Nat}

theorem rows_foldl (step : Iface → Nat → Iface) (change : Client → Client)
    (hstep : ∀ s index, (step s index).rows =
      Function.update s.rows index (change (s.rows index))) {indices : List Nat}
    (hnodup : indices.Nodup) (index : Nat) :
    (indices.foldl step s).rows index =
      if index ∈ indices then change (s.rows index) else s.rows index := by
  induction indices generalizing s with
  | nil => rfl
  | cons first indices ih =>
    obtain ⟨hfirst, hnodup⟩ := List.nodup_cons.mp hnodup
    rw [List.foldl_cons, ih hnodup, hstep]
    by_cases hindex : index = first
    · simp [hindex, hfirst]
    simp [hindex]

theorem rows_deleteRtRules (s : Iface) (index : Nat) : (s.deleteRtRules index iptype).rows =
    Function.update s.rows index ((s.rows index).withoutRules iptype) := by
  cases iptype <;> rfl

theorem rows_resetAddr (s : Iface) (index : Nat) : (s.resetAddr index iptype).rows =
    Function.update s.rows index ((s.rows index).withoutAddr iptype) := by
  cases iptype <;> rfl

theorem foldl_rest (step : Iface → Nat → Iface) (hstep : ∀ s index,
    step s index = { s with rows := (step s index).rows, routing := (step s index).routing })
    (indices : List Nat) : indices.foldl step s =
      { s with
        rows := (indices.foldl step s).rows
        routing := (indices.foldl step s).routing } := by
  induction indices generalizing s with
  | nil => rfl
  | cons first indices ih =>
    have hfirst := hstep s first
    rw [List.foldl_cons, ih]
    rw [hfirst]

theorem deleteRtRules_rest (s : Iface) (index : Nat) : s.deleteRtRules index iptype =
    { s with
      rows := (s.deleteRtRules index iptype).rows
      routing := (s.deleteRtRules index iptype).routing } := by
  cases iptype <;> rfl

theorem resetAddr_rest (s : Iface) (index : Nat) : s.resetAddr index iptype =
    { s with
      rows := (s.resetAddr index iptype).rows
      routing := (s.resetAddr index iptype).routing } := by
  cases iptype <;> rfl

theorem owned_deleteClientRules {held : Multiset Nat} {index : Nat}
    (h : s.routing.Owned (↑(s.clientRules (s.rows index) iptype) + held)) :
    (s.deleteRtRules index iptype).routing.Owned held := by
  cases iptype with
  | v4 => exact Client.owned_deleteRulesV4 h
  | v6 => exact Client.owned_deleteRulesV6 h

theorem owned_foldl_deleteRtRules {indices : List Nat} (hnodup : indices.Nodup)
    (h : s.routing.Owned
      (↑(indices.flatMap fun index => s.clientRules (s.rows index) iptype) + others)) :
    (indices.foldl (fun s index => s.deleteRtRules index iptype) s).routing.Owned others := by
  induction indices generalizing s with
  | nil => exact h.congr (by simp)
  | cons first indices ih =>
    obtain ⟨hfirst, hnodup⟩ := List.nodup_cons.mp hnodup
    apply ih hnodup
    have hrest : (indices.flatMap fun index => (s.deleteRtRules first iptype).clientRules
        ((s.deleteRtRules first iptype).rows index) iptype) =
          indices.flatMap fun index => s.clientRules (s.rows index) iptype := by
      refine List.flatMap_congr fun index hindex => ?_
      have hne : index ≠ first := fun heq => hfirst (heq ▸ hindex)
      rw [rows_deleteRtRules, Function.update_of_ne hne]
      cases iptype <;> rfl
    rw [hrest]
    refine owned_deleteClientRules (h.congr ?_)
    rw [List.flatMap_cons, ← Multiset.coe_add, add_assoc]

theorem disconnectMsgs_perm_iff : ((List.range s.num).flatMap fun index =>
    (s.rows index).disconnectMsgs lan iptype).Perm (s.completeMsgs lan iptype) ↔
      s.FirstWordOnly iptype := by
  constructor
  · rintro hperm rfl index hindex j hj
    have hin : { iptype := .v6, ipv6Addr := (s.rows index).v6Addr j, pIface := lan } ∈
        s.completeMsgs lan .v6 :=
      List.mem_flatMap.mpr ⟨index, List.mem_range.mpr hindex,
        List.mem_map.mpr ⟨j, List.mem_range.mpr hj, rfl⟩⟩
    obtain ⟨index', -, hmsg⟩ := List.mem_flatMap.mp (hperm.mem_iff.mpr hin)
    obtain ⟨j', -, hmsg⟩ := List.mem_map.mp hmsg
    have haddr := congrArg LanClientEvent.ipv6Addr hmsg
    exact (congrArg Prod.snd haddr).symm
  · intro hfirst
    refine List.Perm.of_eq (List.flatMap_congr fun index hindex => ?_)
    cases iptype with
    | v4 => rfl
    | v6 =>
      refine List.map_congr_left fun j hj => ?_
      have haddr := hfirst rfl index (List.mem_range.mp hindex) j (List.mem_range.mp hj)
      rw [← haddr]

theorem disconnectMsgs_withoutRules (c : Client) :
    (c.withoutRules iptype).disconnectMsgs lan iptype = c.disconnectMsgs lan iptype := by
  cases iptype <;> rfl

theorem foldl_deleteRtRules (h : s.routing.Owned (↑(s.rulesOfType iptype) + others)) :
    ∃ t, (List.range s.num).foldl (fun s index => s.deleteRtRules index iptype) s = t ∧
      t = { s with rows := t.rows, routing := t.routing } ∧ t.routing.Owned others ∧
      ∀ index, t.rows index =
        if index < s.num then (s.rows index).withoutRules iptype else s.rows index := by
  refine ⟨_, rfl, ?_, owned_foldl_deleteRtRules List.nodup_range h, fun index => ?_⟩
  · exact foldl_rest (fun s index => s.deleteRtRules index iptype) deleteRtRules_rest _
  · rw [rows_foldl (fun s index => s.deleteRtRules index iptype) (·.withoutRules iptype)
      rows_deleteRtRules List.nodup_range]
    simp only [List.mem_range]

theorem foldl_resetAddr (s : Iface) (iptype : IpType) :
    ∃ t, (List.range s.num).foldl (fun s index => s.resetAddr index iptype) s = t ∧
      t = { s with rows := t.rows, routing := t.routing } ∧ t.routing = s.routing ∧
      ∀ index, t.rows index =
        if index < s.num then (s.rows index).withoutAddr iptype else s.rows index := by
  refine ⟨_, rfl, ?_, ?_, fun index => ?_⟩
  · exact foldl_rest (fun s index => s.resetAddr index iptype) resetAddr_rest _
  · generalize List.range s.num = indices
    induction indices generalizing s with
    | nil => rfl
    | cons first indices ih =>
      rw [List.foldl_cons, ih]
      cases iptype <;> rfl
  · rw [rows_foldl (fun s index => s.resetAddr index iptype) (·.withoutAddr iptype)
      rows_resetAddr List.nodup_range]
    simp only [List.mem_range]

theorem lanClientResetRt_withdraws_iff
    (h : s.routing.Owned (↑(s.rulesOfType iptype) + others)) :
    s.Withdraws lan iptype others (s.lanClientResetRt lan iptype none) ↔
      s.FirstWordOnly iptype := by
  obtain ⟨t, ht, htrest, howned, htrows⟩ := foldl_deleteRtRules h
  obtain ⟨u, hu, hurest, hurouting, hurows⟩ := foldl_resetAddr t iptype
  have hnum : t.num = s.num := by
    rw [htrest]
  have hmsgs : ((List.range t.num).flatMap fun index =>
      (t.rows index).disconnectMsgs lan iptype) =
        (List.range s.num).flatMap fun index => (s.rows index).disconnectMsgs lan iptype := by
    rw [hnum]
    refine List.flatMap_congr fun index hindex => ?_
    rw [htrows, if_pos (List.mem_range.mp hindex), disconnectMsgs_withoutRules]
  have hresult : s.lanClientResetRt lan iptype none =
      (true, u, (List.range s.num).flatMap fun index =>
        (s.rows index).disconnectMsgs lan iptype) := by
    unfold lanClientResetRt postLan2lanClientDisconnectMsg
    dsimp only
    rw [ht, hmsgs, hu]
  rw [hresult, ← disconnectMsgs_perm_iff]
  refine ⟨Withdraws.posted, fun hposted => ⟨rfl, hurouting ▸ howned, hposted, fun index => ?_, ?_⟩⟩
  · rw [hurows, htrows, hnum]
    split_ifs <;> rfl
  · rw [hurest, htrest]

def oneClient (addr : V6Addr) : Iface where
  kind := .lan
  txProp := some [.v6]
  rows _ :=
    { v6Addr := fun _ => addr
      ipv6Set := 1
      routeRuleSetV6 := 1
      rtHdl := fun _ => { v6 := fun _ => 5, v6Wan := fun _ => 6 } }
  num := 1
  routing := { live := {5, 6} }

theorem oneClient_owned (addr : V6Addr) :
    (oneClient addr).routing.Owned (↑((oneClient addr).rulesOfType .v6) + 0) := by
  have hrules : (oneClient addr).rulesOfType .v6 = [5, 6] := rfl
  rw [hrules]
  exact ⟨rfl, by decide, by decide, rfl⟩

theorem lanClientResetRt_withdraws_oneClient : (oneClient (1, 0, 0, 0)).Withdraws 0 .v6 0
    ((oneClient (1, 0, 0, 0)).lanClientResetRt 0 .v6 none) :=
  (lanClientResetRt_withdraws_iff (oneClient_owned _)).mpr fun _ _ _ _ _ => rfl

/-- Of the address 1:2:3:4 only the first word is posted. -/
theorem not_lanClientResetRt_withdraws : ¬ ∀ (s : Iface) (lan : Nat) (iptype : IpType)
    (others : Multiset Nat), s.routing.Owned (↑(s.rulesOfType iptype) + others) →
      s.Withdraws lan iptype others (s.lanClientResetRt lan iptype none) := by
  intro h
  have hposted := (h (oneClient (1, 2, 3, 4)) 0 .v6 0 (oneClient_owned _)).posted
  exact absurd (hposted.mem_iff.mp List.mem_cons_self) (by decide)

end Iface

end EtherDevice.Ipacm.ClientTable
