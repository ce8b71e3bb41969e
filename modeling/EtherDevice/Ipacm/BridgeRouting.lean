import Mathlib
import EtherDevice.Ipacm.EthBridge
import EtherDevice.Lib.CountedArray
import EtherDevice.Lib.FirstMatch
import EtherDevice.Lib.Transition

/-!
# The routing rules of USB clients

`IPACM_Lan` installs routing rules for the MAC address of each USB client, one for each transmit
property of an IP type. There is a table for IPv4 and one for IPv6, and the rows in use of each are
counted. Rules are added for one IP type at a time, but a client is deleted from both tables
together: first from the one for IPv4, and a client that is not there is not looked for in the
other.
-/

namespace EtherDevice.Ipacm.EthBridge

open Lib

structure TxProp where
  ip : IpType
  dstPipe : Nat
  attrib : RuleAttrib := {}

structure RtRule where
  dst : Nat
  hdrProcCtxHdl : Nat
  attrib : RuleAttrib
  deriving DecidableEq

def RtRule.IsFor (rule : RtRule) (mac : Mac) : Prop :=
  rule.attrib.dstMacAddr = mac ∧ rule.attrib.dstMacAddrMask = BitVec.allOnes 48 ∧
    ∃ type : HdrL2Type, ∃ field ∈ type.macDstAddr, field ∈ rule.attrib.attribMask

structure InstalledRule where
  rtRuleHdl : Nat
  rule : RtRule

structure ClientRtInfo where
  mac : Mac
  rtRuleHdl : List Nat

/-- The interface. `maxUsbClient` is the number of rows of each table. -/
structure UsbIface where
  txProp : Option (List TxProp)
  maxUsbClient : Nat
  /-- `eth_bridge_get_client_rt_info_ptr` has a `uint8_t` for the row. -/
  fits : maxUsbClient ≤ 2 ^ 8

def maxUsbClient : Nat := 1

def UsbIface.eachClientRtRuleCount (iface : UsbIface) (iptype : IpType) : Nat :=
  (iface.txProp.getD []).countP (·.ip = iptype)

structure FreshHandles where
  handles : List Nat → Nat → List Nat
  length : ∀ used n, (handles used n).length = n
  nodup : ∀ used n, (handles used n).Nodup
  fresh : ∀ used n, ∀ hdl ∈ handles used n, hdl ∉ used
  /-- Zero is no handle. -/
  pos : ∀ used n, ∀ hdl ∈ handles used n, 0 < hdl

structure RtAnswers where
  hdrProcCtx : Option Nat := some 0
  memory : Bool := true
  wlanHdrType : HdrL2Type := .ethernetII

structure DelAnswer where
  memory : Bool := true
  deleted : Bool := true

/-- The two tables of `IPACM_Lan`, and the routing rules in the hardware. -/
structure UsbRt where
  clientRtInfo : IpType → Nat → ClientRtInfo
  rtInfoCount : IpType → Nat := fun _ => 0
  hardware : IpType → List InstalledRule := fun _ => []

namespace UsbRt

variable (iface : UsbIface) (s : UsbRt)

def zeroRow (iptype : IpType) : ClientRtInfo :=
  ⟨0, List.replicate (iface.eachClientRtRuleCount iptype) 0⟩

/-- The tables as the constructor leaves them. -/
def init : UsbRt where
  clientRtInfo iptype _ := zeroRow iface iptype

def clientRtInfoPtr (index : Nat) : Nat := index % 2 ^ 8

def getClientRtInfo (iptype : IpType) (index : Nat) : ClientRtInfo :=
  s.clientRtInfo iptype (clientRtInfoPtr index)

def setClientRtInfo (iptype : IpType) (index : Nat) (row : ClientRtInfo) : UsbRt :=
  { s with
    clientRtInfo := Function.update s.clientRtInfo iptype
      (Function.update (s.clientRtInfo iptype) (clientRtInfoPtr index) row) }

def setRtInfoCount (iptype : IpType) (count : Nat) : UsbRt :=
  { s with rtInfoCount := Function.update s.rtInfoCount iptype count }

def setHardware (iptype : IpType) (rules : List InstalledRule) : UsbRt :=
  { s with hardware := Function.update s.hardware iptype rules }

def findClient (iptype : IpType) (mac : Mac) : Option Nat :=
  firstBelow (·.mac == mac) (s.getClientRtInfo iptype) (s.rtInfoCount iptype)

/-- The loop of `eth_bridge_add_usb_client_rt_rule` over the transmit properties, with the rules
of the table so far. -/
def rtRules (iptype : IpType) (mac : Mac) (numRtRule hdrProcCtxHdl : Nat)
    (wlanHdrType : HdrL2Type) : List TxProp → List RtRule → Option (List RtRule)
  | [], rules => some rules
  | tx :: rest, rules =>
    if tx.ip = iptype then
      if numRtRule ≤ rules.length then none
      else
        match wlanHdrType.macDstAddr with
        | none => none
        | some field =>
          rtRules iptype mac numRtRule hdrProcCtxHdl wlanHdrType rest
            (rules ++ [⟨tx.dstPipe, hdrProcCtxHdl, tx.attrib.toMac field mac⟩])
    else rtRules iptype mac numRtRule hdrProcCtxHdl wlanHdrType rest rules

def addRoutingRule (iptype : IpType) (rules : List RtRule) (driver : FreshHandles) :
    List Nat × UsbRt :=
  let handles := driver.handles ((s.hardware iptype).map (·.rtRuleHdl)) rules.length
  (handles, s.setHardware iptype
    (s.hardware iptype ++ (handles.zip rules).map fun (hdl, rule) => ⟨hdl, rule⟩))

def addUsbClientRtRule (mac : Option Mac) (iptype : IpType) (answers : RtAnswers)
    (driver : Option FreshHandles) : Int × UsbRt :=
  match iface.txProp, mac with
  | none, _ => (ipacmSuccess, s)
  | some _, none => (ipacmFailure, s)
  | some txProp, some mac =>
    let count := s.rtInfoCount iptype
    if count = iface.maxUsbClient then (ipacmFailure, s)
    else
      match answers.hdrProcCtx with
      | none => (ipacmFailure, s)
      | some hdrProcCtxHdl =>
        if (s.findClient iptype mac).isSome then (ipacmSuccess, s)
        else
          let s := s.setClientRtInfo iptype count { s.getClientRtInfo iptype count with mac }
          if answers.memory = false then (ipacmFailure, s)
          else
            let numRtRule := iface.eachClientRtRuleCount iptype
            match rtRules iptype mac numRtRule hdrProcCtxHdl answers.wlanHdrType txProp [],
              driver with
            | none, _ => (ipacmFailure, s)
            | some _, none => (ipacmFailure, s)
            | some rules, some driver =>
              let (handles, s) := s.addRoutingRule iptype rules driver
              let s := s.setClientRtInfo iptype count
                { s.getClientRtInfo iptype count with rtRuleHdl := handles }
              (ipacmSuccess, s.setRtInfoCount iptype (count + 1))

/-- `DeleteRoutingHdl`. A deletion that fails is not reported. -/
def deleteRoutingHdl (iptype : IpType) (hdl : Nat) (answer : DelAnswer) : Bool × UsbRt :=
  if hdl = 0 then (true, s)
  else if answer.memory = false then (false, s)
  else if answer.deleted = false then (true, s)
  else (true, s.setHardware iptype ((s.hardware iptype).filter (·.rtRuleHdl ≠ hdl)))

def deleteRoutingHdls (iptype : IpType) (answers : Nat → DelAnswer) :
    List Nat → UsbRt → Bool × UsbRt
  | [], s => (true, s)
  | hdl :: rest, s =>
    match s.deleteRoutingHdl iptype hdl (answers hdl) with
    | (false, s) => (false, s)
    | (true, s) => deleteRoutingHdls iptype answers rest s

def moveRowsDown (iptype : IpType) (position : Nat) : UsbRt :=
  (List.range' position (s.rtInfoCount iptype - 1 - position)).foldl
    (fun s i => s.setClientRtInfo iptype i (s.getClientRtInfo iptype (i + 1))) s

def withdraw (iptype : IpType) (mac : Mac) (answers : Nat → DelAnswer) : Bool × UsbRt :=
  match s.findClient iptype mac with
  | none => (false, s)
  | some position =>
    match deleteRoutingHdls iptype answers (s.getClientRtInfo iptype position).rtRuleHdl s with
    | (false, s) => (false, s)
    | (true, s) =>
      let s := s.moveRowsDown iptype position
      let s := s.setClientRtInfo iptype (s.rtInfoCount iptype - 1) (zeroRow iface iptype)
      (true, s.setRtInfoCount iptype (s.rtInfoCount iptype - 1))

def delUsbClientRtRule (mac : Option Mac) (answers : IpType → Nat → DelAnswer) : Int × UsbRt :=
  match iface.txProp, mac with
  | none, _ => (ipacmSuccess, s)
  | some _, none => (ipacmFailure, s)
  | some _, some mac =>
    match s.withdraw iface .v4 mac (answers .v4) with
    | (false, s) => (ipacmFailure, s)
    | (true, s) =>
      match s.withdraw iface .v6 mac (answers .v6) with
      | (false, s) => (ipacmFailure, s)
      | (true, s) => (ipacmSuccess, s)

/-! ## Rows and rules -/

end UsbRt

/-- The rules installed are the ones in the rows, each for the client of its row. -/
structure Agrees (rows : List ClientRtInfo) (rules : List InstalledRule) : Prop where
  stored : (rules.map (·.rtRuleHdl)).Perm (rows.flatMap (·.rtRuleHdl))
  nodup : (rows.flatMap (·.rtRuleHdl)).Nodup
  own : ∀ row ∈ rows, ∀ rule ∈ rules, rule.rtRuleHdl ∈ row.rtRuleHdl → rule.rule.IsFor row.mac
  macs : (rows.map (·.mac)).Nodup

namespace Agrees

variable {rows : List ClientRtInfo} {rules : List InstalledRule} {row : ClientRtInfo} {mac : Mac}

theorem empty : Agrees [] [] :=
  ⟨.refl _, .nil, fun _ h => (nomatch h), .nil⟩

theorem exists_row (h : Agrees rows rules) {rule : InstalledRule} (hrule : rule ∈ rules) :
    ∃ row ∈ rows, rule.rtRuleHdl ∈ row.rtRuleHdl :=
  List.mem_flatMap.mp (h.stored.mem_iff.mp (List.mem_map_of_mem hrule))

theorem exists_rule (h : Agrees rows rules) (hrow : row ∈ rows) {hdl : Nat}
    (hhdl : hdl ∈ row.rtRuleHdl) : ∃ rule ∈ rules, rule.rtRuleHdl = hdl :=
  List.mem_map.mp (h.stored.mem_iff.mpr (List.mem_flatMap.mpr ⟨row, hrow, hhdl⟩))

theorem add (h : Agrees rows rules) (hmac : mac ∉ rows.map (·.mac)) {handles : List Nat}
    {added : List RtRule} (hlength : handles.length = added.length) (hnodup : handles.Nodup)
    (hfresh : ∀ hdl ∈ handles, hdl ∉ rules.map (·.rtRuleHdl))
    (hfor : ∀ rule ∈ added, rule.IsFor mac) :
    Agrees (rows ++ [⟨mac, handles⟩])
      (rules ++ (handles.zip added).map fun (hdl, rule) => ⟨hdl, rule⟩) := by
  have hhandles : ((handles.zip added).map fun (hdl, rule) =>
      (⟨hdl, rule⟩ : InstalledRule)).map (·.rtRuleHdl) = handles := by
    rw [List.map_map]
    exact List.map_fst_zip hlength.le
  have hadded : ∀ rule ∈ (handles.zip added).map fun (hdl, rule) => (⟨hdl, rule⟩ : InstalledRule),
      rule.rtRuleHdl ∈ handles ∧ rule.rule.IsFor mac := by
    intro rule hrule
    obtain ⟨⟨hdl, rule⟩, hin, rfl⟩ := List.mem_map.mp hrule
    exact ⟨(List.of_mem_zip hin).1, hfor rule (List.of_mem_zip hin).2⟩
  have hnew : ∀ hdl ∈ handles, hdl ∉ rows.flatMap (·.rtRuleHdl) := fun hdl hin hold =>
    hfresh hdl hin (h.stored.mem_iff.mpr hold)
  refine ⟨?_, ?_, fun row hrow rule hrule hin => ?_, ?_⟩
  · simp [hhandles, h.stored.append_right]
  · rw [List.flatMap_append, List.flatMap_singleton]
    exact List.nodup_append'.mpr ⟨h.nodup, hnodup, fun hdl hold hin => hnew hdl hin hold⟩
  · rw [List.mem_append] at hrow hrule
    rcases hrow with hrow | hrow <;> rcases hrule with hrule | hrule
    · exact h.own row hrow rule hrule hin
    · exact absurd (List.mem_flatMap.mpr ⟨row, hrow, hin⟩) (hnew _ (hadded rule hrule).1)
    · grind
    · rw [List.mem_singleton] at hrow
      subst hrow
      exact (hadded rule hrule).2
  · rw [List.map_append, List.map_singleton]
    exact List.nodup_append'.mpr ⟨h.macs, List.nodup_singleton _,
      List.disjoint_singleton.mpr hmac⟩

theorem erase (h : Agrees rows rules) (hfind : rows.find? (·.mac == mac) = some row) :
    Agrees (rows.eraseP (·.mac == mac))
      (rules.filter fun rule => rule.rtRuleHdl ∉ row.rtRuleHdl) := by
  have hrows := perm_cons_eraseP hfind
  have hhandles : (rows.flatMap (·.rtRuleHdl)).Perm
      (row.rtRuleHdl ++ (rows.eraseP (·.mac == mac)).flatMap (·.rtRuleHdl)) :=
    hrows.flatMap_right _
  have hnodup := hhandles.nodup_iff.mp h.nodup
  obtain ⟨-, hnodup', hdisjoint⟩ := List.nodup_append'.mp hnodup
  have hnone : row.rtRuleHdl.filter (· ∉ row.rtRuleHdl) = [] :=
    List.filter_eq_nil_iff.mpr fun hdl hin => by simpa using hin
  have hall : ((rows.eraseP (·.mac == mac)).flatMap (·.rtRuleHdl)).filter (· ∉ row.rtRuleHdl) =
      (rows.eraseP (·.mac == mac)).flatMap (·.rtRuleHdl) :=
    List.filter_eq_self.mpr fun hdl hin => by simpa using fun hrow => hdisjoint hrow hin
  refine ⟨?_, hnodup', fun row hrow rule hrule => ?_, nodup_eraseP_key h.macs⟩
  · have hfilter := (h.stored.trans hhandles).filter (· ∉ row.rtRuleHdl)
    rw [List.filter_append, hnone, hall, List.nil_append, List.filter_map] at hfilter
    exact hfilter
  · exact h.own row (List.mem_of_mem_eraseP hrow) rule (List.mem_of_mem_filter hrule)

theorem not_isFor (h : Agrees rows rules) (hmac : mac ∉ rows.map (·.mac)) {rule : InstalledRule}
    (hrule : rule ∈ rules) : ¬ rule.rule.IsFor mac := by
  intro hfor
  obtain ⟨row, hrow, hin⟩ := h.exists_row hrule
  have hsame : row.mac = mac := (h.own row hrow rule hrule hin).1.symm.trans hfor.1
  exact hmac (hsame ▸ List.mem_map_of_mem hrow)

end Agrees

/-! ## Runs -/

/-- A call whose routing operations succeed. -/
inductive RtOp
  | add (mac : Option Mac) (iptype : IpType) (answers : RtAnswers) (driver : FreshHandles)
  | del (mac : Option Mac)

namespace UsbRt

variable (iface : UsbIface) (s : UsbRt)

def exec : RtOp → UsbRt
  | .add mac iptype answers driver =>
    (s.addUsbClientRtRule iface mac iptype answers (some driver)).2
  | .del mac => (s.delUsbClientRtRule iface mac fun _ _ => {}).2

def rows (iptype : IpType) : List ClientRtInfo :=
  below (s.clientRtInfo iptype) (s.rtInfoCount iptype)

def macs (iptype : IpType) : List Mac := (s.rows iptype).map (·.mac)

def Agree : Prop := ∀ iptype, Agrees (s.rows iptype) (s.hardware iptype)

def Withdrawn (mac : Mac) (s' : UsbRt) : Prop :=
  ∀ iptype, (∀ rule ∈ s'.hardware iptype, ¬ rule.rule.IsFor mac) ∧
    (s'.rows iptype).filter (·.mac ≠ mac) = (s.rows iptype).filter (·.mac ≠ mac)

def KeepsRtRules (op : RtOp) : Prop :=
  (s.exec iface op).Agree ∧
    match op with
    | .add _ _ _ _ => True
    | .del mac => ∀ m ∈ mac, s.Withdrawn m (s.exec iface op)

/-- A client that is deleted is in the table for IPv4, or has no rules for IPv6. -/
def Findable (op : RtOp) : Prop :=
  match op with
  | .add _ _ _ _ => True
  | .del mac => ∀ m ∈ mac, m ∈ s.macs .v4 ∨ m ∉ s.macs .v6 ∨ iface.eachClientRtRuleCount .v6 = 0

structure WellFormed : Prop where
  agree : s.Agree
  bounded : ∀ iptype, s.rtInfoCount iptype ≤ iface.maxUsbClient
  handles : ∀ iptype, ∀ row ∈ s.rows iptype,
    row.rtRuleHdl.length = iface.eachClientRtRuleCount iptype
  pos : ∀ iptype, ∀ rule ∈ s.hardware iptype, 0 < rule.rtRuleHdl
  opened : iface.txProp = none → ∀ iptype, s.rows iptype = []

variable {iface s} {s' : UsbRt} {iptype : IpType} {mac : Mac}

theorem init_wellFormed (iface : UsbIface) : (init iface).WellFormed iface :=
  ⟨fun _ => .empty, fun _ => Nat.zero_le _, fun _ _ h => (nomatch h), fun _ _ h => (nomatch h),
    fun _ _ => rfl⟩

/-! ## Rows -/

theorem getClientRtInfo_eq {index : Nat} (h : index < 2 ^ 8) :
    s.getClientRtInfo iptype index = s.clientRtInfo iptype index := by
  unfold getClientRtInfo clientRtInfoPtr
  rw [Nat.mod_eq_of_lt h]

theorem setClientRtInfo_eq {index : Nat} (h : index < 2 ^ 8) (row : ClientRtInfo) :
    s.setClientRtInfo iptype index row =
      { s with
        clientRtInfo := Function.update s.clientRtInfo iptype
          (Function.update (s.clientRtInfo iptype) index row) } := by
  unfold setClientRtInfo clientRtInfoPtr
  rw [Nat.mod_eq_of_lt h]

theorem WellFormed.count_le (h : s.WellFormed iface) (iptype : IpType) :
    s.rtInfoCount iptype ≤ 2 ^ 8 :=
  (h.bounded iptype).trans iface.fits

theorem findClient_spec (h : s.WellFormed iface) (iptype : IpType) (mac : Mac) :
    match s.findClient iptype mac with
    | none => mac ∉ s.macs iptype
    | some position => position < s.rtInfoCount iptype ∧
        (s.rows iptype).find? (·.mac == mac) = some (s.clientRtInfo iptype position) ∧
        (s.rows iptype).eraseP (·.mac == mac) = (s.rows iptype).eraseIdx position := by
  have hsame : s.findClient iptype mac =
      firstBelow (·.mac == mac) (s.clientRtInfo iptype) (s.rtInfoCount iptype) := by
    refine List.find?_congr fun index hindex => ?_
    rw [getClientRtInfo_eq (Nat.lt_of_lt_of_le (List.mem_range.mp hindex) (h.count_le iptype))]
  rw [hsame]
  cases hfirst : firstBelow (·.mac == mac) (s.clientRtInfo iptype) (s.rtInfoCount iptype) with
  | none =>
    refine find?_key_eq_none.mp ?_
    unfold rows
    rw [find?_below, hfirst]
    rfl
  | some position =>
    refine ⟨(firstBelow_eq_some hfirst).1, ?_, eraseP_of_firstBelow hfirst⟩
    unfold rows
    rw [find?_below, hfirst]
    rfl

theorem deleteRoutingHdls_eq {handles : List Nat} (hpos : ∀ hdl ∈ handles, 0 < hdl) :
    deleteRoutingHdls iptype (fun _ => {}) handles s =
      (true, s.setHardware iptype ((s.hardware iptype).filter (·.rtRuleHdl ∉ handles))) := by
  induction handles generalizing s with
  | nil =>
    simp [deleteRoutingHdls, setHardware]
  | cons hdl rest ih =>
    obtain ⟨hhdl, hrest⟩ := List.forall_mem_cons.mp hpos
    unfold deleteRoutingHdls deleteRoutingHdl
    rw [if_neg hhdl.ne', if_neg Bool.noConfusion, if_neg Bool.noConfusion]
    simp_all [setHardware, Bool.and_comm]

theorem moveRowsDown_eq {position : Nat} (h : s.rtInfoCount iptype ≤ 2 ^ 8)
    (hposition : position < s.rtInfoCount iptype) :
    s.moveRowsDown iptype position =
      { s with
        clientRtInfo := Function.update s.clientRtInfo iptype (moveDown (fun _ next => next)
          (s.clientRtInfo iptype) position (s.rtInfoCount iptype - 1 - position)) } := by
  have hfits : position + (s.rtInfoCount iptype - 1 - position) < 2 ^ 8 := by
    omega
  unfold moveRowsDown
  generalize s.rtInfoCount iptype - 1 - position = k at hfits ⊢
  clear hposition h
  induction k generalizing s position with
  | zero =>
    simp [moveDown]
  | succ k ih =>
    have hstep := ih (s := s.setClientRtInfo iptype position
      (s.getClientRtInfo iptype (position + 1))) (show position + 1 + k < 2 ^ 8 by omega)
    unfold moveDown at hstep ⊢
    rw [List.range'_succ, List.foldl_cons, List.foldl_cons, hstep]
    rw [setClientRtInfo_eq (by omega), getClientRtInfo_eq (by omega)]
    simp

/-! ## Deleting a client -/

structure Loses (s : UsbRt) (iptype : IpType) (mac : Mac) (s' : UsbRt) : Prop where
  count : s'.rtInfoCount iptype ≤ s.rtInfoCount iptype
  rows : s'.rows iptype = (s.rows iptype).eraseP (·.mac == mac)
  hardware : ∃ row, (s.rows iptype).find? (·.mac == mac) = some row ∧ s'.hardware iptype =
    (s.hardware iptype).filter fun rule => rule.rtRuleHdl ∉ row.rtRuleHdl
  others : ∀ other, other ≠ iptype → s'.rtInfoCount other = s.rtInfoCount other ∧
    s'.rows other = s.rows other ∧ s'.hardware other = s.hardware other

theorem Loses.wellFormed (h : s.Loses iptype mac s') (hs : s.WellFormed iface) :
    s'.WellFormed iface := by
  obtain ⟨row, hfind, hhardware⟩ := h.hardware
  have hrows : ∀ other, ∀ row ∈ s'.rows other, row ∈ s.rows other := by
    intro other row hrow
    by_cases hother : other = iptype
    · subst hother
      rw [h.rows] at hrow
      exact List.mem_of_mem_eraseP hrow
    · rwa [(h.others other hother).2.1] at hrow
  refine ⟨fun other => ?_, fun other => ?_, fun other row hrow => ?_, fun other rule hrule => ?_,
    fun hnone other => ?_⟩
  · by_cases hother : other = iptype
    · subst hother
      rw [h.rows, hhardware]
      exact (hs.agree other).erase hfind
    · obtain ⟨-, hsame, hinstalled⟩ := h.others other hother
      rw [hsame, hinstalled]
      exact hs.agree other
  · by_cases hother : other = iptype
    · subst hother
      exact h.count.trans (hs.bounded other)
    · rw [(h.others other hother).1]
      exact hs.bounded other
  · exact hs.handles other row (hrows other row hrow)
  · by_cases hother : other = iptype
    · subst hother
      rw [hhardware] at hrule
      exact hs.pos other rule (List.mem_of_mem_filter hrule)
    · rw [(h.others other hother).2.2] at hrule
      exact hs.pos other rule hrule
  · refine List.eq_nil_iff_forall_not_mem.mpr fun row hrow => ?_
    have hin := hrows other row hrow
    rw [hs.opened hnone other] at hin
    exact List.not_mem_nil hin

theorem WellFormed.handles_pos (h : s.WellFormed iface) {row : ClientRtInfo}
    (hrow : row ∈ s.rows iptype) : ∀ hdl ∈ row.rtRuleHdl, 0 < hdl := by
  intro hdl hhdl
  obtain ⟨rule, hrule, rfl⟩ := (h.agree iptype).exists_rule hrow hhdl
  exact h.pos iptype rule hrule

theorem withdraw_spec (h : s.WellFormed iface) (iptype : IpType) (mac : Mac) :
    match s.withdraw iface iptype mac fun _ => {} with
    | (false, s') => s' = s ∧ mac ∉ s.macs iptype
    | (true, s') => s.Loses iptype mac s' ∧ mac ∈ s.macs iptype := by
  have hfind := findClient_spec h iptype mac
  unfold withdraw
  cases hclient : s.findClient iptype mac with
  | none =>
    simp_all
  | some position =>
    rw [hclient] at hfind
    obtain ⟨hposition, hrow, herase⟩ := hfind
    have hcount := h.count_le iptype
    have hpos := h.handles_pos (List.mem_of_find?_eq_some hrow)
    dsimp only
    have hlast : s.rtInfoCount iptype - 1 < 2 ^ 8 := by
      omega
    rw [getClientRtInfo_eq (hposition.trans_le hcount), deleteRoutingHdls_eq hpos]
    dsimp only
    rw [moveRowsDown_eq (by exact hcount) (by exact hposition),
      setClientRtInfo_eq (by exact hlast)]
    unfold setHardware setRtInfoCount
    refine ⟨⟨?_, ?_, ⟨_, hrow, ?_⟩, fun other hne => ?_⟩, ?_⟩
    · simp
    · rw [herase]
      unfold rows
      dsimp only
      rw [Function.update_self, Function.update_self, Function.update_self]
      refine below_eraseIdx hposition (fun j hj => ?_) fun j hj hlt => ?_
      · rw [Function.update_of_ne (by omega), moveDown_apply, if_neg (by omega)]
      · rw [Function.update_of_ne (by omega), moveDown_apply, if_pos (by omega)]
    · exact Function.update_self _ _ _
    · simp [rows, hne]
    · exact find?_key_isSome.mp (by rw [hrow]; rfl)

/-! ## Adding the rules of a client -/

theorem rtRules_spec {numRtRule hdrProcCtxHdl : Nat} {wlanHdrType : HdrL2Type}
    {txProp : List TxProp} {rules rules' : List RtRule}
    (h : rtRules iptype mac numRtRule hdrProcCtxHdl wlanHdrType txProp rules = some rules')
    (hrules : ∀ rule ∈ rules, rule.IsFor mac) :
    (∀ rule ∈ rules', rule.IsFor mac) ∧
      rules'.length = rules.length + txProp.countP (·.ip = iptype) := by
  induction txProp generalizing rules with
  | nil =>
    cases h
    exact ⟨hrules, rfl⟩
  | cons tx rest ih =>
    unfold rtRules at h
    by_cases htype : tx.ip = iptype
    · rw [if_pos htype] at h
      split at h
      · cases h
      split at h
      · cases h
      rename_i field hfield
      have hnew : ∀ rule ∈ rules ++ [⟨tx.dstPipe, hdrProcCtxHdl, tx.attrib.toMac field mac⟩],
          rule.IsFor mac := by
        intro rule hrule
        rcases List.mem_append.mp hrule with hrule | hrule
        · exact hrules rule hrule
        · rw [List.mem_singleton] at hrule
          subst hrule
          exact ⟨rfl, rfl, wlanHdrType, field, hfield, Finset.mem_insert_self _ _⟩
      obtain ⟨hfor, hlength⟩ := ih h hnew
      refine ⟨hfor, ?_⟩
      rw [hlength, List.length_append, List.length_singleton, List.countP_cons,
        if_pos (decide_eq_true htype)]
      omega
    · rw [if_neg htype] at h
      grind

theorem rows_setClientRtInfo (hroom : s.rtInfoCount iptype < 2 ^ 8) (row : ClientRtInfo)
    (other : IpType) : (s.setClientRtInfo iptype (s.rtInfoCount iptype) row).rows other =
      s.rows other := by
  rw [setClientRtInfo_eq hroom]
  unfold rows
  dsimp only
  by_cases hother : other = iptype
  · subst hother
    rw [Function.update_self]
    exact below_congr fun j hj => Function.update_of_ne (Nat.ne_of_lt hj) _ _
  · rw [Function.update_of_ne hother]

theorem WellFormed.setClientRtInfo (h : s.WellFormed iface)
    (hroom : s.rtInfoCount iptype < 2 ^ 8) (row : ClientRtInfo) :
    (s.setClientRtInfo iptype (s.rtInfoCount iptype) row).WellFormed iface := by
  have hrows := rows_setClientRtInfo hroom row
  refine ⟨fun other => ?_, h.bounded, fun other => ?_, h.pos, fun hnone other => ?_⟩
  · rw [hrows]
    exact h.agree other
  · rw [hrows]
    exact h.handles other
  · rw [hrows]
    exact h.opened hnone other

structure Gains (s : UsbRt) (iptype : IpType) (row : ClientRtInfo) (rules : List InstalledRule)
    (s' : UsbRt) : Prop where
  count : s'.rtInfoCount iptype = s.rtInfoCount iptype + 1
  rows : s'.rows iptype = s.rows iptype ++ [row]
  hardware : s'.hardware iptype = s.hardware iptype ++ rules
  others : ∀ other, other ≠ iptype → s'.rtInfoCount other = s.rtInfoCount other ∧
    s'.rows other = s.rows other ∧ s'.hardware other = s.hardware other

theorem Gains.wellFormed {handles : List Nat} {added : List RtRule}
    (h : s.Gains iptype ⟨mac, handles⟩ ((handles.zip added).map fun (hdl, rule) => ⟨hdl, rule⟩) s')
    (hs : s.WellFormed iface) (hroom : s.rtInfoCount iptype < iface.maxUsbClient)
    (hopen : iface.txProp ≠ none) (hmac : mac ∉ s.macs iptype)
    (hlength : handles.length = iface.eachClientRtRuleCount iptype)
    (hadded : added.length = handles.length) (hnodup : handles.Nodup)
    (hfresh : ∀ hdl ∈ handles, hdl ∉ (s.hardware iptype).map (·.rtRuleHdl))
    (hpos : ∀ hdl ∈ handles, 0 < hdl) (hfor : ∀ rule ∈ added, rule.IsFor mac) :
    s'.WellFormed iface := by
  refine ⟨fun other => ?_, fun other => ?_, fun other row hrow => ?_, fun other rule hrule => ?_,
    fun hnone => absurd hnone hopen⟩ <;> by_cases hother : other = iptype
  · subst hother
    rw [h.rows, h.hardware]
    exact (hs.agree other).add hmac hadded.symm hnodup hfresh hfor
  · obtain ⟨-, hrows, hhardware⟩ := h.others other hother
    rw [hrows, hhardware]
    exact hs.agree other
  · subst hother
    rw [h.count]
    exact hroom
  · rw [(h.others other hother).1]
    exact hs.bounded other
  · subst hother
    rw [h.rows] at hrow
    rcases List.mem_append.mp hrow with hrow | hrow
    · exact hs.handles other row hrow
    simp_all
  · rw [(h.others other hother).2.1] at hrow
    exact hs.handles other row hrow
  · subst hother
    rw [h.hardware] at hrule
    rcases List.mem_append.mp hrule with hrule | hrule
    · exact hs.pos other rule hrule
    · obtain ⟨⟨hdl, rule⟩, hin, rfl⟩ := List.mem_map.mp hrule
      exact hpos hdl (List.of_mem_zip hin).1
  · rw [(h.others other hother).2.2] at hrule
    exact hs.pos other rule hrule

theorem gains_setRtInfoCount (hindex : s.rtInfoCount iptype < 2 ^ 8)
    (hmac : (s.getClientRtInfo iptype (s.rtInfoCount iptype)).mac = mac) (handles : List Nat)
    (rules : List InstalledRule) :
    let s₁ := s.setHardware iptype (s.hardware iptype ++ rules)
    let s₂ := s₁.setClientRtInfo iptype (s.rtInfoCount iptype)
      { s₁.getClientRtInfo iptype (s.rtInfoCount iptype) with rtRuleHdl := handles }
    s.Gains iptype ⟨mac, handles⟩ rules
      (s₂.setRtInfoCount iptype (s.rtInfoCount iptype + 1)) := by
  subst hmac
  intro s₁ s₂
  have hs₂ : s₂ = _ := setClientRtInfo_eq (s := s₁) hindex _
  rw [hs₂]
  unfold setRtInfoCount
  refine ⟨Function.update_self _ _ _, ?_, Function.update_self _ _ _, fun other hne => ?_⟩
  · unfold rows
    dsimp only
    rw [Function.update_self, Function.update_self, below_update]
    rfl
  · unfold rows
    dsimp only
    rw [Function.update_of_ne hne, Function.update_of_ne hne]
    exact ⟨rfl, rfl, Function.update_of_ne hne _ _⟩

theorem addUsbClientRtRule_wellFormed (h : s.WellFormed iface) (m : Option Mac) (iptype : IpType)
    (answers : RtAnswers) (driver : FreshHandles) :
    (s.addUsbClientRtRule iface m iptype answers (some driver)).2.WellFormed iface := by
  unfold addUsbClientRtRule
  split
  · exact h
  · exact h
  rename_i txProp mac hopen
  dsimp only
  split
  · exact h
  rename_i hfull
  have hroom : s.rtInfoCount iptype < iface.maxUsbClient :=
    Nat.lt_of_le_of_ne (h.bounded iptype) hfull
  have hindex : s.rtInfoCount iptype < 2 ^ 8 := hroom.trans_le iface.fits
  split
  · exact h
  split
  · exact h
  rename_i hclient
  split
  · exact h.setClientRtInfo hindex _
  split
  · exact h.setClientRtInfo hindex _
  · exact h.setClientRtInfo hindex _
  rename_i rules driver' hrules hdriver
  cases hdriver
  let t := s.setClientRtInfo iptype (s.rtInfoCount iptype)
    { s.getClientRtInfo iptype (s.rtInfoCount iptype) with mac }
  have hwritten : t.WellFormed iface := h.setClientRtInfo hindex _
  have hsame : t.macs iptype = s.macs iptype := by
    unfold macs t
    rw [rows_setClientRtInfo hindex]
  have hmac : mac ∉ s.macs iptype := by
    have hfind := findClient_spec h iptype mac
    rwa [Option.not_isSome_iff_eq_none.mp hclient] at hfind
  obtain ⟨hfor, hlength⟩ := rtRules_spec hrules fun _ hrule => (nomatch hrule)
  have hrow : (t.getClientRtInfo iptype (s.rtInfoCount iptype)).mac = mac := by
    unfold t getClientRtInfo setClientRtInfo
    simp
  have hgains := gains_setRtInfoCount (s := t) hindex hrow
  refine (hgains _ _).wellFormed hwritten hroom ?_ (hsame ▸ hmac) ?_ ?_ (driver.nodup _ _)
    (driver.fresh _ _) (driver.pos _ _) hfor
  · simp [hopen]
  · simp [UsbIface.eachClientRtRuleCount, driver.length, hlength, hopen]
  · exact (driver.length _ _).symm

/-! ## What a call leaves -/

theorem Loses.withdrawn (h : s.Loses iptype mac s') (hs : s.WellFormed iface) :
    mac ∉ s'.macs iptype ∧
      (s'.rows iptype).filter (·.mac ≠ mac) = (s.rows iptype).filter (·.mac ≠ mac) := by
  have herase : s'.rows iptype = (s.rows iptype).filter fun row => !(row.mac == mac) :=
    h.rows.trans (eraseP_key (hs.agree iptype).macs)
  grind [macs, List.filter_filter]

theorem exec_del (h : s.WellFormed iface) (mac : Mac) (hopen : iface.txProp ≠ none) :
    (mac ∉ s.macs .v4 ∧ s.exec iface (.del (some mac)) = s) ∨
      (mac ∈ s.macs .v4 ∧ mac ∉ s.macs .v6 ∧
        s.Loses .v4 mac (s.exec iface (.del (some mac)))) ∨
      ∃ t, s.Loses .v4 mac t ∧ t.Loses .v6 mac (s.exec iface (.del (some mac))) := by
  obtain ⟨txProp, htx⟩ := Option.ne_none_iff_exists'.mp hopen
  unfold exec delUsbClientRtRule
  rw [htx]
  dsimp only
  have h4 := withdraw_spec h .v4 mac
  cases hres4 : s.withdraw iface .v4 mac fun _ => {} with
  | mk ok4 s4 =>
    rw [hres4] at h4
    cases ok4 with
    | false =>
      simp [h4]
    | true =>
      obtain ⟨hloses, hmac⟩ := h4
      dsimp only
      have h6 := withdraw_spec (hloses.wellFormed h) .v6 mac
      cases hres6 : s4.withdraw iface .v6 mac fun _ => {} with
      | mk ok6 s6 =>
        rw [hres6] at h6
        cases ok6 with
        | false =>
          obtain ⟨rfl, hmac6⟩ := h6
          have hsame : s6.macs .v6 = s.macs .v6 :=
            congrArg _ (hloses.others .v6 (by decide)).2.1
          exact .inr (.inl ⟨hmac, hsame ▸ hmac6, hloses⟩)
        | true => exact .inr (.inr ⟨s4, hloses, h6.1⟩)

theorem exec_wellFormed (h : s.WellFormed iface) (op : RtOp) :
    (s.exec iface op).WellFormed iface := by
  cases op with
  | add m iptype answers driver => exact addUsbClientRtRule_wellFormed h m iptype answers driver
  | del m =>
    cases htx : iface.txProp with
    | none =>
      unfold exec delUsbClientRtRule
      rw [htx]
      exact h
    | some txProp =>
      cases m with
      | none =>
        unfold exec delUsbClientRtRule
        rw [htx]
        exact h
      | some mac =>
        have hopen : iface.txProp ≠ none := by
          simp [htx]
        rcases exec_del h mac hopen with ⟨-, hsame⟩ | ⟨-, -, hloses⟩ | ⟨t, hloses, hloses'⟩
        · rwa [hsame]
        · exact hloses.wellFormed h
        · exact hloses'.wellFormed (hloses.wellFormed h)

theorem WellFormed.exists_isFor (h : s.WellFormed iface) (hmac : mac ∈ s.macs iptype)
    (hrules : iface.eachClientRtRuleCount iptype ≠ 0) :
    ∃ rule ∈ s.hardware iptype, rule.rule.IsFor mac := by
  obtain ⟨row, hrow, rfl⟩ := List.mem_map.mp hmac
  have hlength := h.handles iptype row hrow
  obtain ⟨hdl, hhdl⟩ := List.exists_mem_of_length_pos
    (Nat.pos_of_ne_zero fun hzero => hrules (hlength.symm.trans hzero))
  obtain ⟨rule, hrule, rfl⟩ := (h.agree iptype).exists_rule hrow hhdl
  exact ⟨rule, hrule, (h.agree iptype).own row hrow rule hrule hhdl⟩

theorem WellFormed.hardware_eq_nil (h : s.WellFormed iface)
    (hnone : iface.eachClientRtRuleCount iptype = 0) : s.hardware iptype = [] := by
  refine List.eq_nil_iff_forall_not_mem.mpr fun rule hrule => ?_
  obtain ⟨row, hrow, hin⟩ := (h.agree iptype).exists_row hrule
  rw [List.eq_nil_of_length_eq_zero ((h.handles iptype row hrow).trans hnone)] at hin
  exact List.not_mem_nil hin

theorem WellFormed.withdrawn_self (h : s.WellFormed iface) (h4 : mac ∉ s.macs .v4)
    (h6 : mac ∉ s.macs .v6 ∨ iface.eachClientRtRuleCount .v6 = 0) : s.Withdrawn mac s := by
  refine fun iptype => ⟨fun rule hrule => ?_, rfl⟩
  cases iptype with
  | v4 => exact (h.agree .v4).not_isFor h4 hrule
  | v6 =>
    rcases h6 with hmac | hnone
    · exact (h.agree .v6).not_isFor hmac hrule
    · rw [h.hardware_eq_nil hnone] at hrule
      exact absurd hrule List.not_mem_nil

theorem Loses.mem (h : s.Loses iptype mac s') : mac ∈ s.macs iptype := by
  obtain ⟨row, hfind, -⟩ := h.hardware
  exact find?_key_isSome.mp (by rw [hfind]; rfl)

theorem withdrawn_iff (h : s.WellFormed iface) (mac : Mac) (hopen : iface.txProp ≠ none) :
    s.Withdrawn mac (s.exec iface (.del (some mac))) ↔
      mac ∈ s.macs .v4 ∨ mac ∉ s.macs .v6 ∨ iface.eachClientRtRuleCount .v6 = 0 := by
  have hwell := exec_wellFormed h (.del (some mac))
  rcases exec_del h mac hopen with ⟨h4, hsame⟩ | ⟨h4, h6, hloses⟩ | ⟨t, hloses, hloses'⟩
  · -- the delete has ended before it came to the table for IPv6
    rw [hsame, or_iff_right h4]
    constructor
    · intro hwithdrawn
      by_contra hleft
      rw [not_or, not_not] at hleft
      obtain ⟨rule, hrule, hfor⟩ := h.exists_isFor hleft.1 hleft.2
      exact (hwithdrawn .v6).1 rule hrule hfor
    · exact h.withdrawn_self h4
  · refine iff_of_true (fun iptype => ?_) (.inl h4)
    cases iptype with
    | v4 =>
      obtain ⟨hmac, hrows⟩ := hloses.withdrawn h
      exact ⟨fun rule => (hwell.agree .v4).not_isFor hmac, hrows⟩
    | v6 =>
      obtain ⟨-, hrows, hhardware⟩ := hloses.others .v6 (by decide)
      rw [hrows, hhardware]
      exact ⟨fun rule => (h.agree .v6).not_isFor h6, rfl⟩
  · refine iff_of_true (fun iptype => ?_) (.inl hloses.mem)
    have ht := hloses.wellFormed h
    cases iptype with
    | v4 =>
      obtain ⟨hmac, hkept⟩ := hloses.withdrawn h
      obtain ⟨-, hrows, hhardware⟩ := hloses'.others .v4 (by decide)
      rw [hrows, hhardware]
      exact ⟨fun rule => (ht.agree .v4).not_isFor hmac, hkept⟩
    | v6 =>
      obtain ⟨hmac, hkept⟩ := hloses'.withdrawn ht
      obtain ⟨-, hrows, -⟩ := hloses.others .v6 (by decide)
      rw [← hrows]
      exact ⟨fun rule => (hwell.agree .v6).not_isFor hmac, hkept⟩

/-! ## Every run -/

theorem keepsRtRules_iff (h : s.WellFormed iface) (op : RtOp) :
    s.KeepsRtRules iface op ↔ s.Findable iface op := by
  have hagree := (exec_wellFormed h op).agree
  unfold KeepsRtRules Findable
  rw [and_iff_right hagree]
  cases op with
  | add m iptype answers driver => exact Iff.rfl
  | del m =>
    refine forall₂_congr fun mac hmac => ?_
    subst hmac
    cases htx : iface.txProp with
    | some txProp =>
      simp [withdrawn_iff, h, htx]
    | none =>
      have hsame : s.exec iface (.del (some mac)) = s := by
        unfold exec delUsbClientRtRule
        rw [htx]
      have hnone : ∀ iptype, mac ∉ s.macs iptype := fun iptype => by
        simp [macs, h.opened, htx]
      simp [hsame, h.withdrawn_self, hnone]

/-- In every run, the rules installed are the ones in the rows, and a delete withdraws the rules of
its client, exactly if no client that is deleted is in the table for IPv6 alone. -/
theorem keepsRtRules_along_iff (iface : UsbIface) (ops : List RtOp) :
    (init iface).Agree ∧ System.Along (KeepsRtRules iface) (exec iface) ops (init iface) ↔
      System.Along (Findable iface) (exec iface) ops (init iface) := by
  have hinit := init_wellFormed iface
  rw [and_iff_right hinit.agree]
  exact System.along_iff (fun _ op h => keepsRtRules_iff h op)
    (fun _ op h _ => exec_wellFormed h op) ops hinit

def next : FreshHandles where
  handles used n := (List.range n).map (used.sum + 1 + ·)
  length used n := by rw [List.length_map, List.length_range]
  nodup used n := List.nodup_range.map fun _ _ h => Nat.add_left_cancel h
  fresh used n hdl hin hused := by
    obtain ⟨i, -, rfl⟩ := List.mem_map.mp hin
    have hle := List.le_sum_of_mem hused
    omega
  pos used n hdl hin := by
    obtain ⟨i, -, rfl⟩ := List.mem_map.mp hin
    omega

/-- A client with rules for IPv6 alone keeps them when it is deleted. -/
theorem not_keepsRtRules_along : ¬ ∀ (iface : UsbIface) (ops : List RtOp),
    (init iface).Agree ∧ System.Along (KeepsRtRules iface) (exec iface) ops (init iface) := by
  intro h
  let iface : UsbIface :=
    { txProp := some [⟨.v4, 1, {}⟩, ⟨.v6, 1, {}⟩]
      maxUsbClient := maxUsbClient
      fits := by decide }
  let op : RtOp := .add (some 1) .v6 {} next
  have hwell : ((init iface).exec iface op).WellFormed iface :=
    exec_wellFormed (init_wellFormed iface) op
  have hwithdrawn := (h iface [op, .del (some 1)]).2.2.1.2 1 rfl
  rcases (withdrawn_iff hwell 1 (Option.some_ne_none _)).mp hwithdrawn with h4 | h6 | hnone
  · exact absurd h4 (by decide +kernel)
  · exact h6 (by decide +kernel)
  · exact absurd hnone (by decide)

end UsbRt

end EtherDevice.Ipacm.EthBridge
