import EtherDevice.Ipacm.EthBridge
import EtherDevice.Lib.FirstMatch
import EtherDevice.Lib.Transition
import Mathlib.Data.List.FinRange
import Mathlib.Data.List.TakeWhile
import Mathlib.Logic.Embedding.Basic
import Mathlib.Logic.Function.Basic

/-!
# The filter rules of WLAN clients

`IPACM_Lan` installs a pool of dummy filter rules and changes one of them for each WLAN client and
IP type. The pool says which handles are free, and a table of the clients which handle was given to
whom. A handle is taken before its rule is changed, and it is not given back when the change fails.
When a client goes, its two rules are reset one after the other; if the second reset fails, the
client keeps a handle that is free.
-/

namespace EtherDevice.Ipacm.EthBridge

open Lib

def maxWlanClient : Nat := 32

inductive FltAction
  | passToRouting
  | passToException
  deriving DecidableEq

structure FltRule where
  action : FltAction
  rtTblHdl : Nat := 0
  attrib : RuleAttrib := {}
  deriving DecidableEq

structure FltRuleHdl where
  ruleHdl : Nat := 0
  valid : Bool := false
  deriving DecidableEq

structure ClientFltInfo where
  mac : Mac
  fltRuleHdl : IpType → Nat := fun _ => 0
  fltRuleSet : IpType → Bool := fun _ => false

def ClientFltInfo.set (client : ClientFltInfo) (iptype : IpType) (ruleHdl : Nat) :
    ClientFltInfo :=
  { client with
    fltRuleHdl := Function.update client.fltRuleHdl iptype ruleHdl
    fltRuleSet := Function.update client.fltRuleSet iptype true }

def allOnes : IpType → List (BitVec 32)
  | .v4 => [BitVec.allOnes 32]
  | .v6 => List.replicate 4 (BitVec.allOnes 32)

def FltRule.dummy (iptype : IpType) (attrib : RuleAttrib) : FltRule where
  action := .passToException
  attrib :=
    { attrib with
      attribMask := {.srcAddr, .dstAddr}
      srcAddr := allOnes iptype
      srcAddrMask := allOnes iptype
      dstAddr := allOnes iptype
      dstAddrMask := allOnes iptype }

def FltRule.IsDummy (iptype : IpType) (rule : FltRule) : Prop :=
  ∃ attrib, rule = .dummy iptype attrib

/-- `IPACM_Lan`, as far as these rules go, and the filter rules in the hardware. `rxProp` are the
attributes of its first receive property. -/
structure FltLan where
  rxProp : Option RuleAttrib
  wlanClientFltRuleHdl : IpType → List FltRuleHdl := fun _ => List.replicate maxWlanClient {}
  ethBridgeWlanClientFltInfo : List ClientFltInfo := []
  fltRuleCount : IpType → Nat := fun _ => 0
  hardware : IpType → Nat → Option FltRule

structure RuleAdded where
  fltRuleHdl : Nat
  status : Int := 0

structure FltAnswers where
  procCtxValid : Bool := true
  memory : Bool := true
  rtTbl : Option Nat := some 0
  usbHdrType : HdrL2Type := .ethernetII
  modified : Bool := true

namespace FltLan

variable (s : FltLan)

def modify (iptype : IpType) (ruleHdl : Nat) (rule : FltRule) : FltLan :=
  { s with
    hardware := Function.update s.hardware iptype
      (Function.update (s.hardware iptype) ruleHdl (some rule)) }

def setPool (iptype : IpType) (pool : List FltRuleHdl) : FltLan :=
  { s with wlanClientFltRuleHdl := Function.update s.wlanClientFltRuleHdl iptype pool }

def install (iptype : IpType) (rule : FltRule) : List RuleAdded → FltLan → FltLan
  | [], s => s
  | added :: rest, s =>
    install iptype rule rest
      (if added.status = 0 then s.modify iptype added.fltRuleHdl rule else s)

def handleDummyWlanClientFltRule (iptype : IpType)
    (added : Option (Fin maxWlanClient → RuleAdded)) : Int × FltLan :=
  match s.rxProp, added with
  | none, _ => (0, s)
  | some _, none => (ipacmFailure, s)
  | some attrib, some added =>
    let rules := List.ofFn added
    let s := install iptype (.dummy iptype attrib) rules s
    let copied := rules.takeWhile (·.status = 0)
    let s := s.setPool iptype (copied.map (fun rule => ⟨rule.fltRuleHdl, true⟩) ++
      (s.wlanClientFltRuleHdl iptype).drop copied.length)
    let s := { s with
      fltRuleCount := Function.update s.fltRuleCount iptype
        (s.fltRuleCount iptype + maxWlanClient) }
    (if rules.all (·.status = 0) then ipacmSuccess else ipacmFailure, s)

/-- `reset_to_dummy_flt_rule`. It fails where there is no memory, or the rule cannot be modified. -/
def resetToDummyFltRule (iptype : IpType) (ruleHdl : Nat) (ok : Bool) : Bool × FltLan :=
  if ok then (true, s.modify iptype ruleHdl (.dummy iptype {})) else (false, s)

/-- `eth_bridge_add_wlan_client_flt_rule`, up to the search for a handle: the rule, or the result
of a call that ends before. -/
def clientFltRule (mac : Option Mac) (iptype : IpType) (answers : FltAnswers) :
    Except Int (Mac × FltRule) :=
  match s.rxProp, mac with
  | none, _ => .error ipacmFailure
  | some _, none => .error ipacmFailure
  | some attrib, some mac =>
    if answers.procCtxValid = false then .error ipacmFailure
    else
      let client := s.ethBridgeWlanClientFltInfo.find? (·.mac == mac)
      if client.any (·.fltRuleSet iptype) then .error ipacmSuccess
      else if client.isNone ∧ s.ethBridgeWlanClientFltInfo.length = maxWlanClient then
        .error ipacmFailure
      else if answers.memory = false then .error ipacmFailure
      else
        match answers.rtTbl, answers.usbHdrType.macDstAddr with
        | none, _ => .error ipacmFailure
        | some _, none => .error ipacmFailure
        | some rtTblHdl, some field =>
          .ok (mac, ⟨.passToRouting, rtTblHdl, attrib.toMac field mac⟩)

def record (mac : Mac) (iptype : IpType) (ruleHdl : Nat) : FltLan :=
  let rows := s.ethBridgeWlanClientFltInfo
  { s with
    ethBridgeWlanClientFltInfo :=
      if rows.any (·.mac == mac) then changeFirst (·.mac == mac) (·.set iptype ruleHdl) rows
      else rows ++ [({ mac } : ClientFltInfo).set iptype ruleHdl] }

def addWlanClientFltRule (mac : Option Mac) (iptype : IpType) (answers : FltAnswers) :
    Int × FltLan :=
  match s.clientFltRule mac iptype answers with
  | .error res => (res, s)
  | .ok (mac, rule) =>
    match (s.wlanClientFltRuleHdl iptype).find? (·.valid) with
    | none => (ipacmFailure, s)
    | some entry =>
      let s := s.setPool iptype (changeFirst (·.valid) (fun entry => { entry with valid := false })
        (s.wlanClientFltRuleHdl iptype))
      -- the handle is not given back
      if answers.modified = false then (ipacmFailure, s)
      else (ipacmSuccess, (s.modify iptype entry.ruleHdl rule).record mac iptype entry.ruleHdl)

def release (iptype : IpType) (client : ClientFltInfo) (ok : Bool) : Bool × FltLan :=
  if client.fltRuleSet iptype = false then (true, s)
  else
    let ruleHdl := client.fltRuleHdl iptype
    match s.resetToDummyFltRule iptype ruleHdl ok with
    | (false, s) => (false, s)
    | (true, s) =>
      let pool := s.wlanClientFltRuleHdl iptype
      if pool.any (·.ruleHdl == ruleHdl) then
        (true, s.setPool iptype
          (changeFirst (·.ruleHdl == ruleHdl) (fun entry => { entry with valid := true }) pool))
      else (false, s)

def delWlanClientFltRule (mac : Option Mac) (ok : IpType → Bool) : Int × FltLan :=
  match mac with
  | none => (ipacmFailure, s)
  | some mac =>
    match s.ethBridgeWlanClientFltInfo.find? (·.mac == mac) with
    | none => (ipacmFailure, s)
    | some client =>
      match s.release .v4 client (ok .v4) with
      | (false, s) => (ipacmFailure, s)
      | (true, s) =>
        match s.release .v6 client (ok .v6) with
        | (false, s) => (ipacmFailure, s)
        | (true, s) =>
          (ipacmSuccess, { s with
            ethBridgeWlanClientFltInfo := s.ethBridgeWlanClientFltInfo.eraseP (·.mac == mac) })

end FltLan

/-! ## Runs -/

inductive FltOp
  | add (mac : Option Mac) (iptype : IpType) (answers : FltAnswers)
  | del (mac : Option Mac) (ok : IpType → Bool)

/-- What is there when the dummy rules are installed. The handles of one IP type are different. -/
structure Installation where
  rxProp : RuleAttrib
  hardware : IpType → Nat → Option FltRule
  handles : IpType → Fin maxWlanClient ↪ Nat

namespace FltLan

def exec (s : FltLan) : FltOp → FltLan
  | .add mac iptype answers => (s.addWlanClientFltRule mac iptype answers).2
  | .del mac ok => (s.delWlanClientFltRule mac ok).2

def addDummies (s : FltLan) (handles : IpType → Fin maxWlanClient ↪ Nat) (iptype : IpType) :
    FltLan :=
  (s.handleDummyWlanClientFltRule iptype
    (some fun i => { fltRuleHdl := handles iptype i })).2

def start (i : Installation) : FltLan :=
  let s : FltLan := { rxProp := some i.rxProp, hardware := i.hardware }
  (s.addDummies i.handles .v4).addDummies i.handles .v6

/-! ## What the pool and the rows say -/

def Records (iptype : IpType) (ruleHdl : Nat) (client : ClientFltInfo) : Bool :=
  client.fltRuleSet iptype && client.fltRuleHdl iptype == ruleHdl

def recorded (s : FltLan) (iptype : IpType) (ruleHdl : Nat) : Nat :=
  s.ethBridgeWlanClientFltInfo.countP (Records iptype ruleHdl)

def Accounted (s : FltLan) (iptype : IpType) (entry : FltRuleHdl) : Prop :=
  entry.valid = true ∧
      (∃ rule, s.hardware iptype entry.ruleHdl = some rule ∧ rule.IsDummy iptype) ∨
    entry.valid = false ∧ s.recorded iptype entry.ruleHdl = 1

structure Consistent (s : FltLan) : Prop where
  handles : ∀ iptype, ∀ entry ∈ s.wlanClientFltRuleHdl iptype, s.Accounted iptype entry
  macs : (s.ethBridgeWlanClientFltInfo.map (·.mac)).Nodup

/-- The rows and the rules of the other clients are as they were. -/
def Spares (s : FltLan) (mac : Mac) (s' : FltLan) : Prop :=
  ∀ client ∈ s.ethBridgeWlanClientFltInfo, client.mac ≠ mac →
    client ∈ s'.ethBridgeWlanClientFltInfo ∧ ∀ iptype, client.fltRuleSet iptype = true →
      s'.hardware iptype (client.fltRuleHdl iptype) = s.hardware iptype (client.fltRuleHdl iptype)

def KeepsRules (s : FltLan) (op : FltOp) : Prop :=
  Consistent (s.exec op) ∧
    match op with
    | .add _ _ _ => True
    | .del mac _ => ∀ m ∈ mac, Spares s m (s.exec op)

/-- Where an add comes to take a handle, the rule is modified exactly if no row records the handle
any more. -/
def Recordable (s : FltLan) : FltOp → Prop
  | .add mac iptype answers => ∀ call, s.clientFltRule mac iptype answers = .ok call →
      ∀ entry, (s.wlanClientFltRuleHdl iptype).find? (·.valid) = some entry →
        (answers.modified = true ↔ s.recorded iptype entry.ruleHdl = 0)
  | .del _ _ => True

structure Sound (s : FltLan) : Prop extends Consistent s where
  distinct : ∀ iptype, ((s.wlanClientFltRuleHdl iptype).map (·.ruleHdl)).Nodup
  known : ∀ iptype ruleHdl, 0 < s.recorded iptype ruleHdl →
    ruleHdl ∈ (s.wlanClientFltRuleHdl iptype).map (·.ruleHdl)
  once : ∀ iptype ruleHdl, s.recorded iptype ruleHdl ≤ 1

variable {s s' : FltLan} {iptype : IpType} {client : ClientFltInfo} {mac : Mac} {ruleHdl : Nat}

/-! ## One row -/

theorem records_iff : Records iptype ruleHdl client = true ↔
    client.fltRuleSet iptype = true ∧ client.fltRuleHdl iptype = ruleHdl := by
  simp [Records]

theorem countP_records_set (hfree : client.fltRuleSet iptype = false) (rest : List ClientFltInfo)
    (other : IpType) (h : Nat) :
    (client.set iptype ruleHdl :: rest).countP (Records other h) =
      (client :: rest).countP (Records other h) +
        if other = iptype ∧ h = ruleHdl then 1 else 0 := by
  by_cases hother : other = iptype
  · subst hother
    have hold : ¬ Records other h client = true := fun hin =>
      Bool.false_ne_true (hfree.symm.trans (records_iff.mp hin).1)
    have hself : Records other h (client.set other ruleHdl) = true ↔ h = ruleHdl := by
      rw [records_iff]
      simp [ClientFltInfo.set, eq_comm]
    rw [List.countP_cons_of_neg hold]
    by_cases hh : h = ruleHdl
    · rw [List.countP_cons_of_pos (hself.mpr hh), if_pos ⟨rfl, hh⟩]
    simp_all
  simp_all [Records, ClientFltInfo.set, List.countP_cons]

theorem any_mac_iff : s.ethBridgeWlanClientFltInfo.any (·.mac == mac) = true ↔
    mac ∈ s.ethBridgeWlanClientFltInfo.map (·.mac) := by
  simp

theorem recorded_record (hfree : ∀ client ∈ s.ethBridgeWlanClientFltInfo.find? (·.mac == mac),
    client.fltRuleSet iptype = false) (other : IpType) (h : Nat) :
    (s.record mac iptype ruleHdl).recorded other h =
      s.recorded other h + if other = iptype ∧ h = ruleHdl then 1 else 0 := by
  unfold recorded record
  dsimp only
  cases hfind : s.ethBridgeWlanClientFltInfo.find? (·.mac == mac) with
  | some client =>
    have hany : s.ethBridgeWlanClientFltInfo.any (·.mac == mac) = true := by
      rw [any_mac_iff, ← find?_key_isSome, hfind]
      rfl
    rw [if_pos hany, (perm_changeFirst hfind _).countP_eq, (perm_cons_eraseP hfind).countP_eq]
    exact countP_records_set (hfree client hfind) _ other h
  | none =>
    have hany : ¬ s.ethBridgeWlanClientFltInfo.any (·.mac == mac) = true := by
      simp_all
    have hnew : (({ mac } : ClientFltInfo) :: s.ethBridgeWlanClientFltInfo).countP
        (Records other h) = s.ethBridgeWlanClientFltInfo.countP (Records other h) :=
      List.countP_cons_of_neg Bool.false_ne_true
    rw [if_neg hany, (List.perm_append_comm).countP_eq, ← hnew]
    exact countP_records_set (rfl : ({ mac } : ClientFltInfo).fltRuleSet iptype = false) _ other h

theorem macs_record (h : (s.ethBridgeWlanClientFltInfo.map (·.mac)).Nodup) :
    ((s.record mac iptype ruleHdl).ethBridgeWlanClientFltInfo.map (·.mac)).Nodup := by
  have hkeep : ∀ client : ClientFltInfo, (client.set iptype ruleHdl).mac = client.mac :=
    fun _ => rfl
  grind [record, map_changeFirst]

/-! ## One handle -/

theorem hardware_modify (rule : FltRule) (other : IpType) (h : Nat) :
    (s.modify iptype ruleHdl rule).hardware other h =
      if other = iptype ∧ h = ruleHdl then some rule else s.hardware other h := by
  unfold modify
  dsimp only
  by_cases hother : other = iptype
  · simp [Function.update_apply, hother]
  · rw [Function.update_of_ne hother, if_neg fun hin => hother hin.1]

structure Changes (s : FltLan) (iptype : IpType) (entry : FltRuleHdl) (s' : FltLan) : Prop where
  mem : entry ∈ s'.wlanClientFltRuleHdl iptype
  pool : ∀ other, ∀ e ∈ s'.wlanClientFltRuleHdl other, other = iptype ∧ e = entry ∨
    e ∈ s.wlanClientFltRuleHdl other ∧ ¬ (other = iptype ∧ e.ruleHdl = entry.ruleHdl)
  handles : ∀ other, (s'.wlanClientFltRuleHdl other).map (·.ruleHdl) =
    (s.wlanClientFltRuleHdl other).map (·.ruleHdl)
  hardware : ∀ other h, ¬ (other = iptype ∧ h = entry.ruleHdl) →
    s'.hardware other h = s.hardware other h
  recorded : ∀ other h, ¬ (other = iptype ∧ h = entry.ruleHdl) →
    s'.recorded other h = s.recorded other h
  macs : (s.ethBridgeWlanClientFltInfo.map (·.mac)).Nodup →
    (s'.ethBridgeWlanClientFltInfo.map (·.mac)).Nodup

variable {entry : FltRuleHdl}

theorem Changes.consistent_iff (h : s.Changes iptype entry s') (hsound : Sound s) :
    Consistent s' ↔ s'.Accounted iptype entry := by
  refine ⟨fun hconsistent => hconsistent.handles iptype entry h.mem, fun haccounted => ?_⟩
  refine ⟨fun other e he => ?_, h.macs hsound.macs⟩
  rcases h.pool other e he with ⟨rfl, rfl⟩ | ⟨he, hother⟩
  · exact haccounted
  · have hold := hsound.handles other e he
    unfold Accounted at hold ⊢
    rwa [h.hardware other _ hother, h.recorded other _ hother]

theorem Changes.sound (h : s.Changes iptype entry s') (hsound : Sound s)
    (haccounted : s'.Accounted iptype entry)
    (honce : s'.recorded iptype entry.ruleHdl ≤ 1) : Sound s' := by
  refine ⟨(h.consistent_iff hsound).mpr haccounted, fun other => ?_, fun other hdl hpos => ?_,
    fun other hdl => ?_⟩
  · rw [h.handles]
    exact hsound.distinct other
  · by_cases hsame : other = iptype ∧ hdl = entry.ruleHdl
    · obtain ⟨rfl, rfl⟩ := hsame
      exact List.mem_map_of_mem h.mem
    · rw [h.recorded other hdl hsame] at hpos
      rw [h.handles]
      exact hsound.known other hdl hpos
  · by_cases hsame : other = iptype ∧ hdl = entry.ruleHdl
    · simp_all
    simp [h.recorded, hsame, hsound.once]

theorem changes_setPool (hsound : Sound s) {p : FltRuleHdl → Bool}
    (hfind : (s.wlanClientFltRuleHdl iptype).find? p = some entry) (valid : Bool) :
    s.Changes iptype { entry with valid } (s.setPool iptype
      (changeFirst p (fun entry => { entry with valid }) (s.wlanClientFltRuleHdl iptype))) := by
  have hmem : ∀ e, e ∈ changeFirst p (fun entry => { entry with valid })
      (s.wlanClientFltRuleHdl iptype) ↔ _ := fun e =>
    mem_changeFirst_key (hsound.distinct iptype) hfind
  have hself : (s.setPool iptype (changeFirst p (fun entry => { entry with valid })
      (s.wlanClientFltRuleHdl iptype))).wlanClientFltRuleHdl iptype =
        changeFirst p (fun entry => { entry with valid }) (s.wlanClientFltRuleHdl iptype) :=
    Function.update_self _ _ _
  have hother : ∀ other, other ≠ iptype → (s.setPool iptype (changeFirst p
      (fun entry => { entry with valid }) (s.wlanClientFltRuleHdl iptype))).wlanClientFltRuleHdl
        other = s.wlanClientFltRuleHdl other := fun other hne => Function.update_of_ne hne _ _
  refine ⟨?_, fun other e he => ?_, fun other => ?_, fun _ _ _ => rfl, fun _ _ _ => rfl, id⟩
  · rw [hself, hmem]
    exact .inl rfl
  · by_cases hsame : other = iptype
    · simp_all
    simp_all
  · by_cases hsame : other = iptype
    · simp [map_changeFirst, hsame, hself]
    · rw [hother other hsame]

/-! ## Adding a rule -/

theorem clientFltRule_ok {m : Option Mac} {answers : FltAnswers} {rule : FltRule}
    (h : s.clientFltRule m iptype answers = .ok (mac, rule)) :
    ∀ client ∈ s.ethBridgeWlanClientFltInfo.find? (·.mac == mac),
      client.fltRuleSet iptype = false := by
  unfold clientFltRule at h
  split at h
  · cases h
  · cases h
  · dsimp only at h
    split at h
    · cases h
    split at h
    · cases h
    rename_i hset
    split at h
    · cases h
    split at h
    · cases h
    split at h
    · cases h
    · cases h
    · cases h
      intro client hclient
      simp_all

theorem add_changes (hsound : Sound s) (rule : FltRule)
    (hfree : ∀ client ∈ s.ethBridgeWlanClientFltInfo.find? (·.mac == mac),
      client.fltRuleSet iptype = false)
    (hfind : (s.wlanClientFltRuleHdl iptype).find? (·.valid) = some entry) :
    let t := s.setPool iptype (changeFirst (·.valid) (fun entry => { entry with valid := false })
      (s.wlanClientFltRuleHdl iptype))
    let t' := (t.modify iptype entry.ruleHdl rule).record mac iptype entry.ruleHdl
    s.Changes iptype { entry with valid := false } t ∧
      s.Changes iptype { entry with valid := false } t' ∧
      t'.recorded iptype entry.ruleHdl = s.recorded iptype entry.ruleHdl + 1 := by
  intro t t'
  have htaken : s.Changes iptype { entry with valid := false } t :=
    changes_setPool hsound hfind false
  have hrecorded : ∀ other h, t'.recorded other h =
      s.recorded other h + if other = iptype ∧ h = entry.ruleHdl then 1 else 0 :=
    recorded_record (s := t.modify iptype entry.ruleHdl rule) hfree
  refine ⟨htaken, ⟨htaken.mem, htaken.pool, htaken.handles, fun other h hne => ?_,
    fun other h hne => ?_, macs_record⟩, ?_⟩
  · show (t.modify iptype entry.ruleHdl rule).hardware other h = s.hardware other h
    rw [hardware_modify, if_neg hne]
    rfl
  · rw [hrecorded, if_neg hne, Nat.add_zero]
  · rw [hrecorded, if_pos ⟨rfl, rfl⟩]

theorem exec_add (s : FltLan) (m : Option Mac) (iptype : IpType) (answers : FltAnswers) :
    s.exec (.add m iptype answers) =
      match s.clientFltRule m iptype answers with
      | .error _ => s
      | .ok (mac, rule) =>
        match (s.wlanClientFltRuleHdl iptype).find? (·.valid) with
        | none => s
        | some entry =>
          let t := s.setPool iptype (changeFirst (·.valid)
            (fun entry => { entry with valid := false }) (s.wlanClientFltRuleHdl iptype))
          if answers.modified = false then t
          else (t.modify iptype entry.ruleHdl rule).record mac iptype entry.ruleHdl := by
  unfold exec addWlanClientFltRule
  dsimp only
  split
  · rfl
  · split
    · rfl
    · split <;> rfl

theorem add_spec (hsound : Sound s) (m : Option Mac) (iptype : IpType) (answers : FltAnswers) :
    (Consistent (s.exec (.add m iptype answers)) ↔ s.Recordable (.add m iptype answers)) ∧
      (s.Recordable (.add m iptype answers) → Sound (s.exec (.add m iptype answers))) := by
  rw [exec_add]
  unfold Recordable
  dsimp only
  cases hcall : s.clientFltRule m iptype answers with
  | error res =>
    exact ⟨iff_of_true hsound.toConsistent fun _ h => (nomatch h), fun _ => hsound⟩
  | ok call =>
    obtain ⟨mac, rule⟩ := call
    cases hfind : (s.wlanClientFltRuleHdl iptype).find? (·.valid) with
    | none =>
      exact ⟨iff_of_true hsound.toConsistent fun _ _ _ h => (nomatch h), fun _ => hsound⟩
    | some entry =>
      have hcond : (∀ call, Except.ok (mac, rule) = (Except.ok call : Except Int _) →
          ∀ e, some entry = some e → (answers.modified = true ↔ s.recorded iptype e.ruleHdl = 0)) ↔
          (answers.modified = true ↔ s.recorded iptype entry.ruleHdl = 0) :=
        ⟨fun h => h _ rfl _ rfl, fun h _ _ _ he => Option.some.inj he ▸ h⟩
      rw [hcond]
      have hfree := clientFltRule_ok hcall
      obtain ⟨htaken, hmodified, hmore⟩ := add_changes hsound rule hfree hfind
      have honce := hsound.once iptype entry.ruleHdl
      have htakes : ∀ {t : FltLan}, t.Accounted iptype { entry with valid := false } ↔
          t.recorded iptype entry.ruleHdl = 1 := by
        simp [Accounted]
      dsimp only
      cases answers.modified with
      | false =>
        rw [if_pos rfl, htaken.consistent_iff hsound, htakes]
        have hsame : (s.setPool iptype (changeFirst (·.valid)
            (fun entry => { entry with valid := false })
            (s.wlanClientFltRuleHdl iptype))).recorded iptype entry.ruleHdl =
            s.recorded iptype entry.ruleHdl := rfl
        rw [hsame, iff_comm (a := false = true)]
        have hiff : s.recorded iptype entry.ruleHdl = 1 ↔
            (s.recorded iptype entry.ruleHdl = 0 ↔ false = true) := by
          simp only [Bool.false_eq_true, iff_false]
          omega
        refine ⟨hiff, fun h => htaken.sound hsound (htakes.mpr (hsame.trans (hiff.mpr h))) ?_⟩
        exact honce
      | true =>
        rw [if_neg Bool.noConfusion, hmodified.consistent_iff hsound, htakes]
        rw [iff_true_left rfl, hmore]
        have hiff : s.recorded iptype entry.ruleHdl + 1 = 1 ↔ s.recorded iptype entry.ruleHdl = 0 :=
          Nat.succ_inj
        refine ⟨hiff, fun h => ?_⟩
        have hone := hmore.trans (hiff.mpr h)
        exact hmodified.sound hsound (htakes.mpr hone) hone.le

/-! ## Deleting a client -/

theorem Sound.not_records (hsound : Sound s) {other : ClientFltInfo}
    (hclient : client ∈ s.ethBridgeWlanClientFltInfo)
    (hother : other ∈ s.ethBridgeWlanClientFltInfo)
    (hne : other ≠ client) (hrecords : Records iptype ruleHdl other = true) :
    ¬ Records iptype ruleHdl client = true := by
  intro hin
  have honce := hsound.once iptype ruleHdl
  unfold recorded at honce
  rw [List.countP_eq_length_filter] at honce
  have hmem := List.mem_filter.mpr ⟨hclient, hin⟩
  obtain ⟨row, hrow⟩ := List.length_eq_one_iff.mp
    (Nat.le_antisymm honce (List.length_pos_of_mem hmem))
  have hmem' := List.mem_filter.mpr ⟨hother, hrecords⟩
  simp_all

/-- What the part of one IP type does, whether it fails or not. -/
structure Released (s : FltLan) (iptype : IpType) (client : ClientFltInfo) (s' : FltLan) :
    Prop where
  rows : s'.ethBridgeWlanClientFltInfo = s.ethBridgeWlanClientFltInfo
  sound : Sound s'
  hardware : ∀ other h, ¬ (other = iptype ∧ Records iptype h client = true) →
    s'.hardware other h = s.hardware other h
  pool : ∀ other, other ≠ iptype → s'.wlanClientFltRuleHdl other = s.wlanClientFltRuleHdl other

theorem Released.refl (hsound : Sound s) : s.Released iptype client s :=
  ⟨rfl, hsound, fun _ _ _ => rfl, fun _ _ => rfl⟩

def Frees (iptype : IpType) (client : ClientFltInfo) (s : FltLan) : Prop :=
  ∀ entry ∈ s.wlanClientFltRuleHdl iptype, Records iptype entry.ruleHdl client = true →
    entry.valid = true

theorem released_setPool (hsound : Sound s)
    (hfind : (s.wlanClientFltRuleHdl iptype).find? (·.ruleHdl == ruleHdl) = some entry)
    (hrecords : Records iptype ruleHdl client = true) :
    let s' := (s.modify iptype ruleHdl (.dummy iptype {})).setPool iptype
      (changeFirst (·.ruleHdl == ruleHdl) (fun entry => { entry with valid := true })
        (s.wlanClientFltRuleHdl iptype))
    s.Released iptype client s' ∧ Frees iptype client s' := by
  intro s'
  obtain ⟨hmem, rfl⟩ := (find?_key_eq_some (hsound.distinct iptype)).mp hfind
  have hpool := changes_setPool hsound hfind true
  have hhardware : ∀ other h, s'.hardware other h =
      if other = iptype ∧ h = entry.ruleHdl then some (.dummy iptype {})
      else s.hardware other h := hardware_modify _
  have hchanges : s.Changes iptype { entry with valid := true } s' :=
    ⟨hpool.mem, hpool.pool, hpool.handles,
      fun other h hne => (hhardware other h).trans (if_neg hne), hpool.recorded, hpool.macs⟩
  have haccounted : s'.Accounted iptype { entry with valid := true } :=
    .inl ⟨rfl, _, (hhardware iptype _).trans (if_pos ⟨rfl, rfl⟩), _, rfl⟩
  refine ⟨⟨rfl, ?_, fun other h hne => ?_, fun other hne => ?_⟩, fun e he hin => ?_⟩
  · exact hchanges.sound hsound haccounted (hsound.once iptype entry.ruleHdl)
  · refine (hhardware other h).trans (if_neg ?_)
    rintro ⟨rfl, rfl⟩
    exact hne ⟨rfl, hrecords⟩
  · exact Function.update_of_ne hne _ _
  · rcases hchanges.pool iptype e he with ⟨-, rfl⟩ | ⟨-, hne⟩
    · rfl
    · have hsame := (records_iff.mp hin).2.symm.trans (records_iff.mp hrecords).2
      exact absurd ⟨rfl, hsame⟩ hne

theorem release_spec (hsound : Sound s) (hclient : client ∈ s.ethBridgeWlanClientFltInfo)
    (ok : Bool) :
    let s' := s.release iptype client ok
    s.Released iptype client s'.2 ∧ (s'.1 = true → Frees iptype client s'.2) := by
  unfold release resetToDummyFltRule
  cases hset : client.fltRuleSet iptype with
  | false =>
    refine ⟨.refl hsound, fun _ entry _ hin => ?_⟩
    exact absurd (hset.symm.trans (records_iff.mp hin).1) Bool.false_ne_true
  | true =>
    rw [if_neg Bool.noConfusion]
    cases ok with
    | false => exact ⟨.refl hsound, fun h => absurd h Bool.false_ne_true⟩
    | true =>
      have hrecords : Records iptype (client.fltRuleHdl iptype) client = true :=
        records_iff.mpr ⟨hset, rfl⟩
      have hknown := hsound.known iptype (client.fltRuleHdl iptype)
        (List.countP_pos_iff.mpr ⟨client, hclient, hrecords⟩)
      obtain ⟨entry, hfind⟩ := Option.isSome_iff_exists.mp (find?_key_isSome.mpr hknown)
      have hkey := List.find?_some hfind
      have hany : (s.wlanClientFltRuleHdl iptype).any
          (·.ruleHdl == client.fltRuleHdl iptype) = true :=
        List.any_eq_true.mpr ⟨entry, List.mem_of_find?_eq_some hfind, hkey⟩
      obtain ⟨hreleased, hfrees⟩ := released_setPool hsound hfind hrecords
      dsimp only
      rw [if_pos rfl]
      dsimp only
      rw [if_pos (by exact hany)]
      exact ⟨hreleased, fun _ => hfrees⟩

theorem Released.hardware_other (h : s.Released iptype client s') (hsound : Sound s)
    (hclient : client ∈ s.ethBridgeWlanClientFltInfo) {row : ClientFltInfo}
    (hrow : row ∈ s.ethBridgeWlanClientFltInfo) (hne : row ≠ client) {other : IpType}
    (hset : row.fltRuleSet other = true) :
    s'.hardware other (row.fltRuleHdl other) = s.hardware other (row.fltRuleHdl other) := by
  refine h.hardware other _ ?_
  rintro ⟨rfl, hin⟩
  exact hsound.not_records hclient hrow hne (records_iff.mpr ⟨hset, rfl⟩) hin

theorem erase_sound (hsound : Sound s)
    (hfind : s.ethBridgeWlanClientFltInfo.find? (·.mac == mac) = some client)
    (hfrees : ∀ iptype, Frees iptype client s) :
    Sound { s with
      ethBridgeWlanClientFltInfo := s.ethBridgeWlanClientFltInfo.eraseP (·.mac == mac) } := by
  have hcount : ∀ iptype h, s.recorded iptype h =
      (s.ethBridgeWlanClientFltInfo.eraseP (·.mac == mac)).countP (Records iptype h) +
        if Records iptype h client = true then 1 else 0 := fun iptype h =>
    ((perm_cons_eraseP hfind).countP_eq _).trans (List.countP_cons ..)
  have hless : ∀ iptype h, (s.ethBridgeWlanClientFltInfo.eraseP (·.mac == mac)).countP
      (Records iptype h) ≤ s.recorded iptype h := fun iptype h => by
    simp_all
  refine ⟨⟨fun iptype entry hentry => ?_, nodup_eraseP_key hsound.macs⟩, hsound.distinct,
    fun iptype h hpos => hsound.known iptype h (Nat.lt_of_lt_of_le hpos (hless iptype h)),
    fun iptype h => Nat.le_trans (hless iptype h) (hsound.once iptype h)⟩
  rcases hsound.handles iptype entry hentry with hfree | ⟨hvalid, hone⟩
  · exact .inl hfree
  · -- a handle that is taken is not one of the client
    refine .inr ⟨hvalid, ?_⟩
    rw [hcount, if_neg fun hin => Bool.false_ne_true
      (hvalid.symm.trans (hfrees iptype entry hentry hin)), Nat.add_zero] at hone
    exact hone

theorem del_spec (hsound : Sound s) (m : Option Mac) (ok : IpType → Bool) :
    Sound (s.exec (.del m ok)) ∧ ∀ mac ∈ m, Spares s mac (s.exec (.del m ok)) := by
  have hself : ∀ mac, Spares s mac s := fun _ _ hrow _ => ⟨hrow, fun _ _ => rfl⟩
  unfold exec delWlanClientFltRule
  cases m with
  | none => exact ⟨hsound, fun _ h => (nomatch h)⟩
  | some mac =>
    dsimp only
    cases hfind : s.ethBridgeWlanClientFltInfo.find? (·.mac == mac) with
    | none => exact ⟨hsound, fun _ _ => hself _⟩
    | some client =>
      obtain ⟨hclient, hmac⟩ := (find?_key_eq_some hsound.macs).mp hfind
      have hother : ∀ row : ClientFltInfo, row.mac ≠ mac → row ≠ client := by
        rintro row hrow rfl
        exact hrow hmac
      dsimp only
      cases h4 : s.release .v4 client (ok .v4) with
      | mk ok4 s4 =>
        obtain ⟨hreleased4, hfrees4⟩ := h4 ▸ release_spec hsound hclient (ok .v4)
        have hsame4 : ∀ row ∈ s.ethBridgeWlanClientFltInfo, row.mac ≠ mac → ∀ iptype,
            row.fltRuleSet iptype = true → s4.hardware iptype (row.fltRuleHdl iptype) =
              s.hardware iptype (row.fltRuleHdl iptype) := fun row hrow hne _ =>
          hreleased4.hardware_other hsound hclient hrow (hother row hne)
        cases ok4 with
        | false =>
          refine ⟨hreleased4.sound, ?_⟩
          rintro _ ⟨⟩ row hrow hne
          exact ⟨hreleased4.rows ▸ hrow, hsame4 row hrow hne⟩
        | true =>
          have hclient4 := hreleased4.rows ▸ hclient
          dsimp only
          cases h6 : s4.release .v6 client (ok .v6) with
          | mk ok6 s6 =>
            obtain ⟨hreleased6, hfrees6⟩ := h6 ▸ release_spec hreleased4.sound hclient4 (ok .v6)
            have hsame6 : ∀ row ∈ s.ethBridgeWlanClientFltInfo, row.mac ≠ mac → ∀ iptype,
                row.fltRuleSet iptype = true → s6.hardware iptype (row.fltRuleHdl iptype) =
                  s.hardware iptype (row.fltRuleHdl iptype) := fun row hrow hne iptype hset =>
              (hreleased6.hardware_other hreleased4.sound hclient4 (hreleased4.rows ▸ hrow)
                (hother row hne) hset).trans (hsame4 row hrow hne iptype hset)
            have hrows6 := hreleased6.rows.trans hreleased4.rows
            cases ok6 with
            | false =>
              refine ⟨hreleased6.sound, ?_⟩
              rintro _ ⟨⟩ row hrow hne
              exact ⟨hrows6 ▸ hrow, hsame6 row hrow hne⟩
            | true =>
              have hfrees : ∀ iptype, Frees iptype client s6
                | .v4 => by
                  unfold Frees
                  rw [hreleased6.pool .v4 (by decide)]
                  exact hfrees4 rfl
                | .v6 => hfrees6 rfl
              refine ⟨erase_sound hreleased6.sound (hrows6 ▸ hfind) hfrees, ?_⟩
              rintro _ ⟨⟩ row hrow hne
              simp_all

/-! ## The dummy rules -/

theorem install_eq (s : FltLan) (iptype : IpType) (rule : FltRule) {rules : List RuleAdded}
    (hok : ∀ added ∈ rules, added.status = 0) :
    ∃ hardware, install iptype rule rules s = { s with hardware } ∧
      (∀ other, other ≠ iptype → hardware other = s.hardware other) ∧
      ∀ h, hardware iptype h =
        if h ∈ rules.map (·.fltRuleHdl) then some rule else s.hardware iptype h := by
  induction rules generalizing s with
  | nil => exact ⟨s.hardware, rfl, fun _ _ => rfl, fun _ => rfl⟩
  | cons added rest ih =>
    obtain ⟨hadded, hrest⟩ := List.forall_mem_cons.mp hok
    obtain ⟨hardware, heq, hother, hself⟩ := ih (s.modify iptype added.fltRuleHdl rule) hrest
    refine ⟨hardware, ?_, fun other hne => ?_, fun h => ?_⟩
    · unfold install
      rw [if_pos hadded, heq]
      rfl
    · rw [hother other hne]
      exact Function.update_of_ne hne _ _
    · rw [hself, hardware_modify]
      simp only [List.map_cons, List.mem_cons, true_and]
      grind only

theorem addDummies_eq (handles : IpType → Fin maxWlanClient ↪ Nat) {attrib : RuleAttrib}
    (hrx : s.rxProp = some attrib) (hlength : (s.wlanClientFltRuleHdl iptype).length =
      maxWlanClient) : ∃ hardware fltRuleCount, s.addDummies handles iptype =
        { s with
          hardware
          fltRuleCount
          wlanClientFltRuleHdl := Function.update s.wlanClientFltRuleHdl iptype
            (List.ofFn fun i => ⟨handles iptype i, true⟩) } ∧
      (∀ other, other ≠ iptype → hardware other = s.hardware other) ∧
      ∀ i, hardware iptype (handles iptype i) = some (.dummy iptype attrib) := by
  have hok : ∀ added ∈ List.ofFn fun i => ({ fltRuleHdl := handles iptype i } : RuleAdded),
      added.status = 0 := by
    simp
  obtain ⟨hardware, heq, hother, hself⟩ :=
    install_eq s iptype (.dummy iptype attrib) hok
  have hcopied : (List.ofFn fun i => ({ fltRuleHdl := handles iptype i } : RuleAdded)).takeWhile
      (·.status = 0) = List.ofFn fun i => { fltRuleHdl := handles iptype i } :=
    List.takeWhile_eq_self_iff.mpr fun added hadded => decide_eq_true (hok added hadded)
  have hrest : (s.wlanClientFltRuleHdl iptype).drop maxWlanClient = [] :=
    List.drop_eq_nil_of_le hlength.le
  refine ⟨hardware, Function.update s.fltRuleCount iptype (s.fltRuleCount iptype + maxWlanClient),
    ?_, hother, fun i => ?_⟩
  · unfold addDummies handleDummyWlanClientFltRule
    rw [hrx]
    dsimp only
    rw [heq, hcopied, List.map_ofFn, List.length_ofFn]
    rw [hrest, List.append_nil, ← hrx]
    rfl
  simp [hself]

theorem start_sound (i : Installation) : Sound (start i) := by
  let s : FltLan := { rxProp := some i.rxProp, hardware := i.hardware }
  have hlength : ∀ iptype, (s.wlanClientFltRuleHdl iptype).length = maxWlanClient :=
    fun _ => List.length_replicate
  obtain ⟨hardware4, count4, heq4, -, hself4⟩ := addDummies_eq (s := s) i.handles rfl (hlength .v4)
  have hrx6 : (s.addDummies i.handles .v4).rxProp = some i.rxProp := by
    rw [heq4]
  have hlength6 : ((s.addDummies i.handles .v4).wlanClientFltRuleHdl .v6).length =
      maxWlanClient := by
    exact hlength .v6
  obtain ⟨hardware6, count6, heq6, hother6, hself6⟩ := addDummies_eq i.handles hrx6 hlength6
  have hstart : start i = _ := heq6
  have hrows : (start i).ethBridgeWlanClientFltInfo = [] := by
    rw [hstart, heq4]
  have hpool : ∀ iptype, (start i).wlanClientFltRuleHdl iptype =
      List.ofFn fun j => ⟨i.handles iptype j, true⟩
    | .v4 => by rfl
    | .v6 => by rfl
  have hdummy : ∀ iptype j, (start i).hardware iptype (i.handles iptype j) =
      some (.dummy iptype i.rxProp)
    | .v4, j => by
      simp [hstart, hother6, heq4, hself4]
    | .v6, j => by
      rw [hstart]
      exact hself6 j
  have hnone : ∀ iptype h, (start i).recorded iptype h = 0 := fun iptype h => by
    rfl
  refine ⟨⟨fun iptype entry hentry => ?_, ?_⟩, fun iptype => ?_, fun iptype h hpos => ?_,
    fun iptype h => (hnone iptype h).le.trans (Nat.zero_le 1)⟩
  · rw [hpool, List.mem_ofFn] at hentry
    obtain ⟨j, rfl⟩ := hentry
    exact .inl ⟨rfl, _, hdummy iptype j, _, rfl⟩
  · exact List.nodup_nil
  · rw [hpool, List.map_ofFn]
    exact List.nodup_ofFn.mpr (i.handles iptype).injective
  · exact absurd hpos (lt_irrefl 0)

/-! ## Every run -/

theorem keepsRules_iff (hsound : Sound s) (op : FltOp) :
    s.KeepsRules op ↔ s.Recordable op := by
  unfold KeepsRules
  cases op with
  | add m iptype answers =>
    simp [add_spec, hsound]
  | del m ok =>
    obtain ⟨hdel, hspares⟩ := del_spec hsound m ok
    exact iff_of_true ⟨hdel.toConsistent, hspares⟩ trivial

theorem exec_sound (hsound : Sound s) (op : FltOp) (h : s.Recordable op) : Sound (s.exec op) := by
  cases op with
  | add m iptype answers => exact (add_spec hsound m iptype answers).2 h
  | del m ok => exact (del_spec hsound m ok).1

/-- In every run, the handles are free with a dummy rule or taken and recorded once. -/
theorem keepsRules_along_iff (i : Installation) (ops : List FltOp) :
    (start i).Consistent ∧ System.Along KeepsRules exec ops (start i) ↔
      System.Along Recordable exec ops (start i) := by
  have hstart := start_sound i
  rw [and_iff_right hstart.toConsistent]
  exact System.along_iff (fun _ op hsound => keepsRules_iff hsound op)
    (fun _ op hsound => exec_sound hsound op) ops hstart

/-- A rule that cannot be modified costs the pool its handle, which no row records. -/
theorem not_keepsRules_along : ¬ ∀ (i : Installation) (ops : List FltOp),
    (start i).Consistent ∧ System.Along KeepsRules exec ops (start i) := by
  intro h
  let i : Installation :=
    { rxProp := {}
      hardware := fun _ _ => none
      handles := fun _ => ⟨fun j => j + 1, fun j k hjk => Fin.ext (Nat.succ_inj.mp hjk)⟩ }
  let op : FltOp := .add (some 1) .v4 { modified := false }
  have hconsistent : ((start i).exec op).Consistent := (h i [op]).2.1.1
  have hmem : (⟨1, false⟩ : FltRuleHdl) ∈ ((start i).exec op).wlanClientFltRuleHdl .v4 := by
    decide +kernel
  rcases hconsistent.handles .v4 _ hmem with ⟨hvalid, -⟩ | ⟨-, hone⟩
  · exact Bool.false_ne_true hvalid
  · have hnone : ((start i).exec op).recorded .v4 1 = 0 := by
      decide +kernel
    exact Nat.zero_ne_one (hnone.symm.trans hone)

end FltLan

end EtherDevice.Ipacm.EthBridge
