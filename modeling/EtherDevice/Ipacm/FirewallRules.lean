import Mathlib
import EtherDevice.Ipacm.ClientTable
import EtherDevice.Lib.CountedArray
import EtherDevice.Lib.Handles
import EtherDevice.Lib.Transition

/-!
# The firewall rules of a WAN interface in STA mode

`config_dft_firewall_rules` installs the filter rules of one family, as the firewall file says, and
`del_dft_firewall_rules` deletes what the instance has recorded. The handlers ignore what the two
return. Here is every step at which an ioctl can fail, but not what the rules match and do.

A write behind the end of `firewall_hdl_v4` or `firewall_hdl_v6` is only noted.
-/

namespace EtherDevice.Ipacm.StaFirewall

open Lib

/-- `ipa_ip_type`, as the clients of the LAN side have it. -/
abbrev IpType := ClientTable.IpType

def maxFirewallEntries : Nat := 50

def tcpUdp : Nat := 253

/-- The `flt_rule_hdl` of a rule that the driver has not taken, -1. -/
def noHandle : Nat := 2 ^ 32 - 1

/-- Where one handle is recorded: `dft_wan_fl_hdl` and `ipv6_frag_firewall_flt_rule_hdl`. -/
inductive Slot
  | dft (i : Fin 3)
  | frag
  deriving DecidableEq, Repr

def dftSlots : IpType → List Slot
  | .v4 => [.dft 0]
  | .v6 => [.dft 1, .dft 2]

def fragSlots : IpType → List Slot
  | .v4 => []
  | .v6 => [.frag]

def slots (f : IpType) : List Slot := dftSlots f ++ fragSlots f

/-! ## The firewall file -/

structure Entry where
  ipVsn : Nat
  protocol : Nat

/-- What one reading of the file gives. Where it fails, the entries are not counted. -/
structure Firewall where
  readOk : Bool := true
  firewallEnable : Bool := false
  entries : List Entry := []
  few : entries.length ≤ maxFirewallEntries := by decide

/-- What `config_dft_firewall_rules` does one after the other. -/
inductive Step
  | table
  /-- a rule whose handle goes to the next place of `firewall_hdl_v4` or `firewall_hdl_v6` -/
  | entry
  | slot (x : Slot)
  deriving DecidableEq, Repr

def Entry.steps (e : Entry) : List Step :=
  if e.protocol = tcpUdp then [.entry, .entry] else [.entry]

namespace Firewall

variable (c : Firewall)

/-- Every entry that is not an IPv4 one counts as an IPv6 one. -/
def ruleNum : IpType → Nat
  | .v4 => if c.readOk then c.entries.countP (·.ipVsn = 4) else 0
  | .v6 => if c.readOk then c.entries.countP (·.ipVsn ≠ 4) else 0

def entrySteps (ipVsn : Nat) : List Step :=
  if c.firewallEnable then (c.entries.filter (·.ipVsn = ipVsn)).flatMap Entry.steps else []

def steps : IpType → List Step
  | .v4 =>
    if c.ruleNum .v4 = 0 then [.table, .slot (.dft 0)]
    else .table :: c.entrySteps 4 ++ [.slot (.dft 0)]
  | .v6 =>
    (if c.firewallEnable then [.slot .frag] else []) ++
      if c.ruleNum .v6 = 0 then [.slot (.dft 2), .table, .slot (.dft 1)]
      else .table :: c.entrySteps 6 ++ [.slot (.dft 2), .slot (.dft 1)]

end Firewall

/-! ## The instance and the hardware -/

/-- What a step meets. A rule that is `rejected` comes back with a status, and
`AddFilteringRule` reports success all the same. -/
inductive AddAnswer
  | failed
  | rejected
  | added (fresh : Fresh)

/-- What `DeleteFilteringHdls` meets: whether it has memory, and whether each ioctl succeeds. -/
structure DelAnswer where
  mem : Bool := true
  ok : Nat → Bool := fun _ => true

structure Wan where
  /-- `rx_prop` is not NULL -/
  rxProp : Bool := true
  active : IpType → Bool := fun _ => false
  firewallHdl : IpType → Nat → Nat
  numFirewall : IpType → Nat := fun _ => 0
  slotHdl : Slot → Nat
  /-- the rules of each family that are in the hardware -/
  filtering : IpType → Handles := fun _ => {}
  outOfRange : Bool := false

namespace Wan

variable (s : Wan)

/-- `AddFilteringRule`: the handle that comes back, if the ioctl succeeds. -/
def addFilteringRule (f : IpType) : AddAnswer → Option (Nat × Wan)
  | .failed => none
  | .rejected => some (noHandle, s)
  | .added fresh =>
    some (((s.filtering f).add fresh).1,
      { s with filtering := Function.update s.filtering f ((s.filtering f).add fresh).2 })

def recordEntry (f : IpType) (rule hdl : Nat) : Wan :=
  { s with
    firewallHdl := Function.update s.firewallHdl f (Function.update (s.firewallHdl f) rule hdl)
    numFirewall := Function.update s.numFirewall f (s.numFirewall f + 1)
    outOfRange := s.outOfRange || decide (maxFirewallEntries ≤ rule) }

def recordSlot (x : Slot) (hdl : Nat) : Wan :=
  { s with slotHdl := Function.update s.slotHdl x hdl }

/-- The rest of `config_dft_firewall_rules`, where `rule` entries have been recorded. -/
def runSteps (f : IpType) : Wan → Nat → List Step → (Nat → AddAnswer) → Bool × Wan
  | s, _, [], _ => (true, s)
  | s, rule, .table :: rest, answers =>
    match answers 0 with
    | .failed => (false, s)
    | _ => runSteps f s rule rest fun k => answers (k + 1)
  | s, rule, .entry :: rest, answers =>
    match s.addFilteringRule f (answers 0) with
    | none => (false, s)
    | some (hdl, s) =>
      runSteps f (s.recordEntry f rule hdl) (rule + 1) rest fun k => answers (k + 1)
  | s, rule, .slot x :: rest, answers =>
    match s.addFilteringRule f (answers 0) with
    | none => (false, s)
    | some (hdl, s) => runSteps f (s.recordSlot x hdl) rule rest fun k => answers (k + 1)

structure Reading where
  firewall : Firewall
  mem : Bool := true
  answers : Nat → AddAnswer

def Reading.steps (r : Reading) (f : IpType) : List Step :=
  if r.mem then r.firewall.steps f else []

def configDftFirewallRules (f : IpType) (r : Reading) : Bool × Wan :=
  if !s.rxProp then (true, s)
  else if !r.mem then (false, s)
  else runSteps f s 0 (r.steps f) r.answers

/-- `DeleteFilteringRule`: a rule that is not there is missed, whatever the ioctl says. -/
def deleteFilteringRule (H : Handles) (hdl : Nat) (ok : Bool) : Handles :=
  if ok then H.del hdl
  else if hdl ∈ H.live then H
  else { H with missed := hdl :: H.missed }

def deleteLoop : Handles → List Nat → (Nat → Bool) → Bool × Handles
  | H, [], _ => (true, H)
  | H, hdl :: hdls, ok =>
    if hdl = 0 then deleteLoop H hdls fun k => ok (k + 1)
    else if ok 0 then deleteLoop (deleteFilteringRule H hdl true) hdls fun k => ok (k + 1)
    else (false, deleteFilteringRule H hdl false)

def deleteFilteringHdls (H : Handles) (hdls : List Nat) (answer : DelAnswer) : Bool × Handles :=
  if !answer.mem then (false, H) else deleteLoop H hdls answer.ok

def deleteCalls : Handles → List (List Nat) → (Nat → DelAnswer) → Bool × Handles
  | H, [], _ => (true, H)
  | H, hdls :: calls, answers =>
    match deleteFilteringHdls H hdls (answers 0) with
    | (false, H) => (false, H)
    | (true, H) => deleteCalls H calls fun k => answers (k + 1)

def calls (f : IpType) : List (List Nat) :=
  (if s.numFirewall f = 0 then [] else [below (s.firewallHdl f) (s.numFirewall f)]) ++
    (dftSlots f).map fun x => [s.slotHdl x]

/-- The deletion of the fragment rule, whose failure is only logged. -/
def deleteFrag (f : IpType) (H : Handles) (answer : DelAnswer) : Handles :=
  (fragSlots f).foldl (fun H x => (deleteFilteringHdls H [s.slotHdl x] answer).2) H

structure Deleting where
  answers : Nat → DelAnswer := fun _ => {}
  frag : DelAnswer := {}

def delDftFirewallRules (f : IpType) (d : Deleting) : Bool × Wan :=
  if !s.rxProp || !s.active f then (true, s)
  else if maxFirewallEntries < s.numFirewall f then (false, s)
  else
    match deleteCalls (s.filtering f) (s.calls f) d.answers with
    | (false, H) => (false, { s with filtering := Function.update s.filtering f H })
    | (true, H) =>
      (true,
        { s with
          filtering := Function.update s.filtering f (s.deleteFrag f H d.frag)
          numFirewall := Function.update s.numFirewall f 0 })

def setActive (f : IpType) (b : Bool) : Wan := { s with active := Function.update s.active f b }

end Wan

open Wan (Reading Deleting)

/-- What the handlers do for one family. -/
inductive Op
  /-- `handle_route_add_evt`; `reaches` says whether it gets to the place where the flag is set -/
  | routeAdd (f : IpType) (reaches : Bool) (r : Reading)
  /-- a default route that goes, and the link that goes down; `gone` says whether
  `handle_route_del_evt` gets to the place where the flag is cleared -/
  | routeDel (f : IpType) (d : Deleting) (gone : Bool)
  | firewallChange (f : IpType) (d : Deleting) (r : Reading)

namespace Wan

variable (s : Wan)

def exec : Op → Wan
  | .routeAdd f reaches r =>
    if s.active f || !reaches then s else ((s.setActive f true).configDftFirewallRules f r).2
  | .routeDel f d gone =>
    if !s.active f then s
    else if gone then (s.delDftFirewallRules f d).2.setActive f false
    else (s.delDftFirewallRules f d).2
  | .firewallChange f d r =>
    if !s.active f then s else ((s.delDftFirewallRules f d).2.configDftFirewallRules f r).2

/-- An instance behind its constructor, which leaves the handles as the memory has them. -/
def new (rxProp : Bool) (firewallHdl : IpType → Nat → Nat) (slotHdl : Slot → Nat) : Wan :=
  { rxProp, firewallHdl, slotHdl }

/-! ## What is recorded -/

def recorded (f : IpType) : Multiset Nat :=
  if s.rxProp && s.active f then
    ↑((below (s.firewallHdl f) (s.numFirewall f) ++ (slots f).map s.slotHdl).filter (· ≠ 0))
  else 0

/-- The rules in the hardware are the recorded ones, no other handle was passed on, and no write
was out of range. -/
structure Exact : Prop where
  installed : ∀ f, (s.filtering f).live = s.recorded f
  missed : ∀ f, (s.filtering f).missed = []
  range : s.outOfRange = false

/-- A deletion that reports success leaves nothing. -/
def Withdraws (f : IpType) (d : Deleting) : Prop :=
  (s.delDftFirewallRules f d).1 = true → ((s.delDftFirewallRules f d).2.filtering f).live = 0

def Keeps (s : Wan) (op : Op) : Prop :=
  (s.exec op).Exact ∧
    match op with
    | .routeAdd .. => True
    | .routeDel f d _ => s.Withdraws f d
    | .firewallChange f d _ => s.Withdraws f d

/-! ## When the rules are kept -/

end Wan

def reached : List Step → (Nat → AddAnswer) → List Step
  | [], _ => []
  | step :: rest, answers =>
    match answers 0 with
    | .failed => []
    | _ => step :: reached rest fun k => answers (k + 1)

def NoneRejected : List Step → (Nat → AddAnswer) → Prop
  | [], _ => True
  | step :: rest, answers =>
    match answers 0 with
    | .failed => True
    | .rejected => step = .table ∧ NoneRejected rest fun k => answers (k + 1)
    | .added _ => NoneRejected rest fun k => answers (k + 1)

def slotsIn (steps : List Step) : List Slot :=
  steps.filterMap fun
    | .slot x => some x
    | _ => none

def entriesIn (steps : List Step) : Nat := steps.count .entry

def DelAnswer.Clears (answer : DelAnswer) (hdls : List Nat) : Prop :=
  answer.mem = true ∧ ∀ i hdl, hdls[i]? = some hdl → hdl ≠ 0 → answer.ok i = true

/-- The call fails before it has deleted a handle. -/
def DelAnswer.Stops (answer : DelAnswer) (hdls : List Nat) : Prop :=
  answer.mem = false ∨
    ∃ i hdl, hdls[i]? = some hdl ∧ hdl ≠ 0 ∧ answer.ok i = false ∧ ∀ j < i, hdls[j]? = some 0

def ClearsCalls : List (List Nat) → (Nat → DelAnswer) → Prop
  | [], _ => True
  | hdls :: calls, answers =>
    (answers 0).Clears hdls ∧ ClearsCalls calls fun k => answers (k + 1)

def StopsCalls : List (List Nat) → (Nat → DelAnswer) → Prop
  | [], _ => False
  | hdls :: calls, answers =>
    (answers 0).Stops hdls ∨
      (∀ hdl ∈ hdls, hdl = 0) ∧ StopsCalls calls fun k => answers (k + 1)

namespace Wan

variable (s : Wan)

/-- No rule is rejected, the entries fit in the array, and no slot that is left out of the
configuration has a handle from before. -/
structure Installs (f : IpType) (r : Reading) : Prop where
  accepted : NoneRejected (r.steps f) r.answers
  fit : entriesIn (reached (r.steps f) r.answers) ≤ maxFirewallEntries
  blank : ∀ x ∈ slots f, x ∉ slotsIn (reached (r.steps f) r.answers) → s.slotHdl x = 0

def Clears (f : IpType) (d : Deleting) : Prop :=
  ClearsCalls (s.calls f) d.answers ∧
    ∀ x ∈ fragSlots f, s.slotHdl x ≠ 0 → d.frag.Clears [s.slotHdl x]

def Stops (f : IpType) (d : Deleting) : Prop := StopsCalls (s.calls f) d.answers

def Reading.AddsNothing (r : Reading) (f : IpType) : Prop :=
  ∀ step ∈ reached (r.steps f) r.answers, step = .table

/-- What is recorded is deleted before the flag is cleared and before other rules are installed,
and a configuration leaves no slot with an old handle. -/
def Cond : Op → Prop
  | .routeAdd f reaches r =>
    s.active f = false → reaches = true → s.rxProp = true → s.Installs f r
  | .routeDel f d gone =>
    s.active f = true →
      s.recorded f = 0 ∨ (s.Clears f d ∧ gone = true) ∨ (s.Stops f d ∧ gone = false)
  | .firewallChange f d r =>
    s.active f = true → s.rxProp = true →
      ((s.recorded f = 0 ∨ s.Clears f d) ∧ s.Installs f r) ∨ (s.Stops f d ∧ r.AddsNothing f)

end Wan

/-! ## Deletions -/

section Deletions

variable {H : Handles} {held : Multiset Nat} {hdls : List Nat} {answer : DelAnswer}
  {callList : List (List Nat)} {answers : Nat → DelAnswer}

open Wan

theorem deleteFilteringRule_true (H : Handles) (hdl : Nat) :
    deleteFilteringRule H hdl true = H.del hdl := rfl

theorem deleteFilteringRule_false {hdl : Nat} (h : hdl ∈ H.live) :
    deleteFilteringRule H hdl false = H := by
  simp [deleteFilteringRule, h]

theorem deleteLoop_clears {ok : Nat → Bool}
    (hok : ∀ i hdl, hdls[i]? = some hdl → hdl ≠ 0 → ok i = true)
    (h : H.Owned (↑(hdls.filter (· ≠ 0)) + held)) :
    ∃ H', deleteLoop H hdls ok = (true, H') ∧ H'.Owned held := by
  induction hdls generalizing H ok with
  | nil => exact ⟨H, rfl, h.congr (by simp)⟩
  | cons hdl hdls ih =>
    have hrest : ∀ i hdl, hdls[i]? = some hdl → hdl ≠ 0 → ok (i + 1) = true :=
      fun i hdl hi hne => hok (i + 1) hdl (by simpa using hi) hne
    unfold deleteLoop
    by_cases hzero : hdl = 0
    · simp_all
    · rw [if_neg hzero, if_pos (hok 0 hdl rfl hzero), deleteFilteringRule_true]
      refine ih hrest (Handles.Owned.del (h.congr ?_))
      rw [List.filter_cons_of_pos (by simpa using hzero), ← Multiset.cons_coe, Multiset.cons_add]

theorem deleteLoop_zeros {ok : Nat → Bool} (h : ∀ hdl ∈ hdls, hdl = 0) :
    deleteLoop H hdls ok = (true, H) := by
  induction hdls generalizing ok with
  | nil => rfl
  | cons hdl hdls ih =>
    simp_all [deleteLoop]

theorem deleteLoop_stops {ok : Nat → Bool} {i hdl : Nat} (hi : hdls[i]? = some hdl)
    (hne : hdl ≠ 0) (hok : ok i = false) (hbefore : ∀ j < i, hdls[j]? = some 0)
    (hlive : hdl ∈ H.live) : deleteLoop H hdls ok = (false, H) := by
  induction hdls generalizing i ok with
  | nil => cases hi
  | cons first hdls ih =>
    unfold deleteLoop
    cases i with
    | zero =>
      simp_all [deleteFilteringRule_false]
    | succ i =>
      have hfirst : first = 0 := by simpa using hbefore 0 (Nat.succ_pos i)
      rw [if_pos hfirst]
      refine ih (i := i) (by simpa using hi) hok fun j hj => ?_
      simpa using hbefore (j + 1) (by omega)

theorem deleteFilteringHdls_clears (hclears : answer.Clears hdls)
    (h : H.Owned (↑(hdls.filter (· ≠ 0)) + held)) :
    ∃ H', deleteFilteringHdls H hdls answer = (true, H') ∧ H'.Owned held := by
  unfold deleteFilteringHdls
  rw [hclears.1]
  exact deleteLoop_clears hclears.2 h

theorem deleteFilteringHdls_zeros (h : ∀ hdl ∈ hdls, hdl = 0) :
    deleteFilteringHdls H hdls answer = (answer.mem, H) := by
  unfold deleteFilteringHdls
  cases answer.mem with
  | false => rfl
  | true => exact deleteLoop_zeros h

theorem deleteFilteringHdls_stops (hstops : answer.Stops hdls)
    (hlive : ∀ hdl ∈ hdls, hdl ≠ 0 → hdl ∈ H.live) :
    deleteFilteringHdls H hdls answer = (false, H) := by
  unfold deleteFilteringHdls
  obtain hmem | ⟨i, hdl, hi, hne, hok, hbefore⟩ := hstops
  · rw [hmem]
    rfl
  grind [deleteLoop_stops]

theorem deleteCalls_clears (hclears : ClearsCalls callList answers)
    (h : H.Owned (↑(callList.flatten.filter (· ≠ 0)) + held)) :
    ∃ H', deleteCalls H callList answers = (true, H') ∧ H'.Owned held := by
  induction callList generalizing H answers with
  | nil => exact ⟨H, rfl, h.congr (by simp)⟩
  | cons hdls callList ih =>
    obtain ⟨H', heq, hH'⟩ := deleteFilteringHdls_clears hclears.1 (h.congr (by
      rw [List.flatten_cons, List.filter_append, ← Multiset.coe_add, add_assoc]))
    unfold deleteCalls
    rw [heq]
    exact ih hclears.2 hH'

theorem deleteCalls_zeros (h : ∀ hdls ∈ callList, ∀ hdl ∈ hdls, hdl = 0) :
    (deleteCalls H callList answers).2 = H := by
  induction callList generalizing answers with
  | nil => rfl
  | cons hdls callList ih =>
    grind [deleteCalls, deleteFilteringHdls_zeros]

theorem deleteCalls_stops (hstops : StopsCalls callList answers)
    (hlive : ∀ hdls ∈ callList, ∀ hdl ∈ hdls, hdl ≠ 0 → hdl ∈ H.live) :
    deleteCalls H callList answers = (false, H) := by
  induction callList generalizing answers with
  | nil => exact hstops.elim
  | cons hdls callList ih =>
    unfold deleteCalls
    obtain hfirst | ⟨hzero, hrest⟩ := hstops
    · rw [deleteFilteringHdls_stops hfirst (hlive hdls List.mem_cons_self)]
    grind [deleteFilteringHdls_zeros]

end Deletions

/-! ## One family beside the other -/

/-- What a call for the family `f` leaves as it is. -/
structure Leaves (f : IpType) (s t : Wan) : Prop where
  rxProp : t.rxProp = s.rxProp
  active : t.active = s.active
  firewallHdl : ∀ g, g ≠ f → t.firewallHdl g = s.firewallHdl g
  numFirewall : ∀ g, g ≠ f → t.numFirewall g = s.numFirewall g
  filtering : ∀ g, g ≠ f → t.filtering g = s.filtering g
  slotHdl : ∀ x, x ∉ slots f → t.slotHdl x = s.slotHdl x

variable {f g : IpType} {s t u : Wan} {steps : List Step} {rule : Nat}

theorem Leaves.refl (s : Wan) : Leaves f s s :=
  ⟨rfl, rfl, fun _ _ => rfl, fun _ _ => rfl, fun _ _ => rfl, fun _ _ => rfl⟩

theorem Leaves.trans (h : Leaves f s t) (h' : Leaves f t u) : Leaves f s u where
  rxProp := h'.rxProp.trans h.rxProp
  active := h'.active.trans h.active
  firewallHdl g hg := (h'.firewallHdl g hg).trans (h.firewallHdl g hg)
  numFirewall g hg := (h'.numFirewall g hg).trans (h.numFirewall g hg)
  filtering g hg := (h'.filtering g hg).trans (h.filtering g hg)
  slotHdl x hx := (h'.slotHdl x hx).trans (h.slotHdl x hx)

theorem slots_disjoint {x : Slot} (hg : g ≠ f) (hx : x ∈ slots g) : x ∉ slots f := by
  revert x
  cases f <;> cases g <;> first | exact absurd rfl hg | decide

namespace Wan

theorem leaves_filtering (s : Wan) (H : Handles) :
    Leaves f s { s with filtering := Function.update s.filtering f H } where
  rxProp := rfl
  active := rfl
  firewallHdl _ _ := rfl
  numFirewall _ _ := rfl
  filtering _ hg := Function.update_of_ne hg _ _
  slotHdl _ _ := rfl

theorem leaves_recordEntry (s : Wan) (rule hdl : Nat) : Leaves f s (s.recordEntry f rule hdl) where
  rxProp := rfl
  active := rfl
  firewallHdl _ hg := Function.update_of_ne hg _ _
  numFirewall _ hg := Function.update_of_ne hg _ _
  filtering _ _ := rfl
  slotHdl _ _ := rfl

theorem leaves_recordSlot {x : Slot} (hx : x ∈ slots f) (s : Wan) (hdl : Nat) :
    Leaves f s (s.recordSlot x hdl) where
  rxProp := rfl
  active := rfl
  firewallHdl _ _ := rfl
  numFirewall _ _ := rfl
  filtering _ _ := rfl
  slotHdl y hy := Function.update_of_ne (fun heq : y = x => hy (heq ▸ hx)) _ _

theorem leaves_addFilteringRule {hdl : Nat} {answer : AddAnswer}
    (h : s.addFilteringRule f answer = some (hdl, t)) : Leaves f s t := by
  cases answer with
  | failed => cases h
  | rejected =>
    cases h
    exact Leaves.refl s
  | added fresh =>
    cases h
    exact leaves_filtering s _

theorem leaves_runSteps (hslots : ∀ x, .slot x ∈ steps → x ∈ slots f) (s : Wan) (rule : Nat)
    (answers : Nat → AddAnswer) : Leaves f s (runSteps f s rule steps answers).2 := by
  induction steps generalizing s rule answers with
  | nil => exact Leaves.refl s
  | cons step rest ih =>
    replace ih := ih fun x hx => hslots x (List.mem_cons_of_mem _ hx)
    cases step with
    | table =>
      unfold runSteps
      split
      · exact Leaves.refl s
      · exact ih _ _ _
    | entry =>
      unfold runSteps
      split
      · exact Leaves.refl s
      · rename_i hdl t hadd
        exact (leaves_addFilteringRule hadd).trans
          ((leaves_recordEntry t rule hdl).trans (ih _ _ _))
    | slot x =>
      unfold runSteps
      split
      · exact Leaves.refl s
      · rename_i hdl t hadd
        have hx := hslots x List.mem_cons_self
        exact (leaves_addFilteringRule hadd).trans
          ((leaves_recordSlot hx t hdl).trans (ih _ _ _))

end Wan

/-! ## Configurations -/

theorem slot_notMem_entrySteps (c : Firewall) (ipVsn : Nat) (x : Slot) :
    .slot x ∉ c.entrySteps ipVsn := by
  grind [Firewall.entrySteps, Entry.steps]

theorem slotsIn_entrySteps (c : Firewall) (ipVsn : Nat) : slotsIn (c.entrySteps ipVsn) = [] := by
  refine List.filterMap_eq_nil_iff.mpr fun step hstep => ?_
  cases step with
  | slot x => exact absurd hstep (slot_notMem_entrySteps c ipVsn x)
  | table => rfl
  | entry => rfl

theorem mem_slotsIn {x : Slot} : x ∈ slotsIn steps ↔ .slot x ∈ steps := by
  unfold slotsIn
  grind

theorem slotsIn_append (a b : List Step) : slotsIn (a ++ b) = slotsIn a ++ slotsIn b :=
  List.filterMap_append

theorem slotsIn_entries (c : Firewall) (ipVsn : Nat) (rest : List Step) :
    slotsIn (.table :: c.entrySteps ipVsn ++ rest) = slotsIn rest := by
  grind [slotsIn, slotsIn_entrySteps]

def writtenSlots (enable : Bool) : IpType → List Slot
  | .v4 => [.dft 0]
  | .v6 => if enable then [.frag, .dft 2, .dft 1] else [.dft 2, .dft 1]

theorem slotsIn_steps (c : Firewall) (f : IpType) :
    slotsIn (c.steps f) = writtenSlots c.firewallEnable f := by
  unfold writtenSlots
  cases f with
  | v4 =>
    simp only [Firewall.steps]
    split
    · rfl
    · exact slotsIn_entries c 4 _
  | v6 =>
    simp only [Firewall.steps]
    rw [slotsIn_append]
    split_ifs
    · rfl
    · rw [slotsIn_entries]
      rfl
    · rfl
    · rw [slotsIn_entries]
      rfl

theorem slotsIn_steps_wellFormed (c : Firewall) (f : IpType) :
    (slotsIn (c.steps f)).Nodup ∧ ∀ x ∈ slotsIn (c.steps f), x ∈ slots f := by
  rw [slotsIn_steps]
  generalize c.firewallEnable = enable
  revert enable
  cases f <;> decide

theorem reached_sublist (steps : List Step) (answers : Nat → AddAnswer) :
    (reached steps answers).Sublist steps := by
  induction steps generalizing answers with
  | nil => exact .slnil
  | cons step rest ih =>
    unfold reached
    split
    · exact List.nil_sublist _
    · exact (ih _).cons_cons step

theorem slotsIn_sublist {a b : List Step} (h : a.Sublist b) : (slotsIn a).Sublist (slotsIn b) :=
  h.filterMap _

namespace Wan

def held (s : Wan) (f : IpType) (written : List Slot) : Multiset Nat :=
  ↑(below (s.firewallHdl f) (s.numFirewall f) ++ written.map s.slotHdl)

structure Installed (f : IpType) (s : Wan) (rule : Nat) (written : List Slot) (done : List Step)
    (t : Wan) : Prop where
  num : t.numFirewall f = rule + entriesIn done
  owned : (t.filtering f).Owned (t.held f (written ++ slotsIn done))
  range : t.outOfRange = false
  slotHdl : ∀ x, x ∉ slotsIn done → t.slotHdl x = s.slotHdl x

theorem owned_recordEntry {written : List Slot} {hdl : Nat} {fresh : Fresh}
    (hnum : s.numFirewall f = rule) (h : (s.filtering f).Owned (s.held f written))
    (hadd : s.addFilteringRule f (.added fresh) = some (hdl, t)) :
    ((t.recordEntry f rule hdl).filtering f).Owned ((t.recordEntry f rule hdl).held f written) := by
  cases hadd
  unfold held recordEntry
  dsimp only
  rw [Function.update_self, Function.update_self, Function.update_self, ← hnum, below_update,
    List.append_assoc]
  refine (h.add fresh).congr ?_
  exact Multiset.coe_eq_coe.mpr List.perm_middle.symm

theorem owned_recordSlot {written : List Slot} {x : Slot} {hdl : Nat} {fresh : Fresh}
    (hx : x ∉ written) (h : (s.filtering f).Owned (s.held f written))
    (hadd : s.addFilteringRule f (.added fresh) = some (hdl, t)) :
    ((t.recordSlot x hdl).filtering f).Owned ((t.recordSlot x hdl).held f (written ++ [x])) := by
  cases hadd
  have hmap : written.map (Function.update s.slotHdl x ((s.filtering f).add fresh).1) =
      written.map s.slotHdl :=
    List.map_congr_left fun y hy => Function.update_of_ne (fun heq : y = x => hx (heq ▸ hy)) _ _
  unfold held recordSlot
  dsimp only
  rw [Function.update_self, List.map_append, hmap, List.map_singleton, Function.update_self,
    ← List.append_assoc]
  refine (h.add fresh).congr ?_
  exact Multiset.coe_eq_coe.mpr (List.perm_append_singleton _ _).symm

theorem Installed.of_entry {written : List Slot} {hdl : Nat} {fresh : Fresh} {done : List Step}
    (hadd : s.addFilteringRule f (.added fresh) = some (hdl, t))
    (h : Installed f (t.recordEntry f rule hdl) (rule + 1) written done u) :
    Installed f s rule written (.entry :: done) u := by
  cases hadd
  have hentries : entriesIn (.entry :: done) = entriesIn done + 1 := List.count_cons_self
  refine ⟨?_, h.owned, h.range, h.slotHdl⟩
  rw [h.num, hentries]
  omega

theorem Installed.of_slot {written : List Slot} {x : Slot} {hdl : Nat} {fresh : Fresh}
    {done : List Step} (hadd : s.addFilteringRule f (.added fresh) = some (hdl, t))
    (h : Installed f (t.recordSlot x hdl) rule (written ++ [x]) done u) :
    Installed f s rule written (.slot x :: done) u := by
  cases hadd
  have hslots : slotsIn (.slot x :: done) = x :: slotsIn done := rfl
  have hentries : entriesIn (.slot x :: done) = entriesIn done :=
    List.count_cons_of_ne Step.noConfusion
  refine ⟨?_, ?_, h.range, fun y hy => ?_⟩
  · rw [h.num, hentries]
  · rw [hslots, List.append_cons]
    exact h.owned
  · rw [hslots, List.mem_cons, not_or] at hy
    rw [h.slotHdl y hy.2]
    exact Function.update_of_ne hy.1 _ _

theorem installed_nothing {written : List Slot} (hnum : s.numFirewall f = rule)
    (howned : (s.filtering f).Owned (s.held f written)) (hrange : s.outOfRange = false) :
    Installed f s rule written [] s :=
  ⟨hnum, howned.congr (by simp [slotsIn]), hrange, fun _ _ => rfl⟩

theorem runSteps_installed {written : List Slot} {answers : Nat → AddAnswer}
    (hnum : s.numFirewall f = rule) (howned : (s.filtering f).Owned (s.held f written))
    (hrange : s.outOfRange = false) (haccepted : NoneRejected steps answers)
    (hnodup : (written ++ slotsIn steps).Nodup)
    (hfit : rule + entriesIn (reached steps answers) ≤ maxFirewallEntries) :
    Installed f s rule written (reached steps answers) (runSteps f s rule steps answers).2 := by
  induction steps generalizing s rule written answers with
  | nil => exact installed_nothing hnum howned hrange
  | cons step rest ih =>
    unfold NoneRejected at haccepted
    unfold reached at hfit ⊢
    cases hanswer : answers 0 with
    | failed =>
      have hend : runSteps f s rule (step :: rest) answers = (false, s) := by
        cases step <;> simp only [runSteps, addFilteringRule, hanswer]
      simp_all [installed_nothing]
    | rejected =>
      rw [hanswer] at haccepted hfit
      obtain ⟨rfl, haccepted⟩ := haccepted
      have hnext : runSteps f s rule (.table :: rest) answers =
          runSteps f s rule rest fun k => answers (k + 1) := by
        simp only [runSteps, hanswer]
      rw [hnext]
      obtain ⟨num, owned, range, slotHdl⟩ := ih hnum howned hrange haccepted hnodup hfit
      exact ⟨num, owned, range, slotHdl⟩
    | added fresh =>
      rw [hanswer] at haccepted hfit
      dsimp only at haccepted hfit ⊢
      cases step with
      | table =>
        have hnext : runSteps f s rule (.table :: rest) answers =
            runSteps f s rule rest fun k => answers (k + 1) := by
          simp only [runSteps, hanswer]
        rw [hnext]
        obtain ⟨num, owned, range, slotHdl⟩ := ih hnum howned hrange haccepted hnodup hfit
        exact ⟨num, owned, range, slotHdl⟩
      | entry =>
        obtain ⟨hdl, t, hadd⟩ : ∃ hdl t, s.addFilteringRule f (.added fresh) = some (hdl, t) :=
          ⟨_, _, rfl⟩
        have hnext : runSteps f s rule (.entry :: rest) answers =
            runSteps f (t.recordEntry f rule hdl) (rule + 1) rest fun k => answers (k + 1) := by
          simp only [runSteps, hanswer, hadd]
        have hentries : entriesIn (.entry :: reached rest fun k => answers (k + 1)) =
            entriesIn (reached rest fun k => answers (k + 1)) + 1 := List.count_cons_self
        rw [hnext]
        refine .of_entry hadd (ih ?_ (owned_recordEntry hnum howned hadd) ?_ haccepted hnodup
          (by omega))
        · cases hadd
          exact (Function.update_self ..).trans (congrArg (· + 1) hnum)
        · cases hadd
          show (s.outOfRange || decide (maxFirewallEntries ≤ rule)) = false
          rw [hrange, Bool.false_or, decide_eq_false (by omega)]
      | slot x =>
        obtain ⟨hdl, t, hadd⟩ : ∃ hdl t, s.addFilteringRule f (.added fresh) = some (hdl, t) :=
          ⟨_, _, rfl⟩
        have hnext : runSteps f s rule (.slot x :: rest) answers =
            runSteps f (t.recordSlot x hdl) rule rest fun k => answers (k + 1) := by
          simp only [runSteps, hanswer, hadd]
        have hslots : slotsIn (.slot x :: rest) = x :: slotsIn rest := rfl
        rw [hslots, List.append_cons] at hnodup
        rw [hnext]
        have hx : x ∉ written := by
          grind
        refine .of_slot hadd (ih ?_ (owned_recordSlot hx howned hadd) ?_ haccepted hnodup hfit)
        · cases hadd
          exact hnum
        · cases hadd
          exact hrange

/-! ## What holds between two handlers -/

structure SoundAt (s : Wan) (f : IpType) : Prop where
  owned : (s.filtering f).Owned (s.recorded f)
  few : s.numFirewall f ≤ maxFirewallEntries
  entries : ∀ i < s.numFirewall f, s.firewallHdl f i ≠ 0
  idle : (s.rxProp && s.active f) = false → s.numFirewall f = 0

structure Sound (s : Wan) : Prop where
  families : ∀ f, s.SoundAt f
  range : s.outOfRange = false

theorem Sound.exact (h : s.Sound) : s.Exact where
  installed f := (h.families f).owned.live
  missed f := (h.families f).owned.missed
  range := h.range

theorem new_sound (rxProp : Bool) (firewallHdl : IpType → Nat → Nat) (slotHdl : Slot → Nat) :
    (new rxProp firewallHdl slotHdl).Sound where
  families f := by
    have hidle : (new rxProp firewallHdl slotHdl).recorded f = 0 := by
      simp [recorded, new]
    refine ⟨?_, Nat.zero_le _, fun i hi => absurd hi (Nat.not_lt_zero i), fun _ => rfl⟩
    rw [hidle]
    exact Handles.owned_empty
  range := rfl

theorem SoundAt.congr (h : s.SoundAt g) (hrx : t.rxProp = s.rxProp)
    (hactive : t.active g = s.active g) (hhdl : t.firewallHdl g = s.firewallHdl g)
    (hnum : t.numFirewall g = s.numFirewall g) (hfiltering : t.filtering g = s.filtering g)
    (hslots : ∀ x ∈ slots g, t.slotHdl x = s.slotHdl x) : t.SoundAt g := by
  have hrecorded : t.recorded g = s.recorded g := by
    simp_all [recorded, List.map_congr_left]
  refine ⟨?_, hnum ▸ h.few, ?_, ?_⟩
  · rw [hfiltering, hrecorded]
    exact h.owned
  · rw [hnum, hhdl]
    exact h.entries
  · rw [hrx, hactive, hnum]
    exact h.idle

theorem SoundAt.of_leaves (h : s.SoundAt g) (hleaves : Leaves f s t) (hg : g ≠ f) : t.SoundAt g :=
  h.congr hleaves.rxProp (congrFun hleaves.active g) (hleaves.firewallHdl g hg)
    (hleaves.numFirewall g hg) (hleaves.filtering g hg)
    fun x hx => hleaves.slotHdl x (slots_disjoint hg hx)

theorem SoundAt.num_eq_zero (h : s.SoundAt f) (hzero : s.recorded f = 0) :
    s.numFirewall f = 0 := by
  cases hon : s.rxProp && s.active f with
  | false => exact h.idle hon
  | true =>
    by_contra hne
    have hpos : 0 < s.numFirewall f := Nat.pos_of_ne_zero hne
    have hmem : s.firewallHdl f 0 ∈ s.recorded f := by
      unfold recorded
      rw [if_pos hon, Multiset.mem_coe, List.mem_filter]
      exact ⟨List.mem_append_left _ (mem_below.mpr ⟨0, hpos, rfl⟩),
        decide_eq_true (h.entries 0 hpos)⟩
    simp_all

theorem recorded_off (hoff : (s.rxProp && s.active f) = false) : s.recorded f = 0 := by
  simp [recorded, hoff]

theorem on_of_recorded (hne : s.recorded f ≠ 0) : (s.rxProp && s.active f) = true := by
  by_contra hoff
  exact hne (recorded_off (Bool.not_eq_true _ ▸ hoff))

/-! ## A configuration -/

theorem nodup_slots (f : IpType) : (slots f).Nodup := by
  cases f <;> decide

theorem recorded_of_installed {done : List Step} (h : Installed f s 0 [] done t)
    (hon : (t.rxProp && t.active f) = true) (hnodup : (slotsIn done).Nodup)
    (hsub : ∀ x ∈ slotsIn done, x ∈ slots f)
    (hblank : ∀ x ∈ slots f, x ∉ slotsIn done → s.slotHdl x = 0) :
    t.recorded f = t.held f (slotsIn done) := by
  have hne : ∀ hdl ∈ t.held f (slotsIn done), hdl ≠ 0 := fun hdl hmem => h.owned.ne_zero hmem
  have hbelow : (below (t.firewallHdl f) (t.numFirewall f)).filter (· ≠ 0) =
      below (t.firewallHdl f) (t.numFirewall f) :=
    List.filter_eq_self.mpr fun hdl hmem =>
      decide_eq_true (hne hdl (Multiset.mem_coe.mpr (List.mem_append_left _ hmem)))
  have hslots : ((slots f).filter fun x => t.slotHdl x ≠ 0).Perm (slotsIn done) := by
    refine (List.perm_ext_iff_of_nodup ((nodup_slots f).filter _) hnodup).mpr fun x => ?_
    rw [List.mem_filter, decide_eq_true_eq]
    constructor
    · rintro ⟨hx, hslot⟩
      by_contra hdone
      exact hslot ((h.slotHdl x hdone).trans (hblank x hx hdone))
    · intro hx
      exact ⟨hsub x hx, hne _ (Multiset.mem_coe.mpr
        (List.mem_append_right _ (List.mem_map_of_mem hx)))⟩
  unfold recorded held
  rw [if_pos hon, List.filter_append, hbelow, List.filter_map]
  exact Multiset.coe_eq_coe.mpr ((hslots.map t.slotHdl).append_left _)

theorem configDftFirewallRules_eq (hrx : s.rxProp = true) (f : IpType) (r : Reading) :
    (s.configDftFirewallRules f r).2 = (runSteps f s 0 (r.steps f) r.answers).2 := by
  unfold configDftFirewallRules Reading.steps
  rw [hrx]
  cases r.mem <;> rfl

theorem configDftFirewallRules_ignores (hrx : s.rxProp = false) (f : IpType) (r : Reading) :
    s.configDftFirewallRules f r = (true, s) := by
  unfold configDftFirewallRules
  rw [hrx]
  rfl

theorem slotsIn_reading (r : Reading) (f : IpType) :
    (slotsIn (r.steps f)).Nodup ∧ ∀ x ∈ slotsIn (r.steps f), x ∈ slots f := by
  unfold Reading.steps
  split
  · exact slotsIn_steps_wellFormed r.firewall f
  · exact ⟨List.nodup_nil, fun x hx => absurd hx List.not_mem_nil⟩

theorem leaves_configDftFirewallRules (s : Wan) (f : IpType) (r : Reading) :
    Leaves f s (s.configDftFirewallRules f r).2 := by
  cases hrx : s.rxProp with
  | false =>
    rw [configDftFirewallRules_ignores hrx]
    exact Leaves.refl s
  | true =>
    rw [configDftFirewallRules_eq hrx]
    exact leaves_runSteps (fun x hx => (slotsIn_reading r f).2 x (mem_slotsIn.mpr hx)) s 0 _

theorem configDftFirewallRules_sound {r : Reading} (hrx : s.rxProp = true)
    (hactive : s.active f = true) (hnum : s.numFirewall f = 0)
    (howned : (s.filtering f).Owned 0) (hrange : s.outOfRange = false) (h : s.Installs f r) :
    (s.configDftFirewallRules f r).2.SoundAt f ∧
      (s.configDftFirewallRules f r).2.outOfRange = false := by
  have hleaves := leaves_configDftFirewallRules s f r
  obtain ⟨hnodup, hsub⟩ := slotsIn_reading r f
  have hreached := slotsIn_sublist (reached_sublist (r.steps f) r.answers)
  have hheld : s.held f [] = 0 := by
    unfold held
    rw [hnum]
    rfl
  have hinst : Installed f s 0 [] (reached (r.steps f) r.answers)
      (s.configDftFirewallRules f r).2 := by
    simp [configDftFirewallRules_eq, runSteps_installed, hrx, hnum, hheld, howned, hrange,
      h.accepted, hnodup, h.fit]
  have hon : ((s.configDftFirewallRules f r).2.rxProp &&
      (s.configDftFirewallRules f r).2.active f) = true := by
    rw [hleaves.rxProp, hleaves.active, hrx, hactive]
    rfl
  have hrecorded := recorded_of_installed hinst hon (hnodup.sublist hreached)
    (fun x hx => hsub x (hreached.subset hx)) h.blank
  refine ⟨⟨?_, ?_, fun i hi => ?_, fun hidle => ?_⟩, hinst.range⟩
  · rw [hrecorded]
    exact hinst.owned
  · rw [hinst.num, Nat.zero_add]
    exact h.fit
  · exact hinst.owned.ne_zero (Multiset.mem_coe.mpr
      (List.mem_append_left _ (mem_below.mpr ⟨i, hi, rfl⟩)))
  · rw [hon] at hidle
    cases hidle

theorem runSteps_nothing {answers : Nat → AddAnswer}
    (h : ∀ step ∈ reached steps answers, step = .table) :
    (runSteps f s rule steps answers).2 = s := by
  induction steps generalizing answers with
  | nil => rfl
  | cons step rest ih =>
    unfold reached at h
    cases hanswer : answers 0 with
    | failed => cases step <;> simp only [runSteps, addFilteringRule, hanswer]
    | rejected | added fresh =>
      simp_all [runSteps]

theorem configDftFirewallRules_nothing {r : Reading} (h : r.AddsNothing f) :
    (s.configDftFirewallRules f r).2 = s := by
  cases hrx : s.rxProp with
  | false => rw [configDftFirewallRules_ignores hrx]
  | true =>
    rw [configDftFirewallRules_eq hrx]
    exact runSteps_nothing h

/-! ## A deletion -/

theorem recorded_eq (hon : (s.rxProp && s.active f) = true) :
    s.recorded f = ↑((s.calls f).flatten.filter (· ≠ 0)) +
      ↑(((fragSlots f).map s.slotHdl).filter (· ≠ 0)) := by
  have hentries : (if s.numFirewall f = 0 then []
      else [below (s.firewallHdl f) (s.numFirewall f)]).flatten =
        below (s.firewallHdl f) (s.numFirewall f) := by
    split_ifs with hzero
    · rw [hzero]
      rfl
    · rw [List.flatten_singleton]
  have hslots : ((dftSlots f).map fun x => [s.slotHdl x]).flatten = (dftSlots f).map s.slotHdl := by
    cases f <;> rfl
  simp [recorded, calls, slots, hon, hentries, hslots]

theorem mem_recorded {hdl : Nat} (hon : (s.rxProp && s.active f) = true)
    (hmem : hdl ∈ (s.calls f).flatten) (hne : hdl ≠ 0) : hdl ∈ s.recorded f := by
  simp_all [recorded_eq]

theorem deleteFrag_owned {H : Handles} {answer : DelAnswer}
    (hclears : ∀ x ∈ fragSlots f, s.slotHdl x ≠ 0 → answer.Clears [s.slotHdl x])
    (h : H.Owned ↑(((fragSlots f).map s.slotHdl).filter (· ≠ 0))) :
    (s.deleteFrag f H answer).Owned 0 := by
  cases f with
  | v4 => exact h
  | v6 =>
    show (deleteFilteringHdls H [s.slotHdl .frag] answer).2.Owned 0
    by_cases hzero : s.slotHdl .frag = 0
    · rw [deleteFilteringHdls_zeros (by simpa using hzero)]
      refine h.congr ?_
      show ↑([s.slotHdl .frag].filter _) = (0 : Multiset Nat)
      simp [hzero]
    · obtain ⟨H', heq, hH'⟩ := deleteFilteringHdls_clears
        (hclears .frag List.mem_cons_self hzero) (h.congr (add_zero _).symm)
      rw [heq]
      exact hH'

theorem deleteFrag_zero {H : Handles} {answer : DelAnswer}
    (h : ∀ x ∈ fragSlots f, s.slotHdl x = 0) : s.deleteFrag f H answer = H := by
  cases f with
  | v4 => rfl
  | v6 =>
    show (deleteFilteringHdls H [s.slotHdl .frag] answer).2 = H
    rw [deleteFilteringHdls_zeros (by simpa using h .frag List.mem_cons_self)]

theorem delDftFirewallRules_idle {d : Deleting} (hoff : (s.rxProp && s.active f) = false) :
    s.delDftFirewallRules f d = (true, s) := by
  simp_all [delDftFirewallRules]

theorem delDftFirewallRules_on {d : Deleting} (hon : (s.rxProp && s.active f) = true)
    (hfew : s.numFirewall f ≤ maxFirewallEntries) : s.delDftFirewallRules f d =
      match deleteCalls (s.filtering f) (s.calls f) d.answers with
      | (false, H) => (false, { s with filtering := Function.update s.filtering f H })
      | (true, H) =>
        (true,
          { s with
            filtering := Function.update s.filtering f (s.deleteFrag f H d.frag)
            numFirewall := Function.update s.numFirewall f 0 }) := by
  simp_all [delDftFirewallRules]

/-- A family of which nothing is installed, and what is left of the rest. -/
structure Emptied (f : IpType) (s t : Wan) : Prop where
  leaves : Leaves f s t
  slotHdl : t.slotHdl = s.slotHdl
  range : t.outOfRange = s.outOfRange
  owned : (t.filtering f).Owned 0
  num : t.numFirewall f = 0

theorem delDftFirewallRules_clears {d : Deleting} (h : s.SoundAt f)
    (hon : (s.rxProp && s.active f) = true) (hclears : s.Clears f d) :
    (s.delDftFirewallRules f d).1 = true ∧ Emptied f s (s.delDftFirewallRules f d).2 := by
  obtain ⟨H, heq, hH⟩ := deleteCalls_clears hclears.1
    (h.owned.congr (recorded_eq hon))
  have hfrag := deleteFrag_owned hclears.2 hH
  rw [delDftFirewallRules_on hon h.few, heq]
  refine ⟨rfl, ?_, rfl, rfl, ?_, Function.update_self ..⟩
  · refine ⟨rfl, rfl, fun _ _ => rfl, fun g hg => ?_, fun g hg => ?_, fun _ _ => rfl⟩
    · exact Function.update_of_ne hg _ _
    · exact Function.update_of_ne hg _ _
  simp [hfrag]

theorem delDftFirewallRules_stops {d : Deleting} (h : s.SoundAt f)
    (hon : (s.rxProp && s.active f) = true) (hstops : s.Stops f d) :
    s.delDftFirewallRules f d = (false, s) := by
  have hlive : ∀ hdls ∈ s.calls f, ∀ hdl ∈ hdls, hdl ≠ 0 → hdl ∈ (s.filtering f).live := by
    intro hdls hhdls hdl hhdl hne
    rw [h.owned.live]
    exact mem_recorded hon (List.mem_flatten.mpr ⟨hdls, hhdls, hhdl⟩) hne
  rw [delDftFirewallRules_on hon h.few, deleteCalls_stops hstops hlive]
  simp

theorem delDftFirewallRules_zeros {d : Deleting} (h : s.SoundAt f) (hzero : s.recorded f = 0) :
    (s.delDftFirewallRules f d).2 = s := by
  cases hon : s.rxProp && s.active f with
  | false => rw [delDftFirewallRules_idle hon]
  | true =>
    have hnone : ∀ hdl ∈ (s.calls f).flatten, hdl = 0 := by
      intro hdl hmem
      by_contra hne
      have hrecorded := mem_recorded hon hmem hne
      simp_all
    have hfrag : ∀ x ∈ fragSlots f, s.slotHdl x = 0 := by
      simp_all [recorded_eq]
    have hcalls : (deleteCalls (s.filtering f) (s.calls f) d.answers).2 = s.filtering f :=
      deleteCalls_zeros fun hdls hhdls hdl hhdl =>
        hnone hdl (List.mem_flatten.mpr ⟨hdls, hhdls, hhdl⟩)
    rw [delDftFirewallRules_on hon h.few]
    split
    · rename_i H heq
      rw [heq] at hcalls
      obtain rfl : H = s.filtering f := hcalls
      rw [Function.update_eq_self]
    · rename_i H heq
      rw [heq] at hcalls
      obtain rfl : H = s.filtering f := hcalls
      rw [deleteFrag_zero hfrag, Function.update_eq_self, ← h.num_eq_zero hzero,
        Function.update_eq_self]

theorem Emptied.of_zero (h : s.SoundAt f) (hzero : s.recorded f = 0) : Emptied f s s :=
  ⟨Leaves.refl s, rfl, rfl, h.owned.congr hzero, h.num_eq_zero hzero⟩

theorem delDftFirewallRules_emptied {d : Deleting} (h : s.SoundAt f)
    (hclears : s.recorded f = 0 ∨ s.Clears f d) : Emptied f s (s.delDftFirewallRules f d).2 := by
  by_cases hzero : s.recorded f = 0
  · rw [delDftFirewallRules_zeros h hzero]
    exact .of_zero h hzero
  simp [on_of_recorded, delDftFirewallRules_clears, hzero, h, hclears.resolve_left]

theorem Emptied.setActive (hs : s.Sound) (h : Emptied f s t) : (t.setActive f false).Sound := by
  have hoff : ((t.setActive f false).rxProp && (t.setActive f false).active f) = false := by
    simp [Wan.setActive]
  have hf : (t.setActive f false).SoundAt f := by
    refine ⟨?_, ?_, fun i hi => ?_, fun _ => h.num⟩
    · unfold recorded
      rw [if_neg (by rw [hoff]; exact Bool.false_ne_true)]
      exact h.owned
    · exact h.num ▸ Nat.zero_le _
    · exact absurd (h.num ▸ hi) (Nat.not_lt_zero i)
  refine ⟨fun g => ?_, h.range.trans hs.range⟩
  by_cases hg : g = f
  · exact hg ▸ hf
  · exact ((hs.families g).of_leaves h.leaves hg).congr rfl (Function.update_of_ne hg _ _) rfl rfl
      rfl fun _ _ => rfl

theorem Installs.congr {r : Reading} (h : s.Installs f r) (hslots : t.slotHdl = s.slotHdl) :
    t.Installs f r :=
  ⟨h.accepted, h.fit, fun x hx hdone => hslots ▸ h.blank x hx hdone⟩

theorem config_sound {r : Reading} (hothers : ∀ g, g ≠ f → t.SoundAt g)
    (hrange : t.outOfRange = false) (howned : (t.filtering f).Owned 0) (hnum : t.numFirewall f = 0)
    (hactive : t.active f = true) (hinstalls : t.rxProp = true → t.Installs f r) :
    (t.configDftFirewallRules f r).2.Sound := by
  have hleaves := leaves_configDftFirewallRules t f r
  cases hrx : t.rxProp with
  | false =>
    rw [configDftFirewallRules_ignores hrx]
    have hf : t.SoundAt f := by
      refine ⟨?_, hnum ▸ Nat.zero_le _, fun i hi => ?_, fun _ => hnum⟩
      · simp [recorded, hrx, howned]
      · exact absurd (hnum ▸ hi) (Nat.not_lt_zero i)
    refine ⟨fun g => ?_, hrange⟩
    by_cases hg : g = f
    · exact hg ▸ hf
    · exact hothers g hg
  | true =>
    obtain ⟨hf, hrange⟩ :=
      configDftFirewallRules_sound hrx hactive hnum howned hrange (hinstalls hrx)
    refine ⟨fun g => ?_, hrange⟩
    by_cases hg : g = f
    · exact hg ▸ hf
    · exact (hothers g hg).of_leaves hleaves hg

/-! ## The handlers -/

theorem SoundAt.withdraws {d : Deleting} (h : s.SoundAt f)
    (hd : s.recorded f = 0 ∨ s.Clears f d ∨ s.Stops f d) : s.Withdraws f d := by
  intro hsuccess
  by_cases hzero : s.recorded f = 0
  · rw [delDftFirewallRules_zeros h hzero, h.owned.live, hzero]
  · have hon := on_of_recorded hzero
    obtain hclears | hstops := hd.resolve_left hzero
    · exact (delDftFirewallRules_clears h hon hclears).2.owned.live
    simp_all [delDftFirewallRules_stops]

theorem routeAdd_sound {reaches : Bool} {r : Reading} (h : s.Sound)
    (hcond : s.Cond (.routeAdd f reaches r)) : (s.exec (.routeAdd f reaches r)).Sound := by
  simp only [exec]
  split_ifs with hskip
  · exact h
  · rw [Bool.or_eq_true, not_or, Bool.not_eq_true, Bool.not_eq_true', Bool.not_eq_false] at hskip
    obtain ⟨hoff, hreaches⟩ := hskip
    have hzero := recorded_off (s := s) (f := f) (by rw [hoff, Bool.and_false])
    have hempty := Emptied.of_zero (h.families f) hzero
    refine config_sound (fun g hg => ?_) h.range hempty.owned hempty.num (Function.update_self ..)
      fun hrx => (hcond hoff hreaches hrx).congr rfl
    exact (h.families g).congr rfl (Function.update_of_ne hg _ _) rfl rfl rfl fun _ _ => rfl

theorem routeDel_sound {d : Deleting} {gone : Bool} (h : s.Sound)
    (hcond : s.Cond (.routeDel f d gone)) :
    (s.exec (.routeDel f d gone)).Sound ∧ s.Withdraws f d := by
  cases hactive : s.active f with
  | false =>
    have hzero := recorded_off (s := s) (f := f) (by rw [hactive, Bool.and_false])
    simp only [exec, hactive]
    exact ⟨h, (h.families f).withdraws (.inl hzero)⟩
  | true =>
    simp only [exec, hactive]
    obtain hzero | ⟨hclears, rfl⟩ | ⟨hstops, rfl⟩ := hcond hactive
    · refine ⟨?_, (h.families f).withdraws (.inl hzero)⟩
      rw [delDftFirewallRules_zeros (h.families f) hzero]
      cases gone with
      | false => exact h
      | true => exact Emptied.setActive h (.of_zero (h.families f) hzero)
    · exact ⟨Emptied.setActive h (delDftFirewallRules_emptied (h.families f) (.inr hclears)),
        (h.families f).withdraws (.inr (.inl hclears))⟩
    · refine ⟨?_, (h.families f).withdraws (.inr (.inr hstops))⟩
      by_cases hzero : s.recorded f = 0
      · rw [delDftFirewallRules_zeros (h.families f) hzero]
        exact h
      · rw [delDftFirewallRules_stops (h.families f) (on_of_recorded hzero) hstops]
        exact h

theorem firewallChange_sound {d : Deleting} {r : Reading} (h : s.Sound)
    (hcond : s.Cond (.firewallChange f d r)) :
    (s.exec (.firewallChange f d r)).Sound ∧ s.Withdraws f d := by
  cases hactive : s.active f with
  | false =>
    have hzero := recorded_off (s := s) (f := f) (by rw [hactive, Bool.and_false])
    simp only [exec, hactive]
    exact ⟨h, (h.families f).withdraws (.inl hzero)⟩
  | true =>
    simp only [exec, hactive]
    have hemptied : (s.recorded f = 0 ∨ s.Clears f d) → (s.rxProp = true → s.Installs f r) →
        ((s.delDftFirewallRules f d).2.configDftFirewallRules f r).2.Sound := by
      intro hclears hinstalls
      have hempty := delDftFirewallRules_emptied (h.families f) hclears
      refine config_sound (fun g hg => (h.families g).of_leaves hempty.leaves hg)
        (hempty.range.trans h.range) hempty.owned hempty.num ?_ fun hrx => ?_
      · rw [hempty.leaves.active, hactive]
      · exact (hinstalls (hempty.leaves.rxProp.symm.trans hrx)).congr hempty.slotHdl
    cases hrx : s.rxProp with
    | false =>
      have hzero := recorded_off (s := s) (f := f) (by rw [hrx, Bool.false_and])
      refine ⟨hemptied (.inl hzero) fun htrue => ?_, (h.families f).withdraws (.inl hzero)⟩
      rw [hrx] at htrue
      cases htrue
    | true =>
      obtain ⟨hclears, hinstalls⟩ | ⟨hstops, hnothing⟩ := hcond hactive hrx
      · refine ⟨hemptied hclears fun _ => hinstalls, (h.families f).withdraws ?_⟩
        exact hclears.imp_right .inl
      · refine ⟨?_, (h.families f).withdraws (.inr (.inr hstops))⟩
        have hon : (s.rxProp && s.active f) = true := by
          rw [hrx, hactive]
          rfl
        rw [delDftFirewallRules_stops (h.families f) hon hstops,
          configDftFirewallRules_nothing hnothing]
        exact h

theorem exec_sound {op : Op} (h : s.Sound) (hcond : s.Cond op) :
    s.Keeps op ∧ (s.exec op).Sound := by
  cases op with
  | routeAdd f reaches r =>
    have hsound := routeAdd_sound h hcond
    exact ⟨⟨hsound.exact, trivial⟩, hsound⟩
  | routeDel f d gone =>
    obtain ⟨hsound, hwithdraws⟩ := routeDel_sound h hcond
    exact ⟨⟨hsound.exact, hwithdraws⟩, hsound⟩
  | firewallChange f d r =>
    obtain ⟨hsound, hwithdraws⟩ := firewallChange_sound h hcond
    exact ⟨⟨hsound.exact, hwithdraws⟩, hsound⟩

def emptyReading (enable : Bool) : Reading where
  firewall := { firewallEnable := enable }
  answers _ := .added Fresh.next

end Wan

end EtherDevice.Ipacm.StaFirewall
