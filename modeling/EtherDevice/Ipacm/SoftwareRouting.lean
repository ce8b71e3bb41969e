import Mathlib
import EtherDevice.Lib.Stock
import EtherDevice.Lib.Transition

/-!
# Software routing

`IPACM_Iface` installs a filter rule for each IP type that sends all packets of an interface to the
exception path, and deletes the two later. One flag says whether they are installed. It is set
after the second add and reset after the second delete; when the second step fails the first one
stands.

The copy of the filter attributes into the rules is left out.
-/

namespace EtherDevice.Ipacm.SoftwareRouting

open Lib

inductive IpType
  | v4
  | v6
  deriving DecidableEq

abbrev FltRule := IpType × Nat

/-- How the driver chooses the handle of a rule: not 0, and not one in use. -/
structure Driver where
  pick : IpType → List FltRule → Nat
  pick_ne_zero : ∀ ip live, pick ip live ≠ 0
  pick_notMem : ∀ ip live, (ip, pick ip live) ∉ live

/-- The handle behind the sum of those in use. -/
def Driver.next : Driver where
  pick _ live := (live.map Prod.snd).sum + 1
  pick_ne_zero _ _ := Nat.succ_ne_zero _
  pick_notMem ip live h := by
    have hle := List.le_sum_of_mem (List.mem_map_of_mem (f := Prod.snd) h)
    exact Nat.not_succ_le_self _ hle

def ipacmSuccess : Int := 0

def ipacmFailure : Int := -1

/-- `IPACM_Iface`, as far as software routing goes, and the filter rules that it has installed
for it. A delete of a rule that is not there is missed, whether or not it succeeds. -/
structure Iface where
  rxProp : Bool
  softwareRoutingFlRuleHdl : IpType → Nat := fun _ => 0
  softwareroutingAct : Bool := false
  rules : Stock FltRule := {}

/-- What the calls of one enable meet. -/
structure AddAnswers where
  memory : Bool := true
  added : IpType → Bool := fun _ => true

namespace Iface

variable (driver : Driver) (s : Iface)

def addRule (ip : IpType) : Iface :=
  let handle := driver.pick ip s.rules.live
  { s with
    softwareRoutingFlRuleHdl := fun k => if k = ip then handle else s.softwareRoutingFlRuleHdl k
    rules := s.rules.take (ip, handle) }

/-- `DeleteFilteringHdls` for one handle. The handle 0 is ignored. -/
def deleteRule (ip : IpType) (ok : Bool) : Bool × Iface :=
  let handle := s.softwareRoutingFlRuleHdl ip
  if handle = 0 then (true, s)
  else if ok = true ∨ (ip, handle) ∉ s.rules.live then
    (ok, { s with rules := s.rules.giveBack (ip, handle) })
  else (false, s)

def handleSoftwareRoutingEnable (answers : AddAnswers) : Int × Iface :=
  if s.softwareroutingAct = true then (ipacmSuccess, s)
  else if s.rxProp = false then (ipacmSuccess, s)
  else if answers.memory = false then (ipacmFailure, s)
  else if answers.added .v4 = false then (ipacmFailure, s)
  else
    let s := s.addRule driver .v4
    if answers.added .v6 = false then (ipacmFailure, s)
    else (ipacmSuccess, { s.addRule driver .v6 with softwareroutingAct := true })

def handleSoftwareRoutingDisable (deleted : IpType → Bool) : Int × Iface :=
  if s.rxProp = false then (ipacmSuccess, s)
  else if s.softwareroutingAct = false then (ipacmSuccess, s)
  else
    match s.deleteRule .v4 (deleted .v4) with
    | (false, s) => (ipacmFailure, s)
    | (true, s) =>
      match s.deleteRule .v6 (deleted .v6) with
      | (false, s) => (ipacmFailure, s)
      | (true, s) => (ipacmSuccess, { s with softwareroutingAct := false })

end Iface

inductive Op
  | enable (answers : AddAnswers)
  | disable (deleted : IpType → Bool)

def exec (driver : Driver) (s : Iface) : Op → Iface
  | .enable answers => (s.handleSoftwareRoutingEnable driver answers).2
  | .disable deleted => (s.handleSoftwareRoutingDisable deleted).2

namespace Iface

variable {driver : Driver} {s : Iface}

def recorded (s : Iface) : List FltRule :=
  if s.softwareroutingAct = true then
    [(.v6, s.softwareRoutingFlRuleHdl .v6), (.v4, s.softwareRoutingFlRuleHdl .v4)]
  else []

/-- The recorded rules are installed, no others, and no rule was deleted that was not there. -/
def Tidy (s : Iface) : Prop := s.rules.Holds s.recorded

def Nonzero (s : Iface) : Prop :=
  s.softwareroutingAct = true → ∀ ip, s.softwareRoutingFlRuleHdl ip ≠ 0

/-- A call that gets past its checks does not fail at the second of its two steps. -/
def Completes (s : Iface) : Op → Prop
  | .enable answers => s.softwareroutingAct = false → s.rxProp = true → answers.memory = true →
      answers.added .v4 = true → answers.added .v6 = true
  | .disable deleted => s.rxProp = true → s.softwareroutingAct = true → deleted .v4 = true →
      deleted .v6 = true

theorem handleSoftwareRoutingEnable_idle (answers : AddAnswers)
    (h : s.softwareroutingAct = true ∨ s.rxProp = false ∨ answers.memory = false ∨
      answers.added .v4 = false) : (s.handleSoftwareRoutingEnable driver answers).2 = s := by
  unfold handleSoftwareRoutingEnable
  split
  · rfl
  rename_i hact
  grind

theorem handleSoftwareRoutingDisable_idle (deleted : IpType → Bool)
    (h : s.rxProp = false ∨ s.softwareroutingAct = false) :
    (s.handleSoftwareRoutingDisable deleted).2 = s := by
  unfold handleSoftwareRoutingDisable
  grind

theorem Tidy.inactive (h : s.Tidy) (hact : s.softwareroutingAct = false) : s.rules.Holds [] := by
  simp_all [Tidy, recorded]

theorem Tidy.active (h : s.Tidy) (hact : s.softwareroutingAct = true) : s.rules.Holds
    [(.v6, s.softwareRoutingFlRuleHdl .v6), (.v4, s.softwareRoutingFlRuleHdl .v4)] := by
  unfold Tidy recorded at h
  rwa [if_pos hact] at h

theorem deleteRule_ok {ip : IpType} (hnonzero : s.softwareRoutingFlRuleHdl ip ≠ 0) :
    s.deleteRule ip true =
      (true, { s with rules := s.rules.giveBack (ip, s.softwareRoutingFlRuleHdl ip) }) := by
  simp [deleteRule, hnonzero]

theorem deleteRule_failed {ip : IpType} (hnonzero : s.softwareRoutingFlRuleHdl ip ≠ 0)
    (hlive : (ip, s.softwareRoutingFlRuleHdl ip) ∈ s.rules.live) :
    s.deleteRule ip false = (false, s) := by
  simp [deleteRule, hnonzero, hlive]

theorem handleSoftwareRoutingEnable_adds (answers : AddAnswers)
    (hact : s.softwareroutingAct = false) (hrx : s.rxProp = true) (hmemory : answers.memory = true)
    (hadded : answers.added .v4 = true) : (s.handleSoftwareRoutingEnable driver answers).2 =
      if answers.added .v6 = false then s.addRule driver .v4
      else { (s.addRule driver .v4).addRule driver .v6 with softwareroutingAct := true } := by
  unfold handleSoftwareRoutingEnable
  simp only [hact, hrx, hmemory, hadded, Bool.false_eq_true, Bool.true_eq_false, if_false]
  split
  · rfl
  · rfl

theorem enable_spec (htidy : s.Tidy) (hnonzero : s.Nonzero) (answers : AddAnswers) :
    (s.Completes (.enable answers) → (exec driver s (.enable answers)).Tidy ∧
      (exec driver s (.enable answers)).Nonzero) ∧
    ((exec driver s (.enable answers)).Tidy → s.Completes (.enable answers)) := by
  have hidle : s.softwareroutingAct = true ∨ s.rxProp = false ∨ answers.memory = false ∨
      answers.added .v4 = false → exec driver s (.enable answers) = s :=
    handleSoftwareRoutingEnable_idle answers
  by_cases hpast : s.softwareroutingAct = false ∧ s.rxProp = true ∧ answers.memory = true ∧
      answers.added .v4 = true
  · obtain ⟨hact, hrx, hmemory, hadded⟩ := hpast
    have hv4 := (htidy.inactive hact).take (driver.pick_notMem .v4 s.rules.live)
    have heq : exec driver s (.enable answers) = _ :=
      handleSoftwareRoutingEnable_adds answers hact hrx hmemory hadded
    rw [heq]
    split
    · rename_i hsecond
      refine ⟨fun hcompletes => ?_, fun hafter => ?_⟩
      · rw [hcompletes hact hrx hmemory hadded] at hsecond
        exact Bool.noConfusion hsecond
      · -- the rule for IPv4 stays, and the flag is not set
        exact absurd (hafter.inactive hact).live.length_eq (Nat.succ_ne_zero _)
    · rename_i hsecond
      refine ⟨fun _ => ⟨hv4.take (driver.pick_notMem .v6 _), fun _ ip => ?_⟩,
        fun _ _ _ _ _ => Bool.of_not_eq_false hsecond⟩
      cases ip with
      | v4 => exact driver.pick_ne_zero _ _
      | v6 => exact driver.pick_ne_zero _ _
  · rw [hidle (by grind)]
    exact ⟨fun _ => ⟨htidy, hnonzero⟩,
      fun _ hact hrx hmemory hadded => absurd ⟨hact, hrx, hmemory, hadded⟩ hpast⟩

theorem handleSoftwareRoutingDisable_first (deleted : IpType → Bool) (hrx : s.rxProp = true)
    (hact : s.softwareroutingAct = true) (hfirst : deleted .v4 = false)
    (hnonzero : s.softwareRoutingFlRuleHdl .v4 ≠ 0)
    (hlive : (.v4, s.softwareRoutingFlRuleHdl .v4) ∈ s.rules.live) :
    (s.handleSoftwareRoutingDisable deleted).2 = s := by
  simp_all [handleSoftwareRoutingDisable, deleteRule_failed]

theorem handleSoftwareRoutingDisable_second (deleted : IpType → Bool) (hrx : s.rxProp = true)
    (hact : s.softwareroutingAct = true) (hfirst : deleted .v4 = true)
    (hsecond : deleted .v6 = false) (hnonzero : ∀ ip, s.softwareRoutingFlRuleHdl ip ≠ 0)
    (hlive : (.v6, s.softwareRoutingFlRuleHdl .v6) ∈
      (s.rules.giveBack (.v4, s.softwareRoutingFlRuleHdl .v4)).live) :
    (s.handleSoftwareRoutingDisable deleted).2 =
      { s with rules := s.rules.giveBack (.v4, s.softwareRoutingFlRuleHdl .v4) } := by
  simp_all [deleteRule_failed, handleSoftwareRoutingDisable, deleteRule_ok]

theorem handleSoftwareRoutingDisable_both (deleted : IpType → Bool) (hrx : s.rxProp = true)
    (hact : s.softwareroutingAct = true) (hfirst : deleted .v4 = true)
    (hsecond : deleted .v6 = true) (hnonzero : ∀ ip, s.softwareRoutingFlRuleHdl ip ≠ 0) :
    (s.handleSoftwareRoutingDisable deleted).2 =
      { s with
        softwareroutingAct := false
        rules := (s.rules.giveBack (.v4, s.softwareRoutingFlRuleHdl .v4)).giveBack
          (.v6, s.softwareRoutingFlRuleHdl .v6) } := by
  simp_all [deleteRule_ok, handleSoftwareRoutingDisable]

theorem disable_spec (htidy : s.Tidy) (hnonzero : s.Nonzero) (deleted : IpType → Bool) :
    (s.Completes (.disable deleted) → (exec driver s (.disable deleted)).Tidy ∧
      (exec driver s (.disable deleted)).Nonzero) ∧
    ((exec driver s (.disable deleted)).Tidy → s.Completes (.disable deleted)) := by
  have hidle : s.rxProp = false ∨ s.softwareroutingAct = false →
      exec driver s (.disable deleted) = s := handleSoftwareRoutingDisable_idle deleted
  by_cases hpast : s.rxProp = true ∧ s.softwareroutingAct = true
  · obtain ⟨hrx, hact⟩ := hpast
    have hv4 := (htidy.active hact).perm (List.Perm.swap _ _ [])
    have hv6 := hv4.giveBack
    have hhandles := hnonzero hact
    cases hfirst : deleted .v4 with
    | false =>
      have heq : exec driver s (.disable deleted) = s := handleSoftwareRoutingDisable_first deleted
        hrx hact hfirst (hhandles .v4) (hv4.mem_iff.mpr List.mem_cons_self)
      rw [heq]
      refine ⟨fun _ => ⟨htidy, hnonzero⟩, fun _ _ _ h => ?_⟩
      simp_all
    | true =>
      cases hsecond : deleted .v6 with
      | false =>
        have heq : exec driver s (.disable deleted) = _ :=
          handleSoftwareRoutingDisable_second deleted hrx hact hfirst hsecond hhandles
            (hv6.mem_iff.mpr List.mem_cons_self)
        rw [heq]
        refine ⟨fun hcompletes => ?_, fun hafter => ?_⟩
        · rw [hcompletes hrx hact hfirst] at hsecond
          exact Bool.noConfusion hsecond
        · -- the rule for IPv4 is gone, and the flag is set
          have hlength := (hafter.active hact).live.length_eq
          rw [hv6.live.length_eq] at hlength
          exact absurd hlength (show 1 ≠ 2 by decide)
      | true =>
        have heq : exec driver s (.disable deleted) = _ :=
          handleSoftwareRoutingDisable_both deleted hrx hact hfirst hsecond hhandles
        rw [heq]
        exact ⟨fun _ => ⟨hv6.giveBack, fun h => absurd h Bool.false_ne_true⟩,
          fun _ _ _ _ => hsecond⟩
  · rw [hidle (by grind)]
    exact ⟨fun _ => ⟨htidy, hnonzero⟩, fun _ hrx hact => absurd ⟨hrx, hact⟩ hpast⟩

theorem exec_spec (driver : Driver) (htidy : s.Tidy) (hnonzero : s.Nonzero) (op : Op) :
    (s.Completes op → (exec driver s op).Tidy ∧ (exec driver s op).Nonzero) ∧
      ((exec driver s op).Tidy → s.Completes op) := by
  cases op with
  | enable answers => exact enable_spec htidy hnonzero answers
  | disable deleted => exact disable_spec htidy hnonzero deleted

end Iface

def start (rxProp : Bool) : Iface := { rxProp }

/-- The rules that are installed are the recorded ones after every call, and none was deleted
twice, exactly if each call that comes to its second step does not fail there. -/
theorem tidy_iff_completes (driver : Driver) (rxProp : Bool) (ops : List Op) :
    (start rxProp).Tidy ∧
        System.Along (fun s op => (exec driver s op).Tidy) (exec driver) ops (start rxProp) ↔
      System.Along Iface.Completes (exec driver) ops (start rxProp) := by
  have htidy : (start rxProp).Tidy := Stock.Holds.empty
  rw [and_iff_right htidy]
  refine System.along_iff (P := fun s => s.Tidy ∧ s.Nonzero) ?_ ?_ ops
    ⟨htidy, fun h => absurd h Bool.false_ne_true⟩
  · grind [Iface.exec_spec]
  simp_all [Iface.exec_spec]

/-- The second delete fails. The next call deletes the first rule again. -/
theorem not_tidy_disable : ¬ ∀ (driver : Driver) (rxProp : Bool) (ops : List Op),
    (start rxProp).Tidy ∧
      System.Along (fun s op => (exec driver s op).Tidy) (exec driver) ops (start rxProp) := by
  intro h
  have hmissed := (h .next true
    [.enable {}, .disable fun ip => decide (ip = .v4), .disable fun _ => true]).2.2.2.1.missed
  exact absurd hmissed (by decide)

end EtherDevice.Ipacm.SoftwareRouting
