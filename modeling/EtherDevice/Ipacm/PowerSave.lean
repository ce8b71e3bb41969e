import Mathlib
import EtherDevice.Ipacm.NatConsistency

/-!
# Power save and the hardware table

A client in power save should have no rule in the hardware table, so that its connections
wake it through the processor. `AddEntry` looks at both ends of a connection. `AddTable`
restores every cached connection, `ResetPwrSaveIf` every cached connection of the private end
and `UpdatePwrSaveIf` deletes those of the private end only, and goes on when the driver does
not delete a rule. `Op.Quiet` excludes the calls that meet one of these.
-/

namespace EtherDevice.Ipacm

open Lib
open IpaNati (IpaNatIpv4Rule)

/-! ## What power save should do -/

namespace NatApp

variable (a : NatApp)

def InHardware (e : NatTableEntry) : Prop :=
  e.enabled = true ∧ (e.ruleHdl, e.natRule) ∈ a.driver.live

def HeldBack (rule : IpaNatIpv4Rule) : Prop :=
  a.isPwrSaveIf rule.privateIp = true ∨ a.isPwrSaveIf rule.targetIp = true

/-- No cached connection with an end in power save is in the hardware table. -/
def PowerSaveQuiet : Prop :=
  ∀ e ∈ a.cache, a.InHardware e → ¬ a.HeldBack e.natRule

/-- The end of a connection of `ip` that is not `ip` is in power save. -/
def OtherHeld (ip : UInt32) (e : NatTableEntry) : Prop :=
  (e.privateIp = ip ∧ a.isPwrSaveIf e.targetIp = true) ∨
    (e.targetIp = ip ∧ a.isPwrSaveIf e.privateIp = true)

/-- Every cached connection of `ip` that nothing else holds back is in the hardware table. -/
def Restored (ip : UInt32) : Prop :=
  ∀ e ∈ a.cache, e.privateIp = ip ∨ e.targetIp = ip → ¬ a.OtherHeld ip e →
    a.driver.table = true → a.InHardware e

/-! ## The condition -/

def wake (ip : UInt32) : NatApp := { a with pwrSaveIfs := a.pwrSaveIfs.replace ip 0 }

def asks (ip : UInt32) (e : NatTableEntry) : Bool := e.privateIp = ip ∧ e.enabled = true

def DeletesRules (ip : UInt32) : Prop :=
  ∀ i < a.cache.length, ∀ e ∈ a.cache[i]?, a.InHardware e → e.privateIp = ip →
    a.natTableHdl ≠ 0 ∧
      a.driver.answers (a.driver.calls + (a.cache.take i).countP (asks ip)) ≠ 0

end NatApp

/-- The calls that leave no rule of a client in power save. -/
def Op.Quiet (a : NatApp) : Op → Prop
  | .addTable pubIp =>
      (a.driver.addIpv4Tbl (a.maxEntries % 2 ^ 16) a.natTableHdl).1 = true →
        pubIp = a.pubIpAddrPre → ∀ e ∈ a.cache, e.privateIp ≠ 0 → ¬ a.HeldBack e.natRule
  | .updatePwrSaveIf ip => ip ∉ a.pwrSaveIfs → 0 ∈ a.pwrSaveIfs →
      a.DeletesRules ip ∧ ∀ e ∈ a.cache, a.InHardware e → e.targetIp ≠ ip
  | .resetPwrSaveIf ip => ip ≠ 0 →
      ∀ e ∈ a.cache, e.privateIp = ip → e.enabled = false →
        ¬ (a.wake ip).HeldBack e.natRule
  | .cacheEntry rule cnt => SearchInCache a rule cnt
  | _ => True

/-! ## The driver -/

variable {d : NatDriver} {a a' : NatApp} {rule : IpaNatIpv4Rule} {tblHdl ruleHdl : Nat}
  {ip : UInt32}

/-- Handles are not zero, and there are none without a table. -/
structure DriverWf (d : NatDriver) : Prop where
  noTable : d.table = false → d.live = []
  handles : ∀ p ∈ d.live, p.1 ≠ 0

namespace DriverWf

theorem next (h : DriverWf d) : DriverWf d.next := ⟨h.noTable, h.handles⟩

theorem addRule (h : DriverWf d) : DriverWf (d.addIpv4Rule tblHdl rule).2 := by
  unfold NatDriver.addIpv4Rule
  split
  · exact h.next
  split
  · exact h.next
  rename_i hok
  push Not at hok
  obtain ⟨htable, hanswer, -⟩ := hok
  refine ⟨fun hno => absurd hno htable, ?_⟩
  intro p hp
  rcases List.mem_cons.mp hp with rfl | hp
  · exact hanswer
  · exact h.handles p hp

theorem delRule (h : DriverWf d) : DriverWf (d.delIpv4Rule tblHdl ruleHdl rule).2 := by
  unfold NatDriver.delIpv4Rule
  split
  · rename_i hok
    refine ⟨fun hno => absurd (hok.2.2.1.symm.trans hno) nofun, ?_⟩
    intro p hp
    exact h.handles p (List.mem_of_mem_filter hp)
  · exact ⟨h.noTable, h.handles⟩

theorem delTbl (h : DriverWf d) : DriverWf (d.delIpv4Tbl tblHdl).2 := by
  unfold NatDriver.delIpv4Tbl
  split
  · exact ⟨fun _ => rfl, nofun⟩
  · exact h.next

theorem addTbl (h : DriverWf d) (n : Nat) : DriverWf (d.addIpv4Tbl n tblHdl).2.2 := by
  unfold NatDriver.addIpv4Tbl
  split
  · exact h
  split
  · exact h.next
  · exact ⟨nofun, h.handles⟩

end DriverWf

theorem live_addIpv4Rule {p : Nat × IpaNatIpv4Rule}
    (hp : p ∈ (d.addIpv4Rule tblHdl rule).2.live) : p ∈ d.live ∨ p.2 = rule := by
  unfold NatDriver.addIpv4Rule at hp
  split at hp
  · exact .inl hp
  split at hp
  · exact .inl hp
  rcases List.mem_cons.mp hp with rfl | hp
  · exact .inr rfl
  · exact .inl hp

theorem live_delIpv4Rule {p : Nat × IpaNatIpv4Rule}
    (hp : p ∈ (d.delIpv4Rule tblHdl ruleHdl rule).2.live) : p ∈ d.live := by
  unfold NatDriver.delIpv4Rule at hp
  split at hp
  · exact List.mem_of_mem_filter hp
  · exact hp

/-! ## Rounds -/

def QuietFor (P : IpaNatIpv4Rule → Prop) (slots : List NatTableEntry) (d : NatDriver) : Prop :=
  ∀ e ∈ slots, e.enabled = true → (e.ruleHdl, e.natRule) ∈ d.live → P e.natRule

structure QuietRound (P : IpaNatIpv4Rule → Prop) (C : NatTableEntry → Prop)
    (body : Round → Round) : Prop where
  driver : ∀ r, DriverWf r.driver → DriverWf (body r).driver
  live : ∀ r, C r.slot → ∀ p ∈ (body r).driver.live, p ∈ r.driver.live ∨ P p.2
  slot : ∀ r, C r.slot → (body r).slot.enabled = true →
    (body r).slot = r.slot ∨ P (body r).slot.natRule

section Rounds

variable {P : IpaNatIpv4Rule → Prop} {C : NatTableEntry → Prop} {body : Round → Round}

theorem forSlots_driverWf (hbody : QuietRound P C body) (slots : List NatTableEntry)
    (h : DriverWf d) (curCnt : Int) : DriverWf (forSlots body slots d curCnt).2.1 := by
  induction slots generalizing d curCnt with
  | nil => exact h
  | cons slot slots ih => exact ih (hbody.driver _ h) _

theorem live_forSlots (hbody : QuietRound P C body) (slots : List NatTableEntry) (d : NatDriver)
    (curCnt : Int) (hC : ∀ e ∈ slots, C e) :
    ∀ p ∈ (forSlots body slots d curCnt).2.1.live, p ∈ d.live ∨ P p.2 := by
  induction slots generalizing d curCnt with
  | nil => exact fun p hp => .inl hp
  | cons slot slots ih =>
    intro p hp
    have hrest := ih (body ⟨slot, d, curCnt⟩).driver (body ⟨slot, d, curCnt⟩).curCnt
      (fun e he => hC e (List.mem_cons_of_mem slot he)) p hp
    rcases hrest with hlive | hP
    · exact hbody.live ⟨slot, d, curCnt⟩ (hC slot List.mem_cons_self) p hlive
    · exact .inr hP

theorem slot_forSlots (hbody : QuietRound P C body) (slots : List NatTableEntry) (d : NatDriver)
    (curCnt : Int) (hC : ∀ e ∈ slots, C e) :
    ∀ e ∈ (forSlots body slots d curCnt).1, e.enabled = true → e ∈ slots ∨ P e.natRule := by
  induction slots generalizing d curCnt with
  | nil => exact fun e he => absurd he List.not_mem_nil
  | cons slot slots ih =>
    intro e he hen
    rcases List.mem_cons.mp he with rfl | he
    · rcases hbody.slot ⟨slot, d, curCnt⟩ (hC slot List.mem_cons_self) hen with heq | hP
      · exact .inl (List.mem_cons.mpr (.inl heq))
      · exact .inr hP
    grind

theorem QuietFor.forSlots {slots : List NatTableEntry} (h : QuietFor P slots d)
    (hbody : QuietRound P C body) (curCnt : Int) (hC : ∀ e ∈ slots, C e) :
    QuietFor P (Ipacm.forSlots body slots d curCnt).1
      (Ipacm.forSlots body slots d curCnt).2.1 := by
  intro e he hen hmem
  rcases slot_forSlots hbody slots d curCnt hC e he hen with hold | hP
  · rcases live_forSlots hbody slots d curCnt hC _ hmem with hlive | hP
    · exact h e hold hen hlive
    · exact hP
  · exact hP

theorem QuietRound.ite {c : Round → Prop} [DecidablePred c]
    (hdriver : ∀ r, DriverWf r.driver → DriverWf (body r).driver)
    (hlive : ∀ r, c r → C r.slot → ∀ p ∈ (body r).driver.live, p ∈ r.driver.live ∨ P p.2)
    (hslot : ∀ r, c r → C r.slot → (body r).slot.enabled = true →
      (body r).slot = r.slot ∨ P (body r).slot.natRule) :
    QuietRound P C fun r => if c r then body r else r := by
  constructor
  · intro r hr
    split_ifs
    · exact hdriver r hr
    · exact hr
  · intro r hC
    by_cases hc : c r
    · simp_all
    simp_all
  · intro r hC
    by_cases hc : c r
    · simp_all
    simp [hc]

theorem addSlot_driverWf {r : Round} (h : DriverWf r.driver) :
    DriverWf (addSlot tblHdl r).driver := by
  have hadd : DriverWf (r.driver.addIpv4Rule tblHdl r.slot.natRule).2 := h.addRule
  grind [addSlot]

theorem addSlot_live {r : Round} {p : Nat × IpaNatIpv4Rule}
    (hp : p ∈ (addSlot tblHdl r).driver.live) : p ∈ r.driver.live ∨ p.2 = r.slot.natRule := by
  have hadd : p ∈ (r.driver.addIpv4Rule tblHdl r.slot.natRule).2.live →
      p ∈ r.driver.live ∨ p.2 = r.slot.natRule := live_addIpv4Rule
  grind [addSlot]

theorem addSlot_slot {r : Round} (hen : (addSlot tblHdl r).slot.enabled = true) :
    (addSlot tblHdl r).slot.natRule = r.slot.natRule := by
  unfold addSlot at hen ⊢
  split at hen
  · cases hen
  · rfl

theorem restoreSlot_quiet (hC : ∀ e, C e → e.privateIp ≠ 0 → P e.natRule) :
    QuietRound P C (restoreSlot tblHdl) := by
  apply QuietRound.ite
  · exact fun r h => addSlot_driverWf h
  · intro r hip hr p hp
    refine (addSlot_live hp).imp_right fun heq => ?_
    rw [heq]
    exact hC r.slot hr hip
  simp_all [addSlot_slot]

theorem resetPwrSaveSlot_quiet
    (hC : ∀ e, C e → e.privateIp = ip → e.enabled = false → P e.natRule) :
    QuietRound P C (resetPwrSaveSlot tblHdl ip) := by
  apply QuietRound.ite
  · exact fun r h => addSlot_driverWf h
  · intro r hc hr p hp
    refine (addSlot_live hp).imp_right fun heq => ?_
    simp_all
  simp_all [addSlot_slot]

theorem delSlot_cases (tblHdl : Nat) (done : NatTableEntry → NatTableEntry) (r : Round) :
    (delSlot tblHdl done r).driver =
        (r.driver.delIpv4Rule tblHdl r.slot.ruleHdl r.slot.natRule).2 ∧
      ((delSlot tblHdl done r).slot = r.slot ∧ ¬ r.driver.Deletes tblHdl r.slot.ruleHdl ∨
        (delSlot tblHdl done r).slot = done r.slot) := by
  unfold delSlot NatDriver.delIpv4Rule
  by_cases hdel : r.driver.Deletes tblHdl r.slot.ruleHdl
  · simp [hdel]
  · simp [hdel]

theorem delSlot_quiet {c : Round → Prop} [DecidablePred c]
    {done : NatTableEntry → NatTableEntry} (hdone : ∀ e, (done e).enabled = false) :
    QuietRound P C fun r => if c r then delSlot tblHdl done r else r := by
  apply QuietRound.ite
  · intro r h
    rw [(delSlot_cases tblHdl done r).1]
    exact h.delRule
  · intro r _ _ p hp
    rw [(delSlot_cases tblHdl done r).1] at hp
    exact .inl (live_delIpv4Rule hp)
  grind [delSlot_cases]

theorem staClntDisconSlot_quiet : QuietRound P C (staClntDisconSlot tblHdl ip) := by
  apply QuietRound.ite
  · intro r h
    have hdel : DriverWf (r.driver.delIpv4Rule tblHdl r.slot.ruleHdl r.slot.natRule).2 :=
      h.delRule
    grind
  · grind [live_delIpv4Rule]
  grind

end Rounds

/-! ## The operations -/

structure PwrInv (a : NatApp) : Prop where
  quiet : QuietFor (fun rule => ¬ a.HeldBack rule) a.cache a.driver
  driver : DriverWf a.driver

namespace PwrInv

theorem initial (h : a.Initial) : PwrInv a := by
  obtain ⟨n, hcache⟩ := h.cache
  refine ⟨?_, fun _ => h.live, ?_⟩
  · intro e he hen
    rw [hcache] at he
    rw [List.eq_of_mem_replicate he] at hen
    cases hen
  simp [h.live]

theorem forSlots {C : NatTableEntry → Prop} {body : Round → Round} (h : PwrInv a)
    (hbody : QuietRound (fun rule => ¬ a.HeldBack rule) C body) (hC : ∀ e ∈ a.cache, C e) :
    PwrInv (a.forSlots body) :=
  ⟨h.quiet.forSlots hbody a.curCnt hC, forSlots_driverWf hbody a.cache h.driver a.curCnt⟩

theorem of_live_eq_nil (hlive : a.driver.live = []) (h : DriverWf a.driver) : PwrInv a := by
  refine ⟨fun e _ _ hmem => ?_, h⟩
  simp_all

theorem addTable (h : PwrInv a) {pubIp : UInt32} (hok : Op.Quiet a (.addTable pubIp)) :
    PwrInv (a.addTable pubIp).2 := by
  have hwf : DriverWf (a.driver.addIpv4Tbl (a.maxEntries % 2 ^ 16) a.natTableHdl).2.2 :=
    h.driver.addTbl _
  have hlive : (a.driver.addIpv4Tbl (a.maxEntries % 2 ^ 16) a.natTableHdl).2.2.live =
      a.driver.live := by
    unfold NatDriver.addIpv4Tbl
    split_ifs <;> rfl
  unfold NatApp.addTable
  split
  · rename_i natTableHdl driver hadd
    rw [hadd] at hwf hlive
    refine ⟨?_, hwf⟩
    intro e he hen hmem
    rw [hlive] at hmem
    exact h.quiet e he hen hmem
  · rename_i natTableHdl driver hadd
    have hempty : driver.live = [] := by
      rw [hadd] at hlive
      have hno : a.driver.table = false := by
        grind [NatDriver.addIpv4Tbl]
      exact hlive.trans (h.driver.noTable hno)
    rw [hadd] at hwf
    have hnew : PwrInv { a with natTableHdl, driver } := of_live_eq_nil hempty hwf
    simp only
    split
    · rename_i hpre
      have hloop : PwrInv ({ a with natTableHdl, driver }.forSlots (restoreSlot natTableHdl)) :=
        hnew.forSlots (restoreSlot_quiet fun e he => he) (hok (by rw [hadd]) hpre)
      exact ⟨hloop.quiet, hloop.driver⟩
    · exact ⟨hnew.quiet, hnew.driver⟩

theorem deleteTable (h : PwrInv a) (pubIp : UInt32) : PwrInv (a.deleteTable pubIp).2 := by
  have hwf : DriverWf (a.driver.delIpv4Tbl a.natTableHdl).2 := h.driver.delTbl
  unfold NatApp.deleteTable
  split
  · exact h
  split
  · exact h
  unfold NatDriver.delIpv4Tbl at hwf ⊢
  by_cases hdel : a.driver.DeletesTbl a.natTableHdl
  · simp only [if_pos hdel] at hwf ⊢
    exact of_live_eq_nil rfl hwf
  · simp only [if_neg hdel] at hwf ⊢
    exact ⟨h.quiet, hwf⟩

theorem deleteEntry (h : PwrInv a) (rule : NatTableEntry) : PwrInv (a.deleteEntry rule) := by
  unfold NatApp.deleteEntry
  simp only
  split
  · exact h
  rename_i e he
  let driver := if e.enabled = true then
    (a.driver.delIpv4Rule a.natTableHdl e.ruleHdl e.natRule).2 else a.driver
  have hwf : DriverWf driver := by
    unfold driver
    split_ifs
    · exact h.driver.delRule
    · exact h.driver
  have hlive : ∀ p ∈ driver.live, p ∈ a.driver.live := by
    unfold driver
    intro p hp
    split_ifs at hp
    · exact live_delIpv4Rule hp
    · exact hp
  refine ⟨?_, hwf⟩
  intro x hx hen hmem
  rcases List.mem_or_eq_of_mem_set hx with hx | rfl
  · exact h.quiet x hx hen (hlive _ hmem)
  · cases hen

theorem fillSlot (h : PwrInv a) {cnt : Nat} {rule : NatTableEntry} {enabled : Bool}
    {driver : NatDriver} (hwf : DriverWf driver)
    (hlive : ∀ p ∈ driver.live, p ∈ a.driver.live ∨ ¬ a.HeldBack p.2)
    (hen : enabled = true → ¬ a.HeldBack rule.natRule) :
    PwrInv ({ a with driver }.fillSlot cnt rule enabled ruleHdl) := by
  refine ⟨?_, hwf⟩
  intro e he henabled hmem
  rcases hlive _ hmem with hold | hnew
  · obtain ⟨i, hi⟩ := List.mem_iff_getElem?.mp he
    change (a.cache.modify cnt _)[i]? = some e at hi
    rw [List.getElem?_modify] at hi
    split_ifs at hi with hcnt
    · obtain ⟨x, -, rfl⟩ := Option.map_eq_some_iff.mp hi
      exact hen henabled
    · have hold' : a.cache[i]? = some e := by simpa using hi
      exact h.quiet e (List.mem_of_getElem? hold') henabled hold
  · exact hnew

theorem addEntry (h : PwrInv a) (rule : NatTableEntry) : PwrInv (a.addEntry rule).2 := by
  unfold NatApp.addEntry
  split
  · exact h
  split
  · exact h
  split
  · exact h
  split
  · exact h
  simp only
  split
  · exact h
  split
  · exact h.fillSlot h.driver (fun p hp => .inl hp) nofun
  · rename_i hawake
    have hwf : DriverWf (a.driver.addIpv4Rule a.natTableHdl rule.natRule).2 := h.driver.addRule
    have hlive : ∀ p ∈ (a.driver.addIpv4Rule a.natTableHdl rule.natRule).2.live,
        p ∈ a.driver.live ∨ ¬ a.HeldBack p.2 := by
      intro p hp
      refine (live_addIpv4Rule hp).imp_right fun heq => ?_
      rw [heq]
      exact hawake
    split
    · rename_i driver hadd
      rw [hadd] at hwf hlive
      refine ⟨?_, hwf⟩
      intro e he hen hmem
      exact (hlive _ hmem).elim (h.quiet e he hen) fun hnew => hnew
    · rename_i hdl driver hadd
      rw [hadd] at hwf hlive
      exact h.fillSlot hwf hlive fun _ => hawake

theorem flushTempLoop (h : PwrInv a) (ipAddr : UInt32) (isAdd : Bool)
    (es : List NatTableEntry) : PwrInv (NatApp.flushTempLoop ipAddr isAdd es a).2 := by
  induction es generalizing a with
  | nil => exact h
  | cons e es ih =>
    refine ih ?_
    have hadd := h.addEntry e
    grind [NatApp.flushTempSlot]

theorem cacheEntry (h : PwrInv a) {rule : NatTableEntry} {cnt : Int}
    (hc : a.cacheEntry rule cnt = some a') : PwrInv a' := by
  unfold NatApp.cacheEntry at hc
  split at hc
  · cases hc
    exact h
  split at hc
  · cases hc
    exact h
  split at hc
  · cases hc
  simp only at hc
  split at hc
  · cases hc
    exact h
  · cases hc
    exact h.fillSlot h.driver (fun p hp => .inl hp) nofun

end PwrInv

/-! ## The power-save list -/

theorem isPwrSaveIf_iff : a.isPwrSaveIf ip = true ↔ ip ≠ 0 ∧ ip ∈ a.pwrSaveIfs := by
  unfold NatApp.isPwrSaveIf
  rw [List.any_eq_true]
  constructor
  · simp_all
  simp_all

theorem mem_of_mem_replace {l : List UInt32} {x y z : UInt32} (h : x ∈ l.replace y z) :
    x ∈ l ∨ x = z := by
  induction l with
  | nil => exact absurd h List.not_mem_nil
  | cons w l ih =>
    grind

theorem heldBack_of_wake (h : (a.wake ip).HeldBack rule) : a.HeldBack rule := by
  have hmono : ∀ x, (a.wake ip).isPwrSaveIf x = true → a.isPwrSaveIf x = true := by
    intro x hx
    obtain ⟨hne, hmem⟩ := isPwrSaveIf_iff.mp hx
    rcases mem_of_mem_replace hmem with hold | hzero
    · exact isPwrSaveIf_iff.mpr ⟨hne, hold⟩
    · exact absurd hzero hne
  exact h.imp (hmono _) (hmono _)

theorem PwrInv.wake (h : PwrInv a) (ip : UInt32) : PwrInv (a.wake ip) :=
  ⟨fun e he hen hmem hheld => h.quiet e he hen hmem (heldBack_of_wake hheld), h.driver⟩

/-! ## Entering power save -/

theorem updatePwrSaveSlot_of_asks {r : Round} (h : NatApp.asks ip r.slot = true) :
    updatePwrSaveSlot tblHdl ip r =
      delSlot tblHdl (fun e => { e with enabled := false, ruleHdl := 0 }) r :=
  if_pos (of_decide_eq_true h)

theorem updatePwrSaveSlot_of_not {r : Round} (h : NatApp.asks ip r.slot = false) :
    updatePwrSaveSlot tblHdl ip r = r :=
  if_neg (of_decide_eq_false h)

theorem updatePwrSaveSlot_calls (r : Round) :
    (updatePwrSaveSlot tblHdl ip r).driver.answers = r.driver.answers ∧
      (updatePwrSaveSlot tblHdl ip r).driver.calls =
        r.driver.calls + if NatApp.asks ip r.slot = true then 1 else 0 := by
  by_cases h : NatApp.asks ip r.slot = true
  · rw [updatePwrSaveSlot_of_asks h, (delSlot_cases tblHdl _ r).1, if_pos h]
    unfold NatDriver.delIpv4Rule
    split_ifs
    · exact ⟨rfl, rfl⟩
    · exact ⟨rfl, rfl⟩
  simp [updatePwrSaveSlot_of_not, h]

theorem updatePwrSaveSlot_quiet {P : IpaNatIpv4Rule → Prop} {C : NatTableEntry → Prop} :
    QuietRound P C (updatePwrSaveSlot tblHdl ip) :=
  delSlot_quiet fun _ => rfl

def Accepts (tblHdl : Nat) (ip : UInt32) (live : List (Nat × IpaNatIpv4Rule))
    (slots : List NatTableEntry) (d : NatDriver) : Prop :=
  ∀ done e rest, slots = done ++ e :: rest → e.enabled = true →
    (e.ruleHdl, e.natRule) ∈ live → e.privateIp = ip →
      tblHdl ≠ 0 ∧ d.answers (d.calls + done.countP (NatApp.asks ip)) ≠ 0

theorem updatePwrSave_clears {live : List (Nat × IpaNatIpv4Rule)} {slots : List NatTableEntry}
    (hwf : DriverWf d) (hsub : ∀ p ∈ d.live, p ∈ live) (hok : Accepts tblHdl ip live slots d)
    (curCnt : Int) : ∀ e ∈ (forSlots (updatePwrSaveSlot tblHdl ip) slots d curCnt).1,
      e.privateIp = ip → e.enabled = true → (e.ruleHdl, e.natRule) ∉
        (forSlots (updatePwrSaveSlot tblHdl ip) slots d curCnt).2.1.live := by
  induction slots generalizing d curCnt with
  | nil => exact fun e he => absurd he List.not_mem_nil
  | cons slot slots ih =>
    let r := updatePwrSaveSlot tblHdl ip ⟨slot, d, curCnt⟩
    have hquiet : QuietRound (fun _ => False) (fun _ => True) (updatePwrSaveSlot tblHdl ip) :=
      updatePwrSaveSlot_quiet
    have hround : ∀ p ∈ r.driver.live, p ∈ d.live := fun p hp =>
      (hquiet.live ⟨slot, d, curCnt⟩ trivial p hp).resolve_right id
    intro e he hip hen hmem
    rcases List.mem_cons.mp he with rfl | he
    · have hafter := live_forSlots hquiet slots r.driver r.curCnt fun _ _ => trivial
      have hlive := hround _ ((hafter _ hmem).resolve_right id)
      by_cases hasks : NatApp.asks ip slot = true
      · rw [updatePwrSaveSlot_of_asks hasks] at hen hip hlive
        rcases (delSlot_cases tblHdl _ ⟨slot, d, curCnt⟩).2 with ⟨hsame, hnot⟩ | hdone
        · rw [hsame] at hen hip hlive
          obtain ⟨htbl, hanswer⟩ := hok [] slot slots rfl hen (hsub _ hlive) hip
          refine hnot ⟨htbl, hwf.handles _ hlive, ?_, hanswer, List.mem_map_of_mem hlive⟩
          by_contra hno
          rw [hwf.noTable (by simpa using hno)] at hlive
          exact absurd hlive List.not_mem_nil
        simp_all
      · rw [updatePwrSaveSlot_of_not (by simpa using hasks)] at hen hip
        exact hasks (decide_eq_true ⟨hip, hen⟩)
    · obtain ⟨hanswers, hcalls⟩ := @updatePwrSaveSlot_calls tblHdl ip ⟨slot, d, curCnt⟩
      refine ih (hquiet.driver _ hwf) (fun p hp => hsub p (hround p hp)) ?_ _ e he hip hen hmem
      intro done x rest heq hx hxlive hxip
      obtain ⟨htbl, hanswer⟩ := hok (slot :: done) x rest (by rw [heq]; rfl) hx hxlive hxip
      grind

theorem PwrInv.updatePwrSaveIf (h : PwrInv a) (hok : Op.Quiet a (.updatePwrSaveIf ip)) :
    PwrInv (a.updatePwrSaveIf ip).2 := by
  unfold NatApp.updatePwrSaveIf
  split
  · exact h
  split
  · exact h
  rename_i hnot
  have hloop : PwrInv (a.forSlots (updatePwrSaveSlot a.natTableHdl ip)) :=
    h.forSlots updatePwrSaveSlot_quiet fun _ _ => trivial
  refine ⟨?_, hloop.driver⟩
  by_cases hroom : 0 ∈ a.pwrSaveIfs
  · obtain ⟨hdeletes, htarget⟩ := hok hnot hroom
    have hquiet : QuietRound (fun _ => False) (fun _ => True)
        (updatePwrSaveSlot a.natTableHdl ip) := updatePwrSaveSlot_quiet
    have haccepts : Accepts a.natTableHdl ip a.driver.live a.cache a.driver := by
      intro done e rest heq hen hlive hip
      have hi : done.length < a.cache.length := by simp [heq]
      have hget : a.cache[done.length]? = some e := by simp [heq]
      have hanswer := hdeletes done.length hi e hget ⟨hen, hlive⟩ hip
      rwa [show a.cache.take done.length = done by simp [heq]] at hanswer
    have hclears := updatePwrSave_clears h.driver (fun p hp => hp) haccepts a.curCnt
    intro e he hen hmem hheld
    -- the slot is as before the loop
    have hold : e ∈ a.cache :=
      (slot_forSlots hquiet a.cache a.driver a.curCnt
        (fun _ _ => trivial) e he hen).resolve_right id
    have hlive : (e.ruleHdl, e.natRule) ∈ a.driver.live :=
      (live_forSlots hquiet a.cache a.driver a.curCnt (fun _ _ => trivial) _ hmem).resolve_right id
    have hends : ∀ x, x ≠ 0 ∧ x ∈ a.pwrSaveIfs.replace 0 ip → x ≠ ip → a.isPwrSaveIf x = true := by
      rintro x ⟨hne, hx⟩ hxip
      exact isPwrSaveIf_iff.mpr ⟨hne, (mem_of_mem_replace hx).resolve_right hxip⟩
    have hprivate : e.privateIp ≠ ip := fun hip => hclears e he hip hen hmem
    refine h.quiet e hold hen hlive ?_
    exact hheld.imp (fun hx => hends _ (isPwrSaveIf_iff.mp hx) hprivate)
      fun hx => hends _ (isPwrSaveIf_iff.mp hx) (htarget e hold ⟨hen, hlive⟩)
  simp [hroom, hloop.quiet]

/-! ## Leaving power save -/

theorem PwrInv.resetPwrSaveIf (h : PwrInv a) (hok : Op.Quiet a (.resetPwrSaveIf ip)) :
    PwrInv (a.resetPwrSaveIf ip).2 := by
  unfold NatApp.resetPwrSaveIf
  split
  · exact h
  · rename_i hip
    exact (h.wake ip).forSlots (resetPwrSaveSlot_quiet fun e he => he) (hok hip)

/-- Nothing of `ip` that nothing else holds back is left out by a reset: a connection with the
target end `ip` is in the hardware table already, and one that is marked so has its rule. -/
def NatApp.Restorable (a : NatApp) (ip : UInt32) : Prop :=
  ∀ e ∈ a.cache, e.privateIp = ip ∨ e.targetIp = ip → ¬ (a.wake ip).OtherHeld ip e →
    a.driver.table = true → a.InHardware e ∨ e.privateIp = ip ∧ e.enabled = false

theorem addIpv4Rule_keeps : (d.addIpv4Rule tblHdl rule).2.table = d.table ∧
    ∀ p ∈ d.live, p ∈ (d.addIpv4Rule tblHdl rule).2.live := by
  unfold NatDriver.addIpv4Rule
  split_ifs
  · exact ⟨rfl, fun p hp => hp⟩
  · exact ⟨rfl, fun p hp => hp⟩
  · exact ⟨rfl, fun p hp => List.mem_cons_of_mem _ hp⟩

theorem addSlot_cases (tblHdl : Nat) (r : Round) :
    (addSlot tblHdl r).driver = (r.driver.addIpv4Rule tblHdl r.slot.natRule).2 ∧
      ((addSlot tblHdl r).slot = {} ∨ (addSlot tblHdl r).slot.enabled = true ∧
        ((addSlot tblHdl r).slot.ruleHdl, (addSlot tblHdl r).slot.natRule) ∈
          (addSlot tblHdl r).driver.live) := by
  unfold addSlot NatDriver.addIpv4Rule
  split_ifs
  · exact ⟨rfl, .inl rfl⟩
  · exact ⟨rfl, .inl rfl⟩
  · exact ⟨rfl, .inr ⟨rfl, List.mem_cons_self⟩⟩

theorem resetPwrSaveSlot_keeps (r : Round) :
    (resetPwrSaveSlot tblHdl ip r).driver.table = r.driver.table ∧
      ∀ p ∈ r.driver.live, p ∈ (resetPwrSaveSlot tblHdl ip r).driver.live := by
  unfold resetPwrSaveSlot
  split_ifs
  · rw [(addSlot_cases tblHdl r).1]
    exact addIpv4Rule_keeps
  · exact ⟨rfl, fun p hp => hp⟩

theorem forSlots_resetPwrSave_keeps (slots : List NatTableEntry) (d : NatDriver) (curCnt : Int) :
    (forSlots (resetPwrSaveSlot tblHdl ip) slots d curCnt).2.1.table = d.table ∧
      ∀ p ∈ d.live, p ∈ (forSlots (resetPwrSaveSlot tblHdl ip) slots d curCnt).2.1.live := by
  induction slots generalizing d curCnt with
  | nil => exact ⟨rfl, fun p hp => hp⟩
  | cons slot slots ih =>
    obtain ⟨htable, hlive⟩ := @resetPwrSaveSlot_keeps tblHdl ip ⟨slot, d, curCnt⟩
    obtain ⟨htable', hlive'⟩ := ih (resetPwrSaveSlot tblHdl ip ⟨slot, d, curCnt⟩).driver
      (resetPwrSaveSlot tblHdl ip ⟨slot, d, curCnt⟩).curCnt
    exact ⟨htable'.trans htable, fun p hp => hlive' p (hlive p hp)⟩

theorem forSlots_resetPwrSave_slots (slots : List NatTableEntry) (d : NatDriver) (curCnt : Int) :
    ∀ e ∈ (forSlots (resetPwrSaveSlot tblHdl ip) slots d curCnt).1,
      (e ∈ slots ∧ ¬ (e.privateIp = ip ∧ e.enabled = false)) ∨ e = {} ∨ (e.enabled = true ∧
        (e.ruleHdl, e.natRule) ∈
          (forSlots (resetPwrSaveSlot tblHdl ip) slots d curCnt).2.1.live) := by
  induction slots generalizing d curCnt with
  | nil => exact fun e he => absurd he List.not_mem_nil
  | cons slot slots ih =>
    let r := resetPwrSaveSlot tblHdl ip ⟨slot, d, curCnt⟩
    intro e he
    rcases List.mem_cons.mp he with rfl | he
    · have hkeeps := (@forSlots_resetPwrSave_keeps tblHdl ip slots r.driver r.curCnt).2
      by_cases hc : slot.privateIp = ip ∧ slot.enabled = false
      · have hadd : r = addSlot tblHdl ⟨slot, d, curCnt⟩ := if_pos hc
        rcases (addSlot_cases tblHdl ⟨slot, d, curCnt⟩).2 with hcleared | ⟨hen, hlive⟩
        · rw [← hadd] at hcleared
          exact .inr (.inl hcleared)
        · rw [← hadd] at hen hlive
          exact .inr (.inr ⟨hen, hkeeps _ hlive⟩)
      · have hsame : r = ⟨slot, d, curCnt⟩ := if_neg hc
        grind
    · rcases ih r.driver r.curCnt e he with ⟨hmem, hnot⟩ | hrest
      · exact .inl ⟨List.mem_cons_of_mem slot hmem, hnot⟩
      · exact .inr hrest

theorem restored_resetPwrSaveIf (hip : ip ≠ 0) (h : a.Restorable ip) :
    (a.resetPwrSaveIf ip).2.Restored ip := by
  unfold NatApp.resetPwrSaveIf
  rw [if_neg hip]
  intro e he hof hother htable
  obtain ⟨hkeeps, hlive⟩ :=
    @forSlots_resetPwrSave_keeps a.natTableHdl ip a.cache a.driver a.curCnt
  rcases @forSlots_resetPwrSave_slots a.natTableHdl ip a.cache a.driver a.curCnt e he with
    ⟨hold, hnot⟩ | rfl | hin
  · have htable' : a.driver.table = true := hkeeps.symm.trans htable
    have hin := (h e hold hof hother htable').resolve_right hnot
    exact ⟨hin.1, hlive _ hin.2⟩
  · exact absurd (hof.elim Eq.symm Eq.symm) hip
  · exact hin

/-! ## Runs -/

theorem PwrInv.exec (h : PwrInv a) {op : Op} (hok : op.Quiet a) (hexec : op.exec a = some a') :
    PwrInv a' := by
  cases op with
  | addTable pubIp =>
    cases hexec
    exact h.addTable hok
  | deleteTable pubIp =>
    cases hexec
    exact h.deleteTable pubIp
  | addEntry rule =>
    cases hexec
    exact h.addEntry rule
  | deleteEntry rule =>
    cases hexec
    exact h.deleteEntry rule
  | updatePwrSaveIf ip =>
    cases hexec
    exact h.updatePwrSaveIf hok
  | resetPwrSaveIf ip =>
    cases hexec
    exact h.resetPwrSaveIf hok
  | addTempEntry newEntry =>
    cases hexec
    exact ⟨h.quiet, h.driver⟩
  | deleteTempEntry entry =>
    cases hexec
    exact ⟨h.quiet, h.driver⟩
  | flushTempEntries ip isAdd =>
    cases hexec
    have hloop := h.flushTempLoop ip isAdd a.temp
    exact ⟨hloop.quiet, hloop.driver⟩
  | cacheEntry rule cnt => exact h.cacheEntry hexec
  | delEntriesOnClntDiscon ip =>
    cases hexec
    unfold NatApp.delEntriesOnClntDiscon
    split
    · exact h
    · exact (h.wake ip).forSlots (delSlot_quiet fun _ => rfl) fun _ _ => trivial
  | delEntriesOnSTAClntDiscon ip =>
    cases hexec
    unfold NatApp.delEntriesOnSTAClntDiscon
    split
    · exact h
    · exact h.forSlots staClntDisconSlot_quiet fun _ _ => trivial

/-- The runs whose calls all leave power save alone. -/
def quietSystem : System NatApp Op := natAppSystem.restrict fun a op => op.Quiet a

theorem pwrInv_invariant : quietSystem.Invariant PwrInv := by
  apply System.Invariant.of_restrict
  · exact fun a h => .initial h
  · rintro a op a' h hok (hexec | hnone)
    · exact h.exec hok hexec
    · cases op with
      | cacheEntry rule cnt => exact absurd hnone (cacheEntry_ne_none hok)
      | _ => cases hnone

/-- In the runs whose calls all leave power save alone, no cached connection with an end in
power save is in the hardware table, and `ResetPwrSaveIf` puts back every connection of the
client that nothing else holds back, if it can. -/
theorem powerSaveQuiet_of_reachable (h : quietSystem.Reachable a) :
    a.PowerSaveQuiet ∧
      ∀ ip, ip ≠ 0 → a.Restorable ip → (a.resetPwrSaveIf ip).2.Restored ip := by
  have hinv := pwrInv_invariant.reachable h
  exact ⟨fun e he hin => hinv.quiet e he hin.1 hin.2,
    fun ip hip hrestorable => restored_resetPwrSaveIf hip hrestorable⟩

/-! ## Computed runs -/

namespace NatApp

instance (a : NatApp) (e : NatTableEntry) : Decidable (a.InHardware e) :=
  inferInstanceAs (Decidable (_ ∧ _))

instance (a : NatApp) (rule : IpaNatIpv4Rule) : Decidable (a.HeldBack rule) :=
  inferInstanceAs (Decidable (_ ∨ _))

instance (a : NatApp) (ip : UInt32) (e : NatTableEntry) : Decidable (a.OtherHeld ip e) :=
  inferInstanceAs (Decidable (_ ∨ _))

instance (a : NatApp) : Decidable a.PowerSaveQuiet :=
  inferInstanceAs (Decidable (∀ e ∈ a.cache, a.InHardware e → ¬ a.HeldBack e.natRule))

instance (a : NatApp) (ip : UInt32) : Decidable (a.Restorable ip) :=
  inferInstanceAs (Decidable (∀ e ∈ a.cache, _ → _ → _ → _))

instance (a : NatApp) (ip : UInt32) : Decidable (a.DeletesRules ip) :=
  inferInstanceAs (Decidable (∀ i < a.cache.length, ∀ e ∈ a.cache[i]?, _ → _ → _))

end NatApp

instance (a : NatApp) : (op : Op) → Decidable (op.Quiet a)
  | .addTable _ => inferInstanceAs (Decidable (_ → _ → ∀ e ∈ a.cache, _ → _))
  | .updatePwrSaveIf _ => inferInstanceAs (Decidable (_ → _ → _ ∧ ∀ e ∈ a.cache, _ → _))
  | .resetPwrSaveIf _ => inferInstanceAs (Decidable (_ → ∀ e ∈ a.cache, _ → _ → _))
  | .cacheEntry _ _ => inferInstanceAs (Decidable (_ → _ → _ ∧ _))
  | .deleteTable _ => .isTrue trivial
  | .addEntry _ => .isTrue trivial
  | .deleteEntry _ => .isTrue trivial
  | .addTempEntry _ => .isTrue trivial
  | .deleteTempEntry _ => .isTrue trivial
  | .flushTempEntries _ _ => .isTrue trivial
  | .delEntriesOnClntDiscon _ => .isTrue trivial
  | .delEntriesOnSTAClntDiscon _ => .isTrue trivial

def quietRun (a : NatApp) (ops : List Op) : Option NatApp :=
  ops.foldlM (fun a op => if op.Quiet a then op.exec a else none) a

theorem reachable_quietRun (ops : List Op) (ha : quietSystem.Reachable a)
    (h : quietRun a ops = some a') : quietSystem.Reachable a' := by
  induction ops generalizing a with
  | nil =>
    cases h
    exact ha
  | cons op ops ih =>
    simp only [quietRun, List.foldlM_cons, Option.bind_eq_bind, Option.bind_eq_some_iff] at h
    obtain ⟨a₁, h₁, h⟩ := h
    split at h₁
    · rename_i hok
      exact ih (.step ha ⟨hok, .inl h₁⟩) h
    · cases h₁

def oneAsleep : List Op :=
  [.addTable 5, .addEntry (tcpConn 1), .updatePwrSaveIf 1, .addEntry (tcpConn 2)]

theorem powerSaveQuiet_of_reachable_oneAsleep :
    ∃ a, quietRun initialApp oneAsleep = some a ∧
      (a.cache.map NatTableEntry.enabled = [false, true] ∧ a.Restorable 1) ∧
      a.PowerSaveQuiet ∧ (a.resetPwrSaveIf 1).2.Restored 1 := by
  have hrun : (quietRun initialApp oneAsleep).any
      (fun a => a.cache.map NatTableEntry.enabled = [false, true] ∧ a.Restorable 1) = true := by
    decide +kernel
  obtain ⟨a, ha, hcache⟩ := (Option.any_eq_true _ _).mp hrun
  obtain ⟨hcache, hrestorable⟩ := of_decide_eq_true hcache
  obtain ⟨hquiet, hrestored⟩ :=
    powerSaveQuiet_of_reachable (reachable_quietRun oneAsleep (.init initial_initialApp) ha)
  exact ⟨a, ha, ⟨hcache, hrestorable⟩, hquiet, hrestored 1 (by decide) hrestorable⟩

/-- The interface to the network goes down and up while a client is in power save. -/
theorem not_powerSaveQuiet : ∃ a, natAppSystem.Reachable a ∧ ¬ a.PowerSaveQuiet := by
  have hrun : (execAll initialApp [.addTable 5, .addEntry (tcpConn 1), .updatePwrSaveIf 1,
      .deleteTable 5, .addTable 5]).any (fun a => ¬ a.PowerSaveQuiet) = true := by decide +kernel
  obtain ⟨a, ha, hnot⟩ := (Option.any_eq_true _ _).mp hrun
  exact ⟨a, reachable_execAll _ (.init initial_initialApp) (fun _ _ _ _ h => .inl h) ha,
    of_decide_eq_true hnot⟩

end EtherDevice.Ipacm
