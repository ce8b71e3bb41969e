import Mathlib
import EtherDevice.IpaNati.Effects

/-!
# The effect of a delete

`delIpv4Rule_cases` lists the outcomes of `ipa_nati_del_ipv4_rule`. A delete that
succeeds rewrites the rule tables by `unlinkRuleFields` and the index tables by the
commands and software writes for the rule's index entry; `unlinkIndexFields` is what the
latter amount to on a well-formed table.
-/

namespace EtherDevice.IpaNati

open Lib IpaNatIp4TableCache

variable {c c' : IpaNatIp4TableCache}

def unlinkRuleFields (c : IpaNatIp4TableCache) (p : Nat) : DelType → IpaNatIp4TableCache
  | .onlyOne => c.modifyRule p fun _ => {}
  | .head => c.modifyRule p fun r =>
      { r with protocol := invalidProtoFieldCmp, timeStamp := r.timeStamp % 2 ^ 16 }
  | .middle =>
    ((c.modifyRule (c.rules p).prevIndex fun r =>
        { r with nextIndex := (c.rules p).nextIndex }).modifyRule (c.rules p).nextIndex
      fun r => { r with prevIndex := (c.rules p).prevIndex }).modifyRule p fun _ => {}
  | .last =>
    (c.modifyRule (c.rules p).prevIndex fun r => { r with nextIndex := 0 }).modifyRule p
      fun _ => {}

def LinksInTable (c : IpaNatIp4TableCache) (p : Nat) (pos : DelType) : Prop :=
  (pos = .middle ∨ pos = .last → (c.rules p).prevIndex < c.size) ∧
    (pos = .middle → c.tableEntries ≤ (c.rules p).nextIndex ∧
      (c.rules p).nextIndex < c.size)

theorem nextFieldCmd_range {prev value : Nat}
    (h : dmaOne c (nextFieldCmd c prev value) = some c') : prev < c.size := by
  unfold nextFieldCmd at h
  unfold size
  split at h
  · omega
  · simp only [dmaOne, NatTableType.isIndex, NatTableType.isExpn, getEntryOffset,
      ruleNextFieldOffset, Option.bind_eq_bind, Bool.false_eq_true, if_false,
      Option.bind_eq_some_iff] at h
    obtain ⟨e, he, -⟩ := h
    simp only [entryAt, if_true] at he
    split at he
    · omega
    · cases he

theorem dmaOne_delHead {p : Nat} (hp : p < c.tableEntries) :
    dmaOne c (delRuleCmd c (c.rules p) p .head) = some (unlinkRuleFields c p .head) := by
  refine dmaOne_rule rfl (entryAt_base hp) (by decide) ?_
  rfl

theorem dmaOne_delOnlyOne {p : Nat} (hp : p < c.tableEntries) :
    dmaOne c (delRuleCmd c (c.rules p) p .onlyOne) =
      some (c.modifyRule p fun r => { r with enable := false }) :=
  dmaOne_rule rfl (entryAt_base hp) (by decide) rfl

theorem modifyRule_modifyRule (e : Nat) (f g : IpaNatRule → IpaNatRule) :
    (c.modifyRule e f).modifyRule e g = c.modifyRule e fun r => g (f r) := by
  simp [modifyRule]

theorem delRule_eq {expn : Bool} {cur p : Nat} {pos : DelType}
    (hp : c.entryAt expn cur = some p)
    (hpos : pos = findRulePos expn (c.rules p).nextIndex) :
    (LinksInTable c p pos →
      (dmaOne c (delRuleCmd c (c.rules p) cur pos)).bind (delRuleFields · p pos) =
        some (unlinkRuleFields c p pos)) ∧
    ∀ c', (dmaOne c (delRuleCmd c (c.rules p) cur pos)).bind (delRuleFields · p pos) =
      some c' → LinksInTable c p pos := by
  obtain ⟨-, hp'⟩ := entryAt_eq_some hp
  have hbase : pos = .onlyOne ∨ pos = .head → p = cur ∧ p < c.tableEntries := by
    rintro (rfl | rfl) <;> cases expn
    · simpa using hp'
    · simp only [findRulePos, if_true] at hpos
      split at hpos <;> cases hpos
    · simpa using hp'
    · simp only [findRulePos, if_true] at hpos
      split at hpos <;> cases hpos
  cases pos with
  | onlyOne =>
    grind [dmaOne_delOnlyOne, LinksInTable, delRuleFields, updateNextRulePrev, unlinkRuleFields,
      modifyRule_modifyRule]
  | head =>
    grind [dmaOne_delHead, LinksInTable, delRuleFields, updateNextRulePrev]
  | middle =>
    -- the predecessor's link is written before the fields of `p` are read again
    have hnext : ∀ v, ((c.modifyRule (c.rules p).prevIndex fun r =>
        { r with nextIndex := (c.rules p).nextIndex }).rules p).prevIndex = v ↔
          (c.rules p).prevIndex = v := by
      intro v
      by_cases h : p = (c.rules p).prevIndex
      · simp [← h]
      · simp [h]
    have hread : ((c.modifyRule (c.rules p).prevIndex fun r =>
        { r with nextIndex := (c.rules p).nextIndex }).rules p).nextIndex =
          (c.rules p).nextIndex := by
      by_cases h : p = (c.rules p).prevIndex
      · simp [← h]
      · simp [h]
    have hprev := (hnext _).mpr rfl
    constructor
    · rintro ⟨hl, hn⟩
      obtain ⟨hlo, hhi⟩ := hn rfl
      have hdma := dmaOne_nextFieldCmd (c.rules p).nextIndex (hl (.inl rfl))
      simp only [delRuleCmd, hdma, Option.bind_some, delRuleFields, updateNextRulePrev, hread,
        hprev]
      rw [expnEntry_of_range (by exact hlo) (by exact hhi)]
      simp [unlinkRuleFields]
    · intro c' h
      simp only [delRuleCmd, Option.bind_eq_some_iff] at h
      obtain ⟨c₁, h₁, h₂⟩ := h
      have hl := nextFieldCmd_range h₁
      have hdma := dmaOne_nextFieldCmd (c.rules p).nextIndex hl
      rw [hdma] at h₁
      cases h₁
      simp only [delRuleFields, updateNextRulePrev, hread, Option.map_eq_some_iff] at h₂
      obtain ⟨c₂, ⟨n, hn, -⟩, -⟩ := h₂
      obtain ⟨-, hlo, hhi⟩ := expnEntry_eq_some hn
      exact ⟨fun _ => hl, fun _ => ⟨hlo, hhi⟩⟩
  | last =>
    constructor
    · rintro ⟨hl, -⟩
      simp [dmaOne_nextFieldCmd, delRuleCmd, delRuleFields, updateNextRulePrev, unlinkRuleFields,
        hl]
    · intro c' h
      simp only [delRuleCmd, Option.bind_eq_some_iff] at h
      obtain ⟨c₁, h₁, -⟩ := h
      exact ⟨fun _ => nextFieldCmd_range h₁, by simp⟩

theorem unlinkRuleFields_index (I : Nat → IpaNatIndxTblRule) (p : Nat) (pos : DelType) :
    unlinkRuleFields { c with index := I } p pos =
      { unlinkRuleFields c p pos with index := I } := by
  cases pos <;> rfl

theorem isIndex_delIndexCmds {i : Nat} {pos : DelType} {cmds : List DmaOne}
    (h : delIndexCmds c i pos = some cmds) : ∀ d ∈ cmds, d.baseAddr.isIndex = true := by
  cases pos with
  | onlyOne =>
    cases h
    simp [NatTableType.isIndex]
  | head =>
    simp only [delIndexCmds, Option.bind_eq_bind, Option.bind_eq_some_iff] at h
    obtain ⟨n, -, h⟩ := h
    cases h
    simp [NatTableType.isIndex]
  | middle =>
    cases h
    simp [isIndex_indexNextFieldCmd]
  | last =>
    cases h
    simp [isIndex_indexNextFieldCmd]

theorem isIndex_delRuleCmd (r : IpaNatRule) (cur : Nat) (pos : DelType) :
    (delRuleCmd c r cur pos).baseAddr.isIndex = false := by
  cases pos <;> first | rfl | exact isIndex_nextFieldCmd _ _

theorem reorderCmds_eq {d : DmaOne} {cmds : List DmaOne}
    (hd : d.baseAddr.isIndex = false) (hcmds : ∀ x ∈ cmds, x.baseAddr.isIndex = true) :
    reorderCmds (d :: cmds) = cmds ++ [d] := by
  have hdrop : cmds.dropWhile (fun x => !x.baseAddr.isIndex) = cmds := by
    cases cmds with
    | nil => rfl
    | cons x cmds => simp [hcmds x List.mem_cons_self]
  have htake : cmds.takeWhile (fun x => !x.baseAddr.isIndex) = [] := by
    cases cmds with
    | nil => rfl
    | cons x cmds => simp [hcmds x List.mem_cons_self]
  simp [reorderCmds, hd, hdrop, htake]

structure SameRules (c c' : IpaNatIp4TableCache) : Prop where
  rules : ∀ x, c'.rules x = { c.rules x with indxTblEntry := (c'.rules x).indxTblEntry }
  ruleIdArray : c'.ruleIdArray = c.ruleIdArray
  tableEntries : c'.tableEntries = c.tableEntries
  expnTableEntries : c'.expnTableEntries = c.expnTableEntries
  valid : c'.valid = c.valid

theorem SameRules.rfl' (c : IpaNatIp4TableCache) : SameRules c c :=
  ⟨fun _ => rfl, rfl, rfl, rfl, rfl⟩

theorem SameRules.trans {c₁ c₂ c₃ : IpaNatIp4TableCache} (h : SameRules c₁ c₂)
    (h' : SameRules c₂ c₃) : SameRules c₁ c₃ := by
  refine ⟨fun x => ?_, h'.ruleIdArray.trans h.ruleIdArray,
    h'.tableEntries.trans h.tableEntries, h'.expnTableEntries.trans h.expnTableEntries,
    h'.valid.trans h.valid⟩
  have h₂ := h'.rules x
  rw [h.rules x] at h₂
  exact h₂

theorem sameRules_modifyRule {t i : Nat} :
    SameRules c (c.modifyRule t fun r => { r with indxTblEntry := i }) := by
  refine ⟨fun x => ?_, rfl, rfl, rfl, rfl⟩
  by_cases h : x = t
  · subst h
    simp
  · simp [h]

theorem SameRules.of_index {c' : IpaNatIp4TableCache} (h : SameRules c c') (i : Nat)
    (f : IpaNatIndxTblRule → IpaNatIndxTblRule) : SameRules c (c'.modifyIndex i f) :=
  ⟨h.rules, h.ruleIdArray, h.tableEntries, h.expnTableEntries, h.valid⟩

theorem delIndexFields_sameRules {i n : Nat} {pos : DelType}
    (h : delIndexFields c i n pos = some c') : SameRules c c' := by
  cases pos with
  | head =>
    simp only [delIndexFields, Option.bind_eq_some_iff] at h
    obtain ⟨c₁, h₁, h⟩ := h
    have hsame : SameRules c c₁ := by
      unfold updateNextNextPrev at h₁
      split at h₁
      · simp only [Option.map_eq_some_iff] at h₁
        obtain ⟨m, -, rfl⟩ := h₁
        exact ⟨fun _ => rfl, rfl, rfl, rfl, rfl⟩
      · cases h₁
        exact SameRules.rfl' c
    unfold updateIndxTblEntry at h
    split at h
    · cases h
      exact (hsame.of_index n _).trans sameRules_modifyRule
    · cases h
  | middle =>
    simp only [delIndexFields, updateNextPrev, Option.map_eq_some_iff] at h
    obtain ⟨c₁, ⟨m, -, rfl⟩, rfl⟩ := h
    exact ⟨fun _ => rfl, rfl, rfl, rfl, rfl⟩
  | onlyOne =>
    cases h
    exact (SameRules.rfl' c).of_index i _
  | last =>
    cases h
    exact (SameRules.rfl' c).of_index i _

/-- The deletion of the rule at entry `p` with index entry `i` by a working device, as
far as it depends on the index tables. -/
def unlinkBoth (c : IpaNatIp4TableCache) (p i : Nat) (pos : DelType) :
    Option IpaNatIp4TableCache :=
  (delIndexCmds c i (findIndexRulePos c i)).bind fun cmds =>
    (dmaAll c cmds).bind fun c₁ =>
      delIndexFields (unlinkRuleFields c₁ p pos) i (c.index i).nextIndex
        (findIndexRulePos c i)

theorem unlinkRule_working (c : IpaNatIp4TableCache) (p cur i : Nat) (pos : DelType) :
    unlinkRule true c p cur i pos =
      (delIndexCmds c i (findIndexRulePos c i)).bind fun cmds =>
        (dmaAll c cmds).bind fun c₁ =>
          ((dmaOne c₁ (delRuleCmd c (c.rules p) cur pos)).bind (delRuleFields · p pos)).bind
            fun c₂ => (delIndexFields c₂ i (c.index i).nextIndex
              (findIndexRulePos c i)).map fun c₃ => (.ok (), c₃) := by
  unfold unlinkRule
  cases hcmds : delIndexCmds c i (findIndexRulePos c i) with
  | none => simp [hcmds]
  | some cmds =>
    have horder := reorderCmds_eq (isIndex_delRuleCmd (c := c) (c.rules p) cur pos)
      (isIndex_delIndexCmds hcmds)
    simp [dmaAll, Option.bind_assoc, Option.map_eq_bind, Function.comp_def, hcmds, horder]

theorem unlinkRule_eq {expn : Bool} {cur p i : Nat} {pos : DelType}
    (hp : c.entryAt expn cur = some p)
    (hpos : pos = findRulePos expn (c.rules p).nextIndex) (hlinks : LinksInTable c p pos) :
    unlinkRule true c p cur i pos = (unlinkBoth c p i pos).map fun c' => (.ok (), c') := by
  rw [unlinkRule_working]
  unfold unlinkBoth
  cases hcmds : delIndexCmds c i (findIndexRulePos c i) with
  | none => rfl
  | some cmds =>
    simp only [Option.bind_some]
    cases hdma : dmaAll c cmds with
    | none => rfl
    | some c₁ =>
      simp only [Option.bind_some]
      have hframe := dmaAll_index (isIndex_delIndexCmds hcmds) hdma
      have hp₁ : c₁.entryAt expn cur = some p := by
        rw [hframe]
        exact hp
      have hpos₁ : pos = findRulePos expn (c₁.rules p).nextIndex := by
        rw [hframe]
        exact hpos
      have hlinks₁ : LinksInTable c₁ p pos := by
        rw [hframe]
        exact hlinks
      have hcmd : delRuleCmd c (c.rules p) cur pos = delRuleCmd c₁ (c₁.rules p) cur pos := by
        rw [hframe]
        rfl
      rw [hcmd, (delRule_eq hp₁ hpos₁).1 hlinks₁]
      rfl

theorem unlinkRule_cases {ok expn : Bool} {cur p i : Nat} {pos : DelType}
    {res : Except Errno Unit} (hp : c.entryAt expn cur = some p)
    (hpos : pos = findRulePos expn (c.rules p).nextIndex)
    (h : unlinkRule ok c p cur i pos = some (res, c')) :
    (ok = false ∧ res = .error .eio ∧ c' = c) ∨
      (ok = true ∧ res = .ok () ∧ LinksInTable c p pos ∧
        unlinkBoth c p i pos = some c') := by
  cases ok with
  | false =>
    simp_all [unlinkRule, Option.bind_eq_some_iff]
  | true =>
    refine .inr ⟨rfl, ?_⟩
    have hlinks : LinksInTable c p pos := by
      rw [unlinkRule_working] at h
      cases hcmds : delIndexCmds c i (findIndexRulePos c i) with
      | none => simp [hcmds] at h
      | some cmds =>
        simp only [hcmds, Option.bind_some, Option.bind_eq_some_iff] at h
        obtain ⟨c₁, hdma, c₂, hrule, -⟩ := h
        have hframe := dmaAll_index (isIndex_delIndexCmds hcmds) hdma
        have hcmd : delRuleCmd c (c.rules p) cur pos =
            delRuleCmd c₁ (c₁.rules p) cur pos := by
          rw [hframe]
          rfl
        have hp₁ : c₁.entryAt expn cur = some p := by
          rw [hframe]
          exact hp
        have hpos₁ : pos = findRulePos expn (c₁.rules p).nextIndex := by
          rw [hframe]
          exact hpos
        rw [hcmd] at hrule
        have := (delRule_eq hp₁ hpos₁).2 _ (Option.bind_eq_some_iff.mpr hrule)
        rw [hframe] at this
        exact this
    grind [unlinkRule_eq, Option.map_eq_some_iff]

theorem unlinkBoth_sameRules {p i : Nat} {pos : DelType}
    (h : unlinkBoth c p i pos = some c') : SameRules (unlinkRuleFields c p pos) c' := by
  unfold unlinkBoth at h
  simp only [Option.bind_eq_some_iff] at h
  obtain ⟨cmds, hcmds, c₁, hdma, h⟩ := h
  have hframe := dmaAll_index (isIndex_delIndexCmds hcmds) hdma
  have hsoft := delIndexFields_sameRules h
  rw [hframe, unlinkRuleFields_index] at hsoft
  exact ⟨hsoft.rules, hsoft.ruleIdArray, hsoft.tableEntries, hsoft.expnTableEntries,
    hsoft.valid⟩

structure HandleEntry (c : IpaNatIp4TableCache) (ruleHdl : Nat) (expn : Bool)
    (tblEntry p : Nat) : Prop where
  pos : ruleHdl ≠ 0
  lt : ruleHdl < c.size
  expn_eq : expn = decide (c.ruleIdArray (ruleHdl - 1) &&& 1 ≠ 0)
  tblEntry_eq : tblEntry = c.ruleIdArray (ruleHdl - 1) >>> 1
  entry_ne : tblEntry ≠ 0
  entry : c.entryAt expn tblEntry = some p

theorem delIpv4Rule_cases {ok : Bool} {ruleHdl : Nat} {res : Except Errno Unit}
    (hsize : c.size < 2 ^ 16) (h : delIpv4Rule ok c ruleHdl = some (res, c')) :
    ((∃ err, res = .error err) ∧ c' = c) ∨
      (ok = true ∧ res = .ok () ∧ ∃ expn cur p cu, HandleEntry c ruleHdl expn cur p ∧
        (c.rules p).enable = true ∧ (c.rules p).indxTblEntry < c.size ∧
        LinksInTable c p (findRulePos expn (c.rules p).nextIndex) ∧
        unlinkBoth c p (c.rules p).indxTblEntry
          (findRulePos expn (c.rules p).nextIndex) = some cu ∧
        c' = (delDeadIpv4HeadNodes cu).setRuleId (ruleHdl - 1) 0) := by
  unfold delIpv4Rule at h
  simp only [Option.bind_eq_bind, Option.bind_eq_some_iff] at h
  obtain ⟨⟨expn, cur⟩, hparse, h⟩ := h
  split at h
  · cases h
    exact .inl ⟨⟨_, rfl⟩, rfl⟩
  rename_i hcur
  split at h
  · cases h
    exact .inl ⟨⟨_, rfl⟩, rfl⟩
  simp only [Option.bind_eq_some_iff] at h
  obtain ⟨p, hp, ⟨res', cu⟩, hpost, h⟩ := h
  unfold postDelDmaCmd at hpost
  simp only [hp, Option.bind_eq_bind, Option.bind_some] at hpost
  split at hpost
  · cases hpost
    cases h
    exact .inl ⟨⟨_, rfl⟩, rfl⟩
  rename_i hen
  split at hpost
  · rename_i hi
    rcases unlinkRule_cases hp rfl hpost with ⟨-, rfl, rfl⟩ | ⟨hok, rfl, hlinks, hboth⟩
    · cases h
      exact .inl ⟨⟨_, rfl⟩, rfl⟩
    · simp only at h
      split at h
      · cases h
        have hcu : cu.size = c.size := by
          have hsame := unlinkBoth_sameRules hboth
          unfold size
          rw [hsame.tableEntries, hsame.expnTableEntries]
          cases findRulePos expn (c.rules p).nextIndex <;> rfl
        have hdead : (delDeadIpv4HeadNodes cu).size = cu.size := rfl
        have hmod : ruleHdl % 2 ^ 16 = ruleHdl := Nat.mod_eq_of_lt (by omega)
        rw [hmod] at hparse
        unfold parseIpv4RuleHdl at hparse
        split at hparse
        · simp_all
        rename_i hlt
        split at hparse
        · cases hparse
        rename_i hne
        cases hparse
        refine .inr ⟨hok, rfl, _, _, p, cu, ⟨hne, Nat.lt_of_not_le hlt, rfl, rfl, hcur, hp⟩,
          by simpa using hen, hi, hlinks, hboth, rfl⟩
      · cases h
  · cases hpost

theorem delIpv4Rule_eq {ruleHdl cur p : Nat} {expn : Bool} {cu : IpaNatIp4TableCache}
    (hsize : c.size < 2 ^ 16) (hvalid : c.valid = true)
    (hhdl : HandleEntry c ruleHdl expn cur p) (hen : (c.rules p).enable = true)
    (hi : (c.rules p).indxTblEntry < c.size)
    (hlinks : LinksInTable c p (findRulePos expn (c.rules p).nextIndex))
    (hboth : unlinkBoth c p (c.rules p).indxTblEntry
      (findRulePos expn (c.rules p).nextIndex) = some cu) :
    delIpv4Rule true c ruleHdl =
      some (.ok (), (delDeadIpv4HeadNodes cu).setRuleId (ruleHdl - 1) 0) := by
  have hmod : ruleHdl % 2 ^ 16 = ruleHdl := Nat.mod_eq_of_lt (by have := hhdl.lt; omega)
  have hcu : (delDeadIpv4HeadNodes cu).size = c.size := by
    have hsame := unlinkBoth_sameRules hboth
    change cu.size = c.size
    unfold size
    rw [hsame.tableEntries, hsame.expnTableEntries]
    cases findRulePos expn (c.rules p).nextIndex <;> rfl
  have hslot : ruleHdl - 1 < (delDeadIpv4HeadNodes cu).size := by
    have := hhdl.lt
    omega
  have hparse : parseIpv4RuleHdl c (ruleHdl % 2 ^ 16) = some (expn, cur) := by
    have hge : ¬ ruleHdl ≥ c.size := Nat.not_le.mpr hhdl.lt
    simp only [hmod, parseIpv4RuleHdl, hge, hhdl.pos, if_false]
    rw [hhdl.expn_eq, hhdl.tblEntry_eq]
  have hpost : postDelDmaCmd true c cur expn (findRulePos expn (c.rules p).nextIndex) =
      some (.ok (), cu) := by
    simp [postDelDmaCmd, hhdl.entry, hen, hi, unlinkRule_eq hhdl.entry rfl hlinks, hboth]
  unfold delIpv4Rule
  rw [hparse]
  simp [hhdl.entry_ne, hvalid, hhdl.entry, hpost, hslot]

end EtherDevice.IpaNati
