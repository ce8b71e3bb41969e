import Mathlib
import EtherDevice.IpaNati.Effects

/-!
# The effect of an add

`RulePlaced` and `IndexPlaced` say which entries a successful `ipa_nati_generate_rule`
chooses: the free head of the bucket, or a free expansion entry behind the last entry of
the bucket's list. `addIpv4Rule_cases` lists the outcomes of the whole call, and
`installRule_cases` gives the table that the writes leave.
-/

namespace EtherDevice.IpaNati

open Lib IpaNatIp4TableCache

variable {c c' cg : IpaNatIp4TableCache} {r : IpaNatIpv4Rule}

theorem freeEntryFrom_spec {busy : Nat → Bool} {fuel cnt : Nat}
    (h : freeEntryFrom busy fuel cnt ≠ 0) :
    cnt ≤ freeEntryFrom busy fuel cnt ∧ freeEntryFrom busy fuel cnt < cnt + fuel ∧
      busy (freeEntryFrom busy fuel cnt) = false := by
  induction fuel generalizing cnt with
  | zero => exact absurd rfl h
  | succ fuel ih =>
    unfold freeEntryFrom at h ⊢
    by_cases hb : busy cnt
    · simp only [hb, if_true] at h ⊢
      obtain ⟨hlo, hhi, hfree⟩ := ih h
      exact ⟨by omega, by omega, hfree⟩
    simp [hb]

theorem expnTblFreeEntry_spec {e : Nat} (hne : expnTblFreeEntry c ≠ 0)
    (he : e = expnTblFreeEntry c + c.tableEntries) :
    c.tableEntries < e ∧ e < c.size ∧ (c.rules e).enable = false := by
  grind [freeEntryFrom_spec, expnTblFreeEntry, size]

theorem indexExpnGetFreeEntry_spec {i : Nat} (hne : indexExpnGetFreeEntry c ≠ 0)
    (hi : i = indexExpnGetFreeEntry c + c.tableEntries) :
    c.tableEntries < i ∧ i < c.size ∧ (c.index i).tblEntry = 0 := by
  grind [freeEntryFrom_spec, indexExpnGetFreeEntry, size]

theorem lastEntry_range {f : Nat → Nat} {fuel prev nxt q : Nat}
    (h : lastEntry c f fuel prev nxt = some (some q)) (hn : nxt ≠ 0 ∨ prev < c.size) :
    q < c.size := by
  induction fuel generalizing prev nxt with
  | zero => cases h
  | succ fuel ih =>
    unfold lastEntry at h
    by_cases hz : nxt = 0
    · simp_all
    · simp only [hz, if_false, Option.bind_eq_bind, Option.bind_eq_some_iff] at h
      obtain ⟨e, he, h⟩ := h
      split at h
      · cases h
      · exact ih h (.inr (expnEntry_eq_some he).2.2)

theorem findLast_range {f : Nat → Nat} {h q : Nat} (hh : h < c.size)
    (hq : findLast c f h = some (some q)) : q < c.size := by
  unfold findLast at hq
  split at hq
  · cases hq
    exact hh
  · rename_i hne
    exact lastEntry_range hq (.inl hne)

theorem lastEntry_walk {f : Nat → Nat} {l : List Nat} {fuel prev b : Nat}
    (hwalk : Walk f b l) (hb : b ≠ 0) (hnd : (b :: l).Nodup)
    (hin : ∀ x ∈ b :: l, c.tableEntries ≤ x ∧ x < c.size) (hfuel : l.length + 1 < fuel) :
    lastEntry c f fuel prev b = some (some (lastOf b l)) := by
  induction l generalizing fuel prev b with
  | nil =>
    obtain ⟨fuel, rfl⟩ : ∃ n, fuel = n + 2 := ⟨fuel - 2, by omega⟩
    obtain ⟨hlo, hhi⟩ := hin b List.mem_cons_self
    have hend : f b = 0 := hwalk
    simp [lastEntry, hb, expnEntry_of_range hlo hhi, hend, lastOf]
  | cons d l ih =>
    obtain ⟨fuel, rfl⟩ : ∃ n, fuel = n + 1 := ⟨fuel - 1, by omega⟩
    obtain ⟨hlo, hhi⟩ := hin b List.mem_cons_self
    obtain ⟨hnext, hd, htail⟩ := hwalk
    simp_all [lastEntry, lastOf, expnEntry_of_range]

theorem findLast_chained {f : Nat → Nat} {L : Links} {chain : Nat → List Nat} {h : Nat}
    (hc : Chained c.tableEntries c.expnTableEntries L chain) (hf : L.next = f)
    (hsize : c.size < 2 ^ 16) (hh : h < c.tableEntries) (hu : L.used h) :
    findLast c f h = some (some (lastOf h (chain h))) := by
  subst hf
  have hwalk := hc.walk h hh hu
  have hnd := hc.nodup h
  have hlen := hc.length_le h
  unfold findLast
  cases hl : chain h with
  | nil =>
    rw [hl] at hwalk
    have hend : L.next h = 0 := hwalk
    rw [if_pos hend]
    rfl
  | cons b l =>
    rw [hl] at hwalk hnd hlen
    obtain ⟨hnext, hb, htail⟩ := hwalk
    rw [hnext, if_neg hb]
    refine lastEntry_walk htail hb hnd (fun x hx => ?_) ?_
    · obtain ⟨hlo, hhi, -⟩ := hc.mem h x (hl ▸ hx)
      exact ⟨Nat.le_of_lt hlo, hhi⟩
    · unfold size at hsize
      simp only [List.length_cons] at hlen
      omega

inductive RulePlaced (c : IpaNatIp4TableCache) (r : IpaNatIpv4Rule) :
    IpaNatRule → Nat → Prop
  | free (hfree : (c.rules (r.dstHash c.tableEntries)).enable = false) :
      RulePlaced c r (swRuleOf c.publicAddr r) (r.dstHash c.tableEntries)
  | collision {e prev : Nat}
      (hused : (c.rules (r.dstHash c.tableEntries)).enable = true)
      (hlast : findLast c (fun e => (c.rules e).nextIndex) (r.dstHash c.tableEntries) =
        some (some prev))
      (hroom : expnTblFreeEntry c ≠ 0) (hlo : c.tableEntries < e) (hhi : e < c.size)
      (hfree : (c.rules e).enable = false) :
      RulePlaced c r { swRuleOf c.publicAddr r with prevIndex := prev } e

inductive IndexPlaced (c : IpaNatIp4TableCache) (r : IpaNatIpv4Rule) (tblEntry : Nat) :
    IpaNatIndxTblSwRule → Nat → Prop
  | free (hfree : (c.index (r.srcHash c.tableEntries)).tblEntry = 0) :
      IndexPlaced c r tblEntry { tblEntry } (r.srcHash c.tableEntries)
  | collision {i prev : Nat}
      (hused : (c.index (r.srcHash c.tableEntries)).tblEntry ≠ 0)
      (hlast : findLast c (fun i => (c.index i).nextIndex) (r.srcHash c.tableEntries) =
        some (some prev))
      (hroom : indexExpnGetFreeEntry c ≠ 0) (hlo : c.tableEntries < i) (hhi : i < c.size)
      (hfree : (c.index i).tblEntry = 0)
      (hne : prev ≠ i) :
      IndexPlaced c r tblEntry { tblEntry, prevIndex := prev } i

theorem generateTblRule_placed {sw : IpaNatRule} {e : Nat}
    (h : generateTblRule c r = some (sw, e)) (he : e ≠ 0) : RulePlaced c r sw e := by
  unfold generateTblRule at h
  by_cases hen : (c.rules (r.dstHash c.tableEntries)).enable
  · simp only [hen, not_true, if_false, Option.bind_eq_bind, Option.bind_eq_some_iff] at h
    obtain ⟨q, hlast, h⟩ := h
    cases q with
    | none =>
      cases h
      exact absurd rfl he
    | some prev =>
      simp only at h
      split at h
      · cases h
        exact absurd rfl he
      · rename_i hroom
        cases h
        obtain ⟨hlo, hhi, hfree⟩ := expnTblFreeEntry_spec hroom rfl
        exact .collision hen hlast hroom hlo hhi hfree
  · simp only [hen] at h
    cases h
    exact .free (by simpa using hen)

theorem generateIndexRule_placed {tblEntry : Nat} {sw : IpaNatIndxTblSwRule} {i : Nat}
    (h : generateIndexRule c r tblEntry = some (sw, i)) (hi : i ≠ 0) :
    IndexPlaced c r tblEntry sw i := by
  unfold generateIndexRule at h
  by_cases hen : (c.index (r.srcHash c.tableEntries)).tblEntry = 0
  · simp only [hen, if_true] at h
    cases h
    exact .free hen
  · simp only [hen, if_false, Option.bind_eq_bind, Option.bind_eq_some_iff] at h
    obtain ⟨q, hlast, h⟩ := h
    cases q with
    | none =>
      cases h
      exact absurd rfl hi
    | some prev =>
      simp only at h
      split at h
      · cases h
        exact absurd rfl hi
      · rename_i hroom
        split at h
        · cases h
          exact absurd rfl hi
        · rename_i hne
          cases h
          obtain ⟨hlo, hhi, hfree⟩ := indexExpnGetFreeEntry_spec hroom rfl
          exact .collision hen hlast hroom hlo hhi hfree hne

structure RuleGenerated (c : IpaNatIp4TableCache) (r : IpaNatIpv4Rule) (g : Generated)
    (cg : IpaNatIp4TableCache) : Prop where
  rulePlaced : RulePlaced c r { g.rule with indxTblEntry := 0 } g.tblEntry
  indexPlaced : IndexPlaced c r g.tblEntry g.indexSwRule g.indxTblEntry
  indxTblEntry : g.rule.indxTblEntry = g.indxTblEntry
  table : cg = if g.indxTblEntry ≥ c.tableEntries then
    c.setMeta (g.indxTblEntry - c.tableEntries) g.indexSwRule.prevIndex else c

theorem generateRule_ok {g : Generated} (h : generateRule c r = some (.ok (g, cg))) :
    RuleGenerated c r g cg := by
  unfold generateRule at h
  simp only [Option.bind_eq_bind, Option.bind_eq_some_iff] at h
  obtain ⟨⟨sw, e⟩, hrule, h⟩ := h
  split at h
  · cases h
  · rename_i he
    simp only [Option.bind_eq_some_iff] at h
    obtain ⟨⟨isw, i⟩, hindex, h⟩ := h
    split at h
    · cases h
    · rename_i hi
      cases h
      have hplaced := generateTblRule_placed hrule he
      refine ⟨?_, generateIndexRule_placed hindex hi, rfl, rfl⟩
      have hsw : { sw with indxTblEntry := 0 } = sw := by
        cases hplaced <;> rfl
      exact hsw ▸ hplaced

theorem generateRule_error {err : Errno} (h : generateRule c r = some (.error err)) :
    err = .einval := by
  unfold generateRule at h
  grind [Option.bind_eq_some_iff]

theorem addIpv4Rule_cases {dma : AddDma} {res : Except Errno Nat}
    (h : addIpv4Rule dma c r = some (res, c')) :
    (res = .error .einval ∧ c' = c ∧ generateRule c r = some (.error .einval)) ∨
      ∃ g cg, generateRule c r = some (.ok (g, cg)) ∧
        installRule dma cg g = some (res, c') := by
  unfold addIpv4Rule at h
  grind [Option.bind_eq_some_iff, generateRule_error]

def linkRule (ok : Bool) (c : IpaNatIp4TableCache) (rule : IpaNatRule) (e : Nat) :
    IpaNatIp4TableCache :=
  if rule.prevIndex ≠ 0 ∧ ok = true then
    (c.modifyRule e fun _ => rule).modifyRule rule.prevIndex fun p => { p with nextIndex := e }
  else c.modifyRule e fun _ => rule

theorem copyIpv4RuleToHw_eq {ok : Bool} {rule : IpaNatRule} {e : Nat}
    (hprev : rule.prevIndex < c.size) :
    copyIpv4RuleToHw ok c rule e = some (linkRule ok c rule e) := by
  unfold copyIpv4RuleToHw linkRule writeNextIndex
  cases ok with
  | false => simp
  | true =>
    by_cases hz : rule.prevIndex = 0
    · simp [hz]
    · have hp : rule.prevIndex < (c.modifyRule e fun _ => rule).size := hprev
      have hdma := dmaOne_nextFieldCmd e hp
      simp [hz, hdma]

theorem copyIpv4IndexRuleToHw_frame {ok : Bool} {isw : IpaNatIndxTblSwRule} {i : Nat}
    (h : copyIpv4IndexRuleToHw ok c isw i = some c') : c' = { c with index := c'.index } := by
  unfold copyIpv4IndexRuleToHw writeNextIndex at h
  cases ok with
  | false =>
    split at h <;>
    · cases h
      rfl
  | true =>
    split at h
    · have hframe := dmaOne_index (by exact isIndex_indexNextFieldCmd isw.prevIndex i) h
      exact hframe
    · cases h
      rfl

def linkIndex (c : IpaNatIp4TableCache) (isw : IpaNatIndxTblSwRule) (i : Nat) :
    IpaNatIp4TableCache :=
  if isw.prevIndex ≠ 0 then
    (c.modifyIndex i fun _ => ⟨isw.tblEntry, isw.nextIndex⟩).modifyIndex isw.prevIndex
      fun p => { p with nextIndex := i }
  else c.modifyIndex i fun _ => ⟨isw.tblEntry, isw.nextIndex⟩

theorem copyIpv4IndexRuleToHw_eq {isw : IpaNatIndxTblSwRule} {i : Nat}
    (hE : c.expnTableEntries ≤ 2 ^ 14) (hprev : isw.prevIndex < c.size)
    (hok : isw.prevIndex < 2 ^ 14 ∨ c.tableEntries ≤ isw.prevIndex) :
    copyIpv4IndexRuleToHw true c isw i = some (linkIndex c isw i) := by
  unfold copyIpv4IndexRuleToHw linkIndex writeNextIndex
  by_cases hz : isw.prevIndex = 0
  · simp [hz]
  · let c₁ := c.modifyIndex i fun _ => (⟨isw.tblEntry, isw.nextIndex⟩ : IpaNatIndxTblRule)
    have hp : isw.prevIndex < c₁.size := hprev
    have hoff : (indexNextFieldCmd c₁ isw.prevIndex i).offset % 2 ^ 16 =
        (indexNextFieldCmd c₁ isw.prevIndex i).offset := indexNextFieldCmd_offset hE hp hok
    have hdma := dmaOne_indexNextFieldCmd i hp
    simp only [ne_eq, hz, not_false_eq_true, if_true]
    rw [hoff]
    exact hdma

theorem installRule_cases {dma : AddDma} {g : Generated} {res : Except Errno Nat}
    (he : g.tblEntry < c.size) (hprev : g.rule.prevIndex < c.size)
    (h : installRule dma c g = some (res, c')) :
    ∃ ci, copyIpv4IndexRuleToHw dma.indexLink (linkRule dma.link c g.rule g.tblEntry)
        g.indexSwRule g.indxTblEntry = some ci ∧
      ((dma.enable = false ∧ res = .error .eio ∧ c' = ci) ∨
       (dma.enable = true ∧ freeRuleId c.ruleIdArray c.size 0 = none ∧
          res = .error .einval ∧
          c' = ci.modifyRule g.tblEntry fun r => { r with enable := true }) ∨
       (dma.enable = true ∧ ∃ cnt, freeRuleId c.ruleIdArray c.size 0 = some cnt ∧
          res = .ok (cnt + 1) ∧
          c' = (ci.modifyRule g.tblEntry fun r => { r with enable := true }).setRuleId cnt
            (ruleIdOf c.tableEntries g.tblEntry))) := by
  unfold installRule at h
  rw [copyIpv4RuleToHw_eq hprev] at h
  simp only [Option.bind_eq_bind, Option.bind_some, Option.bind_eq_some_iff] at h
  obtain ⟨ci, hci, h⟩ := h
  refine ⟨ci, hci, ?_⟩
  have hframe := copyIpv4IndexRuleToHw_frame hci
  have hids : ci.ruleIdArray = c.ruleIdArray := by
    rw [hframe]
    unfold linkRule
    split <;> rfl
  have hN : ci.tableEntries = c.tableEntries := by
    rw [hframe]
    unfold linkRule
    split <;> rfl
  have hsize : ci.size = c.size := by
    rw [hframe]
    unfold linkRule
    split <;> rfl
  by_cases hen : dma.enable
  · have hdma := dmaOne_enableCmd (hsize ▸ he)
    simp only [hen, not_true, if_false, hdma, Option.bind_some, makeRuleHdl,
      modifyRule_ruleIdArray, modifyRule_size, modifyRule_tableEntries, hids, hsize, hN] at h
    cases hfree : freeRuleId c.ruleIdArray c.size 0 with
    | none =>
      simp only [hfree, if_true] at h
      cases h
      exact .inr (.inl ⟨hen, rfl, rfl, rfl⟩)
    | some cnt =>
      simp only [hfree, Nat.succ_ne_zero, if_false] at h
      cases h
      exact .inr (.inr ⟨hen, cnt, rfl, rfl, rfl⟩)
  · simp only [hen] at h
    cases h
    exact .inl ⟨by simpa using hen, rfl, rfl⟩

end EtherDevice.IpaNati
