import Mathlib
import EtherDevice.IpaNati.DstChains

/-!
# The index table

The index table finds a rule by its source: a `src_hash` bucket is a list of index
entries, each naming a rule in its `tbl_entry`, and the rule names its index entry back.
`IndexInv` is the invariant of the two tables. It survives every call that does not link
a new index entry behind a base entry from `2 ^ 14` on (`IndexLinkWraps`), because
`ipa_nati_copy_ipv4_index_rule_to_hw` cuts the byte offset of that link to 16 bits and
writes it to another bucket.
-/

namespace EtherDevice.IpaNati

open Lib IpaNatIp4TableCache

variable {c c' cu : IpaNatIp4TableCache} {chain : Nat → List Nat}

/-! ## The invariant -/

def indexLinks (c : IpaNatIp4TableCache) : Links where
  used i := (c.index i).tblEntry ≠ 0
  next i := (c.index i).nextIndex
  prev i := c.indexExpnTableMeta (i - c.tableEntries)

structure IndexInv (c : IpaNatIp4TableCache) (chain : Nat → List Nat) : Prop where
  chained : Chained c.tableEntries c.expnTableEntries (indexLinks c) chain
  freeNext : ∀ i, i < c.tableEntries → (c.index i).tblEntry = 0 →
    (c.index i).nextIndex = 0
  names : ∀ e, e < c.size → (c.rules e).Live →
    e ≠ 0 ∧ (c.rules e).indxTblEntry < c.size ∧
      (c.index (c.rules e).indxTblEntry).tblEntry = e
  back : ∀ i, i < c.size → (c.index i).tblEntry ≠ 0 →
    (c.index i).tblEntry < c.size ∧ (c.rules (c.index i).tblEntry).Live ∧
      (c.rules (c.index i).tblEntry).indxTblEntry = i
  bucket : ∀ e, e < c.size → (c.rules e).Live →
    (c.rules e).indxTblEntry ∈
      (c.rules e).clntRule.srcHash c.tableEntries ::
        chain ((c.rules e).clntRule.srcHash c.tableEntries)

theorem indexInv_fresh (h : Fresh c) : IndexInv c fun _ => [] := by
  obtain ⟨-, -, hrules, hindex, -⟩ := h.fields
  have hunused : ∀ i, ¬ (indexLinks c).used i := by
    intro i hu
    simp [indexLinks, hindex i] at hu
  have hdead : ∀ e, ¬ (c.rules e).Live := by
    intro e hl
    simp [IpaNatRule.Live, hrules e] at hl
  refine ⟨⟨?_, ?_, ?_, ?_, ?_, ?_, ?_⟩, ?_, ?_, ?_, ?_⟩
  · exact fun i _ hu => absurd hu (hunused i)
  · exact fun i _ hu => absurd hu (hunused i)
  · exact fun _ => List.nodup_nil
  · simp
  · simp
  · exact fun i _ _ hu => absurd hu (hunused i)
  · exact fun i hne => absurd rfl hne
  · exact fun i _ _ => by rw [hindex i]
  · exact fun e _ hl => absurd hl (hdead e)
  · exact fun i _ hu => absurd hu (hunused i)
  · exact fun e _ hl => absurd hl (hdead e)

theorem IndexInv.indxTblEntry_inj (h : IndexInv c chain) {x y : Nat} (hx : x < c.size)
    (hy : y < c.size) (hlx : (c.rules x).Live) (hly : (c.rules y).Live)
    (heq : (c.rules x).indxTblEntry = (c.rules y).indxTblEntry) : x = y := by
  rw [← (h.names x hx hlx).2.2, ← (h.names y hy hly).2.2, heq]

theorem srcHash_base (hd : Dims c.tableEntries c.expnTableEntries) (r : IpaNatIpv4Rule) :
    0 < r.srcHash c.tableEntries ∧ r.srcHash c.tableEntries < c.tableEntries := by
  have hbase := hd.base
  have hrange : 0 < r.srcHash c.tableEntries ∧ r.srcHash c.tableEntries ≤ _ :=
    srcHash_range (by omega)
  omega

/-! ## Adding -/

/-- Adding `r` links a new index entry behind a base entry whose byte offset does not fit
into 16 bits. -/
def IndexLinkWraps (c : IpaNatIp4TableCache) (r : IpaNatIpv4Rule) : Prop :=
  2 ^ 14 ≤ r.srcHash c.tableEntries ∧ (c.index (r.srcHash c.tableEntries)).tblEntry ≠ 0 ∧
    (c.index (r.srcHash c.tableEntries)).nextIndex = 0 ∧ indexExpnGetFreeEntry c ≠ 0 ∧
    ((c.rules (r.dstHash c.tableEntries)).enable = true → expnTblFreeEntry c ≠ 0)

instance (c : IpaNatIp4TableCache) (r : IpaNatIpv4Rule) : Decidable (IndexLinkWraps c r) :=
  inferInstanceAs (Decidable (_ ∧ _))

theorem not_indexLinkWraps_of_le (hd : Dims c.tableEntries c.expnTableEntries)
    (hN : c.tableEntries ≤ 2 ^ 14) (r : IpaNatIpv4Rule) : ¬ IndexLinkWraps c r := by
  rintro ⟨hge, -⟩
  have := (srcHash_base hd r).2
  omega

/-- The index entry `i` is new for the rule at `e`, and `prev`, if not `0`, is linked to
it. -/
structure IndexAdded (c c' : IpaNatIp4TableCache) (e prev i : Nat) : Prop where
  new : c'.index i = ⟨e, 0⟩
  link : prev ≠ 0 → c'.index prev = { c.index prev with nextIndex := i }
  other : ∀ x, x ≠ i → (prev = 0 ∨ x ≠ prev) → c'.index x = c.index x
  metaNew : c.tableEntries ≤ i → c'.indexExpnTableMeta (i - c.tableEntries) = prev
  metaOther : ∀ m, (c.tableEntries ≤ i → m ≠ i - c.tableEntries) →
    c'.indexExpnTableMeta m = c.indexExpnTableMeta m
  indxTblEntry : (c'.rules e).indxTblEntry = i
  indxTblEntryOther : ∀ x, x ≠ e → (c'.rules x).indxTblEntry = (c.rules x).indxTblEntry

theorem installRule_indexAdded {r : IpaNatIpv4Rule} {g : Generated}
    {cg : IpaNatIp4TableCache} {res : Except Errno Nat}
    (hd : Dims c.tableEntries c.expnTableEntries) (hgen : RuleGenerated c r g cg)
    (hne : g.rule.prevIndex ≠ g.tblEntry)
    (hine : g.indexSwRule.prevIndex ≠ g.indxTblEntry)
    (hilt : g.indexSwRule.prevIndex < c.size)
    (hok : g.indexSwRule.prevIndex < 2 ^ 14 ∨ c.tableEntries ≤ g.indexSwRule.prevIndex)
    (h : installRule .working cg g = some (res, c')) :
    IndexAdded c c' g.tblEntry g.indexSwRule.prevIndex g.indxTblEntry := by
  have hcg : cg.rules = c.rules ∧ cg.index = c.index ∧ cg.size = c.size ∧
      cg.tableEntries = c.tableEntries ∧ cg.expnTableEntries = c.expnTableEntries := by
    rw [hgen.table]
    split <;> exact ⟨rfl, rfl, rfl, rfl, rfl⟩
  obtain ⟨hrules, hindex, hsize, hN, hE⟩ := hcg
  have he : g.tblEntry < cg.size := hsize ▸ (hgen.rulePlaced.isEntry hd).2.1
  have hprev : g.rule.prevIndex < cg.size := by
    rw [hsize]
    have hlt := hgen.rulePlaced.prev_lt hd
    exact hlt
  obtain ⟨ci, hci, hout⟩ := installRule_cases he hprev h
  let cl := linkRule true cg g.rule g.tblEntry
  have hcl : cl.index = c.index ∧ cl.size = c.size ∧ cl.tableEntries = c.tableEntries ∧
      cl.expnTableEntries = c.expnTableEntries ∧
      cl.indexExpnTableMeta = cg.indexExpnTableMeta := by
    simp only [cl, linkRule]
    split <;> exact ⟨hindex, hsize, hN, hE, rfl⟩
  obtain ⟨hlindex, hlsize, hlN, hlE, hlmeta⟩ := hcl
  have hcopy : copyIpv4IndexRuleToHw true cl g.indexSwRule g.indxTblEntry =
      some (linkIndex cl g.indexSwRule g.indxTblEntry) := by
    refine copyIpv4IndexRuleToHw_eq ?_ (hlsize ▸ hilt) ?_
    · have := hd.expnLe
      omega
    · rw [hlN]
      exact hok
  have hcieq : ci = linkIndex cl g.indexSwRule g.indxTblEntry := by
    have heq := hci.symm.trans hcopy
    simpa using heq
  have hc' : c'.index = ci.index ∧ c'.indexExpnTableMeta = ci.indexExpnTableMeta ∧
      c'.rules = Function.update ci.rules g.tblEntry
        { ci.rules g.tblEntry with enable := true } := by
    rcases hout with ⟨hen, -⟩ | ⟨-, -, -, rfl⟩ | ⟨-, cnt, -, -, rfl⟩
    · cases hen
    · exact ⟨rfl, rfl, rfl⟩
    · exact ⟨rfl, rfl, rfl⟩
  obtain ⟨hc'index, hc'meta, hc'rules⟩ := hc'
  have hisw : g.indexSwRule.tblEntry = g.tblEntry ∧ g.indexSwRule.nextIndex = 0 := by
    have hp := hgen.indexPlaced
    generalize g.indexSwRule = isw at hp
    generalize g.indxTblEntry = i at hp
    cases hp <;> exact ⟨rfl, rfl⟩
  have hmeta : c'.indexExpnTableMeta = cg.indexExpnTableMeta := by
    rw [hc'meta, hcieq, linkIndex]
    split <;> exact hlmeta
  have hindex' : c'.index = if g.indexSwRule.prevIndex ≠ 0 then
      Function.update (Function.update c.index g.indxTblEntry ⟨g.tblEntry, 0⟩)
        g.indexSwRule.prevIndex
        { c.index g.indexSwRule.prevIndex with nextIndex := g.indxTblEntry }
      else Function.update c.index g.indxTblEntry ⟨g.tblEntry, 0⟩ := by
    rw [hc'index, hcieq, linkIndex, hisw.1, hisw.2]
    split
    · simp only [modifyIndex_index, hlindex, Function.update_of_ne hine]
    · simp only [modifyIndex_index, hlindex]
  have hentry : ∀ x, (c'.rules x).indxTblEntry =
      if x = g.tblEntry then g.rule.indxTblEntry else (c.rules x).indxTblEntry := by
    intro x
    have hci' : ci.rules = cl.rules := by
      rw [hcieq, linkIndex]
      split <;> rfl
    rw [hc'rules, hci']
    simp only [cl, linkRule]
    by_cases hx : x = g.tblEntry
    · subst hx
      split <;> simp [Function.update_of_ne (Ne.symm hne)]
    · split
      · by_cases hxp : x = g.rule.prevIndex
        · subst hxp
          simp [hx, hrules]
        · simp [hx, hxp, hrules]
      · simp [hx, hrules]
  constructor
  · rw [hindex']
    grind
  · intro hp
    rw [hindex', if_pos hp, Function.update_self]
  · intro x hx hxp
    rw [hindex']
    grind
  · intro hi
    rw [hmeta, hgen.table, if_pos hi, setMeta_indexExpnTableMeta, Function.update_self]
  · intro m hm
    rw [hmeta, hgen.table]
    split
    · simp_all
    · rfl
  · rw [hentry, if_pos rfl, hgen.indxTblEntry]
  · intro x hx
    rw [hentry, if_neg hx]

theorem IndexAdded.tblEntry {e prev i : Nat} (h : IndexAdded c c' e prev i) (x : Nat) :
    (c'.index x).tblEntry = if x = i then e else (c.index x).tblEntry := by
  by_cases hx : x = i
  · rw [hx, h.new, if_pos rfl]
  · rw [if_neg hx]
    by_cases hp : prev = 0 ∨ x ≠ prev
    · rw [h.other x hx hp]
    · push Not at hp
      rw [hp.2, h.link hp.1]

theorem RuleAdded.size {r : IpaNatIpv4Rule} {prev e : Nat} (h : RuleAdded c c' r prev e) :
    c'.size = c.size := by
  unfold IpaNatIp4TableCache.size
  rw [h.tableEntries, h.expnTableEntries]

theorem RuleAdded.live_new {r : IpaNatIpv4Rule} {prev e : Nat}
    (h : RuleAdded c c' r prev e) (hr : r.IsTcpUdp) : (c'.rules e).Live := by
  refine ⟨h.enable, ?_⟩
  have hp := congrArg IpaNatIpv4Rule.protocol h.clntRule
  change (c'.rules e).protocol = r.protocol at hp
  rw [hp]
  exact hr.protocol_ne

theorem IndexInv.names_add (h : IndexInv c chain) {r : IpaNatIpv4Rule}
    {prev e iprev i : Nat} (hr : r.IsTcpUdp) (he : IsEntry c e)
    (hfree : (c.rules e).enable = false) (hi : i < c.size)
    (hifree : (c.index i).tblEntry = 0) (ha : RuleAdded c c' r prev e)
    (hai : IndexAdded c c' e iprev i) :
    (∀ x, x < c'.size → (c'.rules x).Live → x ≠ 0 ∧ (c'.rules x).indxTblEntry < c'.size ∧
      (c'.index (c'.rules x).indxTblEntry).tblEntry = x) ∧
    (∀ j, j < c'.size → (c'.index j).tblEntry ≠ 0 → (c'.index j).tblEntry < c'.size ∧
      (c'.rules (c'.index j).tblEntry).Live ∧
        (c'.rules (c'.index j).tblEntry).indxTblEntry = j) := by
  rw [ha.size]
  constructor
  · intro x hx hl
    by_cases hxe : x = e
    · subst hxe
      rw [hai.indxTblEntry, hai.tblEntry, if_pos rfl]
      exact ⟨by have := he.1; omega, hi, rfl⟩
    · have hlx := (ha.content hxe).live_iff.mp hl
      obtain ⟨hx0, hlt, hname⟩ := h.names x hx hlx
      rw [hai.indxTblEntryOther x hxe, hai.tblEntry, if_neg]
      · exact ⟨hx0, hlt, hname⟩
      · intro heq
        simp_all
  · intro j hj hne
    rw [hai.tblEntry] at hne ⊢
    by_cases hji : j = i
    · rw [if_pos hji]
      exact ⟨he.2.1, ha.live_new hr, hai.indxTblEntry.trans hji.symm⟩
    · rw [if_neg hji] at hne ⊢
      obtain ⟨hlt, hl, hback⟩ := h.back j hj hne
      have hxe : (c.index j).tblEntry ≠ e := by
        intro heq
        rw [heq] at hl
        exact absurd hl.1 (by simp [hfree])
      rw [hai.indxTblEntryOther _ hxe]
      exact ⟨hlt, (ha.content hxe).live_iff.mpr hl, hback⟩

theorem IndexInv.add_head (h : IndexInv c chain) {r : IpaNatIpv4Rule} {prev e i : Nat}
    (hr : r.IsTcpUdp) (he : IsEntry c e) (hfree : (c.rules e).enable = false)
    (hhash : r.srcHash c.tableEntries = i) (hi : i < c.tableEntries)
    (hifree : (c.index i).tblEntry = 0) (ha : RuleAdded c c' r prev e)
    (hai : IndexAdded c c' e 0 i) : IndexInv c' chain := by
  have hsize : i < c.size := by unfold size; omega
  obtain ⟨hnames, hback⟩ := h.names_add hr he hfree hsize hifree ha hai
  have hmeta : c'.indexExpnTableMeta = c.indexExpnTableMeta := by
    funext m
    exact hai.metaOther m fun hge => absurd hi (Nat.not_lt.mpr hge)
  refine ⟨?_, ?_, hnames, hback, ?_⟩
  · rw [ha.tableEntries, ha.expnTableEntries]
    refine h.chained.fillHead hi (by simp [indexLinks, hifree]) (fun x => ?_) ?_
      (fun x hx => ?_) (fun x _ => ?_)
    · have he0 := he.1
      simp only [indexLinks, hai.tblEntry]
      by_cases hx : x = i
      · simp [hx]
        omega
      · simp [hx]
    · simp only [indexLinks, hai.new]
    · simp only [indexLinks, hai.other x hx (.inl rfl)]
    · simp only [indexLinks, hmeta, ha.tableEntries]
  · intro x hx hz
    rw [ha.tableEntries] at hx
    by_cases hxi : x = i
    · rw [hxi, hai.new]
    · rw [hai.other x hxi (.inl rfl)] at hz ⊢
      exact h.freeNext x hx hz
  · intro x hx hl
    rw [ha.size] at hx
    rw [ha.tableEntries]
    by_cases hxe : x = e
    · rw [hxe, ha.clntRule, hai.indxTblEntry, hhash]
      exact List.mem_cons_self
    · rw [(ha.content hxe).clntRule, hai.indxTblEntryOther x hxe]
      exact h.bucket x hx ((ha.content hxe).live_iff.mp hl)

theorem IndexInv.add_last (h : IndexInv c chain) {r : IpaNatIpv4Rule} {prev e b i : Nat}
    (hr : r.IsTcpUdp) (he : IsEntry c e) (hfree : (c.rules e).enable = false)
    (hhash : r.srcHash c.tableEntries = b) (hb : 0 < b) (hbN : b < c.tableEntries)
    (hused : (c.index b).tblEntry ≠ 0) (hlo : c.tableEntries < i) (hhi : i < c.size)
    (hifree : (c.index i).tblEntry = 0) (ha : RuleAdded c c' r prev e)
    (hai : IndexAdded c c' e (lastOf b (chain b)) i) :
    IndexInv c' (Function.update chain b (chain b ++ [i])) := by
  obtain ⟨hnames, hback⟩ := h.names_add hr he hfree hhi hifree ha hai
  have hlastUsed : (c.index (lastOf b (chain b))).tblEntry ≠ 0 := h.chained.lastOf_used hused
  have hlastPos : lastOf b (chain b) ≠ 0 := by
    rcases List.mem_cons.mp (lastOf_mem b (chain b)) with heq | hmem
    · omega
    · have := (h.chained.mem b _ hmem).1
      omega
  refine ⟨?_, ?_, hnames, hback, ?_⟩
  · rw [ha.tableEntries, ha.expnTableEntries]
    refine h.chained.append hbN hused hlo hhi (by simp [indexLinks, hifree]) (fun x => ?_) ?_
      ?_ (fun x hx hxl => ?_) ?_ (fun x hx => ?_)
    · have he0 := he.1
      simp only [indexLinks, hai.tblEntry]
      by_cases hx : x = i
      · simp [hx]
        omega
      · simp [hx]
    · simp only [indexLinks, hai.link hlastPos]
    · simp only [indexLinks, hai.new]
    · simp only [indexLinks, hai.other x hx (.inr hxl)]
    · simp only [indexLinks, ha.tableEntries, hai.metaNew hlo.le]
    · simp only [indexLinks, ha.tableEntries]
      exact hai.metaOther _ fun _ => by omega
  · intro x hx hz
    rw [ha.tableEntries] at hx
    have hxi : x ≠ i := by omega
    rw [hai.tblEntry, if_neg hxi] at hz
    have hxl : x ≠ lastOf b (chain b) := by
      rintro rfl
      exact hlastUsed hz
    rw [hai.other x hxi (.inr hxl)]
    exact h.freeNext x hx hz
  · intro x hx hl
    rw [ha.size] at hx
    rw [ha.tableEntries]
    by_cases hxe : x = e
    · simp [hxe, ha.clntRule, hai.indxTblEntry, hhash]
    · rw [(ha.content hxe).clntRule, hai.indxTblEntryOther x hxe]
      have hmem := h.bucket x hx ((ha.content hxe).live_iff.mp hl)
      by_cases hxb : (c.rules x).clntRule.srcHash c.tableEntries = b
      · grind
      simp [hxb, hmem]

theorem IndexInv.add {dchain : Nat → List Nat} {r : IpaNatIpv4Rule}
    {res : Except Errno Nat} (h : IndexInv c chain) (hdst : DstInv c dchain)
    (hok : HandlesOk c) (hr : r.IsTcpUdp) (hwrap : ¬ IndexLinkWraps c r)
    (hadd : addIpv4Rule .working c r = some (res, c')) : ∃ chain', IndexInv c' chain' := by
  rcases addIpv4Rule_cases hadd with ⟨-, rfl, -⟩ | ⟨g, cg, hgenok, hinst⟩
  · exact ⟨chain, h⟩
  have hgen := generateRule_ok hgenok
  have hentry := hgen.rulePlaced.isEntry hok.dims
  have hdis := hgen.rulePlaced.disabled
  obtain ⟨hpos, hbase⟩ := srcHash_base hok.dims r
  have hne := hdst.prevIndex_ne hok hgen
  have hadded := installRule_added hok.dims hgen hne hinst
  have hindexed := fun hine hilt hnw =>
    installRule_indexAdded hok.dims hgen hne hine hilt hnw hinst
  have hplaced := hgen.indexPlaced
  have hroom := hgen.rulePlaced.room
  generalize g.indexSwRule = isw at hplaced hindexed
  generalize g.indxTblEntry = i at hplaced hindexed
  cases hplaced with
  | free hifree =>
    have hai := hindexed (Nat.ne_of_lt hpos) (by unfold size; simp; omega) (.inl (by simp))
    exact ⟨chain, h.add_head hr hentry hdis rfl hbase hifree hadded hai⟩
  | @collision i iprev hused hlast hiroom hlo hhi hifree hine =>
    have hfound := findLast_chained h.chained rfl hok.size_lt hbase hused
    obtain rfl : iprev = lastOf (r.srcHash c.tableEntries)
        (chain (r.srcHash c.tableEntries)) := by
      have heq := hlast.symm.trans hfound
      simpa using heq
    -- a predecessor in the base table is the bucket itself, without successors
    have hnw : lastOf (r.srcHash c.tableEntries) (chain (r.srcHash c.tableEntries)) < 2 ^ 14 ∨
        c.tableEntries ≤
          lastOf (r.srcHash c.tableEntries) (chain (r.srcHash c.tableEntries)) := by
      have hwalk := h.chained.walk _ hbase hused
      cases hl : chain (r.srcHash c.tableEntries) with
      | nil =>
        rw [hl] at hwalk
        refine .inl (Nat.lt_of_not_le fun hge => hwrap ?_)
        exact ⟨hge, hused, hwalk, hiroom, hroom⟩
      | cons d l =>
        have hmem : lastOf d l ∈ chain (r.srcHash c.tableEntries) := hl ▸ lastOf_mem d l
        exact .inr (h.chained.mem _ _ hmem).1.le
    have hai := hindexed hine (h.chained.lastOf_lt hbase) hnw
    exact ⟨_, h.add_last hr hentry hdis rfl hpos hbase hused hlo hhi hifree hadded hai⟩

/-! ## What a deletion does to the index tables -/

theorem findIndexRulePos_eq {i : Nat} :
    findIndexRulePos c i =
      if c.tableEntries ≤ i then (if (c.index i).nextIndex = 0 then .last else .middle)
      else (if (c.index i).nextIndex = 0 then .onlyOne else .head) := by
  simp [findIndexRulePos, findRulePos]

theorem unlinkBoth_onlyOne {p i : Nat} (pos : DelType) (hi : i < c.tableEntries)
    (hnext : (c.index i).nextIndex = 0) :
    ∃ cu, unlinkBoth c p i pos = some cu ∧ cu.index = Function.update c.index i {} ∧
      cu.indexExpnTableMeta = c.indexExpnTableMeta ∧
      cu.rules = (unlinkRuleFields c p pos).rules := by
  have hpos : findIndexRulePos c i = .onlyOne := by
    rw [findIndexRulePos_eq, if_neg (Nat.not_le.mpr hi), if_pos hnext]
  have hdma : dmaAll c [⟨.indxTbl, getIndexEntryOffset i + indexRuleNatIndexFieldOffset, 0⟩] =
      some (c.modifyIndex i fun r => { r with tblEntry := 0 }) := by
    simp [dmaAll, dmaOne_indxTbl_tblEntry 0 hi]
  refine ⟨_, by simp only [unlinkBoth, hpos, delIndexCmds, Option.bind_some, hdma,
    delIndexFields]; rfl, ?_, ?_, ?_⟩
  · cases pos <;> simp [unlinkRuleFields]
  · cases pos <;> simp [unlinkRuleFields]
  · cases pos <;> simp [unlinkRuleFields]

theorem unlinkBoth_head {p i n t : Nat} (pos : DelType) (hi : i < c.tableEntries)
    (hnext : (c.index i).nextIndex = n) (hn : n ≠ 0) (hlo : c.tableEntries ≤ n)
    (hhi : n < c.size) (hnn : ∀ m, m ≠ 0 → (c.index n).nextIndex = m →
      c.tableEntries ≤ m ∧ m < c.size)
    (ht : (c.index n).tblEntry = t) (htlt : t < c.size) :
    ∃ cu, unlinkBoth c p i pos = some cu ∧
      cu.index = Function.update (Function.update c.index i (c.index n)) n {} ∧
      cu.indexExpnTableMeta = (if (c.index n).nextIndex = 0 then c.indexExpnTableMeta else
        Function.update c.indexExpnTableMeta ((c.index n).nextIndex - c.tableEntries) i) ∧
      cu.rules = Function.update (unlinkRuleFields c p pos).rules t
        { (unlinkRuleFields c p pos).rules t with indxTblEntry := i } := by
  have hin : i ≠ n := by omega
  have hpos : findIndexRulePos c i = .head := by
    rw [findIndexRulePos_eq, if_neg (Nat.not_le.mpr hi), if_neg (hnext ▸ hn)]
  have hdma : dmaAll c [
      ⟨.indxTbl, getIndexEntryOffset i + indexRuleNatIndexFieldOffset, (c.index n).tblEntry⟩,
      ⟨.indxTbl, getIndexEntryOffset i + indexRuleNextFieldOffset, (c.index n).nextIndex⟩] =
      some (c.modifyIndex i fun _ => c.index n) := by
    have h₁ := dmaOne_indxTbl_tblEntry (c.index n).tblEntry hi
    have h₂ := dmaOne_indxTbl_nextIndex (c.index n).nextIndex
      (c := c.modifyIndex i fun r => { r with tblEntry := (c.index n).tblEntry }) hi
    simp only [dmaAll, List.foldlM_cons, List.foldlM_nil, h₁, Option.bind_eq_bind,
      Option.bind_some, h₂]
    simp [modifyIndex]
  let c₁ := unlinkRuleFields (c.modifyIndex i fun _ => c.index n) p pos
  have hc₁ : c₁ = { unlinkRuleFields c p pos with
      index := Function.update c.index i (c.index n) } :=
    unlinkRuleFields_index _ p pos
  have hfields : (unlinkRuleFields c p pos).tableEntries = c.tableEntries ∧
      (unlinkRuleFields c p pos).size = c.size ∧
      (unlinkRuleFields c p pos).indexExpnTableMeta = c.indexExpnTableMeta := by
    cases pos <;> exact ⟨rfl, rfl, rfl⟩
  have hN : c₁.tableEntries = c.tableEntries := by rw [hc₁]; exact hfields.1
  have hsize : c₁.size = c.size := by rw [hc₁]; exact hfields.2.1
  have hmeta : c₁.indexExpnTableMeta = c.indexExpnTableMeta := by rw [hc₁]; exact hfields.2.2
  have hindex : c₁.index = Function.update c.index i (c.index n) := by rw [hc₁]
  have hrules : c₁.rules = (unlinkRuleFields c p pos).rules := by rw [hc₁]
  have hreadn : c₁.index n = c.index n := by
    rw [hindex, Function.update_of_ne (Ne.symm hin)]
  -- the entry behind the successor gets its back link
  obtain ⟨c₂, hc₂, hindex₂, hrules₂, hsize₂, hmeta₂⟩ :
      ∃ c₂, updateNextNextPrev c₁ i n = some c₂ ∧
      c₂.index = c₁.index ∧ c₂.rules = c₁.rules ∧ c₂.size = c₁.size ∧
      c₂.indexExpnTableMeta = (if (c.index n).nextIndex = 0 then c.indexExpnTableMeta else
        Function.update c.indexExpnTableMeta ((c.index n).nextIndex - c.tableEntries) i) := by
    unfold updateNextNextPrev
    rw [hreadn, hN]
    by_cases hz : (c.index n).nextIndex = 0
    · exact ⟨c₁, by simp [hz], rfl, rfl, rfl, by simp [hz, hmeta]⟩
    simp [expnEntry_of_range, hnn, hz, hN, hsize, hmeta]
  have hread : ((c₂.modifyIndex n fun _ => {}).index i).tblEntry = t := by
    simp [hin, hindex₂, hindex, ht]
  have hlast : updateIndxTblEntry (c₂.modifyIndex n fun _ => {}) i =
      some ((c₂.modifyIndex n fun _ => {}).modifyRule t fun r =>
        { r with indxTblEntry := i }) := by
    simp_all [updateIndxTblEntry]
  refine ⟨(c₂.modifyIndex n fun _ => {}).modifyRule t fun r => { r with indxTblEntry := i },
    ?_, ?_, ?_, ?_⟩
  · simp only [unlinkBoth, hpos, delIndexCmds, hnext, expnEntry_of_range hlo hhi,
      Option.bind_eq_bind, Option.bind_some, Option.pure_def, hdma, delIndexFields]
    grind
  · simp [hindex₂, hindex]
  · simpa using hmeta₂
  · simp [hrules₂, hrules]

theorem unlinkBoth_middle {p i n prev : Nat} (pos : DelType) (hi : c.tableEntries ≤ i)
    (hnext : (c.index i).nextIndex = n) (hn : n ≠ 0) (hlo : c.tableEntries ≤ n)
    (hhi : n < c.size) (hprev : c.indexExpnTableMeta (i - c.tableEntries) = prev)
    (hplt : prev < c.size) (hpi : prev ≠ i) :
    ∃ cu, unlinkBoth c p i pos = some cu ∧
      cu.index = Function.update (Function.update c.index prev
        { c.index prev with nextIndex := n }) i {} ∧
      cu.indexExpnTableMeta = Function.update (Function.update c.indexExpnTableMeta
        (n - c.tableEntries) prev) (i - c.tableEntries) 0 ∧
      cu.rules = (unlinkRuleFields c p pos).rules := by
  have hpos : findIndexRulePos c i = .middle := by
    rw [findIndexRulePos_eq, if_pos hi, if_neg (hnext ▸ hn)]
  have hdma : dmaAll c [indexNextFieldCmd c prev n] =
      some (c.modifyIndex prev fun r => { r with nextIndex := n }) := by
    simp [dmaAll, dmaOne_indexNextFieldCmd n hplt]
  let c₁ := unlinkRuleFields (c.modifyIndex prev fun r => { r with nextIndex := n }) p pos
  have hc₁ : c₁ = { unlinkRuleFields c p pos with
      index := Function.update c.index prev { c.index prev with nextIndex := n } } :=
    unlinkRuleFields_index _ p pos
  have hfields : (unlinkRuleFields c p pos).tableEntries = c.tableEntries ∧
      (unlinkRuleFields c p pos).size = c.size ∧
      (unlinkRuleFields c p pos).indexExpnTableMeta = c.indexExpnTableMeta := by
    cases pos <;> exact ⟨rfl, rfl, rfl⟩
  have hN : c₁.tableEntries = c.tableEntries := by rw [hc₁]; exact hfields.1
  have hsize : c₁.size = c.size := by rw [hc₁]; exact hfields.2.1
  have hmeta : c₁.indexExpnTableMeta = c.indexExpnTableMeta := by rw [hc₁]; exact hfields.2.2
  have hindex : c₁.index = Function.update c.index prev
      { c.index prev with nextIndex := n } := by rw [hc₁]
  have hread : (c₁.index i).nextIndex = n := by
    rw [hindex, Function.update_of_ne (Ne.symm hpi), hnext]
  have hsoft : updateNextPrev c₁ i = some ((c₁.setMeta (n - c.tableEntries) prev).setMeta
      (i - c.tableEntries) 0) := by
    simp [updateNextPrev, expnEntry_of_range, hread, hN, hlo, hsize, hhi, hmeta, hprev]
  grind [setMeta, modifyIndex, unlinkBoth, delIndexCmds, delIndexFields]

theorem unlinkBoth_last {p i prev : Nat} (pos : DelType) (hi : c.tableEntries ≤ i)
    (hnext : (c.index i).nextIndex = 0)
    (hprev : c.indexExpnTableMeta (i - c.tableEntries) = prev) (hplt : prev < c.size) :
    ∃ cu, unlinkBoth c p i pos = some cu ∧
      cu.index = Function.update (Function.update c.index prev
        { c.index prev with nextIndex := 0 }) i {} ∧
      cu.indexExpnTableMeta = c.indexExpnTableMeta ∧
      cu.rules = (unlinkRuleFields c p pos).rules := by
  have hpos : findIndexRulePos c i = .last := by
    rw [findIndexRulePos_eq, if_pos hi, if_pos hnext]
  have hdma : dmaAll c [indexNextFieldCmd c prev 0] =
      some (c.modifyIndex prev fun r => { r with nextIndex := 0 }) := by
    simp [dmaAll, dmaOne_indexNextFieldCmd 0 hplt]
  refine ⟨_, by simp only [unlinkBoth, hpos, delIndexCmds, hprev, Option.bind_some, hdma,
    delIndexFields]; rfl, ?_, ?_, ?_⟩
  · cases pos <;> simp [unlinkRuleFields]
  · cases pos <;> simp [unlinkRuleFields]
  · cases pos <;> simp [unlinkRuleFields]

/-! ## Deleting -/

/-- The rule at `p` is gone, and the other live rules are as before. -/
structure RuleRemoved (c c' : IpaNatIp4TableCache) (p : Nat) : Prop where
  tableEntries : c'.tableEntries = c.tableEntries
  expnTableEntries : c'.expnTableEntries = c.expnTableEntries
  live : ∀ x, (c'.rules x).Live ↔ (c.rules x).Live ∧ x ≠ p
  clntRule : ∀ x, (c.rules x).Live → x ≠ p → (c'.rules x).clntRule = (c.rules x).clntRule

theorem RuleRemoved.size {p : Nat} (h : RuleRemoved c c' p) : c'.size = c.size := by
  unfold IpaNatIp4TableCache.size
  rw [h.tableEntries, h.expnTableEntries]

theorem ruleRemoved_of_unlinkBoth {p i s : Nat} {pos : DelType}
    (h : unlinkBoth c p i pos = some cu) :
    RuleRemoved c ((delDeadIpv4HeadNodes cu).setRuleId s 0) p := by
  obtain ⟨hgone, hothers⟩ := unlinkBoth_live h
  have hsame := unlinkBoth_sameRules h
  have hfields : (unlinkRuleFields c p pos).tableEntries = c.tableEntries ∧
      (unlinkRuleFields c p pos).expnTableEntries = c.expnTableEntries := by
    cases pos <;> exact ⟨rfl, rfl⟩
  refine ⟨hsame.tableEntries.trans hfields.1, hsame.expnTableEntries.trans hfields.2,
    fun x => ?_, fun x hl hx => ((hothers x hx).2 hl).clntRule⟩
  by_cases hx : x = p
  · simp [hx, hgone]
  · exact ⟨fun hl => ⟨(hothers x hx).1.mp hl, hx⟩, fun hl => (hothers x hx).1.mpr hl.1⟩

theorem unlinkRuleFields_indxTblEntry {p x : Nat} {pos : DelType} (hx : x ≠ p) :
    ((unlinkRuleFields c p pos).rules x).indxTblEntry = (c.rules x).indxTblEntry := by
  have hmod : ∀ (d : IpaNatIp4TableCache) e (f : IpaNatRule → IpaNatRule),
      (∀ r, (f r).indxTblEntry = r.indxTblEntry) →
      ((d.modifyRule e f).rules x).indxTblEntry = (d.rules x).indxTblEntry := by
    intro d e f hf
    by_cases hxe : x = e
    · rw [modifyRule_rules, hxe, Function.update_self, hf]
    · rw [modifyRule_rules, Function.update_of_ne hxe]
  cases pos with
  | onlyOne => simp [unlinkRuleFields, hx]
  | head => simp [unlinkRuleFields, hx]
  | middle =>
    simp only [unlinkRuleFields]
    rw [modifyRule_rules, Function.update_of_ne hx]
    exact (hmod _ _ _ (by intro r; rfl)).trans (hmod _ _ _ (by intro r; rfl))
  | last =>
    simp only [unlinkRuleFields]
    rw [modifyRule_rules, Function.update_of_ne hx]
    exact hmod _ _ _ (by intro r; rfl)

theorem IndexInv.remove_only (h : IndexInv c chain) {p i : Nat} (hr : RuleRemoved c c' p)
    (hp : p < c.size) (hlive : (c.rules p).Live) (hi : (c.rules p).indxTblEntry = i)
    (hiN : i < c.tableEntries) (hnext : (c.index i).nextIndex = 0)
    (hindex : c'.index = Function.update c.index i {})
    (hmeta : c'.indexExpnTableMeta = c.indexExpnTableMeta)
    (hentry : ∀ x, (c.rules x).Live → x ≠ p →
      (c'.rules x).indxTblEntry = (c.rules x).indxTblEntry) : IndexInv c' chain := by
  obtain ⟨hp0, -, hname⟩ := h.names p hp hlive
  rw [hi] at hname
  have hused : (c.index i).tblEntry ≠ 0 := by rw [hname]; exact hp0
  have hchain : chain i = [] := by
    have hend : Walk (indexLinks c).next i [] := hnext
    exact (h.chained.walk i hiN hused).unique hend
  have hsame : ∀ x, x ≠ i → c'.index x = c.index x := by
    simp_all
  have hself : c'.index i = {} := by rw [hindex, Function.update_self]
  -- the other live rules name other index entries
  have hother : ∀ x, x < c.size → (c.rules x).Live → x ≠ p →
      (c.rules x).indxTblEntry ≠ i := by
    intro x hx hl hxp heq
    exact hxp (h.indxTblEntry_inj hx hp hl hlive (heq.trans hi.symm))
  refine ⟨?_, ?_, ?_, ?_, ?_⟩
  · rw [hr.tableEntries, hr.expnTableEntries]
    refine h.chained.clearHeads (S := (· = i)) ?_ (fun x => ?_) (fun x hx => ?_)
      (fun x _ => ?_)
    · simp_all
    · by_cases hx : x = i
      · simp [indexLinks, hx, hself]
      · simp [indexLinks, hx, hsame x hx]
    · simp only [indexLinks, hsame x hx]
    · simp only [indexLinks, hmeta, hr.tableEntries]
  · intro x hx hz
    rw [hr.tableEntries] at hx
    by_cases hxi : x = i
    · rw [hxi, hself]
    · rw [hsame x hxi] at hz ⊢
      exact h.freeNext x hx hz
  · intro x hx hl
    rw [hr.size] at hx ⊢
    obtain ⟨hl, hxp⟩ := (hr.live x).mp hl
    simp [h.names, hx, hl, hentry, hxp, hsame, hother]
  · intro j hj hne
    rw [hr.size] at hj ⊢
    have hji : j ≠ i := by
      rintro rfl
      rw [hself] at hne
      exact hne rfl
    rw [hsame j hji] at hne ⊢
    obtain ⟨hlt, hl, hb⟩ := h.back j hj hne
    have hxp : (c.index j).tblEntry ≠ p := by
      intro heq
      simp_all
    exact ⟨hlt, (hr.live _).mpr ⟨hl, hxp⟩, (hentry _ hl hxp).trans hb⟩
  · intro x hx hl
    rw [hr.size] at hx
    obtain ⟨hl, hxp⟩ := (hr.live x).mp hl
    rw [hr.clntRule x hl hxp, hr.tableEntries, hentry x hl hxp]
    exact h.bucket x hx hl

theorem IndexInv.remove_overflow (h : IndexInv c chain) {p i b : Nat} {l₁ l₂ : List Nat}
    (hr : RuleRemoved c c' p) (hp : p < c.size) (hlive : (c.rules p).Live)
    (hi : (c.rules p).indxTblEntry = i) (hsplit : chain b = l₁ ++ i :: l₂)
    (hindex : c'.index = Function.update (Function.update c.index (lastOf b l₁)
      { c.index (lastOf b l₁) with nextIndex := (c.index i).nextIndex }) i {})
    (hback : ∀ n ∈ l₂.head?, c'.indexExpnTableMeta (n - c.tableEntries) = lastOf b l₁)
    (hprev : ∀ x, x ≠ i → x ∉ l₂.head? →
      c'.indexExpnTableMeta (x - c.tableEntries) = c.indexExpnTableMeta (x - c.tableEntries))
    (hentry : ∀ x, (c.rules x).Live → x ≠ p →
      (c'.rules x).indxTblEntry = (c.rules x).indxTblEntry) :
    IndexInv c' (Function.update chain b (l₁ ++ l₂)) := by
  have hin : i ∈ chain b := by simp [hsplit]
  obtain ⟨hiN, -⟩ := h.chained.mem b i hin
  obtain ⟨hb, hub⟩ := h.chained.head_of_mem hin
  have hlast : lastOf b l₁ ≠ i := by
    have hnd := h.chained.nodup_cons hb
    grind [lastOf_mem]
  have hlastUsed : (c.index (lastOf b l₁)).tblEntry ≠ 0 := by
    have hmem : lastOf b l₁ ∈ b :: chain b := by
      rcases List.mem_cons.mp (lastOf_mem b l₁) with heq | hmem
      · simp [heq]
      · simp [hsplit, hmem]
    exact h.chained.used_of_mem hub hmem
  have htbl : ∀ x, (c'.index x).tblEntry = if x = i then 0 else (c.index x).tblEntry := by
    intro x
    rw [hindex]
    grind
  have hnextOf : ∀ x, x ≠ i → x ≠ lastOf b l₁ →
      (c'.index x).nextIndex = (c.index x).nextIndex := by
    simp_all
  have hother : ∀ x, x < c.size → (c.rules x).Live → x ≠ p →
      (c.rules x).indxTblEntry ≠ i := by
    intro x hx hl hxp heq
    exact hxp (h.indxTblEntry_inj hx hp hl hlive (heq.trans hi.symm))
  refine ⟨?_, ?_, ?_, ?_, ?_⟩
  · rw [hr.tableEntries, hr.expnTableEntries]
    refine h.chained.unlink hsplit (fun x => ?_) ?_ hnextOf ?_ ?_
    · simp only [indexLinks, htbl]
      by_cases hx : x = i <;> simp [hx]
    · simp [indexLinks, hindex, hlast]
    · simpa only [indexLinks, hr.tableEntries] using hback
    · simpa only [indexLinks, hr.tableEntries] using hprev
  · intro x hx hz
    rw [hr.tableEntries] at hx
    have hxi : x ≠ i := by omega
    rw [htbl, if_neg hxi] at hz
    have hxl : x ≠ lastOf b l₁ := by
      rintro rfl
      exact hlastUsed hz
    rw [hnextOf x hxi hxl]
    exact h.freeNext x hx hz
  · intro x hx hl
    rw [hr.size] at hx ⊢
    obtain ⟨hl, hxp⟩ := (hr.live x).mp hl
    simp [h.names, hx, hl, hentry, hxp, htbl, hother]
  · intro j hj hne
    rw [hr.size] at hj ⊢
    rw [htbl] at hne ⊢
    by_cases hji : j = i
    · exact absurd (if_pos hji) hne
    · rw [if_neg hji] at hne ⊢
      obtain ⟨hlt, hl, hbk⟩ := h.back j hj hne
      have hxp : (c.index j).tblEntry ≠ p := by
        intro heq
        simp_all
      exact ⟨hlt, (hr.live _).mpr ⟨hl, hxp⟩, (hentry _ hl hxp).trans hbk⟩
  · intro x hx hl
    rw [hr.size] at hx
    obtain ⟨hl, hxp⟩ := (hr.live x).mp hl
    have hmem := h.bucket x hx hl
    rw [hr.clntRule x hl hxp, hr.tableEntries, hentry x hl hxp]
    grind

theorem IndexInv.remove_head (h : IndexInv c chain)
    (hd : Dims c.tableEntries c.expnTableEntries) {p i n : Nat} {l : List Nat}
    (hr : RuleRemoved c c' p) (hp : p < c.size) (hlive : (c.rules p).Live)
    (hi : (c.rules p).indxTblEntry = i) (hiN : i < c.tableEntries)
    (hsplit : chain i = n :: l)
    (hindex : c'.index = Function.update (Function.update c.index i (c.index n)) n {})
    (hback : ∀ m ∈ l.head?, c'.indexExpnTableMeta (m - c.tableEntries) = i)
    (hprev : ∀ x, x ≠ n → x ∉ l.head? →
      c'.indexExpnTableMeta (x - c.tableEntries) = c.indexExpnTableMeta (x - c.tableEntries))
    (hentry : ∀ x, (c.rules x).Live → x ≠ p → (c'.rules x).indxTblEntry =
      if x = (c.index n).tblEntry then i else (c.rules x).indxTblEntry) :
    IndexInv c' (Function.update chain i l) := by
  obtain ⟨hp0, -, hname⟩ := h.names p hp hlive
  rw [hi] at hname
  have hiused : (c.index i).tblEntry ≠ 0 := by rw [hname]; exact hp0
  have hin : n ∈ chain i := by simp [hsplit]
  obtain ⟨hnN, hnsize, hnused⟩ := h.chained.mem i n hin
  have hne : i ≠ n := by omega
  obtain ⟨htlt, htlive, htback⟩ := h.back n hnsize hnused
  have htp : (c.index n).tblEntry ≠ p := by
    intro heq
    simp_all
  have htbl : ∀ x, (c'.index x).tblEntry = if x = n then 0 else
      if x = i then (c.index n).tblEntry else (c.index x).tblEntry := by
    intro x
    rw [hindex]
    grind
  have hnextOf : ∀ x, x ≠ n → x ≠ i → (c'.index x).nextIndex = (c.index x).nextIndex := by
    simp_all
  -- a live rule other than `p` and the moved one names neither `i` nor `n`
  have hother : ∀ x, x < c.size → (c.rules x).Live → x ≠ p → x ≠ (c.index n).tblEntry →
      (c.rules x).indxTblEntry ≠ i ∧ (c.rules x).indxTblEntry ≠ n := by
    intro x hx hl hxp hxt
    constructor
    · intro heq
      exact hxp (h.indxTblEntry_inj hx hp hl hlive (heq.trans hi.symm))
    · intro heq
      exact hxt (h.indxTblEntry_inj hx htlt hl htlive (heq.trans htback.symm))
  refine ⟨?_, ?_, ?_, ?_, ?_⟩
  · rw [hr.tableEntries, hr.expnTableEntries]
    refine h.chained.unlink (show chain i = [] ++ n :: l from hsplit) (fun x => ?_) ?_ hnextOf ?_ ?_
    · simp only [indexLinks, htbl]
      by_cases hx : x = n
      · simp [hx]
      · by_cases hxi : x = i
        · simp only [hxi, hne, if_false, if_true]
          exact ⟨fun _ => ⟨hiused, hne⟩, fun _ => hnused⟩
        · simp [hx, hxi]
    · simp [indexLinks, lastOf, hindex, hne]
    · simpa only [indexLinks, hr.tableEntries, lastOf] using hback
    · simpa only [indexLinks, hr.tableEntries] using hprev
  · intro x hx hz
    rw [hr.tableEntries] at hx
    have hxn : x ≠ n := by omega
    rw [htbl, if_neg hxn] at hz
    by_cases hxi : x = i
    · rw [if_pos hxi] at hz
      exact absurd hz hnused
    · rw [if_neg hxi] at hz
      rw [hnextOf x hxn hxi]
      exact h.freeNext x hx hz
  · intro x hx hl
    rw [hr.size] at hx ⊢
    obtain ⟨hl, hxp⟩ := (hr.live x).mp hl
    obtain ⟨hx0, hlt, hn⟩ := h.names x hx hl
    rw [hentry x hl hxp]
    by_cases hxt : x = (c.index n).tblEntry
    · rw [if_pos hxt, htbl, if_neg hne, if_pos rfl]
      exact ⟨hx0, by unfold IpaNatIp4TableCache.size; omega, hxt.symm⟩
    simp [hother, hx, hl, hxp, hxt, htbl, hx0, hlt, hn]
  · intro j hj hused
    rw [hr.size] at hj ⊢
    rw [htbl] at hused ⊢
    by_cases hjn : j = n
    · exact absurd (if_pos hjn) hused
    rw [if_neg hjn] at hused ⊢
    by_cases hji : j = i
    · simp [hji, htlt, hr.live, htlive, htp, hentry]
    · rw [if_neg hji] at hused ⊢
      obtain ⟨hlt, hl, hbk⟩ := h.back j hj hused
      have hxp : (c.index j).tblEntry ≠ p := by
        intro heq
        simp_all
      have hxt : (c.index j).tblEntry ≠ (c.index n).tblEntry := by
        intro heq
        simp_all
      simp [hlt, hr.live, hl, hxp, hentry, hxt, hbk]
  · intro x hx hl
    rw [hr.size] at hx
    obtain ⟨hl, hxp⟩ := (hr.live x).mp hl
    have hmem := h.bucket x hx hl
    rw [hr.clntRule x hl hxp, hr.tableEntries, hentry x hl hxp]
    by_cases hxt : x = (c.index n).tblEntry
    · -- the moved entry was on the list of `i`, so `i` is the bucket of its rule
      rw [if_pos hxt]
      rw [hxt, htback] at hmem
      rcases List.mem_cons.mp hmem with heq | hmem
      · have := (srcHash_base hd (c.rules (c.index n).tblEntry).clntRule).2
        omega
      · have hbi := h.chained.disjoint _ _ _ hmem hin
        simp [hxt, hbi]
    · obtain ⟨hxi, hxn⟩ := hother x hx hl hxp hxt
      rw [if_neg hxt]
      grind

theorem indxTblEntry_of_unlinkBoth {p x s : Nat} {pos : DelType}
    (hrules : cu.rules = (unlinkRuleFields c p pos).rules) (hl : (c.rules x).Live)
    (hx : x ≠ p) : (((delDeadIpv4HeadNodes cu).setRuleId s 0).rules x).indxTblEntry =
      (c.rules x).indxTblEntry := by
  have hlcu : (cu.rules x).Live := by
    rw [hrules]
    exact (unlinkRuleFields_content _ hx).live_iff.mpr hl
  simp_all [delDeadIpv4HeadNodes_live, unlinkRuleFields_indxTblEntry]

theorem IndexInv.unlink_only (h : IndexInv c chain) {p i : Nat} (hp : p < c.size)
    (hlive : (c.rules p).Live) (hi : (c.rules p).indxTblEntry = i) (hiN : i < c.tableEntries)
    (hnext : (c.index i).nextIndex = 0) (pos : DelType) :
    ∃ cu, unlinkBoth c p i pos = some cu ∧
      ∀ s, ∃ chain', IndexInv ((delDeadIpv4HeadNodes cu).setRuleId s 0) chain' := by
  obtain ⟨cu, hcu, hindex, hmeta, hrules⟩ := unlinkBoth_onlyOne (p := p) pos hiN hnext
  refine ⟨cu, hcu, fun s => ⟨chain, ?_⟩⟩
  exact h.remove_only (ruleRemoved_of_unlinkBoth hcu) hp hlive hi hiN hnext hindex hmeta
    fun x => indxTblEntry_of_unlinkBoth hrules

theorem IndexInv.unlink_head (h : IndexInv c chain)
    (hd : Dims c.tableEntries c.expnTableEntries) {p i n : Nat} {l : List Nat}
    (hp : p < c.size) (hlive : (c.rules p).Live) (hi : (c.rules p).indxTblEntry = i)
    (hiN : i < c.tableEntries) (hused : (c.index i).tblEntry ≠ 0) (hl : chain i = n :: l)
    (pos : DelType) :
    ∃ cu, unlinkBoth c p i pos = some cu ∧
      ∀ s, ∃ chain', IndexInv ((delDeadIpv4HeadNodes cu).setRuleId s 0) chain' := by
  have hwalk := h.chained.walk i hiN hused
  rw [hl] at hwalk
  obtain ⟨hnext, hn0, htail⟩ := hwalk
  have hin : n ∈ chain i := by simp [hl]
  obtain ⟨hlo, hhi, hnused⟩ := h.chained.mem i n hin
  obtain ⟨htlt, htlive, htback⟩ := h.back n hhi hnused
  -- the entry behind the successor
  have hsecond : ∀ m, m ∈ l.head? → c.tableEntries < m ∧ m < c.size := by
    intro m hm
    obtain ⟨h1, h2, -⟩ := h.chained.mem i m
      (by rw [hl]; exact List.mem_cons_of_mem n (List.mem_of_mem_head? hm))
    exact ⟨h1, h2⟩
  have hnn : (c.index n).nextIndex = l.headD 0 := htail.next_eq
  have hnnIn : ∀ m, m ≠ 0 → (c.index n).nextIndex = m → m ∈ l.head? := by
    intro m hm heq
    rw [hnn] at heq
    cases l with
    | nil => exact absurd heq.symm hm
    | cons d l => exact congrArg some heq
  obtain ⟨cu, hcu, hindex, hmeta, hrules⟩ := unlinkBoth_head (p := p) pos hiN hnext
    hn0 hlo.le hhi (fun m hm heq =>
      ⟨(hsecond m (hnnIn m hm heq)).1.le, (hsecond m (hnnIn m hm heq)).2⟩) rfl htlt
  refine ⟨cu, hcu, fun s => ⟨Function.update chain i l, ?_⟩⟩
  refine h.remove_head hd (ruleRemoved_of_unlinkBoth hcu) hp hlive hi hiN hl hindex ?_ ?_ ?_
  · intro m hm
    have hm' : (c.index n).nextIndex = m := by
      simp_all
    have hm0 : m ≠ 0 := by
      have := (hsecond m hm).1
      omega
    change cu.indexExpnTableMeta _ = i
    simp [hmeta, hm', hm0]
  · intro x hx hxm
    change cu.indexExpnTableMeta _ = _
    rw [hmeta]
    grind
  · intro x hlx hx
    have hlcu : (cu.rules x).Live := by
      rw [hrules]
      have hcontent := unlinkRuleFields_content (c := c) pos hx
      by_cases hxt : x = (c.index n).tblEntry
      · subst hxt
        rw [Function.update_self]
        exact hcontent.live_iff.mpr hlx
      simp [hxt, hcontent.live_iff.mpr, hlx]
    rw [setRuleId_rules, delDeadIpv4HeadNodes_live.2 hlcu, hrules]
    by_cases hxt : x = (c.index n).tblEntry
    · rw [if_pos hxt, hxt, Function.update_self]
    · rw [if_neg hxt, Function.update_of_ne hxt, unlinkRuleFields_indxTblEntry hx]

theorem IndexInv.unlink_overflow (h : IndexInv c chain) {p i : Nat} (hp : p < c.size)
    (hlive : (c.rules p).Live) (hi : (c.rules p).indxTblEntry = i) (hiN : c.tableEntries ≤ i)
    (hilt : i < c.size) (hused : (c.index i).tblEntry ≠ 0) (pos : DelType) :
    ∃ cu, unlinkBoth c p i pos = some cu ∧
      ∀ s, ∃ chain', IndexInv ((delDeadIpv4HeadNodes cu).setRuleId s 0) chain' := by
  obtain ⟨b, l₁, l₂, hb, hub, hsplit⟩ := h.chained.split hiN hilt hused
  have hback := h.chained.back b hb hub
  have hwalk := h.chained.walk b hb hub
  have hnd := h.chained.nodup_cons hb
  have hin := h.chained.mem b
  rw [hsplit] at hback hwalk hnd hin
  have hprev : c.indexExpnTableMeta (i - c.tableEntries) = lastOf b l₁ := hback.at_mid
  have hnext : (c.index i).nextIndex = l₂.headD 0 := hwalk.tail.next_eq
  have hout : i ∉ l₁ ++ l₂ :=
    (List.nodup_cons.mp (List.nodup_middle.mp (List.nodup_cons.mp hnd).2)).1
  have hlast : lastOf b l₁ < c.size ∧ lastOf b l₁ ≠ i := by
    rcases List.mem_cons.mp (lastOf_mem b l₁) with heq | hmem
    · omega
    · refine ⟨(hin _ (List.mem_append_left _ hmem)).2.1, ?_⟩
      intro heq
      simp_all
  cases l₂ with
  | nil =>
    obtain ⟨cu, hcu, hindex, hmeta, hrules⟩ := unlinkBoth_last (p := p) pos hiN
      hnext hprev hlast.1
    refine ⟨cu, hcu, fun s => ⟨Function.update chain b (l₁ ++ []), ?_⟩⟩
    refine h.remove_overflow (ruleRemoved_of_unlinkBoth hcu) hp hlive hi hsplit ?_ nofun ?_
      fun x => indxTblEntry_of_unlinkBoth hrules
    · rw [hnext]
      exact hindex
    · intro x _ _
      exact congrFun hmeta _
  | cons n l₂ =>
    have hnext : (c.index i).nextIndex = n := hnext
    obtain ⟨hnlo, hnhi, -⟩ := hin n (by simp)
    have hni : n ≠ i := by
      rintro rfl
      exact hout (by simp)
    obtain ⟨cu, hcu, hindex, hmeta, hrules⟩ := unlinkBoth_middle (p := p) pos hiN
      hnext (show n ≠ 0 by omega) hnlo.le hnhi hprev hlast.1 hlast.2
    refine ⟨cu, hcu, fun s => ⟨Function.update chain b (l₁ ++ n :: l₂), ?_⟩⟩
    have hmeta' : ∀ x, ((delDeadIpv4HeadNodes cu).setRuleId s 0).indexExpnTableMeta
        (x - c.tableEntries) = if x - c.tableEntries = i - c.tableEntries then 0 else
          if x - c.tableEntries = n - c.tableEntries then lastOf b l₁
          else c.indexExpnTableMeta (x - c.tableEntries) := by
      intro x
      change cu.indexExpnTableMeta _ = _
      rw [hmeta, Function.update_apply, Function.update_apply]
    have hilo := (hin i (by simp)).1
    refine h.remove_overflow (ruleRemoved_of_unlinkBoth hcu) hp hlive hi hsplit ?_ ?_ ?_
      fun x => indxTblEntry_of_unlinkBoth hrules
    · rw [hnext]
      exact hindex
    · intro m hm
      obtain rfl : n = m := by simpa using hm
      rw [hmeta', if_neg (by omega), if_pos rfl]
    · intro x hx hxn
      have hxn : x ≠ n := fun heq => hxn (by simp [heq])
      rw [hmeta', if_neg (by omega), if_neg (by omega)]

theorem IndexInv.unlink (h : IndexInv c chain) (hd : Dims c.tableEntries c.expnTableEntries)
    {p : Nat} (hp : p < c.size) (hlive : (c.rules p).Live) (pos : DelType) :
    ∃ cu, unlinkBoth c p (c.rules p).indxTblEntry pos = some cu ∧
      ∀ s, ∃ chain', IndexInv ((delDeadIpv4HeadNodes cu).setRuleId s 0) chain' := by
  obtain ⟨hp0, hilt, hname⟩ := h.names p hp hlive
  have hused : (c.index (c.rules p).indxTblEntry).tblEntry ≠ 0 := by rw [hname]; exact hp0
  by_cases hiN : (c.rules p).indxTblEntry < c.tableEntries
  · have hwalk := h.chained.walk _ hiN hused
    cases hl : chain (c.rules p).indxTblEntry with
    | nil =>
      rw [hl] at hwalk
      exact h.unlink_only hp hlive rfl hiN hwalk pos
    | cons n l => exact h.unlink_head hd hp hlive rfl hiN hused hl pos
  · exact h.unlink_overflow hp hlive rfl (Nat.le_of_not_lt hiN) hilt hused pos

theorem IndexInv.del {ok : Bool} {ruleHdl : Nat} {res : Except Errno Unit}
    (h : IndexInv c chain) (hok : HandlesOk c)
    (hdel : delIpv4Rule ok c ruleHdl = some (res, c')) : ∃ chain', IndexInv c' chain' := by
  rcases delIpv4Rule_cases hok.size_lt hdel with
    ⟨-, rfl⟩ | ⟨-, -, expn, cur, p, cu, hhdl, -, -, -, hboth, rfl⟩
  · exact ⟨chain, h⟩
  obtain ⟨hentry, -, hlive⟩ := hok.handleEntry hhdl
  obtain ⟨cu', hcu', hinv⟩ := h.unlink hok.dims hentry.2.1 hlive
    (findRulePos expn (c.rules p).nextIndex)
  simp_all

/-! ## The index table in every run -/

/-- The runs on a working device in which no add meets `IndexLinkWraps`. -/
def indexSafeSystem : System IpaNatIp4TableCache Op :=
  workingSystem.restrict fun c op =>
    match op with
    | .add r _ => ¬ IndexLinkWraps c r
    | .del _ _ => True

theorem indexInv_invariant : indexSafeSystem.Invariant fun c =>
    (HandlesOk c ∧ ∃ chain, DstInv c chain) ∧ ∃ chain, IndexInv c chain where
  init c h := ⟨dstInv_invariant.init c h, _, indexInv_fresh h⟩
  step c op c' h hstep := by
    obtain ⟨hdst, chain, hinv⟩ := h
    obtain ⟨hsafe, hstep⟩ := hstep
    refine ⟨dstInv_invariant.step c op c' hdst hstep, ?_⟩
    obtain ⟨hok, dchain, hdinv⟩ := hdst
    obtain ⟨hwork, hstep⟩ := hstep
    cases op with
    | add r dma =>
      obtain ⟨hr, res, hadd⟩ := hstep
      obtain rfl : dma = .working := hwork
      exact hinv.add hdinv hok hr hsafe hadd
    | del ruleHdl ok =>
      obtain ⟨res, hdel⟩ := hstep
      exact hinv.del hok hdel

/-- The index table and the rule tables are in bijection, and the index lists are well
formed. -/
structure IndexTableWellFormed (c : IpaNatIp4TableCache) : Prop where
  /-- The index entry of a live rule is in use and names that rule. -/
  names : ∀ e, e < c.size → (c.rules e).Live →
    (c.rules e).indxTblEntry < c.size ∧ e ≠ 0 ∧
      (c.index (c.rules e).indxTblEntry).tblEntry = e
  /-- An index entry in use names a live rule, whose index entry it is. -/
  back : ∀ i, i < c.size → (c.index i).tblEntry ≠ 0 →
    (c.index i).tblEntry < c.size ∧ (c.rules (c.index i).tblEntry).Live ∧
      (c.rules (c.index i).tblEntry).indxTblEntry = i
  /-- The list of an index base entry visits different index expansion entries in use,
  each with its predecessor in `index_expn_table_meta`, and ends at `0`. -/
  walk : ∀ h, h < c.tableEntries →
    ∃ l, Walk (indexLinks c).next h l ∧ l.Nodup ∧ BackLinks (indexLinks c).prev h l ∧
      ∀ i ∈ l, c.tableEntries + 1 ≤ i ∧ i < c.tableEntries + c.expnTableEntries ∧
        (c.index i).tblEntry ≠ 0
  /-- Every index expansion entry in use is on exactly one list. -/
  cover : ∀ i, c.tableEntries ≤ i → i < c.tableEntries + c.expnTableEntries →
    (c.index i).tblEntry ≠ 0 →
    ∃! h, h < c.tableEntries ∧ OnWalk (indexLinks c).next h i
  /-- The index entry of a live rule is on the list of the rule's own hash. -/
  bucket : ∀ e, e < c.size → (c.rules e).Live →
    OnWalk (indexLinks c).next ((c.rules e).clntRule.srcHash c.tableEntries)
      (c.rules e).indxTblEntry

theorem IndexInv.walk (h : IndexInv c chain) {g : Nat} (hg : g < c.tableEntries) :
    Walk (indexLinks c).next g (chain g) := by
  by_cases hu : (c.index g).tblEntry = 0
  · rw [h.chained.chain_nil_of_unused (by simpa [indexLinks] using hu)]
    exact h.freeNext g hg hu
  · exact h.chained.walk g hg hu

theorem IndexInv.wellFormed (h : IndexInv c chain)
    (hd : Dims c.tableEntries c.expnTableEntries) : IndexTableWellFormed c where
  names e he hl := by
    simp [h.names, he, hl]
  back := h.back
  walk g hg := by
    refine ⟨chain g, h.walk hg, h.chained.nodup g, ?_, h.chained.mem g⟩
    by_cases hu : (c.index g).tblEntry = 0
    · rw [h.chained.chain_nil_of_unused (by simpa [indexLinks] using hu)]
      trivial
    · exact h.chained.back g hg hu
  cover i hlo hhi hu := by
    obtain ⟨g, hmem⟩ := h.chained.cover i hlo hhi hu
    obtain ⟨hg, -⟩ := h.chained.head_of_mem hmem
    refine ⟨g, ⟨hg, chain g, h.walk hg, List.mem_cons_of_mem g hmem⟩, ?_⟩
    rintro g' ⟨hg', l, hwalk, hil⟩
    obtain rfl : l = chain g' := hwalk.unique (h.walk hg')
    rcases List.mem_cons.mp hil with rfl | hil
    · omega
    · exact h.chained.disjoint g' g i hil hmem
  bucket e he hl := by
    have hb := (srcHash_base hd (c.rules e).clntRule).2
    exact ⟨_, h.walk hb, h.bucket e he hl⟩

/-- **The index table stays in bijection with the rules** in every run in which no add
links an index entry behind a base entry from `2 ^ 14` on. -/
theorem indexTable_wellFormed (h : indexSafeSystem.Reachable c) : IndexTableWellFormed c := by
  obtain ⟨⟨hok, -⟩, chain, hinv⟩ := indexInv_invariant.reachable h
  exact hinv.wellFormed hok.dims

theorem reachable_execAll_indexSafe (ops : List Op) (hc : indexSafeSystem.Reachable c)
    (hN : c.tableEntries ≤ 2 ^ 14) (hops : ∀ op ∈ ops, op.Admitted)
    (h : execAll c ops = some c') : indexSafeSystem.Reachable c' := by
  induction ops generalizing c with
  | nil =>
    cases h
    exact hc
  | cons op ops ih =>
    simp only [execAll, List.foldlM_cons, Option.bind_eq_bind, Option.bind_eq_some_iff] at h
    obtain ⟨c₁, h₁, h⟩ := h
    have hwork := (hops op List.mem_cons_self).step h₁
    have hok := (indexInv_invariant.reachable hc).1.1
    have hstep : indexSafeSystem.step c op c₁ := by
      refine ⟨?_, hwork⟩
      cases op with
      | add r dma => exact not_indexLinkWraps_of_le hok.dims hN r
      | del ruleHdl ok => trivial
    have hN₁ : c₁.tableEntries = c.tableEntries := workingSystem_tableEntries hok hwork
    exact ih (.step hc hstep) (hN₁ ▸ hN) (fun op' h' => hops op' (List.mem_cons_of_mem op h')) h

/-- Three rules of one index bucket, of which the head is deleted: the second entry moves
into the base entry `7`, and its rule names that entry now. -/
def movedHeadCalls : List Op :=
  [.add ⟨0, 0, 1, 0, 0, 6⟩ .working, .add ⟨0, 0, 1, 0, 1, 6⟩ .working,
    .add ⟨0, 0, 1, 0, 2, 6⟩ .working, .del 1 true]

theorem indexTable_wellFormed_movedHead :
    ∃ c, execAll (freshTable 16 4) movedHeadCalls = some c ∧ c.index 7 = ⟨6, 18⟩ ∧
      (c.rules 6).indxTblEntry = 7 ∧ c.indexExpnTableMeta 2 = 7 ∧ IndexTableWellFormed c :=
  ⟨_, rfl, by decide, by decide, by decide, indexTable_wellFormed
    (reachable_execAll_indexSafe movedHeadCalls (.init fresh_sixteen) (by decide) (by decide)
      rfl)⟩

/-! ## Base tables of `2 ^ 15` entries -/

theorem fresh_large : Fresh (freshTable 32768 4096) := ⟨0, 20482, by decide, rfl, 15, rfl⟩

def wrapCalls : List Op :=
  [.add ⟨0, 0, 20000, 0, 0, 6⟩ .working, .add ⟨0, 0, 20000, 0, 1, 6⟩ .working]

/-- After two rules of the index bucket 20006 the second one is not on the bucket's
list. -/
theorem not_indexTable_wellFormed :
    ∃ c, workingSystem.Reachable c ∧ ¬ IndexTableWellFormed c := by
  have hrun : (execAll (freshTable 32768 4096) wrapCalls).isSome := by decide +kernel
  obtain ⟨c, hc⟩ := Option.isSome_iff_exists.mp hrun
  have hfields : (execAll (freshTable 32768 4096) wrapCalls).map (fun c =>
      (decide (c.rules 20007).Live, (c.rules 20007).indxTblEntry,
        (c.rules 20007).clntRule.srcHash c.tableEntries, (c.index 20006).nextIndex,
        c.size)) = some (true, 32769, 20006, 0, 36864) := by decide +kernel
  simp only [hc, Option.map_some, Option.some.injEq, Prod.mk.injEq, decide_eq_true_eq]
    at hfields
  obtain ⟨hlive, hentry, hhash, hnext, hsize⟩ := hfields
  refine ⟨c, reachable_execAll wrapCalls (.init fresh_large) (by decide) hc, fun h => ?_⟩
  obtain ⟨l, hwalk, hmem⟩ := h.bucket 20007 (by omega) hlive
  rw [hhash] at hwalk hmem
  have hend : Walk (indexLinks c).next 20006 [] := hnext
  rw [hentry, hwalk.unique hend] at hmem
  simp at hmem

end EtherDevice.IpaNati
