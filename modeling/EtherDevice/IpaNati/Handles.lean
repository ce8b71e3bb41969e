import Mathlib
import EtherDevice.IpaNati.Add
import EtherDevice.IpaNati.Del
import EtherDevice.Lib.Transition

/-!
# Runs of the driver, and its rule handles

`natSystem` is one table under adds and deletes whose ioctls succeed or fail as the
environment decides. In all its runs a used slot of `rule_id_array` names a live rule, and
two slots never name the same rule (`HandlesOk`). There are two entries more than rules
can use, so a slot is always free for the next handle.
-/

namespace EtherDevice.IpaNati

open Lib IpaNatIp4TableCache

variable {c c' : IpaNatIp4TableCache}

/-! ## Runs -/

/-- A call of the driver, with the outcomes of its ioctls. -/
inductive Op
  | add (clntRule : IpaNatIpv4Rule) (dma : AddDma)
  | del (ruleHdl : Nat) (ok : Bool)

def Op.Working : Op → Prop
  | .add _ dma => dma = .working
  | .del _ ok => ok = true

/-- A freshly reset table, with a power of two as its base size. -/
def Fresh (c : IpaNatIp4TableCache) : Prop :=
  ∃ publicIpAddr n, n < 2 ^ 16 ∧ addIpv4Tbl publicIpAddr n = .ok c ∧
    ∃ k, c.tableEntries = 2 ^ k

/-- One table of the driver. Its callers add TCP and UDP rules. -/
def natSystem : System IpaNatIp4TableCache Op where
  init := Fresh
  step c op c' :=
    match op with
    | .add clntRule dma =>
      clntRule.IsTcpUdp ∧ ∃ res, addIpv4Rule dma c clntRule = some (res, c')
    | .del ruleHdl ok => ∃ res, delIpv4Rule ok c ruleHdl = some (res, c')

def workingSystem : System IpaNatIp4TableCache Op :=
  natSystem.restrict fun _ op => op.Working

theorem Fresh.fields (h : Fresh c) :
    Dims c.tableEntries c.expnTableEntries ∧ c.valid = true ∧ (∀ e, c.rules e = {}) ∧
      (∀ i, c.index i = {}) ∧ (∀ i, c.indexExpnTableMeta i = 0) ∧
      ∀ s, c.ruleIdArray s = 0 := by
  obtain ⟨pub, n, hn, hc, hpow⟩ := h
  unfold addIpv4Tbl at hc
  cases hdims : allocTable n with
  | error err =>
    rw [hdims] at hc
    cases hc
  | ok NE =>
    rw [hdims] at hc
    cases hc
    exact ⟨dims_of_allocTable hn hdims hpow, rfl, fun _ => rfl, fun _ => rfl, fun _ => rfl,
      fun _ => rfl⟩

def Op.exec (c : IpaNatIp4TableCache) : Op → Option IpaNatIp4TableCache
  | .add clntRule dma => (addIpv4Rule dma c clntRule).map Prod.snd
  | .del ruleHdl ok => (delIpv4Rule ok c ruleHdl).map Prod.snd

def execAll (c : IpaNatIp4TableCache) (ops : List Op) : Option IpaNatIp4TableCache :=
  ops.foldlM Op.exec c

def Op.Admitted : Op → Prop
  | .add clntRule dma => clntRule.IsTcpUdp ∧ dma = .working
  | .del _ ok => ok = true

instance (op : Op) : Decidable op.Admitted := by
  cases op <;> unfold Op.Admitted <;> infer_instance

theorem Op.Admitted.step {op : Op} (hop : op.Admitted) (h : op.exec c = some c') :
    workingSystem.step c op c' := by
  cases op with
  | add r dma =>
    obtain ⟨⟨res, c''⟩, hadd, rfl⟩ := Option.map_eq_some_iff.mp h
    exact ⟨hop.2, hop.1, res, hadd⟩
  | del ruleHdl ok =>
    obtain ⟨⟨res, c''⟩, hdel, rfl⟩ := Option.map_eq_some_iff.mp h
    exact ⟨hop, res, hdel⟩

theorem reachable_execAll (ops : List Op) (hc : workingSystem.Reachable c)
    (hops : ∀ op ∈ ops, op.Admitted) (h : execAll c ops = some c') :
    workingSystem.Reachable c' := by
  induction ops generalizing c with
  | nil =>
    cases h
    exact hc
  | cons op ops ih =>
    simp only [execAll, List.foldlM_cons, Option.bind_eq_bind, Option.bind_eq_some_iff] at h
    obtain ⟨c₁, h₁, h⟩ := h
    have hstep := (hops op List.mem_cons_self).step h₁
    exact ih (.step hc hstep) (fun op' h' => hops op' (List.mem_cons_of_mem op h')) h

def freshTable (tableEntries expnTableEntries : Nat) : IpaNatIp4TableCache where
  valid := true
  publicAddr := 0
  tableEntries
  expnTableEntries
  rules := fun _ => {}
  index := fun _ => {}
  indexExpnTableMeta := fun _ => 0
  ruleIdArray := fun _ => 0

theorem fresh_sixteen : Fresh (freshTable 16 4) := ⟨0, 20, by decide, rfl, 4, rfl⟩

/-! ## Contents of rules -/

def IpaNatRule.Live (r : IpaNatRule) : Prop :=
  r.enable = true ∧ r.protocol ≠ invalidProtoFieldCmp

instance (r : IpaNatRule) : Decidable r.Live := inferInstanceAs (Decidable (_ ∧ _))

structure SameContent (r r' : IpaNatRule) : Prop where
  clntRule : r'.clntRule = r.clntRule
  enable : r'.enable = r.enable

theorem SameContent.refl (r : IpaNatRule) : SameContent r r := ⟨rfl, rfl⟩

theorem SameContent.trans {r₁ r₂ r₃ : IpaNatRule} (h : SameContent r₁ r₂)
    (h' : SameContent r₂ r₃) : SameContent r₁ r₃ :=
  ⟨h'.clntRule.trans h.clntRule, h'.enable.trans h.enable⟩

theorem SameContent.live_iff {r r' : IpaNatRule} (h : SameContent r r') :
    r'.Live ↔ r.Live := by
  have hproto : r'.protocol = r.protocol := congrArg IpaNatIpv4Rule.protocol h.clntRule
  unfold IpaNatRule.Live
  rw [h.enable, hproto]

theorem SameRules.content (h : SameRules c c') (x : Nat) :
    SameContent (c.rules x) (c'.rules x) := by
  rw [h.rules x]
  exact ⟨rfl, rfl⟩

theorem IpaNatIpv4Rule.IsTcpUdp.protocol_ne {r : IpaNatIpv4Rule} (h : r.IsTcpUdp) :
    r.protocol ≠ invalidProtoFieldCmp := by
  rcases h with h | h <;> rw [h] <;> decide

def IsEntry (c : IpaNatIp4TableCache) (e : Nat) : Prop :=
  0 < e ∧ e < c.size ∧ e ≠ c.tableEntries

theorem RulePlaced.isEntry {r : IpaNatIpv4Rule} {sw : IpaNatRule} {e : Nat}
    (hd : Dims c.tableEntries c.expnTableEntries) (h : RulePlaced c r sw e) :
    IsEntry c e := by
  have hbase := hd.base
  cases h with
  | free hfree =>
    have hrange : 0 < r.dstHash c.tableEntries ∧ r.dstHash c.tableEntries ≤ _ :=
      dstHash_range (by omega)
    unfold IsEntry size
    omega
  | collision hused hlast hroom hlo hhi hfree =>
    exact ⟨by omega, hhi, by omega⟩

theorem RulePlaced.prev_lt {r : IpaNatIpv4Rule} {sw : IpaNatRule} {e : Nat}
    (hd : Dims c.tableEntries c.expnTableEntries) (h : RulePlaced c r sw e) :
    sw.prevIndex < c.size := by
  have hbase := hd.base
  have hrange : 0 < r.dstHash c.tableEntries ∧ r.dstHash c.tableEntries ≤ _ :=
    dstHash_range (by omega)
  cases h with
  | free hfree =>
    unfold size
    change 0 < _
    omega
  | collision hused hlast hroom hlo hhi hfree =>
    exact findLast_range (by omega) hlast

theorem RulePlaced.disabled {r : IpaNatIpv4Rule} {sw : IpaNatRule} {e : Nat}
    (h : RulePlaced c r sw e) : (c.rules e).enable = false := by
  cases h with
  | free hfree => exact hfree
  | collision hused hlast hroom hlo hhi hfree => exact hfree

theorem RulePlaced.clntRule {r : IpaNatIpv4Rule} {sw : IpaNatRule} {e : Nat}
    (h : RulePlaced c r sw e) : sw.clntRule = r := by
  cases h <;> rfl

theorem RulePlaced.room {r : IpaNatIpv4Rule} {sw : IpaNatRule} {e : Nat}
    (h : RulePlaced c r sw e) :
    (c.rules (r.dstHash c.tableEntries)).enable = true → expnTblFreeEntry c ≠ 0 := by
  cases h with
  | free hfree => simp [hfree]
  | collision hused hlast hroom hlo hhi hfree => exact fun _ => hroom

theorem RulePlaced.nextIndex {r : IpaNatIpv4Rule} {sw : IpaNatRule} {e : Nat}
    (h : RulePlaced c r sw e) : sw.nextIndex = 0 := by
  cases h <;> rfl

theorem linkRule_content (ok : Bool) (c : IpaNatIp4TableCache) (rule : IpaNatRule) (e : Nat) :
    (∀ x, x ≠ e → SameContent (c.rules x) ((linkRule ok c rule e).rules x)) ∧
      SameContent rule ((linkRule ok c rule e).rules e) := by
  unfold linkRule
  split
  · constructor
    · intro x hx
      by_cases hp : x = rule.prevIndex
      · simp only [modifyRule_rules, ← hp, Function.update_self, Function.update_of_ne hx]
        exact ⟨rfl, rfl⟩
      · simp only [modifyRule_rules, Function.update_of_ne hp, Function.update_of_ne hx]
        exact .refl _
    · by_cases hp : e = rule.prevIndex
      · simp only [modifyRule_rules, ← hp, Function.update_self]
        exact ⟨rfl, rfl⟩
      · simp only [modifyRule_rules, Function.update_of_ne hp, Function.update_self]
        exact .refl _
  · constructor
    · intro x hx
      simp only [modifyRule_rules, Function.update_of_ne hx]
      exact .refl _
    · simp only [modifyRule_rules, Function.update_self]
      exact .refl _

theorem installRule_content {r : IpaNatIpv4Rule} {dma : AddDma} {g : Generated}
    {cg : IpaNatIp4TableCache} {res : Except Errno Nat}
    (hd : Dims c.tableEntries c.expnTableEntries) (hgen : RuleGenerated c r g cg)
    (h : installRule dma cg g = some (res, c')) :
    (∀ x, x ≠ g.tblEntry → SameContent (c.rules x) (c'.rules x)) ∧
      (c'.rules g.tblEntry).clntRule = r ∧
      (dma.enable = true → (c'.rules g.tblEntry).enable = true) := by
  have htable := hgen.table
  have hrules : cg.rules = c.rules ∧ cg.size = c.size := by
    rw [htable]
    split <;> exact ⟨rfl, rfl⟩
  have he : g.tblEntry < cg.size := hrules.2 ▸ (hgen.rulePlaced.isEntry hd).2.1
  have hprev : g.rule.prevIndex < cg.size := by
    rw [hrules.2]
    have hlt := hgen.rulePlaced.prev_lt hd
    exact hlt
  obtain ⟨ci, hci, hout⟩ := installRule_cases he hprev h
  have hframe := congrArg IpaNatIp4TableCache.rules (copyIpv4IndexRuleToHw_frame hci)
  obtain ⟨hothers, hnew⟩ := linkRule_content dma.link cg g.rule g.tblEntry
  rw [← hframe, hrules.1] at hothers
  rw [← hframe] at hnew
  have hclnt : (ci.rules g.tblEntry).clntRule = r :=
    hnew.clntRule.trans hgen.rulePlaced.clntRule
  -- enabling the rule changes no other one
  have hcases : c'.rules = ci.rules ∧ dma.enable = false ∨
      c'.rules = Function.update ci.rules g.tblEntry
        { ci.rules g.tblEntry with enable := true } := by
    rcases hout with ⟨hen, -, rfl⟩ | ⟨-, -, -, rfl⟩ | ⟨-, cnt, -, -, rfl⟩
    · exact .inl ⟨rfl, hen⟩
    · exact .inr rfl
    · exact .inr rfl
  rcases hcases with ⟨hsame, hen⟩ | hset
  · simp_all
  · rw [hset]
    refine ⟨fun x hx => ?_, ?_, ?_⟩
    · simp [hx, hothers]
    · rw [Function.update_self]
      exact hclnt
    · simp

theorem modifyRule_content {x e : Nat} {f : IpaNatRule → IpaNatRule}
    (h : x = e → SameContent (c.rules x) (f (c.rules x))) :
    SameContent (c.rules x) ((c.modifyRule e f).rules x) := by
  by_cases hx : x = e
  · simp_all
  · simp only [modifyRule_rules, Function.update_of_ne hx]
    exact .refl _

theorem unlinkRuleFields_content {p x : Nat} (pos : DelType) (hx : x ≠ p) :
    SameContent (c.rules x) ((unlinkRuleFields c p pos).rules x) := by
  cases pos with
  | onlyOne =>
    unfold unlinkRuleFields
    exact modifyRule_content fun h => absurd h hx
  | head =>
    unfold unlinkRuleFields
    exact modifyRule_content fun h => absurd h hx
  | middle =>
    unfold unlinkRuleFields
    refine (modifyRule_content fun _ => ?_).trans ((modifyRule_content fun _ => ?_).trans
      (modifyRule_content fun h => absurd h hx))
    · exact ⟨rfl, rfl⟩
    · exact ⟨rfl, rfl⟩
  | last =>
    unfold unlinkRuleFields
    refine (modifyRule_content fun _ => ?_).trans (modifyRule_content fun h => absurd h hx)
    exact ⟨rfl, rfl⟩

theorem unlinkRuleFields_not_live {p : Nat} {pos : DelType} :
    ¬ ((unlinkRuleFields c p pos).rules p).Live := by
  cases pos <;> simp [unlinkRuleFields, IpaNatRule.Live]

theorem delDeadIpv4HeadNodes_live {x : Nat} :
    (((delDeadIpv4HeadNodes c).rules x).Live ↔ (c.rules x).Live) ∧
      ((c.rules x).Live → (delDeadIpv4HeadNodes c).rules x = c.rules x) := by
  grind [delDeadIpv4HeadNodes, IpaNatRule.Live]

theorem unlinkBoth_live {p i : Nat} {pos : DelType} {cu : IpaNatIp4TableCache}
    (h : unlinkBoth c p i pos = some cu) :
    ¬ ((delDeadIpv4HeadNodes cu).rules p).Live ∧
      ∀ x, x ≠ p → (((delDeadIpv4HeadNodes cu).rules x).Live ↔ (c.rules x).Live) ∧
        ((c.rules x).Live →
          SameContent (c.rules x) ((delDeadIpv4HeadNodes cu).rules x)) := by
  have hsame := unlinkBoth_sameRules h
  constructor
  · rw [delDeadIpv4HeadNodes_live.1, (hsame.content p).live_iff]
    exact unlinkRuleFields_not_live
  · intro x hx
    have hcontent : SameContent (c.rules x) (cu.rules x) :=
      (unlinkRuleFields_content _ hx).trans (hsame.content x)
    refine ⟨?_, fun hl => ?_⟩
    · rw [delDeadIpv4HeadNodes_live.1, hcontent.live_iff]
    · rw [delDeadIpv4HeadNodes_live.2 (hcontent.live_iff.mpr hl)]
      exact hcontent

/-! ## Rule ids -/

def entryOfId (tableEntries ruleId : Nat) : Nat :=
  if ruleId &&& 1 ≠ 0 then tableEntries + ruleId >>> 1 else ruleId >>> 1

theorem ruleIdOf_eq {N E e : Nat} (hd : Dims N E) (he : e < N + E) :
    ruleIdOf N e = if N ≤ e then (e - N) * 2 + 1 else e * 2 := by
  have := hd.baseLe
  have := hd.expnLe
  unfold ruleIdOf
  split
  · have hmod : ((e - N) <<< 1) % 2 ^ 16 = (e - N) <<< 1 := by
      omega
    rw [hmod, ← Nat.shiftLeft_add_eq_or_of_lt (by decide : 1 < 2 ^ 1), Nat.shiftLeft_eq]
  · omega

theorem entryOfId_ruleIdOf {N E e : Nat} (hd : Dims N E) (he : e < N + E) :
    entryOfId N (ruleIdOf N e) = e := by
  rw [ruleIdOf_eq hd he]
  unfold entryOfId
  rw [Nat.and_one_is_mod, Nat.shiftRight_eq_div_pow]
  split <;> split <;> omega

theorem ruleIdOf_ne_zero {N E e : Nat} (hd : Dims N E) (he : e < N + E) (hpos : 0 < e) :
    ruleIdOf N e ≠ 0 := by
  rw [ruleIdOf_eq hd he]
  split <;> omega

theorem entryAt_ruleIdOf {e : Nat} (hd : Dims c.tableEntries c.expnTableEntries)
    (he : e < c.size) :
    c.entryAt (decide (ruleIdOf c.tableEntries e &&& 1 ≠ 0))
      (ruleIdOf c.tableEntries e >>> 1) = some e := by
  rw [ruleIdOf_eq hd he, Nat.and_one_is_mod, Nat.shiftRight_eq_div_pow]
  by_cases hN : c.tableEntries ≤ e
  · have hodd : ((e - c.tableEntries) * 2 + 1) % 2 = 1 := by omega
    have hdiv : ((e - c.tableEntries) * 2 + 1) / 2 ^ 1 = e - c.tableEntries := by omega
    simp only [hN, if_true, hodd, hdiv]
    exact entryAt_expn hN he
  · have heven : e * 2 % 2 = 0 := by omega
    have hdiv : e * 2 / 2 ^ 1 = e := by omega
    simp only [hN, if_false, heven, hdiv]
    exact entryAt_base (by omega)

/-! ## The invariant of the handles -/

structure HandlesOk (c : IpaNatIp4TableCache) : Prop where
  dims : Dims c.tableEntries c.expnTableEntries
  valid : c.valid = true
  names : ∀ s, c.ruleIdArray s ≠ 0 → s + 1 < c.size ∧
    ∃ e, IsEntry c e ∧ c.ruleIdArray s = ruleIdOf c.tableEntries e ∧ (c.rules e).Live
  inj : ∀ s s', c.ruleIdArray s ≠ 0 → c.ruleIdArray s = c.ruleIdArray s' → s = s'

theorem HandlesOk.size_lt (h : HandlesOk c) : c.size < 2 ^ 16 := h.dims.sum_lt

theorem HandlesOk.handleEntry (h : HandlesOk c) {ruleHdl cur p : Nat} {expn : Bool}
    (hh : HandleEntry c ruleHdl expn cur p) :
    IsEntry c p ∧ c.ruleIdArray (ruleHdl - 1) = ruleIdOf c.tableEntries p ∧
      (c.rules p).Live := by
  have hne : c.ruleIdArray (ruleHdl - 1) ≠ 0 := by
    intro hz
    apply hh.entry_ne
    rw [hh.tblEntry_eq, hz]
    rfl
  obtain ⟨-, e, he, hid, hlive⟩ := h.names _ hne
  have hentry := hh.entry
  rw [hh.expn_eq, hh.tblEntry_eq, hid, entryAt_ruleIdOf h.dims he.2.1] at hentry
  simp_all

theorem HandlesOk.exists_handleEntry (h : HandlesOk c) {s : Nat}
    (hne : c.ruleIdArray s ≠ 0) :
    ∃ expn cur p, HandleEntry c (s + 1) expn cur p ∧
      c.ruleIdArray s = ruleIdOf c.tableEntries p := by
  obtain ⟨hlt, e, he, hid, -⟩ := h.names s hne
  have hpos : ruleIdOf c.tableEntries e >>> 1 ≠ 0 := by
    rw [ruleIdOf_eq h.dims he.2.1, Nat.shiftRight_eq_div_pow]
    have := he.1
    have := he.2.2
    split <;> omega
  refine ⟨_, _, e, ⟨Nat.succ_ne_zero s, hlt, rfl, rfl, ?_, ?_⟩, hid⟩
  · simp_all
  · rw [Nat.add_sub_cancel, hid]
    exact entryAt_ruleIdOf h.dims he.2.1

theorem HandlesOk.used_prefix (h : HandlesOk c) {cnt : Nat}
    (hused : ∀ s, s < cnt → c.ruleIdArray s ≠ 0) : cnt + 2 ≤ c.size := by
  have hbase := h.dims.base
  have hexpn := h.dims.expn
  let entries := ((Finset.range c.size).erase 0).erase c.tableEntries
  have hmaps : ∀ s ∈ Finset.range cnt,
      entryOfId c.tableEntries (c.ruleIdArray s) ∈ entries := by
    intro s hs
    obtain ⟨-, e, he, hid, -⟩ := h.names s (hused s (Finset.mem_range.mp hs))
    rw [hid, entryOfId_ruleIdOf h.dims he.2.1]
    simp only [entries, Finset.mem_erase, Finset.mem_range]
    exact ⟨he.2.2, by have := he.1; omega, he.2.1⟩
  have hinj : Set.InjOn (fun s => entryOfId c.tableEntries (c.ruleIdArray s))
      (Finset.range cnt : Set Nat) := by
    intro s hs s' hs' heq
    have hs := hused s (Finset.mem_range.mp (Finset.mem_coe.mp hs))
    have hs' := hused s' (Finset.mem_range.mp (Finset.mem_coe.mp hs'))
    obtain ⟨-, e, he, hid, -⟩ := h.names s hs
    obtain ⟨-, e', he', hid', -⟩ := h.names s' hs'
    simp only [hid, hid', entryOfId_ruleIdOf h.dims he.2.1,
      entryOfId_ruleIdOf h.dims he'.2.1] at heq
    subst heq
    exact h.inj s s' hs (hid.trans hid'.symm)
  have hcard := Finset.card_le_card_of_injOn _ hmaps hinj
  grind [size]

theorem freeRuleId_spec (ids : Nat → Nat) (fuel cnt : Nat) :
    (∀ s, freeRuleId ids fuel cnt = some s →
      cnt ≤ s ∧ s < cnt + fuel ∧ ids s = 0 ∧ ∀ x, cnt ≤ x → x < s → ids x ≠ 0) ∧
    (freeRuleId ids fuel cnt = none → ∀ x, cnt ≤ x → x < cnt + fuel → ids x ≠ 0) := by
  induction fuel generalizing cnt with
  | zero => exact ⟨nofun, fun _ x _ _ => by omega⟩
  | succ fuel ih =>
    unfold freeRuleId
    by_cases hz : ids cnt = 0
    · simp_all
    · simp only [hz, if_false]
      grind

theorem HandlesOk.exists_free (h : HandlesOk c) :
    ∃ cnt, freeRuleId c.ruleIdArray c.size 0 = some cnt ∧ c.ruleIdArray cnt = 0 ∧
      cnt + 1 < c.size := by
  cases hfree : freeRuleId c.ruleIdArray c.size 0 with
  | none =>
    have hall := (freeRuleId_spec c.ruleIdArray c.size 0).2 hfree
    have : c.size + 2 ≤ c.size :=
      h.used_prefix fun s hs => hall s (by omega) (by omega)
    omega
  | some cnt =>
    obtain ⟨-, -, hz, hall⟩ := (freeRuleId_spec c.ruleIdArray c.size 0).1 cnt hfree
    have : cnt + 2 ≤ c.size := h.used_prefix fun s hs => hall s (by omega) hs
    exact ⟨cnt, rfl, hz, by omega⟩

theorem handlesOk_fresh (h : Fresh c) : HandlesOk c := by
  obtain ⟨hd, hvalid, -, -, -, hids⟩ := h.fields
  exact ⟨hd, hvalid, fun s hs => absurd (hids s) hs, fun s _ hs => absurd (hids s) hs⟩

theorem HandlesOk.of_content (h : HandlesOk c) (hN : c'.tableEntries = c.tableEntries)
    (hE : c'.expnTableEntries = c.expnTableEntries) (hvalid : c'.valid = c.valid)
    (hids : c'.ruleIdArray = c.ruleIdArray)
    (hrules : ∀ x, (c.rules x).Live → SameContent (c.rules x) (c'.rules x)) :
    HandlesOk c' := by
  have hsize : c'.size = c.size := by
    unfold size
    rw [hN, hE]
  refine ⟨by rw [hN, hE]; exact h.dims, hvalid.trans h.valid, ?_, by rw [hids]; exact h.inj⟩
  intro s hs
  rw [hids] at hs ⊢
  obtain ⟨hlt, e, he, hid, hlive⟩ := h.names s hs
  refine ⟨hsize ▸ hlt, e, ⟨he.1, hsize ▸ he.2.1, hN ▸ he.2.2⟩, hN ▸ hid, ?_⟩
  exact (hrules e hlive).live_iff.mpr hlive

theorem installRule_shape {r : IpaNatIpv4Rule} {dma : AddDma} {g : Generated}
    {cg : IpaNatIp4TableCache} {res : Except Errno Nat}
    (hd : Dims c.tableEntries c.expnTableEntries) (hgen : RuleGenerated c r g cg)
    (h : installRule dma cg g = some (res, c')) :
    c'.tableEntries = c.tableEntries ∧ c'.expnTableEntries = c.expnTableEntries ∧
      c'.valid = c.valid ∧
      ((dma.enable = false ∧ res = .error .eio ∧ c'.ruleIdArray = c.ruleIdArray) ∨
       (dma.enable = true ∧ freeRuleId c.ruleIdArray c.size 0 = none ∧
          res = .error .einval) ∨
       (dma.enable = true ∧ ∃ cnt, freeRuleId c.ruleIdArray c.size 0 = some cnt ∧
          res = .ok (cnt + 1) ∧ c'.ruleIdArray = Function.update c.ruleIdArray cnt
            (ruleIdOf c.tableEntries g.tblEntry))) := by
  have hcg : cg.tableEntries = c.tableEntries ∧ cg.expnTableEntries = c.expnTableEntries ∧
      cg.valid = c.valid ∧ cg.ruleIdArray = c.ruleIdArray ∧ cg.size = c.size := by
    rw [hgen.table]
    split <;> exact ⟨rfl, rfl, rfl, rfl, rfl⟩
  obtain ⟨hN, hE, hvalid, hids, hsize⟩ := hcg
  have he : g.tblEntry < cg.size := hsize ▸ (hgen.rulePlaced.isEntry hd).2.1
  have hprev : g.rule.prevIndex < cg.size := by
    rw [hsize]
    have hlt := hgen.rulePlaced.prev_lt hd
    exact hlt
  obtain ⟨ci, hci, hout⟩ := installRule_cases he hprev h
  have hframe := copyIpv4IndexRuleToHw_frame hci
  have hci' : ci.tableEntries = cg.tableEntries ∧
      ci.expnTableEntries = cg.expnTableEntries ∧ ci.valid = cg.valid ∧
      ci.ruleIdArray = cg.ruleIdArray := by
    rw [hframe]
    unfold linkRule
    split <;> exact ⟨rfl, rfl, rfl, rfl⟩
  obtain ⟨hN', hE', hvalid', hids'⟩ := hci'
  rw [hids, hsize] at hout
  rcases hout with ⟨hen, hres, rfl⟩ | ⟨hen, hfree, hres, rfl⟩ | ⟨hen, cnt, hfree, hres, rfl⟩
  · grind
  · exact ⟨hN'.trans hN, hE'.trans hE, hvalid'.trans hvalid, .inr (.inl ⟨hen, hfree, hres⟩)⟩
  simp [hN'.trans, hN, hE'.trans, hE, hvalid'.trans, hvalid, hen, hfree, hres, hids', hids]

theorem HandlesOk.add {r : IpaNatIpv4Rule} {dma : AddDma} {res : Except Errno Nat}
    (h : HandlesOk c) (hr : r.IsTcpUdp) (hadd : addIpv4Rule dma c r = some (res, c')) :
    HandlesOk c' := by
  rcases addIpv4Rule_cases hadd with ⟨-, rfl, -⟩ | ⟨g, cg, hok, hinst⟩
  · exact h
  have hgen := generateRule_ok hok
  obtain ⟨hothers, hclnt, hen⟩ := installRule_content h.dims hgen hinst
  obtain ⟨hN, hE, hvalid, hids⟩ := installRule_shape h.dims hgen hinst
  have hentry := hgen.rulePlaced.isEntry h.dims
  -- a rule that was live is not the new one, whose entry was disabled
  have hlive : ∀ x, (c.rules x).Live → SameContent (c.rules x) (c'.rules x) := by
    intro x hl
    refine hothers x ?_
    rintro rfl
    exact absurd hl.1 (by simp [hgen.rulePlaced.disabled])
  rcases hids with ⟨-, -, hids⟩ | ⟨-, hfull, -⟩ | ⟨hena, cnt, hfree, -, hids⟩
  · exact h.of_content hN hE hvalid hids hlive
  · obtain ⟨cnt, hfree, -⟩ := h.exists_free
    rw [hfull] at hfree
    cases hfree
  have hsize : c'.size = c.size := by
    unfold size
    rw [hN, hE]
  obtain ⟨cnt', hfree', hzero, hlt⟩ := h.exists_free
  rw [hfree] at hfree'
  cases hfree'
  have hnew : (c'.rules g.tblEntry).Live := by
    refine ⟨hen hena, ?_⟩
    have hproto := congrArg IpaNatIpv4Rule.protocol hclnt
    change (c'.rules g.tblEntry).protocol = r.protocol at hproto
    rw [hproto]
    exact hr.protocol_ne
  -- no old slot names the new entry
  have hfresh : ∀ s, c.ruleIdArray s ≠ ruleIdOf c.tableEntries g.tblEntry := by
    intro s hs
    have hne : c.ruleIdArray s ≠ 0 := by
      rw [hs]
      exact ruleIdOf_ne_zero h.dims hentry.2.1 hentry.1
    obtain ⟨-, e, he, hid, hl⟩ := h.names s hne
    have heq := congrArg (entryOfId c.tableEntries) (hid.symm.trans hs)
    rw [entryOfId_ruleIdOf h.dims he.2.1, entryOfId_ruleIdOf h.dims hentry.2.1] at heq
    subst heq
    exact absurd hl.1 (by simp [hgen.rulePlaced.disabled])
  refine ⟨by rw [hN, hE]; exact h.dims, hvalid.trans h.valid, ?_, ?_⟩
  · intro s hs
    rw [hids] at hs ⊢
    by_cases hsc : s = cnt
    · subst hsc
      rw [Function.update_self]
      exact ⟨by omega, g.tblEntry, ⟨hentry.1, hsize ▸ hentry.2.1, hN ▸ hentry.2.2⟩,
        by rw [hN], hnew⟩
    · rw [Function.update_of_ne hsc] at hs ⊢
      obtain ⟨hlt', e, he, hid, hl⟩ := h.names s hs
      exact ⟨hsize ▸ hlt', e, ⟨he.1, hsize ▸ he.2.1, hN ▸ he.2.2⟩, hN ▸ hid,
        (hlive e hl).live_iff.mpr hl⟩
  · intro s s' hs heq
    rw [hids] at hs heq
    by_cases hsc : s = cnt <;> by_cases hsc' : s' = cnt
    · rw [hsc, hsc']
    · grind
    · simp_all
    · rw [Function.update_of_ne hsc] at hs heq
      rw [Function.update_of_ne hsc'] at heq
      exact h.inj s s' hs heq

theorem HandlesOk.del {ok : Bool} {ruleHdl : Nat} {res : Except Errno Unit}
    (h : HandlesOk c) (hdel : delIpv4Rule ok c ruleHdl = some (res, c')) :
    HandlesOk c' := by
  rcases delIpv4Rule_cases h.size_lt hdel with
    ⟨-, rfl⟩ | ⟨-, -, expn, cur, p, cu, hhdl, -, -, -, hboth, rfl⟩
  · exact h
  obtain ⟨-, hid, -⟩ := h.handleEntry hhdl
  obtain ⟨-, hothers⟩ := unlinkBoth_live hboth
  have hsame := unlinkBoth_sameRules hboth
  have hfields : (unlinkRuleFields c p (findRulePos expn (c.rules p).nextIndex)).tableEntries =
      c.tableEntries ∧ (unlinkRuleFields c p
        (findRulePos expn (c.rules p).nextIndex)).expnTableEntries = c.expnTableEntries ∧
      (unlinkRuleFields c p (findRulePos expn (c.rules p).nextIndex)).valid = c.valid ∧
      (unlinkRuleFields c p (findRulePos expn (c.rules p).nextIndex)).ruleIdArray =
        c.ruleIdArray := by
    cases findRulePos expn (c.rules p).nextIndex <;> exact ⟨rfl, rfl, rfl, rfl⟩
  have hN : cu.tableEntries = c.tableEntries := hsame.tableEntries.trans hfields.1
  have hE : cu.expnTableEntries = c.expnTableEntries :=
    hsame.expnTableEntries.trans hfields.2.1
  have hvalid : cu.valid = c.valid := hsame.valid.trans hfields.2.2.1
  have hids : cu.ruleIdArray = c.ruleIdArray := hsame.ruleIdArray.trans hfields.2.2.2
  let d := delDeadIpv4HeadNodes cu
  have hsize : d.size = c.size := by
    change cu.tableEntries + cu.expnTableEntries = _
    rw [hN, hE]
    rfl
  have hids' : ∀ s, (d.setRuleId (ruleHdl - 1) 0).ruleIdArray s ≠ 0 →
      s ≠ ruleHdl - 1 ∧ c.ruleIdArray s ≠ 0 ∧
        (d.setRuleId (ruleHdl - 1) 0).ruleIdArray s = c.ruleIdArray s := by
    intro s hs
    have hne : s ≠ ruleHdl - 1 := by
      rintro rfl
      simp at hs
    have heq : (d.setRuleId (ruleHdl - 1) 0).ruleIdArray s = c.ruleIdArray s := by
      rw [setRuleId_ruleIdArray, Function.update_of_ne hne]
      exact congrFun hids s
    exact ⟨hne, heq ▸ hs, heq⟩
  refine ⟨?_, hvalid.trans h.valid, ?_, ?_⟩
  · change Dims cu.tableEntries cu.expnTableEntries
    rw [hN, hE]
    exact h.dims
  · intro s hs
    obtain ⟨hne, hused, heq⟩ := hids' s hs
    obtain ⟨hlt, e, he, hide, hl⟩ := h.names s hused
    have hep : e ≠ p := by
      rintro rfl
      exact hne (h.inj _ _ hused (hide.trans hid.symm))
    refine ⟨hsize ▸ hlt, e, ⟨he.1, hsize ▸ he.2.1, ?_⟩, ?_, (hothers e hep).1.mpr hl⟩
    · exact fun heN => he.2.2 (heN.trans hN)
    · rw [heq, hide]
      exact congrArg (ruleIdOf · e) hN.symm
  · intro s s' hs heq
    obtain ⟨-, hused, hs₁⟩ := hids' s hs
    obtain ⟨-, -, hs₂⟩ := hids' s' (heq ▸ hs)
    exact h.inj s s' hused (hs₁.symm.trans (heq.trans hs₂))

theorem handlesOk_invariant : natSystem.Invariant HandlesOk where
  init _ h := handlesOk_fresh h
  step c op c' h hstep := by
    cases op with
    | add r dma =>
      obtain ⟨hr, res, hadd⟩ := hstep
      exact h.add hr hadd
    | del ruleHdl ok =>
      obtain ⟨res, hdel⟩ := hstep
      exact h.del hdel

end EtherDevice.IpaNati
