import Mathlib
import EtherDevice.IpaNati.Handles

/-!
# The destination chains

The rules of one `dst_hash` bucket form a list from the bucket's base entry through the
expansion table. On a working device these lists stay well formed in every run
(`dstChains_wellFormed`). The invariant is `DstInv`; the chains that it speaks about are
a function from base entries to lists of expansion entries.

A base entry whose own rule is deleted before the rules behind it stays in place with
the protocol `0xFF`; it is a dead head until its list is empty.
-/

namespace EtherDevice.IpaNati

open Lib IpaNatIp4TableCache

variable {c c' : IpaNatIp4TableCache} {chain : Nat → List Nat}

/-! ## The invariant -/

def dstLinks (c : IpaNatIp4TableCache) : Links where
  used e := (c.rules e).enable = true
  next e := (c.rules e).nextIndex
  prev e := (c.rules e).prevIndex

structure DstLists (c : IpaNatIp4TableCache) (chain : Nat → List Nat) : Prop where
  chained : Chained c.tableEntries c.expnTableEntries (dstLinks c) chain
  bucket : ∀ h, ∀ e ∈ chain h, (c.rules e).clntRule.dstHash c.tableEntries = h
  headBucket : ∀ h, h < c.tableEntries → (c.rules h).Live →
    (c.rules h).clntRule.dstHash c.tableEntries = h
  overflowLive : ∀ h, ∀ e ∈ chain h, (c.rules e).Live

structure DstInv (c : IpaNatIp4TableCache) (chain : Nat → List Nat) : Prop
    extends DstLists c chain where
  deadNext : ∀ h, h < c.tableEntries → (c.rules h).enable = true →
    (c.rules h).protocol = invalidProtoFieldCmp → (c.rules h).nextIndex ≠ 0

theorem dstInv_fresh (h : Fresh c) : DstInv c fun _ => [] := by
  obtain ⟨-, -, hrules, -⟩ := h.fields
  have hunused : ∀ e, ¬ (dstLinks c).used e := by
    intro e hu
    simp [dstLinks, hrules e] at hu
  refine { chained := ⟨?_, ?_, ?_, ?_, ?_, ?_, ?_⟩, bucket := nofun, headBucket := ?_,
           overflowLive := nofun, deadNext := ?_ }
  · exact fun h _ hu => absurd hu (hunused h)
  · exact fun h _ hu => absurd hu (hunused h)
  · exact fun _ => List.nodup_nil
  · exact nofun
  · exact nofun
  · exact fun e _ _ hu => absurd hu (hunused e)
  · exact fun h hne => absurd rfl hne
  · exact fun h _ hl => absurd hl.1 (hunused h)
  · exact fun h _ hu => absurd hu (hunused h)

theorem DstLists.of_sameRules (h : DstLists c chain) (hs : SameRules c c') :
    DstLists c' chain := by
  have hnext : ∀ x, (c'.rules x).nextIndex = (c.rules x).nextIndex := fun x => by
    rw [hs.rules x]
  have hprev : ∀ x, (c'.rules x).prevIndex = (c.rules x).prevIndex := fun x => by
    rw [hs.rules x]
  have hused : ∀ x, (c'.rules x).enable = true ↔ (c.rules x).enable = true := fun x => by
    rw [(hs.content x).enable]
  constructor
  · rw [hs.tableEntries, hs.expnTableEntries]
    exact h.chained.congr hused (fun x _ => hnext x) (fun x _ => hprev x)
  · intro g e he
    rw [(hs.content e).clntRule, hs.tableEntries]
    exact h.bucket g e he
  · intro g hg hl
    rw [hs.tableEntries] at hg ⊢
    rw [(hs.content g).clntRule]
    exact h.headBucket g hg ((hs.content g).live_iff.mp hl)
  · intro g e he
    exact (hs.content e).live_iff.mpr (h.overflowLive g e he)

/-! ## Adding -/

/-- The rule `r` is new at entry `e`, and `prev`, if not `0`, is linked to it. -/
structure RuleAdded (c c' : IpaNatIp4TableCache) (r : IpaNatIpv4Rule) (prev e : Nat) :
    Prop where
  tableEntries : c'.tableEntries = c.tableEntries
  expnTableEntries : c'.expnTableEntries = c.expnTableEntries
  clntRule : (c'.rules e).clntRule = r
  enable : (c'.rules e).enable = true
  nextIndex : (c'.rules e).nextIndex = 0
  prevIndex : (c'.rules e).prevIndex = prev
  link : prev ≠ 0 → c'.rules prev = { c.rules prev with nextIndex := e }
  other : ∀ x, x ≠ e → (prev = 0 ∨ x ≠ prev) → c'.rules x = c.rules x

theorem RuleAdded.content {r : IpaNatIpv4Rule} {prev e x : Nat}
    (h : RuleAdded c c' r prev e) (hx : x ≠ e) : SameContent (c.rules x) (c'.rules x) := by
  by_cases hp : prev = 0 ∨ x ≠ prev
  · rw [h.other x hx hp]
    exact .refl _
  · push Not at hp
    rw [hp.2, h.link hp.1]
    exact ⟨rfl, rfl⟩

theorem installRule_added {r : IpaNatIpv4Rule} {g : Generated} {cg : IpaNatIp4TableCache}
    {res : Except Errno Nat} (hd : Dims c.tableEntries c.expnTableEntries)
    (hgen : RuleGenerated c r g cg) (hne : g.rule.prevIndex ≠ g.tblEntry)
    (h : installRule .working cg g = some (res, c')) :
    RuleAdded c c' r g.rule.prevIndex g.tblEntry := by
  have hcg : cg.rules = c.rules ∧ cg.size = c.size := by
    rw [hgen.table]
    split <;> exact ⟨rfl, rfl⟩
  have he : g.tblEntry < cg.size := hcg.2 ▸ (hgen.rulePlaced.isEntry hd).2.1
  have hprev : g.rule.prevIndex < cg.size := by
    rw [hcg.2]
    have hlt := hgen.rulePlaced.prev_lt hd
    exact hlt
  obtain ⟨ci, hci, hout⟩ := installRule_cases he hprev h
  have hci' : ci.rules = (linkRule true cg g.rule g.tblEntry).rules := by
    rw [copyIpv4IndexRuleToHw_frame hci]
    rfl
  have hset : c'.rules = Function.update ci.rules g.tblEntry
      { ci.rules g.tblEntry with enable := true } := by
    rcases hout with ⟨hen, -⟩ | ⟨-, -, -, rfl⟩ | ⟨-, cnt, -, -, rfl⟩
    · cases hen
    · rfl
    · rfl
  have hnext : g.rule.nextIndex = 0 := hgen.rulePlaced.nextIndex
  obtain ⟨hN, hE, -, -⟩ := installRule_shape hd hgen h
  obtain ⟨-, hclnt, hen⟩ := installRule_content hd hgen h
  rw [hci', linkRule] at hset
  by_cases hz : g.rule.prevIndex = 0
  · rw [if_neg (by simp [hz])] at hset
    simp only [modifyRule_rules, Function.update_self, hcg.1, Function.update_idem] at hset
    refine ⟨hN, hE, hclnt, hen rfl, ?_, ?_, fun hp => absurd hz hp, fun x hx _ => ?_⟩
    · simp [hset, hnext]
    · rw [hset, Function.update_self]
    · rw [hset, Function.update_of_ne hx]
  · rw [if_pos ⟨hz, rfl⟩] at hset
    simp only [modifyRule_rules, Function.update_self, Function.update_of_ne (Ne.symm hne),
      Function.update_of_ne hne, hcg.1] at hset
    refine ⟨hN, hE, hclnt, hen rfl, ?_, ?_, fun _ => ?_, fun x hx hp => ?_⟩
    · simp [hset, hnext]
    · rw [hset, Function.update_self]
    · rw [hset, Function.update_of_ne hne, Function.update_self]
    simp [hset, hx, hp.resolve_left, hz]

theorem DstInv.add_head {r : IpaNatIpv4Rule} {e : Nat} (h : DstInv c chain)
    (hr : r.IsTcpUdp) (hhash : r.dstHash c.tableEntries = e) (he : e < c.tableEntries)
    (hfree : (c.rules e).enable = false) (ha : RuleAdded c c' r 0 e) : DstInv c' chain := by
  have hsame : ∀ x, x ≠ e → c'.rules x = c.rules x := fun x hx => ha.other x hx (.inl rfl)
  have hne : ∀ g, ∀ x ∈ chain g, x ≠ e := by
    rintro g x hx rfl
    exact h.chained.head_notMem he hx
  refine { chained := ?_, bucket := ?_, headBucket := ?_, overflowLive := ?_, deadNext := ?_ }
  · rw [ha.tableEntries, ha.expnTableEntries]
    refine h.chained.fillHead he (by simp [dstLinks, hfree]) (fun x => ?_) ha.nextIndex
      (fun x hx => ?_) (fun x hx => ?_)
    · by_cases hx : x = e
      · simp [dstLinks, hx, ha.enable]
      · simp [dstLinks, hx, hsame x hx]
    · simp only [dstLinks, hsame x hx]
    · simp only [dstLinks, hsame x hx]
  · intro g x hx
    rw [hsame x (hne g x hx), ha.tableEntries]
    exact h.bucket g x hx
  · intro g hg hl
    rw [ha.tableEntries] at hg ⊢
    by_cases hge : g = e
    · rw [hge, ha.clntRule, hhash]
    · rw [hsame g hge] at hl ⊢
      exact h.headBucket g hg hl
  · intro g x hx
    rw [hsame x (hne g x hx)]
    exact h.overflowLive g x hx
  · intro g hg hen hproto
    rw [ha.tableEntries] at hg
    by_cases hge : g = e
    · have hp := congrArg IpaNatIpv4Rule.protocol ha.clntRule
      rw [hge] at hproto
      exact absurd (hp.symm.trans hproto) hr.protocol_ne
    · rw [hsame g hge] at hen hproto ⊢
      exact h.deadNext g hg hen hproto

theorem DstInv.add_last {r : IpaNatIpv4Rule} {b e : Nat} (h : DstInv c chain)
    (hr : r.IsTcpUdp) (hhash : r.dstHash c.tableEntries = b) (hb : 0 < b)
    (hbN : b < c.tableEntries) (hused : (c.rules b).enable = true)
    (hlo : c.tableEntries < e) (hhi : e < c.size) (hfree : (c.rules e).enable = false)
    (ha : RuleAdded c c' r (lastOf b (chain b)) e) :
    DstInv c' (Function.update chain b (chain b ++ [e])) := by
  have hlastPos : lastOf b (chain b) ≠ 0 := by
    rcases List.mem_cons.mp (lastOf_mem b (chain b)) with heq | hmem
    · omega
    · have := (h.chained.mem b _ hmem).1
      omega
  have hcontent := fun x (hx : x ≠ e) => ha.content hx
  have hne : ∀ g, ∀ x ∈ chain g, x ≠ e := by
    rintro g x hx rfl
    have := (h.chained.mem g x hx).2.2
    simp [dstLinks, hfree] at this
  have hnewLive : (c'.rules e).Live := by
    have hp := congrArg IpaNatIpv4Rule.protocol ha.clntRule
    refine ⟨ha.enable, ?_⟩
    change (c'.rules e).clntRule.protocol ≠ _
    rw [hp]
    exact hr.protocol_ne
  have hmem : ∀ g x, x ∈ Function.update chain b (chain b ++ [e]) g →
      x ∈ chain g ∨ (g = b ∧ x = e) := by
    grind
  refine { chained := ?_, bucket := ?_, headBucket := ?_, overflowLive := ?_, deadNext := ?_ }
  · rw [ha.tableEntries, ha.expnTableEntries]
    refine h.chained.append hbN hused hlo hhi (by simp [dstLinks, hfree]) (fun x => ?_) ?_
      ha.nextIndex (fun x hx hxl => ?_) ha.prevIndex (fun x hx => ?_)
    · by_cases hx : x = e
      · simp [dstLinks, hx, ha.enable]
      · simp [dstLinks, hx, (hcontent x hx).enable]
    · simp only [dstLinks, ha.link hlastPos]
    · simp only [dstLinks, ha.other x hx (.inr hxl)]
    · by_cases hxl : x = lastOf b (chain b)
      · simp only [dstLinks, hxl, ha.link hlastPos]
      · simp only [dstLinks, ha.other x hx (.inr hxl)]
  · intro g x hx
    rw [ha.tableEntries]
    rcases hmem g x hx with hx | ⟨rfl, rfl⟩
    · rw [(hcontent x (hne g x hx)).clntRule]
      exact h.bucket g x hx
    · rw [ha.clntRule, hhash]
  · intro g hg hl
    rw [ha.tableEntries] at hg ⊢
    have hge : g ≠ e := by omega
    rw [(hcontent g hge).clntRule]
    exact h.headBucket g hg ((hcontent g hge).live_iff.mp hl)
  · intro g x hx
    rcases hmem g x hx with hx | ⟨-, rfl⟩
    · exact (hcontent x (hne g x hx)).live_iff.mpr (h.overflowLive g x hx)
    · exact hnewLive
  · intro g hg hen hproto
    rw [ha.tableEntries] at hg
    have hge : g ≠ e := by omega
    by_cases hgl : g = lastOf b (chain b)
    · rw [hgl, ha.link hlastPos]
      simp only
      omega
    · rw [ha.other g hge (.inr hgl)] at hen hproto ⊢
      exact h.deadNext g hg hen hproto

theorem dstHash_base (hd : Dims c.tableEntries c.expnTableEntries) (r : IpaNatIpv4Rule) :
    0 < r.dstHash c.tableEntries ∧ r.dstHash c.tableEntries < c.tableEntries := by
  have hbase := hd.base
  have hrange : 0 < r.dstHash c.tableEntries ∧ r.dstHash c.tableEntries ≤ _ :=
    dstHash_range (by omega)
  omega

theorem DstInv.prevIndex_ne {r : IpaNatIpv4Rule} {g : Generated} {cg : IpaNatIp4TableCache}
    (h : DstInv c chain) (hok : HandlesOk c) (hgen : RuleGenerated c r g cg) :
    g.rule.prevIndex ≠ g.tblEntry := by
  obtain ⟨hpos, hbase⟩ := dstHash_base hok.dims r
  have hplaced := hgen.rulePlaced
  generalize hsw : { g.rule with indxTblEntry := 0 } = sw at hplaced
  have hprev : g.rule.prevIndex = sw.prevIndex := hsw ▸ rfl
  rw [hprev]
  generalize g.tblEntry = e at hplaced
  cases hplaced with
  | free hfree => exact Nat.ne_of_lt hpos
  | @collision e prev hused hlast hroom hlo hhi hfree =>
    have hfound := findLast_chained h.chained rfl hok.size_lt hbase hused
    obtain rfl : prev = lastOf (r.dstHash c.tableEntries)
        (chain (r.dstHash c.tableEntries)) := by
      have heq := hlast.symm.trans hfound
      simpa using heq
    intro heq
    have hlastUsed : (c.rules (lastOf (r.dstHash c.tableEntries)
        (chain (r.dstHash c.tableEntries)))).enable = true := h.chained.lastOf_used hused
    simp_all

theorem DstInv.add {r : IpaNatIpv4Rule} {res : Except Errno Nat} (h : DstInv c chain)
    (hok : HandlesOk c) (hr : r.IsTcpUdp)
    (hadd : addIpv4Rule .working c r = some (res, c')) :
    ∃ chain', DstInv c' chain' := by
  rcases addIpv4Rule_cases hadd with ⟨-, rfl, -⟩ | ⟨g, cg, hgenok, hinst⟩
  · exact ⟨chain, h⟩
  have hgen := generateRule_ok hgenok
  obtain ⟨hpos, hbase⟩ := dstHash_base hok.dims r
  have hadded := installRule_added hok.dims hgen (h.prevIndex_ne hok hgen) hinst
  have hplaced := hgen.rulePlaced
  generalize hsw : { g.rule with indxTblEntry := 0 } = sw at hplaced
  have hprev : g.rule.prevIndex = sw.prevIndex := hsw ▸ rfl
  rw [hprev] at hadded
  generalize g.tblEntry = e at hplaced hadded
  cases hplaced with
  | free hfree => exact ⟨chain, h.add_head hr rfl hbase hfree hadded⟩
  | @collision e prev hused hlast hroom hlo hhi hfree =>
    have hfound := findLast_chained h.chained rfl hok.size_lt hbase hused
    obtain rfl : prev = lastOf (r.dstHash c.tableEntries)
        (chain (r.dstHash c.tableEntries)) := by
      have heq := hlast.symm.trans hfound
      simpa using heq
    exact ⟨_, h.add_last hr rfl hpos hbase hused hlo hhi hfree hadded⟩

/-! ## Deleting -/

theorem findRulePos_base {expn : Bool} {n : Nat} {pos : DelType}
    (hpos : pos = findRulePos expn n) :
    (pos = .onlyOne → expn = false ∧ n = 0) ∧ (pos = .head → expn = false ∧ n ≠ 0) ∧
      (pos = .middle → expn = true ∧ n ≠ 0) ∧ (pos = .last → expn = true ∧ n = 0) := by
  subst hpos
  unfold findRulePos
  cases expn <;> by_cases hn : n = 0 <;> simp [hn]

theorem DstLists.unlink_onlyOne (h : DstLists c chain) {p : Nat} (hp : p < c.tableEntries)
    (hused : (c.rules p).enable = true) (hnext : (c.rules p).nextIndex = 0) :
    DstLists (unlinkRuleFields c p .onlyOne) chain := by
  have hchain : chain p = [] := by
    have hend : Walk (dstLinks c).next p [] := hnext
    exact (h.chained.walk p hp hused).unique hend
  have hsame : ∀ x, x ≠ p → (unlinkRuleFields c p .onlyOne).rules x = c.rules x := by
    intro x hx
    simp [unlinkRuleFields, hx]
  have hne : ∀ g, ∀ x ∈ chain g, x ≠ p := by
    rintro g x hx rfl
    exact h.chained.head_notMem hp hx
  refine { chained := ?_, bucket := ?_, headBucket := ?_, overflowLive := ?_ }
  · refine h.chained.clearHeads (S := (· = p)) ?_ (fun x => ?_) (fun x hx => ?_)
      (fun x hx => ?_)
    · simp_all
    · by_cases hx : x = p
      · simp [dstLinks, unlinkRuleFields, hx]
      · simp [dstLinks, hx, hsame x hx]
    · simp only [dstLinks, hsame x hx]
    · simp only [dstLinks, hsame x hx]
  · intro g x hx
    rw [hsame x (hne g x hx)]
    exact h.bucket g x hx
  · intro g hg hl
    by_cases hgp : g = p
    · simp [unlinkRuleFields, hgp, IpaNatRule.Live] at hl
    · rw [hsame g hgp] at hl ⊢
      exact h.headBucket g hg hl
  · intro g x hx
    rw [hsame x (hne g x hx)]
    exact h.overflowLive g x hx

theorem DstLists.unlink_head (h : DstLists c chain) {p : Nat} (hp : p < c.tableEntries) :
    DstLists (unlinkRuleFields c p .head) chain := by
  have hsame : ∀ x, x ≠ p → (unlinkRuleFields c p .head).rules x = c.rules x := by
    intro x hx
    simp [unlinkRuleFields, hx]
  have hne : ∀ g, ∀ x ∈ chain g, x ≠ p := by
    rintro g x hx rfl
    exact h.chained.head_notMem hp hx
  have hlinks : ∀ x, ((unlinkRuleFields c p .head).rules x).enable = (c.rules x).enable ∧
      ((unlinkRuleFields c p .head).rules x).nextIndex = (c.rules x).nextIndex ∧
      ((unlinkRuleFields c p .head).rules x).prevIndex = (c.rules x).prevIndex := by
    intro x
    by_cases hx : x = p
    · simp [unlinkRuleFields, hx]
    · simp [hsame x hx]
  refine { chained := ?_, bucket := ?_, headBucket := ?_, overflowLive := ?_ }
  · exact h.chained.congr (fun x => by simp only [dstLinks, (hlinks x).1])
      (fun x _ => (hlinks x).2.1) (fun x _ => (hlinks x).2.2)
  · intro g x hx
    rw [hsame x (hne g x hx)]
    exact h.bucket g x hx
  · intro g hg hl
    by_cases hgp : g = p
    · simp [unlinkRuleFields, hgp, IpaNatRule.Live] at hl
    · rw [hsame g hgp] at hl ⊢
      exact h.headBucket g hg hl
  · intro g x hx
    rw [hsame x (hne g x hx)]
    exact h.overflowLive g x hx

theorem DstLists.unlink_overflow (h : DstLists c chain) {b p : Nat} {l₁ l₂ : List Nat}
    (hN : c'.tableEntries = c.tableEntries) (hE : c'.expnTableEntries = c.expnTableEntries)
    (hsplit : chain b = l₁ ++ p :: l₂) (hgone : (c'.rules p).enable = false)
    (hcontent : ∀ x, x ≠ p → SameContent (c.rules x) (c'.rules x))
    (hjoin : (c'.rules (lastOf b l₁)).nextIndex = (c.rules p).nextIndex)
    (hnext : ∀ x, x ≠ p → x ≠ lastOf b l₁ → (c'.rules x).nextIndex = (c.rules x).nextIndex)
    (hback : ∀ n ∈ l₂.head?, (c'.rules n).prevIndex = lastOf b l₁)
    (hprev : ∀ x, x ≠ p → x ∉ l₂.head? → (c'.rules x).prevIndex = (c.rules x).prevIndex) :
    DstLists c' (Function.update chain b (l₁ ++ l₂)) := by
  have hin : p ∈ chain b := by simp [hsplit]
  have hmem : ∀ g x, x ∈ Function.update chain b (l₁ ++ l₂) g → x ∈ chain g ∧ x ≠ p := by
    intro g x hx
    by_cases hg : g = b
    · subst hg
      rw [Function.update_self] at hx
      have hnd := h.chained.nodup g
      grind
    · rw [Function.update_of_ne hg] at hx
      refine ⟨hx, ?_⟩
      rintro rfl
      exact hg (h.chained.disjoint _ _ _ hx hin)
  refine { chained := ?_, bucket := ?_, headBucket := ?_, overflowLive := ?_ }
  · rw [hN, hE]
    refine h.chained.unlink hsplit (fun x => ?_) hjoin hnext hback hprev
    by_cases hx : x = p
    · simp [dstLinks, hx, hgone]
    · simp [dstLinks, hx, (hcontent x hx).enable]
  · intro g x hx
    obtain ⟨hxg, hne⟩ := hmem g x hx
    rw [hN, (hcontent x hne).clntRule]
    exact h.bucket g x hxg
  · intro g hg hl
    rw [hN] at hg ⊢
    have hne : g ≠ p := by
      rintro rfl
      exact h.chained.head_notMem hg hin
    rw [(hcontent g hne).clntRule]
    exact h.headBucket g hg ((hcontent g hne).live_iff.mp hl)
  · intro g x hx
    obtain ⟨hxg, hne⟩ := hmem g x hx
    exact (hcontent x hne).live_iff.mpr (h.overflowLive g x hxg)

theorem DstLists.place (h : DstLists c chain) {p : Nat} (hlo : c.tableEntries ≤ p)
    (hhi : p < c.size) (hused : (c.rules p).enable = true) :
    ∃ b l₁ l₂, b < c.tableEntries ∧ chain b = l₁ ++ p :: l₂ ∧
      (c.rules p).prevIndex = lastOf b l₁ ∧ (c.rules p).nextIndex = l₂.headD 0 ∧
      lastOf b l₁ < c.size ∧ lastOf b l₁ ≠ p ∧
      ∀ n ∈ l₂.head?, c.tableEntries ≤ n ∧ n < c.size ∧ n ≠ p ∧ n ≠ lastOf b l₁ := by
  obtain ⟨b, l₁, l₂, hb, hub, hsplit⟩ := h.chained.split hlo hhi hused
  have hback := h.chained.back b hb hub
  have hwalk := h.chained.walk b hb hub
  have hnd := h.chained.nodup_cons hb
  have hin := h.chained.mem b
  rw [hsplit] at hback hwalk hnd hin
  have hlast : lastOf b l₁ = b ∨ lastOf b l₁ ∈ l₁ :=
    List.mem_cons.mp (lastOf_mem b l₁)
  refine ⟨b, l₁, l₂, hb, hsplit, hback.at_mid, hwalk.tail.next_eq, ?_, ?_, ?_⟩
  · rcases hlast with heq | hmem
    · omega
    · exact (hin _ (List.mem_append_left _ hmem)).2.1
  · grind
  · intro n hn
    have hn₂ : n ∈ l₂ := List.mem_of_mem_head? hn
    have hnr := hin n (List.mem_append_right _ (List.mem_cons_of_mem p hn₂))
    refine ⟨Nat.le_of_lt hnr.1, hnr.2.1, ?_, ?_⟩
    · grind
    grind

theorem DstLists.linksInTable (h : DstLists c chain) {expn : Bool} {cur p : Nat}
    (hp : c.entryAt expn cur = some p) (hused : (c.rules p).enable = true) :
    LinksInTable c p (findRulePos expn (c.rules p).nextIndex) := by
  obtain ⟨hlt, hentry⟩ := entryAt_eq_some hp
  obtain ⟨-, -, hmid, hlast⟩ := findRulePos_base (Eq.refl
    (findRulePos expn (c.rules p).nextIndex))
  have hplace := fun (he : expn = true) => by
    have hlo : c.tableEntries ≤ p := by
      rw [he] at hentry
      simp only [if_true] at hentry
      omega
    exact h.place hlo hlt hused
  constructor
  · grind
  · intro hpos
    obtain ⟨he, hne⟩ := hmid hpos
    obtain ⟨b, l₁, l₂, -, -, -, hnext, -, -, hl₂⟩ := hplace he
    cases l₂ with
    | nil => exact absurd hnext hne
    | cons n l₂ =>
      simp_all

theorem DstLists.unlink (h : DstLists c chain) {expn : Bool} {cur p : Nat}
    (hp : c.entryAt expn cur = some p) (hused : (c.rules p).enable = true) :
    ∃ chain', DstLists (unlinkRuleFields c p (findRulePos expn (c.rules p).nextIndex))
      chain' := by
  obtain ⟨hlt, hentry⟩ := entryAt_eq_some hp
  generalize hpos : findRulePos expn (c.rules p).nextIndex = pos
  obtain ⟨hone, hhead, hmid, hlast⟩ := findRulePos_base hpos.symm
  have hbase : expn = false → p < c.tableEntries := by
    rintro rfl
    exact hentry.2
  have hover : expn = true → c.tableEntries ≤ p := by
    rintro rfl
    simp_all
  have hcontent := fun x (hx : x ≠ p) => unlinkRuleFields_content (c := c) pos hx
  cases pos with
  | onlyOne =>
    obtain ⟨he, hn⟩ := hone rfl
    exact ⟨chain, h.unlink_onlyOne (hbase he) hused hn⟩
  | head => exact ⟨chain, h.unlink_head (hbase (hhead rfl).1)⟩
  | middle =>
    obtain ⟨he, hn⟩ := hmid rfl
    obtain ⟨b, l₁, l₂, -, hsplit, hprev, hnext, -, hlp, hl₂⟩ := h.place (hover he) hlt hused
    cases l₂ with
    | nil => exact absurd hnext hn
    | cons n l₂ =>
      obtain ⟨-, -, hnp, hnl⟩ := hl₂ n rfl
      have hrules : (unlinkRuleFields c p .middle).rules =
          Function.update (Function.update (Function.update c.rules (lastOf b l₁)
            { c.rules (lastOf b l₁) with nextIndex := n }) n
            { c.rules n with prevIndex := lastOf b l₁ }) p {} := by
        simp [unlinkRuleFields, hprev, hnext, hnl]
      refine ⟨_, h.unlink_overflow rfl rfl hsplit ?_ hcontent ?_ ?_ ?_ ?_⟩
      · simp [hrules]
      · rw [hrules, Function.update_of_ne hlp, Function.update_of_ne (Ne.symm hnl),
          Function.update_self, hnext]
        rfl
      · intro x hx hxl
        rw [hrules, Function.update_of_ne hx]
        grind
      · simp [hrules, hnp]
      · intro x hx hxn
        have hxn : x ≠ n := fun heq => hxn (by simp [heq])
        rw [hrules, Function.update_of_ne hx, Function.update_of_ne hxn]
        by_cases hxl : x = lastOf b l₁
        · simp [hxl]
        · rw [Function.update_of_ne hxl]
  | last =>
    obtain ⟨he, hn⟩ := hlast rfl
    obtain ⟨b, l₁, l₂, hb, hsplit, hprev, hnext, -, hlp, hl₂⟩ := h.place (hover he) hlt hused
    obtain ⟨hb', hub⟩ := h.chained.head_of_mem (h := b) (e := p) (by simp [hsplit])
    obtain rfl : l₂ = [] := h.chained.split_last hb' hub hsplit hn
    have hrules : (unlinkRuleFields c p .last).rules =
        Function.update (Function.update c.rules (lastOf b l₁)
          { c.rules (lastOf b l₁) with nextIndex := 0 }) p {} := by
      simp [unlinkRuleFields, hprev]
    refine ⟨_, h.unlink_overflow rfl rfl hsplit ?_ hcontent ?_ ?_ (by simp) ?_⟩
    · simp [hrules]
    · rw [hrules, Function.update_of_ne hlp, Function.update_self, hn]
    · simp_all
    · intro x hx _
      rw [hrules, Function.update_of_ne hx]
      by_cases hxl : x = lastOf b l₁
      · simp [hxl]
      · rw [Function.update_of_ne hxl]

theorem DstLists.sweep (h : DstLists c chain) : DstInv (delDeadIpv4HeadNodes c) chain := by
  let S := fun x => x < c.tableEntries ∧ (c.rules x).protocol = invalidProtoFieldCmp ∧
    (c.rules x).nextIndex = 0
  have hswept : ∀ x, S x → (delDeadIpv4HeadNodes c).rules x = {} := fun x hx => if_pos hx
  have hsame : ∀ x, ¬ S x → (delDeadIpv4HeadNodes c).rules x = c.rules x := fun x hx =>
    if_neg hx
  have hover : ∀ g, ∀ x ∈ chain g, ¬ S x := by
    intro g x hx hs
    exact h.chained.head_notMem hs.1 hx
  refine { chained := ?_, bucket := ?_, headBucket := ?_, overflowLive := ?_, deadNext := ?_ }
  · refine h.chained.clearHeads (S := S) ?_ (fun x => ?_) (fun x hx => ?_) (fun x hx => ?_)
    · rintro x hs
      refine ⟨hs.1, ?_⟩
      by_cases hu : (dstLinks c).used x
      · have hend : Walk (dstLinks c).next x [] := hs.2.2
        exact (h.chained.walk x hs.1 hu).unique hend
      · exact h.chained.chain_nil_of_unused hu
    · by_cases hx : S x
      · simp [dstLinks, hswept x hx, hx]
      · simp [dstLinks, hsame x hx, hx]
    · simp only [dstLinks, hsame x hx]
    · simp only [dstLinks, hsame x hx]
  · intro g x hx
    rw [hsame x (hover g x hx)]
    exact h.bucket g x hx
  · intro g hg hl
    by_cases hs : S g
    · simp [hswept g hs, IpaNatRule.Live] at hl
    · rw [hsame g hs] at hl ⊢
      exact h.headBucket g hg hl
  · intro g x hx
    rw [hsame x (hover g x hx)]
    exact h.overflowLive g x hx
  · intro g hg hen hproto hz
    by_cases hs : S g
    · simp [hswept g hs] at hen
    · rw [hsame g hs] at hproto hz
      exact hs ⟨hg, hproto, hz⟩

theorem DstInv.setRuleId (h : DstInv c chain) (s id : Nat) :
    DstInv (c.setRuleId s id) chain :=
  { chained := h.chained, bucket := h.bucket, headBucket := h.headBucket,
    overflowLive := h.overflowLive, deadNext := h.deadNext }

theorem DstInv.del {ok : Bool} {ruleHdl : Nat} {res : Except Errno Unit}
    (h : DstInv c chain) (hok : HandlesOk c)
    (hdel : delIpv4Rule ok c ruleHdl = some (res, c')) : ∃ chain', DstInv c' chain' := by
  rcases delIpv4Rule_cases hok.size_lt hdel with
    ⟨-, rfl⟩ | ⟨-, -, expn, cur, p, cu, hhdl, hen, -, -, hboth, rfl⟩
  · exact ⟨chain, h⟩
  obtain ⟨chain', hlists⟩ := h.toDstLists.unlink hhdl.entry hen
  have hcu := hlists.of_sameRules (unlinkBoth_sameRules hboth)
  exact ⟨chain', hcu.sweep.setRuleId _ _⟩

/-! ## The chains in every run -/

theorem dstInv_invariant :
    workingSystem.Invariant fun c => HandlesOk c ∧ ∃ chain, DstInv c chain where
  init _ h := ⟨handlesOk_fresh h, _, dstInv_fresh h⟩
  step c op c' h hstep := by
    obtain ⟨hok, chain, hinv⟩ := h
    obtain ⟨hwork, hstep⟩ := hstep
    refine ⟨handlesOk_invariant.step c op c' hok hstep, ?_⟩
    cases op with
    | add r dma =>
      obtain ⟨hr, res, hadd⟩ := hstep
      obtain rfl : dma = .working := hwork
      exact hinv.add hok hr hadd
    | del ruleHdl ok =>
      obtain ⟨res, hdel⟩ := hstep
      exact hinv.del hok hdel

theorem workingSystem_tableEntries {op : Op} (hok : HandlesOk c)
    (hstep : workingSystem.step c op c') : c'.tableEntries = c.tableEntries := by
  obtain ⟨-, hstep⟩ := hstep
  cases op with
  | add r dma =>
    obtain ⟨-, res, hadd⟩ := hstep
    rcases addIpv4Rule_cases hadd with ⟨-, rfl, -⟩ | ⟨g, cg, hgenok, hinst⟩
    · rfl
    · exact (installRule_shape hok.dims (generateRule_ok hgenok) hinst).1
  | del ruleHdl ok =>
    obtain ⟨res, hdel⟩ := hstep
    rcases delIpv4Rule_cases hok.size_lt hdel with
      ⟨-, rfl⟩ | ⟨-, -, expn, cur, p, cu, -, -, -, -, hboth, rfl⟩
    · rfl
    · have hsame := (unlinkBoth_sameRules hboth).tableEntries
      change cu.tableEntries = _
      rw [hsame]
      cases findRulePos expn (c.rules p).nextIndex <;> rfl

/-- The destination lists are well formed. -/
structure DstChainsWellFormed (c : IpaNatIp4TableCache) : Prop where
  /-- The list of a used base entry visits different enabled expansion entries, each with
  its predecessor as `prev_index`, and ends at `0`. -/
  walk : ∀ h, h < c.tableEntries → (c.rules h).enable = true →
    ∃ l, Walk (dstLinks c).next h l ∧ l.Nodup ∧ BackLinks (dstLinks c).prev h l ∧
      ∀ e ∈ l, c.tableEntries + 1 ≤ e ∧ e < c.tableEntries + c.expnTableEntries ∧
        (c.rules e).enable = true
  /-- Every enabled expansion entry is on the list of exactly one base entry. -/
  cover : ∀ e, c.tableEntries ≤ e → e < c.tableEntries + c.expnTableEntries →
    (c.rules e).enable = true →
    ∃! h, h < c.tableEntries ∧ (c.rules h).enable = true ∧ OnWalk (dstLinks c).next h e
  /-- A live rule is on the list of its own hash. -/
  live : ∀ e, e < c.tableEntries + c.expnTableEntries → (c.rules e).Live →
    (c.rules ((c.rules e).clntRule.dstHash c.tableEntries)).enable = true ∧
      OnWalk (dstLinks c).next ((c.rules e).clntRule.dstHash c.tableEntries) e
  /-- A dead head is kept only while a live rule follows it. -/
  dead : ∀ h, h < c.tableEntries → (c.rules h).enable = true →
    (c.rules h).protocol = invalidProtoFieldCmp →
    ∃ e, e ≠ h ∧ (c.rules e).Live ∧ OnWalk (dstLinks c).next h e

theorem DstInv.wellFormed (h : DstInv c chain) : DstChainsWellFormed c where
  walk g hg hen := by
    refine ⟨chain g, h.chained.walk g hg hen, h.chained.nodup g, h.chained.back g hg hen, ?_⟩
    intro e he
    exact h.chained.mem g e he
  cover e hlo hhi hen := h.chained.existsUnique_head hlo hhi hen
  live e he hl := by
    by_cases hN : e < c.tableEntries
    · rw [h.headBucket e hN hl]
      exact ⟨hl.1, chain e, h.chained.walk e hN hl.1, List.mem_cons_self⟩
    · obtain ⟨b, hmem⟩ := h.chained.cover e (Nat.le_of_not_lt hN) he hl.1
      obtain ⟨hb, hub⟩ := h.chained.head_of_mem hmem
      rw [h.bucket b e hmem]
      exact ⟨hub, chain b, h.chained.walk b hb hub, List.mem_cons_of_mem b hmem⟩
  dead g hg hen hproto := by
    have hwalk := h.chained.walk g hg hen
    cases hl : chain g with
    | nil =>
      rw [hl] at hwalk
      exact absurd hwalk (h.deadNext g hg hen hproto)
    | cons e l =>
      have hmem : e ∈ chain g := by simp [hl]
      refine ⟨e, ?_, h.overflowLive g e hmem, chain g, hwalk, List.mem_cons_of_mem g hmem⟩
      rintro rfl
      exact h.chained.head_notMem hg hmem

/-- **The destination chains stay well formed**, for any sequence of adds and deletes on
a working device. -/
theorem dstChains_wellFormed (h : workingSystem.Reachable c) : DstChainsWellFormed c := by
  obtain ⟨-, chain, hinv⟩ := dstInv_invariant.reachable h
  exact hinv.wellFormed

def deadHeadCalls : List Op :=
  [.add ⟨0, 0, 1, 0, 0, 6⟩ .working, .add ⟨0, 0, 1, 1, 0, 6⟩ .working,
    .add ⟨0, 0, 1, 2, 0, 6⟩ .working, .del 1 true]

/-- The first of three rules stays as a dead head before the entries `17` and `18`. -/
theorem dstChains_wellFormed_deadHead :
    ∃ c, execAll (freshTable 16 4) deadHeadCalls = some c ∧
      (c.rules 7).protocol = invalidProtoFieldCmp ∧ (c.rules 7).nextIndex = 17 ∧
      (c.rules 17).nextIndex = 18 ∧ DstChainsWellFormed c :=
  ⟨_, rfl, by decide, by decide, by decide, dstChains_wellFormed
    (reachable_execAll deadHeadCalls (.init fresh_sixteen) (by decide) rfl)⟩

end EtherDevice.IpaNati
