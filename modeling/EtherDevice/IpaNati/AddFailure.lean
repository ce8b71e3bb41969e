import EtherDevice.IpaNati.Refinement

/-!
# Adds that fail

An add is rejected before it writes anything, or it is installed; the search for a free
handle never fails. The remaining failure is the ioctl that enables the rule. By then
the rule is linked and its index entry is taken, and nothing is undone, so the failed
call shows in the tables and in the results of later calls.
-/

namespace EtherDevice.IpaNati

open Lib IpaNatIp4TableCache

variable {c c' : IpaNatIp4TableCache} {r : IpaNatIpv4Rule}

/-- The result of a call: an add returns a handle, a delete nothing. -/
abbrev OpResult := Except Errno (Option Nat)

def Op.call (c : IpaNatIp4TableCache) : Op → Option (OpResult × IpaNatIp4TableCache)
  | .add clntRule dma => (addIpv4Rule dma c clntRule).map fun p => (p.1.map some, p.2)
  | .del ruleHdl ok => (delIpv4Rule ok c ruleHdl).map fun p => (p.1.map fun _ => none, p.2)

def results (c : IpaNatIp4TableCache) : List Op → Option (List OpResult)
  | [] => some []
  | op :: ops => do
    let (res, c) ← op.call c
    let rest ← results c ops
    return res :: rest

/-- The table `c'` is as good as `c`: nothing was consumed, the lookups, the handles and
the results of all later calls are the same. -/
structure Unaffected (c c' : IpaNatIp4TableCache) : Prop where
  dstFinds : ∀ r e, DstFinds c' r e ↔ DstFinds c r e
  srcFinds : ∀ r e, SrcFinds c' r e ↔ SrcFinds c r e
  handles : ∀ ruleHdl, ruleMap c' ruleHdl = ruleMap c ruleHdl
  entries : ∀ e, (c'.rules e).enable = (c.rules e).enable
  indexEntries : ∀ i, (c'.index i).tblEntry = (c.index i).tblEntry
  links : ∀ e, (c'.rules e).nextIndex = (c.rules e).nextIndex ∧
    (c'.rules e).prevIndex = (c.rules e).prevIndex
  indexLinks : ∀ i, (c'.index i).nextIndex = (c.index i).nextIndex ∧
    c'.indexExpnTableMeta i = c.indexExpnTableMeta i
  expnSlot : expnTblFreeEntry c' = expnTblFreeEntry c
  indexExpnSlot : indexExpnGetFreeEntry c' = indexExpnGetFreeEntry c
  dstInv : (∃ chain, DstInv c chain) → ∃ chain, DstInv c' chain
  indexInv : (∃ chain, IndexInv c chain) → ∃ chain, IndexInv c' chain
  later : ∀ ops, results c' ops = results c ops

theorem Unaffected.refl (c : IpaNatIp4TableCache) : Unaffected c c where
  dstFinds _ _ := Iff.rfl
  srcFinds _ _ := Iff.rfl
  handles _ := rfl
  entries _ := rfl
  indexEntries _ := rfl
  links _ := ⟨rfl, rfl⟩
  indexLinks _ := ⟨rfl, rfl⟩
  expnSlot := rfl
  indexExpnSlot := rfl
  dstInv h := h
  indexInv h := h
  later _ := rfl

/-- The rule table has a place for the rule: its base entry is free, or the search of
its list ends and there is a free expansion entry. -/
def RuleHasRoom (c : IpaNatIp4TableCache) (r : IpaNatIpv4Rule) : Prop :=
  (c.rules (r.dstHash c.tableEntries)).enable = true →
    (∃ prev, findLast c (fun e => (c.rules e).nextIndex) (r.dstHash c.tableEntries) =
      some (some prev)) ∧ expnTblFreeEntry c ≠ 0

/-- The same for the index table, where the free entry must not be the one that the list
ends with. -/
def IndexHasRoom (c : IpaNatIp4TableCache) (r : IpaNatIpv4Rule) : Prop :=
  (c.index (r.srcHash c.tableEntries)).tblEntry ≠ 0 →
    (∃ prev, findLast c (fun i => (c.index i).nextIndex) (r.srcHash c.tableEntries) =
      some (some prev) ∧ prev ≠ indexExpnGetFreeEntry c + c.tableEntries) ∧
      indexExpnGetFreeEntry c ≠ 0

theorem RulePlaced.hasRoom {sw : IpaNatRule} {e : Nat} (h : RulePlaced c r sw e) :
    RuleHasRoom c r := by
  intro hused
  cases h with
  | free hfree =>
    rw [hfree] at hused
    cases hused
  | collision _ hlast hroom => exact ⟨⟨_, hlast⟩, hroom⟩

theorem generateTblRule_zero {sw : IpaNatRule} (hd : Dims c.tableEntries c.expnTableEntries)
    (h : generateTblRule c r = some (sw, 0)) : ¬ RuleHasRoom c r := by
  intro hroom
  unfold generateTblRule at h
  have hhash := (dstHash_base hd r).1
  by_cases hen : (c.rules (r.dstHash c.tableEntries)).enable = true
  · obtain ⟨⟨prev, hlast⟩, hne⟩ := hroom hen
    simp_all
  simp_all

theorem generateIndexRule_zero {sw : IpaNatIndxTblSwRule} {e : Nat}
    (hd : Dims c.tableEntries c.expnTableEntries)
    (h : generateIndexRule c r e = some (sw, 0)) : ¬ IndexHasRoom c r := by
  intro hroom
  unfold generateIndexRule at h
  have hhash := (srcHash_base hd r).1
  by_cases hz : (c.index (r.srcHash c.tableEntries)).tblEntry = 0
  · simp_all
  · obtain ⟨⟨prev, hlast, hprev⟩, hne⟩ := hroom hz
    simp_all

theorem generateIndexRule_hasRoom {sw : IpaNatIndxTblSwRule} {e i : Nat}
    (h : generateIndexRule c r e = some (sw, i)) (hi : i ≠ 0) : IndexHasRoom c r := by
  intro hused
  unfold generateIndexRule at h
  simp only [hused, if_false, Option.bind_eq_bind, Option.bind_eq_some_iff] at h
  obtain ⟨q, hlast, h⟩ := h
  cases q with
  | none =>
    cases h
    exact absurd rfl hi
  | some prev =>
    grind

theorem generateRule_ok_iff {res : Except Errno (Generated × IpaNatIp4TableCache)}
    (hd : Dims c.tableEntries c.expnTableEntries) (h : generateRule c r = some res) :
    (∃ g, res = .ok g) ↔ RuleHasRoom c r ∧ IndexHasRoom c r := by
  unfold generateRule at h
  simp only [Option.bind_eq_bind, Option.bind_eq_some_iff] at h
  obtain ⟨⟨sw, e⟩, hrule, h⟩ := h
  split at h
  · rename_i hz
    obtain rfl : e = 0 := hz
    cases h
    simp [generateTblRule_zero hd hrule]
  · rename_i he
    simp only [Option.bind_eq_some_iff] at h
    obtain ⟨⟨isw, i⟩, hindex, h⟩ := h
    split at h
    · rename_i hz
      obtain rfl : i = 0 := hz
      cases h
      simp [generateIndexRule_zero hd hindex]
    · rename_i hi
      cases h
      simp only [Except.ok.injEq, exists_eq', true_iff]
      exact ⟨(generateTblRule_placed hrule he).hasRoom, generateIndexRule_hasRoom hindex hi⟩

theorem dmaOne_indexNext_tblEntry {cmd : DmaOne} (hbase : cmd.baseAddr.isIndex = true)
    (hoff : cmd.offset % 4 = indexRuleNextFieldOffset) (h : dmaOne c cmd = some c') (i : Nat) :
    (c'.index i).tblEntry = (c.index i).tblEntry := by
  simp only [dmaOne, hbase, if_true, hoff, Option.pure_def, Option.bind_eq_bind,
    Option.bind_eq_some_iff] at h
  obtain ⟨x, -, rx, hrx, h⟩ := h
  cases h
  cases hrx
  by_cases hx : i = x
  · simp [hx]
  · simp [Function.update_of_ne hx]

theorem copyIpv4IndexRuleToHw_tblEntry {ok : Bool} {isw : IpaNatIndxTblSwRule} {i : Nat}
    (h : copyIpv4IndexRuleToHw ok c isw i = some c') : (c'.index i).tblEntry = isw.tblEntry := by
  have hcopied : ((c.modifyIndex i fun _ => ⟨isw.tblEntry, isw.nextIndex⟩).index i).tblEntry =
      isw.tblEntry := by simp
  unfold copyIpv4IndexRuleToHw writeNextIndex at h
  split at h
  · split at h
    · rw [dmaOne_indexNext_tblEntry (by exact isIndex_indexNextFieldCmd isw.prevIndex i) ?_ h i,
        hcopied]
      unfold indexNextFieldCmd getIndexEntryOffset indexRuleNextFieldOffset
      split <;> simp only <;> omega
    · cases h
      exact hcopied
  · cases h
    exact hcopied

theorem IndexPlaced.free_tblEntry {e i : Nat} {isw : IpaNatIndxTblSwRule}
    (h : IndexPlaced c r e isw i) : (c.index i).tblEntry = 0 ∧ isw.tblEntry = e := by
  cases h with
  | free hfree => exact ⟨hfree, rfl⟩
  | collision _ _ _ _ _ hfree => exact ⟨hfree, rfl⟩

theorem addIpv4Rule_eio {dma : AddDma} {g : Generated} {cg : IpaNatIp4TableCache}
    {res : Except Errno Nat} (hd : Dims c.tableEntries c.expnTableEntries)
    (hgen : RuleGenerated c r g cg) (hen : dma.enable = false)
    (hinst : installRule dma cg g = some (res, c')) :
    res = .error .eio ∧ (c.index g.indxTblEntry).tblEntry = 0 ∧
      (c'.index g.indxTblEntry).tblEntry ≠ 0 := by
  have hsize : cg.size = c.size := by
    rw [hgen.table]
    split <;> rfl
  have he := hgen.rulePlaced.isEntry hd
  have hprev : { g.rule with indxTblEntry := 0 }.prevIndex < c.size :=
    hgen.rulePlaced.prev_lt hd
  obtain ⟨hfree, htbl⟩ := hgen.indexPlaced.free_tblEntry
  obtain ⟨ci, hci, hout⟩ := installRule_cases (hsize ▸ he.2.1) (hsize ▸ hprev) hinst
  have htaken : (ci.index g.indxTblEntry).tblEntry ≠ 0 := by
    rw [copyIpv4IndexRuleToHw_tblEntry hci, htbl]
    exact Nat.ne_of_gt he.1
  simp_all

theorem addIpv4Rule_error_eq {dma : AddDma} {err : Errno} (h : HandlesOk c)
    (hadd : addIpv4Rule dma c r = some (.error err, c')) :
    c' = c ∨ dma.enable = false ∧ RuleHasRoom c r ∧ IndexHasRoom c r := by
  rcases addIpv4Rule_cases hadd with ⟨-, rfl, -⟩ | ⟨g, cg, hgen, hinst⟩
  · exact .inl rfl
  · obtain ⟨-, -, -, hids⟩ := installRule_shape h.dims (generateRule_ok hgen) hinst
    obtain ⟨cnt, hfree, -⟩ := h.exists_free
    rcases hids with ⟨hen, -⟩ | ⟨-, hnone, -⟩ | ⟨-, cnt', -, hres, -⟩
    · exact .inr ⟨hen, (generateRule_ok_iff h.dims hgen).mp ⟨_, rfl⟩⟩
    · rw [hfree] at hnone
      cases hnone
    · cases hres

/-- **A failed add is atomic exactly if it is not the enabling ioctl that failed**, on a
rule that both tables have a place for. -/
theorem addIpv4Rule_atomic_iff {dma : AddDma} {err : Errno} (hc : natSystem.Reachable c)
    (hadd : addIpv4Rule dma c r = some (.error err, c')) :
    Unaffected c c' ↔ ¬ (dma.enable = false ∧ RuleHasRoom c r ∧ IndexHasRoom c r) := by
  have hok := handlesOk_invariant.reachable hc
  constructor
  · rintro hun ⟨hen, hroom⟩
    rcases addIpv4Rule_cases hadd with ⟨-, -, hgen⟩ | ⟨g, cg, hgen, hinst⟩
    · obtain ⟨g, hg⟩ := (generateRule_ok_iff hok.dims hgen).mpr hroom
      cases hg
    · obtain ⟨-, hfree, htaken⟩ :=
        addIpv4Rule_eio hok.dims (generateRule_ok hgen) hen hinst
      exact htaken ((hun.indexEntries _).trans hfree)
  · intro hno
    obtain rfl := (addIpv4Rule_error_eq hok hadd).resolve_right hno
    exact .refl c'

def fullCalls : List Op :=
  [.add ⟨0, 0, 1, 0, 0, 6⟩ .working, .add ⟨0, 1, 1, 0, 0, 6⟩ .working,
    .add ⟨0, 2, 1, 0, 0, 6⟩ .working, .add ⟨0, 3, 1, 0, 0, 6⟩ .working]

theorem addIpv4Rule_atomic_iff_full :
    ∃ c, execAll (freshTable 16 4) fullCalls = some c ∧
      addIpv4Rule .working c ⟨0, 4, 1, 0, 0, 6⟩ = some (.error .einval, c) ∧
      Unaffected c c := by
  have hrun : (execAll (freshTable 16 4) fullCalls).map (fun c =>
      (addIpv4Rule .working c ⟨0, 4, 1, 0, 0, 6⟩).map Prod.fst) =
      some (some (.error .einval)) := by decide +kernel
  obtain ⟨c, hc, hres⟩ := Option.map_eq_some_iff.mp hrun
  obtain ⟨⟨res, c'⟩, hadd, rfl⟩ := Option.map_eq_some_iff.mp hres
  have hreach : workingSystem.Reachable c :=
    reachable_execAll fullCalls (.init fresh_sixteen) (by decide) hc
  have hun := (addIpv4Rule_atomic_iff hreach.of_restrict hadd).mpr fun h => by cases h.1
  obtain rfl := (addIpv4Rule_error_eq (handlesOk_invariant.reachable hreach.of_restrict)
    hadd).resolve_right fun h => by cases h.1
  exact ⟨c', hc, hadd, hun⟩

/-- The enabling ioctl of the first add fails, and the index entry 7 stays taken. -/
theorem not_addIpv4Rule_atomic :
    ∃ c c', natSystem.Reachable c ∧
      addIpv4Rule ⟨true, true, false⟩ c ⟨0, 0, 1, 0, 0, 6⟩ = some (.error .eio, c') ∧
      ¬ Unaffected c c' := by
  have hrun : (addIpv4Rule ⟨true, true, false⟩ (freshTable 16 4) ⟨0, 0, 1, 0, 0, 6⟩).map
      (fun p => (p.1, (p.2.index 7).tblEntry)) = some (.error .eio, 7) := by decide +kernel
  obtain ⟨⟨res, c'⟩, hadd, heq⟩ := Option.map_eq_some_iff.mp hrun
  obtain ⟨rfl, htbl⟩ := Prod.mk.inj heq
  refine ⟨_, c', .init fresh_sixteen, hadd, fun h => ?_⟩
  rw [h.indexEntries 7] at htbl
  cases htbl

end EtherDevice.IpaNati
