import EtherDevice.IpaNati.IndexTable

/-!
# The driver refines a map from handles to rules

A client of the driver sees a map: an add returns a fresh handle and binds its rule to
it, a delete removes the binding. `ruleMap` reads this map off the tables, and `Run`
builds the map that the client expects from the results of its calls. The two agree
(`ruleMap_of_run`), and both lookups of the hardware find exactly the rules of the map
(`refinesMap_of_run`).
-/

namespace EtherDevice.IpaNati

open Lib IpaNatIp4TableCache

variable {c c' : IpaNatIp4TableCache}

abbrev RuleMap := Nat → Option IpaNatIpv4Rule

/-- A run of calls on a working device that starts with a fresh table, and the map that
its results define. `allow` restricts the adds. -/
inductive Run (allow : IpaNatIp4TableCache → IpaNatIpv4Rule → Prop) :
    IpaNatIp4TableCache → RuleMap → Prop
  | fresh {c : IpaNatIp4TableCache} (h : Fresh c) : Run allow c fun _ => none
  | addOk {c c' : IpaNatIp4TableCache} {m r h} : Run allow c m → r.IsTcpUdp → allow c r →
      addIpv4Rule .working c r = some (.ok h, c') →
      Run allow c' (Function.update m h (some r))
  | addError {c c' : IpaNatIp4TableCache} {m r err} : Run allow c m → r.IsTcpUdp → allow c r →
      addIpv4Rule .working c r = some (.error err, c') → Run allow c' m
  | delOk {c c' : IpaNatIp4TableCache} {m h} : Run allow c m →
      delIpv4Rule true c h = some (.ok (), c') →
      Run allow c' (Function.update m h none)
  | delError {c c' : IpaNatIp4TableCache} {m h err} : Run allow c m →
      delIpv4Rule true c h = some (.error err, c') → Run allow c' m

/-- The runs in which no add wraps the offset of an index link. -/
def SafeRun : IpaNatIp4TableCache → RuleMap → Prop :=
  Run fun c r => ¬ IndexLinkWraps c r

def entryOfHandle (c : IpaNatIp4TableCache) (ruleHdl : Nat) : Nat :=
  entryOfId c.tableEntries (c.ruleIdArray (ruleHdl - 1))

def ruleMap (c : IpaNatIp4TableCache) : RuleMap := fun ruleHdl =>
  if ruleHdl = 0 ∨ c.ruleIdArray (ruleHdl - 1) = 0 then none
  else some (c.rules (entryOfHandle c ruleHdl)).clntRule

theorem ruleMap_eq_some {h : Nat} {r : IpaNatIpv4Rule} :
    ruleMap c h = some r ↔ h ≠ 0 ∧ c.ruleIdArray (h - 1) ≠ 0 ∧
      (c.rules (entryOfHandle c h)).clntRule = r := by
  unfold ruleMap
  split
  · tauto
  · rename_i hn
    push Not at hn
    simp [hn]

def DstFinds (c : IpaNatIp4TableCache) (r : IpaNatIpv4Rule) (e : Nat) : Prop :=
  (c.rules (r.dstHash c.tableEntries)).enable = true ∧
    OnWalk (dstLinks c).next (r.dstHash c.tableEntries) e ∧
    (c.rules e).Live ∧ (c.rules e).clntRule = r

def SrcFinds (c : IpaNatIp4TableCache) (r : IpaNatIpv4Rule) (e : Nat) : Prop :=
  ∃ i, OnWalk (indexLinks c).next (r.srcHash c.tableEntries) i ∧
    (c.index i).tblEntry ≠ 0 ∧ (c.index i).tblEntry = e ∧
    (c.rules e).Live ∧ (c.rules e).clntRule = r

def HandlesCover (c : IpaNatIp4TableCache) : Prop :=
  ∀ e, e < c.size → (c.rules e).Live →
    ∃ s, c.ruleIdArray s ≠ 0 ∧ c.ruleIdArray s = ruleIdOf c.tableEntries e

structure TablesOk (c : IpaNatIp4TableCache) : Prop where
  handles : HandlesOk c
  dst : ∃ chain, DstInv c chain
  index : ∃ chain, IndexInv c chain
  cover : HandlesCover c

theorem tablesOk_fresh (h : Fresh c) : TablesOk c where
  handles := handlesOk_fresh h
  dst := ⟨_, dstInv_fresh h⟩
  index := ⟨_, indexInv_fresh h⟩
  cover e _ hl := by
    obtain ⟨-, -, hrules, -⟩ := h.fields
    simp [IpaNatRule.Live, hrules e] at hl

theorem HandlesOk.entryOfHandle (h : HandlesOk c) {ruleHdl : Nat}
    (hne : c.ruleIdArray (ruleHdl - 1) ≠ 0) :
    IsEntry c (entryOfHandle c ruleHdl) ∧
      c.ruleIdArray (ruleHdl - 1) = ruleIdOf c.tableEntries (entryOfHandle c ruleHdl) ∧
      (c.rules (entryOfHandle c ruleHdl)).Live := by
  obtain ⟨-, e, he, hid, hl⟩ := h.names _ hne
  have heq : IpaNati.entryOfHandle c ruleHdl = e := by
    unfold IpaNati.entryOfHandle
    rw [hid, entryOfId_ruleIdOf h.dims he.2.1]
  rw [heq]
  exact ⟨he, hid, hl⟩

theorem addIpv4Rule_ok {r : IpaNatIpv4Rule} {hdl : Nat} (h : HandlesOk c)
    (hadd : addIpv4Rule .working c r = some (.ok hdl, c')) :
    ∃ e cnt, IsEntry c e ∧ (c.rules e).enable = false ∧ hdl = cnt + 1 ∧
      c.ruleIdArray cnt = 0 ∧ c'.tableEntries = c.tableEntries ∧ c'.size = c.size ∧
      c'.ruleIdArray = Function.update c.ruleIdArray cnt (ruleIdOf c.tableEntries e) ∧
      (c'.rules e).clntRule = r ∧
      ∀ x, x ≠ e → SameContent (c.rules x) (c'.rules x) := by
  rcases addIpv4Rule_cases hadd with ⟨herr, -⟩ | ⟨g, cg, hgenok, hinst⟩
  · cases herr
  have hgen := generateRule_ok hgenok
  obtain ⟨hothers, hclnt, -⟩ := installRule_content h.dims hgen hinst
  obtain ⟨hN, hE, -, hids⟩ := installRule_shape h.dims hgen hinst
  rcases hids with ⟨-, herr, -⟩ | ⟨-, -, herr⟩ | ⟨-, cnt, hfree, hres, hids⟩
  · cases herr
  · cases herr
  · cases hres
    obtain ⟨cnt', hfree', hzero, -⟩ := h.exists_free
    rw [hfree] at hfree'
    cases hfree'
    refine ⟨g.tblEntry, cnt, hgen.rulePlaced.isEntry h.dims, hgen.rulePlaced.disabled, rfl,
      hzero, hN, ?_, hids, hclnt, hothers⟩
    unfold size
    rw [hN, hE]

theorem ruleMap_add {r : IpaNatIpv4Rule} {hdl : Nat} (h : HandlesOk c)
    (hadd : addIpv4Rule .working c r = some (.ok hdl, c')) :
    ruleMap c hdl = none ∧ ruleMap c' = Function.update (ruleMap c) hdl (some r) := by
  obtain ⟨e, cnt, he, hdis, rfl, hzero, hN, hsize, hids, hclnt, hothers⟩ :=
    addIpv4Rule_ok h hadd
  refine ⟨by simp [ruleMap, hzero], funext fun x => ?_⟩
  by_cases hx : x = cnt + 1
  · subst hx
    rw [Function.update_self]
    refine ruleMap_eq_some.mpr ⟨by omega, ?_, ?_⟩
    · rw [Nat.add_sub_cancel, hids, Function.update_self]
      exact ruleIdOf_ne_zero h.dims he.2.1 he.1
    · have hentry : entryOfHandle c' (cnt + 1) = e := by
        unfold entryOfHandle
        rw [Nat.add_sub_cancel, hids, Function.update_self, hN,
          entryOfId_ruleIdOf h.dims he.2.1]
      rw [hentry, hclnt]
  · rw [Function.update_of_ne hx]
    by_cases hz : x = 0
    · simp [ruleMap, hz]
    have hne : x - 1 ≠ cnt := by omega
    have hid : c'.ruleIdArray (x - 1) = c.ruleIdArray (x - 1) := by
      rw [hids, Function.update_of_ne hne]
    have hentry : entryOfHandle c' x = entryOfHandle c x := by
      unfold entryOfHandle
      rw [hid, hN]
    unfold ruleMap
    rw [hid, hentry]
    by_cases hfree : c.ruleIdArray (x - 1) = 0
    · simp [hfree]
    · have hlive := (h.entryOfHandle hfree).2.2
      have hxe : entryOfHandle c x ≠ e := by
        rintro heq
        rw [heq] at hlive
        exact absurd hlive.1 (by simp [hdis])
      rw [(hothers _ hxe).clntRule]

theorem delIpv4Rule_ok {hdl : Nat} (h : HandlesOk c)
    (hdel : delIpv4Rule true c hdl = some (.ok (), c')) :
    hdl ≠ 0 ∧ c.ruleIdArray (hdl - 1) ≠ 0 ∧
      c'.ruleIdArray = Function.update c.ruleIdArray (hdl - 1) 0 ∧
      RuleRemoved c c' (entryOfHandle c hdl) := by
  rcases delIpv4Rule_cases h.size_lt hdel with
    ⟨⟨err, herr⟩, -⟩ | ⟨-, -, expn, cur, p, cu, hhdl, -, -, -, hboth, rfl⟩
  · cases herr
  obtain ⟨hp, hid, -⟩ := h.handleEntry hhdl
  have hne : c.ruleIdArray (hdl - 1) ≠ 0 := by
    rw [hid]
    exact ruleIdOf_ne_zero h.dims hp.2.1 hp.1
  have hentry : entryOfHandle c hdl = p := by
    unfold entryOfHandle
    rw [hid, entryOfId_ruleIdOf h.dims hp.2.1]
  refine ⟨hhdl.pos, hne, ?_, hentry ▸ ruleRemoved_of_unlinkBoth hboth⟩
  have hcu : cu.ruleIdArray = c.ruleIdArray := by
    rw [(unlinkBoth_sameRules hboth).ruleIdArray]
    cases findRulePos expn (c.rules p).nextIndex <;> rfl
  exact congrArg (Function.update · (hdl - 1) 0) hcu

theorem ruleMap_del {hdl : Nat} (h : HandlesOk c)
    (hdel : delIpv4Rule true c hdl = some (.ok (), c')) :
    ruleMap c' = Function.update (ruleMap c) hdl none := by
  obtain ⟨hpos, hused, hids, hr⟩ := delIpv4Rule_ok h hdel
  funext x
  by_cases hx : x = hdl
  · subst hx
    simp [ruleMap, hids]
  · rw [Function.update_of_ne hx]
    by_cases hz : x = 0
    · simp [ruleMap, hz]
    have hne : x - 1 ≠ hdl - 1 := by omega
    have hid : c'.ruleIdArray (x - 1) = c.ruleIdArray (x - 1) := by
      rw [hids, Function.update_of_ne hne]
    have hentry : entryOfHandle c' x = entryOfHandle c x := by
      unfold entryOfHandle
      rw [hid, hr.tableEntries]
    unfold ruleMap
    rw [hid, hentry]
    by_cases hfree : c.ruleIdArray (x - 1) = 0
    · simp [hfree]
    · obtain ⟨-, hxid, hlive⟩ := h.entryOfHandle hfree
      have hxp : entryOfHandle c x ≠ entryOfHandle c hdl := by
        intro heq
        rw [heq, ← (h.entryOfHandle hused).2.1] at hxid
        exact hne (h.inj _ _ hfree hxid)
      rw [hr.clntRule _ hlive hxp]

theorem addIpv4Rule_error {r : IpaNatIpv4Rule} {err : Errno} (h : HandlesOk c)
    (hadd : addIpv4Rule .working c r = some (.error err, c')) : c' = c := by
  rcases addIpv4Rule_cases hadd with ⟨-, rfl, -⟩ | ⟨g, cg, hgenok, hinst⟩
  · rfl
  · obtain ⟨-, -, -, hids⟩ := installRule_shape h.dims (generateRule_ok hgenok) hinst
    obtain ⟨cnt, hfree, -⟩ := h.exists_free
    rcases hids with ⟨hen, -⟩ | ⟨-, hnone, -⟩ | ⟨-, cnt', -, hres, -⟩
    · cases hen
    · rw [hfree] at hnone
      cases hnone
    · cases hres

theorem delIpv4Rule_error {ok : Bool} {hdl : Nat} {err : Errno} (h : HandlesOk c)
    (hdel : delIpv4Rule ok c hdl = some (.error err, c')) : c' = c := by
  rcases delIpv4Rule_cases h.size_lt hdel with ⟨-, rfl⟩ | ⟨-, hres, -⟩
  · rfl
  · cases hres

theorem HandlesCover.add {r : IpaNatIpv4Rule} {hdl : Nat} (hc : HandlesCover c)
    (h : HandlesOk c) (hadd : addIpv4Rule .working c r = some (.ok hdl, c')) :
    HandlesCover c' := by
  obtain ⟨e, cnt, he, hdis, -, hzero, hN, hsize, hids, -, hothers⟩ := addIpv4Rule_ok h hadd
  intro x hx hl
  rw [hN, hids]
  by_cases hxe : x = e
  · refine ⟨cnt, ?_, by rw [hxe, Function.update_self]⟩
    rw [Function.update_self]
    exact ruleIdOf_ne_zero h.dims he.2.1 he.1
  · obtain ⟨s, hne, hs⟩ := hc x (hsize ▸ hx) ((hothers x hxe).live_iff.mp hl)
    have hsc : s ≠ cnt := by
      rintro rfl
      exact hne hzero
    rw [← Function.update_of_ne hsc (ruleIdOf c.tableEntries e) c.ruleIdArray] at hne hs
    exact ⟨s, hne, hs⟩

theorem HandlesCover.del {hdl : Nat} (hc : HandlesCover c) (h : HandlesOk c)
    (hdel : delIpv4Rule true c hdl = some (.ok (), c')) : HandlesCover c' := by
  obtain ⟨-, hused, hids, hr⟩ := delIpv4Rule_ok h hdel
  intro x hx hl
  obtain ⟨hlx, hxp⟩ := (hr.live x).mp hl
  obtain ⟨s, hne, hs⟩ := hc x (hr.size ▸ hx) hlx
  have hsh : s ≠ hdl - 1 := by
    rintro rfl
    have hxs : x < c.size := hr.size ▸ hx
    refine hxp ?_
    unfold entryOfHandle
    rw [hs, entryOfId_ruleIdOf h.dims (by exact hxs)]
  rw [← Function.update_of_ne hsh 0 c.ruleIdArray] at hne hs
  exact ⟨s, by rw [hids]; exact hne, by rw [hids, hr.tableEntries]; exact hs⟩

theorem TablesOk.add {r : IpaNatIpv4Rule} {res : Except Errno Nat} (h : TablesOk c)
    (hr : r.IsTcpUdp) (hwrap : ¬ IndexLinkWraps c r)
    (hadd : addIpv4Rule .working c r = some (res, c')) : TablesOk c' := by
  obtain ⟨dchain, hdst⟩ := h.dst
  obtain ⟨ichain, hindex⟩ := h.index
  refine ⟨h.handles.add hr hadd, hdst.add h.handles hr hadd,
    hindex.add hdst h.handles hr hwrap hadd, ?_⟩
  cases res with
  | ok hdl => exact h.cover.add h.handles hadd
  | error err => exact addIpv4Rule_error h.handles hadd ▸ h.cover

theorem TablesOk.del {hdl : Nat} {res : Except Errno Unit} (h : TablesOk c)
    (hdel : delIpv4Rule true c hdl = some (res, c')) : TablesOk c' := by
  obtain ⟨dchain, hdst⟩ := h.dst
  obtain ⟨ichain, hindex⟩ := h.index
  refine ⟨h.handles.del hdel, hdst.del h.handles hdel, hindex.del h.handles hdel, ?_⟩
  cases res with
  | ok _ => exact h.cover.del h.handles hdel
  | error err => exact delIpv4Rule_error h.handles hdel ▸ h.cover

theorem tablesOk_of_run {m : RuleMap} (h : SafeRun c m) : TablesOk c ∧ m = ruleMap c := by
  induction h with
  | fresh h =>
    obtain ⟨-, -, -, -, -, hids⟩ := h.fields
    refine ⟨tablesOk_fresh h, funext fun x => ?_⟩
    simp [ruleMap, hids]
  | addOk hrun hr hwrap hadd ih =>
    obtain ⟨hok, rfl⟩ := ih
    exact ⟨hok.add hr hwrap hadd, (ruleMap_add hok.handles hadd).2.symm⟩
  | addError hrun hr hwrap hadd ih =>
    obtain ⟨hok, rfl⟩ := ih
    exact ⟨hok.add hr hwrap hadd, addIpv4Rule_error hok.handles hadd ▸ rfl⟩
  | delOk hrun hdel ih =>
    obtain ⟨hok, rfl⟩ := ih
    exact ⟨hok.del hdel, (ruleMap_del hok.handles hdel).symm⟩
  | delError hrun hdel ih =>
    obtain ⟨hok, rfl⟩ := ih
    exact ⟨hok.del hdel, delIpv4Rule_error hok.handles hdel ▸ rfl⟩

/-- The tables implement the map `m`. -/
structure RefinesMap (c : IpaNatIp4TableCache) (m : RuleMap) : Prop where
  /-- The parser takes a live handle apart into the entry of its rule. -/
  accepted : ∀ h r, m h = some r → ∃ expn cur, cur ≠ 0 ∧
    parseIpv4RuleHdl c h = some (expn, cur) ∧ c.entryAt expn cur = some (entryOfHandle c h)
  /-- Different live handles stand for different entries. -/
  distinct : ∀ h h', (m h).isSome → (m h').isSome → entryOfHandle c h = entryOfHandle c h' →
    h = h'
  /-- A new handle is not the handle of a live rule. -/
  fresh : ∀ r h c', addIpv4Rule .working c r = some (.ok h, c') → m h = none
  /-- A live handle can be deleted. -/
  deletable : ∀ h r, m h = some r → ∃ c', delIpv4Rule true c h = some (.ok (), c')
  /-- The destination lookup finds the live rules and no others. -/
  dst : ∀ r e, DstFinds c r e ↔ ∃ h, m h = some r ∧ entryOfHandle c h = e
  /-- The source lookup finds the live rules and no others. -/
  src : ∀ r e, SrcFinds c r e ↔ ∃ h, m h = some r ∧ entryOfHandle c h = e

theorem TablesOk.handle_iff (h : TablesOk c) {r : IpaNatIpv4Rule} {e : Nat} :
    (e < c.size ∧ (c.rules e).Live ∧ (c.rules e).clntRule = r) ↔
      ∃ hdl, ruleMap c hdl = some r ∧ entryOfHandle c hdl = e := by
  constructor
  · rintro ⟨he, hl, hr⟩
    obtain ⟨s, hne, hs⟩ := h.cover e he hl
    have hentry : entryOfHandle c (s + 1) = e := by
      unfold entryOfHandle
      rw [Nat.add_sub_cancel, hs, entryOfId_ruleIdOf h.handles.dims he]
    exact ⟨s + 1, ruleMap_eq_some.mpr ⟨by omega, hne, by rw [hentry, hr]⟩, hentry⟩
  · rintro ⟨hdl, hm, rfl⟩
    obtain ⟨-, hne, hr⟩ := ruleMap_eq_some.mp hm
    obtain ⟨he, -, hl⟩ := h.handles.entryOfHandle hne
    exact ⟨he.2.1, hl, hr⟩

theorem TablesOk.dstFinds_iff (h : TablesOk c) {r : IpaNatIpv4Rule} {e : Nat} :
    DstFinds c r e ↔ e < c.size ∧ (c.rules e).Live ∧ (c.rules e).clntRule = r := by
  obtain ⟨chain, hdst⟩ := h.dst
  have hbase := (dstHash_base h.handles.dims r).2
  constructor
  · rintro ⟨hen, ⟨l, hwalk, hmem⟩, hl, hr⟩
    refine ⟨?_, hl, hr⟩
    obtain rfl : l = chain _ := hwalk.unique (hdst.chained.walk _ hbase hen)
    rcases List.mem_cons.mp hmem with rfl | hmem
    · unfold size
      omega
    · exact (hdst.chained.mem _ e hmem).2.1
  · rintro ⟨he, hl, rfl⟩
    obtain ⟨hen, hon⟩ := hdst.wellFormed.live e he hl
    exact ⟨hen, hon, hl, rfl⟩

theorem TablesOk.srcFinds_iff (h : TablesOk c) {r : IpaNatIpv4Rule} {e : Nat} :
    SrcFinds c r e ↔ e < c.size ∧ (c.rules e).Live ∧ (c.rules e).clntRule = r := by
  obtain ⟨chain, hindex⟩ := h.index
  have hbase := (srcHash_base h.handles.dims r).2
  constructor
  · rintro ⟨i, ⟨l, hwalk, hmem⟩, hne, rfl, hl, hr⟩
    obtain rfl : l = chain _ := hwalk.unique (hindex.walk hbase)
    have hi : i < c.size := by
      rcases List.mem_cons.mp hmem with rfl | hmem
      · unfold size
        omega
      · exact (hindex.chained.mem _ i hmem).2.1
    exact ⟨(hindex.back i hi hne).1, hl, hr⟩
  · rintro ⟨he, hl, rfl⟩
    obtain ⟨hne, -, hname⟩ := hindex.names e he hl
    exact ⟨_, (hindex.wellFormed h.handles.dims).bucket e he hl, by rw [hname]; exact hne,
      hname, hl, rfl⟩

theorem TablesOk.delete (h : TablesOk c) {hdl : Nat} {r : IpaNatIpv4Rule}
    (hm : ruleMap c hdl = some r) :
    (∃ expn cur, HandleEntry c hdl expn cur (entryOfHandle c hdl)) ∧
      ∃ c', delIpv4Rule true c hdl = some (.ok (), c') := by
  obtain ⟨dchain, hdst⟩ := h.dst
  obtain ⟨ichain, hindex⟩ := h.index
  obtain ⟨hpos, hne, -⟩ := ruleMap_eq_some.mp hm
  obtain ⟨expn, cur, p, hhdl, hid⟩ := h.handles.exists_handleEntry hne
  rw [Nat.sub_add_cancel (by omega : 1 ≤ hdl)] at hhdl
  obtain ⟨hp, -, hl⟩ := h.handles.handleEntry hhdl
  have hentry : entryOfHandle c hdl = p := by
    unfold entryOfHandle
    rw [hid, entryOfId_ruleIdOf h.handles.dims hp.2.1]
  obtain ⟨cu, hboth, -⟩ := hindex.unlink h.handles.dims hp.2.1 hl
    (findRulePos expn (c.rules p).nextIndex)
  have hlinks := hdst.toDstLists.linksInTable hhdl.entry hl.1
  have hi := (hindex.names p hp.2.1 hl).2.1
  rw [hentry]
  exact ⟨⟨expn, cur, hhdl⟩, _,
    delIpv4Rule_eq h.handles.size_lt h.handles.valid hhdl hl.1 hi hlinks hboth⟩

theorem TablesOk.refinesMap (h : TablesOk c) : RefinesMap c (ruleMap c) where
  accepted hdl r hm := by
    obtain ⟨⟨expn, cur, hhdl⟩, -⟩ := h.delete hm
    refine ⟨expn, cur, hhdl.entry_ne, ?_, hhdl.entry⟩
    have hge : ¬ hdl ≥ c.size := Nat.not_le.mpr hhdl.lt
    simp only [parseIpv4RuleHdl, hge, hhdl.pos, if_false]
    rw [hhdl.expn_eq, hhdl.tblEntry_eq]
  distinct hdl hdl' hm hm' heq := by
    obtain ⟨r, hr⟩ := Option.isSome_iff_exists.mp hm
    obtain ⟨r', hr'⟩ := Option.isSome_iff_exists.mp hm'
    obtain ⟨hpos, hne, -⟩ := ruleMap_eq_some.mp hr
    obtain ⟨hpos', hne', -⟩ := ruleMap_eq_some.mp hr'
    have hid := (h.handles.entryOfHandle hne).2.1
    have hid' := (h.handles.entryOfHandle hne').2.1
    have hslot : hdl - 1 = hdl' - 1 := h.handles.inj _ _ hne (by
      simp_all)
    omega
  fresh r hdl c' hadd := (ruleMap_add h.handles hadd).1
  deletable hdl r hm := (h.delete hm).2
  dst r e := h.dstFinds_iff.trans h.handle_iff
  src r e := h.srcFinds_iff.trans h.handle_iff

/-- **The driver refines the map of its client** in every run in which no add links an
index entry behind a base entry from `2 ^ 14` on. -/
theorem refinesMap_of_run {m : RuleMap} (h : SafeRun c m) : RefinesMap c m := by
  obtain ⟨hok, rfl⟩ := tablesOk_of_run h
  exact hok.refinesMap

def runStep (allow : IpaNatIp4TableCache → IpaNatIpv4Rule → Bool)
    (s : IpaNatIp4TableCache × RuleMap) : Op → Option (IpaNatIp4TableCache × RuleMap)
  | .add r dma =>
    if r.IsTcpUdp ∧ dma = .working ∧ allow s.1 r then
      (addIpv4Rule .working s.1 r).map fun
        | (.ok hdl, c) => (c, Function.update s.2 hdl (some r))
        | (.error _, c) => (c, s.2)
    else none
  | .del hdl ok =>
    if ok then
      (delIpv4Rule true s.1 hdl).map fun
        | (.ok _, c) => (c, Function.update s.2 hdl none)
        | (.error _, c) => (c, s.2)
    else none

def runAll (allow : IpaNatIp4TableCache → IpaNatIpv4Rule → Bool) (c : IpaNatIp4TableCache)
    (ops : List Op) : Option (IpaNatIp4TableCache × RuleMap) :=
  ops.foldlM (runStep allow) (c, fun _ => none)

theorem run_runStep {allow : IpaNatIp4TableCache → IpaNatIpv4Rule → Bool}
    {s s' : IpaNatIp4TableCache × RuleMap} {op : Op}
    (hs : Run (fun c r => allow c r = true) s.1 s.2) (h : runStep allow s op = some s') :
    Run (fun c r => allow c r = true) s'.1 s'.2 := by
  cases op with
  | add r dma =>
    simp only [runStep] at h
    split at h
    · rename_i hc
      obtain ⟨⟨res, c'⟩, hadd, rfl⟩ := Option.map_eq_some_iff.mp h
      cases res with
      | ok hdl => exact .addOk hs hc.1 hc.2.2 hadd
      | error err => exact .addError hs hc.1 hc.2.2 hadd
    · cases h
  | del hdl ok =>
    simp only [runStep] at h
    split at h
    · obtain ⟨⟨res, c'⟩, hdel, rfl⟩ := Option.map_eq_some_iff.mp h
      cases res with
      | ok _ => exact .delOk hs hdel
      | error err => exact .delError hs hdel
    · cases h

theorem run_runAll {allow : IpaNatIp4TableCache → IpaNatIpv4Rule → Bool} (ops : List Op)
    {s' : IpaNatIp4TableCache × RuleMap} (hc : Fresh c) (h : runAll allow c ops = some s') :
    Run (fun c r => allow c r = true) s'.1 s'.2 := by
  have hfold : ∀ (ops : List Op) (s : IpaNatIp4TableCache × RuleMap),
      Run (fun c r => allow c r = true) s.1 s.2 → ops.foldlM (runStep allow) s = some s' →
      Run (fun c r => allow c r = true) s'.1 s'.2 := by
    intro ops
    induction ops with
    | nil =>
      intro s hs h
      cases h
      exact hs
    | cons op ops ih =>
      intro s hs h
      simp only [List.foldlM_cons, Option.bind_eq_bind, Option.bind_eq_some_iff] at h
      obtain ⟨s₁, h₁, h⟩ := h
      exact ih s₁ (run_runStep hs h₁) h
  exact hfold ops (c, fun _ => none) (.fresh hc) h

theorem Run.mono {allow allow' : IpaNatIp4TableCache → IpaNatIpv4Rule → Prop} {m : RuleMap}
    (h : Run allow c m) (hle : ∀ c r, allow c r → allow' c r) : Run allow' c m := by
  induction h with
  | fresh h => exact .fresh h
  | addOk _ hr ha hadd ih => exact .addOk ih hr (hle _ _ ha) hadd
  | addError _ hr ha hadd ih => exact .addError ih hr (hle _ _ ha) hadd
  | delOk _ hdel ih => exact .delOk ih hdel
  | delError _ hdel ih => exact .delError ih hdel

def safeAdmit (c : IpaNatIp4TableCache) (r : IpaNatIpv4Rule) : Bool :=
  !decide (IndexLinkWraps c r)

/-- After `movedHeadCalls` the handles `2` and `3` are live. -/
theorem refinesMap_of_run_movedHead :
    ∃ s, runAll safeAdmit (freshTable 16 4) movedHeadCalls = some s ∧
      s.2 1 = none ∧ s.2 2 = some ⟨0, 0, 1, 0, 1, 6⟩ ∧ RefinesMap s.1 s.2 := by
  have hrun : (runAll safeAdmit (freshTable 16 4) movedHeadCalls).map (fun s => (s.2 1, s.2 2)) =
      some (none, some ⟨0, 0, 1, 0, 1, 6⟩) := by decide +kernel
  obtain ⟨s, hs, hlive⟩ := Option.map_eq_some_iff.mp hrun
  obtain ⟨h1, h2⟩ := Prod.mk.inj hlive
  exact ⟨s, hs, h1, h2, refinesMap_of_run ((run_runAll movedHeadCalls fresh_sixteen hs).mono
    fun c r h => by simpa [safeAdmit] using h)⟩

/-- Without the condition, a rule that was added and not deleted can be missing from the
source lookup. -/
theorem not_refinesMap : ∃ c m, Run (fun _ _ => True) c m ∧ ¬ RefinesMap c m := by
  have hrun : (runAll (fun _ _ => true) (freshTable 32768 4096) wrapCalls).isSome := by
    decide +kernel
  obtain ⟨s, hs⟩ := Option.isSome_iff_exists.mp hrun
  have hfields : (runAll (fun _ _ => true) (freshTable 32768 4096) wrapCalls).map (fun s =>
      (s.2 2, entryOfHandle s.1 2, s.1.tableEntries, (s.1.index 20006).nextIndex,
        (s.1.index 20006).tblEntry)) =
      some (some ⟨0, 0, 20000, 0, 1, 6⟩, 20007, 32768, 0, 20006) := by decide +kernel
  simp only [hs, Option.map_some, Option.some.injEq, Prod.mk.injEq] at hfields
  obtain ⟨hm, hentry, hN, hnext, htbl⟩ := hfields
  refine ⟨s.1, s.2, (run_runAll wrapCalls fresh_large hs).mono fun _ _ _ => trivial, ?_⟩
  intro h
  obtain ⟨i, ⟨l, hwalk, hmem⟩, -, hi, -⟩ := (h.src _ _).mpr ⟨2, hm, hentry⟩
  have hhash : (⟨0, 0, 20000, 0, 1, 6⟩ : IpaNatIpv4Rule).srcHash s.1.tableEntries = 20006 := by
    rw [hN]
    decide
  rw [hhash] at hwalk hmem
  have hend : Walk (indexLinks s.1).next 20006 [] := hnext
  rw [hwalk.unique hend] at hmem
  simp_all

end EtherDevice.IpaNati
