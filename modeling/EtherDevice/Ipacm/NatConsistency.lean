import EtherDevice.Ipacm.NatApp
import EtherDevice.Lib.Ledger

/-!
# The cache agrees with the hardware table

The enabled slots of the cache hold the live handles of the hardware table, each of them
once (`NatConsistent`). Two operations break this. `DeleteTable` leaves enabled slots
behind, since the loop of `Reset` assigns nothing; and `DeleteEntry` forgets a connection
whose rule the driver did not delete. `CacheEntry` starts its search at an uninitialised
index. In the runs that avoid the three the agreement holds
(`natConsistent_of_reachable`).
-/

namespace EtherDevice.Ipacm

open Lib
open IpaNati (IpaNatIpv4Rule)

variable {d d' : NatDriver} {a a' : NatApp} {held : List (Nat × IpaNatIpv4Rule)}
  {rule : IpaNatIpv4Rule} {tblHdl ruleHdl : Nat}

/-! ## The driver and the holders of its handles -/

structure DriverOk (held : List (Nat × IpaNatIpv4Rule)) (d : NatDriver) : Prop where
  ledger : Ledger held d.live
  noTable : d.table = false → d.live = []
  /-- Every request to delete a rule was made by the rule's own connection. -/
  delRequests : ∀ q ∈ d.delRequests, q.target = some q.owner

namespace DriverOk

theorem of_perm {held' : List (Nat × IpaNatIpv4Rule)} (h : DriverOk held d)
    (hp : held'.Perm held) : DriverOk held' d :=
  ⟨h.ledger.of_perm hp, h.noTable, h.delRequests⟩

theorem next (h : DriverOk held d) : DriverOk held d.next :=
  ⟨h.ledger, h.noTable, h.delRequests⟩

theorem addRule_none (h : DriverOk held d) (hadd : d.addIpv4Rule tblHdl rule = (none, d')) :
    DriverOk held d' := by
  unfold NatDriver.addIpv4Rule at hadd
  split at hadd
  · cases hadd
    exact h.next
  · split at hadd
    · cases hadd
      exact h.next
    · cases hadd

theorem addRule_some (h : DriverOk held d)
    (hadd : d.addIpv4Rule tblHdl rule = (some ruleHdl, d')) :
    DriverOk ((ruleHdl, rule) :: held) d' := by
  unfold NatDriver.addIpv4Rule at hadd
  split at hadd
  · cases hadd
  · split at hadd
    · cases hadd
    · rename_i hok
      push Not at hok
      obtain ⟨htable, -, hfresh⟩ := hok
      cases hadd
      refine ⟨h.ledger.add hfresh, ?_, h.delRequests⟩
      intro hno
      exact absurd hno htable

theorem delRequests_cons (h : DriverOk held d) (hm : (ruleHdl, rule) ∈ held) :
    ∀ q ∈ (⟨ruleHdl, rule, d.live.lookup ruleHdl⟩ : DelRequest) :: d.delRequests,
      q.target = some q.owner := by
  intro q hq
  rcases List.mem_cons.mp hq with rfl | hq
  · exact h.ledger.lookup_eq hm
  · exact h.delRequests q hq

theorem delRule_false (h : DriverOk ((ruleHdl, rule) :: held) d)
    (hdel : d.delIpv4Rule tblHdl ruleHdl rule = (false, d')) :
    DriverOk ((ruleHdl, rule) :: held) d' := by
  have hreq := h.delRequests_cons List.mem_cons_self
  unfold NatDriver.delIpv4Rule at hdel
  split at hdel
  · cases hdel
  · cases hdel
    exact ⟨h.ledger, h.noTable, hreq⟩

theorem delRule_true (h : DriverOk ((ruleHdl, rule) :: held) d)
    (hdel : d.delIpv4Rule tblHdl ruleHdl rule = (true, d')) : DriverOk held d' := by
  have hreq := h.delRequests_cons List.mem_cons_self
  unfold NatDriver.delIpv4Rule at hdel
  split at hdel
  · rename_i hok
    cases hdel
    refine ⟨h.ledger.remove, ?_, hreq⟩
    intro hno
    exact absurd (hok.2.2.1.symm.trans hno) nofun
  · cases hdel

theorem addTbl_true (h : DriverOk held d) {n hdl' : Nat}
    (hadd : d.addIpv4Tbl n tblHdl = (true, hdl', d')) : held = [] ∧ DriverOk [] d' := by
  unfold NatDriver.addIpv4Tbl at hadd
  split at hadd
  · cases hadd
  · split at hadd
    · cases hadd
    · rename_i hok
      cases hadd
      have hlive : d.live = [] := h.noTable (by simpa using (not_or.mp hok).1)
      have hledger := h.ledger
      rw [hlive] at hledger
      have hheld : held = [] := hledger.perm.eq_nil
      subst hheld
      exact ⟨rfl, ⟨by simpa [NatDriver.next, hlive] using hledger, fun _ => hlive,
        h.delRequests⟩⟩

theorem addTbl_false (h : DriverOk held d) {n hdl' : Nat}
    (hadd : d.addIpv4Tbl n tblHdl = (false, hdl', d')) : DriverOk held d' := by
  unfold NatDriver.addIpv4Tbl at hadd
  split at hadd
  · cases hadd
    exact h
  · split at hadd
    · cases hadd
      exact h.next
    · cases hadd

theorem delTbl_true (h : DriverOk held d) (hdel : d.delIpv4Tbl tblHdl = (true, d')) :
    DriverOk [] d' := by
  unfold NatDriver.delIpv4Tbl at hdel
  split at hdel
  · cases hdel
    exact ⟨.empty, fun _ => rfl, h.delRequests⟩
  · cases hdel

theorem delTbl_false (h : DriverOk held d) (hdel : d.delIpv4Tbl tblHdl = (false, d')) :
    DriverOk held d' := by
  unfold NatDriver.delIpv4Tbl at hdel
  split at hdel
  · cases hdel
  · cases hdel
    exact h.next

end DriverOk

/-! ## What the slots hold -/

def heldBy (slots : List NatTableEntry) : List (Nat × IpaNatIpv4Rule) :=
  (slots.filter NatTableEntry.enabled).map fun e => (e.ruleHdl, e.natRule)

theorem heldBy_append (es es' : List NatTableEntry) :
    heldBy (es ++ es') = heldBy es ++ heldBy es' := by
  simp [heldBy]

theorem heldBy_cons (e : NatTableEntry) (es : List NatTableEntry) :
    heldBy (e :: es) = heldBy [e] ++ heldBy es := heldBy_append [e] es

theorem heldBy_enabled {e : NatTableEntry} (h : e.enabled = true) :
    heldBy [e] = [(e.ruleHdl, e.natRule)] := by
  simp [heldBy, h]

theorem heldBy_disabled {e : NatTableEntry} (h : e.enabled = false) : heldBy [e] = [] := by
  simp [heldBy, h]

theorem heldBy_eq_nil {es : List NatTableEntry} :
    heldBy es = [] ↔ ∀ e ∈ es, e.enabled = false := by
  simp [heldBy, List.filter_eq_nil_iff]

theorem heldBy_split (es₁ es₂ : List NatTableEntry) (e : NatTableEntry) :
    (heldBy (es₁ ++ e :: es₂)).Perm (heldBy [e] ++ heldBy (es₁ ++ es₂)) := by
  grind [heldBy_append, heldBy_cons]

/-- A slot that a new connection can use is not enabled. -/
def FreeDisabled (e : NatTableEntry) : Prop := e.isFree = true → e.enabled = false

theorem freeDisabled_empty : FreeDisabled {} := fun _ => rfl

theorem FreeDisabled.of_privateIp {e : NatTableEntry} (h : e.privateIp ≠ 0) :
    FreeDisabled e := by
  intro hfree
  simp_all [NatTableEntry.isFree]

/-! ## Rounds -/

/-- A round of a loop keeps the driver in order, if its slot was as `P` says. -/
def RoundOk (P : NatTableEntry → Prop) (body : Round → Round) : Prop :=
  ∀ r held, P r.slot → FreeDisabled r.slot → DriverOk (heldBy [r.slot] ++ held) r.driver →
    DriverOk (heldBy [(body r).slot] ++ held) (body r).driver ∧ FreeDisabled (body r).slot

theorem forSlots_ok {P : NatTableEntry → Prop} {body : Round → Round} (hbody : RoundOk P body)
    (slots : List NatTableEntry) (curCnt : Int) (hP : ∀ e ∈ slots, P e)
    (hfree : ∀ e ∈ slots, FreeDisabled e) (h : DriverOk (heldBy slots ++ held) d) :
    DriverOk (heldBy (forSlots body slots d curCnt).1 ++ held)
        (forSlots body slots d curCnt).2.1 ∧
      ∀ e ∈ (forSlots body slots d curCnt).1, FreeDisabled e := by
  induction slots generalizing d curCnt held with
  | nil => exact ⟨h, nofun⟩
  | cons slot slots ih =>
    rw [heldBy_cons, List.append_assoc] at h
    obtain ⟨hr, hf⟩ := hbody ⟨slot, d, curCnt⟩ (heldBy slots ++ held)
      (hP slot List.mem_cons_self) (hfree slot List.mem_cons_self) h
    -- the slot that is done joins the other holders
    have hnext : DriverOk (heldBy slots ++ (heldBy [(body ⟨slot, d, curCnt⟩).slot] ++ held))
        (body ⟨slot, d, curCnt⟩).driver := by
      apply hr.of_perm
      rw [← List.append_assoc, ← List.append_assoc]
      exact List.perm_append_comm.append_right _
    obtain ⟨hrest, hfrest⟩ := ih (body ⟨slot, d, curCnt⟩).curCnt
      (fun e he => hP e (List.mem_cons_of_mem slot he))
      (fun e he => hfree e (List.mem_cons_of_mem slot he)) hnext
    constructor
    · refine hrest.of_perm ?_
      rw [forSlots, heldBy_cons, ← List.append_assoc]
      exact List.perm_append_comm.append_right _
    · intro e he
      rcases List.mem_cons.mp he with rfl | he
      · exact hf
      · exact hfrest e he

theorem RoundOk.ite {P : NatTableEntry → Prop} {c : Round → Prop} [DecidablePred c]
    {body : Round → Round}
    (h : ∀ r held, c r → P r.slot → FreeDisabled r.slot →
      DriverOk (heldBy [r.slot] ++ held) r.driver →
      DriverOk (heldBy [(body r).slot] ++ held) (body r).driver ∧ FreeDisabled (body r).slot) :
    RoundOk P fun r => if c r then body r else r := by
  intro r held hP hfree hr
  by_cases hc : c r
  · simp only [hc, if_true]
    exact h r held hc hP hfree hr
  simp [hc, hr, hfree]

theorem addSlot_ok {r : Round} (hip : r.slot.privateIp ≠ 0) (hdis : r.slot.enabled = false)
    (h : DriverOk (heldBy [r.slot] ++ held) r.driver) :
    DriverOk (heldBy [(addSlot tblHdl r).slot] ++ held) (addSlot tblHdl r).driver ∧
      FreeDisabled (addSlot tblHdl r).slot := by
  rw [heldBy_disabled hdis, List.nil_append] at h
  unfold addSlot
  split
  · rename_i driver hadd
    exact ⟨h.addRule_none hadd, freeDisabled_empty⟩
  · rename_i ruleHdl driver hadd
    exact ⟨h.addRule_some hadd, .of_privateIp hip⟩

theorem restoreSlot_ok : RoundOk (fun e => e.enabled = false) (restoreSlot tblHdl) :=
  RoundOk.ite fun _ _ hip hdis _ h => addSlot_ok hip hdis h

theorem resetPwrSaveSlot_ok {ip : UInt32} (hip : ip ≠ 0) :
    RoundOk (fun _ => True) (resetPwrSaveSlot tblHdl ip) :=
  RoundOk.ite fun _ _ hc _ _ h => addSlot_ok (hc.1 ▸ hip) hc.2 h

theorem delSlot_ok {r : Round} {done : NatTableEntry → NatTableEntry}
    (hdone : ∀ e, (done e).enabled = false) (hen : r.slot.enabled = true)
    (hfree : FreeDisabled r.slot) (h : DriverOk (heldBy [r.slot] ++ held) r.driver) :
    DriverOk (heldBy [(delSlot tblHdl done r).slot] ++ held) (delSlot tblHdl done r).driver ∧
      FreeDisabled (delSlot tblHdl done r).slot := by
  have hheld := h
  rw [heldBy_enabled hen, List.singleton_append] at hheld
  unfold delSlot
  split
  · rename_i driver hdel
    refine ⟨?_, hfree⟩
    have hkept := hheld.delRule_false hdel
    rw [heldBy_enabled hen]
    exact hkept
  · rename_i driver hdel
    refine ⟨?_, fun _ => hdone _⟩
    rw [heldBy_disabled (hdone _)]
    exact hheld.delRule_true hdel

theorem updatePwrSaveSlot_ok {ip : UInt32} :
    RoundOk (fun _ => True) (updatePwrSaveSlot tblHdl ip) :=
  RoundOk.ite fun _ _ hc _ hfree h => delSlot_ok (fun _ => rfl) hc.2 hfree h

theorem clntDisconSlot_ok {ip : UInt32} :
    RoundOk (fun _ => True) (clntDisconSlot tblHdl ip) :=
  RoundOk.ite fun _ _ hc _ hfree h => delSlot_ok (fun _ => rfl) hc.2 hfree h

theorem staClntDisconSlot_ok {ip : UInt32} :
    RoundOk (fun _ => True) (staClntDisconSlot tblHdl ip) := by
  apply RoundOk.ite
  intro r held _ _ hfree h
  by_cases hen : r.slot.enabled = true
  · have hheld := h
    rw [heldBy_enabled hen, List.singleton_append] at hheld
    simp only [hen, if_true]
    split
    · rename_i driver hdel
      refine ⟨?_, hfree⟩
      rw [heldBy_enabled hen]
      exact hheld.delRule_false hdel
    · rename_i driver hdel
      exact ⟨hheld.delRule_true hdel, freeDisabled_empty⟩
  simp_all [heldBy_disabled, freeDisabled_empty]

/-! ## The invariant -/

structure NatInv (a : NatApp) : Prop where
  driver : DriverOk (heldBy a.cache) a.driver
  free : ∀ e ∈ a.cache, FreeDisabled e

theorem natInv_initial (h : a.Initial) : NatInv a := by
  obtain ⟨n, hcache⟩ := h.cache
  have hslots : ∀ e ∈ a.cache, e.enabled = false := by
    intro e he
    rw [hcache] at he
    rw [List.eq_of_mem_replicate he]
  refine ⟨⟨?_, fun _ => h.live, ?_⟩, fun e he _ => hslots e he⟩
  · rw [heldBy_eq_nil.mpr hslots, h.live]
    exact .empty
  · rw [h.delRequests]
    exact nofun

theorem NatInv.forSlots {P : NatTableEntry → Prop} {body : Round → Round} (h : NatInv a)
    (hbody : RoundOk P body) (hP : ∀ e ∈ a.cache, P e) : NatInv (a.forSlots body) := by
  have hheld := h.driver
  rw [← List.append_nil (heldBy a.cache)] at hheld
  obtain ⟨hdriver, hfree⟩ := forSlots_ok hbody a.cache a.curCnt hP h.free hheld
  rw [List.append_nil] at hdriver
  exact ⟨hdriver, hfree⟩

theorem NatInv.addTable (h : NatInv a) (pubIp : UInt32) : NatInv (a.addTable pubIp).2 := by
  unfold NatApp.addTable
  split
  · rename_i natTableHdl driver hadd
    exact ⟨h.driver.addTbl_false hadd, h.free⟩
  · rename_i natTableHdl driver hadd
    obtain ⟨hnone, hdriver⟩ := h.driver.addTbl_true hadd
    have hnew : NatInv { a with natTableHdl, driver } :=
      ⟨by simpa only [hnone] using hdriver, h.free⟩
    simp only
    split
    · have hloop : NatInv ({ a with natTableHdl, driver }.forSlots (restoreSlot natTableHdl)) :=
        hnew.forSlots restoreSlot_ok (heldBy_eq_nil.mp hnone)
      exact ⟨hloop.driver, hloop.free⟩
    · exact ⟨hnew.driver, hnew.free⟩

/-- The condition of `DeleteTable`: it does not get through while a slot is enabled. -/
def TableDeletable (a : NatApp) (pubIp : UInt32) : Prop :=
  a.pubIpAddr = pubIp → a.driver.DeletesTbl a.natTableHdl → ∀ e ∈ a.cache, e.enabled = false

theorem deletesTbl_of_delIpv4Tbl (h : d.delIpv4Tbl tblHdl = (true, d')) :
    d.DeletesTbl tblHdl := by
  unfold NatDriver.delIpv4Tbl at h
  split at h
  · assumption
  · cases h

theorem NatInv.deleteTable (h : NatInv a) {pubIp : UInt32} (hok : TableDeletable a pubIp) :
    NatInv (a.deleteTable pubIp).2 := by
  unfold NatApp.deleteTable
  split
  · exact h
  · split
    · exact h
    · rename_i hip
      split
      · rename_i driver hdel
        exact ⟨h.driver.delTbl_false hdel, h.free⟩
      · rename_i driver hdel
        have hnone := heldBy_eq_nil.mpr (hok (not_not.mp hip) (deletesTbl_of_delIpv4Tbl hdel))
        refine ⟨?_, h.free⟩
        change DriverOk (heldBy a.cache) driver
        rw [hnone]
        exact h.driver.delTbl_true hdel

theorem NatInv.replace {cnt : Nat} {e' : NatTableEntry} (h : NatInv a)
    (hlt : cnt < a.cache.length)
    (hcache : a'.cache = a.cache.take cnt ++ e' :: a.cache.drop (cnt + 1))
    (hfree : FreeDisabled e')
    (hdriver : ∀ held, DriverOk (heldBy [a.cache[cnt]] ++ held) a.driver →
      DriverOk (heldBy [e'] ++ held) a'.driver) : NatInv a' := by
  have hold := h.driver
  have hsplit : a.cache = a.cache.take cnt ++ a.cache[cnt] :: a.cache.drop (cnt + 1) := by
    rw [List.getElem_cons_drop, List.take_append_drop]
  rw [hsplit] at hold
  have hnew := hdriver _ (hold.of_perm (heldBy_split _ _ _).symm)
  constructor
  · rw [hcache]
    exact hnew.of_perm (heldBy_split _ _ e')
  · intro x hx
    rw [hcache] at hx
    rcases List.mem_append.mp hx with hx | hx
    · exact h.free x (List.mem_of_mem_take hx)
    · rcases List.mem_cons.mp hx with rfl | hx
      · exact hfree
      · exact h.free x (List.mem_of_mem_drop hx)

/-- The condition of `DeleteEntry`: if the slot of the connection is enabled, the driver
deletes its rule. -/
def EntryDeletable (a : NatApp) (rule : NatTableEntry) : Prop :=
  ∀ e, a.cache.find? (fun e => e.sameConn rule) = some e → e.enabled = true →
    a.driver.Deletes a.natTableHdl e.ruleHdl

theorem delIpv4Rule_of_deletes (rule : IpaNatIpv4Rule) (h : d.Deletes tblHdl ruleHdl) :
    ∃ d', d.delIpv4Rule tblHdl ruleHdl rule = (true, d') := by
  simp [NatDriver.delIpv4Rule, h]

theorem NatInv.deleteEntry (h : NatInv a) {rule : NatTableEntry} (hok : EntryDeletable a rule) :
    NatInv (a.deleteEntry rule) := by
  unfold NatApp.deleteEntry
  simp only
  split
  · exact h
  · rename_i e he
    have hfind := List.find?_eq_getElem?_findIdx.trans he
    obtain ⟨hlt, rfl⟩ := List.getElem?_eq_some_iff.mp he
    apply h.replace hlt _ freeDisabled_empty _
    · exact List.set_eq_take_append_cons_drop.trans (if_pos hlt)
    · intro held hd
      by_cases hen : a.cache[a.cache.findIdx fun e => e.sameConn rule].enabled = true
      · obtain ⟨d', hdel⟩ := delIpv4Rule_of_deletes
          a.cache[a.cache.findIdx fun e => e.sameConn rule].natRule (hok _ hfind hen)
        rw [heldBy_enabled hen] at hd
        simp only [hen, if_true, hdel]
        exact hd.delRule_true hdel
      simp_all [heldBy_disabled]

theorem NatInv.fillSlot (h : NatInv a) {cnt : Nat} {rule : NatTableEntry} {enabled : Bool}
    {driver : NatDriver} (hlt : cnt < a.cache.length) (hslot : a.cache[cnt].isFree = true)
    (hvalid : rule.isInvalid = false)
    (hdriver : ∀ held, DriverOk held a.driver →
      DriverOk (if enabled then (ruleHdl, rule.natRule) :: held else held) driver) :
    NatInv ({ a with driver }.fillSlot cnt rule enabled ruleHdl) := by
  have hip : rule.privateIp ≠ 0 := by
    intro hz
    simp [NatTableEntry.isInvalid, hz] at hvalid
  apply h.replace hlt
  · exact List.modify_eq_take_cons_drop hlt
  · exact .of_privateIp hip
  · intro held hd
    rw [heldBy_disabled (h.free _ (List.getElem_mem hlt) hslot)] at hd
    have hnew := hdriver held hd
    cases enabled with
    | false => exact hnew
    | true => exact hnew

theorem NatInv.addEntry (h : NatInv a) (rule : NatTableEntry) : NatInv (a.addEntry rule).2 := by
  unfold NatApp.addEntry
  split
  · exact h
  split
  · exact h
  split
  · exact h
  rename_i hvalid
  split
  · exact h
  simp only
  split
  · exact h
  rename_i hcnt
  have hlt : a.cache.findIdx NatTableEntry.isFree < a.cache.length :=
    Nat.lt_of_le_of_ne List.findIdx_le_length (Ne.symm hcnt)
  have hslot := List.findIdx_getElem (w := hlt)
  have hvalid : rule.isInvalid = false := by simpa using hvalid
  split
  · exact h.fillSlot hlt hslot hvalid fun _ hd => hd
  · split
    · rename_i driver hadd
      exact ⟨h.driver.addRule_none hadd, h.free⟩
    · rename_i hdl driver hadd
      exact h.fillSlot hlt hslot hvalid fun _ hd => hd.addRule_some hadd

def SearchInCache (a : NatApp) (rule : NatTableEntry) (cnt : Int) : Prop :=
  rule.isInvalid = false → a.chkForDup rule = false → 0 ≤ cnt ∧ cnt ≤ a.maxEntries

theorem cacheEntry_ne_none {rule : NatTableEntry} {cnt : Int} (h : SearchInCache a rule cnt) :
    a.cacheEntry rule cnt ≠ none := by
  unfold NatApp.cacheEntry
  split
  · nofun
  rename_i hvalid
  split
  · nofun
  rename_i hdup
  obtain ⟨hlo, hhi⟩ := h (by simpa using hvalid) (by simpa using hdup)
  rw [if_neg (by omega)]
  simp only
  split
  · nofun
  · nofun

theorem NatInv.cacheEntry (h : NatInv a) {rule : NatTableEntry} {cnt : Int}
    (hc : a.cacheEntry rule cnt = some a') : NatInv a' := by
  unfold NatApp.cacheEntry at hc
  split at hc
  · cases hc
    exact h
  rename_i hvalid
  split at hc
  · cases hc
    exact h
  split at hc
  · cases hc
  rename_i hrange
  simp only at hc
  split at hc
  · cases hc
    exact h
  rename_i hcnt
  cases hc
  let n := cnt.toNat
  let k := (a.cache.drop n).findIdx NatTableEntry.isFree
  have hle : k ≤ (a.cache.drop n).length := List.findIdx_le_length
  have hn : n ≤ a.cache.length := by
    have := not_or.mp hrange
    unfold NatApp.maxEntries at this
    omega
  have hlt : n + k < a.cache.length := by
    rw [List.length_drop] at hle
    have hne : a.cache.length ≠ n + k := hcnt
    omega
  have hslot : a.cache[n + k].isFree = true := by
    have hk : k < (a.cache.drop n).length := by
      rw [List.length_drop]
      omega
    have hfound := List.findIdx_getElem (w := hk)
    rwa [List.getElem_drop] at hfound
  exact h.fillSlot hlt hslot (by simpa using hvalid) fun _ hd => hd

theorem NatInv.flushTempSlot (h : NatInv a) (ip : UInt32) (isAdd : Bool) (e : NatTableEntry) :
    NatInv (a.flushTempSlot ip isAdd e).2 := by
  unfold NatApp.flushTempSlot
  split
  · split
    · have hadd := h.addEntry e
      simp only
      split
      · exact hadd
      · exact hadd
    · exact h
  · exact h

theorem NatInv.flushTempLoop (h : NatInv a) (ip : UInt32) (isAdd : Bool)
    (es : List NatTableEntry) : NatInv (NatApp.flushTempLoop ip isAdd es a).2 := by
  induction es generalizing a with
  | nil => exact h
  | cons e es ih => exact ih (h.flushTempSlot ip isAdd e)

/-! ## Runs -/

def Op.Keeps (a : NatApp) : Op → Prop
  | .deleteTable pubIp => TableDeletable a pubIp
  | .deleteEntry rule => EntryDeletable a rule
  | .cacheEntry rule cnt => SearchInCache a rule cnt
  | _ => True

theorem NatInv.exec (h : NatInv a) {op : Op} (hop : op.Keeps a) (hexec : op.exec a = some a') :
    NatInv a' := by
  cases op with
  | addTable pubIp =>
    cases hexec
    exact h.addTable pubIp
  | deleteTable pubIp =>
    cases hexec
    exact h.deleteTable hop
  | addEntry rule =>
    cases hexec
    exact h.addEntry rule
  | deleteEntry rule =>
    cases hexec
    exact h.deleteEntry hop
  | updatePwrSaveIf ip =>
    cases hexec
    unfold NatApp.updatePwrSaveIf
    split
    · exact h
    split
    · exact h
    · have hset : NatInv { a with pwrSaveIfs := a.pwrSaveIfs.replace 0 ip } := ⟨h.driver, h.free⟩
      exact hset.forSlots updatePwrSaveSlot_ok fun _ _ => trivial
  | resetPwrSaveIf ip =>
    cases hexec
    unfold NatApp.resetPwrSaveIf
    split
    · exact h
    · rename_i hip
      have hset : NatInv { a with pwrSaveIfs := a.pwrSaveIfs.replace ip 0 } := ⟨h.driver, h.free⟩
      exact hset.forSlots (resetPwrSaveSlot_ok hip) fun _ _ => trivial
  | addTempEntry newEntry =>
    cases hexec
    exact ⟨h.driver, h.free⟩
  | deleteTempEntry entry =>
    cases hexec
    exact ⟨h.driver, h.free⟩
  | flushTempEntries ip isAdd =>
    cases hexec
    have hloop := h.flushTempLoop ip isAdd a.temp
    exact ⟨hloop.driver, hloop.free⟩
  | cacheEntry rule cnt => exact h.cacheEntry hexec
  | delEntriesOnClntDiscon ip =>
    cases hexec
    unfold NatApp.delEntriesOnClntDiscon
    split
    · exact h
    · have hset : NatInv { a with pwrSaveIfs := a.pwrSaveIfs.replace ip 0 } := ⟨h.driver, h.free⟩
      exact hset.forSlots clntDisconSlot_ok fun _ _ => trivial
  | delEntriesOnSTAClntDiscon ip =>
    cases hexec
    unfold NatApp.delEntriesOnSTAClntDiscon
    split
    · exact h
    · exact h.forSlots staClntDisconSlot_ok fun _ _ => trivial

/-- The runs whose calls all keep the agreement. -/
def keepingSystem : System NatApp Op := natAppSystem.restrict fun a op => op.Keeps a

theorem natInv_invariant : keepingSystem.Invariant NatInv where
  init _ h := natInv_initial h
  step a op a' h hstep := by
    obtain ⟨hop, hexec | hnone⟩ := hstep
    · exact h.exec hop hexec
    · cases op with
      | cacheEntry rule cnt => exact absurd hnone (cacheEntry_ne_none hop)
      | _ => cases hnone

/-- The cache and the hardware table agree. -/
structure NatConsistent (a : NatApp) : Prop where
  /-- An enabled slot has a live handle, of a rule of its own connection. -/
  enabled : ∀ e ∈ a.cache, e.enabled = true →
    a.driver.table = true ∧ a.driver.live.lookup e.ruleHdl = some e.natRule
  /-- Two enabled slots have different handles. -/
  distinct : ∀ (i j : Nat) e e', a.cache[i]? = some e → a.cache[j]? = some e' → e.enabled = true →
    e'.enabled = true → e.ruleHdl = e'.ruleHdl → i = j
  /-- A live rule has exactly one enabled slot. -/
  live : ∀ p ∈ a.driver.live, ∃! i : Nat, ∃ e, a.cache[i]? = some e ∧ e.enabled = true ∧
    e.ruleHdl = p.1
  /-- Every request to delete a rule was made for the rule's own connection. -/
  delRequests : ∀ q ∈ a.driver.delRequests, q.target = some q.owner

theorem heldBy_distinct {slots : List NatTableEntry} (h : ((heldBy slots).map Prod.fst).Nodup)
    {i j : Nat} {e e' : NatTableEntry} (hi : slots[i]? = some e) (hj : slots[j]? = some e')
    (he : e.enabled = true) (he' : e'.enabled = true) (heq : e.ruleHdl = e'.ruleHdl) :
    i = j := by
  induction slots generalizing i j with
  | nil => cases hi
  | cons slot slots ih =>
    have hmem : ∀ (k : Nat) x, slots[k]? = some x → x.enabled = true → x.ruleHdl ∈
        (heldBy slots).map Prod.fst := by
      grind [heldBy]
    rw [heldBy_cons, List.map_append, List.nodup_append] at h
    obtain ⟨-, hrest, hdisj⟩ := h
    have hhead : ∀ (k : Nat) x, slots[k]? = some x → x.enabled = true → slot.enabled = true →
        slot.ruleHdl ≠ x.ruleHdl := by
      intro k x hk hx hs
      apply hdisj _ _ _ (hmem k x hk hx)
      simp [heldBy_enabled hs]
    grind

theorem NatInv.consistent (h : NatInv a) : NatConsistent a where
  enabled e he hen := by
    have hmem : (e.ruleHdl, e.natRule) ∈ heldBy a.cache := by
      simp only [heldBy, List.mem_map, List.mem_filter]
      exact ⟨e, ⟨he, hen⟩, rfl⟩
    refine ⟨?_, h.driver.ledger.lookup_eq hmem⟩
    by_contra hno
    have hlive := h.driver.noTable (by simpa using hno)
    have hl := h.driver.ledger.mem_iff.mp hmem
    rw [hlive] at hl
    cases hl
  distinct i j e e' hi hj he he' heq :=
    heldBy_distinct h.driver.ledger.held_keys hi hj he he' heq
  live p hp := by
    have hheld := h.driver.ledger.mem_iff.mpr hp
    simp only [heldBy, List.mem_map, List.mem_filter] at hheld
    obtain ⟨e, ⟨he, hen⟩, hep⟩ := hheld
    have hkey : e.ruleHdl = p.1 := congrArg Prod.fst hep
    obtain ⟨i, hi⟩ := List.mem_iff_getElem?.mp he
    refine ⟨i, ⟨e, hi, hen, hkey⟩, ?_⟩
    rintro j ⟨e', hj, he', heq⟩
    exact heldBy_distinct h.driver.ledger.held_keys hj hi he' hen (heq.trans hkey.symm)
  delRequests := h.driver.delRequests

/-- **The cache agrees with the hardware table** in every run in which no table is deleted
while a slot is enabled, no connection is forgotten whose rule the driver keeps, and no
search starts outside the cache. -/
theorem natConsistent_of_reachable (h : keepingSystem.Reachable a) : NatConsistent a :=
  (natInv_invariant.reachable h).consistent

/-! ## Computed runs -/

def initialApp : NatApp where
  cache := List.replicate 2 {}
  temp := List.replicate maxTempEntries {}
  pubIpAddr := 0
  pubIpAddrPre := 0
  natTableHdl := 0
  curCnt := 0
  algPorts := []
  pwrSaveIfs := List.replicate ipaMaxNumWifiClients 0
  driver := ⟨fun n => n + 1, 0, false, [], []⟩

theorem initial_initialApp : initialApp.Initial where
  cache := ⟨2, rfl⟩
  temp := rfl
  pubIpAddr := rfl
  natTableHdl := rfl
  curCnt := rfl
  pwrSaveIfs := rfl
  table := rfl
  live := rfl
  delRequests := rfl

/-- A TCP connection of the client `privateIp`. -/
def tcpConn (privateIp : UInt32) : NatTableEntry :=
  { privateIp, privatePort := 1, targetIp := 9, targetPort := 80, publicPort := 7, protocol := 6 }

def execAll (a : NatApp) (ops : List Op) : Option NatApp := ops.foldlM Op.exec a

theorem reachable_execAll {S : System NatApp Op} (ops : List Op) (ha : S.Reachable a)
    (hstep : ∀ a op a', op ∈ ops → op.exec a = some a' → S.step a op a')
    (h : execAll a ops = some a') : S.Reachable a' := by
  induction ops generalizing a with
  | nil =>
    cases h
    exact ha
  | cons op ops ih =>
    simp only [execAll, List.foldlM_cons, Option.bind_eq_bind, Option.bind_eq_some_iff] at h
    obtain ⟨a₁, h₁, h⟩ := h
    exact ih (.step ha (hstep a op a₁ List.mem_cons_self h₁))
      (fun a op a' hop => hstep a op a' (List.mem_cons_of_mem _ hop)) h

def pwrSaveCalls : List Op :=
  [.addTable 5, .addEntry (tcpConn 1), .addEntry (tcpConn 2), .updatePwrSaveIf 1,
    .resetPwrSaveIf 1]

theorem natConsistent_of_reachable_pwrSave :
    ∃ a, execAll initialApp pwrSaveCalls = some a ∧
      a.cache.map NatTableEntry.ruleHdl = [5, 3] ∧ a.driver.live.map Prod.fst = [5, 3] ∧
      NatConsistent a := by
  refine ⟨_, rfl, by decide +kernel, by decide +kernel, ?_⟩
  refine natConsistent_of_reachable (reachable_execAll pwrSaveCalls
    (.init initial_initialApp) ?_ rfl)
  intro a op a' hop hexec
  refine ⟨?_, .inl hexec⟩
  simp only [pwrSaveCalls, List.mem_cons, List.not_mem_nil, or_false] at hop
  rcases hop with rfl | rfl | rfl | rfl | rfl <;> trivial

/-- The table is deleted while a connection is enabled. In the next table the handle of
this connection is that of another one. -/
def staleHandleCalls : List Op :=
  [.addTable 5, .addEntry (tcpConn 1), .deleteTable 5, .addTable 6, .addEntry (tcpConn 2),
    .deleteEntry (tcpConn 1)]

/-- A driver that answers every call with `1`. -/
def oneHandleApp : NatApp := { initialApp with driver := ⟨fun _ => 1, 0, false, [], []⟩ }

theorem initial_oneHandleApp : oneHandleApp.Initial :=
  { initial_initialApp with table := rfl, live := rfl, delRequests := rfl }

/-- The run `staleHandleCalls` deletes the rule of the wrong connection. -/
theorem not_natConsistent : ∃ a, natAppSystem.Reachable a ∧ ¬ NatConsistent a := by
  have hrun : (execAll oneHandleApp staleHandleCalls).map (fun a => a.driver.delRequests) =
      some [⟨1, (tcpConn 1).natRule, some (tcpConn 2).natRule⟩] := by decide +kernel
  obtain ⟨a, ha, hreq⟩ := Option.map_eq_some_iff.mp hrun
  refine ⟨a, reachable_execAll staleHandleCalls (.init initial_oneHandleApp)
    (fun _ _ _ _ h => .inl h) ha, fun h => ?_⟩
  have howner := h.delRequests ⟨1, (tcpConn 1).natRule, some (tcpConn 2).natRule⟩ (by simp [hreq])
  exact absurd howner (by decide)

end EtherDevice.Ipacm
