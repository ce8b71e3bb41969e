import Mathlib
import EtherDevice.Ipacm.NatConsistency

/-!
# The slots of the NAT cache

The occupied slots of the cache hold different connections, and `curCnt` counts them
(`SlotsRight`). `CacheEntry` puts a new connection into a free slot, if there is one. It
starts its search at the content of a variable that nothing has set, so it finds the slot
if one is free from there on; and `DeleteEntry` counts down for an empty connection, which
equals every free slot. In the runs that avoid the two everything holds
(`cacheRight_of_reachable`).
-/

namespace EtherDevice.Ipacm

open Lib

namespace NatTableEntry

/-- The connection of a slot: the fields that `ChkForDup` compares. -/
def conn (e : NatTableEntry) : NatTableEntry where
  privateIp := e.privateIp
  targetIp := e.targetIp
  privatePort := e.privatePort
  targetPort := e.targetPort
  protocol := e.protocol

variable {e e' : NatTableEntry}

theorem isFree_conn (e : NatTableEntry) : e.conn.isFree = e.isFree := rfl

theorem sameConn_iff : e.sameConn e' = true ↔ e.conn = e'.conn := by
  simp [sameConn, conn, and_left_comm]

theorem isFree_congr (h : e.conn = e'.conn) : e.isFree = e'.isFree := by
  rw [← isFree_conn e, h, isFree_conn]

theorem isFree_of_sameConn (hfree : e'.isFree = true) :
    e.sameConn e' = true ↔ e.isFree = true := by
  simp_all [isFree, sameConn]

theorem isFree_eq_false_of_valid (h : e.isInvalid = false) : e.isFree = false := by
  simp_all [isInvalid, isFree]

end NatTableEntry

/-! ## The occupied slots -/

def conns (cache : List NatTableEntry) : List NatTableEntry :=
  (cache.filter (!·.isFree)).map NatTableEntry.conn

/-- The occupied slots hold different connections, each with all its fields, and `curCnt`
is their number. -/
structure SlotsRight (cache : List NatTableEntry) (curCnt : Int) : Prop where
  valid : ∀ c ∈ conns cache, c.isInvalid = false
  distinct : (conns cache).Nodup
  count : curCnt = (conns cache).length

section

variable {cache cache' slots slots' : List NatTableEntry} {curCnt curCnt' : Int}
  {e e' rule : NatTableEntry}

theorem conns_append (slots slots' : List NatTableEntry) :
    conns (slots ++ slots') = conns slots ++ conns slots' := by
  simp [conns]

theorem conns_cons (e : NatTableEntry) (slots : List NatTableEntry) :
    conns (e :: slots) = conns [e] ++ conns slots := conns_append [e] slots

theorem conns_free (h : e.isFree = true) : conns [e] = [] := by
  simp [conns, h]

theorem conns_occupied (h : e.isFree = false) : conns [e] = [e.conn] := by
  simp [conns, h]

theorem conns_congr (h : e.conn = e'.conn) : conns [e] = conns [e'] := by
  unfold conns
  rw [List.filter_cons, List.filter_cons, NatTableEntry.isFree_congr h]
  split
  · exact congrArg (· :: []) h
  · rfl

theorem conns_split {cnt : Nat} (hlt : cnt < cache.length) : conns cache =
    conns (cache.take cnt) ++ (conns [cache[cnt]] ++ conns (cache.drop (cnt + 1))) := by
  conv_lhs => rw [← List.take_append_drop cnt cache, List.drop_eq_getElem_cons hlt]
  rw [conns_append, conns_cons]

theorem conns_set {cnt : Nat} (hlt : cnt < cache.length) : conns (cache.set cnt e) =
    conns (cache.take cnt) ++ (conns [e] ++ conns (cache.drop (cnt + 1))) := by
  rw [List.set_eq_take_append_cons_drop, if_pos hlt, conns_append, conns_cons]

theorem mem_conns : e.conn ∈ conns cache ↔
    e.isFree = false ∧ ∃ slot ∈ cache, slot.sameConn e = true := by
  grind [conns, NatTableEntry.sameConn_iff, NatTableEntry.isFree_congr]

structure Clears (cache cache' : List NatTableEntry) (curCnt curCnt' : Int) : Prop where
  sub : (conns cache').Sublist (conns cache)
  count : curCnt' - (conns cache').length = curCnt - (conns cache).length

theorem Clears.refl (cache : List NatTableEntry) (curCnt : Int) :
    Clears cache cache curCnt curCnt := ⟨.refl _, rfl⟩

theorem SlotsRight.clears (h : SlotsRight cache curCnt)
    (hclears : Clears cache cache' curCnt curCnt') : SlotsRight cache' curCnt' where
  valid c hc := h.valid c (hclears.sub.subset hc)
  distinct := h.distinct.sublist hclears.sub
  count := by
    have hcount := h.count
    have hclears := hclears.count
    omega

theorem SlotsRight.fill (h : SlotsRight cache curCnt) {cnt : Nat} (hlt : cnt < cache.length)
    (hfree : cache[cnt].isFree = true) (hvalid : e.isInvalid = false) (hnew : e.conn ∉ conns cache)
    (hcache : cache' = cache.set cnt e) : SlotsRight cache' (curCnt + 1) := by
  have hperm : (conns cache').Perm (e.conn :: conns cache) := by
    rw [hcache, conns_set hlt, conns_split hlt, conns_free hfree, List.nil_append,
      conns_occupied (NatTableEntry.isFree_eq_false_of_valid hvalid)]
    exact List.perm_middle
  constructor
  · intro c hc
    rcases List.mem_cons.mp (hperm.mem_iff.mp hc) with rfl | hc
    · exact hvalid
    · exact h.valid c hc
  · exact hperm.nodup_iff.mpr (List.nodup_cons.mpr ⟨hnew, h.distinct⟩)
  · rw [hperm.length_eq, List.length_cons, h.count]
    rfl

theorem clears_set {cnt : Nat} (hlt : cnt < cache.length) (hfree : cache[cnt].isFree = false) :
    Clears cache (cache.set cnt {}) curCnt (curCnt - 1) := by
  have hold := conns_split hlt
  have hnew := conns_set (e := {}) hlt
  rw [conns_occupied hfree, List.singleton_append] at hold
  rw [conns_free (e := {}) rfl, List.nil_append] at hnew
  constructor
  · simp [hold, hnew]
  · rw [hold, hnew, List.length_append, List.length_append, List.length_cons]
    omega

end

/-! ## Rounds -/

def RoundClears (body : Round → Round) : Prop :=
  ∀ r, ((body r).slot.conn = r.slot.conn ∧ (body r).curCnt = r.curCnt) ∨
    (r.slot.isFree = false ∧ (body r).slot.isFree = true ∧ (body r).curCnt = r.curCnt - 1)

theorem forSlots_clears {body : Round → Round} (hbody : RoundClears body)
    (slots : List NatTableEntry) (d : NatDriver) (curCnt : Int) :
    Clears slots (forSlots body slots d curCnt).1 curCnt (forSlots body slots d curCnt).2.2 := by
  induction slots generalizing d curCnt with
  | nil => exact .refl [] curCnt
  | cons slot slots ih =>
    obtain ⟨hsub, hcount⟩ := ih (body ⟨slot, d, curCnt⟩).driver (body ⟨slot, d, curCnt⟩).curCnt
    rw [forSlots]
    constructor
    · rw [conns_cons, conns_cons slot]
      rcases hbody ⟨slot, d, curCnt⟩ with ⟨hconn, -⟩ | ⟨-, hfree, -⟩
      · rw [conns_congr hconn]
        exact hsub.append_left _
      simp [conns_free, hfree, hsub.trans]
    · rw [conns_cons, conns_cons slot, List.length_append, List.length_append]
      rcases hbody ⟨slot, d, curCnt⟩ with ⟨hconn, hcnt⟩ | ⟨hocc, hfree, hcnt⟩
      · rw [conns_congr hconn]
        dsimp only at hcnt ⊢
        omega
      · rw [conns_free hfree, conns_occupied hocc]
        dsimp only [List.length_nil, List.length_singleton] at hcnt ⊢
        omega

theorem RoundClears.ite {c : Round → Prop} [DecidablePred c] {body : Round → Round}
    (h : ∀ r, c r → ((body r).slot.conn = r.slot.conn ∧ (body r).curCnt = r.curCnt) ∨
      (r.slot.isFree = false ∧ (body r).slot.isFree = true ∧ (body r).curCnt = r.curCnt - 1)) :
    RoundClears fun r => if c r then body r else r := by
  intro r
  by_cases hc : c r
  · simp_all
  · simp [hc]

theorem isFree_eq_false_of_privateIp {e : NatTableEntry} (h : e.privateIp ≠ 0) :
    e.isFree = false := by
  simp [NatTableEntry.isFree, h]

theorem isFree_eq_false_of_targetIp {e : NatTableEntry} (h : e.targetIp ≠ 0) :
    e.isFree = false := by
  simp [NatTableEntry.isFree, h]

section

variable {tblHdl : Nat} {ip : UInt32}

theorem addSlot_clears {r : Round} (hip : r.slot.privateIp ≠ 0) :
    ((addSlot tblHdl r).slot.conn = r.slot.conn ∧ (addSlot tblHdl r).curCnt = r.curCnt) ∨
      (r.slot.isFree = false ∧ (addSlot tblHdl r).slot.isFree = true ∧
        (addSlot tblHdl r).curCnt = r.curCnt - 1) := by
  unfold addSlot
  split
  · exact .inr ⟨isFree_eq_false_of_privateIp hip, rfl, rfl⟩
  · exact .inl ⟨rfl, rfl⟩

theorem delSlot_clears {done : NatTableEntry → NatTableEntry} (hdone : ∀ e, (done e).conn = e.conn)
    (r : Round) : (delSlot tblHdl done r).slot.conn = r.slot.conn ∧
      (delSlot tblHdl done r).curCnt = r.curCnt := by
  unfold delSlot
  split
  · exact ⟨rfl, rfl⟩
  · exact ⟨hdone _, rfl⟩

theorem restoreSlot_clears : RoundClears (restoreSlot tblHdl) :=
  .ite fun _ hip => addSlot_clears hip

theorem resetPwrSaveSlot_clears (hip : ip ≠ 0) : RoundClears (resetPwrSaveSlot tblHdl ip) :=
  .ite fun _ hc => addSlot_clears (hc.1 ▸ hip)

theorem updatePwrSaveSlot_clears : RoundClears (updatePwrSaveSlot tblHdl ip) := by
  apply RoundClears.ite
  intro r _
  left
  apply delSlot_clears
  intro e
  rfl

theorem clntDisconSlot_clears : RoundClears (clntDisconSlot tblHdl ip) := by
  apply RoundClears.ite
  intro r _
  left
  apply delSlot_clears
  intro e
  rfl

theorem staClntDisconSlot_clears (hip : ip ≠ 0) : RoundClears (staClntDisconSlot tblHdl ip) := by
  apply RoundClears.ite
  intro r hc
  have hocc : r.slot.isFree = false := isFree_eq_false_of_targetIp (hc ▸ hip)
  split
  · split
    · exact .inl ⟨rfl, rfl⟩
    · exact .inr ⟨hocc, rfl, rfl⟩
  · exact .inr ⟨hocc, rfl, rfl⟩

end

/-! ## The operations -/

/-- What holds of a cache: its slots are right. -/
def NatApp.SlotsRight (a : NatApp) : Prop := Ipacm.SlotsRight a.cache a.curCnt

variable {a a' : NatApp} {rule : NatTableEntry} {cnt : Int}

theorem slotsRight_initial (h : a.Initial) : a.SlotsRight := by
  obtain ⟨n, hcache⟩ := h.cache
  have hconns : conns a.cache = [] := by
    rw [hcache]
    simp [conns, NatTableEntry.isFree]
  constructor
  · rw [hconns]
    simp
  · rw [hconns]
    exact List.nodup_nil
  · rw [hconns, h.curCnt]
    rfl

def NatTableEntry.fill (e rule : NatTableEntry) (enabled : Bool) (ruleHdl : Nat) : NatTableEntry :=
  { e with
    privateIp := rule.privateIp
    targetIp := rule.targetIp
    targetPort := rule.targetPort
    privatePort := rule.privatePort
    protocol := rule.protocol
    timestamp := 0
    publicPort := rule.publicPort
    dstNat := rule.dstNat
    enabled
    ruleHdl }

theorem fillSlot_eq {cnt : Nat} {enabled : Bool} {ruleHdl : Nat} (hlt : cnt < a.cache.length) :
    a.fillSlot cnt rule enabled ruleHdl = { a with
      cache := a.cache.set cnt (a.cache[cnt].fill rule enabled ruleHdl)
      curCnt := a.curCnt + 1 } := by
  rw [List.set_eq_take_append_cons_drop, if_pos hlt]
  exact congrArg (fun cache => { a with cache, curCnt := a.curCnt + 1 })
    (List.modify_eq_take_cons_drop hlt)

namespace NatApp.SlotsRight

theorem forSlots {body : Round → Round} (h : a.SlotsRight) (hbody : RoundClears body) :
    (a.forSlots body).SlotsRight :=
  h.clears (forSlots_clears hbody a.cache a.driver a.curCnt)

theorem addTable (h : a.SlotsRight) (pubIp : UInt32) : (a.addTable pubIp).2.SlotsRight := by
  unfold NatApp.addTable
  split
  · exact h
  · dsimp only
    split
    · exact NatApp.SlotsRight.forSlots (a := { a with natTableHdl := _, driver := _ }) h
        restoreSlot_clears
    · exact h

theorem deleteTable (h : a.SlotsRight) (pubIp : UInt32) :
    (a.deleteTable pubIp).2.SlotsRight := by
  unfold NatApp.deleteTable
  split
  · exact h
  split
  · exact h
  split
  · exact h
  · exact h

theorem fillSlot (h : a.SlotsRight) {cnt : Nat} {enabled : Bool} {ruleHdl : Nat}
    (hlt : cnt < a.cache.length) (hslot : a.cache[cnt].isFree = true)
    (hvalid : rule.isInvalid = false) (hdup : a.chkForDup rule = false) :
    (a.fillSlot cnt rule enabled ruleHdl).SlotsRight := by
  have hnew : rule.conn ∉ conns a.cache := by
    rw [mem_conns]
    rintro ⟨-, slot, hmem, hsame⟩
    exact absurd (List.any_eq_false.mp hdup slot hmem) (not_not.mpr hsame)
  rw [fillSlot_eq hlt]
  exact Ipacm.SlotsRight.fill h hlt hslot (e := a.cache[cnt].fill rule enabled ruleHdl) hvalid
    hnew rfl

theorem addEntry (h : a.SlotsRight) (rule : NatTableEntry) : (a.addEntry rule).2.SlotsRight := by
  unfold NatApp.addEntry
  split
  · exact h
  split
  · exact h
  split
  · exact h
  rename_i hvalid
  split
  · exact h
  rename_i hdup
  simp only
  split
  · exact h
  rename_i hcnt
  have hlt : a.cache.findIdx NatTableEntry.isFree < a.cache.length :=
    Nat.lt_of_le_of_ne List.findIdx_le_length (Ne.symm hcnt)
  have hslot := List.findIdx_getElem (w := hlt)
  have hvalid : rule.isInvalid = false := by simpa using hvalid
  have hdup : a.chkForDup rule = false := by simpa using hdup
  split
  · exact h.fillSlot hlt hslot hvalid hdup
  · split
    · exact h
    · exact NatApp.SlotsRight.fillSlot (a := { a with driver := _ }) h hlt hslot hvalid hdup

theorem flushTempLoop (h : a.SlotsRight) (ip : UInt32) (isAdd : Bool)
    (es : List NatTableEntry) : (NatApp.flushTempLoop ip isAdd es a).2.SlotsRight := by
  induction es generalizing a with
  | nil => exact h
  | cons e es ih =>
    apply ih
    unfold NatApp.flushTempSlot
    split
    · split
      · have hadd := h.addEntry e
        simp only
        split
        · exact hadd
        · exact hadd
      · exact h
    · exact h

theorem updatePwrSaveIf (h : a.SlotsRight) (ip : UInt32) :
    (a.updatePwrSaveIf ip).2.SlotsRight := by
  unfold NatApp.updatePwrSaveIf
  split
  · exact h
  split
  · exact h
  · exact NatApp.SlotsRight.forSlots (a := { a with pwrSaveIfs := _ }) h updatePwrSaveSlot_clears

theorem resetPwrSaveIf (h : a.SlotsRight) (ip : UInt32) :
    (a.resetPwrSaveIf ip).2.SlotsRight := by
  unfold NatApp.resetPwrSaveIf
  split
  · exact h
  · rename_i hip
    exact NatApp.SlotsRight.forSlots (a := { a with pwrSaveIfs := _ }) h
      (resetPwrSaveSlot_clears hip)

theorem delEntriesOnClntDiscon (h : a.SlotsRight) (ip : UInt32) :
    (a.delEntriesOnClntDiscon ip).2.SlotsRight := by
  unfold NatApp.delEntriesOnClntDiscon
  split
  · exact h
  · exact NatApp.SlotsRight.forSlots (a := { a with pwrSaveIfs := _ }) h clntDisconSlot_clears

theorem delEntriesOnSTAClntDiscon (h : a.SlotsRight) (ip : UInt32) :
    (a.delEntriesOnSTAClntDiscon ip).2.SlotsRight := by
  unfold NatApp.delEntriesOnSTAClntDiscon
  split
  · exact h
  · rename_i hip
    exact h.forSlots (staClntDisconSlot_clears hip)

end NatApp.SlotsRight

/-! ## `DeleteEntry` -/

def DeletesConn (a : NatApp) (rule : NatTableEntry) : Prop :=
  rule.isFree = true → ∀ e ∈ a.cache, e.isFree = false

theorem deleteEntry_cases (a : NatApp) (rule : NatTableEntry) :
    (a.deleteEntry rule = a ∧ ∀ e ∈ a.cache, e.sameConn rule = false) ∨
      ∃ (cnt : Nat) (hlt : cnt < a.cache.length), a.cache[cnt].sameConn rule = true ∧
        (a.deleteEntry rule).cache = a.cache.set cnt {} ∧
        (a.deleteEntry rule).curCnt = a.curCnt - 1 := by
  unfold NatApp.deleteEntry
  grind

theorem deleteEntry_slotsRight_iff (h : a.SlotsRight) :
    (a.deleteEntry rule).SlotsRight ↔ DeletesConn a rule := by
  rcases deleteEntry_cases a rule with ⟨heq, hnone⟩ | ⟨cnt, hlt, hsame, hcache, hcurCnt⟩
  · rw [heq]
    refine iff_of_true h fun hfree e he => ?_
    grind [NatTableEntry.isFree_of_sameConn]
  · cases hslot : a.cache[cnt].isFree with
    | false =>
      refine iff_of_true ?_ fun hfree => ?_
      · unfold NatApp.SlotsRight
        rw [hcache, hcurCnt]
        exact SlotsRight.clears h (clears_set hlt hslot)
      simp_all [NatTableEntry.isFree_of_sameConn]
    | true =>
      refine iff_of_false (fun hright => ?_) fun hdeletes => ?_
      · -- a free slot is emptied, and `curCnt` is one too low
        have hset : conns (a.cache.set cnt {}) = conns a.cache := by
          rw [conns_set hlt, conns_split hlt, conns_free hslot, conns_free (e := {}) rfl]
        have hcount := hright.count
        rw [hcache, hcurCnt, hset] at hcount
        have hold := h.count
        omega
      · have hrule : rule.isFree = true := by
          rw [← hslot]
          exact (NatTableEntry.isFree_congr (NatTableEntry.sameConn_iff.mp hsame)).symm
        rw [hdeletes hrule _ (List.getElem_mem hlt)] at hslot
        cases hslot

/-! ## `CacheEntry` -/

/-- The new connection is in one slot, which was free, and is not enabled. -/
def Stored (a : NatApp) (rule : NatTableEntry) (a' : NatApp) : Prop :=
  ∃ (cnt : Nat) (hlt : cnt < a.cache.length) (e : NatTableEntry),
    a.cache[cnt].isFree = true ∧ e.natRule = rule.natRule ∧ e.dstNat = rule.dstNat ∧
      e.enabled = false ∧ e.ruleHdl = 0 ∧ e.timestamp = 0 ∧
      a' = { a with cache := a.cache.set cnt e, curCnt := a.curCnt + 1 }

/-- What `CacheEntry` owes: a valid new connection is stored if some slot is free, and else
nothing changes. -/
def StoresRight (a : NatApp) (rule : NatTableEntry) (a' : NatApp) : Prop :=
  if rule.isInvalid = false ∧ a.chkForDup rule = false ∧ ∃ e ∈ a.cache, e.isFree = true then
    Stored a rule a'
  else a' = a

/-- The content of `cnt` with which the search is right: it starts in the cache, and does not
start behind the free slots. -/
def FindsFree (a : NatApp) (rule : NatTableEntry) (cnt : Int) : Prop :=
  rule.isInvalid = false → a.chkForDup rule = false →
    0 ≤ cnt ∧ cnt ≤ a.maxEntries ∧
      ((∃ e ∈ a.cache, e.isFree = true) → ∃ e ∈ a.cache.drop cnt.toNat, e.isFree = true)

theorem fillSlot_stored {n : Nat} (hlt : n < a.cache.length) (hslot : a.cache[n].isFree = true) :
    Stored a rule (a.fillSlot n rule false 0) :=
  ⟨n, hlt, a.cache[n].fill rule false 0, hslot, rfl, rfl, rfl, rfl, rfl, fillSlot_eq hlt⟩

theorem search_cases {n : Nat} (hn : n ≤ a.cache.length) :
    (n + (a.cache.drop n).findIdx NatTableEntry.isFree = a.maxEntries ∧
      ∀ e ∈ a.cache.drop n, e.isFree = false) ∨
    ∃ hlt : n + (a.cache.drop n).findIdx NatTableEntry.isFree < a.cache.length,
      a.cache[n + (a.cache.drop n).findIdx NatTableEntry.isFree].isFree = true := by
  have hlen : (a.cache.drop n).length = a.cache.length - n := List.length_drop
  by_cases hfound : (a.cache.drop n).findIdx NatTableEntry.isFree < (a.cache.drop n).length
  · right
    refine ⟨by omega, ?_⟩
    have hslot := List.findIdx_getElem (w := hfound)
    rwa [List.getElem_drop] at hslot
  grind [NatApp.maxEntries]

theorem Stored.ne (h : Stored a rule a') : a' ≠ a := by
  obtain ⟨_, _, _, _, _, _, _, _, _, rfl⟩ := h
  intro heq
  have hcurCnt : a.curCnt + 1 = a.curCnt := congrArg NatApp.curCnt heq
  omega

theorem cacheEntry_right_iff (h : a.SlotsRight) :
    (∃ a', a.cacheEntry rule cnt = some a' ∧ a'.SlotsRight ∧ StoresRight a rule a') ↔
      FindsFree a rule cnt := by
  unfold NatApp.cacheEntry
  by_cases hinvalid : rule.isInvalid = true
  · have hright : StoresRight a rule a := by
      unfold StoresRight
      simp [hinvalid]
    refine iff_of_true ⟨a, by rw [if_pos hinvalid], h, hright⟩ fun hvalid => ?_
    simp_all
  rw [if_neg hinvalid]
  by_cases hdup : a.chkForDup rule = true
  · have hright : StoresRight a rule a := by
      unfold StoresRight
      simp [hdup]
    refine iff_of_true ⟨a, by rw [if_pos hdup], h, hright⟩ fun _ hnew => ?_
    rw [hnew] at hdup
    cases hdup
  rw [if_neg hdup]
  rw [Bool.not_eq_true] at hinvalid hdup
  by_cases hrange : cnt < 0 ∨ a.maxEntries < cnt
  · rw [if_pos hrange]
    refine iff_of_false (fun hsome => ?_) fun hfinds => ?_
    · simp_all
    · obtain ⟨hlo, hhi, -⟩ := hfinds hinvalid hdup
      omega
  rw [if_neg hrange]
  have hn : cnt.toNat ≤ a.cache.length := by
    unfold NatApp.maxEntries at hrange
    omega
  have hfinds : FindsFree a rule cnt ↔ ((∃ e ∈ a.cache, e.isFree = true) →
      ∃ e ∈ a.cache.drop cnt.toNat, e.isFree = true) := by
    simp_all [FindsFree]
  rw [hfinds]
  rcases search_cases hn with ⟨hend, hnone⟩ | ⟨hlt, hslot⟩
  · simp only [if_pos hend.symm, Option.some.injEq, exists_eq_left']
    unfold StoresRight
    simp only [hinvalid, hdup, true_and]
    by_cases hfree : ∃ e ∈ a.cache, e.isFree = true
    · rw [if_pos hfree]
      refine iff_of_false (fun hstored => hstored.2.ne rfl) fun hfind => ?_
      obtain ⟨e, he, hslot⟩ := hfind hfree
      simp_all
    simp [hfree, h]
  · have hmax : ¬ a.maxEntries = cnt.toNat +
        (a.cache.drop cnt.toNat).findIdx NatTableEntry.isFree := by
      unfold NatApp.maxEntries
      omega
    simp only [if_neg hmax, Option.some.injEq, exists_eq_left']
    refine iff_of_true ⟨h.fillSlot hlt hslot hinvalid hdup, ?_⟩ fun _ => ?_
    · have hfree : ∃ e ∈ a.cache, e.isFree = true := ⟨_, List.getElem_mem hlt, hslot⟩
      simp [StoresRight, fillSlot_stored, hinvalid, hdup, hfree, hlt, hslot]
    · have hmem := List.mem_drop_iff_getElem.mpr ⟨_, lt_of_eq_of_lt (Nat.add_comm _ _) hlt, rfl⟩
      exact ⟨_, hmem, hslot⟩

/-! ## Runs -/

def Op.StoresSafely (a : NatApp) : Op → Prop
  | .deleteEntry rule => DeletesConn a rule
  | .cacheEntry rule cnt => FindsFree a rule cnt
  | _ => True

/-- What a call owes: right slots, and of `CacheEntry` what it stores. -/
def Op.Stores (a : NatApp) (op : Op) : Prop :=
  ∃ a', op.exec a = some a' ∧ a'.SlotsRight ∧
    match op with
    | .cacheEntry rule _ => StoresRight a rule a'
    | _ => True

theorem stores_iff (h : a.SlotsRight) (op : Op) : op.Stores a ↔ op.StoresSafely a := by
  unfold Op.Stores
  cases op with
  | deleteEntry rule =>
    simp only [Op.exec, Option.some.injEq, exists_eq_left', and_true]
    exact deleteEntry_slotsRight_iff h
  | cacheEntry rule cnt => exact cacheEntry_right_iff h
  | addTable pubIp => exact iff_of_true ⟨_, rfl, h.addTable pubIp, trivial⟩ trivial
  | deleteTable pubIp => exact iff_of_true ⟨_, rfl, h.deleteTable pubIp, trivial⟩ trivial
  | addEntry rule => exact iff_of_true ⟨_, rfl, h.addEntry rule, trivial⟩ trivial
  | updatePwrSaveIf ip => exact iff_of_true ⟨_, rfl, h.updatePwrSaveIf ip, trivial⟩ trivial
  | resetPwrSaveIf ip => exact iff_of_true ⟨_, rfl, h.resetPwrSaveIf ip, trivial⟩ trivial
  | addTempEntry newEntry => exact iff_of_true ⟨_, rfl, h, trivial⟩ trivial
  | deleteTempEntry entry => exact iff_of_true ⟨_, rfl, h, trivial⟩ trivial
  | flushTempEntries ip isAdd =>
    exact iff_of_true ⟨_, rfl, h.flushTempLoop ip isAdd a.temp, trivial⟩ trivial
  | delEntriesOnClntDiscon ip =>
    exact iff_of_true ⟨_, rfl, h.delEntriesOnClntDiscon ip, trivial⟩ trivial
  | delEntriesOnSTAClntDiscon ip =>
    exact iff_of_true ⟨_, rfl, h.delEntriesOnSTAClntDiscon ip, trivial⟩ trivial

/-- The runs in which each call meets its condition. -/
def storingSystem : System NatApp Op := natAppSystem.restrict fun a op => op.StoresSafely a

theorem slotsRight_invariant : storingSystem.Invariant NatApp.SlotsRight where
  init _ h := slotsRight_initial h
  step a op a' h hstep := by
    obtain ⟨hop, hexec⟩ := hstep
    obtain ⟨a₁, hrun, hright, -⟩ := (stores_iff h op).mpr hop
    change op.exec a = some a' ∨ op.exec a = none at hexec
    simp_all

/-- **The slots of the cache.** In every run in which the searches start right and no empty
connection is deleted, the occupied slots hold different connections and `curCnt` is their
number; and there a call keeps this, and `CacheEntry` stores without loss, exactly if it
meets its condition. -/
theorem cacheRight_of_reachable (h : storingSystem.Reachable a) :
    a.SlotsRight ∧ ∀ op : Op, op.Stores a ↔ op.StoresSafely a :=
  ⟨slotsRight_invariant.reachable h, stores_iff (slotsRight_invariant.reachable h)⟩

/-! ## Computed runs -/

def cacheCalls : List Op :=
  [.cacheEntry (tcpConn 1) 0, .cacheEntry (tcpConn 2) 1, .deleteEntry (tcpConn 1)]

theorem cacheRight_of_reachable_cacheCalls :
    ∃ a, execAll initialApp cacheCalls = some a ∧ a.curCnt = 1 ∧ a.SlotsRight ∧
      ∀ op : Op, op.Stores a ↔ op.StoresSafely a := by
  refine ⟨_, rfl, rfl, cacheRight_of_reachable ?_⟩
  have hstep : ∀ (o : Op) {a a' : NatApp}, storingSystem.Reachable a → o.StoresSafely a →
      o.exec a = some a' → storingSystem.Reachable a' :=
    fun _ _ _ ha hop hrun => .step ha ⟨hop, .inl hrun⟩
  have hfirst := hstep (.cacheEntry (tcpConn 1) 0) (.init initial_initialApp)
    (fun _ _ => by decide +kernel) rfl
  have hsecond := hstep (.cacheEntry (tcpConn 2) 1) hfirst (fun _ _ => by decide +kernel) rfl
  exact hstep (.deleteEntry (tcpConn 1)) hsecond (fun hfree => by cases hfree) rfl

/-- The search of the first `CacheEntry` starts behind all the free slots. -/
theorem not_cacheRight : ∃ a, natAppSystem.Reachable a ∧
    ¬ (Op.cacheEntry (tcpConn 1) 2).Stores a := by
  refine ⟨initialApp, .init initial_initialApp, ?_⟩
  rintro ⟨a', hrun, -, hstores⟩
  have hsame : (Op.cacheEntry (tcpConn 1) 2).exec initialApp = some initialApp := by rfl
  obtain rfl := Option.some.inj (hsame.symm.trans hrun)
  exact hstores.ne rfl

/-- An empty connection is deleted from an empty cache. -/
example : (initialApp.deleteEntry {}).curCnt = -1 := by rfl

end EtherDevice.Ipacm
