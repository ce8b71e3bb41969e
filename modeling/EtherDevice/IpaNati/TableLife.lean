import Mathlib
import EtherDevice.IpaNati.TableCache

/-!
# The table count and failed calls

`table_cnt` counts the valid slots, every array index is in range, and an add leaves a usable
table or the old cache, in every run in which each add either fails before it changes anything
or finds a free slot and meets no failure after that (`kept_of_reachable`). Each other add
breaks one of these: the slot is marked valid before the stages that can fail, and a failed
`malloc` is answered with success.

The one slot of the cache decides both the count and what is mapped (`SlotInv`), so a call is
followed from the two states that the slot can have.
-/

namespace EtherDevice.IpaNati.TableCache

open Lib Driver

/-! ## The dimensions of a table -/

def dims (numberOfEntries : UInt16) : Nat × Nat :=
  match allocTable numberOfEntries.toNat with
  | .ok d => d
  | .error _ => (0, 0)

def tableBytes (numberOfEntries : UInt16) : Nat :=
  memSize (dims numberOfEntries).1 (dims numberOfEntries).2

theorem getNearest2PowerLoop_eq (number fuel : Nat) {num : Nat} (i : Nat) {j : Nat}
    (hlo : 2 ^ j ≤ num) (hhi : num < 2 ^ (j + 1)) (hfuel : j < fuel) (hij : i + j < 16) :
    getNearest2PowerLoop number fuel num (2 ^ i) =
      if number ≠ 2 ^ (i + j) then 2 ^ (i + j + 1) % 2 ^ 16 else 2 ^ (i + j) := by
  induction fuel generalizing num i j with
  | zero => omega
  | succ fuel ih =>
    unfold getNearest2PowerLoop
    cases j with
    | zero =>
      have hnum : num = 1 := by omega
      rw [if_pos hnum, Nat.add_zero, Nat.pow_succ 2 i]
    | succ j =>
      have hne : num ≠ 1 := by
        omega
      have hhalf : 2 ^ i * 2 % 2 ^ 16 = 2 ^ (i + 1) := by
        rw [← Nat.pow_succ]
        exact Nat.mod_eq_of_lt (Nat.pow_lt_pow_right (by decide) (by omega))
      rw [if_neg hne, hhalf, ih (i + 1) (j := j) (by omega)
        (by omega) (by omega) (by omega)]
      rw [show i + 1 + j = i + (j + 1) by omega]

theorem getNearest2Power_eq (num : Nat) (hpos : 0 < num) (hlt : num < 2 ^ 16) :
    ∃ N, getNearest2Power num = .ok N ∧
      (num ≤ 2 ^ 15 → ∃ k, N = 2 ^ k) ∧ (2 ^ 15 < num → N = 0) := by
  unfold getNearest2Power
  by_cases hone : num = 1
  · subst hone
    exact ⟨2, rfl, fun _ => ⟨1, rfl⟩, by decide⟩
  have hlo : 2 ^ num.log2 ≤ num := Nat.log2_self_le (by omega)
  have hhi : num < 2 ^ (num.log2 + 1) := Nat.lt_log2_self
  have hlog : num.log2 < 16 := (Nat.log2_lt (by omega)).mpr hlt
  have hloop := getNearest2PowerLoop_eq num 16 0 hlo hhi hlog
    (by omega)
  rw [if_neg (by omega), if_neg hone]
  refine ⟨_, rfl, fun hle => ?_, fun hgt => ?_⟩
  · grind
  · have h15 : num.log2 = 15 := by
      have : 15 ≤ num.log2 := by
        by_contra hsmall
        have : 2 ^ (num.log2 + 1) ≤ 2 ^ 15 := Nat.pow_le_pow_right (by decide) (by omega)
        omega
      omega
    rw [Nat.pow_zero, h15, if_pos (by omega)] at hloop
    refine hloop.trans ?_
    omega

theorem dims_spec (n : UInt16) :
    allocTable n.toNat = .ok (dims n) ∧
      (n.toNat * 8 / 10 ≤ 2 ^ 15 → ∃ k, (dims n).1 = 2 ^ k) ∧
      (2 ^ 15 < n.toNat * 8 / 10 → (dims n).1 = 0) ∧
      2 ≤ (dims n).2 ∧ (dims n).2 ≤ 13108 := by
  have hn : n.toNat < 2 ^ 16 := n.toNat_lt
  have hE : 2 ≤ getNearestEven (n.toNat * 2 / 10) ∧
      getNearestEven (n.toNat * 2 / 10) ≤ 13108 := getNearestEven_range (by omega)
  obtain ⟨N, hN, hsmall, hlarge⟩ := getNearest2Power_eq
    (if n.toNat * 8 / 10 = 0 then 1 else n.toNat * 8 / 10)
    (by split <;> omega) (by split <;> omega)
  have halloc : allocTable n.toNat = .ok (N, getNearestEven (n.toNat * 2 / 10)) := by
    simp only [allocTable, hN]
    rfl
  have hdims : dims n = (N, getNearestEven (n.toNat * 2 / 10)) := by
    unfold dims
    rw [halloc]
  rw [hdims]
  refine ⟨halloc, fun h => hsmall ?_, fun h => hlarge ?_, hE⟩
  · split <;> omega
  · rw [if_neg (by omega)]
    exact h

theorem dims_base_le (n : UInt16) : (dims n).1 ≤ 2 ^ 15 := by
  obtain ⟨halloc, hsmall, hlarge, -⟩ := dims_spec n
  by_cases h : n.toNat * 8 / 10 ≤ 2 ^ 15
  · obtain ⟨hdims⟩ := dims_of_allocTable n.toNat_lt halloc (hsmall h)
    assumption
  · omega

theorem tableBytes_eq (n : UInt16) :
    tableBytes n =
      (tableEntrySize + indexTableEntrySize) * ((dims n).1 + (dims n).2) := by
  grind [dims_base_le, dims_spec, dims, tableBytes, memSize]

theorem le_pageRound (size : Nat) : size ≤ pageRound size := by
  unfold pageRound pageSize
  omega

theorem pageRound_behind {size : Nat} (hfour : 4 ∣ size) :
    size + 4 ≤ pageRound size ↔ ¬ pageSize ∣ size := by
  unfold pageRound pageSize
  omega

/-! ## Runs of checks -/

theorem check_run {a : Access} (h : a.index < a.bound) (s : State) :
    (check a).run s = (s, .ok ()) := by
  unfold check
  rw [if_pos h]
  rfl

theorem check_outOfRange {a : Access} (h : ¬ a.index < a.bound) (s : State) :
    (check a).run s = (s, .error (.outOfRange a)) := by
  unfold check
  rw [if_neg h]
  rfl

theorem checkAll_run {l : List Access} (h : ∀ a ∈ l, a.index < a.bound) (s : State) :
    (checkAll l).run s = (s, .ok ()) := by
  induction l with
  | nil => rfl
  | cons a l ih =>
    unfold checkAll
    rw [Driver.bind_ok (check_run (h a List.mem_cons_self) s)]
    exact ih fun b hb => h b (List.mem_cons_of_mem a hb)

theorem checkAll_outOfRange {l : List Access} {a : Access} (ha : a ∈ l)
    (hout : ¬ a.index < a.bound) (s : State) :
    ∃ b, (checkAll l).run s = (s, .error (.outOfRange b)) := by
  induction l with
  | nil => cases ha
  | cons b l ih =>
    unfold checkAll
    by_cases hb : b.index < b.bound
    · rw [Driver.bind_ok (check_run hb s)]
      rcases List.mem_cons.mp ha with rfl | hl
      · exact absurd hb hout
      · exact ih hl
    · exact ⟨b, Driver.bind_error (check_outOfRange hb s)⟩

/-! ## The condition -/

def AllocFails (s : State) (ans : AddAnswers) : Prop :=
  s.cache.ipaFd = 0 ∧ ans.openIpa < 0 ∨
    ans.allocNatMem ≠ 0 ∧ (s.cache.ipaFd ≠ 0 ∨ ans.openIpa = 0)

def Allocates (s : State) (ans : AddAnswers) : Prop :=
  (s.cache.ipaFd ≠ 0 ∨ 0 ≤ ans.openIpa) ∧ ans.allocNatMem = 0

def Works (ans : AddAnswers) : Prop :=
  ans.mallocMeta ≠ 0 ∧ ans.mallocRuleIds ≠ 0 ∧ 0 ≤ ans.openNat ∧
    (ans.mmap ≠ 0 ∧ ans.mmap ≠ mapFailed) ∧ ans.initNat = 0

/-- The base table has a size of 16 bits, and the last page of the table memory has an index
entry behind the table, whose rule number is `0`. -/
def Sized (ans : AddAnswers) (numberOfEntries : UInt16) : Prop :=
  numberOfEntries.toNat * 8 / 10 ≤ 2 ^ 15 ∧ ¬ pageSize ∣ tableBytes numberOfEntries ∧
    read16 ans.memory (tableBytes numberOfEntries) = 0

/-- An add fails in its allocation, or it finds a free slot and nothing fails after that. A
delete gets a handle whose slot exists. -/
def Ok (s : State) : Call → Prop
  | .add ans _ numberOfEntries =>
    AllocFails s ans ∨
      Allocates s ans ∧ s.cache.tableCnt < maxIp4Tbls ∧ Works ans ∧ Sized ans numberOfEntries
  | .del _ tblHdl => (tblHdl - 1).toUInt8.toNat < maxIp4Tbls

instance (s : State) (ans : AddAnswers) : Decidable (AllocFails s ans) :=
  inferInstanceAs (Decidable (_ ∨ _))

instance (s : State) (ans : AddAnswers) : Decidable (Allocates s ans) :=
  inferInstanceAs (Decidable (_ ∧ _))

instance (ans : AddAnswers) : Decidable (Works ans) := inferInstanceAs (Decidable (_ ∧ _))

instance (ans : AddAnswers) (n : UInt16) : Decidable (Sized ans n) :=
  inferInstanceAs (Decidable (_ ∧ _))

instance (s : State) : (call : Call) → Decidable (Ok s call)
  | .add _ _ _ => inferInstanceAs (Decidable (_ ∨ _))
  | .del _ _ => inferInstanceAs (Decidable (_ < _))

/-! ## The slot -/

/-- No table: nothing of an earlier one is left. -/
structure Empty (s : State) : Prop where
  tbl : s.cache.ip4Tbl = #v[{}]
  tableCnt : s.cache.tableCnt = 0
  maps : s.maps = []

/-- One table. A delete that fails may have unmapped it already. -/
structure Filled (s : State) : Prop where
  valid : (s.tbl 0).valid = true
  tableCnt : s.cache.tableCnt = 1
  maps : s.maps = [] ∨ s.maps = [((s.tbl 0).ipv4RulesAddr, pageRound (s.tbl 0).size)]

def SlotInv (s : State) : Prop := Empty s ∨ Filled s

theorem validCount_eq (c : Cache) :
    c.validCount = if (c.ip4Tbl[0]).valid then 1 else 0 := by
  obtain ⟨⟨⟨l⟩, hl⟩, fd, cnt⟩ := c
  obtain ⟨t, rfl⟩ := List.length_eq_one_iff.mp hl
  change List.countP (·.valid) [t] = if t.valid then 1 else 0
  rw [List.countP_singleton]

theorem Empty.counted {s : State} (hs : Empty s) : Counted s.cache where
  count := by
    rw [validCount_eq, hs.tableCnt]
    simp [hs.tbl]
  le := by
    rw [hs.tableCnt]
    omega

theorem Filled.counted {s : State} (hs : Filled s) : Counted s.cache where
  count := by
    rw [validCount_eq, hs.tableCnt]
    exact (if_pos hs.valid).symm
  le := by rw [hs.tableCnt]

theorem SlotInv.counted {s : State} (hs : SlotInv s) : Counted s.cache :=
  hs.elim Empty.counted Filled.counted

/-! ## The allocation -/

section Add

variable {s : State} {ans : AddAnswers} {ip : UInt32} {n : UInt16}

def opened (s : State) (ans : AddAnswers) : State :=
  if s.cache.ipaFd = 0 then s.setIpaFd ans.openIpa else s

def natAllocMem (ans : AddAnswers) (n : UInt16) : NatAllocMem :=
  ⟨tableBytes n, ans.offset, (dims n).1, (dims n).2⟩

theorem setIpaFd_self (h : s.cache.ipaFd = 0) : s.setIpaFd 0 = s := by
  obtain ⟨⟨tbl, fd, cnt⟩, maps, blocks, posted, dm, hm⟩ := s
  cases h
  rfl

theorem alloc_failing (h : AllocFails s ans) :
    ∃ e, (ipaNatiAllocTable ans n).run s = (s, .error (.returned e)) := by
  unfold ipaNatiAllocTable createNatDevice
  rw [(dims_spec n).1]
  by_cases hfd : s.cache.ipaFd = 0
  · by_cases hopen : ans.openIpa < 0
    · exact ⟨.eio, by simp [hfd, hopen]⟩
    simp_all [AllocFails, setIpaFd_self]
  · obtain ⟨hne, -⟩ : ans.allocNatMem ≠ 0 ∧ _ := (h.resolve_left fun h' => hfd h'.1)
    exact ⟨.einval, by simp [hfd, hne]⟩

theorem alloc_run (h : Allocates s ans) :
    (ipaNatiAllocTable ans n).run s = (opened s ans, .ok (natAllocMem ans n)) := by
  unfold ipaNatiAllocTable createNatDevice opened
  rw [(dims_spec n).1]
  obtain ⟨hopen, halloc⟩ := h
  by_cases hfd : s.cache.ipaFd = 0
  · have hnot : ¬ ans.openIpa < 0 := by omega
    simp [hfd, hnot, halloc, natAllocMem, tableBytes]
  · simp [hfd, halloc, natAllocMem, tableBytes]

theorem alloc_changed (h : ¬ AllocFails s ans) (h' : ¬ Allocates s ans) :
    ∃ e, (ipaNatiAllocTable ans n).run s = (s.setIpaFd ans.openIpa, .error (.returned e)) ∧
      s.cache.ipaFd = 0 ∧ ans.openIpa ≠ 0 := by
  unfold AllocFails at h
  unfold Allocates at h'
  have hfd : s.cache.ipaFd = 0 := by omega
  have hnot : ¬ ans.openIpa < 0 := by omega
  have hne : ans.allocNatMem ≠ 0 := by omega
  refine ⟨.einval, ?_, hfd, by omega⟩
  unfold ipaNatiAllocTable createNatDevice
  rw [(dims_spec n).1]
  simp [hfd, hnot, hne]

theorem Empty.opened (hs : Empty s) (ans : AddAnswers) : Empty (opened s ans) := by
  unfold TableCache.opened
  split
  · exact ⟨hs.tbl, hs.tableCnt, hs.maps⟩
  · exact hs

/-! ## The cache update -/

def newTbl (ans : AddAnswers) (ip : UInt32) (n : UInt16) : Ip4Tbl :=
  { ((({} : Ip4Tbl).claimed (natAllocMem ans n) ip).mapped (natAllocMem ans n) ans.mmap) with
    indexExpnTableMeta := ans.mallocMeta
    ruleIdArray := ans.mallocRuleIds
    tableName := natDevFullName
    natFd := ans.openNat }

structure Added (s : State) (ans : AddAnswers) (ip : UInt32) (n : UInt16) (s' : State) :
    Prop where
  tbl : s'.tbl 0 = newTbl ans ip n
  tableCnt : s'.cache.tableCnt = 0
  maps : s'.maps = [(ans.mmap, pageRound (tableBytes n))]
  blocks : s'.blocks = (ans.mallocRuleIds, 2 * ((dims n).1 + (dims n).2)) ::
    (ans.mallocMeta, 2 * (dims n).2) :: s.blocks
  deviceMem : ∀ i < pageRound (tableBytes n), s'.deviceMem (ans.mmap + i) = ans.memory i
  heapMem : s'.heapMem = zeroed (zeroed s.heapMem ans.mallocMeta (2 * (dims n).2))
    ans.mallocRuleIds (2 * ((dims n).1 + (dims n).2))

def marked (s : State) (i : Fin maxIp4Tbls) (ans : AddAnswers) (ip : UInt32) (n : UInt16) : State :=
  s.setTbl i ((s.tbl i).claimed (natAllocMem ans n) ip)

@[simp] theorem tbl_setTbl (s : State) (i : Fin maxIp4Tbls) (t : Ip4Tbl) :
    (s.setTbl i t).tbl i = t := by
  simp [State.setTbl, State.tbl]

@[simp] theorem tbl_allocated (s : State) (addr bytes : Nat) (i : Fin maxIp4Tbls) :
    (s.allocated addr bytes).tbl i = s.tbl i := rfl

@[simp] theorem tbl_mmapped (s : State) (ans : AddAnswers) (size : Nat) (i : Fin maxIp4Tbls) :
    (s.mmapped ans size).tbl i = s.tbl i := by
  unfold State.mmapped
  split <;> rfl

theorem tblAt_zero (s : State) : (tblAt 0).run s = (s, .ok 0) := rfl

theorem tblAt_outOfRange {index : Nat} (h : ¬ index < maxIp4Tbls) (s : State) :
    (tblAt index).run s = (s, .error (.outOfRange ⟨.ip4Tbl, index, maxIp4Tbls⟩)) := by
  unfold tblAt
  rw [dif_neg h]
  rfl

theorem Empty.tbl_zero (hs : Empty s) : s.tbl 0 = {} := by
  unfold State.tbl
  rw [hs.tbl]
  rfl

theorem allocArray_run {field : Ip4Tbl → Nat} {store : Ip4Tbl → Nat → Ip4Tbl}
    {answer bytes : Nat} {i : Fin maxIp4Tbls} (hnull : field (s.tbl i) = 0)
    (h : answer ≠ 0) :
    (allocArray field store answer bytes i).run s =
      ((s.setTbl i (store (s.tbl i) answer)).allocated answer bytes, .ok true) := by
  unfold allocArray
  simp [hnull, h]

theorem allocArray_null {field : Ip4Tbl → Nat} {store : Ip4Tbl → Nat → Ip4Tbl}
    {bytes : Nat} {i : Fin maxIp4Tbls} (hnull : field (s.tbl i) = 0) :
    (allocArray field store 0 bytes i).run s = (s, .ok false) := by
  unfold allocArray
  simp [hnull]

def onDevice (s : State) (i : Fin maxIp4Tbls) (ans : AddAnswers) (size : Nat) : State :=
  (s.setTbl i { s.tbl i with tableName := natDevFullName, natFd := ans.openNat }).mmapped ans
    size

@[simp] theorem tbl_onDevice (s : State) (ans : AddAnswers) (size : Nat) :
    (onDevice s 0 ans size).tbl 0 =
      { s.tbl 0 with tableName := natDevFullName, natFd := ans.openNat } := by
  unfold onDevice
  rw [tbl_mmapped, tbl_setTbl]

theorem mapTable_run {mem : NatAllocMem} (hopen : 0 ≤ ans.openNat) (hnull : ans.mmap ≠ 0) :
    (mapTable ans mem 0).run s =
      ((onDevice s 0 ans mem.size).setTbl 0
        (((onDevice s 0 ans mem.size).tbl 0).mapped mem ans.mmap), .ok ()) := by
  unfold mapTable
  have hnot : ¬ ans.openNat < 0 := by omega
  rw [if_neg hnot, Driver.run_modify_bind, Driver.run_modify_bind, if_neg hnull]
  rfl

theorem mapTable_failing {s : State} (mem : NatAllocMem) (h : ans.openNat < 0 ∨ ans.mmap = 0)
    (hvalid : (s.tbl 0).valid = true) :
    ∃ s' e, (mapTable ans mem 0).run s = (s', .error (.returned e)) ∧
      (s'.tbl 0).valid = true := by
  unfold mapTable
  by_cases hopen : ans.openNat < 0
  · exact ⟨s, .eio, by simp [hopen], hvalid⟩
  simp_all [if_neg]

theorem updateCache_marked (hs : Empty s) :
    (updateCache ans (natAllocMem ans n) ip).run s =
      (do
        if ← allocIndexExpnTableMeta ans.mallocMeta (dims n).2 0 then
          if ← allocRuleIdArray ans.mallocRuleIds (dims n).1 (dims n).2 0 then
            mapTable ans (natAllocMem ans n) 0 : Driver Unit).run (marked s 0 ans ip n) := by
  unfold updateCache
  rw [Driver.run_get_bind, hs.tableCnt, Driver.bind_ok (tblAt_zero s), Driver.run_modify_bind]
  rfl

def arrays (s : State) (i : Fin maxIp4Tbls) (ans : AddAnswers) (ip : UInt32) (n : UInt16) :
    State :=
  let s := marked s i ans ip n
  let s := (s.setTbl i { s.tbl i with indexExpnTableMeta := ans.mallocMeta }).allocated
    ans.mallocMeta (2 * (dims n).2)
  (s.setTbl i { s.tbl i with ruleIdArray := ans.mallocRuleIds }).allocated
    ans.mallocRuleIds (2 * ((dims n).1 + (dims n).2))

theorem updateCache_arrays (ip : UInt32) (n : UInt16) (hs : Empty s) (hmeta : ans.mallocMeta ≠ 0)
    (hids : ans.mallocRuleIds ≠ 0) :
    (updateCache ans (natAllocMem ans n) ip).run s =
      (mapTable ans (natAllocMem ans n) 0).run (arrays s 0 ans ip n) := by
  have hfree := hs.tbl_zero
  rw [updateCache_marked hs]
  unfold allocIndexExpnTableMeta allocRuleIdArray
  rw [Driver.bind_ok (allocArray_run (by simp [marked, Ip4Tbl.claimed, hfree]) hmeta), if_pos rfl,
    Driver.bind_ok (allocArray_run (by simp [marked, Ip4Tbl.claimed, hfree]) hids), if_pos rfl]
  rfl

theorem updateCache_run (ip : UInt32) (n : UInt16) (hs : Empty s) (hmeta : ans.mallocMeta ≠ 0)
    (hids : ans.mallocRuleIds ≠ 0) (hopen : 0 ≤ ans.openNat) (hnull : ans.mmap ≠ 0)
    (hmap : ans.mmap ≠ mapFailed) :
    ∃ s', (updateCache ans (natAllocMem ans n) ip).run s = (s', .ok ()) ∧
      Added s ans ip n s' := by
  rw [updateCache_arrays _ _ hs hmeta hids, mapTable_run hopen hnull]
  have hfree := hs.tbl_zero
  have harrays : (arrays s 0 ans ip n).tbl 0 =
      { (({} : Ip4Tbl).claimed (natAllocMem ans n) ip) with
        indexExpnTableMeta := ans.mallocMeta
        ruleIdArray := ans.mallocRuleIds } := by
    simp [arrays, marked, hfree]
  refine ⟨_, rfl, ?_⟩
  constructor
  case tbl => rw [tbl_setTbl, tbl_onDevice, harrays]; rfl
  all_goals
    unfold onDevice State.mmapped
    rw [if_neg hmap]
  case tableCnt => exact hs.tableCnt
  case maps => exact congrArg (_ :: ·) hs.maps
  case blocks => rfl
  case heapMem => rfl
  case deviceMem =>
    intro i hi
    have hin : ans.mmap ≤ ans.mmap + i ∧ ans.mmap + i < ans.mmap + pageRound (tableBytes n) :=
      ⟨by omega, by omega⟩
    exact (if_pos hin).trans (congrArg ans.memory (Nat.add_sub_cancel_left ..))

/-! ## The reset -/

theorem mappedFrom_single {addr bytes off : Nat} (h : s.maps = [(addr, bytes)])
    (hoff : off < bytes) : s.mappedFrom (addr + off) = bytes - off := by
  grind [State.mappedFrom]

theorem mappedFrom_nil (h : s.maps = []) (addr : Nat) : s.mappedFrom addr = 0 := by
  unfold State.mappedFrom
  rw [h]
  rfl

theorem memsetTable_run {arr : Arr} {addr len : Nat} (h : len ≤ s.mappedFrom addr) :
    (memsetTable arr addr len).run s =
      ({ s with deviceMem := zeroed s.deviceMem addr len }, .ok ()) := by
  simp [memsetTable, h]

theorem memsetTable_outOfRange (arr : Arr) {s : State} {addr len : Nat}
    (h : ¬ len ≤ s.mappedFrom addr) :
    ∃ a, (memsetTable arr addr len).run s = (s, .error (.outOfRange a)) := by
  simp [memsetTable, h]

theorem resetTbl_unmapped (hmaps : s.maps = []) (hE : 0 < (s.tbl 0).expnTableEntries) :
    ∃ s' a, (resetTbl 0).run s = (s', .error (.outOfRange a)) := by
  unfold resetTbl
  rw [Driver.bind_ok (tblAt_zero s), Driver.run_get_bind]
  by_cases hN : (s.tbl 0).tableEntries = 0
  · have hfirst : tableEntrySize * (s.tbl 0).tableEntries ≤
        s.mappedFrom (s.tbl 0).ipv4RulesAddr := by simp [hN]
    rw [Driver.bind_ok (memsetTable_run hfirst)]
    have hout : ¬ tableEntrySize * (s.tbl 0).expnTableEntries ≤
        State.mappedFrom { s with
          deviceMem := zeroed s.deviceMem (s.tbl 0).ipv4RulesAddr
            (tableEntrySize * (s.tbl 0).tableEntries) } (s.tbl 0).ipv4ExpnRulesAddr := by
      rw [mappedFrom_nil (by exact hmaps)]
      unfold tableEntrySize
      omega
    obtain ⟨a, ha⟩ := memsetTable_outOfRange .expnRules hout
    exact ⟨_, a, Driver.bind_error ha⟩
  · have hout : ¬ tableEntrySize * (s.tbl 0).tableEntries ≤
        s.mappedFrom (s.tbl 0).ipv4RulesAddr := by
      rw [mappedFrom_nil hmaps]
      unfold tableEntrySize
      omega
    obtain ⟨a, ha⟩ := memsetTable_outOfRange .rules hout
    exact ⟨_, a, Driver.bind_error ha⟩

theorem zeroed_append (mem : Nat → UInt8) (addr len len' : Nat) :
    zeroed (zeroed mem addr len) (addr + len) len' = zeroed mem addr (len + len') := by
  funext a
  unfold zeroed
  split_ifs <;> first | rfl | omega

theorem resetTbl_run {s' : State} (h : Added s ans ip n s') :
    (resetTbl 0).run s' =
      ({ s' with deviceMem := zeroed s'.deviceMem ans.mmap (tableBytes n) }, .ok ()) := by
  have hbytes := tableBytes_eq n
  have hround := le_pageRound (tableBytes n)
  obtain ⟨-, -, -, hE, -⟩ := dims_spec n
  have hmaps := h.maps
  have hmem : zeroed s'.deviceMem ans.mmap (tableBytes n) =
      zeroed (zeroed (zeroed (zeroed s'.deviceMem ans.mmap (tableEntrySize * (dims n).1))
        (ans.mmap + tableEntrySize * (dims n).1) (tableEntrySize * (dims n).2))
        (ans.mmap + tableEntrySize * ((dims n).1 + (dims n).2))
          (indexTableEntrySize * (dims n).1))
        (ans.mmap + tableEntrySize * ((dims n).1 + (dims n).2) +
          indexTableEntrySize * (dims n).1) (indexTableEntrySize * (dims n).2) := by
    rw [zeroed_append, zeroed_append, ← Nat.mul_add, ← Nat.mul_add, zeroed_append,
      ← Nat.add_mul, hbytes]
  unfold tableEntrySize indexTableEntrySize at hbytes hmem
  unfold resetTbl
  rw [Driver.bind_ok (tblAt_zero s'), Driver.run_get_bind, h.tbl, hmem]
  simp only [newTbl, Ip4Tbl.mapped, Ip4Tbl.claimed, natAllocMem, tableEntrySize,
    indexTableEntrySize]
  rw [Driver.bind_ok (memsetTable_run (by
      rw [← Nat.add_zero ans.mmap, mappedFrom_single hmaps (by omega)]
      omega)),
    Driver.bind_ok (memsetTable_run (by
      rw [mappedFrom_single (by exact hmaps) (by omega)]
      omega)),
    Driver.bind_ok (memsetTable_run (by
      rw [mappedFrom_single (by exact hmaps) (by omega)]
      omega)),
    memsetTable_run (by
      rw [Nat.add_assoc ans.mmap, mappedFrom_single (by exact hmaps) (by omega)]
      omega)]

/-! ## The add -/

theorem returning_ok {α : Type} {e : Errno} {x : Driver α} {s' : State} {a : α}
    (h : x.run s = (s', .ok a)) : (returning e x).run s = (s', .ok a) := by
  unfold returning
  simp only [h]

theorem returning_returned {α : Type} {e e' : Errno} {x : Driver α} {s' : State}
    (h : x.run s = (s', .error (.returned e'))) :
    (returning e x).run s = (s', .error (.returned e)) := by
  unfold returning
  simp only [h]

structure Ready (s : State) (ans : AddAnswers) (ip : UInt32) (n : UInt16) (s' : State) :
    Prop where
  tbl : s'.tbl 0 = newTbl ans ip n
  tableCnt : s'.cache.tableCnt = 1
  maps : s'.maps = [(ans.mmap, pageRound (tableBytes n))]
  blocks : s'.blocks = (ans.mallocRuleIds, 2 * ((dims n).1 + (dims n).2)) ::
    (ans.mallocMeta, 2 * (dims n).2) :: s.blocks
  posted : s'.posted 0 = some ((newTbl ans ip n).initCmd 0)
  cleared : ∀ i < tableBytes n, s'.deviceMem (ans.mmap + i) = 0
  behind : ∀ i, tableBytes n ≤ i → i < pageRound (tableBytes n) →
    s'.deviceMem (ans.mmap + i) = ans.memory i
  heapMem : s'.heapMem = zeroed (zeroed s.heapMem ans.mallocMeta (2 * (dims n).2))
    ans.mallocRuleIds (2 * ((dims n).1 + (dims n).2))

def finish : Driver Nat := do
  let s ← get
  dumpIpv4Table s.cache.tableCnt
  return s.cache.tableCnt

theorem add_ready (ip : UInt32) (n : UInt16) (hs : Empty s) (halloc : Allocates s ans)
    (h : Works ans) :
    ∃ s', Ready s ans ip n s' ∧ (addIpv4Tbl ans ip n).run s = finish.run s' := by
  obtain ⟨hmeta, hids, hopen, ⟨hnull, hmap⟩, hinit⟩ := h
  obtain ⟨s₁, hrun₁, hadded⟩ :=
    updateCache_run ip n (hs.opened ans) hmeta hids hopen hnull hmap
  have hrun₂ := resetTbl_run hadded
  have hpost : ∀ t : State, (postIpv4InitCmd ans.initNat 0).run t =
      ({ t with posted := Function.update t.posted 0 (some ((t.tbl 0).initCmd 0)) },
        .ok ()) := by
    intro t
    unfold postIpv4InitCmd
    rw [Driver.bind_ok (tblAt_zero t), if_neg (not_not.mpr hinit)]
    rfl
  unfold addIpv4Tbl
  rw [Driver.run_get_bind, hs.tableCnt, Driver.bind_ok (returning_ok (alloc_run halloc)),
    Driver.bind_ok (returning_ok hrun₁), Driver.bind_ok hrun₂,
    Driver.bind_ok (returning_ok (hpost _)), Driver.run_modify_bind]
  refine ⟨_, ?_, rfl⟩
  exact {
    tbl := hadded.tbl
    tableCnt := by
      change (s₁.cache.tableCnt + 1) % 2 ^ 8 = 1
      have hcnt := hadded.tableCnt
      omega
    maps := hadded.maps
    blocks := hadded.blocks.trans (by unfold opened; split <;> rfl)
    posted := by
      change some ((s₁.tbl 0).initCmd 0) = _
      rw [hadded.tbl]
    cleared := fun i hi => if_pos ⟨by omega, by omega⟩
    behind := fun i hi hlt => (if_neg (by omega)).trans (hadded.deviceMem i hlt)
    heapMem := hadded.heapMem.trans (by unfold opened; split <;> rfl) }

/-! ## The dump -/

theorem Ready.read16_cleared {s' : State} (h : Ready s ans ip n s') {cnt : Nat}
    (hcnt : cnt < (dims n).2) :
    read16 s'.deviceMem
      ((newTbl ans ip n).indexTableExpnAddr + indexTableEntrySize * cnt) = 0 := by
  have hbytes := tableBytes_eq n
  unfold tableEntrySize indexTableEntrySize at hbytes
  have haddr : (newTbl ans ip n).indexTableExpnAddr + indexTableEntrySize * cnt =
      ans.mmap + (32 * ((dims n).1 + (dims n).2) + 4 * (dims n).1 + 4 * cnt) := by
    change ans.mmap + 32 * ((dims n).1 + (dims n).2) + 4 * (dims n).1 + 4 * cnt = _
    omega
  unfold read16
  rw [haddr, Nat.add_assoc ans.mmap, h.cleared _ (by omega), h.cleared _ (by omega)]
  rfl

theorem Ready.read16_behind {s' : State} (h : Ready s ans ip n s')
    (hroom : tableBytes n + 4 ≤ pageRound (tableBytes n)) :
    read16 s'.deviceMem
      ((newTbl ans ip n).indexTableExpnAddr + indexTableEntrySize * (dims n).2) =
      read16 ans.memory (tableBytes n) := by
  have hbytes := tableBytes_eq n
  unfold tableEntrySize indexTableEntrySize at hbytes
  have haddr : (newTbl ans ip n).indexTableExpnAddr + indexTableEntrySize * (dims n).2 =
      ans.mmap + tableBytes n := by
    change ans.mmap + 32 * ((dims n).1 + (dims n).2) + 4 * (dims n).1 + 4 * (dims n).2 = _
    omega
  unfold read16
  rw [haddr, Nat.add_assoc ans.mmap, h.behind _ le_rfl (by omega),
    h.behind _ (by omega) (by omega)]

theorem four_dvd_tableBytes (n : UInt16) : 4 ∣ tableBytes n := by
  rw [tableBytes_eq]
  unfold tableEntrySize indexTableEntrySize
  omega

theorem Ready.mapped_tables {s' : State} (h : Ready s ans ip n s') :
    s'.mappedFrom (newTbl ans ip n).ipv4RulesAddr = pageRound (tableBytes n) ∧
      s'.mappedFrom (newTbl ans ip n).ipv4ExpnRulesAddr =
        pageRound (tableBytes n) - 32 * (dims n).1 ∧
      s'.mappedFrom (newTbl ans ip n).indexTableAddr =
        pageRound (tableBytes n) - 32 * ((dims n).1 + (dims n).2) ∧
      s'.mappedFrom (newTbl ans ip n).indexTableExpnAddr =
        pageRound (tableBytes n) - (32 * ((dims n).1 + (dims n).2) + 4 * (dims n).1) := by
  have hbytes := tableBytes_eq n
  unfold tableEntrySize indexTableEntrySize at hbytes
  have hround := le_pageRound (tableBytes n)
  obtain ⟨-, -, -, hE, -⟩ := dims_spec n
  have hfrom : ∀ off, off ≤ tableBytes n - 4 * (dims n).2 →
      s'.mappedFrom (ans.mmap + off) = pageRound (tableBytes n) - off :=
    fun off hoff => mappedFrom_single h.maps (by omega)
  refine ⟨hfrom 0 (by omega), hfrom (32 * (dims n).1) (by omega),
    hfrom (32 * ((dims n).1 + (dims n).2)) (by omega), ?_⟩
  change s'.mappedFrom (ans.mmap + 32 * ((dims n).1 + (dims n).2) + 4 * (dims n).1) = _
  rw [Nat.add_assoc, hfrom _ (by omega)]

theorem Ready.dump_inRange {s' : State} (h : Ready s ans ip n s') (hn : Sized ans n) :
    ∀ a ∈ s'.dumpReads (newTbl ans ip n), a.index < a.bound := by
  obtain ⟨-, hpage, hbehind⟩ := hn
  have hroom := (pageRound_behind (four_dvd_tableBytes n)).mpr hpage
  have hbytes := tableBytes_eq n
  unfold tableEntrySize indexTableEntrySize at hbytes
  obtain ⟨hrules, hexpn, hindex, hindexExpn⟩ := h.mapped_tables
  intro a ha
  unfold State.dumpReads at ha
  simp only [List.mem_append, List.mem_map, List.mem_flatMap, List.mem_range, List.mem_cons,
    tableEntrySize] at ha
  rcases ha with ((⟨cnt, hcnt, rfl⟩ | ⟨cnt, hcnt, rfl⟩) | ⟨cnt, hcnt, rfl⟩) |
    ⟨cnt, hcnt, rfl | hmeta⟩
  · have hlt : cnt < (dims n).1 := hcnt
    change cnt < s'.mappedFrom (newTbl ans ip n).ipv4RulesAddr / 32
    omega
  · have hlt : cnt < (dims n).2 + 1 := hcnt
    change cnt < s'.mappedFrom (newTbl ans ip n).ipv4ExpnRulesAddr / 32
    unfold pageRound pageSize at *
    omega
  · have hlt : cnt < (dims n).1 := hcnt
    change cnt < s'.mappedFrom (newTbl ans ip n).indexTableAddr / 4
    omega
  · have hlt : cnt < (dims n).2 + 1 := hcnt
    change cnt < s'.mappedFrom (newTbl ans ip n).indexTableExpnAddr / 4
    omega
  · have hlt : cnt < (dims n).2 + 1 := hcnt
    have hzero : read16 s'.deviceMem
        ((newTbl ans ip n).indexTableExpnAddr + indexTableEntrySize * cnt) = 0 := by
      rcases Nat.lt_succ_iff_lt_or_eq.mp hlt with hlt | rfl
      · exact h.read16_cleared hlt
      · rw [h.read16_behind hroom, hbehind]
    simp_all

theorem Ready.dump_page {s' : State} (h : Ready s ans ip n s')
    (hpage : pageSize ∣ tableBytes n) :
    ∃ a ∈ s'.dumpReads (newTbl ans ip n), ¬ a.index < a.bound := by
  have hbytes := tableBytes_eq n
  unfold tableEntrySize indexTableEntrySize at hbytes
  obtain ⟨-, -, -, hindexExpn⟩ := h.mapped_tables
  refine ⟨⟨.indexExpnTable, (dims n).2,
    s'.mappedFrom (newTbl ans ip n).indexTableExpnAddr / indexTableEntrySize⟩, ?_, ?_⟩
  · exact List.mem_append_right _ (List.mem_flatMap.mpr
      ⟨(dims n).2, List.mem_range.mpr (Nat.lt_succ_self _), List.mem_cons_self⟩)
  · have hnot := mt (pageRound_behind (four_dvd_tableBytes n)).mp (not_not.mpr hpage)
    change ¬ (dims n).2 < _ / 4
    omega

theorem Ready.dump_behind {s' : State} (h : Ready s ans ip n s')
    (hblocks : ans.mallocMeta ≠ ans.mallocRuleIds) (hpage : ¬ pageSize ∣ tableBytes n)
    (hbehind : read16 ans.memory (tableBytes n) ≠ 0) :
    ∃ a ∈ s'.dumpReads (newTbl ans ip n), ¬ a.index < a.bound := by
  have hroom := (pageRound_behind (four_dvd_tableBytes n)).mpr hpage
  refine ⟨⟨.indexExpnTableMeta, (dims n).2,
    s'.blockBytes (newTbl ans ip n).indexExpnTableMeta / 2⟩, ?_, ?_⟩
  · refine List.mem_append_right _ (List.mem_flatMap.mpr
      ⟨(dims n).2, List.mem_range.mpr (Nat.lt_succ_self _), List.mem_cons_of_mem _ ?_⟩)
    rw [if_pos (by rwa [h.read16_behind hroom])]
    exact List.mem_cons_self
  · have hbytes : s'.blockBytes ans.mallocMeta = 2 * (dims n).2 := by
      unfold State.blockBytes
      rw [h.blocks]
      simp [hblocks.symm]
    change ¬ (dims n).2 < s'.blockBytes ans.mallocMeta / 2
    omega

theorem Ready.finish_run {s' : State} (h : Ready s ans ip n s') :
    finish.run s' =
      (do
        checkAll (s'.dumpReads (newTbl ans ip n))
        return 1 : Driver Nat).run s' := by
  unfold finish dumpIpv4Table
  rw [Driver.run_get_bind, h.tableCnt, if_neg (by decide), ← h.tbl]
  rfl

theorem Ready.finish_ok {s' : State} (h : Ready s ans ip n s')
    (hin : ∀ a ∈ s'.dumpReads (newTbl ans ip n), a.index < a.bound) :
    finish.run s' = (s', .ok 1) := by
  rw [h.finish_run, Driver.bind_ok (checkAll_run hin s')]
  rfl

theorem Ready.finish_outOfRange {s' : State} (h : Ready s ans ip n s')
    (hout : ∃ a ∈ s'.dumpReads (newTbl ans ip n), ¬ a.index < a.bound) :
    ∃ b, finish.run s' = (s', .error (.outOfRange b)) := by
  obtain ⟨a, ha, hna⟩ := hout
  obtain ⟨b, hb⟩ := checkAll_outOfRange ha hna s'
  rw [h.finish_run, Driver.bind_error hb]
  exact ⟨b, rfl⟩

/-! ## The new table -/

theorem read16_eq_zero {mem : Nat → UInt8} {addr : Nat} (h : mem addr = 0)
    (h' : mem (addr + 1) = 0) : read16 mem addr = 0 := by
  unfold read16
  rw [h, h']
  rfl

theorem read32_eq_zero {mem : Nat → UInt8} {addr : Nat} (h : read16 mem addr = 0)
    (h' : read16 mem (addr + 2) = 0) : read32 mem addr = 0 := by
  unfold read32
  omega

theorem ruleAt_zero {mem : Nat → UInt8} {addr : Nat}
    (h : ∀ i < tableEntrySize, mem (addr + i) = 0) : ruleAt mem addr = {} := by
  have h16 : ∀ i < tableEntrySize - 1, read16 mem (addr + i) = 0 := fun i hi =>
    read16_eq_zero (h i (by omega)) (h (i + 1) (by omega))
  have h32 : ∀ i < tableEntrySize - 3, read32 mem (addr + i) = 0 := fun i hi =>
    read32_eq_zero (h16 i (by omega)) (h16 (i + 2) (by omega))
  unfold tableEntrySize at h h16 h32
  have hfirst : read32 mem addr = 0 := h32 0 (by omega)
  simp [ruleAt, hfirst, h32, h16, h]

theorem indexRuleAt_zero {mem : Nat → UInt8} {addr : Nat}
    (h : ∀ i < indexTableEntrySize, mem (addr + i) = 0) : indexRuleAt mem addr = {} := by
  unfold indexTableEntrySize at h
  have hentry : read16 mem addr = 0 := read16_eq_zero (h 0 (by omega)) (h 1 (by omega))
  have hnext : read16 mem (addr + 2) = 0 := read16_eq_zero (h 2 (by omega)) (h 3 (by omega))
  unfold indexRuleAt
  rw [hentry, hnext]

theorem Ready.heapMem_zero {s' : State} (h : Ready s ans ip n s') {a : Nat}
    (ha : (ans.mallocMeta ≤ a ∧ a < ans.mallocMeta + 2 * (dims n).2) ∨
      (ans.mallocRuleIds ≤ a ∧ a < ans.mallocRuleIds + 2 * ((dims n).1 + (dims n).2))) :
    s'.heapMem a = 0 := by
  rw [h.heapMem]
  unfold zeroed
  split_ifs <;> first | rfl | omega

theorem Ready.table_eq {s' : State} (h : Ready s ans ip n s') :
    IpaNati.addIpv4Tbl ip n.toNat = .ok (s'.table (newTbl ans ip n)) := by
  have hbytes := tableBytes_eq n
  unfold tableEntrySize indexTableEntrySize at hbytes
  have hrules : (s'.table (newTbl ans ip n)).rules = fun _ => {} := by
    funext e
    refine ite_eq_right_iff.mpr fun he => ruleAt_zero fun i hi => ?_
    have hlt : e < (dims n).1 + (dims n).2 := he
    have hcleared := h.cleared (32 * e + i) (by unfold tableEntrySize at hi; omega)
    rwa [← Nat.add_assoc] at hcleared
  have hindex : (s'.table (newTbl ans ip n)).index = fun _ => {} := by
    funext e
    refine ite_eq_right_iff.mpr fun he => indexRuleAt_zero fun i hi => ?_
    have hlt : e < (dims n).1 + (dims n).2 := he
    have hcleared := h.cleared (32 * ((dims n).1 + (dims n).2) + 4 * e + i)
      (by unfold indexTableEntrySize at hi; omega)
    rwa [← Nat.add_assoc, ← Nat.add_assoc] at hcleared
  have hmeta : (s'.table (newTbl ans ip n)).indexExpnTableMeta = fun _ => 0 := by
    funext i
    refine ite_eq_right_iff.mpr fun hi => ?_
    have hlt : i < (dims n).2 := hi
    change read16 s'.heapMem (ans.mallocMeta + 2 * i) = 0
    exact read16_eq_zero (h.heapMem_zero (.inl (by omega))) (h.heapMem_zero (.inl (by omega)))
  have hids : (s'.table (newTbl ans ip n)).ruleIdArray = fun _ => 0 := by
    funext i
    refine ite_eq_right_iff.mpr fun hi => ?_
    have hlt : i < (dims n).1 + (dims n).2 := hi
    change read16 s'.heapMem (ans.mallocRuleIds + 2 * i) = 0
    exact read16_eq_zero (h.heapMem_zero (.inr (by omega))) (h.heapMem_zero (.inr (by omega)))
  have htable : s'.table (newTbl ans ip n) =
      ⟨true, ip, (dims n).1, (dims n).2, fun _ => {}, fun _ => {}, fun _ => 0, fun _ => 0⟩ := by
    calc s'.table (newTbl ans ip n)
        = ⟨true, ip, (dims n).1, (dims n).2, (s'.table (newTbl ans ip n)).rules,
            (s'.table (newTbl ans ip n)).index, (s'.table (newTbl ans ip n)).indexExpnTableMeta,
            (s'.table (newTbl ans ip n)).ruleIdArray⟩ := rfl
      _ = _ := by rw [hrules, hindex, hmeta, hids]
  unfold IpaNati.addIpv4Tbl
  rw [(dims_spec n).1, htable]
  rfl

theorem Ready.usable {s' : State} (h : Ready s ans ip n s') (hworks : Works ans)
    (hn : n.toNat * 8 / 10 ≤ 2 ^ 15) : Usable s' 0 := by
  obtain ⟨hmeta, hids, hopen, -, -⟩ := hworks
  have hbytes := tableBytes_eq n
  have htbl := h.tbl
  constructor
  case posted => rw [htbl]; exact h.posted
  all_goals rw [htbl]
  case valid => rfl
  case natFd => exact hopen
  case mapped =>
    rw [h.maps]
    exact List.mem_cons_self
  case size => exact hbytes.ge
  case expnRules => rfl
  case indexTable =>
    change ans.mmap + tableEntrySize * ((dims n).1 + (dims n).2) =
      ans.mmap + tableEntrySize * (dims n).1 + tableEntrySize * (dims n).2
    rw [Nat.mul_add, Nat.add_assoc]
  case indexExpnTable => rfl
  case indexExpnTableMeta =>
    refine ⟨hmeta, ?_⟩
    rw [h.blocks]
    exact List.mem_cons_of_mem _ List.mem_cons_self
  case ruleIdArray =>
    refine ⟨hids, ?_⟩
    rw [h.blocks]
    exact List.mem_cons_self
  case fresh => exact ⟨ip, n.toNat, n.toNat_lt, h.table_eq, (dims_spec n).2.1 hn⟩

/-! ## Adds that fail -/

theorem add_allocFails (h : AllocFails s ans) :
    (addIpv4Tbl ans ip n).run s = (s, .error (.returned .enomem)) := by
  obtain ⟨e, he⟩ := alloc_failing (n := n) h
  unfold addIpv4Tbl
  rw [Driver.run_get_bind, Driver.bind_error (returning_returned he)]

theorem addKept_allocFails (hcounted : Counted s.cache) (h : AllocFails s ans) :
    AddKept s ((addIpv4Tbl ans ip n).run s) := by
  rw [add_allocFails h]
  exact {
    counted := hcounted
    inRange := fun _ => nofun
    success := fun _ => nofun
    failure := fun _ _ => rfl }

theorem not_addKept_opened (h : ¬ AllocFails s ans) (h' : ¬ Allocates s ans) :
    ¬ AddKept s ((addIpv4Tbl ans ip n).run s) := by
  obtain ⟨e, he, hfd, hopen⟩ := alloc_changed (n := n) h h'
  unfold addIpv4Tbl
  rw [Driver.run_get_bind, Driver.bind_error (returning_returned he)]
  intro hkept
  have hsame := congrArg Cache.ipaFd (hkept.failure _ rfl)
  exact hopen (hsame.trans hfd)

theorem not_addKept_full (halloc : Allocates s ans) (hfull : ¬ s.cache.tableCnt < maxIp4Tbls) :
    ¬ AddKept s ((addIpv4Tbl ans ip n).run s) := by
  have hcnt : (opened s ans).cache.tableCnt = s.cache.tableCnt := by
    unfold opened
    split <;> rfl
  have hupdate : (updateCache ans (natAllocMem ans n) ip).run (opened s ans) =
      (opened s ans, .error (.outOfRange ⟨.ip4Tbl, s.cache.tableCnt, maxIp4Tbls⟩)) := by
    unfold updateCache
    rw [Driver.run_get_bind, hcnt, Driver.bind_error (tblAt_outOfRange hfull _)]
  have hreturning : (returning .einval (updateCache ans (natAllocMem ans n) ip)).run
      (opened s ans) =
      (opened s ans, .error (.outOfRange ⟨.ip4Tbl, s.cache.tableCnt, maxIp4Tbls⟩)) := by
    unfold returning
    simp only [hupdate]
  unfold addIpv4Tbl
  rw [Driver.run_get_bind, Driver.bind_ok (returning_ok (alloc_run halloc)),
    Driver.bind_error hreturning]
  exact fun hkept => hkept.inRange _ rfl

theorem not_addKept_unmapped (hs : Empty s) (halloc : Allocates s ans) {s' : State}
    (hupdate : (updateCache ans (natAllocMem ans n) ip).run (opened s ans) = (s', .ok ()))
    (hmaps : s'.maps = []) (hE : 0 < (s'.tbl 0).expnTableEntries) :
    ¬ AddKept s ((addIpv4Tbl ans ip n).run s) := by
  obtain ⟨s₂, a, hreset⟩ := resetTbl_unmapped hmaps hE
  unfold addIpv4Tbl
  rw [Driver.run_get_bind, hs.tableCnt, Driver.bind_ok (returning_ok (alloc_run halloc)),
    Driver.bind_ok (returning_ok hupdate), Driver.bind_error hreset]
  exact fun hkept => hkept.inRange _ rfl

theorem not_failure_of_valid {s' : State} {e : Errno} (hs : Empty s)
    (hvalid : (s'.tbl 0).valid = true) :
    ¬ AddKept s (s', .error (.returned e)) := by
  intro hkept
  have hsame : s'.tbl 0 = s.tbl 0 :=
    congrArg (fun c : Cache => c.ip4Tbl[(0 : Fin maxIp4Tbls)]) (hkept.failure e rfl)
  rw [hsame, hs.tbl_zero] at hvalid
  cases hvalid

theorem not_addKept_meta (hs : Empty s) (halloc : Allocates s ans) (h : ans.mallocMeta = 0) :
    ¬ AddKept s ((addIpv4Tbl ans ip n).run s) := by
  have hopened := hs.opened ans
  have hfree := hopened.tbl_zero
  obtain ⟨-, -, -, hE, -⟩ := dims_spec n
  have hupdate : (updateCache ans (natAllocMem ans n) ip).run (opened s ans) =
      (marked (opened s ans) 0 ans ip n, .ok ()) := by
    rw [updateCache_marked hopened]
    unfold allocIndexExpnTableMeta
    rw [h, Driver.bind_ok (allocArray_null (by simp [marked, Ip4Tbl.claimed, hfree]))]
    rfl
  refine not_addKept_unmapped hs halloc hupdate hopened.maps ?_
  unfold marked
  rw [tbl_setTbl]
  change 0 < (dims n).2
  omega

theorem not_addKept_ruleIds (hs : Empty s) (halloc : Allocates s ans)
    (hmeta : ans.mallocMeta ≠ 0) (h : ans.mallocRuleIds = 0) :
    ¬ AddKept s ((addIpv4Tbl ans ip n).run s) := by
  have hopened := hs.opened ans
  have hfree := hopened.tbl_zero
  obtain ⟨-, -, -, hE, -⟩ := dims_spec n
  have hupdate : ∃ s', (updateCache ans (natAllocMem ans n) ip).run (opened s ans) =
      (s', .ok ()) ∧ s'.maps = [] ∧ (s'.tbl 0).expnTableEntries = (dims n).2 := by
    rw [updateCache_marked hopened]
    unfold allocIndexExpnTableMeta allocRuleIdArray
    rw [h, Driver.bind_ok (allocArray_run (by simp [marked, Ip4Tbl.claimed, hfree]) hmeta),
      if_pos rfl, Driver.bind_ok (allocArray_null (by simp [marked, Ip4Tbl.claimed, hfree]))]
    refine ⟨_, rfl, hopened.maps, ?_⟩
    rw [tbl_allocated, tbl_setTbl]
    unfold marked
    rw [tbl_setTbl]
    rfl
  obtain ⟨s', hrun, hmaps, hentries⟩ := hupdate
  exact not_addKept_unmapped hs halloc hrun hmaps (by omega)

theorem tbl_arrays (hs : Empty s) :
    (arrays s 0 ans ip n).tbl 0 =
      { (({} : Ip4Tbl).claimed (natAllocMem ans n) ip) with
        indexExpnTableMeta := ans.mallocMeta
        ruleIdArray := ans.mallocRuleIds } := by
  simp [arrays, marked, hs.tbl_zero]

theorem not_addKept_device (hs : Empty s) (halloc : Allocates s ans)
    (hmeta : ans.mallocMeta ≠ 0) (hids : ans.mallocRuleIds ≠ 0)
    (h : ans.openNat < 0 ∨ ans.mmap = 0) : ¬ AddKept s ((addIpv4Tbl ans ip n).run s) := by
  have hopened := hs.opened ans
  obtain ⟨s', e, hrun, hvalid⟩ := mapTable_failing (natAllocMem ans n) h
    (show ((arrays (opened s ans) 0 ans ip n).tbl 0).valid = true by rw [tbl_arrays hopened]; rfl)
  rw [← updateCache_arrays _ _ hopened hmeta hids] at hrun
  unfold addIpv4Tbl
  rw [Driver.run_get_bind, hs.tableCnt, Driver.bind_ok (returning_ok (alloc_run halloc)),
    Driver.bind_error (returning_returned hrun)]
  exact not_failure_of_valid hs hvalid

theorem not_addKept_mapFailed (hs : Empty s) (halloc : Allocates s ans)
    (hmeta : ans.mallocMeta ≠ 0) (hids : ans.mallocRuleIds ≠ 0) (hopen : 0 ≤ ans.openNat)
    (h : ans.mmap = mapFailed) : ¬ AddKept s ((addIpv4Tbl ans ip n).run s) := by
  have hopened := hs.opened ans
  obtain ⟨-, -, -, hE, -⟩ := dims_spec n
  have hnull : ans.mmap ≠ 0 := by
    rw [h]
    decide
  have hrun := (updateCache_arrays ip n hopened hmeta hids).trans
    (mapTable_run hopen hnull)
  refine not_addKept_unmapped hs halloc hrun ?_ ?_
  · unfold onDevice State.mmapped
    rw [if_pos h]
    exact hopened.maps
  · rw [tbl_setTbl, tbl_onDevice, tbl_arrays hopened]
    change 0 < (dims n).2
    omega

theorem not_addKept_init (hs : Empty s) (halloc : Allocates s ans)
    (hmeta : ans.mallocMeta ≠ 0) (hids : ans.mallocRuleIds ≠ 0) (hopen : 0 ≤ ans.openNat)
    (hnull : ans.mmap ≠ 0) (hmap : ans.mmap ≠ mapFailed) (h : ans.initNat ≠ 0) :
    ¬ AddKept s ((addIpv4Tbl ans ip n).run s) := by
  obtain ⟨s₁, hrun₁, hadded⟩ :=
    updateCache_run ip n (hs.opened ans) hmeta hids hopen hnull hmap
  have hpost : ∀ t : State, (postIpv4InitCmd ans.initNat 0).run t =
      (t, .error (.returned .einval)) := by
    intro t
    unfold postIpv4InitCmd
    rw [Driver.bind_ok (tblAt_zero t), if_pos h]
    rfl
  unfold addIpv4Tbl
  rw [Driver.run_get_bind, hs.tableCnt, Driver.bind_ok (returning_ok (alloc_run halloc)),
    Driver.bind_ok (returning_ok hrun₁), Driver.bind_ok (resetTbl_run hadded),
    Driver.bind_error (returning_returned (hpost _))]
  refine not_failure_of_valid hs ?_
  change (s₁.tbl 0).valid = true
  rw [hadded.tbl]
  rfl

/-! ## Adds -/

theorem Ready.filled {s' : State} (h : Ready s ans ip n s') : Filled s' where
  valid := by
    rw [h.tbl]
    rfl
  tableCnt := h.tableCnt
  maps := by
    rw [h.tbl, h.maps]
    exact .inr rfl

theorem add_run (ip : UInt32) (hs : Empty s) (halloc : Allocates s ans) (hworks : Works ans)
    (hn : Sized ans n) :
    ∃ s', Ready s ans ip n s' ∧ (addIpv4Tbl ans ip n).run s = (s', .ok 1) := by
  obtain ⟨s', hready, hrun⟩ := add_ready ip n hs halloc hworks
  exact ⟨s', hready, hrun.trans (hready.finish_ok (hready.dump_inRange hn))⟩

theorem Ready.addKept {s' : State} (h : Ready s ans ip n s') (hworks : Works ans)
    (hn : Sized ans n) : AddKept s (s', .ok 1) where
  counted := h.filled.counted
  inRange _ := nofun
  success tblHdl htbl := ⟨0, by cases htbl; rfl, h.usable hworks hn.1⟩
  failure _ := nofun

theorem not_addKept_sized (hs : Empty s) (hnew : NewBlocks s ans) (halloc : Allocates s ans)
    (hworks : Works ans) (hn : ¬ Sized ans n) : ¬ AddKept s ((addIpv4Tbl ans ip n).run s) := by
  obtain ⟨s', hready, hrun⟩ := add_ready ip n hs halloc hworks
  have hblocks : ans.mallocMeta ≠ ans.mallocRuleIds := fun h => hworks.1 (hnew.2 h)
  rw [hrun]
  intro hkept
  have hin : ∀ a ∈ s'.dumpReads (newTbl ans ip n), a.index < a.bound := by
    by_contra hout
    push Not at hout
    obtain ⟨a, ha, hle⟩ := hout
    obtain ⟨b, hb⟩ := hready.finish_outOfRange ⟨a, ha, by omega⟩
    rw [hb] at hkept
    exact hkept.inRange b rfl
  have hpage : ¬ pageSize ∣ tableBytes n := fun h => by
    obtain ⟨a, ha, hna⟩ := hready.dump_page h
    exact hna (hin a ha)
  have hbehind : read16 ans.memory (tableBytes n) = 0 := by
    by_contra h
    obtain ⟨a, ha, hna⟩ := hready.dump_behind hblocks hpage h
    exact hna (hin a ha)
  rw [hready.finish_ok hin] at hkept
  obtain ⟨i, -, husable⟩ := hkept.success 1 rfl
  have hfresh := husable.fresh
  rw [Subsingleton.elim i 0, hready.tbl] at hfresh
  obtain ⟨-, -, -, -, k, hk⟩ := hfresh
  refine hn ⟨?_, hpage, hbehind⟩
  by_contra hlarge
  have hbase : (dims n).1 = 2 ^ k := hk
  rw [(dims_spec n).2.2.1 (by omega)] at hbase
  exact (Nat.two_pow_pos k).ne hbase

theorem addKept_iff (hs : SlotInv s) (hnew : NewBlocks s ans) :
    AddKept s ((addIpv4Tbl ans ip n).run s) ↔ Ok s (.add ans ip n) := by
  by_cases hfails : AllocFails s ans
  · exact iff_of_true (addKept_allocFails hs.counted hfails) (.inl hfails)
  by_cases halloc : Allocates s ans
  · constructor
    · intro hkept
      refine .inr ⟨halloc, ?_⟩
      rcases hs with hs | hs
      · have hcnt : s.cache.tableCnt < maxIp4Tbls := by
          rw [hs.tableCnt]
          decide
        by_cases hmeta : ans.mallocMeta = 0
        · exact absurd hkept (not_addKept_meta hs halloc hmeta)
        grind [not_addKept_ruleIds, not_addKept_device, not_addKept_mapFailed, Works,
          not_addKept_sized, not_addKept_init]
      · have hfull : ¬ s.cache.tableCnt < maxIp4Tbls := by
          rw [hs.tableCnt]
          decide
        exact absurd hkept (not_addKept_full halloc hfull)
    · intro hok
      obtain ⟨-, hcnt, hworks, hn⟩ := hok.resolve_left hfails
      have hempty : Empty s := hs.resolve_right fun h => by
        rw [h.tableCnt] at hcnt
        exact absurd hcnt (by decide)
      obtain ⟨s', hready, hrun⟩ := add_run ip hempty halloc hworks hn
      rw [hrun]
      exact hready.addKept hworks hn
  · exact iff_of_false (not_addKept_opened hfails halloc) fun hok =>
      hok.elim hfails fun h => halloc h.1

theorem slotInv_add (hs : SlotInv s) (hok : Ok s (.add ans ip n)) :
    SlotInv ((addIpv4Tbl ans ip n).run s).1 := by
  rcases hok with hfails | ⟨halloc, hcnt, hworks, hn⟩
  · rw [add_allocFails hfails]
    exact hs
  · have hempty : Empty s := hs.resolve_right fun h => by
      rw [h.tableCnt] at hcnt
      exact absurd hcnt (by decide)
    obtain ⟨s', hready, hrun⟩ := add_run ip hempty halloc hworks hn
    rw [hrun]
    exact .inr hready.filled

end Add

/-! ## Deletes -/

section Del

variable {s : State} {ans : DelAnswers} {tblHdl : UInt32}

theorem del_run (ans : DelAnswers) (hs : SlotInv s)
    (hindex : (tblHdl - 1).toUInt8.toNat < maxIp4Tbls) :
    (∃ s' e, (delIpv4Table ans tblHdl).run s = (s', .error (.returned e)) ∧ SlotInv s') ∨
      ∃ s', (delIpv4Table ans tblHdl).run s = (s', .ok ()) ∧ Empty s' := by
  have hzero : (tblHdl - 1).toUInt8.toNat = 0 := Nat.lt_one_iff.mp hindex
  unfold delIpv4Table
  rw [hzero, Driver.bind_ok (tblAt_zero s), Driver.run_get_bind]
  by_cases hvalid : (s.tbl 0).valid = true
  · have hfilled : Filled s := hs.resolve_left fun h => by
      rw [h.tbl_zero] at hvalid
      cases hvalid
    have hunmapped : s.maps.erase
        ((s.tbl 0).ipv4RulesAddr, pageRound (s.tbl 0).size) = [] := by
      simp [hfilled.maps]
    have hcond : ¬ (!(s.tbl 0).valid) = true := by simp [hvalid]
    rw [if_neg hcond, Driver.run_modify_bind]
    by_cases hfail : ans.close ≠ 0 ∨ ans.delNat ≠ 0
    · refine .inl ⟨s.munmapped (s.tbl 0).ipv4RulesAddr (s.tbl 0).size, .einval, ?_, .inr ?_⟩
      · by_cases hclose : ans.close ≠ 0
        · rw [if_pos hclose]
          rfl
        simp [hclose, hfail.resolve_left]
      · exact ⟨hfilled.valid, hfilled.tableCnt, .inl hunmapped⟩
    · obtain ⟨hclose, hdel⟩ := not_or.mp hfail
      rw [if_neg hclose, if_neg hdel]
      refine .inr ⟨_, rfl, ?_, ?_, hunmapped⟩
      · apply Vector.ext
        intro i hi
        cases Nat.lt_one_iff.mp hi
        exact Vector.getElem_set_self _
      · change (s.cache.tableCnt + (2 ^ 8 - 1)) % 2 ^ 8 = 0
        have hcnt := hfilled.tableCnt
        omega
  simp_all

theorem delKept_iff (hs : SlotInv s) :
    Kept ((delIpv4Table ans tblHdl).run s) ↔ Ok s (.del ans tblHdl) := by
  constructor
  · intro hkept
    by_contra hindex
    unfold delIpv4Table at hkept
    rw [Driver.bind_error (tblAt_outOfRange hindex s)] at hkept
    exact hkept.inRange _ rfl
  · intro hindex
    rcases del_run ans hs hindex with ⟨s', e, hrun, hs'⟩ | ⟨s', hrun, hs'⟩
    · rw [hrun]
      exact ⟨hs'.counted, fun _ => nofun⟩
    · rw [hrun]
      exact ⟨hs'.counted, fun _ => nofun⟩

theorem slotInv_del (hs : SlotInv s) (hok : Ok s (.del ans tblHdl)) :
    SlotInv ((delIpv4Table ans tblHdl).run s).1 := by
  rcases del_run ans hs hok with ⟨s', e, hrun, hs'⟩ | ⟨s', hrun, hs'⟩
  · rw [hrun]
    exact hs'
  · rw [hrun]
    exact .inl hs'

end Del

/-! ## Runs -/

theorem slotInv_invariant : (system.restrict Ok).Invariant SlotInv := by
  refine System.Invariant.of_restrict (fun s hs => .inl ?_) fun s call s' hs hok hstep => ?_
  · exact ⟨by rw [hs.cache]; rfl, by rw [hs.cache]; rfl, hs.maps⟩
  · obtain ⟨-, rfl⟩ := hstep
    cases call with
    | add ans ip n => exact slotInv_add hs hok
    | del ans tblHdl => exact slotInv_del hs hok

/-- In every run whose calls meet the condition the count is right, and the next call keeps
what it owes exactly when it meets the condition too. -/
theorem kept_of_reachable {s : State} (hs : (system.restrict Ok).Reachable s) :
    Counted s.cache ∧ ∀ call, Enabled s call → (CallKept s call ↔ Ok s call) := by
  have hinv := slotInv_invariant.reachable hs
  refine ⟨hinv.counted, fun call hnew => ?_⟩
  cases call with
  | add ans ip n => exact addKept_iff hinv hnew
  | del ans tblHdl => exact delKept_iff hinv

/-- The process at its start, with memory that nothing has written. -/
def start : State where
  cache := .zero
  maps := []
  blocks := []
  posted := fun _ => none
  deviceMem := fun _ => 0
  heapMem := fun _ => 0

theorem start_start : Start start := ⟨rfl, rfl, rfl, fun _ => rfl⟩

/-- The answers of an environment in which nothing fails. The mapped memory is not zero. -/
def working : AddAnswers where
  openIpa := 3
  allocNatMem := 0
  offset := 0
  mallocMeta := 4096
  mallocRuleIds := 8192
  openNat := 4
  mmap := 65536
  memory := fun a => if a < 144 then 7 else 0
  initNat := 0

def reAdd : List Call :=
  [.add { working with openIpa := -1 } 1 4, .add working 1 4, .del ⟨0, -1⟩ 1, .del ⟨0, 0⟩ 1,
    .add { working with allocNatMem := -1 } 1 4, .add working 1 4]

theorem kept_of_reachable_reAdd :
    ∃ s, (system.restrict Ok).Reachable s ∧ s.cache.tableCnt = 1 ∧
      (Counted s.cache ∧ ∀ call, Enabled s call → (CallKept s call ↔ Ok s call)) := by
  have hrun : (System.follow (fun s call => Ok s call ∧ Enabled s call) next reAdd start).any
      (fun s => s.cache.tableCnt = 1) = true := by decide +kernel
  obtain ⟨s, hs, hcnt⟩ := (Option.any_eq_true _ _).mp hrun
  have hinit : (system.restrict Ok).Reachable start := .init start_start
  have hreach := System.reachable_follow _ hinit hs
  exact ⟨s, hreach, of_decide_eq_true hcnt, kept_of_reachable hreach⟩

/-- An add whose `open` of the NAT device fails. It returns an error, and the slot stays marked
valid although it is not counted. -/
def notOpened : List Call := [.add { working with openNat := -1 } 1 4]

theorem not_counted :
    ¬ ∀ s, system.Reachable s →
      Counted s.cache ∧ ∀ call, Enabled s call → CallKept s call := by
  have hrun : (System.follow (fun s call => True ∧ Enabled s call) next notOpened start).any
      (fun s => s.cache.tableCnt = 0 ∧ s.cache.validCount = 1) = true := by decide +kernel
  obtain ⟨s, hs, hcount⟩ := (Option.any_eq_true _ _).mp hrun
  have hinit : (system.restrict fun _ _ => True).Reachable start := .init start_start
  have hreach := System.reachable_follow _ hinit hs
  intro h
  obtain ⟨hcnt, hvalid⟩ := of_decide_eq_true hcount
  have hcount := (h s hreach.of_restrict).1.count
  omega

end EtherDevice.IpaNati.TableCache
