import Mathlib
import EtherDevice.IpaNati.TableLife

/-!
# The sizes of a NAT table

`ipa_nati_alloc_table` computes the two dimensions of a table and the bytes it asks for,
`ipa_nati_update_cache` lays out the four tables in these bytes, and
`ipa_nati_post_ipv4_init_cmd` tells the hardware where they are. The three agree, and the
base table is a power of two, as long as `.8` of the number of entries is at most `2 ^ 15`.
Above that `GetNearest2Power` doubles its 16-bit result to `0`, and a table without base
entries is set up.
-/

namespace EtherDevice.IpaNati.TableCache

open Lib Driver

theorem le_getNearest2Power {num N : Nat} (hpos : 0 < num) (hle : num ≤ 2 ^ 15)
    (h : getNearest2Power num = .ok N) : num ≤ N := by
  unfold getNearest2Power at h
  rw [if_neg (by omega)] at h
  by_cases hone : num = 1
  · rw [if_pos hone] at h
    obtain rfl : 2 = N := Except.ok.inj h
    omega
  rw [if_neg hone] at h
  have hlo : 2 ^ num.log2 ≤ num := Nat.log2_self_le (by omega)
  have hhi : num < 2 ^ (num.log2 + 1) := Nat.lt_log2_self
  have hlog : num.log2 < 16 := (Nat.log2_lt (by omega)).mpr (by omega)
  have hloop := getNearest2PowerLoop_eq num 16 0 hlo hhi hlog (by omega)
  rw [Nat.pow_zero, Nat.zero_add] at hloop
  grind

theorem getNearestEven_even {num : Nat} : getNearestEven num % 2 = 0 := by
  unfold getNearestEven
  split
  · rfl
  · split <;> omega

theorem dims_of_small {n : UInt16} (h : n.toNat * 8 / 10 ≤ 2 ^ 15) :
    (∃ k, (dims n).1 = 2 ^ k) ∧ 2 ≤ (dims n).1 ∧ n.toNat * 8 / 10 ≤ (dims n).1 ∧
      (dims n).2 % 2 = 0 := by
  obtain ⟨halloc, hsmall, -⟩ := dims_spec n
  have hpow := hsmall h
  have hbase : 2 ≤ (dims n).1 := (dims_of_allocTable n.toNat_lt halloc hpow).base
  unfold allocTable at halloc
  cases hN : getNearest2Power (if n.toNat * 8 / 10 = 0 then 1 else n.toNat * 8 / 10) with
  | error e =>
    simp_all
  | ok N =>
    simp only [hN] at halloc
    have hdims : (N, getNearestEven (n.toNat * 2 / 10)) = dims n := Except.ok.inj halloc
    have hle := le_getNearest2Power (by split <;> omega) (by split <;> omega) hN
    rw [← hdims] at hpow hbase ⊢
    refine ⟨hpow, hbase, ?_, getNearestEven_even⟩
    split at hle <;> omega

/-- `table_entries - 1` as the callers of the two hashes pass it, in 16 bits. -/
def Ip4Tbl.hashSize (t : Ip4Tbl) : Nat := (t.tableEntries + (2 ^ 16 - 1)) % 2 ^ 16

/-- The table `t` is as large as its `n` entries need, and the hardware was told of it by
`cmd`. -/
structure WellSized (n : UInt16) (t : Ip4Tbl) (cmd : V4NatInit) : Prop where
  power : ∃ k, t.tableEntries = 2 ^ k
  base : 2 ≤ t.tableEntries
  share : n.toNat * 8 / 10 ≤ t.tableEntries
  even : t.expnTableEntries % 2 = 0
  expn : 2 ≤ t.expnTableEntries
  /-- The four tables lie one directly after another. -/
  expnRules : t.ipv4ExpnRulesAddr = t.ipv4RulesAddr + tableEntrySize * t.tableEntries
  indexTable : t.indexTableAddr = t.ipv4ExpnRulesAddr + tableEntrySize * t.expnTableEntries
  indexExpnTable : t.indexTableExpnAddr = t.indexTableAddr + indexTableEntrySize * t.tableEntries
  /-- The bytes asked for reach to the end of the last table. -/
  covered : t.indexTableExpnAddr + indexTableEntrySize * t.expnTableEntries ≤
    t.ipv4RulesAddr + t.size
  /-- The command has the same four places, as 32-bit offsets of the device's memory. -/
  rulesOffset : cmd.ipv4RulesOffset = t.tblAddrOffset
  expnRulesOffset : cmd.expnRulesOffset =
    (t.tblAddrOffset + (t.ipv4ExpnRulesAddr - t.ipv4RulesAddr)) % 2 ^ 32
  indexOffset : cmd.indexOffset =
    (t.tblAddrOffset + (t.indexTableAddr - t.ipv4RulesAddr)) % 2 ^ 32
  indexExpnOffset : cmd.indexExpnOffset =
    (t.tblAddrOffset + (t.indexTableExpnAddr - t.ipv4RulesAddr)) % 2 ^ 32
  /-- And the same dimensions, the base table's as the mask of the hashes. -/
  mask : cmd.tableEntries + 1 = t.tableEntries
  cmdExpn : cmd.expnTableEntries = t.expnTableEntries
  dst (trgtIp : UInt32) (trgtPort publicPort : UInt16) (proto : UInt8) :
    1 ≤ dstHash trgtIp trgtPort publicPort proto t.hashSize ∧
      dstHash trgtIp trgtPort publicPort proto t.hashSize ≤ t.tableEntries - 1
  src (privIp : UInt32) (privPort : UInt16) (trgtIp : UInt32) (trgtPort : UInt16)
    (proto : UInt8) :
    1 ≤ srcHash privIp privPort trgtIp trgtPort proto t.hashSize ∧
      srcHash privIp privPort trgtIp trgtPort proto t.hashSize ≤ t.tableEntries - 1

theorem wellSized_newTbl_iff (ans : AddAnswers) (ip : UInt32) (n : UInt16) :
    WellSized n (newTbl ans ip n) ((newTbl ans ip n).initCmd 0) ↔ n.toNat ≤ 40961 := by
  obtain ⟨-, hsmall, hlarge, hexpn, -⟩ := dims_spec n
  have hbase : (newTbl ans ip n).tableEntries = (dims n).1 := rfl
  constructor
  · intro h
    by_contra hn
    have htwo := h.base
    omega
  · intro hn
    obtain ⟨hpow, htwo, hshare, heven⟩ := dims_of_small (n := n) (by omega)
    have hle := dims_base_le n
    have hsize : (newTbl ans ip n).size = tableBytes n := rfl
    have hhash : (newTbl ans ip n).hashSize = (dims n).1 - 1 := by
      unfold Ip4Tbl.hashSize
      omega
    have hpos : 0 < (dims n).1 - 1 := by omega
    have hrules : (newTbl ans ip n).ipv4RulesAddr = ans.mmap := rfl
    have hexpnRules : (newTbl ans ip n).ipv4ExpnRulesAddr =
        ans.mmap + tableEntrySize * (dims n).1 := rfl
    have hindex : (newTbl ans ip n).indexTableAddr =
        ans.mmap + tableEntrySize * ((dims n).1 + (dims n).2) := rfl
    have hindexExpn : (newTbl ans ip n).indexTableExpnAddr =
        ans.mmap + tableEntrySize * ((dims n).1 + (dims n).2) +
          indexTableEntrySize * (dims n).1 := rfl
    have hexpnEntries : (newTbl ans ip n).expnTableEntries = (dims n).2 := rfl
    exact {
      power := hpow
      base := htwo
      share := hshare
      even := heven
      expn := hexpn
      expnRules := rfl
      indexTable := by
        rw [hindex, hexpnRules, hexpnEntries, Nat.mul_add]
        omega
      indexExpnTable := rfl
      covered := by
        rw [hindexExpn, hrules, hsize, hexpnEntries, tableBytes_eq]
        unfold tableEntrySize indexTableEntrySize
        omega
      rulesOffset := rfl
      expnRulesOffset := by
        rw [hexpnRules, hrules, Nat.add_sub_cancel_left, Nat.mul_comm]
        rfl
      indexOffset := by
        rw [hindex, hrules]
        unfold Ip4Tbl.initCmd tableEntrySize
        dsimp only
        omega
      indexExpnOffset := by
        rw [hindexExpn, hrules]
        unfold Ip4Tbl.initCmd tableEntrySize indexTableEntrySize
        dsimp only
        omega
      mask := by
        unfold Ip4Tbl.initCmd
        dsimp only
        omega
      cmdExpn := rfl
      dst := by
        intro trgtIp trgtPort publicPort proto
        rw [hhash]
        exact dstHash_range hpos
      src := by
        intro privIp privPort trgtIp trgtPort proto
        rw [hhash]
        exact srcHash_range hpos }

theorem added_newTbl {s : State} {ans : AddAnswers} (ip : UInt32) (n : UInt16) (hs : Empty s)
    (halloc : Allocates s ans) (hworks : Works ans) :
    let s' := ((addIpv4Tbl ans ip n).run s).1
    s'.tbl 0 = newTbl ans ip n ∧ s'.posted 0 = some ((newTbl ans ip n).initCmd 0) := by
  obtain ⟨s', hready, hrun⟩ := add_ready ip n hs halloc hworks
  have hfinish : (finish.run s').1 = s' := by
    by_cases hin : ∀ a ∈ s'.dumpReads (newTbl ans ip n), a.index < a.bound
    · rw [hready.finish_ok hin]
    · push Not at hin
      obtain ⟨a, ha, hna⟩ := hin
      obtain ⟨b, hb⟩ := hready.finish_outOfRange ⟨a, ha, Nat.not_lt.mpr hna⟩
      rw [hb]
  simp [hrun, hfinish, hready.tbl, hready.posted]

/-- What the sizing owes for an add of `n` entries: the new table is well sized. -/
def Sizes (s : State) (ans : AddAnswers) (ip : UInt32) (n : UInt16) : Prop :=
  ∃ cmd, ((addIpv4Tbl ans ip n).run s).1.posted 0 = some cmd ∧
    WellSized n (((addIpv4Tbl ans ip n).run s).1.tbl 0) cmd

/-- **Table sizing.** Where nothing fails, an add sets up a well-sized table exactly for the
numbers of entries up to `40961`. -/
theorem sizes_iff {s : State} {ans : AddAnswers} (ip : UInt32) (n : UInt16) (hs : Empty s)
    (halloc : Allocates s ans) (hworks : Works ans) :
    Sizes s ans ip n ↔ n.toNat ≤ 40961 := by
  obtain ⟨htbl, hposted⟩ := added_newTbl ip n hs halloc hworks
  simp [wellSized_newTbl_iff, Sizes, htbl, hposted]

theorem empty_start : Empty start := ⟨rfl, rfl, rfl⟩

theorem sizes_iff_hundred : Sizes start working 1 100 ↔ (100 : UInt16).toNat ≤ 40961 :=
  sizes_iff 1 100 empty_start (by decide) (by decide)

/-- For `40962` entries `GetNearest2Power` wraps, and the base table is empty. -/
theorem not_sizes : ¬ ∀ (s : State) (ans : AddAnswers) (ip : UInt32) (n : UInt16),
    Empty s → Allocates s ans → Works ans → Sizes s ans ip n := by
  intro h
  obtain ⟨cmd, -, hsized⟩ := h start working 1 40962 empty_start (by decide) (by decide)
  have hbase := hsized.base
  rw [(added_newTbl 1 40962 empty_start (by decide) (by decide)).1] at hbase
  have hzero : (newTbl working 1 40962).tableEntries = 0 := (dims_spec 40962).2.2.1 (by decide)
  omega

end EtherDevice.IpaNati.TableCache
