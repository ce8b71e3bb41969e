import Mathlib
import EtherDevice.IpaNati.IndexTable

/-!
# Byte offsets of the DMA commands

The commands of `ipa_nati_copy_ipv4_rule_to_hw`, `ipa_nati_copy_ipv4_index_rule_to_hw`,
`ipa_nati_post_ipv4_dma_cmd` and `ipa_nati_post_del_dma_cmd` with the `tbl_addr_offset` of the
table's memory, which the other files leave at `0`. An offset counts from the start of the
table that the command names, and `tbl_addr_offset` is added to it.

The link of a rule is exact. The link of an index entry is cut to 16 bits
(`indexLink_exact_iff`), and the command that enables a base entry leaves the
`tbl_addr_offset` out which the one that disables it has (`disable_exact_iff`).
-/

namespace EtherDevice.IpaNati

open IpaNatIp4TableCache

variable {c : IpaNatIp4TableCache}

def DmaOne.place (d : DmaOne) : NatTableType × Nat := (d.baseAddr, d.offset)

def entryOffset (tblAddrOffset : UInt32) (tblEntry : Nat) : Nat :=
  (getEntryOffset tblEntry + tblAddrOffset.toNat) % 2 ^ 32

def indexEntryOffset (tblAddrOffset : UInt32) (indxTblEntry : Nat) : Nat :=
  (getIndexEntryOffset indxTblEntry + tblAddrOffset.toNat) % 2 ^ 32

def ruleNextCmd (tblAddrOffset : UInt32) (c : IpaNatIp4TableCache) (prevEntry value : Nat) :
    DmaOne :=
  if prevEntry < c.tableEntries then
    ⟨.baseTbl, (entryOffset tblAddrOffset prevEntry + ruleNextFieldOffset) % 2 ^ 32, value⟩
  else
    ⟨.expnTbl,
      (entryOffset tblAddrOffset (prevEntry - c.tableEntries) + ruleNextFieldOffset) % 2 ^ 32,
      value⟩

def indexRuleNextCmd (tblAddrOffset : UInt32) (c : IpaNatIp4TableCache)
    (prevEntry value : Nat) : DmaOne :=
  if prevEntry < c.tableEntries then
    ⟨.indxTbl,
      (indexEntryOffset tblAddrOffset prevEntry % 2 ^ 16 + indexRuleNextFieldOffset) % 2 ^ 16,
      value⟩
  else
    ⟨.indexExpnTbl,
      (indexEntryOffset tblAddrOffset (prevEntry - c.tableEntries) % 2 ^ 16 +
        indexRuleNextFieldOffset) % 2 ^ 16,
      value⟩

def postIpv4DmaCmd (tblAddrOffset : UInt32) (c : IpaNatIp4TableCache) (entry : Nat) : DmaOne :=
  if entry < c.tableEntries then
    ⟨.baseTbl, (getEntryOffset entry + ruleFlagFieldOffset) % 2 ^ 32, flagEnableBitMask⟩
  else
    ⟨.expnTbl,
      (getEntryOffset (entry - c.tableEntries) + ruleFlagFieldOffset + tblAddrOffset.toNat) %
        2 ^ 32,
      flagEnableBitMask⟩

/-- The first command of `ipa_nati_post_del_dma_cmd`, for the rule `r` at position `cur` of its
table. A rule that is alone on its list is disabled by its flag, the others are not. -/
def postDelRuleCmd (tblAddrOffset : UInt32) (c : IpaNatIp4TableCache) (r : IpaNatRule)
    (cur : Nat) : DelType → DmaOne
  | .onlyOne =>
    ⟨.baseTbl, (entryOffset tblAddrOffset cur + ruleFlagFieldOffset) % 2 ^ 32,
      flagDisableBitMask⟩
  | .head =>
    ⟨.baseTbl, (entryOffset tblAddrOffset cur + ruleProtoFieldOffset) % 2 ^ 32,
      invalidProtoFieldValue⟩
  | .middle => ruleNextCmd tblAddrOffset c r.prevIndex r.nextIndex
  | .last => ruleNextCmd tblAddrOffset c r.prevIndex 0

section

variable {e value : Nat}

end

def position (c : IpaNatIp4TableCache) (entry : Nat) : Nat :=
  if entry < c.tableEntries then entry else entry - c.tableEntries

def rulePlace (tblAddrOffset : UInt32) (c : IpaNatIp4TableCache) (entry field : Nat) :
    NatTableType × Nat :=
  (if entry < c.tableEntries then .baseTbl else .expnTbl,
    (tblAddrOffset.toNat + (position c entry * 32 + field)) % 2 ^ 32)

def indexRulePlace (tblAddrOffset : UInt32) (c : IpaNatIp4TableCache) (entry field : Nat) :
    NatTableType × Nat :=
  (if entry < c.tableEntries then .indxTbl else .indexExpnTbl,
    (tblAddrOffset.toNat + (position c entry * 4 + field)) % 2 ^ 32)

theorem link_exact (tblAddrOffset : UInt32) (c : IpaNatIp4TableCache) (prev entry : Nat) :
    (ruleNextCmd tblAddrOffset c prev entry).place =
      rulePlace tblAddrOffset c prev ruleNextFieldOffset := by
  unfold ruleNextCmd rulePlace position entryOffset getEntryOffset DmaOne.place
  by_cases hlt : prev < c.tableEntries
  · simp only [if_pos hlt, Prod.mk.injEq, true_and]
    omega
  · simp only [if_neg hlt, Prod.mk.injEq, true_and]
    omega

theorem indexLink_exact_iff (tblAddrOffset : UInt32) (c : IpaNatIp4TableCache)
    (prev entry : Nat) :
    (indexRuleNextCmd tblAddrOffset c prev entry).place =
        indexRulePlace tblAddrOffset c prev indexRuleNextFieldOffset ↔
      (tblAddrOffset.toNat + (position c prev * 4 + 2)) % 2 ^ 32 < 2 ^ 16 := by
  unfold indexRuleNextCmd indexRulePlace position indexEntryOffset getIndexEntryOffset
    DmaOne.place indexRuleNextFieldOffset
  by_cases hlt : prev < c.tableEntries
  · simp only [if_pos hlt, Prod.mk.injEq, true_and]
    omega
  · simp only [if_neg hlt, Prod.mk.injEq, true_and]
    omega

theorem disable_exact_iff (tblAddrOffset : UInt32) {c c' : IpaNatIp4TableCache} (r : IpaNatRule)
    {entry : Nat} (hbase : entry < c.tableEntries) :
    (postDelRuleCmd tblAddrOffset c' r entry .onlyOne).place =
        (postIpv4DmaCmd tblAddrOffset c entry).place ↔ tblAddrOffset = 0 := by
  have hlt := tblAddrOffset.toNat_lt
  unfold postDelRuleCmd postIpv4DmaCmd entryOffset getEntryOffset DmaOne.place
    ruleFlagFieldOffset
  rw [if_pos hbase, ← UInt32.toNat_inj, UInt32.toNat_zero]
  simp only [Prod.mk.injEq, true_and]
  omega

/-- The offsets of the commands for a generated rule: of the two links, and of the command
that enables it against those that disable it. -/
structure OffsetsExact (tblAddrOffset : UInt32) (c : IpaNatIp4TableCache) (g : Generated) :
    Prop where
  link : g.rule.prevIndex ≠ 0 →
    (ruleNextCmd tblAddrOffset c g.rule.prevIndex g.tblEntry).place =
      rulePlace tblAddrOffset c g.rule.prevIndex ruleNextFieldOffset
  indexLink : g.indexSwRule.prevIndex ≠ 0 →
    (indexRuleNextCmd tblAddrOffset c g.indexSwRule.prevIndex g.indxTblEntry).place =
      indexRulePlace tblAddrOffset c g.indexSwRule.prevIndex indexRuleNextFieldOffset
  /-- `c'` is the table at some later time, in which the rule is deleted from position `cur`. -/
  disable (c' : IpaNatIp4TableCache) (expn : Bool) (cur : Nat) :
    c'.tableEntries = c.tableEntries → c'.expnTableEntries = c.expnTableEntries →
    c'.entryAt expn cur = some g.tblEntry →
    findRulePos expn (c'.rules g.tblEntry).nextIndex = .onlyOne →
      (postDelRuleCmd tblAddrOffset c' (c'.rules g.tblEntry) cur .onlyOne).place =
        (postIpv4DmaCmd tblAddrOffset c g.tblEntry).place

/-- The `next_index` of the index predecessor has a byte offset of 16 bits, and a rule in the
base table is in memory without an offset. -/
def OffsetsFit (tblAddrOffset : UInt32) (c : IpaNatIp4TableCache) (g : Generated) : Prop :=
  (g.indexSwRule.prevIndex ≠ 0 →
    (tblAddrOffset.toNat + (position c g.indexSwRule.prevIndex * 4 + 2)) % 2 ^ 32 < 2 ^ 16) ∧
  (g.tblEntry < c.tableEntries → tblAddrOffset = 0)

theorem entryAt_of_onlyOne {c : IpaNatIp4TableCache} {expn : Bool} {cur e next : Nat}
    (he : c.entryAt expn cur = some e) (hpos : findRulePos expn next = .onlyOne) :
    cur = e ∧ e < c.tableEntries := by
  cases expn with
  | false =>
    unfold entryAt at he
    simp only [Bool.false_eq_true, if_false] at he
    grind
  | true =>
    unfold findRulePos at hpos
    split at hpos <;> split at hpos <;> simp_all

/-- **Offsets of an add and a delete.** For every rule with its predecessors, in tables of any
dimensions and contents. -/
theorem offsetsExact_iff (tblAddrOffset : UInt32) (c : IpaNatIp4TableCache) (g : Generated) :
    OffsetsExact tblAddrOffset c g ↔ OffsetsFit tblAddrOffset c g := by
  constructor
  · intro h
    refine ⟨fun hprev => (indexLink_exact_iff _ c _ _).mp (h.indexLink hprev), fun hbase => ?_⟩
    -- The rule may be deleted from a table in which no other rule is on its list.
    have hdisable := h.disable { c with rules := fun _ => {} } false g.tblEntry rfl rfl
      (by simp [entryAt, hbase]) rfl
    exact (disable_exact_iff tblAddrOffset _ hbase).mp hdisable
  · rintro ⟨hindex, hzero⟩
    refine ⟨fun _ => link_exact tblAddrOffset c _ _, fun hprev => ?_, ?_⟩
    · exact (indexLink_exact_iff _ c _ _).mpr (hindex hprev)
    grind [entryAt_of_onlyOne, disable_exact_iff]

/-- A table of `2 ^ 15` base entries with a rule of the index bucket 20006. -/
def usedBucket : IpaNatIp4TableCache :=
  ((freshTable 32768 4096).modifyRule 7 fun _ =>
    { swRuleOf 0 ⟨0, 0, 20000, 0, 1, 6⟩ with enable := true, indxTblEntry := 20006 }).modifyIndex
      20006 fun _ => ⟨7, 0⟩

def secondOfBucket : IpaNatIpv4Rule := ⟨0, 0, 20000, 0, 0, 6⟩

/-- The second rule of the bucket is linked behind index entry 20006, whose `next_index` is at
byte 80026. The command writes byte 14490, in index entry 3622. -/
theorem not_offsetsExact_secondOfBucket :
    ¬ ∀ (tblAddrOffset : UInt32) (c cg : IpaNatIp4TableCache) (clntRule : IpaNatIpv4Rule)
      (g : Generated), Dims c.tableEntries c.expnTableEntries →
      generateRule c clntRule = some (.ok (g, cg)) → OffsetsExact tblAddrOffset c g := by
  intro h
  have hrun : ∃ g cg, generateRule usedBucket secondOfBucket = some (.ok (g, cg)) ∧
      g.indexSwRule.prevIndex = 20006 := ⟨_, _, rfl, rfl⟩
  obtain ⟨g, cg, hg, hprev⟩ := hrun
  have hexact := h 0 usedBucket cg secondOfBucket g ⟨by decide, by decide, by decide, by decide⟩ hg
  have hfit := (indexLink_exact_iff 0 usedBucket _ _).mp (hexact.indexLink (by omega))
  rw [hprev] at hfit
  exact absurd hfit (by decide)

end EtherDevice.IpaNati
