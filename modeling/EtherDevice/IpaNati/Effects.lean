import Mathlib
import EtherDevice.IpaNati.Rules
import EtherDevice.Lib.Chain

/-!
# What an add and a delete write

The DMA commands of the driver name their fields by byte offsets. This file computes
what each command writes, and from that the final tables of a successful
`ipa_nati_add_ipv4_rule` or `ipa_nati_del_ipv4_rule`. The later files cite these
descriptions and do not unfold the driver again.

The rule tables come out the same whatever the index tables hold, up to the
`indx_tbl_entry` of rules; this is why the destination chains can be studied alone.
-/

namespace EtherDevice.IpaNati

open Lib IpaNatIp4TableCache

variable {c c' : IpaNatIp4TableCache}

theorem entryAt_base {i : Nat} (h : i < c.tableEntries) : c.entryAt false i = some i := by
  simp [entryAt, h]

theorem entryAt_expn {e : Nat} (hlo : c.tableEntries ≤ e) (hhi : e < c.size) :
    c.entryAt true (e - c.tableEntries) = some e := by
  grind [size, entryAt]

theorem entryAt_eq_some {expn : Bool} {i p : Nat} (h : c.entryAt expn i = some p) :
    p < c.size ∧ (if expn then p = c.tableEntries + i else p = i ∧ p < c.tableEntries) := by
  unfold entryAt size at *
  cases expn <;> simp at h ⊢ <;> omega

theorem expnEntry_of_range {e : Nat} (hlo : c.tableEntries ≤ e) (hhi : e < c.size) :
    c.expnEntry e = some e := by
  simp [expnEntry, hlo, hhi]

theorem expnEntry_eq_some {e n : Nat} (h : c.expnEntry e = some n) :
    n = e ∧ c.tableEntries ≤ e ∧ e < c.size := by
  unfold expnEntry at h
  split at h
  · simp_all
  · cases h

theorem dmaOne_rule {base : NatTableType} {pos off data e : Nat} {r : IpaNatRule}
    (hbase : base.isIndex = false) (he : c.entryAt base.isExpn pos = some e)
    (hoff : off < 32) (hr : (c.rules e).dma off data = some r) :
    dmaOne c ⟨base, getEntryOffset pos + off, data⟩ = some (c.modifyRule e fun _ => r) := by
  grind [dmaOne, getEntryOffset]

theorem dmaOne_indexRule {base : NatTableType} {pos off data i : Nat}
    {r : IpaNatIndxTblRule} (hbase : base.isIndex = true)
    (hi : c.entryAt base.isExpn pos = some i) (hoff : off < 4)
    (hr : (c.index i).dma off data = some r) :
    dmaOne c ⟨base, getIndexEntryOffset pos + off, data⟩ =
      some (c.modifyIndex i fun _ => r) := by
  grind [dmaOne, getIndexEntryOffset]

theorem dmaOne_nextFieldCmd (value : Nat) {prev : Nat} (h : prev < c.size) :
    dmaOne c (nextFieldCmd c prev value) =
      some (c.modifyRule prev fun r => { r with nextIndex := value }) := by
  unfold nextFieldCmd
  split
  · rename_i hlt
    exact dmaOne_rule rfl (entryAt_base hlt) (by decide) rfl
  · rename_i hge
    exact dmaOne_rule rfl (entryAt_expn (Nat.le_of_not_lt hge) h) (by decide) rfl

theorem dmaOne_enableCmd {e : Nat} (h : e < c.size) :
    dmaOne c (enableCmd c e) =
      some (c.modifyRule e fun r => { r with enable := true }) := by
  unfold enableCmd
  split
  · rename_i hlt
    exact dmaOne_rule rfl (entryAt_base hlt) (by decide) rfl
  · rename_i hge
    exact dmaOne_rule rfl (entryAt_expn (Nat.le_of_not_lt hge) h) (by decide) rfl

theorem dmaOne_indexNextFieldCmd (value : Nat) {prev : Nat} (h : prev < c.size) :
    dmaOne c (indexNextFieldCmd c prev value) =
      some (c.modifyIndex prev fun r => { r with nextIndex := value }) := by
  unfold indexNextFieldCmd
  split
  · rename_i hlt
    exact dmaOne_indexRule rfl (entryAt_base hlt) (by decide) rfl
  · rename_i hge
    exact dmaOne_indexRule rfl (entryAt_expn (Nat.le_of_not_lt hge) h) (by decide) rfl

theorem dmaOne_indxTbl_tblEntry (value : Nat) {i : Nat} (h : i < c.tableEntries) :
    dmaOne c ⟨.indxTbl, getIndexEntryOffset i + indexRuleNatIndexFieldOffset, value⟩ =
      some (c.modifyIndex i fun r => { r with tblEntry := value }) :=
  dmaOne_indexRule rfl (entryAt_base h) (by decide) rfl

theorem dmaOne_indxTbl_nextIndex (value : Nat) {i : Nat} (h : i < c.tableEntries) :
    dmaOne c ⟨.indxTbl, getIndexEntryOffset i + indexRuleNextFieldOffset, value⟩ =
      some (c.modifyIndex i fun r => { r with nextIndex := value }) :=
  dmaOne_indexRule rfl (entryAt_base h) (by decide) rfl

theorem indexNextFieldCmd_offset {prev value : Nat} (hE : c.expnTableEntries ≤ 2 ^ 14)
    (h : prev < c.size) (hok : prev < 2 ^ 14 ∨ c.tableEntries ≤ prev) :
    (indexNextFieldCmd c prev value).offset % 2 ^ 16 =
      (indexNextFieldCmd c prev value).offset := by
  unfold indexNextFieldCmd getIndexEntryOffset indexRuleNextFieldOffset size at *
  split <;> exact Nat.mod_eq_of_lt (by simp only; omega)

theorem dmaOne_index {d : DmaOne} (hd : d.baseAddr.isIndex = true)
    (h : dmaOne c d = some c') : c' = { c with index := c'.index } := by
  simp only [dmaOne, hd, if_true, Option.pure_def, Option.bind_eq_bind,
    Option.bind_eq_some_iff] at h
  obtain ⟨i, -, r, -, h⟩ := h
  cases h
  rfl

theorem isIndex_indexNextFieldCmd (prev value : Nat) :
    (indexNextFieldCmd c prev value).baseAddr.isIndex = true := by
  unfold indexNextFieldCmd
  split <;> rfl

theorem isIndex_nextFieldCmd (prev value : Nat) :
    (nextFieldCmd c prev value).baseAddr.isIndex = false := by
  unfold nextFieldCmd
  split <;> rfl

theorem dmaAll_index {cmds : List DmaOne} (hd : ∀ d ∈ cmds, d.baseAddr.isIndex = true)
    (h : dmaAll c cmds = some c') : c' = { c with index := c'.index } := by
  induction cmds generalizing c with
  | nil =>
    cases h
    rfl
  | cons d cmds ih =>
    simp only [dmaAll, List.foldlM_cons, Option.bind_eq_bind, Option.bind_eq_some_iff] at h
    obtain ⟨c₁, h₁, h₂⟩ := h
    have hfirst := dmaOne_index (hd d List.mem_cons_self) h₁
    have hrest := ih (fun d' hd' => hd d' (List.mem_cons_of_mem d hd')) h₂
    rw [hrest, hfirst]

end EtherDevice.IpaNati
