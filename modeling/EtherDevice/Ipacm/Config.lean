import EtherDevice.Lib.CountedArray
import EtherDevice.Lib.Transition
import Mathlib.Data.List.Induction

/-!
# Two tables of the configuration

`IPACM_Config` keeps the private subnets in an array of fixed size, and the interfaces with
NAT in an array as long as the interface table. Both are appended to and compacted while the
program runs. Next to each table runs the list that it stands for.

The event that is posted after a change of the subnets comes when the table is done, and is
left out.
-/

namespace EtherDevice.Ipacm.Config

open Lib

structure Subnet where
  subnetAddr : BitVec 32
  subnetMask : BitVec 32
  deriving DecidableEq, Repr

def Subnet.contains (entry : Subnet) (ipAddr : BitVec 32) : Bool :=
  entry.subnetAddr == (entry.subnetMask &&& ipAddr)

def Subnet.hasAddr (ipAddr : BitVec 32) (entry : Subnet) : Bool := entry.subnetAddr == ipAddr

def maxPrivateSubnetEntries : Nat := 3

def Subnet.ofAddr (ipAddr : BitVec 32) : Subnet := ⟨ipAddr, (BitVec.allOnes 32 >>> 8) <<< 8⟩

structure Subnets where
  table : Nat → Subnet
  num : Nat

namespace Subnets

variable (s : Subnets)

def isPrivateSubnet (ipAddr : BitVec 32) : Bool :=
  (List.range s.num).any fun cnt => (s.table cnt).contains ipAddr

def addPrivateSubnet (ipAddr : BitVec 32) : Bool × Subnets :=
  if (List.range s.num).any fun cnt => (s.table cnt).hasAddr ipAddr then (true, s)
  else if s.num < maxPrivateSubnetEntries then
    (true, ⟨Function.update s.table s.num (.ofAddr ipAddr), s.num + 1⟩)
  else (false, s)

def moveAddr (entry next : Subnet) : Subnet := { entry with subnetAddr := next.subnetAddr }

def delPrivateSubnet (ipAddr : BitVec 32) : Bool × Subnets :=
  match firstBelow (Subnet.hasAddr ipAddr) s.table s.num with
  | none => (false, s)
  | some cnt => (true, ⟨moveDown moveAddr s.table cnt (s.num - 1 - cnt), s.num - 1⟩)

end Subnets

inductive SubnetOp
  | add (ipAddr : BitVec 32)
  | del (ipAddr : BitVec 32)
  deriving DecidableEq, Repr

/-- The table, and the pairs that were configured or added and not deleted since. An address that
has a pair is not added again. -/
structure SubnetRun where
  subnets : Subnets
  pairs : List Subnet

namespace SubnetRun

variable {s : SubnetRun}

/-- `Init` copies the pairs of the configuration file. -/
def load (configured : List Subnet) : SubnetRun :=
  ⟨⟨fun i => configured.getD i ⟨0, 0⟩, configured.length⟩, configured⟩

def exec (s : SubnetRun) : SubnetOp → SubnetRun
  | .add ipAddr =>
    { subnets := (s.subnets.addPrivateSubnet ipAddr).2
      pairs :=
        if s.pairs.any (Subnet.hasAddr ipAddr) ∨ maxPrivateSubnetEntries ≤ s.pairs.length then
          s.pairs
        else s.pairs ++ [.ofAddr ipAddr] }
  | .del ipAddr =>
    { subnets := (s.subnets.delPrivateSubnet ipAddr).2
      pairs := s.pairs.eraseP (Subnet.hasAddr ipAddr) }

def system (configured : List Subnet) : System SubnetRun SubnetOp :=
  .ofFunction (· = load configured) (fun _ _ => True) exec

/-- The addresses that are private are those in a pair, and the table is not overrun. -/
def Truthful (s : SubnetRun) : Prop :=
  (∀ ipAddr, s.subnets.isPrivateSubnet ipAddr = true ↔
    ∃ entry ∈ s.pairs, entry.contains ipAddr = true) ∧
  s.subnets.num ≤ maxPrivateSubnetEntries

/-- Behind an entry that is deleted all masks are like its own. -/
def MasksAgree (s : SubnetRun) : SubnetOp → Prop
  | .add _ => True
  | .del ipAddr =>
    ∀ cnt, firstBelow (Subnet.hasAddr ipAddr) s.subnets.table s.subnets.num = some cnt →
      ∀ i, cnt ≤ i → i + 1 < s.subnets.num →
        (s.subnets.table (i + 1)).subnetMask = (s.subnets.table i).subnetMask

def Stored (s : SubnetRun) : Prop := below s.subnets.table s.subnets.num = s.pairs

theorem stored_load (configured : List Subnet) : Stored (load configured) := by
  refine List.ext_getElem? fun i => ?_
  by_cases hi : i < configured.length
  · grind [load, getElem?_below]
  simp [load, hi]

theorem Stored.num_eq (h : Stored s) : s.subnets.num = s.pairs.length := by
  rw [← h, length_below]

theorem Stored.truthful (h : Stored s) (hnum : s.subnets.num ≤ maxPrivateSubnetEntries) :
    Truthful s := by
  refine ⟨fun ipAddr => ?_, hnum⟩
  rw [Subnets.isPrivateSubnet, any_range_eq_any_below s.subnets.table (·.contains ipAddr), h,
    List.any_eq_true]

theorem below_addPrivateSubnet (s : Subnets) (ipAddr : BitVec 32) :
    below (s.addPrivateSubnet ipAddr).2.table (s.addPrivateSubnet ipAddr).2.num =
      if (below s.table s.num).any (Subnet.hasAddr ipAddr) ∨ maxPrivateSubnetEntries ≤ s.num then
        below s.table s.num
      else below s.table s.num ++ [.ofAddr ipAddr] := by
  unfold Subnets.addPrivateSubnet
  rw [any_range_eq_any_below s.table (Subnet.hasAddr ipAddr)]
  by_cases hlisted : (below s.table s.num).any (Subnet.hasAddr ipAddr) = true
  · rw [if_pos hlisted, if_pos (.inl hlisted)]
  rw [if_neg hlisted]
  by_cases hroom : s.num < maxPrivateSubnetEntries
  · simp [below_update, hroom, hlisted]
  · rw [if_neg hroom, if_pos (.inr (Nat.le_of_not_lt hroom))]

theorem Stored.add (h : Stored s) (ipAddr : BitVec 32) : Stored (s.exec (.add ipAddr)) := by
  have hrows := below_addPrivateSubnet s.subnets ipAddr
  rw [show below s.subnets.table s.subnets.num = s.pairs from h, h.num_eq] at hrows
  exact hrows

theorem moveAddr_eq_iff (entry next : Subnet) :
    Subnets.moveAddr entry next = next ↔ next.subnetMask = entry.subnetMask := by
  cases entry
  cases next
  simp [Subnets.moveAddr, eq_comm]

theorem below_moveDown_iff (table : Nat → Subnet) {num cnt : Nat} (hcnt : cnt < num) :
    below (moveDown Subnets.moveAddr table cnt (num - 1 - cnt)) (num - 1) =
        (below table num).eraseIdx cnt ↔
      ∀ i, cnt ≤ i → i + 1 < num → (table (i + 1)).subnetMask = (table i).subnetMask := by
  constructor
  · intro hrows i hle hlt
    have hrow := congrArg (·[i]?) hrows
    rw [getElem?_below (by omega), List.getElem?_eraseIdx, if_neg (by omega), getElem?_below hlt,
      moveDown_apply, if_pos (by omega)] at hrow
    exact (moveAddr_eq_iff _ _).mp (Option.some.inj hrow)
  · intro hmasks
    refine below_eraseIdx hcnt (fun j hj => ?_) fun j hle hlt => ?_
    · rw [moveDown_apply, if_neg (by omega)]
    · rw [moveDown_apply, if_pos (by omega)]
      exact (moveAddr_eq_iff _ _).mpr (hmasks j hle hlt)

theorem stored_del_iff (h : Stored s) (ipAddr : BitVec 32) :
    Stored (s.exec (.del ipAddr)) ↔ s.MasksAgree (.del ipAddr) := by
  have hrows : below s.subnets.table s.subnets.num = s.pairs := h
  unfold MasksAgree
  dsimp only
  cases hfirst : firstBelow (Subnet.hasAddr ipAddr) s.subnets.table s.subnets.num with
  | none =>
    have hsame : s.exec (.del ipAddr) = s := by
      have hkept := eraseP_of_firstBelow_none hfirst
      rw [hrows] at hkept
      unfold exec Subnets.delPrivateSubnet
      dsimp only
      rw [hfirst, hkept]
    simp [hsame, h]
  | some cnt =>
    grind [eraseP_of_firstBelow, exec, Subnets.delPrivateSubnet, Stored, below_moveDown_iff,
      firstBelow_eq_some]

theorem num_exec_le (hnum : s.subnets.num ≤ maxPrivateSubnetEntries)
    (op : SubnetOp) : (s.exec op).subnets.num ≤ maxPrivateSubnetEntries := by
  cases op with
  | add ipAddr =>
    grind [SubnetRun.exec, Subnets.addPrivateSubnet]
  | del ipAddr =>
    unfold SubnetRun.exec Subnets.delPrivateSubnet
    dsimp only
    split
    · exact hnum
    · exact Nat.le_trans (Nat.sub_le _ _) hnum

theorem stored_invariant (configured : List Subnet)
    (hfits : configured.length ≤ maxPrivateSubnetEntries) :
    ((system configured).restrict MasksAgree).Invariant fun s =>
      Stored s ∧ s.subnets.num ≤ maxPrivateSubnetEntries := by
  refine .of_restrict ?_ ?_
  · rintro s rfl
    exact ⟨stored_load configured, hfits⟩
  · rintro s op s' ⟨hstored, hnum⟩ hmasks ⟨-, rfl⟩
    refine ⟨?_, num_exec_le hnum op⟩
    cases op with
    | add ipAddr => exact hstored.add ipAddr
    | del ipAddr => exact (stored_del_iff hstored ipAddr).mpr hmasks

/-- The private addresses are told truly in every such run, for the configurations that fit into
the table and for no other. -/
theorem truthful_iff_configured_fits (configured : List Subnet) :
    (∀ s, ((system configured).restrict MasksAgree).Reachable s → Truthful s) ↔
      configured.length ≤ maxPrivateSubnetEntries := by
  constructor
  · intro htruthful
    exact (htruthful _ (.init rfl)).2
  · intro hfits s hs
    obtain ⟨hstored, hnum⟩ := (stored_invariant configured hfits).reachable hs
    exact hstored.truthful hnum

/-- A deletion before an entry of another mask gives that entry the wrong mask: of 10.0.0.0/8 only
10.0.0.0/24 is left. -/
theorem not_truthful_middle : ¬ ∀ configured : List Subnet,
    configured.length ≤ maxPrivateSubnetEntries →
      ∀ s, (system configured).Reachable s → Truthful s := by
  intro htruthful
  let configured : List Subnet := [⟨0xC0A8E100, 0xFFFFFF00⟩, ⟨0x0A000000, 0xFF000000⟩]
  have hs : (system configured).Reachable ((load configured).exec (.del 0xC0A8E100)) :=
    .step (.init rfl) ⟨trivial, rfl⟩
  have hprivate := ((htruthful configured (by decide) _ hs).1 0x0A010203).mpr
    ⟨⟨0x0A000000, 0xFF000000⟩, by decide, by decide⟩
  exact absurd hprivate (by decide)

end SubnetRun

abbrev IfaceName := List UInt8

structure NatIfaces where
  ifaces : Nat → IfaceName := fun _ => []
  entries : Nat := 0
  /-- the indices that were read or written -/
  touched : List Nat := []

namespace NatIfaces

variable {s : NatIfaces} {num : Nat}

def addNatIfaces (num : Nat) (s : NatIfaces) (devName : IfaceName) : NatIfaces :=
  let s := { s with entries := s.entries + 1 }
  if s.entries < num then
    { s with
      ifaces := Function.update s.ifaces (s.entries - 1) devName
      touched := (s.entries - 1) :: s.touched }
  else s

def copyDown (s : NatIfaces) (i : Nat) : NatIfaces :=
  { s with
    ifaces := Function.update (Function.update s.ifaces i (s.ifaces (i + 1))) (i + 1) []
    touched := i :: (i + 1) :: s.touched }

def delNatIfaces (s : NatIfaces) (devName : IfaceName) : NatIfaces :=
  match firstBelow (devName == ·) s.ifaces s.entries with
  | none => { s with touched := List.range s.entries ++ s.touched }
  | some i =>
    let s := { s with
      ifaces := Function.update s.ifaces i []
      touched := List.range (i + 1) ++ s.touched }
    let s := (List.range' i (s.entries - 1 - i)).foldl copyDown s
    { s with entries := s.entries - 1 }

def getNatIfaces (s : NatIfaces) (nIfaces : Nat) : Option (List IfaceName) × NatIfaces :=
  if nIfaces = 0 then (none, s)
  else (some (below s.ifaces nIfaces), { s with touched := List.range nIfaces ++ s.touched })

end NatIfaces

/-- `get` is the update of the listener, for `GetNatIfacesCnt` interfaces. -/
inductive NatIfaceOp
  | add (devName : IfaceName)
  | del (devName : IfaceName)
  | get
  deriving DecidableEq, Repr

/-- The table, and the interfaces that were stored and not deleted since. -/
structure NatIfaceRun where
  table : NatIfaces := {}
  added : List IfaceName := []

namespace NatIfaceRun

variable {s : NatIfaceRun} {num : Nat}

def HasRoom (num : Nat) (s : NatIfaceRun) : Prop := s.table.entries + 1 < num

instance : Decidable (HasRoom num s) := by
  unfold HasRoom
  infer_instance

def exec (num : Nat) (s : NatIfaceRun) : NatIfaceOp → NatIfaceRun
  | .add devName =>
    { table := s.table.addNatIfaces num devName
      added := if HasRoom num s then s.added ++ [devName] else s.added }
  | .del devName =>
    { table := s.table.delNatIfaces devName
      added := s.added.eraseP (devName == ·) }
  | .get => { s with table := (s.table.getNatIfaces s.table.entries).2 }

def run (num : Nat) (ops : List NatIfaceOp) : NatIfaceRun := ops.foldl (exec num) {}

/-- The count is within the table, no index was out of it, and the first entries are what was
added. -/
structure Kept (num : Nat) (s : NatIfaceRun) : Prop where
  entries : s.table.entries ≤ num
  touched : ∀ i ∈ s.table.touched, i < num
  stored : below s.table.ifaces s.table.entries = s.added

theorem exec_add_of_hasRoom (hroom : HasRoom num s) (devName : IfaceName) :
    s.exec num (.add devName) =
      { table :=
          { ifaces := Function.update s.table.ifaces s.table.entries devName
            entries := s.table.entries + 1
            touched := s.table.entries :: s.table.touched }
        added := s.added ++ [devName] } := by
  unfold exec NatIfaces.addNatIfaces
  dsimp only
  rw [if_pos hroom, if_pos (show s.table.entries + 1 < num from hroom), Nat.add_sub_cancel]

theorem exec_add_of_not_hasRoom (hroom : ¬ HasRoom num s) (devName : IfaceName) :
    s.exec num (.add devName) =
      { s with table := { s.table with entries := s.table.entries + 1 } } := by
  unfold exec NatIfaces.addNatIfaces
  dsimp only
  rw [if_neg hroom, if_neg (show ¬ s.table.entries + 1 < num from hroom)]

theorem Kept.add (h : Kept num s) (hroom : HasRoom num s) (devName : IfaceName) :
    Kept num (s.exec num (.add devName)) := by
  rw [exec_add_of_hasRoom hroom]
  unfold HasRoom at hroom
  refine ⟨Nat.le_of_lt hroom, fun i hi => ?_, ?_⟩
  · rcases List.mem_cons.mp hi with rfl | hold
    · omega
    · exact h.touched i hold
  · rw [below_update, h.stored]

theorem not_kept_add (h : Kept num s) (hroom : ¬ HasRoom num s) (devName : IfaceName) :
    ¬ Kept num (s.exec num (.add devName)) := by
  rw [exec_add_of_not_hasRoom hroom]
  intro hkept
  have hnew := congrArg List.length hkept.stored
  have hold := congrArg List.length h.stored
  simp_all

theorem copyDown_ifaces_self (t : NatIfaces) (i : Nat) :
    (t.copyDown i).ifaces i = t.ifaces (i + 1) := by
  show Function.update (Function.update t.ifaces i _) (i + 1) [] i = _
  rw [Function.update_of_ne (by omega), Function.update_self]

theorem copyDown_ifaces_of_ne (t : NatIfaces) {i j : Nat} (hi : j ≠ i) (hnext : j ≠ i + 1) :
    (t.copyDown i).ifaces j = t.ifaces j := by
  show Function.update (Function.update t.ifaces i _) (i + 1) [] j = _
  rw [Function.update_of_ne hnext, Function.update_of_ne hi]

theorem foldl_copyDown (s : NatIfaces) (i k : Nat) :
    ∃ s', (List.range' i k).foldl NatIfaces.copyDown s = s' ∧ s'.entries = s.entries ∧
      (∀ j, i ≤ j → j < i + k → s'.ifaces j = s.ifaces (j + 1)) ∧
      (∀ j, j < i → s'.ifaces j = s.ifaces j) ∧
      (∀ j ∈ s'.touched, j ∈ s.touched ∨ j ≤ i + k) := by
  induction k generalizing s i with
  | zero =>
    exact ⟨s, rfl, rfl, fun j _ _ => by omega, fun _ _ => rfl, fun j hj => .inl hj⟩
  | succ k ih =>
    obtain ⟨s', hs', hentries, hmoved, hbefore, htouched⟩ := ih (s.copyDown i) (i + 1)
    refine ⟨s', ?_, hentries, fun j hle hlt => ?_, fun j hj => ?_, fun j hj => ?_⟩
    · rw [List.range'_succ, List.foldl_cons, hs']
    · grind [copyDown_ifaces_self, copyDown_ifaces_of_ne]
    · rw [hbefore j (by omega), copyDown_ifaces_of_ne _ (by omega) (by omega)]
    · rcases htouched j hj with hold | hle
      · rcases List.mem_cons.mp hold with rfl | hold
        · exact .inr (by omega)
        rcases List.mem_cons.mp hold with rfl | hold
        · exact .inr (by omega)
        exact .inl hold
      · exact .inr (by omega)

theorem Kept.del (h : Kept num s) (devName : IfaceName) :
    Kept num (s.exec num (.del devName)) := by
  have hentries := h.entries
  unfold exec NatIfaces.delNatIfaces
  dsimp only
  cases hfirst : firstBelow (devName == ·) s.table.ifaces s.table.entries with
  | none =>
    refine ⟨h.entries, fun i hi => ?_, ?_⟩
    · rcases List.mem_append.mp hi with hread | hold
      · exact Nat.lt_of_lt_of_le (List.mem_range.mp hread) hentries
      · exact h.touched i hold
    · rw [← h.stored, eraseP_of_firstBelow_none hfirst]
  | some i =>
    obtain ⟨hi, -, -⟩ := firstBelow_eq_some hfirst
    dsimp only
    let cleared : NatIfaces := { s.table with
      ifaces := Function.update s.table.ifaces i []
      touched := List.range (i + 1) ++ s.table.touched }
    have hcleared : ∀ j, j ≠ i → cleared.ifaces j = s.table.ifaces j :=
      fun j hj => Function.update_of_ne hj _ _
    obtain ⟨t, ht, hkept, hmoved, hbefore, htouched⟩ :=
      foldl_copyDown cleared i (s.table.entries - 1 - i)
    rw [show (List.range' i (s.table.entries - 1 - i)).foldl NatIfaces.copyDown _ = t from ht]
    have hcount : t.entries = s.table.entries := hkept
    refine ⟨?_, fun j hj => ?_, ?_⟩
    · dsimp only
      omega
    · rcases htouched j hj with hold | hle
      · rcases List.mem_append.mp hold with hread | hold
        · have hle := List.mem_range.mp hread
          omega
        · exact h.touched j hold
      · omega
    · rw [← h.stored, eraseP_of_firstBelow hfirst]
      grind [below_eraseIdx]

theorem Kept.get (h : Kept num s) : Kept num (s.exec num .get) := by
  unfold exec NatIfaces.getNatIfaces
  dsimp only
  split_ifs with hnone
  · exact h
  · refine ⟨h.entries, fun i hi => ?_, h.stored⟩
    rcases List.mem_append.mp hi with hread | hold
    · exact Nat.lt_of_lt_of_le (List.mem_range.mp hread) h.entries
    · exact h.touched i hold

/-- Every interface that is added finds room. -/
def AddsHaveRoom (num : Nat) (ops : List NatIfaceOp) : Prop :=
  ∀ pre devName, pre ++ [.add devName] <+: ops → HasRoom num (run num pre)

theorem run_append (num : Nat) (ops : List NatIfaceOp) (op : NatIfaceOp) :
    run num (ops ++ [op]) = (run num ops).exec num op := by
  simp [run]

/-- The table is kept in all states of a run exactly when every interface that is added finds
room. -/
theorem kept_iff_addsHaveRoom (num : Nat) (ops : List NatIfaceOp) :
    (∀ pre, pre <+: ops → Kept num (run num pre)) ↔ AddsHaveRoom num ops := by
  constructor
  · intro hkept pre devName hpre
    grind [List.prefix_append, run_append, not_kept_add]
  · intro hroom pre
    induction pre using List.reverseRecOn with
    | nil =>
      intro _
      exact ⟨Nat.zero_le _, fun _ hi => absurd hi List.not_mem_nil, rfl⟩
    | append_singleton pre op ih =>
      intro hpre
      have hbefore := ih ((List.prefix_append _ _).trans hpre)
      rw [run_append]
      cases op with
      | add devName => exact hbefore.add (hroom pre devName hpre) devName
      | del devName => exact hbefore.del devName
      | get => exact hbefore.get

/-- In a table for three interfaces a third one is not stored, but counted. -/
theorem not_kept_third :
    ¬ ∀ (num : Nat) (ops : List NatIfaceOp) (pre : List NatIfaceOp),
      pre <+: ops → Kept num (run num pre) := by
  intro hkept
  let ops : List NatIfaceOp := [.add [0x61], .add [0x62], .add [0x63]]
  have hstored := (hkept 3 ops ops (List.prefix_refl _)).stored
  exact absurd hstored (by decide)

end NatIfaceRun

end EtherDevice.Ipacm.Config
