import Mathlib
import EtherDevice.Lib.OwnedRows
import EtherDevice.Lib.Transition

/-!
# Resource manager dependencies

`AddRmDepend` and `DelRmDepend` of `IPACM_Config.cpp`. Each row of `ipa_rm_tbl` names a
producer and a consumer whose ups and downs are followed; while both are up the row has its
two dependencies in the kernel, one in each direction. The first is left out for a producer
that bypasses the hardware.

`rx_bypass_ipa` is written by every `AddRmDepend` of the producer, also when the row is set.
`setBypass` remembers the value with which the row was set up. `Kept` is the condition on a
step that `DelRmDepend` does not leave out a dependency that is there.
-/

namespace EtherDevice.Ipacm

open Lib

inductive Resource where
  | q6Prod
  | usbProd
  | hsicProd
  | wlanProd
  | q6Cons
  | usbCons
  | wlanCons
  | other (name : Nat)
deriving DecidableEq

abbrev RmDependency := Resource × Resource

structure RmClient where
  producerRm1 : Resource
  consumerRm1 : Resource
  producerRm2 : Resource
  consumerRm2 : Resource
  producer1Up : Bool := false
  consumer1Up : Bool := false
  rmSet : Bool := false
  rxBypassIpa : Bool := false
  /-- The value of `rx_bypass_ipa` when `rm_set` became true. -/
  setBypass : Bool := false
deriving DecidableEq

namespace RmClient

variable (row : RmClient)

def forward : RmDependency := (row.producerRm1, row.consumerRm1)

def backward : RmDependency := (row.producerRm2, row.consumerRm2)

/-! ## One row -/

def setup (kernel : Finset RmDependency) : RmClient × Finset RmDependency :=
  let kernel' := if row.rxBypassIpa then kernel else insert row.forward kernel
  ({ row with rmSet := true, setBypass := row.rxBypassIpa }, insert row.backward kernel')

def teardown (kernel : Finset RmDependency) : RmClient × Finset RmDependency :=
  let kernel' := if row.rxBypassIpa then kernel else kernel.erase row.forward
  ({ row with rmSet := false }, kernel'.erase row.backward)

def addProducer (rxBypassIpa : Bool) (kernel : Finset RmDependency) :
    RmClient × Finset RmDependency :=
  let row' := { row with producer1Up := true, rxBypassIpa := rxBypassIpa }
  if row'.consumer1Up = true ∧ row'.rmSet = false then row'.setup kernel else (row', kernel)

def addConsumer (kernel : Finset RmDependency) : RmClient × Finset RmDependency :=
  let row' := { row with consumer1Up := true }
  if row'.producer1Up = true ∧ row'.rmSet = false then row'.setup kernel else (row', kernel)

def addRm (rm1 : Resource) (rxBypassIpa : Bool) (kernel : Finset RmDependency) :
    RmClient × Finset RmDependency :=
  let visited :=
    if rm1 = row.producerRm1 then row.addProducer rxBypassIpa kernel else (row, kernel)
  if rm1 = row.consumerRm1 then visited.1.addConsumer visited.2 else visited

def down (kernel : Finset RmDependency) : RmClient × Finset RmDependency :=
  if row.rmSet then row.teardown kernel else (row, kernel)

def delProducer (kernel : Finset RmDependency) : RmClient × Finset RmDependency :=
  let down := row.down kernel
  ({ down.1 with producer1Up := false, rxBypassIpa := false }, down.2)

def delConsumer (a2Check : Int) (kernel : Finset RmDependency) :
    RmClient × Finset RmDependency :=
  -- there is still a default route to the modem
  if row.consumerRm1 = .q6Cons ∧ a2Check = 1 then (row, kernel)
  else
    let down := row.down kernel
    ({ down.1 with consumer1Up := false }, down.2)

def delRm (rm1 : Resource) (a2Check : Int) (kernel : Finset RmDependency) :
    RmClient × Finset RmDependency :=
  let visited := if rm1 = row.producerRm1 then row.delProducer kernel else (row, kernel)
  if rm1 = row.consumerRm1 then visited.1.delConsumer a2Check visited.2 else visited

/-! ## What a row owns -/

def own : Finset RmDependency := {row.forward, row.backward}

def shown : Finset RmDependency :=
  if row.rmSet then if row.setBypass then {row.backward} else {row.forward, row.backward} else ∅

def SetRight : Prop := row.rmSet = (row.producer1Up && row.consumer1Up)

end RmClient

/-! ## The table -/

/-- The part of `IPACM_Config` that follows the resources, and the kernel. -/
structure RmConfig where
  ipaRmTbl : List RmClient
  ipaRmA2Check : Int := 0
  kernel : Finset RmDependency := ∅
deriving DecidableEq

namespace RmConfig

variable (c : RmConfig)

def addRmDepend (rm1 : Resource) (rxBypassIpa : Bool) : RmConfig :=
  let walked := OwnedRows.walk (fun row => row.addRm rm1 rxBypassIpa) c.ipaRmTbl c.kernel
  { ipaRmTbl := walked.1
    ipaRmA2Check := if rm1 = .q6Cons then c.ipaRmA2Check + 1 else c.ipaRmA2Check
    kernel := walked.2 }

def a2CheckLeft (rm1 : Resource) : Int :=
  if rm1 = .q6Cons then c.ipaRmA2Check - 1 else c.ipaRmA2Check

def delRmDepend (rm1 : Resource) : RmConfig :=
  let walked := OwnedRows.walk (fun row => row.delRm rm1 (c.a2CheckLeft rm1)) c.ipaRmTbl c.kernel
  { ipaRmTbl := walked.1, ipaRmA2Check := c.a2CheckLeft rm1, kernel := walked.2 }

/-- The rows that `Init` fills in; the loops visit no others. -/
def init : RmConfig where
  ipaRmTbl := [
    { producerRm1 := .wlanProd, consumerRm1 := .q6Cons,
      producerRm2 := .q6Prod, consumerRm2 := .wlanCons },
    { producerRm1 := .usbProd, consumerRm1 := .q6Cons,
      producerRm2 := .q6Prod, consumerRm2 := .usbCons },
    { producerRm1 := .wlanProd, consumerRm1 := .usbCons,
      producerRm2 := .usbProd, consumerRm2 := .wlanCons }]

inductive Op where
  | addRmDepend (rm1 : Resource) (rxBypassIpa : Bool)
  | delRmDepend (rm1 : Resource)
deriving DecidableEq

def exec (c : RmConfig) : Op → RmConfig
  | .addRmDepend rm1 rxBypassIpa => c.addRmDepend rm1 rxBypassIpa
  | .delRmDepend rm1 => c.delRmDepend rm1

def system : System RmConfig Op :=
  .ofFunction (fun c => c = init) (fun _ _ => True) exec

end RmConfig

/-! ## What a visit touches -/

namespace RmClient

variable {row : RmClient} {kernel : Finset RmDependency} {rm1 : Resource} {rxBypassIpa : Bool}
  {a2Check : Int} {dep : RmDependency}

theorem mem_own : dep ∈ row.own ↔ dep = row.forward ∨ dep = row.backward := by
  simp [own]

structure Touches (row : RmClient) (kernel : Finset RmDependency)
    (out : RmClient × Finset RmDependency) : Prop where
  forward : out.1.forward = row.forward
  backward : out.1.backward = row.backward
  frame : ∀ dep ∉ row.own, dep ∈ out.2 ↔ dep ∈ kernel

theorem Touches.own {out : RmClient × Finset RmDependency} (h : row.Touches kernel out) :
    out.1.own = row.own := by
  unfold RmClient.own
  rw [h.forward, h.backward]

theorem Touches.flags {row' : RmClient} (hforward : row'.forward = row.forward)
    (hbackward : row'.backward = row.backward) : row.Touches kernel (row', kernel) :=
  ⟨hforward, hbackward, fun _ _ => Iff.rfl⟩

theorem Touches.refl (row : RmClient) (kernel : Finset RmDependency) :
    row.Touches kernel (row, kernel) :=
  .flags rfl rfl

theorem Touches.trans {out out' : RmClient × Finset RmDependency} (h : row.Touches kernel out)
    (h' : out.1.Touches out.2 out') : row.Touches kernel out' where
  forward := h'.forward.trans h.forward
  backward := h'.backward.trans h.backward
  frame dep hdep := (h'.frame dep (h.own ▸ hdep)).trans (h.frame dep hdep)

theorem setup_touches : row.Touches kernel (row.setup kernel) := by
  refine ⟨rfl, rfl, fun dep hdep => ?_⟩
  rw [mem_own, not_or] at hdep
  simp only [setup, Finset.mem_insert]
  split
  · exact or_iff_right hdep.2
  simp [hdep]

theorem teardown_touches : row.Touches kernel (row.teardown kernel) := by
  refine ⟨rfl, rfl, fun dep hdep => ?_⟩
  rw [mem_own, not_or] at hdep
  simp only [teardown, Finset.mem_erase]
  split
  · exact and_iff_right hdep.2
  simp [hdep]

theorem addProducer_touches : row.Touches kernel (row.addProducer rxBypassIpa kernel) := by
  have hup : row.Touches kernel
      ({ row with producer1Up := true, rxBypassIpa := rxBypassIpa }, kernel) := .flags rfl rfl
  unfold addProducer
  dsimp only
  split
  · exact hup.trans setup_touches
  · exact hup

theorem addConsumer_touches : row.Touches kernel (row.addConsumer kernel) := by
  have hup : row.Touches kernel ({ row with consumer1Up := true }, kernel) := .flags rfl rfl
  unfold addConsumer
  dsimp only
  split
  · exact hup.trans setup_touches
  · exact hup

theorem addRm_touches : row.Touches kernel (row.addRm rm1 rxBypassIpa kernel) := by
  have hproducer : row.Touches kernel
      (if rm1 = row.producerRm1 then row.addProducer rxBypassIpa kernel else (row, kernel)) := by
    split
    · exact addProducer_touches
    · exact .refl row kernel
  unfold addRm
  dsimp only
  split
  · exact hproducer.trans addConsumer_touches
  · exact hproducer

theorem down_touches : row.Touches kernel (row.down kernel) := by
  unfold down
  split
  · exact teardown_touches
  · exact .refl row kernel

theorem delProducer_touches : row.Touches kernel (row.delProducer kernel) :=
  down_touches.trans (.flags rfl rfl)

theorem delConsumer_touches : row.Touches kernel (row.delConsumer a2Check kernel) := by
  unfold delConsumer
  split
  · exact .refl row kernel
  · exact down_touches.trans (.flags rfl rfl)

theorem delRm_touches : row.Touches kernel (row.delRm rm1 a2Check kernel) := by
  have hproducer : row.Touches kernel
      (if rm1 = row.producerRm1 then row.delProducer kernel else (row, kernel)) := by
    split
    · exact delProducer_touches
    · exact .refl row kernel
  unfold delRm
  dsimp only
  split
  · exact hproducer.trans delConsumer_touches
  · exact hproducer

theorem addRm_local : OwnedRows.Local own fun row => row.addRm rm1 rxBypassIpa :=
  ⟨fun _ _ => addRm_touches.own, fun _ _ => addRm_touches.frame⟩

theorem delRm_local : OwnedRows.Local own fun row => row.delRm rm1 a2Check :=
  ⟨fun _ _ => delRm_touches.own, fun _ _ => delRm_touches.frame⟩

/-! ## What a visit makes of its row -/

theorem shown_subset : row.shown ⊆ row.own := by
  grind [shown, mem_own]

abbrev KernelRight (row : RmClient) (kernel : Finset RmDependency) : Prop :=
  OwnedRows.Right own shown row kernel

theorem KernelRight.flags {row' : RmClient} (h : row.KernelRight kernel)
    (hown : row'.own = row.own) (hshown : row'.shown = row.shown) : row'.KernelRight kernel := by
  intro dep hdep
  rw [hshown]
  exact h dep (hown ▸ hdep)

theorem setup_kernelRight (h : row.KernelRight kernel) (hset : row.rmSet = false) :
    (row.setup kernel).1.KernelRight (row.setup kernel).2 := by
  have habsent : ∀ dep ∈ row.own, dep ∉ kernel := by
    intro dep hdep hmem
    have hshown := (h dep hdep).mp hmem
    simp [shown, hset] at hshown
  intro dep hdep
  have hown : dep ∈ row.own := hdep
  have hnot := habsent dep hown
  simp only [setup, shown]
  split
  · rename_i hbypass
    simp only [hbypass, hnot, if_true, Finset.mem_insert, or_false, Finset.mem_singleton]
    exact Iff.rfl
  simp_all [forward, backward, or_comm]

theorem teardown_kernelRight (h : row.KernelRight kernel) (hset : row.rmSet = true)
    (hkept : row.setBypass = false → row.rxBypassIpa = false) :
    (row.teardown kernel).1.KernelRight (row.teardown kernel).2 := by
  intro dep hdep
  have hown : dep ∈ row.own := hdep
  have hdep' := mem_own.mp hown
  have hright := h dep hown
  simp only [teardown, shown, Bool.false_eq_true, if_false, Finset.notMem_empty, iff_false]
  cases hbypass : row.rxBypassIpa with
  | false => simpa using fun h1 h2 => absurd hdep' (not_or.mpr ⟨h2, h1⟩)
  | true =>
    simp_all [shown]

theorem addProducer_kernelRight (h : row.KernelRight kernel) :
    (row.addProducer rxBypassIpa kernel).1.KernelRight (row.addProducer rxBypassIpa kernel).2 := by
  have hup : KernelRight { row with producer1Up := true, rxBypassIpa := rxBypassIpa } kernel :=
    h.flags rfl rfl
  unfold addProducer
  dsimp only
  split
  · rename_i hset
    exact setup_kernelRight hup hset.2
  · exact hup

theorem addConsumer_kernelRight (h : row.KernelRight kernel) :
    (row.addConsumer kernel).1.KernelRight (row.addConsumer kernel).2 := by
  have hup : KernelRight { row with consumer1Up := true } kernel := h.flags rfl rfl
  unfold addConsumer
  dsimp only
  split
  · rename_i hset
    exact setup_kernelRight hup hset.2
  · exact hup

theorem addRm_kernelRight (h : row.KernelRight kernel) :
    (row.addRm rm1 rxBypassIpa kernel).1.KernelRight (row.addRm rm1 rxBypassIpa kernel).2 := by
  unfold addRm
  grind [addConsumer_kernelRight, addProducer_kernelRight]

def Goes (row : RmClient) (rm1 : Resource) (a2Check : Int) : Prop :=
  rm1 = row.producerRm1 ∨ rm1 = row.consumerRm1 ∧ ¬ (row.consumerRm1 = .q6Cons ∧ a2Check = 1)

/-- If `DelRmDepend` takes the row down, it takes its dependency out, if that was added. -/
def Kept (row : RmClient) (rm1 : Resource) (a2Check : Int) : Prop :=
  row.rmSet = true → row.Goes rm1 a2Check → row.setBypass = false → row.rxBypassIpa = false

theorem down_rmSet : (row.down kernel).1.rmSet = false := by
  unfold down
  split
  · rfl
  · rename_i hset
    simpa using hset

theorem down_kernelRight (h : row.KernelRight kernel)
    (hkept : row.rmSet = true → row.setBypass = false → row.rxBypassIpa = false) :
    (row.down kernel).1.KernelRight (row.down kernel).2 := by
  unfold down
  split
  · simp_all [teardown_kernelRight]
  · exact h

theorem down_of_not_rmSet (h : row.rmSet = false) : row.down kernel = (row, kernel) := by
  unfold down
  rw [h]
  rfl

theorem delConsumer_of_not_rmSet (h : row.rmSet = false) :
    (row.delConsumer a2Check kernel).1.rmSet = false ∧
      (row.delConsumer a2Check kernel).1.producer1Up = row.producer1Up ∧
      (row.delConsumer a2Check kernel).2 = kernel := by
  unfold delConsumer
  split
  · exact ⟨h, rfl, rfl⟩
  · rw [down_of_not_rmSet h]
    exact ⟨h, rfl, rfl⟩

theorem delRm_of_not_goes (h : ¬ row.Goes rm1 a2Check) :
    row.delRm rm1 a2Check kernel = (row, kernel) := by
  unfold Goes at h
  rw [not_or] at h
  unfold delRm
  rw [if_neg h.1]
  split
  · rename_i hconsumer
    have hheld : row.consumerRm1 = .q6Cons ∧ a2Check = 1 := by
      simp_all
    exact if_pos hheld
  · rfl

theorem delRm_of_goes (h : row.Goes rm1 a2Check) :
    (row.delRm rm1 a2Check kernel).1.rmSet = false ∧
      (row.delRm rm1 a2Check kernel).1.SetRight ∧
      (row.delRm rm1 a2Check kernel).2 = (row.down kernel).2 := by
  unfold delRm
  by_cases hproducer : rm1 = row.producerRm1
  · rw [if_pos hproducer]
    have hdown : (row.delProducer kernel).1.rmSet = false := down_rmSet
    split
    · obtain ⟨hset, hup, hkernel⟩ := @delConsumer_of_not_rmSet _ _ a2Check hdown
      refine ⟨hset, ?_, hkernel⟩
      rw [SetRight, hset, hup]
      rfl
    · exact ⟨hdown, hdown, rfl⟩
  · obtain ⟨hconsumer, hheld⟩ := h.resolve_left hproducer
    simp_all [if_neg, delConsumer, down_rmSet, SetRight]

theorem shown_of_not_rmSet (h : row.rmSet = false) : row.shown = ∅ := by
  unfold shown
  rw [h]
  rfl

theorem delRm_kernelRight (h : row.KernelRight kernel) (hkept : row.Kept rm1 a2Check) :
    (row.delRm rm1 a2Check kernel).1.KernelRight (row.delRm rm1 a2Check kernel).2 := by
  by_cases hgoes : row.Goes rm1 a2Check
  · obtain ⟨hset, -, hkernel⟩ := @delRm_of_goes row kernel _ _ hgoes
    have hdown := down_kernelRight h fun hset => hkept hset hgoes
    rw [hkernel]
    refine hdown.flags (delRm_touches.own.trans down_touches.own.symm) ?_
    rw [shown_of_not_rmSet hset, shown_of_not_rmSet down_rmSet]
  · rw [delRm_of_not_goes hgoes]
    exact h

/-! ## Ups and downs -/

theorem addRm_setRight (h : row.SetRight) : (row.addRm rm1 rxBypassIpa kernel).1.SetRight := by
  have hproducer : ∀ {row : RmClient} {kernel}, row.SetRight →
      (row.addProducer rxBypassIpa kernel).1.SetRight := by
    intro row kernel h
    unfold SetRight addProducer setup at *
    cases hset : row.rmSet <;> cases hup : row.consumer1Up <;> simp_all
  have hconsumer : ∀ {row : RmClient} {kernel}, row.SetRight →
      (row.addConsumer kernel).1.SetRight := by
    intro row kernel h
    unfold SetRight addConsumer setup at *
    cases hset : row.rmSet <;> cases hup : row.producer1Up <;> simp_all
  grind [addRm]

theorem delRm_setRight (h : row.SetRight) : (row.delRm rm1 a2Check kernel).1.SetRight := by
  by_cases hgoes : row.Goes rm1 a2Check
  · exact (delRm_of_goes hgoes).2.1
  · rw [delRm_of_not_goes hgoes]
    exact h

theorem forward_mem_delRm (h : row.KernelRight kernel) (hne : row.forward ≠ row.backward)
    (hnot : ¬ row.Kept rm1 a2Check) :
    row.forward ∈ (row.delRm rm1 a2Check kernel).2 := by
  unfold Kept at hnot
  push Not at hnot
  obtain ⟨hset, hgoes, hadded, hbypass⟩ := hnot
  have hforward : row.forward ∈ kernel := by
    rw [h row.forward (mem_own.mpr (.inl rfl))]
    simp [shown, hset, hadded]
  simp [delRm_of_goes, down, teardown, hgoes, hset, hne, hbypass, hforward]

end RmClient

namespace RmConfig

open RmClient

variable {c : RmConfig} {rm1 : Resource} {rxBypassIpa : Bool}

/-! ## The table and the kernel -/

structure TableInv (c : RmConfig) : Prop where
  tallies : OwnedRows.Tallies own shown c.ipaRmTbl c.kernel
  setRight : ∀ row ∈ c.ipaRmTbl, row.SetRight
  distinct : ∀ row ∈ c.ipaRmTbl, row.forward ≠ row.backward

theorem tableInv_init : init.TableInv where
  tallies := by
    constructor
    · unfold OwnedRows.Apart
      decide
    · unfold OwnedRows.Right
      decide
    · exact fun dep hdep => absurd hdep (Finset.notMem_empty dep)
  setRight := by
    unfold SetRight
    decide
  distinct := by decide

theorem tableInv_addRmDepend (h : c.TableInv) : (c.addRmDepend rm1 rxBypassIpa).TableInv where
  tallies := h.tallies.walk addRm_local fun _ _ _ hrow => addRm_kernelRight hrow
  setRight := OwnedRows.forall_walk (fun _ _ hrow => addRm_setRight hrow) h.setRight
  distinct := OwnedRows.forall_walk
    (fun _ _ hrow => by rwa [addRm_touches.forward, addRm_touches.backward]) h.distinct

/-- `DelRmDepend` takes the dependencies of the rows out. -/
def KeptDel (c : RmConfig) (rm1 : Resource) : Prop :=
  ∀ row ∈ c.ipaRmTbl, row.Kept rm1 (c.a2CheckLeft rm1)

theorem tableInv_delRmDepend (h : c.TableInv) (hkept : c.KeptDel rm1) :
    (c.delRmDepend rm1).TableInv where
  tallies := h.tallies.walk delRm_local fun row hmem _ hrow =>
    delRm_kernelRight hrow (hkept row hmem)
  setRight := OwnedRows.forall_walk (fun _ _ hrow => delRm_setRight hrow) h.setRight
  distinct := OwnedRows.forall_walk
    (fun _ _ hrow => by rwa [delRm_touches.forward, delRm_touches.backward]) h.distinct

/-- `rm_set` is right, and the kernel has the dependencies of the rows that are set. -/
structure DependRight (c : RmConfig) : Prop where
  set : ∀ row ∈ c.ipaRmTbl, row.rmSet = (row.producer1Up && row.consumer1Up)
  kernel : ∀ dep, dep ∈ c.kernel ↔ ∃ row ∈ c.ipaRmTbl, row.rmSet = true ∧
    (dep = row.forward ∧ row.setBypass = false ∨ dep = row.backward)

theorem mem_shown {row : RmClient} {dep : RmDependency} : dep ∈ row.shown ↔ row.rmSet = true ∧
    (dep = row.forward ∧ row.setBypass = false ∨ dep = row.backward) := by
  unfold shown
  split
  · split
    · simp_all
    · simp_all
  · simp_all

theorem TableInv.dependRight (h : c.TableInv) : c.DependRight where
  set := h.setRight
  kernel dep := by
    rw [h.tallies.mem_iff fun row _ => shown_subset]
    simp only [mem_shown]

theorem not_dependRight_delRmDepend (h : c.TableInv) (hnot : ¬ c.KeptDel rm1) :
    ¬ (c.delRmDepend rm1).DependRight := by
  intro hright
  unfold KeptDel at hnot
  push Not at hnot
  obtain ⟨row, hrow, hnot⟩ := hnot
  have hgoes : row.Goes rm1 (c.a2CheckLeft rm1) := by
    by_contra hstays
    exact hnot fun _ hgoes => absurd hgoes hstays
  have hown : row.forward ∈ row.own := mem_own.mpr (.inl rfl)
  have hleft : row.forward ∈ (c.delRmDepend rm1).kernel := by
    obtain ⟨stock, hbefore, hafter⟩ :=
      OwnedRows.exists_visit delRm_local c.kernel h.tallies.apart hrow
    have hvisit : row.KernelRight stock :=
      fun dep hdep => (hbefore dep hdep).trans (h.tallies.right row hrow dep hdep)
    exact (hafter _ hown).mpr (forward_mem_delRm hvisit (h.distinct row hrow) hnot)
  obtain ⟨row', hrow', hset, hdep⟩ := (hright.kernel row.forward).mp hleft
  obtain ⟨row0, hrow0, stock, rfl⟩ := OwnedRows.exists_of_mem_walk hrow'
  -- the row that has the dependency is the one that was taken down
  have hown0 : row.forward ∈ row0.own := by
    rw [← delRm_touches.own]
    exact mem_own.mpr (hdep.imp_left And.left)
  rw [← h.tallies.apart.eq hrow hrow0 hown hown0, (delRm_of_goes hgoes).1] at hset
  cases hset

/-! ## Runs -/

/-- `DelRmDepend` finds the bypass flag of a row as it was when the row was set up, or false. -/
def Kept (c : RmConfig) : Op → Prop
  | .addRmDepend _ _ => True
  | .delRmDepend rm1 => c.KeptDel rm1

/-- The runs in which every dependency that was added is taken out with its row. -/
def keptSystem : System RmConfig Op := system.restrict Kept

theorem tableInv_invariant : keptSystem.Invariant TableInv := by
  apply System.Invariant.of_restrict
  · rintro c rfl
    exact tableInv_init
  · rintro c op c' h hkept ⟨-, rfl⟩
    cases op with
    | addRmDepend rm1 rxBypassIpa => exact tableInv_addRmDepend h
    | delRmDepend rm1 => exact tableInv_delRmDepend h hkept

def LastDel (c : RmConfig) (rm1 : Resource) : Prop :=
  rm1 = .q6Cons → c.a2CheckLeft rm1 ≠ 1

/-- The rows that are set and have the client on their second side follow it too. -/
def Followed (c : RmConfig) (rm1 : Resource) : Prop :=
  ∀ row ∈ c.ipaRmTbl, row.rmSet = true → rm1 = row.producerRm2 ∨ rm1 = row.consumerRm2 →
    rm1 = row.producerRm1 ∨ rm1 = row.consumerRm1

def Uninvolved (c : RmConfig) (rm1 : Resource) : Prop :=
  ∀ dep ∈ c.kernel, dep.1 ≠ rm1 ∧ dep.2 ≠ rm1

theorem goes_iff (hlast : c.LastDel rm1) {row : RmClient} :
    row.Goes rm1 (c.a2CheckLeft rm1) ↔ rm1 = row.producerRm1 ∨ rm1 = row.consumerRm1 := by
  constructor
  · exact fun h => h.imp_right And.left
  · refine fun h => h.imp_right fun hconsumer => ⟨hconsumer, fun hheld => ?_⟩
    exact hlast (hconsumer.trans hheld.1) hheld.2

theorem uninvolved_iff (h : c.TableInv) (hkept : c.KeptDel rm1) (hlast : c.LastDel rm1) :
    (c.delRmDepend rm1).Uninvolved rm1 ↔ c.Followed rm1 := by
  have hright := (tableInv_delRmDepend h hkept).dependRight
  constructor
  · intro hnone row hrow hset hsecond
    by_contra hnot
    have hstays : ¬ row.Goes rm1 (c.a2CheckLeft rm1) :=
      fun hgoes => hnot ((goes_iff hlast).mp hgoes)
    have hrow' : row ∈ (c.delRmDepend rm1).ipaRmTbl :=
      OwnedRows.mem_walk_of_fixed hrow fun stock => by rw [delRm_of_not_goes hstays]
    have hdep := (hright.kernel row.backward).mpr ⟨row, hrow', hset, .inr rfl⟩
    rcases hsecond with hsecond | hsecond
    · exact (hnone _ hdep).1 hsecond.symm
    · exact (hnone _ hdep).2 hsecond.symm
  · intro hfollowed dep hdep
    obtain ⟨row', hrow', hset, hshown⟩ := (hright.kernel dep).mp hdep
    obtain ⟨row, hrow, stock, rfl⟩ := OwnedRows.exists_of_mem_walk hrow'
    by_cases hgoes : row.Goes rm1 (c.a2CheckLeft rm1)
    · rw [(delRm_of_goes hgoes).1] at hset
      cases hset
    · rw [delRm_of_not_goes hgoes] at hset hshown
      have hfirst : ¬ (rm1 = row.producerRm1 ∨ rm1 = row.consumerRm1) :=
        fun hends => hgoes ((goes_iff hlast).mpr hends)
      have hsecond : ¬ (rm1 = row.producerRm2 ∨ rm1 = row.consumerRm2) :=
        fun hends => hfirst (hfollowed row hrow hset hends)
      rw [not_or] at hfirst hsecond
      rcases hshown with ⟨rfl, -⟩ | rfl
      · exact ⟨Ne.symm hfirst.1, Ne.symm hfirst.2⟩
      · exact ⟨Ne.symm hsecond.1, Ne.symm hsecond.2⟩

/-- In the runs in which every dependency that was added is taken out with its row, the table
and the kernel agree; after the last `DelRmDepend` of a client no dependency involves it,
unless a row that is set has it on its second side only. Any other step breaks the
agreement. -/
theorem dependRight_of_reachable (c : RmConfig) (hc : keptSystem.Reachable c) :
    c.DependRight ∧
    (∀ rm1, c.KeptDel rm1 → c.LastDel rm1 →
      ((c.delRmDepend rm1).Uninvolved rm1 ↔ c.Followed rm1)) ∧
    (∀ op, ¬ c.Kept op → ¬ (c.exec op).DependRight) := by
  have h := tableInv_invariant.reachable hc
  refine ⟨h.dependRight, fun rm1 hkept hlast => uninvolved_iff h hkept hlast, ?_⟩
  intro op hnot
  cases op with
  | addRmDepend rm1 rxBypassIpa => exact absurd trivial hnot
  | delRmDepend rm1 => exact not_dependRight_delRmDepend h hnot

/-! ## Computed runs -/

instance (row : RmClient) (rm1 : Resource) (a2Check : Int) : Decidable (row.Goes rm1 a2Check) :=
  inferInstanceAs (Decidable (_ ∨ _))

instance (row : RmClient) (rm1 : Resource) (a2Check : Int) : Decidable (row.Kept rm1 a2Check) :=
  inferInstanceAs (Decidable (_ → _ → _ → _))

instance (c : RmConfig) : (op : Op) → Decidable (c.Kept op)
  | .addRmDepend _ _ => .isTrue trivial
  | .delRmDepend rm1 => inferInstanceAs
      (Decidable (∀ row ∈ c.ipaRmTbl, row.Kept rm1 (c.a2CheckLeft rm1)))

def usbUp : List Op := [.addRmDepend .usbProd false, .addRmDepend .q6Cons false]

theorem dependRight_of_reachable_usbUp :
    ∃ c, System.follow (fun c op => c.Kept op ∧ True) exec usbUp init = some c ∧
      (c.kernel = {(.usbProd, .q6Cons), (.q6Prod, .usbCons)} ∧ c.KeptDel .usbProd) ∧
      c.DependRight ∧ ((c.delRmDepend .usbProd).Uninvolved .usbProd ↔ c.Followed .usbProd) := by
  have hrun : (System.follow (fun c op => c.Kept op ∧ True) exec usbUp init).any
      (fun c => c.kernel = {(.usbProd, .q6Cons), (.q6Prod, .usbCons)} ∧
        c.Kept (.delRmDepend .usbProd)) = true := by decide +kernel
  obtain ⟨c, hc, hkernel⟩ := (Option.any_eq_true _ _).mp hrun
  obtain ⟨hkernel, hkept⟩ := of_decide_eq_true hkernel
  have hreach : keptSystem.Reachable c := System.reachable_follow _ (.init rfl) hc
  obtain ⟨hright, hlast, -⟩ := dependRight_of_reachable c hreach
  exact ⟨c, hc, ⟨hkernel, hkept⟩, hright, hlast .usbProd hkept nofun⟩

/-- A second USB interface comes up without a pipe, and the first goes down: the dependency
of the producer on the modem is left in the kernel. -/
theorem not_dependRight : ∃ c, system.Reachable c ∧ ¬ c.DependRight := by
  have hrun : (System.follow (fun _ _ => True ∧ True) exec
      (usbUp ++ [.addRmDepend .usbProd true, .delRmDepend .usbProd]) init).any
        (fun c => (.usbProd, .q6Cons) ∈ c.kernel ∧
          ∀ row ∈ c.ipaRmTbl, row.rmSet = false) = true := by decide +kernel
  obtain ⟨c, hc, hleft⟩ := (Option.any_eq_true _ _).mp hrun
  obtain ⟨hdep, hunset⟩ := of_decide_eq_true hleft
  have hreach : (system.restrict fun _ _ => True).Reachable c :=
    System.reachable_follow _ (.init rfl) hc
  refine ⟨c, hreach.of_restrict, fun hright => ?_⟩
  obtain ⟨row, hrow, hset, -⟩ := (hright.kernel _).mp hdep
  simp_all

end RmConfig

end EtherDevice.Ipacm
