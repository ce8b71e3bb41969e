import EtherDevice.Lib.FirstMatch
import EtherDevice.Lib.Transition
import Mathlib.Algebra.BigOperators.Fin
import Mathlib.Algebra.Order.Group.Multiset
import Mathlib.Data.Multiset.Range
import Mathlib.Tactic.Abel

/-!
# The owners of pooled ion buffers

The `QCameraStreamMemory` objects of a camera share a `QCameraMemoryPool`. `alloc` takes buffers
out of the pool, or new ones where the pool has none that fits, and `dealloc` puts the buffers of
an object into the pool. A descriptor is copied by value, so nothing but the lists and the counts
says whose it is.

Where a buffer cannot be had, `alloc` puts all slots below into the pool, down to slot 0. They are
the new ones if the object had no buffers before. `allocateMore` calls it for an object that has.
-/

namespace EtherDevice.Hal1.MemoryPool

open Lib

inductive StreamType
  | default | preview | postview | snapshot | video | callback | implDefined | metadata | raw
  | offlineProc | parm | analysis
  deriving DecidableEq, Repr

def streamTypes : List StreamType :=
  [.default, .preview, .postview, .snapshot, .video, .callback, .implDefined, .metadata, .raw,
    .offlineProc, .parm, .analysis]

instance : Fintype StreamType where
  elems := ⟨streamTypes, by decide⟩
  complete t := by cases t <;> decide

/-- `QCameraMemInfo` of a buffer that ion has made. All are from the same heap. -/
structure MemInfo where
  buf : Nat
  size : UInt32
  cached : Bool
  deriving DecidableEq, Repr

structure Memory where
  m_bCached : Bool
  mStreamType : StreamType
  mMemInfo : Nat → MemInfo
  mBufferCount : Nat := 0

/-- How `allocOneBuffer` ends. A buffer that cannot be shared is freed again. -/
inductive Ion
  | failed
  | notShared
  | allocated
  deriving DecidableEq, Repr

/-- The objects, the pool, the buffers that were freed, and the number of all that ion has made. -/
structure State (ι : Type) where
  objs : ι → Memory
  mPools : StreamType → List MemInfo := fun _ => []
  freed : List Nat := []
  made : Nat := 0

def maxNumFrames : Nat := 64

def ionSize (size : UInt32) (secure : Bool) : UInt32 :=
  let len := (size + 4095) &&& ~~~4095
  if secure then (len + 1048575) &&& ~~~1048575 else len

def Memory.fits (m : Memory) (size : UInt32) (info : MemInfo) : Bool :=
  size ≤ info.size && info.cached == m.m_bCached

namespace State

variable {ι : Type} [DecidableEq ι] (s : State ι) (o : ι)

def setSlot (i : Nat) (info : MemInfo) : State ι :=
  let m := { s.objs o with mMemInfo := Function.update (s.objs o).mMemInfo i info }
  { s with objs := Function.update s.objs o m }

def setCount (count : Nat) : State ι :=
  let m := { s.objs o with mBufferCount := count }
  { s with objs := Function.update s.objs o m }

def setPool (type : StreamType) (infos : List MemInfo) : State ι :=
  { s with mPools := Function.update s.mPools type infos }

def releaseSlot (i : Nat) : State ι :=
  let m := s.objs o
  s.setPool m.mStreamType (s.mPools m.mStreamType ++ [m.mMemInfo i])

def findBuffer (size : UInt32) : Option MemInfo :=
  (s.mPools (s.objs o).mStreamType).find? ((s.objs o).fits size)

def allocOneBuffer (i : Nat) (size : UInt32) (secure : Bool) : Ion → Bool × State ι
  | .failed => (false, s)
  | .notShared => (false, { s with made := s.made + 1, freed := s.freed ++ [s.made] })
  | .allocated =>
    (true, { s.setSlot o i ⟨s.made, ionSize size secure, (s.objs o).m_bCached⟩ with
      made := s.made + 1 })

def allocateBuffer (i : Nat) (size : UInt32) (secure : Bool) (answer : Ion) : Bool × State ι :=
  match s.findBuffer o size with
  | some info =>
    let type := (s.objs o).mStreamType
    let rest := (s.mPools type).eraseP ((s.objs o).fits size)
    (true, (s.setSlot o i info).setPool type rest)
  | none => s.allocOneBuffer o i size secure answer

def allocSlots (size : UInt32) (secure : Bool) (answer : Nat → Ion) :
    Nat → Nat → State ι → Bool × State ι
  | _, 0, s => (true, s)
  | i, missing + 1, s =>
    match s.allocateBuffer o i size secure (answer i) with
    | (true, s) => allocSlots size secure answer (i + 1) missing s
    | (false, s) => (false, (List.range i).reverse.foldl (·.releaseSlot o) s)

def alloc (count : Nat) (size : UInt32) (secure : Bool) (answer : Nat → Ion) : Bool × State ι :=
  if maxNumFrames < (s.objs o).mBufferCount + count then (false, s)
  else s.allocSlots o size secure answer (s.objs o).mBufferCount count

def allocate (count : Nat) (size : UInt32) (secure : Bool) (answer : Nat → Ion) :
    Bool × State ι :=
  match s.alloc o count size secure answer with
  | (true, s) => (true, s.setCount o count)
  | (false, s) => (false, s)

def allocateMore (count : Nat) (size : UInt32) (answer : Nat → Ion) : Bool × State ι :=
  match s.alloc o count size false answer with
  | (true, s) => (true, s.setCount o ((s.objs o).mBufferCount + count))
  | (false, s) => (false, s)

def deallocate : State ι :=
  ((List.range (s.objs o).mBufferCount).foldl (·.releaseSlot o) s).setCount o 0

def clear : State ι :=
  { s with
    mPools := fun _ => []
    freed := s.freed ++ streamTypes.flatMap fun type => (s.mPools type).map (·.buf) }

end State

inductive Op (ι : Type)
  | allocate (o : ι) (count : Nat) (size : UInt32) (secure : Bool) (answer : Nat → Ion)
  | allocateMore (o : ι) (count : Nat) (size : UInt32) (answer : Nat → Ion)
  | deallocate (o : ι)
  | clear

namespace State

variable {ι : Type} [DecidableEq ι]

def run (s : State ι) : Op ι → Bool × State ι
  | .allocate o count size secure answer => s.allocate o count size secure answer
  | .allocateMore o count size answer => s.allocateMore o count size answer
  | .deallocate o => (true, s.deallocate o)
  | .clear => (true, s.clear)

def exec (s : State ι) (op : Op ι) : State ι := (s.run op).2

/-- How the camera uses the objects and the pool. -/
def Enabled (s : State ι) : Op ι → Prop
  | .allocate o _ _ _ _ => (s.objs o).mBufferCount = 0
  | .clear => ∀ o, (s.objs o).mBufferCount = 0
  | _ => True

end State

/-! ## Places -/

def bufs (infos : List MemInfo) : Multiset Nat := infos.map (·.buf)

def Memory.slots (m : Memory) (count : Nat) : Multiset Nat :=
  (List.range count).map fun i => (m.mMemInfo i).buf

namespace State

variable {ι : Type} [DecidableEq ι] [Fintype ι]

def places (s : State ι) : Multiset Nat :=
  s.freed + ∑ type, bufs (s.mPools type) + ∑ o, (s.objs o).slots (s.objs o).mBufferCount

/-- Every buffer that was made is in one place. -/
def Owned (s : State ι) : Prop := s.places = Multiset.range s.made

/-- Every buffer is in one place after the call. A call that fails leaves the buffers and the count
of each object as they were. -/
def KeepsOwners (s : State ι) (op : Op ι) : Prop :=
  (s.exec op).Owned ∧ ((s.run op).1 = false → ∀ o,
    ((s.exec op).objs o).mBufferCount = (s.objs o).mBufferCount ∧
      ∀ i < (s.objs o).mBufferCount,
        ((s.exec op).objs o).mMemInfo i = (s.objs o).mMemInfo i)

def matching (s : State ι) (o : ι) (size : UInt32) : Nat :=
  (s.mPools (s.objs o).mStreamType).countP ((s.objs o).fits size)

/-- More buffers are for an object that has none, or there are too many slots, or ion allocates
those that the pool does not have. -/
def Cond (s : State ι) : Op ι → Prop
  | .allocateMore o count size answer =>
    (s.objs o).mBufferCount = 0 ∨ maxNumFrames < (s.objs o).mBufferCount + count ∨
      ∀ k < count, s.matching o size ≤ k → answer ((s.objs o).mBufferCount + k) = .allocated
  | _ => True

/-! ## One member of a family changes -/

theorem sum_update {κ M : Type} [Fintype κ] [DecidableEq κ] {α : Type} [AddCommMonoid M]
    (f : α → M) (g : κ → α) (k : κ) (a : α) :
    ∑ j, f (Function.update g k a j) + f (g k) = ∑ j, f (g j) + f a := by
  have hsplit : ∀ h : κ → α, ∑ j, f (h j) = f (h k) + ∑ j ∈ Finset.univ.erase k, f (h j) :=
    fun h => (Finset.add_sum_erase _ (fun j => f (h j)) (Finset.mem_univ k)).symm
  have hrest : ∑ j ∈ Finset.univ.erase k, f (Function.update g k a j) =
      ∑ j ∈ Finset.univ.erase k, f (g j) :=
    Finset.sum_congr rfl fun j hj => by rw [Function.update_of_ne (Finset.ne_of_mem_erase hj)]
  rw [hsplit, hsplit g, hrest, Function.update_self]
  abel

variable {s t : State ι} {o : ι}

omit [DecidableEq ι] in
theorem places_setPool (type : StreamType) (infos : List MemInfo) :
    (s.setPool type infos).places + bufs (s.mPools type) = s.places + bufs infos := by
  have hsum := sum_update bufs s.mPools type infos
  unfold places setPool
  dsimp only
  rw [add_right_comm _ _ (bufs (s.mPools type)), add_assoc (s.freed : Multiset Nat), hsum]
  abel

theorem places_setObj (m : Memory) :
    places { s with objs := Function.update s.objs o m } +
        (s.objs o).slots (s.objs o).mBufferCount = s.places + m.slots m.mBufferCount := by
  have hsum := sum_update (fun m : Memory => m.slots m.mBufferCount) s.objs o m
  unfold places
  rw [add_assoc, hsum]
  abel

theorem slots_succ (m : Memory) (count : Nat) :
    m.slots (count + 1) = m.slots count + {(m.mMemInfo count).buf} := by
  unfold Memory.slots
  rw [List.range_succ, List.map_append]
  rfl

theorem slots_congr {m m' : Memory} {count : Nat}
    (h : ∀ i < count, m'.mMemInfo i = m.mMemInfo i) : m'.slots count = m.slots count := by
  simp_all [Memory.slots, List.map_congr_left]

theorem places_setCount (count : Nat) :
    (s.setCount o count).places + (s.objs o).slots (s.objs o).mBufferCount =
      s.places + (s.objs o).slots count :=
  places_setObj { s.objs o with mBufferCount := count }

theorem places_setCount_zero (count : Nat) :
    (s.setCount o count).places = (s.setCount o 0).places + (s.objs o).slots count := by
  have hcount := places_setCount (s := s) (o := o) count
  have hzero := places_setCount (s := s) (o := o) 0
  have hnone : (s.objs o).slots 0 = 0 := rfl
  rw [hnone, add_zero] at hzero
  rw [← hzero, add_right_comm] at hcount
  exact add_right_cancel hcount

theorem range_succ_add (n : Nat) : Multiset.range (n + 1) = Multiset.range n + {n} := by
  rw [Multiset.range_succ, add_comm]
  rfl

/-! ## Slots are released -/

theorem foldl_releaseSlot (indices : List Nat) :
    (indices.foldl (·.releaseSlot o) s).objs = s.objs ∧
      (indices.foldl (·.releaseSlot o) s).made = s.made ∧
      ∀ count, ((indices.foldl (·.releaseSlot o) s).setCount o count).places =
        (s.setCount o count).places +
          (indices.map fun i => ((s.objs o).mMemInfo i).buf : List Nat) := by
  induction indices generalizing s with
  | nil => exact ⟨rfl, rfl, fun _ => (add_zero _).symm⟩
  | cons i indices ih =>
    obtain ⟨hobjs, hmade, hplaces⟩ := ih (s := s.releaseSlot o i)
    refine ⟨hobjs, hmade, fun count => (hplaces count).trans ?_⟩
    have hpool := places_setPool (s := s.setCount o count) (s.objs o).mStreamType
      (s.mPools (s.objs o).mStreamType ++ [(s.objs o).mMemInfo i])
    have hbufs : bufs (s.mPools (s.objs o).mStreamType ++ [(s.objs o).mMemInfo i]) =
        {((s.objs o).mMemInfo i).buf} + bufs (s.mPools (s.objs o).mStreamType) := by
      simp [bufs]
    rw [hbufs, ← add_assoc] at hpool
    have hstep : ((s.releaseSlot o i).setCount o count).places =
        (s.setCount o count).places + {((s.objs o).mMemInfo i).buf} := add_right_cancel hpool
    rw [hstep, add_assoc]
    rfl

/-! ## Slots are filled -/

/-- What an allocation for an object leaves alone, where it starts at a slot. -/
structure Keeps (o : ι) (start : Nat) (s t : State ι) : Prop where
  others : ∀ p, p ≠ o → t.objs p = s.objs p
  count : (t.objs o).mBufferCount = (s.objs o).mBufferCount
  type : (t.objs o).mStreamType = (s.objs o).mStreamType
  cached : (t.objs o).m_bCached = (s.objs o).m_bCached
  slots : ∀ i < start, (t.objs o).mMemInfo i = (s.objs o).mMemInfo i

omit [DecidableEq ι] [Fintype ι] in
theorem Keeps.refl {start : Nat} : Keeps o start s s :=
  ⟨fun _ _ => rfl, rfl, rfl, rfl, fun _ _ => rfl⟩

omit [DecidableEq ι] [Fintype ι] in
theorem Keeps.trans {start later : Nat} {u : State ι} (h : Keeps o start s t)
    (h' : Keeps o later t u) (hle : start ≤ later) : Keeps o start s u :=
  ⟨fun p hp => (h'.others p hp).trans (h.others p hp), h'.count.trans h.count,
    h'.type.trans h.type, h'.cached.trans h.cached,
    fun i hi => (h'.slots i (hi.trans_le hle)).trans (h.slots i hi)⟩

omit [DecidableEq ι] [Fintype ι] in
theorem Keeps.of_objs {start : Nat} (h : t.objs = s.objs) : Keeps o start s t :=
  ⟨fun p _ => congrFun h p, by rw [h], by rw [h], by rw [h], fun _ _ => by rw [h]⟩

omit [DecidableEq ι] [Fintype ι] in
theorem Keeps.matching {start : Nat} (h : Keeps o start s t) (size : UInt32) :
    t.matching o size =
      (t.mPools (s.objs o).mStreamType).countP ((s.objs o).fits size) := by
  have hfits : (t.objs o).fits size = (s.objs o).fits size := by
    funext x
    unfold Memory.fits
    rw [h.cached]
  unfold State.matching
  rw [h.type, hfits]

/-- The next slot is filled, and one buffer fewer of the pool matches if there was one. -/
structure Filled (o : ι) (i : Nat) (size : UInt32) (s t : State ι) : Prop where
  keeps : Keeps o i s t
  owned : (t.setCount o (i + 1)).Owned
  matching : t.matching o size = s.matching o size - 1

omit [Fintype ι] in
theorem keeps_setSlot {i : Nat} {info : MemInfo} : Keeps o i s (s.setSlot o i info) := by
  unfold setSlot
  refine ⟨fun p hp => Function.update_of_ne hp _ _, ?_, ?_, ?_, fun j hj => ?_⟩
  all_goals
    dsimp only
    rw [Function.update_self]
  exact Function.update_of_ne (Nat.ne_of_lt hj) _ _

theorem places_setSlot {i : Nat} (info : MemInfo) :
    ((s.setSlot o i info).setCount o (i + 1)).places =
      (s.setCount o i).places + {info.buf} := by
  have hslots : ((s.setSlot o i info).objs o).slots (i + 1) =
      (s.objs o).slots i + {info.buf} := by
    have hself : ((s.setSlot o i info).objs o).mMemInfo i = info := by
      simp [setSlot]
    rw [slots_succ, hself, slots_congr keeps_setSlot.slots]
  have hzero : ((s.setSlot o i info).setCount o 0).places = (s.setCount o 0).places := by
    have hobjs : ∀ p, (((s.setSlot o i info).setCount o 0).objs p).slots
          (((s.setSlot o i info).setCount o 0).objs p).mBufferCount =
        ((s.setCount o 0).objs p).slots ((s.setCount o 0).objs p).mBufferCount := by
      intro p
      by_cases hp : p = o
      · subst hp
        simp [setCount, Memory.slots]
      · simp [setCount, setSlot, hp]
    unfold places
    rw [Finset.sum_congr rfl fun p _ => hobjs p]
    rfl
  rw [places_setCount_zero (i + 1), hslots, hzero, places_setCount_zero (s := s) i, add_assoc]

theorem allocateBuffer_spec {i : Nat} (size : UInt32) (secure : Bool) (answer : Ion)
    (h : (s.setCount o i).Owned) {result : Bool × State ι}
    (hresult : result = s.allocateBuffer o i size secure answer) :
    result.1 = true ∧ (s.matching o size = 0 → answer = .allocated) ∧
        Filled o i size s result.2 ∨
      result.1 = false ∧ s.matching o size = 0 ∧ answer ≠ .allocated ∧
        result.2.objs = s.objs ∧ (result.2.setCount o i).Owned := by
  unfold allocateBuffer at hresult
  split at hresult
  · rename_i info hfind
    subst hresult
    have hperm := Lib.perm_cons_eraseP hfind
    have hfits : (s.objs o).fits size info = true := List.find?_some hfind
    have hcount : s.matching o size =
        ((s.mPools (s.objs o).mStreamType).eraseP ((s.objs o).fits size)).countP
          ((s.objs o).fits size) + 1 := by
      simp [matching, hperm.countP_eq, hfits]
    have hbufs : bufs (s.mPools (s.objs o).mStreamType) =
        {info.buf} + bufs ((s.mPools (s.objs o).mStreamType).eraseP ((s.objs o).fits size)) := by
      unfold bufs
      rw [Multiset.coe_eq_coe.mpr (hperm.map _)]
      rfl
    have hkeeps : Keeps o i s ((s.setSlot o i info).setPool (s.objs o).mStreamType
        ((s.mPools (s.objs o).mStreamType).eraseP ((s.objs o).fits size))) :=
      keeps_setSlot.trans (.of_objs rfl) (Nat.le_refl _)
    refine .inl ⟨rfl, fun hnone => by omega, hkeeps, ?_, ?_⟩
    · have hpool := places_setPool (s := (s.setSlot o i info).setCount o (i + 1))
        (s.objs o).mStreamType
        ((s.mPools (s.objs o).mStreamType).eraseP ((s.objs o).fits size))
      have hsame : bufs (((s.setSlot o i info).setCount o (i + 1)).mPools
          (s.objs o).mStreamType) = bufs (s.mPools (s.objs o).mStreamType) := rfl
      rw [hsame, hbufs, places_setSlot, ← add_assoc] at hpool
      have hplaces := add_right_cancel hpool
      exact (add_right_cancel hplaces).trans h
    · rw [hcount, Nat.add_sub_cancel, hkeeps.matching]
      simp [setPool]
  · rename_i hfind
    have hnone : s.matching o size = 0 :=
      List.countP_eq_zero.mpr fun info hinfo => List.find?_eq_none.mp hfind info hinfo
    cases answer with
    | failed =>
      subst hresult
      exact .inr ⟨rfl, hnone, nofun, rfl, h⟩
    | notShared =>
      subst hresult
      refine .inr ⟨rfl, hnone, nofun, rfl, ?_⟩
      have hplaces : places (setCount { s with
          made := s.made + 1, freed := s.freed ++ [s.made] } o i) =
            (s.setCount o i).places + {s.made} := by
        have hfreed : ((s.freed ++ [s.made] : List Nat) : Multiset Nat) = s.freed + {s.made} :=
          rfl
        unfold places setCount
        rw [hfreed]
        abel
      rw [h] at hplaces
      exact hplaces.trans (range_succ_add _).symm
    | allocated =>
      subst hresult
      have hkeeps : Keeps o i s
          { s.setSlot o i ⟨s.made, ionSize size secure, (s.objs o).m_bCached⟩ with
            made := s.made + 1 } := keeps_setSlot.trans (.of_objs rfl) (Nat.le_refl _)
      refine .inl ⟨rfl, fun _ => rfl, hkeeps, ?_, ?_⟩
      · have hplaces := places_setSlot (s := s) (o := o) (i := i)
          ⟨s.made, ionSize size secure, (s.objs o).m_bCached⟩
        rw [h] at hplaces
        exact hplaces.trans (range_succ_add _).symm
      · exact (hkeeps.matching size).trans (hnone.trans (by rw [hnone]))

theorem allocSlots_spec {i missing : Nat} (size : UInt32) (secure : Bool) (answer : Nat → Ion)
    (h : (s.setCount o i).Owned) {result : Bool × State ι}
    (hresult : result = allocSlots o size secure answer i missing s) :
    Keeps o i s result.2 ∧
      (result.1 = true ∧ (result.2.setCount o (i + missing)).Owned ∧
          (∀ k < missing, s.matching o size ≤ k → answer (i + k) = .allocated) ∨
        result.1 = false ∧ (result.2.setCount o 0).Owned ∧
          ∃ k < missing, s.matching o size ≤ k ∧ answer (i + k) ≠ .allocated) := by
  induction missing generalizing s i with
  | zero =>
    subst hresult
    exact ⟨.refl, .inl ⟨rfl, h, nofun⟩⟩
  | succ missing ih =>
    unfold allocSlots at hresult
    have hspec := allocateBuffer_spec size secure (answer i) h rfl
    generalize s.allocateBuffer o i size secure (answer i) = step at *
    obtain ⟨ok, u⟩ := step
    obtain ⟨rfl, hanswer, hfilled⟩ | ⟨rfl, hnone, hanswer, hobjs, howned⟩ := hspec
    · obtain ⟨hkeeps, hcases⟩ := ih hfilled.owned hresult
      refine ⟨hfilled.keeps.trans hkeeps (Nat.le_succ i), ?_⟩
      rw [hfilled.matching] at hcases
      obtain ⟨hok, howned, hall⟩ | ⟨hok, howned, k, hk, hle, hfail⟩ := hcases
      · refine .inl ⟨hok, by rwa [Nat.add_right_comm] at howned, fun k hk hle => ?_⟩
        cases k with
        | zero => exact hanswer (Nat.le_zero.mp hle)
        | succ k =>
          rw [← Nat.add_assoc, Nat.add_right_comm]
          exact hall k (by omega) (by omega)
      · refine .inr ⟨hok, howned, k + 1, by omega, by omega, ?_⟩
        rwa [← Nat.add_assoc, Nat.add_right_comm]
    · subst hresult
      obtain ⟨hobjs', hmade, hplaces⟩ := foldl_releaseSlot (s := u) (o := o) (List.range i).reverse
      refine ⟨.of_objs (hobjs'.trans hobjs), .inr ⟨rfl, ?_, 0, Nat.succ_pos _, hnone.le, hanswer⟩⟩
      have hslots : (((List.range i).reverse.map fun j => ((u.objs o).mMemInfo j).buf : List Nat) :
          Multiset Nat) = (u.objs o).slots i := by
        rw [List.map_reverse]
        exact Multiset.coe_eq_coe.mpr (List.reverse_perm _)
      unfold Owned at howned ⊢
      rw [hplaces 0, hslots, ← places_setCount_zero, howned]
      exact (congrArg Multiset.range hmade).symm

/-! ## Calls -/

omit [Fintype ι] in
theorem setCount_self (count : Nat) (h : (s.objs o).mBufferCount = count) :
    s.setCount o count = s := by
  subst h
  show { s with objs := Function.update s.objs o (s.objs o) } = s
  rw [Function.update_eq_self]

theorem alloc_spec (count : Nat) (size : UInt32) (secure : Bool) (answer : Nat → Ion)
    (h : s.Owned) {result : Bool × State ι}
    (hresult : result = s.alloc o count size secure answer) :
    Keeps o (s.objs o).mBufferCount s result.2 ∧
      (result.1 = true ∧ (result.2.setCount o ((s.objs o).mBufferCount + count)).Owned ∧
          (∀ k < count, s.matching o size ≤ k →
            answer ((s.objs o).mBufferCount + k) = .allocated) ∨
        result.1 = false ∧
          (maxNumFrames < (s.objs o).mBufferCount + count ∧ result.2 = s ∨
            ¬ maxNumFrames < (s.objs o).mBufferCount + count ∧
              (result.2.setCount o 0).Owned ∧ ∃ k < count, s.matching o size ≤ k ∧
                answer ((s.objs o).mBufferCount + k) ≠ .allocated)) := by
  unfold alloc at hresult
  split_ifs at hresult with hfew
  · subst hresult
    exact ⟨.refl, .inr ⟨rfl, .inl ⟨hfew, rfl⟩⟩⟩
  · obtain ⟨hkeeps, hcases⟩ := allocSlots_spec size secure answer
      (by rwa [setCount_self _ rfl]) hresult
    refine ⟨hkeeps, hcases.imp id fun ⟨hok, howned, hfail⟩ => ⟨hok, .inr ⟨hfew, howned, hfail⟩⟩⟩

theorem owned_iff_of_released (h : (t.setCount o 0).Owned) :
    t.Owned ↔ (t.objs o).mBufferCount = 0 := by
  have hplaces : t.places = (t.setCount o 0).places + (t.objs o).slots (t.objs o).mBufferCount := by
    rw [← places_setCount_zero, setCount_self _ rfl]
  have hmade : (t.setCount o 0).made = t.made := rfl
  simp_all [Owned, Memory.slots]

omit [DecidableEq ι] [Fintype ι] in
theorem Keeps.unchanged (h : Keeps o (s.objs o).mBufferCount s t) (p : ι) :
    (t.objs p).mBufferCount = (s.objs p).mBufferCount ∧
      ∀ i < (s.objs p).mBufferCount, (t.objs p).mMemInfo i = (s.objs p).mMemInfo i := by
  by_cases hp : p = o
  · subst hp
    exact ⟨h.count, h.slots⟩
  · rw [h.others p hp]
    exact ⟨rfl, fun _ _ => rfl⟩

theorem allocate_keepsOwners {count : Nat} {size : UInt32} {secure : Bool} {answer : Nat → Ion}
    (h : s.Owned) (hzero : (s.objs o).mBufferCount = 0) :
    s.KeepsOwners (.allocate o count size secure answer) := by
  obtain ⟨hkeeps, hcases⟩ := alloc_spec count size secure answer h (o := o) rfl
  unfold KeepsOwners exec run allocate
  dsimp only
  generalize s.alloc o count size secure answer = result at *
  obtain ⟨ok, t⟩ := result
  rw [hzero, Nat.zero_add] at hcases
  obtain ⟨rfl, howned, -⟩ | ⟨rfl, ⟨-, rfl⟩ | ⟨-, howned, -⟩⟩ := hcases
  · exact ⟨howned, nofun⟩
  · exact ⟨h, fun _ => hkeeps.unchanged⟩
  · exact ⟨(owned_iff_of_released howned).mpr (hkeeps.count.trans hzero),
      fun _ => hkeeps.unchanged⟩

theorem allocateMore_keepsOwners_iff {count : Nat} {size : UInt32} {answer : Nat → Ion}
    (h : s.Owned) : s.KeepsOwners (.allocateMore o count size answer) ↔
      s.Cond (.allocateMore o count size answer) := by
  obtain ⟨hkeeps, hcases⟩ := alloc_spec count size false answer h (o := o) rfl
  unfold KeepsOwners exec run allocateMore Cond
  dsimp only
  generalize s.alloc o count size false answer = result at *
  obtain ⟨ok, t⟩ := result
  obtain ⟨rfl, howned, hall⟩ | ⟨rfl, ⟨hmany, rfl⟩ | ⟨hfew, howned, k, hk, hle, hfail⟩⟩ := hcases
  · rw [← hkeeps.count] at howned
    exact iff_of_true ⟨howned, nofun⟩ (.inr (.inr hall))
  · exact iff_of_true ⟨h, fun _ => hkeeps.unchanged⟩ (.inr (.inl hmany))
  · have hcond : ((s.objs o).mBufferCount = 0 ∨ maxNumFrames < (s.objs o).mBufferCount + count ∨
        ∀ k < count, s.matching o size ≤ k →
          answer ((s.objs o).mBufferCount + k) = .allocated) ↔ (s.objs o).mBufferCount = 0 :=
      or_iff_left (not_or.mpr ⟨hfew, fun hall => hfail (hall k hk hle)⟩)
    rw [hcond, ← hkeeps.count, ← owned_iff_of_released howned]
    exact and_iff_left fun _ => hkeeps.unchanged

theorem deallocate_owned (h : s.Owned) : (s.deallocate o).Owned := by
  obtain ⟨hobjs, hmade, hplaces⟩ := foldl_releaseSlot (s := s) (o := o)
    (List.range (s.objs o).mBufferCount)
  have hself : (s.setCount o 0).places + (s.objs o).slots (s.objs o).mBufferCount = s.places := by
    rw [← places_setCount_zero, setCount_self _ rfl]
  unfold Owned deallocate at *
  rw [hplaces 0]
  refine hself.trans (h.trans ?_)
  exact (congrArg Multiset.range hmade).symm

omit [DecidableEq ι] in
theorem clear_owned (h : s.Owned) : s.clear.Owned := by
  have hsum : ((streamTypes.flatMap fun type => (s.mPools type).map (·.buf) : List Nat) :
      Multiset Nat) = ∑ type, bufs (s.mPools type) := by
    have hcons : ∀ types : List StreamType,
        ((types.flatMap fun type => (s.mPools type).map (·.buf) : List Nat) : Multiset Nat) =
          (types.map fun type => bufs (s.mPools type)).sum := by
      intro types
      induction types with
      | nil => rfl
      | cons type types ih =>
        rw [List.flatMap_cons, ← Multiset.coe_add, ih, List.map_cons, List.sum_cons]
        rfl
    exact hcons streamTypes
  have hnone : ∑ _type : StreamType, bufs [] = 0 := Finset.sum_const_zero
  unfold Owned places clear at *
  dsimp only
  rw [hnone, ← Multiset.coe_add, hsum, add_zero]
  exact h

/-! ## Runs -/

theorem keepsOwners_iff (h : s.Owned) {op : Op ι} (henabled : s.Enabled op) :
    s.KeepsOwners op ↔ s.Cond op := by
  cases op with
  | allocate o count size secure answer =>
    exact iff_of_true (allocate_keepsOwners h henabled) trivial
  | allocateMore o count size answer => exact allocateMore_keepsOwners_iff h
  | deallocate o => exact iff_of_true ⟨deallocate_owned h, nofun⟩ trivial
  | clear => exact iff_of_true ⟨clear_owned h, nofun⟩ trivial

end State

/-- Objects without buffers, and an empty pool. -/
def State.new {ι : Type} (m_bCached : ι → Bool) (mStreamType : ι → StreamType)
    (mMemInfo : ι → Nat → MemInfo) : State ι where
  objs o := ⟨m_bCached o, mStreamType o, mMemInfo o, 0⟩

variable {ι : Type} [DecidableEq ι] [Fintype ι]

omit [DecidableEq ι] in
theorem State.new_owned (m_bCached : ι → Bool) (mStreamType : ι → StreamType)
    (mMemInfo : ι → Nat → MemInfo) : (State.new m_bCached mStreamType mMemInfo).Owned := by
  have hpools : ∑ _type : StreamType, bufs [] = 0 := Finset.sum_const_zero
  have hobjs : ∑ o, (⟨m_bCached o, mStreamType o, mMemInfo o, 0⟩ : Memory).slots 0 = 0 :=
    Finset.sum_const_zero
  unfold State.Owned State.places State.new
  dsimp only
  rw [hpools, hobjs]
  rfl

/-- Every buffer has one owner after each call exactly in the runs whose calls all meet the
condition. -/
theorem keepsOwners_along_iff (m_bCached : ι → Bool) (mStreamType : ι → StreamType)
    (mMemInfo : ι → Nat → MemInfo) (ops : List (Op ι)) :
    System.Along (fun s op => State.Enabled s op ∧ s.KeepsOwners op) State.exec ops
        (State.new m_bCached mStreamType mMemInfo) ↔
      System.Along (fun s op => State.Enabled s op ∧ s.Cond op) State.exec ops
        (State.new m_bCached mStreamType mMemInfo) := by
  exact System.along_iff (P := State.Owned)
    (fun s op h => and_congr_right fun henabled => State.keepsOwners_iff h henabled)
    (fun s op h hcond => ((State.keepsOwners_iff h hcond.1).mpr hcond.2).1) ops
    (State.new_owned m_bCached mStreamType mMemInfo)

/-- An object with one buffer asks for another one, and ion has none. -/
theorem not_keepsOwners_along : ¬ ∀ ops : List (Op Unit),
    System.Along State.Enabled State.exec ops (State.new (fun _ => false) (fun _ => .preview)
      fun _ _ => ⟨0, 0, false⟩) →
    System.Along State.KeepsOwners State.exec ops (State.new (fun _ => false) (fun _ => .preview)
      fun _ _ => ⟨0, 0, false⟩) := by
  intro h
  have hrun := (h [.allocate () 1 4096 false fun _ => .allocated,
    .allocateMore () 1 4096 fun _ => .failed] ⟨rfl, trivial, trivial⟩).2.1.1
  revert hrun
  unfold State.Owned
  decide +kernel

end EtherDevice.Hal1.MemoryPool
