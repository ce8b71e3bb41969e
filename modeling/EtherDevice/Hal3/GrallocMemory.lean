import EtherDevice.Hal3.Memory
import EtherDevice.Lib.Transition
import Mathlib.Data.Finset.Card

/-!
# Gralloc memory of the camera HAL

`QCamera3GrallocMemory` registers buffers of the framework in the slots of an array. A slot is in
use if its ion handle is not 0, and `getMatchBufIndex` finds it by its buffer handle. A failure of
`registerBuffer` leaves the buffer handle behind.
-/

namespace EtherDevice.Hal3.Memory

open Lib

/-- `private_handle_t`, as far as it is used. -/
structure PrivateHandle where
  fd : Int
  size : Nat
deriving DecidableEq

structure Slot where
  bufferHandle : Option Nat := none
  privateHandle : Option PrivateHandle := none
  currentFrameNumber : Int := -1
  memInfo : MemInfo := {}
  ptr : Nat := 0

structure RegisterAnswers where
  opens : Bool := true
  imports : Bool := true
  maps : Bool := true

structure Gralloc where
  slots : Nat → Slot := fun _ => {}
  bufferCount : Nat := 0
  os : Os := {}

namespace Gralloc

variable (s : Gralloc)

def setSlot (i : Nat) (slot : Slot) : Gralloc := { s with slots := Function.update s.slots i slot }

/-- `getMatchBufIndex`; `none` is `NULL`. -/
def getMatchBufIndex : Option Nat → Int
  | none => badValue
  | some key =>
    match (List.range maxNumFrames).find? fun i => (s.slots i).bufferHandle = some key with
    | some i => i
    | none => -1

/-- `getFreeIndexLocked`; `none` is -1. -/
def getFreeIndexLocked : Option Nat :=
  if maxNumFrames - 1 ≤ s.bufferCount then none
  else (List.range maxNumFrames).find? fun i => (s.slots i).memInfo.handle = 0

def registerBuffer (kernel : Kernel) (answers : RegisterAnswers) (buffer : Nat)
    (priv : PrivateHandle) : Int × Gralloc :=
  if 0 ≤ s.getMatchBufIndex (some buffer) then (alreadyExists, s)
  else if maxNumFrames - 1 ≤ s.bufferCount then (badIndex, s)
  else
    match s.getFreeIndexLocked with
    | none => (badIndex, s)
    | some idx =>
      let slot := { s.slots idx with bufferHandle := some buffer, privateHandle := some priv }
      let memInfo := slot.memInfo
      if answers.opens = false then
        (noMemory, s.setSlot idx { slot with memInfo := { memInfo with mainIonFd := -1 } })
      else
        let mainIonFd := kernel.descriptor s.os.live
        let s := { s with os := s.os.take (.descriptor mainIonFd) }
        let memInfo := { memInfo with mainIonFd }
        if answers.imports = false then
          (noMemory, { s.setSlot idx { slot with memInfo } with
            os := s.os.giveBack (.descriptor mainIonFd) })
        else
          let handle := kernel.handle s.os.live mainIonFd
          let s := { s with os := s.os.take (.handle mainIonFd handle) }
          let memInfo := { memInfo with fd := priv.fd, size := priv.size, handle }
          if answers.maps = false then
            (noMemory, s.setSlot idx { slot with memInfo := { memInfo with handle := 0 } })
          else
            let ptr := kernel.address s.os.live
            (0, { s.setSlot idx { slot with memInfo, ptr } with
              bufferCount := s.bufferCount + 1
              os := s.os.take (.mapping ptr) })

def unregisterBufferLocked (idx : Nat) : Gralloc :=
  let slot := s.slots idx
  { s.setSlot idx { slot with
      bufferHandle := none
      privateHandle := none
      memInfo := { fd := 0, mainIonFd := -1, handle := 0, size := 0 }
      ptr := 0 } with
    bufferCount := s.bufferCount - 1
    os := ((s.os.giveBack (.mapping slot.ptr)).giveBack
      (.handle slot.memInfo.mainIonFd slot.memInfo.handle)).giveBack
        (.descriptor slot.memInfo.mainIonFd) }

def unregisterBuffer (idx : Nat) : Int × Gralloc :=
  if maxNumFrames ≤ idx then (badValue, s)
  else if (s.slots idx).memInfo.handle = 0 then (badValue, s)
  else (0, s.unregisterBufferLocked idx)

def unregisterSlot (s : Gralloc) (cnt : Nat) : Gralloc :=
  if (s.slots cnt).memInfo.handle = 0 then s else s.unregisterBufferLocked cnt

def unregisterBuffers : Gralloc :=
  { (List.range maxNumFrames).foldl unregisterSlot s with bufferCount := 0 }

def markFrameNumber (index frameNumber : Nat) : Int × Gralloc :=
  if maxNumFrames ≤ index then (badIndex, s)
  else if (s.slots index).memInfo.handle = 0 then (badIndex, s)
  else (0, s.setSlot index
    { s.slots index with currentFrameNumber := (frameNumber : Int).bmod (2 ^ 32) })

def getFrameNumber (index : Nat) : Int :=
  if maxNumFrames ≤ index then -1
  else if (s.slots index).memInfo.handle = 0 then -1
  else (s.slots index).currentFrameNumber

end Gralloc

/-- The memory, and the buffers that were registered and not unregistered since. -/
structure Registry extends Gralloc where
  registered : List Nat := []

inductive GrallocOp
  | registerBuffer (kernel : Kernel) (answers : RegisterAnswers) (buffer : Nat)
    (priv : PrivateHandle)
  | unregisterBuffer (idx : Nat)
  | unregisterBuffers
  | markFrameNumber (index frameNumber : Nat)

namespace GrallocOp

def call (s : Gralloc) : GrallocOp → Int × Gralloc
  | registerBuffer kernel answers buffer priv => s.registerBuffer kernel answers buffer priv
  | unregisterBuffer idx => s.unregisterBuffer idx
  | unregisterBuffers => (0, s.unregisterBuffers)
  | markFrameNumber index frameNumber => s.markFrameNumber index frameNumber

def record (s : Registry) : GrallocOp → List Nat
  | registerBuffer _ _ buffer _ => buffer :: s.registered
  | unregisterBuffer idx =>
    s.registered.filter fun buffer => some buffer ≠ (s.slots idx).bufferHandle
  | unregisterBuffers => []
  | markFrameNumber _ _ => s.registered

def exec (s : Registry) (op : GrallocOp) : Registry where
  toGralloc := (op.call s.toGralloc).2
  registered := if (op.call s.toGralloc).1 = 0 then op.record s else s.registered

end GrallocOp

variable {s : Registry} {g : Gralloc} {idx buffer : Nat} {op : GrallocOp}

def Gralloc.occupied (s : Gralloc) : Finset Nat :=
  (Finset.range maxNumFrames).filter fun i => (s.slots i).memInfo.handle ≠ 0

/-- A slot has an ion handle if and only if it has a buffer, which no other slot has. The count is
that of the slots in use, and only registered buffers are found. -/
structure RegistryKept (s : Registry) : Prop where
  handles : ∀ i < maxNumFrames,
    (s.slots i).memInfo.handle ≠ 0 ↔ (s.slots i).bufferHandle.isSome = true
  distinct : ∀ i < maxNumFrames, ∀ j < maxNumFrames, ∀ b, (s.slots i).bufferHandle = some b →
    (s.slots j).bufferHandle = some b → i = j
  count : s.bufferCount = s.occupied.card
  found : ∀ b, 0 ≤ s.getMatchBufIndex (some b) → b ∈ s.registered

/-- The registry is kept, and a failed registration leaves slots and descriptors alone. -/
def GrallocOp.Kept (s : Registry) (op : GrallocOp) : Prop :=
  RegistryKept (op.exec s) ∧
    match op with
    | registerBuffer .. => (op.call s.toGralloc).1 ≠ 0 →
        (op.exec s).slots = s.slots ∧ (op.exec s).os.live.Perm s.os.live
    | _ => True

def Gralloc.Refuses (s : Gralloc) (buffer : Nat) : Prop :=
  0 ≤ s.getMatchBufIndex (some buffer) ∨ maxNumFrames - 1 ≤ s.bufferCount ∨
    s.getFreeIndexLocked = none

/-- A registration that takes a slot meets no failure. -/
def GrallocOp.Completes (s : Registry) : GrallocOp → Prop
  | registerBuffer _ answers buffer _ => s.Refuses buffer ∨
      answers.opens = true ∧ answers.imports = true ∧ answers.maps = true
  | _ => True

theorem getMatchBufIndex_nonneg : 0 ≤ g.getMatchBufIndex (some buffer) ↔
    ∃ i < maxNumFrames, (g.slots i).bufferHandle = some buffer := by
  unfold Gralloc.getMatchBufIndex
  dsimp only
  split
  · rename_i i hfind
    have hi : i < maxNumFrames := List.mem_range.mp (List.mem_of_find?_eq_some hfind)
    exact iff_of_true (Int.natCast_nonneg i) ⟨i, hi, by simpa using List.find?_some hfind⟩
  simp_all

theorem getFreeIndexLocked_eq_some (hfree : g.getFreeIndexLocked = some idx) :
    idx < maxNumFrames ∧ (g.slots idx).memInfo.handle = 0 := by
  simp_all [Gralloc.getFreeIndexLocked]

theorem registryKept_start : RegistryKept {} where
  handles _ _ := by simp
  distinct _ _ _ _ _ h := by cases h
  count := by simp [Gralloc.occupied]
  found b h := by
    obtain ⟨i, -, hi⟩ := getMatchBufIndex_nonneg.mp h
    cases hi

@[simp] theorem setSlot_self (g : Gralloc) (idx : Nat) (slot : Slot) :
    (g.setSlot idx slot).slots idx = slot := Function.update_self ..

theorem setSlot_of_ne {i : Nat} (hne : i ≠ idx) (g : Gralloc) (slot : Slot) :
    (g.setSlot idx slot).slots i = g.slots i := Function.update_of_ne hne ..

theorem mem_occupied {i : Nat} :
    i ∈ g.occupied ↔ i < maxNumFrames ∧ (g.slots i).memInfo.handle ≠ 0 := by
  simp [Gralloc.occupied]

theorem occupied_take (g : Gralloc) (hidx : idx < maxNumFrames) {slot : Slot}
    (hslot : slot.memInfo.handle ≠ 0) :
    (g.setSlot idx slot).occupied = insert idx g.occupied := by
  ext i
  rw [mem_occupied, Finset.mem_insert, mem_occupied]
  by_cases hi : i = idx
  · subst hi
    simp [hidx, hslot]
  · rw [setSlot_of_ne hi]
    simp [hi]

theorem RegistryKept.take (h : RegistryKept s) (hidx : idx < maxNumFrames)
    (hfree : (s.slots idx).memInfo.handle = 0) (hnew : ¬ 0 ≤ s.getMatchBufIndex (some buffer))
    {slot : Slot} (hslot : slot.memInfo.handle ≠ 0) (hbuffer : slot.bufferHandle = some buffer)
    (os : Os) : RegistryKept {
      toGralloc := { s.setSlot idx slot with bufferCount := s.bufferCount + 1, os }
      registered := buffer :: s.registered } := by
  have hother : ∀ i < maxNumFrames, (s.slots i).bufferHandle ≠ some buffer := fun i hi heq =>
    hnew (getMatchBufIndex_nonneg.mpr ⟨i, hi, heq⟩)
  refine ⟨fun i hi => ?_, fun i hi j hj b hbi hbj => ?_, ?_, fun b hb => ?_⟩
  · by_cases heq : i = idx
    · simp [heq, hslot, hbuffer]
    · rw [setSlot_of_ne heq]
      exact h.handles i hi
  · by_cases hie : i = idx
    · grind [setSlot_self, setSlot_of_ne]
    · rw [setSlot_of_ne hie] at hbi
      by_cases hje : j = idx
      · simp_all
      · rw [setSlot_of_ne hje] at hbj
        exact h.distinct i hi j hj b hbi hbj
  · have hnot : idx ∉ s.occupied := fun hin => (mem_occupied.mp hin).2 hfree
    have hcard := congrArg Finset.card (occupied_take s.toGralloc hidx hslot)
    rw [Finset.card_insert_of_notMem hnot, ← h.count] at hcard
    exact hcard.symm
  · obtain ⟨i, hi, hbi⟩ := getMatchBufIndex_nonneg.mp hb
    by_cases hie : i = idx
    · simp_all
    · rw [setSlot_of_ne hie] at hbi
      exact List.mem_cons_of_mem _ (h.found b (getMatchBufIndex_nonneg.mpr ⟨i, hi, hbi⟩))

theorem RegistryKept.unregister (h : RegistryKept s) (hidx : idx < maxNumFrames)
    (hused : (s.slots idx).memInfo.handle ≠ 0) : RegistryKept {
      toGralloc := s.unregisterBufferLocked idx
      registered := s.registered.filter fun b => some b ≠ (s.slots idx).bufferHandle } := by
  have hslots : ∀ i, i ≠ idx → (s.unregisterBufferLocked idx).slots i = s.slots i := fun i hi =>
    setSlot_of_ne hi ..
  have hself : ((s.unregisterBufferLocked idx).slots idx).memInfo.handle = 0 ∧
      ((s.unregisterBufferLocked idx).slots idx).bufferHandle = none := by
    simp [Gralloc.unregisterBufferLocked]
  have hne : ∀ i b, ((s.unregisterBufferLocked idx).slots i).bufferHandle = some b → i ≠ idx := by
    rintro i b hb rfl
    rw [hself.2] at hb
    cases hb
  refine ⟨fun i hi => ?_, fun i hi j hj b hbi hbj => ?_, ?_, fun b hb => ?_⟩
  · by_cases hie : i = idx
    · subst hie
      simp [hself]
    · rw [hslots i hie]
      exact h.handles i hi
  · rw [hslots i (hne i b hbi)] at hbi
    rw [hslots j (hne j b hbj)] at hbj
    exact h.distinct i hi j hj b hbi hbj
  · have hin : idx ∈ s.occupied := mem_occupied.mpr ⟨hidx, hused⟩
    have hocc : (s.unregisterBufferLocked idx).occupied = s.occupied.erase idx := by
      grind [mem_occupied]
    rw [hocc, Finset.card_erase_of_mem hin, ← h.count]
    rfl
  · obtain ⟨i, hi, hbi⟩ := getMatchBufIndex_nonneg.mp hb
    have hie := hne i b hbi
    rw [hslots i hie] at hbi
    refine List.mem_filter.mpr ⟨h.found b (getMatchBufIndex_nonneg.mpr ⟨i, hi, hbi⟩), ?_⟩
    refine decide_eq_true fun heq => hie ?_
    exact h.distinct i hi idx hidx b hbi heq.symm

theorem unregisterSlots_kept (slots : List Nat) (hslots : ∀ i ∈ slots, i < maxNumFrames)
    {s : Registry} (h : RegistryKept s) :
    RegistryKept { s with toGralloc := slots.foldl Gralloc.unregisterSlot s.toGralloc } ∧
      ∀ i < maxNumFrames, i ∈ slots ∨ (s.slots i).memInfo.handle = 0 →
        ((slots.foldl Gralloc.unregisterSlot s.toGralloc).slots i).memInfo.handle = 0 := by
  induction slots generalizing s with
  | nil => exact ⟨h, fun i _ hi => hi.resolve_left List.not_mem_nil⟩
  | cons idx slots ih =>
    have hidx := hslots idx List.mem_cons_self
    have hround : RegistryKept { s with toGralloc := s.unregisterSlot idx } ∧
        ∀ i, i = idx ∨ (s.slots i).memInfo.handle = 0 →
          ((s.unregisterSlot idx).slots i).memInfo.handle = 0 := by
      unfold Gralloc.unregisterSlot
      split
      · simp_all
      · rename_i hused
        have hkept := h.unregister hidx hused
        refine ⟨⟨hkept.handles, hkept.distinct, hkept.count, fun b hb => ?_⟩, fun i hi => ?_⟩
        · exact List.mem_of_mem_filter (hkept.found b hb)
        · unfold Gralloc.unregisterBufferLocked
          by_cases hie : i = idx
          · rw [hie, setSlot_self]
          simp_all [setSlot_of_ne]
    grind

theorem unregisterBuffers_kept (h : RegistryKept s) :
    RegistryKept { toGralloc := s.unregisterBuffers, registered := [] } := by
  obtain ⟨hkept, hall⟩ := unregisterSlots_kept (List.range maxNumFrames)
    (fun i hi => List.mem_range.mp hi) h
  unfold Gralloc.unregisterBuffers
  generalize (List.range maxNumFrames).foldl Gralloc.unregisterSlot s.toGralloc = g at hkept hall
  have hfree : ∀ i < maxNumFrames, (g.slots i).memInfo.handle = 0 := fun i hi =>
    hall i hi (.inl (List.mem_range.mpr hi))
  refine ⟨hkept.handles, hkept.distinct, ?_, fun b hb => ?_⟩
  · have hnone : g.occupied = ∅ := by
      ext i
      rw [mem_occupied]
      simpa using hfree i
    exact (congrArg Finset.card hnone).symm
  · obtain ⟨i, hi, hbi⟩ := getMatchBufIndex_nonneg.mp hb
    have hsome := (hkept.handles i hi).mpr (by rw [show _ = some b from hbi]; rfl)
    exact absurd (hfree i hi) hsome

theorem markFrameNumber_kept (h : RegistryKept s) (index frameNumber : Nat) :
    RegistryKept { s with toGralloc := (s.markFrameNumber index frameNumber).2 } := by
  unfold Gralloc.markFrameNumber
  split
  · exact h
  split
  · exact h
  have hsame : ∀ i, ((s.setSlot index { s.slots index with
        currentFrameNumber := (frameNumber : Int).bmod (2 ^ 32) }).slots i).bufferHandle =
          (s.slots i).bufferHandle ∧
      ((s.setSlot index { s.slots index with
        currentFrameNumber := (frameNumber : Int).bmod (2 ^ 32) }).slots i).memInfo =
          (s.slots i).memInfo := by
    grind [setSlot_self, setSlot_of_ne]
  refine ⟨fun i hi => ?_, fun i hi j hj b hbi hbj => ?_, ?_, fun b hb => ?_⟩
  · rw [(hsame i).1, (hsame i).2]
    exact h.handles i hi
  · exact h.distinct i hi j hj b ((hsame i).1.symm.trans hbi) ((hsame j).1.symm.trans hbj)
  · refine h.count.trans (congrArg Finset.card ?_)
    ext i
    rw [mem_occupied, mem_occupied]
    rw [(hsame i).2]
  · obtain ⟨i, hi, hbi⟩ := getMatchBufIndex_nonneg.mp hb
    exact h.found b (getMatchBufIndex_nonneg.mpr ⟨i, hi, (hsame i).1.symm.trans hbi⟩)

theorem registerBuffer_refused (kernel : Kernel) (answers : RegisterAnswers) (priv : PrivateHandle)
    (hrefuses : g.Refuses buffer) :
    ∃ rc, rc ≠ 0 ∧ g.registerBuffer kernel answers buffer priv = (rc, g) := by
  unfold Gralloc.registerBuffer
  by_cases hmatch : 0 ≤ g.getMatchBufIndex (some buffer)
  · simp [alreadyExists, hmatch]
  rw [if_neg hmatch]
  by_cases hcount : maxNumFrames - 1 ≤ g.bufferCount
  · simp [badIndex, hcount]
  rw [if_neg hcount, (hrefuses.resolve_left hmatch).resolve_left hcount]
  exact ⟨badIndex, by decide, rfl⟩

theorem registerBuffer_cases (kernel : Kernel) (answers : RegisterAnswers) (priv : PrivateHandle)
    (hrefuses : ¬ g.Refuses buffer) : ∃ idx < maxNumFrames,
    (g.slots idx).memInfo.handle = 0 ∧ g.getFreeIndexLocked = some idx ∧
      (answers.opens = true ∧ answers.imports = true ∧ answers.maps = true →
        ∃ slot os, g.registerBuffer kernel answers buffer priv =
            (0, { g.setSlot idx slot with bufferCount := g.bufferCount + 1, os }) ∧
          slot.memInfo.handle ≠ 0 ∧ slot.bufferHandle = some buffer) ∧
      (¬ (answers.opens = true ∧ answers.imports = true ∧ answers.maps = true) →
        ∃ slot os, g.registerBuffer kernel answers buffer priv =
            (noMemory, { g.setSlot idx slot with os }) ∧
          slot.memInfo.handle = 0 ∧ slot.bufferHandle = some buffer) := by
  unfold Gralloc.Refuses at hrefuses
  rw [not_or, not_or] at hrefuses
  obtain ⟨hmatch, hcount, hfull⟩ := hrefuses
  obtain ⟨idx, hfree⟩ := Option.ne_none_iff_exists'.mp hfull
  obtain ⟨hidx, hzero⟩ := getFreeIndexLocked_eq_some hfree
  refine ⟨idx, hidx, hzero, hfree, fun hok => ?_, fun hfail => ?_⟩
  · obtain ⟨hopens, himports, hmaps⟩ := hok
    unfold Gralloc.registerBuffer
    rw [if_neg hmatch, if_neg hcount, hfree]
    simp only [hopens, himports, hmaps, Bool.true_eq_false, if_false]
    exact ⟨_, _, rfl, kernel.handle_ne_zero _ _, rfl⟩
  · unfold Gralloc.registerBuffer
    rw [if_neg hmatch, if_neg hcount, hfree]
    dsimp only
    split
    · exact ⟨_, g.os, rfl, hzero, rfl⟩
    split
    · exact ⟨_, _, rfl, hzero, rfl⟩
    split
    · exact ⟨_, _, rfl, rfl, rfl⟩
    · refine absurd ⟨?_, ?_, ?_⟩ hfail <;> simp_all

theorem exec_of_call (s : Registry) (op : GrallocOp) {rc : Int}
    (hcall : op.call s.toGralloc = (rc, g)) : op.exec s =
    { toGralloc := g, registered := if rc = 0 then op.record s else s.registered } := by
  unfold GrallocOp.exec
  simp only [hcall]

theorem kept_of_completes (h : RegistryKept s) (hcompletes : op.Completes s) : op.Kept s := by
  cases op with
  | registerBuffer kernel answers buffer priv =>
    unfold GrallocOp.Kept
    by_cases hrefuses : s.Refuses buffer
    · obtain ⟨rc, hrc, hrun⟩ := registerBuffer_refused kernel answers priv hrefuses
      rw [exec_of_call s (.registerBuffer kernel answers buffer priv) hrun, if_neg hrc]
      exact ⟨h, fun _ => ⟨rfl, .refl _⟩⟩
    · obtain ⟨idx, hidx, hzero, -, hok, -⟩ := registerBuffer_cases kernel answers priv hrefuses
      obtain ⟨slot, os, hrun, hhandle, hbuffer⟩ := hok (hcompletes.resolve_left hrefuses)
      rw [exec_of_call s (.registerBuffer kernel answers buffer priv) hrun, if_pos rfl]
      refine ⟨h.take hidx hzero (fun hmatch => hrefuses (.inl hmatch)) hhandle hbuffer os, ?_⟩
      exact fun hne => absurd (congrArg Prod.fst hrun) hne
  | unregisterBuffer idx =>
    refine ⟨?_, trivial⟩
    by_cases hidx : maxNumFrames ≤ idx
    · have hrun : s.unregisterBuffer idx = (badValue, s.toGralloc) := if_pos hidx
      rw [exec_of_call s (.unregisterBuffer idx) hrun, if_neg (by decide)]
      exact h
    by_cases hfree : (s.slots idx).memInfo.handle = 0
    · have hrun : s.unregisterBuffer idx = (badValue, s.toGralloc) :=
        (if_neg hidx).trans (if_pos hfree)
      rw [exec_of_call s (.unregisterBuffer idx) hrun, if_neg (by decide)]
      exact h
    · have hrun : s.unregisterBuffer idx = (0, s.unregisterBufferLocked idx) :=
        (if_neg hidx).trans (if_neg hfree)
      rw [exec_of_call s (.unregisterBuffer idx) hrun, if_pos rfl]
      exact h.unregister (Nat.not_le.mp hidx) hfree
  | unregisterBuffers =>
    refine ⟨?_, trivial⟩
    exact unregisterBuffers_kept h
  | markFrameNumber index frameNumber =>
    refine ⟨?_, trivial⟩
    have hkept := markFrameNumber_kept h index frameNumber
    unfold GrallocOp.exec GrallocOp.call GrallocOp.record
    rw [ite_self]
    exact hkept

theorem completes_of_kept (hkept : op.Kept s) : op.Completes s := by
  cases op with
  | registerBuffer kernel answers buffer priv =>
    by_contra hnot
    unfold GrallocOp.Completes at hnot
    rw [not_or] at hnot
    obtain ⟨idx, hidx, -, -, -, hfailed⟩ := registerBuffer_cases kernel answers priv hnot.1
    obtain ⟨slot, os, hrun, hhandle, hbuffer⟩ := hfailed hnot.2
    -- the slot has the buffer and no ion handle
    have hiff := hkept.1.handles idx hidx
    rw [exec_of_call s (.registerBuffer kernel answers buffer priv) hrun] at hiff
    simp_all
  | unregisterBuffer | unregisterBuffers | markFrameNumber => trivial

/-- **The registry of gralloc buffers is kept**, and failed registrations leave no trace, exactly
in the runs in which no registration fails after it took a slot. -/
theorem registryKept_iff_completes (ops : List GrallocOp) : RegistryKept {} ∧
    (System.Along (fun s op => op.Kept s) GrallocOp.exec ops {} ↔
      System.Along (fun s op => op.Completes s) GrallocOp.exec ops {}) := by
  refine ⟨registryKept_start, System.along_iff (P := RegistryKept)
    (fun s op h => ⟨?_, fun hc => ?_⟩) (fun s op h hc => ?_) ops registryKept_start⟩
  · exact completes_of_kept
  · exact kept_of_completes h hc
  · exact (kept_of_completes h hc).1

def failedRegistration : List GrallocOp :=
  [.registerBuffer Kernel.next { maps := false } 7 ⟨20, 4096⟩]

theorem not_registryKept_failed :
    ¬ ∀ ops : List GrallocOp, System.Along (fun s op => op.Kept s) GrallocOp.exec ops {} := by
  intro h
  have hiff := (h failedRegistration).1.1.handles 0 (by decide)
  exact absurd (hiff.mpr (by decide +kernel)) (by decide +kernel)

end EtherDevice.Hal3.Memory
