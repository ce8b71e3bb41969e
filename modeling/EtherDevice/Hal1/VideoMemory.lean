import EtherDevice.Hal1.MemoryPool
import EtherDevice.Lib.Heap

/-!
# The buffers of a video stream

`QCameraVideoMemory` adds two arrays to those of `QCameraStreamMemory`: the metadata that the
encoder gets, and the native handles in it that name the buffers. Its operations call those of the
base class, which already move `mBufferCount`, and then loop over ranges in terms of that count.

The type of the stream is not `CAM_STREAM_BUF_TYPE_USERPTR`, and there is no memory pool. An array
is total here, and a write behind slot 63 goes to the slot that it names. No count comes to 256.
-/

namespace EtherDevice.Hal1.VideoBuffers

open Lib
open MemoryPool (Ion ionSize maxNumFrames)

inductive Ptr
  | ion (serial : Nat)
  | camera (serial : Nat)
  | metadata (serial : Nat)
  | nativeHandle (serial : Nat)
  deriving DecidableEq, Repr

def Ptr.serial : Ptr → Nat
  | .ion serial | .camera serial | .metadata serial | .nativeHandle serial => serial

def Ptr.isIon : Ptr → Bool
  | .ion _ => true
  | _ => false

/-- `QCameraMemInfo`; `none` is the descriptor -1. -/
structure MemInfo where
  fd : Option Nat := none
  size : UInt32 := 0
  deriving DecidableEq, Repr

/-- `native_handle_t` with `data[0]` and `data[2]` -/
structure NativeHandle where
  serial : Nat
  fd : Option Nat := none
  size : UInt32 := 0
  deriving DecidableEq, Repr

structure VideoMemory where
  mBufferCount : Nat := 0
  mMetaBufCount : Nat := 0
  mMemInfo : Nat → MemInfo := fun _ => {}
  mCameraMemory : Nat → Option Nat := fun _ => none
  mMetadata : Nat → Option Nat := fun _ => none
  mNativeHandle : Nat → Option NativeHandle := fun _ => none
  heap : Heap Ptr := {}

inductive Meta
  | failed
  | noHandle
  | made
  deriving DecidableEq, Repr

namespace VideoMemory

variable (s : VideoMemory)

def fresh : Nat := s.heap.made.length

def free? (p : Option Ptr) : VideoMemory := { s with heap := p.elim s.heap s.heap.free }

def allocOneBuffer (i : Nat) (size : UInt32) (secure : Bool) : Ion → Bool × VideoMemory
  | .failed => (false, s)
  | .notShared => (false, { s with heap := (s.heap.alloc (.ion s.fresh)).free (.ion s.fresh) })
  | .allocated =>
    (true, { s with
      mMemInfo := Function.update s.mMemInfo i ⟨some s.fresh, ionSize size secure⟩
      heap := s.heap.alloc (.ion s.fresh) })

def deallocOneBuffer (i : Nat) : VideoMemory :=
  { s.free? ((s.mMemInfo i).fd.map Ptr.ion) with mMemInfo := Function.update s.mMemInfo i {} }

def allocSlots (size : UInt32) (secure : Bool) (answer : Nat → Ion) :
    Nat → Nat → VideoMemory → Bool × VideoMemory
  | _, 0, s => (true, s)
  | i, missing + 1, s =>
    match s.allocOneBuffer i size secure (answer i) with
    | (true, s) => allocSlots size secure answer (i + 1) missing s
    | (false, s) => (false, (List.range i).reverse.foldl deallocOneBuffer s)

def alloc (count : Nat) (size : UInt32) (secure : Bool) (answer : Nat → Ion) :
    Bool × VideoMemory :=
  if maxNumFrames < s.mBufferCount + count then (false, s)
  else s.allocSlots size secure answer s.mBufferCount count

def getMemory (memory : Nat → Bool) (s : VideoMemory) (i : Nat) : VideoMemory :=
  if memory i then
    { s with
      mCameraMemory := Function.update s.mCameraMemory i (some s.fresh)
      heap := s.heap.alloc (.camera s.fresh) }
  else { s with mCameraMemory := Function.update s.mCameraMemory i none }

/-- `QCameraStreamMemory::allocate`. A secure buffer has no camera memory. -/
def streamAllocate (count : Nat) (size : UInt32) (secure : Bool) (answer : Nat → Ion)
    (memory : Nat → Bool) : Bool × VideoMemory :=
  match s.alloc count size secure answer with
  | (false, s) => (false, s)
  | (true, s) =>
    let s := (List.range count).foldl (getMemory fun i => !secure && memory i) s
    (true, { s with mBufferCount := count })

def streamAllocateMore (count : Nat) (size : UInt32) (answer : Nat → Ion) (memory : Nat → Bool) :
    Bool × VideoMemory :=
  match s.alloc count size false answer with
  | (false, s) => (false, s)
  | (true, s) =>
    let s := (List.range' s.mBufferCount count).foldl (getMemory memory) s
    (true, { s with mBufferCount := s.mBufferCount + count })

def releaseCamera (i : Nat) : VideoMemory :=
  { s.free? ((s.mCameraMemory i).map Ptr.camera) with
    mCameraMemory := Function.update s.mCameraMemory i none }

def streamDeallocate : VideoMemory :=
  let s := (List.range s.mBufferCount).foldl releaseCamera s
  let s := (List.range s.mBufferCount).foldl deallocOneBuffer s
  { s with mBufferCount := 0 }

def freeMeta (i : Nat) : VideoMemory :=
  (s.free? ((s.mNativeHandle i).map (.nativeHandle ·.serial))).free?
    ((s.mMetadata i).map Ptr.metadata)

def newMetadata (i : Nat) : VideoMemory :=
  { s with
    mMetadata := Function.update s.mMetadata i (some s.fresh)
    heap := s.heap.alloc (.metadata s.fresh) }

def newHandle (i : Nat) : VideoMemory :=
  { s with
    mNativeHandle := Function.update s.mNativeHandle i (some ⟨s.fresh, none, 0⟩)
    heap := s.heap.alloc (.nativeHandle s.fresh) }

def allocateMetaLoop (answer : Nat → Meta) : Nat → Nat → VideoMemory → Bool × VideoMemory
  | _, 0, s => (true, s)
  | i, missing + 1, s =>
    match answer i with
    | .failed =>
      let s := { s with mMetadata := Function.update s.mMetadata i none }
      (false, (List.range i).reverse.foldl freeMeta s)
    | .noHandle =>
      let s := s.newMetadata i
      let s := { s with mNativeHandle := Function.update s.mNativeHandle i none }
      -- the metadata of this slot is released in each round
      (false, (List.range i).reverse.foldl
        (fun s j => freeMeta (s.free? ((s.mMetadata i).map Ptr.metadata)) j) s)
    | .made => allocateMetaLoop answer (i + 1) missing ((s.newMetadata i).newHandle i)

def allocateMeta (count : Nat) (answer : Nat → Meta) : Bool × VideoMemory :=
  match s.allocateMetaLoop answer 0 count with
  | (false, s) => (false, s)
  | (true, s) => (true, { s with mMetaBufCount := count })

def nameBuffer (i : Nat) (nh : NativeHandle) : VideoMemory :=
  let named := { nh with fd := (s.mMemInfo i).fd, size := (s.mMemInfo i).size }
  { s with mNativeHandle := Function.update s.mNativeHandle i (some named) }

def nameBuffers : Nat → Nat → VideoMemory → Bool × VideoMemory
  | _, 0, s => (true, s)
  | i, missing + 1, s =>
    match s.mNativeHandle i with
    | none => (false, s)
    | some nh => nameBuffers (i + 1) missing (s.nameBuffer i nh)

def allocate (count : Nat) (size : UInt32) (secure : Bool) (answer : Nat → Ion)
    (memory : Nat → Bool) (metas : Nat → Meta) : Bool × VideoMemory :=
  match s.streamAllocate count size secure answer memory with
  | (false, s) => (false, s)
  | (true, s) =>
    match s.allocateMeta count metas with
    | (false, s) => (false, s)
    | (true, s) =>
      match s.nameBuffers 0 count with
      | (false, s) => (false, s)
      | (true, s) => (true, { s with mBufferCount := count })

/-- What `allocateMore` releases of a slot if a later one gets no metadata. -/
def undoMore (i : Nat) : VideoMemory :=
  ((s.free? ((s.mMetadata i).map Ptr.metadata)).releaseCamera i).deallocOneBuffer i

def moreMetas (answer : Nat → Meta) : Nat → Nat → VideoMemory → Bool × VideoMemory
  | _, 0, s => (true, s)
  | i, missing + 1, s =>
    match answer i with
    | .failed =>
      let s := { s with mMetadata := Function.update s.mMetadata i none }
      (false, (List.range' s.mBufferCount (i - s.mBufferCount)).foldl undoMore s)
    | .noHandle =>
      let s := s.newMetadata i
      (false, { s with mNativeHandle := Function.update s.mNativeHandle i none })
    | .made =>
      let nh : NativeHandle := ⟨(s.newMetadata i).fresh, none, 0⟩
      moreMetas answer (i + 1) missing (((s.newMetadata i).newHandle i).nameBuffer i nh)

def allocateMore (count : Nat) (size : UInt32) (answer : Nat → Ion) (memory : Nat → Bool)
    (metas : Nat → Meta) : Bool × VideoMemory :=
  match s.streamAllocateMore count size answer memory with
  | (false, s) => (false, s)
  | (true, s) =>
    match s.moreMetas metas s.mBufferCount count with
    | (false, s) => (false, s)
    | (true, s) =>
      (true, { s with
        mBufferCount := s.mBufferCount + count
        mMetaBufCount := s.mBufferCount + count })

def deallocateMetaSlot (i : Nat) : VideoMemory :=
  { s.freeMeta i with
    mNativeHandle := Function.update s.mNativeHandle i none
    mMetadata := Function.update s.mMetadata i none }

def deallocateMeta : VideoMemory :=
  let s := (List.range s.mMetaBufCount).foldl deallocateMetaSlot s
  { s with mMetaBufCount := 0 }

def deallocate : VideoMemory :=
  { s.deallocateMeta.streamDeallocate with mBufferCount := 0, mMetaBufCount := 0 }

end VideoMemory

inductive Op
  | allocate (count : Nat) (size : UInt32) (secure : Bool) (answer : Nat → Ion)
      (memory : Nat → Bool) (metas : Nat → Meta)
  | allocateMore (count : Nat) (size : UInt32) (answer : Nat → Ion) (memory : Nat → Bool)
      (metas : Nat → Meta)
  | deallocate

namespace VideoMemory

def run (s : VideoMemory) : Op → Bool × VideoMemory
  | .allocate count size secure answer memory metas =>
    s.allocate count size secure answer memory metas
  | .allocateMore count size answer memory metas => s.allocateMore count size answer memory metas
  | .deallocate => (true, s.deallocate)

def exec (s : VideoMemory) (op : Op) : VideoMemory := (s.run op).2

/-- A slot with its buffer, its camera memory, its metadata, and a native handle that names the
buffer. -/
structure Slot (s : VideoMemory) (i : Nat) : Prop where
  ion : ∃ fd, (s.mMemInfo i).fd = some fd ∧ Ptr.ion fd ∈ s.heap.live
  camera : ∃ memory, s.mCameraMemory i = some memory ∧ Ptr.camera memory ∈ s.heap.live
  metadata : ∃ memory, s.mMetadata i = some memory ∧ Ptr.metadata memory ∈ s.heap.live
  handle : ∃ nh, s.mNativeHandle i = some nh ∧ Ptr.nativeHandle nh.serial ∈ s.heap.live ∧
    nh.fd = (s.mMemInfo i).fd ∧ nh.size = (s.mMemInfo i).size

/-- The counts are those of the buffers, and each slot below them is complete. -/
structure Counted (s : VideoMemory) : Prop where
  ions : s.heap.live.countP (·.isIon) = s.mBufferCount
  metas : s.mMetaBufCount = s.mBufferCount
  slots : ∀ i < s.mBufferCount, s.Slot i

/-- The buffers are counted after a call that succeeds, one that fails leaves nothing new, and
nothing was released twice. -/
structure Kept (s : VideoMemory) (op : Op) : Prop where
  counted : (s.run op).1 = true → (s.exec op).Counted
  nothing : (s.run op).1 = false → ∀ p ∈ (s.exec op).heap.live, p ∈ s.heap.live
  once : (s.exec op).heap.freed.Nodup

/-- The stream has no buffers where new ones are allocated, the call is refused or ion fails, or all
else is there and the buffers are not secure. More buffers are refused, or none. -/
def Cond (s : VideoMemory) : Op → Prop
  | .allocate count _ secure answer memory metas => maxNumFrames < s.mBufferCount + count ∨
    s.mBufferCount = 0 ∧ ((∃ i < count, answer i ≠ .allocated) ∨
      ∀ i < count, secure = false ∧ memory i = true ∧ metas i = .made)
  | .allocateMore count _ answer _ _ => count = 0 ∨ maxNumFrames < s.mBufferCount + count ∨
    s.mBufferCount = 0 ∧ ∃ i < count, answer i ≠ .allocated
  | .deallocate => True

end VideoMemory

end EtherDevice.Hal1.VideoBuffers
