import EtherDevice.Lib.Heap
import EtherDevice.Lib.Lender
import Mathlib.Logic.Function.Basic

/-!
# The buffers of a preview window

`QCameraGrallocMemory` dequeues its buffers from a native window and imports each into ion. Right
after, it gives the first ones back, as many as the window wants to keep; later a frame that is
shown goes back to the window for another buffer.

The window is a lender of handles. It takes a new buffer count only while nothing is lent, and then
has as many buffers as it was told. Camera memory is always granted, and freeing an ion handle
works. The file descriptor and the size of a buffer, which are those of the private handle, are left
out.
-/

namespace EtherDevice.Hal1.WindowBuffers

open Lib

inductive LocalFlag
  | notOwned
  | owned
  deriving DecidableEq, Repr

inductive Ptr
  | ionFd (serial : Nat)
  | ionHandle (serial : Nat)
  | camera (serial : Nat)
  deriving DecidableEq, Repr

/-- `QCameraMemInfo`; `none` is the descriptor -1, or no handle. -/
structure MemInfo where
  main_ion_fd : Option Nat := none
  handle : Option Nat := none
  deriving DecidableEq, Repr

structure GrallocMemory where
  mWindow : Bool
  mBufferCount : Nat := 0
  mMinUndequeuedBuffers : Nat := 0
  mBufferHandle : Nat → Option Nat := fun _ => none
  mLocalFlag : Nat → LocalFlag := fun _ => .notOwned
  mMemInfo : Nat → MemInfo := fun _ => {}
  mCameraMemory : Nat → Option Nat := fun _ => none
  window : Lender Nat := {}
  heap : Heap Ptr := {}

inductive Import
  | notOpened
  | notImported
  | imported
  deriving DecidableEq, Repr

/-- What the window and ion answer to `allocate`. The minimum of undequeued buffers is no more than
the buffer count. -/
structure Answers (count : Nat) where
  get_min_undequeued_buffer_count : Option (Fin (count + 1))
  set_buffer_count : Option (List Nat)
  set_buffers_geometry : Bool
  set_crop : Bool
  set_usage : Bool
  dequeue_buffer : Nat → Option Nat
  ion : Nat → Import
  /-- `cancel_buffer`, where an allocation is undone -/
  unwind : Nat → Bool
  cancel_buffer : Nat → Bool

namespace GrallocMemory

variable (s : GrallocMemory)

def Takes (count : Nat) (buffers : List Nat) : Prop :=
  buffers.length = count ∧ buffers.Nodup ∧ s.window.lent = []

instance (count : Nat) (buffers : List Nat) : Decidable (s.Takes count buffers) :=
  inferInstanceAs (Decidable (_ ∧ _))

def setBufferCount (count : Nat) : Option (List Nat) → Bool × GrallocMemory
  | none => (false, s)
  | some buffers =>
    if s.Takes count buffers then (true, { s with window := { s.window with free := buffers } })
    else (false, s)

/-- `enqueue_buffer` or `cancel_buffer`, if the window accepts it -/
def giveBack (accepted : Bool) (i : Nat) : GrallocMemory :=
  if accepted then { s with window := (s.mBufferHandle i).elim s.window s.window.giveBack } else s

def setFlag (i : Nat) (flag : LocalFlag) : GrallocMemory :=
  { s with mLocalFlag := Function.update s.mLocalFlag i flag }

inductive Shown
  | invalidOperation
  | badIndex
  | index (i : Nat)
  deriving DecidableEq, Repr

def displayBuffer (index : Nat) (enqueue : Bool) (dequeue : Option Nat) : Shown × GrallocMemory :=
  if s.mLocalFlag index = .notOwned then (.invalidOperation, s)
  else
    let s := if enqueue then (s.giveBack true index).setFlag index .notOwned else s
    match dequeue.bind s.window.lend with
    | none => (.badIndex, s)
    | some (handle, window) =>
      let s := { s with window := window }
      match (List.range s.mBufferCount).find? fun i => s.mBufferHandle i = some handle with
      | some i => (.index i, s.setFlag i .owned)
      | none => (.badIndex, s)

def fresh : Nat := s.heap.made.length

def free? (p : Option Ptr) : GrallocMemory := { s with heap := p.elim s.heap s.heap.free }

def releaseIon (i : Nat) : GrallocMemory :=
  (s.free? ((s.mMemInfo i).handle.map Ptr.ionHandle)).free?
    ((s.mMemInfo i).main_ion_fd.map Ptr.ionFd)

def cancelOwned (accepted : Nat → Bool) (i : Nat) : GrallocMemory :=
  (if s.mLocalFlag i ≠ .notOwned then s.giveBack (accepted i) i else s).setFlag i .notOwned

def forgetHandle (i : Nat) : GrallocMemory :=
  { s with mBufferHandle := Function.update s.mBufferHandle i none }

def undoDequeue (accepted : Nat → Bool) (s : GrallocMemory) (i : Nat) : GrallocMemory :=
  (s.cancelOwned accepted i).forgetHandle i

def undoImport (accepted : Nat → Bool) (s : GrallocMemory) (i : Nat) : GrallocMemory :=
  ((s.releaseIon i).cancelOwned accepted i).forgetHandle i

def reset : GrallocMemory := { s with mMemInfo := fun _ => {} }

def openIon (i : Nat) : GrallocMemory :=
  { s with
    mMemInfo := Function.update s.mMemInfo i { s.mMemInfo i with main_ion_fd := some s.fresh }
    heap := s.heap.alloc (.ionFd s.fresh) }

def importIon (i : Nat) : GrallocMemory :=
  { s with
    mMemInfo := Function.update s.mMemInfo i { s.mMemInfo i with handle := some s.fresh }
    heap := s.heap.alloc (.ionHandle s.fresh) }

def getMemory (i : Nat) : GrallocMemory :=
  { s with
    mCameraMemory := Function.update s.mCameraMemory i (some s.fresh)
    heap := s.heap.alloc (.camera s.fresh) }

def take (i handle : Nat) (window : Lender Nat) : GrallocMemory :=
  setFlag { s with
    window := window
    mBufferHandle := Function.update s.mBufferHandle i (some handle) } i .owned

def allocateLoop {count : Nat} (answers : Answers count) :
    Nat → Nat → GrallocMemory → Bool × GrallocMemory
  | _, 0, s => (true, s)
  | i, missing + 1, s =>
    match (answers.dequeue_buffer i).bind s.window.lend with
    | none =>
      let s := s.setFlag i .notOwned
      (false, ((List.range i).foldl (undoDequeue answers.unwind) s).reset)
    | some (handle, window) =>
      let s := s.take i handle window
      match answers.ion i with
      | .notOpened => (false, ((List.range i).foldl (undoImport answers.unwind) s).reset)
      | .notImported =>
        let s := (List.range i).foldl (undoImport answers.unwind) (s.openIon i)
        (false, (s.free? ((s.mMemInfo i).main_ion_fd.map Ptr.ionFd)).reset)
      | .imported => allocateLoop answers (i + 1) missing (((s.openIon i).importIon i).getMemory i)

def prepare {count : Nat} (answers : Answers count) : Bool × GrallocMemory :=
  match answers.get_min_undequeued_buffer_count with
  | none => (false, s)
  | some minimum =>
    let s := { s with mMinUndequeuedBuffers := minimum }
    match s.setBufferCount count answers.set_buffer_count with
    | (false, s) => (false, s)
    | (true, s) =>
      (answers.set_buffers_geometry && answers.set_crop && answers.set_usage, s)

def cancelFirst (accepted : Nat → Bool) (s : GrallocMemory) (i : Nat) : GrallocMemory :=
  (s.giveBack (accepted i) i).setFlag i .notOwned

def allocate (count : Nat) (answers : Answers count) : Bool × GrallocMemory :=
  if s.mWindow = false then (false, s)
  else
    match s.prepare answers with
    | (false, s) => (false, s)
    | (true, s) =>
      match s.allocateLoop answers 0 count with
      | (false, s) => (false, s)
      | (true, s) =>
        let s := { s with mBufferCount := count }
        (true, (List.range s.mMinUndequeuedBuffers).foldl (cancelFirst answers.cancel_buffer) s)

def deallocateSlot (accepted : Nat → Bool) (s : GrallocMemory) (i : Nat) : GrallocMemory :=
  ((s.free? ((s.mCameraMemory i).map Ptr.camera)).releaseIon i).cancelOwned
    (fun i => s.mWindow && accepted i) i

def deallocate (accepted : Nat → Bool) : GrallocMemory :=
  { (List.range s.mBufferCount).foldl (deallocateSlot accepted) s with mBufferCount := 0 }

def getRegFlags : List UInt8 :=
  List.replicate s.mMinUndequeuedBuffers 0 ++
    List.replicate (s.mBufferCount - s.mMinUndequeuedBuffers) 1

end GrallocMemory

inductive Op
  | allocate (count : Nat) (answers : Answers count)
  | displayBuffer (index : Nat) (enqueue : Bool) (dequeue : Option Nat)
  | deallocate (accepted : Nat → Bool)

namespace GrallocMemory

def exec (s : GrallocMemory) : Op → GrallocMemory
  | .allocate count answers => (s.allocate count answers).2
  | .displayBuffer index enqueue dequeue => (s.displayBuffer index enqueue dequeue).2
  | .deallocate accepted => s.deallocate accepted

def Holds (s : GrallocMemory) (i : Nat) : Prop :=
  ∃ handle, s.mBufferHandle i = some handle ∧ handle ∈ s.window.lent

def Flagged (s : GrallocMemory) : Prop :=
  ∀ i, s.mLocalFlag i = .owned ↔ i < s.mBufferCount ∧ s.Holds i

structure Undone (s s' : GrallocMemory) : Prop where
  buffers : ∀ handle ∈ s'.window.lent, handle ∈ s.window.lent
  ion : ∀ p ∈ s'.heap.made.drop s.heap.made.length, p ∈ s'.heap.freed.drop s.heap.freed.length

/-- The buffers that `getRegFlags` marks are those that are held. -/
def Registered (s : GrallocMemory) : Prop :=
  ∀ i < s.mBufferCount, s.getRegFlags[i]? = some 1 ↔ s.Holds i

structure Returned (s s' : GrallocMemory) : Prop where
  none : s'.window.lent = []
  once : ∃ handles, s'.window.returned = s.window.returned ++ handles ∧
    handles.Perm s.window.lent

/-- The buffers of the window are accounted for after a call. -/
def Kept (s : GrallocMemory) (op : Op) : Prop :=
  (s.exec op).Flagged ∧ match op with
  | .allocate count answers =>
    ((s.allocate count answers).1 = false → Undone s (s.exec op)) ∧
      ((s.allocate count answers).1 = true → (s.exec op).Registered)
  | .displayBuffer .. => True
  | .deallocate _ => Returned s (s.exec op)

def Refuses (s : GrallocMemory) {count : Nat} (answers : Answers count) : Prop :=
  s.mWindow = false ∨ answers.get_min_undequeued_buffer_count = none ∨
    (∀ buffers, answers.set_buffer_count = some buffers → ¬ s.Takes count buffers) ∨
    answers.set_buffers_geometry = false ∨ answers.set_crop = false ∨ answers.set_usage = false

structure Grants {count : Nat} (answers : Answers count) : Prop where
  buffers : ∀ i < count, (answers.dequeue_buffer i).isSome ∧ answers.ion i = .imported
  minimum : ∀ minimum, answers.get_min_undequeued_buffer_count = some minimum →
    ∀ i < minimum.val, answers.cancel_buffer i = true

/-- `allocate` fails before it has a buffer, or nothing in it fails. The window takes back what
`deallocate` returns. -/
def Cond (s : GrallocMemory) : Op → Prop
  | .allocate count answers =>
    s.Refuses answers ∨ 0 < count ∧ answers.dequeue_buffer 0 = none ∨ Grants answers
  | .displayBuffer .. => True
  | .deallocate accepted =>
    ∀ i < s.mBufferCount, s.mLocalFlag i = .owned → s.mWindow = true ∧ accepted i = true

end GrallocMemory

end EtherDevice.Hal1.WindowBuffers
