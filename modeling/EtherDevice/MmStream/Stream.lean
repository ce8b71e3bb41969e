import Mathlib
import EtherDevice.Lib.Transition

/-!
# The buffers of a camera stream

The poll thread dequeues the frames of an active stream of `mm_camera_stream.c` and gives them to
the channel of its bundle, to a linked channel, and to the command thread of the stream, which
calls the registered callbacks. Whoever got a buffer returns it with `mm_stream_buf_done`.

A section that holds `buf_lock` or `cb_lock` is one step, and so is each notification.
`VIDIOC_DQBUF` goes with the section after it. `kernel` is the queue of the kernel, and `held` are
the buffers that were delivered and not returned. `requeued` and `lastReturns` record the calls of
`mm_stream_qbuf` and the returns that left no holder.
-/

namespace EtherDevice.MmStream

open Lib

abbrev bufCbMax : Nat := 4

/-- Who can have a buffer: the client before the stream is started, the two channels, the command
thread, and a registered callback. -/
inductive Holder where
  | client
  | channel
  | linked
  | cmdThread
  | user (i : Fin bufCbMax)
deriving DecidableEq, Fintype

structure BufStatus where
  bufRefcnt : Nat
  inKernel : Bool
deriving DecidableEq

inductive QbufResult where
  | notInvalidated
  | failed
  | queued
deriving DecidableEq

inductive Notify where
  | idle
  | read (idx : Nat)
  | checked (idx : Nat) (hasCb : Bool)
  | notifying (idx : Nat) (hasCb : Bool)
  | linking (idx : Nat) (hasCb : Bool)
  | queueing (idx : Nat) (hasCb : Bool)
deriving DecidableEq

/-- Where `mm_stream_dispatch_app_data` is: it has come to a callback, or past all of them. -/
inductive Dispatch where
  | idle
  | running (idx i : Nat)
deriving DecidableEq

/-- `mm_stream_t`. A callback is its `cb_count`, and is missing where `cb` is null. -/
structure Stream where
  isBundled : Bool
  isLinked : Bool
  bufCb : Fin bufCbMax → Option Int
  bufStatus : Nat → BufStatus
  queuedBufferCount : Int
  polled : Bool
  cmdQueue : List Nat
  notify : Notify
  dispatch : Dispatch
  kernel : List Nat
  held : List (Nat × Holder)
  requeued : List Nat
  lastReturns : List Nat

namespace Stream

variable (s : Stream)

def giving (idx : Nat) : List Holder :=
  match s.notify with
  | .notifying b hasCb =>
    if b = idx then
      (if s.isBundled then [.channel] else []) ++ if hasCb then [.cmdThread] else []
    else []
  | .linking b hasCb => if b = idx ∧ hasCb then [.cmdThread] else []
  | .queueing b hasCb => if b = idx ∧ hasCb then [.cmdThread] else []
  | _ => []

def dispatching (idx : Nat) : List Holder :=
  match s.dispatch with
  | .idle => []
  | .running b _ => if b = idx then [.cmdThread] else []

def heldBy (idx : Nat) : List Holder :=
  (s.held.filter fun g => g.1 = idx).map Prod.snd

/-- The holders of the buffer: those that have been given it, or are being given it, and have not
returned it. -/
def holders (idx : Nat) : List Holder :=
  s.heldBy idx ++ (s.cmdQueue.filter (· = idx)).map (fun _ => Holder.cmdThread) ++
    s.dispatching idx ++ s.giving idx

def setStatus (idx : Nat) (status : BufStatus) : Stream :=
  { s with bufStatus := Function.update s.bufStatus idx status }

def addRef (idx n : Nat) : Stream :=
  s.setStatus idx { s.bufStatus idx with
    bufRefcnt := ((s.bufStatus idx).bufRefcnt + n) % 256 }

def deliver (idx : Nat) (h : Holder) : Stream := { s with held := (idx, h) :: s.held }

def unqueue : Stream :=
  let s := { s with queuedBufferCount := s.queuedBufferCount - 1 }
  if s.queuedBufferCount = 0 then { s with polled := false } else s

def qbuf (idx : Nat) (result : QbufResult) : Stream :=
  if result = .notInvalidated then s
  else
    let s := { s with queuedBufferCount := s.queuedBufferCount + 1 }
    let s := if s.queuedBufferCount = 1 then { s with polled := true } else s
    if result = .queued then { s with kernel := s.kernel ++ [idx] } else s.unqueue

def bufDone (idx : Nat) (result : QbufResult) : Stream :=
  let status := s.bufStatus idx
  if status.bufRefcnt = 0 then s
  else
    let s := s.setStatus idx { status with bufRefcnt := status.bufRefcnt - 1 }
    if status.bufRefcnt - 1 = 0 then
      let s := { s.qbuf idx result with requeued := idx :: s.requeued }
      if result = .queued then
        s.setStatus idx { s.bufStatus idx with inKernel := true }
      else s
    else s

def giveBack (idx : Nat) (result : QbufResult) : Stream :=
  let s := if s.holders idx = [] then { s with lastReturns := idx :: s.lastReturns } else s
  s.bufDone idx result

/-- `mm_stream_read_msm_frame`, with the frame that `VIDIOC_DQBUF` gave and the answer of
`clean_invalidate_buf`. -/
def readMsmFrame (frame : Option (Nat × Bool)) : Stream :=
  match frame with
  | none => s
  | some (idx, cleaned) =>
    let s := { s with kernel := s.kernel.erase idx }.unqueue
    if cleaned then { s with notify := .read idx } else s

def hasCb : Bool := (List.finRange bufCbMax).any fun i => (s.bufCb i).isSome

/-- The next step of `mm_stream_data_notify` and `mm_stream_handle_rcvd_buf`, with the answer of
`mm_stream_notify_channel`, or of the allocation for the command thread. -/
def dataNotify (notified : Bool) : Stream :=
  match s.notify with
  | .idle => s
  | .read idx => { s with notify := .checked idx s.hasCb }
  | .checked idx hasCb =>
    let s := s.setStatus idx { s.bufStatus idx with inKernel := false }
    let s := if s.isBundled then s.addRef idx 1 else s
    let s := s.addRef idx hasCb.toNat
    { s with notify := .notifying idx hasCb }
  | .notifying idx hasCb =>
    let s := if s.isBundled ∧ notified then s.deliver idx .channel else s
    { s with notify := .linking idx hasCb }
  | .linking idx hasCb =>
    let s := if s.isLinked then
        let s := s.addRef idx 1
        if notified then s.deliver idx .linked else s
      else s
    { s with notify := .queueing idx hasCb }
  | .queueing idx hasCb =>
    let s := if hasCb ∧ notified then { s with cmdQueue := s.cmdQueue ++ [idx] } else s
    { s with notify := .idle }

/-- The count of a callback after a call, and no callback after its last one. -/
def countDown (count : Int) : Option Int :=
  if 0 < count then if count - 1 = 0 then none else some (count - 1) else some count

def callback (idx : Nat) (i : Fin bufCbMax) : Stream :=
  match s.bufCb i with
  | none => s
  | some count =>
    let s := if count ≠ 0 then (s.addRef idx 1).deliver idx (.user i) else s
    { s with bufCb := Function.update s.bufCb i (countDown count) }

def dispatchAppData (result : QbufResult) : Stream :=
  match s.dispatch with
  | .idle =>
    match s.cmdQueue with
    | [] => s
    | idx :: cmdQueue => { s with cmdQueue, dispatch := .running idx 0 }
  | .running idx i =>
    if h : i < bufCbMax then
      { s.callback idx ⟨i, h⟩ with dispatch := .running idx (i + 1) }
    else { s with dispatch := .idle }.giveBack idx result

def regBufCb (count : Int) : Stream :=
  match (List.finRange bufCbMax).find? fun i => (s.bufCb i).isNone with
  | none => s
  | some i => { s with bufCb := Function.update s.bufCb i (some count) }

inductive Op where
  | readMsmFrame (frame : Option (Nat × Bool))
  | dataNotify (notified : Bool)
  | dispatchAppData (result : QbufResult)
  | bufDone (idx : Nat) (h : Holder) (result : QbufResult)
  | regBufCb (count : Int)
  | link (isLinked : Bool)

def exec : Op → Stream
  | .readMsmFrame frame => s.readMsmFrame frame
  | .dataNotify notified => s.dataNotify notified
  | .dispatchAppData result => s.dispatchAppData result
  | .bufDone idx h result => { s with held := s.held.erase (idx, h) }.giveBack idx result
  | .regBufCb count => s.regBufCb count
  | .link isLinked => { s with isLinked }

def CbLocked : Prop :=
  match s.dispatch with
  | .idle => False
  | .running _ i => i < bufCbMax

instance : Decidable s.CbLocked := by
  unfold CbLocked
  split <;> infer_instance

/-- The poll thread handles one frame after the other, a holder returns what it has, and
`cb_lock` is respected. -/
def Enabled : Op → Prop
  | .readMsmFrame frame => s.notify = .idle ∧ ∀ f ∈ frame, f.1 ∈ s.kernel
  | .dataNotify _ => (∃ idx, s.notify = .read idx) → ¬ s.CbLocked
  | .dispatchAppData _ => True
  | .bufDone idx h _ => (idx, h) ∈ s.held
  | .regBufCb _ => ¬ s.CbLocked
  | .link _ => True

instance (s : Stream) (op : Op) : Decidable (s.Enabled op) := by
  cases op with
  | dataNotify notified =>
    unfold Enabled
    have : Decidable (∃ idx, s.notify = .read idx) :=
      match s.notify with
      | .read idx => .isTrue ⟨idx, rfl⟩
      | .idle | .checked _ _ | .notifying _ _ | .linking _ _ | .queueing _ _ => .isFalse nofun
    infer_instance
  | _ =>
    unfold Enabled
    infer_instance

def regBuf (regFlags : Nat → Bool) (result : Nat → QbufResult) (s : Stream) :
    Nat → Option Stream
  | 0 => some s
  | n + 1 =>
    match regBuf regFlags result s n with
    | none => none
    | some s =>
      if regFlags n then
        if result n = .queued then some ((s.qbuf n (result n)).setStatus n ⟨0, true⟩) else none
      else some ((s.setStatus n ⟨1, false⟩).deliver n .client)

structure Unregistered : Prop where
  status : ∀ idx, (s.bufStatus idx).bufRefcnt = 0
  queue : s.queuedBufferCount = 0 ∧ s.polled = false ∧ s.kernel = []
  threads : s.notify = .idle ∧ s.dispatch = .idle ∧ s.cmdQueue = []
  history : s.held = [] ∧ s.requeued = [] ∧ s.lastReturns = []

def Initial : Prop :=
  ∃ (bufNum : Nat) (regFlags : Nat → Bool) (result : Nat → QbufResult) (s₀ : Stream),
    s₀.Unregistered ∧ regBuf regFlags result s₀ bufNum = some s

def system : System Stream Op := .ofFunction Initial Enabled exec

/-- A buffer is in the queue of the kernel and nobody has it, or its count is the number of its
holders. -/
def Accounted (idx : Nat) : Prop :=
  (idx ∈ s.kernel ∧ s.bufStatus idx = ⟨0, true⟩ ∧ s.holders idx = []) ∨
    (idx ∉ s.kernel ∧ (s.bufStatus idx).bufRefcnt = (s.holders idx).length)

/-- Each buffer is accounted for and is in the queue at most once. It was queued back when its
last holder returned it, and at no other time. The count is that of the queue, and the stream is
polled while there is something in it. -/
structure Owned : Prop where
  accounted : ∀ idx, s.Accounted idx
  once : s.kernel.Nodup
  requeued : s.requeued = s.lastReturns
  count : s.queuedBufferCount = s.kernel.length
  polled : s.polled ↔ 0 < s.queuedBufferCount

end Stream

end EtherDevice.MmStream
