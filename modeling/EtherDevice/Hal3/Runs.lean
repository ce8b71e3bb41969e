import Mathlib
import EtherDevice.Hal3.Requests
import EtherDevice.Lib.Transition

/-!
# Runs of the camera HAL

The calls of `QCamera3HardwareInterface` are serialised by `mMutex`, so a run is a
sequence of calls. A `Session` is the bookkeeping together with what the framework and the
channels know: the accepted requests, the buffers they asked for, and the callbacks that
the channels still owe.

`Op.Expected` has what the framework and the channels keep to. The framework uses new
frame numbers and buffers that are not outstanding; the channels call back once for each
buffer, and no more after `flush` has stopped them. A request that arrives during a flush
does not reach the channels.
-/

namespace EtherDevice.Hal3

open Lib

inductive Op
  | configureStreams
  | processCaptureRequest (r : CaptureRequest) (env : RequestEnv)
  | wakeUp (timedOut : Bool)
  | daemonPullReq
  | metadata (metadataBuf : Nat) (md : Option Metadata)
  | buffer (b : StreamBuffer) (frameNumber : Nat) (now : UInt64)
  | beginFlush
  /-- With the memory that `flush` reads if no request is pending. -/
  | finishFlush (sentinel : Nat)

def Op.exec (s : Hwi) : Op → Option Hwi
  | .configureStreams => some s.configureStreams
  | .processCaptureRequest r env => some (s.processCaptureRequest r env).1
  | .wakeUp timedOut => some (s.wakeUp timedOut).1
  | .daemonPullReq => some { s with wokenUpByDaemon := true }
  | .metadata metadataBuf md => s.handleMetadataWithLock metadataBuf md
  | .buffer b frameNumber now => some (s.handleBufferWithLock b frameNumber now)
  | .beginFlush => some s.beginFlush
  | .finishFlush sentinel => some (s.finishFlush sentinel)

def PendingBufferInfo.key (k : PendingBufferInfo) : Nat × Nat := (k.frameNumber, k.buffer)

/-- The bookkeeping and the state of its environment. -/
structure Session where
  hwi : Hwi
  /-- The frame numbers of the accepted requests. -/
  accepted : List Nat := []
  /-- The buffers of the accepted requests. -/
  requested : List (Nat × Nat) := []
  /-- The buffers for which a channel will call back. -/
  owed : List PendingBufferInfo := []
  /-- The buffers of requests that did not reach the channels. -/
  idle : List (Nat × Nat) := []
  /-- The buffers for which a channel has called back. -/
  called : List (Nat × Nat) := []
  /-- The accepted frames whose metadata has not been handled: none so far was of the frame
  or of a later one. -/
  awaiting : List Nat := []
  /-- The frames of requests that a flush found pending. -/
  flushed : List Nat := []
  /-- A bound for the frame numbers of metadata so far. -/
  metadataBound : Nat := 0

/-- A session at its start: streams are configured. -/
def Session.start : Session := { hwi := { firstRequest := true } }

namespace Session

variable (s : Session)

def accept (r : CaptureRequest) : Session :=
  { s with
    accepted := s.accepted ++ [r.frameNumber]
    awaiting := s.awaiting ++ [r.frameNumber]
    requested := s.requested ++ r.pendingBuffers.map PendingBufferInfo.key
    owed := if s.hwi.flush then s.owed else s.owed ++ r.pendingBuffers
    idle := if s.hwi.flush then s.idle ++ r.pendingBuffers.map PendingBufferInfo.key else s.idle }

def Accepts (r : CaptureRequest) (env : RequestEnv) : Prop :=
  (s.hwi.processCaptureRequest r env).2 = some 0 ∨ (s.hwi.processCaptureRequest r env).2 = none

instance (r : CaptureRequest) (env : RequestEnv) : Decidable (s.Accepts r env) :=
  inferInstanceAs (Decidable (_ ∨ _))

end Session

def Op.record (s : Session) : Op → Session
  | .processCaptureRequest r env => if s.Accepts r env then s.accept r else s
  | .metadata _ (some md) =>
    if md.frameNumberValid then
      { s with
        awaiting := s.awaiting.filter fun n => md.frameNumber < n
        metadataBound := md.frameNumber + 1 }
    else s
  | .buffer b frameNumber _ =>
    { s with
      owed := s.owed.erase ⟨frameNumber, b.stream, b.buffer⟩
      called := s.called ++ [(frameNumber, b.buffer)] }
  | .finishFlush _ =>
    { s with
      owed := []
      idle := []
      awaiting := []
      flushed := s.flushed ++ s.hwi.pendingRequestsList.map PendingRequestInfo.frameNumber }
  | .configureStreams => { s with owed := [], idle := [], awaiting := [] }
  | _ => s

/-- After the use of an erased entry anything can follow. -/
def hal3System : System Session Op where
  init s := s = Session.start
  step s op s' := match op.exec s.hwi with
    | some hwi => s' = { op.record s with hwi }
    | none => True

namespace Hwi

variable (s : Hwi)

def pendingKeys : List (Nat × Nat) :=
  s.pendingBuffersMap.pendingBufferList.map PendingBufferInfo.key

def cachedKeys : List (Nat × Nat) :=
  s.pendingReprocessResultList.map fun c => (c.frameNumber, c.buffer.buffer)

def held : List (Nat × Nat) := s.pendingKeys ++ s.cachedKeys

end Hwi

/-- A request that the framework can send. -/
structure CaptureRequest.Expected (r : CaptureRequest) (s : Session) : Prop where
  frameNumber : r.frameNumber < 2 ^ 32
  increasing : ∀ n ∈ s.accepted, n < r.frameNumber
  distinct : (r.outputBuffers.map StreamBuffer.buffer).Nodup
  free : ∀ b ∈ r.outputBuffers, b.buffer ∉ s.hwi.held.map Prod.snd

/-- The calls of the framework and the channels. -/
def Op.Expected (s : Session) : Op → Prop
  | .configureStreams => False
  | .processCaptureRequest r env => s.hwi.waiting = none ∧ s.Accepts r env ∧ r.Expected s
  | .wakeUp _ => True
  | .daemonPullReq => True
  | .metadata _ md => ∀ m, md = some m → m.frameNumberValid = true →
      m.frameNumber < 2 ^ 32 ∧ s.metadataBound ≤ m.frameNumber
  | .buffer b frameNumber _ => ⟨frameNumber, b.stream, b.buffer⟩ ∈ s.owed
  | .beginFlush => s.hwi.flush = false
  | .finishFlush _ => s.hwi.flush = true

/-- The runs of the framework and the channels. -/
def expectedSystem : System Session Op := hal3System.restrict Op.Expected

instance (r : CaptureRequest) (s : Session) : Decidable (r.Expected s) :=
  decidable_of_iff
    (r.frameNumber < 2 ^ 32 ∧ (∀ n ∈ s.accepted, n < r.frameNumber) ∧
      (r.outputBuffers.map StreamBuffer.buffer).Nodup ∧
      ∀ b ∈ r.outputBuffers, b.buffer ∉ s.hwi.held.map Prod.snd)
    ⟨fun h => ⟨h.1, h.2.1, h.2.2.1, h.2.2.2⟩,
      fun h => ⟨h.frameNumber, h.increasing, h.distinct, h.free⟩⟩

def decidableForallSome {α : Type} (o : Option α) (p : α → Prop) [DecidablePred p] :
    Decidable (∀ a, o = some a → p a) :=
  inferInstanceAs (Decidable (∀ a ∈ o, p a))

instance (s : Session) (op : Op) : Decidable (op.Expected s) :=
  match op with
  | .configureStreams => inferInstanceAs (Decidable False)
  | .processCaptureRequest r env =>
    inferInstanceAs (Decidable (s.hwi.waiting = none ∧ s.Accepts r env ∧ r.Expected s))
  | .wakeUp _ => inferInstanceAs (Decidable True)
  | .daemonPullReq => inferInstanceAs (Decidable True)
  | .metadata _ md => decidableForallSome md fun m => m.frameNumberValid = true →
      m.frameNumber < 2 ^ 32 ∧ s.metadataBound ≤ m.frameNumber
  | .buffer b frameNumber _ =>
    inferInstanceAs (Decidable (⟨frameNumber, b.stream, b.buffer⟩ ∈ s.owed))
  | .beginFlush => inferInstanceAs (Decidable (s.hwi.flush = false))
  | .finishFlush _ => inferInstanceAs (Decidable (s.hwi.flush = true))

/-- A run of some calls that all meet a condition. -/
def Session.run (ok : Session → Op → Prop) [∀ s op, Decidable (ok s op)] :
    List Op → Session → Option Session
  | [], s => some s
  | op :: ops, s =>
    if ok s op then
      (op.exec s.hwi).bind fun hwi => run ok ops { op.record s with hwi }
    else none

theorem reachable_run {ok : Session → Op → Prop} [∀ s op, Decidable (ok s op)] (ops : List Op)
    {s s' : Session} (hs : (hal3System.restrict ok).Reachable s)
    (hrun : Session.run ok ops s = some s') : (hal3System.restrict ok).Reachable s' := by
  induction ops generalizing s with
  | nil =>
    cases hrun
    exact hs
  | cons op ops ih =>
    unfold Session.run at hrun
    split at hrun
    · rename_i hok
      obtain ⟨hwi, hexec, hrun⟩ := Option.bind_eq_some_iff.mp hrun
      refine ih (.step hs ⟨hok, ?_⟩) hrun
      simp only [hal3System, hexec]
    · cases hrun

def noFailures : RequestEnv := ⟨fun _ => 0, false⟩

def previewStream : Stream := ⟨1, false⟩

def pictureStream : Stream := ⟨2, true⟩

def previewRequest (frameNumber buffer : Nat) : CaptureRequest :=
  ⟨frameNumber, some ⟨none⟩, none, [⟨previewStream, buffer, false⟩]⟩

def pictureRequest (frameNumber buffer : Nat) : CaptureRequest :=
  ⟨frameNumber, some ⟨none⟩, some 0, [⟨pictureStream, buffer, false⟩]⟩

def frameMetadata (frameNumber : Nat) : Metadata := ⟨true, frameNumber, false, 0, 0, []⟩

variable {s : Hwi} {r : CaptureRequest} {env : RequestEnv}

structure SameQueue (s s' : Hwi) : Prop where
  pendingRequestsList : s'.pendingRequestsList = s.pendingRequestsList
  pendingBuffersMap : s'.pendingBuffersMap = s.pendingBuffersMap
  pendingReprocessResultList : s'.pendingReprocessResultList = s.pendingReprocessResultList
  pendingFrameDropList : s'.pendingFrameDropList = s.pendingFrameDropList
  flush : s'.flush = s.flush
  trace : s'.trace = s.trace

theorem SameQueue.refl (s : Hwi) : SameQueue s s := ⟨rfl, rfl, rfl, rfl, rfl, rfl⟩

theorem startStreams_sameQueue {s' : Hwi} (h : s.startStreams env = .ok s') :
    SameQueue s s' := by
  unfold Hwi.startStreams at h
  split at h
  · split at h
    · cases h
    · cases h
      exact ⟨rfl, rfl, rfl, rfl, rfl, rfl⟩
  · cases h
    exact .refl s

theorem countRequest_sameQueue : SameQueue s (s.countRequest env).1 := by
  unfold Hwi.countRequest
  simp only
  split
  · exact ⟨rfl, rfl, rfl, rfl, rfl, rfl⟩
  · exact ⟨rfl, rfl, rfl, rfl, rfl, rfl⟩

theorem wakeUp_sameQueue (timedOut : Bool) : SameQueue s (s.wakeUp timedOut).1 := by
  unfold Hwi.wakeUp
  split
  · exact .refl s
  split
  · exact ⟨rfl, rfl, rfl, rfl, rfl, rfl⟩
  split
  · exact ⟨rfl, rfl, rfl, rfl, rfl, rfl⟩
  split
  · exact ⟨rfl, rfl, rfl, rfl, rfl, rfl⟩
  · exact ⟨rfl, rfl, rfl, rfl, rfl, rfl⟩

theorem firstFailure_neg {points : List ReturnPoint} {rc : Int}
    (h : env.firstFailure points = some rc) : rc < 0 := by
  obtain ⟨p, hp, rfl⟩ := Option.map_eq_some_iff.mp h
  simpa using List.find?_some hp

def Hwi.Queues (s : Hwi) (r : CaptureRequest) (env : RequestEnv) : Prop :=
  s.validateCaptureRequest r env = none ∧ (s.startStreams env).isOk = true ∧
    Hwi.acquireBuffers r env = none

instance : Decidable (s.Queues r env) := inferInstanceAs (Decidable (_ ∧ _))

/-- The outcomes of `processCaptureRequest`: an error before the request is queued, a
request that is queued during a flush, an error after the request was queued, or a request
that is counted. -/
inductive RequestOutcome (s : Hwi) (r : CaptureRequest) (env : RequestEnv) :
    Hwi × Option Int → Prop
  | rejected {s' : Hwi} {rc : Int} (hrc : rc < 0) (hs : s' = s ∨ s.startStreams env = .ok s') :
      RequestOutcome s r env (s', some rc)
  | flushing {s₁ : Hwi} (hqueues : s.Queues r env) (hs : s.startStreams env = .ok s₁)
      (hflush : s.flush = true) (houts : r.outputBuffers ≠ []) :
      RequestOutcome s r env (s₁.queueRequest r, some 0)
  | failed {s₁ : Hwi} {rc : Int} (hqueues : s.Queues r env) (hs : s.startStreams env = .ok s₁)
      (hrc : rc < 0) (hflush : s.flush = false)
      (hfail : Hwi.requestChannels r env = some rc) :
      RequestOutcome s r env (s₁.queueRequest r, some rc)
  | counted {s₁ : Hwi} (hqueues : s.Queues r env) (hs : s.startStreams env = .ok s₁)
      (hflush : s.flush = false) (houts : r.outputBuffers ≠ [])
      (hfail : Hwi.requestChannels r env = none) :
      RequestOutcome s r env ((s₁.queueRequest r).countRequest env)

theorem startStreams_error {rc : Int} (h : s.startStreams env = .error rc) : rc < 0 := by
  unfold Hwi.startStreams at h
  split at h
  · split at h
    · rename_i hfail
      cases h
      exact firstFailure_neg hfail
    · cases h
  · cases h

theorem validateCaptureRequest_neg {rc : Int} (h : s.validateCaptureRequest r env = some rc) :
    rc < 0 := by
  unfold Hwi.validateCaptureRequest at h
  split at h
  · cases h
    decide
  split at h
  · cases h
    decide
  split at h
  · cases h
    decide
  · exact firstFailure_neg h

theorem validateCaptureRequest_none (h : s.validateCaptureRequest r env = none) :
    r.outputBuffers ≠ [] := by
  rintro hnil
  simp_all [Hwi.validateCaptureRequest]

theorem requestChannels_neg {rc : Int} (h : Hwi.requestChannels r env = some rc) : rc < 0 := by
  unfold Hwi.requestChannels at h
  split at h
  · exact firstFailure_neg h
  · cases h

theorem processCaptureRequest_outcome (s : Hwi) (r : CaptureRequest) (env : RequestEnv) :
    RequestOutcome s r env (s.processCaptureRequest r env) := by
  unfold Hwi.processCaptureRequest
  cases hvalid : s.validateCaptureRequest r env with
  | some rc => exact .rejected (validateCaptureRequest_neg hvalid) (.inl rfl)
  | none =>
    have houts := validateCaptureRequest_none hvalid
    cases hstart : s.startStreams env with
    | error rc => exact .rejected (startStreams_error hstart) (.inl rfl)
    | ok s₁ =>
      have hflush := (startStreams_sameQueue hstart).flush
      cases hacq : Hwi.acquireBuffers r env with
      | some rc =>
        exact .rejected (firstFailure_neg hacq) (.inr hstart)
      | none =>
        have hqueues : s.Queues r env := ⟨hvalid, by rw [hstart]; rfl, hacq⟩
        simp only
        split
        · rename_i hf
          exact .flushing hqueues hstart (hflush.symm.trans hf) houts
        · rename_i hf
          have hno : s.flush = false := hflush.symm.trans (Bool.eq_false_iff.mpr hf)
          cases hchan : Hwi.requestChannels r env with
          | some rc => exact .failed hqueues hstart (requestChannels_neg hchan) hno hchan
          | none => exact .counted hqueues hstart hno houts hchan

theorem queued_of_accepts {s : Session} (h : s.Accepts r env) :
    r.outputBuffers ≠ [] ∧ ∃ s₁, SameQueue s.hwi s₁ ∧
      SameQueue (s₁.queueRequest r) (s.hwi.processCaptureRequest r env).1 := by
  have hout := processCaptureRequest_outcome s.hwi r env
  unfold Session.Accepts at h
  generalize s.hwi.processCaptureRequest r env = p at h hout
  cases hout with
  | rejected hrc hs =>
    simp_all
  | flushing hqueues hs hflush houts => exact ⟨houts, _, startStreams_sameQueue hs, .refl _⟩
  | failed hqueues hs hrc hflush hfail =>
    simp_all
  | counted hqueues hs hflush houts hfail =>
    exact ⟨houts, _, startStreams_sameQueue hs, countRequest_sameQueue⟩

end EtherDevice.Hal3
