import Mathlib

/-!
# Capture requests of the camera HAL

This file has the request bookkeeping of `QCamera3HardwareInterface`: the list of pending
requests, the map of pending buffers, the cached reprocess results, and the functions
that edit them. What the HAL tells the framework and what it does with a metadata buffer
is recorded in `trace`, in order.

Streams and channels are told apart by the stream id of the channel, and a buffer is its
handle. The contents of metadata are left out; `ResultMetadata` says where the metadata of
a result comes from. A call that uses an erased list entry has the value `none`.
-/

namespace EtherDevice.Hal3

structure Stream where
  streamId : Nat
  blob : Bool
  deriving DecidableEq, Repr

/-- `camera3_stream_buffer_t`; `error` is `CAMERA3_BUFFER_STATUS_ERROR`. -/
structure StreamBuffer where
  stream : Stream
  buffer : Nat
  error : Bool := false
  deriving DecidableEq, Repr

structure Settings where
  sensorTimestamp : Option UInt64
  deriving DecidableEq, Repr

inductive NotifyMsg
  | shutter (frameNumber : Nat) (timestamp : UInt64)
  | errorBuffer (frameNumber : Nat) (errorStream : Stream)
  | errorRequest (frameNumber : Nat)
  deriving DecidableEq, Repr

inductive ResultMetadata
  | urgent
  | final
  | dummy
  | settings
  deriving DecidableEq, Repr

structure CaptureResult where
  frameNumber : Nat
  result : Option ResultMetadata
  outputBuffers : List StreamBuffer
  inputBuffer : Option Nat := none
  partialResult : Nat
  deriving DecidableEq, Repr

inductive Event
  | notify (msg : NotifyMsg)
  | processCaptureResult (result : CaptureResult)
  /-- The metadata channel gets its buffer back. -/
  | bufDone (metadataBuf : Nat)
  /-- The picture channel gets the metadata buffer. -/
  | queueReprocMetadata (metadataBuf : Nat)
  deriving DecidableEq, Repr

structure RequestedBufferInfo where
  stream : Stream
  buffer : Option StreamBuffer := none
  deriving DecidableEq, Repr

structure PendingRequestInfo where
  frameNumber : Nat
  buffers : List RequestedBufferInfo
  blobRequest : Bool
  inputBuffer : Option Nat
  settings : Option Settings
  urgentReceived : Bool := false
  partialResultCnt : Nat := 0
  deriving DecidableEq, Repr

structure PendingBufferInfo where
  frameNumber : Nat
  stream : Stream
  buffer : Nat
  deriving DecidableEq, Repr

structure PendingBuffersMap where
  numBuffers : Int := 0
  pendingBufferList : List PendingBufferInfo := []
  deriving DecidableEq, Repr

structure PendingReprocessResult where
  notifyMsg : NotifyMsg
  buffer : StreamBuffer
  frameNumber : Nat
  deriving DecidableEq, Repr

structure PendingFrameDropInfo where
  frameNumber : Nat
  streamId : Nat
  deriving DecidableEq, Repr

/-- The state of a `processCaptureRequest` call that waits: its return code so far, and
whether it waits with a timeout. -/
structure Waiting where
  rc : Int
  timed : Bool
  deriving DecidableEq, Repr

structure Hwi where
  pendingRequestsList : List PendingRequestInfo := []
  pendingBuffersMap : PendingBuffersMap := {}
  pendingReprocessResultList : List PendingReprocessResult := []
  pendingFrameDropList : List PendingFrameDropInfo := []
  pendingRequest : Int := 0
  firstRequest : Bool := false
  flush : Bool := false
  wokenUpByDaemon : Bool := false
  waiting : Option Waiting := none
  trace : List Event := []
  deriving DecidableEq, Repr

def partialResultCount : Nat := 2

def minInflightRequests : Int := 3

def maxInflightRequests : Int := 6

def maxNumStreams : Nat := 8

def nsecPer33Msec : UInt64 := 33000000

def badValue : Int := -22

def enodev : Int := -19

def modifyFirst {α : Type} (p : α → Bool) (f : α → α) : List α → List α
  | [] => []
  | x :: xs => if p x then f x :: xs else x :: modifyFirst p f xs

namespace Hwi

variable (s : Hwi)

def emit (events : List Event) : Hwi := { s with trace := s.trace ++ events }

def takeBuffer (buffer : Nat) : Hwi :=
  if s.pendingBuffersMap.pendingBufferList.any fun k => k.buffer = buffer then
    { s with
      pendingBuffersMap.numBuffers := s.pendingBuffersMap.numBuffers - 1
      pendingBuffersMap.pendingBufferList :=
        s.pendingBuffersMap.pendingBufferList.eraseP fun k => k.buffer = buffer }
  else s

/-- The loop over `mPendingFrameDropList`: a buffer whose drop was reported for the frame
is returned with an error. -/
def markDropped (frameNumber : Nat) (b : StreamBuffer) : StreamBuffer × Hwi :=
  if s.pendingFrameDropList.any fun m =>
      m.streamId = b.stream.streamId ∧ m.frameNumber = frameNumber then
    ({ b with error := true },
      { s with
        pendingFrameDropList := s.pendingFrameDropList.eraseP fun m =>
          m.streamId = b.stream.streamId ∧ m.frameNumber = frameNumber })
  else (b, s)

def returnBuffer (frameNumber : Nat) (b : StreamBuffer) : StreamBuffer × Hwi :=
  let (b, s) := s.markDropped frameNumber b
  (b, s.takeBuffer b.buffer)

def returnBuffers (frameNumber : Nat) : List RequestedBufferInfo → Hwi → List StreamBuffer × Hwi
  | [], s => ([], s)
  | j :: js, s =>
    match j.buffer with
    | none => returnBuffers frameNumber js s
    | some b =>
      let r := s.returnBuffer frameNumber b
      let rest := returnBuffers frameNumber js r.2
      (r.1 :: rest.1, rest.2)

def findRequest (frameNumber : Nat) : Option PendingRequestInfo :=
  s.pendingRequestsList.find? fun i => i.frameNumber = frameNumber

def eraseRequest (frameNumber : Nat) : Hwi :=
  { s with
    pendingRequestsList := s.pendingRequestsList.eraseP fun i => i.frameNumber = frameNumber
    pendingRequest := s.pendingRequest - 1 }

def handlePendingReprocResults (frameNumber : Nat) : Hwi :=
  match s.pendingReprocessResultList.find? fun j => j.frameNumber = frameNumber with
  | none => s
  | some j =>
    let s := s.emit [.notify j.notifyMsg]
    let s :=
      match s.findRequest frameNumber with
      | none => s
      | some k =>
        let result : CaptureResult := {
          frameNumber
          result := k.settings.map fun _ => .settings
          outputBuffers := [j.buffer]
          inputBuffer := k.inputBuffer
          partialResult := partialResultCount }
        (s.emit [.processCaptureResult result]).eraseRequest frameNumber
    { s with
      pendingReprocessResultList :=
        s.pendingReprocessResultList.eraseP fun j => j.frameNumber = frameNumber }

end Hwi

/-- What a metadata buffer says. The frame numbers are set even if they are not valid. -/
structure Metadata where
  frameNumberValid : Bool
  frameNumber : Nat
  urgentFrameNumberValid : Bool
  urgentFrameNumber : Nat
  captureTime : UInt64
  /-- The stream ids of `CAM_INTF_META_FRAME_DROPPED`, none if no frame was dropped. -/
  dropped : List Nat
  deriving DecidableEq, Repr

namespace Hwi

variable (s : Hwi) (md : Metadata)

def handleUrgentMetadata : Hwi :=
  let p (i : PendingRequestInfo) : Bool :=
    i.frameNumber = md.urgentFrameNumber ∧ i.urgentReceived = false
  match s.pendingRequestsList.find? p with
  | none => s
  | some i =>
    let s := { s with
      pendingRequestsList := modifyFirst p
        (fun i => { i with partialResultCnt := i.partialResultCnt + 1, urgentReceived := true })
        s.pendingRequestsList }
    s.emit [.processCaptureResult {
      frameNumber := md.urgentFrameNumber
      result := some .urgent
      outputBuffers := []
      partialResult := i.partialResultCnt + 1 }]

def droppedStreams (i : PendingRequestInfo) : List Stream :=
  i.buffers.flatMap fun j =>
    if j.stream.blob then []
    else (md.dropped.filter fun streamId => j.stream.streamId = streamId).map fun _ => j.stream

def notifyDropped (i : PendingRequestInfo) : Hwi :=
  let streams := droppedStreams md i
  { s.emit (streams.map fun stream => .notify (.errorBuffer i.frameNumber stream)) with
    pendingFrameDropList := s.pendingFrameDropList ++
      streams.map fun stream => ⟨i.frameNumber, stream.streamId⟩ }

def shutterMsg (i : PendingRequestInfo) : NotifyMsg :=
  if i.frameNumber < md.frameNumber then
    let frames := (md.urgentFrameNumber + 2 ^ 32 - i.frameNumber) % 2 ^ 32
    .shutter i.frameNumber (md.captureTime - UInt64.ofNat frames * nsecPer33Msec)
  else .shutter i.frameNumber md.captureTime

def disposeMetadata (metadataBuf : Nat) (i : PendingRequestInfo) : List Event :=
  if i.frameNumber < md.frameNumber then []
  else if i.blobRequest then [.queueReprocMetadata metadataBuf]
  else [.bufDone metadataBuf]

/-- A round of the loop of `handleMetadataWithLock`, for the first pending request `i`, up
to where it erases the request. The entries of `mPendingFrameDropList` are looked up with
the frame number of the metadata. -/
def completeRequest (metadataBuf : Nat) (i : PendingRequestInfo) : Hwi :=
  let s := { s with pendingRequest := s.pendingRequest - 1 }
  let s := s.notifyDropped md i
  let s := s.emit (.notify (shutterMsg md i) :: disposeMetadata md metadataBuf i)
  let (outputBuffers, s) := returnBuffers md.frameNumber i.buffers s
  let s := s.emit [.processCaptureResult {
    frameNumber := i.frameNumber
    result := some (if i.frameNumber < md.frameNumber then .dummy else .final)
    outputBuffers
    inputBuffer := i.inputBuffer
    partialResult := i.partialResultCnt + 1 }]
  { s with pendingRequestsList := s.pendingRequestsList.tail }

/-- The next round would start at an entry that `handlePendingReprocResults` erases. -/
def DanglingNext (frameNumber : Nat) : Prop :=
  (s.pendingReprocessResultList.any fun j => j.frameNumber = frameNumber) ∧
    s.pendingRequestsList.head?.any fun i => i.frameNumber = frameNumber

instance (frameNumber : Nat) : Decidable (s.DanglingNext frameNumber) :=
  inferInstanceAs (Decidable (_ ∧ _))

def completeRequests (metadataBuf : Nat) (md : Metadata) : Nat → Hwi → Option Hwi
  | 0, s => some s
  | fuel + 1, s =>
    match s.pendingRequestsList with
    | [] => some s
    | i :: _ =>
      if i.frameNumber ≤ md.frameNumber then
        let s := s.completeRequest md metadataBuf i
        let next := (md.frameNumber + 1) % 2 ^ 32
        if s.DanglingNext next then none
        else completeRequests metadataBuf md fuel (s.handlePendingReprocResults next)
      else some s

/-- `handleMetadataWithLock`; `none` is invalid metadata. -/
def handleMetadataWithLock (metadataBuf : Nat) : Option Metadata → Option Hwi
  | none => some (s.emit [.bufDone metadataBuf])
  | some md =>
    let s := if md.urgentFrameNumberValid then s.handleUrgentMetadata md else s
    if md.frameNumberValid = false then some (s.emit [.bufDone metadataBuf])
    else completeRequests metadataBuf md s.pendingRequestsList.length s

/-- The shutter message of a reprocess request; `now` is `systemTime`. -/
def reprocessShutter (i : PendingRequestInfo) (frameNumber : Nat) (now : UInt64) : NotifyMsg :=
  .shutter frameNumber ((i.settings.bind Settings.sensorTimestamp).getD now)

def handleReprocessBuffer (i : PendingRequestInfo) (buffer : StreamBuffer) (frameNumber : Nat)
    (now : UInt64) : Hwi :=
  let notifyMsg := reprocessShutter i frameNumber now
  let s := s.takeBuffer buffer.buffer
  let notifyNow := s.pendingRequestsList.all fun j => ¬ j.frameNumber < frameNumber
  if notifyNow then
    let result : CaptureResult := {
      frameNumber
      result := i.settings.map fun _ => .settings
      outputBuffers := [buffer]
      inputBuffer := i.inputBuffer
      partialResult := partialResultCount }
    (s.emit [.notify notifyMsg, .processCaptureResult result]).eraseRequest frameNumber
  else
    { s with
      pendingReprocessResultList := s.pendingReprocessResultList ++
        [⟨notifyMsg, buffer, frameNumber⟩] }

def storeBuffer (buffer : StreamBuffer) (frameNumber : Nat) : Hwi :=
  { s with
    pendingRequestsList := modifyFirst (fun i => i.frameNumber = frameNumber)
      (fun i => { i with
        buffers := i.buffers.map fun j =>
          if j.stream = buffer.stream ∧ j.buffer = none then { j with buffer := some buffer }
          else j })
      s.pendingRequestsList }

def handleBufferWithLock (buffer : StreamBuffer) (frameNumber : Nat) (now : UInt64) : Hwi :=
  match s.findRequest frameNumber with
  | none =>
    let (b, s) := s.returnBuffer frameNumber buffer
    s.emit [.processCaptureResult {
      frameNumber
      result := none
      outputBuffers := [b]
      partialResult := 0 }]
  | some i =>
    if i.inputBuffer.isSome then s.handleReprocessBuffer i buffer frameNumber now
    else s.storeBuffer buffer frameNumber

end Hwi

structure CaptureRequest where
  frameNumber : Nat
  settings : Option Settings
  inputBuffer : Option Nat
  outputBuffers : List StreamBuffer
  deriving DecidableEq, Repr

/-- The points at which `processCaptureRequest` can return an error that it got from
somewhere else. -/
inductive ReturnPoint
  | validate
  -- the first request only
  | unconfigure
  | sensorOutputSize
  | registerBuffer
  | channelInitialize
  | rawDumpInitialize
  | supportInitialize
  | analysisInitialize
  | metadataStart
  | analysisStart
  | supportStart
  | start
  | rawDumpStart
  -- every request
  | requestId
  | acquireFence
  | frameParameters
  | inputFence
  -- after the request was queued
  | inputChannel
  | reprocParameters
  | pictureChannel
  deriving DecidableEq, Repr

/-- What a call of `processCaptureRequest` meets: the codes at its return points, negative
where it fails, and whether `clock_gettime` fails. -/
structure RequestEnv where
  code : ReturnPoint → Int
  clockFails : Bool

def RequestEnv.firstFailure (env : RequestEnv) (points : List ReturnPoint) : Option Int :=
  (points.find? fun p => env.code p < 0).map env.code

namespace CaptureRequest

variable (r : CaptureRequest)

def hasBlob : Bool := r.outputBuffers.any fun b => b.stream.blob

def pendingRequest : PendingRequestInfo where
  frameNumber := r.frameNumber
  buffers := r.outputBuffers.map fun b => { stream := b.stream }
  blobRequest := r.hasBlob
  inputBuffer := r.inputBuffer
  settings := r.settings

def pendingBuffers : List PendingBufferInfo :=
  r.outputBuffers.map fun b => ⟨r.frameNumber, b.stream, b.buffer⟩

end CaptureRequest

namespace Hwi

variable (s : Hwi) (r : CaptureRequest) (env : RequestEnv)

def validateCaptureRequest : Option Int :=
  if r.settings = none ∧ s.firstRequest = true then some badValue
  else if r.outputBuffers.length < 1 then some badValue
  else if r.outputBuffers.length ≥ maxNumStreams then some badValue
  else env.firstFailure [.validate]

def startStreams : Except Int Hwi :=
  if s.firstRequest then
    match env.firstFailure [.unconfigure, .sensorOutputSize, .registerBuffer, .channelInitialize,
        .rawDumpInitialize, .supportInitialize, .analysisInitialize, .metadataStart,
        .analysisStart, .supportStart, .start, .rawDumpStart] with
    | some rc => .error rc
    | none => .ok { s with wokenUpByDaemon := false, pendingRequest := 0 }
  else .ok s

def acquireBuffers : Option Int :=
  env.firstFailure ([.requestId, .acquireFence] ++
    if r.inputBuffer.isNone then [.frameParameters] else [.inputFence])

def queueRequest : Hwi :=
  { s with
    pendingRequestsList := s.pendingRequestsList ++ [r.pendingRequest]
    pendingBuffersMap := {
      numBuffers := s.pendingBuffersMap.numBuffers + r.outputBuffers.length
      pendingBufferList := s.pendingBuffersMap.pendingBufferList ++ r.pendingBuffers } }

def requestChannels : Option Int :=
  if r.inputBuffer.isSome ∧ r.hasBlob then
    env.firstFailure [.inputChannel, .reprocParameters, .pictureChannel]
  else none

/-- The end of `processCaptureRequest`: the request is counted, and the call waits if too
many are in flight. -/
def countRequest : Hwi × Option Int :=
  let s := { s with firstRequest := false, pendingRequest := s.pendingRequest + 1 }
  let rc : Int := if env.clockFails then -1 else 0
  if s.pendingRequest ≥ minInflightRequests then
    ({ s with waiting := some ⟨rc, !env.clockFails⟩ }, none)
  else (s, some rc)

def processCaptureRequest : Hwi × Option Int :=
  match s.validateCaptureRequest r env with
  | some rc => (s, some rc)
  | none =>
    match s.startStreams env with
    | .error rc => (s, some rc)
    | .ok s =>
      match acquireBuffers r env with
      | some rc => (s, some rc)
      | none =>
        let s := s.queueRequest r
        if s.flush then (s, some 0)
        else
          match requestChannels r env with
          | some rc => (s, some rc)
          | none => s.countRequest env

def wakeUp (timedOut : Bool) : Hwi × Option Int :=
  match s.waiting with
  | none => (s, none)
  | some w =>
    if w.timed ∧ timedOut then ({ s with waiting := none }, some enodev)
    else if s.wokenUpByDaemon ∧ s.pendingRequest < maxInflightRequests then
      ({ s with wokenUpByDaemon := false, waiting := none }, some w.rc)
    else if s.pendingRequest ≥ minInflightRequests then
      ({ s with wokenUpByDaemon := false }, none)
    else ({ s with wokenUpByDaemon := false, waiting := none }, some w.rc)

end Hwi

abbrev FlushMap := List (Nat × List PendingBufferInfo)

def FlushMap.add (k : PendingBufferInfo) : FlushMap → FlushMap
  | [] => [(k.frameNumber, [k])]
  | (frameNumber, pending) :: m =>
    if k.frameNumber = frameNumber then (frameNumber, pending ++ [k]) :: m
    else if k.frameNumber < frameNumber then
      (k.frameNumber, [k]) :: (frameNumber, pending) :: m
    else (frameNumber, pending) :: FlushMap.add k m

def FlushMap.ofList (buffers : List PendingBufferInfo) : FlushMap :=
  buffers.foldl (fun m k => m.add k) []

def flushResult (frameNumber : Nat) (pending : List PendingBufferInfo) : Event :=
  .processCaptureResult {
    frameNumber
    result := none
    outputBuffers := pending.map fun k => ⟨k.stream, k.buffer, true⟩
    partialResult := 0 }

def flushBuffers (group : Nat × List PendingBufferInfo) : List Event :=
  group.2.map (fun k => .notify (.errorBuffer group.1 k.stream)) ++ [flushResult group.1 group.2]

def flushRequest (group : Nat × List PendingBufferInfo) : List Event :=
  [.notify (.errorRequest group.1), flushResult group.1 group.2]

namespace Hwi

variable (s : Hwi)

def beginFlush : Hwi := { s with flush := true }

/-- The frame number that `flush` reads at the head of the list of pending requests. In an
empty list this is the memory of the list's end. -/
def oldestFrame (sentinel : Nat) : Nat :=
  match s.pendingRequestsList with
  | [] => sentinel
  | i :: _ => i.frameNumber

def finishFlush (sentinel : Nat) : Hwi :=
  let frameNum := s.oldestFrame sentinel
  let buffers := s.pendingBuffersMap.pendingBufferList
  let sent := FlushMap.ofList (buffers.filter fun k => k.frameNumber < frameNum)
  let pending := FlushMap.ofList (buffers.filter fun k => ¬ k.frameNumber < frameNum)
  { s.emit (sent.flatMap flushBuffers ++ pending.flatMap flushRequest) with
    pendingRequest := 0
    pendingRequestsList := []
    pendingFrameDropList := []
    pendingBuffersMap := {}
    pendingReprocessResultList := []
    flush := false }

def configureStreams : Hwi :=
  { s with
    pendingRequestsList := []
    pendingFrameDropList := []
    pendingBuffersMap := {}
    pendingReprocessResultList := []
    firstRequest := true }

end Hwi

end EtherDevice.Hal3
