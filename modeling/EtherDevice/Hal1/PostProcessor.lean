import EtherDevice.PostProc.CameraQueue
import EtherDevice.Lib.Transition

/-!
# The reprocessing queues of the post processor

`QCameraPostProcessor` passes each captured frame through its reprocess channels, one after the
other, and then to the JPEG encoder. A request waits in `m_inputPPQ` until the data thread submits
it to the channel of its pass; its job then waits in `m_ongoingPPQ` for the result. All passes
share the two queues.

What the driver answers is an argument: whether a submission succeeds, how many buffers the
streams of a channel hold, and which memory is allocated.
-/

namespace EtherDevice.Hal1

open PostProc (CameraQueue)

structure Buf where
  isMetadata : Bool
  buffer : Nat
  deriving DecidableEq, Repr

/-- A super buffer. Nothing reads `capture` and `passes`: they tell which call of `processData`
the frame stems from, and how many reprocess channels it came through. -/
structure SuperBuf where
  bufs : List Buf
  capture : Nat
  passes : Nat
  deriving DecidableEq, Repr

def SuperBuf.metaFrame (frame : SuperBuf) : Option Buf := frame.bufs.find? (·.isMetadata)

structure PpRequest where
  src_frame : SuperBuf
  src_reproc_frame : SuperBuf
  reprocCount : Nat
  deriving DecidableEq, Repr

structure PpData where
  src_frame : Option SuperBuf := none
  src_reproc_frame : Option SuperBuf := none
  reprocCount : Nat
  reproc_frame_release : Bool := false
  deriving DecidableEq, Repr

structure JpegData where
  src_frame : SuperBuf
  src_reproc_frame : Option SuperBuf := none
  reproc_frame_release : Bool := false
  metadata : Option Buf
  deriving DecidableEq, Repr

structure Submission where
  channel : Nat
  frame : SuperBuf
  deriving DecidableEq, Repr

/-- What a call reads from the parent. -/
structure Params where
  needReprocess : Bool := true
  /-- `isNV16PictureFormat` or `isNV21PictureFormat` -/
  rawPicture : Bool := false
  advCamFeatures : Bool := false
  longshot : Bool := false
  regularCapture : Bool := false
  inBufs : Nat := 1
  outBufs : Nat := 1
  exifBufIndex : Nat → Nat := id

/-- What the rest of the system answers to a call. -/
structure Answers where
  malloc : Bool := true
  node : Bool := true
  submitted : Bool := true
  /-- `getNumQueuedBuf` of the streams of the channel that the frame would go to -/
  queuedBufs : List Nat := []

inductive Status
  | noError | unknownError | noMemory | badValue | notSubmitted
  deriving DecidableEq, Repr

structure PostProcessor where
  /-- the data thread is started -/
  isActive : Bool := false
  m_inputPPQ : CameraQueue PpRequest := {}
  m_ongoingPPQ : CameraQueue PpData := {}
  m_inputJpegQ : CameraQueue JpegData := {}
  m_inputRawQ : CameraQueue SuperBuf := {}
  mTotalNumReproc : Nat := 0
  /-- `mPPChannels[i]` is a channel for the `i` below this number -/
  ppChannels : Nat := 0
  m_bufCountPPQ : Nat := 0
  m_PPindex : Nat := 0
  m_InputMetadata : List Buf := []
  /-- the `DO_NEXT_JOB` commands that the data thread has not read -/
  nextJobs : Nat := 0
  captures : Nat := 0
  /-- the frames that the channels still work on, in the order of the submissions -/
  submitted : List Submission := []
  /-- the jobs taken from `m_ongoingPPQ`, each with the frame whose result it was taken for -/
  taken : List (PpData × SuperBuf) := []

namespace PostProcessor

variable (s : PostProcessor) (p : Params) (a : Answers)

def triggered (triggerEvent : Bool) : PostProcessor :=
  if triggerEvent then { s with nextJobs := s.nextJobs + 1 } else s

/-- `validatePostProcess`: no stream of the channel is out of buffers. -/
def validatePostProcess : Bool :=
  a.queuedBufs.all fun queued =>
    !(0 < s.m_inputPPQ.items.length && queued ≤ s.m_ongoingPPQ.items.length)

def processRawData (frame : SuperBuf) : Status × PostProcessor :=
  match s.m_inputRawQ.enqueue frame a.node with
  | (true, raw) => (.noError, triggered { s with m_inputRawQ := raw } true)
  | (false, _) => (.noError, s)

def newMetadata (p : Params) (frame : SuperBuf) : List Buf :=
  if p.advCamFeatures then frame.metaFrame.toList else []

def processData (bufs : List Buf) : Status × PostProcessor :=
  let frame : SuperBuf := ⟨bufs, s.captures, 0⟩
  let s := { s with captures := s.captures + 1 }
  if p.needReprocess then
    if a.malloc then
      match s.m_inputPPQ.enqueue ⟨frame, frame, 0⟩ a.node with
      | (true, input) =>
        let s := { s with m_inputPPQ := input }
        (.noError,
          triggered { s with m_InputMetadata := s.m_InputMetadata ++ newMetadata p frame }
            (s.validatePostProcess a))
      | (false, _) => (.noError, s)
    else (.noMemory, s)
  else if p.rawPicture then
    (.noError, (s.processRawData a frame).2.triggered true)
  else if a.malloc then
    match s.m_inputJpegQ.enqueue { src_frame := frame, metadata := frame.metaFrame } a.node with
    | (true, jpeg) => (.noError, triggered { s with m_inputJpegQ := jpeg } true)
    | (false, _) => (.noError, s)
  else (.noMemory, s)

def extraJobs (reprocCount : Nat) : List PpData :=
  if !p.regularCapture && s.m_bufCountPPQ % p.inBufs == 0 then
    List.replicate (p.outBufs - p.inBufs) { reprocCount := reprocCount }
  else []

/-- `doReprocess`, for a request that was taken from `m_inputPPQ`. The job is enqueued before the
frame is submitted, and it stays where the submission fails. -/
def submit (request : PpRequest) : Status × PostProcessor :=
  if a.malloc then
    if request.reprocCount < s.ppChannels then
      let job : PpData :=
        { src_frame := request.src_frame
          src_reproc_frame := request.src_reproc_frame
          reprocCount := request.reprocCount + 1
          reproc_frame_release := p.regularCapture }
      let s := { s with m_bufCountPPQ := s.m_bufCountPPQ + 1 }
      match s.m_ongoingPPQ.enqueue job a.node with
      | (true, ongoing) =>
        let ongoing := (s.extraJobs p job.reprocCount).foldl
          (fun ongoing extra => (ongoing.enqueue extra a.node).2) ongoing
        let s := { s with m_ongoingPPQ := ongoing }
        if a.submitted then
          (.noError,
            { s with submitted := s.submitted ++ [⟨request.reprocCount, request.src_frame⟩] })
        else (.notSubmitted, s)
      | (false, _) => (.noError, s)
    else (.unknownError, s)
  else (.noMemory, s)

def doReprocess : Status × PostProcessor :=
  match s.m_inputPPQ.peek with
  | none => (.noError, s)
  | some _ =>
    if s.validatePostProcess a then
      match s.m_inputPPQ.dequeue with
      | (some request, input) => submit { s with m_inputPPQ := input } p a request
      | (none, _) => (.noError, s)
    else (.noError, s)

def doNextJob : Status × PostProcessor :=
  let s := { s with
    nextJobs := s.nextJobs - 1
    m_inputJpegQ := s.m_inputJpegQ.dequeue.2
    m_inputRawQ := s.m_inputRawQ.dequeue.2 }
  if s.isActive then s.doReprocess p a
  else (.noError, { s with m_inputPPQ := s.m_inputPPQ.flush.2 })

def jpegMetadata (src_reproc_frame frame : SuperBuf) : Option Buf :=
  if p.advCamFeatures then s.m_InputMetadata[p.exifBufIndex s.m_PPindex]?
  else src_reproc_frame.metaFrame.or frame.metaFrame

def finish (job : PpData) (frame : SuperBuf) : Status × PostProcessor :=
  match job.src_frame, job.src_reproc_frame with
  | some _, some src_reproc_frame =>
    if p.rawPicture then s.processRawData a frame
    else if job.reprocCount < s.mTotalNumReproc then
      if a.malloc then
        match s.m_inputPPQ.enqueue ⟨frame, src_reproc_frame, job.reprocCount⟩ a.node with
        | (true, input) =>
          let s := { s with m_inputPPQ := input }
          (.noError, s.triggered (s.validatePostProcess a))
        | (false, _) => (.noError, s)
      else (.noMemory, s)
    else if a.malloc then
      let jpeg_job : JpegData :=
        { src_frame := frame
          src_reproc_frame := src_reproc_frame
          reproc_frame_release := job.reproc_frame_release
          metadata := s.jpegMetadata p src_reproc_frame frame }
      let s := { s with m_PPindex := s.m_PPindex + if p.advCamFeatures then 1 else 0 }
      match s.m_inputJpegQ.enqueue jpeg_job a.node with
      | (true, jpeg) =>
        let s := { s with m_inputJpegQ := jpeg }
        (.noError, s.triggered (!p.longshot || s.validatePostProcess a))
      | (false, _) => (.noError, s)
    else (.noMemory, s)
  | _, _ => (.badValue, s)

def processPPData (source : SuperBuf) (bufs : List Buf) : Status × PostProcessor :=
  match s.m_ongoingPPQ.dequeue with
  | (some job, ongoing) =>
    finish { s with m_ongoingPPQ := ongoing, taken := s.taken ++ [(job, source)] } p a job
      ⟨bufs, source.capture, source.passes + 1⟩
  | (none, _) => (.badValue, s)

def result (channel : Nat) (bufs : List Buf) : Status × PostProcessor :=
  match s.submitted.find? (·.channel == channel) with
  | some submission =>
    processPPData { s with submitted := s.submitted.eraseP (·.channel == channel) } p a
      submission.frame bufs
  | none => (.noError, s)

def startDataProc : PostProcessor :=
  { s with
    isActive := true
    m_ongoingPPQ := s.m_ongoingPPQ.init
    m_inputJpegQ := s.m_inputJpegQ.init
    m_inputPPQ := s.m_inputPPQ.init
    m_inputRawQ := s.m_inputRawQ.init }

/-- `start`, for a number of passes and the number of channels that could be added and started.
Channels that are left from an earlier start are deleted, with the frames they work on. -/
def start (reprocCount added : Nat) : Status × PostProcessor :=
  if p.needReprocess then
    let s := { s with
      m_bufCountPPQ := 0
      mTotalNumReproc := reprocCount
      ppChannels := added
      submitted := [] }
    if added < reprocCount then (.unknownError, s)
    else (.noError, startDataProc { s with m_PPindex := 0, m_InputMetadata := [] })
  else (.noError, startDataProc { s with m_PPindex := 0, m_InputMetadata := [] })

/-- `stop`: `STOP_DATA_PROC`, after which the channels are deleted. A result that comes between
the two finds no job. -/
def stop : PostProcessor :=
  { s with
    isActive := false
    m_ongoingPPQ := s.m_ongoingPPQ.flush.2
    m_inputJpegQ := s.m_inputJpegQ.flush.2
    m_inputPPQ := s.m_inputPPQ.flush.2
    m_inputRawQ := s.m_inputRawQ.flush.2
    mTotalNumReproc := 0
    ppChannels := 0
    m_PPindex := 0
    m_InputMetadata := []
    submitted := [] }

end PostProcessor

/-- What the post processor is told. -/
inductive PostProcOp
  | start (p : Params) (reprocCount added : Nat)
  | stop
  | processData (p : Params) (a : Answers) (bufs : List Buf)
  | processRawData (a : Answers) (frame : SuperBuf)
  | result (p : Params) (a : Answers) (channel : Nat) (bufs : List Buf)
  | jpegEvt
  | doNextJob (p : Params) (a : Answers)

namespace PostProcessor

/-- A shot gives as many frames as it takes, a channel returns what it was given, and the data
thread reads what was sent. -/
def Enabled (s : PostProcessor) : PostProcOp → Prop
  | .start _ reprocCount added => 1 ≤ reprocCount ∧ added ≤ reprocCount
  | .result _ _ channel _ => s.submitted.any (·.channel == channel) = true
  | .doNextJob p _ => 0 < s.nextJobs ∧ p.inBufs = p.outBufs
  | _ => True

instance (s : PostProcessor) : (op : PostProcOp) → Decidable (Enabled s op)
  | .start .. | .result .. | .doNextJob .. => by unfold Enabled; infer_instance
  | .stop | .processData .. | .processRawData .. | .jpegEvt => isTrue trivial

def exec (s : PostProcessor) : PostProcOp → PostProcessor
  | .start p reprocCount added => (s.start p reprocCount added).2
  | .stop => s.stop
  | .processData p a bufs => (s.processData p a bufs).2
  | .processRawData a frame => (s.processRawData a frame).2
  | .result p a channel bufs => (s.result p a channel bufs).2
  | .jpegEvt => s.triggered true
  | .doNextJob p a => (s.doNextJob p a).2

/-- The runs from the constructed post processor. -/
def system : Lib.System PostProcessor PostProcOp :=
  .ofFunction (· = {}) Enabled exec

end PostProcessor

end EtherDevice.Hal1
