import EtherDevice.Lib.Transition
import EtherDevice.PostProc.PostProcessor

/-!
# Runs of the picture channel

`QCamera3PicChannel` queues the settings of a request and starts the post-processor. Four
threads work on it: the thread of the requests (with `stop`, which waits for the data
process thread), the data process thread, the threads that deliver frames and metadata,
and the encoder's. A run interleaves their steps.

The camera delivers the frames in the order in which the buffers were queued, and the
metadata in the order of the requests; the reprocess channel reprocesses in order.
-/

namespace EtherDevice.PostProc

open Lib

/-- An image that was handed to the framework: the request that it shows, and the settings
of its job, which name the output buffer. -/
structure Jpeg where
  source : Option Nat
  /-- The encoder has no error. -/
  done : Bool
  settings : JpegSettings
  deriving DecidableEq, Repr

structure JpegMetadata where
  orientation : Option Int := none
  quality : Option UInt32 := none
  thumbQuality : Option UInt32 := none
  thumbSize : Option (Int × Int) := none
  deriving DecidableEq, Repr

/-- A request; `fwkInput` tells whether it has an input buffer of the framework. -/
structure PicRequest where
  fwkInput : Bool
  metadata : JpegMetadata := {}
  deriving DecidableEq, Repr

/-- The call that the thread of the requests is in. -/
inductive Call
  | idle
  /-- `request`, before it queues the settings. -/
  | requesting (r : PicRequest)
  /-- `stop`, which waits for the data process thread. -/
  | stopping
  deriving DecidableEq, Repr

/-- `QCamera3PicChannel` and what the camera owes it. -/
structure PicChannel where
  postprocessor : PostProcessor
  isActive : Bool := true
  postProcStarted : Bool := false
  /-- `mInputBufferConfig`: the last start was for a camera request. -/
  inputBufferConfig : Bool := false
  freeBufferList : List Nat
  /-- The requests whose buffer the camera has, with the index of the buffer. -/
  awaitingFrame : List (Nat × Nat) := []
  awaitingMeta : List Nat := []
  /-- The requests are numbered in the order of the calls. -/
  nextRequest : Nat := 0
  call : Call := .idle
  jpegs : List Jpeg := []
  deriving DecidableEq, Repr

/-- A channel after its construction, with the buffers of the snapshot stream. -/
def PicChannel.create (needReprocess : Bool) (maxBuffers : Nat) : PicChannel where
  postprocessor := { needReprocess := needReprocess }
  freeBufferList := List.range maxBuffers

/-- What the second half of a request meets. The fields with `Rc` are the results of calls. -/
structure RequestEnv where
  index : Nat := 0
  settings : JobEnv := {}
  /-- Registration of the input buffer. -/
  inputRc : Int := 0
  srcFrame : Bool := true
  /-- Buffer definitions and metadata memory of the input buffer. -/
  fillRc : Int := 0
  job : JobEnv := {}
  deriving DecidableEq, Repr

namespace PicChannel

variable (c : PicChannel)

def jpegSettings (index : Nat) (metadata : JpegMetadata) : JpegSettings where
  serial := fresh c.postprocessor.heap
  request := c.nextRequest
  outBufIndex := index
  jpegOrientation := metadata.orientation.getD 0
  jpegQuality := (metadata.quality.map UInt32.toUInt8).getD 85
  jpegThumbQuality := (metadata.thumbQuality.map UInt32.toUInt8).getD 0
  thumbnailSize := metadata.thumbSize.getD (0, 0)

def queueJpegSetting (index : Nat) (metadata : JpegMetadata) (env : JobEnv) : Int × PicChannel :=
  if env.job then
    let post := { c.postprocessor with heap := malloc c.postprocessor.heap .settings }
    let (rc, post) := post.processJpegSettingData (c.jpegSettings index metadata) env.node
    (rc, { c with postprocessor := post })
  else (NO_MEMORY, c)

def startPostProc (fwkInput : Bool) (reprocRc : Int) : PicChannel :=
  let restartNeeded := (!c.inputBufferConfig) != fwkInput
  if !c.postProcStarted || restartNeeded then
    { c with
      postprocessor := (c.postprocessor.start reprocRc).2
      postProcStarted := true
      inputBufferConfig := !fwkInput }
  else c

def requestFrame (rc : Int) : Int × PicChannel :=
  match c.freeBufferList with
  | freeBuffer :: rest =>
    (rc, { c with
      freeBufferList := rest
      awaitingFrame := c.awaitingFrame ++ [(c.nextRequest, freeBuffer)]
      awaitingMeta := c.awaitingMeta ++ [c.nextRequest] })
  | [] => (NOT_ENOUGH_DATA, c)

/-- The part of `request` for an input buffer. The result of `processData` is not used. -/
def requestInput (env : RequestEnv) : Int × PicChannel :=
  if env.inputRc ≠ NO_ERROR then (env.inputRc, c)
  else if !env.srcFrame then (NO_MEMORY, c)
  else
    let post := c.postprocessor
    let srcFrame : FwkInput := ⟨fresh post.heap, c.nextRequest⟩
    let post := { post with heap := malloc post.heap .fwkInput }
    if env.fillRc ≠ NO_ERROR then (env.fillRc, { c with postprocessor := post.free srcFrame.ptr })
    else (NO_ERROR, { c with postprocessor := (post.processFwkData srcFrame env.job).2 })

/-- The first half of `request`, with the result of the preparations (plane offsets,
registration of the output buffer) and of the new reprocess channel. -/
def request (r : PicRequest) (prepareRc reprocRc : Int) : Int × PicChannel :=
  if !c.isActive then (NO_INIT, { c with nextRequest := c.nextRequest + 1 })
  else if prepareRc ≠ NO_ERROR then (prepareRc, { c with nextRequest := c.nextRequest + 1 })
  else (NO_ERROR, { c.startPostProc r.fwkInput reprocRc with call := .requesting r })

def finishRequest (r : PicRequest) (env : RequestEnv) : Int × PicChannel :=
  let (rc, c) := c.queueJpegSetting env.index r.metadata env.settings
  let (rc, c) := if r.fwkInput then c.requestInput env else c.requestFrame rc
  (rc, { c with call := .idle, nextRequest := c.nextRequest + 1 })

/-- `streamCbRoutine` of the snapshot stream: the frame of the oldest request that waits
for one. Without memory for its record, the buffer goes back to the camera. -/
def streamCbRoutine (allocated node : Bool) : PicChannel :=
  match c.awaitingFrame with
  | [] => c
  | (request, bufIdx) :: rest =>
    let c := { c with awaitingFrame := rest }
    if allocated then
      let post := c.postprocessor
      let frame : SuperBuf := ⟨fresh post.heap, .snapshot, request, bufIdx⟩
      let post := { post with heap := malloc post.heap (.superBuf .snapshot) }
      { c with postprocessor := post.processData frame node }
    else { c with freeBufferList := c.freeBufferList ++ [bufIdx] }

def queueReprocMetadata (node : Bool) : PicChannel :=
  match c.awaitingMeta with
  | [] => c
  | request :: rest =>
    let post := c.postprocessor
    let metadata : SuperBuf := ⟨fresh post.heap, .metadata, request, 0⟩
    let post := { post with heap := malloc post.heap (.superBuf .metadata) }
    { c with awaitingMeta := rest, postprocessor := post.processPPMetadata metadata node }

/-- `streamCbRoutine` of the reprocess channel: the frame of the oldest request that it
reprocesses. -/
def reprocCbRoutine (allocated : Bool) (env : JobEnv) : PicChannel :=
  match c.postprocessor.reprocChannel with
  | some (request :: rest) =>
    let post := { c.postprocessor with reprocChannel := some rest }
    if allocated then
      let frame : SuperBuf := ⟨fresh post.heap, .reprocess, request, 0⟩
      let post := { post with heap := malloc post.heap (.superBuf .reprocess) }
      { c with postprocessor := (post.processPPData frame env).2 }
    else { c with postprocessor := post }
  | _ => c

/-- `jpegEvtHandle`: the job at the head of the ongoing jobs is finished. The index of its
snapshot buffer is free again. -/
def jpegEvtHandle (done : Bool) (jobId : Nat) : PicChannel :=
  match c.postprocessor.findJpegJobByJobId jobId with
  | (none, _) => c
  | (some job, post) =>
    let jpegs := c.jpegs ++ (job.jpegSettings.map (Jpeg.mk job.source done)).toList
    let (snapshot, freeBufferList) :=
      match job.snapshot with
      | some frame => (some frame.ptr, c.freeBufferList ++ [frame.bufIdx])
      | none => (none, c.freeBufferList)
    let post := { post with heap := snapshot.elim post.heap post.heap.giveBack }
    { c with
      postprocessor := (post.releaseJpegJobData job).free job.ptr
      freeBufferList := freeBufferList
      jpegs := jpegs }

def start : PicChannel := { c with isActive := true }

def stop : PicChannel :=
  if c.isActive then
    { c with
      postprocessor := c.postprocessor.sendCmd .stopDataProc true
      call := .stopping }
  else c

/-- The rest of `stop`. The streams deliver nothing more for the requests so far. -/
def finishStop : PicChannel :=
  { c with
    postprocessor := c.postprocessor.finishStop
    postProcStarted := false
    isActive := false
    awaitingFrame := []
    awaitingMeta := []
    call := .idle }

end PicChannel

/-- A step of one of the threads, with what it meets. -/
inductive Op
  | request (r : PicRequest) (prepareRc reprocRc : Int)
  | finishRequest (env : RequestEnv)
  | frame (allocated node : Bool)
  | metadata (node : Bool)
  /-- The framework gets a result without the metadata of the sensor. -/
  | metadataLost
  | dataProc (env : PostProcessor.DataProcEnv)
  | reprocessed (allocated : Bool) (env : JobEnv)
  | jpegEvent (done : Bool) (jobId : Nat)
  | start
  | stop
  | finishStop
  deriving DecidableEq, Repr

def Op.exec (c : PicChannel) : Op → PicChannel
  | .request r prepareRc reprocRc => (c.request r prepareRc reprocRc).2
  | .finishRequest env =>
    match c.call with
    | .requesting r => (c.finishRequest r env).2
    | _ => c
  | .frame allocated node => c.streamCbRoutine allocated node
  | .metadata node => c.queueReprocMetadata node
  | .metadataLost => { c with awaitingMeta := c.awaitingMeta.tail }
  | .dataProc env => { c with postprocessor := c.postprocessor.dataProcessRoutine env }
  | .reprocessed allocated env => c.reprocCbRoutine allocated env
  | .jpegEvent done jobId => c.jpegEvtHandle done jobId
  | .start => c.start
  | .stop => c.stop
  | .finishStop => c.finishStop

/-- A call starts when the one before has returned, and `stop` returns when the data
process thread has handled its command. -/
def Op.Enabled (c : PicChannel) : Op → Prop
  | .request _ _ _ | .start | .stop => c.call = .idle
  | .finishStop => c.call = .stopping ∧ c.postprocessor.stopped = true
  | _ => True

instance (c : PicChannel) (op : Op) : Decidable (op.Enabled c) := by
  unfold Op.Enabled
  split <;> infer_instance

def picChannelSystem (needReprocess : Bool) (maxBuffers : Nat) : System PicChannel Op :=
  .ofFunction (· = .create needReprocess maxBuffers) (fun c op => op.Enabled c) Op.exec

end EtherDevice.PostProc
