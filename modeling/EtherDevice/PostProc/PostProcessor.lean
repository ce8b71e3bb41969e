import EtherDevice.Lib.Heap
import EtherDevice.PostProc.CameraQueue

/-!
# The JPEG post-processor

`QCamera3PostProcessor` takes the frames of the snapshot stream, their metadata, the input
buffers of the framework and the JPEG settings of the requests, each in a queue of its own.
Its data process thread joins them to reprocess jobs and JPEG jobs.

Records are known by a serial number that `malloc` gives and that is not used again. So a
record that is read after its release still shows what it had: this is one of the things
that the program may do then. `heap` has the records that were made, those that were freed,
and the camera and metadata buffers that were given back to their channels.

A record of a request has the number of the request in `request`. The program does not
have this number and no function looks at it.
-/

namespace EtherDevice.PostProc

inductive StreamKind
  | snapshot
  | reprocess
  | metadata
  deriving DecidableEq, Repr

inductive RecordKind
  | superBuf (stream : StreamKind)
  | fwkInput
  | settings
  | ppJob
  | jpegJob
  deriving DecidableEq, Repr

def RecordKind.isBuffer : RecordKind → Bool
  | .superBuf .snapshot | .superBuf .metadata => true
  | _ => false

structure Ptr where
  kind : RecordKind
  serial : Nat
  deriving DecidableEq, Repr

structure SuperBuf where
  serial : Nat
  stream : StreamKind
  request : Nat
  bufIdx : Nat
  deriving DecidableEq, Repr

structure FwkInput where
  serial : Nat
  request : Nat
  deriving DecidableEq, Repr

structure JpegSettings where
  serial : Nat
  request : Nat
  outBufIndex : Nat
  jpegOrientation : Int
  jpegQuality : UInt8
  jpegThumbQuality : UInt8
  thumbnailSize : Int × Int
  deriving DecidableEq, Repr

structure PPJob where
  serial : Nat
  srcFrame : Option SuperBuf := none
  fwkSrcFrame : Option FwkInput := none
  jpegSettings : Option JpegSettings := none
  srcMetadata : Option SuperBuf := none
  deriving DecidableEq, Repr

structure JpegJob where
  serial : Nat
  srcFrame : Option SuperBuf := none
  srcReprocFrame : Option SuperBuf := none
  fwkFrame : Option FwkInput := none
  fwkSrcBuffer : Option FwkInput := none
  srcMetadata : Option SuperBuf := none
  jpegSettings : Option JpegSettings := none
  deriving DecidableEq, Repr

def SuperBuf.ptr (b : SuperBuf) : Ptr := ⟨.superBuf b.stream, b.serial⟩

def FwkInput.ptr (b : FwkInput) : Ptr := ⟨.fwkInput, b.serial⟩

def JpegSettings.ptr (x : JpegSettings) : Ptr := ⟨.settings, x.serial⟩

def PPJob.ptr (job : PPJob) : Ptr := ⟨.ppJob, job.serial⟩

def JpegJob.ptr (job : JpegJob) : Ptr := ⟨.jpegJob, job.serial⟩

def JpegJob.source (job : JpegJob) : Option Nat :=
  (job.srcFrame.map SuperBuf.request).or (job.fwkFrame.map FwkInput.request)

def JpegJob.snapshot (job : JpegJob) : Option SuperBuf :=
  (job.srcReprocFrame.or job.srcFrame).filter fun frame => frame.stream = .snapshot

/-- The records of the post-processor. What is given back is a buffer. -/
abbrev Heap := Lib.Heap Ptr

/-- The serial number of the record that the next `malloc` makes. -/
def fresh (h : Heap) : Nat := h.made.length

def malloc (h : Heap) (kind : RecordKind) : Heap := h.alloc ⟨kind, fresh h⟩

def release (h : Heap) (b : SuperBuf) : Heap := (h.giveBack b.ptr).free b.ptr

def free? (h : Heap) : Option Ptr → Heap
  | some p => h.free p
  | none => h

/-- The commands of the data process thread. -/
inductive Cmd
  | startDataProc
  | stopDataProc
  | doNextJob
  deriving DecidableEq, Repr

/-- Where `dataProcessRoutine` stands: it waits for a command, or has a part of
`CAMERA_CMD_TYPE_DO_NEXT_JOB` before it. -/
inductive Stage
  | waiting
  | jpegJobs
  | fwkJobs
  | cameraJobs
  deriving DecidableEq, Repr

/-- `QCamera3PostProcessor`. The reprocess channel has the requests whose frames it
reprocesses, in order. -/
structure PostProcessor where
  needReprocess : Bool := true
  inputPPQ : CameraQueue SuperBuf := {}
  inputMetaQ : CameraQueue SuperBuf := {}
  inputFWKPPQ : CameraQueue FwkInput := {}
  jpegSettingsQ : CameraQueue JpegSettings := {}
  ongoingPPQ : CameraQueue PPJob := {}
  inputJpegQ : CameraQueue JpegJob := {}
  ongoingJpegQ : CameraQueue JpegJob := {}
  reprocChannel : Option (List Nat) := none
  isActive : Bool := false
  stage : Stage := .waiting
  cmds : List Cmd := []
  /-- The semaphore that a stop waits for was posted. -/
  stopped : Bool := false
  heap : Heap := {}
  deriving DecidableEq, Repr

def NO_ERROR : Int := 0
def BAD_VALUE : Int := -22
def NO_MEMORY : Int := -12
def NO_INIT : Int := -19
def NOT_ENOUGH_DATA : Int := -61

structure JobEnv where
  job : Bool := true
  node : Bool := true
  deriving DecidableEq, Repr

namespace PostProcessor

variable (s : PostProcessor)

def sendCmd (cmd : Cmd) (priority : Bool := false) : PostProcessor :=
  { s with cmds := if priority then cmd :: s.cmds else s.cmds ++ [cmd] }

def free (p : Ptr) : PostProcessor := { s with heap := s.heap.free p }

def processData (frame : SuperBuf) (node : Bool) : PostProcessor :=
  let s := { s with inputPPQ := (s.inputPPQ.enqueue frame node).2 }
  if s.inputMetaQ.isEmpty then s else s.sendCmd .doNextJob

def processFwkData (frame : FwkInput) (env : JobEnv) : Int × PostProcessor :=
  if s.needReprocess then
    let s := { s with inputFWKPPQ := (s.inputFWKPPQ.enqueue frame env.node).2 }
    (NO_ERROR, s.sendCmd .doNextJob)
  else
    match s.jpegSettingsQ.dequeue with
    | (none, _) => (BAD_VALUE, s)
    | (some jpegSettings, q) =>
      let s := { s with jpegSettingsQ := q }
      if env.job then
        let jpegJob : JpegJob :=
          { serial := fresh s.heap, fwkFrame := some frame, jpegSettings := some jpegSettings }
        let s := { s with
          heap := malloc s.heap .jpegJob
          inputJpegQ := (s.inputJpegQ.enqueue jpegJob env.node).2 }
        (NO_ERROR, s.sendCmd .doNextJob)
      else (NO_MEMORY, s)

def processPPMetadata (reprocMeta : SuperBuf) (node : Bool) : PostProcessor :=
  let s := { s with inputMetaQ := (s.inputMetaQ.enqueue reprocMeta node).2 }
  if s.inputPPQ.isEmpty then s else s.sendCmd .doNextJob

def processJpegSettingData (jpegSettings : JpegSettings) (node : Bool) : Int × PostProcessor :=
  let (queued, q) := s.jpegSettingsQ.enqueue jpegSettings node
  (if queued then 1 else 0, { s with jpegSettingsQ := q })

/-- The JPEG job of a reprocess job. The camera frame is kept in `srcReprocFrame` if the
frame to encode is another one. -/
def jpegJobOf (job : PPJob) (frame : SuperBuf) (serial : Nat) : JpegJob where
  serial := serial
  srcFrame := some frame
  srcReprocFrame := if some frame ≠ job.srcFrame then job.srcFrame else none
  fwkSrcBuffer := job.fwkSrcFrame
  srcMetadata := job.srcMetadata
  jpegSettings := job.jpegSettings

def processPPData (frame : SuperBuf) (env : JobEnv) : Int × PostProcessor :=
  match s.ongoingPPQ.dequeue with
  | (none, _) => (BAD_VALUE, s)
  | (some job, q) =>
    let s := { s with ongoingPPQ := q }
    if job.srcFrame = none ∧ job.fwkSrcFrame = none then (BAD_VALUE, s)
    else if job.jpegSettings = none then (BAD_VALUE, s)
    else if env.job then
      let jpegJob := jpegJobOf job frame (fresh s.heap)
      let s := { s with
        heap := (malloc s.heap .jpegJob).free job.ptr
        inputJpegQ := (s.inputJpegQ.enqueue jpegJob env.node).2 }
      (NO_ERROR, s.sendCmd .doNextJob)
    else (NO_MEMORY, s)

def findJpegJobByJobId (jobId : Nat) : Option JpegJob × PostProcessor :=
  if jobId = 0 then (none, s)
  else
    let (job, q) := s.ongoingJpegQ.dequeue
    (job, { s with ongoingJpegQ := q })

/-- The heap after `releaseJpegJobData`. The source frame goes back to the reprocess
channel, which does not take a camera frame. -/
def releaseJpegJob (h : Heap) (job : JpegJob) : Heap :=
  let h := free? h (job.srcReprocFrame.map SuperBuf.ptr)
  let h := free? h (job.srcFrame.map SuperBuf.ptr)
  let h :=
    match job.fwkSrcBuffer, job.srcMetadata with
    | some buffer, _ => h.free buffer.ptr
    | none, some srcMetadata => release h srcMetadata
    | none, none => h
  let h := free? h (job.fwkFrame.map FwkInput.ptr)
  free? h (job.jpegSettings.map JpegSettings.ptr)

def releaseJpegJobData (job : JpegJob) : PostProcessor :=
  { s with heap := releaseJpegJob s.heap job }.sendCmd .doNextJob

def releaseOngoingPP (h : Heap) (ppJob : PPJob) : Heap :=
  let h :=
    match ppJob.srcFrame with
    | some srcFrame =>
      let h := release h srcFrame
      match ppJob.srcMetadata with
      | some srcMetadata => release h srcMetadata
      | none => h
    | none => h
  free? h (ppJob.fwkSrcFrame.map FwkInput.ptr)

def releaseJpegJobs (jobs : List JpegJob) : PostProcessor :=
  jobs.foldl (fun s job => (s.releaseJpegJobData job).free job.ptr) s

/-- What a step of the thread meets: the allocations, the encoder, and the results of
`extractFrameCropAndRotation` and `doReprocessOffline`. -/
structure DataProcEnv where
  job : Bool := true
  node : Bool := true
  encodes : Bool := true
  extracts : Bool := true
  reprocesses : Bool := true
  jpeg : JobEnv := {}
  deriving DecidableEq, Repr

variable (env : DataProcEnv)

def startDataProc : PostProcessor :=
  { s with
    isActive := true
    ongoingPPQ := s.ongoingPPQ.init
    inputJpegQ := s.inputJpegQ.init
    inputPPQ := s.inputPPQ.init
    inputFWKPPQ := s.inputFWKPPQ.init
    inputMetaQ := s.inputMetaQ.init }

def flushOngoingPPQ : PostProcessor :=
  let (jobs, q) := s.ongoingPPQ.flush
  { s with
    ongoingPPQ := q
    heap := jobs.foldl (fun h job => (releaseOngoingPP h job).free job.ptr) s.heap }

def flushInputJpegQ : PostProcessor :=
  let (jobs, q) := s.inputJpegQ.flush
  { s with inputJpegQ := q }.releaseJpegJobs jobs

def flushInputPPQ : PostProcessor :=
  let (frames, q) := s.inputPPQ.flush
  { s with inputPPQ := q, heap := frames.foldl release s.heap }

def flushInputFWKPPQ : PostProcessor :=
  let (frames, q) := s.inputFWKPPQ.flush
  { s with inputFWKPPQ := q, heap := frames.foldl (fun h frame => h.free frame.ptr) s.heap }

def flushInputMetaQ : PostProcessor :=
  let (metas, q) := s.inputMetaQ.flush
  { s with inputMetaQ := q, heap := metas.foldl release s.heap }

def cancelOngoingJpegJobs : PostProcessor :=
  { s with ongoingJpegQ := { s.ongoingJpegQ with items := [] } }.releaseJpegJobs
    s.ongoingJpegQ.items

def stopDataProc : PostProcessor :=
  let s := { s with isActive := false }
  let s := s.cancelOngoingJpegJobs
  let s := s.flushOngoingPPQ
  let s := s.flushInputJpegQ
  let s := s.flushInputPPQ
  let s := s.flushInputFWKPPQ
  let s := s.flushInputMetaQ
  { s with stopped := true }

/-- `CAMERA_CMD_TYPE_DO_NEXT_JOB` while the thread is not active. -/
def discardNext : PostProcessor :=
  let (jpegJob, jpegQ) := s.inputJpegQ.dequeue
  let (frame, ppQ) := s.inputPPQ.dequeue
  let (srcMetadata, metaQ) := s.inputMetaQ.dequeue
  let (fwkFrame, fwkQ) := s.inputFWKPPQ.dequeue
  let h := free? s.heap (jpegJob.map JpegJob.ptr)
  let h := frame.elim h (release h)
  let h := srcMetadata.elim h (release h)
  let h := free? h (fwkFrame.map FwkInput.ptr)
  { s with
    inputJpegQ := jpegQ, inputPPQ := ppQ, inputMetaQ := metaQ, inputFWKPPQ := fwkQ, heap := h }

/-- The first part of a pass: one job to the encoder, if it has none. -/
def encodeNext : PostProcessor :=
  if s.ongoingJpegQ.isEmpty then
    match s.inputJpegQ.dequeue with
    | (none, _) => s
    | (some jpegJob, q) =>
      let s := { s with
        inputJpegQ := q
        ongoingJpegQ := (s.ongoingJpegQ.enqueue jpegJob env.node).2 }
      if env.encodes then s
      else
        let s := { s with ongoingJpegQ := s.ongoingJpegQ.dequeueTail.2 }
        (s.releaseJpegJobData jpegJob).free jpegJob.ptr
  else s

def doReprocessOffline (request : Nat) (reprocesses : Bool) : Bool × PostProcessor :=
  if reprocesses then
    (true, { s with reprocChannel := s.reprocChannel.map fun pending => pending ++ [request] })
  else (false, s)

def extractFrameCropAndRotation (jpegSettings : Option JpegSettings) (extracts : Bool) : Bool :=
  jpegSettings.isSome && extracts

def fwkNext : PostProcessor :=
  match s.inputFWKPPQ.dequeue with
  | (none, _) => s
  | (some fwkFrame, fwkQ) =>
    let (jpegSettings, settingsQ) := s.jpegSettingsQ.dequeue
    let s := { s with inputFWKPPQ := fwkQ, jpegSettingsQ := settingsQ }
    if env.job then
      let ppJob : PPJob :=
        { serial := fresh s.heap, fwkSrcFrame := some fwkFrame, jpegSettings := jpegSettings }
      let s := { s with heap := malloc s.heap .ppJob }
      if s.reprocChannel.isSome then
        let s := { s with ongoingPPQ := (s.ongoingPPQ.enqueue ppJob env.node).2 }
        let (ok, s) := s.doReprocessOffline fwkFrame.request env.reprocesses
        if ok then s
        else
          let s := { s with ongoingPPQ := s.ongoingPPQ.dequeueTail.2 }
          (s.free ppJob.ptr).free fwkFrame.ptr
      else (s.free ppJob.ptr).free fwkFrame.ptr
    else s.free fwkFrame.ptr

def dropCamera (ppJob : Option Ptr) (ppFrame metaBuffer : SuperBuf) : PostProcessor :=
  { s with heap := release (release (free? s.heap ppJob) ppFrame) metaBuffer }

/-- The job of a camera frame is in `m_ongoingPPQ` and goes to the reprocess channel, or
to the encoder at once if there is none. A job that
`extractFrameCropAndRotation` refuses is not taken out of `m_ongoingPPQ`. -/
def startCameraJob (ppJob : PPJob) (ppFrame : SuperBuf) : Bool × PostProcessor :=
  if s.reprocChannel.isSome then
    if extractFrameCropAndRotation ppJob.jpegSettings env.extracts then
      let (ok, s) := s.doReprocessOffline ppFrame.request env.reprocesses
      if ok then (true, s) else (false, { s with ongoingPPQ := s.ongoingPPQ.dequeueTail.2 })
    else (false, s)
  else
    let (ret, s) := s.processPPData ppFrame env.jpeg
    (ret = NO_ERROR, s)

def cameraNext : PostProcessor :=
  if s.inputPPQ.isEmpty || s.inputMetaQ.isEmpty then s
  else
    match s.inputPPQ.dequeue, s.inputMetaQ.dequeue with
    | (some ppFrame, ppQ), (some metaBuffer, metaQ) =>
      let (jpegSettings, settingsQ) := s.jpegSettingsQ.dequeue
      let s := { s with inputPPQ := ppQ, inputMetaQ := metaQ, jpegSettingsQ := settingsQ }
      if env.job then
        let ppJob : PPJob :=
          { serial := fresh s.heap
            srcFrame := some ppFrame
            srcMetadata := some metaBuffer
            jpegSettings := jpegSettings }
        let s := { s with
          heap := malloc s.heap .ppJob
          ongoingPPQ := (s.ongoingPPQ.enqueue ppJob env.node).2 }
        let (ok, s) := s.startCameraJob env ppJob ppFrame
        if ok then s else s.dropCamera (some ppJob.ptr) ppFrame metaBuffer
      else s.dropCamera none ppFrame metaBuffer
    -- the queues are active while the thread is
    | _, _ => s

def handleCmd : Cmd → PostProcessor
  | .startDataProc => s.startDataProc
  | .stopDataProc => s.stopDataProc
  | .doNextJob => if s.isActive then { s with stage := .jpegJobs } else s.discardNext

def dataProcessRoutine : PostProcessor :=
  match s.stage with
  | .waiting =>
    match s.cmds with
    | [] => s
    | cmd :: cmds => { s with cmds := cmds }.handleCmd cmd
  | .jpegJobs => { s.encodeNext env with stage := .fwkJobs }
  | .fwkJobs => { s.fwkNext env with stage := .cameraJobs }
  | .cameraJobs => { s.cameraNext env with stage := .waiting }

/-- `start`. If reprocessing is needed, the reprocess channel is replaced; what it was
reprocessing is lost. -/
def start (reprocRc : Int) : Int × PostProcessor :=
  if s.needReprocess then
    if reprocRc = NO_ERROR then
      (NO_ERROR, { s with reprocChannel := some [] }.sendCmd .startDataProc)
    else (reprocRc, { s with reprocChannel := none })
  else (NO_ERROR, s.sendCmd .startDataProc)

def finishStop : PostProcessor := { s with reprocChannel := none, stopped := false }

end PostProcessor

end EtherDevice.PostProc
