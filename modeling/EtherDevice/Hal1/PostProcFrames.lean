import EtherDevice.Lib.Heap
import EtherDevice.Lib.Transition
import EtherDevice.PostProc.CameraQueue

/-!
# The frames and records of the post processor

`QCameraPostProcessor` takes super buffers that it has to free, and to give back to the channel
they came from. It makes a request, a job or a JPEG job of a frame, and hands the frame on from
one record to the next. In regular capture a job also has an array with the buffers of its frame.

A frame is the source of a first pass and its reprocess source at the same time, and stays the
reprocess source of all later passes.

Memory is available, and the channel of a frame is found when the frame is given back. What the
encoder, the channels and the notifier answer is an argument.
-/

namespace EtherDevice.Hal1.PostProcFrames

open Lib
open PostProc (CameraQueue)

inductive Ptr
  | frame (serial : Nat)
  | request (serial : Nat)
  | job (serial : Nat)
  | jpeg (serial : Nat)
  | bufs (serial : Nat)
  deriving DecidableEq, Repr

def Ptr.serial : Ptr → Nat
  | .frame serial | .request serial | .job serial | .jpeg serial | .bufs serial => serial

def Ptr.IsFrame : Ptr → Prop
  | .frame _ => True
  | _ => False

structure PpRequest where
  serial : Nat
  src_frame : Nat
  src_reproc_frame : Option Nat
  reprocCount : Nat
  deriving DecidableEq, Repr

structure PpData where
  serial : Nat
  src_frame : Option Nat := none
  src_reproc_frame : Option Nat := none
  src_reproc_bufs : Option Nat := none
  reproc_frame_release : Bool := false
  reprocCount : Nat
  deriving DecidableEq, Repr

structure JpegData where
  serial : Nat
  jobId : Nat := 0
  src_frame : Nat
  src_reproc_frame : Option Nat := none
  src_reproc_bufs : Option Nat := none
  reproc_frame_release : Bool := false
  deriving DecidableEq, Repr

def otherFrame (src_frame src_reproc_frame : Option Nat) : Option Nat :=
  if src_frame = src_reproc_frame then none else src_reproc_frame

def PpRequest.refs (r : PpRequest) : List Ptr :=
  .request r.serial :: .frame r.src_frame ::
    ((otherFrame (some r.src_frame) r.src_reproc_frame).map Ptr.frame).toList

def PpData.freed (job : PpData) : List Ptr :=
  .job job.serial :: ((job.src_frame.map Ptr.frame).toList ++
    ((otherFrame job.src_frame job.src_reproc_frame).map Ptr.frame).toList)

def PpData.array (job : PpData) : List Ptr := (job.src_reproc_bufs.map Ptr.bufs).toList

def PpData.refs (job : PpData) : List Ptr := job.freed ++ job.array

def JpegData.refs (job : JpegData) : List Ptr :=
  .jpeg job.serial :: .frame job.src_frame :: ((job.src_reproc_frame.map Ptr.frame).toList ++
    (job.src_reproc_bufs.map Ptr.bufs).toList)

/-- The history of the records. `withheld` has the frames that were freed and not given back
because their job carried `reproc_frame_release`. -/
structure Books where
  heap : Heap Ptr := {}
  withheld : List Ptr := []
  next : Nat := 0
  deriving DecidableEq, Repr

namespace Books

variable (b : Books)

def malloc (record : Nat → Ptr) : Books :=
  { b with heap := b.heap.alloc (record b.next), next := b.next + 1 }

def free (p : Ptr) : Books := { b with heap := b.heap.free p }

def releaseSuperBuf (frame : Nat) : Books := { b with heap := b.heap.giveBack (.frame frame) }

def withhold (frame : Nat) : Books := { b with withheld := b.withheld ++ [.frame frame] }

def freeFrame (reproc_frame_release : Bool) (frame : Nat) : Books :=
  (if reproc_frame_release then b.withhold frame else b.releaseSuperBuf frame).free (.frame frame)

def freeFrame? (reproc_frame_release : Bool) (frame : Option Nat) : Books :=
  frame.elim b (b.freeFrame reproc_frame_release)

def releasePPInputData (r : PpRequest) : Books :=
  (b.freeFrame false r.src_frame).freeFrame? false
    (otherFrame (some r.src_frame) r.src_reproc_frame)

def releaseOngoingPPData (job : PpData) : Books :=
  (b.freeFrame? job.reproc_frame_release job.src_frame).freeFrame? false
    (otherFrame job.src_frame job.src_reproc_frame)

def releaseJpegJobData (job : JpegData) : Books :=
  let b := (b.freeFrame? job.reproc_frame_release job.src_reproc_frame).freeFrame false
    job.src_frame
  job.src_reproc_bufs.elim b fun bufs => b.free (.bufs bufs)

def freeRequest (r : PpRequest) : Books := (b.releasePPInputData r).free (.request r.serial)

def freePpJob (job : PpData) : Books := (b.releaseOngoingPPData job).free (.job job.serial)

def freeJpegJob (job : JpegData) : Books := (b.releaseJpegJobData job).free (.jpeg job.serial)

end Books

inductive Status
  | noError | unknownError | badValue
  deriving DecidableEq, Repr

structure PostProcessor where
  m_bInited : Bool
  /-- the data thread is started -/
  isActive : Bool := false
  mTotalNumReproc : Nat := 0
  m_bufCountPPQ : Nat := 0
  m_inputPPQ : CameraQueue PpRequest := {}
  m_ongoingPPQ : CameraQueue PpData := {}
  m_inputJpegQ : CameraQueue JpegData := {}
  m_ongoingJpegQ : CameraQueue JpegData := {}
  m_inputRawQ : CameraQueue Nat := {}
  /-- the frames of the snapshot notifications that the notifier has still to handle -/
  notifications : List Nat := []
  books : Books := {}

inductive Mode
  | reprocess
  /-- `isNV16PictureFormat` or `isNV21PictureFormat` -/
  | rawPicture
  | jpeg
  deriving DecidableEq, Repr

structure RawAnswers where
  /-- the channel of the frame, its raw buffer and the memory for the callback are there -/
  raw_mem : Bool
  zslChannelUsed : Bool
  /-- a snapshot, and no raw image -/
  snapshot : Bool
  m_bIntRawEvtPending : Bool
  /-- there is a data callback for compressed images -/
  mDataCb : Bool
  /-- the notifier takes the notification -/
  notifyCallback : Bool
  deriving DecidableEq, Repr

structure ReprocessAnswers where
  validatePostProcess : Bool
  /-- `mPPChannels` has a channel for the pass -/
  channel : Bool
  isRegularCapture : Bool
  /-- the frame has buffers -/
  hasBufs : Bool
  numberInBufs : Nat
  numberOutBufs : Nat
  deriving DecidableEq, Repr

namespace PostProcessor

variable (s : PostProcessor)

def malloc (record : Nat → Ptr) : PostProcessor := { s with books := s.books.malloc record }

def processRawData (frame : Nat) : Status × PostProcessor :=
  if s.m_bInited then
    match s.m_inputRawQ.enqueue frame true with
    | (true, q) => (.noError, { s with m_inputRawQ := q })
    | (false, _) => (.noError, { s with books := s.books.freeFrame false frame })
  else (.unknownError, s)

/-- A request to `m_inputPPQ`, which is released if the queue is not active. -/
def enqueueRequest (r : PpRequest) : PostProcessor :=
  match s.m_inputPPQ.enqueue r true with
  | (true, q) => { s with m_inputPPQ := q }
  | (false, _) => { s with books := s.books.freeRequest r }

/-- A JPEG job to `m_inputJpegQ`, which is released if the queue is not active. -/
def enqueueJpegJob (job : JpegData) : PostProcessor :=
  match s.m_inputJpegQ.enqueue job true with
  | (true, q) => { s with m_inputJpegQ := q }
  | (false, _) => { s with books := s.books.freeJpegJob job }

def processData (mode : Mode) (frame : Nat) : Status × PostProcessor :=
  if s.m_bInited then
    match mode with
    | .reprocess =>
      (.noError, (s.malloc .request).enqueueRequest ⟨s.books.next, frame, some frame, 0⟩)
    | .rawPicture => (.noError, (s.processRawData frame).2)
    | .jpeg =>
      (.noError, (s.malloc .jpeg).enqueueJpegJob { serial := s.books.next, src_frame := frame })
  else (.unknownError, s)

/-- What `processPPData` does with a job that it took and did not reject. -/
def finish (rawPicture : Bool) (job : PpData) (frame : Nat) : Status × PostProcessor :=
  if rawPicture then
    { s with books := s.books.freePpJob job }.processRawData frame
  else
    -- in a later pass the source is a frame that an earlier pass gave
    let s := if 1 < job.reprocCount then
        { s with books := s.books.freeFrame? false job.src_frame }
      else s
    let t := if job.reprocCount < s.mTotalNumReproc then
        (s.malloc .request).enqueueRequest
          ⟨s.books.next, frame, job.src_reproc_frame, job.reprocCount⟩
      else
        (s.malloc .jpeg).enqueueJpegJob
          { serial := s.books.next
            src_frame := frame
            src_reproc_frame := job.src_reproc_frame
            src_reproc_bufs := job.src_reproc_bufs
            reproc_frame_release := job.reproc_frame_release }
    (.noError, { t with books := t.books.free (.job job.serial) })

def processPPData (needSuperBufMatch rawPicture : Bool) (frame : Nat) : Status × PostProcessor :=
  if s.m_bInited then
    match s.m_ongoingPPQ.dequeue with
    | (none, _) => (.badValue, s)
    | (some job, q) =>
      let s := { s with m_ongoingPPQ := q }
      if !needSuperBufMatch && (job.src_frame.isNone || job.src_reproc_frame.isNone) then
        (.badValue, s)
      else s.finish (!needSuperBufMatch && rawPicture) job frame
  else (.unknownError, s)

def encodeNext (start_job : Option Nat) : PostProcessor :=
  match s.m_inputJpegQ.dequeue with
  | (none, _) => s
  | (some job, q) =>
    let s := { s with m_inputJpegQ := q }
    match s.m_ongoingJpegQ.enqueue job true, start_job with
    | (true, _), some jobId =>
      { s with m_ongoingJpegQ := (s.m_ongoingJpegQ.enqueue { job with jobId := jobId } true).2 }
    | (true, ongoing), none =>
      { s with m_ongoingJpegQ := ongoing.dequeueTail.2, books := s.books.freeJpegJob job }
    | (false, _), _ => { s with books := s.books.freeJpegJob job }

def processRawImageImpl (a : RawAnswers) (recvd_frame : Nat) : Status × PostProcessor :=
  if a.raw_mem then
    if !a.snapshot && a.m_bIntRawEvtPending then (.noError, s)
    else if a.mDataCb then
      -- `sendDataNotify`, where `releaseNotifyData` frees what the notifier refused
      match a.zslChannelUsed, a.notifyCallback with
      | true, true => (.noError, { s with notifications := s.notifications ++ [recvd_frame] })
      | true, false => (.unknownError, { s with books := s.books.freeFrame false recvd_frame })
      | false, true => (.noError, s)
      | false, false => (.unknownError, s)
    else (.noError, s)
  else (.badValue, s)

def rawNext (a : RawAnswers) : PostProcessor :=
  match s.m_inputRawQ.dequeue with
  | (none, _) => s
  | (some super_buf, q) =>
    match { s with m_inputRawQ := q }.processRawImageImpl a super_buf with
    | (.noError, s) => s
    | (_, s) => { s with books := s.books.freeFrame false super_buf }

def addExtraJobs (reprocCount : Nat) (s : PostProcessor) : Nat → PostProcessor
  | 0 => s
  | n + 1 =>
    let extra : PpData := { serial := s.books.next, reprocCount := reprocCount }
    let s := s.malloc .job
    match s.m_ongoingPPQ.enqueue extra true with
    | (true, q) => addExtraJobs reprocCount { s with m_ongoingPPQ := q } n
    | (false, _) => { s with books := s.books.freePpJob extra }

/-- A new job to `m_ongoingPPQ`, for a request whose record is still there. The job stays in the
queue if the channel does not take the frame. -/
def submit (a : ReprocessAnswers) (job : PpData) : PostProcessor :=
  let s := { s with m_bufCountPPQ := s.m_bufCountPPQ + 1 }
  match s.m_ongoingPPQ.enqueue job true with
  | (true, q) =>
    let s := { s with m_ongoingPPQ := q }
    if !a.isRegularCapture && s.m_bufCountPPQ % a.numberInBufs == 0 then
      addExtraJobs job.reprocCount s (a.numberOutBufs - a.numberInBufs)
    else s
  | (false, _) => { s with books := s.books.freePpJob job }

def reprocess (a : ReprocessAnswers) (r : PpRequest) (src_reproc_frame : Nat) : PostProcessor :=
  let job : PpData :=
    { serial := s.books.next
      src_frame := some r.src_frame
      src_reproc_frame := some src_reproc_frame
      reprocCount := r.reprocCount + 1 }
  let s := s.malloc .job
  let t := if a.channel then
      if a.isRegularCapture then
        if a.hasBufs then
          (s.malloc .bufs).submit a
            { job with src_reproc_bufs := some s.books.next, reproc_frame_release := true }
        else s.submit a { job with reproc_frame_release := true }
      else s.submit a job
    else { s with books := (s.books.free (.job job.serial)).releasePPInputData r }
  { t with books := t.books.free (.request r.serial) }

def doReprocess (a : ReprocessAnswers) : PostProcessor :=
  if s.m_inputPPQ.peek.isSome && a.validatePostProcess then
    match s.m_inputPPQ.dequeue with
    | (none, _) => s
    | (some r, q) =>
      let s := { s with m_inputPPQ := q }
      match r.src_reproc_frame with
      | none => s
      | some src_reproc_frame => s.reprocess a r src_reproc_frame
  else s

/-- `DO_NEXT_JOB` while the data thread is not started. -/
def discardNext : PostProcessor :=
  let b := s.m_inputJpegQ.dequeue.1.elim s.books s.books.freeJpegJob
  let b := s.m_inputRawQ.dequeue.1.elim b (b.freeFrame false)
  { s with
    m_inputJpegQ := s.m_inputJpegQ.dequeue.2
    m_inputRawQ := s.m_inputRawQ.dequeue.2
    m_inputPPQ := s.m_inputPPQ.flush.2
    books := s.m_inputPPQ.flush.1.foldl Books.freeRequest b }

def startDataProc : PostProcessor :=
  { s with
    isActive := true
    m_ongoingPPQ := s.m_ongoingPPQ.init
    m_inputJpegQ := s.m_inputJpegQ.init
    m_inputPPQ := s.m_inputPPQ.init
    m_inputRawQ := s.m_inputRawQ.init }

/-- `STOP_DATA_PROC`. Every entry of `m_ongoingJpegQ` is dequeued, and the other queues are
flushed. -/
def stopDataProc : PostProcessor :=
  let ongoing := s.m_ongoingJpegQ.flushNodes fun _ => true
  let b := ongoing.1.foldl Books.freeJpegJob s.books
  let b := s.m_ongoingPPQ.flush.1.foldl Books.freePpJob b
  let b := s.m_inputJpegQ.flush.1.foldl Books.freeJpegJob b
  let b := s.m_inputPPQ.flush.1.foldl Books.freeRequest b
  { s with
    isActive := false
    m_ongoingJpegQ := ongoing.2
    m_ongoingPPQ := s.m_ongoingPPQ.flush.2
    m_inputJpegQ := s.m_inputJpegQ.flush.2
    m_inputPPQ := s.m_inputPPQ.flush.2
    m_inputRawQ := s.m_inputRawQ.flush.2
    books := s.m_inputRawQ.flush.1.foldl (Books.freeFrame · false) b }

/-- `start`, with the number of passes if frames are to be reprocessed, and whether their
channels can be added and started. -/
def start (reprocCount : Option Nat) (channels : Bool) : PostProcessor :=
  if s.m_bInited then
    match reprocCount with
    | none => s.startDataProc
    | some n =>
      let s := { s with m_bufCountPPQ := 0, mTotalNumReproc := n }
      if channels then s.startDataProc else s
  else s

def flushSnapshots : PostProcessor :=
  { s with
    notifications := []
    books := s.notifications.foldl (Books.freeFrame · false) s.books }

def stop (notifierFirst : Bool) : PostProcessor :=
  let s := if s.m_bInited then
      (if notifierFirst then s.flushSnapshots else s).stopDataProc
    else s
  { s with mTotalNumReproc := 0 }

def processJpegEvt (jobId : Nat) : PostProcessor :=
  if s.m_bInited then
    let matched := s.m_ongoingJpegQ.flushNodes fun job => job.jobId == jobId
    { s with m_ongoingJpegQ := matched.2, books := matched.1.foldl Books.freeJpegJob s.books }
  else s

/-- The notifier handles a notification, and calls `releaseNotifyData`. -/
def notified : PostProcessor :=
  match s.notifications with
  | [] => s
  | frame :: rest => { s with notifications := rest, books := s.books.freeFrame false frame }

end PostProcessor

/-- What the post processor is told. `DO_NEXT_JOB` has three parts while the data thread is
started, and other threads may come between them. -/
inductive Op
  | start (reprocCount : Option Nat) (channels : Bool)
  | stop (notifierFirst : Bool)
  | processData (mode : Mode)
  | processRawData
  | processPPData (needSuperBufMatch rawPicture : Bool)
  | encodeNext (start_job : Option Nat)
  | rawNext (a : RawAnswers)
  | doReprocess (a : ReprocessAnswers)
  | discardNext
  | processJpegEvt (jobId : Nat)
  | notified
  | flushSnapshots

namespace PostProcessor

/-- A call with a new frame, which is the post processor's if the call returns `NO_ERROR`. -/
def take (s : PostProcessor) (call : PostProcessor → Nat → Status × PostProcessor) :
    PostProcessor :=
  match call { s with books := { s.books with next := s.books.next + 1 } } s.books.next with
  | (.noError, t) =>
    { t with books := { t.books with heap := t.books.heap.alloc (.frame s.books.next) } }
  | (_, t) => t

def exec (s : PostProcessor) : Op → PostProcessor
  | .start reprocCount channels => s.start reprocCount channels
  | .stop notifierFirst => s.stop notifierFirst
  | .processData mode => s.take (processData · mode)
  | .processRawData => s.take processRawData
  | .processPPData needSuperBufMatch rawPicture =>
    s.take (processPPData · needSuperBufMatch rawPicture)
  | .encodeNext start_job => if s.isActive then s.encodeNext start_job else s
  | .rawNext a => if s.isActive then s.rawNext a else s
  | .doReprocess a => if s.isActive then s.doReprocess a else s
  | .discardNext => if s.isActive then s else s.discardNext
  | .processJpegEvt jobId => s.processJpegEvt jobId
  | .notified => s.notified
  | .flushSnapshots => s.flushSnapshots

def refs (s : PostProcessor) : List Ptr :=
  s.m_inputPPQ.items.flatMap PpRequest.refs ++ (s.m_ongoingPPQ.items.flatMap PpData.refs ++
    (s.m_inputJpegQ.items.flatMap JpegData.refs ++
      (s.m_ongoingJpegQ.items.flatMap JpegData.refs ++
        (s.m_inputRawQ.items.map Ptr.frame ++ s.notifications.map Ptr.frame))))

/-- Everything that was made is referenced by one record or was freed once, and a frame that was
freed went back to its channel once, unless its job carried `reproc_frame_release`. -/
structure FreedOnce (s : PostProcessor) : Prop where
  once : ∀ p ∈ s.books.heap.made, s.refs.count p + s.books.heap.freed.count p = 1
  made : ∀ p, p ∉ s.books.heap.made → p ∉ s.refs ∧ p ∉ s.books.heap.freed
  returned : ∀ n, s.books.heap.returned.count (.frame n) + s.books.withheld.count (.frame n) =
    s.books.heap.freed.count (.frame n)

/-- After the step everything is freed once, and after a stop nothing is left. -/
def Keeps (s : PostProcessor) (op : Op) : Prop :=
  (s.exec op).FreedOnce ∧ ∀ notifierFirst, op = .stop notifierFirst → (s.exec op).refs = []

end PostProcessor

end EtherDevice.Hal1.PostProcFrames
