import Mathlib.Tactic.Common

/-!
# The state machine of the first camera interface

`QCameraStateMachine.cpp` handles one command or event at a time, in a function for each state.
`Parent` holds what the hardware interface answers during one event: a return code for each
operation, and the flags that are asked. The calls that neither decide a branch nor change what
is modelled are left out.

The parent itself is modelled by its preview, which `preparePreview`, `startPreview`,
`stopPreview` and `unpreparePreview` change, and by `bRetroPicture`. `takePicture` stops the
preview outside ZSL and longshot mode. The other operations leave the preview as it is.
-/

namespace EtherDevice.Hal1

/-! ## Events and results -/

inductive SmEvt
  | setPreviewWindow | setCallbacks | enableMsgType | disableMsgType | msgTypeEnabled
  | setParams | getParams | putParams
  | startPreview | startNodisplayPreview | stopPreview | previewEnabled
  | storeMetadataInBufs | startRecording | stopRecording | recordingEnabled
  | releaseRecordingFrame | prepareSnapshot | takePicture | cancelPicture
  | startAutoFocus | stopAutoFocus | sendCommand | release | dump | regFaceImage
  | evtInternal | evtNotify | jpegEvtNotify | snapshotDone | thermalNotify
  | stopCaptureChannel | restartPreview
  deriving DecidableEq, Repr

inductive InternalEvt
  | focusUpdate | prepSnapshotDone | faceDetectResult | histogramStats | cropInfo | asdUpdate
  | readyForSnapshot | ledModeOverride | awbUpdate | aeUpdate | focusPosUpdate | hdrUpdate
  | retroAecUnlock | zslCaptureDone
  deriving DecidableEq, Repr

inductive ServerEvt
  | daemonDied | other
  deriving DecidableEq, Repr

inductive Command
  | longshotOn | longshotOff | other
  deriving DecidableEq, Repr

structure Payload where
  msgs : UInt32 := 0
  internalEvt : InternalEvt := .focusUpdate
  serverEvt : ServerEvt := .other
  cmd : Command := .other
  deriving Repr

inductive ResultType
  | default
  | enableFlag (enabled : UInt32)
  | params
  | handle (faceId : Int)
  deriving DecidableEq, Repr

structure ApiResult where
  status : Int
  requestApi : SmEvt
  resultType : ResultType
  deriving DecidableEq, Repr

def noError : Int := 0
def invalidOperation : Int := -38
def badValue : Int := -22

def msgPreviewFrame : UInt32 := 0x10

/-! ## The parent -/

inductive ParentOp
  | setPreviewWindow | setCallBacks | enableMsgType | disableMsgType | updateParameters
  | commitParameterChanges | putParameters | preparePreview | startPreview | stopPreview
  | release | storeMetaDataInBuffers | dump | sendCommand | cancelAutoFocus | autoFocus
  | registerFaceImage | startRecording | stopRecording | prepareHardwareForSnapshot
  | takePicture | takeLiveSnapshot | longShot | cancelPicture | cancelLiveSnapshot
  | stopCaptureChannel | releaseRecordingFrame
  deriving DecidableEq, Repr

structure Parent where
  rc : ParentOp → Int := fun _ => noError
  msgTypeEnabled : UInt32 := 0
  needRestart : Bool := false
  faceId : Int := 0
  previewWindow : Bool := true
  recordingHint : Bool := false
  zslMode : Bool := false
  longshot : Bool := false
  previewRestartEnabled : Bool := false
  /-- `sendCommand` asks for `QCAMERA_SM_EVT_RESTART_PERVIEW` through its argument. -/
  restartPreview : Bool := false

/-- `updateParameters`, and `commitParameterChanges` unless it failed. -/
def Parent.setParameters (p : Parent) : Int :=
  if p.rc .updateParameters = noError then p.rc .commitParameterChanges
  else p.rc .updateParameters

inductive Preview
  | stopped | prepared | started
  deriving DecidableEq, Repr

/-! ## The machine -/

inductive SmState
  | previewStopped | previewReady | previewing | prepareSnapshot | picTaking | recording
  | videoPicTaking | previewPicTaking
  deriving DecidableEq, Repr

/-- `apiResults` and `evtResults` are what the event in hand signalled. -/
structure StateMachine where
  state : SmState := .previewStopped
  bDelayPreviewMsgs : Bool := false
  delayedMsgs : UInt32 := 0
  preview : Preview := .stopped
  bRetroPicture : Bool := false
  apiResults : List ApiResult := []
  evtResults : List ApiResult := []
  deriving Repr

namespace StateMachine

variable (s : StateMachine) (p : Parent) (evt : SmEvt) (payload : Payload)

def goto (state : SmState) : StateMachine := { s with state := state }

def signalAPIResult (result : ApiResult) : StateMachine :=
  { s with apiResults := s.apiResults ++ [result] }

def signalEvtResult (result : ApiResult) : StateMachine :=
  { s with evtResults := s.evtResults ++ [result] }

def answer (status : Int) : StateMachine := s.signalAPIResult ⟨status, evt, .default⟩

def answerRc (op : ParentOp) : StateMachine := s.answer evt (p.rc op)

def answerFlag (enabled : UInt32) : StateMachine :=
  s.signalAPIResult ⟨noError, evt, .enableFlag enabled⟩

def answerParams : StateMachine := s.signalAPIResult ⟨noError, evt, .params⟩

def answerFace : StateMachine :=
  s.signalAPIResult ⟨p.rc .registerFaceImage, evt, .handle p.faceId⟩

def notifySnapshotDone : StateMachine := s.signalEvtResult ⟨noError, evt, .default⟩

def applyDelayedMsgs : StateMachine :=
  if s.bDelayPreviewMsgs && s.delayedMsgs != 0 then
    { s with bDelayPreviewMsgs := false, delayedMsgs := 0 }
  else if s.bDelayPreviewMsgs then { s with bDelayPreviewMsgs := false }
  else s

def preparePreview : StateMachine :=
  if p.rc .preparePreview = noError then { s with preview := .prepared } else s

def startPreview : StateMachine :=
  if p.rc .startPreview = noError then { s with preview := .started } else s

def stopPreview : StateMachine := { s with preview := .stopped }

def unpreparePreview : StateMachine := { s with preview := .stopped }

def prepareAndStart : Int × StateMachine :=
  if p.rc .preparePreview = noError then
    if p.rc .startPreview = noError then
      (noError, ((s.preparePreview p).applyDelayedMsgs).startPreview p)
    else
      (p.rc .startPreview,
        (((s.preparePreview p).applyDelayedMsgs).startPreview p).unpreparePreview)
  else (p.rc .preparePreview, s.preparePreview p)

/-! ## One function for each state -/

def procEvtPreviewStoppedState : StateMachine :=
  match evt with
  | .setPreviewWindow => s.answerRc p evt .setPreviewWindow
  | .setCallbacks => s.answerRc p evt .setCallBacks
  | .enableMsgType => s.answerRc p evt .enableMsgType
  | .disableMsgType => s.answerRc p evt .disableMsgType
  | .msgTypeEnabled => s.answerFlag evt p.msgTypeEnabled
  | .setParams => s.answer evt p.setParameters
  | .getParams => s.answerParams evt
  | .putParams => s.answerRc p evt .putParameters
  | .startPreview =>
    if p.previewWindow = false then
      -- the window is not set yet
      if p.rc .preparePreview = noError then
        ((s.preparePreview p).goto .previewReady).answer evt noError
      else (s.preparePreview p).answerRc p evt .preparePreview
    else
      let (rc, s) := s.prepareAndStart p
      (if rc = noError then s.goto .previewing else s).answer evt rc
  | .startNodisplayPreview =>
    let (rc, s) := s.prepareAndStart p
    (if rc = noError then s.goto .previewing else s).answer evt rc
  | .stopPreview => s.answer evt noError
  | .previewEnabled | .recordingEnabled => s.answerFlag evt 0
  | .release => s.answerRc p evt .release
  | .storeMetadataInBufs => s.answerRc p evt .storeMetaDataInBuffers
  | .dump => s.answerRc p evt .dump
  | .sendCommand => s.answerRc p evt .sendCommand
  | .releaseRecordingFrame | .startRecording | .stopRecording | .prepareSnapshot
  | .takePicture => s.answer evt invalidOperation
  | .startAutoFocus | .cancelPicture => s.answer evt noError
  | .stopAutoFocus => s.answerRc p evt .cancelAutoFocus
  | .regFaceImage => s.answerFace p evt
  | .snapshotDone => s.notifySnapshotDone evt
  -- the others only call the parent, or are refused with a message
  | .thermalNotify | .evtNotify | .evtInternal | .jpegEvtNotify | .stopCaptureChannel
  | .restartPreview => s

def procEvtPreviewReadyState : StateMachine :=
  match evt with
  | .setPreviewWindow =>
    if p.previewWindow then
      let started := s.applyDelayedMsgs.startPreview p
      if p.rc .startPreview = noError then (started.goto .previewing).answer evt noError
      else (started.unpreparePreview.goto .previewStopped).answerRc p evt .startPreview
    else s.answer evt noError
  | .setCallbacks => s.answerRc p evt .setCallBacks
  | .enableMsgType => s.answerRc p evt .enableMsgType
  | .disableMsgType => s.answerRc p evt .disableMsgType
  | .msgTypeEnabled => s.answerFlag evt p.msgTypeEnabled
  | .setParams =>
    if p.rc .updateParameters = noError then
      if p.needRestart then
        let s := s.unpreparePreview.preparePreview p
        if p.rc .preparePreview = noError then s.answer evt noError
        else (s.goto .previewStopped).answerRc p evt .preparePreview
      else s.answerRc p evt .commitParameterChanges
    else s.answerRc p evt .updateParameters
  | .getParams => s.answerParams evt
  | .putParams => s.answerRc p evt .putParameters
  | .startPreview => s.answer evt noError
  | .stopPreview => (s.unpreparePreview.goto .previewStopped).answer evt noError
  | .previewEnabled => s.answerFlag evt 1
  | .recordingEnabled => s.answerFlag evt 0
  | .storeMetadataInBufs => s.answerRc p evt .storeMetaDataInBuffers
  | .dump => s.answerRc p evt .dump
  | .startAutoFocus => s.answerRc p evt .autoFocus
  | .stopAutoFocus => s.answerRc p evt .cancelAutoFocus
  | .sendCommand => s.answerRc p evt .sendCommand
  | .regFaceImage => s.answerFace p evt
  | .releaseRecordingFrame | .startNodisplayPreview | .startRecording | .stopRecording
  | .prepareSnapshot | .takePicture | .cancelPicture | .release => s.answer evt invalidOperation
  | .snapshotDone => s.notifySnapshotDone evt
  | .thermalNotify | .evtNotify | .evtInternal | .jpegEvtNotify | .stopCaptureChannel
  | .restartPreview => s

def procEvtPreviewingState : StateMachine :=
  match evt with
  | .setPreviewWindow => s.answer evt invalidOperation
  | .setCallbacks => s.answerRc p evt .setCallBacks
  | .enableMsgType =>
    if s.bDelayPreviewMsgs && payload.msgs &&& msgPreviewFrame != 0 then
      { s with delayedMsgs := msgPreviewFrame }.answerRc p evt .enableMsgType
    else s.answerRc p evt .enableMsgType
  | .disableMsgType =>
    if s.bDelayPreviewMsgs && s.delayedMsgs != 0 then
      let left := s.delayedMsgs &&& ~~~payload.msgs
      { s with
        delayedMsgs := left
        bDelayPreviewMsgs := left != 0 }.answerRc p evt .disableMsgType
    else s.answerRc p evt .disableMsgType
  | .msgTypeEnabled =>
    if s.bDelayPreviewMsgs && s.delayedMsgs != 0 then
      s.answerFlag evt (p.msgTypeEnabled ||| payload.msgs &&& s.delayedMsgs)
    else s.answerFlag evt p.msgTypeEnabled
  | .setParams =>
    if p.rc .updateParameters = noError then
      if p.needRestart then
        let (rc, s) := s.stopPreview.prepareAndStart p
        (if rc = noError then s else s.goto .previewStopped).answer evt rc
      else s.answerRc p evt .commitParameterChanges
    else s.answerRc p evt .updateParameters
  | .getParams => s.answerParams evt
  | .putParams => s.answerRc p evt .putParameters
  | .startPreview | .startNodisplayPreview => s.applyDelayedMsgs.answer evt noError
  | .stopPreview =>
    (s.stopPreview.applyDelayedMsgs.goto .previewStopped).answerRc p evt .stopPreview
  | .previewEnabled => s.applyDelayedMsgs.answerFlag evt 1
  | .recordingEnabled => s.answerFlag evt 0
  | .storeMetadataInBufs => s.answerRc p evt .storeMetaDataInBuffers
  | .dump => s.answerRc p evt .dump
  | .startAutoFocus => s.answerRc p evt .autoFocus
  | .stopAutoFocus => s.answerRc p evt .cancelAutoFocus
  | .startRecording =>
    if p.rc .startRecording = noError then
      (s.goto .recording).applyDelayedMsgs.answer evt noError
    else s.answerRc p evt .startRecording
  | .prepareSnapshot =>
    -- no result yet: it waits for the snapshot in the metadata
    if p.rc .prepareHardwareForSnapshot = noError then
      (s.goto .prepareSnapshot).applyDelayedMsgs
    else s.answerRc p evt .prepareHardwareForSnapshot
  | .takePicture =>
    if p.recordingHint = false then
      if p.zslMode || p.longshot then
        let s := { s with bDelayPreviewMsgs := true }
        let taking := s.goto (if p.rc .takePicture = noError then .previewPicTaking
          else .previewing)
        if !s.bRetroPicture || p.rc .takePicture != noError then
          taking.answerRc p evt .takePicture
        else taking
      else
        let s := s.stopPreview
        (s.goto (if p.rc .takePicture = noError then .picTaking else .previewStopped)).answerRc p
          evt .takePicture
    else
      (s.goto (if p.rc .takeLiveSnapshot = noError then .previewPicTaking
        else .previewing)).answerRc p evt .takeLiveSnapshot
  | .sendCommand =>
    if payload.cmd = .longshotOn ∧ p.restartPreview then
      let (rc, s) := s.stopPreview.prepareAndStart p
      s.answer evt rc
    else s.answerRc p evt .sendCommand
  | .regFaceImage => s.answerFace p evt
  | .releaseRecordingFrame | .cancelPicture | .stopRecording | .release =>
    s.answer evt invalidOperation
  | .snapshotDone => s.notifySnapshotDone evt
  | .thermalNotify | .evtNotify | .evtInternal | .jpegEvtNotify | .stopCaptureChannel
  | .restartPreview => s

def procEvtPrepareSnapshotState : StateMachine :=
  match evt with
  | .setPreviewWindow | .setCallbacks | .enableMsgType | .disableMsgType | .msgTypeEnabled
  | .setParams | .getParams | .putParams | .startPreview | .startNodisplayPreview
  | .stopPreview | .previewEnabled | .recordingEnabled | .storeMetadataInBufs | .dump
  | .startAutoFocus | .stopAutoFocus | .startRecording | .takePicture | .prepareSnapshot
  | .sendCommand | .cancelPicture | .stopRecording | .releaseRecordingFrame | .release =>
    s.answer evt invalidOperation
  | .evtInternal =>
    match payload.internalEvt with
    | .prepSnapshotDone => (s.goto .previewing).answer .prepareSnapshot noError
    | _ => s
  | .snapshotDone => s.notifySnapshotDone evt
  | .regFaceImage | .thermalNotify | .evtNotify | .jpegEvtNotify | .stopCaptureChannel
  | .restartPreview => s

def procEvtPicTakingState : StateMachine :=
  match evt with
  | .setPreviewWindow => s.answer evt invalidOperation
  | .setCallbacks => s.answerRc p evt .setCallBacks
  | .enableMsgType => s.answerRc p evt .enableMsgType
  | .disableMsgType => s.answerRc p evt .disableMsgType
  | .msgTypeEnabled => s.answerFlag evt p.msgTypeEnabled
  | .setParams => s.answer evt p.setParameters
  | .getParams => s.answerParams evt
  | .putParams => s.answerRc p evt .putParameters
  | .stopPreview => (s.goto .previewStopped).answerRc p evt .cancelPicture
  | .previewEnabled => s.answerFlag evt 0
  | .recordingEnabled => s.answerFlag evt 0
  | .storeMetadataInBufs => s.answerRc p evt .storeMetaDataInBuffers
  | .dump => s.answerRc p evt .dump
  | .startAutoFocus => s.answerRc p evt .autoFocus
  | .stopAutoFocus => s.answerRc p evt .cancelAutoFocus
  | .sendCommand =>
    (if payload.cmd = .longshotOff then s.goto .previewing else s).answerRc p evt .sendCommand
  | .cancelPicture => (s.goto .previewStopped).answerRc p evt .cancelPicture
  | .regFaceImage => s.answerFace p evt
  | .takePicture =>
    if p.longshot then s.answerRc p evt .longShot else s.answer evt invalidOperation
  | .prepareSnapshot | .startRecording | .stopRecording | .releaseRecordingFrame
  | .startPreview | .startNodisplayPreview | .release => s.answer evt invalidOperation
  | .evtNotify =>
    match payload.serverEvt with
    | .daemonDied => (s.answer .prepareSnapshot noError).answer .takePicture noError
    | .other => s
  | .stopCaptureChannel =>
    if p.previewRestartEnabled = true ∧ p.rc .stopCaptureChannel = noError then
      if p.rc .preparePreview = noError then
        -- a preview that does not start is not unprepared here
        (((s.preparePreview p).applyDelayedMsgs).startPreview p).answerRc p evt .startPreview
      else (s.preparePreview p).answerRc p evt .preparePreview
    else s.answerRc p evt .stopCaptureChannel
  | .snapshotDone =>
    (s.goto (if p.previewRestartEnabled then .previewing else .previewStopped)).signalEvtResult
      ⟨p.rc .cancelPicture, evt, .default⟩
  | .thermalNotify | .evtInternal | .jpegEvtNotify | .restartPreview => s

def procEvtRecordingState : StateMachine :=
  match evt with
  | .startPreview | .setPreviewWindow => s.answer evt noError
  | .setCallbacks => s.answerRc p evt .setCallBacks
  | .enableMsgType => s.answerRc p evt .enableMsgType
  | .disableMsgType => s.answerRc p evt .disableMsgType
  | .msgTypeEnabled => s.answerFlag evt p.msgTypeEnabled
  | .setParams =>
    if p.rc .updateParameters = noError ∧ p.needRestart then s.answer evt badValue
    else s.answer evt p.setParameters
  | .getParams => s.answerParams evt
  | .putParams => s.answerRc p evt .putParameters
  | .previewEnabled => s.answerFlag evt 0
  | .recordingEnabled => s.answerFlag evt 1
  | .storeMetadataInBufs => s.answerRc p evt .storeMetaDataInBuffers
  | .dump => s.answerRc p evt .dump
  | .startAutoFocus => s.answerRc p evt .autoFocus
  | .stopAutoFocus => s.answerRc p evt .cancelAutoFocus
  | .sendCommand => s.answerRc p evt .sendCommand
  | .takePicture =>
    (s.goto (if p.rc .takeLiveSnapshot = noError then .videoPicTaking
      else .recording)).answerRc p evt .takeLiveSnapshot
  | .startRecording => s.answer evt noError
  | .stopRecording => (s.goto .previewing).answerRc p evt .stopRecording
  | .stopPreview => (s.stopPreview.goto .previewStopped).answerRc p evt .stopPreview
  | .releaseRecordingFrame => s.answerRc p evt .releaseRecordingFrame
  | .regFaceImage => s.answerFace p evt
  | .prepareSnapshot => s.answer evt noError
  | .cancelPicture | .startNodisplayPreview | .release => s.answer evt invalidOperation
  | .snapshotDone => s.notifySnapshotDone evt
  | .thermalNotify | .evtNotify | .evtInternal | .jpegEvtNotify | .stopCaptureChannel
  | .restartPreview => s

def procEvtVideoPicTakingState : StateMachine :=
  match evt with
  | .setPreviewWindow => s.answer evt invalidOperation
  | .setCallbacks => s.answerRc p evt .setCallBacks
  | .enableMsgType => s.answerRc p evt .enableMsgType
  | .disableMsgType => s.answerRc p evt .disableMsgType
  | .msgTypeEnabled => s.answerFlag evt p.msgTypeEnabled
  | .setParams =>
    if p.rc .updateParameters = noError ∧ p.needRestart then s.answer evt badValue
    else s.answer evt p.setParameters
  | .getParams => s.answerParams evt
  | .putParams => s.answerRc p evt .putParameters
  | .previewEnabled => s.answerFlag evt 1
  | .recordingEnabled => s.answerFlag evt 1
  | .storeMetadataInBufs => s.answerRc p evt .storeMetaDataInBuffers
  | .dump => s.answerRc p evt .dump
  | .startAutoFocus => s.answerRc p evt .autoFocus
  | .stopAutoFocus => s.answerRc p evt .cancelAutoFocus
  | .sendCommand => s.answerRc p evt .sendCommand
  | .stopRecording => (s.goto .previewing).answerRc p evt .stopRecording
  | .releaseRecordingFrame => s.answerRc p evt .releaseRecordingFrame
  | .cancelPicture => (s.goto .recording).answerRc p evt .cancelLiveSnapshot
  | .regFaceImage => s.answerFace p evt
  | .stopPreview => (s.stopPreview.goto .previewStopped).answerRc p evt .stopPreview
  | .startRecording | .startPreview | .startNodisplayPreview | .prepareSnapshot
  | .takePicture | .release => s.answer evt invalidOperation
  | .snapshotDone =>
    (s.goto .recording).signalEvtResult ⟨p.rc .cancelLiveSnapshot, evt, .default⟩
  | .thermalNotify | .evtNotify | .evtInternal | .jpegEvtNotify | .stopCaptureChannel
  | .restartPreview => s

def cancelOp : ParentOp := if p.zslMode || p.longshot then .cancelPicture else .cancelLiveSnapshot

def procEvtPreviewPicTakingState : StateMachine :=
  match evt with
  | .setCallbacks => s.answerRc p evt .setCallBacks
  | .enableMsgType => s.answerRc p evt .enableMsgType
  | .disableMsgType => s.answerRc p evt .disableMsgType
  | .msgTypeEnabled => s.answerFlag evt p.msgTypeEnabled
  | .setParams =>
    if p.rc .updateParameters = noError then
      if p.needRestart then
        let (rc, s) := s.stopPreview.prepareAndStart p
        (if rc = noError then s else s.goto .picTaking).answer evt rc
      else s.answerRc p evt .commitParameterChanges
    else s.answerRc p evt .updateParameters
  | .getParams => s.answerParams evt
  | .putParams => s.answerRc p evt .putParameters
  | .previewEnabled => s.answerFlag evt 1
  | .recordingEnabled => s.answerFlag evt 0
  | .storeMetadataInBufs => s.answerRc p evt .storeMetaDataInBuffers
  | .dump => s.answerRc p evt .dump
  | .startAutoFocus => s.answerRc p evt .autoFocus
  | .stopAutoFocus => s.answerRc p evt .cancelAutoFocus
  | .sendCommand =>
    (if payload.cmd = .longshotOff then s.goto .previewing else s).answerRc p evt .sendCommand
  | .releaseRecordingFrame => s.answerRc p evt .releaseRecordingFrame
  | .cancelPicture => (s.goto .previewing).answerRc p evt (cancelOp p)
  | .stopPreview => (s.unpreparePreview.goto .previewStopped).answerRc p evt (cancelOp p)
  | .startRecording =>
    if p.zslMode || p.longshot then s.answer evt invalidOperation
    else if p.rc .startRecording = noError then (s.goto .videoPicTaking).answer evt noError
    else s.answerRc p evt .startRecording
  | .regFaceImage => s.answerFace p evt
  | .takePicture =>
    if p.longshot then s.answerRc p evt .longShot else s.answer evt invalidOperation
  | .prepareSnapshot =>
    if s.bRetroPicture then
      if p.rc .prepareHardwareForSnapshot = noError then s
      else s.answerRc p evt .prepareHardwareForSnapshot
    else s.answer evt invalidOperation
  | .stopRecording | .startPreview | .startNodisplayPreview | .setPreviewWindow | .release =>
    s.answer evt invalidOperation
  | .evtInternal =>
    match payload.internalEvt with
    | .prepSnapshotDone => if s.bRetroPicture then s.answer .prepareSnapshot noError else s
    | .readyForSnapshot => if s.bRetroPicture then s.answer .takePicture noError else s
    | _ => s
  | .snapshotDone =>
    let s := s.goto .previewing
    let done : ApiResult := ⟨p.rc (cancelOp p), evt, .default⟩
    (if s.bRetroPicture then s.signalAPIResult done else s).signalEvtResult done
  | .thermalNotify | .evtNotify | .jpegEvtNotify | .stopCaptureChannel | .restartPreview => s

def stateMachine : StateMachine :=
  match s.state with
  | .previewStopped => s.procEvtPreviewStoppedState p evt
  | .previewReady => s.procEvtPreviewReadyState p evt
  | .previewing => s.procEvtPreviewingState p evt payload
  | .prepareSnapshot => s.procEvtPrepareSnapshotState evt payload
  | .picTaking => s.procEvtPicTakingState p evt payload
  | .recording => s.procEvtRecordingState p evt
  | .videoPicTaking => s.procEvtVideoPicTakingState p evt
  | .previewPicTaking => s.procEvtPreviewPicTakingState p evt payload

def cleared : StateMachine := { s with apiResults := [], evtResults := [] }

def process : StateMachine := s.cleared.stateMachine p evt payload

/-! ## What the operations change -/

def answers : List SmEvt := s.apiResults.map ApiResult.requestApi

variable {s p evt payload}

@[simp] theorem answers_answer {status : Int} :
    (s.answer evt status).answers = s.answers ++ [evt] := by
  simp [answers, answer, signalAPIResult]

@[simp] theorem answers_answerRc {op : ParentOp} :
    (s.answerRc p evt op).answers = s.answers ++ [evt] := answers_answer

@[simp] theorem answers_signalAPIResult {result : ApiResult} :
    (s.signalAPIResult result).answers = s.answers ++ [result.requestApi] := by
  simp [answers, signalAPIResult]

@[simp] theorem answers_goto {state : SmState} : (s.goto state).answers = s.answers := rfl
@[simp] theorem answers_stopPreview : s.stopPreview.answers = s.answers := rfl
@[simp] theorem answers_unpreparePreview : s.unpreparePreview.answers = s.answers := rfl

@[simp] theorem answers_signalEvtResult {result : ApiResult} :
    (s.signalEvtResult result).answers = s.answers := rfl

@[simp] theorem state_answer {status : Int} : (s.answer evt status).state = s.state := rfl
@[simp] theorem state_answerRc {op : ParentOp} : (s.answerRc p evt op).state = s.state := rfl
@[simp] theorem state_goto {state : SmState} : (s.goto state).state = state := rfl
@[simp] theorem state_stopPreview : s.stopPreview.state = s.state := rfl
@[simp] theorem state_unpreparePreview : s.unpreparePreview.state = s.state := rfl

@[simp] theorem state_signalAPIResult {result : ApiResult} :
    (s.signalAPIResult result).state = s.state := rfl

@[simp] theorem state_signalEvtResult {result : ApiResult} :
    (s.signalEvtResult result).state = s.state := rfl

@[simp] theorem preview_answer {status : Int} : (s.answer evt status).preview = s.preview := rfl

@[simp] theorem preview_answerRc {op : ParentOp} :
    (s.answerRc p evt op).preview = s.preview := rfl

@[simp] theorem preview_goto {state : SmState} : (s.goto state).preview = s.preview := rfl
@[simp] theorem preview_stopPreview : s.stopPreview.preview = .stopped := rfl
@[simp] theorem preview_unpreparePreview : s.unpreparePreview.preview = .stopped := rfl

@[simp] theorem preview_signalAPIResult {result : ApiResult} :
    (s.signalAPIResult result).preview = s.preview := rfl

@[simp] theorem preview_signalEvtResult {result : ApiResult} :
    (s.signalEvtResult result).preview = s.preview := rfl

theorem applyDelayedMsgs_eq : ∃ delay msgs,
    s.applyDelayedMsgs = { s with bDelayPreviewMsgs := delay, delayedMsgs := msgs } := by
  unfold applyDelayedMsgs
  split_ifs
  · exact ⟨_, _, rfl⟩
  · exact ⟨_, _, rfl⟩
  · exact ⟨_, _, rfl⟩

@[simp] theorem answers_applyDelayedMsgs : s.applyDelayedMsgs.answers = s.answers := by
  obtain ⟨delay, msgs, h⟩ := applyDelayedMsgs_eq (s := s)
  rw [h]
  rfl

@[simp] theorem state_applyDelayedMsgs : s.applyDelayedMsgs.state = s.state := by
  obtain ⟨delay, msgs, h⟩ := applyDelayedMsgs_eq (s := s)
  rw [h]

@[simp] theorem preview_applyDelayedMsgs : s.applyDelayedMsgs.preview = s.preview := by
  obtain ⟨delay, msgs, h⟩ := applyDelayedMsgs_eq (s := s)
  rw [h]

theorem preparePreview_eq : s.preparePreview p = { s with
    preview := if p.rc .preparePreview = noError then .prepared else s.preview } := by
  unfold preparePreview
  split_ifs
  · rfl
  · rfl

theorem startPreview_eq : s.startPreview p = { s with
    preview := if p.rc .startPreview = noError then .started else s.preview } := by
  unfold startPreview
  split_ifs
  · rfl
  · rfl

@[simp] theorem answers_preparePreview : (s.preparePreview p).answers = s.answers := by
  rw [preparePreview_eq]
  rfl

@[simp] theorem answers_startPreview : (s.startPreview p).answers = s.answers := by
  rw [startPreview_eq]
  rfl

@[simp] theorem state_preparePreview : (s.preparePreview p).state = s.state := by
  rw [preparePreview_eq]

@[simp] theorem state_startPreview : (s.startPreview p).state = s.state := by
  rw [startPreview_eq]

@[simp] theorem preview_preparePreview : (s.preparePreview p).preview =
    if p.rc .preparePreview = noError then .prepared else s.preview := by
  rw [preparePreview_eq]

@[simp] theorem preview_startPreview : (s.startPreview p).preview =
    if p.rc .startPreview = noError then .started else s.preview := by
  rw [startPreview_eq]

theorem prepareAndStart_cases :
    ((s.prepareAndStart p).1 = noError ∧ p.rc .preparePreview = noError ∧
        p.rc .startPreview = noError ∧ (s.prepareAndStart p).2.preview = .started) ∨
      ((s.prepareAndStart p).1 ≠ noError ∧
        ¬ (p.rc .preparePreview = noError ∧ p.rc .startPreview = noError) ∧
        ((s.prepareAndStart p).2.preview = .stopped ∨
          (s.prepareAndStart p).2.preview = s.preview)) := by
  unfold prepareAndStart
  by_cases hprepare : p.rc .preparePreview = noError
  · by_cases hstart : p.rc .startPreview = noError
    · simp [hprepare, hstart]
    · simp [hprepare, hstart]
  · simp [hprepare]

@[simp] theorem answers_prepareAndStart : (s.prepareAndStart p).2.answers = s.answers := by
  unfold prepareAndStart
  split_ifs <;> simp

@[simp] theorem state_prepareAndStart : (s.prepareAndStart p).2.state = s.state := by
  unfold prepareAndStart
  split_ifs <;> simp

/-! ## The flag of the parent -/

@[simp] theorem bRetroPicture_answer {status : Int} :
    (s.answer evt status).bRetroPicture = s.bRetroPicture := rfl

@[simp] theorem bRetroPicture_answerRc {op : ParentOp} :
    (s.answerRc p evt op).bRetroPicture = s.bRetroPicture := rfl

@[simp] theorem bRetroPicture_goto {state : SmState} :
    (s.goto state).bRetroPicture = s.bRetroPicture := rfl

@[simp] theorem bRetroPicture_stopPreview : s.stopPreview.bRetroPicture = s.bRetroPicture := rfl

@[simp] theorem bRetroPicture_unpreparePreview :
    s.unpreparePreview.bRetroPicture = s.bRetroPicture := rfl

@[simp] theorem bRetroPicture_signalAPIResult {result : ApiResult} :
    (s.signalAPIResult result).bRetroPicture = s.bRetroPicture := rfl

@[simp] theorem bRetroPicture_signalEvtResult {result : ApiResult} :
    (s.signalEvtResult result).bRetroPicture = s.bRetroPicture := rfl

@[simp] theorem bRetroPicture_applyDelayedMsgs :
    s.applyDelayedMsgs.bRetroPicture = s.bRetroPicture := by
  obtain ⟨delay, msgs, h⟩ := applyDelayedMsgs_eq (s := s)
  rw [h]

@[simp] theorem bRetroPicture_preparePreview :
    (s.preparePreview p).bRetroPicture = s.bRetroPicture := by
  rw [preparePreview_eq]

@[simp] theorem bRetroPicture_startPreview :
    (s.startPreview p).bRetroPicture = s.bRetroPicture := by
  rw [startPreview_eq]

@[simp] theorem bRetroPicture_prepareAndStart :
    (s.prepareAndStart p).2.bRetroPicture = s.bRetroPicture := by
  unfold prepareAndStart
  split_ifs <;> simp

end StateMachine

end EtherDevice.Hal1
