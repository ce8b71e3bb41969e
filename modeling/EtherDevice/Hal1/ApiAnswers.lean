import EtherDevice.Hal1.StateMachine
import EtherDevice.Lib.Transition

/-!
# Every command is answered once

The framework posts one command at a time and waits for its result. Most results are signalled
while the command is handled. `PREPARE_SNAPSHOT`, and `TAKE_PICTURE` in the retro mode, wait for
a later event.

The death of the daemon signals two results in `PIC_TAKING`, where nothing waits for them.
`SNAPSHOT_DONE` in the retro mode signals itself and leaves the state that still waits, an event
that comes twice signals twice, and `STOP_CAPTURE_CHANNEL` is handled in `PIC_TAKING` only.
-/

namespace EtherDevice.Hal1

open Lib

/-! ## Commands -/

def SmEvt.isCommand : SmEvt → Bool
  | .evtInternal | .evtNotify | .jpegEvtNotify | .thermalNotify | .restartPreview => false
  | _ => true

/-- What the other threads post to the queue of events. -/
def SmEvt.isAsync : SmEvt → Bool
  | .evtInternal | .evtNotify | .jpegEvtNotify | .thermalNotify | .snapshotDone => true
  | _ => false

namespace StateMachine

variable {s s' : StateMachine} {p : Parent} {evt : SmEvt} {payload : Payload}

def Waits (s : StateMachine) (evt : SmEvt) : Prop :=
  (evt = .prepareSnapshot ∧
      (s.state = .prepareSnapshot ∨ s.state = .previewPicTaking ∧ s.bRetroPicture = true)) ∨
    (evt = .takePicture ∧ s.state = .previewPicTaking ∧ s.bRetroPicture = true)

structure Answered (s : StateMachine) (evt : SmEvt) (s' : StateMachine) : Prop where
  answers : s'.answers = s.answers ++ [evt]
  state : s'.state ≠ .prepareSnapshot
  retro : s'.bRetroPicture = s.bRetroPicture

/-- The command is not answered: it waits. -/
structure Deferred (s : StateMachine) (evt : SmEvt) (s' : StateMachine) : Prop where
  answers : s'.answers = s.answers
  waits : s'.Waits evt
  state : s'.state = .prepareSnapshot → evt = .prepareSnapshot
  retro : s'.bRetroPicture = s.bRetroPicture

theorem Answered.answer {status : Int} (hanswers : s'.answers = s.answers)
    (hstate : s'.state ≠ .prepareSnapshot) (hretro : s'.bRetroPicture = s.bRetroPicture) :
    Answered s evt (s'.answer evt status) :=
  ⟨by rw [answers_answer, hanswers], hstate, hretro⟩

theorem Answered.flag {enabled : UInt32} (hanswers : s'.answers = s.answers)
    (hstate : s'.state ≠ .prepareSnapshot) (hretro : s'.bRetroPicture = s.bRetroPicture) :
    Answered s evt (s'.answerFlag evt enabled) :=
  ⟨by rw [answerFlag, answers_signalAPIResult, hanswers], hstate, hretro⟩

theorem Answered.plain {result : ApiResult} (hstate : s.state ≠ .prepareSnapshot)
    (hresult : result.requestApi = evt) : Answered s evt (s.signalAPIResult result) :=
  ⟨by rw [answers_signalAPIResult, hresult], hstate, rfl⟩

/-! ## The commands in each state -/

theorem answered_previewStopped (hs : s.state = .previewStopped) (hcmd : evt.isCommand = true)
    (hstop : evt ≠ .stopCaptureChannel) (hdone : evt ≠ .snapshotDone) :
    Answered s evt (s.procEvtPreviewStoppedState p evt) := by
  have hother : s.state ≠ .prepareSnapshot := by simp [hs]
  cases evt with
  | evtInternal | evtNotify | jpegEvtNotify | thermalNotify | restartPreview => cases hcmd
  | stopCaptureChannel => exact absurd rfl hstop
  | snapshotDone => exact absurd rfl hdone
  | startPreview | startNodisplayPreview =>
    unfold procEvtPreviewStoppedState
    dsimp only
    split_ifs <;> exact .answer (by simp) (by simp [hs]) (by simp)
  | _ => exact .plain hother rfl

theorem answered_previewReady (hs : s.state = .previewReady) (hcmd : evt.isCommand = true)
    (hstop : evt ≠ .stopCaptureChannel) (hdone : evt ≠ .snapshotDone) :
    Answered s evt (s.procEvtPreviewReadyState p evt) := by
  have hother : s.state ≠ .prepareSnapshot := by simp [hs]
  cases evt with
  | evtInternal | evtNotify | jpegEvtNotify | thermalNotify | restartPreview => cases hcmd
  | stopCaptureChannel => exact absurd rfl hstop
  | snapshotDone => exact absurd rfl hdone
  | setPreviewWindow | setParams =>
    unfold procEvtPreviewReadyState
    split_ifs <;> exact .answer (by simp) (by simp [hs]) (by simp)
  | stopPreview => exact .answer (by simp) (by simp) (by simp)
  | _ => exact .plain hother rfl

theorem answered_previewing (hs : s.state = .previewing) (hcmd : evt.isCommand = true)
    (hstop : evt ≠ .stopCaptureChannel) (hdone : evt ≠ .snapshotDone) :
    Answered s evt (s.procEvtPreviewingState p evt payload) ∨
      Deferred s evt (s.procEvtPreviewingState p evt payload) := by
  have hother : s.state ≠ .prepareSnapshot := by simp [hs]
  cases evt with
  | evtInternal | evtNotify | jpegEvtNotify | thermalNotify | restartPreview => cases hcmd
  | stopCaptureChannel => exact absurd rfl hstop
  | snapshotDone => exact absurd rfl hdone
  | prepareSnapshot =>
    unfold procEvtPreviewingState
    dsimp only
    split_ifs
    · exact .inr ⟨by simp, .inl ⟨rfl, .inl (by simp)⟩, fun _ => rfl, by simp⟩
    · exact .inl (.plain hother rfl)
  | takePicture =>
    unfold procEvtPreviewingState
    dsimp only
    split_ifs with hhint hzsl hsignal hrc hrc
    · exact .inl (.answer rfl (by simp) rfl)
    · exact .inl (.answer rfl (by simp) rfl)
    · -- nothing is signalled in the retro mode unless the picture failed
      have hretro : s.bRetroPicture = true := by simpa [hrc] using hsignal
      exact .inr ⟨rfl, .inr ⟨rfl, rfl, hretro⟩, nofun, rfl⟩
    · exact absurd (by simp [hrc]) hsignal
    all_goals exact .inl (.answer rfl (by simp) rfl)
  | enableMsgType | disableMsgType =>
    unfold procEvtPreviewingState
    dsimp only
    split_ifs <;> exact .inl (.answer rfl hother rfl)
  | msgTypeEnabled =>
    unfold procEvtPreviewingState
    dsimp only
    split_ifs <;> exact .inl (.plain hother rfl)
  | setParams | startRecording | sendCommand =>
    unfold procEvtPreviewingState
    dsimp only
    split_ifs <;> exact .inl (.answer (by simp) (by simp [hs]) (by simp))
  | startPreview | startNodisplayPreview | stopPreview =>
    exact .inl (.answer (by simp) (by simp [hs]) (by simp))
  | previewEnabled => exact .inl (.flag (by simp) (by simp [hs]) (by simp))
  | _ => exact .inl (.plain hother rfl)

theorem answered_picTaking (hs : s.state = .picTaking) (hcmd : evt.isCommand = true)
    (hdone : evt ≠ .snapshotDone) : Answered s evt (s.procEvtPicTakingState p evt payload) := by
  have hother : s.state ≠ .prepareSnapshot := by simp [hs]
  cases evt with
  | evtInternal | evtNotify | jpegEvtNotify | thermalNotify | restartPreview => cases hcmd
  | snapshotDone => exact absurd rfl hdone
  | sendCommand =>
    refine .answer ?_ ?_ ?_
    · split_ifs <;> rfl
    · split_ifs <;> simp [hs]
    · split_ifs <;> rfl
  | stopPreview | cancelPicture => exact .answer rfl (by simp) rfl
  | takePicture =>
    unfold procEvtPicTakingState
    split_ifs <;> exact .plain hother rfl
  | stopCaptureChannel =>
    unfold procEvtPicTakingState
    split_ifs <;> exact .answer (by simp) (by simp [hs]) (by simp)
  | _ => exact .plain hother rfl

theorem answered_recording (hs : s.state = .recording) (hcmd : evt.isCommand = true)
    (hstop : evt ≠ .stopCaptureChannel) (hdone : evt ≠ .snapshotDone) :
    Answered s evt (s.procEvtRecordingState p evt) := by
  have hother : s.state ≠ .prepareSnapshot := by simp [hs]
  cases evt with
  | evtInternal | evtNotify | jpegEvtNotify | thermalNotify | restartPreview => cases hcmd
  | stopCaptureChannel => exact absurd rfl hstop
  | snapshotDone => exact absurd rfl hdone
  | setParams =>
    unfold procEvtRecordingState
    split_ifs <;> exact .plain hother rfl
  | takePicture =>
    refine .answer rfl ?_ rfl
    split_ifs <;> simp
  | stopRecording | stopPreview => exact .answer rfl (by simp) rfl
  | _ => exact .plain hother rfl

theorem answered_videoPicTaking (hs : s.state = .videoPicTaking) (hcmd : evt.isCommand = true)
    (hstop : evt ≠ .stopCaptureChannel) (hdone : evt ≠ .snapshotDone) :
    Answered s evt (s.procEvtVideoPicTakingState p evt) := by
  have hother : s.state ≠ .prepareSnapshot := by simp [hs]
  cases evt with
  | evtInternal | evtNotify | jpegEvtNotify | thermalNotify | restartPreview => cases hcmd
  | stopCaptureChannel => exact absurd rfl hstop
  | snapshotDone => exact absurd rfl hdone
  | setParams =>
    unfold procEvtVideoPicTakingState
    split_ifs <;> exact .plain hother rfl
  | stopRecording | cancelPicture | stopPreview => exact .answer rfl (by simp) rfl
  | _ => exact .plain hother rfl

theorem answered_previewPicTaking (hs : s.state = .previewPicTaking)
    (hcmd : evt.isCommand = true) (hstop : evt ≠ .stopCaptureChannel)
    (hdone : evt = .snapshotDone → s.bRetroPicture = true) :
    Answered s evt (s.procEvtPreviewPicTakingState p evt payload) ∨
      Deferred s evt (s.procEvtPreviewPicTakingState p evt payload) := by
  have hother : s.state ≠ .prepareSnapshot := by simp [hs]
  cases evt with
  | evtInternal | evtNotify | jpegEvtNotify | thermalNotify | restartPreview => cases hcmd
  | stopCaptureChannel => exact absurd rfl hstop
  | snapshotDone =>
    refine .inl ⟨?_, ?_, ?_⟩
    · simp [procEvtPreviewPicTakingState, hdone rfl]
    · simp [procEvtPreviewPicTakingState, hdone rfl]
    · simp [procEvtPreviewPicTakingState, hdone rfl]
  | prepareSnapshot =>
    unfold procEvtPreviewPicTakingState
    dsimp only
    split_ifs with hretro hrc
    · exact .inr ⟨rfl, .inl ⟨rfl, .inr ⟨hs, hretro⟩⟩, fun _ => rfl, rfl⟩
    · exact .inl (.plain hother rfl)
    · exact .inl (.plain hother rfl)
  | setParams | startRecording =>
    unfold procEvtPreviewPicTakingState
    dsimp only
    split_ifs <;> exact .inl (.answer (by simp) (by simp [hs]) (by simp))
  | sendCommand =>
    refine .inl (.answer ?_ ?_ ?_)
    · split_ifs <;> rfl
    · split_ifs <;> simp [hs]
    · split_ifs <;> rfl
  | cancelPicture | stopPreview => exact .inl (.answer rfl (by simp) rfl)
  | takePicture =>
    unfold procEvtPreviewPicTakingState
    split_ifs <;> exact .inl (.plain hother rfl)
  | _ => exact .inl (.plain hother rfl)

/-! ## One event -/

def Unserved (s : StateMachine) (evt : SmEvt) : Prop :=
  (evt = .stopCaptureChannel ∧ s.state ≠ .picTaking) ∨
    (evt = .snapshotDone ∧ ¬ (s.state = .previewPicTaking ∧ s.bRetroPicture = true))

instance : Decidable (s.Unserved evt) := by
  unfold Unserved
  infer_instance

theorem stateMachine_command (payload : Payload) (hcmd : evt.isCommand = true)
    (hstate : s.state ≠ .prepareSnapshot) (hserved : ¬ s.Unserved evt) :
    Answered s evt (s.stateMachine p evt payload) ∨
      Deferred s evt (s.stateMachine p evt payload) := by
  unfold Unserved at hserved
  push Not at hserved
  obtain ⟨hstop, hdone⟩ := hserved
  have hnotStop : s.state ≠ .picTaking → evt ≠ .stopCaptureChannel :=
    fun h heq => h (hstop heq)
  have hnotDone : s.state ≠ .previewPicTaking → evt ≠ .snapshotDone :=
    fun h heq => h (hdone heq).1
  unfold stateMachine
  cases hs : s.state with
  | previewStopped =>
    simp [answered_previewStopped, hs, hcmd, hnotStop, hnotDone]
  | previewReady =>
    exact .inl (answered_previewReady hs hcmd (hnotStop (by simp [hs])) (hnotDone (by simp [hs])))
  | previewing =>
    exact answered_previewing hs hcmd (hnotStop (by simp [hs])) (hnotDone (by simp [hs]))
  | prepareSnapshot => exact absurd hs hstate
  | picTaking => exact .inl (answered_picTaking hs hcmd (hnotDone (by simp [hs])))
  | recording =>
    exact .inl (answered_recording hs hcmd (hnotStop (by simp [hs])) (hnotDone (by simp [hs])))
  | videoPicTaking =>
    simp [answered_videoPicTaking, hs, hcmd, hnotStop, hnotDone]
  | previewPicTaking =>
    exact answered_previewPicTaking hs hcmd (hnotStop (by simp [hs])) fun h => (hdone h).2

theorem answers_stateMachine_unserved (h : s.Unserved evt) :
    (s.stateMachine p evt payload).answers = s.answers := by
  unfold stateMachine
  rcases h with ⟨rfl, hstate⟩ | ⟨rfl, hstate⟩
  · cases hs : s.state with
    | picTaking => exact absurd hs hstate
    | _ => rfl
  · cases hs : s.state with
    | previewPicTaking =>
      simp_all [procEvtPreviewPicTakingState]
    | _ => rfl

def eventAnswers (s : StateMachine) (evt : SmEvt) (payload : Payload) : List SmEvt :=
  match s.state, evt with
  | .prepareSnapshot, .evtInternal =>
    if payload.internalEvt = .prepSnapshotDone then [.prepareSnapshot] else []
  | .picTaking, .evtNotify =>
    if payload.serverEvt = .daemonDied then [.prepareSnapshot, .takePicture] else []
  | .previewPicTaking, .evtInternal =>
    if s.bRetroPicture = true ∧ payload.internalEvt = .prepSnapshotDone then [.prepareSnapshot]
    else if s.bRetroPicture = true ∧ payload.internalEvt = .readyForSnapshot then [.takePicture]
    else []
  | .previewPicTaking, .snapshotDone => if s.bRetroPicture = true then [.snapshotDone] else []
  | _, _ => []

structure EventHandled (s : StateMachine) (evt : SmEvt) (payload : Payload)
    (s' : StateMachine) : Prop where
  answers : s'.answers = s.answers ++ s.eventAnswers evt payload
  retro : s'.bRetroPicture = s.bRetroPicture
  entered : s'.state = .prepareSnapshot →
    s.state = .prepareSnapshot ∧ s.eventAnswers evt payload = []
  kept : s.state = .prepareSnapshot → s.eventAnswers evt payload = [] →
    s'.state = .prepareSnapshot
  taking : s.state = .previewPicTaking → evt ≠ .snapshotDone → s'.state = .previewPicTaking

theorem EventHandled.waits {cmd : SmEvt} (h : EventHandled s evt payload s')
    (hwaits : s.Waits cmd) (hnone : s.eventAnswers evt payload = []) : s'.Waits cmd := by
  have hpicture (hs : s.state = .previewPicTaking) (hretro : s.bRetroPicture = true) :
      s'.state = .previewPicTaking ∧ s'.bRetroPicture = true := by
    refine ⟨h.taking hs fun hevt => ?_, h.retro.trans hretro⟩
    simp_all [eventAnswers]
  rcases hwaits with ⟨rfl, hs | ⟨hs, hretro⟩⟩ | ⟨rfl, hs, hretro⟩
  · exact .inl ⟨rfl, .inl (h.kept hs hnone)⟩
  · exact .inl ⟨rfl, .inr (hpicture hs hretro)⟩
  · exact .inr ⟨rfl, hpicture hs hretro⟩

theorem EventHandled.ignored (hanswers : s.eventAnswers evt payload = []) :
    EventHandled s evt payload s where
  answers := by rw [hanswers, List.append_nil]
  retro := rfl
  entered h := ⟨h, hanswers⟩
  kept h _ := h
  taking h _ := h

theorem eventHandled_prepareSnapshot (hs : s.state = .prepareSnapshot)
    (hasync : evt.isAsync = true) :
    EventHandled s evt payload (s.procEvtPrepareSnapshotState evt payload) := by
  cases evt with
  | evtInternal =>
    by_cases hdone : payload.internalEvt = .prepSnapshotDone
    · have hanswers : s.eventAnswers .evtInternal payload = [.prepareSnapshot] := by
        simp [eventAnswers, hs, hdone]
      refine ⟨?_, ?_, ?_, ?_, ?_⟩
      · simp [procEvtPrepareSnapshotState, hdone, hanswers]
      · simp [procEvtPrepareSnapshotState, hdone]
      · simp [procEvtPrepareSnapshotState, hdone]
      · simp [hanswers]
      · simp [hs]
    · have hstay : s.procEvtPrepareSnapshotState .evtInternal payload = s := by
        simp [procEvtPrepareSnapshotState]
      rw [hstay]
      exact .ignored (by simp [eventAnswers, hs, hdone])
  | snapshotDone =>
    have hanswers : s.eventAnswers .snapshotDone payload = [] := by simp [eventAnswers, hs]
    exact ⟨by simp [procEvtPrepareSnapshotState, notifySnapshotDone, hanswers], rfl,
      fun _ => ⟨hs, hanswers⟩, fun _ _ => hs, by simp [hs]⟩
  | evtNotify | jpegEvtNotify | thermalNotify => exact .ignored (by simp [eventAnswers, hs])
  | _ => cases hasync

theorem eventHandled_picTaking (hs : s.state = .picTaking) (hasync : evt.isAsync = true) :
    EventHandled s evt payload (s.procEvtPicTakingState p evt payload) := by
  cases evt with
  | evtNotify =>
    cases hserver : payload.serverEvt with
    | daemonDied =>
      exact ⟨by simp [procEvtPicTakingState, eventAnswers, hs, hserver],
        by simp [procEvtPicTakingState, hserver], by simp [procEvtPicTakingState, hs, hserver],
        by simp [hs], by simp [hs]⟩
    | other =>
      have hstay : s.procEvtPicTakingState p .evtNotify payload = s := by
        simp [procEvtPicTakingState, hserver]
      rw [hstay]
      exact .ignored (by simp [eventAnswers, hs, hserver])
  | snapshotDone =>
    refine ⟨by simp [procEvtPicTakingState, eventAnswers, hs], rfl, fun h => ?_, by simp [hs],
      by simp [hs]⟩
    simp only [procEvtPicTakingState, state_signalEvtResult, state_goto] at h
    split_ifs at h
  | evtInternal | jpegEvtNotify | thermalNotify => exact .ignored (by simp [eventAnswers, hs])
  | _ => cases hasync

theorem eventHandled_previewPicTaking (hs : s.state = .previewPicTaking)
    (hasync : evt.isAsync = true) :
    EventHandled s evt payload (s.procEvtPreviewPicTakingState p evt payload) := by
  cases evt with
  | evtInternal =>
    have hstate : (s.procEvtPreviewPicTakingState p .evtInternal payload).state =
        .previewPicTaking := by
      cases h : payload.internalEvt <;> cases hretro : s.bRetroPicture <;>
        simp [procEvtPreviewPicTakingState, h, hretro, hs]
    refine ⟨?_, ?_, by simp [hstate], by simp [hs], fun _ _ => hstate⟩
    · cases h : payload.internalEvt <;> cases hretro : s.bRetroPicture <;>
        simp [procEvtPreviewPicTakingState, eventAnswers, h, hretro, hs]
    · cases h : payload.internalEvt <;> cases hretro : s.bRetroPicture <;>
        simp [procEvtPreviewPicTakingState, h, hretro]
  | snapshotDone =>
    cases hretro : s.bRetroPicture with
    | false =>
      exact ⟨by simp [procEvtPreviewPicTakingState, eventAnswers, hs, hretro],
        by simp [procEvtPreviewPicTakingState, hretro],
        by simp [procEvtPreviewPicTakingState, hretro], by simp [hs], by simp⟩
    | true =>
      exact ⟨by simp [procEvtPreviewPicTakingState, eventAnswers, hs, hretro],
        by simp [procEvtPreviewPicTakingState, hretro],
        by simp [procEvtPreviewPicTakingState, hretro], by simp [hs], by simp⟩
  | evtNotify | jpegEvtNotify | thermalNotify => exact .ignored (by simp [eventAnswers, hs])
  | _ => cases hasync

theorem eventHandled_videoPicTaking (hs : s.state = .videoPicTaking)
    (hasync : evt.isAsync = true) :
    EventHandled s evt payload (s.procEvtVideoPicTakingState p evt) := by
  cases evt with
  | snapshotDone =>
    exact ⟨by simp [procEvtVideoPicTakingState, eventAnswers, hs], rfl,
      by simp [procEvtVideoPicTakingState], by simp [hs], by simp [hs]⟩
  | evtInternal | evtNotify | jpegEvtNotify | thermalNotify =>
    exact .ignored (by simp [eventAnswers, hs])
  | _ => cases hasync

theorem stateMachine_event (payload : Payload) (hasync : evt.isAsync = true) :
    EventHandled s evt payload (s.stateMachine p evt payload) := by
  unfold stateMachine
  cases hs : s.state with
  | prepareSnapshot => exact eventHandled_prepareSnapshot hs hasync
  | picTaking => exact eventHandled_picTaking hs hasync
  | previewPicTaking => exact eventHandled_previewPicTaking hs hasync
  | videoPicTaking => exact eventHandled_videoPicTaking hs hasync
  | _ =>
    -- these states forward the event, or report a snapshot that is done
    have hanswers : s.eventAnswers evt payload = [] := by simp [eventAnswers, hs]
    cases evt with
    | evtInternal | evtNotify | jpegEvtNotify | thermalNotify => exact .ignored hanswers
    | snapshotDone =>
      exact ⟨by rw [hanswers, List.append_nil]; rfl, rfl, fun h => ⟨h, hanswers⟩,
        fun h _ => h, fun h _ => h⟩
    | _ => cases hasync

end StateMachine

/-! ## A framework thread and the machine -/

/-- The machine with the commands that were posted, and the results that were signalled, in
order. One command at most is in the queue, or is handled and not answered yet. -/
structure ApiRun where
  machine : StateMachine := {}
  commands : List SmEvt := []
  answered : List SmEvt := []
  posted : Option SmEvt := none
  waiting : Option SmEvt := none

namespace ApiRun

variable {r r' : ApiRun}

def receive (r : ApiRun) (machine : StateMachine) : ApiRun :=
  { r with
    machine := machine
    answered := r.answered ++ machine.answers
    waiting := if r.waiting.any (· ∈ machine.answers) then none else r.waiting }

inductive Op
  | post (evt : SmEvt)
  | serve (payload : Payload) (p : Parent)
  | event (evt : SmEvt) (payload : Payload) (p : Parent)
  /-- `take_picture` decides the mode before it posts its commands. -/
  | setRetroPicture (enable : Bool)

/-- The next command is posted when the last one is answered. -/
def Enabled (r : ApiRun) : Op → Prop
  | .post evt => r.posted = none ∧ r.waiting = none ∧ evt.isCommand = true
  | .serve _ _ => r.posted ≠ none
  | .event evt _ _ => evt.isAsync = true
  | .setRetroPicture _ => r.posted = none ∧ r.waiting = none

def next (r : ApiRun) : Op → ApiRun
  | .post evt => { r with commands := r.commands ++ [evt], posted := some evt }
  | .serve payload p =>
    match r.posted with
    | none => r
    | some evt =>
      { r with posted := none, waiting := some evt }.receive (r.machine.process p evt payload)
  | .event evt payload p => r.receive (r.machine.process p evt payload)
  | .setRetroPicture enable => { r with machine.bRetroPicture := enable }

def system : System ApiRun Op := .ofFunction (· = {}) Enabled next

/-- Every command is answered once and in order, except for the one that is outstanding, and a
command that was handled without an answer has a state that waits for it. -/
structure Sound (r : ApiRun) : Prop where
  answered : r.commands = r.answered ++ r.waiting.toList ++ r.posted.toList
  waits : ∀ evt ∈ r.waiting, r.machine.Waits evt

/-- The event answers nothing but what is waited for. -/
def Expected (r : ApiRun) (evt : SmEvt) (payload : Payload) : Prop :=
  (r.machine.state = .picTaking → evt = .evtNotify → payload.serverEvt ≠ .daemonDied) ∧
    (r.machine.state = .previewPicTaking → r.machine.bRetroPicture = true →
      evt ≠ .snapshotDone ∧
        (evt = .evtInternal → payload.internalEvt = .prepSnapshotDone →
          r.waiting = some .prepareSnapshot) ∧
        (evt = .evtInternal → payload.internalEvt = .readyForSnapshot →
          r.waiting = some .takePicture))

instance (r : ApiRun) (evt : SmEvt) (payload : Payload) : Decidable (Expected r evt payload) := by
  unfold Expected
  infer_instance

/-- The steps that answer what they have to, and nothing else. -/
def Ok (r : ApiRun) : Op → Prop
  | .post _ | .setRetroPicture _ => True
  | .serve _ _ => ∀ evt ∈ r.posted, ¬ r.machine.Unserved evt
  | .event evt payload _ => Expected r evt payload

instance (r : ApiRun) (op : Op) : Decidable (Enabled r op) := by
  cases op <;> (unfold Enabled; infer_instance)

instance (r : ApiRun) (op : Op) : Decidable (Ok r op) := by
  cases op <;> (unfold Ok; infer_instance)

/-! ## The invariant -/

structure Inv (r : ApiRun) : Prop extends Sound r where
  prepare : r.machine.state = .prepareSnapshot → r.waiting = some .prepareSnapshot
  command : ∀ evt ∈ r.posted, evt.isCommand = true ∧ r.waiting = none

theorem inv_init : Inv {} := ⟨⟨rfl, nofun⟩, nofun, nofun⟩

@[simp] theorem answers_cleared {s : StateMachine} : s.cleared.answers = [] := rfl

theorem answered_receive_iff {m : StateMachine} (h : Inv r) :
    (r.commands = (r.receive m).answered ++ (r.receive m).waiting.toList ++ r.posted.toList) ↔
      m.answers = [] ∨ ∃ evt, r.waiting = some evt ∧ m.answers = [evt] := by
  have hlength := congrArg List.length h.answered
  constructor
  · intro hreceive
    have hreceive := congrArg List.length hreceive
    cases hw : r.waiting with
    | none =>
      simp [receive, hw] at hlength hreceive
      exact .inl (List.length_eq_zero_iff.mp (by omega))
    | some evt =>
      by_cases hmem : evt ∈ m.answers
      · have hone : m.answers.length = 1 := by
          simp [receive, hw, hmem] at hlength hreceive
          omega
        obtain ⟨a, ha⟩ := List.length_eq_one_iff.mp hone
        simp_all
      · simp [receive, hw, hmem] at hlength hreceive
        exact .inl (List.length_eq_zero_iff.mp (by omega))
  · rintro (hnone | ⟨evt, hw, hone⟩)
    · simpa [receive, hnone] using h.answered
    · simpa [receive, hone, hw] using h.answered

/-! ## The commands -/

theorem inv_serve {evt : SmEvt} {payload : Payload} {p : Parent} (h : Inv r)
    (hposted : r.posted = some evt) (hserved : ¬ r.machine.Unserved evt) :
    Inv (r.next (.serve payload p)) := by
  obtain ⟨hcmd, hwaiting⟩ := h.command evt hposted
  have hstate : r.machine.state ≠ .prepareSnapshot := fun hs => by
    cases hwaiting.symm.trans (h.prepare hs)
  have hcommands : r.commands = r.answered ++ [evt] := by
    simpa [hposted, hwaiting] using h.answered
  simp only [next, hposted]
  rcases StateMachine.stateMachine_command (s := r.machine.cleared) (p := p)
    payload hcmd hstate hserved with hanswered | hdeferred
  · have hans : (r.machine.process p evt payload).answers = [evt] := hanswered.answers
    refine ⟨⟨?_, ?_⟩, fun hs => absurd hs hanswered.state, nofun⟩
    · simpa [receive, hans] using hcommands
    · simp [receive, hans]
  · have hans : (r.machine.process p evt payload).answers = [] := hdeferred.answers
    refine ⟨⟨?_, ?_⟩, ?_, nofun⟩
    · simpa [receive, hans] using hcommands
    · simpa [receive, hans] using (show (r.machine.process p evt payload).Waits evt from
        hdeferred.waits)
    · intro hs
      simpa [receive, hans] using hdeferred.state hs

theorem not_sound_serve {evt : SmEvt} {payload : Payload} {p : Parent}
    (hposted : r.posted = some evt) (hunserved : r.machine.Unserved evt) :
    ¬ Sound (r.next (.serve payload p)) := by
  intro hsound
  have hans : (r.machine.process p evt payload).answers = [] :=
    StateMachine.answers_stateMachine_unserved (s := r.machine.cleared) hunserved
  have hwaits := hsound.waits evt (by simp [next, hposted, receive, hans])
  rcases hunserved with ⟨rfl, -⟩ | ⟨rfl, -⟩
  · rcases hwaits with ⟨heq, -⟩ | ⟨heq, -⟩ <;> cases heq
  · rcases hwaits with ⟨heq, -⟩ | ⟨heq, -⟩ <;> cases heq

/-! ## The events -/

theorem ok_event_iff {evt : SmEvt} {payload : Payload} {p : Parent} (h : Inv r) :
    Ok r (.event evt payload p) ↔ r.machine.eventAnswers evt payload = [] ∨
      ∃ waiting, r.waiting = some waiting ∧
        r.machine.eventAnswers evt payload = [waiting] := by
  unfold Ok Expected StateMachine.eventAnswers
  cases hs : r.machine.state with
  | prepareSnapshot =>
    have hwaiting := h.prepare hs
    cases evt <;> simp [hwaiting, em']
  | picTaking =>
    cases evt with
    | evtNotify => cases hserver : payload.serverEvt <;> simp [hserver]
    | _ => simp
  | previewPicTaking =>
    cases hretro : r.machine.bRetroPicture with
    | false => cases evt <;> simp
    | true =>
      cases evt with
      | evtInternal => cases hinternal : payload.internalEvt <;> simp [hinternal]
      | snapshotDone =>
        -- nothing waits for this answer
        have hnone : r.waiting ≠ some .snapshotDone := fun hw => by
          rcases h.waits _ hw with ⟨heq, -⟩ | ⟨heq, -⟩ <;> cases heq
        simpa using hnone
      | _ => simp
  | _ => simp

theorem inv_event {evt : SmEvt} {payload : Payload} {p : Parent} (h : Inv r)
    (hasync : evt.isAsync = true) (hok : Ok r (.event evt payload p)) :
    Inv (r.next (.event evt payload p)) := by
  have hevent := StateMachine.stateMachine_event (s := r.machine.cleared) (p := p)
    payload hasync
  have hans : (r.machine.process p evt payload).answers =
      r.machine.eventAnswers evt payload := hevent.answers
  have hcases := (ok_event_iff h).mp hok
  have hanswered := (answered_receive_iff h).mpr (by rwa [← hans] at hcases)
  rcases hcases with hnone | ⟨waiting, hw, hone⟩
  · rw [hnone] at hans
    have hkept : (r.next (.event evt payload p)).waiting = r.waiting := by
      simp [next, receive, hans]
    refine ⟨⟨hanswered, fun e he => ?_⟩, fun hs => ?_, fun e he => ?_⟩
    · rw [hkept] at he
      exact hevent.waits (h.waits e he) hnone
    · rw [hkept]
      exact h.prepare (hevent.entered hs).1
    · rw [hkept]
      exact h.command e he
  · rw [hone] at hans
    have hended : (r.next (.event evt payload p)).waiting = none := by
      simp [next, receive, hans, hw]
    refine ⟨⟨hanswered, fun e he => ?_⟩, fun hs => ?_, fun e he => ⟨(h.command e he).1, hended⟩⟩
    · rw [hended] at he
      cases he
    · cases hone.symm.trans (hevent.entered hs).2

theorem not_sound_event {evt : SmEvt} {payload : Payload} {p : Parent} (h : Inv r)
    (hasync : evt.isAsync = true) (hok : ¬ Ok r (.event evt payload p)) :
    ¬ Sound (r.next (.event evt payload p)) := by
  have hans : (r.machine.process p evt payload).answers =
      r.machine.eventAnswers evt payload :=
    (StateMachine.stateMachine_event (s := r.machine.cleared) (p := p)
      payload hasync).answers
  intro hsound
  have hcases := (answered_receive_iff h).mp hsound.answered
  rw [hans] at hcases
  exact hok ((ok_event_iff h).mpr hcases)

/-! ## Runs -/

theorem inv_invariant : (system.restrict Ok).Invariant Inv := by
  refine .of_restrict ?_ ?_
  · rintro r rfl
    exact inv_init
  · rintro r op r' h hok ⟨henabled, rfl⟩
    cases op with
    | post evt =>
      obtain ⟨hposted, hwaiting, hcmd⟩ := henabled
      refine ⟨⟨?_, h.waits⟩, h.prepare, ?_⟩
      · simp [next, h.answered, hposted]
      · rintro e he
        cases he
        exact ⟨hcmd, hwaiting⟩
    | serve payload p =>
      obtain ⟨evt, hposted⟩ := Option.ne_none_iff_exists'.mp henabled
      exact inv_serve h hposted (hok evt hposted)
    | event evt payload p => exact inv_event h henabled hok
    | setRetroPicture enable =>
      refine ⟨⟨h.answered, fun e he => ?_⟩, h.prepare, h.command⟩
      rw [next, henabled.2] at he
      cases he

def retroPicture : List Op :=
  [.post .startPreview, .serve {} {}, .setRetroPicture true,
    .post .takePicture, .serve {} { zslMode := true },
    .event .evtInternal { internalEvt := .readyForSnapshot } {},
    .post .prepareSnapshot, .serve {} {},
    .event .evtInternal { internalEvt := .prepSnapshotDone } {}]

end ApiRun
end EtherDevice.Hal1
