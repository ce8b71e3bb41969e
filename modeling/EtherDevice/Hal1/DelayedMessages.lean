import EtherDevice.Hal1.PreviewTruth
import EtherDevice.Lib.Masks

/-!
# Messages that are delayed

In ZSL mode a picture delays the preview frames: `ENABLE_MSG_TYPE` in `PREVIEWING` keeps
`CAMERA_MSG_PREVIEW_FRAME` back, and `applyDelayedMsgs` enables it in the parent when the preview
goes on. The parent has the rest of the mask, and each state but `PREPARE_SNAPSHOT` enables and
disables in it.

`MessageRun` adds the mask of the parent to the machine, and what the client has asked for. Of an
event that is no command for messages, the parent is told what `applyDelayedMsgs` takes from the
machine, and nothing else. A message that is disabled outside `PREVIEWING` stays in the machine.
-/

namespace EtherDevice.Hal1.DelayedMessages

open Lib

structure MessageRun where
  machine : StateMachine := {}
  mMsgEnabled : UInt32 := 0
  /-- All commands of the client, applied in order. -/
  wanted : UInt32 := 0

namespace MessageRun

variable (r : MessageRun) (evt : SmEvt) (payload : Payload) (p : Parent)

/-- What an event has the parent enable: its message types, less what is held back, or what
`applyDelayedMsgs` finds. -/
def enables : UInt32 :=
  match evt with
  | .enableMsgType =>
    match r.machine.state with
    | .prepareSnapshot => 0
    | .previewing =>
      if r.machine.bDelayPreviewMsgs && payload.msgs &&& msgPreviewFrame != 0 then
        payload.msgs &&& ~~~msgPreviewFrame
      else payload.msgs
    | _ => payload.msgs
  | .disableMsgType => 0
  | _ =>
    if (r.machine.process p evt payload).delayedMsgs = 0 then r.machine.delayedMsgs else 0

def disables : UInt32 :=
  match evt with
  | .disableMsgType =>
    match r.machine.state with
    | .prepareSnapshot => 0
    | _ => payload.msgs
  | _ => 0

def wants : UInt32 :=
  match evt with
  | .enableMsgType => r.wanted ||| payload.msgs
  | .disableMsgType => r.wanted &&& ~~~payload.msgs
  | _ => r.wanted

def process : MessageRun where
  machine := r.machine.process p evt payload
  mMsgEnabled := (r.mMsgEnabled ||| r.enables evt payload p) &&& ~~~r.disables evt payload
  wanted := r.wants evt payload

def next (r : MessageRun) : StateMachine.Op → MessageRun
  | .event evt payload p => r.process evt payload p
  | .setRetroPicture enable => { r with machine := r.machine.next (.setRetroPicture enable) }

/-- The parent has what the client wants, and while messages are delayed all but the preview
frames. -/
structure Transparent (r : MessageRun) : Prop where
  done : r.machine.bDelayPreviewMsgs = false → r.mMsgEnabled = r.wanted
  delayed : r.machine.bDelayPreviewMsgs = true →
    r.wanted = r.mMsgEnabled ∨ r.wanted = r.mMsgEnabled ||| msgPreviewFrame

/-- `PREPARE_SNAPSHOT` refuses only commands that change nothing, and a message that is delayed is
disabled in `PREVIEWING`. -/
def Cond (r : MessageRun) : StateMachine.Op → Prop
  | .event .enableMsgType payload _ => r.machine.state = .prepareSnapshot →
    r.mMsgEnabled ||| payload.msgs = r.mMsgEnabled
  | .event .disableMsgType payload _ =>
    (r.machine.state = .prepareSnapshot → r.mMsgEnabled &&& ~~~payload.msgs = r.mMsgEnabled) ∧
      (r.machine.state ≠ .previewing → r.machine.delayedMsgs &&& payload.msgs = 0)
  | _ => True

end MessageRun

/-! ## The machine -/

def delay (s : StateMachine) : Bool × UInt32 := (s.bDelayPreviewMsgs, s.delayedMsgs)

variable {s s' : StateMachine} {p : Parent} {evt : SmEvt} {payload : Payload}

@[simp] theorem delay_answer {status : Int} : delay (s.answer evt status) = delay s := rfl

@[simp] theorem delay_answerRc {op : ParentOp} : delay (s.answerRc p evt op) = delay s := rfl

@[simp] theorem delay_answerFlag {enabled : UInt32} :
    delay (s.answerFlag evt enabled) = delay s := rfl

@[simp] theorem delay_goto {state : SmState} : delay (s.goto state) = delay s := rfl
@[simp] theorem delay_stopPreview : delay s.stopPreview = delay s := rfl
@[simp] theorem delay_unpreparePreview : delay s.unpreparePreview = delay s := rfl

@[simp] theorem delay_signalAPIResult {result : ApiResult} :
    delay (s.signalAPIResult result) = delay s := rfl

@[simp] theorem delay_signalEvtResult {result : ApiResult} :
    delay (s.signalEvtResult result) = delay s := rfl

@[simp] theorem delay_preparePreview : delay (s.preparePreview p) = delay s := by
  rw [StateMachine.preparePreview_eq]
  rfl

@[simp] theorem delay_startPreview : delay (s.startPreview p) = delay s := by
  rw [StateMachine.startPreview_eq]
  rfl

/-- Without a delay there are no delayed messages. -/
def Idle (s : StateMachine) : Prop := s.bDelayPreviewMsgs = false → s.delayedMsgs = 0

theorem delay_applyDelayedMsgs (h : Idle s) : delay s.applyDelayedMsgs = (false, 0) := by
  unfold StateMachine.applyDelayedMsgs delay
  cases hdelay : s.bDelayPreviewMsgs with
  | false => simp [hdelay, h hdelay]
  | true =>
    simp_all

/-- The delayed messages stay, or are applied; and a delay may begin. `PREPARE_SNAPSHOT` is never
entered with a delay. -/
structure Moves (s s' : StateMachine) : Prop where
  delay : delay s' = delay s ∨ delay s' = (true, s.delayedMsgs) ∨ delay s' = (false, 0)
  prepare : s'.state = .prepareSnapshot → s'.bDelayPreviewMsgs = false

theorem Moves.same (hstate : s'.state ≠ .prepareSnapshot)
    (hdelay : DelayedMessages.delay s' = DelayedMessages.delay s) : Moves s s' :=
  ⟨.inl hdelay, fun h => absurd h hstate⟩

theorem Moves.applied (hdelay : DelayedMessages.delay s' = (false, 0)) : Moves s s' :=
  ⟨.inr (.inr hdelay), fun _ => congrArg Prod.fst hdelay⟩

theorem Moves.of_delay (hstate : s'.state ≠ .prepareSnapshot)
    (hdelay : DelayedMessages.delay s' = DelayedMessages.delay s ∨
      DelayedMessages.delay s' = (false, 0)) : Moves s s' :=
  ⟨hdelay.imp_right .inr, fun h => absurd h hstate⟩

theorem Moves.begins (hstate : s'.state ≠ .prepareSnapshot)
    (hdelay : DelayedMessages.delay s' = (true, s.delayedMsgs)) : Moves s s' :=
  ⟨.inr (.inl hdelay), fun h => absurd h hstate⟩

theorem delay_prepareAndStart (h : Idle s) (p : Parent) :
    delay (s.prepareAndStart p).2 = delay s ∨ delay (s.prepareAndStart p).2 = (false, 0) := by
  have hprepared : Idle (s.preparePreview p) := by
    rw [StateMachine.preparePreview_eq]
    exact h
  unfold StateMachine.prepareAndStart
  split_ifs
  · exact .inr (by simp [delay_applyDelayedMsgs hprepared])
  · exact .inr (by simp [delay_applyDelayedMsgs hprepared])
  · exact .inl (by simp)

/-! ## The events in each state -/

def IsMsgCommand (evt : SmEvt) : Prop := evt = .enableMsgType ∨ evt = .disableMsgType

theorem moves_previewStopped (hs : s.state = .previewStopped) (h : Idle s) :
    Moves s (s.procEvtPreviewStoppedState p evt) := by
  cases evt with
  | startPreview | startNodisplayPreview =>
    have hstarts := delay_prepareAndStart h p
    unfold StateMachine.procEvtPreviewStoppedState
    dsimp only
    split_ifs <;> exact .of_delay (by simp [hs]) (by simp [hstarts])
  | _ => exact .same (hs ▸ nofun) rfl

theorem moves_previewReady (hs : s.state = .previewReady) (h : Idle s) :
    Moves s (s.procEvtPreviewReadyState p evt) := by
  cases evt with
  | setPreviewWindow | setParams =>
    unfold StateMachine.procEvtPreviewReadyState
    split_ifs <;> exact .of_delay (by simp [hs]) (by simp [delay_applyDelayedMsgs h])
  | stopPreview => exact .same nofun rfl
  | _ => exact .same (hs ▸ nofun) rfl

theorem moves_previewing (hs : s.state = .previewing) (h : Idle s) (hevt : ¬ IsMsgCommand evt) :
    Moves s (s.procEvtPreviewingState p evt payload) := by
  cases evt with
  | enableMsgType => exact absurd (.inl rfl) hevt
  | disableMsgType => exact absurd (.inr rfl) hevt
  | setParams | sendCommand =>
    have hstarts := delay_prepareAndStart (s := s.stopPreview) h p
    rw [delay_stopPreview] at hstarts
    unfold StateMachine.procEvtPreviewingState
    dsimp only
    split_ifs <;> exact .of_delay (by simp [hs]) (by simp [hstarts])
  | msgTypeEnabled =>
    unfold StateMachine.procEvtPreviewingState
    dsimp only
    split_ifs <;> exact .same (hs ▸ nofun) rfl
  | startPreview | startNodisplayPreview | previewEnabled =>
    exact .applied (delay_applyDelayedMsgs h)
  | stopPreview => exact .applied (delay_applyDelayedMsgs (s := s.stopPreview) h)
  | startRecording =>
    unfold StateMachine.procEvtPreviewingState
    dsimp only
    split_ifs
    · exact .applied (delay_applyDelayedMsgs (s := s.goto .recording) h)
    · exact .same (hs ▸ nofun) rfl
  | prepareSnapshot =>
    unfold StateMachine.procEvtPreviewingState
    dsimp only
    split_ifs
    · exact .applied (delay_applyDelayedMsgs (s := s.goto .prepareSnapshot) h)
    · exact .same (hs ▸ nofun) rfl
  | takePicture =>
    unfold StateMachine.procEvtPreviewingState
    dsimp only
    split_ifs
    all_goals first
      | exact .begins nofun rfl
      | exact .same nofun rfl
  | _ => exact .same (hs ▸ nofun) rfl

theorem moves_prepareSnapshot (hdelay : s.bDelayPreviewMsgs = false) :
    Moves s (s.procEvtPrepareSnapshotState evt payload) := by
  have hsame : ∀ s', delay s' = delay s → Moves s s' := fun s' h =>
    ⟨.inl h, fun _ => (congrArg Prod.fst h).trans hdelay⟩
  cases evt with
  | evtInternal =>
    unfold StateMachine.procEvtPrepareSnapshotState
    dsimp only
    split <;> exact hsame _ rfl
  | _ => exact hsame _ rfl

theorem moves_picTaking (hs : s.state = .picTaking) (h : Idle s) :
    Moves s (s.procEvtPicTakingState p evt payload) := by
  cases evt with
  | sendCommand | takePicture =>
    unfold StateMachine.procEvtPicTakingState
    split_ifs <;> exact .same (by simp [hs]) rfl
  | stopPreview | cancelPicture => exact .same nofun rfl
  | evtNotify =>
    unfold StateMachine.procEvtPicTakingState
    dsimp only
    split <;> exact .same (hs ▸ nofun) rfl
  | stopCaptureChannel =>
    have hprepared : Idle (s.preparePreview p) := by
      rw [StateMachine.preparePreview_eq]
      exact h
    unfold StateMachine.procEvtPicTakingState
    split_ifs <;> exact .of_delay (by simp [hs]) (by simp [delay_applyDelayedMsgs hprepared])
  | snapshotDone =>
    unfold StateMachine.procEvtPicTakingState
    split_ifs <;> exact .same nofun rfl
  | _ => exact .same (hs ▸ nofun) rfl

theorem moves_recording (hs : s.state = .recording) : Moves s (s.procEvtRecordingState p evt) := by
  cases evt with
  | setParams | takePicture =>
    unfold StateMachine.procEvtRecordingState
    split_ifs <;> exact .same (by simp [hs]) rfl
  | stopRecording | stopPreview => exact .same nofun rfl
  | _ => exact .same (hs ▸ nofun) rfl

theorem moves_videoPicTaking (hs : s.state = .videoPicTaking) :
    Moves s (s.procEvtVideoPicTakingState p evt) := by
  cases evt with
  | setParams =>
    unfold StateMachine.procEvtVideoPicTakingState
    split_ifs <;> exact .same (hs ▸ nofun) rfl
  | stopRecording | cancelPicture | stopPreview | snapshotDone => exact .same nofun rfl
  | _ => exact .same (hs ▸ nofun) rfl

theorem moves_previewPicTaking (hs : s.state = .previewPicTaking) (h : Idle s) :
    Moves s (s.procEvtPreviewPicTakingState p evt payload) := by
  cases evt with
  | setParams =>
    have hstarts := delay_prepareAndStart (s := s.stopPreview) h p
    rw [delay_stopPreview] at hstarts
    unfold StateMachine.procEvtPreviewPicTakingState
    dsimp only
    split_ifs <;> exact .of_delay (by simp [hs]) (by simp [hstarts])
  | sendCommand | startRecording | takePicture | prepareSnapshot =>
    unfold StateMachine.procEvtPreviewPicTakingState
    split_ifs <;> exact .same (by simp [hs]) rfl
  | cancelPicture | stopPreview => exact .same nofun rfl
  | evtInternal =>
    unfold StateMachine.procEvtPreviewPicTakingState
    dsimp only
    split
    · split_ifs <;> exact .same (hs ▸ nofun) rfl
    · split_ifs <;> exact .same (hs ▸ nofun) rfl
    · exact .same (hs ▸ nofun) rfl
  | snapshotDone =>
    unfold StateMachine.procEvtPreviewPicTakingState
    dsimp only
    split_ifs <;> exact .same nofun rfl
  | _ => exact .same (hs ▸ nofun) rfl

structure Steady (s : StateMachine) : Prop where
  idle : Idle s
  bit : s.delayedMsgs = 0 ∨ s.delayedMsgs = msgPreviewFrame
  prepare : s.state = .prepareSnapshot → s.bDelayPreviewMsgs = false

theorem Steady.moves (h : Steady s) (hevt : ¬ IsMsgCommand evt) :
    Moves s (s.process p evt payload) := by
  have hidle : Idle s.cleared := h.idle
  have hmoves : Moves s.cleared (s.cleared.stateMachine p evt payload) := by
    unfold StateMachine.stateMachine
    cases hs : s.cleared.state with
    | previewStopped => exact moves_previewStopped hs hidle
    | previewReady => exact moves_previewReady hs hidle
    | previewing => exact moves_previewing hs hidle hevt
    | prepareSnapshot => exact moves_prepareSnapshot (h.prepare hs)
    | picTaking => exact moves_picTaking hs hidle
    | recording => exact moves_recording hs
    | videoPicTaking => exact moves_videoPicTaking hs
    | previewPicTaking => exact moves_previewPicTaking hs hidle
  exact ⟨hmoves.delay, hmoves.prepare⟩

theorem Steady.of_moves (h : Steady s) (hmoves : Moves s s') : Steady s' := by
  refine ⟨?_, ?_, hmoves.prepare⟩
  · intro hfalse
    rcases hmoves.delay with hsame | hbegins | happlied
    · exact (congrArg Prod.snd hsame).trans (h.idle ((congrArg Prod.fst hsame).symm.trans hfalse))
    · have htrue : s'.bDelayPreviewMsgs = true := congrArg Prod.fst hbegins
      simp_all
    · exact congrArg Prod.snd happlied
  · rcases hmoves.delay with hsame | hbegins | happlied
    · have hmsgs : s'.delayedMsgs = s.delayedMsgs := congrArg Prod.snd hsame
      exact hmsgs ▸ h.bit
    · have hmsgs : s'.delayedMsgs = s.delayedMsgs := congrArg Prod.snd hbegins
      exact hmsgs ▸ h.bit
    · exact .inl (congrArg Prod.snd happlied)

theorem Steady.of_same (h : Steady s) (hstate : s'.state = s.state)
    (hdelay : delay s' = delay s) : Steady s' := by
  have hmsgs : s'.delayedMsgs = s.delayedMsgs := congrArg Prod.snd hdelay
  have hpending : s'.bDelayPreviewMsgs = s.bDelayPreviewMsgs := congrArg Prod.fst hdelay
  refine ⟨fun hfalse => ?_, hmsgs ▸ h.bit, fun hprepare => ?_⟩
  · exact hmsgs.trans (h.idle (hpending.symm.trans hfalse))
  · exact hpending.trans (h.prepare (hstate.symm.trans hprepare))

/-! ## Commands -/

theorem process_command (hevt : IsMsgCommand evt) (hs : s.state ≠ .previewing) :
    (s.process p evt payload).state = s.state ∧ delay (s.process p evt payload) = delay s := by
  show (s.cleared.stateMachine p evt payload).state = s.cleared.state ∧
    delay (s.cleared.stateMachine p evt payload) = delay s.cleared
  unfold StateMachine.stateMachine
  rcases hevt with rfl | rfl
  · cases hstate : s.cleared.state with
    | previewing => exact absurd hstate hs
    | _ => exact ⟨hstate, rfl⟩
  · cases hstate : s.cleared.state with
    | previewing => exact absurd hstate hs
    | _ => exact ⟨hstate, rfl⟩

theorem process_enable (hs : s.state = .previewing) :
    (s.process p .enableMsgType payload).state = .previewing ∧
    delay (s.process p .enableMsgType payload) =
      (s.bDelayPreviewMsgs,
        if s.bDelayPreviewMsgs && payload.msgs &&& msgPreviewFrame != 0 then msgPreviewFrame
        else s.delayedMsgs) := by
  have hprocess : s.process p .enableMsgType payload =
      s.cleared.procEvtPreviewingState p .enableMsgType payload := by
    have hcleared : s.cleared.state = .previewing := hs
    rw [StateMachine.process, StateMachine.stateMachine, hcleared]
  rw [hprocess]
  unfold StateMachine.procEvtPreviewingState
  by_cases hheld : (s.bDelayPreviewMsgs && payload.msgs &&& msgPreviewFrame != 0) = true
  · have hcleared : (s.cleared.bDelayPreviewMsgs && payload.msgs &&& msgPreviewFrame != 0) =
        true := hheld
    simp only [if_pos hheld, if_pos hcleared]
    exact ⟨hs, rfl⟩
  · have hcleared : ¬ (s.cleared.bDelayPreviewMsgs && payload.msgs &&& msgPreviewFrame != 0) =
        true := hheld
    simp only [if_neg hheld, if_neg hcleared]
    exact ⟨hs, rfl⟩

theorem process_disable (h : Idle s) (hs : s.state = .previewing) :
    (s.process p .disableMsgType payload).state = .previewing ∧
    (s.process p .disableMsgType payload).delayedMsgs = s.delayedMsgs &&& ~~~payload.msgs ∧
    Idle (s.process p .disableMsgType payload) := by
  have hprocess : s.process p .disableMsgType payload =
      s.cleared.procEvtPreviewingState p .disableMsgType payload := by
    have hcleared : s.cleared.state = .previewing := hs
    rw [StateMachine.process, StateMachine.stateMachine, hcleared]
  rw [hprocess]
  unfold StateMachine.procEvtPreviewingState
  dsimp only
  split_ifs with hpending
  · refine ⟨hs, rfl, fun hfalse => ?_⟩
    have hleft : (s.delayedMsgs &&& ~~~payload.msgs != 0) = false := hfalse
    show s.delayedMsgs &&& ~~~payload.msgs = 0
    simpa using hleft
  · have hnone : s.delayedMsgs = 0 := by
      by_contra hne
      apply hpending
      have hdelay : s.bDelayPreviewMsgs = true := by
        by_contra hfalse
        exact hne (h (Bool.eq_false_iff.mpr hfalse))
      simp [StateMachine.cleared, hdelay, hne]
    refine ⟨hs, ?_, h⟩
    show s.delayedMsgs = _
    rw [hnone, UInt32.zero_and]

/-! ## Runs -/

namespace MessageRun

/-- The client wants what the parent has and what the machine keeps back. -/
structure Sound (r : MessageRun) : Prop where
  machine : Steady r.machine
  split : r.wanted = r.mMsgEnabled ||| r.machine.delayedMsgs

variable {r : MessageRun}

theorem Sound.new : Sound {} where
  machine := ⟨fun _ => rfl, .inl rfl, nofun⟩
  split := rfl

theorem Sound.transparent (h : r.Sound) : r.Transparent where
  done hdelay := by
    rw [h.split, h.machine.idle hdelay, UInt32.or_zero]
  delayed _ := by
    rcases h.machine.bit with hnone | hframe
    · left
      rw [h.split, hnone, UInt32.or_zero]
    · right
      rw [h.split, hframe]

theorem oneBit_msgPreviewFrame : OneBit msgPreviewFrame :=
  oneBit_of_two_pow (k := 4) rfl

theorem Sound.enable_previewing (h : r.Sound) (hs : r.machine.state = .previewing) :
    (r.process .enableMsgType payload p).Sound := by
  obtain ⟨hstate, hdelay⟩ : (r.machine.process p .enableMsgType payload).state = .previewing ∧ _ :=
    process_enable hs
  have hprepare : (r.machine.process p .enableMsgType payload).state = .prepareSnapshot →
      (r.machine.process p .enableMsgType payload).bDelayPreviewMsgs = false := by
    rw [hstate]
    exact nofun
  by_cases hheld : (r.machine.bDelayPreviewMsgs && payload.msgs &&& msgPreviewFrame != 0) = true
  · rw [if_pos hheld] at hdelay
    have hmsgs : (r.machine.process p .enableMsgType payload).delayedMsgs = msgPreviewFrame :=
      congrArg Prod.snd hdelay
    obtain ⟨hpending, hframe⟩ := Bool.and_eq_true_iff.mp hheld
    have hhas : msgPreviewFrame &&& payload.msgs = msgPreviewFrame := by
      apply (oneBit_msgPreviewFrame payload.msgs).resolve_left
      rw [UInt32.and_comm]
      simpa using hframe
    refine ⟨⟨fun hfalse => ?_, .inr hmsgs, hprepare⟩, ?_⟩
    · have htrue := (congrArg Prod.fst hdelay).trans hpending
      exact absurd (htrue.symm.trans hfalse) nofun
    · have henables : r.enables .enableMsgType payload p =
          payload.msgs &&& ~~~msgPreviewFrame := by
        simp only [enables, hs, if_pos hheld]
      show r.wanted ||| payload.msgs = (r.mMsgEnabled ||| r.enables .enableMsgType payload p) &&&
        ~~~0 ||| (r.machine.process p .enableMsgType payload).delayedMsgs
      rw [henables, hmsgs, h.split, and_not_of_and_eq_zero UInt32.and_zero]
      rcases h.machine.bit with hnone | hsome
      · rw [hnone, UInt32.or_zero]
        exact or_eq_or_and_not_or hhas
      · rw [hsome, or_eq_or_and_not_or hhas]
        grind
  · rw [if_neg hheld] at hdelay
    have hmsgs : (r.machine.process p .enableMsgType payload).delayedMsgs =
        r.machine.delayedMsgs := congrArg Prod.snd hdelay
    refine ⟨⟨fun hfalse => ?_, hmsgs ▸ h.machine.bit, hprepare⟩, ?_⟩
    · exact hmsgs.trans (h.machine.idle ((congrArg Prod.fst hdelay).symm.trans hfalse))
    · have henables : r.enables .enableMsgType payload p = payload.msgs := by
        simp only [enables, hs, if_neg hheld]
      show r.wanted ||| payload.msgs = (r.mMsgEnabled ||| r.enables .enableMsgType payload p) &&&
        ~~~0 ||| (r.machine.process p .enableMsgType payload).delayedMsgs
      rw [henables, hmsgs, h.split, and_not_of_and_eq_zero UInt32.and_zero]
      grind

theorem Sound.enable (h : r.Sound) (hc : Cond r (.event .enableMsgType payload p)) :
    (r.process .enableMsgType payload p).Sound := by
  by_cases hs : r.machine.state = .previewing
  · exact h.enable_previewing hs
  obtain ⟨hstate, hdelay⟩ : (r.machine.process p .enableMsgType payload).state = _ ∧ _ :=
    process_command (.inl rfl) hs
  have hmsgs : (r.machine.process p .enableMsgType payload).delayedMsgs = r.machine.delayedMsgs :=
    congrArg Prod.snd hdelay
  refine ⟨h.machine.of_same hstate hdelay, ?_⟩
  show r.wanted ||| payload.msgs = (r.mMsgEnabled ||| r.enables .enableMsgType payload p) &&&
    ~~~0 ||| (r.machine.process p .enableMsgType payload).delayedMsgs
  rw [hmsgs, h.split, and_not_of_and_eq_zero UInt32.and_zero]
  by_cases hprepare : r.machine.state = .prepareSnapshot
  · have henables : r.enables .enableMsgType payload p = 0 := by
      simp only [enables, hprepare]
    have hnone := h.machine.idle (h.machine.prepare hprepare)
    rw [henables, hnone, UInt32.or_zero, UInt32.or_zero]
    exact hc hprepare
  grind [enables]

theorem Sound.disable (h : r.Sound) (hc : Cond r (.event .disableMsgType payload p)) :
    (r.process .disableMsgType payload p).Sound := by
  have hwants : r.wants .disableMsgType payload =
      r.mMsgEnabled &&& ~~~payload.msgs ||| r.machine.delayedMsgs &&& ~~~payload.msgs := by
    show r.wanted &&& ~~~payload.msgs = _
    rw [h.split, or_and_not]
  have hparent : (r.process .disableMsgType payload p).mMsgEnabled =
      r.mMsgEnabled &&& ~~~payload.msgs := by
    show (r.mMsgEnabled ||| 0) &&& ~~~r.disables .disableMsgType payload = _
    rw [UInt32.or_zero]
    by_cases hprepare : r.machine.state = .prepareSnapshot
    · have hdisables : r.disables .disableMsgType payload = 0 := by
        simp only [disables, hprepare]
      rw [hdisables, hc.1 hprepare, and_not_of_and_eq_zero UInt32.and_zero]
    simp [disables]
  by_cases hs : r.machine.state = .previewing
  · obtain ⟨hstate, hmsgs, hidle⟩ :
        (r.machine.process p .disableMsgType payload).state = .previewing ∧ _ ∧ _ :=
      process_disable h.machine.idle hs
    refine ⟨⟨hidle, ?_, fun hprepare => ?_⟩, ?_⟩
    · show (r.machine.process p .disableMsgType payload).delayedMsgs = 0 ∨
        (r.machine.process p .disableMsgType payload).delayedMsgs = msgPreviewFrame
      rw [hmsgs]
      rcases h.machine.bit with hnone | hframe
      · exact .inl (by rw [hnone, UInt32.zero_and])
      · rw [hframe]
        exact oneBit_msgPreviewFrame _
    · exact absurd (hstate.symm.trans hprepare) nofun
    · show r.wants .disableMsgType payload = _ |||
        (r.machine.process p .disableMsgType payload).delayedMsgs
      rw [hwants, hparent, hmsgs]
  · obtain ⟨hstate, hdelay⟩ : (r.machine.process p .disableMsgType payload).state = _ ∧ _ :=
      process_command (.inr rfl) hs
    have hmsgs : (r.machine.process p .disableMsgType payload).delayedMsgs =
        r.machine.delayedMsgs := congrArg Prod.snd hdelay
    refine ⟨h.machine.of_same hstate hdelay, ?_⟩
    show r.wants .disableMsgType payload = _ |||
      (r.machine.process p .disableMsgType payload).delayedMsgs
    rw [hwants, hparent, hmsgs, and_not_of_and_eq_zero (hc.2 hs)]

theorem Sound.event (h : r.Sound) (hevt : ¬ IsMsgCommand evt) :
    (r.process evt payload p).Sound := by
  have hmoves : Moves r.machine (r.machine.process p evt payload) := h.machine.moves hevt
  refine ⟨h.machine.of_moves hmoves, ?_⟩
  have hwants : r.wants evt payload = r.wanted := by
    cases evt with
    | enableMsgType => exact absurd (.inl rfl) hevt
    | disableMsgType => exact absurd (.inr rfl) hevt
    | _ => rfl
  have hdisables : r.disables evt payload = 0 := by
    cases evt with
    | disableMsgType => exact absurd (.inr rfl) hevt
    | _ => rfl
  have henables : r.enables evt payload p =
      if (r.machine.process p evt payload).delayedMsgs = 0 then r.machine.delayedMsgs else 0 := by
    cases evt with
    | enableMsgType => exact absurd (.inl rfl) hevt
    | disableMsgType => exact absurd (.inr rfl) hevt
    | _ => rfl
  show r.wants evt payload = (r.mMsgEnabled ||| r.enables evt payload p) &&&
    ~~~r.disables evt payload ||| (r.machine.process p evt payload).delayedMsgs
  have hkept : (r.machine.process p evt payload).delayedMsgs = r.machine.delayedMsgs ∨
      (r.machine.process p evt payload).delayedMsgs = 0 := by
    rcases hmoves.delay with hsame | hbegins | happlied
    · exact .inl (congrArg Prod.snd hsame)
    · exact .inl (congrArg Prod.snd hbegins)
    · exact .inr (congrArg Prod.snd happlied)
  rw [hwants, hdisables, henables, h.split, and_not_of_and_eq_zero UInt32.and_zero]
  rcases hkept with hsame | hnone
  · simp_all
  · rw [if_pos hnone, hnone, UInt32.or_zero]

theorem Sound.next (h : r.Sound) (op : StateMachine.Op) (hc : Cond r op) : (r.next op).Sound := by
  cases op with
  | event evt payload p =>
    by_cases hevt : IsMsgCommand evt
    · rcases hevt with rfl | rfl
      · exact h.enable hc
      · exact h.disable hc
    · exact h.event hevt
  | setRetroPicture enable =>
    exact ⟨⟨h.machine.idle, h.machine.bit, h.machine.prepare⟩, h.split⟩

/-- In a run that disables delayed messages in `PREVIEWING` only and has `PREPARE_SNAPSHOT` refuse
nothing that matters, each state is transparent to the client. -/
theorem transparent_along (ops : List StateMachine.Op) (h : System.Along Cond next ops {}) :
    System.Along (fun r op => (r.next op).Transparent) next ops {} :=
  System.Along.imp (fun _ op hs hc => ⟨(hs.next op hc).transparent, hs.next op hc⟩) Sound.new h

theorem transparent_along_held : System.Along (fun r op => (r.next op).Transparent) next
    [.event .startPreview {} {}, .event .takePicture {} { zslMode := true },
      .event .snapshotDone {} {}, .event .enableMsgType { msgs := 0x13 } {},
      .event .disableMsgType { msgs := 0x10 } {}, .event .startPreview {} {}] {} :=
  transparent_along _ ⟨trivial, trivial, trivial, nofun, ⟨nofun, fun hs => absurd rfl hs⟩, trivial,
    trivial⟩

/-- The client disables the preview frames while a second picture is taken, and gets them again. -/
theorem not_transparent_along : ¬ ∀ ops : List StateMachine.Op,
    System.Along (fun r op => (r.next op).Transparent) next ops {} := by
  intro h
  have hrun := h [.event .startPreview {} {}, .event .takePicture {} { zslMode := true },
    .event .snapshotDone {} {}, .event .enableMsgType { msgs := 0x10 } {},
    .event .takePicture {} { zslMode := true }, .event .disableMsgType { msgs := 0x10 } {},
    .event .snapshotDone {} {}, .event .startPreview {} {}]
  exact absurd (hrun.2.2.2.2.2.2.2.1.done (by decide +kernel)) (by decide +kernel)

end MessageRun

end EtherDevice.Hal1.DelayedMessages
