import EtherDevice.Hal1.StateMachine
import EtherDevice.Lib.Transition

/-!
# The state and the preview

Most states say whether the preview runs. Every handler that restarts the preview moves to a
stopped state if that fails, except for `SEND_COMMAND` in `PREVIEWING`. The handlers that leave
`PIC_TAKING` choose the next state from the event or from a flag, whereas
`STOP_CAPTURE_CHANNEL` may have restarted the preview before, or failed to.
-/

namespace EtherDevice.Hal1

open Lib

namespace StateMachine

variable {s : StateMachine} {p : Parent} {evt : SmEvt} {payload : Payload}

/-- The preview a state stands for. `PIC_TAKING` says nothing. -/
def claimed : SmState → Option Preview
  | .previewStopped => some .stopped
  | .previewReady => some .prepared
  | .picTaking => none
  | .previewing | .prepareSnapshot | .recording | .videoPicTaking | .previewPicTaking =>
    some .started

def Truthful (s : StateMachine) : Prop := ∀ preview ∈ claimed s.state, s.preview = preview

/-- Where the state is chosen without a look at the preview, it fits by luck. -/
def Fits (s : StateMachine) (p : Parent) (evt : SmEvt) (payload : Payload) : Prop :=
  (s.state = .previewing → evt = .sendCommand → payload.cmd = .longshotOn →
      p.restartPreview = true →
      p.rc .preparePreview = noError ∧ p.rc .startPreview = noError) ∧
    (s.state = .picTaking →
      (evt = .sendCommand → payload.cmd = .longshotOff → s.preview = .started) ∧
        (evt = .stopPreview ∨ evt = .cancelPicture → s.preview = .stopped) ∧
        (evt = .snapshotDone →
          s.preview = if p.previewRestartEnabled then .started else .stopped))

instance : Decidable (s.Fits p evt payload) := by
  unfold Fits
  infer_instance

theorem Truthful.same {s' : StateMachine} (h : s.Truthful) (hstate : s'.state = s.state)
    (hpreview : s'.preview = s.preview) : s'.Truthful := by
  simp_all [Truthful]

theorem truthful_of (hpreview : claimed s.state = some s.preview) : s.Truthful := by
  intro preview hclaimed
  exact Option.some.inj (hpreview.symm.trans hclaimed)

theorem truthful_previewStopped (hs : s.state = .previewStopped) (h : s.Truthful) :
    (s.procEvtPreviewStoppedState p evt).Truthful := by
  have hpreview : s.preview = .stopped := h _ (by simp [claimed, hs])
  cases evt with
  | startPreview | startNodisplayPreview =>
    unfold procEvtPreviewStoppedState prepareAndStart
    split_ifs <;> refine truthful_of ?_ <;> simp_all [claimed]
  | _ => exact h.same rfl rfl

theorem truthful_previewReady (hs : s.state = .previewReady) (h : s.Truthful) :
    (s.procEvtPreviewReadyState p evt).Truthful := by
  have hpreview : s.preview = .prepared := h _ (by simp [claimed, hs])
  cases evt with
  | setPreviewWindow | setParams =>
    unfold procEvtPreviewReadyState
    split_ifs <;> refine truthful_of ?_ <;> simp_all [claimed]
  | stopPreview => exact truthful_of rfl
  | _ => exact h.same rfl rfl

theorem truthful_previewing (hs : s.state = .previewing) (h : s.Truthful)
    (hcommand : evt ≠ .sendCommand) : (s.procEvtPreviewingState p evt payload).Truthful := by
  have hpreview : s.preview = .started := h _ (by simp [claimed, hs])
  cases evt with
  | sendCommand => exact absurd rfl hcommand
  | setParams =>
    unfold procEvtPreviewingState prepareAndStart
    dsimp only
    split_ifs <;> refine truthful_of ?_ <;> simp_all [claimed]
  | enableMsgType | disableMsgType | msgTypeEnabled =>
    unfold procEvtPreviewingState
    dsimp only
    split_ifs <;> exact h.same rfl rfl
  | startRecording | prepareSnapshot =>
    unfold procEvtPreviewingState
    dsimp only
    split_ifs <;> refine truthful_of ?_ <;> simp [claimed, hs, hpreview]
  | takePicture =>
    have htaking : (s.stopPreview.goto .picTaking).Truthful := by simp [Truthful, claimed]
    unfold procEvtPreviewingState
    dsimp only
    split_ifs
    all_goals first
      | exact htaking
      | exact truthful_of (by simp [claimed, hpreview])
  | stopPreview => exact truthful_of (by simp [procEvtPreviewingState, claimed])
  | startPreview | startNodisplayPreview | previewEnabled =>
    exact h.same state_applyDelayedMsgs preview_applyDelayedMsgs
  | _ => exact h.same rfl rfl

theorem truthful_previewing_sendCommand (hs : s.state = .previewing) (h : s.Truthful) :
    (s.procEvtPreviewingState p .sendCommand payload).Truthful ↔
      s.Fits p .sendCommand payload := by
  have hfits : s.Fits p .sendCommand payload ↔
      (payload.cmd = .longshotOn ∧ p.restartPreview = true →
        p.rc .preparePreview = noError ∧ p.rc .startPreview = noError) := by
    simp [Fits, hs]
  rw [hfits]
  unfold procEvtPreviewingState
  dsimp only
  split_ifs with hrestart
  · rw [Truthful, state_answer, state_prepareAndStart, state_stopPreview, hs]
    rcases prepareAndStart_cases (s := s.stopPreview) (p := p) with
      ⟨-, hprepare, hstart, hpreview⟩ | ⟨-, hfailed, hpreview⟩
    · simp [claimed, hpreview, hprepare, hstart]
    simp_all [claimed]
  · exact iff_of_true (h.same rfl rfl) fun h => absurd h hrestart

theorem truthful_prepareSnapshot (hs : s.state = .prepareSnapshot) (h : s.Truthful) :
    (s.procEvtPrepareSnapshotState evt payload).Truthful := by
  have hpreview : s.preview = .started := h _ (by simp [claimed, hs])
  cases evt with
  | evtInternal =>
    unfold procEvtPrepareSnapshotState
    dsimp only
    split
    · exact truthful_of (by simp [claimed, hpreview])
    · exact h
  | _ => exact h.same rfl rfl

theorem truthful_picTaking (hs : s.state = .picTaking) :
    (s.procEvtPicTakingState p evt payload).Truthful ↔ s.Fits p evt payload := by
  have hstays {s' : StateMachine} (hstate : s'.state = .picTaking) : s'.Truthful := by
    simp [Truthful, hstate, claimed]
  cases evt with
  | sendCommand =>
    unfold procEvtPicTakingState
    dsimp only
    split_ifs with hoff
    · simp [Truthful, Fits, hs, hoff, claimed]
    · exact iff_of_true (hstays hs) (by simp [Fits, hs, hoff])
  | stopPreview | cancelPicture =>
    simp [procEvtPicTakingState, Truthful, Fits, hs, claimed]
  | snapshotDone =>
    unfold procEvtPicTakingState
    dsimp only
    split_ifs with hrestart
    · simp [Truthful, Fits, hs, hrestart, claimed]
    · simp [Truthful, Fits, hs, hrestart, claimed]
  | takePicture =>
    unfold procEvtPicTakingState
    split_ifs <;> exact iff_of_true (hstays hs) (by simp [Fits, hs])
  | evtNotify =>
    refine iff_of_true (hstays ?_) (by simp [Fits, hs])
    unfold procEvtPicTakingState
    dsimp only
    split <;> exact hs
  | stopCaptureChannel =>
    refine iff_of_true (hstays ?_) (by simp [Fits, hs])
    unfold procEvtPicTakingState
    split_ifs <;> simp [hs]
  | _ => exact iff_of_true (hstays hs) (by simp [Fits, hs])

theorem truthful_recording (hs : s.state = .recording) (h : s.Truthful) :
    (s.procEvtRecordingState p evt).Truthful := by
  have hpreview : s.preview = .started := h _ (by simp [claimed, hs])
  cases evt with
  | setParams =>
    unfold procEvtRecordingState
    split_ifs <;> exact h.same rfl rfl
  | takePicture =>
    unfold procEvtRecordingState
    split_ifs <;> exact truthful_of (by simp [claimed, hpreview])
  | stopRecording | stopPreview =>
    exact truthful_of (by simp [procEvtRecordingState, claimed, hpreview])
  | _ => exact h.same rfl rfl

theorem truthful_videoPicTaking (hs : s.state = .videoPicTaking) (h : s.Truthful) :
    (s.procEvtVideoPicTakingState p evt).Truthful := by
  have hpreview : s.preview = .started := h _ (by simp [claimed, hs])
  cases evt with
  | setParams =>
    unfold procEvtVideoPicTakingState
    split_ifs <;> exact h.same rfl rfl
  | stopRecording | cancelPicture | stopPreview | snapshotDone =>
    exact truthful_of (by simp [procEvtVideoPicTakingState, claimed, hpreview])
  | _ => exact h.same rfl rfl

theorem truthful_previewPicTaking (hs : s.state = .previewPicTaking) (h : s.Truthful) :
    (s.procEvtPreviewPicTakingState p evt payload).Truthful := by
  have hpreview : s.preview = .started := h _ (by simp [claimed, hs])
  cases evt with
  | setParams =>
    unfold procEvtPreviewPicTakingState
    dsimp only
    split_ifs with hupdate hrestart hrc
    · -- a preview that does not start again leaves for `PIC_TAKING`
      rcases prepareAndStart_cases (s := s.stopPreview) (p := p) with
        ⟨-, -, -, hstarted⟩ | ⟨hfailed, -, -⟩
      · exact truthful_of (by simp [claimed, hs, hstarted])
      · exact absurd hrc hfailed
    · simp [Truthful, claimed]
    · exact h.same rfl rfl
    · exact h.same rfl rfl
  | sendCommand =>
    unfold procEvtPreviewPicTakingState
    dsimp only
    split_ifs
    · exact truthful_of (by simp [claimed, hpreview])
    · exact h.same rfl rfl
  | cancelPicture | stopPreview =>
    exact truthful_of (by simp [procEvtPreviewPicTakingState, claimed, hpreview])
  | startRecording =>
    unfold procEvtPreviewPicTakingState
    dsimp only
    split_ifs
    · exact h.same rfl rfl
    · exact truthful_of (by simp [claimed, hpreview])
    · exact h.same rfl rfl
  | takePicture | prepareSnapshot =>
    unfold procEvtPreviewPicTakingState
    split_ifs <;> exact h.same rfl rfl
  | evtInternal =>
    unfold procEvtPreviewPicTakingState
    dsimp only
    split
    · split_ifs <;> exact h.same rfl rfl
    · split_ifs <;> exact h.same rfl rfl
    · exact h
  | snapshotDone =>
    unfold procEvtPreviewPicTakingState
    dsimp only
    split_ifs <;> exact truthful_of (by simp [claimed, hpreview])
  | _ => exact h.same rfl rfl

theorem truthful_process (h : s.Truthful) :
    (s.process p evt payload).Truthful ↔ s.Fits p evt payload := by
  have h : s.cleared.Truthful := h
  change (s.cleared.stateMachine p evt payload).Truthful ↔ s.cleared.Fits p evt payload
  generalize s.cleared = s at h ⊢
  have hfits (hpreviewing : s.state ≠ .previewing) (hpicTaking : s.state ≠ .picTaking) :
      s.Fits p evt payload :=
    ⟨fun hs => absurd hs hpreviewing, fun hs => absurd hs hpicTaking⟩
  unfold stateMachine
  cases hs : s.state with
  | previewStopped =>
    exact iff_of_true (truthful_previewStopped hs h) (hfits (by simp [hs]) (by simp [hs]))
  | previewReady =>
    exact iff_of_true (truthful_previewReady hs h) (hfits (by simp [hs]) (by simp [hs]))
  | previewing =>
    by_cases hcommand : evt = .sendCommand
    · subst hcommand
      exact truthful_previewing_sendCommand hs h
    · refine iff_of_true (truthful_previewing hs h hcommand) ⟨?_, by simp [hs]⟩
      exact fun _ heq => absurd heq hcommand
  | prepareSnapshot =>
    exact iff_of_true (truthful_prepareSnapshot hs h) (hfits (by simp [hs]) (by simp [hs]))
  | picTaking => exact truthful_picTaking hs
  | recording =>
    exact iff_of_true (truthful_recording hs h) (hfits (by simp [hs]) (by simp [hs]))
  | videoPicTaking =>
    exact iff_of_true (truthful_videoPicTaking hs h) (hfits (by simp [hs]) (by simp [hs]))
  | previewPicTaking =>
    exact iff_of_true (truthful_previewPicTaking hs h) (hfits (by simp [hs]) (by simp [hs]))

/-- One event with its payload and the answers of the parent, or a new value of the parent's
flag. -/
inductive Op
  | event (evt : SmEvt) (payload : Payload) (p : Parent)
  | setRetroPicture (enable : Bool)

def next (s : StateMachine) : Op → StateMachine
  | .event evt payload p => s.process p evt payload
  | .setRetroPicture enable => { s with bRetroPicture := enable }

def system : System StateMachine Op := .ofFunction (· = {}) (fun _ _ => True) next

def Ok (s : StateMachine) : Op → Prop
  | .event evt payload p => s.Fits p evt payload
  | .setRetroPicture _ => True

instance (s : StateMachine) (op : Op) : Decidable (Ok s op) := by
  cases op <;> (unfold Ok; infer_instance)

theorem truthful_next (h : s.Truthful) (op : Op) : (s.next op).Truthful ↔ Ok s op := by
  cases op with
  | event evt payload p => exact truthful_process h
  | setRetroPicture enable => exact iff_of_true h trivial

theorem truthful_invariant : (system.restrict Ok).Invariant Truthful := by
  refine .of_restrict ?_ ?_
  · rintro s rfl
    exact truthful_of rfl
  · rintro s op s' h hok ⟨-, rfl⟩
    exact (truthful_next h op).mpr hok

/-- As long as every event fits, the state tells the truth about the preview. The first one that
does not is where that ends. -/
theorem truthful_of_reachable (hs : (system.restrict Ok).Reachable s) :
    s.Truthful ∧ ∀ op, (s.next op).Truthful ↔ Ok s op := by
  have h := truthful_invariant.reachable hs
  exact ⟨h, fun op => truthful_next h op⟩

/-- The preview is started, and the longshot command restarts it. -/
theorem truthful_longshot : ∃ s : StateMachine, s.state = .previewing ∧ s.Truthful ∧
    ¬ (s.next (.event .sendCommand { cmd := .longshotOn }
      { restartPreview := true, rc := fun _ => badValue })).Truthful := by
  have hrun : (System.follow (fun s op => Ok s op ∧ True) next
      [.event .startPreview {} {},
        .event .sendCommand { cmd := .longshotOn } { restartPreview := true }] {}).any
      (fun s => s.state = .previewing ∧ ¬ Ok s (.event .sendCommand { cmd := .longshotOn }
        { restartPreview := true, rc := fun _ => badValue })) = true := by
    decide +kernel
  obtain ⟨s, hs, hend⟩ := (Option.any_eq_true _ _).mp hrun
  obtain ⟨hstate, hok⟩ := of_decide_eq_true hend
  have hinit : (system.restrict Ok).Reachable ({} : StateMachine) := .init rfl
  obtain ⟨h, hnext⟩ := truthful_of_reachable (System.reachable_follow _ hinit hs)
  exact ⟨s, hstate, h, fun hbad => hok ((hnext _).mp hbad)⟩

/-- The restart of the longshot command fails after the preview was stopped. -/
theorem not_truthful_longshot : ¬ ∀ s, system.Reachable s → s.Truthful := by
  intro hall
  have hrun : (System.follow (fun _ _ => True ∧ True) next
      [.event .startPreview {} {}, .event .sendCommand { cmd := .longshotOn }
        { restartPreview := true, rc := fun op =>
          if op = .preparePreview then badValue else noError }] {}).any
      (fun s => s.state = .previewing ∧ s.preview = .stopped) = true := by
    decide +kernel
  obtain ⟨s, hs, hend⟩ := (Option.any_eq_true _ _).mp hrun
  obtain ⟨hstate, hpreview⟩ := of_decide_eq_true hend
  have hinit : (system.restrict fun _ _ => True).Reachable ({} : StateMachine) := .init rfl
  have htruthful := hall s (System.reachable_follow _ hinit hs).of_restrict
  cases hpreview.symm.trans (htruthful .started (by rw [hstate]; rfl))

end StateMachine

end EtherDevice.Hal1
