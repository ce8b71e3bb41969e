import Mathlib
import EtherDevice.PostProc.Ownership

/-!
# Every record is freed once

The conditions of the functions make a condition for each step of a run (`Op.Keeps`). In
the runs whose steps meet it, every record is held by one entry or job, or was freed once,
and every camera and metadata buffer went back to its channel when its record was freed
(`FreedOnce`).
-/

namespace EtherDevice.PostProc

open Lib PostProcessor

variable {s t : PostProcessor} {hand : List Ptr}

/-- No reprocess job with settings is under way, and no JPEG job with a snapshot buffer. -/
def StopKeeps (s : PostProcessor) : Prop :=
  (∀ job ∈ s.ongoingPPQ.items, job.jpegSettings = none) ∧
    ∀ job ∈ s.ongoingJpegQ.items ++ s.inputJpegQ.items, job.snapshot = none

theorem frees_freeJpegJobs {h : Heap} (jobs : List JpegJob) (hformed : ∀ job ∈ jobs, job.Formed)
    (hsnapshot : ∀ job ∈ jobs, job.snapshot = none) :
    Heap.Frees Lent h (freeJpegJobs h jobs) (jobs.flatMap JpegJob.refs) := by
  apply Heap.Frees.foldl
  simp_all [frees_jpegJob]

theorem frees_ppJobs {h : Heap} (jobs : List PPJob) (hformed : ∀ job ∈ jobs, job.Formed)
    (hsettings : ∀ job ∈ jobs, job.jpegSettings = none) :
    Heap.Frees Lent h (jobs.foldl (fun h job => (releaseOngoingPP h job).free job.ptr) h)
      (jobs.flatMap PPJob.refs) := by
  apply Heap.Frees.foldl
  simp_all [frees_ppJob]

theorem frees_superBufs {h : Heap} (bufs : List SuperBuf) :
    Heap.Frees Lent h (bufs.foldl release h) (bufs.map SuperBuf.ptr) := by
  rw [← List.flatMap_singleton' (bufs.map SuperBuf.ptr), List.flatMap_map]
  apply Heap.Frees.foldl
  intro b _ h
  exact frees_release

theorem frees_fwkInputs {h : Heap} (inputs : List FwkInput) :
    Heap.Frees Lent h (inputs.foldl (fun h frame => h.free frame.ptr) h)
      (inputs.map FwkInput.ptr) := by
  rw [← List.flatMap_singleton' (inputs.map FwkInput.ptr), List.flatMap_map]
  apply Heap.Frees.foldl
  intro b _ h
  exact Heap.frees_free (not_lent_fwkInput b)

theorem count_flush {α : Type} (q : CameraQueue α) (refs : List α → List Ptr)
    (happend : ∀ xs ys, refs (xs ++ ys) = refs xs ++ refs ys) (p : Ptr) :
    (refs q.items).count p = (refs q.flush.1).count p + (refs q.flush.2.items).count p := by
  rw [← List.count_append, ← happend, CameraQueue.flush_items]

theorem owned_stopDataProc (o : Owned [] s) (hkeeps : StopKeeps s) : Owned [] s.stopDataProc := by
  rw [stopDataProc_eq]
  have f := o.formed
  have hongoingJpeg : Heap.Frees Lent s.heap (freeJpegJobs s.heap s.ongoingJpegQ.items)
      (s.ongoingJpegQ.items.flatMap JpegJob.refs) :=
    frees_freeJpegJobs _ f.ongoingJobs fun job hjob => hkeeps.2 job (List.mem_append_left _ hjob)
  have hongoingPP := hongoingJpeg.trans (frees_ppJobs s.ongoingPPQ.flush.1
    (fun job hjob => f.ppJobs job (CameraQueue.mem_of_mem_flush hjob))
    fun job hjob => hkeeps.1 job (CameraQueue.mem_of_mem_flush hjob))
  have hjpeg := hongoingPP.trans (frees_freeJpegJobs s.inputJpegQ.flush.1
    (fun job hjob => f.inputJobs job (CameraQueue.mem_of_mem_flush hjob))
    fun job hjob =>
      hkeeps.2 job (List.mem_append_right _ (CameraQueue.mem_of_mem_flush hjob)))
  have hframes := hjpeg.trans (frees_superBufs s.inputPPQ.flush.1)
  have hfwk := hframes.trans (frees_fwkInputs s.inputFWKPPQ.flush.1)
  have hmetas := hfwk.trans (frees_superBufs s.inputMetaQ.flush.1)
  refine o.frees hmetas ?_ ?_
  · intro p
    have h₁ := count_flush s.ongoingPPQ (List.flatMap PPJob.refs) (by simp) p
    have h₂ := count_flush s.inputJpegQ (List.flatMap JpegJob.refs) (by simp) p
    have h₃ := count_flush s.inputPPQ (List.map SuperBuf.ptr) (by simp) p
    have h₄ := count_flush s.inputFWKPPQ (List.map FwkInput.ptr) (by simp) p
    have h₅ := count_flush s.inputMetaQ (List.map SuperBuf.ptr) (by simp) p
    simp only [count_refs, List.flatMap_nil, List.count_append, List.count_nil]
    omega
  · constructor
    · exact fun frame hmem => f.frames frame (CameraQueue.mem_of_mem_flush_items hmem)
    · exact fun m hmem => f.metas m (CameraQueue.mem_of_mem_flush_items hmem)
    · exact fun job hmem => f.ppJobs job (CameraQueue.mem_of_mem_flush_items hmem)
    · exact fun job hmem => f.inputJobs job (CameraQueue.mem_of_mem_flush_items hmem)
    · exact fun job hmem => absurd hmem List.not_mem_nil

theorem frees_elim {h : Heap} (b : Option SuperBuf) :
    Heap.Frees Lent h (b.elim h (release h)) (b.map SuperBuf.ptr).toList := by
  cases b with
  | none => exact .none
  | some b => exact frees_release

theorem owned_discardNext (o : Owned [] s) (hjobs : s.inputJpegQ.items = []) :
    Owned [] s.discardNext := by
  have hframes := frees_elim (h := s.heap) s.inputPPQ.dequeue.1
  have hmetas := hframes.trans (frees_elim s.inputMetaQ.dequeue.1)
  have hfwk := hmetas.trans (frees_free? (p := s.inputFWKPPQ.dequeue.1.map FwkInput.ptr) (by
    simp [not_lent_fwkInput]))
  simp only [discardNext, CameraQueue.dequeue_none hjobs, Option.map_none, free?]
  refine o.frees hfwk ?_ ?_
  · grind [count_dequeue, count_refs]
  · have f := o.formed
    refine { f with frames := ?_, metas := ?_ }
    · intro frame hmem
      apply f.frames
      rw [← CameraQueue.dequeue_items]
      exact List.mem_append_right _ hmem
    · intro m hmem
      apply f.metas
      rw [← CameraQueue.dequeue_items]
      exact List.mem_append_right _ hmem

def CmdKeeps (s : PostProcessor) : Cmd → Prop
  | .startDataProc => True
  | .stopDataProc => StopKeeps s
  | .doNextJob => s.isActive = false → s.inputJpegQ.items = []

def ThreadKeeps (s : PostProcessor) (env : DataProcEnv) : Prop :=
  match s.stage with
  | .waiting => ∀ cmd ∈ s.cmds.head?, CmdKeeps s cmd
  | .jpegJobs => EncodeKeeps s env
  | .fwkJobs => FwkKeeps s env
  | .cameraJobs => CameraKeeps s env

theorem owned_dataProcessRoutine {env : DataProcEnv} (o : Owned [] s) (w : Working s)
    (hkeeps : ThreadKeeps s env) : Owned [] (s.dataProcessRoutine env) := by
  unfold ThreadKeeps at hkeeps
  unfold dataProcessRoutine
  split at hkeeps
  · rename_i hstage
    simp only [hstage]
    cases hcmds : s.cmds with
    | nil => exact o
    | cons cmd cmds =>
      have hcmd := hkeeps cmd (by simp [hcmds])
      have o' : Owned [] { s with stage := .waiting, cmds := cmds } :=
        o.move rfl (fun _ => rfl) { o.formed with }
      cases cmd with
      | startDataProc => exact o'.move rfl (fun _ => rfl) { o'.formed with }
      | stopDataProc => exact owned_stopDataProc o' hcmd
      | doNextJob =>
        simp only [handleCmd]
        split
        · exact o'.move rfl (fun _ => rfl) { o'.formed with }
        · rename_i hactive
          exact owned_discardNext o' (hcmd (Bool.eq_false_iff.mpr hactive))
  · rename_i hstage
    simp only [hstage]
    have o' := owned_encodeNext o w hkeeps
    exact o'.move rfl (fun _ => rfl) { o'.formed with }
  · rename_i hstage
    simp only [hstage]
    have o' := owned_fwkNext o w hstage hkeeps
    exact o'.move rfl (fun _ => rfl) { o'.formed with }
  · rename_i hstage
    simp only [hstage]
    have o' := owned_cameraNext o w hstage hkeeps
    exact o'.move rfl (fun _ => rfl) { o'.formed with }

variable {c : PicChannel}

def InputKeeps (c : PicChannel) (env : RequestEnv) : Prop :=
  if c.postprocessor.needReprocess then
    env.job.node = true ∧ c.postprocessor.inputFWKPPQ.active = true
  else (env.settings.job = true ∨ c.postprocessor.jpegSettingsQ.items ≠ []) ∧
    env.job.job = true ∧ env.job.node = true ∧ c.postprocessor.inputJpegQ.active = true

def RequestKeeps (c : PicChannel) (r : PicRequest) (env : RequestEnv) : Prop :=
  (env.settings.job = true → env.settings.node = true) ∧
    (r.fwkInput = true → env.inputRc = NO_ERROR → env.srcFrame = true → env.fillRc = NO_ERROR →
      InputKeeps c env)

theorem owned_queueJpegSetting (o : Owned [] c.postprocessor) (w : Working c.postprocessor)
    (index : Nat) (metadata : JpegMetadata) {env : JobEnv}
    (hkeeps : env.job = true → env.node = true) :
    Owned [] (c.queueJpegSetting index metadata env).2.postprocessor := by
  simp only [PicChannel.queueJpegSetting]
  split
  · rename_i hjob
    exact owned_processJpegSettingData (c.jpegSettings index metadata)
      (o.malloc .settings) (hkeeps hjob) w.settings
  · exact o

theorem owned_requestInput {env : RequestEnv} (o : Owned [] c.postprocessor)
    (w : Working c.postprocessor)
    (hkeeps : env.inputRc = NO_ERROR → env.srcFrame = true → env.fillRc = NO_ERROR →
      FwkDataKeeps c.postprocessor env.job) :
    Owned [] (c.requestInput env).2.postprocessor := by
  have o' : Owned [FwkInput.ptr ⟨fresh c.postprocessor.heap, c.nextRequest⟩]
      { c.postprocessor with heap := malloc c.postprocessor.heap .fwkInput } := o.malloc .fwkInput
  simp only [PicChannel.requestInput]
  split
  · exact o
  rename_i hinput
  split
  · exact o
  rename_i hframe
  split
  · exact o'.free_hand (Heap.frees_free (not_lent_fwkInput _))
  · rename_i hfill
    have hdata := hkeeps (not_not.mp hinput) (by simpa using hframe) (not_not.mp hfill)
    exact owned_processFwkData o' (w.of_sameControl ⟨rfl, rfl⟩) hdata

theorem queueJpegSetting_settings (w : Working c.postprocessor) {index : Nat}
    {metadata : JpegMetadata} {env : JobEnv} (hkeeps : env.job = true → env.node = true)
    (hsome : env.job = true ∨ c.postprocessor.jpegSettingsQ.items ≠ []) :
    (c.queueJpegSetting index metadata env).2.postprocessor.jpegSettingsQ.items ≠ [] := by
  simp only [PicChannel.queueJpegSetting]
  split
  · rename_i hjob
    simp [processJpegSettingData, CameraQueue.enqueue_ok (hkeeps hjob) w.settings]
  simp_all

theorem queueJpegSetting_fields (index : Nat) (metadata : JpegMetadata) (env : JobEnv) :
    (c.queueJpegSetting index metadata env).2.postprocessor.needReprocess =
        c.postprocessor.needReprocess ∧
      (c.queueJpegSetting index metadata env).2.postprocessor.inputFWKPPQ =
        c.postprocessor.inputFWKPPQ ∧
      (c.queueJpegSetting index metadata env).2.postprocessor.inputJpegQ =
        c.postprocessor.inputJpegQ := by
  simp only [PicChannel.queueJpegSetting]
  split
  · exact ⟨rfl, rfl, rfl⟩
  · exact ⟨rfl, rfl, rfl⟩

theorem owned_finishRequest {r : PicRequest} {env : RequestEnv} (o : Owned [] c.postprocessor)
    (w : Working c.postprocessor) (hkeeps : RequestKeeps c r env) :
    Owned [] (c.finishRequest r env).2.postprocessor := by
  obtain ⟨hsettings, hinput⟩ := hkeeps
  have o' := owned_queueJpegSetting o w env.index r.metadata hsettings
  have w' := w.of_sameControl (sameControl_queueJpegSetting env.index r.metadata env.settings)
  obtain ⟨hneed, hfwk, hjpeg⟩ := queueJpegSetting_fields (c := c) env.index r.metadata env.settings
  simp only [PicChannel.finishRequest]
  split
  · rename_i hfwkInput
    apply owned_requestInput o' w'
    intro hrc hframe hfill
    have hdata := hinput hfwkInput hrc hframe hfill
    unfold InputKeeps at hdata
    unfold FwkDataKeeps
    rw [hneed, hfwk, hjpeg]
    split
    · simp_all
    simp_all [queueJpegSetting_settings]
  · rw [postprocessor_requestFrame]
    exact o'

theorem owned_jpegEvtHandle (o : Owned [] c.postprocessor) (done : Bool) (jobId : Nat) :
    Owned [] (c.jpegEvtHandle done jobId).postprocessor := by
  simp only [PicChannel.jpegEvtHandle, findJpegJobByJobId]
  split
  · exact o
  · rename_i job post hfind
    split at hfind
    · cases hfind
    · rcases c.postprocessor.ongoingJpegQ.dequeue_cases with ⟨job', rest, hq, hdeq⟩ | ⟨hdeq, -⟩
      · rw [hdeq] at hfind
        obtain ⟨hjob, rfl⟩ := Prod.mk.inj hfind
        obtain rfl : job' = job := Option.some.inj hjob
        have hformed : job'.Formed := o.formed.ongoingJobs job' (by simp [hq])
        have hrest : WellFormed { c.postprocessor with ongoingJpegQ := ⟨rest, true⟩ } := by
          refine { o.formed with ongoingJobs := ?_ }
          intro job hmem
          exact o.formed.ongoingJobs job (by simp only [hq]; exact List.mem_cons_of_mem _ hmem)
        cases hsnapshot : job'.snapshot with
        | none =>
          refine o.frees (frees_jpegJob hformed hsnapshot) ?_ { hrest with }
          grind [releaseJpegJobData, PostProcessor.sendCmd, PostProcessor.free, count_refs]
        | some frame =>
          refine o.frees (frees_finished hformed hsnapshot) ?_ { hrest with }
          grind [releaseJpegJobData, PostProcessor.sendCmd, PostProcessor.free, count_refs]
      simp_all

/-- When `doReprocessOffline` or `extractFrameCropAndRotation` fails, the jobs that were in
`m_ongoingPPQ` before stay there: the job that is taken out is the one just added. -/
structure RefusedLeave (s : PostProcessor) (env : DataProcEnv) : Prop where
  fwk : s.stage = .fwkJobs → env.reprocesses = false →
    (s.dataProcessRoutine env).ongoingPPQ = s.ongoingPPQ
  camera : s.stage = .cameraJobs → s.reprocChannel ≠ none →
    env.extracts = false ∨ env.reprocesses = false →
      (s.dataProcessRoutine env).ongoingPPQ = s.ongoingPPQ

theorem fwkNext_refused {env : DataProcEnv} (w : Working s) (hstage : s.stage = .fwkJobs)
    (hkeeps : FwkKeeps s env) (hok : env.reprocesses = false) :
    (s.fwkNext env).ongoingPPQ = s.ongoingPPQ := by
  have hongoing : s.ongoingPPQ.active = true := w.active (w.stage (by simp [hstage]))
  have hstep := fwkNext_step (s := s) env
  generalize s.fwkNext env = t at hstep ⊢
  cases hstep with
  | idle => rfl
  | noMemory => rfl
  | noChannel => rfl
  | submitted _ _ _ h =>
    rw [hok] at h
    cases h
  | @refused fwkFrame rest pending hq hjob hchannel _ =>
    have hkept := hkeeps (by simp [hq])
    rw [if_pos ⟨hjob, by simp [hchannel]⟩, if_neg (by simp [hok])] at hkept
    rcases hkept.2 with hnode | hnone
    · exact congrArg Prod.snd (CameraQueue.dequeueTail_enqueue hnode hongoing)
    · exact dequeueTail_of_empty hnone _ _

theorem cameraNext_refused {env : DataProcEnv} (w : Working s) (hkeeps : CameraKeeps s env)
    (hchannel : s.reprocChannel ≠ none) (hfail : env.extracts = false ∨ env.reprocesses = false) :
    (s.cameraNext env).ongoingPPQ = s.ongoingPPQ := by
  have hstep := cameraNext_step (s := s) env
  generalize s.cameraNext env = t at hstep ⊢
  cases hstep with
  | idle => rfl
  | noMemory => rfl
  | @started ppFrame metaBuffer frames metas t hframe hmeta hjob hstep =>
    generalize hr : (true, t) = r at hstep
    cases hstep with
    | notExtracted => cases hr
    | refused => cases hr
    | submitted _ hextract hok =>
      have hextracts := extract_true hextract
      simp_all
    | direct hnone => exact absurd hnone hchannel
  | @failed ppFrame metaBuffer frames metas t hframe hmeta hjob hstep =>
    have hkept := hkeeps (by simp [hframe]) (by simp [hmeta])
    rw [if_pos hjob, if_pos hchannel] at hkept
    generalize hr : (false, t) = r at hstep
    cases hstep with
    | notExtracted _ hextract =>
      cases hr
      rw [if_neg (extract_false hextract w.settings)] at hkept
      simp [dropCamera, addJob, takeCamera, hkept.2, CameraQueue.enqueue]
    | refused _ hextract hok =>
      rw [if_pos (extract_true hextract), hok] at hkept
      cases hkept.1
    | submitted => cases hr
    | direct hnone => exact absurd hnone hchannel

theorem refusedLeave {env : DataProcEnv} (w : Working s) (hkeeps : ThreadKeeps s env) :
    RefusedLeave s env := by
  unfold ThreadKeeps at hkeeps
  constructor
  · intro hstage hok
    simp_all [dataProcessRoutine, fwkNext_refused]
  grind [dataProcessRoutine, cameraNext_refused]

def Op.Keeps (c : PicChannel) : Op → Prop
  | .finishRequest env =>
    match c.call with
    | .requesting r => RequestKeeps c r env
    | _ => True
  | .frame allocated node => c.awaitingFrame ≠ [] → allocated = true →
      node = true ∧ c.postprocessor.inputPPQ.active = true
  | .metadata node => c.awaitingMeta ≠ [] →
      node = true ∧ c.postprocessor.inputMetaQ.active = true
  | .dataProc env => ThreadKeeps c.postprocessor env
  | .reprocessed allocated env => c.postprocessor.reprocChannel.getD [] ≠ [] → allocated = true →
      CompletionKeeps c.postprocessor env
  | _ => True

/-- The runs in which no step loses a record. -/
def freeingSystem (needReprocess : Bool) (maxBuffers : Nat) : System PicChannel Op :=
  (picChannelSystem needReprocess maxBuffers).restrict fun c op => op.Keeps c

/-- Every record that was made is referenced by one entry or job, or was freed once; none
is referenced after it was freed; camera and metadata buffers were given back when their
records were freed. -/
structure FreedOnce (s : PostProcessor) : Prop where
  oneOwner : ∀ p ∈ s.heap.made, s.refs.count p + s.heap.freed.count p = 1
  noDangling : ∀ p ∈ s.refs, p ∈ s.heap.made ∧ p ∉ s.heap.freed
  givenBack : ∀ p, p.kind.isBuffer = true → s.heap.returned.count p = s.heap.freed.count p

theorem Owned.freedOnce (o : Owned [] s) : FreedOnce s where
  oneOwner _ hp := o.balanced.once hp
  noDangling _ hp := o.balanced.of_held hp
  givenBack p hp := o.balanced.returned p hp

theorem owned_create (needReprocess : Bool) (maxBuffers : Nat) :
    Owned [] (PicChannel.create needReprocess maxBuffers).postprocessor where
  numbered := by simp [PicChannel.create]
  balanced := by
    exact Heap.Balanced.empty
  formed := by constructor <;> simp [PicChannel.create]

theorem owned_exec {op : Op} (o : Owned [] c.postprocessor) (w : Working c.postprocessor)
    (hkeeps : op.Keeps c) : Owned [] (op.exec c).postprocessor := by
  cases op with
  | request r prepareRc reprocRc =>
    simp only [Op.exec, PicChannel.request, PicChannel.startPostProc, PostProcessor.start]
    split
    · exact o
    split
    · exact o
    split
    · split
      · split
        · exact o.move rfl (fun _ => rfl) { o.formed with }
        · exact o.move rfl (fun _ => rfl) { o.formed with }
      · exact o.sendCmd _ _
    · exact o
  | finishRequest env =>
    grind [Op.Keeps, Op.exec, owned_finishRequest]
  | frame allocated node =>
    simp only [Op.exec, PicChannel.streamCbRoutine]
    split
    · exact o
    rename_i request bufIdx rest hawaiting
    split
    · rename_i hallocated
      obtain ⟨hnode, hactive⟩ := hkeeps (by simp [hawaiting]) hallocated
      exact owned_processData ⟨fresh c.postprocessor.heap, .snapshot, request, bufIdx⟩
        (o.malloc (.superBuf .snapshot)) rfl hnode hactive
    · exact o
  | metadata node =>
    simp only [Op.exec, PicChannel.queueReprocMetadata]
    split
    · exact o
    · rename_i request rest hawaiting
      obtain ⟨hnode, hactive⟩ := hkeeps (by simp [hawaiting])
      exact owned_processPPMetadata ⟨fresh c.postprocessor.heap, .metadata, request, 0⟩
        (o.malloc (.superBuf .metadata)) rfl hnode hactive
  | metadataLost => exact o
  | dataProc env => exact owned_dataProcessRoutine o w hkeeps
  | reprocessed allocated env =>
    simp only [Op.exec, PicChannel.reprocCbRoutine]
    split
    · rename_i request rest hchannel
      have o' : Owned [] { c.postprocessor with reprocChannel := some rest } :=
        o.move rfl (fun _ => rfl) { o.formed with }
      split
      · rename_i hallocated
        have hcompletion := hkeeps (by simp [hchannel]) hallocated
        exact owned_processPPData ⟨fresh c.postprocessor.heap, .reprocess, request, 0⟩
          (o'.malloc (.superBuf .reprocess)) (w.of_sameControl ⟨rfl, rfl⟩) rfl hcompletion
      · exact o'
    · exact o
  | jpegEvent done jobId => exact owned_jpegEvtHandle o done jobId
  | start => exact o
  | stop =>
    simp only [Op.exec, PicChannel.stop]
    split
    · exact o.sendCmd _ _
    · exact o
  | finishStop => exact o.move rfl (fun _ => rfl) { o.formed with }

theorem owned_invariant (needReprocess : Bool) (maxBuffers : Nat) :
    (freeingSystem needReprocess maxBuffers).Invariant fun c =>
      Owned [] c.postprocessor ∧ Working c.postprocessor := by
  apply System.Invariant.of_restrict
  · rintro c rfl
    exact ⟨owned_create needReprocess maxBuffers, working_create needReprocess maxBuffers⟩
  · rintro c op c' ⟨o, w⟩ hkeeps ⟨-, rfl⟩
    exact ⟨owned_exec o w hkeeps, working_exec w op⟩

/-- In the runs in which no step loses a record, every record is freed once. -/
theorem freedOnce_of_reachable {needReprocess : Bool} {maxBuffers : Nat}
    (hc : (freeingSystem needReprocess maxBuffers).Reachable c) :
    FreedOnce c.postprocessor ∧
      ∀ env, Op.Keeps c (.dataProc env) → RefusedLeave c.postprocessor env := by
  obtain ⟨o, w⟩ := (owned_invariant needReprocess maxBuffers).reachable hc
  exact ⟨o.freedOnce, fun env hkeeps => refusedLeave w hkeeps⟩

instance (c : PicChannel) (env : RequestEnv) : Decidable (InputKeeps c env) :=
  inferInstanceAs (Decidable (ite _ _ _))

instance (c : PicChannel) (r : PicRequest) (env : RequestEnv) : Decidable (RequestKeeps c r env) :=
  inferInstanceAs (Decidable (_ ∧ _))

instance (s : PostProcessor) (env : JobEnv) : Decidable (CompletionKeeps s env) :=
  inferInstanceAs (Decidable (_ ∧ _ ∧ _ ∧ _))

instance (s : PostProcessor) (env : DataProcEnv) : Decidable (EncodeKeeps s env) :=
  inferInstanceAs (Decidable (_ → _))

instance (s : PostProcessor) (env : DataProcEnv) : Decidable (FwkKeeps s env) :=
  inferInstanceAs (Decidable (_ → _))

instance (s : PostProcessor) (env : DataProcEnv) : Decidable (CameraKeeps s env) :=
  inferInstanceAs (Decidable (_ → _ → _))

instance (s : PostProcessor) : Decidable (StopKeeps s) := inferInstanceAs (Decidable (_ ∧ _))

instance (s : PostProcessor) : (cmd : Cmd) → Decidable (CmdKeeps s cmd)
  | .startDataProc => .isTrue trivial
  | .stopDataProc => inferInstanceAs (Decidable (StopKeeps s))
  | .doNextJob => inferInstanceAs (Decidable (_ → _))

instance (s : PostProcessor) (env : DataProcEnv) : Decidable (ThreadKeeps s env) :=
  match h : s.stage with
  | .waiting => decidable_of_iff (∀ cmd ∈ s.cmds.head?, CmdKeeps s cmd) (by simp [ThreadKeeps, h])
  | .jpegJobs => decidable_of_iff (EncodeKeeps s env) (by simp [ThreadKeeps, h])
  | .fwkJobs => decidable_of_iff (FwkKeeps s env) (by simp [ThreadKeeps, h])
  | .cameraJobs => decidable_of_iff (CameraKeeps s env) (by simp [ThreadKeeps, h])

instance (c : PicChannel) (op : Op) : Decidable (op.Keeps c) :=
  match op with
  | .finishRequest env =>
    match h : c.call with
    | .requesting r => decidable_of_iff (RequestKeeps c r env) (by simp [Op.Keeps, h])
    | .idle => .isTrue (by simp [Op.Keeps, h])
    | .stopping => .isTrue (by simp [Op.Keeps, h])
  | .frame _ _ => inferInstanceAs (Decidable (_ → _ → _))
  | .metadata _ => inferInstanceAs (Decidable (_ → _))
  | .dataProc env => inferInstanceAs (Decidable (ThreadKeeps c.postprocessor env))
  | .reprocessed _ env => inferInstanceAs (Decidable (_ → _ → CompletionKeeps c.postprocessor env))
  | .request .. | .metadataLost | .jpegEvent .. | .start | .stop | .finishStop => .isTrue trivial

def captureSteps (env : DataProcEnv) : List Op :=
  [.request ⟨false, {}⟩ 0 0, .finishRequest {}, .dataProc {}, .frame true true, .metadata true,
    .dataProc {}, .dataProc {}, .dataProc {}, .dataProc env]

def captured : Option PicChannel :=
  System.follow (fun c op => op.Keeps c ∧ op.Enabled c) Op.exec
    (captureSteps {} ++ [.reprocessed true {}, .dataProc {}, .dataProc {}, .dataProc {},
      .dataProc {}, .jpegEvent true 1]) (.create true 3)

theorem freedOnce_of_reachable_capture :
    ∃ c, captured = some c ∧
      (c.postprocessor.heap.made.length = 6 ∧ c.postprocessor.heap.freed.length = 6) ∧
        FreedOnce c.postprocessor := by
  have hrun : captured.any (fun c =>
      c.postprocessor.heap.made.length = 6 ∧ c.postprocessor.heap.freed.length = 6) =
        true := by decide +kernel
  obtain ⟨c, hc, hfreed⟩ := (Option.any_eq_true _ _).mp hrun
  have hreach : (freeingSystem true 3).Reachable c := System.reachable_follow _ (.init rfl) hc
  exact ⟨c, hc, of_decide_eq_true hfreed, (freedOnce_of_reachable hreach).1⟩

/-- If `extractFrameCropAndRotation` fails, the job is freed and stays in `m_ongoingPPQ`. -/
theorem not_freedOnce : ∃ c, (picChannelSystem true 3).Reachable c ∧
    ¬ FreedOnce c.postprocessor := by
  have hrun : (System.follow (fun c op => True ∧ op.Enabled c) Op.exec
      (captureSteps { extracts := false }) (.create true 3)).any (fun c =>
        ∃ p ∈ c.postprocessor.refs, p ∈ c.postprocessor.heap.freed) = true := by decide +kernel
  obtain ⟨c, hc, hdangling⟩ := (Option.any_eq_true _ _).mp hrun
  have hreach : ((picChannelSystem true 3).restrict fun _ _ => True).Reachable c :=
    System.reachable_follow _ (.init rfl) hc
  refine ⟨c, hreach.of_restrict, ?_⟩
  intro h
  obtain ⟨p, hp, hfreed⟩ := of_decide_eq_true hdangling
  exact (h.noDangling p hp).2 hfreed

end EtherDevice.PostProc
