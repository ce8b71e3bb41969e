import EtherDevice.PostProc.PicChannel

/-!
# What the steps of the post-processor do

For each function with several outcomes there is a predicate with one constructor for each
of them, and a theorem that the function has one of these outcomes.
-/

namespace EtherDevice.PostProc

open PostProcessor

variable {s : PostProcessor}

/-! ## Reprocessed frames -/

/-- The outcomes of `processPPData`: there is no job, the job is dropped, or it goes on to
the encoder. -/
inductive PPDataStep (s : PostProcessor) (frame : SuperBuf) (env : JobEnv) :
    Int × PostProcessor → Prop
  | noJob (hq : s.ongoingPPQ.dequeue.1 = none) : PPDataStep s frame env (BAD_VALUE, s)
  | dropped {job : PPJob} {rest : List PPJob} {rc : Int} (hq : s.ongoingPPQ = ⟨job :: rest, true⟩)
      (hrc : rc ≠ NO_ERROR) (hwhy : (job.srcFrame = none ∧ job.fwkSrcFrame = none) ∨
        job.jpegSettings = none ∨ env.job = false) :
      PPDataStep s frame env (rc, { s with ongoingPPQ := ⟨rest, true⟩ })
  | queued {job : PPJob} {rest : List PPJob} (hq : s.ongoingPPQ = ⟨job :: rest, true⟩)
      (hsettings : job.jpegSettings ≠ none) (hjob : env.job = true) :
      PPDataStep s frame env (NO_ERROR, { s with
        ongoingPPQ := ⟨rest, true⟩
        heap := (malloc s.heap .jpegJob).free job.ptr
        inputJpegQ :=
          (s.inputJpegQ.enqueue (jpegJobOf job frame (fresh s.heap)) env.node).2 }.sendCmd
            .doNextJob)

theorem processPPData_step (frame : SuperBuf) (env : JobEnv) :
    PPDataStep s frame env (s.processPPData frame env) := by
  unfold processPPData
  rcases s.ongoingPPQ.dequeue_cases with ⟨job, rest, hq, hdeq⟩ | ⟨hdeq, -⟩
  · rw [hdeq]
    simp only
    split
    · rename_i hsource
      exact .dropped hq (by decide) (.inl hsource)
    split
    · rename_i hsettings
      exact .dropped hq (by decide) (.inr (.inl hsettings))
    split
    · rename_i hsettings hjob
      exact .queued hq hsettings hjob
    · rename_i hjob
      exact .dropped hq (by decide) (.inr (.inr (Bool.eq_false_iff.mpr hjob)))
  · rw [hdeq]
    exact .noJob (by rw [hdeq])

/-! ## The parts of a pass -/

inductive EncodeStep (s : PostProcessor) (env : DataProcEnv) : PostProcessor → Prop
  | idle : EncodeStep s env s
  | submitted {job : JpegJob} {rest : List JpegJob} (hongoing : s.ongoingJpegQ.items = [])
      (hq : s.inputJpegQ = ⟨job :: rest, true⟩) (hok : env.encodes = true) :
      EncodeStep s env { s with
        inputJpegQ := ⟨rest, true⟩
        ongoingJpegQ := (s.ongoingJpegQ.enqueue job env.node).2 }
  | refused {job : JpegJob} {rest : List JpegJob} (hongoing : s.ongoingJpegQ.items = [])
      (hq : s.inputJpegQ = ⟨job :: rest, true⟩) (hok : env.encodes = false) :
      EncodeStep s env
        (({ s with inputJpegQ := ⟨rest, true⟩ }.releaseJpegJobData job).free job.ptr)

/-- The encoder has at most one job, so the job that it refuses is the only one that is
taken out. -/
theorem dequeueTail_of_empty {α : Type} {q : CameraQueue α} (hq : q.items = []) (data : α)
    (node : Bool) : (q.enqueue data node).2.dequeueTail.2 = q := by
  obtain ⟨items, active⟩ := q
  subst hq
  cases node <;> cases active <;> rfl

theorem encodeNext_step (env : DataProcEnv) : EncodeStep s env (s.encodeNext env) := by
  unfold encodeNext
  split
  · rename_i hempty
    have hongoing := CameraQueue.isEmpty_iff.mp hempty
    rcases s.inputJpegQ.dequeue_cases with ⟨job, rest, hq, hdeq⟩ | ⟨hdeq, -⟩
    · rw [hdeq]
      simp only
      split
      · rename_i hok
        exact .submitted hongoing hq hok
      · rename_i hok
        rw [dequeueTail_of_empty hongoing]
        exact .refused hongoing hq (Bool.eq_false_iff.mpr hok)
    · rw [hdeq]
      exact .idle
  · exact .idle

def fwkJob (s : PostProcessor) (fwkFrame : FwkInput) : PPJob where
  serial := fresh s.heap
  fwkSrcFrame := some fwkFrame
  jpegSettings := s.jpegSettingsQ.dequeue.1

inductive FwkStep (s : PostProcessor) (env : DataProcEnv) : PostProcessor → Prop
  | idle (hq : s.inputFWKPPQ.dequeue.1 = none) : FwkStep s env s
  | noMemory {fwkFrame : FwkInput} {rest : List FwkInput}
      (hq : s.inputFWKPPQ = ⟨fwkFrame :: rest, true⟩) (hjob : env.job = false) :
      FwkStep s env { s with
        inputFWKPPQ := ⟨rest, true⟩
        jpegSettingsQ := s.jpegSettingsQ.dequeue.2
        heap := s.heap.free fwkFrame.ptr }
  | noChannel {fwkFrame : FwkInput} {rest : List FwkInput}
      (hq : s.inputFWKPPQ = ⟨fwkFrame :: rest, true⟩) (hjob : env.job = true)
      (hchannel : s.reprocChannel = none) :
      FwkStep s env { s with
        inputFWKPPQ := ⟨rest, true⟩
        jpegSettingsQ := s.jpegSettingsQ.dequeue.2
        heap := ((malloc s.heap .ppJob).free (fwkJob s fwkFrame).ptr).free fwkFrame.ptr }
  | submitted {fwkFrame : FwkInput} {rest : List FwkInput} {pending : List Nat}
      (hq : s.inputFWKPPQ = ⟨fwkFrame :: rest, true⟩) (hjob : env.job = true)
      (hchannel : s.reprocChannel = some pending) (hok : env.reprocesses = true) :
      FwkStep s env { s with
        inputFWKPPQ := ⟨rest, true⟩
        jpegSettingsQ := s.jpegSettingsQ.dequeue.2
        heap := malloc s.heap .ppJob
        ongoingPPQ := (s.ongoingPPQ.enqueue (fwkJob s fwkFrame) env.node).2
        reprocChannel := some (pending ++ [fwkFrame.request]) }
  | refused {fwkFrame : FwkInput} {rest : List FwkInput} {pending : List Nat}
      (hq : s.inputFWKPPQ = ⟨fwkFrame :: rest, true⟩) (hjob : env.job = true)
      (hchannel : s.reprocChannel = some pending) (hok : env.reprocesses = false) :
      FwkStep s env { s with
        inputFWKPPQ := ⟨rest, true⟩
        jpegSettingsQ := s.jpegSettingsQ.dequeue.2
        heap := ((malloc s.heap .ppJob).free (fwkJob s fwkFrame).ptr).free fwkFrame.ptr
        ongoingPPQ := (s.ongoingPPQ.enqueue (fwkJob s fwkFrame) env.node).2.dequeueTail.2 }

theorem fwkNext_step (env : DataProcEnv) : FwkStep s env (s.fwkNext env) := by
  unfold fwkNext
  rcases s.inputFWKPPQ.dequeue_cases with ⟨fwkFrame, rest, hq, hdeq⟩ | ⟨hdeq, -⟩
  · rw [hdeq]
    cases hjob : env.job with
    | false => exact .noMemory hq hjob
    | true =>
      cases hchannel : s.reprocChannel with
      | none =>
        simp only [Option.isSome_none, Bool.false_eq_true, if_false]
        rw [← hchannel]
        exact .noChannel hq hjob hchannel
      | some pending =>
        simp only [Option.isSome_some, if_true, doReprocessOffline]
        cases hok : env.reprocesses with
        | false =>
          rw [← hchannel]
          exact .refused hq hjob hchannel hok
        | true => exact .submitted hq hjob hchannel hok
  · rw [hdeq]
    exact .idle (by rw [hdeq])

inductive StartStep (s : PostProcessor) (env : DataProcEnv) (ppJob : PPJob) (ppFrame : SuperBuf) :
    Bool × PostProcessor → Prop
  | notExtracted (hchannel : s.reprocChannel ≠ none)
      (hextract : extractFrameCropAndRotation ppJob.jpegSettings env.extracts = false) :
      StartStep s env ppJob ppFrame (false, s)
  | refused (hchannel : s.reprocChannel ≠ none)
      (hextract : extractFrameCropAndRotation ppJob.jpegSettings env.extracts = true)
      (hok : env.reprocesses = false) :
      StartStep s env ppJob ppFrame (false, { s with ongoingPPQ := s.ongoingPPQ.dequeueTail.2 })
  | submitted {pending : List Nat} (hchannel : s.reprocChannel = some pending)
      (hextract : extractFrameCropAndRotation ppJob.jpegSettings env.extracts = true)
      (hok : env.reprocesses = true) :
      StartStep s env ppJob ppFrame
        (true, { s with reprocChannel := some (pending ++ [ppFrame.request]) })
  | direct {rc : Int} {t : PostProcessor} (hchannel : s.reprocChannel = none)
      (hstep : PPDataStep s ppFrame env.jpeg (rc, t)) :
      StartStep s env ppJob ppFrame (rc = NO_ERROR, t)

theorem startCameraJob_step (env : DataProcEnv) (ppJob : PPJob) (ppFrame : SuperBuf) :
    StartStep s env ppJob ppFrame (s.startCameraJob env ppJob ppFrame) := by
  unfold startCameraJob
  cases hchannel : s.reprocChannel with
  | none => exact .direct hchannel (processPPData_step ppFrame env.jpeg)
  | some pending =>
    have hne : s.reprocChannel ≠ none := by simp [hchannel]
    simp only [Option.isSome_some, if_true, doReprocessOffline]
    cases hextract : extractFrameCropAndRotation ppJob.jpegSettings env.extracts with
    | false => exact .notExtracted hne hextract
    | true =>
      cases hok : env.reprocesses with
      | false => exact .refused hne hextract hok
      | true =>
        simp only [if_true, hchannel]
        exact .submitted hchannel hextract hok

def takeCamera (s : PostProcessor) (frames metas : List SuperBuf) : PostProcessor :=
  { s with
    inputPPQ := ⟨frames, true⟩
    inputMetaQ := ⟨metas, true⟩
    jpegSettingsQ := s.jpegSettingsQ.dequeue.2 }

def cameraJob (s : PostProcessor) (ppFrame metaBuffer : SuperBuf) : PPJob where
  serial := fresh s.heap
  srcFrame := some ppFrame
  srcMetadata := some metaBuffer
  jpegSettings := s.jpegSettingsQ.dequeue.1

def addJob (s : PostProcessor) (ppJob : PPJob) (node : Bool) : PostProcessor :=
  { s with
    heap := malloc s.heap .ppJob
    ongoingPPQ := (s.ongoingPPQ.enqueue ppJob node).2 }

theorem ongoing_addJob (hnone : s.ongoingPPQ.items = []) (hactive : s.ongoingPPQ.active = true)
    {job ppJob : PPJob} {rest : List PPJob} {node : Bool}
    (hq : (addJob s ppJob node).ongoingPPQ = ⟨job :: rest, true⟩) :
    job = ppJob ∧ (⟨rest, true⟩ : CameraQueue PPJob) = s.ongoingPPQ ∧ node = true := by
  simp only [addJob] at hq
  generalize s.ongoingPPQ = q at hnone hactive hq ⊢
  obtain ⟨items, active⟩ := q
  grind [CameraQueue.enqueue]

theorem node_of_noJob (hactive : s.ongoingPPQ.active = true) {ppJob : PPJob} {node : Bool}
    (hq : (addJob s ppJob node).ongoingPPQ.dequeue.1 = none) : node = false := by
  by_contra hnode
  simp only [addJob, CameraQueue.enqueue_ok (by simpa using hnode) hactive] at hq
  have hitems := CameraQueue.items_of_dequeue rfl hq
  simp at hitems

inductive CameraStep (s : PostProcessor) (env : DataProcEnv) : PostProcessor → Prop
  | idle (hq : s.inputPPQ.dequeue.1 = none ∨ s.inputMetaQ.dequeue.1 = none) : CameraStep s env s
  | noMemory {ppFrame metaBuffer : SuperBuf} {frames metas : List SuperBuf}
      (hframe : s.inputPPQ = ⟨ppFrame :: frames, true⟩)
      (hmeta : s.inputMetaQ = ⟨metaBuffer :: metas, true⟩) (hjob : env.job = false) :
      CameraStep s env ((takeCamera s frames metas).dropCamera none ppFrame metaBuffer)
  | started {ppFrame metaBuffer : SuperBuf} {frames metas : List SuperBuf} {t : PostProcessor}
      (hframe : s.inputPPQ = ⟨ppFrame :: frames, true⟩)
      (hmeta : s.inputMetaQ = ⟨metaBuffer :: metas, true⟩) (hjob : env.job = true)
      (hstep : StartStep (addJob (takeCamera s frames metas) (cameraJob s ppFrame metaBuffer)
        env.node) env (cameraJob s ppFrame metaBuffer) ppFrame (true, t)) :
      CameraStep s env t
  | failed {ppFrame metaBuffer : SuperBuf} {frames metas : List SuperBuf} {t : PostProcessor}
      (hframe : s.inputPPQ = ⟨ppFrame :: frames, true⟩)
      (hmeta : s.inputMetaQ = ⟨metaBuffer :: metas, true⟩) (hjob : env.job = true)
      (hstep : StartStep (addJob (takeCamera s frames metas) (cameraJob s ppFrame metaBuffer)
        env.node) env (cameraJob s ppFrame metaBuffer) ppFrame (false, t)) :
      CameraStep s env (t.dropCamera (some (cameraJob s ppFrame metaBuffer).ptr) ppFrame metaBuffer)

theorem cameraNext_step (env : DataProcEnv) : CameraStep s env (s.cameraNext env) := by
  unfold cameraNext
  split
  · rename_i hempty
    apply CameraStep.idle
    rcases Bool.or_eq_true_iff.mp hempty with h | h
    · exact .inl (by rw [CameraQueue.dequeue_none (CameraQueue.isEmpty_iff.mp h)])
    · exact .inr (by rw [CameraQueue.dequeue_none (CameraQueue.isEmpty_iff.mp h)])
  rcases s.inputPPQ.dequeue_cases with ⟨ppFrame, frames, hframe, hdeq⟩ | ⟨hdeq, -⟩
  · rcases s.inputMetaQ.dequeue_cases with ⟨metaBuffer, metas, hmeta, hdeqm⟩ | ⟨hdeqm, -⟩
    · rw [hdeq, hdeqm]
      cases hjob : env.job with
      | false => exact .noMemory hframe hmeta hjob
      | true =>
        have hstep := startCameraJob_step (s := addJob (takeCamera s frames metas)
          (cameraJob s ppFrame metaBuffer) env.node) env (cameraJob s ppFrame metaBuffer) ppFrame
        simp only [if_true]
        generalize hr : startCameraJob _ env (cameraJob s ppFrame metaBuffer) ppFrame = r at hstep
        obtain ⟨ok, t⟩ := r
        have hr' : startCameraJob { s with
            inputPPQ := ⟨frames, true⟩
            inputMetaQ := ⟨metas, true⟩
            jpegSettingsQ := s.jpegSettingsQ.dequeue.2
            heap := malloc s.heap .ppJob
            ongoingPPQ := (s.ongoingPPQ.enqueue (cameraJob s ppFrame metaBuffer) env.node).2 }
              env (cameraJob s ppFrame metaBuffer) ppFrame = (ok, t) := hr
        unfold cameraJob at hr'
        rw [hr']
        cases ok with
        | false => exact .failed hframe hmeta hjob hstep
        | true => exact .started hframe hmeta hjob hstep
    · rw [hdeq, hdeqm]
      exact .idle (.inr (by rw [hdeqm]))
  · rw [hdeq]
    exact .idle (.inl (by rw [hdeq]))

/-! ## Activity of the queues -/

def flags (s : PostProcessor) : List Bool :=
  [s.inputPPQ.active, s.inputMetaQ.active, s.inputFWKPPQ.active, s.jpegSettingsQ.active,
    s.ongoingPPQ.active, s.inputJpegQ.active, s.ongoingJpegQ.active, s.isActive]

theorem flags_processPPData (frame : SuperBuf) (env : JobEnv) :
    flags (s.processPPData frame env).2 = flags s := by
  have hstep := processPPData_step (s := s) frame env
  generalize s.processPPData frame env = r at hstep ⊢
  cases hstep with
  | noJob => rfl
  | dropped hq => simp [flags, hq]
  | queued hq => simp [flags, sendCmd, hq]

theorem flags_encodeNext (env : DataProcEnv) : flags (s.encodeNext env) = flags s := by
  have hstep := encodeNext_step (s := s) env
  generalize s.encodeNext env = t at hstep ⊢
  cases hstep with
  | idle => rfl
  | submitted _ hq => simp [flags, hq]
  | refused _ hq => simp [flags, releaseJpegJobData, sendCmd, PostProcessor.free, hq]

theorem flags_fwkNext (env : DataProcEnv) : flags (s.fwkNext env) = flags s := by
  have hstep := fwkNext_step (s := s) env
  generalize s.fwkNext env = t at hstep ⊢
  cases hstep with
  | idle => rfl
  | noMemory hq => simp [flags, hq]
  | noChannel hq => simp [flags, hq]
  | submitted hq => simp [flags, hq]
  | refused hq => simp [flags, hq]

theorem flags_start {env : DataProcEnv} {ppJob : PPJob} {ppFrame : SuperBuf}
    {r : Bool × PostProcessor} (h : StartStep s env ppJob ppFrame r) : flags r.2 = flags s := by
  cases h with
  | notExtracted => rfl
  | refused => simp [flags]
  | submitted => rfl
  | direct _ hstep =>
    cases hstep with
    | noJob => rfl
    | dropped hq => simp [flags, hq]
    | queued hq => simp [flags, sendCmd, hq]

theorem flags_addJob {ppFrame metaBuffer : SuperBuf} {frames metas : List SuperBuf} {ppJob : PPJob}
    {node : Bool} (hframe : s.inputPPQ = ⟨ppFrame :: frames, true⟩)
    (hmeta : s.inputMetaQ = ⟨metaBuffer :: metas, true⟩) :
    flags (addJob (takeCamera s frames metas) ppJob node) = flags s := by
  simp [flags, addJob, takeCamera, hframe, hmeta]

theorem flags_cameraNext (env : DataProcEnv) : flags (s.cameraNext env) = flags s := by
  have hstep := cameraNext_step (s := s) env
  generalize s.cameraNext env = t at hstep ⊢
  cases hstep with
  | idle => rfl
  | noMemory hframe hmeta => simp [flags, takeCamera, dropCamera, hframe, hmeta]
  | started hframe hmeta _ hstep => exact (flags_start hstep).trans (flags_addJob hframe hmeta)
  | failed hframe hmeta _ hstep => exact (flags_start hstep).trans (flags_addJob hframe hmeta)

/-- The queues of the jobs are active together, and while the thread is active. The
settings and the jobs of the encoder are never shut out. -/
structure Working (s : PostProcessor) : Prop where
  settings : s.jpegSettingsQ.active = true
  encoder : s.ongoingJpegQ.active = true
  jpeg : s.inputJpegQ.active = s.ongoingPPQ.active
  frames : s.inputPPQ.active = s.ongoingPPQ.active
  metas : s.inputMetaQ.active = s.ongoingPPQ.active
  fwk : s.inputFWKPPQ.active = s.ongoingPPQ.active
  active : s.isActive = true → s.ongoingPPQ.active = true
  stage : s.stage ≠ .waiting → s.isActive = true

theorem Working.congr {t : PostProcessor} (w : Working s) (hflags : flags t = flags s)
    (hstage : t.stage ≠ .waiting → s.isActive = true) : Working t := by
  simp only [flags, List.cons.injEq, and_true] at hflags
  obtain ⟨hframes, hmetas, hfwk, hsettings, hongoing, hjpeg, hencoder, hactive⟩ := hflags
  constructor
  · rw [hsettings, w.settings]
  · rw [hencoder, w.encoder]
  · rw [hjpeg, hongoing, w.jpeg]
  · rw [hframes, hongoing, w.frames]
  · rw [hmetas, hongoing, w.metas]
  · rw [hfwk, hongoing, w.fwk]
  · rw [hactive, hongoing]
    exact w.active
  · rw [hactive]
    exact hstage

/-! ## Stop -/

def freeJpegJobs (h : Heap) (jobs : List JpegJob) : Heap :=
  jobs.foldl (fun h job => (releaseJpegJob h job).free job.ptr) h

theorem releaseJpegJobs_eq (jobs : List JpegJob) : s.releaseJpegJobs jobs = { s with
    heap := freeJpegJobs s.heap jobs
    cmds := s.cmds ++ List.replicate jobs.length .doNextJob } := by
  induction jobs generalizing s with
  | nil => simp [releaseJpegJobs, freeJpegJobs]
  | cons job jobs ih =>
    simp_all [releaseJpegJobs, releaseJpegJobData, sendCmd, PostProcessor.free, freeJpegJobs,
      List.replicate_succ]

def stopHeap (s : PostProcessor) : Heap :=
  let h := freeJpegJobs s.heap s.ongoingJpegQ.items
  let h := s.ongoingPPQ.flush.1.foldl (fun h job => (releaseOngoingPP h job).free job.ptr) h
  let h := freeJpegJobs h s.inputJpegQ.flush.1
  let h := s.inputPPQ.flush.1.foldl release h
  let h := s.inputFWKPPQ.flush.1.foldl (fun h frame => h.free frame.ptr) h
  s.inputMetaQ.flush.1.foldl release h

theorem stopDataProc_eq : s.stopDataProc = { s with
    isActive := false
    ongoingJpegQ := { s.ongoingJpegQ with items := [] }
    ongoingPPQ := s.ongoingPPQ.flush.2
    inputJpegQ := s.inputJpegQ.flush.2
    inputPPQ := s.inputPPQ.flush.2
    inputFWKPPQ := s.inputFWKPPQ.flush.2
    inputMetaQ := s.inputMetaQ.flush.2
    stopped := true
    heap := stopHeap s
    cmds := s.cmds ++ List.replicate s.ongoingJpegQ.items.length .doNextJob ++
      List.replicate s.inputJpegQ.flush.1.length .doNextJob } := by
  simp only [stopDataProc, cancelOngoingJpegJobs, flushInputJpegQ, flushOngoingPPQ,
    releaseJpegJobs_eq]
  rfl

/-! ## The queues stay active together -/

variable {c : PicChannel}

theorem working_handleCmd (w : Working s) (hstage : s.stage = .waiting) (cmd : Cmd) :
    Working (s.handleCmd cmd) := by
  cases cmd with
  | startDataProc =>
    exact ⟨w.settings, w.encoder, rfl, rfl, rfl, rfl, fun _ => rfl, fun _ => rfl⟩
  | stopDataProc =>
    unfold handleCmd
    rw [stopDataProc_eq]
    constructor
    · exact w.settings
    · exact w.encoder
    · simp
    · simp
    · simp
    · simp
    · exact nofun
    simp_all
  | doNextJob =>
    simp only [handleCmd]
    split
    · rename_i hactive
      exact w.congr rfl fun _ => hactive
    · apply w.congr
      · simp [flags, discardNext]
      · intro hne
        exact absurd hstage hne

theorem working_dataProcessRoutine (w : Working s) (env : DataProcEnv) :
    Working (s.dataProcessRoutine env) := by
  unfold dataProcessRoutine
  split
  · rename_i hstage
    split
    · exact w
    · rename_i cmd cmds _
      exact working_handleCmd (s := { s with cmds := cmds }) (w.congr rfl w.stage) hstage cmd
  · rename_i hstage
    exact w.congr (flags_encodeNext env) fun _ => w.stage (by simp [hstage])
  · rename_i hstage
    exact w.congr (flags_fwkNext env) fun _ => w.stage (by simp [hstage])
  · exact w.congr (flags_cameraNext env) fun h => absurd rfl h

structure SameControl (s t : PostProcessor) : Prop where
  flags : flags t = flags s
  stage : t.stage = s.stage

theorem SameControl.of_eq {t : PostProcessor} {h : Heap} {channel : Option (List Nat)}
    (hs : SameControl { s with reprocChannel := channel, heap := h } t) : SameControl s t :=
  ⟨hs.flags, hs.stage⟩

theorem SameControl.trans {t u : PostProcessor} (h₁ : SameControl s t) (h₂ : SameControl t u) :
    SameControl s u :=
  ⟨h₂.flags.trans h₁.flags, h₂.stage.trans h₁.stage⟩

theorem Working.of_sameControl {t : PostProcessor} (w : Working s) (h : SameControl s t) :
    Working t := by
  apply w.congr h.flags
  rw [h.stage]
  exact w.stage

theorem sameControl_processData (frame : SuperBuf) (node : Bool) :
    SameControl s (s.processData frame node) := by
  simp only [processData]
  split
  · exact ⟨by simp [PostProc.flags], rfl⟩
  · exact ⟨by simp [PostProc.flags, sendCmd], rfl⟩

theorem sameControl_processPPMetadata (metadata : SuperBuf) (node : Bool) :
    SameControl s (s.processPPMetadata metadata node) := by
  simp only [processPPMetadata]
  split
  · exact ⟨by simp [PostProc.flags], rfl⟩
  · exact ⟨by simp [PostProc.flags, sendCmd], rfl⟩

theorem sameControl_processFwkData (frame : FwkInput) (env : JobEnv) :
    SameControl s (s.processFwkData frame env).2 := by
  simp only [processFwkData]
  split
  · exact ⟨by simp [PostProc.flags, sendCmd], rfl⟩
  rcases s.jpegSettingsQ.dequeue_cases with ⟨x, rest, hq, hdeq⟩ | ⟨hdeq, -⟩
  · rw [hdeq]
    simp only
    split
    · exact ⟨by simp [PostProc.flags, sendCmd, hq], rfl⟩
    · exact ⟨by simp [PostProc.flags, hq], rfl⟩
  · rw [hdeq]
    exact ⟨rfl, rfl⟩

theorem sameControl_processPPData (frame : SuperBuf) (env : JobEnv) :
    SameControl s (s.processPPData frame env).2 := by
  refine ⟨flags_processPPData frame env, ?_⟩
  have hstep := processPPData_step (s := s) frame env
  generalize s.processPPData frame env = r at hstep ⊢
  cases hstep with
  | noJob => rfl
  | dropped => rfl
  | queued => rfl

theorem sameControl_queueJpegSetting (index : Nat) (metadata : JpegMetadata) (env : JobEnv) :
    SameControl c.postprocessor (c.queueJpegSetting index metadata env).2.postprocessor := by
  simp only [PicChannel.queueJpegSetting]
  split
  · exact ⟨by simp [PostProc.flags, processJpegSettingData], rfl⟩
  · exact ⟨rfl, rfl⟩

theorem sameControl_requestInput (env : RequestEnv) :
    SameControl c.postprocessor (c.requestInput env).2.postprocessor := by
  simp only [PicChannel.requestInput]
  split
  · exact ⟨rfl, rfl⟩
  split
  · exact ⟨rfl, rfl⟩
  split
  · exact ⟨rfl, rfl⟩
  · exact .of_eq (sameControl_processFwkData _ env.job)

theorem postprocessor_requestFrame (rc : Int) :
    (c.requestFrame rc).2.postprocessor = c.postprocessor := by
  unfold PicChannel.requestFrame
  split
  · rfl
  · rfl

theorem sameControl_jpegEvtHandle (done : Bool) (jobId : Nat) :
    SameControl c.postprocessor (c.jpegEvtHandle done jobId).postprocessor := by
  simp only [PicChannel.jpegEvtHandle, findJpegJobByJobId]
  split
  · exact ⟨rfl, rfl⟩
  · rename_i job post hfind
    split at hfind
    · cases hfind
    · obtain ⟨-, rfl⟩ := Prod.mk.inj hfind
      exact ⟨by simp [PostProc.flags, releaseJpegJobData, sendCmd, PostProcessor.free], rfl⟩

theorem sameControl_exec (op : Op) (hop : ∀ env, op ≠ .dataProc env) :
    SameControl c.postprocessor (op.exec c).postprocessor := by
  cases op with
  | request r prepareRc reprocRc =>
    simp only [Op.exec, PicChannel.request, PicChannel.startPostProc, PostProcessor.start]
    split
    · exact ⟨rfl, rfl⟩
    split
    · exact ⟨rfl, rfl⟩
    split
    · split
      · split
        · exact ⟨rfl, rfl⟩
        · exact ⟨rfl, rfl⟩
      · exact ⟨rfl, rfl⟩
    · exact ⟨rfl, rfl⟩
  | finishRequest env =>
    simp only [Op.exec]
    split
    · rename_i r _
      have hsettings := sameControl_queueJpegSetting (c := c) env.index r.metadata env.settings
      simp only [PicChannel.finishRequest]
      split
      · exact hsettings.trans (sameControl_requestInput env)
      · rw [postprocessor_requestFrame]
        exact hsettings
    · exact ⟨rfl, rfl⟩
  | frame allocated node =>
    simp only [Op.exec, PicChannel.streamCbRoutine]
    split
    · exact ⟨rfl, rfl⟩
    split
    · exact .of_eq (sameControl_processData _ node)
    · exact ⟨rfl, rfl⟩
  | metadata node =>
    simp only [Op.exec, PicChannel.queueReprocMetadata]
    split
    · exact ⟨rfl, rfl⟩
    · exact .of_eq (sameControl_processPPMetadata _ node)
  | metadataLost => exact ⟨rfl, rfl⟩
  | dataProc env => exact absurd rfl (hop env)
  | reprocessed allocated env =>
    simp only [Op.exec, PicChannel.reprocCbRoutine]
    split
    · split
      · exact .of_eq (sameControl_processPPData _ env)
      · exact ⟨rfl, rfl⟩
    · exact ⟨rfl, rfl⟩
  | jpegEvent done jobId => exact sameControl_jpegEvtHandle done jobId
  | start => exact ⟨rfl, rfl⟩
  | stop =>
    simp only [Op.exec, PicChannel.stop]
    split
    · exact ⟨rfl, rfl⟩
    · exact ⟨rfl, rfl⟩
  | finishStop => exact ⟨rfl, rfl⟩

theorem working_exec (w : Working c.postprocessor) (op : Op) :
    Working (op.exec c).postprocessor := by
  by_cases hop : ∃ env, op = .dataProc env
  · obtain ⟨env, rfl⟩ := hop
    exact working_dataProcessRoutine w env
  · apply w.of_sameControl
    simp_all [sameControl_exec]

theorem working_create (needReprocess : Bool) (maxBuffers : Nat) :
    Working (PicChannel.create needReprocess maxBuffers).postprocessor :=
  ⟨rfl, rfl, rfl, rfl, rfl, rfl, nofun, fun h => absurd rfl h⟩

end EtherDevice.PostProc
