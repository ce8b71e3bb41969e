import Mathlib
import EtherDevice.PostProc.Pairing

/-!
# JPEG jobs keep their settings

In the runs whose steps meet `Op.InStep`, every job has the settings of the request that
its frame, metadata or input buffer belongs to, and so has every image that is handed to
the framework (`JobsKeepSettings`).
-/

namespace EtherDevice.PostProc

open Lib PostProcessor

variable {s t u : PostProcessor} {frames metas : List Nat}

/-! ## Reprocessed frames -/

theorem PostPaired.complete (p : PostPaired s frames metas) {r : Nat} {rest : List Nat}
    (hchannel : s.reprocChannel = some (r :: rest)) (hrunning : s.stopped = false) :
    ∃ job jobs, s.ongoingPPQ = ⟨job :: jobs, true⟩ ∧ job.Of r ∧
      List.Forall₂ PPJob.Of jobs rest := by
  have hold := p.ongoing hrunning
  rw [hchannel, Option.getD_some] at hold
  have hinactive := p.inactive
  generalize s.ongoingPPQ = q at hold hinactive ⊢
  obtain ⟨items, active⟩ := q
  cases hold with
  | cons hjob hjobs =>
    simp_all

theorem pairedReprocessed (p : PostPaired s frames metas) {r : Nat} {rest : List Nat}
    (hchannel : s.reprocChannel = some (r :: rest)) {frame : SuperBuf} (hframe : frame.request = r)
    (h : Heap) (env : JobEnv) :
    PostPaired ({ s with reprocChannel := some rest, heap := h }.processPPData frame env).2
      frames metas := by
  have hcases :=
    processPPData_step (s := { s with reprocChannel := some rest, heap := h }) frame env
  generalize processPPData _ frame env = r at hcases ⊢
  by_cases hrunning : s.stopped = false
  · obtain ⟨job, jobs, hongoing, hjob, hjobs⟩ := p.complete hchannel hrunning
    cases hcases with
    | noJob hq => simp [hongoing, CameraQueue.dequeue] at hq
    | @dropped found rest' rc hq =>
      simp only [hongoing, CameraQueue.mk.injEq, List.cons.injEq, and_true] at hq
      obtain ⟨-, rfl⟩ := hq
      refine { p with ongoing := fun _ => hjobs, stopped := ?_, inactive := nofun }
      simp_all
    | @queued found rest' hq =>
      simp only [hongoing, CameraQueue.mk.injEq, List.cons.injEq, and_true] at hq
      obtain ⟨rfl, rfl⟩ := hq
      have hjpeg := JpegJob.of_ppJob hjob hframe (fresh h)
      refine { p with
        ongoing := fun _ => hjobs
        stopped := ?_
        inactive := nofun
        jpegJobs := p.enqueueJob hjpeg env.node }
      intro hstopped
      exact absurd (show s.stopped = true from hstopped) (by simp [hrunning])
  · have hstopped : s.stopped = true := by simpa using hrunning
    have hnone := (p.stopped hstopped).2
    cases hcases with
    | noJob =>
      refine { p with ongoing := ?_ }
      simp_all
    | dropped hq =>
      simp_all
    | queued hq =>
      simp_all

theorem pairedLostFrame (p : PostPaired s frames metas) {r : Nat} {rest : List Nat}
    (hchannel : s.reprocChannel = some (r :: rest)) (hnone : s.ongoingPPQ.items = []) :
    PostPaired { s with reprocChannel := some rest } frames metas := by
  refine { p with ongoing := ?_ }
  intro hrunning
  obtain ⟨job, jobs, hongoing, -⟩ := p.complete hchannel hrunning
  simp [hongoing] at hnone

/-! ## Commands -/

/-- No settings are queued at a stop, and a command while the thread is not active finds
neither a frame nor metadata nor an input buffer. -/
def CmdInStep (s : PostProcessor) : Cmd → Prop
  | .startDataProc => True
  | .stopDataProc => s.jpegSettingsQ.items = []
  | .doNextJob => s.isActive = false → s.inputPPQ.dequeue.1 = none ∧
      s.inputMetaQ.dequeue.1 = none ∧ s.inputFWKPPQ.dequeue.1 = none

theorem pairedStart (p : PostPaired s frames metas) : PostPaired s.startDataProc frames metas :=
  { p with inactive := nofun }

theorem flush_nil {α : Type} {q : CameraQueue α} (hq : q.items = []) : q.flush.2.items = [] := by
  have hitems := CameraQueue.flush_items (q := q)
  simp_all

theorem pairedStop (p : PostPaired s frames metas) (hempty : s.jpegSettingsQ.items = []) :
    PostPaired s.stopDataProc frames metas := by
  rw [stopDataProc_eq]
  obtain ⟨hframes, rfl, hmetas, rfl, hinputs⟩ := p.nil_of_settings hempty
  have hongoing : s.ongoingPPQ.flush.2.items = [] := by
    cases hactive : s.ongoingPPQ.active with
    | false => exact flush_nil (p.inactive hactive)
    | true => exact CameraQueue.flush_items_nil hactive
  constructor
  · simp [flush_nil hframes, flush_nil hmetas]
  · simp only [flush_nil hframes, flush_nil hinputs, hempty, List.map_nil, List.append_nil]
    exact .nil
  · exact nofun
  · exact fun _ => ⟨hempty, hongoing⟩
  · exact fun _ => hongoing
  · intro job hjob
    rcases List.mem_append.mp hjob with hjob | hjob
    · exact p.inputJobs (CameraQueue.mem_of_mem_flush_items hjob)
    · exact absurd hjob List.not_mem_nil

theorem dequeue_eq_of_none {α : Type} {q : CameraQueue α} (h : q.dequeue.1 = none) :
    q.dequeue = (none, q) := by
  rcases q.dequeue_cases with ⟨data, rest, -, hdeq⟩ | ⟨hdeq, -⟩
  · rw [hdeq] at h
    cases h
  · exact hdeq

theorem pairedDiscard (p : PostPaired s frames metas) (hframes : s.inputPPQ.dequeue.1 = none)
    (hmetas : s.inputMetaQ.dequeue.1 = none) (hinputs : s.inputFWKPPQ.dequeue.1 = none) :
    PostPaired s.discardNext frames metas := by
  simp only [discardNext, dequeue_eq_of_none hframes, dequeue_eq_of_none hmetas,
    dequeue_eq_of_none hinputs]
  refine { p with jpegJobs := ?_ }
  intro job hjob
  rcases List.mem_append.mp hjob with hjob | hjob
  · apply p.inputJobs
    rw [← CameraQueue.dequeue_items]
    exact List.mem_append_right _ hjob
  · exact p.ongoingJobs hjob

def ThreadInStep (s : PostProcessor) (frames : List Nat) (env : DataProcEnv) : Prop :=
  match s.stage with
  | .waiting => ∀ cmd ∈ s.cmds.head?, CmdInStep s cmd
  | .jpegJobs => True
  | .fwkJobs => FwkInStep s frames env
  | .cameraJobs => CameraInStep s env

theorem pairedDataProcessRoutine {env : DataProcEnv} (p : PostPaired s frames metas)
    (w : Working s) (hinStep : ThreadInStep s frames env) :
    PostPaired (s.dataProcessRoutine env) frames metas := by
  unfold ThreadInStep at hinStep
  unfold dataProcessRoutine
  split at hinStep
  · rename_i hstage
    simp only [hstage]
    cases hcmds : s.cmds with
    | nil => exact p
    | cons cmd cmds =>
      have hcmd := hinStep cmd (by simp [hcmds])
      have p' : PostPaired { s with stage := .waiting, cmds := cmds } frames metas := { p with }
      cases cmd with
      | startDataProc => exact pairedStart p'
      | stopDataProc => exact pairedStop p' hcmd
      | doNextJob =>
        simp only [handleCmd]
        split
        · exact { p with }
        · rename_i hactive
          obtain ⟨hframes, hmetas, hinputs⟩ := hcmd (Bool.eq_false_iff.mpr hactive)
          exact pairedDiscard p' hframes hmetas hinputs
  · rename_i hstage
    simp only [hstage]
    exact { pairedEncodeNext p env with }
  · rename_i hstage
    simp only [hstage]
    exact { pairedFwkNext p w hstage hinStep with }
  · rename_i hstage
    simp only [hstage]
    exact { pairedCameraNext p w hstage hinStep with }

/-! ## Settings and stops -/

structure SameStops (s t : PostProcessor) : Prop where
  settings : t.jpegSettingsQ.items ⊆ s.jpegSettingsQ.items
  stops : t.cmds.count .stopDataProc = s.cmds.count .stopDataProc
  stopped : t.stopped = s.stopped

theorem SameStops.refl (s : PostProcessor) : SameStops s s := ⟨fun _ hx => hx, rfl, rfl⟩

theorem SameStops.trans (h₁ : SameStops s t) (h₂ : SameStops t u) : SameStops s u :=
  ⟨fun _ hx => h₁.settings (h₂.settings hx), h₂.stops.trans h₁.stops, h₂.stopped.trans h₁.stopped⟩

theorem dequeue_subset {α : Type} (q : CameraQueue α) : q.dequeue.2.items ⊆ q.items := by
  intro x hx
  rw [← CameraQueue.dequeue_items]
  exact List.mem_append_right _ hx

theorem sameStops_processData (frame : SuperBuf) (node : Bool) :
    SameStops s (s.processData frame node) := by
  simp only [processData]
  split
  · exact ⟨fun _ hx => hx, rfl, rfl⟩
  · exact ⟨fun _ hx => hx, by simp [sendCmd], rfl⟩

theorem sameStops_processFwkData (frame : FwkInput) (env : JobEnv) :
    SameStops s (s.processFwkData frame env).2 := by
  have hsub := dequeue_subset s.jpegSettingsQ
  simp only [processFwkData]
  split
  · exact ⟨fun _ hx => hx, by simp [sendCmd], rfl⟩
  split
  · exact .refl s
  · rename_i hdeq
    rw [hdeq] at hsub
    split
    · exact ⟨hsub, by simp [sendCmd], rfl⟩
    · exact ⟨hsub, rfl, rfl⟩

theorem sameStops_processPPMetadata (metadata : SuperBuf) (node : Bool) :
    SameStops s (s.processPPMetadata metadata node) := by
  simp only [processPPMetadata]
  split
  · exact ⟨fun _ hx => hx, rfl, rfl⟩
  · exact ⟨fun _ hx => hx, by simp [sendCmd], rfl⟩

theorem sameStops_ppDataStep {frame : SuperBuf} {env : JobEnv} {r : Int × PostProcessor}
    (h : PPDataStep s frame env r) : SameStops s r.2 := by
  cases h with
  | noJob => exact .refl s
  | dropped => exact ⟨fun _ hx => hx, rfl, rfl⟩
  | queued => exact ⟨fun _ hx => hx, by simp [sendCmd], rfl⟩

theorem sameStops_encodeNext (env : DataProcEnv) : SameStops s (s.encodeNext env) := by
  have hstep := encodeNext_step (s := s) env
  generalize s.encodeNext env = t at hstep ⊢
  cases hstep with
  | idle => exact .refl s
  | submitted => exact ⟨fun _ hx => hx, rfl, rfl⟩
  | refused =>
    exact ⟨fun _ hx => hx, by simp [releaseJpegJobData, sendCmd, PostProcessor.free], rfl⟩

theorem sameStops_fwkNext (env : DataProcEnv) : SameStops s (s.fwkNext env) := by
  have hstep := fwkNext_step (s := s) env
  generalize s.fwkNext env = t at hstep ⊢
  cases hstep with
  | idle => exact .refl s
  | noMemory => exact ⟨dequeue_subset _, rfl, rfl⟩
  | noChannel => exact ⟨dequeue_subset _, rfl, rfl⟩
  | submitted => exact ⟨dequeue_subset _, rfl, rfl⟩
  | refused => exact ⟨dequeue_subset _, rfl, rfl⟩

theorem sameStops_start {env : DataProcEnv} {ppJob : PPJob} {ppFrame : SuperBuf}
    {r : Bool × PostProcessor} (h : StartStep s env ppJob ppFrame r) : SameStops s r.2 := by
  cases h with
  | notExtracted => exact .refl s
  | refused => exact ⟨fun _ hx => hx, rfl, rfl⟩
  | submitted => exact ⟨fun _ hx => hx, rfl, rfl⟩
  | direct _ hstep => exact sameStops_ppDataStep hstep

theorem sameStops_cameraNext (env : DataProcEnv) : SameStops s (s.cameraNext env) := by
  have hstep := cameraNext_step (s := s) env
  generalize s.cameraNext env = t at hstep ⊢
  cases hstep with
  | idle => exact .refl s
  | noMemory => exact ⟨dequeue_subset _, rfl, rfl⟩
  | @started ppFrame metaBuffer fs ms t _ _ _ hstep =>
    have hadd : SameStops s
        (addJob (takeCamera s fs ms) (cameraJob s ppFrame metaBuffer) env.node) :=
      ⟨dequeue_subset _, rfl, rfl⟩
    exact hadd.trans (sameStops_start hstep)
  | @failed ppFrame metaBuffer fs ms t _ _ _ hstep =>
    have hadd : SameStops s
        (addJob (takeCamera s fs ms) (cameraJob s ppFrame metaBuffer) env.node) :=
      ⟨dequeue_subset _, rfl, rfl⟩
    have hsame := hadd.trans (sameStops_start hstep)
    exact ⟨hsame.settings, hsame.stops, hsame.stopped⟩

def openStops (s : PostProcessor) : Nat :=
  s.cmds.count .stopDataProc + s.stopped.toNat

theorem SameStops.openStops (h : SameStops s t) : openStops t = openStops s := by
  unfold PostProc.openStops
  rw [h.stops, h.stopped]

theorem openStops_dataProcessRoutine (env : DataProcEnv) (hone : openStops s ≤ 1) :
    (s.dataProcessRoutine env).jpegSettingsQ.items ⊆ s.jpegSettingsQ.items ∧
      openStops (s.dataProcessRoutine env) = openStops s := by
  unfold dataProcessRoutine
  cases hstage : s.stage with
  | waiting =>
    cases hcmds : s.cmds with
    | nil => exact ⟨fun _ hx => hx, rfl⟩
    | cons cmd cmds =>
      cases cmd with
      | startDataProc =>
        simp [handleCmd, startDataProc, openStops, hcmds]
      | stopDataProc =>
        grind [handleCmd, stopDataProc_eq, openStops]
      | doNextJob =>
        grind [handleCmd, openStops, discardNext]
  | jpegJobs =>
    have h := sameStops_encodeNext (s := s) env
    exact ⟨h.settings, h.openStops⟩
  | fwkJobs =>
    have h := sameStops_fwkNext (s := s) env
    exact ⟨h.settings, h.openStops⟩
  | cameraJobs =>
    have h := sameStops_cameraNext (s := s) env
    exact ⟨h.settings, h.openStops⟩

/-! ## Requests -/

variable {c : PicChannel}

/-- The settings of a request are queued if and only if its frame or input buffer is going
to follow. An input buffer that is encoded at once finds no other settings. -/
def RequestInStep (c : PicChannel) (r : PicRequest) (env : RequestEnv) : Prop :=
  if r.fwkInput = true then
    if env.inputRc = NO_ERROR ∧ env.srcFrame = true ∧ env.fillRc = NO_ERROR then
      if c.postprocessor.needReprocess = true then
        (env.settings.job && env.settings.node) =
          (env.job.node && c.postprocessor.inputFWKPPQ.active)
      else c.postprocessor.jpegSettingsQ.items = []
    else (env.settings.job && env.settings.node) = false
  else (env.settings.job && env.settings.node) = !c.freeBufferList.isEmpty

def StartInStep (c : PicChannel) (r : PicRequest) : Prop :=
  c.postProcStarted = false ∨ ((!c.inputBufferConfig) != r.fwkInput) = true →
    c.postprocessor.needReprocess = true → c.postprocessor.ongoingPPQ.items = []

def Op.InStep (c : PicChannel) : Op → Prop
  | .request r prepareRc _ => c.isActive = true → prepareRc = NO_ERROR → StartInStep c r
  | .finishRequest env =>
    match c.call with
    | .requesting r => RequestInStep c r env
    | _ => True
  | .frame allocated node => c.awaitingFrame ≠ [] →
      allocated = true ∧ node = true ∧ c.postprocessor.inputPPQ.active = true
  | .metadata node => c.awaitingMeta ≠ [] →
      node = true ∧ c.postprocessor.inputMetaQ.active = true
  | .metadataLost => c.awaitingMeta = []
  | .dataProc env => ThreadInStep c.postprocessor (c.awaitingFrame.map Prod.fst) env
  | .reprocessed allocated _ => c.postprocessor.reprocChannel.getD [] ≠ [] →
      allocated = true ∨ c.postprocessor.ongoingPPQ.items = []
  | .jpegEvent _ _ | .start | .stop | .finishStop => True

/-- The runs in which frames and settings stay in step. -/
def inStepSystem (needReprocess : Bool) (maxBuffers : Nat) : System PicChannel Op :=
  (picChannelSystem needReprocess maxBuffers).restrict fun c op => op.InStep c

structure Paired (c : PicChannel) : Prop where
  post : PostPaired c.postprocessor (c.awaitingFrame.map Prod.fst) c.awaitingMeta
  bound : ∀ x ∈ c.postprocessor.jpegSettingsQ.items, x.request < c.nextRequest
  jpegs : ∀ jpeg ∈ c.jpegs, jpeg.source = some jpeg.settings.request
  stops : openStops c.postprocessor = if c.call = .stopping then 1 else 0

theorem Paired.running (p : Paired c) (hcall : c.call ≠ .stopping) :
    c.postprocessor.stopped = false := by
  have hstops := p.stops
  simp_all [openStops]

theorem Paired.bound' (p : Paired c) :
    ∀ n ∈ c.postprocessor.jpegSettingsQ.items.map JpegSettings.request, n < c.nextRequest := by
  intro n hn
  obtain ⟨x, hx, rfl⟩ := List.mem_map.mp hn
  exact p.bound x hx

theorem queueJpegSetting_eq (index : Nat) (metadata : JpegMetadata) (env : JobEnv) :
    ∃ h, (c.queueJpegSetting index metadata env).2 = { c with
      postprocessor := { c.postprocessor with
        heap := h
        jpegSettingsQ := if env.job then
          (c.postprocessor.jpegSettingsQ.enqueue (c.jpegSettings index metadata) env.node).2
        else c.postprocessor.jpegSettingsQ } } := by
  simp only [PicChannel.queueJpegSetting]
  split
  · exact ⟨_, rfl⟩
  · exact ⟨_, rfl⟩

theorem enqueue_false {α : Type} {q : CameraQueue α} {data : α} {node : Bool}
    (h : (node && q.active) = false) : (q.enqueue data node).2 = q := by
  simp [CameraQueue.enqueue, h]

theorem queuedSettings (w : Working c.postprocessor) (index : Nat) (metadata : JpegMetadata)
    (env : JobEnv) : (if env.job then
      (c.postprocessor.jpegSettingsQ.enqueue (c.jpegSettings index metadata) env.node).2
        else c.postprocessor.jpegSettingsQ) =
      if (env.job && env.node) = true then
        ⟨c.postprocessor.jpegSettingsQ.items ++ [c.jpegSettings index metadata], true⟩
      else c.postprocessor.jpegSettingsQ := by
  cases hjob : env.job with
  | false => rfl
  | true =>
    cases hnode : env.node with
    | true => simp [CameraQueue.enqueue_ok rfl w.settings]
    | false => simp [CameraQueue.enqueue]

theorem pairedRequestFrame (p : Paired c) {index : Nat} {metadata : JpegMetadata}
    {env : JobEnv} {rc : Int} {h : Heap} (hcall : c.call ≠ .stopping)
    (hinStep : (env.job && env.node) = !c.freeBufferList.isEmpty) :
    Paired { (PicChannel.requestFrame { c with postprocessor := { c.postprocessor with
        heap := h
        jpegSettingsQ := if (env.job && env.node) = true then
          ⟨c.postprocessor.jpegSettingsQ.items ++ [c.jpegSettings index metadata], true⟩
            else c.postprocessor.jpegSettingsQ } } rc).2 with
      call := .idle
      nextRequest := c.nextRequest + 1 } := by
  have hrunning := p.running hcall
  have hstops := p.stops
  rw [if_neg hcall] at hstops
  cases hfree : c.freeBufferList with
  | nil =>
    rw [hfree, List.isEmpty_nil, Bool.not_true] at hinStep
    simp only [PicChannel.requestFrame, hinStep, Bool.false_eq_true, if_false]
    constructor
    · exact { p.post with }
    · intro x hx
      exact Nat.lt_succ_of_lt (p.bound x hx)
    · exact p.jpegs
    · exact hstops
  | cons freeBuffer rest =>
    rw [hfree, List.isEmpty_cons, Bool.not_false] at hinStep
    simp only [PicChannel.requestFrame, hinStep, if_true]
    have harrive := p.post.merged.arrive p.bound'
    constructor
    · refine { p.post with metas := ?_, merged := ?_, stopped := ?_ }
      · show _ ++ (_ ++ _) = _ ++ List.map Prod.fst (_ ++ _)
        rw [List.map_append, ← List.append_assoc, p.post.metas, List.append_assoc]
        rfl
      · simpa [PicChannel.jpegSettings] using harrive
      simp_all
    · intro x hx
      rcases List.mem_append.mp hx with hx | hx
      · exact Nat.lt_succ_of_lt (p.bound x hx)
      · rw [List.mem_singleton.mp hx]
        exact Nat.lt_succ_self _
    · exact p.jpegs
    · exact hstops

theorem Paired.finish (p : Paired c) (hcall : c.call ≠ .stopping)
    (hpost : PostPaired t (c.awaitingFrame.map Prod.fst) c.awaitingMeta)
    (hbound : ∀ x ∈ t.jpegSettingsQ.items, x.request < c.nextRequest + 1)
    (hstops : openStops t = openStops c.postprocessor) :
    Paired { c with postprocessor := t, call := .idle, nextRequest := c.nextRequest + 1 } where
  post := hpost
  bound := hbound
  jpegs := p.jpegs
  stops := by
    simp [p.stops, hcall, hstops.trans]

def queueOf (s : PostProcessor) (x : JpegSettings) (queued : Bool) : CameraQueue JpegSettings :=
  if queued = true then ⟨s.jpegSettingsQ.items ++ [x], true⟩ else s.jpegSettingsQ

theorem queueOf_bound (p : Paired c) {x : JpegSettings} (hx : x.request = c.nextRequest)
    (queued : Bool) : ∀ y ∈ (queueOf c.postprocessor x queued).items,
      y.request < c.nextRequest + 1 := by
  intro y hy
  unfold queueOf at hy
  split at hy
  · rcases List.mem_append.mp hy with hy | hy
    · exact Nat.lt_succ_of_lt (p.bound y hy)
    simp_all
  · exact Nat.lt_succ_of_lt (p.bound y hy)

theorem pairedQueueInput (p : Paired c) (hcall : c.call ≠ .stopping) {x : JpegSettings}
    (hx : x.request = c.nextRequest) {queued node : Bool} {n : Nat} {h : Heap}
    (hinStep : queued = (node && c.postprocessor.inputFWKPPQ.active)) :
    PostPaired { c.postprocessor with
      heap := h
      jpegSettingsQ := queueOf c.postprocessor x queued
      inputFWKPPQ :=
        (c.postprocessor.inputFWKPPQ.enqueue ⟨n, c.nextRequest⟩ node).2 }
      (c.awaitingFrame.map Prod.fst) c.awaitingMeta := by
  have hrunning := p.running hcall
  cases queued with
  | false =>
    rw [enqueue_false hinStep.symm]
    exact { p.post with }
  | true =>
    obtain ⟨hnode, hactive⟩ := Bool.and_eq_true_iff.mp hinStep.symm
    have harrive := (p.post.merged.symm.arrive p.bound').symm
    rw [CameraQueue.enqueue_ok hnode hactive]
    refine { p.post with merged := ?_, stopped := ?_ }
    · simpa [queueOf, hx] using harrive
    simp_all

theorem pairedEncodeInput (p : Paired c) (hcall : c.call ≠ .stopping) {x : JpegSettings}
    (hx : x.request = c.nextRequest) (hempty : c.postprocessor.jpegSettingsQ.items = [])
    (hneed : ¬ c.postprocessor.needReprocess = true) (queued : Bool) {n : Nat} {h : Heap}
    (env : JobEnv) : PostPaired (PostProcessor.processFwkData { c.postprocessor with
        heap := h
        jpegSettingsQ := queueOf c.postprocessor x queued } ⟨n, c.nextRequest⟩ env).2
      (c.awaitingFrame.map Prod.fst) c.awaitingMeta := by
  have hrunning := p.running hcall
  have hmerged := p.post.merged
  have hstopped : ∀ q : CameraQueue JpegSettings, c.postprocessor.stopped = true →
      q.items = [] ∧ c.postprocessor.ongoingPPQ.items = [] := by
    simp [hrunning]
  simp only [processFwkData, hneed, Bool.false_eq_true, if_false]
  cases queued with
  | false =>
    rw [show queueOf c.postprocessor x false = c.postprocessor.jpegSettingsQ from rfl,
      CameraQueue.dequeue_none hempty]
    exact { p.post with }
  | true =>
    have hq : queueOf c.postprocessor x true = ⟨[x], true⟩ := by simp [queueOf, hempty]
    rw [hq, CameraQueue.dequeue_cons rfl rfl]
    simp only
    split
    · have hjob : JpegJob.Of ⟨fresh h, none, none, some ⟨n, c.nextRequest⟩, none, none,
          some x⟩ c.nextRequest := by
        constructor
        · simp [hx]
        · rfl
        · simp
        · simp
        · simp
        · simp
        · simp
      refine { p.post with
        merged := ?_
        stopped := hstopped _
        jpegJobs := p.post.enqueueJob hjob env.node }
      rw [hempty] at hmerged
      exact hmerged
    · refine { p.post with merged := ?_, stopped := hstopped _ }
      simp_all

theorem pairedRequestInput (p : Paired c) (hcall : c.call ≠ .stopping) {x : JpegSettings}
    (hx : x.request = c.nextRequest) {env : RequestEnv} {h : Heap}
    (hinStep : if env.inputRc = NO_ERROR ∧ env.srcFrame = true ∧ env.fillRc = NO_ERROR then
      if c.postprocessor.needReprocess = true then
        (env.settings.job && env.settings.node) =
          (env.job.node && c.postprocessor.inputFWKPPQ.active)
      else c.postprocessor.jpegSettingsQ.items = []
    else (env.settings.job && env.settings.node) = false) :
    Paired { (PicChannel.requestInput { c with postprocessor := { c.postprocessor with
        heap := h
        jpegSettingsQ := queueOf c.postprocessor x (env.settings.job && env.settings.node) } }
          env).2 with
      call := .idle
      nextRequest := c.nextRequest + 1 } := by
  have hbound := queueOf_bound p hx (env.settings.job && env.settings.node)
  -- without the input buffer the settings are not queued either
  have hlost : (env.settings.job && env.settings.node) = false → ∀ h', PostPaired
      { c.postprocessor with
        heap := h'
        jpegSettingsQ := queueOf c.postprocessor x (env.settings.job && env.settings.node) }
      (c.awaitingFrame.map Prod.fst) c.awaitingMeta := by
    intro hqueued h'
    rw [hqueued]
    exact { p.post with }
  simp only [PicChannel.requestInput]
  split
  · rename_i hrc
    rw [if_neg (fun hreached => hrc hreached.1)] at hinStep
    exact p.finish hcall (hlost hinStep _) hbound rfl
  split
  · rename_i hsrc
    rw [if_neg (fun hreached => by simp [hreached.2.1] at hsrc)] at hinStep
    exact p.finish hcall (hlost hinStep _) hbound rfl
  split
  · rename_i hfill
    rw [if_neg (fun hreached => hfill hreached.2.2)] at hinStep
    exact p.finish hcall (hlost hinStep _) hbound rfl
  · rename_i hrc hsrc hfill
    rw [if_pos ⟨not_not.mp hrc, by simpa using hsrc, not_not.mp hfill⟩] at hinStep
    split at hinStep
    · rename_i hneed
      have hqueue := pairedQueueInput p hcall hx (n := fresh h)
        (h := malloc h .fwkInput) hinStep
      refine p.finish hcall ?_ ?_ ?_
      · simp only [processFwkData, hneed, if_true]
        exact { hqueue with }
      · simp only [processFwkData, hneed, if_true]
        exact hbound
      · simp [processFwkData, hneed, openStops, sendCmd]
    · rename_i hneed
      have hencode := pairedEncodeInput p hcall hx hinStep hneed
        (env.settings.job && env.settings.node) (n := fresh h)
        (h := malloc h .fwkInput) env.job
      have hsame := sameStops_processFwkData (s := { c.postprocessor with
        heap := malloc h .fwkInput
        jpegSettingsQ := queueOf c.postprocessor x (env.settings.job && env.settings.node) })
        ⟨fresh h, c.nextRequest⟩ env.job
      exact p.finish hcall hencode (fun y hy => hbound y (hsame.settings hy)) hsame.openStops

theorem requestFrame_nextRequest (c : PicChannel) (rc : Int) :
    (c.requestFrame rc).2.nextRequest = c.nextRequest := by
  unfold PicChannel.requestFrame
  split <;> rfl

theorem requestInput_nextRequest (c : PicChannel) (env : RequestEnv) :
    (c.requestInput env).2.nextRequest = c.nextRequest := by
  simp only [PicChannel.requestInput]
  split
  · rfl
  split
  · rfl
  split <;> rfl

theorem pairedFinishRequest (p : Paired c) (w : Working c.postprocessor)
    (hcall : c.call ≠ .stopping)
    {r : PicRequest} {env : RequestEnv} (hinStep : RequestInStep c r env) :
    Paired (c.finishRequest r env).2 := by
  obtain ⟨h, hqueue⟩ := queueJpegSetting_eq (c := c) env.index r.metadata env.settings
  rw [queuedSettings w] at hqueue
  simp only [PicChannel.finishRequest]
  generalize c.queueJpegSetting env.index r.metadata env.settings = result at hqueue ⊢
  obtain ⟨rc, c'⟩ := result
  subst hqueue
  unfold RequestInStep at hinStep
  split at hinStep
  · rename_i hfwk
    simp only [hfwk, if_true, requestInput_nextRequest]
    exact pairedRequestInput p hcall (x := c.jpegSettings env.index r.metadata) rfl hinStep
  · rename_i hfwk
    simp only [hfwk, Bool.false_eq_true, if_false, requestFrame_nextRequest]
    exact pairedRequestFrame p hcall hinStep

/-! ## Runs -/

theorem paired_create (needReprocess : Bool) (maxBuffers : Nat) :
    Paired (.create needReprocess maxBuffers) where
  post := {
    metas := rfl
    merged := .nil
    ongoing := fun _ => .nil
    stopped := nofun
    inactive := fun _ => rfl
    jpegJobs := fun _ hjob => absurd hjob List.not_mem_nil }
  bound _ hx := absurd hx List.not_mem_nil
  jpegs _ hjpeg := absurd hjpeg List.not_mem_nil
  stops := rfl

theorem Paired.of_post (p : Paired c) {frames : List (Nat × Nat)} {metas freeBufferList : List Nat}
    (hpost : PostPaired t (frames.map Prod.fst) metas)
    (hsettings : t.jpegSettingsQ.items ⊆ c.postprocessor.jpegSettingsQ.items)
    (hstops : openStops t = openStops c.postprocessor) :
    Paired { c with
      postprocessor := t
      freeBufferList := freeBufferList
      awaitingFrame := frames
      awaitingMeta := metas } where
  post := hpost
  bound x hx := p.bound x (hsettings hx)
  jpegs := p.jpegs
  stops := hstops.trans p.stops

theorem Paired.openStops_le (p : Paired c) : openStops c.postprocessor ≤ 1 := by
  rw [p.stops]
  split <;> omega

theorem pairedStartPostProc (p : Paired c) {r : PicRequest} (reprocRc : Int)
    (hidle : c.call = .idle) (hinStep : StartInStep c r) :
    Paired { c.startPostProc r.fwkInput reprocRc with call := .requesting r } := by
  have hstops := p.stops
  rw [if_neg (by simp [hidle])] at hstops
  simp only [PicChannel.startPostProc]
  split
  · rename_i hstart
    have hnone := hinStep (by simpa using hstart)
    simp only [PostProcessor.start]
    split
    · rename_i hneed
      have hongoing : List.Forall₂ PPJob.Of c.postprocessor.ongoingPPQ.items [] := by
        rw [hnone hneed]
        exact .nil
      split
      · refine ⟨{ p.post with ongoing := fun _ => hongoing }, p.bound, p.jpegs, ?_⟩
        simpa [openStops, sendCmd] using hstops
      · exact ⟨{ p.post with ongoing := fun _ => hongoing }, p.bound, p.jpegs, hstops⟩
    · refine ⟨{ p.post with }, p.bound, p.jpegs, ?_⟩
      simpa [openStops, sendCmd] using hstops
  · exact ⟨p.post, p.bound, p.jpegs, hstops⟩

theorem pairedProcessData {n : Nat} (p : PostPaired s (n :: frames) metas) {frame : SuperBuf}
    (hframe : frame.request = n) (hactive : s.inputPPQ.active = true) (h : Heap) :
    PostPaired ({ s with heap := h }.processData frame true) frames metas := by
  have hmetas := p.metas
  have hmerged := p.merged
  have hqueue : PostPaired
      { s with heap := h, inputPPQ := (s.inputPPQ.enqueue frame true).2 } frames metas := by
    refine { p with metas := ?_, merged := ?_ } <;>
      simpa [CameraQueue.enqueue_items rfl hactive, hframe]
  simp only [processData]
  split
  · exact hqueue
  · exact { hqueue with }

theorem pairedProcessPPMetadata {n : Nat} (p : PostPaired s frames (n :: metas))
    {metadata : SuperBuf} (hmetadata : metadata.request = n)
    (hactive : s.inputMetaQ.active = true) (h : Heap) :
    PostPaired ({ s with heap := h }.processPPMetadata metadata true) frames metas := by
  have hmetas := p.metas
  have hqueue : PostPaired
      { s with heap := h, inputMetaQ := (s.inputMetaQ.enqueue metadata true).2 } frames metas := by
    refine { p with metas := ?_ }
    simpa [CameraQueue.enqueue_items rfl hactive, hmetadata]
  simp only [processPPMetadata]
  split
  · exact hqueue
  · exact { hqueue with }

theorem pairedFinishStop (p : Paired c) (hcall : c.call = .stopping)
    (hstopped : c.postprocessor.stopped = true) : Paired c.finishStop := by
  obtain ⟨hsettings, hongoing⟩ := p.post.stopped hstopped
  obtain ⟨hframes, -, hmetas, -, hinputs⟩ := p.post.nil_of_settings hsettings
  have hstops := p.stops
  rw [if_pos hcall, openStops, hstopped, Bool.toNat_true] at hstops
  refine ⟨?_, p.bound, p.jpegs, ?_⟩
  · simp only [PicChannel.finishStop, PostProcessor.finishStop]
    refine { p.post with metas := ?_, merged := ?_, ongoing := ?_, stopped := nofun }
    · simp [hframes, hmetas]
    · simp only [hframes, hsettings, hinputs, List.map_nil, List.append_nil]
      exact .nil
    simp [hongoing]
  · show c.postprocessor.cmds.count .stopDataProc + 0 = 0
    omega

theorem pairedJpegEvtHandle (p : Paired c) (done : Bool) (jobId : Nat) :
    Paired (c.jpegEvtHandle done jobId) := by
  unfold PicChannel.jpegEvtHandle
  split
  · exact p
  rename_i job post hfind
  unfold findJpegJobByJobId at hfind
  split at hfind
  · cases hfind
  rcases c.postprocessor.ongoingJpegQ.dequeue_cases with ⟨head, rest, hq, hdeq⟩ | ⟨hdeq, -⟩
  · simp only [hdeq, Prod.mk.injEq, Option.some.injEq] at hfind
    obtain ⟨rfl, rfl⟩ := hfind
    have hmem : head ∈ c.postprocessor.ongoingJpegQ.items := by simp [hq]
    obtain ⟨r, hjob⟩ := p.post.ongoingJobs hmem
    refine ⟨{ p.post with jpegJobs := ?_ }, p.bound, ?_, ?_⟩
    · intro job hmem
      rcases List.mem_append.mp hmem with hmem | hmem
      · exact p.post.inputJobs hmem
      · exact p.post.ongoingJobs (by simp only [hq]; exact List.mem_cons_of_mem head hmem)
    · intro jpeg hjpeg
      rcases List.mem_append.mp hjpeg with hjpeg | hjpeg
      · exact p.jpegs jpeg hjpeg
      · obtain ⟨settings, hsettings, hrequest⟩ := Option.map_eq_some_iff.mp hjob.settings
        obtain rfl : jpeg = ⟨head.source, done, settings⟩ := by simpa [hsettings] using hjpeg
        exact hjob.source.trans (congrArg some hrequest.symm)
    · have hstops := p.stops
      simpa [openStops, releaseJpegJobData, sendCmd, PostProcessor.free] using hstops
  · simp [hdeq] at hfind

theorem paired_exec {op : Op} (p : Paired c) (w : Working c.postprocessor)
    (henabled : op.Enabled c) (hinStep : op.InStep c) : Paired (op.exec c) := by
  cases op with
  | request r prepareRc reprocRc =>
    simp only [Op.exec, PicChannel.request]
    split
    · exact ⟨p.post, fun x hx => Nat.lt_succ_of_lt (p.bound x hx), p.jpegs, p.stops⟩
    rename_i hactive
    split
    · exact ⟨p.post, fun x hx => Nat.lt_succ_of_lt (p.bound x hx), p.jpegs, p.stops⟩
    · rename_i hrc
      exact pairedStartPostProc p reprocRc henabled (hinStep (by simpa using hactive)
        (not_not.mp hrc))
  | finishRequest env =>
    simp only [Op.InStep] at hinStep
    simp only [Op.exec]
    split
    · rename_i r hcall
      simp only [hcall] at hinStep
      exact pairedFinishRequest p w (by simp [hcall]) hinStep
    · exact p
  | frame allocated node =>
    simp only [Op.exec, PicChannel.streamCbRoutine]
    split
    · exact p
    rename_i request bufIdx rest hawaiting
    obtain ⟨rfl, rfl, hactive⟩ := hinStep (by simp [hawaiting])
    have hpost := p.post
    rw [hawaiting, List.map_cons] at hpost
    have hsame := sameStops_processData (s := { c.postprocessor with
      heap := malloc c.postprocessor.heap (.superBuf .snapshot) })
      ⟨fresh c.postprocessor.heap, .snapshot, request, bufIdx⟩ true
    exact p.of_post (pairedProcessData hpost rfl hactive _) hsame.settings hsame.openStops
  | metadata node =>
    simp only [Op.exec, PicChannel.queueReprocMetadata]
    split
    · exact p
    · rename_i request rest hawaiting
      obtain ⟨rfl, hactive⟩ := hinStep (by simp [hawaiting])
      have hpost := p.post
      rw [hawaiting] at hpost
      have hsame := sameStops_processPPMetadata (s := { c.postprocessor with
        heap := malloc c.postprocessor.heap (.superBuf .metadata) })
        ⟨fresh c.postprocessor.heap, .metadata, request, 0⟩ true
      exact p.of_post (pairedProcessPPMetadata hpost rfl hactive _) hsame.settings
        hsame.openStops
  | metadataLost =>
    have hnone : c.awaitingMeta = [] := hinStep
    simp only [Op.exec, hnone, List.tail_nil]
    exact ⟨hnone ▸ p.post, p.bound, p.jpegs, p.stops⟩
  | dataProc env =>
    obtain ⟨hsettings, hstops⟩ := openStops_dataProcessRoutine env p.openStops_le
    exact p.of_post (pairedDataProcessRoutine p.post w hinStep) hsettings hstops
  | reprocessed allocated env =>
    simp only [Op.exec, PicChannel.reprocCbRoutine]
    split
    · rename_i request rest hchannel
      split
      · have hframe : SuperBuf.request ⟨fresh c.postprocessor.heap, .reprocess, request, 0⟩ =
          request := rfl
        have hpaired := pairedReprocessed p.post hchannel hframe
          (malloc c.postprocessor.heap (.superBuf .reprocess)) env
        have hsame := sameStops_ppDataStep (processPPData_step (s := { c.postprocessor with
          reprocChannel := some rest
          heap := malloc c.postprocessor.heap (.superBuf .reprocess) })
          ⟨fresh c.postprocessor.heap, .reprocess, request, 0⟩ env)
        exact p.of_post hpaired hsame.settings hsame.openStops
      · rename_i hallocated
        have hnone := (hinStep (by simp [hchannel])).resolve_left hallocated
        exact p.of_post (pairedLostFrame p.post hchannel hnone) (fun _ hx => hx) rfl
    · exact p
  | jpegEvent done jobId => exact pairedJpegEvtHandle p done jobId
  | start => exact ⟨p.post, p.bound, p.jpegs, p.stops⟩
  | stop =>
    simp only [Op.exec, PicChannel.stop]
    split
    · have hstops := p.stops
      rw [if_neg (by simp [show c.call = .idle from henabled])] at hstops
      refine ⟨{ p.post with }, p.bound, p.jpegs, ?_⟩
      simp_all [openStops, sendCmd]
    · exact p
  | finishStop => exact pairedFinishStop p henabled.1 henabled.2

theorem paired_invariant (needReprocess : Bool) (maxBuffers : Nat) :
    (inStepSystem needReprocess maxBuffers).Invariant fun c =>
      Paired c ∧ Working c.postprocessor := by
  apply System.Invariant.of_restrict
  · rintro c rfl
    exact ⟨paired_create needReprocess maxBuffers, working_create needReprocess maxBuffers⟩
  · rintro c op c' ⟨p, w⟩ hinStep ⟨henabled, rfl⟩
    exact ⟨paired_exec p w henabled hinStep, working_exec w op⟩

/-- Every job has the settings of the request that all else in it belongs to, and every
image that was handed to the framework has those of the request that it shows. -/
structure JobsKeepSettings (c : PicChannel) : Prop where
  ongoingPPQ : ∀ job ∈ c.postprocessor.ongoingPPQ.items, ∃ r, job.Of r
  inputJpegQ : ∀ job ∈ c.postprocessor.inputJpegQ.items, ∃ r, job.Of r
  ongoingJpegQ : ∀ job ∈ c.postprocessor.ongoingJpegQ.items, ∃ r, job.Of r
  jpegs : ∀ jpeg ∈ c.jpegs, jpeg.source = some jpeg.settings.request

theorem exists_of_forall₂ {α β : Type} {R : α → β → Prop} {l : List α} {m : List β}
    (h : List.Forall₂ R l m) : ∀ x ∈ l, ∃ y, R x y := by
  induction h with
  | nil => exact nofun
  | cons hxy _ ih =>
    intro x hx
    rcases List.mem_cons.mp hx with rfl | hx
    · exact ⟨_, hxy⟩
    · exact ih x hx

theorem Paired.jobsKeepSettings (p : Paired c) : JobsKeepSettings c where
  ongoingPPQ := by
    cases hstopped : c.postprocessor.stopped with
    | false => exact exists_of_forall₂ (p.post.ongoing hstopped)
    | true =>
      rw [(p.post.stopped hstopped).2]
      exact nofun
  inputJpegQ _ hjob := p.post.inputJobs hjob
  ongoingJpegQ _ hjob := p.post.ongoingJobs hjob
  jpegs := p.jpegs

/-- In the runs in which frames and settings stay in step, no job has the settings of
another request. -/
theorem settingsKept_of_reachable {needReprocess : Bool} {maxBuffers : Nat}
    (hc : (inStepSystem needReprocess maxBuffers).Reachable c) : JobsKeepSettings c :=
  ((paired_invariant needReprocess maxBuffers).reachable hc).1.jobsKeepSettings

/-! ## Computed runs -/

instance (s : PostProcessor) : (cmd : Cmd) → Decidable (CmdInStep s cmd)
  | .startDataProc => .isTrue trivial
  | .stopDataProc => inferInstanceAs (Decidable (_ = _))
  | .doNextJob => inferInstanceAs (Decidable (_ → _ ∧ _ ∧ _))

instance (s : PostProcessor) (frames : List Nat) (env : DataProcEnv) :
    Decidable (FwkInStep s frames env) :=
  inferInstanceAs (Decidable (∀ input ∈ s.inputFWKPPQ.items.head?, _ ∧ _))

instance (s : PostProcessor) (env : DataProcEnv) : Decidable (CameraInStep s env) :=
  inferInstanceAs (Decidable (∀ frame ∈ s.inputPPQ.items.head?, _ → _ ∧ _))

instance (s : PostProcessor) (frames : List Nat) (env : DataProcEnv) :
    Decidable (ThreadInStep s frames env) :=
  match h : s.stage with
  | .waiting => decidable_of_iff (∀ cmd ∈ s.cmds.head?, CmdInStep s cmd) (by simp [ThreadInStep, h])
  | .jpegJobs => .isTrue (by simp [ThreadInStep, h])
  | .fwkJobs => decidable_of_iff (FwkInStep s frames env) (by simp [ThreadInStep, h])
  | .cameraJobs => decidable_of_iff (CameraInStep s env) (by simp [ThreadInStep, h])

instance (c : PicChannel) (r : PicRequest) (env : RequestEnv) : Decidable (RequestInStep c r env) :=
  inferInstanceAs (Decidable (ite _ (ite _ (ite _ _ _) _) _))

instance (c : PicChannel) (r : PicRequest) : Decidable (StartInStep c r) :=
  inferInstanceAs (Decidable (_ → _ → _))

instance (c : PicChannel) (op : Op) : Decidable (op.InStep c) :=
  match op with
  | .request r _ _ => decidable_of_iff (_ → _ → StartInStep c r) Iff.rfl
  | .finishRequest env =>
    match h : c.call with
    | .requesting r => decidable_of_iff (RequestInStep c r env) (by simp [Op.InStep, h])
    | .idle => .isTrue (by simp [Op.InStep, h])
    | .stopping => .isTrue (by simp [Op.InStep, h])
  | .frame _ _ => decidable_of_iff (_ → _ ∧ _ ∧ _) Iff.rfl
  | .metadata _ => decidable_of_iff (_ → _ ∧ _) Iff.rfl
  | .metadataLost => decidable_of_iff (_ = _) Iff.rfl
  | .dataProc env =>
    decidable_of_iff (ThreadInStep c.postprocessor (c.awaitingFrame.map Prod.fst) env) Iff.rfl
  | .reprocessed _ _ => decidable_of_iff (_ → _ ∨ _) Iff.rfl
  | .jpegEvent .. | .start | .stop | .finishStop => .isTrue trivial

/-- A camera frame is reprocessed and encoded, with a stop of all and a new start before it. -/
def restartedSteps : List Op :=
  [.stop, .dataProc {}, .finishStop, .start, .request ⟨false, {}⟩ 0 0, .finishRequest {},
    .dataProc {}, .frame true true, .metadata true, .dataProc {}, .dataProc {}, .dataProc {},
    .dataProc {}]

/-- A capture after a stop that finds no settings. -/
def restarted : Option PicChannel :=
  System.follow (fun c op => op.InStep c ∧ op.Enabled c) Op.exec
    (restartedSteps ++ [.reprocessed true {}, .dataProc {}, .dataProc {}, .jpegEvent true 1])
      (.create true 3)

theorem settingsKept_of_reachable_restarted :
    ∃ c, restarted = some c ∧ c.jpegs.length = 1 ∧ JobsKeepSettings c := by
  have hrun : restarted.any (fun c => c.jpegs.length = 1) = true := by decide +kernel
  obtain ⟨c, hc, hjpegs⟩ := (Option.any_eq_true _ _).mp hrun
  have hreach : (inStepSystem true 3).Reachable c := System.reachable_follow _ (.init rfl) hc
  exact ⟨c, hc, of_decide_eq_true hjpegs, settingsKept_of_reachable hreach⟩

def Mixed (job : PPJob) : Prop :=
  ∃ frame ∈ job.srcFrame, job.jpegSettings.map JpegSettings.request ≠ some frame.request

instance (job : PPJob) : Decidable (Mixed job) :=
  inferInstanceAs (Decidable (∃ frame ∈ job.srcFrame, _))

/-- A stop leaves the settings of the requests that it cancels, and the next frame gets them. -/
theorem not_settingsKept : ∃ c, (picChannelSystem true 3).Reachable c ∧ ¬ JobsKeepSettings c := by
  have hrun : (System.follow (fun c op => True ∧ op.Enabled c) Op.exec
      ([.request ⟨false, {}⟩ 0 0, .finishRequest {}, .dataProc {}] ++ restartedSteps)
        (.create true 3)).any (fun c => ∃ job ∈ c.postprocessor.ongoingPPQ.items, Mixed job) =
          true := by decide +kernel
  obtain ⟨c, hc, hmixed⟩ := (Option.any_eq_true _ _).mp hrun
  have hreach : ((picChannelSystem true 3).restrict fun _ _ => True).Reachable c :=
    System.reachable_follow _ (.init rfl) hc
  refine ⟨c, hreach.of_restrict, ?_⟩
  intro h
  obtain ⟨job, hmem, frame, hframe, hne⟩ := of_decide_eq_true hmixed
  obtain ⟨r, hjob⟩ := h.ongoingPPQ job hmem
  exact hne (by rw [hjob.settings, hjob.frame frame hframe])

end EtherDevice.PostProc
