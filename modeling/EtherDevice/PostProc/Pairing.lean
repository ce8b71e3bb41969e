import EtherDevice.Lib.Merge
import EtherDevice.PostProc.Steps
import Mathlib.Data.Nat.Basic

/-!
# Settings and frames of one request

Frames, metadata, input buffers and settings wait in four queues, and their order alone
joins them. The settings of the requests are queued in the order of the requests; frames
and input buffers wait in two streams, which `Merged` relates to the settings. The jobs of
the reprocess channel are those of `m_ongoingPPQ`, in order.

`PostPaired` has these relations, with the requests for which the camera still owes a
frame or metadata. Each function of the post-processor keeps them under a condition.
-/

namespace EtherDevice.PostProc

open Lib PostProcessor

variable {s t : PostProcessor} {frames metas : List Nat}

structure PPJob.Of (job : PPJob) (r : Nat) : Prop where
  settings : job.jpegSettings.map JpegSettings.request = some r
  frame : ∀ frame ∈ job.srcFrame, frame.request = r
  fwk : ∀ input ∈ job.fwkSrcFrame, input.request = r
  metadata : ∀ metadata ∈ job.srcMetadata, metadata.request = r

structure JpegJob.Of (job : JpegJob) (r : Nat) : Prop where
  settings : job.jpegSettings.map JpegSettings.request = some r
  source : job.source = some r
  frame : ∀ frame ∈ job.srcFrame, frame.request = r
  reprocFrame : ∀ frame ∈ job.srcReprocFrame, frame.request = r
  fwkFrame : ∀ input ∈ job.fwkFrame, input.request = r
  fwkSrcBuffer : ∀ input ∈ job.fwkSrcBuffer, input.request = r
  metadata : ∀ metadata ∈ job.srcMetadata, metadata.request = r

theorem JpegJob.of_ppJob {job : PPJob} {r : Nat} (hjob : job.Of r) {frame : SuperBuf}
    (hframe : frame.request = r) (serial : Nat) : (jpegJobOf job frame serial).Of r where
  settings := hjob.settings
  source := by simp [jpegJobOf, JpegJob.source, hframe]
  frame f hf := by
    simp_all [jpegJobOf]
  reprocFrame f hf := by
    apply hjob.frame f
    simp_all [jpegJobOf]
  fwkFrame f hf := by cases hf
  fwkSrcBuffer := hjob.fwk
  metadata := hjob.metadata

structure PostPaired (s : PostProcessor) (frames metas : List Nat) : Prop where
  metas : s.inputMetaQ.items.map SuperBuf.request ++ metas =
    s.inputPPQ.items.map SuperBuf.request ++ frames
  merged : Merged (s.jpegSettingsQ.items.map JpegSettings.request)
    (s.inputPPQ.items.map SuperBuf.request ++ frames) (s.inputFWKPPQ.items.map FwkInput.request)
  ongoing : s.stopped = false →
    List.Forall₂ PPJob.Of s.ongoingPPQ.items (s.reprocChannel.getD [])
  stopped : s.stopped = true → s.jpegSettingsQ.items = [] ∧ s.ongoingPPQ.items = []
  inactive : s.ongoingPPQ.active = false → s.ongoingPPQ.items = []
  jpegJobs : ∀ job ∈ s.inputJpegQ.items ++ s.ongoingJpegQ.items, ∃ r, job.Of r

theorem PostPaired.nil_of_settings (p : PostPaired s frames metas)
    (hempty : s.jpegSettingsQ.items = []) : s.inputPPQ.items = [] ∧ frames = [] ∧
      s.inputMetaQ.items = [] ∧ metas = [] ∧ s.inputFWKPPQ.items = [] := by
  have hmerged := p.merged
  rw [hempty] at hmerged
  obtain ⟨hframes, hinputs⟩ := hmerged.nil_of_nil
  have hmetas := p.metas
  simp_all

theorem PostPaired.inputJobs (p : PostPaired s frames metas) {job : JpegJob}
    (hjob : job ∈ s.inputJpegQ.items) : ∃ r, job.Of r :=
  p.jpegJobs job (List.mem_append_left _ hjob)

theorem PostPaired.ongoingJobs (p : PostPaired s frames metas) {job : JpegJob}
    (hjob : job ∈ s.ongoingJpegQ.items) : ∃ r, job.Of r :=
  p.jpegJobs job (List.mem_append_right _ hjob)

theorem PostPaired.enqueueJob (p : PostPaired s frames metas) {job : JpegJob} {r : Nat}
    (hjob : job.Of r) (node : Bool) :
    ∀ x ∈ (s.inputJpegQ.enqueue job node).2.items ++ s.ongoingJpegQ.items, ∃ r, x.Of r := by
  intro x hx
  rcases List.mem_append.mp hx with hx | hx
  · rcases CameraQueue.mem_of_mem_enqueue hx with hx | rfl
    · exact p.inputJobs hx
    · exact ⟨r, hjob⟩
  · exact p.ongoingJobs hx

theorem pairedEncodeNext (p : PostPaired s frames metas) (env : DataProcEnv) :
    PostPaired (s.encodeNext env) frames metas := by
  have hstep := encodeNext_step (s := s) env
  generalize s.encodeNext env = t at hstep ⊢
  cases hstep with
  | idle => exact p
  | @submitted job rest hongoing hq _ =>
    refine { p with jpegJobs := ?_ }
    intro x hx
    rcases List.mem_append.mp hx with hx | hx
    · exact p.inputJobs (by simp only [hq]; exact List.mem_cons_of_mem job hx)
    · rcases CameraQueue.mem_of_mem_enqueue hx with hx | rfl
      · exact p.ongoingJobs hx
      · exact p.inputJobs (by simp [hq])
  | @refused job rest hongoing hq _ =>
    refine { p with jpegJobs := ?_ }
    intro x hx
    rcases List.mem_append.mp hx with hx | hx
    · exact p.inputJobs (by simp only [hq]; exact List.mem_cons_of_mem job hx)
    · exact p.ongoingJobs hx

theorem takeSettings (hactive : s.jpegSettingsQ.active = true) {n : Nat} {a b : List Nat}
    (hmerged : Merged (s.jpegSettingsQ.items.map JpegSettings.request) (n :: a) b)
    (hyounger : ∀ m ∈ b, n < m) :
    s.jpegSettingsQ.dequeue.1.map JpegSettings.request = some n ∧
      Merged (s.jpegSettingsQ.dequeue.2.items.map JpegSettings.request) a b := by
  obtain ⟨rest, hq, hrest⟩ := hmerged.take hyounger
  obtain ⟨x, xs, hitems, hx, rfl⟩ := List.map_eq_cons_iff.mp hq
  rw [CameraQueue.dequeue_cons hactive hitems]
  exact ⟨by simp [hx], hrest⟩

theorem PostPaired.forall₂_enqueue (p : PostPaired s frames metas) (hrunning : s.stopped = false)
    (hactive : s.ongoingPPQ.active = true) {job : PPJob} {r : Nat} (hjob : job.Of r)
    {pending : List Nat} (hchannel : s.reprocChannel = some pending) {node : Bool}
    (hnode : node = true) :
    List.Forall₂ PPJob.Of (s.ongoingPPQ.enqueue job node).2.items (pending ++ [r]) := by
  have hold := p.ongoing hrunning
  rw [hchannel] at hold
  rw [CameraQueue.enqueue_items hnode hactive]
  exact List.rel_append hold (.cons hjob .nil)

/-- The input buffer is older than the camera frames that are outstanding, and its job is
noted in `m_ongoingPPQ` if and only if the reprocess channel gets it. -/
def FwkInStep (s : PostProcessor) (frames : List Nat) (env : DataProcEnv) : Prop :=
  ∀ input ∈ s.inputFWKPPQ.items.head?,
    (∀ n ∈ s.inputPPQ.items.map SuperBuf.request ++ frames, input.request < n) ∧
      (env.job = true → s.reprocChannel ≠ none →
        env.node = true ∨ env.reprocesses = false ∧ s.ongoingPPQ.items = [])

theorem pairedFwkNext {env : DataProcEnv} (p : PostPaired s frames metas) (w : Working s)
    (hstage : s.stage = .fwkJobs) (hstep : FwkInStep s frames env) :
    PostPaired (s.fwkNext env) frames metas := by
  have hactive : s.ongoingPPQ.active = true := w.active (w.stage (by simp [hstage]))
  have hcases := fwkNext_step (s := s) env
  generalize s.fwkNext env = t at hcases ⊢
  -- what is known of the input buffer at the head
  have htake : ∀ {input : FwkInput} {rest : List FwkInput},
      s.inputFWKPPQ = ⟨input :: rest, true⟩ → s.stopped = false ∧
        s.jpegSettingsQ.dequeue.1.map JpegSettings.request = some input.request ∧
          Merged (s.jpegSettingsQ.dequeue.2.items.map JpegSettings.request)
            (s.inputPPQ.items.map SuperBuf.request ++ frames) (rest.map FwkInput.request) := by
    intro input rest hq
    have hmerged := p.merged.symm
    simp only [hq, List.map_cons] at hmerged
    obtain ⟨hhead, hrest⟩ := takeSettings w.settings hmerged (hstep input (by simp [hq])).1
    refine ⟨?_, hhead, hrest.symm⟩
    apply Bool.eq_false_iff.mpr
    intro hstopped
    have hnil := (p.nil_of_settings (p.stopped hstopped).1).2.2.2.2
    simp [hq] at hnil
  cases hcases with
  | idle => exact p
  | noMemory hq =>
    obtain ⟨hrunning, -, hmerged⟩ := htake hq
    refine { p with merged := hmerged, stopped := ?_ }
    simp [hrunning]
  | noChannel hq =>
    obtain ⟨hrunning, -, hmerged⟩ := htake hq
    refine { p with merged := hmerged, stopped := ?_ }
    simp [hrunning]
  | @submitted input rest pending hq hjob hchannel hok =>
    obtain ⟨hrunning, hhead, hmerged⟩ := htake hq
    have hnode : env.node = true := by
      rcases (hstep input (by simp [hq])).2 hjob (by simp [hchannel]) with h | ⟨h, -⟩
      · exact h
      · rw [hok] at h
        cases h
    have hof : (fwkJob s input).Of input.request :=
      ⟨hhead, nofun, fun x hx => by cases hx; rfl, nofun⟩
    constructor
    · exact p.metas
    · exact hmerged
    · intro _
      exact p.forall₂_enqueue hrunning hactive hof hchannel hnode
    · simp [hrunning]
    · simp [hactive]
    · exact p.jpegJobs
  | @refused input rest pending hq hjob hchannel hok =>
    obtain ⟨hrunning, -, hmerged⟩ := htake hq
    have hrestored : (s.ongoingPPQ.enqueue (fwkJob s input) env.node).2.dequeueTail.2 =
        s.ongoingPPQ := by
      rcases (hstep input (by simp [hq])).2 hjob (by simp [hchannel]) with h | ⟨-, h⟩
      · rw [CameraQueue.dequeueTail_enqueue h hactive]
      · exact dequeueTail_of_empty h _ _
    rw [hrestored]
    refine { p with merged := hmerged, stopped := ?_ }
    simp [hrunning]

/-- The frame is older than the input buffers that wait, and its job is noted in
`m_ongoingPPQ` if and only if the reprocess channel gets it. -/
def CameraInStep (s : PostProcessor) (env : DataProcEnv) : Prop :=
  ∀ frame ∈ s.inputPPQ.items.head?, s.inputMetaQ.items ≠ [] →
    (∀ n ∈ s.inputFWKPPQ.items.map FwkInput.request, frame.request < n) ∧
      (env.job = true → s.reprocChannel ≠ none →
        if env.extracts then env.node = true ∨ env.reprocesses = false ∧ s.ongoingPPQ.items = []
        else env.node = false)

section Camera

variable {ppFrame metaBuffer : SuperBuf} {fs ms : List SuperBuf} {env : DataProcEnv}

theorem PostPaired.takeCamera (p : PostPaired s frames metas) (w : Working s)
    (hframe : s.inputPPQ = ⟨ppFrame :: fs, true⟩) (hmeta : s.inputMetaQ = ⟨metaBuffer :: ms, true⟩)
    (hyounger : ∀ n ∈ s.inputFWKPPQ.items.map FwkInput.request, ppFrame.request < n) :
    s.stopped = false ∧ (cameraJob s ppFrame metaBuffer).Of ppFrame.request ∧
      PostPaired (takeCamera s fs ms) frames metas := by
  have hmetas := p.metas
  have hmerged := p.merged
  simp only [hframe, hmeta, List.map_cons, List.cons_append, List.cons.injEq] at hmetas hmerged
  obtain ⟨hhead, hrest⟩ := takeSettings w.settings hmerged hyounger
  have hrunning : s.stopped = false := by
    apply Bool.eq_false_iff.mpr
    intro hstopped
    have hnil := (p.nil_of_settings (p.stopped hstopped).1).1
    simp [hframe] at hnil
  refine ⟨hrunning, ?_, ?_⟩
  · constructor
    · exact hhead
    · simp [cameraJob]
    · exact nofun
    simp [cameraJob, hmetas]
  · constructor
    · exact hmetas.2
    · exact hrest
    · exact p.ongoing
    · intro hstopped
      exact absurd (show s.stopped = true from hstopped) (by simp [hrunning])
    · exact p.inactive
    · exact p.jpegJobs

theorem PostPaired.ongoing_nil (p : PostPaired s frames metas) (hrunning : s.stopped = false)
    (hchannel : s.reprocChannel = none) : s.ongoingPPQ.items = [] := by
  have hold := p.ongoing hrunning
  simp_all

theorem pairedDirect (p : PostPaired s frames metas) (hactive : s.ongoingPPQ.active = true)
    (hnone : s.ongoingPPQ.items = []) {job : PPJob} (hjob : job.Of ppFrame.request) {node : Bool}
    {rc : Int} (hstep : PPDataStep (addJob s job node) ppFrame env.jpeg (rc, t)) :
    PostPaired t frames metas := by
  generalize hr : (rc, t) = r at hstep
  cases hstep with
  | noJob hq =>
    cases hr
    have hnode := node_of_noJob hactive hq
    subst hnode
    exact { p with }
  | @dropped found rest rc hq =>
    cases hr
    obtain ⟨-, hrest, -⟩ := ongoing_addJob hnone hactive hq
    rw [hrest]
    exact { p with }
  | @queued found rest hq =>
    cases hr
    obtain ⟨rfl, hrest, -⟩ := ongoing_addJob hnone hactive hq
    rw [hrest]
    have hjpeg : (jpegJobOf found ppFrame (fresh (addJob s found node).heap)).Of ppFrame.request :=
      JpegJob.of_ppJob hjob rfl _
    exact { p with jpegJobs := p.enqueueJob hjpeg env.jpeg.node }

theorem pairedCameraNext (p : PostPaired s frames metas) (w : Working s)
    (hstage : s.stage = .cameraJobs) (hinStep : CameraInStep s env) :
    PostPaired (s.cameraNext env) frames metas := by
  have hactive : s.ongoingPPQ.active = true := w.active (w.stage (by simp [hstage]))
  have hcases := cameraNext_step (s := s) env
  generalize s.cameraNext env = t at hcases ⊢
  cases hcases with
  | idle => exact p
  | @noMemory ppFrame metaBuffer fs ms hframe hmeta hjob =>
    obtain ⟨hyounger, -⟩ := hinStep ppFrame (by simp [hframe]) (by simp [hmeta])
    exact { (p.takeCamera w hframe hmeta hyounger).2.2 with }
  | @started ppFrame metaBuffer fs ms t hframe hmeta hjob hstep =>
    obtain ⟨hyounger, hnoted⟩ := hinStep ppFrame (by simp [hframe]) (by simp [hmeta])
    obtain ⟨hrunning, hof, p'⟩ := p.takeCamera w hframe hmeta hyounger
    generalize hr : (true, t) = r at hstep
    cases hstep with
    | notExtracted => cases hr
    | refused => cases hr
    | @submitted pending hchannel hextract hok =>
      cases hr
      have hextracts := (Bool.and_eq_true_iff.mp hextract).2
      have hsome : s.reprocChannel ≠ none := by
        rw [show s.reprocChannel = some pending from hchannel]
        exact Option.some_ne_none _
      have hkept := hnoted hjob hsome
      rw [if_pos hextracts] at hkept
      have hnode : env.node = true := by
        simp_all
      refine { p' with ongoing := ?_, stopped := ?_, inactive := ?_ }
      · intro _
        exact p'.forall₂_enqueue hrunning hactive hof hchannel hnode
      · intro hstopped
        exact absurd (show s.stopped = true from hstopped) (by simp [hrunning])
      simp [addJob, takeCamera, hactive]
    | direct hchannel hstep =>
      obtain ⟨-, rfl⟩ := Prod.mk.inj hr
      exact pairedDirect p' hactive (p.ongoing_nil hrunning hchannel) hof hstep
  | @failed ppFrame metaBuffer fs ms t hframe hmeta hjob hstep =>
    obtain ⟨hyounger, hnoted⟩ := hinStep ppFrame (by simp [hframe]) (by simp [hmeta])
    obtain ⟨hrunning, hof, p'⟩ := p.takeCamera w hframe hmeta hyounger
    suffices hpaired : PostPaired t frames metas from { hpaired with }
    generalize hr : (false, t) = r at hstep
    cases hstep with
    | notExtracted hchannel hextract =>
      cases hr
      have hextracts : env.extracts = false := by
        obtain ⟨x, hx, -⟩ := Option.map_eq_some_iff.mp hof.settings
        simpa [extractFrameCropAndRotation, hx] using hextract
      have hnode := hnoted hjob hchannel
      rw [if_neg (by simp [hextracts])] at hnode
      rw [hnode]
      exact { p' with }
    | refused hchannel hextract hok =>
      cases hr
      have hextracts := (Bool.and_eq_true_iff.mp hextract).2
      have hkept := hnoted hjob hchannel
      rw [if_pos hextracts] at hkept
      have hrestored :
          (s.ongoingPPQ.enqueue (cameraJob s ppFrame metaBuffer) env.node).2.dequeueTail.2
          = s.ongoingPPQ := by
        rcases hkept with h | ⟨-, h⟩
        · rw [CameraQueue.dequeueTail_enqueue h hactive]
        · exact dequeueTail_of_empty h _ _
      simp only [addJob, PostProc.takeCamera]
      rw [hrestored]
      exact { p' with }
    | submitted => cases hr
    | direct hchannel hstep =>
      obtain ⟨-, rfl⟩ := Prod.mk.inj hr
      exact pairedDirect p' hactive (p.ongoing_nil hrunning hchannel) hof hstep

end Camera

end EtherDevice.PostProc
