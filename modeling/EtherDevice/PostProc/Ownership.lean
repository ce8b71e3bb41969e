import EtherDevice.PostProc.Steps

/-!
# The owners of the records

A record is referenced by an entry of a queue, or by the job that the entry is. Between
two steps of a function a record is also in hand. `Owned` is the balance of the records
with those in hand; it moves along the steps of each function.

The functions lose records where they fail, and `StopKeeps`, `EncodeKeeps`, `FwkKeeps`,
`CameraKeeps` and `CompletionKeeps` are the conditions under which they do not.
-/

namespace EtherDevice.PostProc

open Lib PostProcessor

/-! ## References -/

def PPJob.refs (job : PPJob) : List Ptr :=
  job.ptr :: ((job.srcFrame.map SuperBuf.ptr).toList ++
    ((job.fwkSrcFrame.map FwkInput.ptr).toList ++
    ((job.jpegSettings.map JpegSettings.ptr).toList ++ (job.srcMetadata.map SuperBuf.ptr).toList)))

def JpegJob.refs (job : JpegJob) : List Ptr :=
  job.ptr :: ((job.srcFrame.map SuperBuf.ptr).toList ++
    ((job.srcReprocFrame.map SuperBuf.ptr).toList ++ ((job.fwkFrame.map FwkInput.ptr).toList ++
      ((job.fwkSrcBuffer.map FwkInput.ptr).toList ++
        ((job.srcMetadata.map SuperBuf.ptr).toList ++
          (job.jpegSettings.map JpegSettings.ptr).toList)))))

def PostProcessor.refs (s : PostProcessor) : List Ptr :=
  s.inputPPQ.items.map SuperBuf.ptr ++ (s.inputMetaQ.items.map SuperBuf.ptr ++
    (s.inputFWKPPQ.items.map FwkInput.ptr ++ (s.jpegSettingsQ.items.map JpegSettings.ptr ++
      (s.ongoingPPQ.items.flatMap PPJob.refs ++ (s.inputJpegQ.items.flatMap JpegJob.refs ++
        s.ongoingJpegQ.items.flatMap JpegJob.refs)))))

def Lent (p : Ptr) : Prop := p.kind.isBuffer = true

/-! ## Well-formed jobs -/

inductive PPJob.Formed : PPJob → Prop
  | camera {serial : Nat} {frame metadata : SuperBuf} {settings : Option JpegSettings}
      (hframe : frame.stream = .snapshot) (hmeta : metadata.stream = .metadata) :
      PPJob.Formed ⟨serial, some frame, none, settings, some metadata⟩
  | framework {serial : Nat} {input : FwkInput} {settings : Option JpegSettings} :
      PPJob.Formed ⟨serial, none, some input, settings, none⟩

inductive JpegJob.Formed : JpegJob → Prop
  | direct {serial : Nat} {frame metadata : SuperBuf} {settings : Option JpegSettings}
      (hframe : frame.stream = .snapshot) (hmeta : metadata.stream = .metadata) :
      JpegJob.Formed ⟨serial, some frame, none, none, none, some metadata, settings⟩
  | reprocessed {serial : Nat} {result frame metadata : SuperBuf} {settings : Option JpegSettings}
      (hresult : result.stream = .reprocess) (hframe : frame.stream = .snapshot)
      (hmeta : metadata.stream = .metadata) :
      JpegJob.Formed ⟨serial, some result, some frame, none, none, some metadata, settings⟩
  | fwkReprocessed {serial : Nat} {result : SuperBuf} {input : FwkInput}
      {settings : Option JpegSettings} (hresult : result.stream = .reprocess) :
      JpegJob.Formed ⟨serial, some result, none, none, some input, none, settings⟩
  | fwkDirect {serial : Nat} {input : FwkInput} {settings : Option JpegSettings} :
      JpegJob.Formed ⟨serial, none, none, some input, none, none, settings⟩

theorem formed_jpegJobOf {job : PPJob} (hjob : job.Formed) {frame : SuperBuf}
    (hframe : frame.stream = .reprocess) (serial : Nat) :
    (jpegJobOf job frame serial).Formed := by
  cases hjob with
  | @camera n source metadata settings hsource hmeta =>
    have hne : frame ≠ source := by
      intro heq
      simp_all
    unfold jpegJobOf
    rw [if_pos (by simpa using hne)]
    exact .reprocessed hframe hsource hmeta
  | framework => exact .fwkReprocessed hframe

structure WellFormed (s : PostProcessor) : Prop where
  frames : ∀ frame ∈ s.inputPPQ.items, frame.stream = .snapshot
  metas : ∀ metadata ∈ s.inputMetaQ.items, metadata.stream = .metadata
  ppJobs : ∀ job ∈ s.ongoingPPQ.items, job.Formed
  inputJobs : ∀ job ∈ s.inputJpegQ.items, job.Formed
  ongoingJobs : ∀ job ∈ s.ongoingJpegQ.items, job.Formed

/-! ## What is released -/

variable {s t : PostProcessor} {h : Heap}

theorem frees_release {b : SuperBuf} : Heap.Frees Lent h (release h b) [b.ptr] :=
  Heap.frees_giveBack

theorem not_lent_settings (x : JpegSettings) : ¬ Lent x.ptr := nofun

theorem not_lent_fwkInput (x : FwkInput) : ¬ Lent x.ptr := nofun

theorem not_lent_ppJob (job : PPJob) : ¬ Lent job.ptr := nofun

theorem not_lent_jpegJob (job : JpegJob) : ¬ Lent job.ptr := nofun

theorem not_lent_reprocess {b : SuperBuf} (hb : b.stream = .reprocess) : ¬ Lent b.ptr := by
  unfold Lent SuperBuf.ptr
  rw [hb]
  exact nofun

theorem frees_free? {p : Option Ptr} (hp : ∀ q ∈ p, ¬ Lent q) :
    Heap.Frees Lent h (free? h p) p.toList := by
  cases p with
  | none => exact .none
  | some q => exact Heap.frees_free (hp q rfl)

theorem frees_settings (x : Option JpegSettings) :
    Heap.Frees Lent h (free? h (x.map JpegSettings.ptr)) (x.map JpegSettings.ptr).toList := by
  simp [frees_free?, not_lent_settings]

theorem frees_jpegJob {job : JpegJob} (hjob : job.Formed) (hsnapshot : job.snapshot = none) :
    Heap.Frees Lent h ((releaseJpegJob h job).free job.ptr) job.refs := by
  cases hjob with
  | direct hframe => simp [JpegJob.snapshot, hframe] at hsnapshot
  | reprocessed _ hframe => simp [JpegJob.snapshot, hframe] at hsnapshot
  | @fwkReprocessed serial result input settings hresult =>
    have hfirst := Heap.frees_free (h := h) (not_lent_reprocess hresult)
    have hinput := hfirst.trans (Heap.frees_free (not_lent_fwkInput input))
    have hsettings := hinput.trans (frees_settings settings)
    apply (hsettings.trans (Heap.frees_free (not_lent_jpegJob _))).of_count
    grind [JpegJob.refs]
  | @fwkDirect serial input settings =>
    have hinput := Heap.frees_free (h := h) (not_lent_fwkInput input)
    have hsettings := hinput.trans (frees_settings settings)
    apply (hsettings.trans (Heap.frees_free (not_lent_jpegJob _))).of_count
    grind [JpegJob.refs]

theorem frees_finished {job : JpegJob} (hjob : job.Formed) {frame : SuperBuf}
    (hsnapshot : job.snapshot = some frame) :
    Heap.Frees Lent h ((releaseJpegJob (h.giveBack frame.ptr) job).free job.ptr) job.refs := by
  cases hjob with
  | @direct serial frame' metadata settings hframe hmeta =>
    obtain ⟨rfl, -⟩ : frame' = frame ∧ frame.stream = .snapshot := by
      simpa [JpegJob.snapshot] using hsnapshot
    have hfirst : Heap.Frees Lent h _ [frame'.ptr] := Heap.frees_giveBack
    have hmetadata := hfirst.trans (frees_release (b := metadata))
    have hsettings := hmetadata.trans (frees_settings settings)
    apply (hsettings.trans (Heap.frees_free (not_lent_jpegJob _))).of_count
    grind [JpegJob.refs]
  | @reprocessed serial result frame' metadata settings hresult hframe hmeta =>
    obtain ⟨rfl, -⟩ : frame' = frame ∧ frame.stream = .snapshot := by
      simpa [JpegJob.snapshot] using hsnapshot
    have hfirst : Heap.Frees Lent h _ [frame'.ptr] := Heap.frees_giveBack
    have hnext := hfirst.trans (Heap.frees_free (not_lent_reprocess hresult))
    have hmetadata := hnext.trans (frees_release (b := metadata))
    have hsettings := hmetadata.trans (frees_settings settings)
    apply (hsettings.trans (Heap.frees_free (not_lent_jpegJob _))).of_count
    grind [JpegJob.refs]
  | @fwkReprocessed serial result input settings hresult =>
    simp_all [JpegJob.snapshot]
  | fwkDirect => simp [JpegJob.snapshot] at hsnapshot

theorem frees_ppJob {job : PPJob} (hjob : job.Formed) (hsettings : job.jpegSettings = none) :
    Heap.Frees Lent h ((releaseOngoingPP h job).free job.ptr) job.refs := by
  cases hjob with
  | @camera serial frame metadata settings hframe hmeta =>
    have hfirst := frees_release (h := h) (b := frame)
    have hmetadata := hfirst.trans (frees_release (b := metadata))
    apply (hmetadata.trans (Heap.frees_free (not_lent_ppJob _))).of_count
    grind [PPJob.refs]
  | @framework serial input settings =>
    have hinput := Heap.frees_free (h := h) (not_lent_fwkInput input)
    apply (hinput.trans (Heap.frees_free (not_lent_ppJob _))).of_count
    grind [PPJob.refs]

/-! ## The balance -/

/-- What is in hand or in the queues was made and not freed, each of it once, and the rest
was freed once. -/
structure Owned (hand : List Ptr) (s : PostProcessor) : Prop where
  numbered : ∀ p ∈ s.heap.made, p.serial < s.heap.made.length
  balanced : s.heap.Balanced Lent (hand ++ s.refs)
  formed : WellFormed s

variable {hand hand' : List Ptr}

theorem count_refs (p : Ptr) : s.refs.count p =
    (s.inputPPQ.items.map SuperBuf.ptr).count p + (s.inputMetaQ.items.map SuperBuf.ptr).count p +
      (s.inputFWKPPQ.items.map FwkInput.ptr).count p +
      (s.jpegSettingsQ.items.map JpegSettings.ptr).count p +
      (s.ongoingPPQ.items.flatMap PPJob.refs).count p +
      (s.inputJpegQ.items.flatMap JpegJob.refs).count p +
      (s.ongoingJpegQ.items.flatMap JpegJob.refs).count p := by
  unfold PostProcessor.refs
  simp only [List.count_append]
  omega

theorem Owned.move (o : Owned hand s) (hheap : t.heap = s.heap)
    (hcount : ∀ p, hand'.count p + t.refs.count p = hand.count p + s.refs.count p)
    (hformed : WellFormed t) : Owned hand' t where
  numbered := by
    rw [hheap]
    exact o.numbered
  balanced := by
    simp [hheap, o.balanced.move, hcount]
  formed := hformed

theorem Owned.malloc (o : Owned hand s) (kind : RecordKind) :
    Owned (⟨kind, fresh s.heap⟩ :: hand) { s with heap := malloc s.heap kind } where
  numbered p hp := by
    have hlen : (PostProc.malloc s.heap kind).made.length = s.heap.made.length + 1 := by
      simp [PostProc.malloc, Heap.alloc]
    rw [show ({ s with heap := PostProc.malloc s.heap kind } : PostProcessor).heap.made.length =
      s.heap.made.length + 1 from hlen]
    rcases List.mem_append.mp hp with hold | hnew
    · have hlt := o.numbered p hold
      omega
    · obtain rfl := List.mem_singleton.mp hnew
      exact Nat.lt_succ_self _
  balanced := by
    apply o.balanced.alloc
    · intro hmem
      exact Nat.lt_irrefl _ (o.numbered _ hmem)
    · intro p
      show ((⟨kind, fresh s.heap⟩ :: hand) ++ s.refs).count p = _
      simp [List.count_cons]
  formed := { o.formed with }

theorem Owned.frees (o : Owned hand s) {ps : List Ptr} (hf : Heap.Frees Lent s.heap t.heap ps)
    (hcount : ∀ p, hand'.count p + t.refs.count p + ps.count p = hand.count p + s.refs.count p)
    (hformed : WellFormed t) : Owned hand' t where
  numbered := by
    rw [hf.made]
    exact o.numbered
  balanced := by
    apply o.balanced.frees hf
    simp [hcount]
  formed := hformed

theorem Owned.free_hand (o : Owned hand s) (hf : Heap.Frees Lent s.heap h hand) :
    Owned [] { s with heap := h } :=
  o.frees hf (fun p => by
    show [].count p + s.refs.count p + hand.count p = _
    rw [List.count_nil]
    omega) { o.formed with }

theorem Owned.sendCmd (o : Owned hand s) (cmd : Cmd) (priority : Bool) :
    Owned hand (s.sendCmd cmd priority) :=
  o.move rfl (fun _ => rfl) { o.formed with }

/-! ## Input -/

theorem owned_processData (frame : SuperBuf) {node : Bool} (o : Owned [frame.ptr] s)
    (hframe : frame.stream = .snapshot) (hnode : node = true) (hactive : s.inputPPQ.active = true) :
    Owned [] (s.processData frame node) := by
  have o' : Owned [] { s with inputPPQ := (s.inputPPQ.enqueue frame node).2 } := by
    rw [CameraQueue.enqueue_ok hnode hactive]
    refine o.move rfl ?_ ?_
    · grind [count_refs]
    · refine { o.formed with frames := ?_ }
      intro f hf
      rcases List.mem_append.mp hf with hf | hf
      · exact o.formed.frames f hf
      simp_all
  simp only [processData]
  split
  · exact o'
  · exact o'.sendCmd _ _

theorem owned_processPPMetadata (metadata : SuperBuf) {node : Bool} (o : Owned [metadata.ptr] s)
    (hmeta : metadata.stream = .metadata) (hnode : node = true)
    (hactive : s.inputMetaQ.active = true) : Owned [] (s.processPPMetadata metadata node) := by
  have o' : Owned [] { s with inputMetaQ := (s.inputMetaQ.enqueue metadata node).2 } := by
    rw [CameraQueue.enqueue_ok hnode hactive]
    refine o.move rfl ?_ ?_
    · grind [count_refs]
    · refine { o.formed with metas := ?_ }
      intro m hm
      rcases List.mem_append.mp hm with hm | hm
      · exact o.formed.metas m hm
      simp_all
  simp only [processPPMetadata]
  split
  · exact o'
  · exact o'.sendCmd _ _

theorem owned_processJpegSettingData (settings : JpegSettings) {node : Bool}
    (o : Owned [settings.ptr] s) (hnode : node = true) (hactive : s.jpegSettingsQ.active = true) :
    Owned [] (s.processJpegSettingData settings node).2 := by
  simp only [processJpegSettingData, CameraQueue.enqueue_ok hnode hactive]
  refine o.move rfl ?_ ?_
  · grind [count_refs]
  · exact { o.formed with }

def FwkDataKeeps (s : PostProcessor) (env : JobEnv) : Prop :=
  if s.needReprocess then env.node = true ∧ s.inputFWKPPQ.active = true
  else s.jpegSettingsQ.items ≠ [] ∧ env.job = true ∧ env.node = true ∧ s.inputJpegQ.active = true

theorem owned_processFwkData {frame : FwkInput} {env : JobEnv} (o : Owned [frame.ptr] s)
    (w : Working s) (hkeeps : FwkDataKeeps s env) : Owned [] (s.processFwkData frame env).2 := by
  unfold FwkDataKeeps at hkeeps
  simp only [processFwkData]
  split at hkeeps
  · rename_i hneed
    rw [if_pos hneed, CameraQueue.enqueue_ok hkeeps.1 hkeeps.2]
    apply Owned.sendCmd
    refine o.move rfl ?_ ?_
    · grind [count_refs]
    · exact { o.formed with }
  · rename_i hneed
    obtain ⟨hsettings, hjob, hnode, hactive⟩ := hkeeps
    rw [if_neg hneed]
    rcases s.jpegSettingsQ.dequeue_cases with ⟨x, rest, hq, hdeq⟩ | ⟨-, hempty⟩
    · rw [hdeq]
      simp only [hjob, if_true, CameraQueue.enqueue_ok hnode hactive]
      apply Owned.sendCmd
      refine (o.malloc .jpegJob).move rfl ?_ ?_
      · grind [count_refs, JpegJob.refs, JpegJob.ptr]
      · refine { o.formed with inputJobs := ?_ }
        intro job hmem
        rcases List.mem_append.mp hmem with hmem | hmem
        · exact o.formed.inputJobs job hmem
        · rw [List.mem_singleton.mp hmem]
          exact .fwkDirect
    · exact absurd (hempty w.settings) hsettings

/-! ## Reprocessed frames -/

def CompletionKeeps (s : PostProcessor) (env : JobEnv) : Prop :=
  s.ongoingPPQ.active = true ∧ s.ongoingPPQ.items ≠ [] ∧
    (∀ job ∈ s.ongoingPPQ.items.head?, job.jpegSettings ≠ none) ∧ env.job = true ∧ env.node = true

theorem count_jpegJobOf {job : PPJob} (hjob : job.Formed) {frame : SuperBuf}
    (hframe : frame.stream = .reprocess) (serial : Nat) (p : Ptr) :
    (jpegJobOf job frame serial).refs.count p + [job.ptr].count p =
      [Ptr.mk .jpegJob serial].count p + [frame.ptr].count p + job.refs.count p := by
  cases hjob with
  | @camera n source metadata settings hsource hmeta =>
    have hne : frame ≠ source := by
      intro heq
      simp_all
    unfold jpegJobOf
    rw [if_pos (by simpa using hne)]
    grind [JpegJob.refs, PPJob.refs, JpegJob.ptr]
  | framework =>
    simp only [jpegJobOf, ne_eq, reduceCtorEq, not_false_eq_true, if_true, JpegJob.refs, PPJob.refs,
      JpegJob.ptr, Option.map_some, Option.map_none, Option.toList_some, Option.toList_none,
      List.count_cons, List.count_append, List.count_nil]
    omega

theorem owned_processPPData (frame : SuperBuf) {env : JobEnv} (o : Owned [frame.ptr] s)
    (w : Working s) (hframe : frame.stream = .reprocess) (hkeeps : CompletionKeeps s env) :
    Owned [] (s.processPPData frame env).2 := by
  obtain ⟨hactive, hne, hsettings, hjob, hnode⟩ := hkeeps
  have hstep := processPPData_step (s := s) frame env
  generalize s.processPPData frame env = r at hstep ⊢
  cases hstep with
  | noJob hq =>
    rcases s.ongoingPPQ.dequeue_cases with ⟨job, rest, -, hdeq⟩ | ⟨-, hempty⟩
    · rw [hdeq] at hq
      cases hq
    · exact absurd (hempty hactive) hne
  | @dropped job rest rc hq hrc hwhy =>
    have hformed : job.Formed := o.formed.ppJobs job (by simp [hq])
    have hhas : job.jpegSettings ≠ none := hsettings job (by simp [hq])
    rcases hwhy with ⟨hsrc, hfwk⟩ | hnone | hmalloc
    · cases hformed with
      | camera => cases hsrc
      | framework => cases hfwk
    · exact absurd hnone hhas
    simp_all
  | @queued job rest hq hhas _ =>
    have hformed : job.Formed := o.formed.ppJobs job (by simp [hq])
    apply Owned.sendCmd
    rw [CameraQueue.enqueue_ok hnode (w.jpeg.trans hactive)]
    refine (o.malloc .jpegJob).frees (Heap.frees_free (not_lent_ppJob job)) ?_ ?_
    · grind [count_jpegJobOf, count_refs]
    · refine { o.formed with ppJobs := ?_, inputJobs := ?_ }
      · intro job' hmem
        exact o.formed.ppJobs job' (by simp only [hq]; exact List.mem_cons_of_mem job hmem)
      · intro job' hmem
        rcases List.mem_append.mp hmem with hmem | hmem
        · exact o.formed.inputJobs job' hmem
        simp_all [formed_jpegJobOf]

/-! ## The parts of a pass -/

/-- A job for the encoder is noted before it is submitted; a job that the encoder refuses
has no snapshot buffer, which nobody would give back. -/
def EncodeKeeps (s : PostProcessor) (env : DataProcEnv) : Prop :=
  s.ongoingJpegQ.items = [] → ∀ job ∈ s.inputJpegQ.items.head?,
    if env.encodes then env.node = true else job.snapshot = none

theorem owned_encodeNext {env : DataProcEnv} (o : Owned [] s) (w : Working s)
    (hkeeps : EncodeKeeps s env) : Owned [] (s.encodeNext env) := by
  have hstep := encodeNext_step (s := s) env
  generalize s.encodeNext env = t at hstep ⊢
  cases hstep with
  | idle => exact o
  | @submitted job rest hongoing hq hok =>
    have hnode := hkeeps hongoing job (by simp [hq])
    rw [if_pos hok] at hnode
    rw [CameraQueue.enqueue_ok hnode w.encoder]
    refine o.move rfl ?_ ?_
    · grind [count_refs]
    · refine { o.formed with inputJobs := ?_, ongoingJobs := ?_ }
      · intro job' hmem
        exact o.formed.inputJobs job' (by simp only [hq]; exact List.mem_cons_of_mem job hmem)
      simp [hongoing, o.formed.inputJobs, hq]
  | @refused job rest hongoing hq hok =>
    have hsnapshot := hkeeps hongoing job (by simp [hq])
    rw [if_neg (by simp [hok])] at hsnapshot
    have hformed : job.Formed := o.formed.inputJobs job (by simp [hq])
    refine o.frees (frees_jpegJob hformed hsnapshot) ?_ ?_
    · intro p
      simp only [releaseJpegJobData, PostProcessor.sendCmd, PostProcessor.free, count_refs, hq,
        List.flatMap_cons, List.count_append, List.count_nil]
      omega
    · refine { o.formed with inputJobs := ?_ }
      intro job' hmem
      exact o.formed.inputJobs job' (by simp only [hq]; exact List.mem_cons_of_mem job hmem)

/-- The input buffer gets no settings if its job fails. If the reprocess channel refuses
it, the entry that is taken out of `m_ongoingPPQ` is its own. -/
def FwkKeeps (s : PostProcessor) (env : DataProcEnv) : Prop :=
  s.inputFWKPPQ.items ≠ [] →
    if env.job = true ∧ s.reprocChannel ≠ none then
      if env.reprocesses then env.node = true
      else s.jpegSettingsQ.items = [] ∧ (env.node = true ∨ s.ongoingPPQ.items = [])
    else s.jpegSettingsQ.items = []

theorem count_dequeue {α : Type} (q : CameraQueue α) (ptr : α → Ptr) (p : Ptr) :
    (q.items.map ptr).count p =
      (q.dequeue.1.map ptr).toList.count p + (q.dequeue.2.items.map ptr).count p := by
  rw [← CameraQueue.dequeue_items, List.map_append, List.count_append, Option.toList_map]

theorem dequeue_settings_none (hempty : s.jpegSettingsQ.items = []) :
    s.jpegSettingsQ.dequeue = (none, s.jpegSettingsQ) :=
  CameraQueue.dequeue_none hempty

theorem formed_fwkJob (fwkFrame : FwkInput) : (fwkJob s fwkFrame).Formed := .framework

theorem owned_fwkNext {env : DataProcEnv} (o : Owned [] s) (w : Working s)
    (hstage : s.stage = .fwkJobs) (hkeeps : FwkKeeps s env) : Owned [] (s.fwkNext env) := by
  have hongoing : s.ongoingPPQ.active = true := w.active (w.stage (by simp [hstage]))
  have hstep := fwkNext_step (s := s) env
  generalize s.fwkNext env = t at hstep ⊢
  cases hstep with
  | idle => exact o
  | @noMemory fwkFrame rest hq hjob =>
    have hempty := hkeeps (by simp [hq])
    rw [if_neg (by simp [hjob])] at hempty
    rw [dequeue_settings_none hempty]
    refine o.frees (Heap.frees_free (not_lent_fwkInput fwkFrame)) ?_ ?_
    · intro p
      simp only [count_refs, hq, List.map_cons, List.count_cons, List.count_nil]
      omega
    · exact { o.formed with }
  | @noChannel fwkFrame rest hq hjob hchannel =>
    have hempty := hkeeps (by simp [hq])
    rw [if_neg (by simp [hchannel])] at hempty
    rw [dequeue_settings_none hempty]
    have hfrees := (Heap.frees_free (h := malloc s.heap .ppJob)
      (not_lent_ppJob (fwkJob s fwkFrame))).trans (Heap.frees_free (not_lent_fwkInput fwkFrame))
    refine (o.malloc .ppJob).frees hfrees ?_ ?_
    · grind [count_refs, PPJob.ptr, fwkJob]
    · exact { o.formed with }
  | @submitted fwkFrame rest pending hq hjob hchannel hok =>
    have hnode := hkeeps (by simp [hq])
    rw [if_pos ⟨hjob, by simp [hchannel]⟩, if_pos hok] at hnode
    rw [CameraQueue.enqueue_ok hnode hongoing]
    refine (o.malloc .ppJob).move rfl ?_ ?_
    · grind [count_dequeue, count_refs, PPJob.refs, PPJob.ptr, fwkJob]
    · refine { o.formed with ppJobs := ?_ }
      intro job hmem
      rcases List.mem_append.mp hmem with hmem | hmem
      · exact o.formed.ppJobs job hmem
      simp_all [formed_fwkJob]
  | @refused fwkFrame rest pending hq hjob hchannel hok =>
    have hkept := hkeeps (by simp [hq])
    rw [if_pos ⟨hjob, by simp [hchannel]⟩, if_neg (by simp [hok])] at hkept
    obtain ⟨hempty, hown⟩ := hkept
    have hrestored : (s.ongoingPPQ.enqueue (fwkJob s fwkFrame) env.node).2.dequeueTail.2 =
        s.ongoingPPQ := by
      rcases hown with hnode | hnone
      · rw [CameraQueue.dequeueTail_enqueue hnode hongoing]
      · exact dequeueTail_of_empty hnone _ _
    rw [dequeue_settings_none hempty, hrestored]
    have hfrees := (Heap.frees_free (h := malloc s.heap .ppJob)
      (not_lent_ppJob (fwkJob s fwkFrame))).trans (Heap.frees_free (not_lent_fwkInput fwkFrame))
    refine (o.malloc .ppJob).frees hfrees ?_ ?_
    · grind [count_refs, PPJob.ptr, fwkJob]
    · exact { o.formed with }

/-- A camera frame gets no settings if its job fails. A job that
`extractFrameCropAndRotation` refuses was not added to `m_ongoingPPQ`. Without a reprocess
channel no other job is in `m_ongoingPPQ`. -/
def CameraKeeps (s : PostProcessor) (env : DataProcEnv) : Prop :=
  s.inputPPQ.items ≠ [] → s.inputMetaQ.items ≠ [] →
    if env.job = true then
      if s.reprocChannel ≠ none then
        if s.jpegSettingsQ.items ≠ [] ∧ env.extracts = true then
          env.reprocesses = true ∧ env.node = true
        else s.jpegSettingsQ.items = [] ∧ env.node = false
      else s.ongoingPPQ.items = [] ∧ (s.jpegSettingsQ.items ≠ [] →
        env.node = true ∧ env.jpeg.job = true ∧ env.jpeg.node = true)
    else s.jpegSettingsQ.items = []

section Camera

variable {ppFrame metaBuffer : SuperBuf} {frames metas : List SuperBuf} {env : DataProcEnv}

theorem formed_cameraJob (f : WellFormed s) (hframe : s.inputPPQ = ⟨ppFrame :: frames, true⟩)
    (hmeta : s.inputMetaQ = ⟨metaBuffer :: metas, true⟩) :
    (cameraJob s ppFrame metaBuffer).Formed :=
  .camera (f.frames ppFrame (by simp [hframe])) (f.metas metaBuffer (by simp [hmeta]))

theorem formed_takeCamera (f : WellFormed s) (hframe : s.inputPPQ = ⟨ppFrame :: frames, true⟩)
    (hmeta : s.inputMetaQ = ⟨metaBuffer :: metas, true⟩) :
    WellFormed (takeCamera s frames metas) where
  frames frame hmem := f.frames frame (by simp only [hframe]; exact List.mem_cons_of_mem _ hmem)
  metas m hmem := f.metas m (by simp only [hmeta]; exact List.mem_cons_of_mem _ hmem)
  ppJobs := f.ppJobs
  inputJobs := f.inputJobs
  ongoingJobs := f.ongoingJobs

theorem owned_dropCamera (o : Owned [] s) (hframe : s.inputPPQ = ⟨ppFrame :: frames, true⟩)
    (hmeta : s.inputMetaQ = ⟨metaBuffer :: metas, true⟩) (hempty : s.jpegSettingsQ.items = []) :
    Owned [] ((takeCamera s frames metas).dropCamera none ppFrame metaBuffer) ∧
      Owned [] ({ takeCamera s frames metas with heap := malloc s.heap .ppJob }.dropCamera
        (some (cameraJob s ppFrame metaBuffer).ptr) ppFrame metaBuffer) := by
  have hformed := formed_takeCamera o.formed hframe hmeta
  constructor
  · have hfrees := (frees_release (h := s.heap) (b := ppFrame)).trans
      (frees_release (b := metaBuffer))
    refine o.frees hfrees ?_ { hformed with }
    grind [dropCamera, takeCamera, dequeue_settings_none, count_refs]
  · have hjob := Heap.frees_free (h := malloc s.heap .ppJob)
      (not_lent_ppJob (cameraJob s ppFrame metaBuffer))
    have hfrees := (hjob.trans (frees_release (b := ppFrame))).trans
      (frees_release (b := metaBuffer))
    refine (o.malloc .ppJob).frees hfrees ?_ { hformed with }
    grind [dropCamera, takeCamera, dequeue_settings_none, count_refs, PPJob.ptr, cameraJob]

theorem owned_addJob (o : Owned [] s)
    (hframe : s.inputPPQ = ⟨ppFrame :: frames, true⟩)
    (hmeta : s.inputMetaQ = ⟨metaBuffer :: metas, true⟩) (hnode : env.node = true)
    (hongoing : s.ongoingPPQ.active = true) :
    Owned [] (addJob (takeCamera s frames metas) (cameraJob s ppFrame metaBuffer) env.node) := by
  unfold addJob
  rw [CameraQueue.enqueue_ok hnode (show (takeCamera s frames metas).ongoingPPQ.active = true from
    hongoing)]
  refine (o.malloc .ppJob).move rfl ?_ ?_
  · intro p
    have hsettings := count_dequeue s.jpegSettingsQ JpegSettings.ptr p
    simp only [takeCamera, count_refs, hframe, hmeta, PPJob.refs, PPJob.ptr, cameraJob,
      Option.map_some, Option.map_none, Option.toList_some, Option.toList_none, List.map_cons,
      List.flatMap_append, List.flatMap_cons, List.flatMap_nil, List.count_append,
      List.count_cons, List.count_nil] at hsettings ⊢
    omega
  · refine { formed_takeCamera o.formed hframe hmeta with ppJobs := ?_ }
    intro job hmem
    rcases List.mem_append.mp hmem with hmem | hmem
    · exact o.formed.ppJobs job hmem
    · rw [List.mem_singleton.mp hmem]
      exact formed_cameraJob o.formed hframe hmeta

theorem owned_direct {rest : List PPJob} {job : PPJob} {env' : JobEnv}
    (o : Owned [] s) (hactive : s.inputJpegQ.active = true)
    (hq : s.ongoingPPQ = ⟨job :: rest, true⟩)
    (hjob : job.srcFrame = some ppFrame) (hnode : env'.node = true) :
    Owned [] ({ s with
      ongoingPPQ := ⟨rest, true⟩
      heap := (malloc s.heap .jpegJob).free job.ptr
      inputJpegQ := (s.inputJpegQ.enqueue (jpegJobOf job ppFrame (fresh s.heap)) env'.node).2
        }.sendCmd .doNextJob) := by
  have hformed : job.Formed := o.formed.ppJobs job (by simp [hq])
  cases hformed with
  | @camera serial frame metadata settings hsource hmeta =>
    obtain rfl : frame = ppFrame := by simpa using hjob
    apply Owned.sendCmd
    rw [CameraQueue.enqueue_ok hnode hactive]
    refine (o.malloc .jpegJob).frees (Heap.frees_free (not_lent_ppJob _)) ?_ ?_
    · intro p
      simp only [count_refs, hq, jpegJobOf, JpegJob.refs, PPJob.refs, JpegJob.ptr, ne_eq,
        not_true_eq_false, if_false, Option.map_some, Option.map_none, Option.toList_some,
        Option.toList_none, List.flatMap_append, List.flatMap_cons, List.flatMap_nil,
        List.count_append, List.count_cons, List.count_nil]
      omega
    · refine { o.formed with ppJobs := ?_, inputJobs := ?_ }
      · intro job' hmem
        exact o.formed.ppJobs job' (by simp only [hq]; exact List.mem_cons_of_mem _ hmem)
      · intro job' hmem
        rcases List.mem_append.mp hmem with hmem | hmem
        · exact o.formed.inputJobs job' hmem
        · rw [List.mem_singleton.mp hmem]
          unfold jpegJobOf
          rw [if_neg (by simp)]
          exact .direct hsource hmeta
  | framework => cases hjob

theorem extract_false (h : extractFrameCropAndRotation s.jpegSettingsQ.dequeue.1 env.extracts =
    false) (hsettings : s.jpegSettingsQ.active = true) :
    ¬ (s.jpegSettingsQ.items ≠ [] ∧ env.extracts = true) := by
  rintro ⟨hne, hextracts⟩
  rcases s.jpegSettingsQ.dequeue_cases with ⟨x, rest, -, hdeq⟩ | ⟨-, hempty⟩
  · simp [extractFrameCropAndRotation, hdeq, hextracts] at h
  · exact hne (hempty hsettings)

theorem extract_true (h : extractFrameCropAndRotation s.jpegSettingsQ.dequeue.1 env.extracts =
    true) : s.jpegSettingsQ.items ≠ [] ∧ env.extracts = true := by
  obtain ⟨hsome, hextracts⟩ := Bool.and_eq_true_iff.mp h
  refine ⟨?_, hextracts⟩
  intro hempty
  rw [dequeue_settings_none hempty] at hsome
  cases hsome

theorem owned_cameraNext (o : Owned [] s) (w : Working s) (hstage : s.stage = .cameraJobs)
    (hkeeps : CameraKeeps s env) : Owned [] (s.cameraNext env) := by
  have hongoing : s.ongoingPPQ.active = true := w.active (w.stage (by simp [hstage]))
  have hstep := cameraNext_step (s := s) env
  generalize s.cameraNext env = t at hstep ⊢
  cases hstep with
  | idle => exact o
  | noMemory hframe hmeta hjob =>
    have hempty := hkeeps (by simp [hframe]) (by simp [hmeta])
    simp_all [owned_dropCamera]
  | @started ppFrame metaBuffer frames metas t hframe hmeta hjob hstep =>
    have hkept := hkeeps (by simp [hframe]) (by simp [hmeta])
    rw [if_pos hjob] at hkept
    generalize hr : (true, t) = r at hstep
    cases hstep with
    | notExtracted => cases hr
    | refused => cases hr
    | submitted hchannel hextract hok =>
      cases hr
      have hsome : s.reprocChannel ≠ none := by
        rw [show s.reprocChannel = some _ from hchannel]
        exact Option.some_ne_none _
      rw [if_pos hsome, if_pos (extract_true hextract)] at hkept
      have o' := owned_addJob o hframe hmeta hkept.2 hongoing
      exact o'.move rfl (fun _ => rfl) { o'.formed with }
    | @direct rc u hchannel hstep =>
      obtain ⟨hrc, rfl⟩ := Prod.mk.inj hr
      have hrc : rc = NO_ERROR := by simpa using hrc.symm
      rw [if_neg (by simpa using show s.reprocChannel = none from hchannel)] at hkept
      obtain ⟨hnone, hsettings⟩ := hkept
      generalize hr : (rc, t) = r at hstep
      cases hstep with
      | noJob =>
        cases hr
        cases hrc
      | dropped _ hne =>
        cases hr
        exact absurd hrc hne
      | @queued job rest hq hhas hjpeg =>
        cases hr
        obtain ⟨rfl, -, hnode⟩ := ongoing_addJob (s := takeCamera s frames metas) hnone hongoing hq
        have hne : s.jpegSettingsQ.items ≠ [] := by
          intro hempty
          exact hhas (by simp [cameraJob, dequeue_settings_none hempty])
        have o' := owned_addJob o hframe hmeta hnode hongoing
        exact owned_direct o' (w.jpeg.trans hongoing) hq rfl (hsettings hne).2.2
  | @failed ppFrame metaBuffer frames metas t hframe hmeta hjob hstep =>
    have hkept := hkeeps (by simp [hframe]) (by simp [hmeta])
    rw [if_pos hjob] at hkept
    -- there are no settings, and the jobs are those from before
    suffices hfail : s.jpegSettingsQ.items = [] ∧
        t = { takeCamera s frames metas with heap := malloc s.heap .ppJob } by
      simp_all [owned_dropCamera]
    generalize hr : (false, t) = r at hstep
    cases hstep with
    | notExtracted hchannel hextract =>
      cases hr
      rw [if_pos (show s.reprocChannel ≠ none from hchannel),
        if_neg (extract_false hextract w.settings)] at hkept
      simp [addJob, takeCamera, CameraQueue.enqueue, hkept]
    | refused hchannel hextract hok =>
      rw [if_pos (show s.reprocChannel ≠ none from hchannel), if_pos (extract_true hextract),
        hok] at hkept
      cases hkept.1
    | submitted => cases hr
    | @direct rc u hchannel hstep =>
      obtain ⟨hrc, rfl⟩ := Prod.mk.inj hr
      have hrc : rc ≠ NO_ERROR := by simpa using hrc.symm
      rw [if_neg (by simpa using show s.reprocChannel = none from hchannel)] at hkept
      obtain ⟨hnone, hsettings⟩ := hkept
      generalize hr : (rc, t) = r at hstep
      cases hstep with
      | noJob hq =>
        grind [node_of_noJob, takeCamera, addJob, CameraQueue.enqueue]
      | @dropped job rest rc hq _ hwhy =>
        cases hr
        obtain ⟨rfl, hrest, hnode⟩ :=
          ongoing_addJob (s := takeCamera s frames metas) hnone hongoing hq
        have hempty : s.jpegSettingsQ.items = [] := by
          by_contra hne
          obtain ⟨-, hjpeg, -⟩ := hsettings hne
          rcases hwhy with ⟨hsrc, -⟩ | hsettingsNone | hfalse
          · cases hsrc
          · exact hne (CameraQueue.items_of_dequeue w.settings hsettingsNone)
          simp_all
        refine ⟨hempty, ?_⟩
        rw [hrest]
        rfl
      | queued =>
        cases hr
        exact absurd rfl hrc

end Camera

end EtherDevice.PostProc
