import EtherDevice.PostProc.Ownership
import Mathlib.Data.List.Nodup
import Mathlib.Data.List.Perm.Subperm

/-!
# The pool of the snapshot buffers

A request takes an index from the free list, and the index comes back when the image is encoded.
Every other way out of the post-processor loses it: a frame that is refused goes to the kernel with
no request for it, and a stop does not fill the list again.
-/

namespace EtherDevice.PostProc

open Lib PostProcessor

/-! ## Places -/

def SuperBuf.index? (b : SuperBuf) : Option Nat :=
  if b.stream = .snapshot then some b.bufIdx else none

def PPJob.index? (job : PPJob) : Option Nat := job.srcFrame.bind SuperBuf.index?

def JpegJob.index? (job : JpegJob) : Option Nat := job.snapshot.map SuperBuf.bufIdx

def PostProcessor.indices (s : PostProcessor) : List Nat :=
  s.inputPPQ.items.filterMap SuperBuf.index? ++ s.ongoingPPQ.items.filterMap PPJob.index? ++
    s.inputJpegQ.items.filterMap JpegJob.index? ++ s.ongoingJpegQ.items.filterMap JpegJob.index?

namespace PicChannel

variable (c : PicChannel)

def inFlight : List Nat := c.awaitingFrame.map Prod.snd ++ c.postprocessor.indices

/-- Each buffer is at one place. Those of no request are free, so a request gets one while fewer
than all are in flight. -/
structure Pooled (maxBuffers : Nat) : Prop where
  once : ∀ i < maxBuffers, c.freeBufferList.count i + (c.awaitingFrame.map Prod.snd).count i +
    c.postprocessor.indices.count i = 1
  idle : c.inFlight = [] → ∀ i < maxBuffers, c.freeBufferList.count i = 1
  enough : c.inFlight.length < maxBuffers → ∀ rc, c.requestFrame rc ≠ (NOT_ENOUGH_DATA, c)

end PicChannel

/-! ## Steps that lose no index -/

variable {s t : PostProcessor} {c : PicChannel}

def EncodeReturns (s : PostProcessor) (env : DataProcEnv) : Prop :=
  s.ongoingJpegQ.items = [] → ∀ job ∈ s.inputJpegQ.items.head?, job.index? ≠ none →
    env.encodes = true ∧ env.node = true

def FwkReturns (s : PostProcessor) (env : DataProcEnv) : Prop :=
  s.inputFWKPPQ.items ≠ [] → env.job = true → s.reprocChannel ≠ none → env.reprocesses = false →
    env.node = true ∨ ∀ job ∈ s.ongoingPPQ.items.getLast?, job.index? = none

def CameraReturns (s : PostProcessor) (env : DataProcEnv) : Prop :=
  s.inputPPQ.items ≠ [] → s.inputMetaQ.items ≠ [] →
    env.job = true ∧ env.node = true ∧ s.jpegSettingsQ.items ≠ [] ∧
      if s.reprocChannel = none then
        s.ongoingPPQ.items = [] ∧ env.jpeg.job = true ∧ env.jpeg.node = true
      else env.extracts = true ∧ env.reprocesses = true

def CompletionReturns (s : PostProcessor) (env : JobEnv) : Prop :=
  ∀ job ∈ s.ongoingPPQ.items.head?, job.index? ≠ none →
    job.jpegSettings ≠ none ∧ env.job = true ∧ env.node = true

def CmdReturns (s : PostProcessor) : Cmd → Prop
  | .startDataProc => True
  | .stopDataProc => s.indices = []
  | .doNextJob => s.isActive = false → s.indices = []

def ThreadReturns (s : PostProcessor) (env : DataProcEnv) : Prop :=
  match s.stage with
  | .waiting => ∀ cmd ∈ s.cmds.head?, CmdReturns s cmd
  | .jpegJobs => EncodeReturns s env
  | .fwkJobs => FwkReturns s env
  | .cameraJobs => CameraReturns s env

/-- A frame that comes reaches the post-processor, and no buffer is in the kernel when the streams
are stopped. -/
def Op.Returns (c : PicChannel) : Op → Prop
  | .frame allocated node => c.awaitingFrame ≠ [] →
      allocated = true ∧ node = true ∧ c.postprocessor.inputPPQ.active = true
  | .dataProc env => ThreadReturns c.postprocessor env
  | .reprocessed allocated env => allocated = true → CompletionReturns c.postprocessor env
  | .finishStop => c.awaitingFrame = []
  | _ => True

/-- A step, or a frame whose index is no buffer's. -/
inductive PoolEvent
  | op (step : Op)
  | invalidFrame (beyond : Nat)

/-- An index that is no buffer's goes to the free list. The stream does not queue it, neither then
nor for the request that takes it. -/
def PoolEvent.exec (maxBuffers : Nat) (c : PicChannel) : PoolEvent → PicChannel
  | .op step =>
    { step.exec c with
      awaitingFrame := (step.exec c).awaitingFrame.filter fun entry => entry.2 < maxBuffers }
  | .invalidFrame beyond =>
    { c with freeBufferList := c.freeBufferList ++ [maxBuffers + beyond] }

def PoolEvent.Enabled (c : PicChannel) : PoolEvent → Prop
  | .op step => step.Enabled c
  | .invalidFrame _ => True

def PoolEvent.Returns (c : PicChannel) : PoolEvent → Prop
  | .op step => step.Returns c
  | .invalidFrame _ => True

/-! ## Counts -/

section Counts

variable {α : Type} {f : α → Option Nat} {q : CameraQueue α} {x : α} {i : Nat}

theorem count_cons (xs : List α) : ((x :: xs).filterMap f).count i =
    (f x).toList.count i + (xs.filterMap f).count i := by
  rw [List.filterMap_cons]
  cases f x with
  | none => simp
  | some n => rw [Option.toList_some, List.count_cons, List.count_singleton, Nat.add_comm]

theorem count_enqueue {node : Bool} (h : f x ≠ none → node = true ∧ q.active = true) :
    ((q.enqueue x node).2.items.filterMap f).count i =
      (q.items.filterMap f).count i + (f x).toList.count i := by
  cases hx : f x with
  | none =>
    obtain heq | heq := q.enqueue_cases x node
    · simp [heq, hx]
    · simp [heq]
  | some n =>
    obtain ⟨hnode, hactive⟩ := h (by simp [hx])
    rw [CameraQueue.enqueue_items hnode hactive, List.filterMap_append, List.count_append]
    simp [hx]

end Counts

theorem index?_jpegJobOf {job : PPJob} {frame : SuperBuf} (n : Nat)
    (h : frame.stream = .reprocess ∨ job.srcFrame = some frame) :
    (jpegJobOf job frame n).index? = job.index? := by
  unfold JpegJob.index? JpegJob.snapshot jpegJobOf PPJob.index?
  by_cases hsame : job.srcFrame = some frame
  · rw [hsame]
    simp [SuperBuf.index?, Option.filter]
  · have hstream := h.resolve_right hsame
    rw [if_pos (Ne.symm hsame)]
    cases hsrc : job.srcFrame with
    | none => simp [Option.filter, hstream]
    | some b =>
      simp [SuperBuf.index?, Option.filter]

/-! ## What the steps keep -/

variable {i : Nat}

theorem count_indices (s : PostProcessor) (i : Nat) : s.indices.count i =
    (s.inputPPQ.items.filterMap SuperBuf.index?).count i +
      (s.ongoingPPQ.items.filterMap PPJob.index?).count i +
        (s.inputJpegQ.items.filterMap JpegJob.index?).count i +
          (s.ongoingJpegQ.items.filterMap JpegJob.index?).count i := by
  simp only [PostProcessor.indices, List.count_append]

theorem indices_processData {frame : SuperBuf} (hactive : s.inputPPQ.active = true) :
    (s.processData frame true).indices.count i =
      s.indices.count i + frame.index?.toList.count i := by
  have henqueue := @count_enqueue _ SuperBuf.index? s.inputPPQ frame i true
    fun _ => ⟨rfl, hactive⟩
  unfold processData
  dsimp only
  split
  · simp only [count_indices, henqueue]
    omega
  · simp only [count_indices, sendCmd, henqueue]
    omega

theorem indices_ppDataStep {frame : SuperBuf} {env : JobEnv} {r : Int × PostProcessor}
    (hjpeg : s.inputJpegQ.active = s.ongoingPPQ.active)
    (h : frame.stream = .reprocess ∨ ∀ job ∈ s.ongoingPPQ.items.head?, job.srcFrame = some frame)
    (hreturns : CompletionReturns s env) (hstep : PPDataStep s frame env r) :
    r.2.indices.count i = s.indices.count i := by
  cases hstep with
  | noJob => rfl
  | @dropped job rest rc hq _ hwhy =>
    have hnone : job.index? = none := by
      by_contra hsome
      obtain ⟨hsettings, hjob, -⟩ := hreturns job (by simp [hq]) hsome
      rcases hwhy with ⟨hsrc, -⟩ | hwhy | hwhy
      · exact hsome (by simp [PPJob.index?, hsrc])
      · exact hsettings hwhy
      · simp [hjob] at hwhy
    simp [count_indices, hq, hnone]
  | @queued job rest hq =>
    have hindex : (jpegJobOf job frame (fresh s.heap)).index? = job.index? :=
      index?_jpegJobOf _ (h.imp id fun hall => hall job (by simp [hq]))
    have hactive : s.inputJpegQ.active = true := by rw [hjpeg, hq]
    have henqueue := @count_enqueue _ JpegJob.index? s.inputJpegQ
      (jpegJobOf job frame (fresh s.heap)) i env.node fun hsome =>
        ⟨(hreturns job (by simp [hq]) (hindex ▸ hsome)).2.2, hactive⟩
    simp only [count_indices, sendCmd, henqueue, hq, count_cons, hindex]
    omega

theorem indices_encodeNext {env : DataProcEnv} (w : Working s) (hreturns : EncodeReturns s env) :
    (s.encodeNext env).indices.count i = s.indices.count i := by
  have hstep := encodeNext_step (s := s) env
  generalize s.encodeNext env = t at hstep
  cases hstep with
  | idle => rfl
  | @submitted job rest hongoing hq =>
    have henqueue := @count_enqueue _ JpegJob.index? s.ongoingJpegQ job i env.node fun hsome =>
      ⟨(hreturns hongoing job (by simp [hq]) hsome).2, w.encoder⟩
    simp only [count_indices, henqueue, hq, count_cons]
    omega
  | @refused job rest hongoing hq hok =>
    have hnone : job.index? = none := by
      by_contra hsome
      simp [(hreturns hongoing job (by simp [hq]) hsome).1] at hok
    simp [count_indices, releaseJpegJobData, sendCmd, PostProcessor.free, hq, hnone]

theorem count_dequeueTail {α : Type} {f : α → Option Nat} {q : CameraQueue α}
    (h : ∀ x ∈ q.items.getLast?, f x = none) :
    (q.dequeueTail.2.items.filterMap f).count i = (q.items.filterMap f).count i := by
  obtain ⟨items, active⟩ := q
  obtain rfl | ⟨items, x, rfl⟩ := items.eq_nil_or_concat'
  · cases active <;> rfl
  · have hnone := h x (by simp)
    cases active with
    | false => rfl
    | true => simp [CameraQueue.dequeueTail, hnone]

theorem indices_fwkNext {env : DataProcEnv} (hactive : s.ongoingPPQ.active = true)
    (hreturns : FwkReturns s env) : (s.fwkNext env).indices.count i = s.indices.count i := by
  have hstep := fwkNext_step (s := s) env
  generalize s.fwkNext env = t at hstep
  have henqueue (fwkFrame : FwkInput) :
      ((s.ongoingPPQ.enqueue (fwkJob s fwkFrame) env.node).2.items.filterMap PPJob.index?).count i =
        (s.ongoingPPQ.items.filterMap PPJob.index?).count i :=
    count_enqueue fun hsome => absurd rfl hsome
  cases hstep with
  | idle => rfl
  | noMemory | noChannel => simp [count_indices]
  | submitted => simp only [count_indices, henqueue]
  | @refused fwkFrame rest pending hq hjob hchannel hok =>
    have htail : ∀ job ∈ (s.ongoingPPQ.enqueue (fwkJob s fwkFrame) env.node).2.items.getLast?,
        job.index? = none := by
      obtain hnode | hall := hreturns (by simp [hq]) hjob (by simp [hchannel]) hok
      · rw [CameraQueue.enqueue_items hnode hactive, List.getLast?_concat]
        rintro job ⟨⟩
        rfl
      · obtain hadded | hsame := s.ongoingPPQ.enqueue_cases (fwkJob s fwkFrame) env.node
        · rw [hadded, List.getLast?_concat]
          rintro job ⟨⟩
          rfl
        · rwa [hsame]
    simp only [count_indices, count_dequeueTail htail, henqueue]

theorem indices_cameraNext {env : DataProcEnv} (w : Working s)
    (hactive : s.ongoingPPQ.active = true) (hreturns : CameraReturns s env) :
    (s.cameraNext env).indices.count i = s.indices.count i := by
  have hstep := cameraNext_step (s := s) env
  generalize s.cameraNext env = t at hstep
  cases hstep with
  | idle => rfl
  | noMemory hframe hmeta hjob =>
    have hok := (hreturns (by simp [hframe]) (by simp [hmeta])).1
    simp [hjob] at hok
  | @started ppFrame metaBuffer frames metas t hframe hmeta hjob hstep =>
    obtain ⟨-, hnode, hsettings, hrest⟩ := hreturns (by simp [hframe]) (by simp [hmeta])
    have hadded : (addJob (takeCamera s frames metas) (cameraJob s ppFrame metaBuffer)
        env.node).indices.count i = s.indices.count i := by
      have henqueue := @count_enqueue _ PPJob.index? s.ongoingPPQ (cameraJob s ppFrame metaBuffer) i
        env.node fun _ => ⟨hnode, hactive⟩
      simp only [count_indices, addJob, takeCamera, henqueue, hframe, count_cons]
      have hindex : (cameraJob s ppFrame metaBuffer).index? = ppFrame.index? := rfl
      rw [hindex]
      omega
    generalize hr : (true, t) = r at hstep
    cases hstep with
    | notExtracted | refused => simp at hr
    | submitted =>
      obtain rfl := (Prod.mk.inj hr).2
      exact hadded
    | @direct rc t' hchannel hstep =>
      obtain rfl := (Prod.mk.inj hr).2
      have hnone : s.reprocChannel = none := hchannel
      obtain ⟨hempty, hjob', hnode'⟩ := if_pos hnone ▸ hrest
      have hitems : (addJob (takeCamera s frames metas) (cameraJob s ppFrame metaBuffer)
          env.node).ongoingPPQ.items = [cameraJob s ppFrame metaBuffer] :=
        (CameraQueue.enqueue_items hnode hactive).trans (by simp [hempty])
      have hjpeg : (addJob (takeCamera s frames metas) (cameraJob s ppFrame metaBuffer)
          env.node).inputJpegQ.active = (addJob (takeCamera s frames metas)
            (cameraJob s ppFrame metaBuffer) env.node).ongoingPPQ.active := by
        simp [addJob, takeCamera, CameraQueue.enqueue_ok hnode hactive, w.jpeg, hactive]
      refine (indices_ppDataStep hjpeg (.inr ?_) ?_ hstep).trans hadded
      · rw [hitems]
        rintro job ⟨⟩
        rfl
      · unfold CompletionReturns
        rw [hitems]
        rintro job ⟨⟩ -
        exact ⟨fun hnone => hsettings (CameraQueue.items_of_dequeue w.settings hnone), hjob',
          hnode'⟩
  | @failed ppFrame metaBuffer frames metas t hframe hmeta hjob hstep =>
    obtain ⟨-, hnode, hsettings, hrest⟩ := hreturns (by simp [hframe]) (by simp [hmeta])
    generalize hr : (false, t) = r at hstep
    cases hstep with
    | notExtracted hchannel hextract =>
      rw [if_neg (show ¬s.reprocChannel = none from hchannel)] at hrest
      exact absurd ⟨hsettings, hrest.1⟩ (extract_false hextract w.settings)
    | refused hchannel _ hok =>
      rw [if_neg (show ¬s.reprocChannel = none from hchannel)] at hrest
      simp [hrest.2] at hok
    | submitted => cases hr
    | direct hchannel hstep =>
      obtain ⟨hempty, hjob', hnode'⟩ := if_pos (show s.reprocChannel = none from hchannel) ▸ hrest
      cases hstep with
      | noJob hq => simp [node_of_noJob hactive hq] at hnode
      | dropped hq _ hwhy =>
        obtain ⟨rfl, -, -⟩ := ongoing_addJob hempty hactive hq
        rcases hwhy with ⟨hsrc, -⟩ | hwhy | hwhy
        · cases hsrc
        · exact absurd (CameraQueue.items_of_dequeue w.settings hwhy) hsettings
        · simp [hjob'] at hwhy
      | queued => simp at hr

theorem indices_of_subset (h : s.indices = [])
    (hframes : ∀ x ∈ t.inputPPQ.items, x ∈ s.inputPPQ.items)
    (hongoing : ∀ x ∈ t.ongoingPPQ.items, x ∈ s.ongoingPPQ.items)
    (hjobs : ∀ x ∈ t.inputJpegQ.items, x ∈ s.inputJpegQ.items)
    (hencoding : ∀ x ∈ t.ongoingJpegQ.items, x ∈ s.ongoingJpegQ.items) : t.indices = [] := by
  simp only [PostProcessor.indices, List.append_eq_nil_iff, List.filterMap_eq_nil_iff] at h ⊢
  exact ⟨⟨⟨fun x hx => h.1.1.1 x (hframes x hx), fun x hx => h.1.1.2 x (hongoing x hx)⟩,
    fun x hx => h.1.2 x (hjobs x hx)⟩, fun x hx => h.2 x (hencoding x hx)⟩

theorem mem_of_mem_dequeue {α : Type} {q : CameraQueue α} {x : α} (hx : x ∈ q.dequeue.2.items) :
    x ∈ q.items := by
  rw [← q.dequeue_items]
  exact List.mem_append_right _ hx

theorem indices_dataProcessRoutine {env : DataProcEnv} (w : Working s)
    (hreturns : ThreadReturns s env) :
    (s.dataProcessRoutine env).indices.count i = s.indices.count i := by
  have hactive : s.stage ≠ .waiting → s.ongoingPPQ.active = true := fun h => w.active (w.stage h)
  unfold ThreadReturns at hreturns
  unfold dataProcessRoutine
  split at hreturns
  · rename_i hstage
    simp only [hstage]
    cases hcmds : s.cmds with
    | nil => rfl
    | cons cmd cmds =>
      have hcmd := hreturns cmd (by simp [hcmds])
      cases cmd with
      | startDataProc => rfl
      | stopDataProc =>
        have hnil : s.indices = [] := hcmd
        simp only [handleCmd, stopDataProc_eq]
        rw [hnil]
        exact congrArg (List.count i) (indices_of_subset hnil
          (fun _ => CameraQueue.mem_of_mem_flush_items)
          (fun _ => CameraQueue.mem_of_mem_flush_items)
          (fun _ => CameraQueue.mem_of_mem_flush_items) fun _ hx => absurd hx List.not_mem_nil)
      | doNextJob =>
        simp only [handleCmd]
        split
        · rfl
        · rename_i hidle
          have hnil : s.indices = [] := hcmd (Bool.eq_false_iff.mpr hidle)
          rw [hnil]
          exact congrArg (List.count i) (indices_of_subset hnil (fun _ => mem_of_mem_dequeue)
            (fun _ hx => hx) (fun _ => mem_of_mem_dequeue) fun _ hx => hx)
  · rename_i hstage
    simp only [hstage]
    exact indices_encodeNext w hreturns
  · rename_i hstage
    simp only [hstage]
    exact indices_fwkNext (hactive (by simp [hstage])) hreturns
  · rename_i hstage
    simp only [hstage]
    exact indices_cameraNext w (hactive (by simp [hstage])) hreturns

/-- Each buffer is once in the free list, in the kernel for a request, or in a frame. -/
structure Kept (maxBuffers : Nat) (c : PicChannel) : Prop where
  working : Working c.postprocessor
  once : ∀ i < maxBuffers, c.freeBufferList.count i + (c.awaitingFrame.map Prod.snd).count i +
    c.postprocessor.indices.count i = 1

theorem Kept.pooled {maxBuffers : Nat} (h : Kept maxBuffers c) : c.Pooled maxBuffers where
  once := h.once
  idle hnone i hi := by
    obtain ⟨hawaiting, hindices⟩ := List.append_eq_nil_iff.mp hnone
    have honce := h.once i hi
    rw [hawaiting, hindices] at honce
    simpa using honce
  enough hfew rc hfull := by
    have hfree : c.freeBufferList = [] := by
      by_contra hne
      obtain ⟨x, rest, hcons⟩ := List.exists_cons_of_ne_nil hne
      have hlist := congrArg (PicChannel.freeBufferList ·.2) hfull
      simp [PicChannel.requestFrame, hcons] at hlist
    have hsubset : List.range maxBuffers ⊆ c.inFlight := by
      intro i hi
      have honce := h.once i (List.mem_range.mp hi)
      rw [hfree, List.count_nil, Nat.zero_add, ← List.count_append] at honce
      exact List.count_pos_iff.mp (by rw [PicChannel.inFlight]; omega)
    have hle := (List.nodup_range.subperm hsubset).length_le
    rw [List.length_range] at hle
    omega

theorem kept_create (needReprocess : Bool) (maxBuffers : Nat) :
    Kept maxBuffers (.create needReprocess maxBuffers) where
  working := working_create needReprocess maxBuffers
  once i hi := by
    have hone : (List.range maxBuffers).count i = 1 :=
      List.count_eq_one_of_mem List.nodup_range (List.mem_range.mpr hi)
    simp [PicChannel.create, PostProcessor.indices, hone]

theorem indices_jpegEvtHandle (done : Bool) (jobId : Nat) :
    (c.jpegEvtHandle done jobId).awaitingFrame = c.awaitingFrame ∧
      (c.jpegEvtHandle done jobId).freeBufferList.count i +
        (c.jpegEvtHandle done jobId).postprocessor.indices.count i =
          c.freeBufferList.count i + c.postprocessor.indices.count i := by
  unfold PicChannel.jpegEvtHandle findJpegJobByJobId
  split_ifs with hid
  · exact ⟨rfl, rfl⟩
  rcases c.postprocessor.ongoingJpegQ.dequeue_cases with ⟨job, rest, hq, hdeq⟩ | ⟨hdeq, -⟩
  · rw [hdeq]
    refine ⟨rfl, ?_⟩
    have hindex : job.index? = job.snapshot.map SuperBuf.bufIdx := rfl
    cases hsnapshot : job.snapshot with
    | none =>
      simp [count_indices, releaseJpegJobData, sendCmd, PostProcessor.free, hq, hindex, hsnapshot]
    | some frame =>
      simp [count_indices, releaseJpegJobData, sendCmd, PostProcessor.free, hq, hindex, hsnapshot,
        List.count_cons]
      omega
  · rw [hdeq]
    exact ⟨rfl, rfl⟩

theorem indices_processFwkData (frame : FwkInput) (env : JobEnv) :
    (s.processFwkData frame env).2.indices.count i = s.indices.count i := by
  unfold processFwkData
  split
  · rfl
  split
  · rfl
  · rename_i jpegSettings q _
    split
    · have henqueue := @count_enqueue _ JpegJob.index? s.inputJpegQ
        ⟨fresh s.heap, none, none, some frame, none, none, some jpegSettings⟩ i env.node
        fun hsome => absurd rfl hsome
      simp only [count_indices, sendCmd, henqueue]
      rfl
    · rfl

theorem indices_finishRequest (r : PicRequest) (env : RequestEnv) :
    (c.finishRequest r env).2.freeBufferList.count i +
      ((c.finishRequest r env).2.awaitingFrame.map Prod.snd).count i +
        (c.finishRequest r env).2.postprocessor.indices.count i =
      c.freeBufferList.count i + (c.awaitingFrame.map Prod.snd).count i +
        c.postprocessor.indices.count i := by
  have hsettings : (c.queueJpegSetting env.index r.metadata env.settings).2 = { c with
      postprocessor := (c.queueJpegSetting env.index r.metadata env.settings).2.postprocessor } ∧
        (c.queueJpegSetting env.index r.metadata env.settings).2.postprocessor.indices =
          c.postprocessor.indices := by
    unfold PicChannel.queueJpegSetting
    split
    · exact ⟨rfl, rfl⟩
    · exact ⟨rfl, rfl⟩
  unfold PicChannel.finishRequest
  generalize c.queueJpegSetting env.index r.metadata env.settings = q at hsettings
  obtain ⟨rc, d⟩ := q
  obtain ⟨hd, hindices⟩ := hsettings
  dsimp only at hd hindices ⊢
  rw [← hindices]
  have hfree : d.freeBufferList = c.freeBufferList := by rw [hd]
  have hawaiting : d.awaitingFrame = c.awaitingFrame := by rw [hd]
  rw [← hfree, ← hawaiting]
  split
  · unfold PicChannel.requestInput
    split
    · rfl
    split
    · rfl
    split
    · rfl
    · dsimp only
      rw [indices_processFwkData]
      rfl
  · unfold PicChannel.requestFrame
    split
    · rename_i hcons
      simp [hcons, List.count_cons]
      omega
    · rfl

theorem kept_exec {maxBuffers : Nat} (h : Kept maxBuffers c) {op : Op} (hreturns : op.Returns c) :
    Kept maxBuffers (op.exec c) := by
  refine ⟨working_exec h.working op, fun i hi => ?_⟩
  have honce := h.once i hi
  have hsame (t : PostProcessor) (ht : t.indices.count i = c.postprocessor.indices.count i) :
      c.freeBufferList.count i + (c.awaitingFrame.map Prod.snd).count i + t.indices.count i =
        1 := by
    rw [ht]
    exact honce
  cases op with
  | request r prepareRc reprocRc =>
    simp only [Op.exec, PicChannel.request, PicChannel.startPostProc, PostProcessor.start]
    split_ifs
    all_goals exact honce
  | finishRequest env =>
    simp only [Op.exec]
    split
    · rw [indices_finishRequest]
      exact honce
    · exact honce
  | frame allocated node =>
    simp only [Op.exec, PicChannel.streamCbRoutine]
    split
    · exact honce
    · rename_i request bufIdx rest hcons
      obtain ⟨hallocated, hnode, hactive⟩ := hreturns (by simp [hcons])
      rw [hcons] at honce
      rw [if_pos hallocated, hnode]
      have hcount := @indices_processData { c.postprocessor with
        heap := malloc c.postprocessor.heap (.superBuf .snapshot) } i
          ⟨fresh c.postprocessor.heap, .snapshot, request, bufIdx⟩ hactive
      simp only [hcount, SuperBuf.index?, if_true, Option.toList_some, List.count_singleton]
      simp only [List.map_cons, List.count_cons, count_indices] at honce ⊢
      omega
  | metadata node =>
    simp only [Op.exec, PicChannel.queueReprocMetadata]
    split
    · exact honce
    · refine hsame _ ?_
      unfold processPPMetadata
      dsimp only
      split
      · rfl
      · rfl
  | metadataLost => exact honce
  | dataProc env => exact hsame _ (indices_dataProcessRoutine h.working hreturns)
  | reprocessed allocated env =>
    simp only [Op.exec, PicChannel.reprocCbRoutine]
    split
    · split
      · rename_i hallocated
        refine hsame _ ((indices_ppDataStep ?_ (.inl rfl) ?_ (processPPData_step _ env)).trans rfl)
        · exact h.working.jpeg
        · exact hreturns hallocated
      · exact honce
    · exact honce
  | jpegEvent done jobId =>
    obtain ⟨hawaiting, hcount⟩ := @indices_jpegEvtHandle c i done jobId
    simp only [Op.exec, hawaiting]
    omega
  | start => exact honce
  | stop =>
    simp only [Op.exec, PicChannel.stop]
    split_ifs
    all_goals exact honce
  | finishStop =>
    have hnone : c.awaitingFrame = [] := hreturns
    rw [hnone] at honce
    exact honce

theorem count_filter {maxBuffers : Nat} (entries : List (Nat × Nat)) (hi : i < maxBuffers) :
    ((entries.filter fun entry => entry.2 < maxBuffers).map Prod.snd).count i =
      (entries.map Prod.snd).count i := by
  induction entries with
  | nil => rfl
  | cons entry entries ih =>
    by_cases hlt : entry.2 < maxBuffers
    · simp [hlt, List.count_cons, ih]
    · have hne : entry.2 ≠ i := by omega
      simp [hlt, hne, ih]

theorem kept_event {maxBuffers : Nat} (h : Kept maxBuffers c) {event : PoolEvent}
    (hreturns : event.Returns c) : Kept maxBuffers (event.exec maxBuffers c) := by
  cases event with
  | op step =>
    have hkept := kept_exec h hreturns
    refine ⟨hkept.working, fun i hi => ?_⟩
    have honce := hkept.once i hi
    rw [← count_filter _ hi] at honce
    exact honce
  | invalidFrame beyond =>
    refine ⟨h.working, fun i hi => ?_⟩
    have hnone : [maxBuffers + beyond].count i = 0 :=
      List.count_eq_zero.mpr fun hmem => by
        rw [List.mem_singleton] at hmem
        omega
    simpa [PoolEvent.exec, hnone] using h.once i hi

/-- In every run whose steps return what they take, each snapshot buffer is at one place, and a
request gets one while fewer than all are in flight. -/
theorem pooled_along (needReprocess : Bool) (maxBuffers : Nat) (events : List PoolEvent)
    (h : System.Along PoolEvent.Returns (PoolEvent.exec maxBuffers) events
      (.create needReprocess maxBuffers)) :
    System.Along (fun c event => (event.exec maxBuffers c).Pooled maxBuffers)
      (PoolEvent.exec maxBuffers) events (.create needReprocess maxBuffers) :=
  System.Along.imp (P := Kept maxBuffers)
    (fun _ _ hkept hreturns => ⟨(kept_event hkept hreturns).pooled, kept_event hkept hreturns⟩)
    (kept_create needReprocess maxBuffers) h

def capture : List PoolEvent :=
  [.op (.request ⟨false, {}⟩ 0 0), .op (.finishRequest {}), .op (.dataProc {}),
    .op (.frame true true), .op (.metadata true), .op (.dataProc {}), .op (.dataProc {}),
    .op (.dataProc {}), .op (.dataProc {}), .op (.reprocessed true {}), .op (.dataProc {}),
    .op (.dataProc {}), .op (.jpegEvent true 1)]

theorem pooled_along_capture :
    System.Along (fun c event => (event.exec 3 c).Pooled 3) (PoolEvent.exec 3) capture
        (.create true 3) ∧
      (capture.foldl (PoolEvent.exec 3) (.create true 3)).freeBufferList = [1, 2, 0] := by
  refine ⟨pooled_along true 3 capture ⟨trivial, trivial, ?_, ?_, trivial, ?_, ?_, ?_, ?_, ?_, ?_,
    ?_, trivial, trivial⟩, by decide⟩
  · rintro cmd ⟨⟩
    trivial
  · exact fun _ => ⟨rfl, rfl, rfl⟩
  · rintro cmd ⟨⟩
    exact fun h => absurd h (by decide)
  · exact fun _ job h => absurd h (Option.not_mem_none job)
  · exact fun h => absurd rfl h
  · exact fun _ _ => ⟨rfl, rfl, List.ne_nil_of_length_pos (by decide), rfl, rfl⟩
  · rintro - job ⟨⟩ -
    exact ⟨Option.isSome_iff_ne_none.1 rfl, rfl, rfl⟩
  · rintro cmd ⟨⟩
    exact fun h => absurd h (by decide)
  · rintro - job ⟨⟩ -
    exact ⟨rfl, rfl⟩

/-- The streams are stopped while the kernel has a buffer: its index is never free again. -/
theorem not_pooled_along : ¬∀ (needReprocess : Bool) (maxBuffers : Nat) (events : List PoolEvent),
    System.Along (fun c event => event.Enabled c) (PoolEvent.exec maxBuffers) events
        (.create needReprocess maxBuffers) →
      System.Along (fun c event => (event.exec maxBuffers c).Pooled maxBuffers)
        (PoolEvent.exec maxBuffers) events (.create needReprocess maxBuffers) := by
  intro h
  have hrun := h true 1 [.op (.request ⟨false, {}⟩ 0 0), .op (.finishRequest {}), .op .stop,
    .op (.dataProc {}), .op .finishStop] ⟨rfl, trivial, rfl, trivial, ⟨rfl, rfl⟩, trivial⟩
  have honce := hrun.2.2.2.2.1.once 0 Nat.one_pos
  exact absurd honce (by decide)

end EtherDevice.PostProc
