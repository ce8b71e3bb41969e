import EtherDevice.Hal1.PostProcessor
import Mathlib.Data.Multiset.AddSub

/-!
# Results find their jobs by position

`processPPData` takes the head of `m_ongoingPPQ` for whatever result comes. This is the job of the
frame that was submitted for the result as long as the jobs of the queue are the submissions that
are not answered, in their order. The JPEG path takes its job back where the encoder refuses it;
`doReprocess` leaves the job of a failed submission in the queue, where the next result takes
it. And two passes share the queue, so a result of one channel that overtakes an older submission
of the other takes its job.
-/

namespace EtherDevice.Hal1

open Lib
open PostProc (CameraQueue)

structure JpegData.OwnCapture (job : JpegData) (total : Nat) (src : SuperBuf) : Prop where
  capture : src.capture = job.src_frame.capture
  source : src.passes = 0
  passes : job.src_frame.passes = total
  metadata : job.metadata = src.metaFrame.or job.src_frame.metaFrame

structure PpData.For (job : PpData) (submission : Submission) : Prop where
  frame : job.src_frame = some submission.frame
  reprocCount : job.reprocCount = submission.channel + 1
  passes : submission.frame.passes = submission.channel
  source : ∃ source, job.src_reproc_frame = some source ∧ source.passes = 0 ∧
    source.capture = submission.frame.capture

structure PpRequest.Own (request : PpRequest) : Prop where
  passes : request.src_frame.passes = request.reprocCount
  source : request.src_reproc_frame.passes = 0
  capture : request.src_reproc_frame.capture = request.src_frame.capture

namespace PostProcessor

/-- Each result met the job of its own frame, each JPEG job has its own capture, and each job that
waits has a result to come. -/
structure KeepsSource (s : PostProcessor) : Prop where
  taken : ∀ pair ∈ s.taken, pair.1.src_frame = some pair.2
  jpeg : ∀ job ∈ s.m_inputJpegQ.items, ∀ source, job.src_reproc_frame = some source →
    job.OwnCapture s.mTotalNumReproc source
  awaited : (s.m_ongoingPPQ.items.map (·.src_frame) : Multiset (Option SuperBuf)) ≤
    s.submitted.map (some ·.frame)

def submits (s : PostProcessor) (a : Answers) : Bool :=
  s.isActive && s.validatePostProcess a && a.malloc && a.node && s.m_ongoingPPQ.active &&
    (s.m_inputPPQ.peek.any fun request => decide (request.reprocCount < s.ppChannels))

def makesJpeg (s : PostProcessor) (p : Params) : Bool :=
  !p.rawPicture && s.m_ongoingPPQ.items.head?.any fun job =>
    decide (s.mTotalNumReproc ≤ job.reprocCount)

def ownMetadata (s : PostProcessor) (bufs : List Buf) : Option Buf :=
  (s.m_ongoingPPQ.items.head?.bind fun job =>
    job.src_reproc_frame.bind SuperBuf.metaFrame).or (bufs.find? (·.isMetadata))

/-- `start` comes after `stop`, a submission that is made succeeds, and a result is the one of the
oldest submission. Where the metadata are found by their index, the index is right. -/
def Ok (s : PostProcessor) : PostProcOp → Prop
  | .start .. =>
    s.m_inputPPQ.items = [] ∧ s.m_ongoingPPQ.items = [] ∧ s.m_inputJpegQ.items = []
  | .doNextJob _ a => s.submits a = true → a.submitted = true
  | .result p _ channel bufs =>
    s.submitted.head?.map (·.channel) = some channel ∧
      (p.advCamFeatures = true → s.makesJpeg p = true →
        s.m_InputMetadata[p.exifBufIndex s.m_PPindex]? = s.ownMetadata bufs)
  | _ => True

instance (s : PostProcessor) : (op : PostProcOp) → Decidable (Ok s op)
  | .start .. | .result .. | .doNextJob .. => by unfold Ok; infer_instance
  | .stop | .processData .. | .processRawData .. | .jpegEvt => isTrue trivial

/-- The waiting jobs are the submissions that are not answered, in their order. -/
structure Inv (s : PostProcessor) : Prop where
  requests : ∀ request ∈ s.m_inputPPQ.items, request.Own
  ongoing : List.Forall₂ PpData.For s.m_ongoingPPQ.items s.submitted
  channels : s.ppChannels ≤ s.mTotalNumReproc
  running : ∀ submission ∈ s.submitted, submission.channel < s.mTotalNumReproc
  taken : ∀ pair ∈ s.taken, pair.1.src_frame = some pair.2
  jpeg : ∀ job ∈ s.m_inputJpegQ.items, ∀ source, job.src_reproc_frame = some source →
    job.OwnCapture s.mTotalNumReproc source
  tidy : s.m_inputPPQ.Tidy ∧ s.m_ongoingPPQ.Tidy ∧ s.m_inputJpegQ.Tidy

variable {s : PostProcessor} {p : Params} {a : Answers} {request : PpRequest} {job : PpData}
  {bufs : List Buf}

theorem Inv.keepsSource (h : Inv s) : KeepsSource s where
  taken := h.taken
  jpeg := h.jpeg
  awaited := by
    have hframes : s.m_ongoingPPQ.items.map (·.src_frame) = s.submitted.map (some ·.frame) := by
      rw [← List.forall₂_eq_eq_eq, List.forall₂_map_left_iff, List.forall₂_map_right_iff]
      exact h.ongoing.imp fun _ _ hjob => hjob.frame
    rw [hframes]

theorem Inv.triggered (h : Inv s) (triggerEvent : Bool) : Inv (s.triggered triggerEvent) := by
  unfold PostProcessor.triggered
  split
  · exact ⟨h.requests, h.ongoing, h.channels, h.running, h.taken, h.jpeg, h.tidy⟩
  · exact h

theorem Inv.processRawData (h : Inv s) (frame : SuperBuf) : Inv (s.processRawData a frame).2 := by
  unfold PostProcessor.processRawData
  split
  · refine Inv.triggered ?_ true
    exact ⟨h.requests, h.ongoing, h.channels, h.running, h.taken, h.jpeg, h.tidy⟩
  · exact h

theorem Inv.enqueueRequest (h : Inv s) {node : Bool} {input : CameraQueue PpRequest}
    (hinput : s.m_inputPPQ.enqueue request node = (true, input)) (hown : request.Own) :
    Inv { s with m_inputPPQ := input } := by
  obtain ⟨-, rfl⟩ := CameraQueue.enqueue_true hinput
  refine ⟨fun r hr => ?_, h.ongoing, h.channels, h.running, h.taken, h.jpeg,
    CameraQueue.tidy_of_active rfl, h.tidy.2⟩
  rcases List.mem_append.mp hr with hold | hnew
  · exact h.requests r hold
  · rwa [List.mem_singleton.mp hnew]

theorem Inv.enqueueJpeg (h : Inv s) {jpeg_job : JpegData} {node : Bool}
    {jpeg : CameraQueue JpegData} (hjpeg : s.m_inputJpegQ.enqueue jpeg_job node = (true, jpeg))
    (hown : ∀ source, jpeg_job.src_reproc_frame = some source →
      jpeg_job.OwnCapture s.mTotalNumReproc source) :
    Inv { s with m_inputJpegQ := jpeg } := by
  obtain ⟨-, rfl⟩ := CameraQueue.enqueue_true hjpeg
  refine ⟨h.requests, h.ongoing, h.channels, h.running, h.taken, fun j hj => ?_, h.tidy.1,
    h.tidy.2.1, CameraQueue.tidy_of_active rfl⟩
  rcases List.mem_append.mp hj with hold | hnew
  · exact h.jpeg j hold
  · rwa [List.mem_singleton.mp hnew]

theorem Inv.processData (h : Inv s) : Inv (s.processData p a bufs).2 := by
  unfold PostProcessor.processData
  have hcaptured : Inv { s with captures := s.captures + 1 } :=
    ⟨h.requests, h.ongoing, h.channels, h.running, h.taken, h.jpeg, h.tidy⟩
  split_ifs
  · dsimp only
    split
    · rename_i input hinput
      refine Inv.triggered ?_ _
      have hqueued := hcaptured.enqueueRequest hinput ⟨rfl, rfl, rfl⟩
      exact ⟨hqueued.requests, hqueued.ongoing, hqueued.channels, hqueued.running,
        hqueued.taken, hqueued.jpeg, hqueued.tidy⟩
    · exact hcaptured
  · exact hcaptured
  · exact (hcaptured.processRawData _).triggered true
  · dsimp only
    split
    · rename_i jpeg hjpeg
      exact (hcaptured.enqueueJpeg hjpeg nofun).triggered true
    · exact hcaptured
  · exact hcaptured

theorem extraJobs_eq (s : PostProcessor) (hbufs : p.inBufs = p.outBufs) (reprocCount : Nat) :
    s.extraJobs p reprocCount = [] := by
  simp_all [extraJobs]

theorem Inv.submit (h : Inv s) (hbufs : p.inBufs = p.outBufs) (hown : request.Own)
    (hsubmitted : a.malloc = true → a.node = true → s.m_ongoingPPQ.active = true →
      request.reprocCount < s.ppChannels → a.submitted = true) :
    Inv (s.submit p a request).2 := by
  unfold PostProcessor.submit
  split
  swap
  · exact h
  rename_i hmalloc
  split
  · rename_i hchannel
    dsimp only
    rw [extraJobs_eq _ hbufs]
    split
    · rename_i ongoing hongoing
      have hnode : a.node = true := by
        by_contra hnode
        simp [CameraQueue.enqueue, hnode] at hongoing
      obtain ⟨hactive, rfl⟩ := CameraQueue.enqueue_true hongoing
      rw [if_pos (hsubmitted hmalloc hnode hactive hchannel)]
      refine ⟨h.requests, ?_, h.channels, fun submission hmem => ?_, h.taken, h.jpeg, h.tidy.1,
        CameraQueue.tidy_of_active rfl, h.tidy.2.2⟩
      · refine List.rel_append h.ongoing (.cons ⟨rfl, rfl, hown.passes, ?_⟩ .nil)
        exact ⟨request.src_reproc_frame, rfl, hown.source, hown.capture⟩
      · rcases List.mem_append.mp hmem with hold | hnew
        · exact h.running submission hold
        · rw [List.mem_singleton.mp hnew]
          exact lt_of_lt_of_le hchannel h.channels
    · exact ⟨h.requests, h.ongoing, h.channels, h.running, h.taken, h.jpeg, h.tidy⟩
  · exact h

theorem Inv.doReprocess (h : Inv s) (hbufs : p.inBufs = p.outBufs) (hactive : s.isActive = true)
    (hsubmitted : s.submits a = true → a.submitted = true) : Inv (s.doReprocess p a).2 := by
  unfold PostProcessor.doReprocess
  split
  · exact h
  split_ifs with hvalid
  · split
    · rename_i request input hdequeue
      obtain ⟨hqueue, hinput⟩ := CameraQueue.dequeue_some hdequeue
      have hrequests : ∀ r ∈ request :: input.items, r.Own := by
        simpa [hqueue] using h.requests
      have htaken : Inv { s with m_inputPPQ := input } :=
        ⟨fun r hr => hrequests r (List.mem_cons_of_mem _ hr), h.ongoing, h.channels, h.running,
          h.taken, h.jpeg, CameraQueue.tidy_of_active hinput, h.tidy.2⟩
      refine htaken.submit hbufs (hrequests request List.mem_cons_self)
        fun hmalloc hnode hongoing hchannel => hsubmitted ?_
      simp_all [CameraQueue.peek_eq_some, submits]
    · exact h
  · exact h

theorem Inv.doNextJob (h : Inv s) (hbufs : p.inBufs = p.outBufs)
    (hsubmitted : s.submits a = true → a.submitted = true) : Inv (s.doNextJob p a).2 := by
  have hread : Inv { s with
      nextJobs := s.nextJobs - 1
      m_inputJpegQ := s.m_inputJpegQ.dequeue.2
      m_inputRawQ := s.m_inputRawQ.dequeue.2 } := by
    refine ⟨h.requests, h.ongoing, h.channels, h.running, h.taken, fun job hjob => ?_, h.tidy.1,
      h.tidy.2.1, h.tidy.2.2.dequeue⟩
    refine h.jpeg job ?_
    rw [← CameraQueue.dequeue_items (q := s.m_inputJpegQ)]
    exact List.mem_append_right _ hjob
  unfold PostProcessor.doNextJob
  dsimp only
  split_ifs with hactive
  · exact hread.doReprocess hbufs hactive hsubmitted
  · refine ⟨?_, hread.ongoing, hread.channels, hread.running, hread.taken, hread.jpeg,
      h.tidy.1.flush, hread.tidy.2⟩
    rw [h.tidy.1.flush_items]
    nofun

theorem Inv.finish (h : Inv s) {submission : Submission} (hjob : job.For submission)
    (hchannel : submission.channel < s.mTotalNumReproc)
    (hmetadata : p.advCamFeatures = true → p.rawPicture = false →
      s.mTotalNumReproc ≤ job.reprocCount → s.m_InputMetadata[p.exifBufIndex s.m_PPindex]? =
        (job.src_reproc_frame.bind SuperBuf.metaFrame).or (bufs.find? (·.isMetadata))) :
    Inv (s.finish p a job
      ⟨bufs, submission.frame.capture, submission.frame.passes + 1⟩).2 := by
  obtain ⟨src, hsrc, hfirst, hcapture⟩ := hjob.source
  have hpasses : submission.frame.passes + 1 = job.reprocCount := by
    rw [hjob.passes, hjob.reprocCount]
  unfold PostProcessor.finish
  rw [hjob.frame, hsrc]
  dsimp only
  split
  · exact h.processRawData _
  rename_i hraw
  split
  · split
    · split
      · rename_i input hinput
        exact (h.enqueueRequest hinput ⟨hpasses, hfirst, hcapture⟩).triggered _
      · exact h
    · exact h
  split
  · have hcounted : Inv { s with m_PPindex := s.m_PPindex + if p.advCamFeatures then 1 else 0 } :=
      ⟨h.requests, h.ongoing, h.channels, h.running, h.taken, h.jpeg, h.tidy⟩
    split
    · rename_i jpeg hjpeg
      refine (hcounted.enqueueJpeg hjpeg fun source hsource => ?_).triggered _
      obtain rfl : src = source := Option.some_inj.mp hsource
      refine ⟨hcapture, hfirst, ?_, ?_⟩
      · have := hjob.reprocCount
        dsimp only
        omega
      · dsimp only [jpegMetadata]
        split
        · rename_i hadv
          rw [hmetadata hadv (by simpa using hraw) (by omega), hsrc]
          rfl
        · rfl
    · exact hcounted
  · exact h

theorem Inv.result (h : Inv s) {channel : Nat}
    (hfirst : s.submitted.head?.map (·.channel) = some channel)
    (hmetadata : p.advCamFeatures = true → s.makesJpeg p = true →
      s.m_InputMetadata[p.exifBufIndex s.m_PPindex]? = s.ownMetadata bufs) :
    Inv (s.result p a channel bufs).2 := by
  cases hsubmitted : s.submitted with
  | nil => simp [hsubmitted] at hfirst
  | cons submission rest =>
    have hchannel : submission.channel = channel := by simpa [hsubmitted] using hfirst
    have hongoing := h.ongoing
    rw [hsubmitted] at hongoing
    -- the job at the head is the one of the oldest submission
    obtain ⟨job, jobs, hjob, hjobs, hqueue⟩ := List.forall₂_cons_right_iff.mp hongoing
    have hactive : s.m_ongoingPPQ.active = true := by
      by_contra hidle
      rw [h.tidy.2.1 (by simpa using hidle)] at hqueue
      cases hqueue
    unfold PostProcessor.result
    have hfind : s.submitted.find? (·.channel == channel) = some submission := by
      simp [hsubmitted, hchannel]
    have herase : s.submitted.eraseP (·.channel == channel) = rest := by
      simp [hsubmitted, hchannel]
    rw [hfind, herase]
    unfold PostProcessor.processPPData
    rw [CameraQueue.dequeue_cons hactive hqueue]
    have hrunning := h.running
    rw [hsubmitted] at hrunning
    have htaken : Inv { s with
        submitted := rest
        m_ongoingPPQ := ⟨jobs, true⟩
        taken := s.taken ++ [(job, submission.frame)] } := by
      refine ⟨h.requests, hjobs, h.channels,
        fun sub hsub => hrunning sub (List.mem_cons_of_mem _ hsub), fun pair hpair => ?_, h.jpeg,
        h.tidy.1, CameraQueue.tidy_of_active rfl, h.tidy.2.2⟩
      rcases List.mem_append.mp hpair with hold | hnew
      · exact h.taken pair hold
      · rw [List.mem_singleton.mp hnew]
        exact hjob.frame
    refine htaken.finish hjob (hrunning submission List.mem_cons_self) fun hadv hraw hlast => ?_
    simp_all [makesJpeg, ownMetadata]

theorem Inv.startDataProc (h : Inv s) : Inv s.startDataProc :=
  ⟨h.requests, h.ongoing, h.channels, h.running, h.taken, h.jpeg, CameraQueue.Tidy.init,
    CameraQueue.Tidy.init, CameraQueue.Tidy.init⟩

theorem Inv.start (h : Inv s) {reprocCount added : Nat} (hadded : added ≤ reprocCount)
    (hempty : s.m_inputPPQ.items = [] ∧ s.m_ongoingPPQ.items = [] ∧ s.m_inputJpegQ.items = []) :
    Inv (s.start p reprocCount added).2 := by
  obtain ⟨hinput, hongoing, hjpeg⟩ := hempty
  unfold PostProcessor.start
  have hcleared (s' : PostProcessor) (hs' : Inv s') :
      Inv { s' with m_PPindex := 0, m_InputMetadata := [] } :=
    ⟨hs'.requests, hs'.ongoing, hs'.channels, hs'.running, hs'.taken, hs'.jpeg, hs'.tidy⟩
  split
  · have hchannels : Inv { s with
        m_bufCountPPQ := 0
        mTotalNumReproc := reprocCount
        ppChannels := added
        submitted := [] } := by
      refine ⟨h.requests, ?_, hadded, nofun, h.taken, ?_, h.tidy⟩
      · rw [hongoing]
        exact .nil
      · rw [hjpeg]
        nofun
    split
    · exact hchannels
    · exact (hcleared _ hchannels).startDataProc
  · exact (hcleared _ h).startDataProc

theorem Inv.stop (h : Inv s) : Inv s.stop := by
  obtain ⟨hinput, hongoing, hjpeg⟩ := h.tidy
  refine ⟨?_, ?_, le_refl 0, nofun, h.taken, ?_, hinput.flush, hongoing.flush, hjpeg.flush⟩
  · dsimp only [PostProcessor.stop]
    rw [hinput.flush_items]
    nofun
  · dsimp only [PostProcessor.stop]
    rw [hongoing.flush_items]
    exact .nil
  · dsimp only [PostProcessor.stop]
    rw [hjpeg.flush_items]
    nofun

theorem inv_exec (h : Inv s) {op : PostProcOp} (hok : Ok s op) (henabled : Enabled s op) :
    Inv (s.exec op) := by
  cases op with
  | start p reprocCount added => exact h.start henabled.2 hok
  | stop => exact h.stop
  | processData p a bufs => exact h.processData
  | processRawData a frame => exact h.processRawData frame
  | result p a channel bufs => exact h.result hok.1 hok.2
  | jpegEvt => exact h.triggered true
  | doNextJob p a => exact h.doNextJob henabled.2 hok

theorem inv_invariant : (system.restrict Ok).Invariant Inv := by
  refine .of_restrict ?_ ?_
  · rintro s rfl
    exact ⟨nofun, .nil, le_refl 0, nofun, nofun, nofun, CameraQueue.tidy_of_active rfl,
      CameraQueue.tidy_of_active rfl, CameraQueue.tidy_of_active rfl⟩
  · rintro s op s' h hok ⟨henabled, rfl⟩
    exact inv_exec h hok henabled

-- the first channel is done with the second capture while the other one works on the first
example : (System.follow (fun s op => True ∧ Enabled s op) exec
    [.start {} 2 2, .processData {} {} [], .doNextJob {} {}, .result {} {} 0 [],
      .processData {} {} [], .doNextJob {} {}, .doNextJob {} {}, .result {} {} 0 []] {}).any
    (fun s => s.taken.any fun pair => !(pair.1.src_frame == some pair.2)) = true := by
  decide +kernel

end PostProcessor

end EtherDevice.Hal1
