import EtherDevice.Hal1.FramesOwned

/-!
# Frames and records are freed once

`Balance` says when a step frees everything once. A job that `processPPData` rejects is lost with
its frames, and so is a request without a reprocess source. An array is lost with a job that does
not become a JPEG job. A raw frame is lost if no notification takes it, and freed twice if the
notifier refuses it. After a stop a notification is left that the notifier has not yet flushed.
-/

namespace EtherDevice.Hal1.PostProcFrames

open Lib Books
open PostProc (CameraQueue)

variable {ps qs frames hand : List Ptr} {s t : PostProcessor}

/-! ## What a step does to the balance -/

/-- The step frees everything once exactly under this condition, and then nothing is in hand. -/
structure Balance (cond : Prop) (t : PostProcessor) : Prop where
  iff : t.FreedOnce ↔ cond
  owned : cond → Owned [] [] t

theorem Owned.balance {cond : Prop} (o : Owned [] hand t) (h : hand = [] ↔ cond) :
    Balance cond t :=
  ⟨o.freedOnce_iff.trans h, fun hcond => h.mpr hcond ▸ o⟩

theorem Owned.balance_of {cond : Prop} (o : Owned [] [] t) (hcond : cond) : Balance cond t :=
  o.balance (iff_of_true rfl hcond)

theorem not_freedOnce_of_twice {p : Ptr} (h : 2 ≤ t.books.heap.freed.count p) : ¬ t.FreedOnce := by
  intro hfreed
  by_cases hmem : p ∈ t.books.heap.made
  · have honce := hfreed.once p hmem
    omega
  · have hnot := List.count_eq_zero_of_not_mem (hfreed.made p hmem).2
    omega

/-- A raw frame is freed because of an error, or a notification keeps it. -/
def RawAnswers.Keeps (a : RawAnswers) : Prop :=
  a.raw_mem = true → (a.snapshot = true ∨ a.m_bIntRawEvtPending = false) ∧ a.mDataCb = true ∧
    a.zslChannelUsed = a.notifyCallback

theorem processRawImageImpl_cases (s : PostProcessor) (a : RawAnswers) (frame : Nat) :
    (¬ a.Keeps ∧ s.processRawImageImpl a frame = (.noError, s)) ∨
      (¬ a.Keeps ∧ s.processRawImageImpl a frame =
        (.unknownError, { s with books := s.books.freeFrame false frame })) ∨
      (a.Keeps ∧ (s.processRawImageImpl a frame =
        (.noError, { s with notifications := s.notifications ++ [frame] }) ∨
          s.processRawImageImpl a frame = (.unknownError, s) ∨
          s.processRawImageImpl a frame = (.badValue, s))) := by
  unfold PostProcessor.processRawImageImpl RawAnswers.Keeps
  split
  · rename_i hraw
    split
    · simp_all
    · rename_i hpending
      have hquiet : a.snapshot = true ∨ a.m_bIntRawEvtPending = false := by
        by_contra hnot
        push Not at hnot
        exact hpending (by simp [hnot])
      split
      · grind
      simp_all
  simp_all

theorem Owned.rawNext (o : Owned [] [] s) (a : RawAnswers) :
    Balance (s.m_inputRawQ.dequeue.1 ≠ none → a.Keeps) (s.rawNext a) := by
  unfold PostProcessor.rawNext
  cases hq : s.m_inputRawQ.dequeue with
  | mk taken q =>
    cases taken with
    | none => exact o.balance_of fun hne => absurd rfl hne
    | some super_buf =>
      obtain ⟨hitems, -⟩ := CameraQueue.dequeue_some hq
      have htaken : Owned [] [.frame super_buf] { s with m_inputRawQ := q } := by
        refine o.move rfl ?_ { o.formed with }
        intro p
        simp only [count_refs, hitems, List.map_cons, List.count_cons, List.count_nil]
        omega
      have hfreed : Owned [] []
          { s with m_inputRawQ := q, books := s.books.freeFrame false super_buf } :=
        htaken.releaseOne (released_freeFrame false super_buf)
      have hbad : ¬ a.Keeps → ¬ (some super_buf ≠ none → a.Keeps) :=
        fun hnot h => hnot (h (Option.some_ne_none _))
      simp only
      rcases processRawImageImpl_cases { s with m_inputRawQ := q } a super_buf with
        ⟨hnot, hrun⟩ | ⟨hnot, hrun⟩ | ⟨hkeeps, hrun | hrun | hrun⟩
      · simp [hrun, htaken.balance, hnot]
      · rw [hrun]
        -- the notifier freed the frame before, and the frame is not held any more
        have hfirst := ((released_freeFrame (b := s.books) false super_buf).frees []).freed
          (.frame super_buf)
        have hsecond := ((released_freeFrame (b := s.books.freeFrame false super_buf) false
          super_buf).frees []).freed (.frame super_buf)
        rw [List.count_singleton_self] at hfirst hsecond
        have htwice : ¬ PostProcessor.FreedOnce { s with
            m_inputRawQ := q
            books := (s.books.freeFrame false super_buf).freeFrame false super_buf } := by
          apply not_freedOnce_of_twice (p := .frame super_buf)
          simp_all [settled]
        exact ⟨iff_of_false htwice (hbad hnot), fun h => absurd h (hbad hnot)⟩
      · rw [hrun]
        refine Owned.balance_of ?_ fun _ => hkeeps
        refine htaken.move rfl ?_ { htaken.formed with }
        grind [count_refs]
      · rw [hrun]
        exact hfreed.balance_of fun _ => hkeeps
      · rw [hrun]
        exact hfreed.balance_of fun _ => hkeeps

/-! ### Commands -/

theorem released_frames {b : Books} (frames : List Nat) :
    Released b (frames.foldl (Books.freeFrame · false) b) (frames.map Ptr.frame) := by
  rw [← List.flatMap_singleton' (frames.map Ptr.frame), List.flatMap_map]
  exact Released.foldl (fun _ frame => released_freeFrame false frame) frames

theorem count_jobs (jobs : List PpData) (p : Ptr) : (jobs.flatMap PpData.refs).count p =
    (jobs.flatMap PpData.freed).count p + (jobs.flatMap PpData.array).count p := by
  induction jobs with
  | nil => rfl
  | cons job jobs ih =>
    simp only [List.flatMap_cons, PpData.refs, List.count_append, ih]
    omega

namespace Owned

theorem discardNext (o : Owned [] [] s) : Owned [] [] s.discardNext := by
  have hjpeg : Released s.books (s.m_inputJpegQ.dequeue.1.elim s.books s.books.freeJpegJob)
      (s.m_inputJpegQ.dequeue.1.toList.flatMap JpegData.refs) := by
    cases s.m_inputJpegQ.dequeue.1 with
    | none => exact .refl
    | some job => simpa using released_freeJpegJob job
  have hraw : ∀ b : Books, Released b
      (s.m_inputRawQ.dequeue.1.elim b (b.freeFrame false))
      (s.m_inputRawQ.dequeue.1.toList.map Ptr.frame) := by
    intro b
    cases s.m_inputRawQ.dequeue.1 with
    | none => exact .refl
    | some frame => exact released_freeFrame false frame
  have hall := (hjpeg.trans (hraw _)).trans
    (Released.foldl (fun _ r => released_freeRequest r) s.m_inputPPQ.flush.1)
  refine o.released hall ?_ { o.formed with requests := fun r hr => ?_ }
  · grind [CameraQueue.dequeue_items, CameraQueue.flush_items, PostProcessor.discardNext,
      count_refs]
  · exact o.formed.requests r (CameraQueue.mem_of_mem_flush_items hr)

theorem startDataProc (o : Owned [] [] s) : Owned [] [] s.startDataProc :=
  o.move rfl (fun _ => rfl) { o.formed with }

theorem start (o : Owned [] [] s) (reprocCount : Option Nat) (channels : Bool) :
    Owned [] [] (s.start reprocCount channels) := by
  unfold PostProcessor.start
  split
  · cases reprocCount with
    | none => exact o.startDataProc
    | some n =>
      have h : Owned [] [] { s with m_bufCountPPQ := 0, mTotalNumReproc := n } :=
        o.move rfl (fun _ => rfl) { o.formed with }
      simp only
      split
      · exact h.startDataProc
      · exact h
  · exact o

theorem flushSnapshots (o : Owned [] [] s) : Owned [] [] s.flushSnapshots := by
  refine o.released (released_frames s.notifications) ?_ { o.formed with }
  simp [PostProcessor.flushSnapshots, count_refs]

theorem notified (o : Owned [] [] s) : Owned [] [] s.notified := by
  unfold PostProcessor.notified
  split
  · exact o
  · rename_i frame rest hnotes
    refine o.released (released_freeFrame false frame) ?_ { o.formed with }
    intro p
    simp only [count_refs, hnotes, List.map_cons, List.count_cons, List.count_nil]
    omega

theorem processJpegEvt (o : Owned [] [] s) (jobId : Nat) :
    Owned [] [] (s.processJpegEvt jobId) := by
  unfold PostProcessor.processJpegEvt
  split
  · refine o.released (Released.foldl (fun _ job => released_freeJpegJob job) _) ?_
      { o.formed with }
    intro p
    have hjobs := ((CameraQueue.flushNodes_perm s.m_ongoingJpegQ
      (fun job => job.jobId == jobId)).flatMap_right JpegData.refs).count_eq p
    simp only [List.flatMap_append, List.count_append] at hjobs
    simp only [count_refs, List.count_nil]
    omega
  · exact o

theorem stopDataProc (o : Owned [] [] s) :
    Owned [] (s.m_ongoingPPQ.flush.1.flatMap PpData.array) s.stopDataProc := by
  have hongoing := Released.foldl (b := s.books) (fun _ job => released_freeJpegJob job)
    (s.m_ongoingJpegQ.flushNodes fun _ => true).1
  have hjobs := hongoing.trans
    (Released.foldl (fun _ job => released_freePpJob job) s.m_ongoingPPQ.flush.1)
  have hjpeg := hjobs.trans
    (Released.foldl (fun _ job => released_freeJpegJob job) s.m_inputJpegQ.flush.1)
  have hrequests := hjpeg.trans
    (Released.foldl (fun _ r => released_freeRequest r) s.m_inputPPQ.flush.1)
  have hall := hrequests.trans (released_frames s.m_inputRawQ.flush.1)
  refine o.released hall ?_ ⟨fun r hr => ?_, fun job hjob => ?_⟩
  · intro p
    have h₁ := ((CameraQueue.flushNodes_perm s.m_ongoingJpegQ
      (fun _ => true)).flatMap_right JpegData.refs).count_eq p
    grind [CameraQueue.flush_items, count_jobs, PostProcessor.stopDataProc, count_refs]
  · exact o.formed.requests r (CameraQueue.mem_of_mem_flush_items hr)
  · exact o.formed.jobs job (CameraQueue.mem_of_mem_flush_items hjob)

end Owned

/-! ## Which queues are active -/

structure Calm {α : Type} (q q' : CameraQueue α) : Prop where
  active : q'.active = q.active
  idle : q.active = false → q' = q

section

variable {α : Type} {q q' q'' : CameraQueue α}

theorem Calm.refl : Calm q q := ⟨rfl, fun _ => rfl⟩

theorem Calm.trans (h₁ : Calm q q') (h₂ : Calm q' q'') : Calm q q'' where
  active := h₂.active.trans h₁.active
  idle h := (h₂.idle (h₁.active.trans h)).trans (h₁.idle h)

theorem Calm.tidy (h : Calm q q') (htidy : q.Tidy) : q'.Tidy := by
  intro hidle
  have hold := h.active.symm.trans hidle
  rw [h.idle hold]
  exact htidy hold

theorem calm_enqueue (data : α) : Calm q (q.enqueue data true).2 := by
  refine ⟨CameraQueue.enqueue_active, fun hidle => ?_⟩
  simp [CameraQueue.enqueue, hidle]

theorem calm_dequeue : Calm q q.dequeue.2 := by
  refine ⟨CameraQueue.dequeue_active, fun hidle => ?_⟩
  simp [CameraQueue.dequeue, hidle]

theorem calm_flushNodes (select : α → Bool) : Calm q (q.flushNodes select).2 := by
  refine ⟨CameraQueue.flushNodes_active q select, fun hidle => ?_⟩
  simp [CameraQueue.flushNodes, hidle]

end

structure Quiet (s t : PostProcessor) : Prop where
  m_bInited : t.m_bInited = s.m_bInited
  isActive : t.isActive = s.isActive
  inputPPQ : Calm s.m_inputPPQ t.m_inputPPQ
  ongoingPPQ : Calm s.m_ongoingPPQ t.m_ongoingPPQ
  inputJpegQ : Calm s.m_inputJpegQ t.m_inputJpegQ
  ongoingJpegQ : Calm s.m_ongoingJpegQ t.m_ongoingJpegQ
  inputRawQ : Calm s.m_inputRawQ t.m_inputRawQ

namespace Quiet

theorem refl : Quiet s s := ⟨rfl, rfl, .refl, .refl, .refl, .refl, .refl⟩

theorem trans {u : PostProcessor} (h₁ : Quiet s t) (h₂ : Quiet t u) : Quiet s u where
  m_bInited := h₂.m_bInited.trans h₁.m_bInited
  isActive := h₂.isActive.trans h₁.isActive
  inputPPQ := h₁.inputPPQ.trans h₂.inputPPQ
  ongoingPPQ := h₁.ongoingPPQ.trans h₂.ongoingPPQ
  inputJpegQ := h₁.inputJpegQ.trans h₂.inputJpegQ
  ongoingJpegQ := h₁.ongoingJpegQ.trans h₂.ongoingJpegQ
  inputRawQ := h₁.inputRawQ.trans h₂.inputRawQ

theorem books (b : Books) : Quiet s { s with books := b } :=
  ⟨rfl, rfl, .refl, .refl, .refl, .refl, .refl⟩

theorem enqueueRequest (r : PpRequest) : Quiet s (s.enqueueRequest r) := by
  unfold PostProcessor.enqueueRequest
  split
  · rename_i q hq
    have hcalm := calm_enqueue (q := s.m_inputPPQ) r
    rw [hq] at hcalm
    exact { (refl : Quiet s s) with inputPPQ := hcalm }
  · exact books _

theorem enqueueJpegJob (job : JpegData) : Quiet s (s.enqueueJpegJob job) := by
  unfold PostProcessor.enqueueJpegJob
  split
  · rename_i q hq
    have hcalm := calm_enqueue (q := s.m_inputJpegQ) job
    rw [hq] at hcalm
    exact { (refl : Quiet s s) with inputJpegQ := hcalm }
  · exact books _

theorem processRawData (frame : Nat) : Quiet s (s.processRawData frame).2 := by
  unfold PostProcessor.processRawData
  split
  · split
    · rename_i q hq
      have hcalm := calm_enqueue (q := s.m_inputRawQ) frame
      rw [hq] at hcalm
      exact { (refl : Quiet s s) with inputRawQ := hcalm }
    · exact books _
  · exact refl

theorem processData (mode : Mode) (frame : Nat) : Quiet s (s.processData mode frame).2 := by
  unfold PostProcessor.processData
  split
  · cases mode with
    | reprocess => exact (books _).trans (enqueueRequest _)
    | rawPicture => exact processRawData frame
    | jpeg => exact (books _).trans (enqueueJpegJob _)
  · exact refl

theorem finish (rawPicture : Bool) (job : PpData) (frame : Nat) :
    Quiet s (s.finish rawPicture job frame).2 := by
  unfold PostProcessor.finish
  split
  · exact (books _).trans (processRawData frame)
  · have hsource : Quiet s (if 1 < job.reprocCount then
        { s with books := s.books.freeFrame? false job.src_frame } else s) := by
      split
      · exact books _
      · exact refl
    simp only
    generalize (if 1 < job.reprocCount then
      { s with books := s.books.freeFrame? false job.src_frame } else s) = u at hsource
    split
    · exact ((hsource.trans (books _)).trans (enqueueRequest _)).trans (books _)
    · exact ((hsource.trans (books _)).trans (enqueueJpegJob _)).trans (books _)

theorem processPPData (needSuperBufMatch rawPicture : Bool) (frame : Nat) :
    Quiet s (s.processPPData needSuperBufMatch rawPicture frame).2 := by
  unfold PostProcessor.processPPData
  split
  · split
    · exact refl
    · rename_i job q hq
      have hcalm := calm_dequeue (q := s.m_ongoingPPQ)
      rw [hq] at hcalm
      have htaken : Quiet s { s with m_ongoingPPQ := q } :=
        { (refl : Quiet s s) with ongoingPPQ := hcalm }
      split
      · exact htaken
      · exact htaken.trans (finish _ job frame)
  · exact refl

theorem take {call : PostProcessor → Nat → Status × PostProcessor}
    (hcall : ∀ t frame, Quiet t (call t frame).2) : Quiet s (s.take call) := by
  have h := (books (s := s) { s.books with next := s.books.next + 1 }).trans
    (hcall { s with books := { s.books with next := s.books.next + 1 } } s.books.next)
  unfold PostProcessor.take
  split
  · rename_i u hu
    rw [hu] at h
    exact h.trans (books _)
  simp_all

theorem encodeNext (start_job : Option Nat) : Quiet s (s.encodeNext start_job) := by
  unfold PostProcessor.encodeNext
  split
  · exact refl
  · rename_i job q hq
    have hcalm := calm_dequeue (q := s.m_inputJpegQ)
    rw [hq] at hcalm
    simp only
    split
    · exact { (refl : Quiet s s) with inputJpegQ := hcalm, ongoingJpegQ := calm_enqueue _ }
    · rename_i ongoing hongoing
      obtain ⟨hactive, -⟩ := CameraQueue.enqueue_true hongoing
      have htail : (s.m_ongoingJpegQ.enqueue job true).2.dequeueTail =
          (some job, s.m_ongoingJpegQ) := CameraQueue.dequeueTail_enqueue rfl hactive
      rw [show s.m_ongoingJpegQ.enqueue job true = (true, ongoing) from hongoing] at htail
      rw [htail]
      exact { (refl : Quiet s s) with inputJpegQ := hcalm }
    · exact { (refl : Quiet s s) with inputJpegQ := hcalm }

theorem rawNext (a : RawAnswers) : Quiet s (s.rawNext a) := by
  unfold PostProcessor.rawNext
  split
  · exact refl
  · rename_i super_buf q hq
    have hcalm := calm_dequeue (q := s.m_inputRawQ)
    rw [hq] at hcalm
    have htaken : Quiet s { s with m_inputRawQ := q } :=
      { (refl : Quiet s s) with inputRawQ := hcalm }
    rcases processRawImageImpl_cases { s with m_inputRawQ := q } a super_buf with
      ⟨-, hrun⟩ | ⟨-, hrun⟩ | ⟨-, hrun | hrun | hrun⟩
    · rw [hrun]
      exact htaken
    · rw [hrun]
      exact htaken.trans ⟨rfl, rfl, .refl, .refl, .refl, .refl, .refl⟩
    · rw [hrun]
      exact htaken.trans ⟨rfl, rfl, .refl, .refl, .refl, .refl, .refl⟩
    · rw [hrun]
      exact htaken.trans (books _)
    · rw [hrun]
      exact htaken.trans (books _)

theorem addExtraJobs (reprocCount n : Nat) :
    Quiet s (PostProcessor.addExtraJobs reprocCount s n) := by
  induction n generalizing s with
  | zero => exact refl
  | succ n ih =>
    unfold PostProcessor.addExtraJobs
    simp only
    split
    · rename_i q hq
      have hcalm := calm_enqueue (q := (s.malloc .job).m_ongoingPPQ)
        ({ serial := s.books.next, reprocCount := reprocCount } : PpData)
      rw [hq] at hcalm
      have hqueued : Quiet s { s.malloc .job with m_ongoingPPQ := q } :=
        { (refl : Quiet s s) with ongoingPPQ := hcalm }
      exact hqueued.trans ih
    · exact (books _).trans (books _)

theorem submit (a : ReprocessAnswers) (job : PpData) : Quiet s (s.submit a job) := by
  unfold PostProcessor.submit
  simp only
  split
  · rename_i q hq
    have hcalm := calm_enqueue (q := s.m_ongoingPPQ) job
    rw [hq] at hcalm
    have hqueued : Quiet s
        { s with m_bufCountPPQ := s.m_bufCountPPQ + 1, m_ongoingPPQ := q } :=
      { (refl : Quiet s s) with ongoingPPQ := hcalm }
    split
    · exact hqueued.trans (addExtraJobs _ _)
    · exact hqueued
  · exact ⟨rfl, rfl, .refl, .refl, .refl, .refl, .refl⟩

theorem reprocess (a : ReprocessAnswers) (r : PpRequest) (src_reproc_frame : Nat) :
    Quiet s (s.reprocess a r src_reproc_frame) := by
  have hmalloc : Quiet s (s.malloc .job) := books _
  refine Quiet.trans ?_ (books _)
  split
  · split
    · split
      · exact (hmalloc.trans (books _)).trans (submit a _)
      · exact hmalloc.trans (submit a _)
    · exact hmalloc.trans (submit a _)
  · exact hmalloc.trans (books _)

theorem doReprocess (a : ReprocessAnswers) : Quiet s (s.doReprocess a) := by
  unfold PostProcessor.doReprocess
  split
  · split
    · exact refl
    · rename_i r q hq
      have hcalm := calm_dequeue (q := s.m_inputPPQ)
      rw [hq] at hcalm
      have htaken : Quiet s { s with m_inputPPQ := q } :=
        { (refl : Quiet s s) with inputPPQ := hcalm }
      split
      · exact htaken
      · exact htaken.trans (reprocess a r _)
  · exact refl

theorem processJpegEvt (jobId : Nat) : Quiet s (s.processJpegEvt jobId) := by
  unfold PostProcessor.processJpegEvt
  split
  · exact { (refl : Quiet s s) with ongoingJpegQ := calm_flushNodes _ }
  · exact refl

theorem notified : Quiet s s.notified := by
  unfold PostProcessor.notified
  split
  · exact refl
  · exact ⟨rfl, rfl, .refl, .refl, .refl, .refl, .refl⟩

theorem flushSnapshots : Quiet s s.flushSnapshots :=
  ⟨rfl, rfl, .refl, .refl, .refl, .refl, .refl⟩

end Quiet

/-- The queues of a post processor that was not stopped too often: the queue of the encoder is
never flushed, and the others are active while the data thread is started and empty while they
are not active. -/
structure Working (s : PostProcessor) : Prop where
  ongoingJpegQ : s.m_ongoingJpegQ.active = true
  started : s.isActive = true → s.m_bInited = true ∧ s.m_ongoingPPQ.active = true
  inputPPQ : s.m_inputPPQ.Tidy
  ongoingPPQ : s.m_ongoingPPQ.Tidy
  inputJpegQ : s.m_inputJpegQ.Tidy
  inputRawQ : s.m_inputRawQ.Tidy

namespace Working

theorem quiet (w : Working s) (h : Quiet s t) : Working t where
  ongoingJpegQ := h.ongoingJpegQ.active.trans w.ongoingJpegQ
  started hactive := by
    simp [w.started, h.isActive.symm.trans, hactive, h.m_bInited.trans, h.ongoingPPQ.active.trans]
  inputPPQ := h.inputPPQ.tidy w.inputPPQ
  ongoingPPQ := h.ongoingPPQ.tidy w.ongoingPPQ
  inputJpegQ := h.inputJpegQ.tidy w.inputJpegQ
  inputRawQ := h.inputRawQ.tidy w.inputRawQ

theorem discardNext (w : Working s) : Working s.discardNext where
  ongoingJpegQ := w.ongoingJpegQ
  started := w.started
  inputPPQ := w.inputPPQ.flush
  ongoingPPQ := w.ongoingPPQ
  inputJpegQ := w.inputJpegQ.dequeue
  inputRawQ := w.inputRawQ.dequeue

theorem startDataProc (w : Working s) (hinited : s.m_bInited = true) : Working s.startDataProc where
  ongoingJpegQ := w.ongoingJpegQ
  started _ := ⟨hinited, rfl⟩
  inputPPQ := .init
  ongoingPPQ := .init
  inputJpegQ := .init
  inputRawQ := .init

theorem start (w : Working s) (reprocCount : Option Nat) (channels : Bool) :
    Working (s.start reprocCount channels) := by
  unfold PostProcessor.start
  split
  · rename_i hinited
    cases reprocCount with
    | none => exact w.startDataProc hinited
    | some n =>
      have h : Working { s with m_bufCountPPQ := 0, mTotalNumReproc := n } := { w with }
      simp only
      split
      · exact h.startDataProc hinited
      · exact h
  · exact w

theorem stopDataProc (w : Working s) : Working s.stopDataProc where
  ongoingJpegQ := (CameraQueue.flushNodes_active _ _).trans w.ongoingJpegQ
  started := nofun
  inputPPQ := w.inputPPQ.flush
  ongoingPPQ := w.ongoingPPQ.flush
  inputJpegQ := w.inputJpegQ.flush
  inputRawQ := w.inputRawQ.flush

theorem stop (w : Working s) (notifierFirst : Bool) : Working (s.stop notifierFirst) := by
  have hflushed : Working (if notifierFirst then s.flushSnapshots else s) := by
    split
    · exact w.quiet .flushSnapshots
    · exact w
  unfold PostProcessor.stop
  split
  · exact { hflushed.stopDataProc with }
  · exact { w with }

theorem exec (w : Working s) (op : Op) : Working (s.exec op) := by
  have hactive : ∀ t, Working t → Working (if s.isActive then t else s) := by
    intro t h
    split
    · exact h
    · exact w
  have hidle : ∀ t, Working t → Working (if s.isActive then s else t) := by
    intro t h
    split
    · exact w
    · exact h
  cases op with
  | start reprocCount channels => exact w.start reprocCount channels
  | stop notifierFirst => exact w.stop notifierFirst
  | processData mode => exact w.quiet (.take fun _ frame => .processData mode frame)
  | processRawData => exact w.quiet (.take fun _ frame => .processRawData frame)
  | processPPData needSuperBufMatch rawPicture =>
    exact w.quiet (.take fun _ frame => .processPPData needSuperBufMatch rawPicture frame)
  | encodeNext start_job => exact hactive _ (w.quiet (.encodeNext start_job))
  | rawNext a => exact hactive _ (w.quiet (.rawNext a))
  | doReprocess a => exact hactive _ (w.quiet (.doReprocess a))
  | discardNext => exact hidle _ w.discardNext
  | processJpegEvt jobId => exact w.quiet (.processJpegEvt jobId)
  | notified => exact w.quiet .notified
  | flushSnapshots => exact w.quiet .flushSnapshots

end Working

/-! ## What is left after a stop -/

theorem flatMap_eq_nil {α : Type} (refs : α → List Ptr) (hrefs : ∀ x, refs x ≠ []) {xs : List α} :
    xs.flatMap refs = [] ↔ xs = [] := by
  cases xs with
  | nil => exact iff_of_true rfl rfl
  | cons x xs =>
    simp [hrefs]

theorem refs_eq_nil : s.refs = [] ↔ s.m_inputPPQ.items = [] ∧ s.m_ongoingPPQ.items = [] ∧
    s.m_inputJpegQ.items = [] ∧ s.m_ongoingJpegQ.items = [] ∧ s.m_inputRawQ.items = [] ∧
      s.notifications = [] := by
  unfold PostProcessor.refs
  simp only [List.append_eq_nil_iff, List.map_eq_nil_iff,
    flatMap_eq_nil PpRequest.refs fun _ => List.cons_ne_nil _ _,
    flatMap_eq_nil PpData.refs fun _ => List.cons_ne_nil _ _,
    flatMap_eq_nil JpegData.refs fun _ => List.cons_ne_nil _ _]

theorem refs_stopDataProc (w : Working s) : s.stopDataProc.refs = [] ↔ s.notifications = [] := by
  have hongoing : (s.m_ongoingJpegQ.flushNodes fun _ => true).2.items = [] := by
    simp [CameraQueue.flushNodes, w.ongoingJpegQ]
  rw [refs_eq_nil]
  simp only [PostProcessor.stopDataProc, w.inputPPQ.flush_items, w.ongoingPPQ.flush_items,
    w.inputJpegQ.flush_items, w.inputRawQ.flush_items, hongoing, true_and]

def Unused (s : PostProcessor) : Prop := s.m_bInited = false ∧ s.isActive = false ∧ s.refs = []

theorem Unused.take {call : PostProcessor → Nat → Status × PostProcessor} (h : Unused s)
    (hcall : ∀ t frame, t.m_bInited = false → call t frame = (.unknownError, t)) :
    Unused (s.take call) := by
  unfold PostProcessor.take
  rw [hcall { s with books := { s.books with next := s.books.next + 1 } } _ h.1]
  exact h

theorem Unused.exec (h : Unused s) (op : Op) : Unused (s.exec op) := by
  obtain ⟨hinited, hidle, hrefs⟩ := h
  have h : Unused s := ⟨hinited, hidle, hrefs⟩
  obtain ⟨hinput, hongoing, hjpeg, hencoder, hraw, hnotes⟩ := refs_eq_nil.mp hrefs
  cases op with
  | start reprocCount channels =>
    simp [PostProcessor.exec, PostProcessor.start, hinited, h]
  | stop notifierFirst =>
    simp only [PostProcessor.exec, PostProcessor.stop, hinited, Bool.false_eq_true, if_false]
    exact ⟨rfl, hidle, hrefs⟩
  | processData mode =>
    apply h.take
    intro t frame ht
    simp [PostProcessor.processData, ht]
  | processRawData =>
    apply h.take
    intro t frame ht
    simp [PostProcessor.processRawData, ht]
  | processPPData needSuperBufMatch rawPicture =>
    apply h.take
    intro t frame ht
    simp [PostProcessor.processPPData, ht]
  | encodeNext start_job =>
    simpa only [PostProcessor.exec, hidle, Bool.false_eq_true, if_false] using h
  | rawNext a => simpa only [PostProcessor.exec, hidle, Bool.false_eq_true, if_false] using h
  | doReprocess a => simpa only [PostProcessor.exec, hidle, Bool.false_eq_true, if_false] using h
  | discardNext =>
    simp only [PostProcessor.exec, hidle, Bool.false_eq_true, if_false]
    refine ⟨hinited, hidle, refs_eq_nil.mpr ⟨?_, hongoing, ?_, hencoder, ?_, hnotes⟩⟩
    · exact CameraQueue.Tidy.flush_items fun _ => hinput
    · simpa only [PostProcessor.discardNext, CameraQueue.dequeue_none hjpeg] using hjpeg
    · simpa only [PostProcessor.discardNext, CameraQueue.dequeue_none hraw] using hraw
  | processJpegEvt jobId =>
    simp [PostProcessor.exec, PostProcessor.processJpegEvt, hinited, h]
  | notified => simpa only [PostProcessor.exec, PostProcessor.notified, hnotes] using h
  | flushSnapshots =>
    exact ⟨hinited, hidle, refs_eq_nil.mpr ⟨hinput, hongoing, hjpeg, hencoder, hraw, rfl⟩⟩

/-! ## Runs -/

namespace PostProcessor

def PpDataKeeps (s : PostProcessor) (needSuperBufMatch rawPicture : Bool) : Prop :=
  ∀ job ∈ s.m_ongoingPPQ.dequeue.1,
    (needSuperBufMatch = false → job.src_frame ≠ none ∧ job.src_reproc_frame ≠ none) ∧
      (job.src_reproc_bufs = none ∨
        (needSuperBufMatch = true ∨ rawPicture = false) ∧ s.mTotalNumReproc ≤ job.reprocCount)

/-- What the frames, the records and the arrays of the step need. -/
def Cond (s : PostProcessor) : Op → Prop
  | .stop notifierFirst => s.m_bInited = true →
    (∀ job ∈ s.m_ongoingPPQ.items, job.src_reproc_bufs = none) ∧
      (notifierFirst = true ∨ s.notifications = [])
  | .processPPData needSuperBufMatch rawPicture =>
    s.m_bInited = true → s.PpDataKeeps needSuperBufMatch rawPicture
  | .rawNext a => s.isActive = true → s.m_inputRawQ.dequeue.1 ≠ none → a.Keeps
  | .doReprocess a => s.isActive = true → a.validatePostProcess = true →
    ∀ r ∈ s.m_inputPPQ.dequeue.1, r.src_reproc_frame ≠ none
  | _ => True

/-- What holds in a run all of whose steps met their condition. -/
structure Sound (s : PostProcessor) : Prop where
  owned : Owned [] [] s
  working : Working s
  unused : s.m_bInited = false → Unused s

end PostProcessor

theorem array_eq_nil {job : PpData} : job.array = [] ↔ job.src_reproc_bufs = none := by
  simp [PpData.array]

theorem ppDataLost_eq_nil {needSuperBufMatch rawPicture : Bool} :
    ppDataLost s needSuperBufMatch rawPicture = [] ↔
      (s.m_bInited = true → s.PpDataKeeps needSuperBufMatch rawPicture) := by
  unfold ppDataLost PostProcessor.PpDataKeeps
  split
  · rename_i hinited
    rw [forall_prop_of_true hinited]
    cases s.m_ongoingPPQ.dequeue.1 with
    | none => exact iff_of_true rfl nofun
    | some job =>
      simp only [Option.mem_some_iff, forall_eq']
      split
      · rename_i hrejected
        simp only [Bool.and_eq_true, Bool.not_eq_true', Bool.or_eq_true, Option.isNone_iff_eq_none]
          at hrejected
        refine iff_of_false (List.cons_ne_nil _ _) fun h => ?_
        simp_all
      · rename_i hvalid
        have hframes : needSuperBufMatch = false →
            job.src_frame ≠ none ∧ job.src_reproc_frame ≠ none := by
          simp_all
        rw [and_iff_right hframes]
        unfold finishLost
        split
        · rename_i hlost
          rw [array_eq_nil]
          refine ⟨.inl, fun h => h.resolve_right fun hkept => ?_⟩
          rcases hlost with hraw | hmore
          · simp_all
          · exact absurd hmore (Nat.not_lt.mpr hkept.2)
        · rename_i hkept
          push Not at hkept
          have hcount := hkept.2
          refine iff_of_true rfl (.inr ⟨?_, by omega⟩)
          grind
  simp_all

theorem reprocessLost_eq_nil {a : ReprocessAnswers} : reprocessLost s a = [] ↔
    (a.validatePostProcess = true → ∀ r ∈ s.m_inputPPQ.dequeue.1, r.src_reproc_frame ≠ none) := by
  unfold reprocessLost
  split
  · rename_i hvalid
    rw [forall_prop_of_true hvalid]
    cases s.m_inputPPQ.dequeue.1 with
    | none => exact iff_of_true rfl nofun
    | some r =>
      simp only [Option.mem_some_iff, forall_eq']
      split
      · rename_i hnone
        exact iff_of_false (List.cons_ne_nil _ _) fun h => h hnone
      simp_all
  simp_all

namespace PostProcessor

theorem Sound.balance_stop (h : s.Sound) (notifierFirst : Bool) :
    Balance (s.m_bInited = true → ∀ job ∈ s.m_ongoingPPQ.items, job.src_reproc_bufs = none)
      (s.stop notifierFirst) := by
  have hflushed : Owned [] [] (if notifierFirst then s.flushSnapshots else s) := by
    split
    · exact h.owned.flushSnapshots
    · exact h.owned
  have hsame : (if notifierFirst then s.flushSnapshots else s).m_ongoingPPQ = s.m_ongoingPPQ := by
    split <;> rfl
  unfold PostProcessor.stop
  split
  · rename_i hinited
    have hstopped := hflushed.stopDataProc
    rw [hsame] at hstopped
    have hfinal := hstopped.move (t := { (if notifierFirst then s.flushSnapshots else
      s).stopDataProc with mTotalNumReproc := 0 }) rfl (fun _ => rfl) { hstopped.formed with }
    apply hfinal.balance
    rw [forall_prop_of_true hinited]
    have hflush : s.m_ongoingPPQ.flush.1 = s.m_ongoingPPQ.items := by
      have hitems := CameraQueue.flush_items (q := s.m_ongoingPPQ)
      rwa [h.working.ongoingPPQ.flush_items, List.append_nil] at hitems
    simp [array_eq_nil, hflush]
  · rename_i hinited
    exact (h.owned.move (t := { s with mTotalNumReproc := 0 }) rfl (fun _ => rfl)
      { h.owned.formed with }).balance_of fun hcontra => absurd hcontra hinited

theorem Sound.refs_stop (h : s.Sound) (notifierFirst : Bool) : (s.stop notifierFirst).refs = [] ↔
    (s.m_bInited = true → notifierFirst = true ∨ s.notifications = []) := by
  unfold PostProcessor.stop
  split
  · rename_i hinited
    rw [forall_prop_of_true hinited]
    have hflushed : Working (if notifierFirst then s.flushSnapshots else s) := by
      split
      · exact h.working.quiet .flushSnapshots
      · exact h.working
    refine (refs_stopDataProc hflushed).trans ?_
    cases notifierFirst with
    | true => exact iff_of_true rfl (.inl rfl)
    | false => simp
  · rename_i hinited
    refine iff_of_true ?_ fun hcontra => absurd hcontra hinited
    exact (h.unused (by simpa using hinited)).2.2

theorem Sound.balance (h : s.Sound) {op : Op} (hstop : ∀ notifierFirst, op ≠ .stop notifierFirst) :
    Balance (s.Cond op) (s.exec op) := by
  have o := h.owned
  cases op with
  | start reprocCount channels => exact (o.start reprocCount channels).balance_of trivial
  | stop notifierFirst => exact absurd rfl (hstop notifierFirst)
  | processData mode =>
    have h : Owned [] [] (s.take (PostProcessor.processData · mode)) :=
      o.take fun t hrejected haccepted ht => ?_
    · exact h.balance_of trivial
    by_cases hinited : t.m_bInited = true
    · simp [haccepted.processData, hinited]
    · simpa [PostProcessor.processData, hinited] using hrejected
  | processRawData =>
    have h : Owned [] [] (s.take PostProcessor.processRawData) :=
      o.take fun t hrejected haccepted ht => ?_
    · exact h.balance_of trivial
    by_cases hinited : t.m_bInited = true
    · simp [haccepted.processRawData, hinited]
    · simpa [PostProcessor.processRawData, hinited] using hrejected
  | processPPData needSuperBufMatch rawPicture =>
    exact (o.processPPData needSuperBufMatch rawPicture).balance ppDataLost_eq_nil
  | encodeNext start_job =>
    show Balance True (if s.isActive then s.encodeNext start_job else s)
    split
    · exact (o.encodeNext start_job).balance_of trivial
    · exact o.balance_of trivial
  | rawNext a =>
    show Balance (s.isActive = true → _) (if s.isActive then s.rawNext a else s)
    split
    · rename_i hactive
      simp [hactive, o.rawNext]
    · rename_i hidle
      exact o.balance_of fun hcontra => absurd hcontra hidle
  | doReprocess a =>
    show Balance (s.isActive = true → _) (if s.isActive then s.doReprocess a else s)
    split
    · rename_i hactive
      rw [forall_prop_of_true hactive]
      exact (o.doReprocess a (h.working.started hactive).2).balance reprocessLost_eq_nil
    · rename_i hidle
      exact o.balance_of fun hcontra => absurd hcontra hidle
  | discardNext =>
    show Balance True (if s.isActive then s else s.discardNext)
    split
    · exact o.balance_of trivial
    · exact o.discardNext.balance_of trivial
  | processJpegEvt jobId => exact (o.processJpegEvt jobId).balance_of trivial
  | notified => exact o.notified.balance_of trivial
  | flushSnapshots => exact o.flushSnapshots.balance_of trivial

theorem Sound.keeps_iff (h : s.Sound) (op : Op) : s.Keeps op ↔ s.Cond op := by
  by_cases hstop : ∃ notifierFirst, op = .stop notifierFirst
  · obtain ⟨notifierFirst, rfl⟩ := hstop
    have hlast : (∀ first, Op.stop notifierFirst = .stop first → (s.stop notifierFirst).refs = []) ↔
        (s.stop notifierFirst).refs = [] := ⟨fun hall => hall _ rfl, fun hnil _ _ => hnil⟩
    refine (and_congr (h.balance_stop notifierFirst).iff
      (hlast.trans (h.refs_stop notifierFirst))).trans ?_
    exact forall_and.symm
  · push Not at hstop
    have hnone : ∀ notifierFirst, op = .stop notifierFirst → (s.exec op).refs = [] :=
      fun notifierFirst heq => absurd heq (hstop notifierFirst)
    exact (and_iff_left hnone).trans (h.balance hstop).iff

theorem start_m_bInited (s : PostProcessor) (reprocCount : Option Nat) (channels : Bool) :
    (s.start reprocCount channels).m_bInited = s.m_bInited := by
  unfold PostProcessor.start
  split
  · cases reprocCount with
    | none => rfl
    | some n =>
      simp only
      split <;> rfl
  · rfl

theorem stop_m_bInited (s : PostProcessor) (notifierFirst : Bool) :
    (s.stop notifierFirst).m_bInited = s.m_bInited := by
  unfold PostProcessor.stop
  split
  · cases notifierFirst <;> rfl
  · rfl

theorem exec_m_bInited (s : PostProcessor) (op : Op) : (s.exec op).m_bInited = s.m_bInited := by
  have hif : ∀ t u : PostProcessor, t.m_bInited = s.m_bInited → u.m_bInited = s.m_bInited →
      (if s.isActive then t else u).m_bInited = s.m_bInited := by
    intro t u ht hu
    split
    · exact ht
    · exact hu
  cases op with
  | start reprocCount channels => exact start_m_bInited s reprocCount channels
  | stop notifierFirst => exact stop_m_bInited s notifierFirst
  | processData mode => exact (Quiet.take fun _ frame => .processData mode frame).m_bInited
  | processRawData => exact (Quiet.take fun _ frame => .processRawData frame).m_bInited
  | processPPData needSuperBufMatch rawPicture =>
    exact (Quiet.take fun _ frame => .processPPData needSuperBufMatch rawPicture frame).m_bInited
  | encodeNext start_job => exact hif _ _ (Quiet.encodeNext start_job).m_bInited rfl
  | rawNext a => exact hif _ _ (Quiet.rawNext a).m_bInited rfl
  | doReprocess a => exact hif _ _ (Quiet.doReprocess a).m_bInited rfl
  | discardNext => exact hif _ _ rfl rfl
  | processJpegEvt jobId => exact (Quiet.processJpegEvt jobId).m_bInited
  | notified => exact Quiet.notified.m_bInited
  | flushSnapshots => rfl

theorem Sound.exec (h : s.Sound) {op : Op} (hcond : s.Cond op) : (s.exec op).Sound where
  owned := by
    by_cases hstop : ∃ notifierFirst, op = .stop notifierFirst
    · obtain ⟨notifierFirst, rfl⟩ := hstop
      exact (h.balance_stop notifierFirst).owned fun hinited => (hcond hinited).1
    · push Not at hstop
      exact (h.balance hstop).owned hcond
  working := h.working.exec op
  unused hinited := (h.unused (by rwa [exec_m_bInited] at hinited)).exec op

/-- A post processor that was constructed, and initialised or not. -/
def new (m_bInited : Bool) : PostProcessor := { m_bInited := m_bInited }

theorem Sound.new (m_bInited : Bool) : (new m_bInited).Sound where
  owned := ⟨nofun, .empty, ⟨nofun, nofun⟩⟩
  working := ⟨rfl, nofun, nofun, nofun, nofun, nofun⟩
  unused hinited := ⟨hinited, rfl, rfl⟩

/-- Everything is freed once in a run exactly if each of its steps meets its condition. -/
theorem freedOnce_along_iff (m_bInited : Bool) (ops : List Op) :
    System.Along Keeps exec ops (new m_bInited) ↔ System.Along Cond exec ops (new m_bInited) :=
  System.along_iff (fun _ op h => h.keeps_iff op) (fun _ _ h hcond => h.exec hcond) ops
    (Sound.new m_bInited)

/-- A raw picture whose callback gets a copy: its frame is never freed. -/
theorem not_freedOnce_along : ¬ ∀ ops : List Op, System.Along Keeps exec ops (new true) := by
  intro h
  have hrun := h [.start none true, .processRawData,
    .rawNext ⟨true, false, false, false, true, true⟩]
  exact absurd (hrun.2.2.1.1.once (.frame 0) (by decide)) (by decide)

end PostProcessor

end EtherDevice.Hal1.PostProcFrames
