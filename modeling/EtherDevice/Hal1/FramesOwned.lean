import EtherDevice.Hal1.PostProcFrames
import Mathlib.Data.List.Perm.Basic

/-!
# What the functions of the post processor hold

`Owned` is the balance of what the queues hold with what a function has in hand. What is still in
hand at the end of a call is lost, so everything is freed once exactly if the hand is empty.
-/

namespace EtherDevice.Hal1.PostProcFrames

open Lib
open PostProc (CameraQueue)

/-! ## What is released -/

variable {b b' b'' : Books} {ps qs frames hand hand' : List Ptr}

namespace Books

def settled (b : Books) (frames : List Ptr) : Heap Ptr where
  made := b.heap.made ++ frames
  freed := b.heap.freed
  returned := b.heap.returned ++ b.withheld

/-- The step from `b` to `b'` frees `ps`. -/
structure Released (b b' : Books) (ps : List Ptr) : Prop where
  next : b'.next = b.next
  frees : ∀ frames, Heap.Frees Ptr.IsFrame (b.settled frames) (b'.settled frames) ps

theorem Released.refl : Released b b [] := ⟨rfl, fun _ => .none⟩

theorem Released.trans (h₁ : Released b b' ps) (h₂ : Released b' b'' qs) :
    Released b b'' (ps ++ qs) :=
  ⟨h₂.next.trans h₁.next, fun frames => (h₁.frees frames).trans (h₂.frees frames)⟩

theorem Released.of_count (h : Released b b' ps) (hcount : ∀ p, qs.count p = ps.count p) :
    Released b b' qs :=
  ⟨h.next, fun frames => (h.frees frames).of_count hcount⟩

theorem Released.foldl {ε : Type} {f : Books → ε → Books} {refs : ε → List Ptr}
    (hstep : ∀ b x, Released b (f b x) (refs x)) (xs : List ε) :
    Released b (xs.foldl f b) (xs.flatMap refs) := by
  induction xs generalizing b with
  | nil => exact .refl
  | cons x xs ih =>
    exact (hstep b x).trans ih

theorem released_free {p : Ptr} (hp : ¬ p.IsFrame) : Released b (b.free p) [p] :=
  ⟨rfl, fun frames => Heap.frees_free (h := b.settled frames) hp⟩

theorem released_freeFrame (reproc_frame_release : Bool) (frame : Nat) :
    Released b (b.freeFrame reproc_frame_release frame) [.frame frame] := by
  cases reproc_frame_release with
  | true =>
    refine ⟨rfl, fun frames => ⟨rfl, fun p => List.count_append, fun p _ => ?_⟩⟩
    show (b.heap.returned ++ (b.withheld ++ [Ptr.frame frame])).count p =
      (b.heap.returned ++ b.withheld).count p + _
    rw [← List.append_assoc, List.count_append]
  | false =>
    refine ⟨rfl, fun frames => ⟨rfl, fun p => List.count_append, fun p _ => ?_⟩⟩
    show (b.heap.returned ++ [Ptr.frame frame] ++ b.withheld).count p =
      (b.heap.returned ++ b.withheld).count p + _
    simp only [List.count_append]
    omega

theorem released_freeFrame? (reproc_frame_release : Bool) (frame : Option Nat) :
    Released b (b.freeFrame? reproc_frame_release frame) (frame.map Ptr.frame).toList := by
  cases frame with
  | none => exact .refl
  | some frame => exact released_freeFrame reproc_frame_release frame

theorem released_freeRequest (r : PpRequest) : Released b (b.freeRequest r) r.refs := by
  have hsource := released_freeFrame (b := b) false r.src_frame
  have hframes := hsource.trans
    (released_freeFrame? false (otherFrame (some r.src_frame) r.src_reproc_frame))
  apply (hframes.trans (released_free (p := .request r.serial) id)).of_count
  intro p
  simp only [PpRequest.refs, List.count_cons, List.count_append, List.count_nil]
  omega

theorem released_freePpJob (job : PpData) : Released b (b.freePpJob job) job.freed := by
  have hsource := released_freeFrame? (b := b) job.reproc_frame_release job.src_frame
  have hframes := hsource.trans
    (released_freeFrame? false (otherFrame job.src_frame job.src_reproc_frame))
  apply (hframes.trans (released_free (p := .job job.serial) id)).of_count
  intro p
  simp only [PpData.freed, List.count_cons, List.count_append, List.count_nil]
  omega

theorem released_freeJpegJob (job : JpegData) : Released b (b.freeJpegJob job) job.refs := by
  have hreproc := released_freeFrame? (b := b) job.reproc_frame_release job.src_reproc_frame
  have hframes := hreproc.trans (released_freeFrame false job.src_frame)
  have hbufs : Released b (b.releaseJpegJobData job)
      ((job.src_reproc_frame.map Ptr.frame).toList ++ [.frame job.src_frame] ++
        (job.src_reproc_bufs.map Ptr.bufs).toList) := by
    unfold releaseJpegJobData
    cases job.src_reproc_bufs with
    | none => exact hframes.trans .refl
    | some bufs => exact hframes.trans (released_free id)
  apply (hbufs.trans (released_free (p := .jpeg job.serial) id)).of_count
  intro p
  simp only [JpegData.refs, List.count_cons, List.count_append, List.count_nil]
  omega

end Books

open Books

/-! ## Formed records -/

/-- In the first pass the source is the reprocess source, and later it is not. -/
structure PpRequest.Formed (r : PpRequest) : Prop where
  first : r.reprocCount = 0 → r.src_reproc_frame = some r.src_frame
  later : 0 < r.reprocCount → r.src_reproc_frame ≠ some r.src_frame

structure PpData.Formed (job : PpData) : Prop where
  positive : 0 < job.reprocCount
  first : job.reprocCount ≤ 1 → job.src_reproc_frame = job.src_frame
  later : 1 < job.reprocCount → job.src_frame = none ∨ job.src_reproc_frame ≠ job.src_frame

structure Formed (s : PostProcessor) : Prop where
  requests : ∀ r ∈ s.m_inputPPQ.items, r.Formed
  jobs : ∀ job ∈ s.m_ongoingPPQ.items, job.Formed

/-! ## The balance -/

variable {s t : PostProcessor} {frame : Nat}

/-- What is in hand or in the queues, and nothing else, was made and not freed. `frames` are the
frames that the call under way is going to accept. -/
structure Owned (frames hand : List Ptr) (s : PostProcessor) : Prop where
  numbered : ∀ p ∈ s.books.heap.made ++ frames, p.serial < s.books.next
  balanced : (s.books.settled frames).Balanced Ptr.IsFrame (hand ++ s.refs)
  formed : Formed s

theorem count_refs (p : Ptr) : s.refs.count p =
    (s.m_inputPPQ.items.flatMap PpRequest.refs).count p +
      (s.m_ongoingPPQ.items.flatMap PpData.refs).count p +
      (s.m_inputJpegQ.items.flatMap JpegData.refs).count p +
      (s.m_ongoingJpegQ.items.flatMap JpegData.refs).count p +
      (s.m_inputRawQ.items.map Ptr.frame).count p + (s.notifications.map Ptr.frame).count p := by
  unfold PostProcessor.refs
  simp only [List.count_append]
  omega

namespace Owned

theorem move (o : Owned frames hand s) (hbooks : t.books = s.books)
    (hcount : ∀ p, hand'.count p + t.refs.count p = hand.count p + s.refs.count p)
    (hformed : Formed t) : Owned frames hand' t where
  numbered := by
    rw [hbooks]
    exact o.numbered
  balanced := by
    simp [hbooks, o.balanced.move, hcount]
  formed := hformed

theorem released (o : Owned frames hand s) (h : Released s.books t.books ps)
    (hcount : ∀ p, hand'.count p + t.refs.count p + ps.count p = hand.count p + s.refs.count p)
    (hformed : Formed t) : Owned frames hand' t where
  numbered p hp := by
    rw [h.next]
    rw [show t.books.heap.made ++ frames = s.books.heap.made ++ frames from (h.frees frames).made]
      at hp
    exact o.numbered p hp
  balanced := by
    apply o.balanced.frees (h.frees frames)
    simp [hcount]
  formed := hformed

theorem release (o : Owned frames (ps ++ hand) s) (h : Released s.books b ps) :
    Owned frames hand { s with books := b } :=
  o.released h (fun p => by
    show hand.count p + s.refs.count p + ps.count p = _
    rw [List.count_append]
    omega) { o.formed with }

theorem releaseOne {p : Ptr} (o : Owned frames (p :: hand) s) (h : Released s.books b [p]) :
    Owned frames hand { s with books := b } :=
  Owned.release (o : Owned frames ([p] ++ hand) s) h

theorem malloc (o : Owned frames hand s) (record : Nat → Ptr)
    (hserial : ∀ n, (record n).serial = n) :
    Owned frames (record s.books.next :: hand) (s.malloc record) where
  numbered p hp := by
    show p.serial < s.books.next + 1
    have hmem : p ∈ s.books.heap.made ++ frames ∨ p = record s.books.next := by
      have hp' : p ∈ s.books.heap.made ++ [record s.books.next] ++ frames := hp
      simp only [List.mem_append, List.mem_singleton] at hp' ⊢
      tauto
    rcases hmem with hold | rfl
    · exact Nat.lt_succ_of_lt (o.numbered p hold)
    simp [hserial]
  balanced := by
    have hfresh : record s.books.next ∉ (s.books.settled frames).made := by
      intro hmem
      have hlt := o.numbered _ hmem
      simp_all
    have hmalloc : ((s.books.settled frames).alloc (record s.books.next)).Balanced Ptr.IsFrame
        (record s.books.next :: (hand ++ s.refs)) := by
      simp [List.count_cons, o.balanced.alloc, hfresh]
    have hmade : (s.books.heap.made ++ frames ++ [record s.books.next]).Perm
        (s.books.heap.made ++ [record s.books.next] ++ frames) := by
      rw [List.append_assoc, List.append_assoc]
      exact List.perm_append_comm.append_left _
    exact hmalloc.reorder hmade rfl rfl
  formed := { o.formed with }

theorem freedOnce_iff (o : Owned [] hand s) : s.FreedOnce ↔ hand = [] := by
  have hmade : (s.books.settled []).made = s.books.heap.made := List.append_nil _
  have haccount : ∀ p, hand.count p + s.refs.count p + s.books.heap.freed.count p =
      s.books.heap.made.count p := by
    intro p
    have h := o.balanced.account p
    rwa [List.count_append, hmade] at h
  constructor
  · intro h
    apply List.eq_nil_iff_forall_not_mem.mpr
    intro p hp
    have hpos : 0 < hand.count p := List.count_pos_iff.mpr hp
    have hcount := haccount p
    by_cases hmem : p ∈ s.books.heap.made
    · have honce := h.once p hmem
      have hdistinct := List.nodup_iff_count_le_one.mp o.balanced.distinct p
      rw [hmade] at hdistinct
      omega
    · rw [List.count_eq_zero_of_not_mem hmem] at hcount
      omega
  · rintro rfl
    refine ⟨fun p hp => ?_, fun p hp => ?_, fun n => ?_⟩
    · have honce := o.balanced.once (hmade ▸ hp)
      rwa [List.nil_append] at honce
    · have hcount := haccount p
      grind
    · rw [← List.count_append]
      exact o.balanced.returned (.frame n) trivial

theorem not_mem_of_hand {p : Ptr} (o : Owned frames (p :: hand) s) : p ∉ hand := by
  intro hmem
  have hcount := o.balanced.account p
  have hdistinct := List.nodup_iff_count_le_one.mp o.balanced.distinct p
  grind

/-! ### Queues -/

theorem enqueueRequest {r : PpRequest} (o : Owned frames (r.refs ++ hand) s) (hr : r.Formed) :
    Owned frames hand (s.enqueueRequest r) := by
  unfold PostProcessor.enqueueRequest
  split
  · rename_i q hq
    obtain ⟨-, rfl⟩ := CameraQueue.enqueue_true hq
    refine o.move rfl ?_ ?_
    · intro p
      simp only [count_refs, List.flatMap_append, List.flatMap_singleton, List.count_append]
      omega
    · refine { o.formed with requests := fun r' hmem => ?_ }
      rcases List.mem_append.mp hmem with hold | hnew
      · exact o.formed.requests r' hold
      simp_all
  · exact o.release (released_freeRequest r)

theorem enqueueJpegJob {job : JpegData} (o : Owned frames (job.refs ++ hand) s) :
    Owned frames hand (s.enqueueJpegJob job) := by
  unfold PostProcessor.enqueueJpegJob
  split
  · rename_i q hq
    obtain ⟨-, rfl⟩ := CameraQueue.enqueue_true hq
    refine o.move rfl ?_ { o.formed with }
    intro p
    simp only [count_refs, List.flatMap_append, List.flatMap_singleton, List.count_append]
    omega
  · exact o.release (released_freeJpegJob job)

theorem processRawData (o : Owned frames (.frame frame :: hand) s) (hinited : s.m_bInited = true) :
    (s.processRawData frame).1 = .noError ∧ Owned frames hand (s.processRawData frame).2 := by
  unfold PostProcessor.processRawData
  rw [if_pos hinited]
  split
  · rename_i q hq
    obtain ⟨-, rfl⟩ := CameraQueue.enqueue_true hq
    refine ⟨rfl, o.move rfl ?_ { o.formed with }⟩
    grind [count_refs]
  · exact ⟨rfl, o.releaseOne (released_freeFrame false frame)⟩

theorem reorder (o : Owned frames hand s) (hcount : ∀ p, hand'.count p = hand.count p) :
    Owned frames hand' s :=
  o.move rfl (fun p => by rw [hcount]) o.formed

theorem enqueuePpJob {job : PpData} (o : Owned frames (job.refs ++ hand) s) (hjob : job.Formed) :
    Owned frames hand
      { s with m_ongoingPPQ := ⟨s.m_ongoingPPQ.items ++ [job], true⟩ } := by
  refine o.move rfl ?_ ?_
  · intro p
    simp only [count_refs, List.flatMap_append, List.flatMap_singleton, List.count_append]
    omega
  · refine { o.formed with jobs := fun j hmem => ?_ }
    rcases List.mem_append.mp hmem with hold | hnew
    · exact o.formed.jobs j hold
    simp_all

/-! ### Frames that come in -/

theorem processData (o : Owned frames [.frame frame] s) (hinited : s.m_bInited = true)
    (mode : Mode) : (s.processData mode frame).1 = .noError ∧
      Owned frames [] (s.processData mode frame).2 := by
  unfold PostProcessor.processData
  rw [if_pos hinited]
  cases mode with
  | reprocess =>
    refine ⟨rfl, Owned.enqueueRequest ?_ ⟨fun _ => rfl, nofun⟩⟩
    apply (o.malloc .request fun _ => rfl).reorder
    intro p
    simp [PpRequest.refs, otherFrame]
  | rawPicture => exact ⟨rfl, (o.processRawData hinited).2⟩
  | jpeg =>
    refine ⟨rfl, Owned.enqueueJpegJob ?_⟩
    apply (o.malloc .jpeg fun _ => rfl).reorder
    intro p
    simp [JpegData.refs]

end Owned

def finishLost (s : PostProcessor) (rawPicture : Bool) (job : PpData) : List Ptr :=
  if rawPicture = true ∨ job.reprocCount < s.mTotalNumReproc then job.array else []

theorem otherFrame_of_ne {src_frame src_reproc_frame : Option Nat}
    (h : src_frame = none ∨ src_reproc_frame ≠ src_frame) :
    otherFrame src_frame src_reproc_frame = src_reproc_frame := by
  grind [otherFrame]

namespace Owned

theorem sourceFreed {job : PpData} (o : Owned frames (.frame frame :: job.refs) s)
    (hjob : job.Formed) :
    Owned frames (.frame frame :: .job job.serial ::
      ((job.src_reproc_frame.map Ptr.frame).toList ++ job.array))
      (if 1 < job.reprocCount then { s with books := s.books.freeFrame? false job.src_frame }
        else s) := by
  split
  · rename_i hcount
    apply Owned.release _ (released_freeFrame? false job.src_frame)
    apply o.reorder
    intro p
    simp only [PpData.refs, PpData.freed, otherFrame_of_ne (hjob.later hcount), List.count_cons,
      List.count_append]
    omega
  · rename_i hcount
    simp [Nat.le_of_not_lt, PpData.refs, PpData.freed, otherFrame, hjob.first, hcount, o.reorder]

theorem finish {job : PpData} (o : Owned frames (.frame frame :: job.refs) s)
    (hinited : s.m_bInited = true) (hjob : job.Formed) (rawPicture : Bool) :
    (s.finish rawPicture job frame).1 = .noError ∧
      Owned frames (finishLost s rawPicture job) (s.finish rawPicture job frame).2 := by
  unfold PostProcessor.finish finishLost
  cases rawPicture with
  | true =>
    rw [if_pos rfl, if_pos (.inl rfl)]
    refine Owned.processRawData ?_ hinited
    apply Owned.release _ (released_freePpJob job)
    apply o.reorder
    intro p
    simp only [PpData.refs, List.count_cons, List.count_append]
    omega
  | false =>
    have hsource := o.sourceFreed hjob
    have hnew : job.src_reproc_frame ≠ some frame := by
      intro heq
      apply hsource.not_mem_of_hand
      simp [heq]
    have htotal : (if 1 < job.reprocCount then
        { s with books := s.books.freeFrame? false job.src_frame } else s).mTotalNumReproc =
          s.mTotalNumReproc := by
      split <;> rfl
    simp only [Bool.false_eq_true, if_false, false_or, htotal]
    refine ⟨trivial, ?_⟩
    apply Owned.releaseOne _ (released_free id)
    split
    · apply Owned.enqueueRequest
      · apply (hsource.malloc .request fun _ => rfl).reorder
        intro p
        simp only [PpRequest.refs, otherFrame_of_ne (.inr hnew), List.count_cons, List.count_append]
        omega
      · exact ⟨fun hzero => absurd hzero (Nat.ne_of_gt hjob.positive), fun _ => hnew⟩
    · apply Owned.enqueueJpegJob
      apply (hsource.malloc .jpeg fun _ => rfl).reorder
      intro p
      simp only [JpegData.refs, PpData.array, List.count_cons, List.count_append, List.count_nil]
      omega

/-! ### New frames -/

theorem take {call : PostProcessor → Nat → Status × PostProcessor} (o : Owned [] [] s)
    (hcall : ∀ t, Owned [] [] t → Owned [.frame s.books.next] [.frame s.books.next] t →
      t = { s with books := { s.books with next := s.books.next + 1 } } →
      Owned (if (call t s.books.next).1 = .noError then [.frame s.books.next] else []) hand
        (call t s.books.next).2) :
    Owned [] hand (s.take call) := by
  have hnext : Owned [] [] { s with books := { s.books with next := s.books.next + 1 } } := by
    refine ⟨fun p hp => Nat.lt_succ_of_lt (o.numbered p hp), o.balanced, { o.formed with }⟩
  have hframe : Owned [.frame s.books.next] [.frame s.books.next]
      { s with books := { s.books with next := s.books.next + 1 } } := by
    refine ⟨fun p hp => ?_, ?_, { o.formed with }⟩
    · rcases List.mem_append.mp hp with hold | hnew
      · exact Nat.lt_succ_of_lt (o.numbered p (List.mem_append_left _ hold))
      · rw [List.mem_singleton.mp hnew]
        exact Nat.lt_succ_self _
    · have hfresh : Ptr.frame s.books.next ∉ (s.books.settled []).made := by
        intro hmem
        exact Nat.lt_irrefl _ (o.numbered _ hmem)
      have halloc : ((s.books.settled []).alloc (.frame s.books.next)).Balanced Ptr.IsFrame
          (.frame s.books.next :: s.refs) := by
        simp [List.count_cons, o.balanced.alloc, hfresh]
      refine halloc.reorder ?_ rfl rfl
      show (s.books.heap.made ++ [] ++ [Ptr.frame s.books.next]).Perm _
      rw [List.append_nil]
      exact .refl _
  have h := hcall _ hnext hframe rfl
  unfold PostProcessor.take
  generalize call { s with books := { s.books with next := s.books.next + 1 } } s.books.next = r
    at h ⊢
  obtain ⟨rc, t⟩ := r
  cases rc with
  | noError =>
    refine ⟨fun p hp => ?_, ?_, { h.formed with }⟩
    · exact h.numbered p (by simpa [Heap.alloc] using hp)
    · refine h.balanced.reorder ?_ rfl rfl
      show (t.books.heap.made ++ [Ptr.frame s.books.next]).Perm
        (t.books.heap.made ++ [Ptr.frame s.books.next] ++ [])
      rw [List.append_nil]
  | unknownError => exact h
  | badValue => exact h

end Owned

def ppDataLost (s : PostProcessor) (needSuperBufMatch rawPicture : Bool) : List Ptr :=
  if s.m_bInited then
    match s.m_ongoingPPQ.dequeue.1 with
    | none => []
    | some job =>
      if !needSuperBufMatch && (job.src_frame.isNone || job.src_reproc_frame.isNone) then job.refs
      else finishLost s (!needSuperBufMatch && rawPicture) job
  else []

namespace Owned

theorem dequeueJob {job : PpData} {q : CameraQueue PpData} (o : Owned frames hand s)
    (hq : s.m_ongoingPPQ.dequeue = (some job, q)) :
    Owned frames (hand ++ job.refs) { s with m_ongoingPPQ := q } ∧ job.Formed := by
  obtain ⟨hitems, -⟩ := CameraQueue.dequeue_some hq
  constructor
  · refine o.move rfl ?_ { o.formed with jobs := fun j hj => ?_ }
    · intro p
      simp only [count_refs, hitems, List.flatMap_cons, List.count_append]
      omega
    · exact o.formed.jobs j (hitems ▸ List.mem_cons_of_mem job hj)
  · exact o.formed.jobs job (hitems ▸ List.mem_cons_self)

theorem processPPData (o : Owned [] [] s) (needSuperBufMatch rawPicture : Bool) :
    Owned [] (ppDataLost s needSuperBufMatch rawPicture)
      (s.take (PostProcessor.processPPData · needSuperBufMatch rawPicture)) := by
  apply o.take
  intro t hrejected haccepted ht
  have hlost : ppDataLost s needSuperBufMatch rawPicture =
      ppDataLost t needSuperBufMatch rawPicture := by
    rw [ht]
    rfl
  rw [hlost]
  unfold PostProcessor.processPPData ppDataLost
  split
  · rename_i hinited
    cases hq : t.m_ongoingPPQ.dequeue with
    | mk taken q =>
      cases taken with
      | none => exact hrejected
      | some job =>
        obtain ⟨-, hjob⟩ := hrejected.dequeueJob hq
        simp only
        split
        · exact (hrejected.dequeueJob hq).1
        · obtain ⟨hnoError, h⟩ := (haccepted.dequeueJob hq).1.finish hinited hjob
            (!needSuperBufMatch && rawPicture)
          rw [if_pos hnoError]
          exact h
  · exact hrejected

/-! ### The data thread -/

theorem encodeNext (o : Owned [] [] s) (start_job : Option Nat) :
    Owned [] [] (s.encodeNext start_job) := by
  unfold PostProcessor.encodeNext
  split
  · exact o
  · rename_i job q hq
    obtain ⟨hitems, -⟩ := CameraQueue.dequeue_some hq
    have htaken : Owned [] job.refs { s with m_inputJpegQ := q } := by
      refine o.move rfl ?_ { o.formed with }
      intro p
      simp only [count_refs, hitems, List.flatMap_cons, List.count_append, List.count_nil]
      omega
    have hfreed : Owned [] [] { s with m_inputJpegQ := q, books := s.books.freeJpegJob job } :=
      Owned.release (by rwa [List.append_nil]) (released_freeJpegJob job)
    simp only
    split
    · rename_i jobId hongoing
      obtain ⟨hactive, -⟩ := CameraQueue.enqueue_true hongoing
      refine htaken.move rfl ?_ { htaken.formed with }
      grind [count_refs, CameraQueue.enqueue_ok, JpegData.refs]
    · rename_i ongoing hongoing
      obtain ⟨hactive, -⟩ := CameraQueue.enqueue_true hongoing
      grind [CameraQueue.dequeueTail_enqueue]
    · exact hfreed

theorem addExtraJobs (o : Owned [] hand s) {reprocCount : Nat} (hcount : 0 < reprocCount)
    (n : Nat) : Owned [] hand (PostProcessor.addExtraJobs reprocCount s n) := by
  induction n generalizing s with
  | zero => exact o
  | succ n ih =>
    have hmalloc : Owned []
        (PpData.refs { serial := s.books.next, reprocCount := reprocCount } ++ hand)
        (s.malloc .job) := o.malloc .job fun _ => rfl
    unfold PostProcessor.addExtraJobs
    simp only
    split
    · rename_i q hq
      obtain ⟨-, rfl⟩ := CameraQueue.enqueue_true hq
      apply ih
      exact hmalloc.enqueuePpJob ⟨hcount, fun _ => rfl, fun _ => .inl rfl⟩
    · apply Owned.release _ (released_freePpJob _)
      exact hmalloc

theorem submit {a : ReprocessAnswers} {job : PpData} (o : Owned [] (job.refs ++ hand) s)
    (hjob : job.Formed) (hactive : s.m_ongoingPPQ.active = true) :
    Owned [] hand (s.submit a job) := by
  have hcounted : Owned [] (job.refs ++ hand) { s with m_bufCountPPQ := s.m_bufCountPPQ + 1 } :=
    o.move rfl (fun _ => rfl) { o.formed with }
  have hqueued := hcounted.enqueuePpJob hjob
  unfold PostProcessor.submit
  simp only [CameraQueue.enqueue_ok rfl hactive]
  split
  · exact hqueued.addExtraJobs hjob.positive _
  · exact hqueued

theorem reprocess {a : ReprocessAnswers} {r : PpRequest} {src_reproc_frame : Nat}
    (o : Owned [] r.refs s) (hr : r.Formed) (hreproc : r.src_reproc_frame = some src_reproc_frame)
    (hactive : s.m_ongoingPPQ.active = true) :
    Owned [] [] (s.reprocess a r src_reproc_frame) := by
  let newJob (bufs : Option Nat) (reproc_frame_release : Bool) : PpData :=
    { serial := s.books.next
      src_frame := some r.src_frame
      src_reproc_frame := some src_reproc_frame
      src_reproc_bufs := bufs
      reproc_frame_release := reproc_frame_release
      reprocCount := r.reprocCount + 1 }
  have hjob : ∀ bufs reproc_frame_release, (newJob bufs reproc_frame_release).Formed := by
    intro bufs reproc_frame_release
    refine ⟨Nat.succ_pos _, fun hfirst => ?_, fun hlater => .inr fun heq => ?_⟩
    · exact hreproc.symm.trans (hr.first (Nat.le_zero.mp (Nat.le_of_succ_le_succ hfirst)))
    · exact hr.later (Nat.lt_of_succ_lt_succ hlater) (hreproc.trans heq)
  have hcount : ∀ bufs reproc_frame_release p,
      ((newJob bufs reproc_frame_release).refs ++ [Ptr.request r.serial]).count p =
        ((bufs.map Ptr.bufs).toList ++ Ptr.job s.books.next :: r.refs).count p := by
    grind [PpRequest.refs, PpData.refs, PpData.freed, PpData.array]
  have hmalloc := o.malloc .job fun _ => rfl
  unfold PostProcessor.reprocess
  split
  · apply Owned.releaseOne _ (released_free id)
    split
    · split
      · have hbufs := hmalloc.malloc .bufs fun _ => rfl
        exact (hbufs.reorder (hcount (some _) true)).submit (hjob _ _) hactive
      · exact (hmalloc.reorder (hcount none true)).submit (hjob _ _) hactive
    · exact (hmalloc.reorder (hcount none false)).submit (hjob _ _) hactive
  · have hfreed := (released_free (b := (s.malloc .job).books) (p := .job s.books.next) id).trans
      (released_freeRequest r)
    show Owned [] [] { s.malloc .job with
      books := ((s.malloc .job).books.free (.job s.books.next)).freeRequest r }
    exact Owned.release (by rwa [List.append_nil]) hfreed

end Owned

def reprocessLost (s : PostProcessor) (a : ReprocessAnswers) : List Ptr :=
  if a.validatePostProcess then
    match s.m_inputPPQ.dequeue.1 with
    | some r => if r.src_reproc_frame = none then r.refs else []
    | none => []
  else []

namespace Owned

theorem doReprocess (o : Owned [] [] s) (a : ReprocessAnswers)
    (hactive : s.m_ongoingPPQ.active = true) : Owned [] (reprocessLost s a) (s.doReprocess a) := by
  unfold PostProcessor.doReprocess reprocessLost
  cases hq : s.m_inputPPQ.dequeue with
  | mk taken q =>
    cases taken with
    | none => simpa using o
    | some r =>
      obtain ⟨hitems, -⟩ := CameraQueue.dequeue_some hq
      have hpeek : s.m_inputPPQ.peek = some r := CameraQueue.peek_eq_some (by rw [hq])
      have htaken : Owned [] r.refs { s with m_inputPPQ := q } := by
        refine o.move rfl ?_ { o.formed with requests := fun r' hr' => ?_ }
        · grind [count_refs]
        · exact o.formed.requests r' (hitems ▸ List.mem_cons_of_mem r hr')
      have hr : r.Formed := o.formed.requests r (hitems ▸ List.mem_cons_self)
      simp only [hpeek, Option.isSome_some, Bool.true_and]
      split
      · cases hreproc : r.src_reproc_frame with
        | none => exact htaken
        | some src_reproc_frame => exact htaken.reprocess hr hreproc hactive
      · exact o

end Owned

end EtherDevice.Hal1.PostProcFrames
