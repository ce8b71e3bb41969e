import Mathlib
import EtherDevice.Hal1.WindowHeld
import EtherDevice.Lib.Transition

/-!
# Preview buffers over runs

An allocation that succeeds fills the slots one after the other, with the handles in the order in
which they were lent, and gives the first ones back. Where a later buffer cannot be dequeued, the
descriptors of the earlier ones are forgotten; where one cannot be imported, it is not given back.
-/

namespace EtherDevice.Hal1.WindowBuffers

open Lib

namespace GrallocMemory

variable {s t : GrallocMemory} {i j count : Nat}

/-! ## The loop of `allocate` -/

/-- The first slots have the handles that are lent, in order. -/
structure Filled (base : GrallocMemory) (count i : Nat) (s : GrallocMemory) : Prop where
  lent : s.window.lent.length = i
  handles : ∀ j < i, s.mBufferHandle j = s.window.lent[j]?
  distinct : s.window.Distinct
  size : s.window.free.length + i = count
  flags : ∀ j, s.mLocalFlag j = .owned ↔ j < i
  freed : s.heap.freed = base.heap.freed
  made : ∃ new, s.heap.made = base.heap.made ++ new ∧ (0 < i → new ≠ [])
  minimum : s.mMinUndequeuedBuffers = base.mMinUndequeuedBuffers

theorem Filled.handle_mem {base : GrallocMemory} (f : Filled base count i s) {handle : Nat}
    (hj : j < i) (hhandle : s.mBufferHandle j = some handle) : handle ∈ s.window.lent := by
  rw [f.handles j hj] at hhandle
  exact List.mem_of_getElem? hhandle

theorem Filled.handle_inj {base : GrallocMemory} (f : Filled base count i s) {k handle : Nat}
    (hj : j < i) (hk : k < i) (hjhandle : s.mBufferHandle j = some handle)
    (hkhandle : s.mBufferHandle k = some handle) : j = k := by
  have hlt : j < s.window.lent.length := f.lent ▸ hj
  rw [f.handles j hj] at hjhandle
  rw [f.handles k hk] at hkhandle
  exact (List.getElem?_inj hlt f.distinct.lent_nodup).mp (hjhandle.trans hkhandle.symm)

theorem Filled.succ {base : GrallocMemory} (f : Filled base count i s) {handle choice : Nat}
    {window : Lender Nat} (hlend : s.window.lend choice = some (handle, window)) :
    Filled base count (i + 1) (((((s.take i handle window).openIon i).importIon i)).getMemory i)
    where
  lent := by
    show window.lent.length = i + 1
    rw [(Lender.lend_spec hlend).2, List.length_append, f.lent]
    rfl
  handles := by
    intro j hj
    show Function.update s.mBufferHandle i (some handle) j = window.lent[j]?
    rw [(Lender.lend_spec hlend).2]
    rcases Nat.lt_succ_iff_lt_or_eq.mp hj with hlt | rfl
    · have hlength : j < s.window.lent.length := f.lent ▸ hlt
      simp [Nat.ne_of_lt, List.getElem?_append_left, hlt, f.handles, hlength]
    · rw [Function.update_self, ← f.lent, List.getElem?_concat_length]
  distinct := f.distinct.lend hlend
  size := by
    obtain ⟨hmem, hwindow⟩ := Lender.lend_spec hlend
    have hpos := List.length_pos_of_mem hmem
    have hsize := f.size
    show window.free.length + (i + 1) = count
    rw [hwindow, List.length_erase_of_mem hmem]
    omega
  flags := by
    intro j
    show Function.update s.mLocalFlag i .owned j = .owned ↔ j < i + 1
    by_cases hj : j = i
    · simp [hj]
    · rw [Function.update_of_ne hj, f.flags j]
      omega
  freed := f.freed
  made := by
    obtain ⟨new, hmade, -⟩ := f.made
    refine ⟨new ++ [.ionFd (s.take i handle window).fresh,
      .ionHandle ((s.take i handle window).openIon i).fresh,
      .camera (((s.take i handle window).openIon i).importIon i).fresh], ?_, fun _ => by simp⟩
    show s.heap.made ++ [_] ++ [_] ++ [_] = _
    simp [hmade]
  minimum := f.minimum

theorem Sound.filled (h : s.Sound) (hlent : s.window.lent = [])
    (hfree : s.window.free.length = count) : Filled s count 0 s where
  lent := List.length_eq_zero_iff.mpr hlent
  handles := nofun
  distinct := h.distinct
  size := hfree
  flags j := by
    simp [h.none_owned, hlent]
  freed := rfl
  made := ⟨[], (List.append_nil _).symm, nofun⟩
  minimum := rfl

/-- Something that the call obtained is not released. -/
def Lost (base s : GrallocMemory) : Prop :=
  s.window.lent ≠ [] ∨ ¬ ∀ p ∈ s.heap.made.drop base.heap.made.length,
    p ∈ s.heap.freed.drop base.heap.freed.length

theorem Filled.lost_undoDequeue {base : GrallocMemory} (f : Filled base count i s) (hi : 0 < i)
    (accepted : Nat → Bool) : Lost base
      ((List.range i).foldl (undoDequeue accepted) (s.setFlag i .notOwned)).reset := by
  have hheap : ((List.range i).foldl (undoDequeue accepted) (s.setFlag i .notOwned)).heap =
      s.heap := by
    apply foldl_frame (undoDequeue accepted) heap
    intro s i
    unfold undoDequeue forgetHandle cancelOwned setFlag giveBack
    by_cases hflag : s.mLocalFlag i ≠ .notOwned
    · rw [if_pos hflag]
      cases accepted i <;> rfl
    · rw [if_neg hflag]
  refine .inr fun hall => ?_
  obtain ⟨new, hmade, hnew⟩ := f.made
  obtain ⟨p, hp⟩ := List.exists_mem_of_ne_nil new (hnew hi)
  have hmem := hall p (by
    show p ∈ ((List.range i).foldl (undoDequeue accepted) (s.setFlag i .notOwned)).heap.made.drop _
    simp_all)
  have hfreed : ((List.range i).foldl (undoDequeue accepted)
      (s.setFlag i .notOwned)).reset.heap.freed = base.heap.freed :=
    (congrArg Heap.freed hheap).trans f.freed
  simp_all

theorem undoImport_window (accepted : Nat → Bool) (s : GrallocMemory) (i : Nat) :
    (s.undoImport accepted i).window =
      (s.owned? accepted i).elim s.window s.window.giveBack :=
  cancelOwned_window _ _ i

theorem Filled.lost_undoImport {base : GrallocMemory} (f : Filled base count i s)
    {handle choice : Nat} {window : Lender Nat}
    (hlend : s.window.lend choice = some (handle, window)) (accepted : Nat → Bool)
    (hwindow : t.window = window) (hhandles : ∀ j < i, t.mBufferHandle j = s.mBufferHandle j) :
    ((List.range i).foldl (undoImport accepted) t).window.lent ≠ [] := by
  obtain ⟨hfree, hlent⟩ := Lender.lend_spec hlend
  have hfold : ((List.range i).foldl (undoImport accepted) t).window =
      ((List.range i).filterMap (t.owned? accepted)).foldl Lender.giveBack t.window := by
    apply foldl_window (undoImport accepted) (owned? · accepted) (undoImport_window accepted) _
      List.nodup_range
    intro s i j hne
    have hflag : (s.undoImport accepted i).mLocalFlag j = s.mLocalFlag j := by
      show ((s.releaseIon i).cancelOwned accepted i).mLocalFlag j = _
      rw [cancelOwned_mLocalFlag, Function.update_of_ne hne]
      rfl
    have hhandle : (s.undoImport accepted i).mBufferHandle j = s.mBufferHandle j := by
      show Function.update ((s.releaseIon i).cancelOwned accepted i).mBufferHandle i none j = _
      rw [cancelOwned_mBufferHandle, Function.update_of_ne hne]
      rfl
    rw [owned?, owned?, accepted?, accepted?, hflag, hhandle]
  have hmem : handle ∈ ((List.range i).foldl (undoImport accepted) t).window.lent := by
    rw [hfold, hwindow]
    apply (Lender.mem_foldl_giveBack (f.distinct.lend hlend).lent_nodup).mpr
    refine ⟨?_, fun hback => ?_⟩
    · simp [hlent]
    · obtain ⟨j, hj, howned⟩ := List.mem_filterMap.mp hback
      have hlt := List.mem_range.mp hj
      obtain ⟨-, -, hhandle⟩ := owned?_eq_some.mp howned
      rw [hhandles j hlt] at hhandle
      exact f.distinct.not_mem_lent hfree (f.handle_mem hlt hhandle)
  exact List.ne_nil_of_mem hmem

/-- The loop fills the slots, or loses something, unless the window has not even a first buffer. -/
structure Looped (base : GrallocMemory) {count : Nat} (answers : Answers count) (i : Nat)
    (r : Bool × GrallocMemory) : Prop where
  all : r.1 = true ↔ ∀ j, i ≤ j → j < count →
    (answers.dequeue_buffer j).isSome ∧ answers.ion j = .imported
  filled : r.1 = true → Filled base count count r.2
  lost : r.1 = false → 0 < i ∨ answers.dequeue_buffer 0 ≠ none → Lost base r.2

theorem Looped.of_lost {base : GrallocMemory} {answers : Answers count}
    (hi : i < count) (hfail : ¬ ((answers.dequeue_buffer i).isSome ∧ answers.ion i = .imported))
    (hlost : 0 < i ∨ answers.dequeue_buffer 0 ≠ none → Lost base s) :
    Looped base answers i (false, s) where
  all := iff_of_false Bool.false_ne_true fun hall => hfail (hall i (Nat.le_refl i) hi)
  filled := nofun
  lost _ := hlost

theorem allocateLoop_spec {base : GrallocMemory} (answers : Answers count) (i missing : Nat)
    (f : Filled base count i s) (hsum : i + missing = count) :
    Looped base answers i (allocateLoop answers i missing s) := by
  induction missing generalizing i s with
  | zero =>
    obtain rfl : i = count := hsum
    refine ⟨iff_of_true rfl fun j hle hlt => ?_, fun _ => f, nofun⟩
    exact absurd hlt (Nat.not_lt.mpr hle)
  | succ missing ih =>
    have hi : i < count := by omega
    have hfree : s.window.free ≠ [] := by
      have hsize := f.size
      apply List.length_pos_iff.mp
      omega
    unfold allocateLoop
    cases hdequeue : answers.dequeue_buffer i with
    | none =>
      apply Looped.of_lost hi (by simp [hdequeue])
      intro hlater
      apply f.lost_undoDequeue
      grind
    | some choice =>
      obtain ⟨handle, -, hlend⟩ := Lender.lend_of_ne_nil hfree choice
      obtain ⟨window, hwindow⟩ : ∃ window, window = { s.window with
          free := s.window.free.erase handle
          lent := s.window.lent ++ [handle] } := ⟨_, rfl⟩
      rw [← hwindow] at hlend
      have hhandles : ∀ j < i, (s.take i handle window).mBufferHandle j = s.mBufferHandle j :=
        fun j hj => Function.update_of_ne (Nat.ne_of_lt hj) _ _
      simp only [Option.bind_some, hlend]
      cases hion : answers.ion i with
      | notOpened =>
        apply Looped.of_lost hi (by simp [hion])
        exact fun _ => .inl (f.lost_undoImport hlend answers.unwind rfl hhandles)
      | notImported =>
        apply Looped.of_lost hi (by simp [hion])
        refine fun _ => .inl ?_
        exact f.lost_undoImport (t := (s.take i handle window).openIon i) hlend answers.unwind rfl
          hhandles
      | imported =>
        obtain ⟨hall, hfilled, hlost⟩ := ih (i + 1) (f.succ hlend) (by omega)
        refine ⟨hall.trans ⟨fun hrest j hle hlt => ?_, fun hrest j hle hlt => ?_⟩, hfilled,
          fun hfalse _ => hlost hfalse (.inl (Nat.succ_pos i))⟩
        · grind
        · exact hrest j (Nat.le_of_succ_le hle) hlt

/-! ## The first buffers go back -/

def cancelled (s : GrallocMemory) (accepted : Nat → Bool) (minimum : Nat) : List Nat :=
  (List.range minimum).filterMap fun i => s.accepted? (accepted i) i

theorem mem_cancelled {accepted : Nat → Bool} {minimum handle : Nat} :
    handle ∈ s.cancelled accepted minimum ↔
      ∃ i < minimum, accepted i = true ∧ s.mBufferHandle i = some handle := by
  simp only [cancelled, List.mem_filterMap, List.mem_range, accepted?,
    Option.ite_none_right_eq_some]

def cancelFirsts (s : GrallocMemory) (accepted : Nat → Bool) (minimum : Nat) : GrallocMemory :=
  (List.range minimum).foldl (cancelFirst accepted) s

theorem cancelFirsts_window (s : GrallocMemory) (accepted : Nat → Bool) (minimum : Nat) :
    (s.cancelFirsts accepted minimum).window =
      (s.cancelled accepted minimum).foldl Lender.giveBack s.window := by
  apply foldl_window (cancelFirst accepted) (fun s i => s.accepted? (accepted i) i)
    (fun s i => giveBack_window s (accepted i) i) _ List.nodup_range
  intro s i j _
  show (s.giveBack (accepted i) i).accepted? (accepted j) j = _
  rw [accepted?, accepted?, giveBack_mBufferHandle]

theorem cancelFirsts_mBufferHandle (s : GrallocMemory) (accepted : Nat → Bool) (minimum : Nat) :
    (s.cancelFirsts accepted minimum).mBufferHandle = s.mBufferHandle :=
  foldl_frame (cancelFirst accepted) mBufferHandle (fun s i => giveBack_mBufferHandle s _ i) _ s

theorem cancelFirsts_mBufferCount (s : GrallocMemory) (accepted : Nat → Bool) (minimum : Nat) :
    (s.cancelFirsts accepted minimum).mBufferCount = s.mBufferCount :=
  foldl_frame (cancelFirst accepted) mBufferCount (fun s i => giveBack_mBufferCount s _ i) _ s

theorem cancelFirsts_mMin (s : GrallocMemory) (accepted : Nat → Bool) (minimum : Nat) :
    (s.cancelFirsts accepted minimum).mMinUndequeuedBuffers = s.mMinUndequeuedBuffers :=
  foldl_frame (cancelFirst accepted) mMinUndequeuedBuffers (fun s i => giveBack_mMin s _ i) _ s

theorem cancelFirsts_mLocalFlag (s : GrallocMemory) (accepted : Nat → Bool) (minimum i : Nat) :
    (s.cancelFirsts accepted minimum).mLocalFlag i =
      if i < minimum then .notOwned else s.mLocalFlag i := by
  have hfold := foldl_update (cancelFirst accepted) mLocalFlag .notOwned
    (fun s i => Function.update_self i _ _)
    (fun s i j hne => by
      show Function.update (s.giveBack (accepted i) i).mLocalFlag i .notOwned j = _
      rw [Function.update_of_ne hne, giveBack_mLocalFlag]) (List.range minimum) s i
  simp_all [cancelFirsts]

structure Allocated (count : Nat) (accepted : Nat → Bool) (minimum : Nat) (t : GrallocMemory) :
    Prop where
  total : t.mBufferCount = count
  holds : ∀ i < count, t.Holds i ↔ ¬ (i < minimum ∧ accepted i = true)
  flags : ∀ i, t.mLocalFlag i = .owned ↔ i < count ∧ ¬ i < minimum
  distinct : t.window.Distinct
  handles : ∀ i < count, ∀ j < count, ∀ handle, t.mBufferHandle i = some handle →
    t.mBufferHandle j = some handle → i = j
  lent : ∀ handle ∈ t.window.lent, ∃ i < count, t.mBufferHandle i = some handle
  free : ∀ handle ∈ t.window.free, ∃ i < count, t.mBufferHandle i = some handle
  regs : t.mMinUndequeuedBuffers = minimum

theorem Filled.allocated {base : GrallocMemory} (f : Filled base count count s)
    (accepted : Nat → Bool) {minimum : Nat} (hminimum : minimum ≤ count)
    (hbase : base.mMinUndequeuedBuffers = minimum) :
    Allocated count accepted minimum
      (cancelFirsts { s with mBufferCount := count } accepted minimum) := by
  obtain ⟨u, hu⟩ : ∃ u : GrallocMemory, u = { s with mBufferCount := count } := ⟨_, rfl⟩
  have huwindow : u.window = s.window := by rw [hu]
  have huhandle : u.mBufferHandle = s.mBufferHandle := by rw [hu]
  have hwindow := cancelFirsts_window u accepted minimum
  have hhandle := (cancelFirsts_mBufferHandle u accepted minimum).trans huhandle
  rw [huwindow] at hwindow
  have hback : ∀ handle, handle ∈ u.cancelled accepted minimum ↔
      ∃ i < minimum, accepted i = true ∧ s.mBufferHandle i = some handle := by
    intro handle
    rw [mem_cancelled, huhandle]
  have hsome : ∀ i < count, ∃ handle, s.mBufferHandle i = some handle := by
    intro i hi
    have hlt : i < s.window.lent.length := by rwa [f.lent]
    exact ⟨s.window.lent[i], by rw [f.handles i hi, List.getElem?_eq_getElem hlt]⟩
  have hlentmem : ∀ handle, handle ∈ s.window.lent →
      ∃ i < count, s.mBufferHandle i = some handle := by
    intro handle hmem
    obtain ⟨i, hi⟩ := List.mem_iff_getElem?.mp hmem
    have hlt : i < count := by
      rw [← f.lent]
      exact (List.getElem?_eq_some_iff.mp hi).1
    exact ⟨i, hlt, (f.handles i hlt).trans hi⟩
  rw [← hu]
  refine ⟨?_, fun i hi => ?_, fun i => ?_, ?_, ?_, ?_, ?_, ?_⟩
  · rw [cancelFirsts_mBufferCount, hu]
  · obtain ⟨handle, hi'⟩ := hsome i hi
    have hlent := f.handle_mem hi hi'
    rw [Holds, hhandle, hwindow]
    constructor
    · rintro ⟨held, hheld, hmem⟩ ⟨hlt, haccepted⟩
      obtain rfl := Option.some.inj (hi'.symm.trans hheld)
      exact ((Lender.mem_foldl_giveBack f.distinct.lent_nodup).mp hmem).2
        ((hback handle).mpr ⟨i, hlt, haccepted, hi'⟩)
    · intro hnot
      refine ⟨handle, hi', (Lender.mem_foldl_giveBack f.distinct.lent_nodup).mpr ⟨hlent, ?_⟩⟩
      intro hmem
      obtain ⟨j, hj, haccepted, hj'⟩ := (hback handle).mp hmem
      obtain rfl := f.handle_inj (Nat.lt_of_lt_of_le hj hminimum) hi hj' hi'
      exact hnot ⟨hj, haccepted⟩
  · have huflag : u.mLocalFlag i = s.mLocalFlag i := by rw [hu]
    rw [cancelFirsts_mLocalFlag, huflag]
    by_cases hi : i < minimum
    · simp [hi]
    simp [hi, f.flags]
  · rw [hwindow]
    apply f.distinct.foldl_giveBack
    · apply List.pairwise_filterMap.mpr
      apply List.nodup_range.imp_of_mem
      rintro i j hi hj hne handle hhandle _ hhandle' rfl
      apply hne
      have hi' := Nat.lt_of_lt_of_le (List.mem_range.mp hi) hminimum
      have hj' := Nat.lt_of_lt_of_le (List.mem_range.mp hj) hminimum
      simp only [accepted?, Option.ite_none_right_eq_some, huhandle] at hhandle hhandle'
      exact f.handle_inj hi' hj' hhandle.2 hhandle'.2
    · intro handle hmem
      obtain ⟨i, hi, -, hi'⟩ := (hback handle).mp hmem
      exact f.handle_mem (Nat.lt_of_lt_of_le hi hminimum) hi'
  · rw [hhandle]
    exact fun i hi j hj handle hi' hj' => f.handle_inj hi hj hi' hj'
  · rw [hhandle, hwindow]
    intro handle hmem
    exact hlentmem handle ((Lender.mem_foldl_giveBack f.distinct.lent_nodup).mp hmem).1
  · rw [hhandle, hwindow, Lender.foldl_giveBack_free]
    have hnone : s.window.free = [] := by
      have hsize := f.size
      simp_all
    grind
  · rw [cancelFirsts_mMin, hu, ← hbase]
    exact f.minimum

theorem Allocated.sound {accepted : Nat → Bool} {minimum : Nat}
    (a : Allocated count accepted minimum t) (haccepted : ∀ i < minimum, accepted i = true) :
    t.Sound where
  flagged i := by
    rw [a.flags, a.total]
    refine and_congr_right fun hi => ?_
    rw [a.holds i hi]
    exact not_congr ⟨fun hlt => ⟨hlt, haccepted i hlt⟩, fun h => h.1⟩
  distinct := a.distinct
  handles := by
    rw [a.total]
    exact a.handles
  lent := by
    rw [a.total]
    exact a.lent
  free _ := by
    rw [a.total]
    exact a.free

theorem Allocated.accepted {accepted : Nat → Bool} {minimum : Nat} (hminimum : minimum ≤ count)
    (a : Allocated count accepted minimum t) (h : t.Flagged) :
    ∀ i < minimum, accepted i = true := by
  intro i hi
  have hlt := Nat.lt_of_lt_of_le hi hminimum
  by_contra hnot
  have hholds : t.Holds i := (a.holds i hlt).mpr fun hboth => hnot hboth.2
  have howned := (h i).mpr ⟨a.total.symm ▸ hlt, hholds⟩
  exact ((a.flags i).mp howned).2 hi

theorem Allocated.registered {accepted : Nat → Bool} {minimum : Nat}
    (a : Allocated count accepted minimum t) (haccepted : ∀ i < minimum, accepted i = true) :
    t.Registered := by
  intro i hi
  rw [a.total] at hi
  rw [a.holds i hi, getRegFlags, a.regs, a.total]
  by_cases hlt : i < minimum
  · simp [List.getElem?_append_left, hlt, haccepted]
  simp_all [List.getElem?_append_right, List.getElem?_replicate]

/-! ## `allocate` -/

theorem Sound.takes (h : s.Sound) {buffers : List Nat} (ht : s.Takes count buffers)
    (minimum : Nat) : Sound { s with
      mMinUndequeuedBuffers := minimum
      window := { s.window with free := buffers } } where
  flagged := h.flagged
  distinct := by
    show (buffers ++ s.window.lent).Nodup
    rw [ht.2.2, List.append_nil]
    exact ht.2.1
  handles := h.handles
  lent := h.lent
  free hne := absurd ht.2.2 hne

theorem prepare_cases (h : s.Sound) (hwindow : s.mWindow = true) (answers : Answers count) :
    (s.Refuses answers ∧ ∃ t, s.prepare answers = (false, t) ∧ t.Sound ∧
      t.window.lent = s.window.lent ∧ t.heap = s.heap) ∨
    (¬ s.Refuses answers ∧ ∃ minimum buffers,
      answers.get_min_undequeued_buffer_count = some minimum ∧ s.Takes count buffers ∧
      s.prepare answers = (true, { s with
        mMinUndequeuedBuffers := minimum
        window := { s.window with free := buffers } })) := by
  unfold prepare Refuses
  cases hminimum : answers.get_min_undequeued_buffer_count with
  | none => exact .inl ⟨.inr (.inl rfl), s, rfl, h, rfl, rfl⟩
  | some minimum =>
    have hmin : Sound { s with mMinUndequeuedBuffers := minimum } :=
      ⟨h.flagged, h.distinct, h.handles, h.lent, h.free⟩
    cases hcount : answers.set_buffer_count with
    | none => exact .inl ⟨.inr (.inr (.inl nofun)), _, rfl, hmin, rfl, rfl⟩
    | some buffers =>
      by_cases htakes : s.Takes count buffers
      · have hset : setBufferCount { s with mMinUndequeuedBuffers := minimum } count
            (some buffers) = (true, { s with
              mMinUndequeuedBuffers := minimum
              window := { s.window with free := buffers } }) := if_pos htakes
        simp only [hset]
        cases hall : answers.set_buffers_geometry && answers.set_crop && answers.set_usage with
        | false =>
          refine .inl ⟨.inr (.inr (.inr ?_)), _, rfl, h.takes htakes minimum, rfl, rfl⟩
          simp only [Bool.and_eq_false_iff] at hall
          tauto
        | true =>
          simp_all
      · have hset : setBufferCount { s with mMinUndequeuedBuffers := minimum } count
            (some buffers) = (false, { s with mMinUndequeuedBuffers := minimum }) :=
          if_neg htakes
        simp [hset, hmin, htakes]

theorem Undone.of_same (hlent : t.window.lent = s.window.lent) (hheap : t.heap = s.heap) :
    Undone s t where
  buffers handle hmem := hlent ▸ hmem
  ion p hp := by
    simp_all

theorem Lost.not_undone {base : GrallocMemory} (h : Lost base t) (hlent : s.window.lent = [])
    (hheap : base.heap = s.heap) : ¬ Undone s t := by
  intro hundone
  rcases h with hheld | hion
  · obtain ⟨handle, hmem⟩ := List.exists_mem_of_ne_nil _ hheld
    have hmem := hundone.buffers handle hmem
    simp_all
  · rw [hheap] at hion
    exact hion hundone.ion

theorem kept_allocate_of {answers : Answers count} {b : Bool}
    (hrun : s.allocate count answers = (b, t)) : s.Kept (.allocate count answers) ↔
      t.Flagged ∧ (b = false → Undone s t) ∧ (b = true → t.Registered) := by
  simp only [Kept, exec, hrun]

theorem allocate_eq (hwindow : s.mWindow = true) (answers : Answers count) :
    s.allocate count answers = match s.prepare answers with
      | (false, s) => (false, s)
      | (true, s) =>
        match s.allocateLoop answers 0 count with
        | (false, s) => (false, s)
        | (true, s) => (true, cancelFirsts { s with mBufferCount := count } answers.cancel_buffer
            s.mMinUndequeuedBuffers) := by
  unfold GrallocMemory.allocate
  rw [if_neg (by simp [hwindow])]
  rfl

theorem Sound.kept_allocate (h : s.Sound) (answers : Answers count) :
    (s.Kept (.allocate count answers) ↔ s.Cond (.allocate count answers)) ∧
      (s.Cond (.allocate count answers) → (s.exec (.allocate count answers)).Sound) := by
  have of_fine : ∀ {b t}, s.allocate count answers = (b, t) → s.Cond (.allocate count answers) →
      t.Sound → (b = false → Undone s t) → (b = true → t.Registered) →
      (s.Kept (.allocate count answers) ↔ s.Cond (.allocate count answers)) ∧
        (s.Cond (.allocate count answers) → (s.exec (.allocate count answers)).Sound) := by
    intro b t hrun hc ht hfalse htrue
    refine ⟨iff_of_true ((kept_allocate_of hrun).mpr ⟨ht.flagged, hfalse, htrue⟩) hc, fun _ => ?_⟩
    simp only [exec, hrun]
    exact ht
  cases hwindow : s.mWindow with
  | false =>
    have hrun : s.allocate count answers = (false, s) := if_pos hwindow
    exact of_fine hrun (.inl (.inl hwindow)) h (fun _ => .of_same rfl rfl) (by simp)
  | true =>
    have hallocate := allocate_eq hwindow answers
    rcases prepare_cases h hwindow answers with ⟨hrefuses, t, hprepare, ht, hlent, hheap⟩ |
      ⟨haccepts, minimum, buffers, hminimum, htakes, hprepare⟩
    · rw [hprepare] at hallocate
      exact of_fine hallocate (.inl hrefuses) ht (fun _ => .of_same hlent hheap) (by simp)
    obtain ⟨base, hbase⟩ : ∃ base : GrallocMemory, base = { s with
        mMinUndequeuedBuffers := minimum
        window := { s.window with free := buffers } } := ⟨_, rfl⟩
    have hsound : base.Sound := by
      rw [hbase]
      exact h.takes htakes minimum
    have hlent : base.window.lent = [] := by
      rw [hbase]
      exact htakes.2.2
    have hheap : base.heap = s.heap := by rw [hbase]
    have hmin : base.mMinUndequeuedBuffers = minimum.val := by rw [hbase]
    have hfree : base.window.free.length = count := by
      rw [hbase]
      exact htakes.1
    rw [hprepare, ← hbase] at hallocate
    dsimp only at hallocate
    by_cases hfirst : 0 < count ∧ answers.dequeue_buffer 0 = none
    · have hloop : base.allocateLoop answers 0 count =
          (false, (base.setFlag 0 .notOwned).reset) := by
        obtain ⟨missing, rfl⟩ := Nat.exists_eq_succ_of_ne_zero (Nat.ne_of_gt hfirst.1)
        rw [allocateLoop, hfirst.2]
        rfl
      have hflags : (base.setFlag 0 .notOwned).mLocalFlag = base.mLocalFlag :=
        Function.update_eq_self_iff.mpr (hsound.none_owned hlent 0).symm
      have hreset : (base.setFlag 0 .notOwned).reset.Sound := by
        refine ⟨fun i => ?_, hsound.distinct, hsound.handles, hsound.lent, hsound.free⟩
        show (base.setFlag 0 .notOwned).mLocalFlag i = .owned ↔ _
        rw [hflags]
        exact hsound.flagged i
      simp only [hloop] at hallocate
      refine of_fine hallocate (.inr (.inl hfirst)) hreset (fun _ => .of_same ?_ hheap) (by simp)
      exact hlent.trans htakes.2.2.symm
    have hloop := allocateLoop_spec answers 0 count (hsound.filled hlent hfree) (Nat.zero_add count)
    have hall : (base.allocateLoop answers 0 count).1 = true ↔ ∀ j < count,
        (answers.dequeue_buffer j).isSome ∧ answers.ion j = .imported :=
      hloop.all.trans ⟨fun hrest j hj => hrest j (Nat.zero_le j) hj, fun hrest j _ hj => hrest j hj⟩
    have hcond : s.Cond (.allocate count answers) ↔ Grants answers := by
      constructor
      · rintro (hrefuses | hnone | hgrants)
        · exact absurd hrefuses haccepts
        · exact absurd hnone hfirst
        · exact hgrants
      · exact fun hgrants => .inr (.inr hgrants)
    obtain ⟨⟨b, u⟩, hrun⟩ : ∃ r, base.allocateLoop answers 0 count = r := ⟨_, rfl⟩
    rw [hrun] at hallocate hloop hall
    cases b with
    | false =>
      have hfail : ¬ Grants answers := fun hgrants =>
        Bool.false_ne_true (hall.mpr hgrants.buffers)
      have hlost : Lost base u := by
        apply hloop.lost rfl
        grind
      have hnot : ¬ s.Kept (.allocate count answers) := by
        intro hkept
        exact hlost.not_undone htakes.2.2 hheap (((kept_allocate_of hallocate).mp hkept).2.1 rfl)
      exact ⟨iff_of_false hnot fun hc => hfail (hcond.mp hc), fun hc => absurd (hcond.mp hc) hfail⟩
    | true =>
      have filled : Filled base count count u := hloop.filled rfl
      have humin : u.mMinUndequeuedBuffers = minimum.val := filled.minimum.trans hmin
      have hle : u.mMinUndequeuedBuffers ≤ count := humin ▸ Nat.le_of_lt_succ minimum.isLt
      have hallocated := filled.allocated answers.cancel_buffer hle filled.minimum.symm
      have hgranted : Grants answers → ∀ i < u.mMinUndequeuedBuffers,
          answers.cancel_buffer i = true := by
        intro hgrants
        rw [humin]
        exact hgrants.minimum minimum hminimum
      refine ⟨⟨fun hkept => ?_, fun hc => ?_⟩, fun hc => ?_⟩
      · have haccepted := hallocated.accepted hle ((kept_allocate_of hallocate).mp hkept).1
        rw [humin] at haccepted
        refine hcond.mpr ⟨hall.mp rfl, fun minimum' hminimum' => ?_⟩
        simp_all
      · have haccepted := hgranted (hcond.mp hc)
        exact (kept_allocate_of hallocate).mpr ⟨(hallocated.sound haccepted).flagged, by simp,
          fun _ => hallocated.registered haccepted⟩
      · simp only [exec, hallocate]
        exact hallocated.sound (hgranted (hcond.mp hc))

theorem Sound.kept_iff (h : s.Sound) (op : Op) : s.Kept op ↔ s.Cond op := by
  cases op with
  | allocate count answers => exact (h.kept_allocate answers).1
  | displayBuffer index enqueue dequeue =>
    exact iff_of_true ⟨(h.displayBuffer index enqueue dequeue).flagged, trivial⟩ trivial
  | deallocate accepted =>
    refine ⟨fun hkept => ?_, fun hc => ⟨h.flagged_deallocate accepted, h.returned_deallocate hc⟩⟩
    exact (h.lent_deallocate accepted).mp hkept.2.none

theorem Sound.exec (h : s.Sound) (op : Op) (hc : s.Cond op) : (s.exec op).Sound := by
  cases op with
  | allocate count answers => exact (h.kept_allocate answers).2 hc
  | displayBuffer index enqueue dequeue => exact h.displayBuffer index enqueue dequeue
  | deallocate accepted => exact h.deallocate hc

/-- Along a run, the buffers of the window are accounted for exactly if each allocation that fails
does so before its first buffer, and the window takes back what is cancelled. -/
theorem held_along_iff (ops : List Op) (window : Bool) :
    System.Along Kept GrallocMemory.exec ops { mWindow := window } ↔
      System.Along Cond GrallocMemory.exec ops { mWindow := window } :=
  System.along_iff (fun _ op h => h.kept_iff op) (fun _ op h hc => h.exec op hc) ops
    (Sound.new window)

def secondNotImported : Answers 2 where
  get_min_undequeued_buffer_count := some ⟨1, by decide⟩
  set_buffer_count := some [10, 11]
  set_buffers_geometry := true
  set_crop := true
  set_usage := true
  dequeue_buffer _ := some 0
  ion i := if i = 1 then .notImported else .imported
  unwind _ := true
  cancel_buffer _ := true

theorem not_held_along : ¬ ∀ (ops : List Op) (window : Bool),
    System.Along Kept GrallocMemory.exec ops { mWindow := window } := by
  intro h
  have hundone := (h [.allocate 2 secondNotImported] true).1.2.1 (by decide)
  exact absurd (hundone.buffers 11 (by decide)) (by decide)

end GrallocMemory

end EtherDevice.Hal1.WindowBuffers
