import EtherDevice.Hal1.VideoMemory
import EtherDevice.Lib.Loops
import EtherDevice.Lib.Transition

/-!
# The bookkeeping of video buffers

`Own` is the balance of what was made with what some slots hold. `allocate` fills one array after
the other, and `deallocate` empties them; in between the counts are those of complete slots.

`allocateMore` adds metadata from the count that the base class has already moved, so it gives the
new buffers none. Where it fails, and where `allocate` fails behind the base class, what the base
class made stays.
-/

namespace EtherDevice.Hal1.VideoBuffers

open Lib
open MemoryPool (Ion maxNumFrames)

namespace VideoMemory

variable {s t : VideoMemory} {hand hand' rest : List Ptr} {h : Heap Ptr}

/-! ## The balance -/

structure Own (hand : List Ptr) (h : Heap Ptr) : Prop where
  numbered : ∀ p ∈ h.made, p.serial < h.made.length
  balanced : h.Balanced (fun _ => False) hand

theorem Own.reorder (o : Own hand h) (hcount : ∀ p, hand'.count p = hand.count p) : Own hand' h :=
  ⟨o.numbered, o.balanced.move hcount⟩

theorem Own.alloc {p : Ptr} (o : Own hand h) (hp : p.serial = h.made.length)
    (hcount : ∀ q, hand'.count q = hand.count q + [p].count q) : Own hand' (h.alloc p) where
  numbered q hq := by
    show q.serial < (h.made ++ [p]).length
    rw [List.length_append, List.length_singleton]
    rcases List.mem_append.mp hq with hold | hnew
    · exact Nat.lt_succ_of_lt (o.numbered q hold)
    simp_all
  balanced := by
    apply o.balanced.alloc _ hcount
    intro hmem
    exact Nat.lt_irrefl _ (hp ▸ o.numbered p hmem)

theorem Own.free {p : Ptr} (o : Own hand h)
    (hcount : ∀ q, hand'.count q + [p].count q = hand.count q) : Own hand' (h.free p) where
  numbered := o.numbered
  balanced := o.balanced.frees (Heap.frees_free id) hcount

theorem Own.free? {p : Option Ptr} (o : Own (p.toList ++ rest) h) : Own rest (p.elim h h.free) := by
  cases p with
  | none => exact o
  | some p =>
    apply o.free
    intro q
    rw [Option.toList_some, List.count_append]
    omega

theorem Own.freed_nodup (o : Own hand h) : h.freed.Nodup := by
  apply List.nodup_iff_count_le_one.mpr
  intro p
  have haccount := o.balanced.account p
  have hmade := List.nodup_iff_count_le_one.mp o.balanced.distinct p
  omega

/-! ## Arrays -/

def ionPtr (s : VideoMemory) (i : Nat) : Option Ptr := (s.mMemInfo i).fd.map Ptr.ion

def cameraPtr (s : VideoMemory) (i : Nat) : Option Ptr := (s.mCameraMemory i).map Ptr.camera

def metadataPtr (s : VideoMemory) (i : Nat) : Option Ptr := (s.mMetadata i).map Ptr.metadata

def handlePtr (s : VideoMemory) (i : Nat) : Option Ptr :=
  (s.mNativeHandle i).map (.nativeHandle ·.serial)

def slots (ptr : Nat → Option Ptr) (count : Nat) : List Ptr :=
  (List.range count).flatMap fun i => (ptr i).toList

theorem slots_succ (ptr : Nat → Option Ptr) (count : Nat) :
    slots ptr (count + 1) = slots ptr count ++ (ptr count).toList := by
  simp [slots, List.range_succ]

theorem slots_congr {ptr ptr' : Nat → Option Ptr} {count : Nat} (h : ∀ i < count, ptr' i = ptr i) :
    slots ptr' count = slots ptr count := by
  apply List.flatMap_congr
  simp_all

theorem mem_slots {ptr : Nat → Option Ptr} {count i : Nat} {p : Ptr} (hi : i < count)
    (hp : ptr i = some p) : p ∈ slots ptr count :=
  List.mem_flatMap.mpr ⟨i, List.mem_range.mpr hi, by simp [hp]⟩

theorem countP_slots {ptr : Nat → Option Ptr} {count : Nat} {f : Ptr → Bool}
    (hptr : ∀ i < count, ∃ p, ptr i = some p ∧ f p = true) :
    (slots ptr count).countP f = count := by
  induction count with
  | zero => rfl
  | succ count ih =>
    obtain ⟨p, hp, hf⟩ := hptr count (Nat.lt_succ_self _)
    rw [slots_succ, List.countP_append, ih fun i hi => hptr i (Nat.lt_succ_of_lt hi), hp,
      Option.toList_some, List.countP_singleton, if_pos hf]

theorem countP_slots_zero {α : Type} {slot : Nat → Option α} {ptr : α → Ptr} {count : Nat}
    (hptr : ∀ x, (ptr x).isIon = false) :
    (slots (fun i => (slot i).map ptr) count).countP (·.isIon) = 0 := by
  apply List.countP_eq_zero.mpr
  intro p hp
  obtain ⟨i, -, hmem⟩ := List.mem_flatMap.mp hp
  obtain ⟨x, -, rfl⟩ := Option.map_eq_some_iff.mp (Option.mem_toList.mp hmem)
  simp_all

/-! ## Slots are emptied -/

theorem Own.foldl {step : VideoMemory → Nat → VideoMemory} {refs : VideoMemory → Nat → List Ptr}
    (hstep : ∀ s i rest, Own (refs s i ++ rest) s.heap → Own rest (step s i).heap)
    (hframe : ∀ s i j, j ≠ i → refs (step s i) j = refs s j) {indices : List Nat}
    (hnodup : indices.Nodup) (o : Own (indices.flatMap (refs s) ++ rest) s.heap) :
    Own rest (indices.foldl step s).heap :=
  foldl_consume (P := fun hand s => Own hand s.heap) hstep hframe hnodup o

theorem own_deallocOneBuffer (s : VideoMemory) (i : Nat) (rest : List Ptr)
    (o : Own ((s.ionPtr i).toList ++ rest) s.heap) : Own rest (s.deallocOneBuffer i).heap :=
  o.free?

theorem own_releaseCamera (s : VideoMemory) (i : Nat) (rest : List Ptr)
    (o : Own ((s.cameraPtr i).toList ++ rest) s.heap) : Own rest (s.releaseCamera i).heap :=
  o.free?

def metaRefs (s : VideoMemory) (i : Nat) : List Ptr :=
  (s.handlePtr i).toList ++ (s.metadataPtr i).toList

theorem own_deallocateMetaSlot (s : VideoMemory) (i : Nat) (rest : List Ptr)
    (o : Own (s.metaRefs i ++ rest) s.heap) : Own rest (s.deallocateMetaSlot i).heap := by
  unfold metaRefs at o
  rw [List.append_assoc] at o
  exact o.free?.free?

theorem flatMap_metaRefs_count (s : VideoMemory) (count : Nat) (p : Ptr) :
    ((List.range count).flatMap s.metaRefs).count p =
      (slots s.metadataPtr count).count p + (slots s.handlePtr count).count p := by
  induction count with
  | zero => rfl
  | succ count ih =>
    grind [List.range_succ, slots_succ, metaRefs]

/-! ## What the object holds -/

def refs (s : VideoMemory) : List Ptr :=
  slots s.ionPtr s.mBufferCount ++ (slots s.cameraPtr s.mBufferCount ++
    (slots s.metadataPtr s.mBufferCount ++ slots s.handlePtr s.mBufferCount))

structure Full (s : VideoMemory) (i : Nat) : Prop where
  ion : (s.mMemInfo i).fd.isSome
  camera : (s.mCameraMemory i).isSome
  metadata : (s.mMetadata i).isSome
  handle : ∃ nh, s.mNativeHandle i = some nh ∧ nh.fd = (s.mMemInfo i).fd ∧
    nh.size = (s.mMemInfo i).size

structure Sound (s : VideoMemory) : Prop where
  own : Own s.refs s.heap
  metas : s.mMetaBufCount = s.mBufferCount
  full : ∀ i < s.mBufferCount, s.Full i

theorem Sound.counted (h : s.Sound) : s.Counted := by
  have hperm := h.own.balanced.live_perm
  refine ⟨?_, h.metas, fun i hi => ?_⟩
  · rw [hperm.countP_eq]
    have hions : (slots s.ionPtr s.mBufferCount).countP (·.isIon) = s.mBufferCount := by
      apply countP_slots
      intro i hi
      obtain ⟨fd, hfd⟩ := Option.isSome_iff_exists.mp (h.full i hi).ion
      exact ⟨.ion fd, by simp [ionPtr, hfd], rfl⟩
    have hcameras : (slots s.cameraPtr s.mBufferCount).countP (·.isIon) = 0 :=
      countP_slots_zero fun _ => rfl
    have hmetas : (slots s.metadataPtr s.mBufferCount).countP (·.isIon) = 0 :=
      countP_slots_zero fun _ => rfl
    have hhandles : (slots s.handlePtr s.mBufferCount).countP (·.isIon) = 0 :=
      countP_slots_zero fun _ => rfl
    simp only [refs, List.countP_append, hions, hcameras, hmetas, hhandles, Nat.add_zero]
  · have hmem : ∀ p, p ∈ s.refs → p ∈ s.heap.live := fun p hp => hperm.mem_iff.mpr hp
    have hfull := h.full i hi
    obtain ⟨fd, hfd⟩ := Option.isSome_iff_exists.mp hfull.ion
    obtain ⟨memory, hmemory⟩ := Option.isSome_iff_exists.mp hfull.camera
    obtain ⟨metadata, hmetadata⟩ := Option.isSome_iff_exists.mp hfull.metadata
    obtain ⟨nh, hnh, hname⟩ := hfull.handle
    refine ⟨⟨fd, hfd, hmem _ ?_⟩, ⟨memory, hmemory, hmem _ ?_⟩, ⟨metadata, hmetadata, hmem _ ?_⟩,
      ⟨nh, hnh, hmem _ ?_, hname⟩⟩
    · exact List.mem_append_left _ (mem_slots hi (by simp [ionPtr, hfd]))
    · exact List.mem_append_right _ (List.mem_append_left _
        (mem_slots hi (by simp [cameraPtr, hmemory])))
    · exact List.mem_append_right _ (List.mem_append_right _ (List.mem_append_left _
        (mem_slots hi (by simp [metadataPtr, hmetadata]))))
    · exact List.mem_append_right _ (List.mem_append_right _ (List.mem_append_right _
        (mem_slots hi (by simp [handlePtr, hnh]))))

theorem Sound.keeps_once (h : s.Sound) : s.heap.freed.Nodup := h.own.freed_nodup

/-! ## Slots are filled -/

/-- The loop of `alloc` fills the slots, or leaves none of them. -/
structure Allocated (answer : Nat → Ion) (i missing : Nat) (s : VideoMemory)
    (r : Bool × VideoMemory) : Prop where
  rest : ∃ infos heap, r.2 = { s with mMemInfo := infos, heap := heap }
  all : r.1 = true ↔ ∀ j, i ≤ j → j < i + missing → answer j = .allocated
  own : r.1 = true → Own (slots r.2.ionPtr (i + missing)) r.2.heap
  full : r.1 = true → ∀ j < i + missing, ((r.2.mMemInfo j).fd).isSome
  none : r.1 = false → Own [] r.2.heap

theorem allocSlots_failed {answer : Nat → Ion} {i missing : Nat} (hanswer : answer i ≠ .allocated)
    (hrest : ∃ infos heap, t = { s with mMemInfo := infos, heap := heap })
    (o : Own (slots t.ionPtr i) t.heap) : Allocated answer i (missing + 1) s
      (false, (List.range i).reverse.foldl deallocOneBuffer t) where
  rest := by
    have hfold : ∀ (indices : List Nat) (t : VideoMemory),
        ∃ infos heap, indices.foldl deallocOneBuffer t =
          { t with mMemInfo := infos, heap := heap } := by
      intro indices
      induction indices with
      | nil => exact fun t => ⟨_, _, rfl⟩
      | cons j indices ih =>
        intro t
        obtain ⟨infos, heap, h⟩ := ih (t.deallocOneBuffer j)
        exact ⟨infos, heap, h⟩
    obtain ⟨infos, heap, rfl⟩ := hrest
    exact hfold _ _
  all := iff_of_false Bool.false_ne_true fun hall =>
    hanswer (hall i le_rfl (Nat.lt_add_of_pos_right (Nat.succ_pos missing)))
  own := nofun
  full := nofun
  none _ := by
    have hcount : ∀ p, ((List.range i).reverse.flatMap fun j => (t.ionPtr j).toList).count p =
        (slots t.ionPtr i).count p := fun p =>
      ((List.reverse_perm (List.range i)).flatMap_right _).count_eq p
    apply Own.foldl own_deallocOneBuffer _ (List.nodup_reverse.mpr List.nodup_range)
    · simp [o.reorder, hcount]
    simp_all [ionPtr, deallocOneBuffer]

theorem allocSlots_spec (i missing : Nat) (size : UInt32) (secure : Bool) (answer : Nat → Ion)
    (o : Own (slots s.ionPtr i) s.heap) (hfull : ∀ j < i, ((s.mMemInfo j).fd).isSome) :
    Allocated answer i missing s (s.allocSlots size secure answer i missing) := by
  induction missing generalizing i s with
  | zero =>
    refine ⟨⟨_, _, rfl⟩, iff_of_true rfl fun j hle hlt => ?_, fun _ => o, fun _ => hfull, nofun⟩
    exact absurd hlt (Nat.not_lt.mpr hle)
  | succ missing ih =>
    unfold allocSlots
    cases hanswer : answer i with
    | failed => exact allocSlots_failed (by simp [hanswer]) ⟨_, _, rfl⟩ o
    | notShared =>
      refine allocSlots_failed (by simp [hanswer]) ⟨_, _, rfl⟩ ?_
      have halloc : Own (slots s.ionPtr i ++ [.ion s.fresh]) (s.heap.alloc (.ion s.fresh)) :=
        o.alloc rfl fun q => List.count_append
      exact halloc.free fun q => List.count_append.symm
    | allocated =>
      obtain ⟨t, hrun⟩ : ∃ t, s.allocOneBuffer i size secure .allocated = (true, t) := ⟨_, rfl⟩
      have hinfos : ∀ j, j ≠ i → t.mMemInfo j = s.mMemInfo j := by
        intro j hne
        cases hrun
        exact Function.update_of_ne hne _ _
      have hinfo : (t.mMemInfo i).fd = some s.fresh := by
        cases hrun
        simp
      have o' : Own (slots t.ionPtr (i + 1)) t.heap := by
        have hheap : t.heap = s.heap.alloc (.ion s.fresh) := by
          cases hrun
          rfl
        rw [hheap]
        apply o.alloc rfl
        grind [slots_congr, ionPtr, slots_succ]
      have hfull' : ∀ j < i + 1, ((t.mMemInfo j).fd).isSome := by
        grind
      obtain ⟨⟨infos, heap, heq⟩, hall, hown, hfull'', hnone⟩ := ih (i + 1) o' hfull'
      have hsum : i + 1 + missing = i + (missing + 1) := by omega
      rw [hsum] at hall hown hfull''
      rw [hrun]
      refine ⟨⟨infos, heap, ?_⟩, hall.trans ?_, hown, hfull'', hnone⟩
      · show (t.allocSlots size secure answer (i + 1) missing).2 = _
        rw [heq]
        cases hrun
        rfl
      grind

theorem getMemory_spec (memory : Nat → Bool) {held : List Ptr} {count : Nat}
    (hmemory : ∀ i < count, memory i = true) (o : Own held s.heap) :
    ∃ cameras heap, (List.range count).foldl (getMemory memory) s =
        { s with mCameraMemory := cameras, heap := heap } ∧
      (∀ i < count, (cameras i).isSome) ∧
      Own (held ++ slots (fun i => (cameras i).map Ptr.camera) count) heap := by
  induction count with
  | zero => exact ⟨_, _, rfl, nofun, by simpa [slots] using o⟩
  | succ count ih =>
    obtain ⟨cameras, heap, hfold, hsome, o'⟩ := ih fun i hi => hmemory i (Nat.lt_succ_of_lt hi)
    refine ⟨Function.update cameras count (some heap.made.length),
      heap.alloc (.camera heap.made.length), ?_, fun i hi => ?_, ?_⟩
    · rw [List.range_succ, List.foldl_append, hfold, List.foldl_cons, List.foldl_nil, getMemory,
        if_pos (hmemory count (Nat.lt_succ_self _))]
      rfl
    · grind
    · apply o'.alloc rfl
      grind [slots_congr, slots_succ]

def handleRef (handles : Nat → Option NativeHandle) (i : Nat) : Option Ptr :=
  (handles i).map (.nativeHandle ·.serial)

def metadataRef (metas : Nat → Option Nat) (i : Nat) : Option Ptr := (metas i).map Ptr.metadata

theorem slots_update_metadata (metas : Nat → Option Nat) (i serial : Nat) :
    slots (metadataRef (Function.update metas i (some serial))) (i + 1) =
      slots (metadataRef metas) i ++ [.metadata serial] := by
  grind [metadataRef, slots_congr, slots_succ]

theorem slots_update_handle (handles : Nat → Option NativeHandle) (i : Nat) (nh : NativeHandle) :
    slots (handleRef (Function.update handles i (some nh))) (i + 1) =
      slots (handleRef handles) i ++ [.nativeHandle nh.serial] := by
  grind [handleRef, slots_congr, slots_succ]

theorem allocateMetaLoop_made {answer : Nat → Meta} {held : List Ptr} (i missing : Nat)
    (hmade : ∀ j, i ≤ j → j < i + missing → answer j = .made)
    (hsome : ∀ j < i, (s.mMetadata j).isSome ∧ (s.mNativeHandle j).isSome)
    (o : Own (held ++ (slots s.metadataPtr i ++ slots s.handlePtr i)) s.heap) :
    ∃ metas handles heap, s.allocateMetaLoop answer i missing =
        (true, { s with mMetadata := metas, mNativeHandle := handles, heap := heap }) ∧
      (∀ j < i + missing, (metas j).isSome ∧ (handles j).isSome) ∧
      Own (held ++ (slots (metadataRef metas) (i + missing) ++
        slots (handleRef handles) (i + missing))) heap := by
  induction missing generalizing i s with
  | zero => exact ⟨_, _, _, rfl, hsome, o⟩
  | succ missing ih =>
    have hi : answer i = .made := hmade i le_rfl (by omega)
    obtain ⟨t, ht⟩ : ∃ t, t = (s.newMetadata i).newHandle i := ⟨_, rfl⟩
    have hheap : t.heap = (s.heap.alloc (.metadata s.fresh)).alloc
        (.nativeHandle (s.newMetadata i).fresh) := by rw [ht]; rfl
    have hmetas : t.mMetadata = Function.update s.mMetadata i (some s.fresh) := by rw [ht]; rfl
    have hhandles : t.mNativeHandle = Function.update s.mNativeHandle i
        (some ⟨(s.newMetadata i).fresh, none, 0⟩) := by rw [ht]; rfl
    have hsome' : ∀ j < i + 1, (t.mMetadata j).isSome ∧ (t.mNativeHandle j).isSome := by
      intro j hj
      rw [hmetas, hhandles]
      grind
    have o' : Own (held ++ (slots t.metadataPtr (i + 1) ++ slots t.handlePtr (i + 1))) t.heap := by
      rw [hheap]
      have hmetadata : Own (held ++ (slots s.metadataPtr i ++ slots s.handlePtr i) ++
          [.metadata s.fresh]) (s.heap.alloc (.metadata s.fresh)) :=
        o.alloc rfl fun q => List.count_append
      apply hmetadata.alloc rfl
      intro q
      have hm : slots t.metadataPtr (i + 1) = slots s.metadataPtr i ++ [.metadata s.fresh] := by
        have hptr : t.metadataPtr = metadataRef t.mMetadata := rfl
        rw [hptr, hmetas, slots_update_metadata]
        rfl
      have hh : slots t.handlePtr (i + 1) =
          slots s.handlePtr i ++ [.nativeHandle (s.newMetadata i).fresh] := by
        have hptr : t.handlePtr = handleRef t.mNativeHandle := rfl
        rw [hptr, hhandles, slots_update_handle]
        rfl
      rw [hm, hh]
      simp only [List.count_append]
      omega
    obtain ⟨metas, handles, heap, hrun, hall, hown⟩ :=
      ih (i + 1) (fun j hle hlt => hmade j (Nat.le_of_succ_le hle) (by omega)) hsome' o'
    have hsum : i + 1 + missing = i + (missing + 1) := by omega
    rw [hsum] at hall hown
    refine ⟨metas, handles, heap, ?_, hall, hown⟩
    rw [allocateMetaLoop, hi]
    show ((s.newMetadata i).newHandle i).allocateMetaLoop answer (i + 1) missing = _
    rw [← ht, hrun, ht]
    rfl

def Named (s : VideoMemory) (handles : Nat → Option NativeHandle) (i : Nat) : Prop :=
  ∃ nh, handles i = some nh ∧ nh.fd = (s.mMemInfo i).fd ∧ nh.size = (s.mMemInfo i).size

theorem nameBuffers_spec (i missing : Nat) (hsome : ∀ j, i ≤ j → j < i + missing →
      (s.mNativeHandle j).isSome) (hnamed : ∀ j < i, s.Named s.mNativeHandle j) :
    ∃ handles, s.nameBuffers i missing = (true, { s with mNativeHandle := handles }) ∧
      (∀ j, handleRef handles j = handleRef s.mNativeHandle j) ∧
      ∀ j < i + missing, s.Named handles j := by
  induction missing generalizing i s with
  | zero => exact ⟨_, rfl, fun _ => rfl, hnamed⟩
  | succ missing ih =>
    obtain ⟨nh, hnh⟩ := Option.isSome_iff_exists.mp (hsome i le_rfl (by omega))
    obtain ⟨t, ht⟩ : ∃ t, t = s.nameBuffer i nh := ⟨_, rfl⟩
    have hinfo : t.mMemInfo = s.mMemInfo := by rw [ht]; rfl
    have hhandles : t.mNativeHandle = Function.update s.mNativeHandle i
        (some { nh with fd := (s.mMemInfo i).fd, size := (s.mMemInfo i).size }) := by rw [ht]; rfl
    have hnamed' : ∀ j < i + 1, t.Named t.mNativeHandle j := by
      intro j hj
      rw [Named, hinfo, hhandles]
      rcases Nat.lt_succ_iff_lt_or_eq.mp hj with hlt | rfl
      · rw [Function.update_of_ne (Nat.ne_of_lt hlt)]
        exact hnamed j hlt
      · exact ⟨_, Function.update_self _ _ _, rfl, rfl⟩
    have hsome' : ∀ j, i + 1 ≤ j → j < i + 1 + missing → (t.mNativeHandle j).isSome := by
      intro j hle hlt
      rw [hhandles, Function.update_of_ne (Nat.ne_of_gt hle)]
      exact hsome j (Nat.le_of_succ_le hle) (by omega)
    obtain ⟨handles, hrun, hsame, hall⟩ := ih (i + 1) hsome' hnamed'
    have hsum : i + 1 + missing = i + (missing + 1) := by omega
    rw [hsum] at hall
    refine ⟨handles, ?_, fun j => ?_, fun j hj => ?_⟩
    · rw [nameBuffers, hnh]
      show (s.nameBuffer i nh).nameBuffers (i + 1) missing = _
      rw [← ht, hrun, ht]
      rfl
    · rw [hsame j, handleRef, handleRef, hhandles]
      grind
    simp_all [Named]

/-! ## Calls -/

theorem Sound.empty (hcount : s.mBufferCount = 0) (hmetas : s.mMetaBufCount = 0)
    (o : Own [] s.heap) : s.Sound := by
  refine ⟨?_, hmetas.trans hcount.symm, fun i hi => ?_⟩
  · rw [refs, hcount]
    exact o
  omega

theorem Sound.own_empty (h : s.Sound) (hcount : s.mBufferCount = 0) : Own [] s.heap := by
  have o := h.own
  rwa [refs, hcount] at o

theorem Sound.deallocateMeta (h : s.Sound) :
    Own (slots s.cameraPtr s.mBufferCount ++ slots s.ionPtr s.mBufferCount)
      s.deallocateMeta.heap := by
  apply Own.foldl own_deallocateMetaSlot _ List.nodup_range
  · apply h.own.reorder
    intro p
    rw [h.metas, refs]
    simp only [List.count_append, flatMap_metaRefs_count]
    omega
  simp_all [metaRefs, handlePtr, metadataPtr, deallocateMetaSlot]

theorem own_streamDeallocate
    (o : Own (slots s.cameraPtr s.mBufferCount ++ slots s.ionPtr s.mBufferCount) s.heap) :
    Own [] s.streamDeallocate.heap := by
  have hinfo : ((List.range s.mBufferCount).foldl releaseCamera s).mMemInfo = s.mMemInfo :=
    foldl_frame releaseCamera mMemInfo (fun _ _ => rfl) _ _
  have hcount : ((List.range s.mBufferCount).foldl releaseCamera s).mBufferCount =
      s.mBufferCount := foldl_frame releaseCamera mBufferCount (fun _ _ => rfl) _ _
  have hcameras : Own (slots s.ionPtr s.mBufferCount)
      ((List.range s.mBufferCount).foldl releaseCamera s).heap := by
    apply Own.foldl own_releaseCamera _ List.nodup_range o
    simp_all [cameraPtr, releaseCamera]
  show Own [] ((List.range ((List.range s.mBufferCount).foldl releaseCamera s).mBufferCount).foldl
    deallocOneBuffer ((List.range s.mBufferCount).foldl releaseCamera s)).heap
  rw [hcount]
  apply Own.foldl own_deallocOneBuffer _ List.nodup_range
  · rw [List.append_nil]
    have hptr : ((List.range s.mBufferCount).foldl releaseCamera s).ionPtr = s.ionPtr := by
      funext i
      rw [ionPtr, ionPtr, hinfo]
    rwa [hptr]
  simp_all [ionPtr, deallocOneBuffer]

theorem Sound.deallocate (h : s.Sound) : s.deallocate.Sound := by
  apply Sound.empty rfl rfl
  have hcount : s.deallocateMeta.mBufferCount = s.mBufferCount :=
    foldl_frame deallocateMetaSlot mBufferCount (fun _ _ => rfl) _ _
  have hcameras : s.deallocateMeta.mCameraMemory = s.mCameraMemory :=
    foldl_frame deallocateMetaSlot mCameraMemory (fun _ _ => rfl) _ _
  have hinfo : s.deallocateMeta.mMemInfo = s.mMemInfo :=
    foldl_frame deallocateMetaSlot mMemInfo (fun _ _ => rfl) _ _
  apply own_streamDeallocate
  have hcameraPtr : s.deallocateMeta.cameraPtr = s.cameraPtr := by
    funext i
    rw [cameraPtr, cameraPtr, hcameras]
  have hionPtr : s.deallocateMeta.ionPtr = s.ionPtr := by
    funext i
    rw [ionPtr, ionPtr, hinfo]
  rw [hcount, hcameraPtr, hionPtr]
  exact h.deallocateMeta

theorem kept_of {op : Op} {b : Bool} (hrun : s.run op = (b, t)) (ht : t.Sound)
    (hnothing : b = false → ∀ p ∈ t.heap.live, p ∈ s.heap.live) :
    s.Kept op ∧ (s.exec op).Sound := by
  have hexec : s.exec op = t := congrArg Prod.snd hrun
  rw [hexec]
  refine ⟨⟨fun _ => ?_, fun hfalse => ?_, ?_⟩, ht⟩
  · rw [hexec]
    exact ht.counted
  · simp_all
  · rw [hexec]
    exact ht.keeps_once

theorem alloc_failed {count : Nat} {answer : Nat → Ion} (size : UInt32) (secure : Bool)
    (h : s.Sound) (hzero : s.mBufferCount = 0) (hle : count ≤ maxNumFrames)
    (hfail : ∃ i < count, answer i ≠ .allocated) :
    ∃ t, s.alloc count size secure answer = (false, t) ∧ t.Sound ∧ t.heap.live = [] := by
  have hspec := allocSlots_spec 0 count size secure answer (h.own_empty hzero)
    nofun
  have halloc : s.alloc count size secure answer = s.allocSlots size secure answer 0 count := by
    rw [alloc, hzero, if_neg (by omega)]
  obtain ⟨i, hi, hanswer⟩ := hfail
  have hfalse : (s.allocSlots size secure answer 0 count).1 = false := by
    apply Bool.eq_false_iff.mpr
    intro htrue
    exact hanswer (hspec.all.mp htrue i (Nat.zero_le i) (by omega))
  obtain ⟨infos, heap, hrest⟩ := hspec.rest
  refine ⟨(s.allocSlots size secure answer 0 count).2, halloc.trans (Prod.ext hfalse rfl), ?_, ?_⟩
  · apply Sound.empty
    · rw [hrest]
      exact hzero
    · rw [hrest]
      exact h.metas.trans hzero
    · exact hspec.none hfalse
  · exact List.Perm.nil_eq (hspec.none hfalse).balanced.live_perm.symm |>.symm

theorem alloc_made {count : Nat} {answer : Nat → Ion} (size : UInt32) (secure : Bool)
    (h : s.Sound) (hzero : s.mBufferCount = 0) (hle : count ≤ maxNumFrames)
    (hall : ∀ i < count, answer i = .allocated) :
    ∃ infos heap, s.alloc count size secure answer =
        (true, { s with mMemInfo := infos, heap := heap }) ∧
      (∀ i < count, (infos i).fd.isSome) ∧
      Own (slots (fun i => (infos i).fd.map Ptr.ion) count) heap := by
  have hspec := allocSlots_spec 0 count size secure answer (h.own_empty hzero)
    nofun
  have halloc : s.alloc count size secure answer = s.allocSlots size secure answer 0 count := by
    rw [alloc, hzero, if_neg (by omega)]
  have htrue : (s.allocSlots size secure answer 0 count).1 = true :=
    hspec.all.mpr fun j _ hj => hall j (by omega)
  have hown := hspec.own htrue
  have hfull := hspec.full htrue
  obtain ⟨infos, heap, hrest⟩ := hspec.rest
  rw [hrest, Nat.zero_add] at hown
  rw [hrest, Nat.zero_add] at hfull
  exact ⟨infos, heap, halloc.trans (Prod.ext htrue hrest), hfull, hown⟩

theorem allocate_made {count : Nat} {answer : Nat → Ion} (size : UInt32) (memory : Nat → Bool)
    (metas : Nat → Meta) (h : s.Sound) (hzero : s.mBufferCount = 0) (hle : count ≤ maxNumFrames)
    (hall : ∀ i < count, answer i = .allocated)
    (hrest : ∀ i < count, memory i = true ∧ metas i = .made) :
    ∃ t, s.allocate count size false answer memory metas = (true, t) ∧ t.Sound := by
  obtain ⟨infos, heap, halloc, hinfos, hions⟩ := alloc_made size false h hzero hle hall
  obtain ⟨cameras, heap', hcamera, hcameras, hown⟩ :=
    getMemory_spec (s := { s with mMemInfo := infos, heap := heap }) (fun i => !false && memory i)
      (fun i hi => (hrest i hi).1) hions
  have hstream : s.streamAllocate count size false answer memory = (true, { s with
      mBufferCount := count
      mMemInfo := infos
      mCameraMemory := cameras
      heap := heap' }) := by
    simp only [streamAllocate, halloc, hcamera]
  obtain ⟨metadatas, handles, heap'', hmeta, hsome, hown⟩ :=
    allocateMetaLoop_made 0 count (s := { s with
      mBufferCount := count
      mMemInfo := infos
      mCameraMemory := cameras
      heap := heap' }) (fun j _ hj => (hrest j (by omega)).2) nofun
      (by simpa [slots] using hown)
  rw [Nat.zero_add] at hsome hown
  have hallocateMeta : allocateMeta { s with
      mBufferCount := count
      mMemInfo := infos
      mCameraMemory := cameras
      heap := heap' } count metas = (true, { s with
      mBufferCount := count
      mMetaBufCount := count
      mMemInfo := infos
      mCameraMemory := cameras
      mMetadata := metadatas
      mNativeHandle := handles
      heap := heap'' }) := by
    simp only [allocateMeta, hmeta]
  obtain ⟨handles', hname, hsame, hnamed⟩ :=
    nameBuffers_spec 0 count (s := { s with
      mBufferCount := count
      mMetaBufCount := count
      mMemInfo := infos
      mCameraMemory := cameras
      mMetadata := metadatas
      mNativeHandle := handles
      heap := heap'' }) (fun j _ hj => (hsome j (by omega)).2) nofun
  rw [Nat.zero_add] at hnamed
  refine ⟨{ s with
      mBufferCount := count
      mMetaBufCount := count
      mMemInfo := infos
      mCameraMemory := cameras
      mMetadata := metadatas
      mNativeHandle := handles'
      heap := heap'' }, ?_, ?_, rfl, fun i hi => ?_⟩
  · simp only [allocate, hstream, hallocateMeta, hname]
  · apply hown.reorder
    intro p
    have hhandles : slots (handleRef handles') count = slots (handleRef handles) count :=
      slots_congr fun j _ => hsame j
    rw [← hhandles, List.append_assoc]
    rfl
  · obtain ⟨nh, hnh, hname⟩ := hnamed i hi
    exact ⟨hinfos i hi, hcameras i hi, (hsome i hi).1, nh, hnh, hname⟩

theorem alloc_refused {count : Nat} {size : UInt32} {secure : Bool} {answer : Nat → Ion}
    (h : maxNumFrames < s.mBufferCount + count) :
    s.alloc count size secure answer = (false, s) := by
  rw [alloc, if_pos h]

theorem streamAllocate_failed {count : Nat} {size : UInt32} {secure : Bool} {answer : Nat → Ion}
    (memory : Nat → Bool) (metas : Nat → Meta) (h : s.alloc count size secure answer = (false, t)) :
    s.allocate count size secure answer memory metas = (false, t) := by
  simp only [allocate, streamAllocate, h]

theorem streamAllocateMore_failed {count : Nat} {size : UInt32} {answer : Nat → Ion}
    (memory : Nat → Bool) (metas : Nat → Meta) (h : s.alloc count size false answer = (false, t)) :
    s.allocateMore count size answer memory metas = (false, t) := by
  simp only [allocateMore, streamAllocateMore, h]

theorem Sound.kept (h : s.Sound) (op : Op) (hc : s.Cond op) : s.Kept op ∧ (s.exec op).Sound := by
  cases op with
  | allocate count size secure answer memory metas =>
    rcases Nat.lt_or_ge maxNumFrames (s.mBufferCount + count) with hrefused | hle
    · exact kept_of (streamAllocate_failed memory metas (alloc_refused hrefused)) h fun _ _ hp => hp
    rcases hc with hrefused | ⟨hzero, hc⟩
    · exact absurd hrefused (Nat.not_lt.mpr hle)
    have hcount : count ≤ maxNumFrames := by omega
    by_cases hfail : ∃ i < count, answer i ≠ .allocated
    · obtain ⟨t, halloc, ht, hlive⟩ := alloc_failed size secure h hzero hcount hfail
      have hrun : s.run (.allocate count size secure answer memory metas) = (false, t) :=
        streamAllocate_failed memory metas halloc
      apply kept_of hrun ht
      simp [hlive]
    · have hall : ∀ i < count, answer i = .allocated := by
        simp_all
      rcases hc with hc | hrest
      · exact absurd hc hfail
      rcases Nat.eq_zero_or_pos count with rfl | hpos
      · cases secure with
        | false =>
          obtain ⟨t, hrun, ht⟩ := allocate_made size memory metas h hzero hcount hall nofun
          exact kept_of hrun ht nofun
        | true =>
          obtain ⟨t, hrun, ht⟩ := allocate_made size memory metas h hzero hcount hall nofun
          exact kept_of hrun ht nofun
      · obtain rfl := (hrest 0 hpos).1
        obtain ⟨t, hrun, ht⟩ := allocate_made size memory metas h hzero hcount hall
          fun i hi => (hrest i hi).2
        exact kept_of hrun ht nofun
  | allocateMore count size answer memory metas =>
    rcases Nat.lt_or_ge maxNumFrames (s.mBufferCount + count) with hrefused | hle
    · exact kept_of (streamAllocateMore_failed memory metas (alloc_refused hrefused)) h
        fun _ _ hp => hp
    rcases hc with rfl | hrefused | ⟨hzero, hfail⟩
    · have halloc : s.alloc 0 size false answer = (true, s) := by
        rw [alloc, if_neg (Nat.not_lt.mpr hle)]
        rfl
      have hrun : s.allocateMore 0 size answer memory metas = (true, s) := by
        have hsame : { s with mMetaBufCount := s.mBufferCount } = s :=
          congrArg (fun count => { s with mMetaBufCount := count }) h.metas.symm
        simp only [allocateMore, streamAllocateMore, halloc]
        exact congrArg (Prod.mk true) hsame
      exact kept_of hrun h nofun
    · exact absurd hrefused (Nat.not_lt.mpr hle)
    · obtain ⟨t, halloc, ht, hlive⟩ := alloc_failed size false h hzero (by omega) hfail
      have hrun : s.run (.allocateMore count size answer memory metas) = (false, t) :=
        streamAllocateMore_failed memory metas halloc
      apply kept_of hrun ht
      simp [hlive]
  | deallocate => exact kept_of rfl h.deallocate nofun

theorem Sound.new : Sound {} :=
  Sound.empty rfl rfl ⟨nofun, .empty⟩

/-- In a run that allocates once before each deallocation and adds no buffers, where ion may fail
but nothing behind it does, the counts are those of the buffers and nothing is released twice. -/
theorem kept_along (ops : List Op) (h : System.Along Cond exec ops {}) :
    System.Along Kept exec ops {} :=
  System.Along.imp (fun _ op hs hc => hs.kept op hc) Sound.new h

theorem kept_along_twice : System.Along Kept exec
    [.allocate 2 4096 false (fun _ => .allocated) (fun _ => true) (fun _ => .made), .deallocate,
      .allocate 3 4096 false (fun i => if i = 2 then .failed else .allocated) (fun _ => true)
        (fun _ => .made), .deallocate] {} :=
  kept_along _ ⟨.inr ⟨rfl, .inr fun _ _ => ⟨rfl, rfl, rfl⟩⟩, trivial,
    .inr ⟨rfl, .inl ⟨2, by decide, by decide⟩⟩, trivial, trivial⟩

theorem not_kept_along : ¬ ∀ ops : List Op, System.Along Kept exec ops {} := by
  intro h
  have hrun := h [.allocate 1 4096 false (fun _ => .allocated) (fun _ => true) (fun _ => .made),
    .allocateMore 1 4096 (fun _ => .allocated) (fun _ => true) (fun _ => .made)]
  exact absurd (hrun.2.1.counted (by decide)).ions (by decide)

end VideoMemory

end EtherDevice.Hal1.VideoBuffers
