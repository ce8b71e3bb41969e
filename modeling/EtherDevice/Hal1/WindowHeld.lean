import EtherDevice.Hal1.WindowBuffers
import EtherDevice.Lib.Loops

/-!
# The buffers that are held

`Sound` says which buffers the HAL holds: each has a slot of its own, and the flag of the slot is
set. A buffer that is shown goes back for one that the window chooses, and `deallocate` gives back
those whose flags are set.
-/

namespace EtherDevice.Hal1.WindowBuffers

open Lib

namespace GrallocMemory

variable {s t : GrallocMemory} {i j count : Nat}

@[simp] theorem free?_window (s : GrallocMemory) (p : Option Ptr) : (s.free? p).window = s.window :=
  rfl

def accepted? (s : GrallocMemory) (accepted : Bool) (i : Nat) : Option Nat :=
  if accepted then s.mBufferHandle i else none

theorem giveBack_window (s : GrallocMemory) (accepted : Bool) (i : Nat) :
    (s.giveBack accepted i).window =
      (s.accepted? accepted i).elim s.window s.window.giveBack := by
  cases accepted <;> rfl

def owned? (s : GrallocMemory) (accepted : Nat → Bool) (i : Nat) : Option Nat :=
  if s.mLocalFlag i ≠ .notOwned then s.accepted? (accepted i) i else none

theorem cancelOwned_window (s : GrallocMemory) (accepted : Nat → Bool) (i : Nat) :
    (s.cancelOwned accepted i).window =
      (s.owned? accepted i).elim s.window s.window.giveBack := by
  unfold cancelOwned owned?
  by_cases hflag : s.mLocalFlag i ≠ .notOwned
  · rw [if_pos hflag, if_pos hflag]
    exact giveBack_window s _ i
  · rw [if_neg hflag, if_neg hflag]
    rfl

theorem foldl_window (step : GrallocMemory → Nat → GrallocMemory)
    (ptr : GrallocMemory → Nat → Option Nat)
    (hstep : ∀ s i, (step s i).window = (ptr s i).elim s.window s.window.giveBack)
    (hframe : ∀ s i j, j ≠ i → ptr (step s i) j = ptr s j) {indices : List Nat}
    (hnodup : indices.Nodup) (s : GrallocMemory) :
    (indices.foldl step s).window =
      (indices.filterMap (ptr s)).foldl Lender.giveBack s.window := by
  induction indices generalizing s with
  | nil => rfl
  | cons i indices ih =>
    obtain ⟨hi, hnodup⟩ := List.nodup_cons.mp hnodup
    have hsame : indices.filterMap (ptr (step s i)) = indices.filterMap (ptr s) := by
      apply List.filterMap_congr
      intro j hj
      apply hframe
      rintro rfl
      exact hi hj
    rw [List.foldl_cons, ih hnodup, hsame, hstep, List.filterMap_cons]
    cases ptr s i <;> rfl

@[simp] theorem giveBack_mBufferHandle (s : GrallocMemory) (accepted : Bool) (i : Nat) :
    (s.giveBack accepted i).mBufferHandle = s.mBufferHandle := by
  cases accepted <;> rfl

@[simp] theorem giveBack_mLocalFlag (s : GrallocMemory) (accepted : Bool) (i : Nat) :
    (s.giveBack accepted i).mLocalFlag = s.mLocalFlag := by
  cases accepted <;> rfl

@[simp] theorem giveBack_mBufferCount (s : GrallocMemory) (accepted : Bool) (i : Nat) :
    (s.giveBack accepted i).mBufferCount = s.mBufferCount := by
  cases accepted <;> rfl

@[simp] theorem giveBack_mMin (s : GrallocMemory) (accepted : Bool) (i : Nat) :
    (s.giveBack accepted i).mMinUndequeuedBuffers = s.mMinUndequeuedBuffers := by
  cases accepted <;> rfl

@[simp] theorem giveBack_mWindow (s : GrallocMemory) (accepted : Bool) (i : Nat) :
    (s.giveBack accepted i).mWindow = s.mWindow := by
  cases accepted <;> rfl

@[simp] theorem cancelOwned_mBufferHandle (s : GrallocMemory) (accepted : Nat → Bool) (i : Nat) :
    (s.cancelOwned accepted i).mBufferHandle = s.mBufferHandle := by
  unfold cancelOwned setFlag
  by_cases hflag : s.mLocalFlag i ≠ .notOwned
  · rw [if_pos hflag]
    exact giveBack_mBufferHandle s _ i
  · rw [if_neg hflag]

@[simp] theorem cancelOwned_mWindow (s : GrallocMemory) (accepted : Nat → Bool) (i : Nat) :
    (s.cancelOwned accepted i).mWindow = s.mWindow := by
  unfold cancelOwned setFlag
  by_cases hflag : s.mLocalFlag i ≠ .notOwned
  · rw [if_pos hflag]
    exact giveBack_mWindow s _ i
  · rw [if_neg hflag]

@[simp] theorem cancelOwned_mLocalFlag (s : GrallocMemory) (accepted : Nat → Bool) (i : Nat) :
    (s.cancelOwned accepted i).mLocalFlag = Function.update s.mLocalFlag i .notOwned := by
  unfold cancelOwned setFlag
  by_cases hflag : s.mLocalFlag i ≠ .notOwned
  · rw [if_pos hflag, giveBack_mLocalFlag]
  · rw [if_neg hflag]

/-- Each handle that is lent has a slot, no slots share a handle, and the flags are right. While a
buffer is held, the window has only others of the slots. -/
structure Sound (s : GrallocMemory) : Prop where
  flagged : s.Flagged
  distinct : s.window.Distinct
  handles : ∀ i < s.mBufferCount, ∀ j < s.mBufferCount, ∀ handle,
    s.mBufferHandle i = some handle → s.mBufferHandle j = some handle → i = j
  lent : ∀ handle ∈ s.window.lent, ∃ i < s.mBufferCount, s.mBufferHandle i = some handle
  free : s.window.lent ≠ [] →
    ∀ handle ∈ s.window.free, ∃ i < s.mBufferCount, s.mBufferHandle i = some handle

theorem Sound.new (window : Bool) : Sound { mWindow := window } where
  flagged i := by
    simp
  distinct := List.nodup_nil
  handles i hi := absurd hi (Nat.not_lt_zero i)
  lent := nofun
  free h := absurd rfl h

theorem Sound.none_owned (h : s.Sound) (hlent : s.window.lent = []) (i : Nat) :
    s.mLocalFlag i = .notOwned := by
  cases hflag : s.mLocalFlag i with
  | notOwned => rfl
  | owned =>
    obtain ⟨-, handle, -, hmem⟩ := (h.flagged i).mp hflag
    simp_all

theorem Sound.setFlag_giveBack (h : s.Sound) (hflag : s.mLocalFlag i = .owned) :
    ((s.giveBack true i).setFlag i .notOwned).Sound ∧
      ∀ handle ∈ ((s.giveBack true i).setFlag i .notOwned).window.free,
        ∃ j < s.mBufferCount, s.mBufferHandle j = some handle := by
  obtain ⟨hi, shown, hshown, hlent⟩ := (h.flagged i).mp hflag
  have hfree := h.free (List.ne_nil_of_mem hlent)
  have hwindow : (s.giveBack true i).window = s.window.giveBack shown := by
    rw [giveBack_window, accepted?, if_pos rfl, hshown]
    rfl
  have hknown : ∀ handle ∈ (s.window.giveBack shown).free,
      ∃ j < s.mBufferCount, s.mBufferHandle j = some handle := by
    intro handle hmem
    rcases List.mem_append.mp hmem with hold | hnew
    · exact hfree handle hold
    · rw [List.mem_singleton.mp hnew]
      exact ⟨i, hi, hshown⟩
  have hmem : ∀ handle, handle ∈ (s.window.giveBack shown).lent ↔
      handle ≠ shown ∧ handle ∈ s.window.lent := fun handle =>
    h.distinct.lent_nodup.mem_erase_iff
  refine ⟨⟨fun j => ?_, ?_, ?_, ?_, ?_⟩, ?_⟩
  · show Function.update (s.giveBack true i).mLocalFlag i .notOwned j = _ ↔
      j < (s.giveBack true i).mBufferCount ∧ ∃ handle,
        (s.giveBack true i).mBufferHandle j = some handle ∧
          handle ∈ (s.giveBack true i).window.lent
    rw [hwindow, giveBack_mLocalFlag, giveBack_mBufferCount, giveBack_mBufferHandle]
    by_cases hj : j = i
    · subst hj
      rw [Function.update_self]
      refine iff_of_false nofun ?_
      simp_all
    · rw [Function.update_of_ne hj, h.flagged j]
      constructor
      · rintro ⟨hlt, handle, hhandle, hheld⟩
        refine ⟨hlt, handle, hhandle, (hmem handle).mpr ⟨?_, hheld⟩⟩
        rintro rfl
        exact hj (h.handles j hlt i hi handle hhandle hshown)
      · rintro ⟨hlt, handle, hhandle, hheld⟩
        exact ⟨hlt, handle, hhandle, ((hmem handle).mp hheld).2⟩
  · show (s.giveBack true i).window.Distinct
    rw [hwindow]
    exact h.distinct.giveBack hlent
  · show ∀ j < (s.giveBack true i).mBufferCount, _
    exact h.handles
  · show ∀ handle ∈ (s.giveBack true i).window.lent, ∃ j < (s.giveBack true i).mBufferCount, _
    rw [hwindow, giveBack_mBufferCount]
    exact fun handle hheld => h.lent handle ((hmem handle).mp hheld).2
  · show _ → ∀ handle ∈ (s.giveBack true i).window.free, ∃ j < (s.giveBack true i).mBufferCount, _
    rw [hwindow, giveBack_mBufferCount]
    exact fun _ => hknown
  · show ∀ handle ∈ (s.giveBack true i).window.free, _
    rw [hwindow]
    exact hknown

theorem Sound.dequeue (h : s.Sound) {choice handle : Nat} {window : Lender Nat}
    (hknown : ∀ handle ∈ s.window.free, ∃ j < s.mBufferCount, s.mBufferHandle j = some handle)
    (hlend : s.window.lend choice = some (handle, window)) :
    ∃ j, (List.range s.mBufferCount).find? (fun i => s.mBufferHandle i = some handle) = some j ∧
      (setFlag { s with window := window } j .owned).Sound := by
  obtain ⟨hmem, hwindow⟩ := Lender.lend_spec hlend
  obtain ⟨k, hk, hhandle⟩ := hknown handle hmem
  obtain ⟨j, hfind⟩ : ∃ j, (List.range s.mBufferCount).find?
      (fun i => s.mBufferHandle i = some handle) = some j := by
    apply Option.isSome_iff_exists.mp
    simp_all
  have hj : j < s.mBufferCount := List.mem_range.mp (List.mem_of_find?_eq_some hfind)
  have hjhandle : s.mBufferHandle j = some handle := by
    simp_all
  have hlent : window.lent = s.window.lent ++ [handle] := by rw [hwindow]
  refine ⟨j, hfind, ⟨fun l => ?_, h.distinct.lend hlend, h.handles, ?_, ?_⟩⟩
  · show Function.update s.mLocalFlag j .owned l = .owned ↔
      l < s.mBufferCount ∧ ∃ x, s.mBufferHandle l = some x ∧ x ∈ window.lent
    rw [hlent]
    by_cases hl : l = j
    · simp [hl, hj, hjhandle]
    · rw [Function.update_of_ne hl, h.flagged l]
      constructor
      · rintro ⟨hlt, x, hx, hheld⟩
        exact ⟨hlt, x, hx, List.mem_append_left _ hheld⟩
      · rintro ⟨hlt, x, hx, hheld⟩
        refine ⟨hlt, x, hx, (List.mem_append.mp hheld).resolve_right fun hnew => hl ?_⟩
        rw [List.mem_singleton.mp hnew] at hx
        exact h.handles l hlt j hj handle hx hjhandle
  · show ∀ x ∈ window.lent, _
    rw [hlent]
    intro x hx
    rcases List.mem_append.mp hx with hold | hnew
    · exact h.lent x hold
    · rw [List.mem_singleton.mp hnew]
      exact ⟨j, hj, hjhandle⟩
  · intro _ x hx
    rw [hwindow] at hx
    exact hknown x (List.mem_of_mem_erase hx)

theorem Sound.displayBuffer (h : s.Sound) (index : Nat) (enqueue : Bool) (dequeue : Option Nat) :
    (s.displayBuffer index enqueue dequeue).2.Sound := by
  unfold GrallocMemory.displayBuffer
  by_cases hflag : s.mLocalFlag index = .notOwned
  · rw [if_pos hflag]
    exact h
  rw [if_neg hflag]
  have howned : s.mLocalFlag index = .owned := by
    cases hf : s.mLocalFlag index with
    | notOwned => exact absurd hf hflag
    | owned => rfl
  obtain ⟨t, ht⟩ : ∃ t, t =
      if enqueue then (s.giveBack true index).setFlag index .notOwned else s := ⟨_, rfl⟩
  have htsound : t.Sound ∧ ∀ handle ∈ t.window.free,
      ∃ j < t.mBufferCount, t.mBufferHandle j = some handle := by
    rw [ht]
    cases enqueue with
    | false =>
      obtain ⟨-, shown, -, hlent⟩ := (h.flagged index).mp howned
      exact ⟨h, h.free (List.ne_nil_of_mem hlent)⟩
    | true => exact h.setFlag_giveBack howned
  simp only [← ht]
  cases hlend : dequeue.bind t.window.lend with
  | none => exact htsound.1
  | some pair =>
    obtain ⟨choice, -, hlend⟩ := Option.bind_eq_some_iff.mp hlend
    obtain ⟨j, hfind, hsound⟩ := htsound.1.dequeue htsound.2 hlend
    simp only [hfind]
    exact hsound

theorem deallocateSlot_window (accepted : Nat → Bool) (s : GrallocMemory) (i : Nat) :
    (s.deallocateSlot accepted i).window =
      (s.owned? (fun i => s.mWindow && accepted i) i).elim s.window s.window.giveBack :=
  cancelOwned_window _ _ i

def givenBack (s : GrallocMemory) (accepted : Nat → Bool) : List Nat :=
  (List.range s.mBufferCount).filterMap (s.owned? fun i => s.mWindow && accepted i)

theorem deallocate_window (s : GrallocMemory) (accepted : Nat → Bool) :
    (s.deallocate accepted).window = (s.givenBack accepted).foldl Lender.giveBack s.window := by
  apply foldl_window (deallocateSlot accepted) (fun s => s.owned? fun i => s.mWindow && accepted i)
    (deallocateSlot_window accepted) _ List.nodup_range
  intro s i j hne
  have hflag : (s.deallocateSlot accepted i).mLocalFlag j = s.mLocalFlag j := by
    rw [deallocateSlot, cancelOwned_mLocalFlag, Function.update_of_ne hne]
    rfl
  have hwindow : (s.deallocateSlot accepted i).mWindow = s.mWindow := cancelOwned_mWindow _ _ i
  have hhandle : (s.deallocateSlot accepted i).mBufferHandle = s.mBufferHandle :=
    cancelOwned_mBufferHandle _ _ i
  rw [owned?, owned?, accepted?, accepted?, hflag, hwindow, hhandle]

theorem owned?_eq_some {accepted : Nat → Bool} {handle : Nat} :
    s.owned? accepted i = some handle ↔
      s.mLocalFlag i = .owned ∧ accepted i = true ∧ s.mBufferHandle i = some handle := by
  unfold owned? accepted?
  cases s.mLocalFlag i <;> cases accepted i <;> simp

theorem mem_givenBack {accepted : Nat → Bool} {handle : Nat} :
    handle ∈ s.givenBack accepted ↔ ∃ i < s.mBufferCount, s.mLocalFlag i = .owned ∧
      (s.mWindow = true ∧ accepted i = true) ∧ s.mBufferHandle i = some handle := by
  simp only [givenBack, List.mem_filterMap, List.mem_range, owned?_eq_some, Bool.and_eq_true]

theorem Sound.givenBack_nodup (h : s.Sound) (accepted : Nat → Bool) :
    (s.givenBack accepted).Nodup := by
  apply List.Nodup.filterMap _ List.nodup_range
  intro i j handle hi hj
  obtain ⟨hiflag, -, hihandle⟩ := owned?_eq_some.mp hi
  obtain ⟨hjflag, -, hjhandle⟩ := owned?_eq_some.mp hj
  exact h.handles i ((h.flagged i).mp hiflag).1 j ((h.flagged j).mp hjflag).1 handle hihandle
    hjhandle

theorem Sound.givenBack_subset (h : s.Sound) {accepted : Nat → Bool} :
    ∀ handle ∈ s.givenBack accepted, handle ∈ s.window.lent := by
  intro handle hmem
  obtain ⟨i, -, hflag, -, hhandle⟩ := mem_givenBack.mp hmem
  obtain ⟨-, held, hheld, hlent⟩ := (h.flagged i).mp hflag
  simp_all

theorem Sound.lent_deallocate (h : s.Sound) (accepted : Nat → Bool) :
    (s.deallocate accepted).window.lent = [] ↔ s.Cond (.deallocate accepted) := by
  have hmem : ∀ handle, handle ∈ (s.deallocate accepted).window.lent ↔
      handle ∈ s.window.lent ∧ handle ∉ s.givenBack accepted := by
    intro handle
    rw [deallocate_window]
    exact Lender.mem_foldl_giveBack h.distinct.lent_nodup
  constructor
  · intro hnil i hi hflag
    obtain ⟨-, handle, hhandle, hlent⟩ := (h.flagged i).mp hflag
    have hgiven : handle ∈ s.givenBack accepted := by
      simp_all
    obtain ⟨j, hj, -, haccepted, hjhandle⟩ := mem_givenBack.mp hgiven
    rwa [← h.handles j hj i hi handle hjhandle hhandle]
  · intro hc
    apply List.eq_nil_iff_forall_not_mem.mpr
    intro handle hstays
    obtain ⟨hlent, hnot⟩ := (hmem handle).mp hstays
    obtain ⟨i, hi, hhandle⟩ := h.lent handle hlent
    have hflag : s.mLocalFlag i = .owned := (h.flagged i).mpr ⟨hi, handle, hhandle, hlent⟩
    exact hnot (mem_givenBack.mpr ⟨i, hi, hflag, hc i hi hflag, hhandle⟩)

theorem deallocate_mLocalFlag (h : s.Flagged) (accepted : Nat → Bool) (i : Nat) :
    (s.deallocate accepted).mLocalFlag i = .notOwned := by
  have hfold := foldl_update (deallocateSlot accepted) mLocalFlag .notOwned
    (fun s i => by rw [deallocateSlot, cancelOwned_mLocalFlag, Function.update_self])
    (fun s i j hne => by
      rw [deallocateSlot, cancelOwned_mLocalFlag, Function.update_of_ne hne]
      rfl) (List.range s.mBufferCount) s i
  show ((List.range s.mBufferCount).foldl (deallocateSlot accepted) s).mLocalFlag i = _
  rw [hfold]
  by_cases hi : i < s.mBufferCount
  · rw [if_pos (List.mem_range.mpr hi)]
  · rw [if_neg fun hmem => hi (List.mem_range.mp hmem)]
    cases hflag : s.mLocalFlag i with
    | notOwned => rfl
    | owned => exact absurd ((h i).mp hflag).1 hi

theorem Sound.flagged_deallocate (h : s.Sound) (accepted : Nat → Bool) :
    (s.deallocate accepted).Flagged := by
  intro i
  rw [deallocate_mLocalFlag h.flagged]
  refine iff_of_false nofun ?_
  rintro ⟨hi, -⟩
  exact absurd hi (Nat.not_lt_zero i)

theorem Sound.returned_deallocate (h : s.Sound) {accepted : Nat → Bool}
    (hc : s.Cond (.deallocate accepted)) : Returned s (s.deallocate accepted) where
  none := (h.lent_deallocate accepted).mpr hc
  once := by
    refine ⟨s.givenBack accepted, ?_, ?_⟩
    · rw [deallocate_window, Lender.foldl_giveBack_returned]
    · apply (List.perm_ext_iff_of_nodup (h.givenBack_nodup accepted) h.distinct.lent_nodup).mpr
      intro handle
      refine ⟨h.givenBack_subset handle, fun hlent => ?_⟩
      obtain ⟨i, hi, hhandle⟩ := h.lent handle hlent
      have hflag : s.mLocalFlag i = .owned := (h.flagged i).mpr ⟨hi, handle, hhandle, hlent⟩
      exact mem_givenBack.mpr ⟨i, hi, hflag, hc i hi hflag, hhandle⟩

theorem Sound.deallocate (h : s.Sound) {accepted : Nat → Bool}
    (hc : s.Cond (.deallocate accepted)) : (s.deallocate accepted).Sound where
  flagged := h.flagged_deallocate accepted
  distinct := by
    rw [deallocate_window]
    exact h.distinct.foldl_giveBack (h.givenBack_nodup accepted) h.givenBack_subset
  handles i hi := absurd hi (Nat.not_lt_zero i)
  lent := by
    rw [(h.lent_deallocate accepted).mpr hc]
    exact nofun
  free hne := absurd ((h.lent_deallocate accepted).mpr hc) hne

end GrallocMemory

end EtherDevice.Hal1.WindowBuffers
