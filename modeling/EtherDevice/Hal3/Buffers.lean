import EtherDevice.Hal3.Runs
import Mathlib.Data.List.Perm.Basic
import Mathlib.Data.List.Nodup

/-!
# Buffers of the camera HAL

The buffers that the bookkeeping holds, and those that it has returned, as lists of frame
numbers and handles. A buffer that a result carries leaves the map of pending buffers.
-/

namespace EtherDevice.Hal3

variable {h : Hwi}

def PendingRequestInfo.stored (i : PendingRequestInfo) : List StreamBuffer :=
  i.buffers.filterMap RequestedBufferInfo.buffer

def PendingRequestInfo.storedKeys (i : PendingRequestInfo) : List (Nat × Nat) :=
  i.stored.map fun b => (i.frameNumber, b.buffer)

def Hwi.storedKeys (h : Hwi) : List (Nat × Nat) :=
  h.pendingRequestsList.flatMap PendingRequestInfo.storedKeys

/-- The buffers of a result, with the frame number of the result. -/
def Event.returned : Event → List (Nat × Nat)
  | .processCaptureResult r => r.outputBuffers.map fun b => (r.frameNumber, b.buffer)
  | _ => []

def Hwi.returned (h : Hwi) : List (Nat × Nat) := h.trace.flatMap Event.returned

@[simp] theorem returned_emit (h : Hwi) (events : List Event) :
    (h.emit events).returned = h.returned ++ events.flatMap Event.returned := by
  simp [Hwi.returned, Hwi.emit]

theorem pendingKeys_takeBuffer {x : Nat × Nat} (hnd : (h.pendingKeys.map Prod.snd).Nodup)
    (hx : x ∈ h.pendingKeys) : h.pendingKeys.Perm (x :: (h.takeBuffer x.2).pendingKeys) := by
  obtain ⟨k, hk, rfl⟩ := List.mem_map.mp hx
  have hany : (h.pendingBuffersMap.pendingBufferList.any fun k' =>
      decide (k'.buffer = k.key.2)) = true :=
    List.any_eq_true.mpr ⟨k, hk, by simp [PendingBufferInfo.key]⟩
  unfold Hwi.takeBuffer
  rw [if_pos hany]
  obtain ⟨k', l₁, l₂, -, hp, hl, herase⟩ :=
    List.exists_of_eraseP hk (p := fun k' => decide (k'.buffer = k.key.2))
      (by simp [PendingBufferInfo.key])
  unfold Hwi.pendingKeys at *
  simp only [herase]
  rw [hl] at hnd hk ⊢
  have hkk : k' = k := by
    have hsplit : ((l₁ ++ k' :: l₂).map fun k => k.buffer).Nodup := by
      simpa [List.map_map, Function.comp_def, PendingBufferInfo.key] using hnd
    have heq : k'.buffer = k.buffer := of_decide_eq_true hp
    exact List.inj_on_of_nodup_map hsplit (by simp) hk heq
  simp [hkk]

theorem pendingKeys_takeBuffer_sublist (h : Hwi) (buffer : Nat) :
    (h.takeBuffer buffer).pendingKeys.Sublist h.pendingKeys := by
  unfold Hwi.takeBuffer
  split
  · exact List.eraseP_sublist.map _
  · exact .refl _

theorem mem_pendingKeys_takeBuffer {x : Nat × Nat} (hx : x ∈ h.pendingKeys) {buffer : Nat}
    (hne : x.2 ≠ buffer) : x ∈ (h.takeBuffer buffer).pendingKeys := by
  unfold Hwi.takeBuffer
  split
  · obtain ⟨k, hk, rfl⟩ := List.mem_map.mp hx
    apply List.mem_map_of_mem
    refine (List.mem_eraseP_of_neg ?_).mpr hk
    simpa using show k.buffer ≠ buffer from hne
  · exact hx

theorem takeBuffer_fields (h : Hwi) (buffer : Nat) :
    h.takeBuffer buffer =
      { h with pendingBuffersMap := (h.takeBuffer buffer).pendingBuffersMap } := by
  unfold Hwi.takeBuffer
  split
  · rfl
  · rfl

theorem markDropped_eq (h : Hwi) (n : Nat) (b : StreamBuffer) :
    ∃ b' drops, h.markDropped n b = (b', { h with pendingFrameDropList := drops }) ∧
      b'.buffer = b.buffer := by
  unfold Hwi.markDropped
  split
  · exact ⟨_, _, rfl, rfl⟩
  · exact ⟨_, _, rfl, rfl⟩

theorem returnBuffer_eq (h : Hwi) (n : Nat) (b : StreamBuffer) :
    ∃ b' drops, h.returnBuffer n b =
        (b', { h with
          pendingBuffersMap := (h.takeBuffer b.buffer).pendingBuffersMap
          pendingFrameDropList := drops }) ∧ b'.buffer = b.buffer := by
  obtain ⟨b', drops, hmark, hbuf⟩ := markDropped_eq h n b
  refine ⟨b', drops, ?_, hbuf⟩
  have htake : ({ h with pendingFrameDropList := drops } : Hwi).takeBuffer b.buffer =
      { h.takeBuffer b.buffer with pendingFrameDropList := drops } := by
    unfold Hwi.takeBuffer
    split <;> rfl
  show ((h.markDropped n b).1, (h.markDropped n b).2.takeBuffer (h.markDropped n b).1.buffer) = _
  rw [hmark, hbuf, htake, takeBuffer_fields]

theorem returnBuffers_eq (n : Nat) (js : List RequestedBufferInfo) (h : Hwi) :
    ∃ bs buffersMap drops, Hwi.returnBuffers n js h =
        (bs, { h with pendingBuffersMap := buffersMap, pendingFrameDropList := drops }) ∧
      bs.map StreamBuffer.buffer =
        (js.filterMap RequestedBufferInfo.buffer).map StreamBuffer.buffer := by
  induction js generalizing h with
  | nil => exact ⟨_, _, _, rfl, rfl⟩
  | cons j js ih =>
    unfold Hwi.returnBuffers
    cases hj : j.buffer with
    | none =>
      simp_all
    | some b =>
      obtain ⟨b', drops, hfirst, hbuf⟩ := returnBuffer_eq h n b
      obtain ⟨bs, buffersMap, drops', hrest, hbufs⟩ := ih (h.returnBuffer n b).2
      simp_all

theorem returnBuffers_cons {j : RequestedBufferInfo} {b : StreamBuffer} (hj : j.buffer = some b)
    (n : Nat) (js : List RequestedBufferInfo) (h : Hwi) :
    ∃ h₁ : Hwi, h₁.pendingBuffersMap = (h.takeBuffer b.buffer).pendingBuffersMap ∧
      (Hwi.returnBuffers n (j :: js) h).2 = (Hwi.returnBuffers n js h₁).2 := by
  obtain ⟨b', drops, hfirst, -⟩ := returnBuffer_eq h n b
  refine ⟨(h.returnBuffer n b).2, by rw [hfirst], ?_⟩
  rw [Hwi.returnBuffers]
  simp only [hj]

theorem returnBuffers_mem (n : Nat) (js : List RequestedBufferInfo) (h : Hwi) :
    (Hwi.returnBuffers n js h).2.pendingKeys.Sublist h.pendingKeys ∧
      ∀ x ∈ h.pendingKeys, (∀ b ∈ js.filterMap RequestedBufferInfo.buffer, x.2 ≠ b.buffer) →
        x ∈ (Hwi.returnBuffers n js h).2.pendingKeys := by
  induction js generalizing h with
  | nil => exact ⟨.refl _, fun x hx _ => hx⟩
  | cons j js ih =>
    cases hj : j.buffer with
    | none =>
      unfold Hwi.returnBuffers
      simp only [hj, List.filterMap_cons]
      exact ih h
    | some b =>
      obtain ⟨h₁, hmap, hrest⟩ := returnBuffers_cons hj n js h
      have hkeys : h₁.pendingKeys = (h.takeBuffer b.buffer).pendingKeys := by
        unfold Hwi.pendingKeys
        rw [hmap]
      obtain ⟨hsub, hmem⟩ := ih h₁
      rw [hkeys] at hsub hmem
      rw [hrest]
      constructor
      · exact hsub.trans (pendingKeys_takeBuffer_sublist h b.buffer)
      · intro x hx hne
        simp only [List.filterMap_cons, hj, List.forall_mem_cons] at hne
        exact hmem x (mem_pendingKeys_takeBuffer hx hne.1) hne.2

theorem returnBuffers_keys {rest : List (Nat × Nat)} (f n : Nat) (js : List RequestedBufferInfo)
    (hnd : (h.pendingKeys.map Prod.snd).Nodup)
    (hkeys : h.pendingKeys.Perm
      ((js.filterMap RequestedBufferInfo.buffer).map (fun b => (f, b.buffer)) ++ rest)) :
    (Hwi.returnBuffers n js h).2.pendingKeys.Perm rest := by
  induction js generalizing h with
  | nil => exact hkeys
  | cons j js ih =>
    cases hj : j.buffer with
    | none =>
      simp_all [Hwi.returnBuffers]
    | some b =>
      simp only [List.filterMap_cons, hj, List.map_cons, List.cons_append] at hkeys
      have hmem : (f, b.buffer) ∈ h.pendingKeys := hkeys.mem_iff.mpr List.mem_cons_self
      have htake := pendingKeys_takeBuffer hnd hmem
      obtain ⟨h₁, hmap, hrest⟩ := returnBuffers_cons hj n js h
      have hsame : h₁.pendingKeys = (h.takeBuffer b.buffer).pendingKeys := by
        unfold Hwi.pendingKeys
        rw [hmap]
      rw [hrest]
      apply ih
      · rw [hsame]
        have hnd' := (htake.map Prod.snd).nodup_iff.mp hnd
        exact (List.nodup_cons.mp hnd').2
      · rw [hsame]
        exact (List.perm_cons _).mp (htake.symm.trans hkeys)

end EtherDevice.Hal3
