import Mathlib
import EtherDevice.Hal3.Bookkeeping

/-!
# Metadata buffers of the camera HAL

`handleMetadataWithLock` gives a metadata buffer back early where the metadata is invalid or only
marks the start of a frame. Otherwise the buffer leaves in the loop over the pending requests, in
the round of the request whose frame number the metadata has. `reached` are the rounds of this
loop.
-/

namespace EtherDevice.Hal3

variable {h : Hwi} {metadataBuf n next : Nat}

def Event.disposes (metadataBuf : Nat) : Event → Bool
  | .bufDone b => b = metadataBuf
  | .queueReprocMetadata b => b = metadataBuf
  | _ => false

/-- How often the metadata buffer was disposed of. -/
def Hwi.disposals (h : Hwi) (metadataBuf : Nat) : Nat :=
  h.trace.countP (Event.disposes metadataBuf)

/-- The frame numbers of the requests that metadata of frame `n` reaches. After each round a cached
reprocess result of frame `next` leaves with its request. There is no value where the loop goes on
at a request that left so. -/
def reached (n next : Nat) : Nat → List Nat → Option (List Nat)
  | _, [] => some []
  | cached, k :: ks =>
    if k ≤ n then
      if cached = 0 then (reached n next 0 ks).map (k :: ·)
      else if ks.head? = some next then none
      else (reached n next (cached - 1) (ks.erase next)).map (k :: ·)
    else some []
termination_by _ ks => ks.length
decreasing_by
  · simp
  · exact Nat.lt_succ_of_le List.length_erase_le

/-- The metadata is invalid or marks the start of a frame, or the requests that it reaches have its
frame number once. -/
def Hwi.DisposesOnce (h : Hwi) : Option Metadata → Prop
  | none => True
  | some md => md.frameNumberValid = false ∨
    ∃ ks, reached md.frameNumber ((md.frameNumber + 1) % 2 ^ 32)
        (h.cachedFor ((md.frameNumber + 1) % 2 ^ 32)).length
        (h.pendingRequestsList.map PendingRequestInfo.frameNumber) = some ks ∧
      ks.count md.frameNumber = 1

theorem reached_none (n next cached : Nat) : reached n next cached [] = some [] := by
  rw [reached]

theorem disposals_append {h' : Hwi} {events : List Event} (htrace : h'.trace = h.trace ++ events) :
    h'.disposals metadataBuf =
      h.disposals metadataBuf + events.countP (Event.disposes metadataBuf) := by
  simp_all [Hwi.disposals]

theorem disposals_completeRequest (h : Hwi) (md : Metadata) (metadataBuf : Nat)
    {i : PendingRequestInfo} (hle : i.frameNumber ≤ md.frameNumber) :
    (h.completeRequest md metadataBuf i).disposals metadataBuf =
      h.disposals metadataBuf + if i.frameNumber = md.frameNumber then 1 else 0 := by
  obtain ⟨bs, hround, -⟩ := completeRequest_eq h md metadataBuf i
  have htrace := congrArg Hwi.trace hround
  rw [disposals_append htrace]
  unfold completionEvents Hwi.disposeMetadata
  have hdropped : ((Hwi.droppedStreams md i).map fun stream => Event.notify
      (.errorBuffer i.frameNumber stream)).countP (Event.disposes metadataBuf) = 0 := by
    simp [Event.disposes]
  by_cases hframe : i.frameNumber = md.frameNumber
  · rw [if_neg (by omega), if_pos hframe]
    split <;> simp [hdropped, Event.disposes]
  · rw [if_pos (by omega), if_neg hframe]
    simp [hdropped, Event.disposes]

theorem frames_handlePendingReprocResults (hcached : h.cachedFor next ≠ []) :
    (h.handlePendingReprocResults next).pendingRequestsList.map PendingRequestInfo.frameNumber =
      (h.pendingRequestsList.map PendingRequestInfo.frameNumber).erase next := by
  have hmem : ∃ c ∈ h.pendingReprocessResultList, c.frameNumber = next := by
    by_contra hnone
    push Not at hnone
    exact hcached (cachedFor_eq_nil.mpr hnone)
  obtain ⟨c, hc, hframe⟩ := hmem
  cases hfindC : h.pendingReprocessResultList.find? (fun j => decide (j.frameNumber = next)) with
  | none => exact absurd hframe (by simpa using List.find?_eq_none.mp hfindC c hc)
  | some c =>
    unfold Hwi.handlePendingReprocResults
    rw [hfindC]
    dsimp only
    have herase : ∀ P : List PendingRequestInfo,
        (P.eraseP fun i => decide (i.frameNumber = next)).map PendingRequestInfo.frameNumber =
          (P.map PendingRequestInfo.frameNumber).erase next := by
      intro P
      induction P with
      | nil => rfl
      | cons i P ih =>
        by_cases hi : i.frameNumber = next
        · simp [hi]
        · simp [hi, ih]
    cases hfind : (h.emit [.notify c.notifyMsg]).findRequest next with
    | some k => exact herase h.pendingRequestsList
    | none =>
      have hnone : next ∉ h.pendingRequestsList.map PendingRequestInfo.frameNumber := by
        rintro hin
        obtain ⟨i, hi, hnext⟩ := List.mem_map.mp hin
        exact absurd hnext (by simpa using List.find?_eq_none.mp hfind i hi)
      rw [List.erase_of_not_mem hnone]
      rfl

theorem cachedFor_handlePendingReprocResults (h : Hwi) (next : Nat) :
    ((h.handlePendingReprocResults next).cachedFor next).length =
      (h.cachedFor next).length - 1 := by
  have herase : ∀ C : List PendingReprocessResult,
      ((C.eraseP fun j => decide (j.frameNumber = next)).filter
          fun c => c.frameNumber = next).length =
        (C.filter fun c => c.frameNumber = next).length - 1 := by
    intro C
    induction C with
    | nil => rfl
    | cons c C ih =>
      by_cases hc : c.frameNumber = next
      · simp [hc]
      · simp [hc, ih]
  have hlist : (h.handlePendingReprocResults next).pendingReprocessResultList =
      h.pendingReprocessResultList.eraseP fun j => decide (j.frameNumber = next) := by
    unfold Hwi.handlePendingReprocResults
    split
    · simp_all [List.eraseP_of_forall_not]
    · dsimp only
      split <;> rfl
  unfold Hwi.cachedFor
  rw [hlist, herase]

theorem disposals_handlePendingReprocResults (h : Hwi) (next metadataBuf : Nat) :
    (h.handlePendingReprocResults next).disposals metadataBuf = h.disposals metadataBuf := by
  unfold Hwi.handlePendingReprocResults
  split
  · rfl
  · dsimp only
    split <;> simp [Hwi.disposals, Hwi.emit, Hwi.eraseRequest, Event.disposes]

theorem danglingNext_iff : h.DanglingNext next ↔ h.cachedFor next ≠ [] ∧
    (h.pendingRequestsList.map PendingRequestInfo.frameNumber).head? = some next := by
  simp [Hwi.DanglingNext, cachedFor_eq_nil, Option.any_eq_true]

theorem disposals_completeRequests (md : Metadata) (metadataBuf : Nat) (fuel : Nat) (h : Hwi)
    (hnext : next = (md.frameNumber + 1) % 2 ^ 32) (hfuel : h.pendingRequestsList.length ≤ fuel) :
    (Hwi.completeRequests metadataBuf md fuel h).map (fun h' => h'.disposals metadataBuf) =
      (reached md.frameNumber next (h.cachedFor next).length
        (h.pendingRequestsList.map PendingRequestInfo.frameNumber)).map
          fun ks => h.disposals metadataBuf + ks.count md.frameNumber := by
  induction fuel generalizing h with
  | zero =>
    have hnil : h.pendingRequestsList = [] := List.eq_nil_of_length_eq_zero (by omega)
    rw [hnil, List.map_nil, reached_none]
    rfl
  | succ fuel ih =>
    unfold Hwi.completeRequests
    cases hP : h.pendingRequestsList with
    | nil =>
      rw [List.map_nil, reached_none]
      rfl
    | cons i P =>
      dsimp only
      rw [List.map_cons, reached, ← hnext]
      by_cases hle : i.frameNumber ≤ md.frameNumber
      · rw [if_pos hle, if_pos hle]
        obtain ⟨bs, hround, -⟩ := completeRequest_eq h md metadataBuf i
        have hlist : (h.completeRequest md metadataBuf i).pendingRequestsList = P := by
          rw [congrArg Hwi.pendingRequestsList hround]
          exact congrArg List.tail hP
        have hcached : (h.completeRequest md metadataBuf i).cachedFor next = h.cachedFor next :=
          cachedFor_congr (congrArg Hwi.pendingReprocessResultList hround) next
        have hcount := disposals_completeRequest h md metadataBuf hle
        generalize h.completeRequest md metadataBuf i = h₁ at hlist hcached hcount
        have hlen : P.length ≤ fuel := by
          simp_all
        -- The count of this round goes to the front.
        have hadd : ∀ o : Option (List Nat),
            (o.map fun ks => h₁.disposals metadataBuf + ks.count md.frameNumber) =
              (o.map (i.frameNumber :: ·)).map
                fun ks => h.disposals metadataBuf + ks.count md.frameNumber := by
          intro o
          rw [Option.map_map]
          congr 1
          funext ks
          simp only [Function.comp_apply, hcount, List.count_cons, beq_iff_eq]
          omega
        rw [← hcached]
        by_cases hnone : h₁.cachedFor next = []
        · simp_all [not_danglingNext, handlePendingReprocResults_none]
        · have hpos : (h₁.cachedFor next).length ≠ 0 := fun hzero =>
            hnone (List.eq_nil_of_length_eq_zero hzero)
          rw [if_neg hpos]
          by_cases hhead : (P.map PendingRequestInfo.frameNumber).head? = some next
          · rw [if_pos (danglingNext_iff.mpr ⟨hnone, hlist ▸ hhead⟩), if_pos hhead]
            rfl
          · rw [if_neg fun hd => hhead (hlist ▸ (danglingNext_iff.mp hd).2), if_neg hhead]
            have hframes := frames_handlePendingReprocResults hnone
            have hshort : (h₁.handlePendingReprocResults next).pendingRequestsList.length ≤
                fuel := by
              grind [List.length_erase_le]
            simp [cachedFor_handlePendingReprocResults, disposals_handlePendingReprocResults, ih,
              hshort, hframes, hlist, hadd]
      simp [hle]

theorem urgent_disposals (h : Hwi) (md : Metadata) (metadataBuf : Nat) :
    (h.handleUrgentMetadata md).disposals metadataBuf = h.disposals metadataBuf := by
  unfold Hwi.handleUrgentMetadata
  dsimp only
  split
  · rfl
  · simp [Hwi.disposals, Hwi.emit, Event.disposes]

/-- The buffer is disposed of once if and only if the loop reaches its frame once, or is not
entered. -/
theorem handleMetadataWithLock_disposes (h : Hwi) (metadataBuf : Nat) (md : Option Metadata) :
    (∃ h', h.handleMetadataWithLock metadataBuf md = some h' ∧
        h'.disposals metadataBuf = h.disposals metadataBuf + 1) ↔ h.DisposesOnce md := by
  have hdone : ∀ h₁ : Hwi, (h₁.emit [.bufDone metadataBuf]).disposals metadataBuf =
      h₁.disposals metadataBuf + 1 := by
    intro h₁
    simp [Hwi.disposals, Hwi.emit, Event.disposes]
  cases md with
  | none => exact iff_of_true ⟨_, rfl, hdone h⟩ trivial
  | some md =>
    unfold Hwi.handleMetadataWithLock Hwi.DisposesOnce
    dsimp only
    have hurgent : ∃ h₁ : Hwi,
        (if md.urgentFrameNumberValid then h.handleUrgentMetadata md else h) = h₁ ∧
        h₁.disposals metadataBuf = h.disposals metadataBuf ∧
        h₁.pendingReprocessResultList = h.pendingReprocessResultList ∧
        h₁.pendingRequestsList.map PendingRequestInfo.frameNumber =
          h.pendingRequestsList.map PendingRequestInfo.frameNumber := by
      split
      · obtain ⟨P, events, heq, -⟩ := urgent_fields h md
        exact ⟨_, rfl, urgent_disposals h md metadataBuf, by rw [heq],
          frames_of_core (urgent_core h md)⟩
      · exact ⟨h, rfl, rfl, rfl, rfl⟩
    obtain ⟨h₁, heq, hcount, hcached, hframes⟩ := hurgent
    rw [heq]
    by_cases hvalid : md.frameNumberValid = false
    · simp [hvalid, hdone, hcount]
    · rw [if_neg hvalid, ← cachedFor_congr hcached, ← hframes]
      have hloop := disposals_completeRequests md metadataBuf h₁.pendingRequestsList.length h₁ rfl
        (Nat.le_refl _)
      rw [hcount] at hloop
      constructor
      · rintro ⟨h', hrun, hone⟩
        rw [hrun, Option.map_some, hone] at hloop
        obtain ⟨ks, hks, hcount'⟩ := Option.map_eq_some_iff.mp hloop.symm
        exact .inr ⟨ks, hks, by omega⟩
      · rintro (hinvalid | ⟨ks, hks, hone⟩)
        · exact absurd hinvalid hvalid
        simp_all

/-- A frame number that no pending request has leaves the buffer with nobody. -/
theorem not_handleMetadataWithLock_disposes : ¬ ∀ (h : Hwi) (metadataBuf : Nat)
    (md : Option Metadata), ∃ h', h.handleMetadataWithLock metadataBuf md = some h' ∧
      h'.disposals metadataBuf = h.disposals metadataBuf + 1 := by
  intro hall
  obtain ⟨h', hrun, hone⟩ := hall {} 7 (some (frameMetadata 5))
  cases hrun
  exact absurd hone (by decide)

end EtherDevice.Hal3
