import Mathlib
import EtherDevice.Hal3.BufferInv

/-!
# Every output buffer comes back once

Each requested buffer is in one result, or still held, and it is not held any more once its
callback and its metadata were handled, or after a flush (`BuffersOnce`).

Cached reprocess results break this in four ways: `flush` drops them, metadata completes
their request without them, a second result for the same request replaces the first one,
and the request that `handlePendingReprocResults` erases can be the next one of the loop
that called it. A request with two buffers of one stream breaks it too, because the first
callback fills the places of both. `Op.KeepsBuffers` excludes these.
-/

namespace EtherDevice.Hal3

open Lib

variable {s s' : Session} {h h' : Hwi}

/-- Each requested buffer was returned once, with its frame number, or is held. A held
buffer whose callback was handled waits for metadata. -/
structure BuffersOnce (s : Session) : Prop where
  requested : s.requested.Nodup
  account : s.requested.Perm (s.hwi.returned ++ s.hwi.held)
  settled : ∀ x ∈ s.hwi.held, x ∈ s.called → x.1 ∈ s.awaiting
  flushed : ∀ sentinel, (s.hwi.finishFlush sentinel).held = []

def Hwi.KeepsCached (h : Hwi) (frameNumber : Nat) : Prop :=
  h.completed frameNumber = [] ∨
    (∀ i ∈ h.completed frameNumber, h.cachedFor i.frameNumber = []) ∧
      (h.cachedFor ((frameNumber + 1) % 2 ^ 32) = [] ∨
        (h.cachedFor ((frameNumber + 1) % 2 ^ 32)).length = 1 ∧
          2 ≤ (h.completed frameNumber).length)

def Op.KeepsBuffers (s : Session) : Op → Prop
  | .metadata _ md => ∀ m, md = some m → m.frameNumberValid = true →
      s.hwi.KeepsCached m.frameNumber
  | .buffer b frameNumber _ => s.hwi.KeepsRequest b frameNumber
  | .finishFlush _ => s.hwi.pendingReprocessResultList = []
  | _ => True

def keepingSystem : System Session Op :=
  hal3System.restrict fun s op => op.Expected s ∧ op.KeepsBuffers s

theorem BufInv.buffersOnce (inv : BufInv s) : BuffersOnce s where
  requested := inv.requested
  account := inv.account
  settled x hx hcalled := by
    rcases List.mem_append.mp hx with hx | hx
    · have hparts := inv.parts.mem_iff.mp hx
      simp only [List.mem_append] at hparts
      rcases hparts with howed | hstored | hidle
      · exact absurd howed (inv.calledOnce x hcalled).1
      · obtain ⟨i, hi, hxi⟩ := List.mem_flatMap.mp hstored
        obtain ⟨b, -, rfl⟩ := List.mem_map.mp hxi
        exact inv.requests.awaiting i hi
      · exact absurd hidle (inv.calledOnce x hcalled).2
    · obtain ⟨c, hc, rfl⟩ := List.mem_map.mp hx
      obtain ⟨i, hi, heq, -⟩ := inv.cached c hc
      have hawait := inv.requests.awaiting i hi
      rwa [heq] at hawait
  flushed _ := rfl

theorem bufInv_urgent (inv : BufInv s) (md : Metadata) :
    BufInv { s with hwi := s.hwi.handleUrgentMetadata md } := by
  obtain ⟨P, events, heq, hnone⟩ := urgent_fields s.hwi md
  refine inv.congr (urgent_core s.hwi md) ?_ ?_ ?_
  · rw [heq]
  · rw [heq]
  · rw [heq]
    show List.flatMap _ (s.hwi.trace ++ events) = _
    rw [List.flatMap_append, hnone, List.append_nil]
    rfl

theorem keepsCached_core {n : Nat} (hkeep : h.KeepsCached n)
    (hP : h'.pendingRequestsList.map PendingRequestInfo.core =
      h.pendingRequestsList.map PendingRequestInfo.core)
    (hC : h'.pendingReprocessResultList = h.pendingReprocessResultList) : h'.KeepsCached n := by
  have hcached := cachedFor_congr hC
  have hcore := completed_core (n := n) hP
  have hlength : (h'.completed n).length = (h.completed n).length := by
    simpa using congrArg List.length hcore
  rcases hkeep with hnil | ⟨hpopped, hnext⟩
  · left
    simp_all
  · right
    rw [hlength, hcached]
    refine ⟨?_, hnext⟩
    refine forall_of_core (fun i => h'.cachedFor i.frameNumber = []) hcore ?_
    intro i hi
    rw [hcached]
    exact hpopped i hi

theorem bufInv_completeRequest (inv : BufInv s) {i : PendingRequestInfo}
    {P : List PendingRequestInfo} (hP : s.hwi.pendingRequestsList = i :: P)
    (hnone : s.hwi.cachedFor i.frameNumber = []) (md : Metadata) (metadataBuf : Nat) :
    BufInv { s with hwi := s.hwi.completeRequest md metadataBuf i } := by
  obtain ⟨bs, heq, hbufs, -⟩ := completeRequest_eq s.hwi md metadataBuf i
  -- what is in the map besides the stored buffers of the request
  obtain ⟨rest, hrest⟩ : ∃ rest, s.hwi.pendingKeys.Perm (i.storedKeys ++ rest) := by
    refine ⟨s.owed.map PendingBufferInfo.key ++
      (P.flatMap PendingRequestInfo.storedKeys ++ s.idle), inv.parts.trans ?_⟩
    simp [Hwi.storedKeys, List.perm_append_comm_assoc, hP]
  have hkeys := pendingKeys_completeRequest md metadataBuf inv.pendingHandles hrest
  have hleft := hrest.trans (hkeys.symm.append_left _)
  have hCeq : (s.hwi.completeRequest md metadataBuf i).pendingReprocessResultList =
      s.hwi.pendingReprocessResultList := by rw [heq]
  refine inv.complete [] i.storedKeys hP ?_ ⟨?_, ?_⟩ hleft ?_
  · rw [heq, hP]
    rfl
  · rw [heq]
    show (List.flatMap _ (s.hwi.trace ++ _)).Perm _
    rw [List.flatMap_append, completionEvents_returned]
    have hmap : bs.map (fun b => (i.frameNumber, b.buffer)) = i.storedKeys := by
      have hmap := congrArg (List.map fun b => (i.frameNumber, b)) hbufs
      rw [List.map_map, List.map_map] at hmap
      exact hmap
    rw [hmap]
    exact .refl _
  · unfold Hwi.held
    rw [show (s.hwi.completeRequest md metadataBuf i).cachedKeys = s.hwi.cachedKeys by
      rw [heq]
      rfl, ← List.append_assoc]
    exact hleft.append_right _
  · rw [hCeq]
    intro c hc
    exact ⟨hc, cachedFor_eq_nil.mp hnone c hc⟩

theorem bufInv_handlePendingReprocResults (inv : BufInv s) {n : Nat}
    (hone : (s.hwi.cachedFor n).length = 1) :
    BufInv { s with hwi := s.hwi.handlePendingReprocResults n } ∧
      (s.hwi.handlePendingReprocResults n).cachedFor n = [] ∧
      (s.hwi.handlePendingReprocResults n).pendingReprocessResultList.Sublist
        s.hwi.pendingReprocessResultList ∧
      (s.hwi.handlePendingReprocResults n).pendingRequestsList.Sublist
        s.hwi.pendingRequestsList := by
  obtain ⟨c, c₁, c₂, hC, hcn, hothers⟩ := cachedFor_split hone
  have hsubC : (c₁ ++ c₂).Sublist (c₁ ++ c :: c₂) := (List.sublist_cons_self ..).append_left _
  -- the request of the result is pending, and nothing of it is stored
  obtain ⟨k, hk, hkn, hkin⟩ := inv.cached c (by rw [hC]; simp)
  obtain ⟨k', hfind⟩ : ∃ k', s.hwi.findRequest n = some k' :=
    Option.isSome_iff_exists.mp (List.find?_isSome.mpr ⟨k, hk, by simpa using hkn.trans hcn⟩)
  obtain ⟨hk', l₁, l₂, hP, hl₁⟩ := findRequest_split hfind
  have hsubP : (l₁ ++ l₂).Sublist (l₁ ++ k' :: l₂) := (List.sublist_cons_self ..).append_left _
  have hkk : k = k' := by
    have hinj := List.inj_on_of_nodup_map (inv.requests.sorted.imp Nat.ne_of_lt)
    exact hinj hk (by rw [hP]; simp) ((hkn.trans hcn).trans hk'.symm)
  subst hkk
  have hstored : k.storedKeys = [] := by
    unfold PendingRequestInfo.storedKeys
    rw [inv.requests.unstored k hk hkin]
    rfl
  rw [handlePendingReprocResults_some hC hcn
    (fun c' hc' => hothers c' (List.mem_append_left _ hc')) hP hk' hl₁]
  refine ⟨?_, ?_, ?_, ?_⟩
  · refine inv.complete l₁ [(n, c.buffer.buffer)] hP rfl ⟨?_, ?_⟩ ?_ ?_
    · show (List.flatMap _ (s.hwi.trace ++ _ ++ _)).Perm _
      simp only [List.flatMap_append, List.flatMap_cons, List.flatMap_nil, Event.returned,
        List.append_nil, List.map_cons, List.map_nil]
      exact .refl _
    · show (s.hwi.pendingKeys ++ s.hwi.pendingReprocessResultList.map _).Perm
        (_ ++ (s.hwi.pendingKeys ++ (c₁ ++ c₂).map _))
      grind [List.perm_middle]
    · rw [hstored]
      exact .refl _
    grind
  · exact cachedFor_eq_nil.mpr hothers
  · rw [hC]
    exact hsubC
  · rw [hP]
    exact hsubP

theorem bufInv_completeRequests (md : Metadata) (metadataBuf : Nat) (fuel : Nat) (s : Session)
    (inv : BufInv s) (hfuel : s.hwi.pendingRequestsList.length ≤ fuel)
    (hpopped : ∀ i ∈ s.hwi.completed md.frameNumber, s.hwi.cachedFor i.frameNumber = [])
    (hnext : s.hwi.cachedFor ((md.frameNumber + 1) % 2 ^ 32) = []) :
    ∃ h, Hwi.completeRequests metadataBuf md fuel s.hwi = some h ∧
      BufInv { s with hwi := h } ∧ ∀ i ∈ h.pendingRequestsList, md.frameNumber < i.frameNumber := by
  induction fuel generalizing s with
  | zero =>
    have hnil := List.eq_nil_of_length_eq_zero (Nat.le_zero.mp hfuel)
    exact ⟨s.hwi, rfl, inv, by simp [hnil]⟩
  | succ fuel ih =>
    unfold Hwi.completeRequests
    cases hP : s.hwi.pendingRequestsList with
    | nil => exact ⟨s.hwi, rfl, inv, by simp [hP]⟩
    | cons i P =>
      dsimp only
      split
      · rename_i hle
        have hi : i ∈ s.hwi.completed md.frameNumber := by
          simp [Hwi.completed, hP, hle]
        have inv' := bufInv_completeRequest inv hP (hpopped i hi) md metadataBuf
        obtain ⟨bs, heq, -, -⟩ := completeRequest_eq s.hwi md metadataBuf i
        have hP' : (s.hwi.completeRequest md metadataBuf i).pendingRequestsList = P := by
          rw [heq, hP]
          rfl
        have hcached : ∀ n, (s.hwi.completeRequest md metadataBuf i).cachedFor n =
            s.hwi.cachedFor n := by
          intro n
          rw [heq]
          rfl
        have hnext' := (hcached _).trans hnext
        rw [if_neg, handlePendingReprocResults_none hnext']
        · refine ih { s with hwi := s.hwi.completeRequest md metadataBuf i } inv' ?_ ?_ hnext'
          · grind
          grind [Hwi.completed]
        · exact not_danglingNext hnext'
      · rename_i hgt
        refine ⟨s.hwi, rfl, inv, ?_⟩
        have hsorted := inv.requests.sorted
        intro j hj
        rw [hP] at hj hsorted
        exact Nat.lt_of_lt_of_le (Nat.lt_of_not_le hgt) (head_le hsorted j hj)

theorem bufInv_completeRequests_cached (md : Metadata) (metadataBuf : Nat) (inv : BufInv s)
    (hpopped : ∀ i ∈ s.hwi.completed md.frameNumber, s.hwi.cachedFor i.frameNumber = [])
    (hone : (s.hwi.cachedFor ((md.frameNumber + 1) % 2 ^ 32)).length = 1)
    (htwo : 2 ≤ (s.hwi.completed md.frameNumber).length) :
    ∃ h, Hwi.completeRequests metadataBuf md s.hwi.pendingRequestsList.length s.hwi = some h ∧
      BufInv { s with hwi := h } ∧ ∀ i ∈ h.pendingRequestsList, md.frameNumber < i.frameNumber := by
  set next := (md.frameNumber + 1) % 2 ^ 32 with hnext
  -- the request of the cached result is not completed by this metadata
  have hlater : md.frameNumber < next := by
    obtain ⟨c, hc⟩ := List.length_eq_one_iff.mp hone
    have hmem : c ∈ s.hwi.cachedFor next := by
      simp [hc]
    obtain ⟨i, hi, heq, -⟩ := inv.cached c (mem_cachedFor.mp hmem).1
    have hin : i.frameNumber = next := heq.trans (mem_cachedFor.mp hmem).2
    by_contra hle
    have hcompleted : i ∈ s.hwi.completed md.frameNumber :=
      List.mem_filter.mpr ⟨hi, by simpa [hin] using hle⟩
    have hnone := hpopped i hcompleted
    simp_all
  obtain ⟨i, i', P, hP, hle, hle'⟩ := completed_two inv.requests.sorted htwo
  have hi : i ∈ s.hwi.completed md.frameNumber :=
    List.mem_filter.mpr ⟨by rw [hP]; simp, by simpa using hle⟩
  have inv' := bufInv_completeRequest inv hP (hpopped i hi) md metadataBuf
  obtain ⟨bs, heq, -, -⟩ := completeRequest_eq s.hwi md metadataBuf i
  have hP' : (s.hwi.completeRequest md metadataBuf i).pendingRequestsList = i' :: P := by
    rw [heq, hP]
    rfl
  have hC' : (s.hwi.completeRequest md metadataBuf i).pendingReprocessResultList =
      s.hwi.pendingReprocessResultList := by rw [heq]
  have hcached := cachedFor_congr hC'
  obtain ⟨inv'', hnone, hsub, hsubP⟩ := bufInv_handlePendingReprocResults inv'
    ((congrArg List.length (hcached next)).trans hone)
  set h' := (s.hwi.completeRequest md metadataBuf i).handlePendingReprocResults next with hh'
  have hsubP' : h'.pendingRequestsList.Sublist (i' :: P) := hP' ▸ hsubP
  have hrun : Hwi.completeRequests metadataBuf md s.hwi.pendingRequestsList.length s.hwi =
      Hwi.completeRequests metadataBuf md (i' :: P).length h' := by
    rw [hP, List.length_cons]
    unfold Hwi.completeRequests
    rw [hP]
    dsimp only
    rw [if_pos hle, if_neg]
    · rfl
    · intro hdangling
      have hhead := hdangling.2
      rw [hP', List.head?_cons, Option.any_some, decide_eq_true_eq] at hhead
      omega
  rw [hrun]
  refine bufInv_completeRequests md metadataBuf _ { s with hwi := h' } inv'' hsubP'.length_le ?_
    hnone
  intro j hj
  have hjs : j ∈ s.hwi.completed md.frameNumber := by
    have hmem := List.mem_filter.mp hj
    refine List.mem_filter.mpr ⟨?_, hmem.2⟩
    rw [hP]
    exact List.mem_cons_of_mem _ (hsubP'.subset hmem.1)
  apply cachedFor_eq_nil.mpr
  intro c hc
  have hcs : c ∈ s.hwi.pendingReprocessResultList := by
    rw [← hC']
    exact hsub.subset hc
  exact cachedFor_eq_nil.mp (hpopped j hjs) c hcs

theorem bufInv_metadata (inv : BufInv s) (metadataBuf : Nat) (md : Option Metadata)
    (hkeep : ∀ m, md = some m → m.frameNumberValid = true → s.hwi.KeepsCached m.frameNumber) :
    ∃ h, s.hwi.handleMetadataWithLock metadataBuf md = some h ∧
      BufInv { (Op.metadata metadataBuf md).record s with hwi := h } := by
  have hdone : ∀ s : Session, BufInv s →
      BufInv { s with hwi := s.hwi.emit [.bufDone metadataBuf] } :=
    fun s inv => inv.congr rfl rfl rfl (by simp [Event.returned])
  cases md with
  | none => exact ⟨_, rfl, hdone s inv⟩
  | some md =>
    unfold Hwi.handleMetadataWithLock
    dsimp only
    set h₁ := if md.urgentFrameNumberValid then s.hwi.handleUrgentMetadata md else s.hwi with hh₁
    have inv₁ : BufInv { s with hwi := h₁ } := by
      rw [hh₁]
      split
      · exact bufInv_urgent inv md
      · exact inv
    cases hvalid : md.frameNumberValid with
    | false =>
      refine ⟨h₁.emit [.bufDone metadataBuf], rfl, ?_⟩
      show BufInv { (if md.frameNumberValid then _ else s) with hwi := _ }
      rw [hvalid]
      exact hdone { s with hwi := h₁ } inv₁
    | true =>
      have hkeep₁ : h₁.KeepsCached md.frameNumber := by
        have hkeep₀ := hkeep md rfl hvalid
        rw [hh₁]
        split
        · obtain ⟨P, events, heq, -⟩ := urgent_fields s.hwi md
          exact keepsCached_core hkeep₀ (urgent_core s.hwi md) (by rw [heq])
        · exact hkeep₀
      obtain ⟨h, hrun, inv', hlater⟩ : ∃ h,
          Hwi.completeRequests metadataBuf md h₁.pendingRequestsList.length h₁ = some h ∧
          BufInv { s with hwi := h } ∧
          ∀ i ∈ h.pendingRequestsList, md.frameNumber < i.frameNumber := by
        have hloop := bufInv_completeRequests md metadataBuf h₁.pendingRequestsList.length
          { s with hwi := h₁ } inv₁ (Nat.le_refl _)
        rcases hkeep₁ with hnil | ⟨hpopped, hnone | ⟨hone, htwo⟩⟩
        · refine ⟨h₁, ?_, inv₁, ?_⟩
          · cases hP : h₁.pendingRequestsList with
            | nil => rfl
            | cons i P =>
              have hgt : ¬ i.frameNumber ≤ md.frameNumber := by
                have hfilter := List.filter_eq_nil_iff.mp hnil i (by rw [hP]; simp)
                simpa using hfilter
              simp [Hwi.completeRequests, hP, hgt]
          · intro i hi
            have hfilter := List.filter_eq_nil_iff.mp hnil i hi
            simpa using hfilter
        · exact hloop hpopped hnone
        · exact bufInv_completeRequests_cached md metadataBuf (s := { s with hwi := h₁ }) inv₁
            hpopped hone htwo
      refine ⟨h, ?_, ?_⟩
      · rw [← hrun]
        rfl
      · show BufInv { (if md.frameNumberValid then _ else s) with hwi := h }
        rw [hvalid, if_pos rfl]
        refine { inv' with requests := ?_, awaitingAccepted := ?_ }
        · refine { inv'.requests with awaiting := ?_ }
          intro i hi
          simp [inv'.requests.awaiting, hi, hlater]
        · intro n hn
          exact inv'.awaitingAccepted n (List.mem_filter.mp hn).1

theorem bufInv_finishFlush (inv : BufInv s) (hnone : s.hwi.pendingReprocessResultList = [])
    (sentinel : Nat) :
    BufInv { (Op.finishFlush sentinel).record s with hwi := s.hwi.finishFlush sentinel } where
  requests := ⟨.nil, by simp [Hwi.finishFlush], by simp [Hwi.finishFlush],
    by simp [Hwi.finishFlush]⟩
  requested := inv.requested
  account := by
    have hheld : s.hwi.held = s.hwi.pendingKeys := by
      simp [Hwi.held, Hwi.cachedKeys, hnone]
    show s.requested.Perm ((s.hwi.finishFlush sentinel).returned ++ [])
    rw [List.append_nil]
    refine inv.account.trans ?_
    rw [hheld]
    exact (finishFlush_returned s.hwi sentinel).symm
  handles := .nil
  parts := .nil
  cached := by simp [Hwi.finishFlush]
  requestedAccepted := inv.requestedAccepted
  awaitingAccepted := by simp [Op.record]
  calledAccepted := inv.calledAccepted
  calledOnce := by simp [Op.record]

theorem bufInv_exec (inv : BufInv s) (op : Op) (hop : op.Expected s) (hkeep : op.KeepsBuffers s) :
    ∃ h, op.exec s.hwi = some h ∧ BufInv { op.record s with hwi := h } := by
  cases op with
  | configureStreams => exact hop.elim
  | processCaptureRequest r env =>
    obtain ⟨-, haccepts, hr⟩ := hop
    obtain ⟨-, s₁, hsame, hsame'⟩ := queued_of_accepts haccepts
    refine ⟨_, rfl, ?_⟩
    show BufInv { (if s.Accepts r env then s.accept r else s) with hwi := _ }
    rw [if_pos haccepts]
    apply bufInv_accept inv hr
    · rw [hsame'.pendingRequestsList, ← hsame.pendingRequestsList]
      rfl
    · rw [hsame'.pendingBuffersMap, ← hsame.pendingBuffersMap]
      rfl
    · rw [hsame'.pendingReprocessResultList, ← hsame.pendingReprocessResultList]
      rfl
    · rw [hsame'.trace, ← hsame.trace]
      rfl
  | wakeUp timedOut =>
    have hsame := wakeUp_sameQueue (s := s.hwi) timedOut
    refine ⟨_, rfl, inv.congr ?_ hsame.pendingBuffersMap hsame.pendingReprocessResultList ?_⟩
    · rw [hsame.pendingRequestsList]
    · unfold Hwi.returned
      rw [hsame.trace]
  | daemonPullReq => exact ⟨_, rfl, inv.congr rfl rfl rfl rfl⟩
  | metadata metadataBuf md => exact bufInv_metadata inv metadataBuf md hkeep
  | buffer b frameNumber now => exact ⟨_, rfl, bufInv_buffer inv hop hkeep now⟩
  | beginFlush => exact ⟨_, rfl, inv.congr rfl rfl rfl rfl⟩
  | finishFlush sentinel => exact ⟨_, rfl, bufInv_finishFlush inv hkeep sentinel⟩

theorem bufInv_invariant : keepingSystem.Invariant BufInv where
  init s hs := by
    cases hs
    exact bufInv_start
  step s op s' inv hstep := by
    obtain ⟨⟨hop, hkeep⟩, hnext⟩ := hstep
    grind [bufInv_exec, hal3System]

/-- **Every output buffer comes back once**, and no erased entry is used, in every run
whose calls keep every buffer. -/
theorem buffersOnce_of_reachable (hs : keepingSystem.Reachable s) :
    BuffersOnce s ∧ ∀ op : Op, op.Expected s → op.KeepsBuffers s → op.exec s.hwi ≠ none := by
  have inv := bufInv_invariant.reachable hs
  refine ⟨inv.buffersOnce, ?_⟩
  grind [bufInv_exec]

instance (h : Hwi) (n : Nat) : Decidable (h.KeepsCached n) := inferInstanceAs (Decidable (_ ∨ _))

instance (h : Hwi) (b : StreamBuffer) (n : Nat) : Decidable (h.KeepsRequest b n) :=
  decidableForallSome (h.findRequest n) fun i =>
    if i.inputBuffer.isSome then
      (∀ j ∈ h.pendingRequestsList, ¬ j.frameNumber < n) → h.cachedFor n = []
    else i.buffers.countP (fun j => j.stream = b.stream) ≤ 1

instance (s : Session) (op : Op) : Decidable (op.KeepsBuffers s) :=
  match op with
  | .metadata _ md => decidableForallSome md fun m => m.frameNumberValid = true →
      s.hwi.KeepsCached m.frameNumber
  | .buffer b frameNumber _ => inferInstanceAs (Decidable (s.hwi.KeepsRequest b frameNumber))
  | .finishFlush _ => inferInstanceAs (Decidable (s.hwi.pendingReprocessResultList = []))
  | .configureStreams | .processCaptureRequest .. | .wakeUp _ | .daemonPullReq | .beginFlush =>
    .isTrue trivial

def cachedResultCalls : List Op :=
  [.processCaptureRequest (previewRequest 1 10) noFailures,
    .processCaptureRequest (previewRequest 2 11) noFailures,
    .processCaptureRequest (pictureRequest 3 12) noFailures,
    .buffer ⟨previewStream, 10, false⟩ 1 0,
    .buffer ⟨pictureStream, 12, false⟩ 3 0,
    .metadata 0 (some (frameMetadata 2)),
    .buffer ⟨previewStream, 11, false⟩ 2 0]

theorem buffersOnce_of_reachable_cachedResult :
    ∃ s, Session.run (fun s op => op.Expected s ∧ op.KeepsBuffers s) cachedResultCalls
        Session.start = some s ∧
      s.hwi.returned = [(1, 10), (3, 12), (2, 11)] ∧ BuffersOnce s := by
  refine ⟨_, rfl, by decide +kernel, ?_⟩
  exact (buffersOnce_of_reachable (reachable_run cachedResultCalls (.init rfl) rfl)).1

def flushedResultCalls : List Op :=
  [.processCaptureRequest (previewRequest 1 10) noFailures,
    .processCaptureRequest (pictureRequest 2 12) noFailures,
    .buffer ⟨pictureStream, 12, false⟩ 2 0,
    .beginFlush,
    .finishFlush 0]

/-- The run `flushedResultCalls` loses the buffer of the reprocess request. -/
theorem not_buffersOnce : ∃ s, expectedSystem.Reachable s ∧ ¬ BuffersOnce s := by
  refine ⟨_, reachable_run flushedResultCalls (.init rfl) rfl, ?_⟩
  intro h
  exact absurd h.account.length_eq (by decide +kernel)

end EtherDevice.Hal3
