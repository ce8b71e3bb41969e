import Mathlib
import EtherDevice.Hal3.Bookkeeping

/-!
# The requests in flight are counted

`mPendingRequest` is the number of the pending requests, `num_buffers` is the number of the
pending buffers, and a call of `processCaptureRequest` that returns an error has queued
nothing (`CountsRequests`, `CallCounts`).

A request is counted at the end of `processCaptureRequest`, long after it was queued, so
that an error in between leaves it queued; one that is queued during a flush is not counted
at all, and it must not be completed before the flush ends. A wait that times out and a
clock that fails return an error for a request that is counted. `configureStreams` drops
the pending requests without their count. `Op.KeepsCount` excludes these, and the metadata
for which the loop of `handleMetadataWithLock` uses an erased entry.
-/

namespace EtherDevice.Hal3

open Lib

variable {s s' : Session} {h h' : Hwi} {r : CaptureRequest} {env : RequestEnv}

/-! ## The property -/

/-- The counters agree with the lists. During a flush a request that is queued is not
counted. -/
structure CountsRequests (s : Session) : Prop where
  requests : s.hwi.flush = false →
    s.hwi.pendingRequest = s.hwi.pendingRequestsList.length
  buffers : s.hwi.pendingBuffersMap.numBuffers =
    s.hwi.pendingBuffersMap.pendingBufferList.length
  nonneg : 0 ≤ s.hwi.pendingRequest

/-- A call that returns an error leaves the requests and buffers as they were, and one that
returns success without waiting leaves fewer than `MIN_INFLIGHT_REQUESTS` requests. A call
that waits returns no error. -/
def CallCounts (s : Session) : Op → Prop
  | .processCaptureRequest r env => ∀ rc, (s.hwi.processCaptureRequest r env).2 = some rc →
      (rc < 0 →
        (s.hwi.processCaptureRequest r env).1.pendingRequestsList = s.hwi.pendingRequestsList ∧
        (s.hwi.processCaptureRequest r env).1.pendingBuffersMap = s.hwi.pendingBuffersMap) ∧
      (0 ≤ rc →
        ((s.hwi.processCaptureRequest r env).1.pendingRequestsList.length : Int) <
          minInflightRequests)
  | .wakeUp timedOut => ∀ rc, (s.hwi.wakeUp timedOut).2 = some rc → 0 ≤ rc
  | _ => True

/-- The calls that can happen: a request while no other one waits, with a new frame number. -/
def Op.Possible (s : Session) : Op → Prop
  | .configureStreams => s.hwi.waiting = none
  | .processCaptureRequest r _ => s.hwi.waiting = none ∧ ∀ n ∈ s.accepted, n < r.frameNumber
  | .metadata _ md => ∀ m, md = some m → m.frameNumber < 2 ^ 32
  | _ => True

def Session.Uncounted (s : Session) (frameNumber : Nat) : Prop := frameNumber ∈ s.idle.map Prod.fst

/-- Metadata of a frame completes no uncounted request, and the loop does not go on at the
request of a cached result that it has sent. -/
def Session.KeepsCounted (s : Session) (frameNumber : Nat) : Prop :=
  let next := (frameNumber + 1) % 2 ^ 32
  (∀ i ∈ s.hwi.completed frameNumber, ¬ s.Uncounted i.frameNumber) ∧
    (s.hwi.completed frameNumber = [] ∨ s.hwi.cachedFor next = [] ∨
      (∀ i ∈ s.hwi.pendingRequestsList, i.frameNumber ≠ next) ∨
        2 ≤ (s.hwi.completed frameNumber).length ∧ ¬ s.Uncounted next)

def Op.KeepsCount (s : Session) : Op → Prop
  | .configureStreams => s.hwi.pendingRequest = 0
  | .processCaptureRequest r env => s.hwi.Queues r env →
      if s.hwi.flush = true then (s.hwi.pendingRequestsList.length : Int) + 1 < minInflightRequests
      else Hwi.requestChannels r env = none ∧ env.clockFails = false
  | .wakeUp timedOut => ∀ w, s.hwi.waiting = some w → ¬ (w.timed = true ∧ timedOut = true)
  | .metadata _ md => ∀ m, md = some m → m.frameNumberValid = true → s.KeepsCounted m.frameNumber
  | .buffer _ frameNumber _ => ∀ i, s.hwi.findRequest frameNumber = some i →
      i.inputBuffer.isSome → (∀ j ∈ s.hwi.pendingRequestsList, ¬ j.frameNumber < frameNumber) →
        ¬ s.Uncounted frameNumber
  | _ => True

def countingSystem : System Session Op :=
  hal3System.restrict fun s op => op.Possible s ∧ op.KeepsCount s

/-! ## The invariant -/

instance (s : Session) (n : Nat) : Decidable (s.Uncounted n) :=
  inferInstanceAs (Decidable (_ ∈ _))

def Session.counted (s : Session) (P : List PendingRequestInfo) : Int :=
  (P.countP fun i => ¬ s.Uncounted i.frameNumber : Nat)

/-- The number of the map is that of its buffers. -/
def PendingBuffersMap.Balanced (m : PendingBuffersMap) : Prop :=
  m.numBuffers = m.pendingBufferList.length

structure CountInv (s : Session) : Prop where
  sorted : (s.hwi.pendingRequestsList.map PendingRequestInfo.frameNumber).Pairwise (· < ·)
  accepted : ∀ i ∈ s.hwi.pendingRequestsList, i.frameNumber ∈ s.accepted
  idleAccepted : ∀ n, s.Uncounted n → n ∈ s.accepted
  counted : s.hwi.pendingRequest = s.counted s.hwi.pendingRequestsList
  idle : s.hwi.flush = false → s.idle = []
  buffers : s.hwi.pendingBuffersMap.Balanced
  first : s.hwi.firstRequest = true → s.hwi.pendingRequest = 0
  waiting : ∀ w, s.hwi.waiting = some w → w.rc = 0

theorem CountInv.countsRequests (inv : CountInv s) : CountsRequests s where
  requests hflush := by
    simp [Session.counted, Session.Uncounted, inv.idle, hflush, inv.counted]
  buffers := inv.buffers
  nonneg := by
    rw [inv.counted]
    exact Int.natCast_nonneg _

theorem countInv_start : CountInv Session.start where
  sorted := .nil
  accepted := by simp [Session.start]
  idleAccepted := by simp [Session.start, Session.Uncounted]
  counted := rfl
  idle _ := rfl
  buffers := rfl
  first _ := rfl
  waiting := by simp [Session.start]

/-! ## The map -/

theorem takeBuffer_balanced (hbal : h.pendingBuffersMap.Balanced) (buffer : Nat) :
    (h.takeBuffer buffer).pendingBuffersMap.Balanced := by
  unfold Hwi.takeBuffer
  grind [PendingBuffersMap.Balanced]

theorem returnBuffers_balanced (n : Nat) (js : List RequestedBufferInfo) (h : Hwi)
    (hbal : h.pendingBuffersMap.Balanced) :
    (Hwi.returnBuffers n js h).2.pendingBuffersMap.Balanced := by
  induction js generalizing h with
  | nil => exact hbal
  | cons j js ih =>
    cases hj : j.buffer with
    | none =>
      simp_all [Hwi.returnBuffers]
    | some b =>
      obtain ⟨h₁, hmap, hrest⟩ := returnBuffers_cons hj n js h
      simp_all [takeBuffer_balanced]

theorem completeRequest_balanced (hbal : h.pendingBuffersMap.Balanced) (md : Metadata)
    (metadataBuf : Nat) (i : PendingRequestInfo) :
    (h.completeRequest md metadataBuf i).pendingBuffersMap.Balanced := by
  obtain ⟨-, -, -, h₀, hmap', hmap⟩ := completeRequest_eq h md metadataBuf i
  simp_all [returnBuffers_balanced]

/-! ## Calls that move no request -/

theorem CountInv.congr (inv : CountInv s)
    (hP : h.pendingRequestsList.map PendingRequestInfo.frameNumber =
      s.hwi.pendingRequestsList.map PendingRequestInfo.frameNumber)
    (hcount : h.pendingRequest = s.hwi.pendingRequest)
    (hbal : h.pendingBuffersMap.Balanced) (hflush : h.flush = false → s.hwi.flush = false)
    (hfirst : h.firstRequest = true → s.hwi.firstRequest = true)
    (hwaiting : ∀ w, h.waiting = some w → w.rc = 0) : CountInv { s with hwi := h } := by
  refine {
    sorted := ?_, accepted := ?_, idleAccepted := inv.idleAccepted, counted := ?_
    idle := fun hf => inv.idle (hflush hf), buffers := hbal
    first := fun hf => hcount.trans (inv.first (hfirst hf)), waiting := hwaiting }
  · rw [hP]
    exact inv.sorted
  · intro i hi
    have hmem : i.frameNumber ∈ s.hwi.pendingRequestsList.map PendingRequestInfo.frameNumber := by
      rw [← hP]
      exact List.mem_map_of_mem hi
    obtain ⟨i', hi', heq⟩ := List.mem_map.mp hmem
    rw [← heq]
    exact inv.accepted i' hi'
  · have hframes : ∀ P : List PendingRequestInfo, s.counted P =
        ((P.map PendingRequestInfo.frameNumber).countP fun n => ¬ s.Uncounted n : Nat) := by
      intro P
      rw [List.countP_map]
      rfl
    show h.pendingRequest = s.counted h.pendingRequestsList
    rw [hcount, inv.counted, hframes, hframes, hP]

theorem CountInv.remove (inv : CountInv s) (l₁ : List PendingRequestInfo)
    {l₂ : List PendingRequestInfo} {i : PendingRequestInfo}
    (hP : s.hwi.pendingRequestsList = l₁ ++ i :: l₂)
    (hcounted : ¬ s.Uncounted i.frameNumber)
    (hP' : h.pendingRequestsList = l₁ ++ l₂)
    (hcount : h.pendingRequest = s.hwi.pendingRequest - 1)
    (hbal : h.pendingBuffersMap.Balanced) (hflush : h.flush = s.hwi.flush)
    (hfirst : h.firstRequest = s.hwi.firstRequest) (hwaiting : h.waiting = s.hwi.waiting) :
    CountInv { s with hwi := h } := by
  have hsub : h.pendingRequestsList.Sublist s.hwi.pendingRequestsList := by
    simp [hP, hP']
  have hsum : s.counted s.hwi.pendingRequestsList = s.counted h.pendingRequestsList + 1 := by
    unfold Session.counted
    rw [hP, hP', List.countP_append, List.countP_append, List.countP_cons,
      if_pos (by simpa using hcounted)]
    omega
  refine {
    sorted := inv.sorted.sublist (hsub.map _)
    accepted := fun j hj => inv.accepted j (hsub.subset hj)
    idleAccepted := inv.idleAccepted
    counted := ?_
    idle := fun hf => inv.idle (hflush ▸ hf)
    buffers := hbal
    first := ?_
    waiting := fun w hw => inv.waiting w (hwaiting ▸ hw) }
  · show h.pendingRequest = s.counted h.pendingRequestsList
    rw [hcount, inv.counted, hsum]
    omega
  · -- before the first request is counted there is none to remove
    intro hf
    have hzero := inv.first (hfirst.symm.trans hf)
    rw [inv.counted, hsum] at hzero
    have hpos : 0 ≤ s.counted h.pendingRequestsList := Int.natCast_nonneg _
    omega

/-! ## Metadata -/

theorem countInv_completeRequest (inv : CountInv s) {i : PendingRequestInfo}
    {P : List PendingRequestInfo} (hP : s.hwi.pendingRequestsList = i :: P)
    (hcounted : ¬ s.Uncounted i.frameNumber) (md : Metadata) (metadataBuf : Nat) :
    CountInv { s with hwi := s.hwi.completeRequest md metadataBuf i } := by
  obtain ⟨bs, heq, -, -⟩ := completeRequest_eq s.hwi md metadataBuf i
  refine inv.remove [] hP hcounted ?_ ?_
    (completeRequest_balanced inv.buffers md metadataBuf i) ?_ ?_ ?_
  · rw [heq, hP]
    rfl
  · rw [heq]
  · rw [heq]
  · rw [heq]
  · rw [heq]

theorem countInv_handlePendingReprocResults (inv : CountInv s) {n : Nat}
    (hcounted : s.hwi.cachedFor n = [] ∨ (∀ i ∈ s.hwi.pendingRequestsList, i.frameNumber ≠ n) ∨
      ¬ s.Uncounted n) :
    CountInv { s with hwi := s.hwi.handlePendingReprocResults n } ∧
      (s.hwi.handlePendingReprocResults n).pendingRequestsList.Sublist
        s.hwi.pendingRequestsList ∧
      ((s.hwi.handlePendingReprocResults n).cachedFor n = [] ∨
        ∀ i ∈ (s.hwi.handlePendingReprocResults n).pendingRequestsList, i.frameNumber ≠ n) := by
  cases hfindC : s.hwi.pendingReprocessResultList.find? (fun j => decide (j.frameNumber = n)) with
  | none =>
    simp_all [cachedFor_eq_nil, handlePendingReprocResults_none]
  | some c =>
    cases hfind : s.hwi.findRequest n with
    | none =>
      have hnot : ∀ i ∈ s.hwi.pendingRequestsList, i.frameNumber ≠ n := by
        simpa [Hwi.findRequest] using hfind
      have hrun : s.hwi.handlePendingReprocResults n =
          { s.hwi.emit [.notify c.notifyMsg] with
            pendingReprocessResultList := s.hwi.pendingReprocessResultList.eraseP fun j =>
              j.frameNumber = n } := by
        unfold Hwi.handlePendingReprocResults
        rw [hfindC]
        dsimp only
        rw [show (s.hwi.emit [.notify c.notifyMsg]).findRequest n = none from hfind]
        rfl
      rw [hrun]
      exact ⟨inv.congr rfl rfl inv.buffers id id inv.waiting, .refl _, .inr hnot⟩
    | some k =>
      obtain ⟨hc, c₁, c₂, hC, hc₁⟩ := List.find?_eq_some_iff_append.mp hfindC
      obtain ⟨hk, l₁, l₂, hP, hl₁⟩ := findRequest_split hfind
      have hkmem : k ∈ s.hwi.pendingRequestsList := by
        rw [hP]
        simp
      have hkcounted : ¬ s.Uncounted k.frameNumber := by
        rw [hk]
        rcases hcounted with hnone | hnot | hcounted
        · have hcmem : c ∈ s.hwi.cachedFor n :=
            mem_cachedFor.mpr ⟨by rw [hC]; simp, of_decide_eq_true hc⟩
          simp_all
        · exact absurd hk (hnot k hkmem)
        · exact hcounted
      rw [handlePendingReprocResults_some hC (of_decide_eq_true hc)
        (fun c' hc' => by simpa using hc₁ c' hc') hP hk hl₁]
      refine ⟨inv.remove l₁ hP hkcounted rfl rfl inv.buffers rfl rfl rfl, ?_, .inr ?_⟩
      · simp [hP]
      · -- the frame number was in the list once
        intro j hj hjn
        have hnd := inv.sorted.imp Nat.ne_of_lt
        grind

theorem countInv_completeRequests (md : Metadata) (metadataBuf : Nat)
    (hF : md.frameNumber < 2 ^ 32) (fuel : Nat) (s : Session) (inv : CountInv s)
    (hkeep : s.KeepsCounted md.frameNumber) :
    ∃ h, Hwi.completeRequests metadataBuf md fuel s.hwi = some h ∧
      CountInv { s with hwi := h } := by
  induction fuel generalizing s with
  | zero => exact ⟨s.hwi, rfl, inv⟩
  | succ fuel ih =>
    unfold Hwi.completeRequests
    cases hP : s.hwi.pendingRequestsList with
    | nil => exact ⟨s.hwi, rfl, inv⟩
    | cons i P =>
      dsimp only
      split
      · rename_i hle
        obtain ⟨hcounted, hnext⟩ := hkeep
        set next := (md.frameNumber + 1) % 2 ^ 32 with hnextdef
        have hi : i ∈ s.hwi.completed md.frameNumber :=
          List.mem_filter.mpr ⟨by rw [hP]; simp, by simpa using hle⟩
        have inv₁ := countInv_completeRequest inv hP (hcounted i hi) md metadataBuf
        set h₁ := s.hwi.completeRequest md metadataBuf i with hh₁
        obtain ⟨bs, heq, -, -⟩ := completeRequest_eq s.hwi md metadataBuf i
        have hP₁ : h₁.pendingRequestsList = P := by
          rw [hh₁, heq, hP]
          rfl
        have hcached : ∀ n, h₁.cachedFor n = s.hwi.cachedFor n :=
          cachedFor_congr (by rw [hh₁, heq])
        have hcases : h₁.cachedFor next = [] ∨ (∀ j ∈ P, j.frameNumber ≠ next) ∨
            (2 ≤ (s.hwi.completed md.frameNumber).length ∧ ¬ s.Uncounted next) := by
          grind
        have hdangling : ¬ h₁.DanglingNext next := by
          rcases hcases with hnone | hnot | ⟨htwo, -⟩
          · exact not_danglingNext hnone
          · intro hdangling
            have hhead := hdangling.2
            rw [hP₁] at hhead
            cases P with
            | nil => simp at hhead
            | cons j P => exact hnot j List.mem_cons_self (by simpa using hhead)
          · -- the next request is also completed, so that it is older
            obtain ⟨i₁, i₂, P', hP', hle₁, hle₂⟩ := completed_two inv.sorted htwo
            intro hdangling
            have hhead := hdangling.2
            have hsorted := inv.sorted
            rw [hP] at hP'
            injection hP' with hi₁ hP₂
            rw [hP, hP₂, List.map_cons, List.map_cons, List.pairwise_cons] at hsorted
            have hlt := hsorted.1 i₂.frameNumber List.mem_cons_self
            rw [hP₁, hP₂, List.head?_cons, Option.any_some, decide_eq_true_eq] at hhead
            omega
        rw [if_neg hdangling]
        obtain ⟨inv₂, hsub, hafter⟩ := countInv_handlePendingReprocResults (n := next) inv₁ (by
          rcases hcases with hnone | hnot | ⟨-, hcnt⟩
          · exact .inl hnone
          · refine .inr (.inl ?_)
            rw [hP₁]
            exact hnot
          · exact .inr (.inr hcnt))
        refine ih { s with hwi := h₁.handlePendingReprocResults next } inv₂ ⟨?_, ?_⟩
        · intro j hj
          apply hcounted j
          obtain ⟨hjmem, hjle⟩ := List.mem_filter.mp hj
          refine List.mem_filter.mpr ⟨?_, hjle⟩
          rw [hP]
          apply List.mem_cons_of_mem
          rw [← hP₁]
          exact hsub.subset hjmem
        grind
      · exact ⟨s.hwi, rfl, inv⟩

theorem keepsCounted_core {n : Nat} (hkeep : s.KeepsCounted n)
    (hP : h.pendingRequestsList.map PendingRequestInfo.core =
      s.hwi.pendingRequestsList.map PendingRequestInfo.core)
    (hC : h.pendingReprocessResultList = s.hwi.pendingReprocessResultList) :
    Session.KeepsCounted { s with hwi := h } n := by
  have hcached := cachedFor_congr hC
  have hcore := completed_core (n := n) hP
  have hlength : (h.completed n).length = (s.hwi.completed n).length := by
    simpa using congrArg List.length hcore
  obtain ⟨hcounted, hnext⟩ := hkeep
  refine ⟨forall_of_core (fun i => ¬ s.Uncounted i.frameNumber) hcore hcounted, ?_⟩
  rw [hcached, hlength]
  rcases hnext with hnil | hnone | hnot | htwo
  · simp_all
  · exact .inr (.inl hnone)
  · exact .inr (.inr (.inl (forall_of_core (fun i => i.frameNumber ≠ _) hP hnot)))
  · exact .inr (.inr (.inr htwo))

theorem countInv_metadata (inv : CountInv s) (metadataBuf : Nat) (md : Option Metadata)
    (hop : (Op.metadata metadataBuf md).Possible s)
    (hkeep : (Op.metadata metadataBuf md).KeepsCount s) :
    ∃ h, s.hwi.handleMetadataWithLock metadataBuf md = some h ∧
      CountInv { (Op.metadata metadataBuf md).record s with hwi := h } := by
  have hdone : ∀ s : Session, CountInv s →
      CountInv { s with hwi := s.hwi.emit [.bufDone metadataBuf] } :=
    fun s inv => inv.congr rfl rfl inv.buffers id id inv.waiting
  cases md with
  | none => exact ⟨_, rfl, hdone s inv⟩
  | some md =>
    unfold Hwi.handleMetadataWithLock
    dsimp only
    set h₁ := if md.urgentFrameNumberValid then s.hwi.handleUrgentMetadata md else s.hwi with hh₁
    obtain ⟨P, events, hfields, -⟩ := urgent_fields s.hwi md
    have inv₁ : CountInv { s with hwi := h₁ } := by
      rw [hh₁]
      split
      · refine inv.congr (frames_of_core (urgent_core s.hwi md)) ?_ ?_ ?_ ?_ ?_
        · rw [hfields]
        · rw [hfields]
          exact inv.buffers
        · rw [hfields]
          exact id
        · rw [hfields]
          exact id
        · rw [hfields]
          exact inv.waiting
      · exact inv
    cases hvalid : md.frameNumberValid with
    | false =>
      refine ⟨h₁.emit [.bufDone metadataBuf], rfl, ?_⟩
      show CountInv { (if md.frameNumberValid then _ else s) with hwi := _ }
      rw [hvalid]
      exact hdone { s with hwi := h₁ } inv₁
    | true =>
      have hkeep₁ : Session.KeepsCounted { s with hwi := h₁ } md.frameNumber := by
        have hkeep₀ := hkeep md rfl hvalid
        rw [hh₁]
        split
        · exact keepsCounted_core hkeep₀ (urgent_core s.hwi md) (by rw [hfields])
        · exact hkeep₀
      obtain ⟨h, hrun, inv'⟩ := countInv_completeRequests md metadataBuf (hop md rfl)
        h₁.pendingRequestsList.length { s with hwi := h₁ } inv₁ hkeep₁
      refine ⟨h, ?_, ?_⟩
      · rw [← hrun]
        rfl
      · show CountInv { (if md.frameNumberValid then _ else s) with hwi := h }
        rw [hvalid, if_pos rfl]
        exact { inv' with }

/-! ## Buffer callbacks -/

theorem countInv_buffer (inv : CountInv s) (b : StreamBuffer) (n : Nat) (now : UInt64)
    (hkeep : (Op.buffer b n now).KeepsCount s) :
    CountInv { s with hwi := s.hwi.handleBufferWithLock b n now } := by
  have hbal := takeBuffer_balanced inv.buffers b.buffer
  unfold Hwi.handleBufferWithLock
  cases hfind : s.hwi.findRequest n with
  | none =>
    obtain ⟨b', drops, hreturn, -⟩ := returnBuffer_eq s.hwi n b
    rw [hreturn]
    exact inv.congr rfl rfl hbal id id inv.waiting
  | some i =>
    obtain ⟨hi, l₁, l₂, hP, hl₁⟩ := findRequest_split hfind
    dsimp only
    split
    · rename_i hin
      unfold Hwi.handleReprocessBuffer
      rw [takeBuffer_fields]
      dsimp only
      split
      · rename_i hall
        have hcounted : ¬ s.Uncounted i.frameNumber := by
          rw [hi]
          exact hkeep i hfind hin (by simpa using hall)
        exact inv.remove l₁ hP hcounted (eraseRequest_split (h := s.hwi) hi hP hl₁) rfl hbal
          rfl rfl rfl
      · exact inv.congr rfl rfl hbal id id inv.waiting
    · rw [storeBuffer_split hi hP hl₁]
      refine inv.congr ?_ rfl inv.buffers id id inv.waiting
      rw [hP]
      simp

/-! ## Requests -/

theorem countInv_accept (inv : CountInv s) (hnew : ∀ n ∈ s.accepted, n < r.frameNumber)
    (houts : r.outputBuffers ≠ [])
    (hP : h.pendingRequestsList = s.hwi.pendingRequestsList ++ [r.pendingRequest])
    (hcount : h.pendingRequest = s.hwi.pendingRequest + if s.hwi.flush then 0 else 1)
    (hbal : h.pendingBuffersMap.Balanced) (hflush : h.flush = s.hwi.flush)
    (hfirst : h.firstRequest = true → h.pendingRequest = 0)
    (hwaiting : ∀ w, h.waiting = some w → w.rc = 0) :
    CountInv { s.accept r with hwi := h } := by
  have hfresh : ¬ s.Uncounted r.frameNumber := fun hn =>
    Nat.lt_irrefl _ (hnew _ (inv.idleAccepted _ hn))
  have hold : ∀ i ∈ s.hwi.pendingRequestsList, i.frameNumber ≠ r.frameNumber := fun i hi =>
    Nat.ne_of_lt (hnew _ (inv.accepted i hi))
  have huncounted : ∀ n, (s.accept r).Uncounted n ↔
      s.Uncounted n ∨ s.hwi.flush = true ∧ n = r.frameNumber := by
    intro n
    have hkeys : n ∈ r.keys.map Prod.fst ↔ n = r.frameNumber := by
      constructor
      · intro hn
        obtain ⟨x, hx, rfl⟩ := List.mem_map.mp hn
        exact CaptureRequest.keys_frame hx
      · rintro rfl
        obtain ⟨b, hb⟩ := List.exists_mem_of_ne_nil _ houts
        exact List.mem_map.mpr ⟨(r.frameNumber, b.buffer),
          List.mem_map.mpr ⟨_, List.mem_map_of_mem hb, rfl⟩, rfl⟩
    unfold Session.Uncounted Session.accept
    cases hf : s.hwi.flush with
    | false => simp
    | true =>
      simp only [if_true, List.map_append, List.mem_append, true_and]
      rw [← hkeys]
      rfl
  refine {
    sorted := ?_, accepted := ?_, idleAccepted := ?_, counted := ?_, idle := ?_
    buffers := hbal, first := hfirst, waiting := hwaiting }
  · rw [hP, List.map_append, List.pairwise_append]
    refine ⟨inv.sorted, List.pairwise_singleton .., ?_⟩
    intro n hn m hm
    obtain ⟨i, hi, rfl⟩ := List.mem_map.mp hn
    obtain rfl : m = r.frameNumber := by simpa [CaptureRequest.pendingRequest] using hm
    exact hnew _ (inv.accepted i hi)
  · rw [hP]
    intro i hi
    rcases List.mem_append.mp hi with hi | hi
    · exact List.mem_append_left _ (inv.accepted i hi)
    · obtain rfl := List.mem_singleton.mp hi
      exact List.mem_append_right _ (List.mem_singleton.mpr rfl)
  · intro n hn
    rcases (huncounted n).mp hn with hn | ⟨-, rfl⟩
    · exact List.mem_append_left _ (inv.idleAccepted n hn)
    · exact List.mem_append_right _ (List.mem_singleton.mpr rfl)
  · show h.pendingRequest = (s.accept r).counted h.pendingRequestsList
    have hprefix : (s.accept r).counted s.hwi.pendingRequestsList =
        s.counted s.hwi.pendingRequestsList := by
      unfold Session.counted
      congr 1
      apply List.countP_congr
      simp_all
    have hlast : ((s.accept r).counted [r.pendingRequest] : Int) =
        if s.hwi.flush then 0 else 1 := by
      unfold Session.counted
      rw [List.countP_singleton]
      have hnew : r.pendingRequest.frameNumber = r.frameNumber := rfl
      simp only [hnew, huncounted, hfresh, false_or, and_true]
      cases s.hwi.flush <;> simp
    have happend : (s.accept r).counted (s.hwi.pendingRequestsList ++ [r.pendingRequest]) =
        (s.accept r).counted s.hwi.pendingRequestsList +
          (s.accept r).counted [r.pendingRequest] := by
      simp [Session.counted]
    rw [hP, happend, hprefix, hlast, hcount, inv.counted]
  · intro hf
    have hf' : s.hwi.flush = false := hflush.symm.trans hf
    show (if s.hwi.flush then _ else s.idle) = []
    rw [hf']
    exact inv.idle hf'

theorem startStreams_count (inv : CountInv s) {s₁ : Hwi}
    (hstart : s.hwi.startStreams env = .ok s₁) :
    s₁.pendingRequest = s.hwi.pendingRequest ∧ s₁.firstRequest = s.hwi.firstRequest ∧
      s₁.waiting = s.hwi.waiting := by
  unfold Hwi.startStreams at hstart
  split at hstart
  · rename_i hfirst
    split at hstart
    · cases hstart
    · cases hstart
      exact ⟨(inv.first hfirst).symm, rfl, rfl⟩
  simp_all

theorem queueRequest_balanced {s₁ : Hwi} (hbal : s₁.pendingBuffersMap.Balanced)
    (r : CaptureRequest) : (s₁.queueRequest r).pendingBuffersMap.Balanced := by
  simp_all [PendingBuffersMap.Balanced, Hwi.queueRequest, CaptureRequest.pendingBuffers]

theorem countInv_processCaptureRequest (inv : CountInv s)
    (hop : (Op.processCaptureRequest r env).Possible s)
    (hkeep : (Op.processCaptureRequest r env).KeepsCount s) :
    CountInv { (Op.processCaptureRequest r env).record s with
        hwi := (s.hwi.processCaptureRequest r env).1 } ∧
      CallCounts s (.processCaptureRequest r env) := by
  obtain ⟨hwait, hnew⟩ := hop
  have hrecord : (Op.processCaptureRequest r env).record s =
      if s.Accepts r env then s.accept r else s := rfl
  have hout := processCaptureRequest_outcome s.hwi r env
  have haccepts : s.Accepts r env ↔ (s.hwi.processCaptureRequest r env).2 = some 0 ∨
      (s.hwi.processCaptureRequest r env).2 = none := Iff.rfl
  rw [hrecord]
  unfold CallCounts
  generalize hp : s.hwi.processCaptureRequest r env = p at hout haccepts
  cases hout with
  | rejected hrc hs =>
    rename_i s₁ rc
    have hsame : SameQueue s.hwi s₁ ∧ s₁.pendingRequest = s.hwi.pendingRequest ∧
        s₁.firstRequest = s.hwi.firstRequest ∧ s₁.waiting = s.hwi.waiting := by
      rcases hs with rfl | hs
      · exact ⟨.refl _, rfl, rfl, rfl⟩
      · exact ⟨startStreams_sameQueue hs, startStreams_count inv hs⟩
    obtain ⟨hqueue, hcount, hfirst, hwaiting⟩ := hsame
    constructor
    · rw [if_neg (by
        grind)]
      refine inv.congr ?_ hcount ?_ ?_ ?_ ?_
      · rw [hqueue.pendingRequestsList]
      · rw [hqueue.pendingBuffersMap]
        exact inv.buffers
      · rw [hqueue.flush]
        exact id
      · rw [hfirst]
        exact id
      simp_all
    · dsimp only
      rw [hp]
      intro rc' hrc'
      cases hrc'
      refine ⟨fun _ => ⟨hqueue.pendingRequestsList, hqueue.pendingBuffersMap⟩, fun hpos => ?_⟩
      exact absurd hrc (Int.not_lt.mpr hpos)
  | flushing hqueues hs hflush houts =>
    rename_i s₁
    have hqueue := startStreams_sameQueue hs
    obtain ⟨hcount, hfirst, hwaiting⟩ := startStreams_count inv hs
    have hfew := hkeep hqueues
    rw [if_pos hflush] at hfew
    have hP : (s₁.queueRequest r).pendingRequestsList =
        s.hwi.pendingRequestsList ++ [r.pendingRequest] := by
      rw [← hqueue.pendingRequestsList]
      rfl
    constructor
    · rw [if_pos (haccepts.mpr (.inl rfl))]
      refine countInv_accept inv hnew houts hP ?_ ?_ hqueue.flush ?_ ?_
      · rw [hflush, if_pos rfl, Int.add_zero]
        exact hcount
      · apply queueRequest_balanced
        rw [hqueue.pendingBuffersMap]
        exact inv.buffers
      · intro hf
        exact hcount.trans (inv.first (hfirst.symm.trans hf))
      · intro w hw
        exact inv.waiting w (hwaiting.symm.trans hw)
    simp [hp, hP, hfew]
  | failed hqueues hs hrc hflush hfail =>
    -- a failure after the request was queued is excluded
    have hno := hkeep hqueues
    simp_all
  | counted hqueues hs hflush houts hfail =>
    rename_i s₁
    have hqueue := startStreams_sameQueue hs
    obtain ⟨hcount, hfirst, hwaiting⟩ := startStreams_count inv hs
    have hno := hkeep hqueues
    rw [if_neg (by simp [hflush])] at hno
    have hsame : SameQueue (s₁.queueRequest r) ((s₁.queueRequest r).countRequest env).1 :=
      countRequest_sameQueue
    have hP : ((s₁.queueRequest r).countRequest env).1.pendingRequestsList =
        s.hwi.pendingRequestsList ++ [r.pendingRequest] := by
      rw [hsame.pendingRequestsList, ← hqueue.pendingRequestsList]
      rfl
    have hbal : ((s₁.queueRequest r).countRequest env).1.pendingBuffersMap.Balanced := by
      simp [queueRequest_balanced, hsame.pendingBuffersMap, hqueue.pendingBuffersMap, inv.buffers]
    have hreturn : ((s₁.queueRequest r).countRequest env).2 = some 0 ∧
          s.hwi.pendingRequest + 1 < minInflightRequests ∨
        ((s₁.queueRequest r).countRequest env).2 = none := by
      unfold Hwi.countRequest
      simp only [hno.2]
      split
      · exact .inr rfl
      · rename_i hfew
        refine .inl ⟨rfl, ?_⟩
        rw [← hcount]
        exact Int.not_le.mp hfew
    have hfields : ((s₁.queueRequest r).countRequest env).1.pendingRequest =
          s.hwi.pendingRequest + 1 ∧
        ((s₁.queueRequest r).countRequest env).1.firstRequest = false ∧
        ∀ w, ((s₁.queueRequest r).countRequest env).1.waiting = some w → w.rc = 0 := by
      unfold Hwi.countRequest
      simp only [hno.2]
      rw [← hcount]
      split
      · refine ⟨rfl, rfl, ?_⟩
        rintro w ⟨⟩
        rfl
      · refine ⟨rfl, rfl, ?_⟩
        intro w hw
        exact inv.waiting w (hwaiting.symm.trans hw)
    constructor
    · rw [if_pos (haccepts.mpr (hreturn.imp And.left id))]
      refine countInv_accept inv hnew houts hP ?_ hbal ?_ ?_ hfields.2.2
      · rw [hflush]
        exact hfields.1
      · rw [hsame.flush]
        exact hqueue.flush
      simp [hfields]
    · dsimp only
      rw [hp]
      intro rc' hrc'
      rcases hreturn with ⟨hzero, hfew⟩ | hnone
      · rw [hzero] at hrc'
        cases hrc'
        refine ⟨fun hneg => absurd hneg (by decide), fun _ => ?_⟩
        rw [hP, List.length_append, List.length_singleton]
        have hrequests := inv.countsRequests.requests hflush
        omega
      simp_all

/-! ## Runs -/

theorem countInv_wakeUp (inv : CountInv s) {timedOut : Bool}
    (hkeep : (Op.wakeUp timedOut).KeepsCount s) :
    CountInv { s with hwi := (s.hwi.wakeUp timedOut).1 } ∧ CallCounts s (.wakeUp timedOut) := by
  have hsame := wakeUp_sameQueue (s := s.hwi) timedOut
  have hrest : (s.hwi.wakeUp timedOut).1.pendingRequest = s.hwi.pendingRequest ∧
      (s.hwi.wakeUp timedOut).1.firstRequest = s.hwi.firstRequest ∧
      (∀ w, (s.hwi.wakeUp timedOut).1.waiting = some w → s.hwi.waiting = some w) ∧
      ∀ rc, (s.hwi.wakeUp timedOut).2 = some rc → 0 ≤ rc := by
    unfold Hwi.wakeUp
    cases hwait : s.hwi.waiting with
    | none => exact ⟨rfl, rfl, fun w hw => by simp [hwait] at hw, by simp⟩
    | some w =>
      have hzero := inv.waiting w hwait
      dsimp only
      rw [if_neg (hkeep w hwait)]
      grind
  obtain ⟨hcount, hfirst, hwaiting, hrc⟩ := hrest
  refine ⟨inv.congr ?_ hcount ?_ ?_ ?_ fun w hw => inv.waiting w (hwaiting w hw), hrc⟩
  · rw [hsame.pendingRequestsList]
  · rw [hsame.pendingBuffersMap]
    exact inv.buffers
  · rw [hsame.flush]
    exact id
  · rw [hfirst]
    exact id

theorem countInv_reset {s₁ : Session} (hP : s₁.hwi.pendingRequestsList = [])
    (hcount : s₁.hwi.pendingRequest = 0) (hmap : s₁.hwi.pendingBuffersMap = {})
    (hidle : s₁.idle = []) (hwaiting : ∀ w, s₁.hwi.waiting = some w → w.rc = 0) :
    CountInv s₁ := by
  refine {
    sorted := by simp [hP], accepted := by simp [hP], idleAccepted := ?_, counted := ?_
    idle := fun _ => hidle, buffers := by rw [hmap]; rfl, first := fun _ => hcount
    waiting := hwaiting }
  · simp [Session.Uncounted, hidle]
  · rw [hcount, hP]
    rfl

theorem countInv_exec (inv : CountInv s) (op : Op) (hop : op.Possible s) (hkeep : op.KeepsCount s) :
    ∃ h, op.exec s.hwi = some h ∧ CountInv { op.record s with hwi := h } := by
  cases op with
  | configureStreams =>
    exact ⟨_, rfl, countInv_reset rfl hkeep rfl rfl inv.waiting⟩
  | processCaptureRequest r env => exact ⟨_, rfl, (countInv_processCaptureRequest inv hop hkeep).1⟩
  | wakeUp timedOut => exact ⟨_, rfl, (countInv_wakeUp inv hkeep).1⟩
  | daemonPullReq => exact ⟨_, rfl, inv.congr rfl rfl inv.buffers id id inv.waiting⟩
  | metadata metadataBuf md => exact countInv_metadata inv metadataBuf md hop hkeep
  | buffer b frameNumber now =>
    exact ⟨_, rfl, { countInv_buffer inv b frameNumber now hkeep with }⟩
  | beginFlush =>
    refine ⟨_, rfl, inv.congr rfl rfl inv.buffers ?_ id inv.waiting⟩
    intro hf
    cases hf
  | finishFlush sentinel => exact ⟨_, rfl, countInv_reset rfl rfl rfl rfl inv.waiting⟩

theorem countInv_invariant : countingSystem.Invariant CountInv where
  init s hs := by
    cases hs
    exact countInv_start
  step s op s' inv hstep := by
    obtain ⟨⟨hop, hkeep⟩, hnext⟩ := hstep
    grind [countInv_exec, hal3System]

instance (s : Session) (op : Op) : Decidable (op.Possible s) :=
  match op with
  | .configureStreams => inferInstanceAs (Decidable (s.hwi.waiting = none))
  | .processCaptureRequest r _ =>
    inferInstanceAs (Decidable (s.hwi.waiting = none ∧ ∀ n ∈ s.accepted, n < r.frameNumber))
  | .metadata _ md => decidableForallSome md fun m => m.frameNumber < 2 ^ 32
  | .wakeUp _ | .daemonPullReq | .buffer .. | .beginFlush | .finishFlush _ => .isTrue trivial

instance (s : Session) (n : Nat) : Decidable (s.KeepsCounted n) :=
  inferInstanceAs (Decidable
    ((∀ i ∈ s.hwi.completed n, ¬ s.Uncounted i.frameNumber) ∧
      (s.hwi.completed n = [] ∨ s.hwi.cachedFor ((n + 1) % 2 ^ 32) = [] ∨
        (∀ i ∈ s.hwi.pendingRequestsList, i.frameNumber ≠ (n + 1) % 2 ^ 32) ∨
          2 ≤ (s.hwi.completed n).length ∧ ¬ s.Uncounted ((n + 1) % 2 ^ 32))))

instance (s : Session) (op : Op) : Decidable (op.KeepsCount s) :=
  match op with
  | .configureStreams => inferInstanceAs (Decidable (s.hwi.pendingRequest = 0))
  | .processCaptureRequest r env => inferInstanceAs (Decidable (s.hwi.Queues r env →
      if s.hwi.flush = true then
        (s.hwi.pendingRequestsList.length : Int) + 1 < minInflightRequests
      else Hwi.requestChannels r env = none ∧ env.clockFails = false))
  | .wakeUp timedOut => decidableForallSome s.hwi.waiting fun w =>
      ¬ (w.timed = true ∧ timedOut = true)
  | .metadata _ md => decidableForallSome md fun m => m.frameNumberValid = true →
      s.KeepsCounted m.frameNumber
  | .buffer _ frameNumber _ => decidableForallSome (s.hwi.findRequest frameNumber) fun i =>
      i.inputBuffer.isSome → (∀ j ∈ s.hwi.pendingRequestsList, ¬ j.frameNumber < frameNumber) →
        ¬ s.Uncounted frameNumber
  | .daemonPullReq | .beginFlush | .finishFlush _ => .isTrue trivial

def failsAt (p : ReturnPoint) : RequestEnv := ⟨fun q => if q = p then badValue else 0, false⟩

/-- A request that is rejected, three that are queued, the last of which waits until a frame
is done, and one that is queued during a flush. -/
def countingCalls : List Op :=
  [.processCaptureRequest (previewRequest 1 9) (failsAt .acquireFence),
    .processCaptureRequest (previewRequest 1 10) noFailures,
    .processCaptureRequest (previewRequest 2 11) noFailures,
    .processCaptureRequest (previewRequest 3 12) noFailures,
    .metadata 0 (some (frameMetadata 2)),
    .wakeUp false,
    .beginFlush,
    .processCaptureRequest (previewRequest 4 13) noFailures,
    .finishFlush 0,
    .processCaptureRequest (previewRequest 5 14) noFailures]

def failedRequestCalls : List Op :=
  [.processCaptureRequest (pictureRequest 1 10) (failsAt .inputChannel)]

end EtherDevice.Hal3
