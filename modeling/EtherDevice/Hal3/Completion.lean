import Mathlib
import EtherDevice.Hal3.Bookkeeping
import EtherDevice.Lib.Pipeline

/-!
# Every request is completed once and in order

The requests of a session are the jobs of a `Lib.Pipeline`. The early report of a request is
its urgent metadata, it finishes with a shutter message and its final metadata, and a flush
aborts it with an error message. `CompletionInv` says that the session has taken the steps
of this pipeline.

The code leaves the pipeline where a request is completed without its urgent metadata, where
a cached result of the next frame is sent before older frames, where a reprocess request has
no settings to send as its metadata, and where `flush` sends no error for a request whose
buffers are all cached, or an error for a request that had metadata. `Op.KeepsOrder`
excludes these.
-/

namespace EtherDevice.Hal3

open Lib

variable {s s' : Session} {h h' : Hwi}

/-! ## The property -/

inductive Milestone
  | shutter
  | metadata (partialResult : Nat)
  | errorRequest
  deriving DecidableEq, Repr

def Event.milestone : Event → Option (Nat × Milestone)
  | .notify (.shutter frameNumber _) => some (frameNumber, .shutter)
  | .notify (.errorRequest frameNumber) => some (frameNumber, .errorRequest)
  | .processCaptureResult r => r.result.map fun _ => (r.frameNumber, .metadata r.partialResult)
  | _ => none

namespace Hwi

variable (h : Hwi)

def milestones : List (Nat × Milestone) := h.trace.filterMap Event.milestone

def story (frameNumber : Nat) : List Milestone :=
  (h.milestones.filter fun e => e.1 = frameNumber).map Prod.snd

def shutters : List Nat := (h.milestones.filter fun e => e.2 = .shutter).map Prod.fst

end Hwi

/-- A pending request had at most its urgent metadata. A request that is not pending had one
shutter message and then one final metadata, or one error message if a flush found it. -/
structure CompletedOnce (s : Session) : Prop where
  pending : ∀ i ∈ s.hwi.pendingRequestsList, s.hwi.story i.frameNumber = [] ∨
    s.hwi.story i.frameNumber = [.metadata 1]
  completed : ∀ n ∈ s.accepted, n ∉ s.flushed →
    (∀ i ∈ s.hwi.pendingRequestsList, i.frameNumber ≠ n) →
      s.hwi.story n = [.shutter, .metadata partialResultCount] ∨
        s.hwi.story n = [.metadata 1, .shutter, .metadata partialResultCount]
  flushed : ∀ n ∈ s.flushed, s.hwi.story n = [.errorRequest]
  shutters : s.hwi.shutters.Pairwise (· < ·)

def Metadata.GivesUrgent (md : Metadata) (i : PendingRequestInfo) : Prop :=
  i.urgentReceived = true ∨ md.urgentFrameNumberValid = true ∧ md.urgentFrameNumber = i.frameNumber

def Op.KeepsOrder (s : Session) : Op → Prop
  | .metadata _ md => ∀ m, md = some m → m.frameNumberValid = true →
      (∀ i ∈ s.hwi.completed m.frameNumber, m.GivesUrgent i) ∧
        (s.hwi.completed m.frameNumber = [] ∨ s.hwi.cachedFor ((m.frameNumber + 1) % 2 ^ 32) = [])
  | .buffer _ frameNumber _ => ∀ i, s.hwi.findRequest frameNumber = some i →
      i.inputBuffer.isSome → (∀ j ∈ s.hwi.pendingRequestsList, ¬ j.frameNumber < frameNumber) →
        i.settings.isSome
  | .finishFlush sentinel =>
      (∀ i ∈ s.hwi.pendingRequestsList, i.urgentReceived = false ∧
        (s.hwi.cachedFor i.frameNumber = [] ∨ ∃ x ∈ s.hwi.pendingKeys, x.1 = i.frameNumber)) ∧
        (s.hwi.pendingRequestsList = [] → ∀ x ∈ s.hwi.pendingKeys, x.1 < sentinel)
  | _ => True

/-- The runs whose calls complete requests once and in order. -/
def orderlySystem : System Session Op :=
  hal3System.restrict fun s op => op.Expected s ∧ op.KeepsOrder s

/-! ## The pipeline of a session -/

def requestReports : Reports Milestone where
  early := [.metadata 1]
  finish := [.shutter, .metadata partialResultCount]
  abort := [.errorRequest]

def PendingRequestInfo.job (i : PendingRequestInfo) : Nat × Bool :=
  (i.frameNumber, i.urgentReceived)

def Session.pipeline (s : Session) : Pipeline Nat Milestone where
  accepted := s.accepted
  pending := s.hwi.pendingRequestsList.map PendingRequestInfo.job
  finished := s.hwi.shutters
  aborted := s.flushed
  log := s.hwi.milestones

/-- Where the buffers of the requests are. A pending request has a buffer in the map unless
a result of it is cached. -/
structure PlacesInv (s : Session) : Prop where
  handles : (s.hwi.pendingKeys.map Prod.snd).Nodup
  frames : ∀ x ∈ s.hwi.pendingKeys, x.1 ∈ s.accepted ∧ x.1 ∉ s.flushed
  owed : ∀ k ∈ s.owed, k.key ∈ s.hwi.pendingKeys
  owedOnce : (s.owed.map PendingBufferInfo.key).Nodup
  stored : ∀ x ∈ s.hwi.storedKeys, x ∈ s.hwi.pendingKeys ∧ x ∉ s.owed.map PendingBufferInfo.key
  covered : ∀ i ∈ s.hwi.pendingRequestsList,
    (∃ x ∈ s.hwi.pendingKeys, x.1 = i.frameNumber) ∨ s.hwi.cachedFor i.frameNumber ≠ []

structure CompletionInv (s : Session) : Prop where
  steps : Relation.ReflTransGen (Pipeline.Step requestReports) {} s.pipeline
  counts : ∀ i ∈ s.hwi.pendingRequestsList,
    i.partialResultCnt = if i.urgentReceived then 1 else 0
  places : PlacesInv s

theorem CompletionInv.inOrder (inv : CompletionInv s) :
    Pipeline.InOrder requestReports s.pipeline :=
  Pipeline.inOrder inv.steps .empty

theorem upTo_cases (u : Bool) :
    requestReports.upTo u = [] ∨ requestReports.upTo u = [.metadata 1] := by
  cases u with
  | false => exact .inl rfl
  | true => exact .inr rfl

theorem CompletionInv.completedOnce (inv : CompletionInv s) : CompletedOnce s where
  pending i hi := by
    have hjob := inv.inOrder.pending i.job (List.mem_map_of_mem hi)
    rw [show s.hwi.story i.frameNumber = _ from hjob]
    exact upTo_cases i.urgentReceived
  completed n hn hflushed hpending := by
    have hfinished : n ∈ s.pipeline.finished := by
      rcases inv.inOrder.mem_accepted.mp hn with hp | hf | ha
      · obtain ⟨x, hx, rfl⟩ := List.mem_map.mp hp
        obtain ⟨i, hi, rfl⟩ := List.mem_map.mp hx
        exact absurd rfl (hpending i hi)
      · exact hf
      · exact absurd ha hflushed
    obtain ⟨u, hu⟩ := inv.inOrder.finished n hfinished
    rw [show s.hwi.story n = _ from hu]
    rcases upTo_cases u with h | h
    · left
      rw [h]
      rfl
    · right
      rw [h]
      rfl
  flushed n hn := inv.inOrder.aborted n hn
  shutters := inv.inOrder.finishedSorted

theorem completionInv_start : CompletionInv Session.start where
  steps := .refl
  counts := by simp [Session.start]
  places := {
    handles := .nil
    frames := by simp [Session.start, Hwi.pendingKeys]
    owed := by simp [Session.start]
    owedOnce := .nil
    stored := by simp [Session.start, Hwi.storedKeys]
    covered := by simp [Session.start] }

theorem CompletionInv.sorted (inv : CompletionInv s) :
    (s.hwi.pendingRequestsList.map PendingRequestInfo.frameNumber).Pairwise (· < ·) := by
  have hsorted := inv.inOrder.pendingSorted
  rw [show s.pipeline.pending = s.hwi.pendingRequestsList.map PendingRequestInfo.job from rfl,
    List.map_map] at hsorted
  exact hsorted

/-! ## Milestones of events -/

theorem milestones_append {events : List Event} (htrace : h'.trace = h.trace ++ events) :
    h'.milestones = h.milestones ++ events.filterMap Event.milestone := by
  simp_all [Hwi.milestones]

theorem shutters_append {ms : List (Nat × Milestone)} (hms : h'.milestones = h.milestones ++ ms) :
    h'.shutters = h.shutters ++ (ms.filter fun e => e.2 = .shutter).map Prod.fst := by
  simp [Hwi.shutters, hms]

theorem pipeline_congr {events : List Event}
    (hjobs : h.pendingRequestsList.map PendingRequestInfo.job =
      s.hwi.pendingRequestsList.map PendingRequestInfo.job)
    (htrace : h.trace = s.hwi.trace ++ events)
    (hnone : events.filterMap Event.milestone = []) :
    Session.pipeline { s with hwi := h } = s.pipeline := by
  have hms : h.milestones = s.hwi.milestones := by
    rw [milestones_append htrace, hnone, List.append_nil]
  unfold Session.pipeline
  simp only [hjobs, hms, Hwi.shutters]

theorem pipeline_finish {events : List Event} {i : PendingRequestInfo}
    {P : List PendingRequestInfo} (hP : s.hwi.pendingRequestsList = i :: P)
    (hP' : h.pendingRequestsList = P) (htrace : h.trace = s.hwi.trace ++ events)
    (hevents : events.filterMap Event.milestone =
      [(i.frameNumber, .shutter), (i.frameNumber, .metadata partialResultCount)]) :
    Pipeline.Step requestReports s.pipeline (Session.pipeline { s with hwi := h }) := by
  have hms := milestones_append htrace
  rw [hevents] at hms
  have hshutters := shutters_append hms
  have hstep := Pipeline.Step.finish (R := requestReports) (p := s.pipeline) i.frameNumber
    i.urgentReceived (P.map PendingRequestInfo.job) (by simp [Session.pipeline, hP,
      PendingRequestInfo.job])
  simp_all [Session.pipeline, Pipeline.entries, requestReports]

/-! ## Places of buffers -/

theorem PlacesInv.congr (inv : PlacesInv s)
    (hP : h.pendingRequestsList.map PendingRequestInfo.core =
      s.hwi.pendingRequestsList.map PendingRequestInfo.core)
    (hmap : h.pendingBuffersMap = s.hwi.pendingBuffersMap)
    (hC : h.pendingReprocessResultList = s.hwi.pendingReprocessResultList) :
    PlacesInv { s with hwi := h } := by
  have hkeys : h.pendingKeys = s.hwi.pendingKeys := by
    unfold Hwi.pendingKeys
    rw [hmap]
  have hcached := cachedFor_congr hC
  constructor
  · rw [hkeys]
    exact inv.handles
  · rw [hkeys]
    exact inv.frames
  · rw [hkeys]
    exact inv.owed
  · exact inv.owedOnce
  · rw [hkeys, show h.storedKeys = s.hwi.storedKeys from storedKeys_of_core hP]
    exact inv.stored
  · refine forall_of_core (fun i => (∃ x ∈ h.pendingKeys, x.1 = i.frameNumber) ∨
      h.cachedFor i.frameNumber ≠ []) hP ?_
    intro i hi
    rw [hkeys, hcached]
    exact inv.covered i hi

theorem PlacesInv.accept (inv : PlacesInv s) {r : CaptureRequest} (hr : r.Expected s)
    (houts : r.outputBuffers ≠ [])
    (hflushed : ∀ n ∈ s.flushed, n ∈ s.accepted)
    (hP : h.pendingRequestsList = s.hwi.pendingRequestsList ++ [r.pendingRequest])
    (hlist : h.pendingBuffersMap.pendingBufferList =
      s.hwi.pendingBuffersMap.pendingBufferList ++ r.pendingBuffers)
    (hC : h.pendingReprocessResultList = s.hwi.pendingReprocessResultList) :
    PlacesInv { s.accept r with hwi := h } := by
  have hkeys : h.pendingKeys = s.hwi.pendingKeys ++ r.keys := by
    simp only [Hwi.pendingKeys, hlist, List.map_append, CaptureRequest.keys]
  have hnew : ∀ x ∈ r.keys, x ∉ s.hwi.pendingKeys := by
    intro x hx hmem
    have hlt := hr.increasing _ (inv.frames x hmem).1
    rw [CaptureRequest.keys_frame hx] at hlt
    exact Nat.lt_irrefl _ hlt
  have hnodup : r.keys.Nodup := .of_map Prod.snd (by rw [r.keys_handles]; exact hr.distinct)
  constructor
  · rw [hkeys, List.map_append, r.keys_handles]
    refine List.nodup_append.mpr ⟨inv.handles, hr.distinct, ?_⟩
    rintro x hx y hy rfl
    obtain ⟨b, hb, rfl⟩ := List.mem_map.mp hy
    refine hr.free b hb ?_
    simp [Hwi.held, hx]
  · rw [hkeys]
    intro x hx
    rcases List.mem_append.mp hx with hx | hx
    · exact ⟨List.mem_append_left _ (inv.frames x hx).1, (inv.frames x hx).2⟩
    · rw [CaptureRequest.keys_frame hx]
      refine ⟨List.mem_append_right _ (List.mem_singleton.mpr rfl), ?_⟩
      intro hmem
      exact Nat.lt_irrefl _ (hr.increasing _ (hflushed _ hmem))
  · rw [hkeys]
    intro k hk
    unfold Session.accept at hk
    split at hk
    · exact List.mem_append_left _ (inv.owed k hk)
    · rcases List.mem_append.mp hk with hk | hk
      · exact List.mem_append_left _ (inv.owed k hk)
      · exact List.mem_append_right _ (List.mem_map_of_mem hk)
  · unfold Session.accept
    split
    · exact inv.owedOnce
    · rw [List.map_append]
      refine List.nodup_append.mpr ⟨inv.owedOnce, hnodup, ?_⟩
      rintro x hx y hy rfl
      obtain ⟨k, hk, rfl⟩ := List.mem_map.mp hx
      exact hnew _ hy (inv.owed k hk)
  · have hstored : h.storedKeys = s.hwi.storedKeys := by
      simp [Hwi.storedKeys, PendingRequestInfo.storedKeys, hP, r.stored_pendingRequest]
    rw [hstored, hkeys]
    intro x hx
    obtain ⟨hmem, hnot⟩ := inv.stored x hx
    refine ⟨List.mem_append_left _ hmem, ?_⟩
    unfold Session.accept
    split
    · exact hnot
    · rw [List.map_append]
      intro hx'
      rcases List.mem_append.mp hx' with hx' | hx'
      · exact hnot hx'
      · exact hnew x hx' hmem
  · rw [hP, hkeys]
    intro i hi
    rcases List.mem_append.mp hi with hi | hi
    · rcases inv.covered i hi with ⟨x, hx, heq⟩ | hcached
      · exact .inl ⟨x, List.mem_append_left _ hx, heq⟩
      · right
        rw [cachedFor_congr hC]
        exact hcached
    · obtain rfl := List.mem_singleton.mp hi
      left
      obtain ⟨b, hb⟩ := List.exists_mem_of_ne_nil _ houts
      refine ⟨(r.frameNumber, b.buffer), List.mem_append_right _ ?_, rfl⟩
      exact List.mem_map.mpr ⟨_, List.mem_map_of_mem hb, rfl⟩

theorem PlacesInv.callback (inv : PlacesInv s) {k : PendingBufferInfo} (hk : k ∈ s.owed)
    (hsub : h.pendingKeys.Sublist s.hwi.pendingKeys)
    (hkeep : ∀ x ∈ s.hwi.pendingKeys, x ≠ k.key → x ∈ h.pendingKeys)
    (hstored : ∀ x ∈ h.storedKeys, x ∈ s.hwi.storedKeys ∨ x = k.key ∧ x ∈ h.pendingKeys)
    (hcovered : ∀ i ∈ h.pendingRequestsList, i.frameNumber = k.frameNumber →
      (∃ x ∈ h.pendingKeys, x.1 = i.frameNumber) ∨ h.cachedFor i.frameNumber ≠ [])
    (hothers : ∀ i ∈ h.pendingRequestsList, i.frameNumber ≠ k.frameNumber →
      i ∈ s.hwi.pendingRequestsList)
    (hC : s.hwi.pendingReprocessResultList.Sublist h.pendingReprocessResultList) :
    PlacesInv { s with owed := s.owed.erase k, called := s.called ++ [k.key], hwi := h } := by
  have howed : (k.key :: (s.owed.erase k).map PendingBufferInfo.key).Nodup :=
    ((List.perm_cons_erase hk).map PendingBufferInfo.key).nodup_iff.mp inv.owedOnce
  have hnot := (List.nodup_cons.mp howed).1
  have herase : ∀ x ∈ (s.owed.erase k).map PendingBufferInfo.key,
      x ∈ s.owed.map PendingBufferInfo.key :=
    fun x hx => (List.erase_sublist.map _).subset hx
  constructor
  · exact inv.handles.sublist (hsub.map _)
  · intro x hx
    exact inv.frames x (hsub.subset hx)
  · intro k' hk'
    apply hkeep _ (inv.owed k' (List.mem_of_mem_erase hk'))
    simp_all
  · exact (List.nodup_cons.mp howed).2
  · intro x hx
    rcases hstored x hx with hx | ⟨rfl, hmem⟩
    · obtain ⟨hmem, hfree⟩ := inv.stored x hx
      grind
    · exact ⟨hmem, hnot⟩
  · intro i hi
    by_cases heq : i.frameNumber = k.frameNumber
    · exact hcovered i hi heq
    · rcases inv.covered i (hothers i hi heq) with ⟨x, hx, hxi⟩ | hcached
      · refine .inl ⟨x, hkeep x hx ?_, hxi⟩
        rintro rfl
        exact heq hxi.symm
      grind [Hwi.cachedFor]

theorem PlacesInv.complete (inv : PlacesInv s) {i : PendingRequestInfo}
    {P : List PendingRequestInfo} (hP : s.hwi.pendingRequestsList = i :: P)
    (hsorted : ((i :: P).map PendingRequestInfo.frameNumber).Pairwise (· < ·))
    (md : Metadata) (metadataBuf : Nat) :
    PlacesInv { s with hwi := s.hwi.completeRequest md metadataBuf i } := by
  obtain ⟨bs, heq, -, -⟩ := completeRequest_eq s.hwi md metadataBuf i
  obtain ⟨h₀, hsame, hafter⟩ := pendingKeys_completeRequest_eq s.hwi md metadataBuf i
  obtain ⟨hsub, hmem⟩ := returnBuffers_mem md.frameNumber i.buffers h₀
  rw [hsame, ← hafter] at hsub hmem
  have hP' : (s.hwi.completeRequest md metadataBuf i).pendingRequestsList = P := by
    rw [heq, hP]
    rfl
  have hstoredKeys : s.hwi.storedKeys =
      i.storedKeys ++ (s.hwi.completeRequest md metadataBuf i).storedKeys := by
    unfold Hwi.storedKeys
    rw [hP, hP', List.flatMap_cons]
  -- what is not stored in the request stays
  have hkeep : ∀ x ∈ s.hwi.pendingKeys, x ∉ i.storedKeys →
      x ∈ (s.hwi.completeRequest md metadataBuf i).pendingKeys := by
    intro x hx hnot
    apply hmem x hx
    intro b hb hxb
    have hbkey : (i.frameNumber, b.buffer) ∈ i.storedKeys := List.mem_map.mpr ⟨b, hb, rfl⟩
    have hbmem : (i.frameNumber, b.buffer) ∈ s.hwi.pendingKeys := by
      simp [inv.stored, hstoredKeys, hbkey]
    have hxkey : x = (i.frameNumber, b.buffer) :=
      List.inj_on_of_nodup_map inv.handles hx hbmem hxb
    exact hnot (hxkey ▸ hbkey)
  have hframe : ∀ x ∈ i.storedKeys, x.1 = i.frameNumber := by
    intro x hx
    obtain ⟨b, -, rfl⟩ := List.mem_map.mp hx
    rfl
  have hlater : ∀ j ∈ P, i.frameNumber < j.frameNumber := by
    rw [List.map_cons, List.pairwise_cons] at hsorted
    intro j hj
    exact hsorted.1 _ (List.mem_map_of_mem hj)
  constructor
  · exact inv.handles.sublist (hsub.map _)
  · intro x hx
    exact inv.frames x (hsub.subset hx)
  · intro k hk
    apply hkeep _ (inv.owed k hk)
    intro hx
    apply (inv.stored k.key _).2 (List.mem_map_of_mem hk)
    simp [hstoredKeys, hx]
  · exact inv.owedOnce
  · intro x hx
    obtain ⟨hxmem, hfree⟩ := inv.stored x (by
      simp [hstoredKeys, hx])
    refine ⟨hkeep x hxmem ?_, hfree⟩
    intro hxi
    -- it is stored in a later request
    unfold Hwi.storedKeys at hx
    rw [hP'] at hx
    obtain ⟨j, hj, hxj⟩ := List.mem_flatMap.mp hx
    obtain ⟨b, -, rfl⟩ := List.mem_map.mp hxj
    have hlt := hlater j hj
    rw [← hframe _ hxi] at hlt
    exact Nat.lt_irrefl _ hlt
  · rw [hP']
    intro j hj
    rcases inv.covered j (by rw [hP]; exact List.mem_cons_of_mem _ hj) with ⟨x, hx, hxj⟩ | hcached
    · grind
    · right
      rw [heq]
      exact hcached

/-! ## Urgent metadata -/

theorem urgent_split (h : Hwi) (md : Metadata) :
    ((∀ i ∈ h.pendingRequestsList,
        ¬ (i.frameNumber = md.urgentFrameNumber ∧ i.urgentReceived = false)) ∧
      h.handleUrgentMetadata md = h) ∨
    ∃ i l₁ l₂, h.pendingRequestsList = l₁ ++ i :: l₂ ∧
      i.frameNumber = md.urgentFrameNumber ∧ i.urgentReceived = false ∧
      h.handleUrgentMetadata md =
        { h with
          pendingRequestsList := l₁ ++
            { i with partialResultCnt := i.partialResultCnt + 1, urgentReceived := true } :: l₂
          trace := h.trace ++ [.processCaptureResult {
            frameNumber := md.urgentFrameNumber
            result := some .urgent
            outputBuffers := []
            partialResult := i.partialResultCnt + 1 }] } := by
  cases hfind : h.pendingRequestsList.find? (fun i =>
      decide (i.frameNumber = md.urgentFrameNumber ∧ i.urgentReceived = false)) with
  | none =>
    grind [Hwi.handleUrgentMetadata]
  | some i =>
    right
    obtain ⟨hi, l₁, l₂, hP, hl₁⟩ := List.find?_eq_some_iff_append.mp hfind
    have hi' := of_decide_eq_true hi
    refine ⟨i, l₁, l₂, hP, hi'.1, hi'.2, ?_⟩
    unfold Hwi.handleUrgentMetadata
    dsimp only
    rw [hfind]
    rw [hP, modifyFirst_append]
    · rfl
    · intro j hj hp
      simpa [hp] using hl₁ j hj
    · exact hi

theorem completionInv_urgent (inv : CompletionInv s) (md : Metadata) :
    CompletionInv { s with hwi := s.hwi.handleUrgentMetadata md } := by
  obtain ⟨P, events, hfields, -⟩ := urgent_fields s.hwi md
  have places : PlacesInv { s with hwi := s.hwi.handleUrgentMetadata md } :=
    inv.places.congr (urgent_core s.hwi md) (by rw [hfields]) (by rw [hfields])
  rcases urgent_split s.hwi md with ⟨-, heq⟩ | ⟨i, l₁, l₂, hP, hframe, hurgent, heq⟩
  · rw [heq]
    exact inv
  refine ⟨?_, ?_, places⟩
  · have hcnt : i.partialResultCnt = 0 := by
      rw [inv.counts i (by rw [hP]; simp), hurgent]
      rfl
    have hms := milestones_append (h := s.hwi) (congrArg Hwi.trace heq)
    have hshutters := shutters_append hms
    have hstep := Pipeline.Step.early (R := requestReports) (p := s.pipeline) i.frameNumber
      (l₁.map PendingRequestInfo.job) (l₂.map PendingRequestInfo.job) (by
        simp [Session.pipeline, hP, PendingRequestInfo.job, hurgent])
    refine inv.steps.tail ?_
    convert hstep using 1
    unfold Session.pipeline
    simp only [hms, hshutters]
    rw [heq, hcnt, hframe]
    simp [Event.milestone, Pipeline.entries, requestReports, PendingRequestInfo.job]
  · rw [heq]
    intro j hj
    rcases List.mem_append.mp hj with hj | hj
    · exact inv.counts j (by rw [hP]; exact List.mem_append_left _ hj)
    rcases List.mem_cons.mp hj with rfl | hj
    · rw [inv.counts i (by rw [hP]; simp), hurgent]
      rfl
    · exact inv.counts j (by rw [hP]; exact List.mem_append_right _ (List.mem_cons_of_mem _ hj))

theorem urgent_received (inv : CompletionInv s) {md : Metadata}
    (hgives : ∀ i ∈ s.hwi.completed md.frameNumber, md.GivesUrgent i) {h : Hwi}
    (hh : h = if md.urgentFrameNumberValid then s.hwi.handleUrgentMetadata md else s.hwi) :
    ∀ i ∈ h.completed md.frameNumber, i.urgentReceived = true := by
  rw [hh]
  split
  · rcases urgent_split s.hwi md with ⟨hnone, heq⟩ | ⟨i, l₁, l₂, hP, hframe, hurgent, heq⟩
    · rw [heq]
      intro i hi
      rcases hgives i hi with hreceived | ⟨-, hi'⟩
      · exact hreceived
      · have hnot := hnone i (List.mem_of_mem_filter hi)
        simpa [hi'] using hnot
    · rw [heq]
      intro j hj
      obtain ⟨hj, hle⟩ := List.mem_filter.mp hj
      have hsorted := inv.sorted
      rw [hP, List.map_append, List.map_cons] at hsorted
      -- another request of the list is of another frame
      have hother : ∀ j ∈ l₁ ++ l₂, decide (j.frameNumber ≤ md.frameNumber) = true →
          j.urgentReceived = true := by
        intro j hj hle
        have hmem : j ∈ s.hwi.pendingRequestsList := by
          rw [hP]
          exact ((List.sublist_cons_self i l₂).append_left l₁).subset hj
        rcases hgives j (List.mem_filter.mpr ⟨hmem, hle⟩) with hreceived | ⟨-, hj'⟩
        · exact hreceived
        · have hnd := (List.perm_middle.nodup_iff).mp (hsorted.imp Nat.ne_of_lt)
          grind
      grind
  · rename_i hvalid
    intro i hi
    rcases hgives i hi with hreceived | ⟨hv, -⟩
    · exact hreceived
    · exact absurd hv hvalid

/-! ## Final metadata -/

theorem completionEvents_milestones (md : Metadata) (metadataBuf : Nat) (i : PendingRequestInfo)
    (bs : List StreamBuffer) :
    (completionEvents md metadataBuf i bs).filterMap Event.milestone =
      [(i.frameNumber, .shutter), (i.frameNumber, .metadata (i.partialResultCnt + 1))] := by
  have hdropped : ((Hwi.droppedStreams md i).map fun stream =>
      Event.notify (.errorBuffer i.frameNumber stream)).filterMap Event.milestone = [] := by
    simp [List.filterMap_map, Event.milestone]
  grind [Hwi.disposeMetadata, Event.milestone, Hwi.shutterMsg, completionEvents]

theorem completionInv_completeRequest (inv : CompletionInv s) {i : PendingRequestInfo}
    {P : List PendingRequestInfo} (hP : s.hwi.pendingRequestsList = i :: P)
    (hurgent : i.urgentReceived = true) (md : Metadata) (metadataBuf : Nat) :
    CompletionInv { s with hwi := s.hwi.completeRequest md metadataBuf i } := by
  obtain ⟨bs, heq, -, -⟩ := completeRequest_eq s.hwi md metadataBuf i
  have hP' : (s.hwi.completeRequest md metadataBuf i).pendingRequestsList = P := by
    rw [heq, hP]
    rfl
  have hsorted := inv.sorted
  rw [hP] at hsorted
  refine ⟨inv.steps.tail (pipeline_finish hP hP' (by rw [heq]) ?_), ?_,
    inv.places.complete hP hsorted md metadataBuf⟩
  · rw [completionEvents_milestones, inv.counts i (by rw [hP]; simp), hurgent]
    rfl
  · rw [hP']
    intro j hj
    exact inv.counts j (by rw [hP]; exact List.mem_cons_of_mem _ hj)

theorem completionInv_completeRequests (md : Metadata) (metadataBuf : Nat) (fuel : Nat)
    (s : Session) (inv : CompletionInv s)
    (hurgent : ∀ i ∈ s.hwi.completed md.frameNumber, i.urgentReceived = true)
    (hnext : s.hwi.completed md.frameNumber = [] ∨
      s.hwi.cachedFor ((md.frameNumber + 1) % 2 ^ 32) = []) :
    ∃ h, Hwi.completeRequests metadataBuf md fuel s.hwi = some h ∧
      CompletionInv { s with hwi := h } := by
  induction fuel generalizing s with
  | zero => exact ⟨s.hwi, rfl, inv⟩
  | succ fuel ih =>
    unfold Hwi.completeRequests
    cases hP : s.hwi.pendingRequestsList with
    | nil => exact ⟨s.hwi, rfl, inv⟩
    | cons i P =>
      dsimp only
      split
      · rename_i hle
        have hi : i ∈ s.hwi.completed md.frameNumber :=
          List.mem_filter.mpr ⟨by rw [hP]; simp, by simpa using hle⟩
        have hnone : s.hwi.cachedFor ((md.frameNumber + 1) % 2 ^ 32) = [] := by
          grind
        have inv' := completionInv_completeRequest inv hP (hurgent i hi) md metadataBuf
        obtain ⟨bs, heq, -, -⟩ := completeRequest_eq s.hwi md metadataBuf i
        have hnone' : (s.hwi.completeRequest md metadataBuf i).cachedFor
            ((md.frameNumber + 1) % 2 ^ 32) = [] := by
          rw [heq]
          exact hnone
        rw [if_neg (not_danglingNext hnone'), handlePendingReprocResults_none hnone']
        refine ih { s with hwi := s.hwi.completeRequest md metadataBuf i } inv' ?_ (.inr hnone')
        intro j hj
        obtain ⟨hjmem, hjle⟩ := List.mem_filter.mp hj
        apply hurgent
        refine List.mem_filter.mpr ⟨?_, hjle⟩
        rw [heq] at hjmem
        exact List.mem_of_mem_tail hjmem
      · exact ⟨s.hwi, rfl, inv⟩

theorem completionInv_metadata (inv : CompletionInv s) (metadataBuf : Nat) (md : Option Metadata)
    (hkeep : (Op.metadata metadataBuf md).KeepsOrder s) :
    ∃ h, s.hwi.handleMetadataWithLock metadataBuf md = some h ∧
      CompletionInv { (Op.metadata metadataBuf md).record s with hwi := h } := by
  have hdone : ∀ s : Session, CompletionInv s →
      CompletionInv { s with hwi := s.hwi.emit [.bufDone metadataBuf] } := by
    intro s inv
    refine ⟨?_, inv.counts, inv.places.congr rfl rfl rfl⟩
    have hsame : Session.pipeline { s with hwi := s.hwi.emit [.bufDone metadataBuf] } =
        s.pipeline := pipeline_congr rfl rfl rfl
    rw [hsame]
    exact inv.steps
  cases md with
  | none => exact ⟨_, rfl, hdone s inv⟩
  | some md =>
    unfold Hwi.handleMetadataWithLock
    dsimp only
    set h₁ := if md.urgentFrameNumberValid then s.hwi.handleUrgentMetadata md else s.hwi with hh₁
    have inv₁ : CompletionInv { s with hwi := h₁ } := by
      rw [hh₁]
      split
      · exact completionInv_urgent inv md
      · exact inv
    cases hvalid : md.frameNumberValid with
    | false =>
      refine ⟨h₁.emit [.bufDone metadataBuf], rfl, ?_⟩
      show CompletionInv { (if md.frameNumberValid then _ else s) with hwi := _ }
      rw [hvalid]
      exact hdone { s with hwi := h₁ } inv₁
    | true =>
      obtain ⟨hgives, hnext⟩ := hkeep md rfl hvalid
      have hsame : h₁.pendingRequestsList.map PendingRequestInfo.core =
          s.hwi.pendingRequestsList.map PendingRequestInfo.core ∧
          h₁.pendingReprocessResultList = s.hwi.pendingReprocessResultList := by
        rw [hh₁]
        split
        · obtain ⟨P, events, hfields, -⟩ := urgent_fields s.hwi md
          exact ⟨urgent_core s.hwi md, by rw [hfields]⟩
        · exact ⟨rfl, rfl⟩
      have hnext₁ : h₁.completed md.frameNumber = [] ∨
          h₁.cachedFor ((md.frameNumber + 1) % 2 ^ 32) = [] := by
        rcases hnext with hnil | hnone
        · left
          have hcore := completed_core (n := md.frameNumber) hsame.1
          simp_all
        · right
          rw [cachedFor_congr hsame.2]
          exact hnone
      obtain ⟨h, hrun, inv'⟩ := completionInv_completeRequests md metadataBuf
        h₁.pendingRequestsList.length { s with hwi := h₁ } inv₁ (urgent_received inv hgives hh₁)
        hnext₁
      refine ⟨h, ?_, ?_⟩
      · rw [← hrun]
        rfl
      · show CompletionInv { (if md.frameNumberValid then _ else s) with hwi := h }
        rw [hvalid, if_pos rfl]
        exact ⟨inv'.steps, inv'.counts, { inv'.places with }⟩

/-! ## Buffer callbacks -/

theorem storedKeys_sublist {P P' : List PendingRequestInfo} (hP : P'.Sublist P) :
    ∀ x ∈ P'.flatMap PendingRequestInfo.storedKeys,
      x ∈ P.flatMap PendingRequestInfo.storedKeys := by
  grind

theorem PlacesInv.keep (inv : PlacesInv s) {k : PendingBufferInfo} (hk : k ∈ s.owed) :
    ∀ x ∈ s.hwi.pendingKeys, x ≠ k.key → x ∈ (s.hwi.takeBuffer k.buffer).pendingKeys := by
  intro x hx hne
  apply mem_pendingKeys_takeBuffer hx
  intro heq
  exact hne (List.inj_on_of_nodup_map inv.handles hx (inv.owed k hk) heq)

theorem completionInv_buffer_direct (inv : CompletionInv s) {b : StreamBuffer} {n : Nat}
    (hk : ⟨n, b.stream, b.buffer⟩ ∈ s.owed) (hfind : s.hwi.findRequest n = none) (now : UInt64) :
    CompletionInv { s with
      owed := s.owed.erase ⟨n, b.stream, b.buffer⟩
      called := s.called ++ [(n, b.buffer)]
      hwi := s.hwi.handleBufferWithLock b n now } := by
  have hnone : ∀ i ∈ s.hwi.pendingRequestsList, ¬ i.frameNumber = n := by
    simpa [Hwi.findRequest] using hfind
  obtain ⟨b', drops, hreturn, -⟩ := returnBuffer_eq s.hwi n b
  have hh : s.hwi.handleBufferWithLock b n now =
      (s.hwi.returnBuffer n b).2.emit [.processCaptureResult {
        frameNumber := n
        result := none
        outputBuffers := [(s.hwi.returnBuffer n b).1]
        partialResult := 0 }] := by
    unfold Hwi.handleBufferWithLock
    rw [hfind]
  rw [hh, hreturn]
  refine ⟨?_, inv.counts, inv.places.callback hk
    (pendingKeys_takeBuffer_sublist s.hwi b.buffer) (inv.places.keep hk)
    (fun x hx => .inl hx) ?_ (fun i hi _ => hi) (.refl _)⟩
  · refine (?_ : Session.pipeline _ = s.pipeline) ▸ inv.steps
    exact pipeline_congr rfl rfl rfl
  · intro i hi heq
    exact absurd heq (hnone i hi)

theorem completionInv_buffer_reprocess (inv : CompletionInv s) {b : StreamBuffer} {n : Nat}
    {i : PendingRequestInfo} (hk : ⟨n, b.stream, b.buffer⟩ ∈ s.owed)
    (hfind : s.hwi.findRequest n = some i) (hin : i.inputBuffer.isSome) (now : UInt64)
    (hkeep : (Op.buffer b n now).KeepsOrder s) :
    CompletionInv { s with
      owed := s.owed.erase ⟨n, b.stream, b.buffer⟩
      called := s.called ++ [(n, b.buffer)]
      hwi := s.hwi.handleBufferWithLock b n now } := by
  have hh : s.hwi.handleBufferWithLock b n now = s.hwi.handleReprocessBuffer i b n now := by
    simp_all [Hwi.handleBufferWithLock]
  have hsettings := hkeep i hfind hin
  obtain ⟨hi, l₁, l₂, hP, hl₁⟩ := findRequest_split hfind
  rw [hh]
  unfold Hwi.handleReprocessBuffer
  rw [takeBuffer_fields]
  dsimp only
  split
  · -- no older request is pending, so that this is the first one
    rename_i hall
    have holder : ∀ j ∈ s.hwi.pendingRequestsList, ¬ j.frameNumber < n := by simpa using hall
    have hfirst : l₁ = [] := by
      apply List.eq_nil_iff_forall_not_mem.mpr
      intro j hj
      have hsorted := inv.sorted
      grind
    subst hfirst
    rw [List.nil_append] at hP
    obtain ⟨st, hst⟩ := Option.isSome_iff_exists.mp (hsettings holder)
    have herase : s.hwi.pendingRequestsList.eraseP (fun i => decide (i.frameNumber = n)) = l₂ := by
      rw [hP, List.eraseP_cons_of_pos (by simpa using hi)]
    refine ⟨inv.steps.tail (pipeline_finish hP herase rfl ?_), ?_, ?_⟩
    · rw [hi, hst]
      rfl
    · intro j hj
      exact inv.counts j (List.eraseP_sublist.subset hj)
    · refine inv.places.callback hk (pendingKeys_takeBuffer_sublist s.hwi b.buffer)
        (inv.places.keep hk) (fun x hx => .inl ?_) ?_ (fun j hj _ => List.eraseP_sublist.subset hj)
        (.refl _)
      · exact storedKeys_sublist List.eraseP_sublist x hx
      · intro j hj heq
        -- the frame number is in the list once
        have hsorted := inv.sorted
        rw [hP, List.map_cons, List.pairwise_cons] at hsorted
        have hj₂ : j ∈ l₂ := by
          rw [← herase]
          exact hj
        have hlt := hsorted.1 _ (List.mem_map_of_mem hj₂)
        simp_all
  · refine ⟨?_, inv.counts, ?_⟩
    · refine (?_ : Session.pipeline _ = s.pipeline) ▸ inv.steps
      exact pipeline_congr rfl (List.append_nil _).symm rfl
    · refine inv.places.callback hk (pendingKeys_takeBuffer_sublist s.hwi b.buffer)
        (inv.places.keep hk) (fun x hx => .inl hx) ?_ (fun j hj _ => hj)
        (List.sublist_append_left ..)
      intro j _ heq
      right
      intro hnil
      refine cachedFor_eq_nil.mp hnil _ (List.mem_append_right _ (List.mem_singleton.mpr rfl)) ?_
      exact heq.symm

theorem completionInv_buffer_store (inv : CompletionInv s) {b : StreamBuffer} {n : Nat}
    {i : PendingRequestInfo} (hk : ⟨n, b.stream, b.buffer⟩ ∈ s.owed)
    (hfind : s.hwi.findRequest n = some i) (hin : i.inputBuffer = none) (now : UInt64) :
    CompletionInv { s with
      owed := s.owed.erase ⟨n, b.stream, b.buffer⟩
      called := s.called ++ [(n, b.buffer)]
      hwi := s.hwi.handleBufferWithLock b n now } := by
  have hh : s.hwi.handleBufferWithLock b n now = s.hwi.storeBuffer b n := by
    unfold Hwi.handleBufferWithLock
    simp [hfind, hin]
  obtain ⟨hi, l₁, l₂, hP, hl₁⟩ := findRequest_split hfind
  have hkey : (n, b.buffer) ∈ s.hwi.pendingKeys := inv.places.owed _ hk
  rw [hh, storeBuffer_split hi hP hl₁]
  -- a request of the new list is one of the old list up to its buffers
  have hsame : ∀ j ∈ l₁ ++ { i with buffers := i.buffers.map (RequestedBufferInfo.fill b) } :: l₂,
      ∃ j' ∈ s.hwi.pendingRequestsList, j' = { j with buffers := j'.buffers } ∧
        ∀ x ∈ j.storedKeys, x ∈ j'.storedKeys ∨ x = (n, b.buffer) := by
    intro j hj
    rw [hP]
    rcases List.mem_append.mp hj with hj | hj
    · exact ⟨j, List.mem_append_left _ hj, rfl, fun x hx => .inl hx⟩
    rcases List.mem_cons.mp hj with rfl | hj
    · refine ⟨i, by simp, rfl, ?_⟩
      intro x hx
      obtain ⟨b', hb', rfl⟩ := List.mem_map.mp hx
      rcases List.mem_append.mp ((fill_stored b i.buffers).mem_iff.mp hb') with hb' | hb'
      · right
        rw [List.eq_of_mem_replicate hb']
        exact congrArg (fun n => (n, b.buffer)) hi
      · exact .inl (List.mem_map.mpr ⟨b', hb', rfl⟩)
    · exact ⟨j, List.mem_append_right _ (List.mem_cons_of_mem _ hj), rfl, fun x hx => .inl hx⟩
  refine ⟨?_, ?_, inv.places.callback hk (.refl _) (fun x hx _ => hx) ?_ ?_ ?_ (.refl _)⟩
  · refine (?_ : Session.pipeline _ = s.pipeline) ▸ inv.steps
    refine pipeline_congr ?_ (List.append_nil _).symm rfl
    rw [hP, List.map_append, List.map_append]
    rfl
  · intro j hj
    obtain ⟨j', hj', heq, -⟩ := hsame j hj
    have hcnt := inv.counts j' hj'
    rw [heq] at hcnt
    exact hcnt
  · intro x hx
    obtain ⟨j, hj, hxj⟩ := List.mem_flatMap.mp hx
    obtain ⟨j', hj', -, hstored⟩ := hsame j hj
    rcases hstored x hxj with hx' | rfl
    · exact .inl (List.mem_flatMap.mpr ⟨j', hj', hx'⟩)
    · exact .inr ⟨rfl, hkey⟩
  · intro j _ heq
    exact .inl ⟨_, hkey, heq.symm⟩
  grind

theorem completionInv_buffer (inv : CompletionInv s) {b : StreamBuffer} {n : Nat}
    (hk : ⟨n, b.stream, b.buffer⟩ ∈ s.owed) (now : UInt64)
    (hkeep : (Op.buffer b n now).KeepsOrder s) :
    CompletionInv { s with
      owed := s.owed.erase ⟨n, b.stream, b.buffer⟩
      called := s.called ++ [(n, b.buffer)]
      hwi := s.hwi.handleBufferWithLock b n now } := by
  cases hfind : s.hwi.findRequest n with
  | none => exact completionInv_buffer_direct inv hk hfind now
  | some i =>
    cases hin : i.inputBuffer with
    | none => exact completionInv_buffer_store inv hk hfind hin now
    | some input => exact completionInv_buffer_reprocess inv hk hfind (by simp [hin]) now hkeep

/-! ## Flush -/

theorem finishFlush_milestones (h : Hwi) (sentinel : Nat) :
    (h.finishFlush sentinel).milestones = h.milestones ++
      ((FlushMap.ofList (h.pendingBuffersMap.pendingBufferList.filter fun k =>
        ¬ k.frameNumber < h.oldestFrame sentinel)).map Prod.fst).map
          fun n => (n, Milestone.errorRequest) := by
  have hsent : ∀ m : FlushMap, (m.flatMap flushBuffers).filterMap Event.milestone = [] := by
    simp [List.filterMap_flatMap, flushBuffers, flushResult, Event.milestone]
  have hpending : ∀ m : FlushMap, (m.flatMap flushRequest).filterMap Event.milestone =
      (m.map Prod.fst).map fun n => (n, Milestone.errorRequest) := by
    intro m
    induction m with
    | nil => rfl
    | cons g m ih =>
      rw [List.flatMap_cons, List.filterMap_append, ih]
      rfl
  rw [milestones_append (h := h) rfl, List.filterMap_append, hsent, hpending, List.nil_append]

theorem flushed_frames (inv : CompletionInv s) {sentinel : Nat}
    (hkeep : (Op.finishFlush sentinel).KeepsOrder s) :
    (FlushMap.ofList (s.hwi.pendingBuffersMap.pendingBufferList.filter fun k =>
        ¬ k.frameNumber < s.hwi.oldestFrame sentinel)).map Prod.fst =
      s.hwi.pendingRequestsList.map PendingRequestInfo.frameNumber := by
  obtain ⟨hpending, hnone⟩ := hkeep
  obtain ⟨hsorted, hmem⟩ := flushMap_ofList_keys
    (s.hwi.pendingBuffersMap.pendingBufferList.filter fun k =>
      ¬ k.frameNumber < s.hwi.oldestFrame sentinel)
  have hsortedP := inv.sorted
  have holdest : ∀ i ∈ s.hwi.pendingRequestsList,
      s.hwi.oldestFrame sentinel ≤ i.frameNumber := by
    intro i hi
    unfold Hwi.oldestFrame
    cases hP : s.hwi.pendingRequestsList with
    | nil =>
      rw [hP] at hi
      cases hi
    | cons i₀ P =>
      rw [hP] at hi hsortedP
      exact head_le hsortedP i hi
  refine List.Perm.eq_of_pairwise (fun a b _ _ h₁ h₂ => absurd h₁ (Nat.lt_asymm h₂))
    hsorted hsortedP ?_
  refine (List.perm_ext_iff_of_nodup (hsorted.imp Nat.ne_of_lt) (hsortedP.imp Nat.ne_of_lt)).mpr ?_
  intro n
  rw [hmem, List.mem_map]
  constructor
  · rintro ⟨k, hk, rfl⟩
    obtain ⟨hk, hge⟩ := List.mem_filter.mp hk
    have hkey : k.key ∈ s.hwi.pendingKeys := List.mem_map_of_mem hk
    obtain ⟨haccepted, hnot⟩ := inv.places.frames _ hkey
    rcases inv.inOrder.mem_accepted.mp haccepted with hp | hf | ha
    · obtain ⟨x, hx, hxk⟩ := List.mem_map.mp hp
      obtain ⟨i, hi, rfl⟩ := List.mem_map.mp hx
      exact ⟨i, hi, hxk⟩
    · -- a finished request is older than the pending ones
      exfalso
      have hge' : ¬ k.frameNumber < s.hwi.oldestFrame sentinel := by simpa using hge
      apply hge'
      unfold Hwi.oldestFrame
      cases hP : s.hwi.pendingRequestsList with
      | nil => exact hnone hP _ hkey
      | cons i P =>
        refine inv.inOrder.finishedFirst _ hf i.job (List.mem_map_of_mem ?_)
        simp [hP]
    · exact absurd ha hnot
  · rintro ⟨i, hi, rfl⟩
    have hbuffer : ∃ x ∈ s.hwi.pendingKeys, x.1 = i.frameNumber := by
      rcases inv.places.covered i hi with hx | hcached
      · exact hx
      · rcases (hpending i hi).2 with hnil | hx
        · exact absurd hnil hcached
        · exact hx
    obtain ⟨x, hx, hxi⟩ := hbuffer
    obtain ⟨k, hk, rfl⟩ := List.mem_map.mp hx
    refine ⟨k, List.mem_filter.mpr ⟨hk, ?_⟩, hxi⟩
    have hle : s.hwi.oldestFrame sentinel ≤ k.frameNumber := by
      rw [show k.frameNumber = i.frameNumber from hxi]
      exact holdest i hi
    simpa using hle

theorem completionInv_finishFlush (inv : CompletionInv s) {sentinel : Nat}
    (hkeep : (Op.finishFlush sentinel).KeepsOrder s) :
    CompletionInv { (Op.finishFlush sentinel).record s with
      hwi := s.hwi.finishFlush sentinel } := by
  have hms := finishFlush_milestones s.hwi sentinel
  rw [flushed_frames inv hkeep] at hms
  refine ⟨inv.steps.tail ?_, by simp [Hwi.finishFlush], ?_⟩
  · have hstep := Pipeline.Step.abort (R := requestReports) (p := s.pipeline)
      (s.hwi.pendingRequestsList.map PendingRequestInfo.frameNumber) (by
        rw [show s.pipeline.pending = s.hwi.pendingRequestsList.map PendingRequestInfo.job from rfl,
          List.map_map]
        exact .refl _) (by
        intro x hx
        obtain ⟨i, hi, rfl⟩ := List.mem_map.mp hx
        exact (hkeep.1 i hi).1)
    have hshutters : (s.hwi.finishFlush sentinel).shutters = s.hwi.shutters := by
      rw [shutters_append hms, List.filter_eq_nil_iff.mpr, List.map_nil, List.append_nil]
      simp
    rw [show List.flatMap (fun n => Pipeline.entries n requestReports.abort) _ = _ from
      List.map_eq_flatMap.symm] at hstep
    convert hstep using 1
    unfold Session.pipeline
    simp only [hms, hshutters]
    rfl
  · exact {
      handles := .nil
      frames := by simp [Hwi.finishFlush, Hwi.pendingKeys]
      owed := by simp [Op.record]
      owedOnce := .nil
      stored := by simp [Hwi.finishFlush, Hwi.storedKeys]
      covered := by simp [Hwi.finishFlush] }

/-! ## Runs -/

theorem completionInv_accept (inv : CompletionInv s) {r : CaptureRequest} (hr : r.Expected s)
    (houts : r.outputBuffers ≠ [])
    (hP : h.pendingRequestsList = s.hwi.pendingRequestsList ++ [r.pendingRequest])
    (hlist : h.pendingBuffersMap.pendingBufferList =
      s.hwi.pendingBuffersMap.pendingBufferList ++ r.pendingBuffers)
    (hC : h.pendingReprocessResultList = s.hwi.pendingReprocessResultList)
    (htrace : h.trace = s.hwi.trace) : CompletionInv { s.accept r with hwi := h } := by
  refine ⟨inv.steps.tail ?_, ?_, inv.places.accept hr houts ?_ hP hlist hC⟩
  · have hstep := Pipeline.Step.accept (R := requestReports) (p := s.pipeline) r.frameNumber
      hr.increasing
    convert hstep using 1
    unfold Session.pipeline Hwi.shutters Hwi.milestones
    simp only [hP, htrace, List.map_append]
    rfl
  · rw [hP]
    intro i hi
    rcases List.mem_append.mp hi with hi | hi
    · exact inv.counts i hi
    · obtain rfl := List.mem_singleton.mp hi
      rfl
  · intro n hn
    exact inv.inOrder.mem_accepted.mpr (.inr (.inr hn))

theorem completionInv_exec (inv : CompletionInv s) (op : Op) (hop : op.Expected s)
    (hkeep : op.KeepsOrder s) :
    ∃ h, op.exec s.hwi = some h ∧ CompletionInv { op.record s with hwi := h } := by
  have hquiet : ∀ h : Hwi, SameQueue s.hwi h → CompletionInv { s with hwi := h } := by
    intro h hsame
    refine ⟨?_, ?_, inv.places.congr ?_ hsame.pendingBuffersMap
      hsame.pendingReprocessResultList⟩
    · refine (?_ : Session.pipeline _ = s.pipeline) ▸ inv.steps
      refine pipeline_congr ?_ ((hsame.trace.trans (List.append_nil _).symm)) rfl
      rw [hsame.pendingRequestsList]
    · rw [hsame.pendingRequestsList]
      exact inv.counts
    · rw [hsame.pendingRequestsList]
  cases op with
  | configureStreams => exact hop.elim
  | processCaptureRequest r env =>
    obtain ⟨-, haccepts, hr⟩ := hop
    obtain ⟨houts, s₁, hsame, hsame'⟩ := queued_of_accepts haccepts
    refine ⟨_, rfl, ?_⟩
    show CompletionInv { (if s.Accepts r env then s.accept r else s) with hwi := _ }
    rw [if_pos haccepts]
    apply completionInv_accept inv hr houts
    · rw [hsame'.pendingRequestsList, ← hsame.pendingRequestsList]
      rfl
    · rw [hsame'.pendingBuffersMap, ← hsame.pendingBuffersMap]
      rfl
    · rw [hsame'.pendingReprocessResultList, ← hsame.pendingReprocessResultList]
      rfl
    · rw [hsame'.trace, ← hsame.trace]
      rfl
  | wakeUp timedOut => exact ⟨_, rfl, hquiet _ (wakeUp_sameQueue timedOut)⟩
  | daemonPullReq => exact ⟨_, rfl, inv.steps, inv.counts, inv.places.congr rfl rfl rfl⟩
  | metadata metadataBuf md => exact completionInv_metadata inv metadataBuf md hkeep
  | buffer b frameNumber now => exact ⟨_, rfl, completionInv_buffer inv hop now hkeep⟩
  | beginFlush => exact ⟨_, rfl, inv.steps, inv.counts, inv.places.congr rfl rfl rfl⟩
  | finishFlush sentinel => exact ⟨_, rfl, completionInv_finishFlush inv hkeep⟩

theorem completionInv_invariant : orderlySystem.Invariant CompletionInv where
  init s hs := by
    cases hs
    exact completionInv_start
  step s op s' inv hstep := by
    obtain ⟨⟨hop, hkeep⟩, hnext⟩ := hstep
    grind [completionInv_exec, hal3System]

/-- **Every request is completed once and in order** in every run whose calls keep the
order. -/
theorem completedOnce_of_reachable (hs : orderlySystem.Reachable s) : CompletedOnce s :=
  (completionInv_invariant.reachable hs).completedOnce

/-! ## Computed runs -/

instance (s : Session) (op : Op) : Decidable (op.KeepsOrder s) :=
  match op with
  | .metadata _ md => decidableForallSome md fun m => m.frameNumberValid = true →
      (∀ i ∈ s.hwi.completed m.frameNumber, i.urgentReceived = true ∨
        m.urgentFrameNumberValid = true ∧ m.urgentFrameNumber = i.frameNumber) ∧
        (s.hwi.completed m.frameNumber = [] ∨ s.hwi.cachedFor ((m.frameNumber + 1) % 2 ^ 32) = [])
  | .buffer _ frameNumber _ => decidableForallSome (s.hwi.findRequest frameNumber) fun i =>
      i.inputBuffer.isSome → (∀ j ∈ s.hwi.pendingRequestsList, ¬ j.frameNumber < frameNumber) →
        i.settings.isSome
  | .finishFlush sentinel => inferInstanceAs (Decidable
      ((∀ i ∈ s.hwi.pendingRequestsList, i.urgentReceived = false ∧
        (s.hwi.cachedFor i.frameNumber = [] ∨ ∃ x ∈ s.hwi.pendingKeys, x.1 = i.frameNumber)) ∧
        (s.hwi.pendingRequestsList = [] → ∀ x ∈ s.hwi.pendingKeys, x.1 < sentinel)))
  | .configureStreams | .processCaptureRequest .. | .wakeUp _ | .daemonPullReq | .beginFlush =>
    .isTrue trivial

def orderlyCalls : List Op :=
  [.processCaptureRequest (previewRequest 1 10) noFailures,
    .processCaptureRequest (pictureRequest 2 12) noFailures,
    .metadata 0 (some ⟨true, 1, true, 1, 0, []⟩),
    .buffer ⟨pictureStream, 12, false⟩ 2 0,
    .processCaptureRequest (previewRequest 3 11) noFailures,
    .beginFlush,
    .finishFlush 0]

theorem completedOnce_of_reachable_orderly :
    ∃ s, Session.run (fun s op => op.Expected s ∧ op.KeepsOrder s) orderlyCalls Session.start =
        some s ∧
      s.hwi.story 1 = [.metadata 1, .shutter, .metadata 2] ∧
      s.hwi.story 2 = [.shutter, .metadata 2] ∧ s.hwi.story 3 = [.errorRequest] ∧
      CompletedOnce s := by
  refine ⟨_, rfl, by decide +kernel, by decide +kernel, by decide +kernel, ?_⟩
  exact completedOnce_of_reachable (reachable_run orderlyCalls (.init rfl) rfl)

def missedUrgentCalls : List Op :=
  [.processCaptureRequest (previewRequest 1 10) noFailures,
    .metadata 0 (some (frameMetadata 1))]

/-- In the run `missedUrgentCalls` the final metadata has the number of a partial result. -/
theorem not_completedOnce : ∃ s, expectedSystem.Reachable s ∧ ¬ CompletedOnce s := by
  refine ⟨_, reachable_run missedUrgentCalls (.init rfl) rfl, ?_⟩
  intro h
  exact absurd (h.completed 1 (by decide +kernel) (by decide +kernel) (by decide +kernel))
    (by decide +kernel)

end EtherDevice.Hal3
