import EtherDevice.Hal3.Buffers

/-!
# What the functions of the camera HAL do

One lemma for each function that edits the bookkeeping: what it changes and what it sends.
-/

namespace EtherDevice.Hal3

variable {s : Session} {h h' : Hwi}

def CaptureRequest.keys (r : CaptureRequest) : List (Nat × Nat) :=
  r.pendingBuffers.map PendingBufferInfo.key

theorem CaptureRequest.keys_frame {r : CaptureRequest} {x : Nat × Nat} (hx : x ∈ r.keys) :
    x.1 = r.frameNumber := by
  simp only [CaptureRequest.keys, CaptureRequest.pendingBuffers, List.map_map,
    List.mem_map] at hx
  obtain ⟨b, -, rfl⟩ := hx
  rfl

theorem CaptureRequest.keys_handles (r : CaptureRequest) :
    r.keys.map Prod.snd = r.outputBuffers.map StreamBuffer.buffer := by
  simp [CaptureRequest.keys, CaptureRequest.pendingBuffers, PendingBufferInfo.key,
    Function.comp_def]

theorem CaptureRequest.stored_pendingRequest (r : CaptureRequest) :
    r.pendingRequest.stored = [] := by
  simp [CaptureRequest.pendingRequest, PendingRequestInfo.stored, List.filterMap_map]

def PendingRequestInfo.core (i : PendingRequestInfo) : PendingRequestInfo :=
  { i with urgentReceived := false, partialResultCnt := 0 }

theorem forall_of_core {P P' : List PendingRequestInfo} (φ : PendingRequestInfo → Prop)
    (hcore : P'.map PendingRequestInfo.core = P.map PendingRequestInfo.core)
    (hφ : ∀ i ∈ P, φ i.core) : ∀ i ∈ P', φ i.core := by
  grind [List.mem_map_of_mem]

theorem frames_of_core {P P' : List PendingRequestInfo}
    (hcore : P'.map PendingRequestInfo.core = P.map PendingRequestInfo.core) :
    P'.map PendingRequestInfo.frameNumber = P.map PendingRequestInfo.frameNumber := by
  have hmap := congrArg (List.map PendingRequestInfo.frameNumber) hcore
  rw [List.map_map, List.map_map] at hmap
  exact hmap

theorem storedKeys_of_core {P P' : List PendingRequestInfo}
    (hcore : P'.map PendingRequestInfo.core = P.map PendingRequestInfo.core) :
    P'.flatMap PendingRequestInfo.storedKeys = P.flatMap PendingRequestInfo.storedKeys := by
  have hflat := congrArg (List.flatMap PendingRequestInfo.storedKeys) hcore
  rw [List.flatMap_map, List.flatMap_map] at hflat
  exact hflat

theorem findRequest_split {n : Nat} {i : PendingRequestInfo} (hfind : h.findRequest n = some i) :
    i.frameNumber = n ∧ ∃ l₁ l₂, h.pendingRequestsList = l₁ ++ i :: l₂ ∧
      ∀ j ∈ l₁, ¬ j.frameNumber = n := by
  obtain ⟨hi, l₁, l₂, hP, hl₁⟩ := List.find?_eq_some_iff_append.mp hfind
  refine ⟨of_decide_eq_true hi, l₁, l₂, hP, ?_⟩
  intro j hj
  simpa using hl₁ j hj

theorem eraseRequest_split {n : Nat} {i : PendingRequestInfo} {l₁ l₂ : List PendingRequestInfo}
    (hi : i.frameNumber = n) (hP : h.pendingRequestsList = l₁ ++ i :: l₂)
    (hl₁ : ∀ j ∈ l₁, ¬ j.frameNumber = n) :
    (h.eraseRequest n).pendingRequestsList = l₁ ++ l₂ := by
  show h.pendingRequestsList.eraseP _ = _
  simp_all [List.eraseP_append_right]

theorem modifyFirst_append {α : Type} {p : α → Bool} (f : α → α) {l₁ l₂ : List α} {x : α}
    (hl₁ : ∀ y ∈ l₁, ¬ p y = true) (hx : p x = true) :
    modifyFirst p f (l₁ ++ x :: l₂) = l₁ ++ f x :: l₂ := by
  induction l₁ with
  | nil => exact if_pos hx
  | cons y l₁ ih =>
    simp_all [modifyFirst]

theorem modifyFirst_map {α β : Type} {p : α → Bool} {f : α → α} {g : α → β}
    (hg : ∀ x, g (f x) = g x) (l : List α) : (modifyFirst p f l).map g = l.map g := by
  induction l with
  | nil => rfl
  | cons x l ih =>
    unfold modifyFirst
    split
    · rw [List.map_cons, List.map_cons, hg]
    · rw [List.map_cons, List.map_cons, ih]

theorem urgent_core (h : Hwi) (md : Metadata) :
    (h.handleUrgentMetadata md).pendingRequestsList.map PendingRequestInfo.core =
      h.pendingRequestsList.map PendingRequestInfo.core := by
  unfold Hwi.handleUrgentMetadata
  dsimp only
  split
  · rfl
  · apply modifyFirst_map
    intro i
    rfl

theorem urgent_fields (h : Hwi) (md : Metadata) :
    ∃ P events, h.handleUrgentMetadata md =
        { h with pendingRequestsList := P, trace := h.trace ++ events } ∧
      events.flatMap Event.returned = [] := by
  unfold Hwi.handleUrgentMetadata
  dsimp only
  split
  · exact ⟨h.pendingRequestsList, [], by rw [List.append_nil], rfl⟩
  · exact ⟨_, _, rfl, rfl⟩

def RequestedBufferInfo.fill (b : StreamBuffer) (j : RequestedBufferInfo) : RequestedBufferInfo :=
  if j.stream = b.stream ∧ j.buffer = none then { j with buffer := some b } else j

theorem RequestedBufferInfo.fill_stream (b : StreamBuffer) (j : RequestedBufferInfo) :
    (j.fill b).stream = j.stream := by
  unfold RequestedBufferInfo.fill
  split <;> rfl

theorem fill_stored (b : StreamBuffer) (js : List RequestedBufferInfo) :
    ((js.map (RequestedBufferInfo.fill b)).filterMap RequestedBufferInfo.buffer).Perm
      (List.replicate (js.countP fun j => j.stream = b.stream ∧ j.buffer = none) b ++
        js.filterMap RequestedBufferInfo.buffer) := by
  induction js with
  | nil => exact .nil
  | cons j js ih =>
    simp only [List.map_cons, List.filterMap_cons, List.countP_cons]
    by_cases hfree : j.stream = b.stream ∧ j.buffer = none
    · simp_all [RequestedBufferInfo.fill, List.replicate_succ]
    · simp only [RequestedBufferInfo.fill, hfree, if_false, decide_false, Bool.false_eq_true,
        Nat.add_zero]
      grind

theorem fill_free (b : StreamBuffer) (st : Stream) (js : List RequestedBufferInfo) :
    (js.map (RequestedBufferInfo.fill b)).countP (fun j => j.stream = st ∧ j.buffer = none) =
      if st = b.stream then 0 else js.countP fun j => j.stream = st ∧ j.buffer = none := by
  split
  · grind [RequestedBufferInfo.fill]
  · rename_i hst
    rw [List.countP_map]
    apply List.countP_congr
    intro j hj
    unfold RequestedBufferInfo.fill
    simp only [Function.comp_apply, decide_eq_true_eq]
    split
    · rename_i hfree
      simp [hfree.1, Ne.symm hst]
    · exact Iff.rfl

theorem storeBuffer_split {b : StreamBuffer} {n : Nat} {i : PendingRequestInfo}
    {l₁ l₂ : List PendingRequestInfo} (hi : i.frameNumber = n)
    (hP : h.pendingRequestsList = l₁ ++ i :: l₂) (hl₁ : ∀ j ∈ l₁, ¬ j.frameNumber = n) :
    h.storeBuffer b n = { h with pendingRequestsList := l₁ ++
      { i with buffers := i.buffers.map (RequestedBufferInfo.fill b) } :: l₂ } := by
  unfold Hwi.storeBuffer
  rw [hP, modifyFirst_append _ (by simpa using hl₁) (by simpa using hi)]
  rfl

def completionEvents (md : Metadata) (metadataBuf : Nat) (i : PendingRequestInfo)
    (outputBuffers : List StreamBuffer) : List Event :=
  (Hwi.droppedStreams md i).map (fun stream => .notify (.errorBuffer i.frameNumber stream)) ++
    .notify (Hwi.shutterMsg md i) :: Hwi.disposeMetadata md metadataBuf i ++
    [.processCaptureResult {
      frameNumber := i.frameNumber
      result := some (if i.frameNumber < md.frameNumber then .dummy else .final)
      outputBuffers
      inputBuffer := i.inputBuffer
      partialResult := i.partialResultCnt + 1 }]

theorem completionEvents_returned (md : Metadata) (metadataBuf : Nat) (i : PendingRequestInfo)
    (bs : List StreamBuffer) : (completionEvents md metadataBuf i bs).flatMap Event.returned =
      bs.map fun b => (i.frameNumber, b.buffer) := by
  have hdropped : ((Hwi.droppedStreams md i).map fun stream =>
      Event.notify (.errorBuffer i.frameNumber stream)).flatMap Event.returned = [] := by
    simp [List.flatMap_map, Event.returned]
  have hdispose : (Hwi.disposeMetadata md metadataBuf i).flatMap Event.returned = [] := by
    unfold Hwi.disposeMetadata
    split
    · rfl
    split <;> rfl
  simp [completionEvents, Event.returned, hdispose]

theorem completeRequest_eq (h : Hwi) (md : Metadata) (metadataBuf : Nat)
    (i : PendingRequestInfo) :
    ∃ bs, h.completeRequest md metadataBuf i =
        { h with
          pendingRequestsList := h.pendingRequestsList.tail
          pendingBuffersMap := (h.completeRequest md metadataBuf i).pendingBuffersMap
          pendingFrameDropList := (h.completeRequest md metadataBuf i).pendingFrameDropList
          pendingRequest := h.pendingRequest - 1
          trace := h.trace ++ completionEvents md metadataBuf i bs } ∧
      bs.map StreamBuffer.buffer = i.stored.map StreamBuffer.buffer ∧
      ∃ h₀ : Hwi, (h.completeRequest md metadataBuf i).pendingBuffersMap =
          (Hwi.returnBuffers md.frameNumber i.buffers h₀).2.pendingBuffersMap ∧
        h₀.pendingBuffersMap = h.pendingBuffersMap := by
  unfold Hwi.completeRequest
  dsimp only
  obtain ⟨bs, buffersMap, drops, hreturn, hbufs⟩ :=
    returnBuffers_eq md.frameNumber i.buffers
      ((Hwi.notifyDropped { h with pendingRequest := h.pendingRequest - 1 } md i).emit
        (.notify (Hwi.shutterMsg md i) :: Hwi.disposeMetadata md metadataBuf i))
  refine ⟨bs, ?_, hbufs, _, rfl, rfl⟩
  simp_all [Hwi.emit, Hwi.notifyDropped, completionEvents]

theorem pendingKeys_completeRequest_eq (h : Hwi) (md : Metadata) (metadataBuf : Nat)
    (i : PendingRequestInfo) :
    ∃ h₀ : Hwi, h₀.pendingKeys = h.pendingKeys ∧
      (h.completeRequest md metadataBuf i).pendingKeys =
        (Hwi.returnBuffers md.frameNumber i.buffers h₀).2.pendingKeys := by
  obtain ⟨-, -, -, h₀, hmap', hmap⟩ := completeRequest_eq h md metadataBuf i
  refine ⟨h₀, ?_, ?_⟩
  · unfold Hwi.pendingKeys
    rw [hmap]
  · unfold Hwi.pendingKeys
    rw [hmap']

theorem pendingKeys_completeRequest {rest : List (Nat × Nat)} (md : Metadata)
    (metadataBuf : Nat) {i : PendingRequestInfo} (hnd : (h.pendingKeys.map Prod.snd).Nodup)
    (hkeys : h.pendingKeys.Perm (i.storedKeys ++ rest)) :
    (h.completeRequest md metadataBuf i).pendingKeys.Perm rest := by
  obtain ⟨h₀, hsame, hafter⟩ := pendingKeys_completeRequest_eq h md metadataBuf i
  rw [hafter]
  rw [← hsame] at hnd hkeys
  exact returnBuffers_keys i.frameNumber md.frameNumber i.buffers hnd hkeys

def Hwi.completed (h : Hwi) (frameNumber : Nat) : List PendingRequestInfo :=
  h.pendingRequestsList.filter fun i => i.frameNumber ≤ frameNumber

theorem completed_core {n : Nat}
    (hP : h'.pendingRequestsList.map PendingRequestInfo.core =
      h.pendingRequestsList.map PendingRequestInfo.core) :
    (h'.completed n).map PendingRequestInfo.core =
      (h.completed n).map PendingRequestInfo.core := by
  have hfilter : ∀ P : List PendingRequestInfo,
      (P.filter fun i => i.frameNumber ≤ n).map PendingRequestInfo.core =
        (P.map PendingRequestInfo.core).filter fun i => i.frameNumber ≤ n := by
    intro P
    rw [List.filter_map]
    rfl
  unfold Hwi.completed
  rw [hfilter, hfilter, hP]

theorem head_le {i : PendingRequestInfo} {P : List PendingRequestInfo}
    (hsorted : ((i :: P).map PendingRequestInfo.frameNumber).Pairwise (· < ·)) :
    ∀ j ∈ i :: P, i.frameNumber ≤ j.frameNumber := by
  simp_all [Nat.le_of_lt]

theorem completed_two
    (hsorted : (h.pendingRequestsList.map PendingRequestInfo.frameNumber).Pairwise (· < ·))
    {n : Nat} (htwo : 2 ≤ (h.completed n).length) :
    ∃ i i' P, h.pendingRequestsList = i :: i' :: P ∧
      i.frameNumber ≤ n ∧ i'.frameNumber ≤ n := by
  unfold Hwi.completed at htwo
  have hlen : ∀ i : PendingRequestInfo,
      ([i].filter fun i => decide (i.frameNumber ≤ n)).length ≤ 1 :=
    fun i => List.length_filter_le _ [i]
  cases hP : h.pendingRequestsList with
  | nil => simp [hP] at htwo
  | cons i P =>
    rw [hP] at hsorted htwo
    cases P with
    | nil => exact absurd (hlen i) (by omega)
    | cons i' P =>
      have htail : ((i' :: P).map PendingRequestInfo.frameNumber).Pairwise (· < ·) :=
        (List.pairwise_cons.mp hsorted).2
      have hle' : i'.frameNumber ≤ n := by
        by_contra hgt
        have hnil : (i' :: P).filter (fun i => decide (i.frameNumber ≤ n)) = [] := by
          rw [List.filter_eq_nil_iff]
          intro j hj
          have hmin := head_le htail j hj
          simp only [decide_eq_true_eq]
          omega
        grind
      exact ⟨i, i', P, rfl, Nat.le_trans (head_le hsorted i' (by simp)) hle', hle'⟩

def Hwi.cachedFor (h : Hwi) (frameNumber : Nat) : List PendingReprocessResult :=
  h.pendingReprocessResultList.filter fun c => c.frameNumber = frameNumber

theorem mem_cachedFor {n : Nat} {c : PendingReprocessResult} :
    c ∈ h.cachedFor n ↔ c ∈ h.pendingReprocessResultList ∧ c.frameNumber = n := by
  simp [Hwi.cachedFor]

theorem cachedFor_eq_nil {n : Nat} :
    h.cachedFor n = [] ↔ ∀ c ∈ h.pendingReprocessResultList, ¬ c.frameNumber = n := by
  simp [Hwi.cachedFor, List.filter_eq_nil_iff]

theorem handlePendingReprocResults_none {n : Nat} (hnone : h.cachedFor n = []) :
    h.handlePendingReprocResults n = h := by
  have hfind : h.pendingReprocessResultList.find? (fun j => decide (j.frameNumber = n)) = none := by
    rw [List.find?_eq_none]
    intro c hc
    simpa using cachedFor_eq_nil.mp hnone c hc
  unfold Hwi.handlePendingReprocResults
  rw [hfind]

theorem cachedFor_congr (hC : h'.pendingReprocessResultList = h.pendingReprocessResultList)
    (n : Nat) : h'.cachedFor n = h.cachedFor n := by
  unfold Hwi.cachedFor
  rw [hC]

theorem not_danglingNext {n : Nat} (hnone : h.cachedFor n = []) : ¬ h.DanglingNext n := by
  intro hdangling
  obtain ⟨c, hc, hframe⟩ := List.any_eq_true.mp hdangling.1
  exact cachedFor_eq_nil.mp hnone c hc (by simpa using hframe)

theorem cachedFor_split {n : Nat} (hone : (h.cachedFor n).length = 1) :
    ∃ c c₁ c₂, h.pendingReprocessResultList = c₁ ++ c :: c₂ ∧ c.frameNumber = n ∧
      ∀ c' ∈ c₁ ++ c₂, ¬ c'.frameNumber = n := by
  obtain ⟨c, hc⟩ := List.length_eq_one_iff.mp hone
  have hmem : c ∈ h.pendingReprocessResultList ∧ c.frameNumber = n := by
    apply mem_cachedFor.mp
    simp [hc]
  obtain ⟨c₁, c₂, hC⟩ := List.append_of_mem hmem.1
  refine ⟨c, c₁, c₂, hC, hmem.2, ?_⟩
  intro c' hc' hframe
  have hsplit : h.cachedFor n = c₁.filter (fun c => c.frameNumber = n) ++
      c :: c₂.filter fun c => c.frameNumber = n := by
    simp [Hwi.cachedFor, hC, hmem]
  rw [hsplit, List.length_append, List.length_cons] at hone
  have hzero : (c₁ ++ c₂).filter (fun c => c.frameNumber = n) = [] := by
    apply List.eq_nil_of_length_eq_zero
    rw [List.filter_append, List.length_append]
    omega
  have hin : c' ∈ (c₁ ++ c₂).filter fun c => c.frameNumber = n :=
    List.mem_filter.mpr ⟨hc', by simpa using hframe⟩
  rw [hzero] at hin
  cases hin

theorem handlePendingReprocResults_some {n : Nat} {c : PendingReprocessResult}
    {c₁ c₂ : List PendingReprocessResult} {k : PendingRequestInfo}
    {l₁ l₂ : List PendingRequestInfo}
    (hC : h.pendingReprocessResultList = c₁ ++ c :: c₂) (hc : c.frameNumber = n)
    (hc₁ : ∀ c' ∈ c₁, ¬ c'.frameNumber = n)
    (hP : h.pendingRequestsList = l₁ ++ k :: l₂) (hk : k.frameNumber = n)
    (hl₁ : ∀ j ∈ l₁, ¬ j.frameNumber = n) :
    h.handlePendingReprocResults n =
      { h with
        pendingRequestsList := l₁ ++ l₂
        pendingReprocessResultList := c₁ ++ c₂
        pendingRequest := h.pendingRequest - 1
        trace := h.trace ++ [.notify c.notifyMsg] ++ [.processCaptureResult {
          frameNumber := n
          result := k.settings.map fun _ => .settings
          outputBuffers := [c.buffer]
          inputBuffer := k.inputBuffer
          partialResult := partialResultCount }] } := by
  have hfindC : h.pendingReprocessResultList.find? (fun j => decide (j.frameNumber = n)) =
      some c := by
    grind
  have heraseC : h.pendingReprocessResultList.eraseP (fun j => decide (j.frameNumber = n)) =
      c₁ ++ c₂ := by
    simp_all [List.eraseP_append_right]
  have hfindP : (h.emit [.notify c.notifyMsg]).findRequest n = some k := by
    show h.pendingRequestsList.find? _ = _
    grind
  grind [Hwi.handlePendingReprocResults, Hwi.emit, Hwi.eraseRequest]

theorem flushMap_add (k : PendingBufferInfo) (m : FlushMap)
    (hm : ∀ g ∈ m, ∀ k ∈ g.2, k.frameNumber = g.1) :
    (∀ g ∈ m.add k, ∀ k ∈ g.2, k.frameNumber = g.1) ∧
      ((m.add k).flatMap Prod.snd).Perm (k :: m.flatMap Prod.snd) := by
  induction m with
  | nil => simp [FlushMap.add]
  | cons g m ih =>
    unfold FlushMap.add
    have hg := hm _ List.mem_cons_self
    split
    · rename_i heq
      constructor
      · intro g' hg'
        grind
      simp
    split
    · constructor
      · intro g' hg'
        rcases List.mem_cons.mp hg' with rfl | hg'
        · simp
        · exact hm g' hg'
      · exact .refl _
    · obtain ⟨hframes, hperm⟩ := ih fun g' hg' => hm g' (List.mem_cons_of_mem _ hg')
      constructor
      · intro g' hg'
        rcases List.mem_cons.mp hg' with rfl | hg'
        · exact hg
        · exact hframes g' hg'
      · exact (hperm.append_left _).trans List.perm_middle

theorem flushMap_ofList (ks : List PendingBufferInfo) :
    (∀ g ∈ FlushMap.ofList ks, ∀ k ∈ g.2, k.frameNumber = g.1) ∧
      ((FlushMap.ofList ks).flatMap Prod.snd).Perm ks := by
  suffices hfold : ∀ (ks : List PendingBufferInfo) (m : FlushMap),
      (∀ g ∈ m, ∀ k ∈ g.2, k.frameNumber = g.1) →
      (∀ g ∈ ks.foldl (fun m k => m.add k) m, ∀ k ∈ g.2, k.frameNumber = g.1) ∧
        ((ks.foldl (fun m k => m.add k) m).flatMap Prod.snd).Perm (ks ++ m.flatMap Prod.snd) by
    have hempty := hfold ks [] (by simp)
    simp only [List.flatMap_nil, List.append_nil] at hempty
    exact hempty
  intro ks
  induction ks with
  | nil => exact fun m hm => ⟨hm, .refl _⟩
  | cons k ks ih =>
    intro m hm
    obtain ⟨hframes, hperm⟩ := flushMap_add k m hm
    obtain ⟨hframes', hperm'⟩ := ih (m.add k) hframes
    exact ⟨hframes', hperm'.trans ((hperm.append_left _).trans List.perm_middle)⟩

theorem flushMap_add_keys (k : PendingBufferInfo) (m : FlushMap)
    (hm : (m.map Prod.fst).Pairwise (· < ·)) :
    ((m.add k).map Prod.fst).Pairwise (· < ·) ∧
      ∀ n, n ∈ (m.add k).map Prod.fst ↔ n = k.frameNumber ∨ n ∈ m.map Prod.fst := by
  induction m with
  | nil => simp [FlushMap.add]
  | cons g m ih =>
    rw [List.map_cons, List.pairwise_cons] at hm
    unfold FlushMap.add
    split
    · rename_i heq
      refine ⟨List.pairwise_cons.mpr hm, fun n => ?_⟩
      simp [heq]
    split
    · grind [List.pairwise_cons]
    grind [List.pairwise_cons]

theorem flushMap_ofList_keys (ks : List PendingBufferInfo) :
    ((FlushMap.ofList ks).map Prod.fst).Pairwise (· < ·) ∧
      ∀ n, n ∈ (FlushMap.ofList ks).map Prod.fst ↔ ∃ k ∈ ks, k.frameNumber = n := by
  suffices hfold : ∀ (ks : List PendingBufferInfo) (m : FlushMap),
      (m.map Prod.fst).Pairwise (· < ·) →
      ((ks.foldl (fun m k => m.add k) m).map Prod.fst).Pairwise (· < ·) ∧
        ∀ n, n ∈ (ks.foldl (fun m k => m.add k) m).map Prod.fst ↔
          (∃ k ∈ ks, k.frameNumber = n) ∨ n ∈ m.map Prod.fst by
    have hempty := hfold ks [] .nil
    simp only [List.map_nil, List.not_mem_nil, or_false] at hempty
    exact hempty
  intro ks
  induction ks with
  | nil => exact fun m hm => ⟨hm, by simp⟩
  | cons k ks ih =>
    intro m hm
    obtain ⟨hsorted, hmem⟩ := flushMap_add_keys k m hm
    simp_all [eq_comm, or_left_comm, or_assoc]

theorem flush_returned (events : Nat × List PendingBufferInfo → List Event)
    (hevents : ∀ g, (events g).flatMap Event.returned = g.2.map fun k => (g.1, k.buffer))
    (ks : List PendingBufferInfo) :
    (((FlushMap.ofList ks).flatMap events).flatMap Event.returned).Perm
      (ks.map PendingBufferInfo.key) := by
  obtain ⟨hframes, hperm⟩ := flushMap_ofList ks
  have hgroups : ((FlushMap.ofList ks).flatMap events).flatMap Event.returned =
      ((FlushMap.ofList ks).flatMap Prod.snd).map PendingBufferInfo.key := by
    rw [List.flatMap_assoc, List.map_flatMap]
    apply List.flatMap_congr
    intro g hg
    rw [hevents]
    apply List.map_congr_left
    intro k hk
    rw [PendingBufferInfo.key, hframes g hg k hk]
  rw [hgroups]
  exact hperm.map _

theorem finishFlush_returned (h : Hwi) (sentinel : Nat) :
    (h.finishFlush sentinel).returned.Perm (h.returned ++ h.pendingKeys) := by
  show (List.flatMap Event.returned (h.trace ++ (_ ++ _))).Perm _
  rw [List.flatMap_append, List.flatMap_append]
  refine .append_left _ ?_
  refine ((flush_returned flushBuffers ?_ _).append (flush_returned flushRequest ?_ _)).trans ?_
  · simp [flushBuffers, flushResult, Event.returned, Function.comp_def]
  · simp [flushRequest, flushResult, Event.returned]
  · rw [← List.map_append]
    simp only [decide_not]
    exact (List.filter_append_perm _ _).map _

end EtherDevice.Hal3
