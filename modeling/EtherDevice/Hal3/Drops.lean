import EtherDevice.Hal3.Bookkeeping

/-!
# Dropped frames of the camera HAL

The metadata of a frame names the streams that dropped it. `handleMetadataWithLock` reports the
drops of every request that it completes, and notes them in `mPendingFrameDropList`; whoever
returns a buffer later looks there. This file says what the functions do to the list, to the
messages about drops and to the buffers in results.
-/

namespace EtherDevice.Hal3

variable {h : Hwi} {n : Nat} {st : Stream} {b : StreamBuffer}

def NotifyMsg.errorBuffer? : NotifyMsg → Option (Nat × Stream)
  | .errorBuffer frameNumber stream => some (frameNumber, stream)
  | _ => none

def Event.errorBuffer? : Event → Option (Nat × Stream)
  | .notify msg => msg.errorBuffer?
  | _ => none

def Event.given : Event → List (Nat × StreamBuffer)
  | .processCaptureResult r => r.outputBuffers.map fun b => (r.frameNumber, b)
  | _ => []

def Hwi.errorsSent (h : Hwi) : List (Nat × Stream) := h.trace.filterMap Event.errorBuffer?

def Hwi.given (h : Hwi) : List (Nat × StreamBuffer) := h.trace.flatMap Event.given

theorem errorsSent_append {h' : Hwi} {events : List Event} (htrace : h'.trace = h.trace ++ events) :
    h'.errorsSent = h.errorsSent ++ events.filterMap Event.errorBuffer? := by
  simp_all [Hwi.errorsSent]

theorem given_append {h' : Hwi} {events : List Event} (htrace : h'.trace = h.trace ++ events) :
    h'.given = h.given ++ events.flatMap Event.given := by
  simp_all [Hwi.given]

def entriesFor (drops : List PendingFrameDropInfo) (n streamId : Nat) : Nat :=
  drops.countP fun m => m.frameNumber = n ∧ m.streamId = streamId

theorem entriesFor_append (drops drops' : List PendingFrameDropInfo) (n streamId : Nat) :
    entriesFor (drops ++ drops') n streamId =
      entriesFor drops n streamId + entriesFor drops' n streamId := List.countP_append

theorem entriesFor_pos {drops : List PendingFrameDropInfo} {n streamId : Nat} :
    0 < entriesFor drops n streamId ↔ ⟨n, streamId⟩ ∈ drops := by
  unfold entriesFor
  rw [List.countP_pos_iff]
  constructor
  · rintro ⟨m, hm, heq⟩
    obtain ⟨rfl, rfl⟩ := of_decide_eq_true heq
    exact hm
  · exact fun hm => ⟨_, hm, by simp⟩

theorem entriesFor_eq_zero {drops : List PendingFrameDropInfo} {n streamId : Nat} :
    entriesFor drops n streamId = 0 ↔ ⟨n, streamId⟩ ∉ drops := by
  rw [← entriesFor_pos, Nat.pos_iff_ne_zero, not_not]

theorem markDropped_spec (h : Hwi) (n : Nat) (b : StreamBuffer) :
    (h.markDropped n b).1 =
        (if 0 < entriesFor h.pendingFrameDropList n b.stream.streamId then { b with error := true }
          else b) ∧
      (h.markDropped n b).2.pendingFrameDropList.Sublist h.pendingFrameDropList ∧
      ∀ m streamId, entriesFor (h.markDropped n b).2.pendingFrameDropList m streamId =
        entriesFor h.pendingFrameDropList m streamId -
          if m = n ∧ streamId = b.stream.streamId then 1 else 0 := by
  have hswap : (fun m : PendingFrameDropInfo =>
      decide (m.streamId = b.stream.streamId ∧ m.frameNumber = n)) =
        fun m => decide (m.frameNumber = n ∧ m.streamId = b.stream.streamId) := by
    simp [and_comm]
  unfold Hwi.markDropped
  rw [hswap]
  have hany : (h.pendingFrameDropList.any fun m =>
      decide (m.frameNumber = n ∧ m.streamId = b.stream.streamId)) = true ↔
        0 < entriesFor h.pendingFrameDropList n b.stream.streamId := by
    simp [entriesFor]
  by_cases hpos : 0 < entriesFor h.pendingFrameDropList n b.stream.streamId
  · rw [if_pos (hany.mpr hpos), if_pos hpos]
    refine ⟨rfl, List.eraseP_sublist, fun m streamId => ?_⟩
    obtain ⟨x, l₁, l₂, hl₁, hx, hl, herase⟩ :=
      List.exists_of_eraseP (entriesFor_pos.mp hpos)
        (p := fun m => decide (m.frameNumber = n ∧ m.streamId = b.stream.streamId)) (by simp)
    rw [herase, hl]
    obtain ⟨hframe, hstream⟩ := of_decide_eq_true hx
    unfold entriesFor
    simp only [List.countP_append, List.countP_cons, decide_eq_true_eq, hframe, hstream]
    by_cases hsame : m = n ∧ streamId = b.stream.streamId
    · simp [hsame]
    · rw [if_neg hsame, if_neg fun hx => hsame ⟨hx.1.symm, hx.2.symm⟩]
      omega
  · rw [if_neg fun hin => hpos (hany.mp hin), if_neg hpos]
    grind

theorem takeBuffer_drops (h : Hwi) (buffer : Nat) :
    (h.takeBuffer buffer).pendingFrameDropList = h.pendingFrameDropList := by
  unfold Hwi.takeBuffer
  split <;> rfl

theorem returnBuffer_spec (h : Hwi) (n : Nat) (b : StreamBuffer) :
    (h.returnBuffer n b).1 =
        (if 0 < entriesFor h.pendingFrameDropList n b.stream.streamId then { b with error := true }
          else b) ∧
      (h.returnBuffer n b).2.pendingFrameDropList.Sublist h.pendingFrameDropList ∧
      ∀ m streamId, entriesFor (h.returnBuffer n b).2.pendingFrameDropList m streamId =
        entriesFor h.pendingFrameDropList m streamId -
          if m = n ∧ streamId = b.stream.streamId then 1 else 0 := by
  have hdrops : (h.returnBuffer n b).2.pendingFrameDropList =
      (h.markDropped n b).2.pendingFrameDropList := takeBuffer_drops ..
  rw [hdrops]
  exact markDropped_spec h n b

structure Marked (drops : List PendingFrameDropInfo) (n : Nat) (others : List StreamBuffer)
    (b b' : StreamBuffer) : Prop where
  stream : b'.stream = b.stream
  error : 0 < entriesFor drops n b.stream.streamId →
    (others.countP fun b' => b'.stream.streamId = b.stream.streamId) ≤ 1 → b'.error = true
  same : entriesFor drops n b.stream.streamId = 0 → b' = b

theorem Marked.cons {drops drops' : List PendingFrameDropInfo} {others : List StreamBuffer}
    {b₁ b₁' : StreamBuffer} (hentries : ∀ streamId, entriesFor drops' n streamId =
      entriesFor drops n streamId - if streamId = b.stream.streamId then 1 else 0)
    (hmem : b₁ ∈ others) (hm : Marked drops' n others b₁ b₁') :
    Marked drops n (b :: others) b₁ b₁' where
  stream := hm.stream
  error hpos hone := by
    have hself : 0 < others.countP fun b' => b'.stream.streamId = b₁.stream.streamId :=
      List.countP_pos_iff.mpr ⟨b₁, hmem, by simp⟩
    rw [List.countP_cons] at hone
    have hne : b₁.stream.streamId ≠ b.stream.streamId := by
      rintro heq
      simp_all
    refine hm.error ?_ (by omega)
    simp_all
  same hzero := hm.same (by rw [hentries]; omega)

theorem returnBuffers_spec (n : Nat) (js : List RequestedBufferInfo) (h : Hwi) :
    (∀ b ∈ js.filterMap RequestedBufferInfo.buffer, ∃ b' ∈ (Hwi.returnBuffers n js h).1,
        Marked h.pendingFrameDropList n (js.filterMap RequestedBufferInfo.buffer) b b') ∧
      (∀ b' ∈ (Hwi.returnBuffers n js h).1, ∃ b ∈ js.filterMap RequestedBufferInfo.buffer,
        Marked h.pendingFrameDropList n (js.filterMap RequestedBufferInfo.buffer) b b') ∧
      (Hwi.returnBuffers n js h).2.pendingFrameDropList.Sublist h.pendingFrameDropList ∧
      ∀ m streamId, entriesFor (Hwi.returnBuffers n js h).2.pendingFrameDropList m streamId =
        entriesFor h.pendingFrameDropList m streamId -
          if m = n then (js.filterMap RequestedBufferInfo.buffer).countP
            fun b => b.stream.streamId = streamId else 0 := by
  induction js generalizing h with
  | nil =>
    simp [Hwi.returnBuffers]
  | cons j js ih =>
    unfold Hwi.returnBuffers
    cases hj : j.buffer with
    | none =>
      simp only [List.filterMap_cons, hj]
      exact ih h
    | some b =>
      obtain ⟨hfirst, hsub, hentries⟩ := returnBuffer_spec h n b
      obtain ⟨hto, hfrom, hsub', hentries'⟩ := ih (h.returnBuffer n b).2
      simp only [List.filterMap_cons, hj]
      have hhead : Marked h.pendingFrameDropList n (b :: js.filterMap RequestedBufferInfo.buffer) b
          (h.returnBuffer n b).1 := by
        rw [hfirst]
        refine ⟨?_, fun hpos _ => by rw [if_pos hpos], fun hzero => by rw [if_neg (by omega)]⟩
        split <;> rfl
      have hcons := fun streamId => hentries n streamId
      simp only [true_and] at hcons
      refine ⟨?_, ?_, hsub'.trans hsub, fun m streamId => ?_⟩
      · intro b₁ hb₁
        rcases List.mem_cons.mp hb₁ with rfl | hb₁
        · exact ⟨_, List.mem_cons_self, hhead⟩
        · obtain ⟨b', hb', hmarked⟩ := hto b₁ hb₁
          exact ⟨b', List.mem_cons_of_mem _ hb', hmarked.cons hcons hb₁⟩
      · intro b' hb'
        rcases List.mem_cons.mp hb' with rfl | hb'
        · exact ⟨b, List.mem_cons_self, hhead⟩
        · obtain ⟨b₁, hb₁, hmarked⟩ := hfrom b' hb'
          exact ⟨b₁, List.mem_cons_of_mem _ hb₁, hmarked.cons hcons hb₁⟩
      · rw [hentries', hentries, List.countP_cons]
        by_cases hm : m = n
        · subst hm
          by_cases hid : b.stream.streamId = streamId
          · simp [hid]
            omega
          · simp [hid, Ne.symm hid]
        · simp [hm]

section

variable {md : Metadata} {i : PendingRequestInfo}

theorem mem_droppedStreams : st ∈ Hwi.droppedStreams md i ↔
    (∃ j ∈ i.buffers, j.stream = st) ∧ st.blob = false ∧ st.streamId ∈ md.dropped := by
  unfold Hwi.droppedStreams
  rw [List.mem_flatMap]
  constructor
  · rintro ⟨j, hj, hst⟩
    split at hst
    · cases hst
    · rename_i hblob
      obtain ⟨streamId, hid, rfl⟩ := List.mem_map.mp hst
      obtain ⟨hmem, heq⟩ := List.mem_filter.mp hid
      exact ⟨⟨j, hj, rfl⟩, by simpa using hblob, of_decide_eq_true heq ▸ hmem⟩
  · rintro ⟨⟨j, hj, rfl⟩, hblob, hmem⟩
    refine ⟨j, hj, ?_⟩
    simp_all

theorem count_droppedStreams (md : Metadata) (i : PendingRequestInfo) (hblob : st.blob = false) :
    (Hwi.droppedStreams md i).count st =
      (i.buffers.countP fun j => j.stream = st) * md.dropped.count st.streamId := by
  unfold Hwi.droppedStreams
  induction i.buffers with
  | nil => simp
  | cons j js ih =>
    rw [List.flatMap_cons, List.count_append, ih, List.countP_cons]
    by_cases hj : j.stream = st
    · subst hj
      have hfilter : (md.dropped.filter fun streamId =>
          decide (j.stream.streamId = streamId)).length = md.dropped.count j.stream.streamId := by
        rw [← List.countP_eq_length_filter, List.count]
        refine List.countP_congr fun x _ => ?_
        simp only [decide_eq_true_eq, beq_iff_eq]
        exact eq_comm
      simp [hblob, hfilter, Nat.add_mul, Nat.add_comm]
    · have hnone : (if j.stream.blob then [] else (md.dropped.filter fun streamId =>
          decide (j.stream.streamId = streamId)).map fun _ => j.stream).count st = 0 := by
        grind [List.count_eq_zero]
      simp only [hnone, hj, decide_false, Bool.false_eq_true, if_false, Nat.zero_add, Nat.add_zero]

theorem slot_of_nodup (hnd : (Hwi.droppedStreams md i).Nodup)
    (hst : st ∈ Hwi.droppedStreams md i) : (i.buffers.countP fun j => j.stream = st) = 1 := by
  have hone := List.count_eq_one_of_mem hnd hst
  rw [count_droppedStreams md i (mem_droppedStreams.mp hst).2.1] at hone
  exact Nat.eq_one_of_mul_eq_one_right hone

def newDrops (md : Metadata) (i : PendingRequestInfo) : List PendingFrameDropInfo :=
  (Hwi.droppedStreams md i).map fun stream => ⟨i.frameNumber, stream.streamId⟩

theorem completionEvents_errors (md : Metadata) (metadataBuf : Nat) (i : PendingRequestInfo)
    (bs : List StreamBuffer) :
    (completionEvents md metadataBuf i bs).filterMap Event.errorBuffer? =
      (Hwi.droppedStreams md i).map fun stream => (i.frameNumber, stream) := by
  have hdispose : (Hwi.disposeMetadata md metadataBuf i).filterMap Event.errorBuffer? = [] := by
    unfold Hwi.disposeMetadata
    split
    · rfl
    split <;> rfl
  have hshutter : Event.errorBuffer? (.notify (Hwi.shutterMsg md i)) = none := by
    unfold Hwi.shutterMsg
    split <;> rfl
  have hdropped : ((Hwi.droppedStreams md i).map fun stream =>
      Event.notify (.errorBuffer i.frameNumber stream)).filterMap Event.errorBuffer? =
        (Hwi.droppedStreams md i).map fun stream => (i.frameNumber, stream) := by
    rw [List.filterMap_map]
    exact congrFun List.filterMap_eq_map _
  unfold completionEvents
  rw [List.filterMap_append, List.filterMap_append, List.filterMap_cons_none hshutter, hdispose,
    hdropped, List.append_nil]
  exact List.append_nil _

theorem completionEvents_given (md : Metadata) (metadataBuf : Nat) (i : PendingRequestInfo)
    (bs : List StreamBuffer) : (completionEvents md metadataBuf i bs).flatMap Event.given =
      bs.map fun b => (i.frameNumber, b) := by
  have hdropped : ((Hwi.droppedStreams md i).map fun stream =>
      Event.notify (.errorBuffer i.frameNumber stream)).flatMap Event.given = [] := by
    simp [List.flatMap_map, Event.given]
  have hdispose : (Hwi.disposeMetadata md metadataBuf i).flatMap Event.given = [] := by
    unfold Hwi.disposeMetadata
    split
    · rfl
    split <;> rfl
  simp [completionEvents, Event.given, hdispose]

theorem completeRequest_spec (h : Hwi) (md : Metadata) (metadataBuf : Nat)
    (i : PendingRequestInfo) : ∃ h₀ : Hwi,
      h₀.pendingFrameDropList = h.pendingFrameDropList ++ newDrops md i ∧
      h.completeRequest md metadataBuf i =
        { h with
          pendingRequestsList := h.pendingRequestsList.tail
          pendingBuffersMap := (h.completeRequest md metadataBuf i).pendingBuffersMap
          pendingFrameDropList :=
            (Hwi.returnBuffers md.frameNumber i.buffers h₀).2.pendingFrameDropList
          pendingRequest := h.pendingRequest - 1
          trace := h.trace ++ completionEvents md metadataBuf i
            (Hwi.returnBuffers md.frameNumber i.buffers h₀).1 } := by
  refine ⟨(Hwi.notifyDropped { h with pendingRequest := h.pendingRequest - 1 } md i).emit
    (.notify (Hwi.shutterMsg md i) :: Hwi.disposeMetadata md metadataBuf i), rfl, ?_⟩
  unfold Hwi.completeRequest
  dsimp only
  obtain ⟨bs, buffersMap, drops, hreturn, -⟩ := returnBuffers_eq md.frameNumber i.buffers
    ((Hwi.notifyDropped { h with pendingRequest := h.pendingRequest - 1 } md i).emit
      (.notify (Hwi.shutterMsg md i) :: Hwi.disposeMetadata md metadataBuf i))
  simp_all [Hwi.emit, Hwi.notifyDropped, completionEvents]

end

theorem urgent_silent (h : Hwi) (md : Metadata) :
    (h.handleUrgentMetadata md).errorsSent = h.errorsSent ∧
      (h.handleUrgentMetadata md).given = h.given := by
  unfold Hwi.handleUrgentMetadata
  dsimp only
  split
  · exact ⟨rfl, rfl⟩
  · exact ⟨(errorsSent_append rfl).trans (List.append_nil _),
      (given_append rfl).trans (List.append_nil _)⟩

theorem countP_eraseP {α : Type} {p q : α → Bool} {l : List α}
    (hdisjoint : ∀ a ∈ l, q a = true → p a = false) : (l.eraseP q).countP p = l.countP p := by
  induction l with
  | nil => rfl
  | cons a l ih =>
    grind

theorem handlePendingReprocResults_cases (h : Hwi) (n : Nat) :
    h.cachedFor n = [] ∨
      ∃ c ∈ h.pendingReprocessResultList, c.frameNumber = n ∧ ∃ P pendingRequest events,
        h.handlePendingReprocResults n = { h with
          pendingRequestsList := P
          pendingReprocessResultList :=
            h.pendingReprocessResultList.eraseP fun j => j.frameNumber = n
          pendingRequest := pendingRequest
          trace := h.trace ++ events } ∧
        events.filterMap Event.errorBuffer? = c.notifyMsg.errorBuffer?.toList ∧
        ((P = h.pendingRequestsList ∧ (∀ i ∈ h.pendingRequestsList, i.frameNumber ≠ n) ∧
            events.flatMap Event.given = []) ∨
          ∃ l₁ k l₂, h.pendingRequestsList = l₁ ++ k :: l₂ ∧ k.frameNumber = n ∧ P = l₁ ++ l₂ ∧
            events.flatMap Event.given = [(n, c.buffer)]) := by
  unfold Hwi.handlePendingReprocResults
  cases hfindC : h.pendingReprocessResultList.find? (fun j => decide (j.frameNumber = n)) with
  | none =>
    left
    rw [cachedFor_eq_nil]
    simpa using hfindC
  | some c =>
    right
    refine ⟨c, List.mem_of_find?_eq_some hfindC, by simpa using List.find?_some hfindC, ?_⟩
    dsimp only
    have herror : ∀ e : List Event, e.filterMap Event.errorBuffer? = [] →
        (Event.notify c.notifyMsg :: e).filterMap Event.errorBuffer? =
          c.notifyMsg.errorBuffer?.toList := by
      intro e he
      rw [List.filterMap_cons, he]
      cases hmsg : c.notifyMsg.errorBuffer? <;> simp [Event.errorBuffer?, hmsg]
    cases hfind : (h.emit [.notify c.notifyMsg]).findRequest n with
    | none =>
      refine ⟨h.pendingRequestsList, h.pendingRequest, [.notify c.notifyMsg], rfl, herror [] rfl,
        .inl ⟨rfl, fun i hi => ?_, rfl⟩⟩
      simpa using List.find?_eq_none.mp hfind i hi
    | some k =>
      obtain ⟨hk, l₁, l₂, hP, hl₁⟩ := findRequest_split hfind
      refine ⟨l₁ ++ l₂, h.pendingRequest - 1, _, ?_, herror [.processCaptureResult {
          frameNumber := n
          result := k.settings.map fun _ => .settings
          outputBuffers := [c.buffer]
          inputBuffer := k.inputBuffer
          partialResult := partialResultCount }] rfl, .inr ⟨l₁, k, l₂, hP, hk, rfl, rfl⟩⟩
      grind [Hwi.eraseRequest, Hwi.emit]

end EtherDevice.Hal3
