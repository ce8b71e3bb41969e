import Mathlib
import EtherDevice.Hal3.Drops

/-!
# Dropped frames are reported

A drop is reported once for a frame and a stream, and the buffer of just this frame and stream
comes back with an error, at once or when its callback arrives. The loop of
`handleMetadataWithLock` looks the drops up with the frame number of the metadata, also for the
older requests that it completes.
-/

namespace EtherDevice.Hal3

open Lib

/-! ## Runs -/

/-- A session, and the buffers as the channels delivered them. -/
structure Reporting extends Session where
  delivered : List (Nat × StreamBuffer) := []

def Op.delivers : Op → List (Nat × StreamBuffer)
  | .buffer b frameNumber _ => [(frameNumber, b)]
  | _ => []

section

variable (blob : Nat → Bool)

/-- A stream as it was configured: its channel says whether it is for blobs. -/
def Stream.Known (st : Stream) : Prop := st.blob = blob st.streamId

/-- The calls of the framework and the channels, without flush. -/
def Op.Reports (s : Session) (op : Op) : Prop :=
  op.Expected s ∧
    match op with
    | .processCaptureRequest r _ => ∀ b ∈ r.outputBuffers, b.stream.Known blob
    | .beginFlush | .finishFlush _ => False
    | _ => True

/-- The runs of requests, buffer callbacks and metadata callbacks. -/
def reportingSystem : System Reporting Op where
  init s := s = { toSession := Session.start }
  step s op s' := op.Reports blob s.toSession ∧ hal3System.step s.toSession op s'.toSession ∧
    s'.delivered = s.delivered ++ op.delivers

end

/-! ## Reported drops -/

variable {blob : Nat → Bool} {s : Reporting} {h : Hwi} {n m : Nat} {st : Stream}

/-- Each drop is reported once. A buffer whose drop was reported comes back with an error, and
every other one as it was delivered. A reported drop waits in `mPendingFrameDropList` for a buffer
that a channel still owes, and nothing else waits there. -/
structure DropsReported (s : Reporting) : Prop where
  once : s.hwi.errorsSent.Nodup
  error : ∀ n b, (n, b) ∈ s.hwi.given → (n, b.stream) ∈ s.hwi.errorsSent → b.error = true
  unchanged : ∀ n b, (n, b) ∈ s.hwi.given → (n, b.stream) ∉ s.hwi.errorsSent →
    (n, b) ∈ s.delivered
  settled : ∀ n st, (n, st) ∈ s.hwi.errorsSent →
    (∃ k ∈ s.owed, k.frameNumber = n ∧ k.stream = st) ∧
        entriesFor s.hwi.pendingFrameDropList n st.streamId = 1 ∨
      (∃ b, (n, b) ∈ s.hwi.given ∧ b.stream = st) ∧
        entriesFor s.hwi.pendingFrameDropList n st.streamId = 0
  waits : ∀ m ∈ s.hwi.pendingFrameDropList, ∃ st : Stream, st.streamId = m.streamId ∧
    (m.frameNumber, st) ∈ s.hwi.errorsSent

structure Hwi.KeepsDrops (h : Hwi) (md : Metadata) (i : PendingRequestInfo) : Prop where
  once : (Hwi.droppedStreams md i).Nodup
  empty : i.frameNumber < md.frameNumber →
    ∀ j ∈ i.buffers, j.stream ∈ Hwi.droppedStreams md i → j.buffer = none
  uncached : i.inputBuffer.isSome → ∀ c ∈ h.pendingReprocessResultList,
    c.frameNumber = i.frameNumber → c.buffer.stream ∉ Hwi.droppedStreams md i

/-- The loop does not go on at a reprocess request that it has taken out. -/
def Hwi.KeepsNext (h : Hwi) (frameNumber : Nat) : Prop :=
  let next := (frameNumber + 1) % 2 ^ 32
  h.cachedFor next = [] ∨ (h.completed frameNumber).length ≠ 1 ∨
    ∀ i ∈ h.pendingRequestsList, frameNumber < i.frameNumber → i.frameNumber ≠ next

def Op.KeepsDrops (s : Session) : Op → Prop
  | .metadata _ md => ∀ m, md = some m → m.frameNumberValid = true →
      s.hwi.KeepsNext m.frameNumber ∧ ∀ i ∈ s.hwi.completed m.frameNumber, s.hwi.KeepsDrops m i
  | _ => True

/-! ## The invariant -/

def owedFor (owed : List PendingBufferInfo) (n : Nat) (st : Stream) : Nat :=
  owed.countP fun k => k.frameNumber = n ∧ k.stream = st

def Hwi.cachedOf (h : Hwi) (i : PendingRequestInfo) (st : Stream) : Nat :=
  if i.inputBuffer.isSome then h.pendingReprocessResultList.countP fun c =>
    c.frameNumber = i.frameNumber ∧ c.buffer.stream = st
  else 0

structure Queued (blob : Nat → Bool) (s : Reporting) : Prop where
  flush : s.hwi.flush = false
  sorted : (s.hwi.pendingRequestsList.map PendingRequestInfo.frameNumber).Pairwise (· < ·)
  accepted : ∀ i ∈ s.hwi.pendingRequestsList, i.frameNumber ∈ s.accepted
  owed : ∀ k ∈ s.owed, k.frameNumber ∈ s.accepted ∧ k.stream.Known blob
  cached : ∀ c ∈ s.hwi.pendingReprocessResultList, c.frameNumber ∈ s.accepted ∧
    (c.frameNumber, c.buffer) ∈ s.delivered ∧ c.notifyMsg.errorBuffer? = none
  streams : ∀ i ∈ s.hwi.pendingRequestsList, ∀ j ∈ i.buffers, j.stream.Known blob
  stored : ∀ i ∈ s.hwi.pendingRequestsList, ∀ j ∈ i.buffers, ∀ b, j.buffer = some b →
    b.stream = j.stream ∧ (i.frameNumber, b) ∈ s.delivered
  slots : ∀ i ∈ s.hwi.pendingRequestsList, ∀ st, (i.buffers.countP fun j => j.stream = st) = 1 →
    owedFor s.owed i.frameNumber st + s.hwi.cachedOf i st =
      i.buffers.countP fun j => j.stream = st ∧ j.buffer = none

structure Told (blob : Nat → Bool) (s : Reporting) (n : Nat) (st : Stream) : Prop where
  known : st.Known blob
  accepted : n ∈ s.accepted
  older : ∀ i ∈ s.hwi.pendingRequestsList, n < i.frameNumber
  owed : owedFor s.owed n st ≤ 1
  entries : entriesFor s.hwi.pendingFrameDropList n st.streamId = owedFor s.owed n st
  given : owedFor s.owed n st = 0 → ∃ b, (n, b) ∈ s.hwi.given ∧ b.stream = st

structure DropInv (blob : Nat → Bool) (s : Reporting) : Prop extends Queued blob s where
  once : s.hwi.errorsSent.Nodup
  told : ∀ n st, (n, st) ∈ s.hwi.errorsSent → Told blob s n st
  waits : ∀ m ∈ s.hwi.pendingFrameDropList, ∃ st : Stream, st.streamId = m.streamId ∧
    (m.frameNumber, st) ∈ s.hwi.errorsSent
  gone : ∀ x ∈ s.hwi.given, x.1 ∈ s.accepted ∧
    ∀ i ∈ s.hwi.pendingRequestsList, i.frameNumber ≠ x.1
  error : ∀ n b, (n, b) ∈ s.hwi.given → (n, b.stream) ∈ s.hwi.errorsSent → b.error = true
  unchanged : ∀ n b, (n, b) ∈ s.hwi.given → (n, b.stream) ∉ s.hwi.errorsSent →
    (n, b) ∈ s.delivered

theorem dropInv_start : DropInv blob { toSession := Session.start } := by
  refine ⟨⟨rfl, ?_, ?_, ?_, ?_, ?_, ?_, ?_⟩, ?_, ?_, ?_, ?_, ?_, ?_⟩ <;>
    simp [Session.start, Hwi.errorsSent, Hwi.given]

theorem owedFor_pos {owed : List PendingBufferInfo} :
    0 < owedFor owed n st ↔ ∃ k ∈ owed, k.frameNumber = n ∧ k.stream = st := by
  unfold owedFor
  simp

theorem DropInv.dropsReported (inv : DropInv blob s) : DropsReported s where
  once := inv.once
  error := inv.error
  unchanged := inv.unchanged
  settled n st hsent := by
    have told := inv.told n st hsent
    rw [told.entries]
    rcases Nat.eq_zero_or_pos (owedFor s.owed n st) with hzero | hpos
    · exact .inr ⟨told.given hzero, hzero⟩
    · have := told.owed
      exact .inl ⟨owedFor_pos.mp hpos, by omega⟩
  waits := inv.waits

theorem Stream.Known.ext {st st' : Stream} (hst : st.Known blob) (hst' : st'.Known blob)
    (hid : st.streamId = st'.streamId) : st = st' := by
  unfold Stream.Known at hst hst'
  cases st
  cases st'
  simp_all

/-! ## Frames -/

variable {s' : Reporting}

theorem Queued.shrink (inv : Queued blob s) (hflush : s'.hwi.flush = false)
    (hP : s'.hwi.pendingRequestsList.Sublist s.hwi.pendingRequestsList)
    (haccepted : s'.accepted = s.accepted) (howed : ∀ k ∈ s'.owed, k ∈ s.owed)
    (hdelivered : ∀ x ∈ s.delivered, x ∈ s'.delivered)
    (hcached : ∀ c ∈ s'.hwi.pendingReprocessResultList, c ∈ s.hwi.pendingReprocessResultList ∨
      c.frameNumber ∈ s.accepted ∧ (c.frameNumber, c.buffer) ∈ s'.delivered ∧
        c.notifyMsg.errorBuffer? = none)
    (hslots : ∀ i ∈ s'.hwi.pendingRequestsList, ∀ st,
      owedFor s'.owed i.frameNumber st + s'.hwi.cachedOf i st =
        owedFor s.owed i.frameNumber st + s.hwi.cachedOf i st) : Queued blob s' where
  flush := hflush
  sorted := inv.sorted.sublist (hP.map _)
  accepted i hi := haccepted ▸ inv.accepted i (hP.subset hi)
  owed k hk := haccepted ▸ inv.owed k (howed k hk)
  cached c hc := by
    rw [haccepted]
    rcases hcached c hc with hold | hnew
    · simp [inv.cached, hold, hdelivered]
    · exact hnew
  streams i hi := inv.streams i (hP.subset hi)
  stored i hi j hj b hb := by
    obtain ⟨hstream, hdel⟩ := inv.stored i (hP.subset hi) j hj b hb
    exact ⟨hstream, hdelivered _ hdel⟩
  slots i hi st hone := (hslots i hi st).trans (inv.slots i (hP.subset hi) st hone)

theorem DropInv.give (inv : DropInv blob s) (xs : List (Nat × StreamBuffer))
    (hqueued : Queued blob s') (hsent : s'.hwi.errorsSent = s.hwi.errorsSent)
    (haccepted : ∀ n ∈ s.accepted, n ∈ s'.accepted)
    (hdelivered : ∀ x ∈ s.delivered, x ∈ s'.delivered)
    (hframes : ∀ i ∈ s'.hwi.pendingRequestsList,
      (∃ i' ∈ s.hwi.pendingRequestsList, i'.frameNumber = i.frameNumber) ∨
        ∀ n ∈ s.accepted, n < i.frameNumber)
    (hgiven : s'.hwi.given = s.hwi.given ++ xs)
    (hxs : ∀ n b, (n, b) ∈ xs → n ∈ s'.accepted ∧
      (∀ i ∈ s'.hwi.pendingRequestsList, i.frameNumber ≠ n) ∧
      ((n, b.stream) ∈ s.hwi.errorsSent → b.error = true) ∧
      ((n, b.stream) ∉ s.hwi.errorsSent → (n, b) ∈ s'.delivered))
    (hdrops : s'.hwi.pendingFrameDropList.Sublist s.hwi.pendingFrameDropList)
    (htold : ∀ n st, Told blob s n st → (n, st) ∈ s.hwi.errorsSent →
      owedFor s'.owed n st ≤ owedFor s.owed n st ∧
      entriesFor s'.hwi.pendingFrameDropList n st.streamId = owedFor s'.owed n st ∧
      (owedFor s'.owed n st = 0 → owedFor s.owed n st = 0 ∨
        ∃ b, (n, b) ∈ xs ∧ b.stream = st)) : DropInv blob s' where
  toQueued := hqueued
  once := hsent ▸ inv.once
  told n st hin := by
    rw [hsent] at hin
    have told := inv.told n st hin
    obtain ⟨hle, hentries, hzero⟩ := htold n st told hin
    refine ⟨told.known, haccepted _ told.accepted, fun i hi => ?_, Nat.le_trans hle told.owed,
      hentries, fun hnone => ?_⟩
    · rcases hframes i hi with ⟨i', hi', heq⟩ | hnew
      · exact heq ▸ told.older i' hi'
      · exact hnew n told.accepted
    · rw [hgiven]
      rcases hzero hnone with hold | ⟨b, hb, hst⟩
      · obtain ⟨b, hb, hst⟩ := told.given hold
        exact ⟨b, List.mem_append_left _ hb, hst⟩
      · exact ⟨b, List.mem_append_right _ hb, hst⟩
  waits m hm := by
    rw [hsent]
    exact inv.waits m (hdrops.subset hm)
  gone x hx := by
    rw [hgiven] at hx
    rcases List.mem_append.mp hx with hold | hnew
    · obtain ⟨hacc, hgone⟩ := inv.gone x hold
      grind
    · exact ⟨(hxs _ _ hnew).1, (hxs _ _ hnew).2.1⟩
  error n b hb hin := by
    rw [hsent] at hin
    rw [hgiven] at hb
    rcases List.mem_append.mp hb with hold | hnew
    · exact inv.error n b hold hin
    · exact (hxs n b hnew).2.2.1 hin
  unchanged n b hb hnot := by
    rw [hsent] at hnot
    rw [hgiven] at hb
    rcases List.mem_append.mp hb with hold | hnew
    · exact hdelivered _ (inv.unchanged n b hold hnot)
    · exact (hxs n b hnew).2.2.2 hnot

theorem DropInv.entries_eq_zero (inv : DropInv blob s) (hst : st.Known blob)
    (hnot : (n, st) ∉ s.hwi.errorsSent) :
    entriesFor s.hwi.pendingFrameDropList n st.streamId = 0 := by
  rw [entriesFor_eq_zero]
  intro hmem
  obtain ⟨st', hid, hsent⟩ := inv.waits _ hmem
  have hsame : st' = st := (inv.told _ _ hsent).known.ext hst hid
  exact hnot (hsame ▸ hsent)

theorem DropInv.not_sent (inv : DropInv blob s) {i : PendingRequestInfo}
    (hi : i ∈ s.hwi.pendingRequestsList) : (i.frameNumber, st) ∉ s.hwi.errorsSent := fun hsent =>
  Nat.lt_irrefl _ ((inv.told _ _ hsent).older i hi)

theorem DropInv.congr (inv : DropInv blob s)
    (hcore : h.pendingRequestsList.map PendingRequestInfo.core =
      s.hwi.pendingRequestsList.map PendingRequestInfo.core)
    (hcached : h.pendingReprocessResultList = s.hwi.pendingReprocessResultList)
    (hdrops : h.pendingFrameDropList = s.hwi.pendingFrameDropList)
    (hflush : h.flush = s.hwi.flush) (hsent : h.errorsSent = s.hwi.errorsSent)
    (hgiven : h.given = s.hwi.given) : DropInv blob { s with hwi := h } := by
  have hof : ∀ i st, h.cachedOf i st = s.hwi.cachedOf i st := by
    intro i st
    unfold Hwi.cachedOf
    rw [hcached]
  refine inv.give [] ?_ hsent (fun _ hn => hn) (fun _ hx => hx) (fun i hi => .inl ?_)
    (by rw [List.append_nil]; exact hgiven) (by simp) (by rw [hdrops])
    fun n st told _ => ⟨Nat.le_refl _, ?_, .inl⟩
  · refine ⟨hflush.trans inv.flush, ?_, ?_, inv.owed, ?_, ?_, ?_, ?_⟩
    · rw [frames_of_core hcore]
      exact inv.sorted
    · exact forall_of_core (fun i => i.frameNumber ∈ s.accepted) hcore inv.accepted
    · rw [hcached]
      exact inv.cached
    · exact forall_of_core (fun i => ∀ j ∈ i.buffers, j.stream.Known blob) hcore inv.streams
    · exact forall_of_core (fun i => ∀ j ∈ i.buffers, ∀ b, j.buffer = some b →
        b.stream = j.stream ∧ (i.frameNumber, b) ∈ s.delivered) hcore inv.stored
    · refine forall_of_core (fun i => ∀ st, (i.buffers.countP fun j => j.stream = st) = 1 →
        owedFor s.owed i.frameNumber st + h.cachedOf i st =
          i.buffers.countP fun j => j.stream = st ∧ j.buffer = none) hcore ?_
      intro i hi st hone
      rw [hof]
      exact inv.slots i hi st hone
  · have hmem : i.frameNumber ∈ h.pendingRequestsList.map PendingRequestInfo.frameNumber :=
      List.mem_map_of_mem hi
    rw [frames_of_core hcore] at hmem
    simp_all
  · rw [hdrops]
    exact told.entries

/-! ## Buffer callbacks -/

section

variable {b : StreamBuffer}

theorem owedFor_erase (m : Nat) (st : Stream) {owed : List PendingBufferInfo}
    (hk : ⟨n, b.stream, b.buffer⟩ ∈ owed) :
    owedFor (owed.erase ⟨n, b.stream, b.buffer⟩) m st + (if m = n ∧ st = b.stream then 1 else 0) =
      owedFor owed m st := by
  unfold owedFor
  rw [(List.perm_cons_erase hk).countP_eq, List.countP_cons]
  grind

def Reporting.afterCallback (s : Reporting) (b : StreamBuffer) (n : Nat) (h : Hwi) : Reporting :=
  { s with
    hwi := h
    owed := s.owed.erase ⟨n, b.stream, b.buffer⟩
    called := s.toSession.called ++ [(n, b.buffer)]
    delivered := s.delivered ++ [(n, b)] }

theorem not_pending_of_findRequest (hfind : s.hwi.findRequest n = none) :
    ∀ i ∈ s.hwi.pendingRequestsList, i.frameNumber ≠ n := fun i hi => by
  simpa using List.find?_eq_none.mp hfind i hi

theorem dropInv_buffer_direct (inv : DropInv blob s) (hk : ⟨n, b.stream, b.buffer⟩ ∈ s.owed)
    (hfind : s.hwi.findRequest n = none) (now : UInt64) :
    DropInv blob (s.afterCallback b n (s.hwi.handleBufferWithLock b n now)) := by
  have hgone := not_pending_of_findRequest hfind
  obtain ⟨hframe, hknown⟩ := inv.owed _ hk
  obtain ⟨b', drops, hreturn, -⟩ := returnBuffer_eq s.hwi n b
  obtain ⟨hmark, hsub, hentries⟩ := returnBuffer_spec s.hwi n b
  have hrun : s.hwi.handleBufferWithLock b n now =
      (s.hwi.returnBuffer n b).2.emit [.processCaptureResult {
        frameNumber := n
        result := none
        outputBuffers := [(s.hwi.returnBuffer n b).1]
        partialResult := 0 }] := by
    unfold Hwi.handleBufferWithLock
    rw [hfind]
  rw [hreturn] at hmark hsub hentries hrun
  dsimp only at hmark hsub hentries
  rw [hrun]
  have hstream : b'.stream = b.stream := by
    rw [hmark]
    split <;> rfl
  refine inv.give [(n, b')] (inv.toQueued.shrink inv.flush (.refl _) rfl
      (fun k hk => List.mem_of_mem_erase hk) (fun x hx => List.mem_append_left _ hx)
      (fun c hc => .inl hc) fun i hi st => ?_)
    ?_ (fun _ hn => hn) (fun x hx => List.mem_append_left _ hx) (fun i hi => .inl ⟨i, hi, rfl⟩) ?_
    (fun m c hc => ?_) hsub fun m st told hsent => ?_
  · have hone := owedFor_erase i.frameNumber st hk
    rw [if_neg fun heq => hgone i hi heq.1] at hone
    exact congrArg (· + s.hwi.cachedOf i st) hone
  · exact (errorsSent_append rfl).trans (List.append_nil _)
  · exact @given_append _ _ [.processCaptureResult {
      frameNumber := n
      result := none
      outputBuffers := [b']
      partialResult := 0 }] rfl
  · cases List.mem_singleton.mp hc
    rw [hstream]
    refine ⟨hframe, hgone, fun hsent => ?_, fun hnot => ?_⟩
    · have told := inv.told _ _ hsent
      have hpos : 0 < owedFor s.owed n b.stream := owedFor_pos.mpr ⟨_, hk, rfl, rfl⟩
      rw [hmark, if_pos (by rw [told.entries]; exact hpos)]
    · have hzero := inv.entries_eq_zero hknown hnot
      rw [hmark, if_neg (by rw [hzero]; exact Nat.lt_irrefl 0)]
      exact List.mem_append_right _ (List.mem_singleton.mpr rfl)
  · have hone := owedFor_erase m st hk
    have hdrops := hentries m st.streamId
    have hid : (m = n ∧ st.streamId = b.stream.streamId) ↔ (m = n ∧ st = b.stream) := by
      refine and_congr_right fun _ => ⟨fun heq => told.known.ext hknown heq, fun heq => heq ▸ rfl⟩
    change owedFor (s.owed.erase _) m st ≤ _ ∧ entriesFor drops m st.streamId =
      owedFor (s.owed.erase _) m st ∧ (owedFor (s.owed.erase _) m st = 0 → _)
    rw [hdrops, told.entries, if_congr hid rfl rfl]
    grind

theorem dropInv_buffer_now (inv : DropInv blob s) (hk : ⟨n, b.stream, b.buffer⟩ ∈ s.owed)
    {i : PendingRequestInfo} {l₁ l₂ : List PendingRequestInfo} (hi : i.frameNumber = n)
    (hP : s.hwi.pendingRequestsList = l₁ ++ i :: l₂) (events : List Event)
    (hP' : h.pendingRequestsList = l₁ ++ l₂)
    (hcached : h.pendingReprocessResultList = s.hwi.pendingReprocessResultList)
    (hdrops : h.pendingFrameDropList = s.hwi.pendingFrameDropList) (hflush : h.flush = false)
    (htrace : h.trace = s.hwi.trace ++ events)
    (herrors : events.filterMap Event.errorBuffer? = [])
    (hgiven : events.flatMap Event.given = [(n, b)]) : DropInv blob (s.afterCallback b n h) := by
  subst hi
  have hmem : i ∈ s.hwi.pendingRequestsList := hP ▸ List.mem_append_right _ List.mem_cons_self
  have hsub : h.pendingRequestsList.Sublist s.hwi.pendingRequestsList := by
    simp [hP, hP']
  have hne : ∀ i' ∈ h.pendingRequestsList, i'.frameNumber ≠ i.frameNumber := by
    intro i' hi' heq
    have hnd : (s.hwi.pendingRequestsList.map PendingRequestInfo.frameNumber).Nodup :=
      inv.sorted.imp fun hlt => Nat.ne_of_lt hlt
    grind
  refine inv.give [(i.frameNumber, b)] (inv.toQueued.shrink hflush hsub rfl
      (fun k hk => List.mem_of_mem_erase hk) (fun x hx => List.mem_append_left _ hx)
      (fun c hc => .inl (hcached ▸ hc)) fun i' hi' st => ?_)
    ?_ (fun _ hn => hn) (fun x hx => List.mem_append_left _ hx)
    (fun i' hi' => .inl ⟨i', hsub.subset hi', rfl⟩) ?_ (fun m c hc => ?_)
    (by rw [show (s.afterCallback b i.frameNumber h).hwi.pendingFrameDropList = _ from hdrops])
    fun m st told hsent => ?_
  · have hone := owedFor_erase i'.frameNumber st hk
    rw [if_neg fun heq => hne i' hi' heq.1] at hone
    have hof : h.cachedOf i' st = s.hwi.cachedOf i' st := by
      unfold Hwi.cachedOf
      rw [hcached]
    change owedFor (s.owed.erase _) i'.frameNumber st + h.cachedOf i' st = _
    rw [hof, ← hone]
    rfl
  · exact (errorsSent_append htrace).trans (by rw [herrors, List.append_nil])
  · exact (given_append htrace).trans (by rw [hgiven])
  · cases List.mem_singleton.mp hc
    exact ⟨inv.accepted i hmem, hne, fun hsent => absurd hsent (inv.not_sent hmem),
      fun _ => List.mem_append_right _ (List.mem_singleton.mpr rfl)⟩
  · have hone := owedFor_erase m st hk
    rw [if_neg fun heq => Nat.ne_of_lt (told.older i hmem) heq.1] at hone
    change owedFor (s.owed.erase _) m st ≤ _ ∧ entriesFor h.pendingFrameDropList m st.streamId =
      owedFor (s.owed.erase _) m st ∧ (owedFor (s.owed.erase _) m st = 0 → _)
    rw [hdrops, told.entries]
    exact ⟨by omega, by omega, fun hzero => .inl (by omega)⟩

theorem Queued.eq_of_frame (inv : Queued blob s) {i i' : PendingRequestInfo}
    (hi : i ∈ s.hwi.pendingRequestsList) (hi' : i' ∈ s.hwi.pendingRequestsList)
    (heq : i.frameNumber = i'.frameNumber) : i = i' :=
  List.inj_on_of_nodup_map (inv.sorted.imp fun hlt => Nat.ne_of_lt hlt) hi hi' heq

theorem dropInv_buffer_cached (inv : DropInv blob s) (hk : ⟨n, b.stream, b.buffer⟩ ∈ s.owed)
    {i : PendingRequestInfo} (hmem : i ∈ s.hwi.pendingRequestsList) (hi : i.frameNumber = n)
    (hinput : i.inputBuffer.isSome) (msg : NotifyMsg) (hmsg : msg.errorBuffer? = none)
    (hP : h.pendingRequestsList = s.hwi.pendingRequestsList)
    (hcached : h.pendingReprocessResultList = s.hwi.pendingReprocessResultList ++ [⟨msg, b, n⟩])
    (hdrops : h.pendingFrameDropList = s.hwi.pendingFrameDropList) (hflush : h.flush = false)
    (htrace : h.trace = s.hwi.trace) : DropInv blob (s.afterCallback b n h) := by
  subst hi
  have hsent : h.errorsSent = s.hwi.errorsSent := by
    unfold Hwi.errorsSent
    rw [htrace]
  have hgiven : h.given = s.hwi.given := by
    unfold Hwi.given
    rw [htrace]
  refine inv.give [] (inv.toQueued.shrink hflush
      (by rw [show (s.afterCallback b i.frameNumber h).hwi.pendingRequestsList = _ from hP]) rfl
      (fun k hk => List.mem_of_mem_erase hk) (fun x hx => List.mem_append_left _ hx)
      (fun c hc => ?_) fun i' hi' st => ?_)
    hsent (fun _ hn => hn) (fun x hx => List.mem_append_left _ hx)
    (fun i' hi' => .inl ⟨i', hP ▸ hi', rfl⟩) (by rw [List.append_nil]; exact hgiven) (by simp)
    (by rw [show (s.afterCallback b i.frameNumber h).hwi.pendingFrameDropList = _ from hdrops])
    fun m st told _ => ?_
  · change c ∈ h.pendingReprocessResultList at hc
    rw [hcached] at hc
    rcases List.mem_append.mp hc with hold | hnew
    · exact .inl hold
    · cases List.mem_singleton.mp hnew
      exact .inr ⟨inv.accepted i hmem, List.mem_append_right _ (List.mem_singleton.mpr rfl), hmsg⟩
  · have hone := owedFor_erase i'.frameNumber st hk
    have hof : h.cachedOf i' st =
        s.hwi.cachedOf i' st + if i'.frameNumber = i.frameNumber ∧ st = b.stream then 1 else 0 := by
      unfold Hwi.cachedOf
      rw [hcached, List.countP_append, List.countP_singleton]
      by_cases hsame : i'.frameNumber = i.frameNumber
      · cases inv.eq_of_frame (hP ▸ hi') hmem hsame
        simp [hinput, eq_comm]
      · simp [hsame, Ne.symm hsame]
    change owedFor (s.owed.erase _) i'.frameNumber st + h.cachedOf i' st = _
    omega
  · have hone := owedFor_erase m st hk
    rw [if_neg fun heq => Nat.ne_of_lt (told.older i hmem) heq.1] at hone
    change owedFor (s.owed.erase _) m st ≤ _ ∧ entriesFor h.pendingFrameDropList m st.streamId =
      owedFor (s.owed.erase _) m st ∧ (owedFor (s.owed.erase _) m st = 0 → _)
    rw [hdrops, told.entries]
    exact ⟨by omega, by omega, fun hzero => .inl (by omega)⟩

theorem dropInv_buffer_store (inv : DropInv blob s) (hk : ⟨n, b.stream, b.buffer⟩ ∈ s.owed)
    {i : PendingRequestInfo} (hfind : s.hwi.findRequest n = some i)
    (hinput : i.inputBuffer.isSome = false) :
    DropInv blob (s.afterCallback b n (s.hwi.storeBuffer b n)) := by
  obtain ⟨hi, l₁, l₂, hP, hl₁⟩ := findRequest_split hfind
  have hstore := storeBuffer_split (b := b) hi hP hl₁
  subst hi
  have hmem : i ∈ s.hwi.pendingRequestsList := hP ▸ List.mem_append_right _ List.mem_cons_self
  rw [hstore]
  set i' : PendingRequestInfo := { i with buffers := i.buffers.map (RequestedBufferInfo.fill b) }
  -- The other requests are the same.
  have hcases : ∀ φ : PendingRequestInfo → Prop, φ i' →
      (∀ i₁ ∈ s.hwi.pendingRequestsList, i₁.frameNumber ≠ i.frameNumber → φ i₁) →
      ∀ i₁ ∈ l₁ ++ i' :: l₂, φ i₁ := by
    intro φ hnew hold i₁ hi₁
    have hnd : (s.hwi.pendingRequestsList.map PendingRequestInfo.frameNumber).Nodup :=
      inv.sorted.imp fun hlt => Nat.ne_of_lt hlt
    rw [hP, List.map_append, List.map_cons, List.nodup_middle, List.nodup_cons,
      ← List.map_append] at hnd
    rw [List.mem_append, List.mem_cons, or_left_comm, ← List.mem_append] at hi₁
    grind
  have hframes : (l₁ ++ i' :: l₂).map PendingRequestInfo.frameNumber =
      s.hwi.pendingRequestsList.map PendingRequestInfo.frameNumber := by
    rw [hP]
    simp [i']
  refine inv.give [] ⟨inv.flush, ?_, ?_, fun k hk => inv.owed k (List.mem_of_mem_erase hk),
      fun c hc => ?_, ?_, ?_, ?_⟩
    rfl (fun _ hn => hn) (fun x hx => List.mem_append_left _ hx) (fun i₁ hi₁ => .inl ?_)
    (List.append_nil _).symm (by simp) (.refl _) fun m st told _ => ?_
  · exact hframes ▸ inv.sorted
  · exact hcases (fun i₁ => i₁.frameNumber ∈ s.accepted) (inv.accepted i hmem)
      fun i₁ hi₁ _ => inv.accepted i₁ hi₁
  · obtain ⟨hframe, hdel, hmsg⟩ := inv.cached c hc
    exact ⟨hframe, List.mem_append_left _ hdel, hmsg⟩
  · refine hcases (fun i₁ => ∀ j ∈ i₁.buffers, j.stream.Known blob) (fun j hj => ?_)
      fun i₁ hi₁ _ => inv.streams i₁ hi₁
    obtain ⟨j, hold, rfl⟩ := List.mem_map.mp hj
    rw [RequestedBufferInfo.fill_stream]
    exact inv.streams i hmem j hold
  · refine hcases (fun i₁ => ∀ j ∈ i₁.buffers, ∀ c, j.buffer = some c → c.stream = j.stream ∧
      (i₁.frameNumber, c) ∈ s.delivered ++ [(i.frameNumber, b)]) (fun j hj c hc => ?_)
      fun i₁ hi₁ _ j hj c hc => ?_
    · obtain ⟨j, hold, rfl⟩ := List.mem_map.mp hj
      rw [RequestedBufferInfo.fill_stream]
      unfold RequestedBufferInfo.fill at hc
      split at hc
      · simp_all
      · obtain ⟨hstream, hdel⟩ := inv.stored i hmem j hold c hc
        exact ⟨hstream, List.mem_append_left _ hdel⟩
    · obtain ⟨hstream, hdel⟩ := inv.stored i₁ hi₁ j hj c hc
      exact ⟨hstream, List.mem_append_left _ hdel⟩
  · refine hcases (fun i₁ => ∀ st, (i₁.buffers.countP fun j => j.stream = st) = 1 →
      owedFor (s.owed.erase ⟨i.frameNumber, b.stream, b.buffer⟩) i₁.frameNumber st +
          s.hwi.cachedOf i₁ st =
        i₁.buffers.countP fun j => j.stream = st ∧ j.buffer = none) (fun st hone => ?_)
      fun i₁ hi₁ hne st hone => ?_
    · have hplaces : (i.buffers.countP fun j => j.stream = st) = 1 := by
        rw [← hone]
        simp only [i', List.countP_map]
        refine List.countP_congr fun j _ => ?_
        rw [Function.comp_apply, RequestedBufferInfo.fill_stream]
      have hslots := inv.slots i hmem st hplaces
      have herase := owedFor_erase i.frameNumber st hk
      have hnone : ∀ i₁ : PendingRequestInfo, i₁.inputBuffer = i.inputBuffer →
          s.hwi.cachedOf i₁ st = 0 := fun i₁ h₁ => if_neg (by simp [h₁, hinput])
      have hfree := fill_free b st i.buffers
      change owedFor (s.owed.erase _) i.frameNumber st + s.hwi.cachedOf i' st =
        (i.buffers.map (RequestedBufferInfo.fill b)).countP _
      rw [hfree, hnone i' rfl]
      rw [hnone i rfl] at hslots
      split
      · rename_i hst
        rw [if_pos ⟨rfl, hst⟩] at herase
        have hle : (i.buffers.countP fun j => j.stream = st ∧ j.buffer = none) ≤
            i.buffers.countP fun j => j.stream = st :=
          List.countP_mono_left fun j _ h => by simp_all
        omega
      simp_all
    · have herase := owedFor_erase i₁.frameNumber st hk
      rw [if_neg fun heq => hne heq.1] at herase
      rw [← inv.slots i₁ hi₁ st hone]
      omega
  · have hin : i₁.frameNumber ∈ (l₁ ++ i' :: l₂).map PendingRequestInfo.frameNumber :=
      List.mem_map_of_mem hi₁
    rw [hframes] at hin
    exact List.mem_map.mp hin
  · have hone := owedFor_erase m st hk
    rw [if_neg fun heq => Nat.ne_of_lt (told.older i hmem) heq.1] at hone
    change owedFor (s.owed.erase _) m st ≤ _ ∧
      entriesFor s.hwi.pendingFrameDropList m st.streamId =
      owedFor (s.owed.erase _) m st ∧ (owedFor (s.owed.erase _) m st = 0 → _)
    rw [told.entries]
    exact ⟨by omega, by omega, fun hzero => .inl (by omega)⟩

theorem dropInv_buffer (inv : DropInv blob s) (hk : ⟨n, b.stream, b.buffer⟩ ∈ s.owed)
    (now : UInt64) : DropInv blob (s.afterCallback b n (s.hwi.handleBufferWithLock b n now)) := by
  cases hfind : s.hwi.findRequest n with
  | none => exact dropInv_buffer_direct inv hk hfind now
  | some i =>
    obtain ⟨hi, l₁, l₂, hP, hl₁⟩ := findRequest_split hfind
    have hmem : i ∈ s.hwi.pendingRequestsList := hP ▸ List.mem_append_right _ List.mem_cons_self
    unfold Hwi.handleBufferWithLock
    rw [hfind]
    dsimp only
    split
    · rename_i hinput
      unfold Hwi.handleReprocessBuffer
      have htake := takeBuffer_fields s.hwi b.buffer
      have hlist : (s.hwi.takeBuffer b.buffer).pendingRequestsList = s.hwi.pendingRequestsList := by
        rw [htake]
      have htrace : (s.hwi.takeBuffer b.buffer).trace = s.hwi.trace := by rw [htake]
      dsimp only
      split
      · refine dropInv_buffer_now inv hk hi hP [.notify (Hwi.reprocessShutter i n now),
          .processCaptureResult {
            frameNumber := n
            result := i.settings.map fun _ => .settings
            outputBuffers := [b]
            inputBuffer := i.inputBuffer
            partialResult := partialResultCount }] ?_ ?_ ?_ ?_ ?_ rfl rfl
        · exact eraseRequest_split hi (hlist.trans hP) hl₁
        · change (s.hwi.takeBuffer b.buffer).pendingReprocessResultList = _
          rw [htake]
        · exact takeBuffer_drops s.hwi b.buffer
        · rw [htake]
          exact inv.flush
        · change (s.hwi.takeBuffer b.buffer).trace ++ _ = _
          rw [htrace]
      · refine dropInv_buffer_cached inv hk hmem hi hinput
          (Hwi.reprocessShutter i n now) rfl hlist ?_ ?_ ?_ htrace
        · rw [htake]
        · exact takeBuffer_drops s.hwi b.buffer
        · rw [htake]
          exact inv.flush
    simp_all [dropInv_buffer_store]

end

/-! ## Metadata -/

section

variable {md : Metadata} {i : PendingRequestInfo}

theorem stored_add_empty (hst : st.Known blob)
    (hstored : ∀ j ∈ i.buffers, ∀ b, j.buffer = some b → b.stream = j.stream)
    (hknown : ∀ j ∈ i.buffers, j.stream.Known blob) :
    ((i.buffers.filterMap RequestedBufferInfo.buffer).countP fun b =>
        b.stream.streamId = st.streamId) +
      (i.buffers.countP fun j => j.stream = st ∧ j.buffer = none) =
        i.buffers.countP fun j => j.stream = st := by
  revert hstored hknown
  induction i.buffers with
  | nil => exact fun _ _ => rfl
  | cons j js ih =>
    intro hstored hknown
    have hrest := ih (fun j' hj' => hstored j' (List.mem_cons_of_mem _ hj'))
      fun j' hj' => hknown j' (List.mem_cons_of_mem _ hj')
    have hj := hknown j List.mem_cons_self
    rw [List.countP_cons, List.countP_cons]
    cases hb : j.buffer with
    | none =>
      rw [List.filterMap_cons_none hb]
      simp only [and_true, decide_eq_true_eq]
      omega
    | some b =>
      have hsame := hstored j List.mem_cons_self b hb
      have hid : b.stream.streamId = st.streamId ↔ j.stream = st := by
        rw [hsame]
        exact ⟨fun heq => hj.ext hst heq, fun heq => heq ▸ rfl⟩
      rw [List.filterMap_cons_some hb, List.countP_cons]
      simp only [hid, reduceCtorEq, and_false, decide_false, Bool.false_eq_true, if_false,
        decide_eq_true_eq]
      omega

theorem entriesFor_newDrops (hnd : (Hwi.droppedStreams md i).Nodup) (hst : st.Known blob)
    (hknown : ∀ j ∈ i.buffers, j.stream.Known blob) :
    entriesFor (newDrops md i) m st.streamId =
      if m = i.frameNumber ∧ st ∈ Hwi.droppedStreams md i then 1 else 0 := by
  have hcount : entriesFor (newDrops md i) m st.streamId =
      if m = i.frameNumber then (Hwi.droppedStreams md i).count st else 0 := by
    unfold entriesFor newDrops
    rw [List.countP_map]
    split
    · rename_i hm
      refine List.countP_congr fun st' hst' => ?_
      obtain ⟨⟨j, hj, rfl⟩, -⟩ := mem_droppedStreams.mp hst'
      simp only [Function.comp_apply, decide_eq_true_eq, beq_iff_eq]
      exact ⟨fun heq => (hknown j hj).ext hst heq.2, fun heq => ⟨hm.symm, heq ▸ rfl⟩⟩
    · rename_i hm
      rw [List.countP_eq_zero]
      intro st' _
      simp [Ne.symm hm]
  grind

theorem dropInv_completeRequest (inv : DropInv blob s) {P : List PendingRequestInfo}
    (hP : s.hwi.pendingRequestsList = i :: P) (hle : i.frameNumber ≤ md.frameNumber)
    (hkeep : s.hwi.KeepsDrops md i) (metadataBuf : Nat) :
    DropInv blob { s with hwi := s.hwi.completeRequest md metadataBuf i } := by
  obtain ⟨h₀, hdrops₀, heq⟩ := completeRequest_spec s.hwi md metadataBuf i
  obtain ⟨hto, hfrom, hsub, hentries⟩ := returnBuffers_spec md.frameNumber i.buffers h₀
  set bs := (Hwi.returnBuffers md.frameNumber i.buffers h₀).1
  set drops := (Hwi.returnBuffers md.frameNumber i.buffers h₀).2.pendingFrameDropList
  have hmem : i ∈ s.hwi.pendingRequestsList := hP ▸ List.mem_cons_self
  have hlist : (s.hwi.completeRequest md metadataBuf i).pendingRequestsList = P := by
    rw [heq, hP]
    rfl
  have hcached : (s.hwi.completeRequest md metadataBuf i).pendingReprocessResultList =
      s.hwi.pendingReprocessResultList := by rw [heq]
  have hdrops : (s.hwi.completeRequest md metadataBuf i).pendingFrameDropList = drops := by rw [heq]
  have hsent : (s.hwi.completeRequest md metadataBuf i).errorsSent = s.hwi.errorsSent ++
      (Hwi.droppedStreams md i).map fun stream => (i.frameNumber, stream) := by
    rw [errorsSent_append (congrArg Hwi.trace heq), completionEvents_errors]
  have hgiven : (s.hwi.completeRequest md metadataBuf i).given = s.hwi.given ++
      bs.map fun b => (i.frameNumber, b) := by
    rw [given_append (congrArg Hwi.trace heq), completionEvents_given]
  have hlater : ∀ i' ∈ P, i.frameNumber < i'.frameNumber := by
    have hsorted := inv.sorted
    rw [hP, List.map_cons, List.pairwise_cons] at hsorted
    exact fun i' hi' => hsorted.1 _ (List.mem_map_of_mem hi')
  have hknown := inv.streams i hmem
  have hstored : ∀ j ∈ i.buffers, ∀ b, j.buffer = some b → b.stream = j.stream :=
    fun j hj b hb => (inv.stored i hmem j hj b hb).1
  -- Nothing was noted for this frame or for a later one.
  have hfresh : ∀ m streamId, i.frameNumber ≤ m →
      entriesFor s.hwi.pendingFrameDropList m streamId = 0 := by
    intro m streamId hm
    rw [entriesFor_eq_zero]
    intro hin
    obtain ⟨st, -, hst⟩ := inv.waits _ hin
    have := (inv.told _ _ hst).older i hmem
    dsimp only at this
    omega
  have hentries₀ : ∀ m (st : Stream), st.Known blob → entriesFor h₀.pendingFrameDropList m
      st.streamId = entriesFor s.hwi.pendingFrameDropList m st.streamId +
        if m = i.frameNumber ∧ st ∈ Hwi.droppedStreams md i then 1 else 0 := by
    intro m st hst
    rw [hdrops₀, entriesFor_append, entriesFor_newDrops hkeep.once hst hknown]
  -- The buffers of the request that are given back.
  have hback : ∀ b' ∈ bs, (b'.stream ∈ Hwi.droppedStreams md i → b'.error = true) ∧
      (b'.stream ∉ Hwi.droppedStreams md i → (i.frameNumber, b') ∈ s.delivered) := by
    intro b' hb'
    obtain ⟨b, hb, hmarked⟩ := hfrom b' hb'
    obtain ⟨j, hj, hjb⟩ := List.mem_filterMap.mp hb
    obtain ⟨hstream, hdel⟩ := inv.stored i hmem j hj b hjb
    have hbknown : b.stream.Known blob := hstream ▸ hknown j hj
    have hzero := hentries₀ md.frameNumber b.stream hbknown
    rw [hfresh _ _ hle, Nat.zero_add] at hzero
    rw [hmarked.stream]
    constructor
    · intro hin
      have hframe : md.frameNumber = i.frameNumber := by
        by_contra hne
        have hempty := hkeep.empty (by omega) j hj (hstream ▸ hin)
        rw [hempty] at hjb
        cases hjb
      rw [if_pos ⟨hframe, hin⟩] at hzero
      refine hmarked.error (by omega) ?_
      have hplaces := stored_add_empty hbknown hstored hknown
      rw [slot_of_nodup hkeep.once hin] at hplaces
      omega
    · intro hnot
      simp [hnot, hzero, hmarked.same, hdel]
  have hold : ∀ n st, (n, st) ∈ s.hwi.errorsSent → n < i.frameNumber := fun n st hst =>
    (inv.told n st hst).older i hmem
  have hnewMem : ∀ n st, (n, st) ∈ (Hwi.droppedStreams md i).map
      (fun stream => (i.frameNumber, stream)) ↔
        n = i.frameNumber ∧ st ∈ Hwi.droppedStreams md i := by
    grind
  have hqueued : Queued blob { s with hwi := s.hwi.completeRequest md metadataBuf i } := by
    refine inv.toQueued.shrink ?_ ?_ rfl (fun _ hk => hk) (fun _ hx => hx)
      (fun c hc => .inl (hcached ▸ hc)) fun i' hi' st => ?_
    · rw [heq]
      exact inv.flush
    · simp [hlist, hP]
    · unfold Hwi.cachedOf
      rw [hcached]
  refine ⟨hqueued, ?_, fun n st hin => ?_, fun m hm => ?_, fun x hx => ?_, fun n b hb hin => ?_,
    fun n b hb hnot => ?_⟩
  · rw [hsent, List.nodup_append]
    refine ⟨inv.once, hkeep.once.map fun _ _ h => (Prod.mk.inj h).2, ?_⟩
    grind
  · rw [hsent, List.mem_append, hnewMem] at hin
    rcases hin with hin | ⟨rfl, hst⟩
    · have told := inv.told n st hin
      have hlt := told.older i hmem
      refine ⟨told.known, told.accepted, fun i' hi' => ?_, told.owed, ?_, fun hzero => ?_⟩
      · exact told.older i' (hP ▸ List.mem_cons_of_mem _ (hlist ▸ hi'))
      · rw [hdrops, hentries, if_neg (by omega), hentries₀ n st told.known,
          if_neg fun heq => Nat.ne_of_lt hlt heq.1]
        exact told.entries
      · obtain ⟨b, hb, hbst⟩ := told.given hzero
        refine ⟨b, ?_, hbst⟩
        simp [hgiven, hb]
    · -- The buffer is given back now, or a channel still owes it.
      obtain ⟨⟨j, hj, hjst⟩, -⟩ := mem_droppedStreams.mp hst
      have hstknown : st.Known blob := hjst ▸ hknown j hj
      have hone := slot_of_nodup hkeep.once hst
      have hslots := inv.slots i hmem st hone
      have hplaces := stored_add_empty hstknown hstored hknown
      have huncached : s.hwi.cachedOf i st = 0 := by
        unfold Hwi.cachedOf
        split
        · rename_i hinput
          rw [List.countP_eq_zero]
          intro c hc hsame
          obtain ⟨hframe, hstream⟩ := of_decide_eq_true hsame
          exact hkeep.uncached hinput c hc hframe (hstream ▸ hst)
        · rfl
      refine ⟨hstknown, inv.accepted i hmem, fun i' hi' => hlater i' (hlist ▸ hi'), ?_, ?_, ?_⟩
      · dsimp only
        omega
      · change entriesFor (s.hwi.completeRequest md metadataBuf i).pendingFrameDropList _ _ =
          owedFor s.owed _ _
        rw [hdrops, hentries, hentries₀ _ st hstknown, hfresh _ _ (Nat.le_refl _),
          if_pos ⟨rfl, hst⟩]
        by_cases hframe : i.frameNumber = md.frameNumber
        · rw [if_pos hframe]
          omega
        · rw [if_neg hframe]
          have hempty : ∀ j ∈ i.buffers, j.stream = st → j.buffer = none := fun j hj hjst =>
            hkeep.empty (by omega) j hj (hjst ▸ hst)
          have hall : (i.buffers.countP fun j => j.stream = st ∧ j.buffer = none) =
              i.buffers.countP fun j => j.stream = st := by
            refine List.countP_congr fun j hj => ?_
            simp only [decide_eq_true_eq]
            exact ⟨fun h => h.1, fun h => ⟨h, hempty j hj h⟩⟩
          omega
      · intro hzero
        have hpos : 0 < (i.buffers.filterMap RequestedBufferInfo.buffer).countP fun b =>
            b.stream.streamId = st.streamId := by
          change owedFor s.owed _ _ = 0 at hzero
          omega
        obtain ⟨b, hb, hid⟩ := List.countP_pos_iff.mp hpos
        obtain ⟨j', hj', hjb⟩ := List.mem_filterMap.mp hb
        obtain ⟨b', hb', hmarked⟩ := hto b hb
        refine ⟨b', ?_, ?_⟩
        · simp [hgiven, hb']
        · rw [hmarked.stream]
          have hbknown : b.stream.Known blob := hstored j' hj' b hjb ▸ hknown j' hj'
          exact hbknown.ext hstknown (of_decide_eq_true hid)
  · rw [hsent]
    rw [hdrops] at hm
    have hm₀ := hsub.subset hm
    rw [hdrops₀, List.mem_append] at hm₀
    rcases hm₀ with hm₀ | hm₀
    · obtain ⟨st, hid, hst⟩ := inv.waits m hm₀
      exact ⟨st, hid, List.mem_append_left _ hst⟩
    · obtain ⟨st, hst, rfl⟩ := List.mem_map.mp hm₀
      exact ⟨st, rfl, List.mem_append_right _ (List.mem_map_of_mem hst)⟩
  · rw [hgiven, List.mem_append] at hx
    rcases hx with hx | hx
    · obtain ⟨hacc, hgone⟩ := inv.gone x hx
      exact ⟨hacc, fun i' hi' => hgone i' (hP ▸ List.mem_cons_of_mem _ (hlist ▸ hi'))⟩
    · obtain ⟨b, -, rfl⟩ := List.mem_map.mp hx
      exact ⟨inv.accepted i hmem, fun i' hi' => Nat.ne_of_gt (hlater i' (hlist ▸ hi'))⟩
  · rw [hgiven, List.mem_append] at hb
    rw [hsent, List.mem_append, hnewMem] at hin
    rcases hb with hb | hb
    · rcases hin with hin | ⟨hframe, -⟩
      · exact inv.error n b hb hin
      · exact absurd hframe.symm ((inv.gone _ hb).2 i hmem)
    grind
  · rw [hgiven, List.mem_append] at hb
    rw [hsent, List.mem_append, hnewMem, not_or] at hnot
    rcases hb with hb | hb
    · exact inv.unchanged n b hb hnot.1
    grind

theorem dropInv_handlePendingReprocResults (inv : DropInv blob s) (n : Nat) :
    DropInv blob { s with hwi := s.hwi.handlePendingReprocResults n } ∧
      (s.hwi.handlePendingReprocResults n).pendingRequestsList.Sublist
        s.hwi.pendingRequestsList ∧
      (s.hwi.handlePendingReprocResults n).pendingReprocessResultList.Sublist
        s.hwi.pendingReprocessResultList ∧
      ((s.hwi.handlePendingReprocResults n).cachedFor n = [] ∨
        ∀ i ∈ (s.hwi.handlePendingReprocResults n).pendingRequestsList, i.frameNumber ≠ n) := by
  rcases handlePendingReprocResults_cases s.hwi n with
    hnone | ⟨c, hc, hcn, P, pendingRequest, events, hrun, herrors, hcases⟩
  · simp [handlePendingReprocResults_none, hnone, inv]
  · obtain ⟨hacc, hdel, hmsg⟩ := inv.cached c hc
    rw [hmsg] at herrors
    have hnd : (s.hwi.pendingRequestsList.map PendingRequestInfo.frameNumber).Nodup :=
      inv.sorted.imp fun hlt => Nat.ne_of_lt hlt
    have hP : P.Sublist s.hwi.pendingRequestsList ∧ ∀ i ∈ P, i.frameNumber ≠ n := by
      rcases hcases with ⟨rfl, hnot, -⟩ | ⟨l₁, k, l₂, hsplit, hk, rfl, -⟩
      · exact ⟨.refl _, hnot⟩
      grind
    have hof : ∀ i ∈ P, ∀ st, Hwi.cachedOf (s.hwi.handlePendingReprocResults n) i st =
        s.hwi.cachedOf i st := by
      intro i hi st
      rw [hrun]
      unfold Hwi.cachedOf
      rw [countP_eraseP]
      intro c' _ hc'
      refine decide_eq_false fun hsame => hP.2 i hi ?_
      exact hsame.1.symm.trans (of_decide_eq_true hc')
    refine ⟨?_, ?_, ?_, .inr ?_⟩
    · have hgone : (s.hwi.handlePendingReprocResults n).given =
          s.hwi.given ++ events.flatMap Event.given := given_append (congrArg Hwi.trace hrun)
      have hlist : (s.hwi.handlePendingReprocResults n).pendingRequestsList = P := by rw [hrun]
      have hdrops : (s.hwi.handlePendingReprocResults n).pendingFrameDropList =
          s.hwi.pendingFrameDropList := by rw [hrun]
      refine inv.give _ (inv.toQueued.shrink ?_ (hlist ▸ hP.1) rfl (fun _ hk => hk)
          (fun _ hx => hx) (fun c' hc' => .inl ?_) fun i hi st => ?_)
        ?_ (fun _ hn => hn) (fun _ hx => hx) (fun i hi => .inl ⟨i, hP.1.subset (hlist ▸ hi), rfl⟩)
        hgone (fun m b hb => ?_) (by rw [hdrops]) fun m st told _ => ⟨Nat.le_refl _, ?_, .inl⟩
      · rw [hrun]
        exact inv.flush
      · rw [hrun] at hc'
        exact List.mem_of_mem_eraseP hc'
      · exact congrArg (owedFor s.owed i.frameNumber st + ·) (hof i (hlist ▸ hi) st)
      · exact (errorsSent_append (congrArg Hwi.trace hrun)).trans
          (by rw [herrors, Option.toList_none, List.append_nil])
      · rcases hcases with ⟨-, -, hnothing⟩ | ⟨l₁, k, l₂, hsplit, hk, -, hback⟩
        · simp_all
        · rw [hback] at hb
          cases List.mem_singleton.mp hb
          have hkmem : k ∈ s.hwi.pendingRequestsList :=
            hsplit ▸ List.mem_append_right _ List.mem_cons_self
          exact ⟨hcn ▸ hacc, fun i hi => hP.2 i (hlist ▸ hi),
            fun hsent => absurd hsent (hk ▸ inv.not_sent hkmem), fun _ => hcn ▸ hdel⟩
      · exact (congrArg (entriesFor · m st.streamId) hdrops).trans told.entries
    · rw [hrun]
      exact hP.1
    · rw [hrun]
      exact List.eraseP_sublist
    · rw [hrun]
      exact hP.2

theorem Queued.not_danglingNext (inv : Queued blob s) {P : List PendingRequestInfo}
    (hP : s.hwi.pendingRequestsList = i :: P) (hle : i.frameNumber ≤ n) (hn : n < 2 ^ 32)
    (hkeep : s.hwi.KeepsNext n) (hP' : h.pendingRequestsList = P)
    (hcached : h.pendingReprocessResultList = s.hwi.pendingReprocessResultList) :
    ¬ h.DanglingNext ((n + 1) % 2 ^ 32) := by
  rcases hkeep with hnone | hlength | hnot
  · exact EtherDevice.Hal3.not_danglingNext ((cachedFor_congr hcached _).trans hnone)
  · have hi : i ∈ s.hwi.completed n :=
      List.mem_filter.mpr ⟨hP ▸ List.mem_cons_self, decide_eq_true hle⟩
    have hpos := List.length_pos_of_mem hi
    -- The next request is also completed, so that it is older.
    obtain ⟨i₁, i₂, P', hsplit, hle₁, hle₂⟩ := completed_two inv.sorted (n := n) (by omega)
    rw [hP] at hsplit
    injection hsplit with hi₁ hP₂
    have hsorted := inv.sorted
    rw [hP, hP₂, List.map_cons, List.map_cons, List.pairwise_cons] at hsorted
    have hlt := hsorted.1 i₂.frameNumber List.mem_cons_self
    intro hdangling
    have hhead := hdangling.2
    rw [hP', hP₂, List.head?_cons, Option.any_some, decide_eq_true_eq] at hhead
    omega
  · intro hdangling
    have hhead := hdangling.2
    rw [hP'] at hhead
    cases P with
    | nil => simp at hhead
    | cons i' P =>
      rw [List.head?_cons, Option.any_some, decide_eq_true_eq] at hhead
      have hsorted := inv.sorted
      grind

theorem dropInv_completeRequests (md : Metadata) (metadataBuf : Nat)
    (hframe : md.frameNumber < 2 ^ 32) (fuel : Nat) (s : Reporting) (inv : DropInv blob s)
    (hnext : s.hwi.KeepsNext md.frameNumber)
    (hkeep : ∀ i ∈ s.hwi.completed md.frameNumber, s.hwi.KeepsDrops md i) :
    ∃ h, Hwi.completeRequests metadataBuf md fuel s.hwi = some h ∧
      DropInv blob { s with hwi := h } := by
  induction fuel generalizing s with
  | zero => exact ⟨s.hwi, rfl, inv⟩
  | succ fuel ih =>
    unfold Hwi.completeRequests
    cases hP : s.hwi.pendingRequestsList with
    | nil => exact ⟨s.hwi, rfl, inv⟩
    | cons i P =>
      dsimp only
      split
      · rename_i hle
        have hi : i ∈ s.hwi.completed md.frameNumber :=
          List.mem_filter.mpr ⟨hP ▸ List.mem_cons_self, decide_eq_true hle⟩
        have inv₁ := dropInv_completeRequest inv hP hle (hkeep i hi) metadataBuf
        obtain ⟨bs, heq, -, -⟩ := completeRequest_eq s.hwi md metadataBuf i
        set h₁ := s.hwi.completeRequest md metadataBuf i
        have hP₁ : h₁.pendingRequestsList = P := by
          rw [heq, hP]
          rfl
        have hcached₁ : h₁.pendingReprocessResultList = s.hwi.pendingReprocessResultList := by
          rw [heq]
        rw [if_neg (inv.not_danglingNext hP hle hframe hnext hP₁ hcached₁)]
        obtain ⟨inv₂, hsub, hcached₂, hafter⟩ :=
          dropInv_handlePendingReprocResults inv₁ ((md.frameNumber + 1) % 2 ^ 32)
        refine ih { s with hwi := h₁.handlePendingReprocResults _ } inv₂ ?_ fun j hj => ?_
        · exact hafter.imp_right fun hnot => .inr fun j hj _ => hnot j hj
        · obtain ⟨hjmem, hjle⟩ := List.mem_filter.mp hj
          have hkeep := hkeep j (List.mem_filter.mpr
            ⟨hP ▸ List.mem_cons_of_mem _ (hP₁ ▸ hsub.subset hjmem), hjle⟩)
          exact ⟨hkeep.once, hkeep.empty, fun hinput c hc =>
            hkeep.uncached hinput c (hcached₁ ▸ hcached₂.subset hc)⟩
      · exact ⟨s.hwi, rfl, inv⟩

theorem dropInv_urgent (inv : DropInv blob s) (md : Metadata) :
    DropInv blob { s with hwi := s.hwi.handleUrgentMetadata md } := by
  obtain ⟨P, events, hfields, -⟩ := urgent_fields s.hwi md
  obtain ⟨hsent, hgiven⟩ := urgent_silent s.hwi md
  refine inv.congr (urgent_core s.hwi md) ?_ ?_ ?_ hsent hgiven
  · rw [hfields]
  · rw [hfields]
  · rw [hfields]

theorem dropInv_bufDone (inv : DropInv blob s) (metadataBuf : Nat) :
    DropInv blob { s with hwi := s.hwi.emit [.bufDone metadataBuf] } :=
  inv.congr rfl rfl rfl rfl ((errorsSent_append rfl).trans (List.append_nil _))
    ((given_append rfl).trans (List.append_nil _))

def Reporting.after (s : Reporting) (op : Op) (h : Hwi) : Reporting where
  toSession := { op.record s.toSession with hwi := h }
  delivered := s.delivered ++ op.delivers

theorem dropInv_record (metadataBuf : Nat) (md : Option Metadata)
    (inv : DropInv blob { s with hwi := h }) :
    DropInv blob (s.after (.metadata metadataBuf md) h) := by
  have hrecord : (Op.metadata metadataBuf md).record s.toSession =
      { s.toSession with
        awaiting := ((Op.metadata metadataBuf md).record s.toSession).awaiting
        metadataBound := ((Op.metadata metadataBuf md).record s.toSession).metadataBound } := by
    cases md with
    | none => rfl
    | some md =>
      unfold Op.record
      dsimp only
      split <;> rfl
  unfold Reporting.after Op.delivers
  rw [hrecord, List.append_nil]
  exact { inv with told := fun n st hin => { inv.told n st hin with } }

theorem keepsDrops_urgent {s : Session} (md : Metadata)
    (hnext : s.hwi.KeepsNext n) (hkeep : ∀ i ∈ s.hwi.completed n, s.hwi.KeepsDrops md i)
    (hcore : h.pendingRequestsList.map PendingRequestInfo.core =
      s.hwi.pendingRequestsList.map PendingRequestInfo.core)
    (hcached : h.pendingReprocessResultList = s.hwi.pendingReprocessResultList) :
    h.KeepsNext n ∧ ∀ i ∈ h.completed n, h.KeepsDrops md i := by
  have hcompleted := completed_core (n := n) hcore
  constructor
  · unfold Hwi.KeepsNext
    dsimp only
    rw [cachedFor_congr hcached, ← List.length_map PendingRequestInfo.core, hcompleted,
      List.length_map]
    exact hnext.imp_right fun hnext => hnext.imp_right fun hnot => forall_of_core
      (fun i => n < i.frameNumber → i.frameNumber ≠ _) hcore hnot
  · intro i hi
    have hkeep := forall_of_core (s.hwi.KeepsDrops md) hcompleted (fun i hi =>
      ⟨(hkeep i hi).once, (hkeep i hi).empty, (hkeep i hi).uncached⟩) i hi
    exact ⟨hkeep.once, hkeep.empty, fun hinput c hc => hkeep.uncached hinput c (hcached ▸ hc)⟩

theorem dropInv_metadata (inv : DropInv blob s) (metadataBuf : Nat) (md : Option Metadata)
    (hop : (Op.metadata metadataBuf md).Expected s.toSession)
    (hkeep : (Op.metadata metadataBuf md).KeepsDrops s.toSession) :
    ∃ h, s.hwi.handleMetadataWithLock metadataBuf md = some h ∧
      DropInv blob (s.after (.metadata metadataBuf md) h) := by
  cases md with
  | none => exact ⟨_, rfl, dropInv_record metadataBuf none (dropInv_bufDone inv metadataBuf)⟩
  | some md =>
    unfold Hwi.handleMetadataWithLock
    dsimp only
    set h₁ := if md.urgentFrameNumberValid then s.hwi.handleUrgentMetadata md else s.hwi with hh₁
    have hsame : h₁.pendingRequestsList.map PendingRequestInfo.core =
          s.hwi.pendingRequestsList.map PendingRequestInfo.core ∧
        h₁.pendingReprocessResultList = s.hwi.pendingReprocessResultList ∧
        DropInv blob { s with hwi := h₁ } := by
      rw [hh₁]
      split
      · obtain ⟨P, events, hfields, -⟩ := urgent_fields s.hwi md
        exact ⟨urgent_core s.hwi md, by rw [hfields], dropInv_urgent inv md⟩
      · exact ⟨rfl, rfl, inv⟩
    obtain ⟨hcore, hcached, inv₁⟩ := hsame
    cases hvalid : md.frameNumberValid with
    | false =>
      exact ⟨_, rfl, dropInv_record metadataBuf (some md) (dropInv_bufDone inv₁ metadataBuf)⟩
    | true =>
      obtain ⟨hnext, hkeep⟩ := hkeep md rfl hvalid
      obtain ⟨hnext₁, hkeep₁⟩ := keepsDrops_urgent md hnext hkeep hcore hcached
      obtain ⟨h, hrun, inv'⟩ := dropInv_completeRequests md metadataBuf (hop md rfl hvalid).1
        h₁.pendingRequestsList.length { s with hwi := h₁ } inv₁ hnext₁ hkeep₁
      simp [dropInv_record, inv', hrun]

end

/-! ## Requests -/

theorem dropInv_accept (inv : DropInv blob s) {r : CaptureRequest} (hr : r.Expected s.toSession)
    (hknown : ∀ b ∈ r.outputBuffers, b.stream.Known blob)
    (hP : h.pendingRequestsList = s.hwi.pendingRequestsList ++ [r.pendingRequest])
    (hcached : h.pendingReprocessResultList = s.hwi.pendingReprocessResultList)
    (hdrops : h.pendingFrameDropList = s.hwi.pendingFrameDropList)
    (hflush : h.flush = s.hwi.flush) (htrace : h.trace = s.hwi.trace) :
    DropInv blob { s with toSession := { s.toSession.accept r with hwi := h } } := by
  have hnone : ∀ i ∈ s.hwi.pendingRequestsList, i.frameNumber ≠ r.frameNumber := fun i hi =>
    Nat.ne_of_lt (hr.increasing _ (inv.accepted i hi))
  have howed : (s.toSession.accept r).owed = s.owed ++ r.pendingBuffers := by
    change (if s.hwi.flush then _ else _) = _
    rw [inv.flush]
    rfl
  -- The new buffers are of the new frame, and the owed ones are not.
  have hnew : ∀ st, owedFor r.pendingBuffers r.frameNumber st =
      r.outputBuffers.countP fun b => b.stream = st := by
    intro st
    unfold owedFor CaptureRequest.pendingBuffers
    rw [List.countP_map]
    refine List.countP_congr fun b _ => ?_
    simp
  have hother : ∀ n st, n ≠ r.frameNumber → owedFor r.pendingBuffers n st = 0 := by
    intro n st hn
    unfold owedFor CaptureRequest.pendingBuffers
    rw [List.countP_map, List.countP_eq_zero]
    intro b _
    simp [Ne.symm hn]
  have hold : ∀ st, owedFor s.owed r.frameNumber st = 0 := by
    intro st
    unfold owedFor
    rw [List.countP_eq_zero]
    intro k hk hsame
    have hlt := hr.increasing _ (inv.owed k hk).1
    exact Nat.ne_of_lt hlt (of_decide_eq_true hsame).1
  have happend : ∀ n st, owedFor (s.toSession.accept r).owed n st =
      owedFor s.owed n st + owedFor r.pendingBuffers n st := by
    intro n st
    rw [howed]
    exact List.countP_append
  have hof : ∀ i st, h.cachedOf i st = s.hwi.cachedOf i st := by
    intro i st
    unfold Hwi.cachedOf
    rw [hcached]
  have hmem : ∀ i ∈ h.pendingRequestsList, i ∈ s.hwi.pendingRequestsList ∨
      i = r.pendingRequest := fun i hi => by
    simp_all
  have hkeeps : ∀ n ∈ s.accepted, n ∈ (s.toSession.accept r).accepted := fun n hn =>
    List.mem_append_left _ hn
  have hsent : h.errorsSent = s.hwi.errorsSent := by
    unfold Hwi.errorsSent
    rw [htrace]
  have hgiven : h.given = s.hwi.given := by
    unfold Hwi.given
    rw [htrace]
  have hempty : ∀ j ∈ r.pendingRequest.buffers, j.buffer = none ∧ j.stream.Known blob := by
    intro j hj
    obtain ⟨b, hb, rfl⟩ := List.mem_map.mp hj
    exact ⟨rfl, hknown b hb⟩
  refine inv.give [] ⟨hflush.trans inv.flush, ?_, fun i hi => ?_, fun k hk => ?_, fun c hc => ?_,
      fun i hi => ?_, fun i hi j hj b hb => ?_, fun i hi st hone => ?_⟩
    hsent hkeeps (fun _ hx => hx) (fun i hi => ?_)
    (by rw [List.append_nil]; exact hgiven) (by simp) (by rw [hdrops])
    fun n st told _ => ?_
  · rw [hP, List.map_append, List.pairwise_append]
    refine ⟨inv.sorted, List.pairwise_singleton .., fun n hn m hm => ?_⟩
    obtain ⟨i, hi, rfl⟩ := List.mem_map.mp hn
    cases List.mem_singleton.mp hm
    exact hr.increasing _ (inv.accepted i hi)
  · rcases hmem i hi with hold | rfl
    · exact hkeeps _ (inv.accepted i hold)
    · exact List.mem_append_right _ (List.mem_singleton.mpr rfl)
  · rw [howed] at hk
    rcases List.mem_append.mp hk with hk | hk
    · exact ⟨hkeeps _ (inv.owed k hk).1, (inv.owed k hk).2⟩
    · obtain ⟨b, hb, rfl⟩ := List.mem_map.mp hk
      exact ⟨List.mem_append_right _ (List.mem_singleton.mpr rfl), hknown b hb⟩
  · obtain ⟨hacc, hrest⟩ := inv.cached c (hcached ▸ hc)
    exact ⟨hkeeps _ hacc, hrest⟩
  · rcases hmem i hi with hold | rfl
    · exact inv.streams i hold
    · exact fun j hj => (hempty j hj).2
  · rcases hmem i hi with hold | rfl
    · exact inv.stored i hold j hj b hb
    simp_all
  · rw [happend, hof]
    rcases hmem i hi with hin | rfl
    · simp [hother, hnone, hin, inv.slots, hone]
    · have hnocached : s.hwi.cachedOf r.pendingRequest st = 0 := by
        unfold Hwi.cachedOf
        split
        · rw [List.countP_eq_zero]
          intro c hc hsame
          have hlt := hr.increasing _ (inv.cached c hc).1
          exact Nat.ne_of_lt hlt (of_decide_eq_true hsame).1
        · rfl
      change owedFor s.owed r.frameNumber st + owedFor r.pendingBuffers r.frameNumber st + _ = _
      rw [hold, hnew, hnocached, Nat.zero_add, Nat.add_zero]
      change _ = List.countP _ (r.outputBuffers.map _)
      rw [List.countP_map]
      refine List.countP_congr fun b _ => ?_
      simp
  · rcases hmem i hi with hold | rfl
    · exact .inl ⟨i, hold, rfl⟩
    · exact .inr hr.increasing
  · have hn := Nat.ne_of_lt (hr.increasing n told.accepted)
    simp [happend, hother, hn, hdrops, told.entries]

/-! ## Runs -/

theorem dropInv_exec (inv : DropInv blob s) (op : Op) (hop : op.Reports blob s.toSession)
    (hkeep : op.KeepsDrops s.toSession) :
    ∃ h, op.exec s.hwi = some h ∧ DropInv blob (s.after op h) := by
  obtain ⟨hexpected, hreports⟩ := hop
  have hquiet : ∀ h : Hwi, SameQueue s.hwi h → DropInv blob { s with hwi := h } := by
    intro h hsame
    refine inv.congr ?_ hsame.pendingReprocessResultList hsame.pendingFrameDropList hsame.flush
      ?_ ?_
    · rw [hsame.pendingRequestsList]
    · unfold Hwi.errorsSent
      rw [hsame.trace]
    · unfold Hwi.given
      rw [hsame.trace]
  have hnothing : s.delivered ++ [] = s.delivered := List.append_nil _
  cases op with
  | configureStreams => exact hexpected.elim
  | beginFlush => exact hreports.elim
  | finishFlush sentinel => exact hreports.elim
  | processCaptureRequest r env =>
    obtain ⟨-, haccepts, hr⟩ := hexpected
    obtain ⟨-, s₁, hsame, hsame'⟩ := queued_of_accepts haccepts
    refine ⟨_, rfl, ?_⟩
    unfold Reporting.after Op.delivers Op.record
    dsimp only
    rw [if_pos haccepts, hnothing]
    apply dropInv_accept inv hr hreports
    · rw [hsame'.pendingRequestsList, ← hsame.pendingRequestsList]
      rfl
    · rw [hsame'.pendingReprocessResultList, ← hsame.pendingReprocessResultList]
      rfl
    · rw [hsame'.pendingFrameDropList, ← hsame.pendingFrameDropList]
      rfl
    · rw [hsame'.flush, ← hsame.flush]
      rfl
    · rw [hsame'.trace, ← hsame.trace]
      rfl
  | wakeUp timedOut =>
    refine ⟨_, rfl, ?_⟩
    unfold Reporting.after Op.delivers
    rw [hnothing]
    exact hquiet _ (wakeUp_sameQueue timedOut)
  | daemonPullReq =>
    refine ⟨_, rfl, ?_⟩
    unfold Reporting.after Op.delivers
    rw [hnothing]
    exact hquiet _ ⟨rfl, rfl, rfl, rfl, rfl, rfl⟩
  | metadata metadataBuf md => exact dropInv_metadata inv metadataBuf md hexpected hkeep
  | buffer b frameNumber now => exact ⟨_, rfl, dropInv_buffer inv hexpected now⟩

/-- The runs whose metadata callbacks report drops as they are. -/
def keptReports (blob : Nat → Bool) : System Reporting Op :=
  (reportingSystem blob).restrict fun s op => op.KeepsDrops s.toSession

theorem dropInv_invariant : (keptReports blob).Invariant (DropInv blob) where
  init s hs := by
    cases hs
    exact dropInv_start
  step s op s' inv hstep := by
    obtain ⟨hkeep, hop, hnext, hdelivered⟩ := hstep
    obtain ⟨h, hexec, inv'⟩ := dropInv_exec inv op hop hkeep
    have hsession : s'.toSession = { op.record s.toSession with hwi := h } := by
      simp_all [hal3System]
    have heq : s' = s.after op h := by
      cases s'
      dsimp only at hsession hdelivered
      rw [hsession, hdelivered]
      rfl
    rw [heq]
    exact inv'

/-- **Dropped frames are reported once, and their buffers come back with an error**, in every run
in which each metadata callback reports the drops of its own frame once, and those of older frames
before their buffers have arrived. -/
theorem dropsReported_of_reachable (hs : (keptReports blob).Reachable s) : DropsReported s :=
  (dropInv_invariant.reachable hs).dropsReported

/-! ## Computed runs -/

instance (s : Session) (op : Op) : Decidable (op.Reports blob s) :=
  match op with
  | .processCaptureRequest r _ => inferInstanceAs (Decidable
      (_ ∧ ∀ b ∈ r.outputBuffers, b.stream.blob = blob b.stream.streamId))
  | .beginFlush | .finishFlush _ => .isFalse fun h => h.2
  | .configureStreams | .wakeUp _ | .daemonPullReq | .metadata .. | .buffer .. =>
    inferInstanceAs (Decidable (_ ∧ True))

instance (h : Hwi) (md : Metadata) (i : PendingRequestInfo) : Decidable (h.KeepsDrops md i) :=
  decidable_of_iff
    ((Hwi.droppedStreams md i).Nodup ∧
      (i.frameNumber < md.frameNumber →
        ∀ j ∈ i.buffers, j.stream ∈ Hwi.droppedStreams md i → j.buffer = none) ∧
      (i.inputBuffer.isSome → ∀ c ∈ h.pendingReprocessResultList,
        c.frameNumber = i.frameNumber → c.buffer.stream ∉ Hwi.droppedStreams md i))
    ⟨fun h => ⟨h.1, h.2.1, h.2.2⟩, fun h => ⟨h.once, h.empty, h.uncached⟩⟩

instance (h : Hwi) (n : Nat) : Decidable (h.KeepsNext n) :=
  inferInstanceAs (Decidable (_ ∨ _ ∨ ∀ _ ∈ _, _ → _ ≠ _))

instance (s : Session) (op : Op) : Decidable (op.KeepsDrops s) :=
  match op with
  | .metadata _ md => decidableForallSome md fun m => m.frameNumberValid = true →
      s.hwi.KeepsNext m.frameNumber ∧ ∀ i ∈ s.hwi.completed m.frameNumber, s.hwi.KeepsDrops m i
  | .configureStreams | .processCaptureRequest .. | .wakeUp _ | .daemonPullReq | .buffer ..
  | .beginFlush | .finishFlush _ => .isTrue trivial

/-- A run of some calls that all meet a condition. -/
def Reporting.run (ok : Session → Op → Prop) [∀ s op, Decidable (ok s op)] :
    List Op → Reporting → Option Reporting
  | [], s => some s
  | op :: ops, s =>
    if ok s.toSession op then (op.exec s.hwi).bind fun h => run ok ops (s.after op h) else none

theorem reachable_reporting (blob : Nat → Bool) (ok : Session → Op → Prop)
    [∀ s op, Decidable (ok s op)] (ops : List Op) {s s' : Reporting}
    (hs : ((reportingSystem blob).restrict fun s op => ok s.toSession op).Reachable s)
    (hrun : Reporting.run (fun s op => ok s op ∧ op.Reports blob s) ops s = some s') :
    ((reportingSystem blob).restrict fun s op => ok s.toSession op).Reachable s' := by
  induction ops generalizing s with
  | nil =>
    cases hrun
    exact hs
  | cons op ops ih =>
    unfold Reporting.run at hrun
    split at hrun
    · rename_i hok
      obtain ⟨h, hexec, hrun⟩ := Option.bind_eq_some_iff.mp hrun
      refine ih (.step hs ⟨hok.1, hok.2, ?_, rfl⟩) hrun
      simp only [hal3System, hexec]
      rfl
    · cases hrun

def pictureBlob (streamId : Nat) : Bool := streamId = 2

def droppedMetadata (frameNumber : Nat) : Metadata := ⟨true, frameNumber, false, 0, 0, [1]⟩

/-- A drop whose buffer is already there, and two that are reported before the buffers come. -/
def droppedCalls : List Op :=
  [.processCaptureRequest (previewRequest 1 10) noFailures,
    .buffer ⟨previewStream, 10, false⟩ 1 0,
    .metadata 0 (some (droppedMetadata 1)),
    .processCaptureRequest (previewRequest 2 11) noFailures,
    .processCaptureRequest (previewRequest 3 12) noFailures,
    .metadata 1 (some (droppedMetadata 3)),
    .buffer ⟨previewStream, 12, false⟩ 3 0]

theorem dropsReported_of_reachable_dropped :
    ∃ s, Reporting.run (fun s op => op.KeepsDrops s ∧ op.Reports pictureBlob s) droppedCalls
        { toSession := Session.start } = some s ∧
      s.hwi.errorsSent = [(1, previewStream), (2, previewStream), (3, previewStream)] ∧
      s.hwi.pendingFrameDropList = [⟨2, 1⟩] ∧ DropsReported s := by
  refine ⟨_, rfl, by decide +kernel, by decide +kernel, ?_⟩
  exact dropsReported_of_reachable (reachable_reporting pictureBlob (fun s op => op.KeepsDrops s)
    droppedCalls (.init rfl) rfl)

def skippedCalls : List Op :=
  [.processCaptureRequest (previewRequest 1 10) noFailures,
    .processCaptureRequest (previewRequest 2 11) noFailures,
    .buffer ⟨previewStream, 10, false⟩ 1 0,
    .metadata 0 (some (droppedMetadata 2))]

/-- In the run `skippedCalls` the buffer of frame 1 comes back without an error. -/
theorem not_dropsReported :
    ∃ s, (reportingSystem pictureBlob).Reachable s ∧ ¬ DropsReported s := by
  refine ⟨_, (reachable_reporting pictureBlob (fun _ _ => True) skippedCalls (.init rfl)
    rfl).of_restrict, fun h => ?_⟩
  exact absurd (h.error 1 ⟨previewStream, 10, false⟩ (by decide +kernel) (by decide +kernel))
    (by decide +kernel)

end EtherDevice.Hal3
