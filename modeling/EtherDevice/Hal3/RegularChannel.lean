import Mathlib
import EtherDevice.Hal3.GrallocMemory

/-!
# Frame numbers of a regular channel

`request` finds or registers the buffer, queues its slot with `bufDone` and marks the frame number
of the slot afterwards. `streamCbRoutine` reads the number, gives the slot up and passes the buffer
on. If it reads between `bufDone` and `markFrameNumber`, it finds what the slot had before: -1, and
the buffer is never passed on, or the number of an older request.
-/

namespace EtherDevice.Hal3.RegularChannel

open Lib Memory

def getBufferHandle (m : Gralloc) (index : Nat) : Option Nat :=
  if maxNumFrames ≤ index then none
  else if (m.slots index).memInfo.handle = 0 then none
  else (m.slots index).bufferHandle

inductive RequestPc
  | idle
  | starting (buffer frameNumber : Nat)
  | lookingUp (buffer frameNumber : Nat)
  | registering (buffer frameNumber : Nat)
  | lookingAgain (buffer frameNumber : Nat)
  | queueing (buffer frameNumber index : Nat)
  | marking (buffer frameNumber index : Nat)

def RequestPc.unknown : RequestPc → Option Nat
  | starting buffer _ | registering buffer _ => some buffer
  | _ => none

def RequestPc.asks : RequestPc → Option (Nat × Nat)
  | idle | marking .. => none
  | starting b n | lookingUp b n | registering b n | lookingAgain b n | queueing b n _ =>
    some (b, n)

def RequestPc.marks : RequestPc → Option Nat
  | marking _ _ i => some i
  | _ => none

/-- Where `streamCbRoutine` is, and what it has read. -/
inductive CallbackPc
  | idle
  | delivered (frameIndex : Nat)
  | handleRead (frameIndex : Nat) (resultBuffer : Option Nat)
  | numberRead (frameIndex : Nat) (resultBuffer : Option Nat) (resultFrameNumber : Int)
  | unregistered (resultBuffer : Option Nat) (resultFrameNumber : Int)

def CallbackPc.index : CallbackPc → Option Nat
  | delivered i | handleRead i _ | numberRead i _ _ => some i
  | idle | unregistered .. => none

abbrev Result := Option Nat × Nat

/-- `QCamera3RegularChannel` with its two threads, and the slots that the hardware has. `owner` is
the request that queued a slot last, and `delivering` the one whose buffer the callback has. -/
structure Channel where
  mMemory : Gralloc := {}
  mNumBufs : Nat
  m_bIsActive : Bool := false
  request : RequestPc := .idle
  callback : CallbackPc := .idle
  queued : List Nat := []
  owner : Nat → Result := fun _ => (none, 0)
  delivering : Option Result := none
  queuedLog : List Result := []
  passed : List Result := []

/-- Calls of `request`, deliveries, and the steps of the two threads with the answers they meet. -/
inductive Op
  | request (buffer : Option Nat) (frameNumber : Nat)
  | start (kernel : Kernel) (answers : RegisterAnswers) (priv : PrivateHandle) (ok : Bool)
  | lookUp
  | register (kernel : Kernel) (answers : RegisterAnswers) (priv : PrivateHandle)
  | lookAgain
  | bufDone (ok : Bool)
  | mark
  | deliver (bufIdx : Nat) (ok : Bool)
  | readHandle
  | readNumber
  | unregister
  | channelCB

namespace Channel

variable (s : Channel)

def registerBuffer (kernel : Kernel) (answers : RegisterAnswers) (priv : PrivateHandle)
    (buffer : Nat) (next : RequestPc) : Channel :=
  if s.mNumBufs < s.mMemory.bufferCount + 1 then { s with request := .idle }
  else
    let r := s.mMemory.registerBuffer kernel answers buffer priv
    { s with
      mMemory := r.2
      request := if r.1 = 0 ∨ r.1 = alreadyExists then next else .idle }

def findIndex (buffer frameNumber : Nat) (missing : RequestPc) : Channel :=
  let index := s.mMemory.getMatchBufIndex (some buffer)
  { s with request := if index < 0 then missing else .queueing buffer frameNumber index.toNat }

def exec (s : Channel) : Op → Channel
  | .request buffer frameNumber =>
    match s.request, buffer with
    | .idle, some buffer =>
      { s with
        request := if s.m_bIsActive then .lookingUp buffer frameNumber
          else .starting buffer frameNumber }
    | _, _ => s
  | .start kernel answers priv ok =>
    match s.request with
    | .starting buffer frameNumber =>
      let t := s.registerBuffer kernel answers priv buffer (.lookingUp buffer frameNumber)
      match t.request with
      | .lookingUp .. => if ok then { t with m_bIsActive := true } else { t with request := .idle }
      | _ => t
    | _ => s
  | .lookUp =>
    match s.request with
    | .lookingUp buffer frameNumber =>
      s.findIndex buffer frameNumber (.registering buffer frameNumber)
    | _ => s
  | .register kernel answers priv =>
    match s.request with
    | .registering buffer frameNumber =>
      s.registerBuffer kernel answers priv buffer (.lookingAgain buffer frameNumber)
    | _ => s
  | .lookAgain =>
    match s.request with
    | .lookingAgain buffer frameNumber => s.findIndex buffer frameNumber .idle
    | _ => s
  | .bufDone ok =>
    match s.request with
    | .queueing buffer frameNumber index =>
      if ok then
        { s with
          request := .marking buffer frameNumber index
          queued := index :: s.queued
          owner := Function.update s.owner index (some buffer, frameNumber)
          queuedLog := (some buffer, frameNumber) :: s.queuedLog }
      else { s with request := .idle }
    | _ => s
  | .mark =>
    match s.request with
    | .marking _ frameNumber index =>
      { s with mMemory := (s.mMemory.markFrameNumber index frameNumber).2, request := .idle }
    | _ => s
  | .deliver bufIdx ok =>
    match s.callback with
    | .idle =>
      if bufIdx ∈ s.queued then
        let frameIndex := bufIdx % 2 ^ 8
        if s.mNumBufs ≤ frameIndex then
          -- `bufDone` queues the buffer again
          { s with queued := if ok then s.queued.erase bufIdx ++ [frameIndex]
              else s.queued.erase bufIdx }
        else
          { s with
            queued := s.queued.erase bufIdx
            callback := .delivered frameIndex
            delivering := some (s.owner bufIdx) }
      else s
    | _ => s
  | .readHandle =>
    match s.callback with
    | .delivered i => { s with callback := .handleRead i (getBufferHandle s.mMemory i) }
    | _ => s
  | .readNumber =>
    match s.callback with
    | .handleRead i resultBuffer =>
      { s with callback := .numberRead i resultBuffer (s.mMemory.getFrameNumber i) }
    | _ => s
  | .unregister =>
    match s.callback with
    | .numberRead i resultBuffer resultFrameNumber =>
      { s with
        mMemory := (s.mMemory.unregisterBuffer i).2
        callback := .unregistered resultBuffer resultFrameNumber }
    | _ => s
  | .channelCB =>
    match s.callback with
    | .unregistered resultBuffer resultFrameNumber =>
      { s with
        callback := .idle
        delivering := none
        passed := if 0 ≤ resultFrameNumber then
            (resultBuffer, resultFrameNumber.toNat) :: s.passed else s.passed }
    | _ => s

def inFlight : List Result := s.queued.map s.owner ++ s.delivering.toList

/-- Each buffer that was queued is in flight, or it was passed on once with the number of the
request that queued it. -/
def PassedOnce : Prop := s.queuedLog.Perm (s.passed ++ s.inFlight)

/-- The framework sends a buffer that it has, and a number that `int32_t` holds. A registration
that takes a slot meets no failure. No number is read between `bufDone` and `markFrameNumber`. -/
def Cond : Op → Prop
  | .request (some buffer) frameNumber =>
    (∀ e ∈ s.inFlight, e.1 ≠ some buffer) ∧ frameNumber < 2 ^ 31
  | .start kernel answers priv _ | .register kernel answers priv =>
    ∀ buffer ∈ s.request.unknown,
      GrallocOp.Completes { toGralloc := s.mMemory } (.registerBuffer kernel answers buffer priv)
  | .readNumber => ∀ i ∈ s.callback.index, s.request.marks ≠ some i
  | _ => True

/-! ## The invariant -/

/-- The slots that are queued, and the one that the callback has. -/
def live : List Nat := s.queued ++ s.callback.index.toList

/-- What a registration or a lookup leaves: a registry whose slots are those of the stream, and the
slots in use as they were. -/
structure Keeps (mNumBufs : Nat) (m m' : Gralloc) : Prop where
  registry : ∃ l, RegistryKept ⟨m', l⟩
  low : ∀ i < maxNumFrames, (m'.slots i).memInfo.handle ≠ 0 → i < mNumBufs
  kept : ∀ i < maxNumFrames, (m.slots i).memInfo.handle ≠ 0 → m'.slots i = m.slots i

def Finds (m : Gralloc) : RequestPc → Prop
  | .queueing buffer _ i => i < maxNumFrames ∧ (m.slots i).memInfo.handle ≠ 0 ∧
      (m.slots i).bufferHandle = some buffer
  | _ => True

/-- Each live slot has the buffer and the number of its owner, but for the number that is still to
be marked. -/
structure Sound : Prop where
  memory : Keeps s.mNumBufs s.mMemory s.mMemory
  nodup : s.live.Nodup
  used : ∀ i ∈ s.live, i < maxNumFrames ∧ (s.mMemory.slots i).memInfo.handle ≠ 0
  buffer : ∀ i ∈ s.live, (s.mMemory.slots i).bufferHandle = (s.owner i).1
  number : ∀ i ∈ s.live, s.request.marks ≠ some i →
    (s.mMemory.slots i).currentFrameNumber = (s.owner i).2
  asked : ∀ e ∈ s.request.asks, (∀ f ∈ s.inFlight, f.1 ≠ some e.1) ∧ e.2 < 2 ^ 31
  finds : Finds s.mMemory s.request
  marking : ∀ b n i, s.request = .marking b n i → i ∈ s.live ∧ (s.owner i).2 = n ∧ n < 2 ^ 31
  delivering : ∀ i ∈ s.callback.index, s.delivering = some (s.owner i)
  idle : s.callback = .idle → s.delivering = none
  handleRead : ∀ i b, s.callback = .handleRead i b → b = (s.owner i).1
  numberRead : ∀ i b n, s.callback = .numberRead i b n →
    b = (s.owner i).1 ∧ n = (s.owner i).2 ∧ s.request.marks ≠ some i
  unregistered : ∀ b n, s.callback = .unregistered b n → ∃ k : Nat,
    n = k ∧ s.delivering = some (b, k)
  once : s.PassedOnce

variable {s} {m : Gralloc} {r : RequestPc} {i : Nat}

theorem mem_live : i ∈ s.live ↔ i ∈ s.queued ∨ s.callback.index = some i := by
  simp [live, eq_comm]

theorem Sound.owner_mem (h : s.Sound) (hi : i ∈ s.live) : s.owner i ∈ s.inFlight := by
  obtain hi | hi := mem_live.mp hi
  · exact List.mem_append_left _ (List.mem_map_of_mem hi)
  · simp [inFlight, h.delivering i hi]

theorem Sound.not_live (h : s.Sound) {buffer frameNumber : Nat}
    (hasks : s.request.asks = some (buffer, frameNumber))
    (hi : (s.mMemory.slots i).bufferHandle = some buffer) : i ∉ s.live := fun hlive =>
  (h.asked _ hasks).1 _ (h.owner_mem hlive) ((h.buffer i hlive).symm.trans hi)

theorem sound_new (mNumBufs : Nat) : Sound { mNumBufs } where
  memory := ⟨⟨[], registryKept_start⟩, fun _ _ h => absurd rfl h, fun _ _ _ => rfl⟩
  nodup := List.nodup_nil
  used := nofun
  buffer := nofun
  number := nofun
  asked := nofun
  finds := trivial
  marking := nofun
  delivering := nofun
  idle _ := rfl
  handleRead := nofun
  numberRead := nofun
  unregistered := nofun
  once := .nil

/-! ## The thread of the requests -/

theorem Sound.goOn (h : s.Sound) (hkeeps : Keeps s.mNumBufs s.mMemory m) (active : Bool)
    (hold : s.request.marks = none) (hnew : r.marks = none)
    (hasked : ∀ e ∈ r.asks, (∀ f ∈ s.inFlight, f.1 ≠ some e.1) ∧ e.2 < 2 ^ 31)
    (hfinds : Finds m r) :
    Sound { s with mMemory := m, request := r, m_bIsActive := active } where
  memory := ⟨hkeeps.registry, hkeeps.low, fun _ _ _ => rfl⟩
  nodup := h.nodup
  used i hi := by
    have hused := h.used i hi
    exact ⟨hused.1, (congrArg (·.memInfo.handle) (hkeeps.kept i hused.1 hused.2)).trans_ne hused.2⟩
  buffer i hi := by
    have hused := h.used i hi
    exact (congrArg (·.bufferHandle) (hkeeps.kept i hused.1 hused.2)).trans (h.buffer i hi)
  number i hi _ := by
    have hused := h.used i hi
    exact (congrArg (·.currentFrameNumber) (hkeeps.kept i hused.1 hused.2)).trans
      (h.number i hi (by simp [hold]))
  asked := hasked
  finds := hfinds
  marking := by
    rintro b n i rfl
    cases hnew
  delivering := h.delivering
  idle := h.idle
  handleRead := h.handleRead
  numberRead i b n hread :=
    have hnumber := h.numberRead i b n hread
    ⟨hnumber.1, hnumber.2.1, by simp [hnew]⟩
  unregistered := h.unregistered
  once := h.once

theorem le_of_getFreeIndexLocked {l : List Nat} (h : RegistryKept ⟨m, l⟩)
    (hfree : m.getFreeIndexLocked = some i) : i ≤ m.bufferCount := by
  unfold Gralloc.getFreeIndexLocked at hfree
  split at hfree
  · cases hfree
  · obtain ⟨-, hi, hall⟩ := List.find?_range_eq_some.mp hfree
    have hsub : Finset.range i ⊆ m.occupied := by
      intro j hj
      have hji := Finset.mem_range.mp hj
      have hused := hall j hji
      exact mem_occupied.mpr ⟨hji.trans (List.mem_range.mp hi), by simpa using hused⟩
    have hcard := Finset.card_le_card hsub
    rwa [Finset.card_range, ← h.count] at hcard

theorem Sound.keeps_registerBuffer (h : s.Sound) (kernel : Kernel) (answers : RegisterAnswers)
    (priv : PrivateHandle) {buffer : Nat} (hroom : s.mMemory.bufferCount < s.mNumBufs)
    (hcompletes : GrallocOp.Completes { toGralloc := s.mMemory }
      (.registerBuffer kernel answers buffer priv)) :
    Keeps s.mNumBufs s.mMemory (s.mMemory.registerBuffer kernel answers buffer priv).2 := by
  by_cases hrefuses : s.mMemory.Refuses buffer
  · obtain ⟨rc, -, hrun⟩ := registerBuffer_refused kernel answers priv hrefuses
    rw [hrun]
    exact h.memory
  · obtain ⟨idx, hidx, hzero, hfree, hok, -⟩ := registerBuffer_cases kernel answers priv hrefuses
    obtain ⟨slot, os, hrun, hhandle, hbuffer⟩ := hok (hcompletes.resolve_left hrefuses)
    obtain ⟨l, hregistry⟩ := h.memory.registry
    rw [hrun]
    refine ⟨⟨_,
      hregistry.take hidx hzero (fun hmatch => hrefuses (.inl hmatch)) hhandle hbuffer os⟩,
      fun i hi hused => ?_, fun i hi hused => ?_⟩
    · by_cases hie : i = idx
      · have hle := le_of_getFreeIndexLocked hregistry hfree
        omega
      · exact h.memory.low i hi ((congrArg (·.memInfo.handle) (setSlot_of_ne hie ..)).symm.trans_ne
          hused)
    · refine setSlot_of_ne ?_ ..
      rintro rfl
      exact hused hzero

theorem Sound.registerBuffer (h : s.Sound) {kernel : Kernel} {answers : RegisterAnswers}
    {priv : PrivateHandle} {buffer frameNumber : Nat} {next : RequestPc}
    (hasks : s.request.asks = some (buffer, frameNumber))
    (hnext : next.asks = some (buffer, frameNumber) ∧ next.marks = none ∧ ∀ m, Finds m next)
    (hcompletes : GrallocOp.Completes { toGralloc := s.mMemory }
      (.registerBuffer kernel answers buffer priv)) :
    (s.registerBuffer kernel answers priv buffer next).Sound := by
  have hmarks : s.request.marks = none := by
    revert hasks
    cases s.request <;> simp [RequestPc.asks, RequestPc.marks]
  unfold Channel.registerBuffer
  split_ifs with hfull
  · exact h.goOn h.memory s.m_bIsActive hmarks rfl nofun trivial
  · have hkeeps := h.keeps_registerBuffer kernel answers priv (by omega) hcompletes
    dsimp only
    split_ifs
    · refine h.goOn hkeeps s.m_bIsActive hmarks hnext.2.1 (fun e he => ?_) (hnext.2.2 _)
      exact h.asked e (by rwa [hasks, ← hnext.1])
    · exact h.goOn hkeeps s.m_bIsActive hmarks rfl nofun trivial

theorem Sound.findIndex (h : s.Sound) {buffer frameNumber : Nat} {missing : RequestPc}
    (hasks : s.request.asks = some (buffer, frameNumber))
    (hmissing : missing = .idle ∨ missing = .registering buffer frameNumber) :
    (s.findIndex buffer frameNumber missing).Sound := by
  have hmarks : s.request.marks = none := by
    revert hasks
    cases s.request <;> simp [RequestPc.asks, RequestPc.marks]
  have hasked := h.asked _ hasks
  unfold Channel.findIndex
  dsimp only
  split_ifs with hneg
  · obtain rfl | rfl := hmissing
    · exact h.goOn h.memory s.m_bIsActive hmarks rfl nofun trivial
    · refine h.goOn h.memory s.m_bIsActive hmarks rfl (fun e he => ?_) trivial
      cases he
      exact hasked
  · refine h.goOn h.memory s.m_bIsActive hmarks rfl (fun e he => ?_) ?_
    · cases he
      exact hasked
    · obtain ⟨l, hregistry⟩ := h.memory.registry
      unfold Gralloc.getMatchBufIndex at hneg ⊢
      dsimp only at hneg ⊢
      split at hneg
      · rename_i i hfind
        obtain ⟨hbuffer, hi, -⟩ := List.find?_range_eq_some.mp hfind
        have hlt := List.mem_range.mp hi
        have hsome : (s.mMemory.slots i).bufferHandle = some buffer := by simpa using hbuffer
        exact ⟨hlt, (hregistry.handles i hlt).mpr (by rw [hsome]; rfl), hsome⟩
      · exact absurd (by decide) hneg

theorem Sound.bufDone (h : s.Sound) {buffer frameNumber : Nat}
    (hrequest : s.request = .queueing buffer frameNumber i) :
    Sound { s with
      request := .marking buffer frameNumber i
      queued := i :: s.queued
      owner := Function.update s.owner i (some buffer, frameNumber)
      queuedLog := (some buffer, frameNumber) :: s.queuedLog } := by
  have hasks : s.request.asks = some (buffer, frameNumber) := by rw [hrequest]; rfl
  have hmarks : s.request.marks = none := by rw [hrequest]; rfl
  obtain ⟨hlt, hused, hbuffer⟩ : i < maxNumFrames ∧ _ := hrequest ▸ h.finds
  have hnot := h.not_live hasks hbuffer
  have howner {j : Nat} (hj : j ∈ s.live) :
      Function.update s.owner i (some buffer, frameNumber) j = s.owner j :=
    Function.update_of_ne (fun hji : j = i => hnot (hji ▸ hj)) ..
  have hindex {j : Nat} (hj : s.callback.index = some j) := howner (mem_live.mpr (.inr hj))
  have hmap : (i :: s.queued).map (Function.update s.owner i (some buffer, frameNumber)) =
      (some buffer, frameNumber) :: s.queued.map s.owner := by
    rw [List.map_cons, Function.update_self]
    exact congrArg _ (List.map_congr_left fun j hj => howner (mem_live.mpr (.inl hj)))
  refine ⟨h.memory, List.nodup_cons.mpr ⟨hnot, h.nodup⟩, fun j hj => ?_, fun j hj => ?_,
    fun j hj hmark => ?_, nofun, trivial, ?_, fun j hj => ?_, h.idle, fun j b hread => ?_,
    fun j b n hread => ?_, h.unregistered, ?_⟩
  · obtain rfl | hj := List.mem_cons.mp hj
    · exact ⟨hlt, hused⟩
    · exact h.used j hj
  · obtain rfl | hj := List.mem_cons.mp hj
    · simpa using hbuffer
    · simpa [howner hj] using h.buffer j hj
  · obtain rfl | hj := List.mem_cons.mp hj
    · exact absurd rfl hmark
    · simpa [howner hj] using h.number j hj (by simp [hmarks])
  · rintro b n j heq
    cases heq
    exact ⟨List.mem_cons_self, by simp, (h.asked _ hasks).2⟩
  · simpa [hindex hj] using h.delivering j hj
  · have hj : s.callback.index = some j := by rw [hread]; rfl
    simpa [hindex hj] using h.handleRead j b hread
  · have hj : s.callback.index = some j := by rw [hread]; rfl
    have hji : j ≠ i := fun heq => hnot (heq ▸ mem_live.mpr (.inr hj))
    have hnumber := h.numberRead j b n hread
    simpa [hindex hj, RequestPc.marks, hji.symm] using ⟨hnumber.1, hnumber.2.1⟩
  · unfold PassedOnce inFlight
    dsimp only
    rw [hmap]
    exact (List.Perm.cons _ h.once).trans List.perm_middle.symm

theorem Sound.mark (h : s.Sound) {buffer frameNumber : Nat}
    (hrequest : s.request = .marking buffer frameNumber i) :
    Sound { s with
      mMemory := (s.mMemory.markFrameNumber i frameNumber).2, request := .idle } := by
  obtain ⟨hi, hn, hlt⟩ := h.marking _ _ _ hrequest
  have hused := h.used i hi
  have hmark : (s.mMemory.markFrameNumber i frameNumber).2 = s.mMemory.setSlot i
      { s.mMemory.slots i with currentFrameNumber := frameNumber } := by
    have hbmod : (frameNumber : Int).bmod (2 ^ 32) = frameNumber := by
      apply Int.bmod_eq_of_le <;> omega
    rw [Gralloc.markFrameNumber, if_neg (by omega), if_neg hused.2, hbmod]
  have hsame : ∀ j, (s.mMemory.setSlot i { s.mMemory.slots i with
        currentFrameNumber := frameNumber }).slots j = { s.mMemory.slots j with
          currentFrameNumber := if j = i then frameNumber
            else (s.mMemory.slots j).currentFrameNumber } := by
    intro j
    by_cases hj : j = i
    · subst hj
      simp
    · simp [setSlot_of_ne hj, hj]
  obtain ⟨l, hregistry⟩ := h.memory.registry
  have hkept := markFrameNumber_kept hregistry i frameNumber
  have hfree {j : Nat} (hj : j ≠ i) : s.request.marks ≠ some j := by
    simp [hrequest, RequestPc.marks, hj.symm]
  rw [hmark] at hkept ⊢
  refine ⟨⟨⟨l, hkept⟩, fun j hj hu => h.memory.low j hj (by simpa [hsame] using hu),
    fun _ _ _ => rfl⟩, h.nodup, fun j hj => ?_, fun j hj => ?_, fun j hj _ => ?_, nofun, trivial,
    nofun, h.delivering, h.idle, h.handleRead, fun j b n hread => ?_, h.unregistered, h.once⟩
  · simpa [hsame] using h.used j hj
  · simpa [hsame] using h.buffer j hj
  · by_cases hji : j = i
    · simp [hji, hn]
    · simpa [hsame, hji] using h.number j hj (hfree hji)
  · have hnumber := h.numberRead j b n hread
    exact ⟨hnumber.1, hnumber.2.1, nofun⟩

/-! ## The callback -/

theorem Sound.deliver (h : s.Sound) (hidle : s.callback = .idle) (hi : i ∈ s.queued) :
    Sound { s with
      queued := s.queued.erase i, callback := .delivered i, delivering := some (s.owner i) } := by
  have hlive : (s.queued.erase i ++ [i]).Perm s.live := by
    have hperm := (List.perm_cons_erase hi).symm
    simpa [live, hidle, CallbackPc.index] using List.perm_append_comm.trans hperm
  have hflight : ((s.queued.erase i).map s.owner ++ [s.owner i]).Perm s.inFlight := by
    have hperm := ((List.perm_cons_erase hi).map s.owner).symm
    simpa [inFlight, h.idle hidle] using List.perm_append_comm.trans hperm
  refine ⟨h.memory, hlive.nodup_iff.mpr h.nodup, fun j hj => h.used j (hlive.mem_iff.mp hj),
    fun j hj => h.buffer j (hlive.mem_iff.mp hj), fun j hj => h.number j (hlive.mem_iff.mp hj),
    fun e he => ⟨fun f hf => (h.asked e he).1 f (hflight.mem_iff.mp hf), (h.asked e he).2⟩,
    h.finds, fun b n j hmark => ?_, ?_, nofun, nofun, nofun, nofun, ?_⟩
  · have hmarking := h.marking b n j hmark
    exact ⟨hlive.mem_iff.mpr hmarking.1, hmarking.2⟩
  · rintro j ⟨⟩
    rfl
  · exact h.once.trans (List.Perm.append_left _ hflight.symm)

theorem Sound.setCallback (h : s.Sound) {c : CallbackPc} (hold : s.callback.index = some i)
    (hnew : c.index = some i) (hread : ∀ b, c = .handleRead i b → b = (s.owner i).1)
    (hnumber : ∀ b n, c = .numberRead i b n →
      b = (s.owner i).1 ∧ n = (s.owner i).2 ∧ s.request.marks ≠ some i) :
    Sound { s with callback := c } := by
  have hlive : live { s with callback := c } = s.live := by simp [live, hold, hnew]
  refine ⟨h.memory, by rw [hlive]; exact h.nodup, by rw [hlive]; exact h.used,
    by rw [hlive]; exact h.buffer, by rw [hlive]; exact h.number, h.asked, h.finds,
    by rw [hlive]; exact h.marking, by rw [hnew, ← hold]; exact h.delivering, ?_, ?_, ?_, ?_,
      h.once⟩
  · rintro rfl
    cases hnew
  · rintro j b rfl
    cases hnew
    exact hread b rfl
  · rintro j b n rfl
    cases hnew
    exact hnumber b n rfl
  · rintro b n rfl
    cases hnew

theorem Sound.readHandle (h : s.Sound) (hcallback : s.callback = .delivered i) :
    Sound { s with callback := .handleRead i (getBufferHandle s.mMemory i) } := by
  have hindex : s.callback.index = some i := by rw [hcallback]; rfl
  have hi : i ∈ s.live := mem_live.mpr (.inr hindex)
  obtain ⟨hlt, hused⟩ := h.used i hi
  refine h.setCallback hindex rfl (fun b heq => ?_) nofun
  cases heq
  rw [getBufferHandle, if_neg (by omega), if_neg hused]
  exact h.buffer i hi

theorem Sound.readNumber (h : s.Sound) {b : Option Nat} (hcallback : s.callback = .handleRead i b)
    (hcond : s.request.marks ≠ some i) :
    Sound { s with callback := .numberRead i b (s.mMemory.getFrameNumber i) } := by
  have hindex : s.callback.index = some i := by rw [hcallback]; rfl
  have hi : i ∈ s.live := mem_live.mpr (.inr hindex)
  obtain ⟨hlt, hused⟩ := h.used i hi
  refine h.setCallback hindex rfl nofun fun b n heq => ?_
  cases heq
  refine ⟨h.handleRead i b hcallback, ?_, hcond⟩
  rw [Gralloc.getFrameNumber, if_neg (by omega), if_neg hused]
  exact h.number i hi hcond

theorem Sound.unregister (h : s.Sound) {b : Option Nat} {n : Int}
    (hcallback : s.callback = .numberRead i b n) :
    Sound { s with
      mMemory := (s.mMemory.unregisterBuffer i).2, callback := .unregistered b n } := by
  have hindex : s.callback.index = some i := by rw [hcallback]; rfl
  have hi : i ∈ s.live := mem_live.mpr (.inr hindex)
  obtain ⟨hlt, hused⟩ := h.used i hi
  obtain ⟨hb, hn, hmarks⟩ := h.numberRead i b n hcallback
  have hlive : s.live = s.queued ++ [i] := by rw [live, hindex]; rfl
  have hnot : i ∉ s.queued := fun hin =>
    List.disjoint_of_nodup_append (hlive ▸ h.nodup) hin List.mem_cons_self
  have hmem {j : Nat} (hj : j ∈ s.queued) : j ∈ s.live ∧ j ≠ i :=
    ⟨mem_live.mpr (.inl hj), fun heq => hnot (heq ▸ hj)⟩
  have hrun : (s.mMemory.unregisterBuffer i).2 = s.mMemory.unregisterBufferLocked i := by
    rw [Gralloc.unregisterBuffer, if_neg (by omega), if_neg hused]
  have hsame {j : Nat} (hj : j ≠ i) :
      (s.mMemory.unregisterBufferLocked i).slots j = s.mMemory.slots j := setSlot_of_ne hj ..
  have hself : ((s.mMemory.unregisterBufferLocked i).slots i).memInfo.handle = 0 := by
    simp [Gralloc.unregisterBufferLocked]
  obtain ⟨l, hregistry⟩ := h.memory.registry
  rw [hrun]
  have hqueued : live { s with
      mMemory := s.mMemory.unregisterBufferLocked i, callback := .unregistered b n } = s.queued :=
    List.append_nil _
  refine ⟨⟨⟨_, hregistry.unregister hlt hused⟩, fun j hj hu => ?_, fun _ _ _ => rfl⟩, ?_, ?_, ?_,
    ?_, h.asked, ?_, fun b n j hmark => ?_, by simp [CallbackPc.index], by simp, by simp, by simp,
    ?_, h.once⟩
  · have hji : j ≠ i := by
      rintro rfl
      exact hu hself
    exact h.memory.low j hj (hsame hji ▸ hu)
  · rw [hqueued]
    exact List.Nodup.of_append_left h.nodup
  · rw [hqueued]
    intro j hj
    simpa [hsame (hmem hj).2] using h.used j (hmem hj).1
  · rw [hqueued]
    intro j hj
    simpa [hsame (hmem hj).2] using h.buffer j (hmem hj).1
  · rw [hqueued]
    intro j hj
    simpa [hsame (hmem hj).2] using h.number j (hmem hj).1
  · have hfinds := h.finds
    cases hrequest : s.request with
    | queueing buffer frameNumber j =>
      rw [hrequest] at hfinds
      have hji : j ≠ i := by
        rintro rfl
        exact h.not_live (by rw [hrequest]; rfl) hfinds.2.2 hi
      simpa [Finds, hsame hji] using hfinds
    | _ => trivial
  · have hmarking := h.marking b n j hmark
    rw [hqueued]
    rw [hlive, List.mem_append, List.mem_singleton] at hmarking
    refine ⟨hmarking.1.resolve_right ?_, hmarking.2⟩
    rintro rfl
    exact hmarks (by rw [show s.request = _ from hmark]; rfl)
  · rintro b' n' ⟨⟩
    exact ⟨(s.owner i).2, hn, by rw [h.delivering i hindex, hb]⟩

theorem Sound.channelCB (h : s.Sound) {b : Option Nat} {n : Int}
    (hcallback : s.callback = .unregistered b n) :
    Sound { s with
      callback := .idle
      delivering := none
      passed := if 0 ≤ n then (b, n.toNat) :: s.passed else s.passed } := by
  obtain ⟨k, rfl, hdelivering⟩ := h.unregistered b n hcallback
  have hlive : s.live = s.queued := by simp [live, hcallback, CallbackPc.index]
  have hflight : s.inFlight = s.queued.map s.owner ++ [(b, k)] := by rw [inFlight, hdelivering]; rfl
  rw [if_pos (Int.natCast_nonneg k), Int.toNat_natCast]
  generalize hu : ({ s with
    callback := .idle, delivering := none, passed := (b, k) :: s.passed } : Channel) = u
  have hulive : u.live = s.live := by
    rw [hlive, ← hu]
    exact List.append_nil _
  have huflight : u.inFlight = s.queued.map s.owner := by
    rw [← hu]
    exact List.append_nil _
  have hasked : ∀ e ∈ s.request.asks, (∀ f ∈ u.inFlight, f.1 ≠ some e.1) ∧ e.2 < 2 ^ 31 :=
    fun e he => ⟨fun f hf => (h.asked e he).1 f (by
      simp_all), (h.asked e he).2⟩
  have honce : u.PassedOnce := by
    have hold := h.once
    grind [PassedOnce]
  subst hu
  exact ⟨h.memory, by rw [hulive]; exact h.nodup, by rw [hulive]; exact h.used,
    by rw [hulive]; exact h.buffer, by rw [hulive]; exact h.number, hasked, h.finds,
    by rw [hulive]; exact h.marking, nofun, fun _ => rfl, nofun, nofun, nofun, honce⟩

/-! ## Runs -/

theorem Sound.exec (h : s.Sound) {op : Op} (hcond : s.Cond op) : (s.exec op).Sound := by
  cases op with
  | request buffer frameNumber =>
    unfold Channel.exec
    dsimp only
    split
    · rename_i hidle
      have hmarks : s.request.marks = none := by rw [hidle]; rfl
      refine h.goOn h.memory s.m_bIsActive hmarks (by split <;> rfl) (fun e he => ?_) ?_
      · split at he <;> cases he <;> exact hcond
      · split <;> trivial
    · exact h
  | start kernel answers priv ok =>
    unfold Channel.exec
    dsimp only
    split
    · rename_i buffer frameNumber hrequest
      have hnext : (RequestPc.lookingUp buffer frameNumber).asks = some (buffer, frameNumber) ∧
          (RequestPc.lookingUp buffer frameNumber).marks = none ∧
            ∀ m, Finds m (.lookingUp buffer frameNumber) := ⟨rfl, rfl, fun _ => trivial⟩
      have ht := h.registerBuffer (s := s) (by rw [hrequest]; rfl) hnext
        (hcond buffer (by rw [hrequest]; rfl))
      split
      · rename_i hnext
        have hmarks : RequestPc.marks _ = none := congrArg RequestPc.marks hnext
        split
        · exact ht.goOn ht.memory true hmarks hmarks ht.asked ht.finds
        · exact ht.goOn ht.memory _ hmarks rfl nofun trivial
      · exact ht
    · exact h
  | lookUp =>
    unfold Channel.exec
    dsimp only
    split
    · rename_i buffer frameNumber hrequest
      exact h.findIndex (by rw [hrequest]; rfl) (.inr rfl)
    · exact h
  | register kernel answers priv =>
    unfold Channel.exec
    dsimp only
    split
    · rename_i buffer frameNumber hrequest
      exact h.registerBuffer (by rw [hrequest]; rfl) ⟨rfl, rfl, fun _ => trivial⟩
        (hcond buffer (by rw [hrequest]; rfl))
    · exact h
  | lookAgain =>
    unfold Channel.exec
    dsimp only
    split
    · rename_i buffer frameNumber hrequest
      exact h.findIndex (by rw [hrequest]; rfl) (.inl rfl)
    · exact h
  | bufDone ok =>
    unfold Channel.exec
    dsimp only
    split
    · rename_i buffer frameNumber index hrequest
      split
      · exact h.bufDone hrequest
      · exact h.goOn h.memory _ (by rw [hrequest]; rfl) rfl nofun trivial
    · exact h
  | mark =>
    unfold Channel.exec
    dsimp only
    split
    · rename_i hrequest
      exact h.mark hrequest
    · exact h
  | deliver bufIdx ok =>
    unfold Channel.exec
    dsimp only
    split
    · rename_i hidle
      split
      · rename_i hqueued
        have hused := h.used bufIdx (mem_live.mpr (.inl hqueued))
        have hlow := h.memory.low bufIdx hused.1 hused.2
        have hlt : bufIdx < 64 := hused.1
        rw [Nat.mod_eq_of_lt (by omega), if_neg (by omega)]
        exact h.deliver hidle hqueued
      · exact h
    · exact h
  | readHandle =>
    unfold Channel.exec
    dsimp only
    split
    · rename_i hcallback
      exact h.readHandle hcallback
    · exact h
  | readNumber =>
    unfold Channel.exec
    dsimp only
    split
    · rename_i hcallback
      exact h.readNumber hcallback (hcond _ (by rw [hcallback]; rfl))
    · exact h
  | unregister =>
    unfold Channel.exec
    dsimp only
    split
    · rename_i hcallback
      exact h.unregister hcallback
    · exact h
  | channelCB =>
    unfold Channel.exec
    dsimp only
    split
    · rename_i hcallback
      exact h.channelCB hcallback
    · exact h

/-- **Each queued buffer is passed on once, with the number of its request**, in the runs whose
steps all meet the condition. -/
theorem passedOnce_along (mNumBufs : Nat) (ops : List Op)
    (hcond : System.Along Cond exec ops { mNumBufs }) :
    System.Along (fun s op => (s.exec op).PassedOnce) exec ops { mNumBufs } :=
  System.Along.imp (fun _ _ h hc => ⟨(h.exec hc).once, h.exec hc⟩) (sound_new mNumBufs) hcond

def twoFrames : List Op :=
  [.request (some 7) 0, .start Kernel.next {} ⟨20, 4096⟩ true, .lookUp, .bufDone true, .mark,
    .deliver 0 true, .readHandle, .readNumber, .unregister, .channelCB,
    .request (some 7) 1, .lookUp, .register Kernel.next {} ⟨20, 4096⟩, .lookAgain, .bufDone true]

theorem passedOnce_along_twoFrames :
    System.Along (fun s op => (s.exec op).PassedOnce) exec twoFrames { mNumBufs := 2 } := by
  refine passedOnce_along 2 twoFrames ?_
  refine ⟨⟨nofun, by decide⟩, ?_, trivial, trivial, trivial, trivial, trivial, ?_, trivial, trivial,
    ⟨nofun, by decide⟩, trivial, ?_, trivial, trivial, trivial⟩
  · exact fun _ _ => .inr ⟨rfl, rfl, rfl⟩
  · exact fun _ _ => nofun
  · exact fun _ _ => .inr ⟨rfl, rfl, rfl⟩

/-- A frame is delivered before its number is marked, and is never passed on. -/
theorem not_passedOnce_along : ¬ ∀ (mNumBufs : Nat) (ops : List Op),
    System.Along (fun s op => (s.exec op).PassedOnce) exec ops { mNumBufs } := by
  intro h
  have hlost := (h 2 [.request (some 7) 0, .start Kernel.next {} ⟨20, 4096⟩ true, .lookUp,
    .bufDone true, .deliver 0 true, .readHandle, .readNumber, .unregister,
    .channelCB]).2.2.2.2.2.2.2.2.1
  have hlength := hlost.length_eq
  revert hlength
  decide +kernel

end Channel

end EtherDevice.Hal3.RegularChannel
