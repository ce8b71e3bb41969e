import EtherDevice.Lib.Transition
import Mathlib.Logic.Function.Basic
import Mathlib.Data.List.Range

/-!
# Reprocess channels are deleted through copies of their pointers

`QCameraPostProcessor` keeps its reprocess channels in `mPPChannels`, of which the first
`mTotalNumReproc` are in use. `start`, `stop` and the destructor delete a channel and set a local
copy of its pointer to NULL: the entry still points to the channel, and only the count keeps it
from being used.

`start` writes the count before it makes the channels. Where it fails on the way, the entries
behind the failing one count, and those that are left from an earlier session are deleted again.
The entry that failed is NULL, and `doReprocess` dereferences the counted entries without a look.
-/

namespace EtherDevice.Hal1.ReprocChannels

open Lib

inductive Source
  | parent (channel : Nat)
  | reproc (channel : Nat)
  deriving DecidableEq

/-- `QCameraReprocessChannel`, with how often it was started, stopped while it was active, and
deleted. -/
structure Channel where
  m_handle : Nat := 0
  m_pSrcChannel : Source := .parent 0
  m_bIsActive : Bool := false
  starts : Nat := 0
  stops : Nat := 0
  deletes : Nat := 0

/-- What `addReprocChannel` and `start` of the new channel give. -/
inductive Made
  | notAdded
  | notStarted (handle : Nat)
  | started (handle : Nat)

def Made.isStarted : Made → Bool
  | .started _ => true
  | _ => false

structure PostProc where
  m_bInited : Bool
  /-- the data thread is started -/
  isActive : Bool := false
  mTotalNumReproc : Nat := 0
  mPPChannels : Nat → Option Nat := fun _ => none
  /-- the channels that `addReprocChannel` has returned, and how many they are -/
  channels : Nat → Channel := fun _ => {}
  made : Nat := 0
  /-- a pointer was dereferenced that was NULL or whose channel was deleted -/
  wild : Bool := false

/-! ## Inputs -/

/-- A super buffer, with what `getChannelByHandle` of the parent says of its channel. -/
structure Frame where
  ch_id : Nat
  parent : Option Nat

structure JpegJob where
  src_frame : Frame
  src_reproc_frame : Option Frame
  reproc_frame_release : Bool
  enqueued : Bool
  encoded : Bool

inductive Submission
  | noJob
  /-- without memory for the buffers, or for an extra job -/
  | givenUp
  | refused
  | submitted
  deriving DecidableEq

/-- A request at the head of `m_inputPPQ`. There is no `src_reproc_frame` where it is the
`src_frame`. -/
structure Request where
  src_frame : Frame
  src_reproc_frame : Option Frame
  reprocCount : Nat
  regularCapture : Bool
  valid : Bool
  /-- the source channel of this entry has the metadata stream of the frame -/
  hasMeta : Nat → Bool
  submission : Submission

structure NextJob where
  jpeg : Option JpegJob
  /-- the raw frame, and whether `processRawImageImpl` succeeds -/
  raw : Option (Frame × Bool)
  request : Option Request
  /-- the frames that a flush of `m_inputPPQ` releases -/
  waiting : List Frame

structure StartParams where
  pSrcChannel : Option Nat
  needReprocess : Bool
  needReprocessLater : Bool
  reprocCount : Nat
  answer : Nat → Made
  /-- neither recording nor longshot -/
  jpegSession : Bool

namespace PostProc

variable (s : PostProc)

/-! ## Channels -/

def deleted (c : Nat) : Bool := 0 < (s.channels c).deletes

def use (ptrs : List (Option Nat)) : PostProc :=
  { s with wild := s.wild || ptrs.any fun ptr => ptr.all s.deleted }

def setChannel (c : Nat) (channel : Channel) : PostProc :=
  { s with channels := Function.update s.channels c channel }

def setEntry (i : Nat) (ptr : Option Nat) : PostProc :=
  { s with mPPChannels := Function.update s.mPPChannels i ptr }

def addReprocChannel (i handle : Nat) (input : Source) : PostProc :=
  { (s.setEntry i (some s.made)).setChannel s.made
      { m_handle := handle, m_pSrcChannel := input } with
    made := s.made + 1 }

def startChannel (c : Nat) : PostProc :=
  (s.use [some c]).setChannel c
    { s.channels c with m_bIsActive := true, starts := (s.channels c).starts + 1 }

/-- `QCameraChannel::stop`, which returns at once where the channel is not active -/
def stopChannel (c : Nat) : PostProc :=
  let s := s.use [some c]
  if (s.channels c).m_bIsActive then
    s.setChannel c { s.channels c with
      m_bIsActive := false, stops := (s.channels c).stops + 1 }
  else s

def deleteChannel (c : Nat) : PostProc :=
  let s := s.stopChannel c
  s.setChannel c { s.channels c with deletes := (s.channels c).deletes + 1 }

def deleteAll : List Nat → PostProc → PostProc
  | [], s => s
  | i :: indices, s =>
    match s.mPPChannels i with
    | none => deleteAll indices s
    | some c => deleteAll indices ((s.stopChannel c).deleteChannel c)

def addAll (answer : Nat → Made) : List Nat → Source → PostProc → Bool × PostProc
  | [], _, s => (true, s)
  | i :: indices, input, s =>
    match answer i with
    | .notAdded => (false, s.setEntry i none)
    | .notStarted handle =>
      (false, ((s.addReprocChannel i handle input).deleteChannel s.made).setEntry i none)
    | .started handle =>
      addAll answer indices (.reproc s.made)
        ((s.addReprocChannel i handle input).startChannel s.made)

/-! ## Start and stop -/

def restart (p : StartParams) (src : Nat) : Bool × PostProc :=
  let s := deleteAll (List.range s.mTotalNumReproc) s
  addAll p.answer (List.range p.reprocCount) (.parent src)
    { s with mTotalNumReproc := p.reprocCount }

/-- The streams for the JPEG session are those of the last channel or of the source. -/
def createSession (p : StartParams) : PostProc :=
  if p.jpegSession && decide (0 < s.mTotalNumReproc) && p.needReprocessLater then
    s.use [s.mPPChannels (s.mTotalNumReproc - 1)]
  else s

def start (p : StartParams) : PostProc :=
  if s.m_bInited then
    match p.pSrcChannel with
    | none => s
    | some src =>
      match if p.needReprocess then s.restart p src else (true, s) with
      | (false, s) => s
      | (true, s) => createSession { s with isActive := true } p
  else s

def destroy : PostProc :=
  { deleteAll (List.range s.mTotalNumReproc) s with mTotalNumReproc := 0 }

/-! ## Frames -/

def upTo (p : Nat → Bool) : List Nat → List Nat
  | [] => []
  | i :: indices => i :: if p i then [] else upTo p indices

def findChannel (frame : Frame) : List (Option Nat) :=
  if frame.parent.isSome then []
  else
    let isFrom := fun i => (s.mPPChannels i).any fun c => (s.channels c).m_handle = frame.ch_id
    ((upTo isFrom (List.range s.mTotalNumReproc)).map s.mPPChannels).filter (·.isSome)

def releaseSuperBuf (frame : Frame) : List (Option Nat) := s.findChannel frame

def releaseJpegJobData (job : JpegJob) : List (Option Nat) :=
  (if job.reproc_frame_release then [] else job.src_reproc_frame.toList.flatMap s.releaseSuperBuf)
    ++ s.releaseSuperBuf job.src_frame

def releasePPInputData (request : Request) : List (Option Nat) :=
  s.releaseSuperBuf request.src_frame ++
    request.src_reproc_frame.toList.flatMap s.releaseSuperBuf

def releaseOngoingPPData (request : Request) : List (Option Nat) :=
  (if request.regularCapture then [] else s.releaseSuperBuf request.src_frame) ++
    request.src_reproc_frame.toList.flatMap s.releaseSuperBuf

def encode (job : JpegJob) : List (Option Nat) :=
  let frame := s.findChannel job.src_frame
  if job.enqueued then
    frame ++ frame ++ frame ++ if job.encoded then [] else s.releaseJpegJobData job
  else frame ++ s.releaseJpegJobData job

def processRawImage (raw : Frame × Bool) : List (Option Nat) :=
  s.findChannel raw.1 ++ if raw.2 then [] else s.releaseSuperBuf raw.1

def fromSource (frame : Frame) (i : Nat) : Bool :=
  frame.parent.any fun channel =>
    (s.mPPChannels i).any fun c => (s.channels c).m_pSrcChannel = .parent channel

def validated (frame : Frame) : List Nat :=
  upTo (s.fromSource frame) (List.range s.mTotalNumReproc)

/-- The entries among which `doReprocess` looks for the metadata stream. -/
def searched (request : Request) : List Nat :=
  upTo request.hasMeta (List.range s.mTotalNumReproc)

def submit (request : Request) : List (Option Nat) :=
  let frame := s.findChannel request.src_frame
  match request.submission, s.mPPChannels request.reprocCount with
  | .noJob, _ => []
  | _, none => frame ++ s.releasePPInputData request
  | .givenUp, some _ => frame
  | .refused, some _ => frame ++ s.releaseOngoingPPData request
  | .submitted, some c => frame ++ [some c]

def doReprocess (request : Request) : List (Option Nat) :=
  (s.validated request.src_frame).map s.mPPChannels ++
    if request.valid then
      (s.searched request).map s.mPPChannels ++ s.submit request
    else []

def doNextJob (job : NextJob) : PostProc :=
  if s.isActive then
    s.use (job.jpeg.toList.flatMap s.encode ++ job.raw.toList.flatMap s.processRawImage ++
      job.request.toList.flatMap s.doReprocess)
  else
    s.use (job.jpeg.toList.flatMap s.releaseJpegJobData ++
      job.raw.toList.flatMap (fun raw => s.releaseSuperBuf raw.1) ++
      job.waiting.flatMap s.releaseSuperBuf)

def stop (released : List Frame) : PostProc :=
  let s :=
    if s.m_bInited then { s.use (released.flatMap s.releaseSuperBuf) with isActive := false } else s
  s.destroy

end PostProc

inductive Op
  | start (p : StartParams)
  | stop (released : List Frame)
  | doNextJob (job : NextJob)
  | destroy

namespace PostProc

def exec (s : PostProc) : Op → PostProc
  | .start p => s.start p
  | .stop released => s.stop released
  | .doNextJob job => s.doNextJob job
  | .destroy => s.destroy

end PostProc

/-! ## What should hold -/

structure Channel.Live (channel : Channel) : Prop where
  active : channel.m_bIsActive = true
  starts : channel.starts = 1
  stops : channel.stops = 0
  deletes : channel.deletes = 0

/-- A channel that was deleted once, and stopped once if it was ever active. -/
structure Channel.Gone (channel : Channel) : Prop where
  deletes : channel.deletes = 1
  stops : channel.stops = channel.starts
  once : channel.starts ≤ 1

namespace PostProc

/-- All channels are gone, and no pointer was used that is NULL or whose channel was deleted. -/
structure Released (s : PostProc) : Prop where
  wild : s.wild = false
  gone : ∀ c < s.made, (s.channels c).Gone

/-! ## The steps that go well -/

/-- Where one of the channels cannot be made, the entries behind it hold nothing. Where none are
made, the one that the JPEG session is for is there. -/
def StartCond (s : PostProc) (p : StartParams) : Prop :=
  if p.needReprocess then
    ∀ k < p.reprocCount, (∀ j < k, (p.answer j).isStarted = true) →
      (p.answer k).isStarted = false → ∀ i < p.reprocCount, k < i → s.mPPChannels i = none
  else
    p.jpegSession = true → 0 < s.mTotalNumReproc → p.needReprocessLater = true →
      s.mPPChannels (s.mTotalNumReproc - 1) ≠ none

/-- The entries that are looked at hold channels. The one for the pass of the request is in use or
holds none. -/
def RequestCond (s : PostProc) (request : Request) : Prop :=
  (∀ i ∈ s.validated request.src_frame, s.mPPChannels i ≠ none) ∧
    (request.valid = true → (∀ i ∈ s.searched request, s.mPPChannels i ≠ none) ∧
      (request.submission = .submitted →
        request.reprocCount < s.mTotalNumReproc ∨ s.mPPChannels request.reprocCount = none))

def Cond (s : PostProc) : Op → Prop
  | .start p => s.m_bInited = true → p.pSrcChannel ≠ none → s.StartCond p
  | .doNextJob job => s.isActive = true → ∀ request ∈ job.request, s.RequestCond request
  | _ => True

/-! ## Uses -/

variable {s t : PostProc}

@[simp] theorem channels_setChannel_self {c : Nat} {channel : Channel} :
    (s.setChannel c channel).channels c = channel := Function.update_self ..

theorem channels_setChannel_of_ne {c d : Nat} {channel : Channel} (hd : d ≠ c) :
    (s.setChannel c channel).channels d = s.channels d := Function.update_of_ne hd ..

/-- A pointer to a channel that is not deleted. -/
def Fine (s : PostProc) (ptr : Option Nat) : Prop := ∃ c, ptr = some c ∧ (s.channels c).deletes = 0

theorem use_eq {ptrs : List (Option Nat)} (h : ∀ ptr ∈ ptrs, s.Fine ptr) : s.use ptrs = s := by
  have hnone : (ptrs.any fun ptr => ptr.all s.deleted) = false := by
    rw [List.any_eq_false]
    intro ptr hptr
    obtain ⟨c, rfl, hlive⟩ := h ptr hptr
    simp [deleted, hlive]
  unfold use
  rw [hnone, Bool.or_false]

theorem wild_use {ptrs : List (Option Nat)} {ptr : Option Nat} (hptr : ptr ∈ ptrs)
    (h : ∀ c, ptr = some c → 0 < (s.channels c).deletes) : (s.use ptrs).wild = true := by
  refine Bool.or_eq_true _ _ ▸ .inr (List.any_eq_true.mpr ⟨ptr, hptr, ?_⟩)
  cases ptr with
  | none => rfl
  | some c => exact decide_eq_true (h c rfl)

/-! ## What is wild stays wild -/

theorem wild_stopChannel (c : Nat) (h : s.wild = true) : (s.stopChannel c).wild = true := by
  unfold stopChannel
  dsimp only
  split_ifs
  · exact Bool.or_eq_true _ _ ▸ .inl h
  · exact Bool.or_eq_true _ _ ▸ .inl h

theorem wild_stopChannel_of_deleted {c : Nat} (h : 0 < (s.channels c).deletes) :
    (s.stopChannel c).wild = true := by
  have huse : (s.use [some c]).wild = true :=
    wild_use List.mem_cons_self fun _ heq => Option.some.inj heq ▸ h
  unfold stopChannel
  dsimp only
  split_ifs
  · exact huse
  · exact huse

theorem wild_deleteAll {indices : List Nat} (h : s.wild = true) :
    (deleteAll indices s).wild = true := by
  induction indices generalizing s with
  | nil => exact h
  | cons i indices ih =>
    unfold deleteAll
    split
    · exact ih h
    · exact ih (wild_stopChannel _ (wild_stopChannel _ h))

theorem wild_addAll {answer : Nat → Made} {indices : List Nat} {input : Source}
    (h : s.wild = true) : (addAll answer indices input s).2.wild = true := by
  induction indices generalizing s input with
  | nil => exact h
  | cons i indices ih =>
    unfold addAll
    split
    · exact h
    · exact wild_stopChannel (s := s.addReprocChannel _ _ _) _ h
    · exact ih (Bool.or_eq_true _ _ ▸ .inl h)

/-! ## The loops -/

theorem stopChannel_frame (s : PostProc) (c : Nat) :
    s.stopChannel c =
      { s with channels := (s.stopChannel c).channels, wild := (s.stopChannel c).wild } := by
  unfold stopChannel
  dsimp only
  split_ifs <;> rfl

theorem deletes_stopChannel (s : PostProc) (c d : Nat) :
    ((s.stopChannel c).channels d).deletes = (s.channels d).deletes := by
  unfold stopChannel
  dsimp only
  split_ifs
  · by_cases hd : d = c
    · subst hd
      simp [setChannel, use]
    · simp [setChannel, use, hd]
  · rfl

theorem deletes_deleteChannel (s : PostProc) (c d : Nat) :
    (s.channels d).deletes ≤ ((s.deleteChannel c).channels d).deletes := by
  rw [← deletes_stopChannel s c d]
  by_cases hd : d = c
  · subst hd
    simp [deleteChannel, setChannel]
  · simp [deleteChannel, setChannel, hd]

theorem mPPChannels_deleteChannel (s : PostProc) (c : Nat) :
    ((s.stopChannel c).deleteChannel c).mPPChannels = s.mPPChannels := by
  unfold deleteChannel setChannel
  rw [stopChannel_frame (s.stopChannel c), stopChannel_frame s]

theorem wild_deleteAll_of_deleted {indices : List Nat} {i c : Nat} (hi : i ∈ indices)
    (hptr : s.mPPChannels i = some c) (hdeleted : 0 < (s.channels c).deletes) :
    (deleteAll indices s).wild = true := by
  induction indices generalizing s with
  | nil => cases hi
  | cons j indices ih =>
    unfold deleteAll
    obtain rfl | hi := List.mem_cons.mp hi
    · rw [hptr]
      exact wild_deleteAll (wild_stopChannel _ (wild_stopChannel_of_deleted hdeleted))
    · split
      · exact ih hi hptr hdeleted
      · rename_i d _
        refine ih hi ?_ ?_
        · rwa [mPPChannels_deleteChannel]
        · refine hdeleted.trans_le ?_
          rw [← deletes_stopChannel s d c]
          exact deletes_deleteChannel _ _ _

theorem deleteChannel_live {c : Nat} (h : (s.channels c).Live) :
    ∃ gone : Channel, gone.Gone ∧ (s.stopChannel c).deleteChannel c = s.setChannel c gone := by
  refine ⟨{ s.channels c with m_bIsActive := false, stops := 1, deletes := 1 },
    ⟨rfl, h.starts.symm, h.starts.le⟩, ?_⟩
  have huse : s.use [some c] = s :=
    use_eq fun ptr hptr => ⟨c, List.mem_singleton.mp hptr, h.deletes⟩
  have hstop : s.stopChannel c =
      s.setChannel c { s.channels c with m_bIsActive := false, stops := 1 } := by
    unfold stopChannel
    rw [huse]
    rw [if_pos h.active, h.stops]
  rw [hstop]
  generalize hu : s.setChannel c { s.channels c with m_bIsActive := false, stops := 1 } = u
  have huc : u.channels c = { s.channels c with m_bIsActive := false, stops := 1 } := by
    rw [← hu, channels_setChannel_self]
  have huse' : u.use [some c] = u :=
    use_eq fun ptr hptr => ⟨c, List.mem_singleton.mp hptr, huc ▸ h.deletes⟩
  have hagain : u.stopChannel c = u := by
    simp [stopChannel, huse', huc]
  unfold deleteChannel
  rw [hagain]
  dsimp only
  rw [huc, h.deletes, ← hu]
  unfold setChannel
  rw [Function.update_idem]

theorem deleteAll_live {indices : List Nat} (hnodup : indices.Nodup)
    (hinj : ∀ i j c, s.mPPChannels i = some c → s.mPPChannels j = some c → i = j)
    (hlive : ∀ i ∈ indices, ∀ c, s.mPPChannels i = some c → (s.channels c).Live)
    (ht : t = deleteAll indices s) :
    t = { s with channels := t.channels } ∧
      (∀ i ∈ indices, ∀ c, s.mPPChannels i = some c → (t.channels c).Gone) ∧
      ∀ c, (∀ i ∈ indices, s.mPPChannels i ≠ some c) → t.channels c = s.channels c := by
  induction indices generalizing s with
  | nil =>
    subst ht
    exact ⟨rfl, nofun, fun _ _ => rfl⟩
  | cons i indices ih =>
    obtain ⟨hnotMem, hnodup⟩ := List.nodup_cons.mp hnodup
    unfold deleteAll at ht
    split at ht
    · grind
    · rename_i d hd
      have hd' := hlive i List.mem_cons_self d hd
      obtain ⟨gone, hgone', hdelete⟩ := deleteChannel_live hd'
      rw [hdelete] at ht
      have hne : ∀ j ∈ indices, s.mPPChannels j ≠ some d := fun j hj hptr =>
        hnotMem (hinj j i d hptr hd ▸ hj)
      have hsame : ∀ c, c ≠ d → (s.setChannel d gone).channels c = s.channels c := fun c hcd =>
        channels_setChannel_of_ne hcd
      have hrest : ∀ j ∈ indices, ∀ c, s.mPPChannels j = some c →
          ((s.setChannel d gone).channels c).Live := fun j hj c hptr => by
        rw [hsame c fun heq => hne j hj (heq ▸ hptr)]
        exact hlive j (List.mem_cons_of_mem _ hj) c hptr
      obtain ⟨hframe, hgone, hother⟩ := ih (s := s.setChannel d gone) hnodup hinj hrest ht
      have hdgone : (t.channels d).Gone := by
        rwa [hother d hne, channels_setChannel_self]
      refine ⟨hframe, fun j hj c hptr => ?_, fun c hc => ?_⟩
      · obtain rfl | hj := List.mem_cons.mp hj
        · obtain rfl : d = c := Option.some.inj (hd.symm.trans hptr)
          exact hdgone
        · exact hgone j hj c hptr
      · refine (hother c fun j hj => hc j (List.mem_cons_of_mem _ hj)).trans (hsame c ?_)
        rintro rfl
        exact hc i List.mem_cons_self hd

/-! ## The invariant -/

/-- The first entries hold the channels that are in use, and all other channels are gone. -/
structure Sound (num : Nat) (s : PostProc) : Prop where
  wild : s.wild = false
  bound : ∀ i c, s.mPPChannels i = some c → c < s.made
  inj : ∀ i j c, s.mPPChannels i = some c → s.mPPChannels j = some c → i = j
  live : ∀ i < num, ∀ c, s.mPPChannels i = some c → (s.channels c).Live
  gone : ∀ c < s.made, (∀ i < num, s.mPPChannels i ≠ some c) → (s.channels c).Gone

def Bad (s : PostProc) : Prop :=
  s.wild = true ∨ ∃ i < s.mTotalNumReproc, ∃ c, s.mPPChannels i = some c ∧
    0 < (s.channels c).deletes

variable {num : Nat}

theorem Sound.dangling (h : s.Sound num) {i c : Nat} (hi : num ≤ i)
    (hptr : s.mPPChannels i = some c) : 0 < (s.channels c).deletes := by
  have hgone := h.gone c (h.bound i c hptr) fun j hj hother =>
    absurd (h.inj i j c hptr hother) (by omega)
  rw [hgone.deletes]
  exact Nat.one_pos

theorem Sound.extend (h : s.Sound num) {n : Nat}
    (hnone : ∀ i < n, num ≤ i → s.mPPChannels i = none) (hle : num ≤ n) : s.Sound n where
  wild := h.wild
  bound := h.bound
  inj := h.inj
  live i hi c hptr := by
    refine h.live i ?_ c hptr
    by_contra hge
    cases (hnone i hi (Nat.le_of_not_lt hge)).symm.trans hptr
  gone c hc hother := h.gone c hc fun i hi => hother i (hi.trans_le hle)

theorem Sound.deleteAll (h : s.Sound num) (ht : t = deleteAll (List.range num) s) :
    t = { s with channels := t.channels } ∧ t.Sound 0 := by
  obtain ⟨hframe, hgone, hother⟩ := deleteAll_live List.nodup_range h.inj
    (fun i hi => h.live i (List.mem_range.mp hi)) ht
  have hmade : t.made = s.made := by rw [hframe]
  have hptrs : t.mPPChannels = s.mPPChannels := by rw [hframe]
  refine ⟨hframe, by rw [hframe]; exact h.wild, hptrs ▸ hmade ▸ h.bound, hptrs ▸ h.inj,
    fun i hi => absurd hi (Nat.not_lt_zero i), fun c hc _ => ?_⟩
  by_cases hin : ∃ i < num, s.mPPChannels i = some c
  · obtain ⟨i, hi, hptr⟩ := hin
    exact hgone i (List.mem_range.mpr hi) c hptr
  · have hnot : ∀ i < num, s.mPPChannels i ≠ some c := fun i hi hptr => hin ⟨i, hi, hptr⟩
    rw [hother c fun i hi => hnot i (List.mem_range.mp hi)]
    exact h.gone c (hmade ▸ hc) hnot

theorem Sound.destroy (h : s.Sound s.mTotalNumReproc) : s.destroy.Sound 0 := by
  obtain ⟨-, hsound⟩ := h.deleteAll rfl
  exact ⟨hsound.wild, hsound.bound, hsound.inj, hsound.live, hsound.gone⟩

theorem Sound.released (h : s.Sound s.mTotalNumReproc) : s.destroy.Released := by
  have hzero := h.destroy
  exact ⟨hzero.wild, fun c hc => hzero.gone c hc fun i hi => absurd hi (Nat.not_lt_zero i)⟩

/-! ## Channels are made -/

theorem Sound.setEntry_none (h : s.Sound num) : (s.setEntry num none).Sound num := by
  have hsome : ∀ i c, (s.setEntry num none).mPPChannels i = some c → s.mPPChannels i = some c := by
    intro i c hptr
    by_cases hi : i = num
    · subst hi
      simp [setEntry] at hptr
    · simpa [setEntry, hi] using hptr
  have hbelow : ∀ i < num, (s.setEntry num none).mPPChannels i = s.mPPChannels i := fun i hi =>
    Function.update_of_ne (Nat.ne_of_lt hi) _ _
  exact ⟨h.wild, fun i c hptr => h.bound i c (hsome i c hptr),
    fun i j c hi hj => h.inj i j c (hsome i c hi) (hsome j c hj),
    fun i hi c hptr => h.live i hi c (hsome i c hptr),
    fun c hc hother => h.gone c hc fun i hi => hbelow i hi ▸ hother i hi⟩

theorem Sound.setEntry_some (h : s.Sound num) {channel : Channel} (hlive : channel.Live)
    (ht : t = { s with
      mPPChannels := Function.update s.mPPChannels num (some s.made)
      channels := Function.update s.channels s.made channel
      made := s.made + 1 }) : t.Sound (num + 1) := by
  subst ht
  have hold : ∀ c < s.made, Function.update s.channels s.made channel c = s.channels c :=
    fun c hc => Function.update_of_ne (Nat.ne_of_lt hc) _ _
  have hptr : ∀ i c, Function.update s.mPPChannels num (some s.made) i = some c →
      i = num ∧ c = s.made ∨ i ≠ num ∧ s.mPPChannels i = some c := by
    intro i c heq
    by_cases hi : i = num
    · simp_all
    simp_all
  refine ⟨h.wild, fun i c heq => ?_, fun i j c hi hj => ?_, fun i hi c heq => ?_,
    fun c hc hother => ?_⟩
  · obtain ⟨-, rfl⟩ | ⟨-, heq⟩ := hptr i c heq
    · exact Nat.lt_succ_self _
    · exact (h.bound i c heq).trans (Nat.lt_succ_self _)
  · obtain ⟨rfl, rfl⟩ | ⟨-, hi⟩ := hptr i c hi
    · obtain ⟨rfl, -⟩ | ⟨-, hj⟩ := hptr j _ hj
      · rfl
      · exact absurd (h.bound j _ hj) (Nat.lt_irrefl _)
    · obtain ⟨-, rfl⟩ | ⟨-, hj⟩ := hptr j c hj
      · exact absurd (h.bound i _ hi) (Nat.lt_irrefl _)
      · exact h.inj i j c hi hj
  · obtain ⟨-, rfl⟩ | ⟨hne, heq⟩ := hptr i c heq
    · simp_all
    · dsimp only
      rw [hold c (h.bound i c heq)]
      exact h.live i (by omega) c heq
  · have hne : c ≠ s.made := by
      rintro rfl
      exact hother num (Nat.lt_succ_self _) (Function.update_self ..)
    have hlt : c < s.made := Nat.lt_of_le_of_ne (Nat.le_of_lt_succ hc) hne
    dsimp only
    rw [hold c hlt]
    refine h.gone c hlt fun i hi heq => hother i (hi.trans (Nat.lt_succ_self _)) ?_
    exact (Function.update_of_ne (Nat.ne_of_lt hi) _ _).trans heq

theorem Sound.setEntry_gone (h : s.Sound num) {channel : Channel} (hgone : channel.Gone)
    (ht : t = { s with
      mPPChannels := Function.update s.mPPChannels num none
      channels := Function.update s.channels s.made channel
      made := s.made + 1 }) : t.Sound num := by
  have hnone := h.setEntry_none
  have hold : ∀ c < s.made, Function.update s.channels s.made channel c = s.channels c :=
    fun c hc => Function.update_of_ne (Nat.ne_of_lt hc) _ _
  subst ht
  refine ⟨h.wild, fun i c heq => (hnone.bound i c heq).trans (Nat.lt_succ_self _), hnone.inj,
    fun i hi c heq => ?_, fun c hc hother => ?_⟩
  · dsimp only
    rw [hold c (hnone.bound i c heq)]
    exact hnone.live i hi c heq
  · dsimp only
    obtain hlt | rfl := Nat.lt_or_eq_of_le (Nat.le_of_lt_succ hc)
    · rw [hold c hlt]
      exact hnone.gone c hlt hother
    · rwa [Function.update_self]

theorem startChannel_addReprocChannel {handle : Nat} {input : Source} :
    (s.addReprocChannel num handle input).startChannel s.made = { s with
      mPPChannels := Function.update s.mPPChannels num (some s.made)
      channels := Function.update s.channels s.made
        { m_handle := handle, m_pSrcChannel := input, m_bIsActive := true, starts := 1 }
      made := s.made + 1 } := by
  have hnew : (s.addReprocChannel num handle input).channels s.made =
      { m_handle := handle, m_pSrcChannel := input } := Function.update_self ..
  unfold startChannel
  rw [use_eq fun ptr hptr => ⟨s.made, List.mem_singleton.mp hptr, by rw [hnew]⟩, hnew]
  unfold addReprocChannel setEntry setChannel
  rw [Function.update_idem]

theorem deleteChannel_addReprocChannel {handle : Nat} {input : Source} :
    ((s.addReprocChannel num handle input).deleteChannel s.made).setEntry num none = { s with
      mPPChannels := Function.update s.mPPChannels num none
      channels := Function.update s.channels s.made
        { m_handle := handle, m_pSrcChannel := input, deletes := 1 }
      made := s.made + 1 } := by
  have hnew : (s.addReprocChannel num handle input).channels s.made =
      { m_handle := handle, m_pSrcChannel := input } := Function.update_self ..
  have hstop : (s.addReprocChannel num handle input).stopChannel s.made =
      s.addReprocChannel num handle input := by
    unfold stopChannel
    rw [use_eq fun ptr hptr => ⟨s.made, List.mem_singleton.mp hptr, by rw [hnew]⟩]
    rw [if_neg (by simp [hnew])]
  simp_all [deleteChannel, addReprocChannel, setEntry, setChannel]

theorem Sound.addAll (answer : Nat → Made) (input : Source) {m : Nat} (h : s.Sound num)
    {result : Bool × PostProc} (hresult : result = addAll answer (List.range' num m) input s) :
    result.2.mTotalNumReproc = s.mTotalNumReproc ∧
      (∀ i < num, result.2.mPPChannels i = s.mPPChannels i) ∧
      (result.1 = true ∧ (∀ i, num ≤ i → i < num + m → (answer i).isStarted = true) ∧
          (∀ i, num ≤ i → i < num + m → result.2.mPPChannels i ≠ none) ∧
          result.2.Sound (num + m) ∨
        ∃ k, num ≤ k ∧ k < num + m ∧ result.1 = false ∧
          (∀ i, num ≤ i → i < k → (answer i).isStarted = true) ∧
          (answer k).isStarted = false ∧ result.2.Sound k ∧ result.2.mPPChannels k = none ∧
          ∀ i, k < i → result.2.mPPChannels i = s.mPPChannels i) := by
  induction m generalizing s num input with
  | zero =>
    subst hresult
    exact ⟨rfl, fun _ _ => rfl, .inl ⟨rfl, fun i hle hlt => absurd hlt (Nat.not_lt.mpr hle),
      fun i hle hlt => absurd hlt (Nat.not_lt.mpr hle), h⟩⟩
  | succ m ih =>
    have hentry : ∀ ptr i, i ≠ num → Function.update s.mPPChannels num ptr i = s.mPPChannels i :=
      fun ptr i hi => Function.update_of_ne hi _ _
    unfold PostProc.addAll at hresult
    rw [List.range'_succ] at hresult
    dsimp only at hresult
    split at hresult
    · rename_i hanswer
      subst hresult
      refine ⟨rfl, fun i hi => hentry none i (by omega), .inr ⟨num, Nat.le_refl _, by omega, rfl,
        fun i hle hlt => absurd hlt (Nat.not_lt.mpr hle), by rw [hanswer]; rfl,
        h.setEntry_none, Function.update_self .., fun i hi => hentry none i (by omega)⟩⟩
    · rename_i handle hanswer
      rw [deleteChannel_addReprocChannel] at hresult
      subst hresult
      refine ⟨rfl, fun i hi => hentry none i (by omega), .inr ⟨num, Nat.le_refl _, by omega, rfl,
        fun i hle hlt => absurd hlt (Nat.not_lt.mpr hle), by rw [hanswer]; rfl,
        h.setEntry_gone ⟨rfl, rfl, Nat.zero_le _⟩ rfl, Function.update_self ..,
        fun i hi => hentry none i (by omega)⟩⟩
    · rename_i handle hanswer
      rw [startChannel_addReprocChannel] at hresult
      obtain ⟨htotal, hbelow, hcases⟩ :=
        ih _ (h.setEntry_some ⟨rfl, rfl, rfl, rfl⟩ rfl) hresult
      have hstarted : ∀ i, num ≤ i → (num + 1 ≤ i → (answer i).isStarted = true) →
          (answer i).isStarted = true := by
        intro i hle hrest
        obtain rfl | hlt := Nat.eq_or_lt_of_le hle
        · rw [hanswer]
          rfl
        · exact hrest hlt
      refine ⟨htotal, fun i hi => (hbelow i (by omega)).trans (hentry _ i (by omega)), ?_⟩
      obtain ⟨hok, hall, hptrs, hsound⟩ | ⟨k, hk, hlt, hok, hall, hfail, hsound, hnone, hrest⟩ :=
        hcases
      · refine .inl ⟨hok, fun i hle hi => hstarted i hle fun h => hall i h (by omega),
          fun i hle hi => ?_, by rwa [Nat.add_right_comm, Nat.add_assoc] at hsound⟩
        obtain rfl | hlt := Nat.eq_or_lt_of_le hle
        · simp [hbelow]
        · exact hptrs i hlt (by omega)
      grind

/-! ## Steps -/

theorem Sound.createSession {p : StartParams} (h : s.Sound s.mTotalNumReproc)
    (hptr : p.jpegSession = true → 0 < s.mTotalNumReproc → p.needReprocessLater = true →
      s.mPPChannels (s.mTotalNumReproc - 1) ≠ none) : s.createSession p = s := by
  unfold PostProc.createSession
  split_ifs with hsession
  · simp only [Bool.and_eq_true, decide_eq_true_eq] at hsession
    obtain ⟨⟨hjpeg, htotal⟩, hneed⟩ := hsession
    obtain ⟨c, hc⟩ := Option.ne_none_iff_exists'.mp (hptr hjpeg htotal hneed)
    refine use_eq fun ptr hmem => ?_
    rw [List.mem_singleton.mp hmem]
    exact ⟨c, hc, (h.live _ (by omega) c hc).deletes⟩
  · rfl

theorem wild_createSession {p : StartParams} (h : ¬ (p.jpegSession = true →
    0 < s.mTotalNumReproc → p.needReprocessLater = true →
      s.mPPChannels (s.mTotalNumReproc - 1) ≠ none)) : (s.createSession p).wild = true := by
  push Not at h
  simp [PostProc.createSession, wild_use, h]

theorem startCond_iff {p : StartParams} {k : Nat} (hneed : p.needReprocess = true)
    (hk : k < p.reprocCount) (hall : ∀ i < k, (p.answer i).isStarted = true)
    (hfail : (p.answer k).isStarted = false) :
    s.StartCond p ↔ ∀ i < p.reprocCount, k < i → s.mPPChannels i = none := by
  unfold StartCond
  rw [if_pos hneed]
  constructor
  · exact fun h => h k hk hall hfail
  · intro h k' _ hall' hfail'
    obtain hlt | rfl | hlt := Nat.lt_trichotomy k k'
    · exact absurd ((hall' k hlt).symm.trans hfail) Bool.noConfusion
    · exact h
    · exact absurd ((hall k' hlt).symm.trans hfail') Bool.noConfusion

theorem Sound.start {p : StartParams} (h : s.Sound s.mTotalNumReproc) :
    ((s.m_bInited = true → p.pSrcChannel ≠ none → s.StartCond p) →
      (s.start p).Sound (s.start p).mTotalNumReproc) ∧
    (¬ (s.m_bInited = true → p.pSrcChannel ≠ none → s.StartCond p) → (s.start p).Bad) := by
  unfold PostProc.start
  by_cases hinited : s.m_bInited = true
  swap
  · simp [hinited, h]
  rw [if_pos hinited]
  cases hsrc : p.pSrcChannel with
  | none => exact ⟨fun _ => h, fun hnot => absurd (fun _ hne => absurd rfl hne) hnot⟩
  | some src =>
    have hiff : (s.m_bInited = true → some src ≠ none → s.StartCond p) ↔ s.StartCond p :=
      ⟨fun hc => hc hinited nofun, fun hc _ _ => hc⟩
    rw [hiff]
    dsimp only
    cases hneed : p.needReprocess with
    | false =>
      have hstart : Sound s.mTotalNumReproc { s with isActive := true } :=
        ⟨h.wild, h.bound, h.inj, h.live, h.gone⟩
      have hcond : s.StartCond p ↔ (p.jpegSession = true → 0 < s.mTotalNumReproc →
          p.needReprocessLater = true → s.mPPChannels (s.mTotalNumReproc - 1) ≠ none) := by
        simp [StartCond, hneed]
      rw [hcond]
      rw [if_neg Bool.false_ne_true]
      dsimp only
      refine ⟨fun hc => ?_, fun hnot => .inl ?_⟩
      · simp_all [Sound.createSession]
      · exact wild_createSession (s := { s with isActive := true }) hnot
    | true =>
      obtain ⟨hframe, hzero⟩ := h.deleteAll rfl
      have hadd := Sound.addAll p.answer (.parent src) (m := p.reprocCount)
        (s := { PostProc.deleteAll (List.range s.mTotalNumReproc) s with
          mTotalNumReproc := p.reprocCount })
        ⟨hzero.wild, hzero.bound, hzero.inj, hzero.live, hzero.gone⟩ rfl
      rw [← List.range_eq_range'] at hadd
      rw [if_pos rfl]
      unfold PostProc.restart
      have hptrs : (PostProc.deleteAll (List.range s.mTotalNumReproc) s).mPPChannels =
          s.mPPChannels := by rw [hframe]
      rw [hptrs] at hadd
      generalize PostProc.addAll p.answer (List.range p.reprocCount) (.parent src)
        { PostProc.deleteAll (List.range s.mTotalNumReproc) s with
          mTotalNumReproc := p.reprocCount } = result at *
      obtain ⟨ok, u⟩ := result
      obtain ⟨htotal, -, hcases⟩ := hadd
      dsimp only at htotal hcases
      obtain ⟨rfl, hall, hne, hsound⟩ | ⟨k, -, hlt, rfl, hall, hfail, hsound, hnone, hrest⟩ :=
        hcases
      · rw [Nat.zero_add] at hall hne hsound
        have hcond : s.StartCond p := by
          unfold StartCond
          rw [if_pos hneed]
          intro k hk _ hfail
          exact absurd ((hall k (Nat.zero_le _) hk).symm.trans hfail) Bool.noConfusion
        refine ⟨fun _ => ?_, fun hnot => absurd hcond hnot⟩
        have hactive : Sound u.mTotalNumReproc { u with isActive := true } := by
          rw [htotal]
          exact ⟨hsound.wild, hsound.bound, hsound.inj, hsound.live, hsound.gone⟩
        have hsession := Sound.createSession (s := { u with isActive := true }) (p := p) hactive
          fun _ hpos _ => hne _ (Nat.zero_le _) (by
            dsimp only at hpos ⊢
            omega)
        dsimp only
        rwa [hsession]
      · rw [Nat.zero_add] at hlt
        rw [startCond_iff hneed hlt (fun i => hall i (Nat.zero_le _)) hfail]
        constructor
        · intro hcond
          rw [htotal]
          refine hsound.extend (fun i hi hle => ?_) hlt.le
          grind
        · intro hnot
          push Not at hnot
          obtain ⟨i, hi, hki, hptr⟩ := hnot
          rw [← hrest i hki] at hptr
          obtain ⟨c, hc⟩ := Option.ne_none_iff_exists'.mp hptr
          exact .inr ⟨i, htotal ▸ hi, c, hc, hsound.dangling hki.le hc⟩

/-! ### Frames -/

theorem mem_upTo {p : Nat → Bool} {indices : List Nat} {i : Nat} (h : i ∈ upTo p indices) :
    i ∈ indices := by
  induction indices with
  | nil => exact h
  | cons j indices ih =>
    obtain rfl | h := List.mem_cons.mp h
    · exact List.mem_cons_self
    simp_all

theorem Sound.fine (h : s.Sound s.mTotalNumReproc) {i : Nat} (hi : i < s.mTotalNumReproc)
    (hptr : s.mPPChannels i ≠ none) : s.Fine (s.mPPChannels i) := by
  obtain ⟨c, hc⟩ := Option.ne_none_iff_exists'.mp hptr
  exact ⟨c, hc, (h.live i hi c hc).deletes⟩

theorem Sound.findChannel (h : s.Sound s.mTotalNumReproc) (frame : Frame) :
    ∀ ptr ∈ s.findChannel frame, s.Fine ptr := by
  intro ptr hptr
  unfold PostProc.findChannel at hptr
  split_ifs at hptr
  · cases hptr
  · obtain ⟨hmem, hsome⟩ := List.mem_filter.mp hptr
    obtain ⟨i, hi, rfl⟩ := List.mem_map.mp hmem
    exact h.fine (List.mem_range.mp (mem_upTo hi)) fun hnone => by simp [hnone] at hsome

theorem Sound.releaseJpegJobData (h : s.Sound s.mTotalNumReproc) (job : JpegJob) :
    ∀ ptr ∈ s.releaseJpegJobData job, s.Fine ptr := by
  intro ptr hptr
  obtain hptr | hptr := List.mem_append.mp hptr
  · split_ifs at hptr
    · cases hptr
    · obtain ⟨frame, -, hptr⟩ := List.mem_flatMap.mp hptr
      exact h.findChannel frame ptr hptr
  · exact h.findChannel _ ptr hptr

theorem Sound.encode (h : s.Sound s.mTotalNumReproc) (job : JpegJob) :
    ∀ ptr ∈ s.encode job, s.Fine ptr := by
  have hframe := h.findChannel job.src_frame
  have hrelease := h.releaseJpegJobData job
  grind [PostProc.encode]

theorem Sound.processRawImage (h : s.Sound s.mTotalNumReproc) (raw : Frame × Bool) :
    ∀ ptr ∈ s.processRawImage raw, s.Fine ptr := by
  intro ptr hptr
  obtain hptr | hptr := List.mem_append.mp hptr
  · exact h.findChannel _ ptr hptr
  · split_ifs at hptr
    · cases hptr
    · exact h.findChannel _ ptr hptr

theorem Sound.submit (h : s.Sound s.mTotalNumReproc) {request : Request}
    (hcond : request.submission = .submitted →
      request.reprocCount < s.mTotalNumReproc ∨ s.mPPChannels request.reprocCount = none) :
    ∀ ptr ∈ s.submit request, s.Fine ptr := by
  have hframe := h.findChannel request.src_frame
  have hother : ∀ ptr ∈ request.src_reproc_frame.toList.flatMap s.releaseSuperBuf, s.Fine ptr := by
    intro ptr hptr
    obtain ⟨frame, -, hptr⟩ := List.mem_flatMap.mp hptr
    exact h.findChannel frame ptr hptr
  intro ptr hptr
  unfold PostProc.submit at hptr
  split at hptr
  · cases hptr
  · obtain hptr | hptr := List.mem_append.mp hptr
    · exact hframe ptr hptr
    · exact (List.mem_append.mp hptr).elim (hframe ptr) (hother ptr)
  · exact hframe ptr hptr
  · obtain hptr | hptr := List.mem_append.mp hptr
    · exact hframe ptr hptr
    · refine (List.mem_append.mp hptr).elim (fun hmem => ?_) (hother ptr)
      split_ifs at hmem
      · cases hmem
      · exact hframe ptr hmem
  · rename_i c hsubmitted hc
    obtain hptr | hptr := List.mem_append.mp hptr
    · exact hframe ptr hptr
    · rw [List.mem_singleton.mp hptr, ← hc]
      obtain hlt | hnone := hcond hsubmitted
      · exact h.fine hlt (by rw [hc]; nofun)
      · cases hnone.symm.trans hc

theorem Sound.doReprocess (h : s.Sound s.mTotalNumReproc) {request : Request}
    (hcond : s.RequestCond request) : ∀ ptr ∈ s.doReprocess request, s.Fine ptr := by
  obtain ⟨hvalidated, hvalid⟩ := hcond
  intro ptr hptr
  obtain hptr | hptr := List.mem_append.mp hptr
  · obtain ⟨i, hi, rfl⟩ := List.mem_map.mp hptr
    exact h.fine (List.mem_range.mp (mem_upTo hi)) (hvalidated i hi)
  · split_ifs at hptr with hok
    · obtain ⟨hsearched, hsubmit⟩ := hvalid hok
      obtain hptr | hptr := List.mem_append.mp hptr
      · obtain ⟨i, hi, rfl⟩ := List.mem_map.mp hptr
        exact h.fine (List.mem_range.mp (mem_upTo hi)) (hsearched i hi)
      · exact h.submit hsubmit ptr hptr
    · cases hptr

theorem Sound.doReprocess_bad (h : s.Sound s.mTotalNumReproc) {request : Request}
    (hcond : ¬ s.RequestCond request) :
    ∃ ptr ∈ s.doReprocess request, ∀ c, ptr = some c → 0 < (s.channels c).deletes := by
  have hnull : ∀ ptr : Option Nat, ptr = none →
      ∀ c, ptr = some c → 0 < (s.channels c).deletes := by
    rintro ptr rfl c hc
    cases hc
  unfold PostProc.doReprocess
  by_cases hvalidated : ∀ i ∈ s.validated request.src_frame, s.mPPChannels i ≠ none
  swap
  · push Not at hvalidated
    obtain ⟨i, hi, hnone⟩ := hvalidated
    exact ⟨_, List.mem_append_left _ (List.mem_map_of_mem hi), hnull _ hnone⟩
  by_cases hvalid : request.valid = true
  swap
  · exact absurd ⟨hvalidated, fun h => absurd h hvalid⟩ hcond
  rw [if_pos hvalid]
  by_cases hsearched : ∀ i ∈ s.searched request, s.mPPChannels i ≠ none
  swap
  · push Not at hsearched
    obtain ⟨i, hi, hnone⟩ := hsearched
    exact ⟨_, List.mem_append_right _ (List.mem_append_left _ (List.mem_map_of_mem hi)),
      hnull _ hnone⟩
  have hsubmit : ¬ (request.submission = .submitted →
      request.reprocCount < s.mTotalNumReproc ∨ s.mPPChannels request.reprocCount = none) :=
    fun hsub => hcond ⟨hvalidated, fun _ => ⟨hsearched, hsub⟩⟩
  push Not at hsubmit
  obtain ⟨hsubmitted, hge, hptr⟩ := hsubmit
  obtain ⟨c, hc⟩ := Option.ne_none_iff_exists'.mp hptr
  refine ⟨some c, List.mem_append_right _ (List.mem_append_right _ ?_), fun d hd => ?_⟩
  · simp [PostProc.submit, hsubmitted, hc]
  · rw [← Option.some.inj hd]
    exact h.dangling hge hc

theorem Sound.doNextJob (h : s.Sound s.mTotalNumReproc) (job : NextJob) :
    ((s.isActive = true → ∀ request ∈ job.request, s.RequestCond request) →
      s.doNextJob job = s) ∧
    (¬ (s.isActive = true → ∀ request ∈ job.request, s.RequestCond request) →
      (s.doNextJob job).Bad) := by
  unfold PostProc.doNextJob
  split_ifs with hactive
  · constructor
    · intro hcond
      refine use_eq fun ptr hptr => ?_
      simp only [List.mem_append, List.mem_flatMap, Option.mem_toList] at hptr
      obtain (⟨jpeg, -, hptr⟩ | ⟨raw, -, hptr⟩) | ⟨request, hrequest, hptr⟩ := hptr
      · exact h.encode jpeg ptr hptr
      · exact h.processRawImage raw ptr hptr
      · exact h.doReprocess (hcond hactive request hrequest) ptr hptr
    · intro hnot
      push Not at hnot
      obtain ⟨-, request, hrequest, hbad⟩ := hnot
      obtain ⟨ptr, hptr, hbad⟩ := h.doReprocess_bad hbad
      refine .inl (wild_use (List.mem_append_right _ ?_) hbad)
      exact List.mem_flatMap.mpr ⟨request, Option.mem_toList.mpr hrequest, hptr⟩
  · refine ⟨fun _ => use_eq fun ptr hptr => ?_, fun hnot => absurd (fun h => absurd h hactive) hnot⟩
    simp only [List.mem_append, List.mem_flatMap, Option.mem_toList] at hptr
    obtain (⟨jpeg, -, hptr⟩ | ⟨raw, -, hptr⟩) | ⟨frame, -, hptr⟩ := hptr
    · exact h.releaseJpegJobData jpeg ptr hptr
    · exact h.findChannel _ ptr hptr
    · exact h.findChannel _ ptr hptr

theorem Sound.stop (h : s.Sound s.mTotalNumReproc) (released : List Frame) :
    (s.stop released).Sound (s.stop released).mTotalNumReproc := by
  have huse : s.use (released.flatMap s.releaseSuperBuf) = s := use_eq fun ptr hptr => by
    obtain ⟨frame, -, hptr⟩ := List.mem_flatMap.mp hptr
    exact h.findChannel frame ptr hptr
  unfold PostProc.stop
  rw [huse]
  split_ifs
  · exact Sound.destroy (s := { s with isActive := false })
      ⟨h.wild, h.bound, h.inj, h.live, h.gone⟩
  · exact h.destroy

/-! ## Runs -/

theorem Sound.exec (h : s.Sound s.mTotalNumReproc) (op : Op) :
    (s.Cond op → (s.exec op).Sound (s.exec op).mTotalNumReproc) ∧
      (¬ s.Cond op → (s.exec op).Bad) := by
  cases op with
  | start p => exact Sound.start h
  | stop released => exact ⟨fun _ => h.stop released, fun hnot => absurd trivial hnot⟩
  | doNextJob job =>
    obtain ⟨hfine, hbad⟩ := h.doNextJob job
    refine ⟨fun hcond => ?_, hbad⟩
    show (s.doNextJob job).Sound (s.doNextJob job).mTotalNumReproc
    rwa [hfine hcond]
  | destroy => exact ⟨fun _ => h.destroy, fun hnot => absurd trivial hnot⟩

theorem Bad.deleteAll (h : s.Bad) :
    (PostProc.deleteAll (List.range s.mTotalNumReproc) s).wild = true := by
  obtain h | ⟨i, hi, c, hc, hdeleted⟩ := h
  · exact wild_deleteAll h
  · exact wild_deleteAll_of_deleted (List.mem_range.mpr hi) hc hdeleted

theorem Bad.use (h : s.Bad) (ptrs : List (Option Nat)) : (s.use ptrs).Bad :=
  h.imp (fun hwild => Bool.or_eq_true _ _ ▸ .inl hwild) id

theorem Bad.createSession (h : s.Bad) (p : StartParams) :
    (PostProc.createSession { s with isActive := true } p).Bad := by
  have hactive : Bad { s with isActive := true } := h
  unfold PostProc.createSession
  split_ifs
  · exact hactive.use _
  · exact hactive

theorem Bad.start (h : s.Bad) (p : StartParams) : (s.start p).Bad := by
  unfold PostProc.start
  split_ifs
  · split
    · exact h
    · have hrestart : (s.restart p ‹_›).2.wild = true := wild_addAll h.deleteAll
      split
      · rename_i hresult
        rw [hresult] at hrestart
        exact .inl hrestart
      · rename_i s' hresult
        rw [hresult] at hrestart
        exact Bad.createSession (s := s') (.inl hrestart) p
  · split
    · exact h
    · exact Bad.createSession h p
  · exact h

theorem Bad.exec (h : s.Bad) (op : Op) : (s.exec op).Bad := by
  cases op with
  | start p => exact h.start p
  | stop released =>
    refine .inl (Bad.deleteAll ?_)
    split_ifs
    · exact h.use _
    · exact h
  | doNextJob job =>
    show (s.doNextJob job).Bad
    unfold PostProc.doNextJob
    split_ifs
    · exact h.use _
    · exact h.use _
  | destroy => exact .inl h.deleteAll

theorem Bad.foldl (h : s.Bad) (ops : List Op) : (ops.foldl PostProc.exec s).Bad := by
  induction ops generalizing s with
  | nil => exact h
  | cons op ops ih => exact ih (h.exec op)

theorem released_destroy_iff (h : s.Sound s.mTotalNumReproc) (ops : List Op) :
    (ops.foldl PostProc.exec s).destroy.Released ↔ System.Along Cond PostProc.exec ops s := by
  induction ops generalizing s with
  | nil => exact iff_of_true h.released trivial
  | cons op ops ih =>
    obtain ⟨hsound, hbad⟩ := h.exec op
    by_cases hcond : s.Cond op
    · exact (ih (hsound hcond)).trans (and_iff_right hcond).symm
    · refine iff_of_false (fun hreleased => ?_) fun halong => hcond halong.1
      have hwild : (ops.foldl PostProc.exec (s.exec op)).destroy.wild = true :=
        ((hbad hcond).foldl ops).deleteAll
      exact Bool.false_ne_true (hreleased.wild.symm.trans hwild)

theorem Sound.new (m_bInited : Bool) : Sound 0 { m_bInited } where
  wild := rfl
  bound _ _ h := by cases h
  inj _ _ _ h := by cases h
  live _ h := absurd h (Nat.not_lt_zero _)
  gone _ h := absurd h (Nat.not_lt_zero _)

/-- Behind the destructor all channels are gone, and no bad pointer was used on the way, exactly in
the runs whose steps all meet the condition. -/
theorem released_iff_along (m_bInited : Bool) (ops : List Op) :
    (ops.foldl PostProc.exec { m_bInited }).destroy.Released ↔
      System.Along Cond PostProc.exec ops { m_bInited } :=
  released_destroy_iff (Sound.new m_bInited) ops

/-- Two channels are made and stopped, and then the first one cannot be made. -/
theorem not_released : ¬ ∀ (m_bInited : Bool) (ops : List Op),
    (ops.foldl PostProc.exec { m_bInited }).destroy.Released := by
  intro h
  have hwild := (h true
    [.start ⟨some 0, true, true, 2, fun i => .started i, false⟩, .stop [],
      .start ⟨some 0, true, true, 2, fun _ => .notAdded, false⟩]).wild
  revert hwild
  decide +kernel

end PostProc

end EtherDevice.Hal1.ReprocChannels
