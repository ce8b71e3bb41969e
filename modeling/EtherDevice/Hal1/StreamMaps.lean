import Mathlib
import EtherDevice.Lib.Register
import EtherDevice.Lib.Transition

/-!
# The buffers that `QCameraStream` maps

A `QCameraStream` maps its buffers at the backend by type and index. `init` maps the stream
information and a miscellaneous buffer, the functions that allocate map the stream buffers and, in
batch mode, the containers of these, and those that release take them out again. With
`mDynBufAlloc` only the first buffers are mapped at once, the others by `BufAllocRoutine`.

What a run of maps answers is given for each index. The backend takes every buffer out that it
has, so what is wrong here is a request for one that it does not have, or none for one it has.
-/

namespace EtherDevice.Hal1.StreamMaps

open Lib

inductive BufType
  | streamInfo | miscBuf | streamBuf | streamUserBuf
  deriving DecidableEq, Repr

/-- What is mapped, and the requests to unmap what was not. -/
abbrev Maps := Register (BufType × Nat)

def noError : Int := 0
def noMemory : Int := -12
def invalidOperation : Int := -38
def badIndex : Int := -75
def unknownError : Int := -2147483648

def minAllocatedBuffers : Nat := 3

/-- What `getSize` and the map call answer. No size stands for `BAD_INDEX`. -/
structure Answers where
  size : Nat → Bool
  map : Nat → Int

/-- The answers of `mapBuf`, which asks for the sizes again where it cleans up. -/
structure MapAnswers extends Answers where
  sizeAgain : Nat → Bool

inductive MapEnd
  | done (rc : Int)
  | noMap (i : Nat) (rc : Int)
  | noSize (i : Nat)
  deriving DecidableEq, Repr

def below (type : BufType) (n : Nat) : List (BufType × Nat) := (List.range n).map (type, ·)

def unmapBelow (type : BufType) (n : Nat) (m : Maps) : Maps := m.removeAll (below type n)

def mapLoop (type : BufType) (a : Answers) : Nat → Nat → Int → Maps → MapEnd × Maps
  | _, 0, rc, m => (.done rc, m)
  | i, n + 1, _, m =>
    if a.size i then
      if a.map i < 0 then (.noMap i (a.map i), m)
      else mapLoop type a (i + 1) n (a.map i) (m.enter (type, i))
    else (.noSize i, m)

/-- From `err1` of `mapBuf` on. The code of the failure is lost, if there is a buffer to unmap. -/
def unmapBack (type : BufType) (sizeAgain : Nat → Bool) : Nat → Int → Maps → Int × Maps
  | 0, rc, m => (rc, m)
  | i + 1, _, m =>
    if sizeAgain i then unmapBack type sizeAgain i noError (m.remove (type, i))
    else unmapBack type sizeAgain i badIndex m

def mapBuf (type : BufType) (cnt : Nat) (a : MapAnswers) (m : Maps) : Int × Maps :=
  match mapLoop type a.toAnswers 0 cnt noError m with
  | (.done rc, m) => (rc, m)
  | (.noMap i rc, m) => unmapBack type a.sizeAgain i rc m
  | (.noSize i, m) => unmapBack type a.sizeAgain i badIndex m

inductive AllocThread
  | none | running | exited
  deriving DecidableEq, Repr

structure Stream where
  /-- `streaming_mode` of `mStreamInfo` is `CAM_STREAMING_MODE_BATCH`. -/
  batch : Bool
  /-- `user_buf_info.frame_buf_cnt` of `mStreamInfo` -/
  frame_buf_cnt : Nat
  mDefferedAllocation : Bool
  mHandle : Nat := 0
  mNumBufs : Nat := 0
  mNumPlaneBufs : Nat := 0
  mNumBufsNeedAlloc : Nat := 0
  mDynBufAlloc : Bool := false
  /-- `mBufDefs` is not `NULL`. -/
  mBufDefs : Bool := false
  mPlaneBufDefs : Bool := false
  mStreamBatchBufs : Option Nat := none
  mBufAllocPid : AllocThread := .none
  wait_for_cond : Bool := false
  maps : Maps := {}

structure InfoBuf where
  cnt : Nat
  answers : MapAnswers

structure InitArgs where
  add_stream : Nat
  streamInfoBuf : InfoBuf
  miscBuf : Option InfoBuf
  minNumBuffers : Nat
  bDynallocBuf : Bool
  calcOffset : Int
  configStream : Int

structure AllocAnswers where
  ops_tbl : Bool
  allocateStreamUserBuf : Option Nat
  mapUserBuf : Nat → Int
  allocateStreamBuf : Bool
  buf : Answers
  regFlags : Bool
  bufDefs : Bool
  planeBufDefs : Bool
  getRegFlags : Int

/-- The size of a batch buffer is not asked for. -/
def AllocAnswers.userBuf (a : AllocAnswers) : Answers := ⟨fun _ => true, a.mapUserBuf⟩

namespace Stream

variable (s : Stream)

def initFailed (rc : Int) : Int × Stream := (rc, { s with mHandle := 0, mNumBufs := 0 })

def initConfig (a : InitArgs) : Int × Stream :=
  let rc := if s.mDefferedAllocation then a.calcOffset else a.configStream
  if rc < 0 then s.initFailed rc else (noError, { s with mDynBufAlloc := a.bDynallocBuf })

def initMisc (a : InitArgs) : Int × Stream :=
  match a.miscBuf with
  | none => s.initConfig a
  | some misc =>
    match mapBuf .miscBuf misc.cnt misc.answers s.maps with
    | (rc, m) =>
      if rc < 0 then { s with maps := m }.initFailed rc else { s with maps := m }.initConfig a

/-- The stream before the first `mapBuf` of `init`. -/
def added (a : InitArgs) : Stream :=
  { s with mHandle := a.add_stream, mNumBufs := a.minNumBuffers }

def init (a : InitArgs) : Int × Stream :=
  if a.add_stream = 0 then (unknownError, { s with mHandle := 0 })
  else
    match mapBuf .streamInfo a.streamInfoBuf.cnt a.streamInfoBuf.answers s.maps with
    | (rc, m) =>
      if rc < 0 then { s.added a with maps := m }.initFailed rc
      else { s.added a with maps := m }.initMisc a

def splitAlloc : Nat × Stream :=
  if s.mDynBufAlloc then
    if s.mNumBufs < minAllocatedBuffers then
      (s.mNumBufs, { s with mNumBufsNeedAlloc := 0, mDynBufAlloc := false })
    else (minAllocatedBuffers, { s with mNumBufsNeedAlloc := s.mNumBufs - minAllocatedBuffers })
  else (s.mNumBufs, { s with mNumBufsNeedAlloc := 0 })

def makeBufDefs (n : Nat) (a : AllocAnswers) : Int × Stream :=
  let unmapped := { s with maps := unmapBelow .streamBuf n s.maps, mBufDefs := false }
  if !a.regFlags then (noMemory, { unmapped with mBufDefs := s.mBufDefs })
  else if !a.bufDefs then (invalidOperation, unmapped)
  else if a.getRegFlags < 0 then (invalidOperation, unmapped)
  else (noError, { s with mBufDefs := true })

def startAllocThread : Int × Stream → Int × Stream
  | (rc, s) =>
    if rc = noError ∧ 0 < s.mNumBufsNeedAlloc then
      (rc, { s with wait_for_cond := true, mBufAllocPid := .running })
    else (rc, s)

def getBufs (a : AllocAnswers) : Int × Stream :=
  if !a.ops_tbl then (invalidOperation, s)
  else
    match s.splitAlloc with
    | (numBufAlloc, s) =>
      if !a.allocateStreamBuf then (noMemory, s)
      else
        let s := { s with mNumBufs := numBufAlloc + s.mNumBufsNeedAlloc }
        match mapLoop .streamBuf a.buf 0 numBufAlloc noError s.maps with
        | (.noMap i _, m) => (invalidOperation, { s with maps := unmapBelow .streamBuf i m })
        -- no clean-up here
        | (.noSize _, m) => (invalidOperation, { s with maps := m })
        | (.done _, m) => startAllocThread ({ s with maps := m }.makeBufDefs numBufAlloc a)

def batchFailed (cnt : Nat) (rc : Int) : Int × Stream :=
  (rc, { s with maps := unmapBelow .streamUserBuf cnt s.maps, mStreamBatchBufs := none })

def makePlaneBufDefs (cnt : Nat) (a : AllocAnswers) : Int × Stream :=
  let unmapped := { s with maps := unmapBelow .streamBuf s.mNumPlaneBufs s.maps }
  if !a.regFlags then unmapped.batchFailed cnt noMemory
  else if !a.bufDefs then { unmapped with mBufDefs := false }.batchFailed cnt invalidOperation
  else if !a.planeBufDefs then
    { unmapped with mBufDefs := false, mPlaneBufDefs := false }.batchFailed cnt invalidOperation
  else (noError, { s with mBufDefs := true, mPlaneBufDefs := true })

def allocatePlaneBufs (cnt : Nat) (a : AllocAnswers) : Int × Stream :=
  let s := { s with mNumPlaneBufs := s.mNumBufs * s.frame_buf_cnt % 2 ^ 8 }
  if !a.allocateStreamBuf then s.batchFailed cnt noMemory
  else
    match mapLoop .streamBuf a.buf 0 s.mNumPlaneBufs noError s.maps with
    | (.noMap i _, m) =>
      { s with maps := unmapBelow .streamBuf i m }.batchFailed cnt invalidOperation
    -- the stream buffers below stay mapped
    | (.noSize _, m) => { s with maps := m }.batchFailed cnt invalidOperation
    | (.done _, m) => { s with maps := m }.makePlaneBufDefs cnt a

def allocateBatchBufs (a : AllocAnswers) : Int × Stream :=
  match a.allocateStreamUserBuf with
  | none => (noMemory, { s with mStreamBatchBufs := none })
  | some cnt =>
    match mapLoop .streamUserBuf a.userBuf 0 cnt noError s.maps with
    | (.done _, m) => { s with maps := m, mStreamBatchBufs := some cnt }.allocatePlaneBufs cnt a
    | (.noMap i _, m) => { s with maps := m }.batchFailed i noMemory
    | (.noSize i, m) => { s with maps := m }.batchFailed i noMemory

/-- `get_bufs` of the table of a stream that is not deferred -/
def get_bufs (a : AllocAnswers) : Int × Stream :=
  if s.batch then s.allocateBatchBufs a else s.getBufs a

def allocateBuffers (a : AllocAnswers) : Int × Stream :=
  if s.batch then s.allocateBatchBufs a
  else if !a.allocateStreamBuf then (noMemory, s)
  else
    match mapLoop .streamBuf a.buf 0 s.mNumBufs noError s.maps with
    | (.noMap i _, m) => (invalidOperation, { s with maps := unmapBelow .streamBuf i m })
    | (.noSize i, m) => (invalidOperation, { s with maps := unmapBelow .streamBuf i m })
    | (.done _, m) => { s with maps := m }.makeBufDefs s.mNumBufs a

def cond_signal (forceExit : Bool) : Stream :=
  if s.wait_for_cond then
    { s with
      wait_for_cond := false
      mNumBufsNeedAlloc := if forceExit then 0 else s.mNumBufsNeedAlloc }
  else s

def bufAllocRoutine (allocateMore : Bool) (a : Answers) : Stream :=
  if 0 < s.mNumBufsNeedAlloc ∧ allocateMore = true then
    let numBufAlloc := s.mNumBufs - s.mNumBufsNeedAlloc
    let mapped := (List.range' numBufAlloc s.mNumBufsNeedAlloc).filter fun i =>
      a.size i && decide (0 ≤ a.map i)
    { s with
      maps := s.maps.enterAll (mapped.map (.streamBuf, ·))
      mNumBufsNeedAlloc := 0
      mBufAllocPid := .exited }
  else { s with mBufAllocPid := .exited }

def releaseBatchBufs : Stream :=
  let s := if s.mPlaneBufDefs then
      { s with
        maps := unmapBelow .streamBuf s.mNumPlaneBufs s.maps
        mPlaneBufDefs := false
        mNumPlaneBufs := 0 }
    else s
  match s.mStreamBatchBufs with
  | none => { s with mBufDefs := false }
  | some cnt =>
    { s with
      maps := unmapBelow .streamUserBuf cnt s.maps
      mBufDefs := false
      mStreamBatchBufs := none }

/-- The join of `releaseBuffs`: a thread that was not woken yet has nothing to do any more. -/
def joinForced : Stream :=
  if s.mBufAllocPid = .none then s else { s.cond_signal true with mBufAllocPid := .none }

def releaseBuffs : Stream :=
  let s := s.joinForced
  if s.batch then s.releaseBatchBufs
  else if s.mBufDefs then
    { s with maps := unmapBelow .streamBuf s.mNumBufs s.maps, mBufDefs := false }
  else s

def putBufs : Stream :=
  { s with
    maps := unmapBelow .streamBuf s.mNumBufs s.maps
    mBufDefs := false
    mBufAllocPid := .none }

def put_bufs : Stream := if s.batch then s.releaseBatchBufs else s.putBufs

end Stream

section Rows

variable {type : BufType} {a : Answers} {n : Nat} {m : Maps}

/-- The first buffers all have a size and can be mapped. -/
def Answers.Good (a : Answers) (n : Nat) : Prop := ∀ i < n, a.size i = true ∧ 0 ≤ a.map i

theorem Answers.Good.mono {n' : Nat} (h : a.Good n) (hle : n' ≤ n) : a.Good n' :=
  fun i hi => h i (hi.trans_le hle)

theorem Answers.pos_of_not_good (h : ¬ a.Good n) : 0 < n :=
  Nat.pos_of_ne_zero fun hzero => h fun i hi => absurd (hzero ▸ hi) (Nat.not_lt_zero i)

theorem Answers.Good.succ (h : a.Good n) (hsize : a.size n = true) (hmap : 0 ≤ a.map n) :
    a.Good (n + 1) := by
  intro i hi
  rcases Nat.lt_succ_iff_lt_or_eq.mp hi with hlt | rfl
  · exact h i hlt
  · exact ⟨hsize, hmap⟩

theorem mem_below {p : BufType × Nat} : p ∈ below type n ↔ p.1 = type ∧ p.2 < n := by
  grind [below]

theorem nodup_below : (below type n).Nodup :=
  List.nodup_range.map fun _ _ h => (Prod.mk.inj h).2

theorem below_succ : below type (n + 1) = below type n ++ [(type, n)] := by
  rw [below, List.range_succ, List.map_append]
  rfl

theorem unmapBelow_enterAll (hnew : ∀ i, (type, i) ∉ m.keys) :
    unmapBelow type n (m.enterAll (below type n)) = m :=
  Register.removeAll_enterAll nodup_below fun p hp hmem =>
    hnew p.2 ((mem_below.mp hp).1 ▸ hmem)

inductive MapRun (type : BufType) (a : Answers) (n : Nat) (m : Maps) : MapEnd × Maps → Prop
  | done (rc : Int) : 0 ≤ rc → a.Good n → MapRun type a n m (.done rc, m.enterAll (below type n))
  | noMap (i : Nat) : i < n → a.Good i → a.map i < 0 →
    MapRun type a n m (.noMap i (a.map i), m.enterAll (below type i))
  | noSize (i : Nat) : i < n → a.Good i → a.size i = false →
    MapRun type a n m (.noSize i, m.enterAll (below type i))

theorem mapLoop_from (type : BufType) (m : Maps) (i left : Nat) {rc : Int} (hrc : 0 ≤ rc)
    (hi : a.Good i) :
    MapRun type a (i + left) m (mapLoop type a i left rc (m.enterAll (below type i))) := by
  induction left generalizing i rc with
  | zero => exact .done rc hrc hi
  | succ left ih =>
    have hlt : i < i + (left + 1) := by omega
    unfold mapLoop
    split
    · rename_i hsize
      split
      · rename_i hmap
        exact .noMap i hlt hi hmap
      · rename_i hmap
        have hmap := not_lt.mp hmap
        have hnext := ih (i + 1) hmap (hi.succ hsize hmap)
        rw [below_succ, Register.enterAll_concat] at hnext
        rwa [show i + 1 + left = i + (left + 1) by omega] at hnext
    · rename_i hsize
      exact .noSize i hlt hi (Bool.eq_false_of_not_eq_true hsize)

theorem mapLoop_run (type : BufType) (a : Answers) (n : Nat) (m : Maps) :
    MapRun type a n m (mapLoop type a 0 n noError m) := by
  have h := mapLoop_from type m 0 n (le_refl noError)
    (fun i hi => absurd hi (Nat.not_lt_zero i) : a.Good 0)
  rwa [Nat.zero_add] at h

theorem mem_unmapBack (sizeAgain : Nat → Bool) (i : Nat) (rc : Int) (p : BufType × Nat) :
    p ∈ (unmapBack type sizeAgain i rc m).2.keys ↔
      p ∈ m.keys ∧ ¬ (p.1 = type ∧ p.2 < i ∧ sizeAgain p.2 = true) := by
  induction i generalizing rc m with
  | zero =>
    refine (and_iff_left ?_).symm
    exact fun h => absurd h.2.1 (Nat.not_lt_zero _)
  | succ i ih =>
    unfold unmapBack
    split
    · rename_i hsize
      rw [ih, Register.keys_remove, Finset.mem_erase, Ne, Prod.mk.injEq]
      grind
    · rename_i hsize
      rw [ih]
      refine and_congr_right fun _ => not_congr (and_congr_right fun _ => ?_)
      grind

theorem unmapBack_rc (sizeAgain : Nat → Bool) (i : Nat) (rc : Int) :
    (unmapBack type sizeAgain (i + 1) rc m).1 =
      if sizeAgain 0 = true then noError else badIndex := by
  induction i generalizing rc m with
  | zero =>
    unfold unmapBack unmapBack
    split <;> rfl
  | succ i ih =>
    unfold unmapBack
    split
    · exact ih _
    · exact ih _

end Rows

section MapBuf

variable {type : BufType} {cnt : Nat} {a : MapAnswers} {m : Maps}

/-- `mapBuf` reports success where all buffers are mapped, and leaves none where it does not. -/
structure MapsExactly (type : BufType) (cnt : Nat) (a : MapAnswers) (m : Maps) : Prop where
  success : 0 ≤ (mapBuf type cnt a m).1 ↔ ∀ i < cnt, (type, i) ∈ (mapBuf type cnt a m).2.keys
  failure : (mapBuf type cnt a m).1 < 0 → ∀ i < cnt, (type, i) ∉ (mapBuf type cnt a m).2.keys

theorem mapBuf_good (type : BufType) (m : Maps) (h : a.Good cnt) :
    ∃ rc, 0 ≤ rc ∧ mapBuf type cnt a m = (rc, m.enterAll (below type cnt)) := by
  unfold mapBuf
  have hrun := mapLoop_run type a.toAnswers cnt m
  generalize mapLoop type a.toAnswers 0 cnt noError m = r at hrun ⊢
  cases hrun with
  | done rc hrc _ => exact ⟨rc, hrc, rfl⟩
  | noMap i hi _ hmap => exact absurd (h i hi).2 (not_le.mpr hmap)
  | noSize i hi _ hsize => exact absurd (h i hi).1 (Bool.eq_false_iff.mp hsize)

theorem mapBuf_first (type : BufType) (m : Maps) (hcnt : 0 < cnt) (h : ¬ a.Good 1) :
    ∃ rc, rc < 0 ∧ mapBuf type cnt a m = (rc, m) := by
  unfold mapBuf
  have hzero : ∀ i, a.Good i → i = 0 := fun i hi =>
    Nat.eq_zero_of_not_pos fun hpos => h (hi.mono hpos)
  have hrun := mapLoop_run type a.toAnswers cnt m
  generalize mapLoop type a.toAnswers 0 cnt noError m = r at hrun ⊢
  cases hrun with
  | done rc _ hall => exact absurd (hall.mono hcnt) h
  | noMap i _ hi hmap =>
    obtain rfl := hzero i hi
    exact ⟨_, hmap, rfl⟩
  | noSize i _ hi _ =>
    obtain rfl := hzero i hi
    exact ⟨badIndex, by decide, rfl⟩

theorem not_mapsExactly {i : Nat} {rc : Int} {r : Int × Maps} (hi : i + 1 < cnt)
    (hr : r = unmapBack type a.sizeAgain (i + 1) rc (m.enterAll (below type (i + 1)))) :
    ¬ ((0 ≤ r.1 ↔ ∀ i < cnt, (type, i) ∈ r.2.keys) ∧
      (r.1 < 0 → ∀ i < cnt, (type, i) ∉ r.2.keys)) := by
  rintro ⟨hsuccess, hfailure⟩
  have hrc : r.1 = if a.sizeAgain 0 = true then noError else badIndex :=
    hr ▸ unmapBack_rc a.sizeAgain i rc
  have hmem : ∀ j, (type, j) ∈ r.2.keys ↔ _ := fun j =>
    hr ▸ mem_unmapBack a.sizeAgain (i + 1) rc (type, j)
  split at hrc
  · grind [noError]
  · rename_i hagain
    have hnone := hfailure (hrc ▸ (by decide : badIndex < 0)) 0 (Nat.zero_lt_of_lt hi)
    have hbelow : (type, 0) ∈ below type (i + 1) := mem_below.mpr ⟨rfl, Nat.succ_pos i⟩
    exact hnone ((hmem 0).mpr ⟨Register.mem_enterAll.mpr (.inr hbelow), fun h => hagain h.2.2⟩)

theorem mapsExactly_iff (hnew : ∀ i, (type, i) ∉ m.keys) :
    MapsExactly type cnt a m ↔ a.Good cnt ∨ ¬ a.Good 1 := by
  constructor
  · intro h
    have hboth := And.intro h.success h.failure
    unfold mapBuf at hboth
    have hrun := mapLoop_run type a.toAnswers cnt m
    generalize mapLoop type a.toAnswers 0 cnt noError m = r at hrun hboth
    cases hrun with
    | done rc _ hall => exact .inl hall
    | noMap i hi _ hmap =>
      cases i with
      | zero => exact .inr fun hgood => absurd (hgood 0 Nat.one_pos).2 (not_le.mpr hmap)
      | succ i => exact absurd hboth (not_mapsExactly hi rfl)
    | noSize i hi _ hsize =>
      cases i with
      | zero => exact .inr fun hgood => Bool.eq_false_iff.mp hsize (hgood 0 Nat.one_pos).1
      | succ i => exact absurd hboth (not_mapsExactly hi rfl)
  · intro h
    by_cases hgood : a.Good cnt
    · obtain ⟨rc, hrc, heq⟩ := mapBuf_good type m hgood
      constructor
      · rw [heq]
        exact iff_of_true hrc fun i hi =>
          Register.mem_enterAll.mpr (.inr (mem_below.mpr ⟨rfl, hi⟩))
      simp [heq, hrc]
    · have hfirst : ¬ a.Good 1 := h.resolve_left hgood
      have hcnt : 0 < cnt := Answers.pos_of_not_good hgood
      obtain ⟨rc, hrc, heq⟩ := mapBuf_first type m hcnt hfirst
      constructor
      · rw [heq]
        exact iff_of_false (not_le.mpr hrc) fun hall => hnew 0 (hall 0 hcnt)
      simp_all

end MapBuf

end EtherDevice.Hal1.StreamMaps
