import Mathlib
import EtherDevice.Hal1.StreamMaps

/-!
# Maps and unmaps of a stream in balance

A run of a `QCameraStream` is balanced if each step keeps its book with the backend: what fails
leaves no map behind, nothing is unmapped that is not mapped, and what releases leaves none of the
stream and container buffers. Four kinds of step do not: a `mapBuf` of `init` that fails behind
another map, a size query that fails where the loop does not clean up, a `BufAllocRoutine` that
does not bring all buffers, and a `releaseBuffs` that is faster than it.
-/

namespace EtherDevice.Hal1.StreamMaps

open Lib

inductive Op
  | init (a : InitArgs)
  | get_bufs (a : AllocAnswers)
  | put_bufs
  | allocateBuffers (a : AllocAnswers)
  | releaseBuffs
  | cond_signal
  | bufAllocRoutine (allocateMore : Bool) (a : Answers)

namespace Stream

variable (s : Stream)

/-- What a step reports, and the stream after it. No request to unmap fails. -/
def exec : Op → Int × Stream
  | .init a => s.init a
  | .get_bufs a => s.get_bufs a
  | .put_bufs => (noError, s.put_bufs)
  | .allocateBuffers a => s.allocateBuffers a
  | .releaseBuffs => (noError, s.releaseBuffs)
  | .cond_signal => (noError, s.cond_signal false)
  | .bufAllocRoutine allocateMore a => (noError, s.bufAllocRoutine allocateMore a)

def next (op : Op) : Stream := (s.exec op).2

/-- The order in which the channel and `mm_stream_init_bufs` call. The thread waits for its signal,
and a join for the end of the thread. -/
def Legal : Op → Prop
  | .init _ => s.mHandle = 0
  | .get_bufs _ | .allocateBuffers _ => s.mHandle ≠ 0 ∧ s.mBufDefs = false
  | .put_bufs => s.mBufDefs = true ∧ s.mBufAllocPid ≠ .running
  | .releaseBuffs => s.mHandle ≠ 0 ∧ (s.mBufAllocPid = .running → s.wait_for_cond = true)
  | .cond_signal => True
  | .bufAllocRoutine _ _ => s.mBufAllocPid = .running ∧ s.wait_for_cond = false

instance : ∀ op, Decidable (s.Legal op)
  | .init _ => inferInstanceAs (Decidable (s.mHandle = 0))
  | .get_bufs _ | .allocateBuffers _ =>
    inferInstanceAs (Decidable (s.mHandle ≠ 0 ∧ s.mBufDefs = false))
  | .put_bufs => inferInstanceAs (Decidable (s.mBufDefs = true ∧ s.mBufAllocPid ≠ .running))
  | .releaseBuffs => inferInstanceAs
      (Decidable (s.mHandle ≠ 0 ∧ (s.mBufAllocPid = .running → s.wait_for_cond = true)))
  | .cond_signal => inferInstanceAs (Decidable True)
  | .bufAllocRoutine _ _ => inferInstanceAs
      (Decidable (s.mBufAllocPid = .running ∧ s.wait_for_cond = false))

structure Fresh : Prop where
  mHandle : s.mHandle = 0
  mBufDefs : s.mBufDefs = false
  mPlaneBufDefs : s.mPlaneBufDefs = false
  mStreamBatchBufs : s.mStreamBatchBufs = none
  mBufAllocPid : s.mBufAllocPid = .none
  keys : s.maps.keys = ∅

end Stream

/-! ## What goes wrong -/

/-- The size query fails for the first buffer only, or behind a map that failed. -/
def Answers.SizesKnown (a : Answers) (n : Nat) : Prop :=
  ∀ i, 0 < i → i < n → a.Good i → a.size i = true

theorem Answers.SizesKnown.zero {a : Answers} {n i : Nat} (h : a.SizesKnown n) (hi : i < n)
    (hgood : a.Good i) (hsize : a.size i = false) : i = 0 :=
  Nat.eq_zero_of_not_pos fun hpos => Bool.eq_false_iff.mp hsize (h i hpos hi hgood)

/-- What `init` meets does not fail behind a map that was made. -/
structure InitArgs.Tidy (a : InitArgs) (deffered : Bool) : Prop where
  info : a.streamInfoBuf.answers.Good a.streamInfoBuf.cnt ∨ ¬ a.streamInfoBuf.answers.Good 1
  misc : a.streamInfoBuf.answers.Good a.streamInfoBuf.cnt → ∀ misc ∈ a.miscBuf,
    misc.answers.Good misc.cnt ∨ a.streamInfoBuf.cnt = 0 ∧ ¬ misc.answers.Good 1
  config : a.streamInfoBuf.answers.Good a.streamInfoBuf.cnt →
    (∀ misc ∈ a.miscBuf, misc.answers.Good misc.cnt) →
    0 ≤ (if deffered then a.calcOffset else a.configStream) ∨
      a.streamInfoBuf.cnt = 0 ∧ ∀ misc ∈ a.miscBuf, misc.cnt = 0

namespace Stream

variable (s : Stream)

def bufCount (batch : Bool) : Nat :=
  if batch then s.mNumBufs * s.frame_buf_cnt % 2 ^ 8 else s.splitAlloc.1

def Cond : Op → Prop
  | .init a => a.add_stream ≠ 0 → a.Tidy s.mDefferedAllocation
  | .get_bufs a => a.allocateStreamBuf = true → a.buf.SizesKnown (s.bufCount s.batch)
  | .allocateBuffers a =>
    s.batch = true → a.allocateStreamBuf = true → a.buf.SizesKnown (s.bufCount true)
  | .bufAllocRoutine allocateMore a => 0 < s.mNumBufsNeedAlloc → allocateMore = true ∧
    ∀ i < s.mNumBufs, s.mNumBufs - s.mNumBufsNeedAlloc ≤ i → a.size i = true ∧ 0 ≤ a.map i
  | .releaseBuffs => s.mBufAllocPid ≠ .running
  | _ => True

structure InitMapsExactly (a : InitArgs) : Prop where
  info : MapsExactly .streamInfo a.streamInfoBuf.cnt a.streamInfoBuf.answers s.maps
  misc : ∀ rc m, mapBuf .streamInfo a.streamInfoBuf.cnt a.streamInfoBuf.answers s.maps = (rc, m) →
    0 ≤ rc → ∀ misc ∈ a.miscBuf, MapsExactly .miscBuf misc.cnt misc.answers m

end Stream

def Op.Releases : Op → Prop
  | .put_bufs | .releaseBuffs => True
  | _ => False

namespace Stream

variable {s : Stream}

structure Balanced (s : Stream) (op : Op) : Prop where
  mapBuf : ∀ a, op = .init a → a.add_stream ≠ 0 → s.InitMapsExactly a
  failed : (s.exec op).1 ≠ noError → (s.next op).maps.keys ⊆ s.maps.keys
  strays : (s.next op).maps.strays = s.maps.strays
  released : op.Releases → ∀ i,
    (.streamBuf, i) ∉ (s.next op).maps.keys ∧ (.streamUserBuf, i) ∉ (s.next op).maps.keys

def streamBufs (s : Stream) : Nat :=
  if s.mBufDefs = false then 0
  else if s.batch then s.mNumPlaneBufs
  else if s.mBufAllocPid = .running then s.mNumBufs - s.mNumBufsNeedAlloc
  else s.mNumBufs

structure Sound (s : Stream) : Prop where
  closed : s.mHandle = 0 → s.maps.keys = ∅ ∧ s.mBufDefs = false
  free : s.mBufDefs = false →
    s.mPlaneBufDefs = false ∧ s.mStreamBatchBufs = none ∧ s.mBufAllocPid = .none
  plain : s.batch = false → s.mPlaneBufDefs = false ∧ s.mStreamBatchBufs = none
  batch : s.batch = true → s.mPlaneBufDefs = s.mBufDefs ∧ s.mBufAllocPid = .none
  need : s.mBufAllocPid = .running → s.mNumBufsNeedAlloc ≤ s.mNumBufs
  streamBuf : ∀ i, (.streamBuf, i) ∈ s.maps.keys ↔ i < s.streamBufs
  userBuf : ∀ i, (.streamUserBuf, i) ∈ s.maps.keys ↔ i < s.mStreamBatchBufs.getD 0

structure Idle (s : Stream) : Prop where
  mBufDefs : s.mBufDefs = false
  mPlaneBufDefs : s.mPlaneBufDefs = false
  mStreamBatchBufs : s.mStreamBatchBufs = none
  mBufAllocPid : s.mBufAllocPid = .none
  streamBuf : ∀ i, (.streamBuf, i) ∉ s.maps.keys
  userBuf : ∀ i, (.streamUserBuf, i) ∉ s.maps.keys

theorem Idle.sound (h : s.Idle) (hclosed : s.mHandle = 0 → s.maps.keys = ∅) : s.Sound where
  closed hzero := ⟨hclosed hzero, h.mBufDefs⟩
  free _ := ⟨h.mPlaneBufDefs, h.mStreamBatchBufs, h.mBufAllocPid⟩
  plain _ := ⟨h.mPlaneBufDefs, h.mStreamBatchBufs⟩
  batch _ := ⟨h.mPlaneBufDefs.trans h.mBufDefs.symm, h.mBufAllocPid⟩
  need hrun := absurd (h.mBufAllocPid.symm.trans hrun) (by decide)
  streamBuf i := by
    simp [streamBufs, h.mBufDefs, h.streamBuf]
  userBuf i := by
    simp [h.mStreamBatchBufs, h.userBuf]

theorem Sound.idle (h : s.Sound) (hdefs : s.mBufDefs = false) : s.Idle where
  mBufDefs := hdefs
  mPlaneBufDefs := (h.free hdefs).1
  mStreamBatchBufs := (h.free hdefs).2.1
  mBufAllocPid := (h.free hdefs).2.2
  streamBuf i := by
    simp [streamBufs, h.streamBuf, hdefs]
  userBuf i := by
    simp [h.userBuf, h.free, hdefs]

theorem Fresh.sound (h : s.Fresh) : s.Sound := by
  refine Idle.sound (s := s) ⟨h.mBufDefs, h.mPlaneBufDefs, h.mStreamBatchBufs, h.mBufAllocPid,
    fun i => ?_, fun i => ?_⟩ fun _ => h.keys
  · simp [h.keys]
  simp [h.keys]

structure Answered (s : Stream) (r : Int × Stream) : Prop where
  sound : r.2.Sound
  strays : r.2.maps.strays = s.maps.strays
  failed : r.1 ≠ noError → r.2.maps.keys ⊆ s.maps.keys

/-! ## `init` -/

theorem Idle.enterAll (h : s.Idle) (type : BufType) (hstream : type ≠ .streamBuf)
    (huser : type ≠ .streamUserBuf) (n : Nat) :
    { s with maps := s.maps.enterAll (below type n) }.Idle where
  mBufDefs := h.mBufDefs
  mPlaneBufDefs := h.mPlaneBufDefs
  mStreamBatchBufs := h.mStreamBatchBufs
  mBufAllocPid := h.mBufAllocPid
  streamBuf i hmem := by
    rcases Register.mem_enterAll.mp hmem with hold | hbelow
    · exact h.streamBuf i hold
    · exact hstream (mem_below.mp hbelow).1.symm
  userBuf i hmem := by
    rcases Register.mem_enterAll.mp hmem with hold | hbelow
    · exact h.userBuf i hold
    · exact huser (mem_below.mp hbelow).1.symm

theorem Idle.initFailed (h : s.Idle) (hkeys : s.maps.keys = ∅) (rc : Int) :
    Answered s (s.initFailed rc) where
  sound :=
    Idle.sound (s := (s.initFailed rc).2) ⟨h.mBufDefs, h.mPlaneBufDefs, h.mStreamBatchBufs,
      h.mBufAllocPid, h.streamBuf, h.userBuf⟩ fun _ => hkeys
  strays := rfl
  failed _ := Finset.Subset.refl _

theorem Idle.initConfig (h : s.Idle) (hhandle : s.mHandle ≠ 0) {a : InitArgs}
    (hconfig : 0 ≤ (if s.mDefferedAllocation then a.calcOffset else a.configStream) ∨
      s.maps.keys = ∅) :
    Answered s (s.initConfig a) ∧ ((s.initConfig a).1 ≠ noError → s.maps.keys = ∅) := by
  unfold Stream.initConfig
  generalize (if s.mDefferedAllocation then a.calcOffset else a.configStream) = rc at hconfig ⊢
  dsimp only
  split
  · rename_i hneg
    simp [hconfig.resolve_left, hneg, h.initFailed]
  · refine ⟨⟨?_, rfl, fun hrc => absurd rfl hrc⟩, fun hrc => absurd rfl hrc⟩
    exact Idle.sound (s := { s with mDynBufAlloc := a.bDynallocBuf }) ⟨h.mBufDefs,
      h.mPlaneBufDefs, h.mStreamBatchBufs, h.mBufAllocPid, h.streamBuf, h.userBuf⟩
      fun hzero => absurd hzero hhandle

theorem enterAll_below_zero {m : Maps} {type : BufType} {cnt : Nat} (h : cnt = 0) :
    m.enterAll (below type cnt) = m := by
  rw [h]
  rfl

theorem Idle.initMisc (h : s.Idle) (hhandle : s.mHandle ≠ 0) {a : InitArgs}
    (hkeys : a.streamInfoBuf.cnt = 0 → s.maps.keys = ∅)
    (hgood : a.streamInfoBuf.answers.Good a.streamInfoBuf.cnt)
    (hcond : a.Tidy s.mDefferedAllocation) :
    (s.initMisc a).2.Sound ∧ (s.initMisc a).2.maps.strays = s.maps.strays ∧
      ((s.initMisc a).1 ≠ noError → (s.initMisc a).2.maps.keys = ∅) := by
  have hconfig := hcond.config hgood
  unfold Stream.initMisc
  cases hmisc : a.miscBuf with
  | none =>
    have hnone : 0 ≤ (if s.mDefferedAllocation then a.calcOffset else a.configStream) ∨
        s.maps.keys = ∅ := by
      grind
    obtain ⟨hanswered, hfailed⟩ := h.initConfig hhandle hnone
    refine ⟨hanswered.sound, hanswered.strays, fun hrc => ?_⟩
    exact Finset.subset_empty.mp (hfailed hrc ▸ hanswered.failed hrc)
  | some misc =>
    have hmem : misc ∈ a.miscBuf := hmisc
    dsimp only
    by_cases hall : misc.answers.Good misc.cnt
    · obtain ⟨rc, hrc, heq⟩ := mapBuf_good .miscBuf s.maps hall
      rw [heq]
      rw [if_neg (not_lt.mpr hrc)]
      have hidle := h.enterAll .miscBuf (by decide) (by decide) misc.cnt
      have hsome : 0 ≤ (if s.mDefferedAllocation then a.calcOffset else a.configStream) ∨
          (s.maps.enterAll (below .miscBuf misc.cnt)).keys = ∅ := by
        grind [enterAll_below_zero]
      obtain ⟨hanswered, hfailed⟩ := hidle.initConfig hhandle hsome
      refine ⟨hanswered.sound, hanswered.strays.trans Register.strays_enterAll, fun hrc => ?_⟩
      exact Finset.subset_empty.mp (hfailed hrc ▸ hanswered.failed hrc)
    · obtain ⟨hcnt, hfirst⟩ := (hcond.misc hgood misc hmem).resolve_left hall
      obtain ⟨rc, hrc, heq⟩ :=
        mapBuf_first .miscBuf s.maps (Answers.pos_of_not_good hall) hfirst
      rw [heq]
      rw [if_pos hrc]
      exact ⟨(h.initFailed (hkeys hcnt) rc).sound, rfl, fun _ => hkeys hcnt⟩

theorem Sound.init (h : s.Sound) (hhandle : s.mHandle = 0) {a : InitArgs}
    (hcond : a.add_stream ≠ 0 → a.Tidy s.mDefferedAllocation) : Answered s (s.init a) := by
  obtain ⟨hkeys, hdefs⟩ := h.closed hhandle
  have hidle := h.idle hdefs
  unfold Stream.init
  split
  · refine ⟨?_, rfl, fun _ => Finset.Subset.refl _⟩
    exact Idle.sound (s := { s with mHandle := 0 }) ⟨hidle.mBufDefs, hidle.mPlaneBufDefs,
      hidle.mStreamBatchBufs, hidle.mBufAllocPid, hidle.streamBuf, hidle.userBuf⟩ fun _ => hkeys
  · rename_i hadd
    have htidy := hcond hadd
    have hadded : (s.added a).Idle := ⟨hidle.mBufDefs, hidle.mPlaneBufDefs,
      hidle.mStreamBatchBufs, hidle.mBufAllocPid, hidle.streamBuf, hidle.userBuf⟩
    by_cases hgood : a.streamInfoBuf.answers.Good a.streamInfoBuf.cnt
    · obtain ⟨rc, hrc, heq⟩ := mapBuf_good .streamInfo s.maps hgood
      rw [heq]
      dsimp only
      rw [if_neg (not_lt.mpr hrc)]
      have hinfo := hadded.enterAll .streamInfo (by decide) (by decide)
        a.streamInfoBuf.cnt
      have hzero : a.streamInfoBuf.cnt = 0 →
          (s.maps.enterAll (below .streamInfo a.streamInfoBuf.cnt)).keys = ∅ := by
        simp_all [enterAll_below_zero]
      obtain ⟨hsound, hstrays, hfailed⟩ := hinfo.initMisc hadd hzero hgood htidy
      refine ⟨hsound, hstrays.trans Register.strays_enterAll, fun hne => ?_⟩
      exact Finset.subset_empty.mpr (hfailed hne) |>.trans (Finset.empty_subset _)
    · have hfirst := htidy.info.resolve_left hgood
      obtain ⟨rc, hrc, heq⟩ :=
        mapBuf_first .streamInfo s.maps (Answers.pos_of_not_good hgood) hfirst
      rw [heq]
      dsimp only
      rw [if_pos hrc]
      exact ⟨(hadded.initFailed hkeys rc).sound, rfl, fun _ => Finset.Subset.refl _⟩

theorem Sound.initMapsExactly (h : s.Sound) (hhandle : s.mHandle = 0) {a : InitArgs}
    (htidy : a.Tidy s.mDefferedAllocation) : s.InitMapsExactly a := by
  have hkeys := (h.closed hhandle).1
  have hnew : ∀ p, p ∉ s.maps.keys := fun p hmem => Finset.notMem_empty p (hkeys ▸ hmem)
  have hinfo := (mapsExactly_iff fun i => hnew (.streamInfo, i)).mpr htidy.info
  refine ⟨hinfo, fun rc m heq hrc misc hmisc => ?_⟩
  have hgood : a.streamInfoBuf.answers.Good a.streamInfoBuf.cnt := by
    by_contra hbad
    obtain ⟨rc', hneg, heq'⟩ := mapBuf_first .streamInfo s.maps
      (Answers.pos_of_not_good hbad) (htidy.info.resolve_left hbad)
    obtain ⟨rfl, -⟩ := Prod.mk.inj (heq'.symm.trans heq)
    exact absurd hneg (not_lt.mpr hrc)
  obtain ⟨rc', -, heq'⟩ := mapBuf_good .streamInfo s.maps hgood
  obtain ⟨-, rfl⟩ := Prod.mk.inj (heq'.symm.trans heq)
  refine (mapsExactly_iff fun i hmem => ?_).mpr ((htidy.misc hgood misc hmisc).imp_right And.right)
  rcases Register.mem_enterAll.mp hmem with hold | hbelow
  · exact hnew _ hold
  · cases (mem_below.mp hbelow).1

/-! ## The functions that allocate -/

theorem Idle.answered (h : s.Idle) (hhandle : s.mHandle ≠ 0) {t : Stream}
    (hmaps : s.maps = t.maps) (rc : Int) : Answered t (rc, s) where
  sound := h.sound fun hzero => absurd hzero hhandle
  strays := congrArg Register.strays hmaps
  failed _ := (congrArg Register.keys hmaps).subset

theorem Idle.unmapped (h : s.Idle) (n : Nat) :
    unmapBelow .streamBuf n (s.maps.enterAll (below .streamBuf n)) = s.maps :=
  unmapBelow_enterAll h.streamBuf

theorem Idle.makeBufDefs (h : s.Idle) (n : Nat) (a : AllocAnswers) {t : Stream}
    (ht : t = { s with maps := s.maps.enterAll (below .streamBuf n) }) :
    t.makeBufDefs n a = (noError, { t with mBufDefs := true }) ∨
      ∃ rc, rc ≠ noError ∧ t.makeBufDefs n a = (rc, s) := by
  have hback : { t with maps := unmapBelow .streamBuf n t.maps } = s := by
    subst ht
    rw [h.unmapped n]
  have hcleared : { t with maps := unmapBelow .streamBuf n t.maps, mBufDefs := false } = s := by
    subst ht
    rw [h.unmapped n, ← h.mBufDefs]
  unfold Stream.makeBufDefs
  dsimp only
  split
  · rw [hback]
    exact .inr ⟨noMemory, by decide, rfl⟩
  split
  · rw [hcleared]
    exact .inr ⟨invalidOperation, by decide, rfl⟩
  split
  · rw [hcleared]
    exact .inr ⟨invalidOperation, by decide, rfl⟩
  · exact .inl rfl

theorem Idle.sound_mapped (h : s.Idle) (hhandle : s.mHandle ≠ 0) (hbatch : s.batch = false)
    {n : Nat} {t : Stream}
    (ht : t = { s with maps := s.maps.enterAll (below .streamBuf n), mBufDefs := true }) :
    (s.mNumBufs = n → t.Sound) ∧
      (s.mNumBufs = n + s.mNumBufsNeedAlloc →
        { t with wait_for_cond := true, mBufAllocPid := .running }.Sound) := by
  have hstream : ∀ i, (.streamBuf, i) ∈ t.maps.keys ↔ i < n := by
    simp [Register.mem_enterAll, mem_below, ht, h.streamBuf]
  have huser : ∀ i, (.streamUserBuf, i) ∈ t.maps.keys ↔ i < s.mStreamBatchBufs.getD 0 := by
    simp [Register.mem_enterAll, mem_below, ht, h.mStreamBatchBufs, h.userBuf]
  subst ht
  constructor
  · intro hn
    refine ⟨fun hzero => absurd hzero hhandle, nofun, fun _ => ⟨h.mPlaneBufDefs,
      h.mStreamBatchBufs⟩, fun htrue => ?_, fun hrun => ?_, fun i => ?_, huser⟩
    · cases hbatch.symm.trans htrue
    · cases h.mBufAllocPid.symm.trans hrun
    simp [streamBufs, hstream, hbatch, h.mBufAllocPid, hn]
  · intro hn
    refine ⟨fun hzero => absurd hzero hhandle, nofun, fun _ => ⟨h.mPlaneBufDefs,
      h.mStreamBatchBufs⟩, fun htrue => ?_, fun _ => ?_, fun i => ?_, huser⟩
    · cases hbatch.symm.trans htrue
    · exact hn ▸ Nat.le_add_left _ _
    simp [streamBufs, hstream, hbatch, hn]

theorem Idle.splitAlloc (h : s.Idle) : s.splitAlloc.2.Idle ∧ s.splitAlloc.2.maps = s.maps ∧
    s.splitAlloc.2.mHandle = s.mHandle ∧ s.splitAlloc.2.batch = s.batch := by
  have hidle : ∀ need dyn, { s with mNumBufsNeedAlloc := need, mDynBufAlloc := dyn }.Idle :=
    fun _ _ => ⟨h.mBufDefs, h.mPlaneBufDefs, h.mStreamBatchBufs, h.mBufAllocPid, h.streamBuf,
      h.userBuf⟩
  grind [Stream.splitAlloc]

theorem Idle.getBufs (h : s.Idle) (hhandle : s.mHandle ≠ 0) (hbatch : s.batch = false)
    {a : AllocAnswers}
    (hcond : a.allocateStreamBuf = true → a.buf.SizesKnown s.splitAlloc.1) :
    Answered s (s.getBufs a) := by
  obtain ⟨hidle, hmaps, hhandle', hbatch'⟩ := h.splitAlloc
  rw [← hhandle'] at hhandle
  rw [← hbatch'] at hbatch
  unfold Stream.getBufs
  split
  · exact h.answered (hhandle' ▸ hhandle) rfl _
  generalize s.splitAlloc = p at hidle hmaps hhandle hbatch hcond ⊢
  obtain ⟨n, t⟩ := p
  dsimp only at hidle hmaps hhandle hbatch hcond ⊢
  split
  · exact hidle.answered hhandle hmaps _
  rename_i halloc
  have hknown := hcond (by simpa using halloc)
  have hcounted : { t with mNumBufs := n + t.mNumBufsNeedAlloc }.Idle := ⟨hidle.mBufDefs,
    hidle.mPlaneBufDefs, hidle.mStreamBatchBufs, hidle.mBufAllocPid, hidle.streamBuf,
    hidle.userBuf⟩
  have hrun := mapLoop_run .streamBuf a.buf n t.maps
  generalize mapLoop .streamBuf a.buf 0 n noError t.maps = r at hrun ⊢
  cases hrun with
  | noMap i _ _ _ =>
    dsimp only
    rw [hidle.unmapped i]
    exact hcounted.answered hhandle hmaps _
  | noSize i hi hgood hsize =>
    obtain rfl := hknown.zero hi hgood hsize
    exact hcounted.answered hhandle hmaps _
  | done rc _ _ =>
    dsimp only
    rcases hcounted.makeBufDefs n a rfl with heq | ⟨rc, hrc, heq⟩
    · rw [heq]
      obtain ⟨hnow, hlater⟩ := hcounted.sound_mapped hhandle hbatch (n := n) rfl
      have hstrays : (t.maps.enterAll (below .streamBuf n)).strays = s.maps.strays :=
        Register.strays_enterAll.trans (congrArg _ hmaps)
      unfold startAllocThread
      dsimp only
      split
      · exact ⟨hlater rfl, hstrays, fun hne => absurd rfl hne⟩
      · rename_i hneed
        have hzero : t.mNumBufsNeedAlloc = 0 :=
          Nat.eq_zero_of_not_pos fun hpos => hneed ⟨rfl, hpos⟩
        exact ⟨hnow (hzero ▸ Nat.add_zero n), hstrays, fun hne => absurd rfl hne⟩
    · rw [heq, startAllocThread, if_neg fun hand => hrc hand.1]
      exact hcounted.answered hhandle hmaps _

theorem Idle.allocateBuffers (h : s.Idle) (hhandle : s.mHandle ≠ 0) (hbatch : s.batch = false)
    (a : AllocAnswers) : Answered s (s.allocateBuffers a) := by
  unfold Stream.allocateBuffers
  rw [if_neg (hbatch ▸ Bool.false_ne_true)]
  split
  · exact h.answered hhandle rfl _
  have hrun := mapLoop_run .streamBuf a.buf s.mNumBufs s.maps
  generalize mapLoop .streamBuf a.buf 0 s.mNumBufs noError s.maps = r at hrun ⊢
  cases hrun with
  | noMap i _ _ _ =>
    dsimp only
    rw [h.unmapped i]
    exact h.answered hhandle rfl _
  | noSize i _ _ _ =>
    dsimp only
    rw [h.unmapped i]
    exact h.answered hhandle rfl _
  | done rc _ _ =>
    dsimp only
    rcases h.makeBufDefs s.mNumBufs a rfl with heq | ⟨rc, hrc, heq⟩
    · rw [heq]
      have hsound := (h.sound_mapped hhandle hbatch (n := s.mNumBufs) rfl).1 rfl
      exact ⟨hsound, Register.strays_enterAll, fun hne => absurd rfl hne⟩
    · rw [heq]
      exact h.answered hhandle rfl rc

theorem Idle.batchFailed (h : s.Idle) {t : Stream} {cnt : Nat}
    (hmaps : t.maps = s.maps.enterAll (below .streamUserBuf cnt)) (hhandle : t.mHandle ≠ 0)
    (hdefs : t.mBufDefs = false) (hplane : t.mPlaneBufDefs = false)
    (hpid : t.mBufAllocPid = .none) (rc : Int) : Answered s (t.batchFailed cnt rc) := by
  have hback : unmapBelow .streamUserBuf cnt t.maps = s.maps := by
    rw [hmaps]
    exact unmapBelow_enterAll h.userBuf
  unfold Stream.batchFailed
  rw [hback]
  have hidle : { t with maps := s.maps, mStreamBatchBufs := none }.Idle :=
    ⟨hdefs, hplane, rfl, hpid, h.streamBuf, h.userBuf⟩
  exact hidle.answered (t := s) hhandle rfl rc

theorem Idle.allocatePlaneBufs (h : s.Idle) (hhandle : s.mHandle ≠ 0) (hbatch : s.batch = true)
    {a : AllocAnswers} (cnt : Nat)
    (hcond : a.allocateStreamBuf = true → a.buf.SizesKnown (s.bufCount true)) {t : Stream}
    (ht : t = { s with
      maps := s.maps.enterAll (below .streamUserBuf cnt)
      mStreamBatchBufs := some cnt }) :
    Answered s (t.allocatePlaneBufs cnt a) := by
  have hnew : ∀ i, (.streamBuf, i) ∉ t.maps.keys := by
    simp [Register.mem_enterAll, mem_below, ht, h.streamBuf]
  have hfailed : ∀ t' : Stream, t'.maps = t.maps → t'.mHandle = s.mHandle →
      t'.mBufDefs = false → t'.mPlaneBufDefs = false → t'.mBufAllocPid = .none →
      ∀ rc, Answered s (t'.batchFailed cnt rc) :=
    fun t' hmaps hhandle' hdefs hplane hpid rc => h.batchFailed (hmaps.trans (ht ▸ rfl))
      (hhandle' ▸ hhandle) hdefs hplane hpid rc
  have hcount : t.mNumBufs * t.frame_buf_cnt % 2 ^ 8 = s.bufCount true := ht ▸ rfl
  unfold Stream.allocatePlaneBufs
  rw [hcount]
  generalize s.bufCount true = n at hcond ⊢
  dsimp only
  have hdefs : t.mBufDefs = false := ht ▸ h.mBufDefs
  have hplane : t.mPlaneBufDefs = false := ht ▸ h.mPlaneBufDefs
  have hpid : t.mBufAllocPid = .none := ht ▸ h.mBufAllocPid
  have hhandle' : t.mHandle = s.mHandle := ht ▸ rfl
  split
  · simp_all
  rename_i halloc
  have hknown := hcond (by simpa using halloc)
  have hrun := mapLoop_run .streamBuf a.buf n t.maps
  generalize mapLoop .streamBuf a.buf 0 n noError t.maps = r at hrun ⊢
  cases hrun with
  | noMap i _ _ _ =>
    simp_all [unmapBelow_enterAll]
  | noSize i hi hgood hsize =>
    obtain rfl := hknown.zero hi hgood hsize
    apply hfailed
    exacts [rfl, hhandle', hdefs, hplane, hpid]
  | done rc _ _ =>
    dsimp only
    unfold Stream.makePlaneBufDefs
    split
    · simp_all [unmapBelow_enterAll]
    split
    · simp_all [unmapBelow_enterAll]
    split
    · simp_all [unmapBelow_enterAll]
    have hstrays : (t.maps.enterAll (below .streamBuf n)).strays = s.maps.strays := by
      simp [ht]
    refine ⟨?_, hstrays, fun hne => absurd rfl hne⟩
    subst ht
    refine ⟨fun hzero => absurd hzero hhandle, nofun, fun hfalse => ?_, fun _ => ⟨rfl, hpid⟩,
      fun hrun => ?_, fun i => ?_, fun i => ?_⟩
    · cases hbatch.symm.trans hfalse
    · cases hpid.symm.trans hrun
    · simp [streamBufs, Register.mem_enterAll, mem_below, hbatch, hnew]
    simp [Register.mem_enterAll, mem_below, h.userBuf]

theorem Idle.allocateBatchBufs (h : s.Idle) (hhandle : s.mHandle ≠ 0) (hbatch : s.batch = true)
    {a : AllocAnswers}
    (hcond : a.allocateStreamBuf = true → a.buf.SizesKnown (s.bufCount true)) :
    Answered s (s.allocateBatchBufs a) := by
  unfold Stream.allocateBatchBufs
  split
  · have hidle : { s with mStreamBatchBufs := none }.Idle := ⟨h.mBufDefs, h.mPlaneBufDefs, rfl,
      h.mBufAllocPid, h.streamBuf, h.userBuf⟩
    exact hidle.answered (t := s) hhandle rfl _
  rename_i cnt _
  have hrun := mapLoop_run .streamUserBuf a.userBuf cnt s.maps
  generalize mapLoop .streamUserBuf a.userBuf 0 cnt noError s.maps = r at hrun ⊢
  cases hrun with
  | done rc _ _ => exact h.allocatePlaneBufs hhandle hbatch cnt hcond rfl
  | noMap i _ _ _ =>
    apply h.batchFailed
    exacts [rfl, hhandle, h.mBufDefs, h.mPlaneBufDefs, h.mBufAllocPid]
  | noSize i _ _ hsize => cases hsize

/-! ## The functions that release -/

theorem mem_unmapBelow {m : Maps} {type : BufType} {n : Nat} {p : BufType × Nat} :
    p ∈ (unmapBelow type n m).keys ↔ p ∈ m.keys ∧ ¬ (p.1 = type ∧ p.2 < n) := by
  rw [unmapBelow, Register.mem_removeAll, mem_below]

theorem strays_unmapBelow {m : Maps} {type : BufType} {n : Nat}
    (h : ∀ i < n, (type, i) ∈ m.keys) : (unmapBelow type n m).strays = m.strays := by
  refine Register.strays_removeAll nodup_below fun p hp => ?_
  obtain ⟨htype, hlt⟩ := mem_below.mp hp
  have hmem := h p.2 hlt
  rwa [← htype] at hmem

/-- A stream that has released its buffers, with no request for one that is not mapped. -/
structure Released (s t : Stream) : Prop where
  idle : t.Idle
  strays : t.maps.strays = s.maps.strays
  keys : t.maps.keys ⊆ s.maps.keys
  mHandle : t.mHandle = s.mHandle

theorem Released.sound {t : Stream} (h : Released s t) (hs : s.Sound) : t.Sound := by
  refine h.idle.sound fun hzero => Finset.subset_empty.mp ?_
  exact (hs.closed (h.mHandle.symm.trans hzero)).1 ▸ h.keys

theorem Sound.streamBuf_plain (h : s.Sound) (hbatch : s.batch = false) (hdefs : s.mBufDefs = true)
    (hpid : s.mBufAllocPid ≠ .running) (i : Nat) :
    (.streamBuf, i) ∈ s.maps.keys ↔ i < s.mNumBufs := by
  rw [h.streamBuf, streamBufs, if_neg (hdefs ▸ nofun), hbatch, if_neg (by decide), if_neg hpid]

theorem Sound.putBufs (h : s.Sound) (hbatch : s.batch = false) (hdefs : s.mBufDefs = true)
    (hpid : s.mBufAllocPid ≠ .running) : Released s s.putBufs := by
  have hstream := h.streamBuf_plain hbatch hdefs hpid
  refine ⟨⟨rfl, (h.plain hbatch).1, (h.plain hbatch).2, rfl, fun i hmem => ?_, fun i hmem => ?_⟩,
    strays_unmapBelow fun i hi => (hstream i).mpr hi, fun p hp => (mem_unmapBelow.mp hp).1, rfl⟩
  · obtain ⟨hold, hkept⟩ := mem_unmapBelow.mp hmem
    exact hkept ⟨rfl, (hstream i).mp hold⟩
  · have hlt := (h.userBuf i).mp (mem_unmapBelow.mp hmem).1
    rw [(h.plain hbatch).2] at hlt
    exact Nat.not_lt_zero i hlt

theorem Sound.releaseBatchBufs (h : s.Sound) (hbatch : s.batch = true) :
    Released s s.releaseBatchBufs := by
  obtain ⟨hplane, hpid⟩ := h.batch hbatch
  have hfirst : ∃ t : Stream, t = (if s.mPlaneBufDefs then
      { s with
        maps := unmapBelow .streamBuf s.mNumPlaneBufs s.maps
        mPlaneBufDefs := false
        mNumPlaneBufs := 0 }
      else s) ∧ t.mPlaneBufDefs = false ∧ t.mStreamBatchBufs = s.mStreamBatchBufs ∧
      t.mBufAllocPid = .none ∧ t.maps.strays = s.maps.strays ∧ t.mHandle = s.mHandle ∧
      ∀ p, p ∈ t.maps.keys ↔ p ∈ s.maps.keys ∧ p.1 ≠ .streamBuf := by
    refine ⟨_, rfl, ?_⟩
    split
    · rename_i hdefs
      have hstream : ∀ i, (.streamBuf, i) ∈ s.maps.keys ↔ i < s.mNumPlaneBufs := by
        simp [streamBufs, h.streamBuf, hplane.symm.trans, hdefs, hbatch]
      refine ⟨rfl, rfl, hpid, strays_unmapBelow fun i hi => (hstream i).mpr hi, rfl, ?_⟩
      rintro ⟨type, i⟩
      rw [mem_unmapBelow]
      refine and_congr_right fun hmem => not_congr (and_iff_left_of_imp fun htype => ?_)
      simp_all
    · rename_i hdefs
      have hnone := hplane.symm.trans (Bool.eq_false_iff.mpr hdefs)
      refine ⟨Bool.eq_false_iff.mpr hdefs, rfl, hpid, rfl, rfl, ?_⟩
      rintro ⟨type, i⟩
      refine (and_iff_left_of_imp fun hmem htype => ?_).symm
      obtain rfl : type = .streamBuf := htype
      exact (h.idle hnone).streamBuf i hmem
  obtain ⟨t, ht, htplane, hbufs, htpid, hstrays, hhandle, hkeys⟩ := hfirst
  unfold Stream.releaseBatchBufs
  dsimp only
  rw [← ht]
  cases hcnt : t.mStreamBatchBufs with
  | none =>
    refine ⟨⟨rfl, htplane, rfl, htpid, fun i hmem => ((hkeys _).mp hmem).2 rfl,
      fun i hmem => ?_⟩, hstrays, fun p hp => ((hkeys p).mp hp).1, hhandle⟩
    have hlt := (h.userBuf i).mp ((hkeys _).mp hmem).1
    simp_all
  | some cnt =>
    have huser : ∀ i, (.streamUserBuf, i) ∈ t.maps.keys ↔ i < cnt := by
      intro i
      rw [hkeys, h.userBuf, ← hbufs, hcnt]
      exact and_iff_left nofun
    refine ⟨⟨rfl, htplane, rfl, htpid, fun i hmem => ?_, fun i hmem => ?_⟩,
      (strays_unmapBelow fun i hi => (huser i).mpr hi).trans hstrays,
      fun p hp => ((hkeys p).mp (mem_unmapBelow.mp hp).1).1, hhandle⟩
    · exact ((hkeys _).mp (mem_unmapBelow.mp hmem).1).2 rfl
    · obtain ⟨hold, hkept⟩ := mem_unmapBelow.mp hmem
      exact hkept ⟨rfl, (huser i).mp hold⟩

theorem Sound.joined (h : s.Sound) (hpid : s.mBufAllocPid ≠ .running) (wait : Bool) (need : Nat) :
    { s with
      wait_for_cond := wait
      mNumBufsNeedAlloc := need
      mBufAllocPid := .none }.Sound where
  closed := h.closed
  free hdefs := ⟨(h.free hdefs).1, (h.free hdefs).2.1, rfl⟩
  plain := h.plain
  batch hbatch := ⟨(h.batch hbatch).1, rfl⟩
  need := nofun
  streamBuf i := by
    show _ ↔ i < if s.mBufDefs = false then 0 else if s.batch then s.mNumPlaneBufs else s.mNumBufs
    rw [h.streamBuf, streamBufs, if_neg hpid]
  userBuf := h.userBuf

theorem Sound.joinForced (h : s.Sound) (hpid : s.mBufAllocPid ≠ .running) :
    s.joinForced.Sound ∧ s.joinForced.mBufAllocPid = .none ∧ s.joinForced.maps = s.maps ∧
      s.joinForced.mHandle = s.mHandle := by
  unfold Stream.joinForced
  split
  · simp_all
  · unfold Stream.cond_signal
    split
    · exact ⟨h.joined hpid false _, rfl, rfl, rfl⟩
    · exact ⟨h.joined hpid s.wait_for_cond _, rfl, rfl, rfl⟩

theorem Released.of_joined {t u : Stream} (h : Released t u) (hmaps : t.maps = s.maps)
    (hhandle : t.mHandle = s.mHandle) : Released s u :=
  ⟨h.idle, hmaps ▸ h.strays, hmaps ▸ h.keys, h.mHandle.trans hhandle⟩

theorem Sound.releaseBuffs (h : s.Sound) (hpid : s.mBufAllocPid ≠ .running) :
    Released s s.releaseBuffs := by
  obtain ⟨hjoined, hnone, hmaps, hhandle⟩ := h.joinForced hpid
  unfold Stream.releaseBuffs
  refine Released.of_joined ?_ hmaps hhandle
  dsimp only
  split
  · rename_i hbatch
    exact hjoined.releaseBatchBufs hbatch
  · rename_i hbatch
    split
    · rename_i hdefs
      have hput := hjoined.putBufs (Bool.eq_false_iff.mpr hbatch) hdefs (hnone ▸ nofun)
      exact ⟨⟨rfl, hput.idle.mPlaneBufDefs, hput.idle.mStreamBatchBufs, hnone,
        hput.idle.streamBuf, hput.idle.userBuf⟩, hput.strays, hput.keys, rfl⟩
    · rename_i hdefs
      have hidle := hjoined.idle (Bool.eq_false_iff.mpr hdefs)
      exact ⟨hidle, rfl, Finset.Subset.refl _, rfl⟩

theorem Sound.put_bufs (h : s.Sound) (hdefs : s.mBufDefs = true)
    (hpid : s.mBufAllocPid ≠ .running) : Released s s.put_bufs := by
  unfold Stream.put_bufs
  split
  · rename_i hbatch
    exact h.releaseBatchBufs hbatch
  · rename_i hbatch
    exact h.putBufs (Bool.eq_false_iff.mpr hbatch) hdefs hpid

/-! ## The thread -/

theorem Sound.cond_signal (h : s.Sound) :
    (s.cond_signal false).Sound ∧ (s.cond_signal false).maps = s.maps := by
  unfold Stream.cond_signal
  split
  · exact ⟨⟨h.closed, h.free, h.plain, h.batch, h.need, h.streamBuf, h.userBuf⟩, rfl⟩
  · exact ⟨h, rfl⟩

theorem Sound.bufAllocRoutine (h : s.Sound) (hrun : s.mBufAllocPid = .running)
    {allocateMore : Bool} {a : Answers}
    (hcond : s.Cond (.bufAllocRoutine allocateMore a)) :
    (s.bufAllocRoutine allocateMore a).Sound ∧
      (s.bufAllocRoutine allocateMore a).maps.strays = s.maps.strays := by
  have hdefs : s.mBufDefs ≠ false := fun hdefs => by cases hrun.symm.trans (h.free hdefs).2.2
  have hbatch : s.batch ≠ true := fun hbatch => by cases hrun.symm.trans (h.batch hbatch).2
  have hneed := h.need hrun
  have hstream : ∀ i, (.streamBuf, i) ∈ s.maps.keys ↔ i < s.mNumBufs - s.mNumBufsNeedAlloc := by
    simp [streamBufs, h.streamBuf, hdefs, hbatch, hrun]
  have hclosed : s.mHandle ≠ 0 := fun hzero => hdefs (h.closed hzero).2
  unfold Stream.bufAllocRoutine
  split
  · rename_i hmore
    obtain ⟨-, hall⟩ := hcond hmore.1
    have hfilter : (List.range' (s.mNumBufs - s.mNumBufsNeedAlloc) s.mNumBufsNeedAlloc).filter
        (fun i => a.size i && decide (0 ≤ a.map i)) =
        List.range' (s.mNumBufs - s.mNumBufsNeedAlloc) s.mNumBufsNeedAlloc := by
      simp_all
    dsimp only
    rw [hfilter]
    refine ⟨⟨fun hzero => absurd hzero hclosed, fun hfalse => absurd hfalse hdefs, h.plain,
      fun htrue => absurd htrue hbatch, nofun, fun i => ?_, fun i => ?_⟩,
      Register.strays_enterAll⟩
    · rw [streamBufs, if_neg hdefs, if_neg hbatch, if_neg nofun]
      grind [Register.mem_enterAll]
    simp [Register.mem_enterAll, h.userBuf]
  · rename_i hmore
    have hzero : s.mNumBufsNeedAlloc = 0 :=
      Nat.eq_zero_of_not_pos fun hpos => hmore ⟨hpos, (hcond hpos).1⟩
    refine ⟨⟨fun hzero => absurd hzero hclosed, fun hfalse => absurd hfalse hdefs, h.plain,
      fun htrue => absurd htrue hbatch, nofun, fun i => ?_, h.userBuf⟩, rfl⟩
    simp [streamBufs, hstream, hdefs, hbatch, hzero]

/-! ## Runs -/

theorem Released.balanced (hs : s.Sound) {op : Op} {t : Stream} (h : Released s t)
    (hop : s.exec op = (noError, t)) (hinit : ∀ a, op ≠ .init a) :
    Balanced s op ∧ (s.next op).Sound := by
  have hnext : s.next op = t := congrArg Prod.snd hop
  constructor
  · constructor
    · exact fun a heq => absurd heq (hinit a)
    · simp [hop]
    · rw [hnext]
      exact h.strays
    simp [hnext, h.idle.streamBuf, h.idle.userBuf]
  · rw [hnext]
    exact h.sound hs

theorem Answered.balanced (op : Op) (h : Answered s (s.exec op)) (hreleases : ¬ op.Releases)
    (hinit : ∀ a, op = .init a → a.add_stream ≠ 0 → s.InitMapsExactly a) :
    Balanced s op ∧ (s.next op).Sound :=
  ⟨⟨hinit, h.failed, h.strays, fun hrel => absurd hrel hreleases⟩, h.sound⟩

theorem Sound.step (h : s.Sound) {op : Op} (hlegal : s.Legal op) (hcond : s.Cond op) :
    Balanced s op ∧ (s.next op).Sound := by
  cases op with
  | init a =>
    refine Answered.balanced (.init a) (h.init hlegal hcond) not_false fun b hb hadd => ?_
    cases hb
    exact h.initMapsExactly hlegal (hcond hadd)
  | get_bufs a =>
    have hidle := h.idle hlegal.2
    refine Answered.balanced (.get_bufs a) ?_ not_false nofun
    show Answered s (s.get_bufs a)
    replace hcond : a.allocateStreamBuf = true → a.buf.SizesKnown (s.bufCount s.batch) := hcond
    unfold Stream.get_bufs
    split
    · rename_i hbatch
      rw [hbatch] at hcond
      exact hidle.allocateBatchBufs hlegal.1 hbatch hcond
    · rename_i hbatch
      have hplain := Bool.eq_false_iff.mpr hbatch
      rw [hplain] at hcond
      exact hidle.getBufs hlegal.1 hplain hcond
  | put_bufs => exact (h.put_bufs hlegal.1 hlegal.2).balanced h rfl nofun
  | allocateBuffers a =>
    have hidle := h.idle hlegal.2
    refine Answered.balanced (.allocateBuffers a) ?_ not_false nofun
    show Answered s (s.allocateBuffers a)
    by_cases hbatch : s.batch = true
    · have heq : s.allocateBuffers a = s.allocateBatchBufs a := if_pos hbatch
      rw [heq]
      exact hidle.allocateBatchBufs hlegal.1 hbatch (hcond hbatch)
    · exact hidle.allocateBuffers hlegal.1 (Bool.eq_false_iff.mpr hbatch) a
  | releaseBuffs => exact (h.releaseBuffs hcond).balanced h rfl nofun
  | cond_signal =>
    obtain ⟨hsound, hmaps⟩ := h.cond_signal
    refine Answered.balanced .cond_signal ?_ not_false nofun
    exact ⟨hsound, congrArg Register.strays hmaps, fun hne => absurd rfl hne⟩
  | bufAllocRoutine allocateMore a =>
    obtain ⟨hsound, hstrays⟩ := h.bufAllocRoutine hlegal.1 hcond
    refine Answered.balanced (.bufAllocRoutine allocateMore a) ?_ not_false nofun
    exact ⟨hsound, hstrays, fun hne => absurd rfl hne⟩

/-- Maps and unmaps are in balance in every run of a stream whose steps do not meet what goes
wrong. -/
theorem balanced_along (ops : List Op) (s : Stream) (hfresh : s.Fresh)
    (hrun : System.Along (fun s op => s.Legal op ∧ s.Cond op) next ops s) :
    System.Along Balanced next ops s :=
  System.Along.imp (fun _ _ hsound h => hsound.step h.1 h.2) hfresh.sound hrun

def dynamicInit : InitArgs where
  add_stream := 1
  streamInfoBuf := ⟨1, { size := fun _ => true, map := fun _ => 0, sizeAgain := fun _ => true }⟩
  miscBuf := none
  minNumBuffers := 5
  bDynallocBuf := true
  calcOffset := 0
  configStream := 0

def allGiven : AllocAnswers where
  ops_tbl := true
  allocateStreamUserBuf := none
  mapUserBuf _ := 0
  allocateStreamBuf := true
  buf := ⟨fun _ => true, fun _ => 0⟩
  regFlags := true
  bufDefs := true
  planeBufDefs := true
  getRegFlags := 0

def plainStream : Stream where
  batch := false
  frame_buf_cnt := 0
  mDefferedAllocation := false

theorem plainStream_fresh : plainStream.Fresh := ⟨rfl, rfl, rfl, rfl, rfl, rfl⟩

theorem dynamicInit_tidy : dynamicInit.Tidy false where
  info := .inl fun _ _ => ⟨rfl, le_refl 0⟩
  misc := nofun
  config _ _ := .inl (le_refl 0)

theorem balanced_along_deferred : System.Along Balanced next
    [.init dynamicInit, .get_bufs allGiven, .cond_signal, .bufAllocRoutine true allGiven.buf,
      .put_bufs, .allocateBuffers allGiven, .releaseBuffs] plainStream :=
  balanced_along _ _ plainStream_fresh
    ⟨⟨rfl, fun _ => dynamicInit_tidy⟩, ⟨by decide, fun _ _ _ _ _ => rfl⟩, ⟨trivial, trivial⟩,
      ⟨by decide, fun _ => ⟨rfl, fun _ _ _ => ⟨rfl, le_refl 0⟩⟩⟩, ⟨by decide, trivial⟩,
      ⟨by decide, nofun⟩, ⟨by decide, nofun⟩, trivial⟩

/-- Where the thread gets no memory, `putBufs` unmaps buffers that were never mapped. -/
theorem not_balanced_along : ¬ ∀ (ops : List Op) (s : Stream), s.Fresh →
    System.Along Legal next ops s → System.Along Balanced next ops s := by
  intro h
  have hrun := h [.init dynamicInit, .get_bufs allGiven, .cond_signal,
    .bufAllocRoutine false allGiven.buf, .put_bufs] plainStream plainStream_fresh
    ⟨rfl, by decide, trivial, by decide, by decide, trivial⟩
  exact absurd hrun.2.2.2.2.1.strays (by decide)

end Stream

end EtherDevice.Hal1.StreamMaps
