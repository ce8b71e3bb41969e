import Mathlib.Algebra.BigOperators.Group.List.Basic
import Mathlib.Data.UInt
import Mathlib.Logic.Function.Basic
import Mathlib.Tactic.Common

/-!
# Buffer definitions

`getBufDef` of `QCameraMemory` and of `QCamera3Memory` describes a buffer of a memory object, and
the loop of `allocateBatchBufs` describes the buffers of a batch stream, container by container.
-/

namespace EtherDevice.Hal1.BufDefs

structure MemInfo where
  fd : Int
  size : UInt32

/-- A memory object, with an entry for each index there can be. -/
structure Memory where
  mMemInfo : Nat → MemInfo
  mBufferCount : Nat

structure PlaneOffset where
  len : UInt32
  offset : UInt32

/-- `cam_frame_len_offset_t`, with no more than `VIDEO_MAX_PLANES` planes. -/
structure FrameLenOffset where
  numPlanes : Nat
  mp : Nat → PlaneOffset
  frameLen : UInt32
  le_maxPlanes : numPlanes ≤ 8

/-- `v4l2_plane`; the offset of the plane in the frame is in `reserved[0]`. -/
structure Plane where
  length : UInt32 := 0
  userptr : Int := 0
  dataOffset : UInt32 := 0
  reserved : UInt32 := 0

inductive BufType
  | mplane | userptr

/-- `mm_camera_buf_def_t`; `memInfo` and `buffer` are known by `bufIdx`. -/
structure BufDef where
  fd : Int := 0
  bufType : BufType := .mplane
  frameLen : UInt32 := 0
  numPlanes : Nat := 0
  bufIdx : Nat := 0
  planes : Nat → Plane := fun _ => {}

variable (mem : Memory) (offset : FrameLenOffset)

def fillPlanes (planes : Nat → Plane) : Nat → Nat → Plane
  | 0 => planes
  | i + 1 =>
    let planes := fillPlanes planes i
    Function.update planes (i + 1)
      { length := (offset.mp (i + 1)).len
        userptr := (mem.mMemInfo (i + 1)).fd
        dataOffset := (offset.mp (i + 1)).offset
        reserved := (planes i).reserved + (planes i).length }

def bufPlanes (bufDef : BufDef) (index : Nat) : Nat → Plane :=
  fillPlanes mem offset (Function.update bufDef.planes 0
    { length := (offset.mp 0).len
      userptr := (mem.mMemInfo index).fd
      dataOffset := (offset.mp 0).offset
      reserved := 0 }) (offset.numPlanes - 1)

def getBufDef (bufDef : BufDef) (index : Nat) : BufDef :=
  if mem.mBufferCount = 0 then bufDef
  else
    { fd := (mem.mMemInfo index).fd
      bufType := .mplane
      frameLen := offset.frameLen
      numPlanes := offset.numPlanes
      bufIdx := index
      planes := bufPlanes mem offset bufDef index }

def getBufDef3 (bufDef : BufDef) (index : Nat) : BufDef :=
  if mem.mBufferCount = 0 then bufDef
  else
    { bufDef with
      fd := (mem.mMemInfo index).fd
      frameLen := (mem.mMemInfo index).size
      numPlanes := offset.numPlanes
      bufIdx := index % 256
      planes := bufPlanes mem offset bufDef index }

/-- `mBufDefs`, the plane buffers that each container lists, by the allocation it lies in and its
index, `mPlaneBufDefs`, and the indices of the latter that were filled, in order. -/
structure Batch where
  bufDefs : Nat → BufDef := fun _ => {}
  containers : Nat × Nat → List Nat := fun _ => []
  planeBufDefs : Nat → BufDef := fun _ => {}
  filled : List Nat := []

def fillFrames (bufs : Memory) (container : Nat × Nat) (b : Batch) (planeIdx : Nat) : Nat → Batch
  | 0 => b
  | n + 1 =>
    let bufDef := getBufDef bufs offset (b.planeBufDefs planeIdx) planeIdx
    let listed := b.containers container ++ [bufDef.bufIdx]
    fillFrames bufs container
      { b with
        containers := Function.update b.containers container listed
        planeBufDefs := Function.update b.planeBufDefs planeIdx bufDef
        filled := b.filled ++ [planeIdx] } (planeIdx + 1) n

structure UserBufInfo where
  frameBufCnt : UInt8
  size : UInt32

def UserBufInfo.numBuffers (bufInfo : UserBufInfo) : Nat := bufInfo.frameBufCnt.toInt8.toInt.toNat

def fillContainer (bufs : Memory) (bufInfo : UserBufInfo) (index : Nat) (b : Batch) (count : Nat) :
    Batch :=
  let bufDef : BufDef :=
    { b.bufDefs index with
      fd := (mem.mMemInfo count).fd
      bufType := .userptr
      frameLen := bufInfo.size
      bufIdx := index }
  fillFrames offset bufs (count, index)
    { b with
      bufDefs := Function.update b.bufDefs index bufDef
      containers := Function.update b.containers (count, index) [] }
    (index * bufInfo.frameBufCnt.toNat + count * bufInfo.numBuffers) bufInfo.numBuffers

def getUserBufDef (bufs : Memory) (bufInfo : UserBufInfo) (b : Batch) (index : Nat) : Batch :=
  (List.range mem.mBufferCount).foldl (fillContainer mem offset bufs bufInfo index) b

def fillBatch (bufs : Memory) (bufInfo : UserBufInfo) : Nat → Batch
  | 0 => {}
  | index + 1 => getUserBufDef mem offset bufs bufInfo (fillBatch bufs bufInfo index) index

/-- Each plane has the descriptor of the buffer and its place in the layout. -/
def Describes (bufDef : BufDef) (index : Nat) : Prop :=
  bufDef.fd = (mem.mMemInfo index).fd ∧
    ∀ k < offset.numPlanes, bufDef.planes k =
      { length := (offset.mp k).len
        userptr := (mem.mMemInfo index).fd
        dataOffset := (offset.mp k).offset
        reserved := ((List.range k).map fun j => (offset.mp j).len).sum }

variable {mem offset} {planes : Nat → Plane} {bufDef : BufDef} {index : Nat}

theorem fillPlanes_zero (n : Nat) : fillPlanes mem offset planes n 0 = planes 0 := by
  induction n with
  | zero => rfl
  | succ n ih => rw [fillPlanes, Function.update_of_ne (by omega), ih]

theorem fillPlanes_eq (hlen : (planes 0).length = (offset.mp 0).len)
    (hzero : (planes 0).reserved = 0) {n k : Nat} (hk : 0 < k) (hkn : k ≤ n) :
    fillPlanes mem offset planes n k =
      { length := (offset.mp k).len
        userptr := (mem.mMemInfo k).fd
        dataOffset := (offset.mp k).offset
        reserved := ((List.range k).map fun j => (offset.mp j).len).sum } := by
  induction n generalizing k with
  | zero => omega
  | succ n ih =>
    by_cases hlast : k = n + 1
    · subst hlast
      rw [fillPlanes, Function.update_self]
      have hprev : (fillPlanes mem offset planes n n).reserved =
          ((List.range n).map fun j => (offset.mp j).len).sum ∧
            (fillPlanes mem offset planes n n).length = (offset.mp n).len := by
        by_cases hn : n = 0
        · subst hn
          exact ⟨hzero, hlen⟩
        · rw [ih (Nat.pos_of_ne_zero hn) (Nat.le_refl n)]
          exact ⟨rfl, rfl⟩
      simp [hprev, List.range_succ]
    · rw [fillPlanes, Function.update_of_ne hlast]
      exact ih hk (by omega)

theorem bufPlanes_zero : bufPlanes mem offset bufDef index 0 =
    ⟨(offset.mp 0).len, (mem.mMemInfo index).fd, (offset.mp 0).offset, 0⟩ := by
  rw [bufPlanes, fillPlanes_zero, Function.update_self]

theorem describes_iff {old : BufDef} (hplanes : bufDef.planes = bufPlanes mem offset old index)
    (hfd : bufDef.fd = (mem.mMemInfo index).fd) : Describes mem offset bufDef index ↔
      ∀ k, 0 < k → k < offset.numPlanes → (mem.mMemInfo k).fd = (mem.mMemInfo index).fd := by
  have hlater : ∀ k, 0 < k → k < offset.numPlanes → bufDef.planes k =
      ⟨(offset.mp k).len, (mem.mMemInfo k).fd, (offset.mp k).offset,
        ((List.range k).map fun j => (offset.mp j).len).sum⟩ := by
    intro k hk hkn
    rw [hplanes, bufPlanes]
    exact fillPlanes_eq (by simp) (by simp) hk (by omega)
  constructor
  · rintro ⟨-, h⟩ k hk hkn
    have hplane := h k hkn
    rw [hlater k hk hkn] at hplane
    exact (Plane.mk.inj hplane).2.1
  · intro h
    refine ⟨hfd, fun k hkn => ?_⟩
    by_cases hk : k = 0
    · subst hk
      rw [hplanes, bufPlanes_zero]
      rfl
    · rw [hlater k (by omega) hkn, h k (by omega) hkn]

section Batch

variable {bufs : Memory} {bufInfo : UserBufInfo} {m : Nat} {b : Batch}

theorem fillFrames_eq (hbufs : bufs.mBufferCount ≠ 0) (container : Nat × Nat) (planeIdx n : Nat) :
    (fillFrames offset bufs container b planeIdx n).filled =
        b.filled ++ (List.range n).map (planeIdx + ·) ∧
      (fillFrames offset bufs container b planeIdx n).containers =
        Function.update b.containers container
          (b.containers container ++ (List.range n).map (planeIdx + ·)) := by
  induction n generalizing b planeIdx with
  | zero => simp [fillFrames]
  | succ n ih =>
    have hidx : (getBufDef bufs offset (b.planeBufDefs planeIdx) planeIdx).bufIdx = planeIdx := by
      simp [getBufDef, hbufs]
    have hrange : (List.range (n + 1)).map (planeIdx + ·) =
        planeIdx :: (List.range n).map (planeIdx + 1 + ·) := by
      rw [List.range_succ_eq_map, List.map_cons, List.map_map]
      simp only [Nat.add_zero, List.cons.injEq, true_and]
      apply List.map_congr_left
      intro a _
      simp only [Function.comp_apply]
      omega
    rw [fillFrames, hidx, hrange]
    refine ⟨?_, ?_⟩
    · rw [(ih (planeIdx + 1)).1]
      simp
    · rw [(ih (planeIdx + 1)).2]
      simp

theorem getUserBufDef_eq (hmem : mem.mBufferCount = 1)
    (hbufs : bufInfo.numBuffers = 0 ∨ bufs.mBufferCount ≠ 0) (index : Nat) :
    let start := index * bufInfo.frameBufCnt.toNat
    (getUserBufDef mem offset bufs bufInfo b index).filled =
        b.filled ++ (List.range bufInfo.numBuffers).map (start + ·) ∧
      (getUserBufDef mem offset bufs bufInfo b index).containers =
        Function.update b.containers (0, index)
          ((List.range bufInfo.numBuffers).map (start + ·)) := by
  intro start
  rw [getUserBufDef, hmem, List.range_one, List.foldl_cons, List.foldl_nil, fillContainer,
    Nat.zero_mul, Nat.add_zero]
  obtain hnone | hbufs := hbufs
  · simp [hnone, fillFrames]
  · obtain ⟨hfilled, hcontainers⟩ := @fillFrames_eq offset bufs
      { b with
        bufDefs := Function.update b.bufDefs index
          { b.bufDefs index with
            fd := (mem.mMemInfo 0).fd
            bufType := .userptr
            frameLen := bufInfo.size
            bufIdx := index }
        containers := Function.update b.containers (0, index) [] } hbufs (0, index)
      start bufInfo.numBuffers
    refine ⟨hfilled, ?_⟩
    rw [hcontainers]
    simp

theorem UserBufInfo.numBuffers_eq (bufInfo : UserBufInfo) : bufInfo.numBuffers =
    if bufInfo.frameBufCnt.toNat < 128 then bufInfo.frameBufCnt.toNat else 0 := by
  have hlt := bufInfo.frameBufCnt.toNat_lt
  have hint : bufInfo.frameBufCnt.toInt8.toInt = bufInfo.frameBufCnt.toBitVec.toInt := rfl
  have hnat : bufInfo.frameBufCnt.toBitVec.toNat = bufInfo.frameBufCnt.toNat := rfl
  rw [numBuffers, hint, BitVec.toInt_eq_toNat_cond, hnat]
  split_ifs <;> omega

/-- Each plane definition is filled once, and container `k` lists its own frames. -/
def Filled (b : Batch) (c m : Nat) : Prop :=
  b.filled = List.range (m * c) ∧
    ∀ k < m, b.containers (0, k) = (List.range c).map (k * c + ·)

theorem fillBatch_filled (hmem : mem.mBufferCount = 1)
    (hbufs : bufInfo.numBuffers = 0 ∨ bufs.mBufferCount ≠ 0)
    (hcnt : bufInfo.numBuffers = bufInfo.frameBufCnt.toNat) (m : Nat) :
    Filled (fillBatch mem offset bufs bufInfo m) bufInfo.frameBufCnt.toNat m := by
  induction m with
  | zero => simp [Filled, fillBatch]
  | succ m ih =>
    obtain ⟨hfilled, hcontainers⟩ :=
      @getUserBufDef_eq mem offset bufs bufInfo (fillBatch mem offset bufs bufInfo m) hmem hbufs m
    rw [hcnt] at hfilled hcontainers
    refine ⟨?_, fun k hk => ?_⟩
    · rw [fillBatch, hfilled, ih.1, Nat.succ_mul, List.range_add]
    · rw [fillBatch, hcontainers]
      by_cases hlast : k = m
      · subst hlast
        rw [Function.update_self]
      · rw [Function.update_of_ne (by simp [hlast])]
        exact ih.2 k (by omega)

theorem fillBatch_filled_of_none (hmem : mem.mBufferCount = 1) (hnone : bufInfo.numBuffers = 0)
    (m : Nat) : (fillBatch mem offset bufs bufInfo m).filled = [] := by
  induction m with
  | zero => rfl
  | succ m ih =>
    rw [fillBatch, (getUserBufDef_eq hmem (Or.inl hnone) m).1, ih, hnone]
    rfl

theorem filled_fillBatch_iff (hmem : mem.mBufferCount = 1)
    (hbufs : bufs.mBufferCount = m * bufInfo.frameBufCnt.toNat) :
    Filled (fillBatch mem offset bufs bufInfo m) bufInfo.frameBufCnt.toNat m ↔
      m = 0 ∨ bufInfo.frameBufCnt.toNat < 128 := by
  have hcnt := bufInfo.numBuffers_eq
  constructor
  · intro h
    by_contra hmany
    push Not at hmany
    rw [if_neg (by omega)] at hcnt
    have hlen := congrArg List.length h.1
    rw [fillBatch_filled_of_none hmem hcnt, List.length_nil, List.length_range] at hlen
    have := Nat.mul_pos (Nat.pos_of_ne_zero hmany.1) (by omega : 0 < bufInfo.frameBufCnt.toNat)
    omega
  · rintro (rfl | hlt)
    · exact ⟨by simp [fillBatch], fun k hk => by omega⟩
    · by_cases hm : m = 0
      · subst hm
        exact ⟨by simp [fillBatch], fun k hk => by omega⟩
      rw [if_pos hlt] at hcnt
      refine fillBatch_filled hmem ?_ hcnt m
      rw [hcnt, hbufs]
      by_cases hzero : bufInfo.frameBufCnt.toNat = 0
      · exact Or.inl hzero
      · exact Or.inr (Nat.mul_ne_zero hm hzero)

end Batch

end EtherDevice.Hal1.BufDefs
