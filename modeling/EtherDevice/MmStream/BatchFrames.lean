import Mathlib.Algebra.Order.Ring.Int
import Mathlib.Data.List.Basic
import Mathlib.Data.List.Pairwise
import Mathlib.Tactic.Linarith

/-!
# Numbers and times of the frames of a batch

`mm_stream_read_user_buf` numbers the plane buffers of a batch and spreads their times over it. The
first batch starts with the number 1 and not with 0, so that its last frame has the number of the
first frame of the second batch. The test for a dropped batch compares with the number after the
one that has come and always finds one, so the time since the last batch is never used.
-/

namespace EtherDevice.MmStream.BatchFrames

structure Frame where
  frame_idx : Nat
  ts : Int
deriving DecidableEq

structure Batch where
  sequence : Nat
  timestamp : Int
deriving DecidableEq

structure Stream where
  buf_cnt : Nat
  frameInterval : Int
  prev_frameID : Nat := 0
  prev_timestamp : Int := 0

/-- `mm_stream_read_user_buf`. A batch that is not later than the last one is queued again. -/
def Stream.readUserBuf (s : Stream) (b : Batch) : List Frame × Stream :=
  let frameID := if b.sequence = 1 then b.sequence else (b.sequence - 1) * s.buf_cnt % 2 ^ 32
  if b.timestamp ≤ s.prev_timestamp then ([], s)
  else
    let (interval, prev) :=
      if s.prev_timestamp = 0 ∨ s.prev_frameID ≠ (b.sequence + 1) % 2 ^ 32 then
        (s.frameInterval * 1000000, b.timestamp - s.buf_cnt * (s.frameInterval * 1000000))
      else ((b.timestamp - s.prev_timestamp) / s.buf_cnt, s.prev_timestamp)
    ((List.range s.buf_cnt).map fun i => ⟨(frameID + i) % 2 ^ 32, i * interval + prev⟩,
      { s with prev_frameID := b.sequence, prev_timestamp := b.timestamp })

def Stream.frames (s : Stream) : List Batch → List (List Frame)
  | [] => []
  | b :: batches => (s.readUserBuf b).1 :: (s.readUserBuf b).2.frames batches

/-- The numbers increase over the run, and the times within a batch and from batch to batch. -/
def Ordered (out : List (List Frame)) : Prop :=
  (out.flatten.map Frame.frame_idx).Pairwise (· < ·) ∧
    (∀ fs ∈ out, (fs.map Frame.ts).Pairwise (· < ·)) ∧
      out.Pairwise fun fs gs => ∀ f ∈ fs, ∀ g ∈ gs, f.ts ≤ g.ts

/-- What the kernel delivers in a run: increasing numbers from 1 on and increasing times, and the
number of each frame fits. -/
def Delivered (buf_cnt : Nat) (batches : List Batch) : Prop :=
  batches.Pairwise (fun b c => b.sequence < c.sequence ∧ b.timestamp < c.timestamp) ∧
    ∀ b ∈ batches, 1 ≤ b.sequence ∧ 0 ≤ b.timestamp ∧ b.sequence * buf_cnt < 2 ^ 32

/-- The second batch does not come right after the first one, the next batch comes no earlier than
its frames are taken to be, and the frames of a batch are taken to be apart. -/
def Cond (buf_cnt : Nat) (frameInterval : Int) (batches : List Batch) : Prop :=
  batches.Pairwise (fun b c => b.timestamp = 0 ∨ ¬(b.sequence = 1 ∧ c.sequence = 2) ∧
    b.timestamp + (buf_cnt - 1 : Int) * (frameInterval * 1000000) ≤ c.timestamp) ∧
    ∀ b ∈ batches, b.timestamp = 0 ∨ buf_cnt = 1 ∨ 0 < frameInterval

def firstIdx (n : Nat) (b : Batch) : Nat :=
  if b.sequence = 1 then 1 else (b.sequence - 1) * n

def planes (n : Nat) (interval : Int) (b : Batch) : List Frame :=
  if b.timestamp = 0 then []
  else (List.range n).map fun i => ⟨firstIdx n b + i, i * interval + (b.timestamp - n * interval)⟩

theorem frames_eq {s : Stream} {batches : List Batch} (hdelivered : Delivered s.buf_cnt batches)
    (hcnt : 1 ≤ s.buf_cnt) (hlater : ∀ b ∈ batches, s.prev_frameID < b.sequence ∧
      (s.prev_timestamp = 0 ∨
        1 ≤ s.prev_frameID ∧ 0 < s.prev_timestamp ∧ s.prev_timestamp < b.timestamp)) :
    s.frames batches = batches.map (planes s.buf_cnt (s.frameInterval * 1000000)) := by
  induction batches generalizing s with
  | nil => rfl
  | cons b batches ih =>
    obtain ⟨hpairs, hall⟩ := hdelivered
    obtain ⟨hb, hpairs⟩ := List.pairwise_cons.mp hpairs
    obtain ⟨⟨hone, hnonneg, hfits⟩, hall⟩ := List.forall_mem_cons.mp hall
    obtain ⟨⟨hid, hprev⟩, hlater⟩ := List.forall_mem_cons.mp hlater
    rw [Stream.frames, List.map_cons]
    unfold Stream.readUserBuf
    dsimp only
    by_cases hts : b.timestamp ≤ s.prev_timestamp
    · have hzero : b.timestamp = 0 := by omega
      rw [if_pos hts, planes, if_pos hzero]
      exact congrArg _ (ih ⟨hpairs, hall⟩ hcnt hlater)
    · have hpos : b.timestamp ≠ 0 := by omega
      have hle : b.sequence * 1 ≤ b.sequence * s.buf_cnt := Nat.mul_le_mul_left _ hcnt
      have hdropped : s.prev_timestamp = 0 ∨ s.prev_frameID ≠ (b.sequence + 1) % 2 ^ 32 := by
        omega
      rw [if_neg hts, if_pos hdropped, planes, if_neg hpos, firstIdx]
      congr 1
      · refine List.map_congr_left fun i hi => ?_
        have hlast : (b.sequence - 1) * s.buf_cnt + s.buf_cnt = b.sequence * s.buf_cnt := by
          rw [← Nat.succ_mul, Nat.succ_eq_add_one, Nat.sub_add_cancel hone]
        have hlt := List.mem_range.mp hi
        congr 1
        split_ifs with hfirst
        · rw [hfirst] at hfits ⊢
          exact Nat.mod_eq_of_lt (by omega)
        · rw [Nat.mod_eq_of_lt (a := (b.sequence - 1) * s.buf_cnt) (by omega)]
          exact Nat.mod_eq_of_lt (by omega)
      · exact ih ⟨hpairs, hall⟩ hcnt fun c hc =>
          ⟨(hb c hc).1, .inr ⟨hone, by dsimp only; omega, (hb c hc).2⟩⟩

theorem within_iff {n : Nat} {interval : Int} {b : Batch} (hn : 1 ≤ n) :
    ((planes n interval b).map Frame.ts).Pairwise (· < ·) ↔
      b.timestamp = 0 ∨ n = 1 ∨ 0 < interval := by
  unfold planes
  by_cases hzero : b.timestamp = 0
  · rw [if_pos hzero]
    exact iff_of_true .nil (.inl hzero)
  · simp only [hzero, if_false, false_or, List.map_map, List.pairwise_map, Function.comp_apply,
      Int.add_lt_add_iff_right]
    constructor
    · intro h
      by_contra! hn'
      have hfirst := List.pairwise_iff_getElem.mp h 0 1 (by simp; omega)
        (by simp; omega) (by decide)
      simp at hfirst
      omega
    · rintro (rfl | hpos)
      · exact List.pairwise_singleton _ _
      · exact List.pairwise_lt_range.imp fun hij =>
          Int.mul_lt_mul_of_pos_right (Int.ofNat_lt.mpr hij) hpos

theorem between_iff {n : Nat} {k : Int} {b c : Batch} (hn : 1 ≤ n)
    (hinterval : b.timestamp = 0 ∨ n = 1 ∨ 0 < k) (hone : 1 ≤ b.sequence)
    (hseq : b.sequence < c.sequence) (hts : 0 ≤ b.timestamp) (hlt : b.timestamp < c.timestamp) :
    (∀ f ∈ planes n k b, ∀ g ∈ planes n k c,
      f.frame_idx < g.frame_idx ∧ f.ts ≤ g.ts) ↔
      b.timestamp = 0 ∨ ¬(b.sequence = 1 ∧ c.sequence = 2) ∧
        b.timestamp + (n - 1 : Int) * k ≤ c.timestamp := by
  unfold planes
  rw [if_neg (hts.trans_lt hlt).ne']
  by_cases hzero : b.timestamp = 0
  · rw [if_pos hzero]
    exact iff_of_true nofun (.inl hzero)
  simp only [hzero, if_false, false_or, List.forall_mem_map, List.mem_range] at hinterval ⊢
  have hfirst : firstIdx n b + (n - 1) < firstIdx n c ↔ ¬(b.sequence = 1 ∧ c.sequence = 2) := by
    obtain ⟨d, hd⟩ := Nat.exists_eq_add_of_lt hseq
    clear hlt hts hinterval
    have hlast : (b.sequence - 1) * n + n = b.sequence * n := by
      rw [← Nat.succ_mul, Nat.succ_eq_add_one, Nat.sub_add_cancel hone]
    have hnext : (c.sequence - 1) * n = b.sequence * n + d * n := by
      rw [hd, Nat.add_sub_cancel, Nat.add_mul]
    have hd' : d = 0 ∨ n ≤ d * n := d.eq_zero_or_pos.imp_right (Nat.le_mul_of_pos_left n)
    unfold firstIdx
    rw [if_neg (by omega : c.sequence ≠ 1), hnext]
    by_cases hb : b.sequence = 1
    · rw [if_pos hb, hb]
      obtain rfl | hd' := hd'
      · omega
      · have hpos : d ≠ 0 := by
          rintro rfl
          omega
        omega
    · rw [if_neg hb]
      omega
  rw [← hfirst]
  constructor
  · intro h
    obtain ⟨hidx, hle⟩ := h (n - 1) (by omega) 0 hn
    refine ⟨hidx, ?_⟩
    push_cast [hn] at hle
    linarith
  · rintro ⟨hidx, hle⟩ i hi j hj
    have hsteps : (i : Int) * k ≤ (n - 1 : Int) * k ∧ 0 ≤ (j : Int) * k := by
      obtain rfl | hpos := hinterval
      · obtain rfl : i = 0 := by omega
        obtain rfl : j = 0 := by omega
        simp
      · exact ⟨Int.mul_le_mul_of_nonneg_right (by omega) hpos.le,
          Int.mul_nonneg (Int.natCast_nonneg j) hpos.le⟩
    exact ⟨by omega, by linarith⟩

theorem planes_idx {n : Nat} {interval : Int} {b : Batch} :
    (planes n interval b).Pairwise fun f g => f.frame_idx < g.frame_idx := by
  unfold planes
  split_ifs
  · exact .nil
  · exact List.pairwise_map.mpr (List.pairwise_lt_range.imp fun hij => Nat.add_lt_add_left hij _)

end EtherDevice.MmStream.BatchFrames
