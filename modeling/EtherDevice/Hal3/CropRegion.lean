import Mathlib.Algebra.Order.Ring.Int
import Mathlib.Tactic.Common
import Mathlib.Tactic.Linarith

/-!
# The crop region mapper

`QCamera3CropRegionMapper` maps rectangles between the output of the sensor and the active array.
Coordinates are integers, so this is about sizes for which no product overflows 32 bits.
-/

namespace EtherDevice.Hal3

structure CropRect where
  left : Int
  top : Int
  width : Int
  height : Int
deriving DecidableEq

structure CropRegionMapper where
  mSensorW : Int
  mSensorH : Int
  mActiveArrayW : Int
  mActiveArrayH : Int

namespace CropRegionMapper

def boundToSize (r : CropRect) (bound_w bound_h : Int) : CropRect :=
  let left := if r.left < 0 then 0 else r.left
  let top := if r.top < 0 then 0 else r.top
  { left, top
    width := if left + r.width > bound_w then bound_w - left else r.width
    height := if top + r.height > bound_h then bound_h - top else r.height }

def update (m : CropRegionMapper) (active_array_w active_array_h sensor_w sensor_h : Nat) :
    CropRegionMapper :=
  if active_array_w = 0 ∨ active_array_h = 0 ∨ sensor_w = 0 ∨ sensor_h = 0 then m
  else if active_array_w < sensor_w ∨ active_array_h < sensor_h then m
  else ⟨sensor_w, sensor_h, active_array_w, active_array_h⟩

def Uninitialized (m : CropRegionMapper) : Prop :=
  m.mSensorW = 0 ∨ m.mSensorH = 0 ∨ m.mActiveArrayW = 0 ∨ m.mActiveArrayH = 0

instance (m : CropRegionMapper) : Decidable m.Uninitialized := by
  unfold Uninitialized
  infer_instance

def toActiveArray (m : CropRegionMapper) (r : CropRect) : CropRect :=
  if m.Uninitialized then r
  else boundToSize
    { left := (r.left * m.mActiveArrayW).tdiv m.mSensorW
      top := (r.top * m.mActiveArrayH).tdiv m.mSensorH
      width := (r.width * m.mActiveArrayW).tdiv m.mSensorW
      height := (r.height * m.mActiveArrayH).tdiv m.mSensorH } m.mActiveArrayW m.mActiveArrayH

def toSensor (m : CropRegionMapper) (r : CropRect) : CropRect :=
  if m.Uninitialized then r
  else boundToSize
    { left := (r.left * m.mSensorW).tdiv m.mActiveArrayW
      top := (r.top * m.mSensorH).tdiv m.mActiveArrayH
      width := (r.width * m.mSensorW).tdiv m.mActiveArrayW
      height := (r.height * m.mSensorH).tdiv m.mActiveArrayH } m.mSensorW m.mSensorH

end CropRegionMapper

/-- The rectangle lies in a frame. -/
structure CropRect.Inside (r : CropRect) (bound_w bound_h : Int) : Prop where
  left : 0 ≤ r.left
  top : 0 ≤ r.top
  width : 0 ≤ r.width
  height : 0 ≤ r.height
  right : r.left + r.width ≤ bound_w
  bottom : r.top + r.height ≤ bound_h

/-- The order of the coordinates. -/
structure CropRect.Le (r r' : CropRect) : Prop where
  left : r.left ≤ r'.left
  top : r.top ≤ r'.top
  width : r.width ≤ r'.width
  height : r.height ≤ r'.height

open CropRegionMapper

theorem boundToSize_inside_iff {r : CropRect} {bound_w bound_h : Int} (hw : 0 ≤ bound_w)
    (hh : 0 ≤ bound_h) : (boundToSize r bound_w bound_h).Inside bound_w bound_h ↔
      (0 ≤ r.width ∧ r.left ≤ bound_w) ∧ 0 ≤ r.height ∧ r.top ≤ bound_h := by
  constructor
  · rintro ⟨_, _, hwidth, hheight, hright, hbottom⟩
    simp only [boundToSize] at hwidth hheight hright hbottom
    refine ⟨?_, ?_⟩
    · split_ifs at hwidth hright <;> omega
    · split_ifs at hheight hbottom <;> omega
  · rintro ⟨⟨hwidth, hleft⟩, hheight, htop⟩
    refine ⟨?_, ?_, ?_, ?_, ?_, ?_⟩ <;> simp only [boundToSize] <;> split_ifs <;> omega

/-- A length that is not scaled below zero, and an origin that is not scaled behind the bound. -/
def Scales (origin length num den : Int) : Prop :=
  -den < length * num ∧ origin * num < (num + 1) * den

theorem tdiv_nonneg_iff {x den : Int} (hden : 0 < den) : 0 ≤ x.tdiv den ↔ -den < x := by
  constructor
  · intro h
    by_contra hlow
    have hle : x.tdiv den ≤ -1 := by
      rw [← neg_neg x, Int.neg_tdiv, Int.tdiv_eq_ediv_of_nonneg (by omega)]
      have hone : 1 ≤ -x / den := (Int.le_ediv_iff_mul_le hden).2 (by omega)
      omega
    omega
  · intro h
    by_cases hx : 0 ≤ x
    · exact Int.tdiv_nonneg hx hden.le
    · rw [← neg_neg x, Int.neg_tdiv, Int.tdiv_eq_ediv_of_nonneg (by omega),
        Int.ediv_eq_zero_of_lt (by omega) (by omega)]
      rfl

theorem tdiv_le_iff {x den bound : Int} (hden : 0 < den) (hbound : 0 ≤ bound) :
    x.tdiv den ≤ bound ↔ x < (bound + 1) * den := by
  have hprod : 0 < (bound + 1) * den := mul_pos (by omega) hden
  by_cases hx : 0 ≤ x
  · rw [Int.tdiv_eq_ediv_of_nonneg hx, ← Int.lt_add_one_iff, Int.ediv_lt_iff_lt_mul hden]
  · have hneg : 0 ≤ (-x).tdiv den := Int.tdiv_nonneg (by omega) hden.le
    rw [Int.neg_tdiv] at hneg
    exact iff_of_true (by omega) (by omega)

theorem scales_iff {origin length num den : Int} (hnum : 0 < num) (hden : 0 < den) :
    (0 ≤ (length * num).tdiv den ∧ (origin * num).tdiv den ≤ num) ↔
      Scales origin length num den :=
  and_congr (tdiv_nonneg_iff hden) (tdiv_le_iff hden hnum.le)

/-- The rectangle is inside its new frame exactly if no side is scaled below zero and no origin
behind the frame. -/
theorem inside_iff (m : CropRegionMapper) (r : CropRect) (hsw : 0 < m.mSensorW)
    (hsh : 0 < m.mSensorH) (haw : 0 < m.mActiveArrayW) (hah : 0 < m.mActiveArrayH) :
    ((m.toActiveArray r).Inside m.mActiveArrayW m.mActiveArrayH ↔
      Scales r.left r.width m.mActiveArrayW m.mSensorW ∧
        Scales r.top r.height m.mActiveArrayH m.mSensorH) ∧
    ((m.toSensor r).Inside m.mSensorW m.mSensorH ↔
      Scales r.left r.width m.mSensorW m.mActiveArrayW ∧
        Scales r.top r.height m.mSensorH m.mActiveArrayH) := by
  have hinit : ¬ m.Uninitialized := by
    unfold Uninitialized
    omega
  constructor
  · rw [toActiveArray, if_neg hinit, boundToSize_inside_iff haw.le hah.le,
      scales_iff haw hsw, scales_iff hah hsh]
  · rw [toSensor, if_neg hinit, boundToSize_inside_iff hsw.le hsh.le,
      scales_iff hsw haw, scales_iff hsh hah]

theorem inside_iff_half :
    ((toActiveArray ⟨2, 2, 4, 4⟩ ⟨1, 0, 1, 2⟩).Inside 4 4 ↔ Scales 1 1 4 2 ∧ Scales 0 2 4 2) ∧
      ((toSensor ⟨2, 2, 4, 4⟩ ⟨1, 0, 1, 2⟩).Inside 2 2 ↔ Scales 1 1 2 4 ∧ Scales 0 2 2 4) :=
  inside_iff ⟨2, 2, 4, 4⟩ ⟨1, 0, 1, 2⟩ (by decide) (by decide) (by decide) (by decide)

/-- A rectangle behind the frame gets a negative width. -/
theorem not_inside : ¬ ∀ (m : CropRegionMapper) (r : CropRect), 0 < m.mSensorW →
    0 < m.mSensorH → 0 < m.mActiveArrayW → 0 < m.mActiveArrayH →
      (m.toActiveArray r).Inside m.mActiveArrayW m.mActiveArrayH ∧
        (m.toSensor r).Inside m.mSensorW m.mSensorH := by
  intro h
  have hwidth := (h ⟨2, 2, 4, 4⟩ ⟨3, 0, 1, 2⟩ (by decide) (by decide) (by decide)
    (by decide)).1.width
  exact absurd hwidth (by decide)

section RoundTrip

variable {x y num den : Int}

theorem boundToSize_of_inside {r : CropRect} {bound_w bound_h : Int}
    (h : r.Inside bound_w bound_h) : boundToSize r bound_w bound_h = r := by
  obtain ⟨hleft, htop, -, -, hright, hbottom⟩ := h
  simp [boundToSize, not_lt.2 hleft, not_lt.2 htop, not_lt.2 hright, not_lt.2 hbottom]

theorem tdiv_mono (hnum : 0 < num) (hden : 0 < den) (hx : 0 ≤ x) (hxy : x ≤ y) :
    (x * num).tdiv den ≤ (y * num).tdiv den := by
  rw [Int.tdiv_eq_ediv_of_nonneg (by positivity), Int.tdiv_eq_ediv_of_nonneg
    (mul_nonneg (hx.trans hxy) hnum.le)]
  exact Int.ediv_le_ediv hden (mul_le_mul_of_nonneg_right hxy hnum.le)

theorem tdiv_add_le (hnum : 0 < num) (hden : 0 < den) (hx : 0 ≤ x) (hy : 0 ≤ y)
    (hsum : x + y ≤ den) : (x * num).tdiv den + (y * num).tdiv den ≤ num := by
  rw [Int.tdiv_eq_ediv_of_nonneg (by positivity), Int.tdiv_eq_ediv_of_nonneg (by positivity)]
  have hx' := Int.ediv_mul_le (x * num) hden.ne'
  have hy' := Int.ediv_mul_le (y * num) hden.ne'
  have hall : (x + y) * num ≤ den * num := mul_le_mul_of_nonneg_right hsum hnum.le
  refine le_of_mul_le_mul_right ?_ hden
  linarith

theorem tdiv_tdiv_near (hden : 0 < den) (hle : den ≤ num) (hx : 0 ≤ x) :
    (((x * num).tdiv den) * den).tdiv num ≤ x ∧ x ≤ (((x * num).tdiv den) * den).tdiv num + 1 := by
  have hnum : 0 < num := hden.trans_le hle
  rw [Int.tdiv_eq_ediv_of_nonneg (mul_nonneg hx hnum.le)]
  have hq : 0 ≤ x * num / den := Int.ediv_nonneg (by positivity) hden.le
  have hlow := Int.ediv_mul_le (x * num) hden.ne'
  have hup := Int.lt_ediv_add_one_mul_self (x * num) hden
  rw [Int.tdiv_eq_ediv_of_nonneg (by positivity)]
  constructor
  · exact Int.ediv_le_of_le_mul hnum hlow
  · have hback : x - 1 ≤ x * num / den * den / num := by
      refine (Int.le_ediv_iff_mul_le hnum).2 ?_
      linarith
    omega

theorem inside_scaled {r : CropRect} {aw ah bw bh : Int} (haw : 0 < aw) (hah : 0 < ah)
    (hbw : 0 < bw) (hbh : 0 < bh) (h : r.Inside aw ah) : CropRect.Inside ⟨(r.left * bw).tdiv aw,
      (r.top * bh).tdiv ah, (r.width * bw).tdiv aw, (r.height * bh).tdiv ah⟩ bw bh where
  left := Int.tdiv_nonneg (mul_nonneg h.left hbw.le) haw.le
  top := Int.tdiv_nonneg (mul_nonneg h.top hbh.le) hah.le
  width := Int.tdiv_nonneg (mul_nonneg h.width hbw.le) haw.le
  height := Int.tdiv_nonneg (mul_nonneg h.height hbh.le) hah.le
  right := tdiv_add_le hbw haw h.left h.width h.right
  bottom := tdiv_add_le hbh hah h.top h.height h.bottom

end RoundTrip

/-- The sizes are positive, and those of the sensor are not the larger ones. -/
structure CropRegionMapper.Sized (m : CropRegionMapper) : Prop where
  sensorW : 0 < m.mSensorW
  sensorH : 0 < m.mSensorH
  width : m.mSensorW ≤ m.mActiveArrayW
  height : m.mSensorH ≤ m.mActiveArrayH

namespace CropRegionMapper

variable {m : CropRegionMapper} {r : CropRect}

theorem update_eq_or_sized (m : CropRegionMapper)
    (active_array_w active_array_h sensor_w sensor_h : Nat) :
    m.update active_array_w active_array_h sensor_w sensor_h = m ∨
      (m.update active_array_w active_array_h sensor_w sensor_h).Sized := by
  unfold update
  split_ifs with hzero hsmall
  · exact .inl rfl
  · exact .inl rfl
  · right
    constructor <;> simp only <;> omega

theorem Sized.initialized (h : m.Sized) : ¬ m.Uninitialized := by
  obtain ⟨hw, hh, hw', hh'⟩ := h
  unfold Uninitialized
  omega

theorem Sized.toActiveArray_eq (hm : m.Sized) (h : r.Inside m.mSensorW m.mSensorH) :
    m.toActiveArray r = ⟨(r.left * m.mActiveArrayW).tdiv m.mSensorW,
      (r.top * m.mActiveArrayH).tdiv m.mSensorH, (r.width * m.mActiveArrayW).tdiv m.mSensorW,
      (r.height * m.mActiveArrayH).tdiv m.mSensorH⟩ := by
  rw [toActiveArray, if_neg hm.initialized]
  exact boundToSize_of_inside (inside_scaled hm.sensorW hm.sensorH
    (hm.sensorW.trans_le hm.width) (hm.sensorH.trans_le hm.height) h)

theorem Sized.toSensor_eq (hm : m.Sized) (h : r.Inside m.mActiveArrayW m.mActiveArrayH) :
    m.toSensor r = ⟨(r.left * m.mSensorW).tdiv m.mActiveArrayW,
      (r.top * m.mSensorH).tdiv m.mActiveArrayH, (r.width * m.mSensorW).tdiv m.mActiveArrayW,
      (r.height * m.mSensorH).tdiv m.mActiveArrayH⟩ := by
  rw [toSensor, if_neg hm.initialized]
  exact boundToSize_of_inside (inside_scaled (hm.sensorW.trans_le hm.width)
    (hm.sensorH.trans_le hm.height) hm.sensorW hm.sensorH h)

/-- A rectangle of the sensor comes back with each coordinate at most one smaller, and both
mappings keep the order of rectangles in their frames. -/
theorem near_inverse (m : CropRegionMapper) (hm : m.Sized) :
    (∀ r : CropRect, r.Inside m.mSensorW m.mSensorH →
      (m.toSensor (m.toActiveArray r)).Le r ∧
        r.left ≤ (m.toSensor (m.toActiveArray r)).left + 1 ∧
        r.top ≤ (m.toSensor (m.toActiveArray r)).top + 1 ∧
        r.width ≤ (m.toSensor (m.toActiveArray r)).width + 1 ∧
        r.height ≤ (m.toSensor (m.toActiveArray r)).height + 1) ∧
    (∀ r r' : CropRect, r.Inside m.mSensorW m.mSensorH → r'.Inside m.mSensorW m.mSensorH →
      r.Le r' → (m.toActiveArray r).Le (m.toActiveArray r')) ∧
    ∀ r r' : CropRect, r.Inside m.mActiveArrayW m.mActiveArrayH →
      r'.Inside m.mActiveArrayW m.mActiveArrayH → r.Le r' → (m.toSensor r).Le (m.toSensor r') := by
  have haw := hm.sensorW.trans_le hm.width
  have hah := hm.sensorH.trans_le hm.height
  refine ⟨fun r h => ?_, fun r r' h h' hle => ?_, fun r r' h h' hle => ?_⟩
  · have hin := inside_scaled hm.sensorW hm.sensorH haw hah h
    have hleft := tdiv_tdiv_near hm.sensorW hm.width h.left
    have htop := tdiv_tdiv_near hm.sensorH hm.height h.top
    have hwidth := tdiv_tdiv_near hm.sensorW hm.width h.width
    have hheight := tdiv_tdiv_near hm.sensorH hm.height h.height
    rw [hm.toActiveArray_eq h, hm.toSensor_eq hin]
    exact ⟨⟨hleft.1, htop.1, hwidth.1, hheight.1⟩, hleft.2, htop.2, hwidth.2, hheight.2⟩
  · rw [hm.toActiveArray_eq h, hm.toActiveArray_eq h']
    exact ⟨tdiv_mono haw hm.sensorW h.left hle.left, tdiv_mono hah hm.sensorH h.top hle.top,
      tdiv_mono haw hm.sensorW h.width hle.width, tdiv_mono hah hm.sensorH h.height hle.height⟩
  · rw [hm.toSensor_eq h, hm.toSensor_eq h']
    exact ⟨tdiv_mono hm.sensorW haw h.left hle.left, tdiv_mono hm.sensorH hah h.top hle.top,
      tdiv_mono hm.sensorW haw h.width hle.width, tdiv_mono hm.sensorH hah h.height hle.height⟩

theorem near_inverse_half :
    (toSensor ⟨2, 2, 3, 4⟩ (toActiveArray ⟨2, 2, 3, 4⟩ ⟨1, 0, 1, 2⟩)).Le ⟨1, 0, 1, 2⟩ ∧
      (toActiveArray ⟨2, 2, 3, 4⟩ ⟨0, 0, 1, 2⟩).Le (toActiveArray ⟨2, 2, 3, 4⟩ ⟨1, 0, 1, 2⟩) := by
  obtain ⟨hnear, hmono, -⟩ := near_inverse ⟨2, 2, 3, 4⟩ ⟨by decide, by decide, by decide, by decide⟩
  refine ⟨(hnear ⟨1, 0, 1, 2⟩ ?_).1, hmono ⟨0, 0, 1, 2⟩ ⟨1, 0, 1, 2⟩ ?_ ?_ ?_⟩
  all_goals constructor <;> decide

end CropRegionMapper

end EtherDevice.Hal3
