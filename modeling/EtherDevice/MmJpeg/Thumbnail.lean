import Mathlib.Algebra.Field.Rat
import Mathlib.Tactic.Common
import Mathlib.Tactic.Tauto

/-!
# The field of view of the thumbnail

`mm_jpeg_session_config_thumbnail` crops the thumbnail's source to the aspect ratio of the
thumbnail, and then moves the crop towards the crop of the main image.
-/

namespace EtherDevice.MmJpeg.Thumbnail

structure Dim where
  width : Int
  height : Int
deriving DecidableEq

structure Rect where
  left : Int
  top : Int
  width : Int
  height : Int
deriving DecidableEq

structure JpegDim where
  srcDim : Dim
  dstDim : Dim
  crop : Rect

structure Session where
  encodeThumbnail : Bool
  thumbFromMain : Bool
  rotation : Nat
  thumbRotation : Nat
  mainDim : JpegDim
  thumbDim : JpegDim

def getThumbnailCrop (d : JpegDim) (cropWidth : Bool) : Rect :=
  let croppedWidth :=
    if cropWidth then (d.srcDim.height * d.dstDim.width).tdiv d.dstDim.height else d.srcDim.width
  let croppedHeight :=
    if cropWidth then d.srcDim.height else (d.srcDim.width * d.dstDim.height).tdiv d.dstDim.width
  { left := (d.srcDim.width - croppedWidth).tdiv 2
    top := (d.srcDim.height - croppedHeight).tdiv 2
    width := croppedWidth
    height := croppedHeight }

def aspectTolerance : Rat := 1 / 1000

def aspectRatio (d : Dim) : Rat := d.width / d.height

variable (s : Session)

def outputDim : Dim :=
  let dst := s.thumbDim.dstDim
  let src := s.thumbDim.srcDim
  if s.thumbFromMain then
    if (s.thumbRotation = 90 ∨ s.thumbRotation = 270) ∧ (s.rotation = 0 ∨ s.rotation = 180) then
      ⟨dst.height, dst.width⟩
    else dst
  else if src.width < dst.width ∨ src.height < dst.height then src
  else dst

def Wider : Prop :=
  aspectTolerance < aspectRatio (outputDim s) - aspectRatio s.mainDim.dstDim

def Narrower : Prop :=
  aspectTolerance < aspectRatio s.mainDim.dstDim - aspectRatio (outputDim s)

instance : Decidable (Wider s) := inferInstanceAs (Decidable (_ < _))

instance : Decidable (Narrower s) := inferInstanceAs (Decidable (_ < _))

def givenCrop : Rect :=
  let crop := s.thumbDim.crop
  if crop.width = 0 ∨ crop.height = 0 then
    { crop with width := s.thumbDim.srcDim.width, height := s.thumbDim.srcDim.height }
  else crop

def aspectCrop : Rect :=
  if Wider s then getThumbnailCrop s.thumbDim false
  else if Narrower s then getThumbnailCrop s.thumbDim true
  else givenCrop s

def Rect.Inside (r o : Rect) : Prop :=
  o.left ≤ r.left ∧ o.top ≤ r.top ∧ r.left + r.width ≤ o.left + o.width ∧
    r.top + r.height ≤ o.top + o.height

instance (r o : Rect) : Decidable (r.Inside o) := inferInstanceAs (Decidable (_ ∧ _))

def MainCropped : Prop :=
  s.mainDim.crop.width ≠ s.mainDim.srcDim.width ∨ s.mainDim.crop.height ≠ s.mainDim.srcDim.height

instance : Decidable (MainCropped s) := inferInstanceAs (Decidable (_ ∨ _))

/-- `crop_info`: a crop that is not inside that of the main image is reset. -/
def cropInfo : Rect :=
  let crop := aspectCrop s
  let main := s.mainDim.crop
  if MainCropped s ∧ ¬ crop.Inside main then
    if main.width < crop.width ∨ main.height < crop.height then
      ⟨main.left, main.height, main.width, main.height⟩
    else ⟨main.left, main.height, crop.width, crop.height⟩
  else crop

/-- `mm_jpeg_session_config_thumbnail`, with the answer of `OMX_GetExtensionIndex`: the crop that
`OMX_SetConfig` gets. -/
def sessionConfigThumbnail (extensionIndex : Bool) : Option Rect :=
  let dst := s.thumbDim.dstDim
  let src := s.thumbDim.srcDim
  let crop := givenCrop s
  if !s.encodeThumbnail then none
  else if dst.width = 0 ∨ dst.height = 0 then none
  else if src.width = 0 ∨ src.height = 0 then none
  else if src.width < crop.width + crop.left ∨ src.height < crop.height + crop.top then none
  else if !extensionIndex then none
  else some (cropInfo s)

def Dim.frame (d : Dim) : Rect := ⟨0, 0, d.width, d.height⟩

/-- The crops are in the frame that both images have, and no size is zero. -/
structure Valid : Prop where
  src : s.thumbDim.srcDim = s.mainDim.srcDim
  srcPos : 0 < s.thumbDim.srcDim.width ∧ 0 < s.thumbDim.srcDim.height
  dstPos : 0 < s.thumbDim.dstDim.width ∧ 0 < s.thumbDim.dstDim.height
  mainDstPos : 0 < s.mainDim.dstDim.width ∧ 0 < s.mainDim.dstDim.height
  mainCrop : s.mainDim.crop.Inside s.mainDim.srcDim.frame
  mainSize : 0 ≤ s.mainDim.crop.width ∧ 0 ≤ s.mainDim.crop.height
  thumbCrop : s.thumbDim.crop.Inside s.thumbDim.srcDim.frame

/-- What the comment over the reset asks for. -/
def FieldOfView (r : Rect) : Prop :=
  r.Inside s.thumbDim.srcDim.frame ∧ (MainCropped s → r.Inside s.mainDim.crop)

def Dim.centred (d : Dim) (width height : Int) : Rect :=
  ⟨(d.width - width) / 2, (d.height - height) / 2, width, height⟩

/-- The part of the source that has the thumbnail's aspect ratio and keeps one of its sizes, where
the ratio is not that of the main image. -/
def wanted : Rect :=
  let src := s.thumbDim.srcDim
  let dst := s.thumbDim.dstDim
  if Wider s then src.centred src.width (src.width * dst.height / dst.width)
  else if Narrower s then src.centred (src.height * dst.width / dst.height) src.height
  else givenCrop s

/-- What is wanted fits; or the main image is cropped and its height, which becomes the top of the
crop, is at least its top and leaves the rows that the crop has. -/
def Cond : Prop :=
  let main := s.mainDim.crop
  if MainCropped s then
    (wanted s).Inside main ∨
      main.top ≤ main.height ∧
        (if (wanted s).width ≤ main.width ∧ (wanted s).height ≤ main.height then (wanted s).height
          else main.height) ≤ main.top
  else (wanted s).Inside s.thumbDim.srcDim.frame

variable {s}

theorem Rect.Inside.trans {r o p : Rect} (h : r.Inside o) (h' : o.Inside p) : r.Inside p := by
  unfold Rect.Inside at *
  omega

theorem inside_centred_iff {d : Dim} {o : Rect} (ho : o.Inside d.frame) (width height : Int) :
    (⟨(d.width - width).tdiv 2, (d.height - height).tdiv 2, width, height⟩ : Rect).Inside o ↔
      (d.centred width height).Inside o := by
  have hhalf : ∀ a : Int, 0 ≤ a ∧ a.tdiv 2 = a / 2 ∨
      a < 0 ∧ -a ≤ -2 * a.tdiv 2 + 1 ∧ a.tdiv 2 ≤ 0 := by
    intro a
    by_cases ha : 0 ≤ a
    · exact Or.inl ⟨ha, Int.tdiv_eq_ediv_of_nonneg ha⟩
    · right
      have hneg : a.tdiv 2 = -((-a) / 2) := by
        rw [← Int.tdiv_eq_ediv_of_nonneg (by omega), Int.neg_tdiv, Int.neg_neg]
      omega
  have hwidth := hhalf (d.width - width)
  have hheight := hhalf (d.height - height)
  simp only [Rect.Inside, Dim.frame, Dim.centred] at *
  omega

theorem Valid.aspectCrop_inside_iff (hs : Valid s) {o : Rect}
    (ho : o.Inside s.thumbDim.srcDim.frame) : (aspectCrop s).Inside o ↔ (wanted s).Inside o := by
  obtain ⟨hwidth, hheight⟩ := hs.srcPos
  obtain ⟨hdstWidth, hdstHeight⟩ := hs.dstPos
  have hrow := Int.tdiv_eq_ediv_of_nonneg (b := s.thumbDim.dstDim.width)
    (Int.mul_nonneg hwidth.le hdstHeight.le)
  have hcol := Int.tdiv_eq_ediv_of_nonneg (b := s.thumbDim.dstDim.height)
    (Int.mul_nonneg hheight.le hdstWidth.le)
  rw [aspectCrop, wanted]
  split_ifs
  · simp only [getThumbnailCrop, hrow]
    exact inside_centred_iff ho _ _
  · simp only [getThumbnailCrop, hcol]
    exact inside_centred_iff ho _ _
  · exact Iff.rfl

theorem Valid.aspectCrop_size (hs : Valid s) :
    (aspectCrop s).width = (wanted s).width ∧ (aspectCrop s).height = (wanted s).height := by
  obtain ⟨hwidth, hheight⟩ := hs.srcPos
  obtain ⟨hdstWidth, hdstHeight⟩ := hs.dstPos
  rw [aspectCrop, wanted]
  split_ifs
  · exact ⟨rfl, Int.tdiv_eq_ediv_of_nonneg (Int.mul_nonneg hwidth.le hdstHeight.le)⟩
  · exact ⟨Int.tdiv_eq_ediv_of_nonneg (Int.mul_nonneg hheight.le hdstWidth.le), rfl⟩
  · exact ⟨rfl, rfl⟩

theorem cropInfo_of_sessionConfigThumbnail {extensionIndex : Bool} {r : Rect}
    (h : sessionConfigThumbnail s extensionIndex = some r) : cropInfo s = r := by
  simp only [sessionConfigThumbnail] at h
  split_ifs at h
  exact Option.some.inj h

theorem Valid.fieldOfView_cropInfo_iff (hs : Valid s) : FieldOfView s (cropInfo s) ↔ Cond s := by
  have hmain : s.mainDim.crop.Inside s.thumbDim.srcDim.frame := by
    rw [hs.src]
    exact hs.mainCrop
  have hinside := hs.aspectCrop_inside_iff hmain
  have hframe := hs.aspectCrop_inside_iff (o := s.thumbDim.srcDim.frame)
    ⟨Int.le_refl _, Int.le_refl _, Int.le_refl _, Int.le_refl _⟩
  obtain ⟨hwidth, hheight⟩ := hs.aspectCrop_size
  rw [FieldOfView, Cond]
  by_cases hcropped : MainCropped s
  · have hfov : ∀ r : Rect, (r.Inside s.thumbDim.srcDim.frame ∧
        (MainCropped s → r.Inside s.mainDim.crop)) ↔ r.Inside s.mainDim.crop := fun r =>
      ⟨fun h => h.2 hcropped, fun h => ⟨h.trans hmain, fun _ => h⟩⟩
    rw [hfov, if_pos hcropped, ← hinside, ← hwidth, ← hheight]
    by_cases hin : (aspectCrop s).Inside s.mainDim.crop
    · rw [cropInfo, if_neg fun h => h.2 hin]
      exact ⟨Or.inl, fun _ => hin⟩
    · rw [cropInfo, if_pos ⟨hcropped, hin⟩, or_iff_right hin]
      simp only [Rect.Inside]
      split_ifs <;> dsimp only <;> omega
  · rw [if_neg hcropped, ← hframe, cropInfo, if_neg fun h => hcropped h.1]
    exact ⟨fun h => h.1, fun h => ⟨h, fun hc => absurd hc hcropped⟩⟩

/-- The crop for the encoder is in the source, and in the crop of the main image, just where the
wanted part fits or the height of the main crop does as a top. -/
theorem Valid.fieldOfView_iff (hs : Valid s) {extensionIndex : Bool} {r : Rect}
    (h : sessionConfigThumbnail s extensionIndex = some r) : FieldOfView s r ↔ Cond s := by
  rw [← cropInfo_of_sessionConfigThumbnail h]
  exact hs.fieldOfView_cropInfo_iff

/-- Neither image is cropped, and the aspect ratios agree. -/
theorem fieldOfView_whole :
    let d : Dim := ⟨4000, 3000⟩
    FieldOfView ⟨true, true, 0, 0, ⟨d, d, d.frame⟩, ⟨d, ⟨320, 240⟩, d.frame⟩⟩ d.frame := by
  intro d
  have hs : Valid ⟨true, true, 0, 0, ⟨d, d, d.frame⟩, ⟨d, ⟨320, 240⟩, d.frame⟩⟩ := by
    constructor <;> decide
  exact (hs.fieldOfView_iff (by decide +kernel : sessionConfigThumbnail _ true = some d.frame)).2
    (by decide +kernel : Rect.Inside _ _)

/-- The crop of the main image is reset to, and its height is the top. -/
theorem not_fieldOfView : ¬ ∀ s : Session, Valid s → ∀ (extensionIndex : Bool) (r : Rect),
    sessionConfigThumbnail s extensionIndex = some r → FieldOfView s r := by
  intro h
  have hs := h ⟨true, true, 0, 0, ⟨⟨4000, 3000⟩, ⟨3000, 2000⟩, ⟨100, 200, 3000, 2000⟩⟩,
    ⟨⟨4000, 3000⟩, ⟨300, 200⟩, ⟨0, 0, 4000, 3000⟩⟩⟩ (by constructor <;> decide) true
    ⟨100, 2000, 3000, 2000⟩ (by decide +kernel)
  exact absurd hs.1 (by decide)

end EtherDevice.MmJpeg.Thumbnail
