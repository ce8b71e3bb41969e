import Mathlib.Algebra.Order.BigOperators.Group.List
import Mathlib.Algebra.Order.Group.Nat
import EtherDevice.MmStream.PlaneLayout

/-!
# The planes fit their frames

A plane has the rows and the columns of what it shows, and its bytes hold them behind its offset.
-/

namespace EtherDevice.MmStream

def imageOf (fmt : CamFormat) (i : Nat) (dim : Dimension) : Dimension :=
  match i, fmt with
  | 0, _ | _, .yuv422Nv16 | _, .yuv422Nv61 => dim
  | _, .yuv420Yv12 => ⟨dim.width / 2, dim.height / 2⟩
  | _, _ => ⟨dim.width, dim.height / 2⟩

def Plane.rowBytes (p : Plane) : Nat := p.strideInBytes.getD p.stride

structure Plane.Holds (p : Plane) (image : Dimension) : Prop where
  stride : image.width ≤ p.stride
  scanline : image.height ≤ p.scanline
  length : p.offset + p.rowBytes * image.height ≤ p.len

def StreamType.layout (type : StreamType) (fmt : CamFormat) : CamFormat :=
  match type with
  | .video => .yuv420Nv12
  | _ => fmt

def PlaneInfo.start (info : PlaneInfo) (i : Nat) : Nat := ((info.mp.take i).map Plane.len).sum

structure PlaneInfo.Fits (info : PlaneInfo) (type : StreamType) (fmt : CamFormat)
    (dim : Dimension) : Prop where
  planes : ∀ x ∈ info.mp.zipIdx, x.1.Holds (imageOf (type.layout fmt) x.2 dim)
  apart : ∀ i j p, i < j → info.mp[i]? = some p → info.start i + p.len ≤ info.start j
  frame : (info.mp.map Plane.len).sum ≤ info.frameLen
  pages : type ≠ .metadata → 4096 ∣ info.frameLen

theorem PlaneInfo.start_add_len_le (info : PlaneInfo) {i j : Nat} {p : Plane} (hij : i < j)
    (hp : info.mp[i]? = some p) : info.start i + p.len ≤ info.start j := by
  have hnext : info.start (i + 1) = info.start i + p.len := by
    simp [PlaneInfo.start, List.take_add_one, hp]
  have hmono : info.start (i + 1) ≤ info.start j := by
    have htake : info.mp.take (i + 1) = (info.mp.take j).take (i + 1) := by
      rw [List.take_take, Nat.min_eq_left hij]
    unfold PlaneInfo.start
    rw [htake]
    exact ((List.take_sublist _ _).map _).sum_le_sum (by simp)
  omega

section

variable {type : StreamType} {fmt : CamFormat} {dim : Dimension} {padding : PaddingInfo}
  {chip : Chip}

theorem PlaneInfo.fits_pages_iff {mp : List Plane} : (PlaneInfo.pages mp).Fits type fmt dim ↔
    ∀ x ∈ mp.zipIdx, x.1.Holds (imageOf (type.layout fmt) x.2 dim) := by
  constructor
  · intro h
    exact h.planes
  · intro h
    exact ⟨h, fun _ _ _ hij hp => PlaneInfo.start_add_len_le _ hij hp,
      le_padToSize ⟨12, rfl⟩ _, fun _ => dvd_padToSize ⟨12, rfl⟩ _⟩

theorem Plane.view_holds {stride scanline width height : Nat} {image : Dimension}
    (hw : image.width ≤ stride) (hh : image.height ≤ scanline) :
    (Plane.view stride scanline width height).Holds image := by
  refine ⟨hw, hh, ?_⟩
  simpa [Plane.view, Plane.rowBytes] using Nat.mul_le_mul_left stride hh

theorem Plane.Holds.longer {p : Plane} {image : Dimension} (h : p.Holds image) {len : Nat}
    (hlen : p.len ≤ len) : Plane.Holds { p with len } image :=
  ⟨h.stride, h.scanline, h.length.trans hlen⟩

/-- The padding before the image fits into what is left behind it. -/
def OffsetRoom (align stride rows offsetY extra : Nat) : Prop :=
  padGap (stride * offsetY) align ≤
    stride * extra + padGap (stride * (rows + offsetY + extra)) align

theorem Plane.padded_holds_iff {align offsetY stride scanline extra width height : Nat}
    (halign : ∃ k, 2 ^ k = align) {image : Dimension} (hw : image.width ≤ stride)
    (hscan : scanline = image.height + offsetY + extra) :
    (Plane.padded align offsetY stride scanline width height).Holds image ↔
      OffsetRoom align stride image.height offsetY extra := by
  have hlen : (Plane.padded align offsetY stride scanline width height).len =
      stride * image.height + stride * offsetY + stride * extra +
        padGap (stride * (image.height + offsetY + extra)) align := by
    rw [Plane.padded, padToSize_eq halign, hscan, Nat.mul_add, Nat.mul_add]
  have hoffset : (Plane.padded align offsetY stride scanline width height).offset =
      stride * offsetY + padGap (stride * offsetY) align := by
    simp only [Plane.padded, padToSize_eq halign, Nat.zero_add]
  constructor
  · intro h
    have hlength := h.length
    rw [hlen, hoffset] at hlength
    simp only [Plane.padded, Plane.rowBytes, Option.getD_none] at hlength
    unfold OffsetRoom
    omega
  · intro h
    refine ⟨hw, ?_, ?_⟩
    · simp only [Plane.padded]
      omega
    · rw [hlen, hoffset]
      simp only [Plane.padded, Plane.rowBytes, Option.getD_none]
      unfold OffsetRoom at h
      omega

theorem Plane.padded_holds {align stride scanline width height : Nat}
    (halign : ∃ k, 2 ^ k = align) {image : Dimension} (hw : image.width ≤ stride)
    (hh : image.height ≤ scanline) :
    (Plane.padded align 0 stride scanline width height).Holds image := by
  have hscan : scanline = image.height + 0 + (scanline - image.height) := by omega
  refine (Plane.padded_holds_iff halign hw hscan).2 ?_
  simp [OffsetRoom, padGap]

theorem Venus.layout_fits (v : Venus) (hfmt : imageOf (type.layout fmt) 1 dim =
    ⟨dim.width, dim.height / 2⟩) : (v.layout dim).Fits type fmt dim := by
  have hbuf := v.le_bufferSize dim.width dim.height
  have hchroma := Nat.mul_le_mul_left (v.uvStride dim.width) (v.le_uvScanlines dim.height)
  refine ⟨?_, fun _ _ _ hij hp => PlaneInfo.start_add_len_le _ hij hp, ?_,
    fun _ => v.dvd_bufferSize _ _⟩
  · simp only [Venus.layout, List.zipIdx_cons, List.zipIdx_nil, List.mem_cons, List.not_mem_nil,
      or_false, forall_eq_or_imp, forall_eq, Nat.zero_add, hfmt]
    refine ⟨Plane.view_holds (v.le_yStride _) (v.le_yScanlines _),
      v.le_uvStride _, v.le_uvScanlines _, ?_⟩
    simp only [Plane.view, Plane.rowBytes, Option.getD_none, Nat.zero_add]
    omega
  · simp only [Venus.layout, Plane.view, List.map_cons, List.map_nil, List.sum_cons, List.sum_nil]
    omega

@[simp] theorem imageOf_zero (fmt : CamFormat) : imageOf fmt 0 dim = dim := by
  cases fmt <;> rfl

@[simp] theorem imageOf_two (fmt : CamFormat) : imageOf fmt 2 dim = imageOf fmt 1 dim := by
  cases fmt <;> rfl

theorem PlaneInfo.fits_two_iff {y c : Plane} : (PlaneInfo.pages [y, c]).Fits type fmt dim ↔
    y.Holds dim ∧ c.Holds (imageOf (type.layout fmt) 1 dim) := by
  rw [PlaneInfo.fits_pages_iff]
  simp

theorem PlaneInfo.fits_three_iff {y c : Plane} : (PlaneInfo.pages [y, c, c]).Fits type fmt dim ↔
    y.Holds dim ∧ c.Holds (imageOf (type.layout fmt) 1 dim) := by
  rw [PlaneInfo.fits_pages_iff]
  simp

theorem adreno_stride_iff (width : Nat) :
    width ≤ padToSize (width / 2) 32 * 2 ↔ width % 64 ≠ 1 := by
  have hpow : ∃ k, 2 ^ k = 32 := ⟨5, rfl⟩
  rw [padToSize_eq hpow, padGap]
  omega

theorem half_le_yv12 {width stride : Nat} (h : width ≤ stride) :
    width / 2 ≤ padToSize (stride / 2) 16 :=
  (Nat.div_le_div_right h).trans (le_padToSize ⟨4, rfl⟩ _)

theorem calcOffsetView_fits_iff {stridePad scanPad : Nat} (hstride : ∃ k, 2 ^ k = stridePad)
    (hscan : ∃ k, 2 ^ k = scanPad) (htype : type.layout fmt = fmt) :
    (∀ info, calcOffsetView chip stridePad scanPad fmt dim = some info → info.Fits type fmt dim) ↔
      (fmt = .yuv420Nv21Adreno → dim.width % 64 ≠ 1) := by
  have hrows : dim.height / 2 ≤ padToSize dim.height 2 / 2 :=
    Nat.div_le_div_right (le_padToSize ⟨1, rfl⟩ _)
  unfold calcOffsetView
  split
  case h_1 | h_2 =>
    simp only [Option.some.injEq, forall_eq', reduceCtorEq, false_implies, iff_true,
      PlaneInfo.fits_two_iff, htype, imageOf]
    exact ⟨Plane.view_holds (le_padToSize hstride _) (le_padToSize hscan _),
      Plane.view_holds (le_padToSize hstride _) (le_padToSize hscan _)⟩
  case h_3 =>
    simp only [Option.some.injEq, forall_eq', forall_const, PlaneInfo.fits_two_iff, htype,
      imageOf, ← adreno_stride_iff]
    constructor
    · intro h
      exact h.2.stride
    · intro h
      have hy : (Plane.view (padToSize dim.width 32) (padToSize dim.height 32) dim.width
          dim.height).Holds dim :=
        Plane.view_holds (le_padToSize ⟨5, rfl⟩ _) (le_padToSize ⟨5, rfl⟩ _)
      have hc : (Plane.view (padToSize (dim.width / 2) 32 * 2) (padToSize (dim.height / 2) 32)
          dim.width (dim.height / 2)).Holds ⟨dim.width, dim.height / 2⟩ :=
        Plane.view_holds h (le_padToSize ⟨5, rfl⟩ _)
      exact ⟨hy.longer (le_padToSize ⟨12, rfl⟩ _), hc.longer (le_padToSize ⟨12, rfl⟩ _)⟩
  case h_4 =>
    simp only [Option.some.injEq, forall_eq', reduceCtorEq, false_implies, iff_true,
      PlaneInfo.fits_three_iff, htype, imageOf]
    exact ⟨Plane.view_holds (le_padToSize ⟨4, rfl⟩ _) (le_padToSize ⟨1, rfl⟩ _),
      Plane.view_holds (half_le_yv12 (le_padToSize ⟨4, rfl⟩ _)) hrows⟩
  case h_5 | h_6 =>
    simp only [Option.some.injEq, forall_eq', reduceCtorEq, false_implies, iff_true,
      PlaneInfo.fits_two_iff, htype, imageOf, and_self]
    exact Plane.view_holds (le_padToSize ⟨4, rfl⟩ _) (Nat.le_refl _)
  case h_7 =>
    simp only [Option.map_eq_some_iff, reduceCtorEq, false_implies, iff_true]
    rintro _ ⟨v, -, rfl⟩
    exact v.layout_fits (by rw [htype]; rfl)
  case h_8 => simp_all

def SnapshotRoom (fmt : CamFormat) (dim : Dimension) (align : Nat) : Prop :=
  let offsetY := padGap dim.height 16
  let luma := OffsetRoom align dim.width dim.height offsetY offsetY
  let chroma (stride : Nat) := OffsetRoom align stride (dim.height / 2) offsetY 0
  match fmt with
  | .yuv420Nv12 | .yuv420Nv21 => luma ∧ chroma dim.width
  | .yuv420Yv12 => luma ∧ chroma (padToSize (dim.width / 2) 16)
  | .yuv422Nv16 | .yuv422Nv61 => luma
  | _ => True

example : ¬ SnapshotRoom .yuv420Nv21 ⟨1920, 1080⟩ 4096 := by
  simp [SnapshotRoom, OffsetRoom, padGap]

theorem calcOffsetPadded_fits {align stride scanline : Nat} (halign : ∃ k, 2 ^ k = align)
    (hw : dim.width ≤ stride) (hh : dim.height ≤ scanline) (htype : type.layout fmt = fmt)
    {info : PlaneInfo} (h : calcOffsetPadded fmt dim align 0 stride scanline = some info) :
    info.Fits type fmt dim := by
  have hrows : dim.height / 2 ≤ scanline / 2 := Nat.div_le_div_right hh
  have hy : (Plane.padded align 0 stride scanline dim.width dim.height).Holds dim :=
    Plane.padded_holds halign hw hh
  unfold calcOffsetPadded at h
  split at h
  case h_1 | h_2 =>
    obtain rfl := Option.some.inj h
    rw [PlaneInfo.fits_two_iff, htype]
    exact ⟨hy, Plane.padded_holds halign hw hrows⟩
  case h_3 =>
    obtain rfl := Option.some.inj h
    rw [PlaneInfo.fits_three_iff, htype]
    exact ⟨hy, Plane.padded_holds halign (half_le_yv12 hw) hrows⟩
  case h_4 | h_5 =>
    obtain rfl := Option.some.inj h
    rw [PlaneInfo.fits_two_iff, htype]
    exact ⟨hy, hy⟩
  case h_6 => cases h

theorem calcOffsetSnapshot_fits_iff (htype : type.layout fmt = fmt) :
    (∀ info, calcOffsetSnapshot chip fmt dim padding = some info → info.Fits type fmt dim) ↔
      (chip.isAFamily → SnapshotRoom fmt dim padding.planePadding) := by
  have hpow : ∃ k, 2 ^ k = 16 := ⟨4, rfl⟩
  by_cases hchip : chip.isAFamily
  · have hscan : padToSize dim.height 16 = dim.height + padGap dim.height 16 :=
      padToSize_eq hpow _
    have hrows : (dim.height + padGap dim.height 16 + padGap dim.height 16) / 2 =
        dim.height / 2 + padGap dim.height 16 + 0 := by
      omega
    have hwidth : dim.width / 2 ≤ padToSize (dim.width / 2) 16 := le_padToSize hpow _
    simp only [calcOffsetSnapshot, hchip, if_true, hscan, Nat.add_sub_cancel_left, forall_const]
    unfold calcOffsetPadded SnapshotRoom
    split
    case h_1 | h_2 =>
      simp only [Option.some.injEq, forall_eq', PlaneInfo.fits_two_iff, htype, imageOf, hrows]
      exact and_congr (Plane.padded_holds_iff padding.plane_pow (Nat.le_refl _) rfl)
        (Plane.padded_holds_iff padding.plane_pow (Nat.le_refl _) rfl)
    case h_3 =>
      simp only [Option.some.injEq, forall_eq', PlaneInfo.fits_three_iff, htype, imageOf, hrows]
      exact and_congr (Plane.padded_holds_iff padding.plane_pow (Nat.le_refl _) rfl)
        (Plane.padded_holds_iff padding.plane_pow hwidth rfl)
    case h_4 | h_5 =>
      simp only [Option.some.injEq, forall_eq', PlaneInfo.fits_two_iff, htype, imageOf, and_self]
      exact Plane.padded_holds_iff padding.plane_pow (Nat.le_refl _) rfl
    case h_6 => simp_all
  · simp only [hchip, Bool.false_eq_true, false_implies, iff_true]
    intro info h
    rw [calcOffsetSnapshot, if_neg hchip] at h
    exact calcOffsetPadded_fits padding.plane_pow (le_padToSize padding.width_pow _)
      (le_padToSize padding.height_pow _) htype h

theorem calcOffsetAnalysis_fits (htype : type.layout fmt = fmt) {info : PlaneInfo}
    (h : calcOffsetAnalysis fmt dim padding = some info) : info.Fits type fmt dim := by
  refine calcOffsetPadded_fits padding.plane_pow ?_ ?_ htype h
  · refine le_trans ?_ (le_padToSize padding.width_pow _)
    split <;> omega
  · refine le_trans ?_ (le_padToSize padding.height_pow _)
    split <;> omega

theorem le_rawStrides {width stride strideInBytes : Nat}
    (h : rawStrides width fmt = some (stride, strideInBytes)) : width ≤ stride := by
  have h4 : width ≤ padToSize width 4 := le_padToSize ⟨2, rfl⟩ _
  have h8 : width ≤ padToSize width 8 := le_padToSize ⟨3, rfl⟩ _
  have h16 : width ≤ padToSize width 16 := le_padToSize ⟨4, rfl⟩ _
  have h32 : width ≤ padToSize width 32 := le_padToSize ⟨5, rfl⟩ _
  cases fmt <;> simp [rawStrides] at h <;> omega

theorem calcOffsetRaw_fits (htype : type.layout fmt = fmt) {info : PlaneInfo}
    (h : calcOffsetRaw fmt dim padding = some info) : info.Fits type fmt dim := by
  have hw := le_padToSize padding.width_pow dim.width
  have hh := le_padToSize padding.height_pow dim.height
  have hplane (stride : Nat) {rows scanline : Nat} (hrows : rows ≤ scanline) :
      stride * rows ≤ padToSize (stride * scanline) padding.planePadding :=
    (Nat.mul_le_mul_left _ hrows).trans (le_padToSize padding.plane_pow _)
  unfold calcOffsetRaw at h
  split at h
  case h_1 =>
    obtain rfl := Option.some.inj h
    rw [PlaneInfo.fits_two_iff, htype]
    have hrows := Nat.div_le_div_right (c := 2) hh
    refine ⟨⟨hw, hh, ?_⟩, ⟨hw, hrows, ?_⟩⟩
    · simpa [Plane.rowBytes, Plane.padded] using hplane _ hh
    · simpa [Plane.rowBytes, Plane.padded, imageOf] using hplane _ hrows
  case h_2 =>
    obtain ⟨⟨stride, strideInBytes⟩, hstrides, rfl⟩ := Option.map_eq_some_iff.1 h
    rw [PlaneInfo.fits_pages_iff]
    simp only [List.zipIdx_cons, List.zipIdx_nil, List.mem_singleton, forall_eq, imageOf_zero]
    refine ⟨le_rawStrides hstrides, hh, ?_⟩
    simpa [Plane.rowBytes] using hplane _ hh

theorem calcOffsetVideo_fits : (calcOffsetVideo chip dim).Fits .video fmt dim := by
  unfold calcOffsetVideo
  split
  case h_1 v _ => exact v.layout_fits rfl
  case h_2 =>
    have hy : (Plane.view dim.width dim.height dim.width dim.height).Holds dim :=
      Plane.view_holds (Nat.le_refl _) (Nat.le_refl _)
    have hc : (Plane.view dim.width (dim.height / 2) dim.width (dim.height / 2)).Holds
        ⟨dim.width, dim.height / 2⟩ :=
      Plane.view_holds (Nat.le_refl _) (Nat.le_refl _)
    exact PlaneInfo.fits_two_iff.2 ⟨hy.longer (le_padToSize ⟨11, rfl⟩ _),
      hc.longer (le_padToSize ⟨11, rfl⟩ _)⟩

theorem calcOffsetMetadata_fits : (calcOffsetMetadata dim padding).Fits .metadata fmt dim := by
  have hy : (Plane.view dim.width dim.height dim.width dim.height).Holds dim :=
    Plane.view_holds (Nat.le_refl _) (Nat.le_refl _)
  refine ⟨?_, fun _ _ _ hij hp => PlaneInfo.start_add_len_le _ hij hp, ?_,
    fun h => absurd rfl h⟩
  · simp only [calcOffsetMetadata, List.zipIdx_cons, List.zipIdx_nil, List.mem_singleton,
      forall_eq, imageOf_zero]
    exact hy.longer (le_padToSize padding.plane_pow _)
  · simp [calcOffsetMetadata]

def Room (chip : Chip) (type : StreamType) (fmt : CamFormat) (dim : Dimension)
    (padding : PaddingInfo) : Prop :=
  match type with
  | .preview | .callback | .postview => fmt = .yuv420Nv21Adreno → dim.width % 64 ≠ 1
  | .snapshot => chip.isAFamily → SnapshotRoom fmt dim padding.planePadding
  | _ => True

theorem calcOffsetOf_fits_iff :
    (∀ info, calcOffsetOf chip type fmt dim padding = some info → info.Fits type fmt dim) ↔
      Room chip type fmt dim padding := by
  unfold calcOffsetOf Room
  cases type with
  | preview | callback => exact calcOffsetView_fits_iff ⟨5, rfl⟩ ⟨1, rfl⟩ rfl
  | postview => exact calcOffsetView_fits_iff ⟨6, rfl⟩ ⟨6, rfl⟩ rfl
  | snapshot => exact calcOffsetSnapshot_fits_iff rfl
  | video => simpa using calcOffsetVideo_fits
  | raw => exact iff_of_true (fun _ h => calcOffsetRaw_fits rfl h) trivial
  | analysis => exact iff_of_true (fun _ h => calcOffsetAnalysis_fits rfl h) trivial
  | metadata => simpa using calcOffsetMetadata_fits
  | default | implDefined | offlineProc | parm => simp

end

def StreamInfo.sourceType (info : StreamInfo) : StreamType :=
  match info.reprocessConfig with
  | .offline .offlineProc _ | .online .offlineProc => .snapshot
  | .offline type _ | .online type => type

def StreamInfo.copied (info : StreamInfo) (plns : PlaneInfo) : Option PlaneInfo :=
  match info.reprocessConfig with
  | .offline .default input => if plns.frameLen = 0 then some input else none
  | _ => none

theorem calcOffsetPostproc_eq (chip : Chip) (info : StreamInfo) (padding : PaddingInfo)
    (plns : PlaneInfo) : calcOffsetPostproc chip info padding plns =
      (info.copied plns).or (calcOffsetOf chip info.sourceType info.fmt info.dim padding) := by
  unfold calcOffsetPostproc StreamInfo.copied StreamInfo.sourceType
  cases info.reprocessConfig with
  | offline type input =>
    cases type with
    | default =>
      by_cases hlen : plns.frameLen = 0
      · simp [hlen]
      · simp [hlen]
    | _ => rfl
  | online type =>
    cases type <;> rfl

inductive LayoutCall
  | direct (type : StreamType) (fmt : CamFormat) (dim : Dimension) (padding : PaddingInfo)
  | postproc (info : StreamInfo) (padding : PaddingInfo) (plns : PlaneInfo)
  | stream (info : StreamInfo) (padding : PaddingInfo)

namespace LayoutCall

def run (chip : Chip) : LayoutCall → Option PlaneInfo
  | direct type fmt dim padding => calcOffsetOf chip type fmt dim padding
  | postproc info padding plns => calcOffsetPostproc chip info padding plns
  | stream info padding => calcOffset chip info padding

/-- The planes fit for the type, format and image that are laid out. -/
def Fits (planes : PlaneInfo) : LayoutCall → Prop
  | direct type fmt dim _ => planes.Fits type fmt dim
  | postproc info _ _ => planes.Fits info.sourceType info.fmt info.dim
  | stream info _ => match info.streamType with
    | .offlineProc => planes.Fits info.sourceType info.fmt info.dim
    | type => planes.Fits type info.fmt info.rotated

def PostprocRoom (chip : Chip) (info : StreamInfo) (padding : PaddingInfo) (plns : PlaneInfo) :
    Prop :=
  (∀ input ∈ info.copied plns, input.Fits .default info.fmt info.dim) ∧
    Room chip info.sourceType info.fmt info.dim padding

def HasRoom (chip : Chip) : LayoutCall → Prop
  | direct type fmt dim padding => Room chip type fmt dim padding
  | postproc info padding plns => PostprocRoom chip info padding plns
  | stream info padding => match info.streamType with
    | .offlineProc => PostprocRoom chip info padding info.bufPlanes
    | type => Room chip type info.fmt info.rotated padding

theorem postproc_iff (chip : Chip) (info : StreamInfo) (padding : PaddingInfo)
    (plns : PlaneInfo) :
    (∀ planes, calcOffsetPostproc chip info padding plns = some planes →
      planes.Fits info.sourceType info.fmt info.dim) ↔ PostprocRoom chip info padding plns := by
  rw [calcOffsetPostproc_eq, PostprocRoom, ← calcOffsetOf_fits_iff]
  cases hcopied : info.copied plns with
  | none => simp
  | some input =>
    -- the input's planes are taken over for the default type only, which has no routine
    have hdefault : info.sourceType = .default := by
      unfold StreamInfo.copied at hcopied
      split at hcopied
      case h_1 h => simp [StreamInfo.sourceType, h]
      case h_2 => cases hcopied
    simp [hdefault, calcOffsetOf]

/-- The planes that a routine lays out fit exactly if the call has room. -/
theorem planes_fit_iff (chip : Chip) (call : LayoutCall) :
    (∀ planes, call.run chip = some planes → call.Fits planes) ↔ call.HasRoom chip := by
  cases call with
  | direct type fmt dim padding => exact calcOffsetOf_fits_iff
  | postproc info padding plns => exact postproc_iff chip info padding plns
  | stream info padding =>
    simp only [run, Fits, HasRoom, calcOffset]
    cases info.streamType with
    | offlineProc => exact postproc_iff chip info padding info.bufPlanes
    | _ => exact calcOffsetOf_fits_iff

/-- The second plane of a preview of 65 pixels has rows of 64. -/
theorem not_planes_fit : ¬ ∀ (chip : Chip) (call : LayoutCall) (planes : PlaneInfo),
    call.run chip = some planes → call.Fits planes := by
  intro hall
  have hfits := hall ⟨false, none⟩
    (direct .preview .yuv420Nv21Adreno ⟨65, 2⟩ ⟨1, 1, 1, 0, 0, ⟨0, rfl⟩, ⟨0, rfl⟩, ⟨0, rfl⟩⟩) _ rfl
  have hstride := (PlaneInfo.fits_two_iff.1 hfits).2.stride
  exact absurd ((adreno_stride_iff 65).1 hstride) (by decide)

end LayoutCall

end EtherDevice.MmStream
