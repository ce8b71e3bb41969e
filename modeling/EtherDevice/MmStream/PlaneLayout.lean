import Mathlib.Data.Nat.Bitwise
import Mathlib.Tactic.Common

/-!
# The plane layouts of a camera stream

The `mm_stream_calc_offset_*` routines lay an image out as one to three planes in a frame. Sizes
are natural numbers: the domain is that of the sizes for which nothing overflows 32 bits.
-/

namespace EtherDevice.MmStream

def padToSize (size padding : Nat) : Nat := (size + (padding - 1)).ldiff (padding - 1)

def padGap (size padding : Nat) : Nat := (padding - size % padding) % padding

theorem ldiff_two_pow_sub_one (n k : Nat) : n.ldiff (2 ^ k - 1) = n / 2 ^ k * 2 ^ k := by
  apply Nat.eq_of_testBit_eq
  intro i
  rw [Nat.testBit_ldiff, Nat.testBit_two_pow_sub_one, Nat.testBit_mul_two_pow,
    Nat.testBit_div_two_pow]
  by_cases h : k ≤ i
  · simp [h, Nat.sub_add_cancel h]
  · simp [h, Nat.lt_of_not_le h]

section Padding

variable {padding : Nat} (hpow : ∃ k, 2 ^ k = padding)
include hpow

theorem padToSize_eq (size : Nat) : padToSize size padding = size + padGap size padding := by
  obtain ⟨k, rfl⟩ := hpow
  have hpos : 0 < 2 ^ k := Nat.two_pow_pos k
  have hdiv := Nat.div_add_mod size (2 ^ k)
  have hlt := Nat.mod_lt size hpos
  rw [padToSize, ldiff_two_pow_sub_one, padGap]
  generalize 2 ^ k = p at *
  by_cases hzero : size % p = 0
  · have hquot : (size + (p - 1)) / p = size / p := by
      apply Nat.div_eq_of_lt_le
      · rw [Nat.mul_comm]
        omega
      · rw [Nat.succ_mul, Nat.mul_comm]
        omega
    rw [hquot, hzero, Nat.sub_zero, Nat.mod_self, Nat.mul_comm]
    omega
  · have hquot : (size + (p - 1)) / p = size / p + 1 := by
      apply Nat.div_eq_of_lt_le
      · rw [Nat.succ_mul, Nat.mul_comm]
        omega
      · rw [Nat.succ_mul, Nat.succ_mul, Nat.mul_comm]
        omega
    rw [hquot, Nat.mod_eq_of_lt (by omega), Nat.succ_mul, Nat.mul_comm]
    omega

theorem le_padToSize (size : Nat) : size ≤ padToSize size padding := by
  rw [padToSize_eq hpow]
  omega

theorem dvd_padToSize (size : Nat) : padding ∣ padToSize size padding := by
  obtain ⟨k, rfl⟩ := hpow
  rw [padToSize, ldiff_two_pow_sub_one]
  exact Nat.dvd_mul_left _ _

end Padding

inductive BayerOrder
  | gbrg | grbg | rggb | bggr

inductive YuvOrder
  | yuyv | yvyu | uyvy | vyuy

inductive CamFormat
  | jpeg | yuv420Nv12 | yuv420Nv21 | yuv420Nv21Adreno | yuv420Yv12 | yuv422Nv16 | yuv422Nv61
  | yuv420Nv12Venus | jpegRaw8Bit | metaRaw8Bit | yuv444Nv24 | yuv444Nv42
  | yuvRaw8Bit (order : YuvOrder)
  | qcomRaw8Bpp (order : BayerOrder) | qcomRaw10Bpp (order : BayerOrder)
  | qcomRaw12Bpp (order : BayerOrder) | qcomRaw14Bpp (order : BayerOrder)
  | mipiRaw8Bpp (order : BayerOrder) | mipiRaw10Bpp (order : BayerOrder)
  | mipiRaw12Bpp (order : BayerOrder) | mipiRaw14Bpp (order : BayerOrder)
  | idealRawQcom8Bpp (order : BayerOrder) | idealRawQcom10Bpp (order : BayerOrder)
  | idealRawQcom12Bpp (order : BayerOrder) | idealRawQcom14Bpp (order : BayerOrder)
  | idealRawMipi8Bpp (order : BayerOrder) | idealRawMipi10Bpp (order : BayerOrder)
  | idealRawMipi12Bpp (order : BayerOrder) | idealRawMipi14Bpp (order : BayerOrder)
  | idealRawPlain8 (order : BayerOrder) | idealRawPlain16Of8 (order : BayerOrder)
  | idealRawPlain16Of10 (order : BayerOrder) | idealRawPlain16Of12 (order : BayerOrder)
  | idealRawPlain16Of14 (order : BayerOrder)

inductive StreamType
  | default | preview | postview | snapshot | video | callback | implDefined | metadata | raw
  | offlineProc | parm | analysis

structure Dimension where
  width : Nat
  height : Nat

structure PaddingInfo where
  widthPadding : Nat
  heightPadding : Nat
  planePadding : Nat
  minStride : Nat
  minScanline : Nat
  width_pow : ∃ k, 2 ^ k = widthPadding
  height_pow : ∃ k, 2 ^ k = heightPadding
  plane_pow : ∃ k, 2 ^ k = planePadding

/-- The kernel's `VENUS_*` macros for `COLOR_FMT_NV12`: they cover the image, and a buffer holds
both planes and ends on a page. -/
structure Venus where
  yStride : Nat → Nat
  yScanlines : Nat → Nat
  uvStride : Nat → Nat
  uvScanlines : Nat → Nat
  bufferSize : Nat → Nat → Nat
  le_yStride : ∀ width, width ≤ yStride width
  le_yScanlines : ∀ height, height ≤ yScanlines height
  le_uvStride : ∀ width, width ≤ uvStride width
  le_uvScanlines : ∀ height, height / 2 ≤ uvScanlines height
  le_bufferSize : ∀ width height, yStride width * yScanlines height +
    uvStride width * uvScanlines height ≤ bufferSize width height
  dvd_bufferSize : ∀ width height, 4096 ∣ bufferSize width height

/-- What the build says of the chip: `USE_A_FAMILY` and `VENUS_PRESENT`. -/
structure Chip where
  isAFamily : Bool
  venus : Option Venus

/-- `cam_mp_len_offset_t`; a field that a routine leaves as it was is `none`. -/
structure Plane where
  len : Nat
  offset : Nat := 0
  offsetX : Nat := 0
  offsetY : Nat := 0
  stride : Nat
  strideInBytes : Option Nat := none
  scanline : Nat
  width : Option Nat
  height : Option Nat

/-- `cam_frame_len_offset_t`; the number of planes is the list's length. -/
structure PlaneInfo where
  frameLen : Nat
  mp : List Plane

def Plane.view (stride scanline width height : Nat) : Plane :=
  { len := stride * scanline, stride, scanline, width := some width, height := some height }

def Plane.padded (align offsetY stride scanline width height : Nat) : Plane :=
  { len := padToSize (stride * scanline) align
    offset := padToSize (0 + stride * offsetY) align
    offsetY, stride, scanline, width := some width, height := some height }

def PlaneInfo.pages (mp : List Plane) : PlaneInfo :=
  { frameLen := padToSize (mp.map Plane.len).sum 4096, mp }

def Venus.layout (v : Venus) (dim : Dimension) : PlaneInfo :=
  let y := Plane.view (v.yStride dim.width) (v.yScanlines dim.height) dim.width dim.height
  let frameLen := v.bufferSize dim.width dim.height
  { frameLen
    mp := [y, { Plane.view (v.uvStride dim.width) (v.uvScanlines dim.height) dim.width
      (dim.height / 2) with len := frameLen - y.len }] }

/-- The preview and the postview differ in the paddings of the formats NV12 and NV21. -/
def calcOffsetView (chip : Chip) (stridePad scanPad : Nat) (fmt : CamFormat) (dim : Dimension) :
    Option PlaneInfo :=
  match fmt with
  | .yuv420Nv12 | .yuv420Nv21 =>
    let stride := padToSize dim.width stridePad
    some (.pages [.view stride (padToSize dim.height scanPad) dim.width dim.height,
      .view stride (padToSize (dim.height / 2) scanPad) dim.width (dim.height / 2)])
  | .yuv420Nv21Adreno =>
    let y := Plane.view (padToSize dim.width 32) (padToSize dim.height 32) dim.width dim.height
    let c := Plane.view (padToSize (dim.width / 2) 32 * 2) (padToSize (dim.height / 2) 32)
      dim.width (dim.height / 2)
    some (.pages [{ y with len := padToSize y.len 4096 }, { c with len := padToSize c.len 4096 }])
  | .yuv420Yv12 =>
    let stride := padToSize dim.width 16
    let scanline := padToSize dim.height 2
    let c := Plane.view (padToSize (stride / 2) 16) (scanline / 2) (dim.width / 2) (dim.height / 2)
    some (.pages [.view stride scanline dim.width dim.height, c, c])
  | .yuv422Nv16 | .yuv422Nv61 =>
    let y := Plane.view (padToSize dim.width 16) dim.height dim.width dim.height
    some (.pages [y, y])
  | .yuv420Nv12Venus => chip.venus.map (·.layout dim)
  | _ => none

def calcOffsetPreview (chip : Chip) := calcOffsetView chip 32 2

def calcOffsetPostView (chip : Chip) := calcOffsetView chip 64 64

def calcOffsetPadded (fmt : CamFormat) (dim : Dimension) (align offsetY stride scanline : Nat) :
    Option PlaneInfo :=
  let y := Plane.padded align offsetY stride scanline dim.width dim.height
  match fmt with
  | .yuv420Nv12 | .yuv420Nv21 =>
    some (.pages [y, .padded align offsetY stride (scanline / 2) dim.width (dim.height / 2)])
  | .yuv420Yv12 =>
    let c := Plane.padded align offsetY (padToSize (stride / 2) 16) (scanline / 2) (dim.width / 2)
      (dim.height / 2)
    some (.pages [y, c, c])
  | .yuv422Nv16 | .yuv422Nv61 => some (.pages [y, y])
  | _ => none

def calcOffsetSnapshot (chip : Chip) (fmt : CamFormat) (dim : Dimension) (padding : PaddingInfo) :
    Option PlaneInfo :=
  if chip.isAFamily then
    let scanline := padToSize dim.height 16
    let offsetY := scanline - dim.height
    -- double padding
    calcOffsetPadded fmt dim padding.planePadding offsetY dim.width (scanline + offsetY)
  else
    calcOffsetPadded fmt dim padding.planePadding 0 (padToSize dim.width padding.widthPadding)
      (padToSize dim.height padding.heightPadding)

def calcOffsetAnalysis (fmt : CamFormat) (dim : Dimension) (padding : PaddingInfo) :
    Option PlaneInfo :=
  let stride := if dim.width < padding.minStride then padding.minStride else dim.width
  let scanline := if dim.height < padding.minScanline then padding.minScanline else dim.height
  calcOffsetPadded fmt dim padding.planePadding 0 (padToSize stride padding.widthPadding)
    (padToSize scanline padding.heightPadding)

def rawStrides (width : Nat) : CamFormat → Option (Nat × Nat)
  | .yuvRaw8Bit _ | .jpegRaw8Bit | .metaRaw8Bit =>
    some (padToSize width 16, padToSize width 16 * 2)
  | .qcomRaw8Bpp _ | .mipiRaw8Bpp _ | .idealRawQcom8Bpp _ | .idealRawMipi8Bpp _
  | .idealRawPlain8 _ => some (padToSize width 16, padToSize width 16)
  | .qcomRaw10Bpp _ | .idealRawQcom10Bpp _ =>
    some ((width + 11) / 12 * 12, (width + 11) / 12 * 12 * 8 / 6)
  | .qcomRaw12Bpp _ | .idealRawQcom12Bpp _ =>
    some ((width + 9) / 10 * 10, (width + 9) / 10 * 10 * 8 / 5)
  | .mipiRaw10Bpp _ | .idealRawMipi10Bpp _ =>
    some (padToSize width 4, padToSize (padToSize width 4 * 5 / 4) 8)
  | .mipiRaw12Bpp _ | .idealRawMipi12Bpp _ => some (padToSize width 32, padToSize width 32 * 3 / 2)
  | .idealRawPlain16Of8 _ | .idealRawPlain16Of10 _ | .idealRawPlain16Of12 _ =>
    some (padToSize width 8, padToSize width 8 * 2)
  | _ => none

def calcOffsetRaw (fmt : CamFormat) (dim : Dimension) (padding : PaddingInfo) :
    Option PlaneInfo :=
  let stride := padToSize dim.width padding.widthPadding
  let scanline := padToSize dim.height padding.heightPadding
  match fmt with
  | .yuv420Nv21 =>
    let y := Plane.padded padding.planePadding 0 stride scanline dim.width dim.height
    let c := Plane.padded padding.planePadding 0 stride (scanline / 2) dim.width (dim.height / 2)
    some (.pages [{ y with offset := 0, strideInBytes := some stride },
      { c with offset := 0, strideInBytes := some stride }])
  | _ => (rawStrides dim.width fmt).map fun (stride, strideInBytes) =>
    let len := padToSize (strideInBytes * scanline) padding.planePadding
    -- the width is the plane's length in bytes; `metaRaw8Bit` sets neither
    let (width, height) := match fmt with
      | .metaRaw8Bit => (none, none)
      | _ => (some len, some 1)
    .pages [{ len, stride, strideInBytes := some strideInBytes, scanline, width, height }]

def calcOffsetVideo (chip : Chip) (dim : Dimension) : PlaneInfo :=
  match chip.venus with
  | some v => v.layout dim
  | none =>
    let y := Plane.view dim.width dim.height dim.width dim.height
    let c := Plane.view dim.width (dim.height / 2) dim.width (dim.height / 2)
    .pages [{ y with len := padToSize y.len 2048 }, { c with len := padToSize c.len 2048 }]

def calcOffsetMetadata (dim : Dimension) (padding : PaddingInfo) : PlaneInfo :=
  let y := Plane.view dim.width dim.height dim.width dim.height
  let len := padToSize y.len padding.planePadding
  { frameLen := len, mp := [{ y with len }] }

def calcOffsetOf (chip : Chip) (type : StreamType) (fmt : CamFormat) (dim : Dimension)
    (padding : PaddingInfo) : Option PlaneInfo :=
  match type with
  | .preview | .callback => calcOffsetPreview chip fmt dim
  | .postview => calcOffsetPostView chip fmt dim
  | .snapshot => calcOffsetSnapshot chip fmt dim padding
  | .video => some (calcOffsetVideo chip dim)
  | .raw => calcOffsetRaw fmt dim padding
  | .analysis => calcOffsetAnalysis fmt dim padding
  | .metadata => some (calcOffsetMetadata dim padding)
  | _ => none

inductive Reprocess
  | offline (inputType : StreamType) (inputBufPlanes : PlaneInfo)
  | online (inputStreamType : StreamType)

inductive Rotation
  | r0 | r90 | r180 | r270
  deriving DecidableEq

/-- What the routines read of `cam_stream_info_t`; `rotationFeature` is the bit of the mask. -/
structure StreamInfo where
  streamType : StreamType
  fmt : CamFormat
  dim : Dimension
  rotationFeature : Bool
  rotation : Rotation
  reprocessConfig : Reprocess
  bufPlanes : PlaneInfo

def calcOffsetPostproc (chip : Chip) (info : StreamInfo) (padding : PaddingInfo)
    (plns : PlaneInfo) : Option PlaneInfo :=
  let byType (type : StreamType) := match type with
    | .offlineProc => calcOffsetSnapshot chip info.fmt info.dim padding
    | _ => calcOffsetOf chip type info.fmt info.dim padding
  match info.reprocessConfig with
  -- take offset from input source
  | .offline .default input => if plns.frameLen = 0 then some input else byType .default
  | .offline type _ => byType type
  | .online type => byType type

def StreamInfo.rotated (info : StreamInfo) : Dimension :=
  match info.rotationFeature, info.streamType, info.rotation with
  | true, .video, _ => info.dim
  | true, _, .r90 | true, _, .r270 => ⟨info.dim.height, info.dim.width⟩
  | _, _, _ => info.dim

def calcOffset (chip : Chip) (info : StreamInfo) (padding : PaddingInfo) : Option PlaneInfo :=
  match info.streamType with
  | .offlineProc => calcOffsetPostproc chip info padding info.bufPlanes
  | type => calcOffsetOf chip type info.fmt info.rotated padding

end EtherDevice.MmStream
