import EtherDevice.Lib.InPlace
import Mathlib.Data.Nat.Bitwise

/-!
# Raw frames

`QCamera3RawChannel` converts a frame of packed 10 bit pixels to words of 16 bits, in the frame's
own buffer and from the last pixel to the first. The rows of the output are a multiple of 16 pixels
long, and at least as long as those of the input. Products wrap in 32 bits; the output fits into the
buffer, whose length has 32 bits.

A legacy pixel is read from bytes that the pixels behind it do not reach, so that conversion is
exact. A MIPI pixel takes its two low bits from the wrong position, and the last byte of the first
group may be overwritten before the first two pixels are read.
-/

namespace EtherDevice.Hal3.RawConversion

open Lib

/-- `dim` and `offset.mp[0]` of the stream -/
structure Frame where
  width : Nat
  height : Nat
  stride_in_bytes : Nat

namespace Frame

variable (f : Frame)

/-- The width, rounded up to a multiple of 16. -/
def raw16_stride : Nat := (f.width + 15) / 16 * 16

def pixels : List (Nat × Nat) :=
  (List.range f.height).reverse.flatMap fun y => (List.range f.width).reverse.map fun x => (y, x)

def pos (p : Nat × Nat) : Nat := (p.1 * f.raw16_stride + p.2) % 2 ^ 32

def convert (pixel : Memory → Nat × Nat → Nat) (buffer : Memory) : Memory :=
  (List.range f.height).reverse.foldl (fun buffer y =>
    (List.range f.width).reverse.foldl (fun buffer x =>
      buffer.setWord (f.pos (y, x)) (pixel buffer (y, x))) buffer) buffer

def mipiRow (y : Nat) : Nat := y * f.stride_in_bytes % 2 ^ 32

def mipiToRaw16 (buffer : Memory) (p : Nat × Nat) : Nat :=
  let upper_8bit := buffer (f.mipiRow p.1 + (5 * (p.2 / 4) + p.2 % 4))
  let lower_2bit := (buffer (f.mipiRow p.1 + (5 * (p.2 / 4) + 4))).toNat >>> (p.2 % 4) &&& 3
  upper_8bit.toNat <<< 2 ||| lower_2bit

def convertMipiToRaw16 (buffer : Memory) : Memory := f.convert f.mipiToRaw16 buffer

/-- The address of the bits 9 to 2 of a pixel. -/
def upperByte (p : Nat × Nat) : Nat := p.1 * f.stride_in_bytes + (5 * (p.2 / 4) + p.2 % 4)

def lowerByte (p : Nat × Nat) : Nat := p.1 * f.stride_in_bytes + (5 * (p.2 / 4) + 4)

/-- The value of a pixel: its bits 9 to 2, and its two bits among the low bits of its group. -/
def mipiPixel (buffer : Memory) (p : Nat × Nat) : Nat :=
  4 * (buffer (f.upperByte p)).toNat + (buffer (f.lowerByte p)).toNat / 4 ^ (p.2 % 4) % 4

def legacyWord (p : Nat × Nat) : Nat :=
  8 * (p.1 * f.stride_in_bytes % 2 ^ 32 / 8 + p.2 / 6)

def legacyToRaw16 (buffer : Memory) (p : Nat × Nat) : Nat :=
  0x3FF &&& buffer.loadLE (f.legacyWord p) 8 >>> (10 * (p.2 % 6))

def convertLegacyToRaw16 (buffer : Memory) : Memory := f.convert f.legacyToRaw16 buffer

/-- The value of a pixel: ten bits of its word. -/
def legacyPixel (buffer : Memory) (p : Nat × Nat) : Nat :=
  buffer.loadLE (p.1 * f.stride_in_bytes + 8 * (p.2 / 6)) 8 / 1024 ^ (p.2 % 6) % 1024

/-- The output has 32 bit addresses, and its rows are no shorter than those of the input. -/
structure Fits : Prop where
  output : 2 * (f.height * f.raw16_stride) ≤ 2 ^ 32
  stride : f.stride_in_bytes ≤ 2 * f.raw16_stride

variable {f : Frame} {p : Nat × Nat} {a : Nat}

theorem convert_eq_walk (pixel : Memory → Nat × Nat → Nat) (buffer : Memory) :
    f.convert pixel buffer = Memory.walk pixel f.pos f.pixels buffer := by
  rw [convert, Memory.walk, pixels, List.foldl_flatMap]
  simp only [List.foldl_map]

theorem mem_pixels : p ∈ f.pixels ↔ p.1 < f.height ∧ p.2 < f.width := by
  grind [pixels]

theorem width_le (f : Frame) : f.width ≤ f.raw16_stride := by
  unfold raw16_stride
  omega

theorem row_le {y y' : Nat} (h : y < y') :
    y * f.raw16_stride + f.raw16_stride ≤ y' * f.raw16_stride := by
  rw [← Nat.succ_mul]
  exact Nat.mul_le_mul_right _ h

theorem Fits.pos (h : f.Fits) (hp : p ∈ f.pixels) : f.pos p = p.1 * f.raw16_stride + p.2 := by
  obtain ⟨hy, hx⟩ := mem_pixels.mp hp
  have hrow := row_le (f := f) hy
  have hwidth := f.width_le
  have houtput := h.output
  exact Nat.mod_eq_of_lt (by omega)

theorem Fits.row (h : f.Fits) (y : Nat) :
    y * f.stride_in_bytes ≤ 2 * (y * f.raw16_stride) := by
  have hstride := Nat.mul_le_mul_left y h.stride
  simp_all [Nat.mul_left_comm]

theorem Fits.row_mod (h : f.Fits) (hp : p ∈ f.pixels) :
    p.1 * f.stride_in_bytes % 2 ^ 32 = p.1 * f.stride_in_bytes := by
  obtain ⟨hy, hx⟩ := mem_pixels.mp hp
  have hrow := row_le (f := f) hy
  have hwidth := f.width_le
  have houtput := h.output
  have hinput := h.row p.1
  exact Nat.mod_eq_of_lt (by omega)

theorem Fits.falling (h : f.Fits) : Memory.Falling f.pos f.pixels := by
  have hplain : f.pixels.Pairwise fun p q =>
      q.1 * f.raw16_stride + q.2 < p.1 * f.raw16_stride + p.2 := by
    apply List.pairwise_flatMap.mpr
    refine ⟨fun y _ => ?_, ?_⟩
    · rw [List.pairwise_map, List.pairwise_reverse]
      exact List.pairwise_lt_range.imp fun hlt => Nat.add_lt_add_left hlt _
    · rw [List.pairwise_reverse]
      refine List.pairwise_lt_range.imp fun {y y'} hlt => ?_
      rintro p hp q hq
      obtain ⟨x', hx', rfl⟩ := List.mem_map.mp hp
      obtain ⟨x, hx, rfl⟩ := List.mem_map.mp hq
      have hx : x < f.width := List.mem_range.mp (List.mem_reverse.mp hx)
      have hrow := row_le (f := f) hlt
      have hwidth := f.width_le
      show y * f.raw16_stride + x < y' * f.raw16_stride + x'
      omega
  exact hplain.imp_of_mem fun hp hq hlt => by rwa [h.pos hp, h.pos hq]

theorem loadLE_bits (mem : Memory) (off : Nat) {r : Nat} (hr : r < 6) :
    mem.loadLE off 8 / 1024 ^ r % 1024 =
      mem.loadLE (off + 10 * r / 8) 2 / 2 ^ (10 * r % 8) % 1024 := by
  obtain ⟨k, hk⟩ : ∃ k, k = 10 * r / 8 := ⟨_, rfl⟩
  obtain ⟨n, hn⟩ : ∃ n, 8 = k + (2 + n) := ⟨8 - k - 2, by omega⟩
  have hload : mem.loadLE off 8 = mem.loadLE off k +
      256 ^ k * (mem.loadLE (off + k) 2 + 256 ^ 2 * mem.loadLE (off + k + 2) n) := by
    rw [hn, Memory.loadLE_add, Memory.loadLE_add]
  have hlow := mem.loadLE_lt off k
  rw [hload, ← hk]
  obtain rfl | rfl | rfl | rfl | rfl | rfl : r = 0 ∨ r = 1 ∨ r = 2 ∨ r = 3 ∨ r = 4 ∨ r = 5 := by
    omega
  all_goals
    subst hk
    simp only [Nat.reduceMul, Nat.reduceDiv, Nat.reduceMod, Nat.reducePow] at hlow ⊢
    omega

theorem legacyToRaw16_eq (h : f.Fits) (halign : 8 ∣ f.stride_in_bytes) (hp : p ∈ f.pixels)
    (buffer : Memory) : f.legacyToRaw16 buffer p = f.legacyPixel buffer p := by
  have hword : f.legacyWord p = p.1 * f.stride_in_bytes + 8 * (p.2 / 6) := by
    have hrow : 8 ∣ p.1 * f.stride_in_bytes := Dvd.dvd.mul_left halign p.1
    unfold legacyWord
    rw [h.row_mod hp]
    omega
  have hmask : ∀ n, 0x3FF &&& n = n % 1024 := by
    intro n
    rw [Nat.and_comm]
    exact Nat.and_two_pow_sub_one_eq_mod n 10
  rw [legacyToRaw16, legacyPixel, hword, hmask, Nat.shiftRight_eq_div_pow, Nat.pow_mul]

theorem legacyPixel_congr (h : f.Fits) {buffer buffer' : Memory}
    (hsame : ∀ a, a / 2 ≤ p.1 * f.raw16_stride + p.2 → buffer' a = buffer a) :
    f.legacyPixel buffer' p = f.legacyPixel buffer p := by
  have hinput := h.row p.1
  grind [legacyPixel, loadLE_bits, Memory.loadLE_congr]

end Frame

structure LegacyFrame extends Frame where
  fits : toFrame.Fits
  align : 8 ∣ stride_in_bytes
  words : 8 * ((width + 5) / 6) ≤ stride_in_bytes

/-- Each word of the output is the pixel of the original buffer. -/
theorem LegacyFrame.convertLegacyToRaw16_exact (f : LegacyFrame) (buffer : Memory) (y x : Nat)
    (hy : y < f.height) (hx : x < f.width) :
    (f.convertLegacyToRaw16 buffer).word (y * f.raw16_stride + x) =
      f.legacyPixel buffer (y, x) := by
  have hp : (y, x) ∈ f.pixels := Frame.mem_pixels.mpr ⟨hy, hx⟩
  have hpos : f.pos (y, x) = y * f.raw16_stride + x := f.fits.pos hp
  rw [Frame.convertLegacyToRaw16, Frame.convert_eq_walk, ← hpos]
  refine Memory.exact_of_behind f.fits.falling ?_ ?_ (y, x) hp
  · intro p _
    exact Nat.lt_of_lt_of_le (Nat.mod_lt _ (by decide)) (by decide)
  · intro p hp buffer' hsame
    rw [Frame.legacyToRaw16_eq f.fits f.align hp]
    apply Frame.legacyPixel_congr f.fits
    rwa [f.fits.pos hp] at hsame

def legacyPair : LegacyFrame where
  width := 2
  height := 1
  stride_in_bytes := 8
  fits := ⟨by decide, by decide⟩
  align := by decide
  words := by decide

theorem convertLegacyToRaw16_pair :
    (legacyPair.convertLegacyToRaw16 fun _ => 0xA5).word (0 * legacyPair.raw16_stride + 1) =
      legacyPair.legacyPixel (fun _ => 0xA5) (0, 1) :=
  legacyPair.convertLegacyToRaw16_exact (fun _ => 0xA5) 0 1 (by decide) (by decide)

namespace Frame

variable {f : Frame} {p : Nat × Nat} {a : Nat}

def codeBits (x : Nat) (lower : UInt8) : Nat := lower.toNat >>> (x % 4) &&& 3

theorem codeBits_lt (x : Nat) (lower : UInt8) : codeBits x lower < 4 :=
  Nat.lt_of_le_of_lt Nat.and_le_right (by decide)

theorem mipiToRaw16_eq (h : f.Fits) (hp : p ∈ f.pixels) (buffer : Memory) :
    f.mipiToRaw16 buffer p =
      4 * (buffer (f.upperByte p)).toNat + codeBits p.2 (buffer (f.lowerByte p)) := by
  have hrow : f.mipiRow p.1 = p.1 * f.stride_in_bytes := h.row_mod hp
  have hlt : codeBits p.2 (buffer (f.lowerByte p)) < 2 ^ 2 := codeBits_lt _ _
  have hor := Nat.shiftLeft_add_eq_or_of_lt hlt (buffer (f.upperByte p)).toNat
  unfold mipiToRaw16
  rw [hrow]
  calc (buffer (f.upperByte p)).toNat <<< 2 ||| codeBits p.2 (buffer (f.lowerByte p))
      = (buffer (f.upperByte p)).toNat <<< 2 + codeBits p.2 (buffer (f.lowerByte p)) := hor.symm
    _ = _ := by rw [Nat.shiftLeft_eq, Nat.mul_comm]

def seen (f : Frame) (buffer : Memory) (p : Nat × Nat) (a : Nat) : UInt8 :=
  if p.1 * f.raw16_stride + p.2 < a / 2 ∧ a / 2 < p.1 * f.raw16_stride + f.width then
    Memory.byteOf (f.mipiPixel buffer (p.1, a / 2 - p.1 * f.raw16_stride)) (a % 2)
  else buffer a

theorem Fits.written_lowerByte (h : f.Fits) {buffer : Memory} {pre post : List (Nat × Nat)}
    (hsplit : f.pixels = pre ++ p :: post) :
    Memory.written (f.mipiPixel buffer) f.pos pre buffer (f.lowerByte p) =
      f.seen buffer p (f.lowerByte p) := by
  have hp : p ∈ f.pixels := hsplit ▸ List.mem_append_right _ List.mem_cons_self
  have hfalling : Memory.Falling f.pos (pre ++ p :: post) := hsplit ▸ h.falling
  have hpos := h.pos hp
  have hinput := h.row p.1
  by_cases hover : p.1 * f.raw16_stride + p.2 < f.lowerByte p / 2 ∧
      f.lowerByte p / 2 < p.1 * f.raw16_stride + f.width
  · obtain ⟨x, hx⟩ : ∃ x, f.lowerByte p / 2 = p.1 * f.raw16_stride + x :=
      ⟨f.lowerByte p / 2 - p.1 * f.raw16_stride, by omega⟩
    have hj : (p.1, x) ∈ f.pixels := mem_pixels.mpr ⟨(mem_pixels.mp hp).1, by omega⟩
    have hjpos : f.pos (p.1, x) = p.1 * f.raw16_stride + x := h.pos hj
    have hpre : (p.1, x) ∈ pre := by
      rw [hsplit] at hj
      rcases List.mem_append.mp hj with hpre | hrest
      · exact hpre
      · rcases List.mem_cons.mp hrest with heq | hpost
        · simp_all
        · have hlt := hfalling.lt_of_post _ hpost
          omega
    rw [seen, if_pos hover, hx, Nat.add_sub_cancel_left]
    exact Memory.written_of_mem (List.pairwise_append.mp hfalling).1 hpre (hx.trans hjpos.symm)
  · rw [seen, if_neg hover]
    apply Memory.walk_frame
    intro j hj heq
    have hjmem : j ∈ f.pixels := hsplit ▸ List.mem_append_left _ hj
    have hlt := hfalling.lt_of_pre j hj
    obtain ⟨hjy, hjx⟩ := mem_pixels.mp hjmem
    rw [h.pos hjmem] at hlt heq
    have hwidth := f.width_le
    have hpx := (mem_pixels.mp hp).2
    rcases Nat.lt_trichotomy j.1 p.1 with habove | hsame | hbelow
    · have hrow := row_le (f := f) habove
      omega
    · rw [hsame] at hlt heq
      exact hover ⟨by omega, by omega⟩
    · have hrow := row_le (f := f) hbelow
      grind [raw16_stride, lowerByte]

theorem Fits.written_upperByte (h : f.Fits) {buffer : Memory} {pre post : List (Nat × Nat)}
    (hsplit : f.pixels = pre ++ p :: post) :
    Memory.written (f.mipiPixel buffer) f.pos pre buffer (f.upperByte p) =
      buffer (f.upperByte p) := by
  have hp : p ∈ f.pixels := hsplit ▸ List.mem_append_right _ List.mem_cons_self
  have hfalling : Memory.Falling f.pos (pre ++ p :: post) := hsplit ▸ h.falling
  have hinput := h.row p.1
  apply Memory.walk_pre hfalling
  rw [h.pos hp]
  unfold upperByte
  omega

end Frame

structure MipiFrame extends Frame where
  fits : toFrame.Fits
  groups : 5 * ((width + 3) / 4) ≤ stride_in_bytes

/-- The bits that the code takes are the low bits of the pixel. -/
def MipiFrame.RightBits (f : MipiFrame) (buffer : Memory) (p : Nat × Nat) : Prop :=
  Frame.codeBits p.2 (f.seen buffer p (f.lowerByte p)) =
    (buffer (f.lowerByte p)).toNat / 4 ^ (p.2 % 4) % 4

/-- Each word of the output is the pixel of the original buffer exactly if the bits at position
`x % 4`, of what is left of the low bits, are those at position `2 * (x % 4)`. -/
theorem MipiFrame.convertMipiToRaw16_exact_iff (f : MipiFrame) (buffer : Memory) :
    (∀ y < f.height, ∀ x < f.width,
      (f.convertMipiToRaw16 buffer).word (y * f.raw16_stride + x) = f.mipiPixel buffer (y, x)) ↔
    ∀ y < f.height, ∀ x < f.width, f.RightBits buffer (y, x) := by
  have hbound : ∀ buffer, ∀ p ∈ f.pixels, f.mipiToRaw16 buffer p < 65536 := by
    intro buffer p hp
    have hupper := (buffer (f.upperByte p)).toNat_lt
    have hbits := Frame.codeBits_lt p.2 (buffer (f.lowerByte p))
    rw [Frame.mipiToRaw16_eq f.fits hp]
    omega
  have hwalk := Memory.exact_iff (f.mipiPixel buffer) buffer f.fits.falling hbound
  have hleft : (∀ y < f.height, ∀ x < f.width,
      (f.convertMipiToRaw16 buffer).word (y * f.raw16_stride + x) = f.mipiPixel buffer (y, x)) ↔
      ∀ p ∈ f.pixels, (Memory.walk f.mipiToRaw16 f.pos f.pixels buffer).word (f.pos p) =
        f.mipiPixel buffer p := by
    rw [Frame.convertMipiToRaw16, Frame.convert_eq_walk]
    constructor
    · intro h p hp
      obtain ⟨hy, hx⟩ := Frame.mem_pixels.mp hp
      rw [f.fits.pos hp]
      exact h p.1 hy p.2 hx
    · intro h y hy x hx
      have hp : (y, x) ∈ f.pixels := Frame.mem_pixels.mpr ⟨hy, hx⟩
      have hpos : f.pos (y, x) = y * f.raw16_stride + x := f.fits.pos hp
      rw [← hpos]
      exact h (y, x) hp
  have hturn : ∀ pre p post, f.pixels = pre ++ p :: post →
      (f.mipiToRaw16 (Memory.written (f.mipiPixel buffer) f.pos pre buffer) p =
        f.mipiPixel buffer p ↔ f.RightBits buffer p) := by
    intro pre p post hsplit
    have hp : p ∈ f.pixels := hsplit ▸ List.mem_append_right _ List.mem_cons_self
    simp [Frame.mipiToRaw16_eq, Frame.mipiPixel, MipiFrame.RightBits, f.fits,
      f.fits.written_upperByte, hsplit, f.fits.written_lowerByte]
  rw [hleft, hwalk]
  constructor
  · intro h y hy x hx
    have hp : (y, x) ∈ f.pixels := Frame.mem_pixels.mpr ⟨hy, hx⟩
    obtain ⟨pre, post, hsplit⟩ := List.append_of_mem hp
    exact (hturn pre (y, x) post hsplit).mp (h pre (y, x) post hsplit)
  · intro h pre p post hsplit
    have hp : p ∈ f.pixels := hsplit ▸ List.mem_append_right _ List.mem_cons_self
    obtain ⟨hy, hx⟩ := Frame.mem_pixels.mp hp
    exact (hturn pre p post hsplit).mpr (h p.1 hy p.2 hx)

def mipiPair : MipiFrame where
  width := 2
  height := 1
  stride_in_bytes := 8
  fits := ⟨by decide, by decide⟩
  groups := by decide

/-- The second pixel is 1 in the frame, and 2 in the output. -/
theorem not_convertMipiToRaw16_exact : ¬ ∀ (f : MipiFrame) (buffer : Memory),
    ∀ y < f.height, ∀ x < f.width,
      (f.convertMipiToRaw16 buffer).word (y * f.raw16_stride + x) = f.mipiPixel buffer (y, x) := by
  intro h
  have hpixel := h mipiPair (fun a => if a = 4 then 4 else 0) 0 (by decide) 1 (by decide)
  exact absurd hpixel (by decide +kernel)

end EtherDevice.Hal3.RawConversion
