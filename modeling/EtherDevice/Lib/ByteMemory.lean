import Mathlib

/-!
# Loads from a memory of bytes

A memory gives a byte for each address. `Holds` says which bytes lie from an address on, and
`loadLE` reads a little-endian number; `toLE` are the bytes such a load reads back.
-/

namespace EtherDevice.Lib

abbrev Memory := Nat → UInt8

namespace Memory

def shift (mem : Memory) (off : Nat) : Memory := fun i => mem (off + i)

/-- The memory of some bytes, with another memory after them. -/
def ofList (bytes : List UInt8) (rest : Memory) : Memory :=
  fun i => if h : i < bytes.length then bytes[i] else rest (i - bytes.length)

def loadLE (mem : Memory) (off : Nat) : Nat → Nat
  | 0 => 0
  | width + 1 => (mem off).toNat + 256 * loadLE mem (off + 1) width

end Memory

/-- The bytes of a number, the least one first. -/
def toLE : Nat → Nat → List UInt8
  | 0, _ => []
  | width + 1, n => UInt8.ofNat n :: toLE width (n / 256)

@[simp] theorem length_toLE (width n : Nat) : (toLE width n).length = width := by
  induction width generalizing n with
  | zero => rfl
  | succ width ih => simp [toLE, ih]

namespace Memory

/-- The bytes of the list lie from the address on. -/
def Holds (mem : Memory) (off : Nat) (bytes : List UInt8) : Prop :=
  ∀ i (hi : i < bytes.length), mem (off + i) = bytes[i]

variable {mem mem' : Memory} {off off' width n : Nat} {b : UInt8} {xs ys : List UInt8}

theorem holds_nil (mem : Memory) (off : Nat) : mem.Holds off [] := fun _ hi => by simp at hi

theorem holds_cons : mem.Holds off (b :: xs) ↔ mem off = b ∧ mem.Holds (off + 1) xs := by
  constructor
  · intro h
    refine ⟨h 0 (by simp), fun i hi => ?_⟩
    have hnext := h (i + 1) (by simpa using hi)
    rw [show off + 1 + i = off + (i + 1) by omega, hnext]
    rfl
  · rintro ⟨hhead, htail⟩ i hi
    cases i with
    | zero => exact hhead
    | succ i =>
      rw [show off + (i + 1) = off + 1 + i by omega, htail i (by simpa using hi)]
      rfl

theorem holds_append :
    mem.Holds off (xs ++ ys) ↔ mem.Holds off xs ∧ mem.Holds (off + xs.length) ys := by
  induction xs generalizing off with
  | nil => simp [holds_nil]
  | cons x xs ih =>
    rw [List.cons_append, holds_cons, ih, holds_cons, and_assoc, List.length_cons,
      show off + 1 + xs.length = off + (xs.length + 1) by omega]

theorem Holds.shift (h : mem.Holds (off + off') xs) : (mem.shift off).Holds off' xs :=
  fun i hi => by rw [Memory.shift, ← Nat.add_assoc, h i hi]

theorem holds_ofList (bytes : List UInt8) (rest : Memory) : (ofList bytes rest).Holds 0 bytes :=
  fun i hi => by simp [ofList, hi]

theorem ofList_length_add (bytes : List UInt8) (rest : Memory) (i : Nat) :
    ofList bytes rest (bytes.length + i) = rest i := by
  rw [ofList, dif_neg (by omega), Nat.add_sub_cancel_left]

theorem Holds.ofList_rest (bytes : List UInt8) {rest : Memory} (h : rest.Holds off xs) :
    (ofList bytes rest).Holds (bytes.length + off) xs :=
  fun i hi => by rw [Nat.add_assoc, ofList_length_add, h i hi]

theorem loadLE_congr (h : ∀ i < width, mem (off + i) = mem' (off' + i)) :
    mem.loadLE off width = mem'.loadLE off' width := by
  induction width generalizing off off' with
  | zero => rfl
  | succ width ih =>
    have hhead : mem off = mem' off' := h 0 (by omega)
    grind [loadLE]

theorem loadLE_lt (mem : Memory) (off width : Nat) : mem.loadLE off width < 256 ^ width := by
  induction width generalizing off with
  | zero => exact Nat.one_pos
  | succ width ih =>
    have hhead : (mem off).toNat < 256 := (mem off).toNat_lt
    have htail := ih (off + 1)
    rw [loadLE, Nat.pow_succ]
    omega

theorem loadLE_add (mem : Memory) (off m n : Nat) :
    mem.loadLE off (m + n) = mem.loadLE off m + 256 ^ m * mem.loadLE (off + m) n := by
  induction m generalizing off with
  | zero => rw [Nat.zero_add, loadLE, Nat.pow_zero, Nat.one_mul, Nat.zero_add]; rfl
  | succ m ih =>
    simp [Nat.succ_add, loadLE, Nat.mul_add, Nat.pow_succ', Nat.mul_assoc, Nat.add_assoc, ih]

theorem Holds.loadLE (h : mem.Holds off (toLE width n)) (hn : n < 256 ^ width) :
    mem.loadLE off width = n := by
  induction width generalizing off n with
  | zero => simp_all [Memory.loadLE]
  | succ width ih =>
    obtain ⟨hhead, htail⟩ := holds_cons.mp h
    have hdiv : n / 256 < 256 ^ width := by
      omega
    rw [Memory.loadLE, hhead, ih htail hdiv]
    simp
    omega

end Memory

end EtherDevice.Lib
