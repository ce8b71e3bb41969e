import Mathlib.Data.Nat.Bitwise
import Mathlib.Data.UInt
import Mathlib.Tactic.Common

/-!
# Masks

A mask of 32 bits is a set, and `OneBit` a mask that any other one has wholly or not at all.
-/

namespace EtherDevice.Lib

def OneBit (bit : UInt32) : Prop := ∀ mask, bit &&& mask = 0 ∨ bit &&& mask = bit

variable {bit mask x : UInt32}

theorem oneBit_of_two_pow {k : Nat} (h : bit.toNat = 2 ^ k) : OneBit bit := by
  intro mask
  have hand : (bit &&& mask).toNat = 2 ^ k * (mask.toNat.testBit k).toNat := by
    simp_all [Nat.two_pow_and]
  cases hbit : mask.toNat.testBit k with
  | false =>
    left
    apply UInt32.toNat_inj.mp
    rw [hand, hbit]
    rfl
  | true =>
    right
    apply UInt32.toNat_inj.mp
    simp_all

theorem or_eq_or_and_not_or (h : bit &&& mask = bit) :
    x ||| mask = x ||| mask &&& ~~~bit ||| bit := by
  apply UInt32.toBitVec_inj.mp
  have h := congrArg UInt32.toBitVec h
  grind [UInt32.toBitVec_or, UInt32.toBitVec_and, UInt32.toBitVec_not]

theorem or_and_not (x y mask : UInt32) :
    (x ||| y) &&& ~~~mask = x &&& ~~~mask ||| y &&& ~~~mask := by
  apply UInt32.toBitVec_inj.mp
  grind [UInt32.toBitVec_or, UInt32.toBitVec_and]

/-- A mask that has nothing of another one does not lose anything to it. -/
theorem and_not_of_and_eq_zero (h : x &&& mask = 0) : x &&& ~~~mask = x := by
  apply UInt32.toBitVec_inj.mp
  have h := congrArg UInt32.toBitVec h
  ext i hi
  have hi := congrArg (·[i]) h
  grind [UInt32.toBitVec_and, UInt32.toBitVec_not, UInt32.toBitVec_zero]

end EtherDevice.Lib
