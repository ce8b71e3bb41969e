import Mathlib.Data.Int.ModEq
import Mathlib.Data.List.Perm.Basic
import Mathlib.Algebra.BigOperators.Group.List.Basic
import Mathlib.Tactic.Ring

/-!
# Ones-complement sums

The words are the numbers up to `m`, where `m` has every bit set, and arithmetic is modulo
`m`. So `0` and `m` are the two zeros, the complement of a word is its negative, and a
carry out of the word comes back at the bottom. A sum of any number of words stays a word,
and is congruent to the sum of the words as numbers.
-/

namespace EtherDevice.OnesComplement

def add (m a b : Nat) : Nat := if a + b ≤ m then a + b else a + b - m

def sum (m : Nat) (words : List Nat) : Nat := words.foldl (add m) 0

def not (m a : Nat) : Nat := m - a

variable {m a b : Nat} {words old new rest xs ys : List Nat}

theorem add_le (ha : a ≤ m) (hb : b ≤ m) : add m a b ≤ m := by
  unfold add
  split <;> omega

theorem add_modEq (m a b : Nat) : add m a b ≡ a + b [MOD m] := by
  unfold add
  split
  · rfl
  · have hcarry : a + b - m + m = a + b := by omega
    calc
      a + b - m ≡ a + b - m + m [MOD m] := Nat.add_modEq_right.symm
      _ = a + b := hcarry

theorem not_modEq (ha : a ≤ m) : (not m a : ℤ) ≡ -a [ZMOD m] := by
  unfold not
  rw [Nat.cast_sub ha]
  apply Int.modEq_iff_dvd.mpr
  exact ⟨-1, by ring⟩

theorem foldl_add_le (ha : a ≤ m) (hwords : ∀ w ∈ words, w ≤ m) :
    words.foldl (add m) a ≤ m := by
  induction words generalizing a with
  | nil => exact ha
  | cons w words ih =>
    simp_all [add_le]

theorem sum_le (hwords : ∀ w ∈ words, w ≤ m) : sum m words ≤ m :=
  foldl_add_le (Nat.zero_le m) hwords

theorem foldl_add_modEq (m a : Nat) (words : List Nat) :
    words.foldl (add m) a ≡ a + words.sum [MOD m] := by
  induction words generalizing a with
  | nil => rfl
  | cons w words ih =>
    calc
      (w :: words).foldl (add m) a ≡ add m a w + words.sum [MOD m] := ih _
      _ ≡ a + w + words.sum [MOD m] := (add_modEq m a w).add_right _
      _ = a + (w :: words).sum := by rw [List.sum_cons, Nat.add_assoc]

theorem sum_modEq (m : Nat) (words : List Nat) : sum m words ≡ words.sum [MOD m] := by
  simpa [sum] using foldl_add_modEq m 0 words

/-- The complements of some words add up to the negative of their sum. -/
theorem sum_map_not (hwords : ∀ w ∈ words, w ≤ m) :
    ((words.map (not m)).sum : ℤ) ≡ -words.sum [ZMOD m] := by
  induction words with
  | nil => rfl
  | cons w words ih =>
    obtain ⟨hw, hwords⟩ := List.forall_mem_cons.mp hwords
    have hadd := (not_modEq hw).add (ih hwords)
    rw [List.map_cons, List.sum_cons, List.sum_cons, Nat.cast_add, Nat.cast_add, neg_add]
    exact hadd

/-- The sum of some words and of the complements of others is the difference. -/
theorem sum_append_not (m : Nat) (new : List Nat) (hold : ∀ w ∈ old, w ≤ m) :
    (sum m (new ++ old.map (not m)) : ℤ) ≡ new.sum - old.sum [ZMOD m] := by
  have hsum := Int.natCast_modEq_iff.mpr (sum_modEq m (new ++ old.map (not m)))
  rw [List.sum_append, Nat.cast_add] at hsum
  exact hsum.trans ((Int.ModEq.refl _).add (sum_map_not hold))

/-- Words of a message are replaced: the sum changes by the difference of the words. -/
theorem sum_exchange {delta : ℤ} (hxs : xs.Perm (old ++ rest)) (hys : ys.Perm (new ++ rest))
    (hdelta : delta ≡ new.sum - old.sum [ZMOD m]) :
    (sum m xs : ℤ) + delta ≡ sum m ys [ZMOD m] := by
  have hx := Int.natCast_modEq_iff.mpr (sum_modEq m xs)
  have hy := Int.natCast_modEq_iff.mpr (sum_modEq m ys)
  rw [hxs.sum_eq, List.sum_append, Nat.cast_add] at hx
  rw [hys.sum_eq, List.sum_append, Nat.cast_add] at hy
  calc
    (sum m xs : ℤ) + delta
    _ ≡ (old.sum + rest.sum) + (new.sum - old.sum) [ZMOD m] := hx.add hdelta
    _ = new.sum + rest.sum := by ring
    _ ≡ sum m ys [ZMOD m] := hy.symm

/-- The same for what a message carries as its checksum, the complement of the sum: it
changes the other way. -/
theorem not_sum_exchange {delta : ℤ} (hxs : xs.Perm (old ++ rest)) (hys : ys.Perm (new ++ rest))
    (hx : ∀ w ∈ xs, w ≤ m) (hy : ∀ w ∈ ys, w ≤ m)
    (hdelta : delta ≡ new.sum - old.sum [ZMOD m]) :
    (not m (sum m ys) : ℤ) + delta ≡ not m (sum m xs) [ZMOD m] := by
  have hsum := sum_exchange hxs hys hdelta
  calc
    (not m (sum m ys) : ℤ) + delta
    _ ≡ -sum m ys + delta [ZMOD m] := (not_modEq (sum_le hy)).add_right _
    _ ≡ -(sum m xs + delta) + delta [ZMOD m] := hsum.symm.neg.add_right _
    _ = -sum m xs := by ring
    _ ≡ not m (sum m xs) [ZMOD m] := (not_modEq (sum_le hx)).symm

end EtherDevice.OnesComplement
