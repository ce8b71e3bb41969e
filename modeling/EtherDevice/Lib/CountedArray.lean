import Mathlib.Data.List.Basic
import Mathlib.Logic.Function.Basic
import Mathlib.Tactic.Common

/-!
# Arrays with a count

An array whose elements below a count are in use. An element is entered at the count, and the
first one that meets a condition is taken out by a loop that moves those behind it down. On the
list of the elements in use that is an append and an erasure.
-/

namespace EtherDevice.Lib

universe u

variable {α : Type u} {a b : Nat → α} {n i k : Nat}

def below (a : Nat → α) (n : Nat) : List α := (List.range n).map a

@[simp] theorem length_below (a : Nat → α) (n : Nat) : (below a n).length = n := by simp [below]

@[simp] theorem getElem?_below (hi : i < n) : (below a n)[i]? = some (a i) := by
  simp [below, hi]

theorem mem_below {x : α} : x ∈ below a n ↔ ∃ i, i < n ∧ a i = x := by simp [below]

theorem below_congr (h : ∀ i, i < n → a i = b i) : below a n = below b n := by
  simp_all [below]

theorem any_range_eq_any_below (a : Nat → α) (p : α → Bool) (n : Nat) :
    ((List.range n).any fun i => p (a i)) = (below a n).any p := by
  unfold below
  rw [List.any_map]
  rfl

theorem below_update (a : Nat → α) (n : Nat) (x : α) :
    below (Function.update a n x) (n + 1) = below a n ++ [x] := by
  simp_all [below, Nat.ne_of_lt, List.range_succ]

/-- The elements behind a place are one place further down. -/
theorem below_eraseIdx (hi : i < n) (hbefore : ∀ j, j < i → b j = a j)
    (hbehind : ∀ j, i ≤ j → j + 1 < n → b j = a (j + 1)) :
    below b (n - 1) = (below a n).eraseIdx i := by
  refine List.ext_getElem? fun j => ?_
  rw [List.getElem?_eraseIdx]
  by_cases hj : j < n - 1
  · grind [getElem?_below]
  · rw [List.getElem?_eq_none (by simpa using hj), if_neg (by omega),
      List.getElem?_eq_none (by simp; omega)]

/-! ## The first match -/

/-- The place of the first element that meets the condition. -/
def firstBelow (p : α → Bool) (a : Nat → α) (n : Nat) : Option Nat :=
  (List.range n).find? fun i => p (a i)

theorem firstBelow_eq_some {p : α → Bool} (h : firstBelow p a n = some i) :
    i < n ∧ p (a i) = true ∧ ∀ j, j < i → p (a j) = false := by
  obtain ⟨hi, hmem, hbefore⟩ := List.find?_range_eq_some.mp h
  exact ⟨List.mem_range.mp hmem, hi, fun j hj => by simpa using hbefore j hj⟩

theorem find?_below (p : α → Bool) (a : Nat → α) (n : Nat) :
    (below a n).find? p = (firstBelow p a n).map a := by
  unfold below firstBelow
  rw [List.find?_map]
  rfl

theorem eraseP_of_firstBelow {p : α → Bool} (h : firstBelow p a n = some i) :
    (below a n).eraseP p = (below a n).eraseIdx i := by
  grind [firstBelow_eq_some, below, List.findIdx?_eq_some_iff_getElem, List.eraseP_eq_eraseIdx]

theorem eraseP_of_firstBelow_none {p : α → Bool} (h : firstBelow p a n = none) :
    (below a n).eraseP p = below a n := by
  refine List.eraseP_of_forall_not fun x hx => ?_
  obtain ⟨i, hi, rfl⟩ := mem_below.mp hx
  simpa using List.find?_range_eq_none.mp h i hi

/-! ## The loop that moves elements down -/

/-- For `k` places from `i` on, what is there is changed by what is behind it. -/
def moveDown (f : α → α → α) (a : Nat → α) (i k : Nat) : Nat → α :=
  (List.range' i k).foldl (fun a j => Function.update a j (f (a j) (a (j + 1)))) a

theorem moveDown_apply (f : α → α → α) (a : Nat → α) (i k j : Nat) :
    moveDown f a i k j = if i ≤ j ∧ j < i + k then f (a j) (a (j + 1)) else a j := by
  induction k generalizing a i with
  | zero => rw [if_neg (by omega)]; rfl
  | succ k ih =>
    have hstep : moveDown f a i (k + 1) =
        moveDown f (Function.update a i (f (a i) (a (i + 1)))) (i + 1) k := by
      rfl
    rw [hstep, ih]
    by_cases hij : j = i
    · subst hij
      rw [if_neg (by omega), if_pos (by omega), Function.update_self]
    · by_cases hlt : i + 1 ≤ j ∧ j < i + 1 + k
      · rw [if_pos hlt, if_pos (by omega), Function.update_of_ne hij,
          Function.update_of_ne (by omega)]
      · rw [if_neg hlt, if_neg (by omega), Function.update_of_ne hij]

end EtherDevice.Lib
