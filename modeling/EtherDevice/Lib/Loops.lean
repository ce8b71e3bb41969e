import Mathlib.Data.List.Nodup
import Mathlib.Tactic.Common

/-!
# Loops over slots

A loop changes a state once for each index of a list. What no round changes is the same behind the
loop, and what each round takes of its own slot is gone behind it.
-/

namespace EtherDevice.Lib

universe u v w

variable {σ : Type u} {ι : Type v} {τ : Type w} {step : σ → ι → σ}

theorem foldl_frame (step : σ → ι → σ) (field : σ → τ) (hstep : ∀ s i, field (step s i) = field s)
    (indices : List ι) (s : σ) : field (indices.foldl step s) = field s := by
  induction indices generalizing s with
  | nil => rfl
  | cons i indices ih => exact (ih _).trans (hstep s i)

/-- Each round takes what its slot has from what is in hand. -/
theorem foldl_consume {α : Type w} {P : List α → σ → Prop} {refs : σ → ι → List α} {rest : List α}
    (hstep : ∀ s i rest, P (refs s i ++ rest) s → P rest (step s i))
    (hframe : ∀ s i j, j ≠ i → refs (step s i) j = refs s j) {indices : List ι}
    (hnodup : indices.Nodup) {s : σ} (h : P (indices.flatMap (refs s) ++ rest) s) :
    P rest (indices.foldl step s) := by
  induction indices generalizing s with
  | nil => exact h
  | cons i indices ih =>
    grind [List.flatMap_congr]

/-- Each round sets a value of its own slot and leaves those of the others. -/
theorem foldl_update [DecidableEq ι] (step : σ → ι → σ) (field : σ → ι → τ) (value : τ)
    (hself : ∀ s i, field (step s i) i = value)
    (hframe : ∀ s i j, j ≠ i → field (step s i) j = field s j) (indices : List ι) (s : σ) (j : ι) :
    field (indices.foldl step s) j = if j ∈ indices then value else field s j := by
  induction indices generalizing s with
  | nil => rfl
  | cons i indices ih =>
    rw [List.foldl_cons, ih]
    by_cases hj : j ∈ indices
    · rw [if_pos hj, if_pos (List.mem_cons_of_mem i hj)]
    · rw [if_neg hj]
      by_cases hi : j = i
      · rw [hi, hself, if_pos List.mem_cons_self]
      · rw [hframe s i j hi, if_neg fun hmem => (List.mem_cons.mp hmem).elim hi hj]

end EtherDevice.Lib
