import Mathlib.Data.List.Count
import Mathlib.Data.List.Nodup
import Mathlib.Tactic.Common

/-!
# Manual release of records

A program that releases its records by hand makes records, frees them, and gives back
what some of them were lent. A `Heap` is the history of that. `Balanced` says of what the
program still holds that every record made is held once or was freed once, and that a loan
was given back when its record was freed.

The rules compare counts: a step may move the held records about, as long as it holds each
of them as often as before.
-/

namespace EtherDevice.Lib

universe u v

/-- The records that were made, freed, and given back, in order. -/
structure Heap (α : Type u) where
  made : List α := []
  freed : List α := []
  returned : List α := []
  deriving DecidableEq, Repr

namespace Heap

variable {α : Type u}

def alloc (h : Heap α) (p : α) : Heap α := { h with made := h.made ++ [p] }

def free (h : Heap α) (p : α) : Heap α := { h with freed := h.freed ++ [p] }

def giveBack (h : Heap α) (p : α) : Heap α := { h with returned := h.returned ++ [p] }

variable [DecidableEq α] {lent : α → Prop} {h h' h'' : Heap α} {held held' ps qs : List α}

/-! ## Steps that free records -/

/-- The step from `h` to `h'` frees the records `ps`, and gives back those that were lent. -/
structure Frees (lent : α → Prop) (h h' : Heap α) (ps : List α) : Prop where
  made : h'.made = h.made
  freed : ∀ p, h'.freed.count p = h.freed.count p + ps.count p
  returned : ∀ p, lent p → h'.returned.count p = h.returned.count p + ps.count p

theorem Frees.none : Frees lent h h [] := ⟨rfl, by simp, by simp⟩

theorem Frees.trans (h₁ : Frees lent h h' ps) (h₂ : Frees lent h' h'' qs) :
    Frees lent h h'' (ps ++ qs) where
  made := h₂.made.trans h₁.made
  freed p := by
    rw [h₂.freed, h₁.freed, List.count_append]
    omega
  returned p hp := by
    rw [h₂.returned p hp, h₁.returned p hp, List.count_append]
    omega

theorem Frees.of_count (hf : Frees lent h h' ps) (hcount : ∀ p, qs.count p = ps.count p) :
    Frees lent h h' qs where
  made := hf.made
  freed p := by rw [hcount, hf.freed]
  returned p hp := by rw [hcount, hf.returned p hp]

theorem frees_free {p : α} (hp : ¬ lent p) : Frees lent h (h.free p) [p] where
  made := rfl
  freed _ := List.count_append
  returned q hq := by
    have hne : p ≠ q := by
      intro heq
      exact hp (heq ▸ hq)
    rw [List.count_singleton, if_neg (by simpa using hne)]
    rfl

theorem frees_giveBack {p : α} : Frees lent h ((h.giveBack p).free p) [p] where
  made := rfl
  freed _ := List.count_append
  returned _ _ := List.count_append

/-- A loop that frees the records of each entry of a list. -/
theorem Frees.foldl {ε : Type v} {f : Heap α → ε → Heap α} {refs : ε → List α} {xs : List ε}
    (hstep : ∀ x ∈ xs, ∀ h, Frees lent h (f h x) (refs x)) :
    Frees lent h (xs.foldl f h) (xs.flatMap refs) := by
  induction xs generalizing h with
  | nil => exact .none
  | cons x xs ih =>
    have hfirst := hstep x List.mem_cons_self h
    have hrest := ih (h := f h x) fun y hy => hstep y (List.mem_cons_of_mem x hy)
    exact hfirst.trans hrest

/-! ## The balance -/

/-- Every record made is held once or was freed once, and nothing else is. -/
structure Balanced (lent : α → Prop) (h : Heap α) (held : List α) : Prop where
  distinct : h.made.Nodup
  account : ∀ p, held.count p + h.freed.count p = h.made.count p
  returned : ∀ p, lent p → h.returned.count p = h.freed.count p

theorem Balanced.empty : Balanced lent ({} : Heap α) [] :=
  ⟨.nil, by simp, by simp⟩

/-- The holders may change, if nothing is lost and nothing is held twice. -/
theorem Balanced.move (hb : Balanced lent h held) (hheld : ∀ p, held'.count p = held.count p) :
    Balanced lent h held' where
  distinct := hb.distinct
  account p := by rw [hheld, hb.account]
  returned := hb.returned

theorem Balanced.alloc (hb : Balanced lent h held) {q : α} (hq : q ∉ h.made)
    (hheld : ∀ p, held'.count p = held.count p + [q].count p) :
    Balanced lent (h.alloc q) held' where
  distinct := by
    rw [Heap.alloc, List.nodup_append]
    refine ⟨hb.distinct, List.nodup_singleton q, ?_⟩
    intro x hx y hy heq
    simp_all
  account p := by
    have hold := hb.account p
    show held'.count p + h.freed.count p = (h.made ++ [q]).count p
    rw [hheld, List.count_append]
    omega
  returned := hb.returned

/-- The order in which the records were made does not matter. -/
theorem Balanced.reorder (hb : Balanced lent h held) (hmade : h.made.Perm h'.made)
    (hfreed : h'.freed = h.freed) (hreturned : h'.returned = h.returned) :
    Balanced lent h' held where
  distinct := hmade.nodup_iff.mp hb.distinct
  account p := by rw [hfreed, hb.account, hmade.count_eq]
  returned p hp := by rw [hfreed, hreturned, hb.returned p hp]

theorem Balanced.frees (hb : Balanced lent h held) (hf : Frees lent h h' ps)
    (hheld : ∀ p, held'.count p + ps.count p = held.count p) : Balanced lent h' held' where
  distinct := by
    rw [hf.made]
    exact hb.distinct
  account p := by
    have hold := hb.account p
    have hnow := hheld p
    rw [hf.freed, hf.made]
    omega
  returned p hp := by
    simp [hb.returned, hp, hf.returned, hf.freed]

theorem Balanced.once (hb : Balanced lent h held) {p : α} (hp : p ∈ h.made) :
    held.count p + h.freed.count p = 1 := by
  rw [hb.account]
  exact List.count_eq_one_of_mem hb.distinct hp

theorem Balanced.of_held (hb : Balanced lent h held) {p : α} (hp : p ∈ held) :
    p ∈ h.made ∧ p ∉ h.freed := by
  have hpos : 0 < held.count p := List.count_pos_iff.mpr hp
  have haccount := hb.account p
  have hle : h.made.count p ≤ 1 := List.nodup_iff_count_le_one.mp hb.distinct p
  grind

/-! ## Live records -/

/-- The records that were made and not freed. -/
def live (h : Heap α) : List α := h.made.filter (· ∉ h.freed)

theorem Balanced.live_perm (hb : Balanced lent h held) : h.live.Perm held := by
  apply List.perm_iff_count.mpr
  intro p
  have haccount := hb.account p
  have hle : h.made.count p ≤ 1 := List.nodup_iff_count_le_one.mp hb.distinct p
  grind [List.count_eq_zero_of_not_mem, live, List.count_filter]

end Heap

end EtherDevice.Lib
