import Mathlib.Data.List.Nodup
import Mathlib.Data.List.Perm.Basic
import Mathlib.Tactic.Common

/-!
# The first element that meets a condition

A linked list that is searched for a key is read, changed and cut at the first match. Where no two
elements have one key, that is the only match, and the operations are a filter and a map.
-/

namespace EtherDevice.Lib

universe u v

variable {α : Type u} {β : Type v} {p : α → Bool} {xs : List α}

/-- The first element that meets the condition is changed. -/
def changeFirst (p : α → Bool) (f : α → α) : List α → List α
  | [] => []
  | x :: xs => if p x then f x :: xs else x :: changeFirst p f xs

theorem perm_cons_eraseP {x : α} (h : xs.find? p = some x) : xs.Perm (x :: xs.eraseP p) := by
  induction xs with
  | nil => cases h
  | cons y xs ih =>
    cases hy : p y with
    | true =>
      simp_all
    | false =>
      rw [List.find?_cons_of_neg (by rw [hy]; decide)] at h
      rw [List.eraseP_cons_of_neg (by rw [hy]; decide)]
      exact ((ih h).cons y).trans (List.Perm.swap x y _)

theorem perm_changeFirst {x : α} (h : xs.find? p = some x) (f : α → α) :
    (changeFirst p f xs).Perm (f x :: xs.eraseP p) := by
  induction xs with
  | nil => cases h
  | cons y xs ih =>
    rw [changeFirst]
    cases hy : p y with
    | true =>
      simp_all
    | false =>
      rw [List.find?_cons_of_neg (by rw [hy]; decide)] at h
      rw [if_neg (by decide), List.eraseP_cons_of_neg (by rw [hy]; decide)]
      exact ((ih h).cons y).trans (List.Perm.swap (f x) y _)

/-! ## Keys -/

section Key

variable {key : α → β} {k : β}

theorem map_changeFirst {f : α → α} (hf : ∀ x, key (f x) = key x) :
    (changeFirst p f xs).map key = xs.map key := by
  induction xs with
  | nil => rfl
  | cons x xs ih =>
    grind [changeFirst]

/-- The first match is changed, and the elements with other keys are there as before. -/
theorem mem_changeFirst_key {f : α → α} (hkeys : (xs.map key).Nodup) {x y : α}
    (h : xs.find? p = some x) : y ∈ changeFirst p f xs ↔ y = f x ∨ y ∈ xs ∧ key y ≠ key x := by
  have hperm := perm_cons_eraseP h
  have hnodup := (hperm.map key).nodup_iff.mp hkeys
  rw [List.map_cons, List.nodup_cons] at hnodup
  rw [(perm_changeFirst h f).mem_iff, List.mem_cons, hperm.mem_iff, List.mem_cons]
  refine or_congr_right ⟨fun hy => ⟨.inr hy, fun hkey => hnodup.1 ?_⟩, ?_⟩
  · exact hkey ▸ List.mem_map_of_mem hy
  · rintro ⟨rfl | hy, hkey⟩
    · exact absurd rfl hkey
    · exact hy

variable [BEq β]

theorem nodup_eraseP_key (hkeys : (xs.map key).Nodup) :
    ((xs.eraseP fun x => key x == k).map key).Nodup :=
  hkeys.sublist (List.eraseP_sublist.map key)

variable [LawfulBEq β]

theorem find?_key_isSome : (xs.find? fun x => key x == k).isSome = true ↔ k ∈ xs.map key := by
  simp

theorem find?_key_eq_none : (xs.find? fun x => key x == k) = none ↔ k ∉ xs.map key := by
  rw [← find?_key_isSome, Option.not_isSome_iff_eq_none]

theorem find?_key_eq_some {x : α} (hkeys : (xs.map key).Nodup) :
    (xs.find? fun x => key x == k) = some x ↔ x ∈ xs ∧ key x = k := by
  constructor
  · grind
  · rintro ⟨hmem, rfl⟩
    obtain ⟨y, hy⟩ := Option.isSome_iff_exists.mp
      (find?_key_isSome.mpr (List.mem_map_of_mem (f := key) hmem))
    grind [List.inj_on_of_nodup_map]

theorem eraseP_key (hkeys : (xs.map key).Nodup) :
    xs.eraseP (fun x => key x == k) = xs.filter fun x => !(key x == k) := by
  induction xs with
  | nil => rfl
  | cons x xs ih =>
    rw [List.map_cons, List.nodup_cons] at hkeys
    by_cases hx : key x = k
    · simp_all [symm]
    simp [hx, ih, hkeys]

theorem mem_eraseP_key (hkeys : (xs.map key).Nodup) {x : α} :
    x ∈ xs.eraseP (fun x => key x == k) ↔ x ∈ xs ∧ key x ≠ k := by
  rw [eraseP_key hkeys, List.mem_filter]
  simp

theorem changeFirst_key {f : α → α} (hkeys : (xs.map key).Nodup) :
    changeFirst (fun x => key x == k) f xs = xs.map fun x => if key x == k then f x else x := by
  induction xs with
  | nil => rfl
  | cons x xs ih =>
    rw [List.map_cons, List.nodup_cons] at hkeys
    rw [changeFirst, List.map_cons]
    by_cases hx : key x = k
    · simp_all [List.map_congr_left]
    · rw [if_neg (by simpa using hx), if_neg (by simpa using hx), ih hkeys.2]

end Key

end EtherDevice.Lib
