import Mathlib.Data.List.Perm.Lattice
import Mathlib.Data.List.Nodup
import Mathlib.Tactic.Common

/-!
# Things that are lent

A lender has some things and has lent others. A borrower asks for one, and the lender chooses which;
what comes back is free again. The things that came back are kept in order, so that a loan that
comes back twice can be seen.
-/

namespace EtherDevice.Lib

universe u

structure Lender (α : Type u) where
  free : List α := []
  lent : List α := []
  returned : List α := []
  deriving DecidableEq, Repr

namespace Lender

variable {α : Type u} {l l' : Lender α} {x : α} {xs : List α}

def Distinct (l : Lender α) : Prop := (l.free ++ l.lent).Nodup

theorem Distinct.lent_nodup (h : l.Distinct) : l.lent.Nodup := (List.nodup_append.mp h).2.1

theorem Distinct.not_mem_lent (h : l.Distinct) (hx : x ∈ l.free) : x ∉ l.lent := fun hlent =>
  (List.nodup_append.mp h).2.2 x hx x hlent rfl

variable [DecidableEq α]

/-- The lender's choice is counted around what it has. -/
def lend (l : Lender α) (choice : Nat) : Option (α × Lender α) :=
  (l.free[choice % l.free.length]?).map fun x =>
    (x, { l with free := l.free.erase x, lent := l.lent ++ [x] })

def giveBack (l : Lender α) (x : α) : Lender α where
  free := l.free ++ [x]
  lent := l.lent.erase x
  returned := l.returned ++ [x]

theorem lend_of_nil (h : l.free = []) (choice : Nat) : l.lend choice = none := by
  rw [lend, h]
  rfl

theorem lend_of_ne_nil (h : l.free ≠ []) (choice : Nat) :
    ∃ x ∈ l.free, l.lend choice =
      some (x, { l with free := l.free.erase x, lent := l.lent ++ [x] }) := by
  have hlt : choice % l.free.length < l.free.length :=
    Nat.mod_lt _ (List.length_pos_iff.mpr h)
  simp_all [lend]

theorem lend_spec {choice : Nat} (h : l.lend choice = some (x, l')) : x ∈ l.free ∧
    l' = { l with free := l.free.erase x, lent := l.lent ++ [x] } := by
  have hne : l.free ≠ [] := by
    intro hnil
    rw [lend_of_nil hnil] at h
    cases h
  obtain ⟨y, hy, hlend⟩ := lend_of_ne_nil hne choice
  rw [hlend] at h
  cases h
  exact ⟨hy, rfl⟩

theorem Distinct.lend {choice : Nat} (h : l.Distinct) (hlend : l.lend choice = some (x, l')) :
    l'.Distinct := by
  obtain ⟨hx, rfl⟩ := lend_spec hlend
  have hperm : (l.free.erase x ++ (l.lent ++ [x])).Perm (l.free ++ l.lent) := by
    grind
  exact hperm.nodup_iff.mpr h

theorem Distinct.giveBack (h : l.Distinct) (hx : x ∈ l.lent) : (l.giveBack x).Distinct := by
  have hperm : (l.free ++ [x] ++ l.lent.erase x).Perm (l.free ++ l.lent) := by
    rw [List.append_assoc]
    exact (List.perm_cons_erase hx).symm.append_left l.free
  exact hperm.nodup_iff.mpr h

/-! ## Several things come back -/

theorem foldl_giveBack_returned (xs : List α) (l : Lender α) :
    (xs.foldl giveBack l).returned = l.returned ++ xs := by
  induction xs generalizing l with
  | nil => exact (List.append_nil _).symm
  | cons x xs ih =>
    simp [giveBack, ih]

theorem foldl_giveBack_free (xs : List α) (l : Lender α) :
    (xs.foldl giveBack l).free = l.free ++ xs := by
  induction xs generalizing l with
  | nil => exact (List.append_nil _).symm
  | cons x xs ih =>
    simp [giveBack, ih]

theorem mem_foldl_giveBack (h : l.lent.Nodup) :
    x ∈ (xs.foldl giveBack l).lent ↔ x ∈ l.lent ∧ x ∉ xs := by
  induction xs generalizing l with
  | nil => simp
  | cons y xs ih =>
    have hnodup : (l.giveBack y).lent.Nodup := h.erase y
    have hmem : x ∈ (l.giveBack y).lent ↔ x ≠ y ∧ x ∈ l.lent := h.mem_erase_iff
    rw [List.foldl_cons, ih hnodup, hmem, List.mem_cons]
    tauto

theorem Distinct.foldl_giveBack (h : l.Distinct) (hxs : xs.Nodup) (hlent : ∀ x ∈ xs, x ∈ l.lent) :
    (xs.foldl Lender.giveBack l).Distinct := by
  induction xs generalizing l with
  | nil => exact h
  | cons y xs ih =>
    obtain ⟨hy, hxs⟩ := List.nodup_cons.mp hxs
    apply ih (h.giveBack (hlent y List.mem_cons_self)) hxs
    intro x hx
    have hne : x ≠ y := by
      rintro rfl
      exact hy hx
    exact (List.mem_erase_of_ne hne).mpr (hlent x (List.mem_cons_of_mem y hx))

end Lender

end EtherDevice.Lib
