import Mathlib.Data.Finset.Basic
import Mathlib.Data.List.Nodup
import Mathlib.Tactic.Common

/-!
# Registers of keys

A server registers keys and takes them out again at the request of a client. `strays` lists the
requests to take out a key that is not registered, so a client that keeps its book well leaves it
as it is.
-/

namespace EtherDevice.Lib

structure Register (κ : Type*) where
  keys : Finset κ := ∅
  strays : List κ := []
  deriving DecidableEq

namespace Register

variable {κ : Type*} [DecidableEq κ] (r : Register κ) (k : κ) (ks : List κ)

def enter : Register κ := { r with keys := insert k r.keys }

def remove : Register κ :=
  if k ∈ r.keys then { r with keys := r.keys.erase k } else { r with strays := r.strays ++ [k] }

def enterAll : Register κ := ks.foldl enter r

def removeAll : Register κ := ks.foldl remove r

variable {r k ks}

theorem keys_remove : (r.remove k).keys = r.keys.erase k := by
  unfold remove
  split
  · rfl
  simp_all

theorem strays_remove (hk : k ∈ r.keys) : (r.remove k).strays = r.strays := by
  rw [remove, if_pos hk]

@[simp] theorem strays_enterAll : (r.enterAll ks).strays = r.strays := by
  induction ks generalizing r with
  | nil => rfl
  | cons k ks ih => exact ih (r := r.enter k)

theorem mem_enterAll {l : κ} : l ∈ (r.enterAll ks).keys ↔ l ∈ r.keys ∨ l ∈ ks := by
  induction ks generalizing r with
  | nil => exact (or_iff_left List.not_mem_nil).symm
  | cons k ks ih =>
    rw [show r.enterAll (k :: ks) = (r.enter k).enterAll ks from rfl, ih, List.mem_cons]
    show l ∈ insert k r.keys ∨ l ∈ ks ↔ _
    rw [Finset.mem_insert]
    tauto

theorem enterAll_concat : r.enterAll (ks ++ [k]) = (r.enterAll ks).enter k := by
  rw [enterAll, List.foldl_append]
  rfl

theorem mem_removeAll {l : κ} : l ∈ (r.removeAll ks).keys ↔ l ∈ r.keys ∧ l ∉ ks := by
  induction ks generalizing r with
  | nil => exact (and_iff_left List.not_mem_nil).symm
  | cons k ks ih =>
    grind [removeAll, keys_remove]

/-- Keys that are all registered are taken out without a stray. -/
theorem strays_removeAll (hnodup : ks.Nodup) (hks : ∀ k ∈ ks, k ∈ r.keys) :
    (r.removeAll ks).strays = r.strays := by
  induction ks generalizing r with
  | nil => rfl
  | cons k ks ih =>
    obtain ⟨hk, hnodup⟩ := List.nodup_cons.mp hnodup
    have hrest : ∀ l ∈ ks, l ∈ (r.remove k).keys := by
      grind [keys_remove]
    exact (ih hnodup hrest).trans (strays_remove (hks k List.mem_cons_self))

/-- A client that takes out what it entered leaves the register as it was. -/
theorem removeAll_enterAll (hnodup : ks.Nodup) (hnew : ∀ k ∈ ks, k ∉ r.keys) :
    (r.enterAll ks).removeAll ks = r := by
  have hkeys : ((r.enterAll ks).removeAll ks).keys = r.keys := by
    grind [mem_removeAll, mem_enterAll]
  have hstrays : ((r.enterAll ks).removeAll ks).strays = r.strays :=
    (strays_removeAll hnodup fun k hk => mem_enterAll.mpr (.inr hk)).trans strays_enterAll
  cases h : (r.enterAll ks).removeAll ks
  simp_all

end Register

end EtherDevice.Lib
