import Mathlib.Data.Finset.Basic
import Mathlib.Tactic.Common

/-!
# Tables whose rows own parts of a shared set

A table is walked row by row, and the visit of a row may change a set that all rows share.
Each row owns some keys of the set and shows some of these: `Tallies` says that of the keys of
a row exactly the shown ones are in the set, and that nothing else is.

A visit that touches only the keys of its own row and leaves them as its row then shows keeps
the tally of the whole table (`Tallies.walk`).
-/

namespace EtherDevice.Lib.OwnedRows

universe u v

variable {ρ : Type u} {κ : Type v}

def walk (visit : ρ → Finset κ → ρ × Finset κ) : List ρ → Finset κ → List ρ × Finset κ
  | [], stock => ([], stock)
  | row :: rows, stock =>
    let visited := visit row stock
    let rest := walk visit rows visited.2
    (visited.1 :: rest.1, rest.2)

variable (own shown : ρ → Finset κ)

/-- Of the keys of a row the shown ones are in the set. -/
def Right (row : ρ) (stock : Finset κ) : Prop :=
  ∀ key ∈ own row, key ∈ stock ↔ key ∈ shown row

def Apart (rows : List ρ) : Prop :=
  rows.Pairwise fun row row' => ∀ key ∈ own row, key ∉ own row'

structure Tallies (rows : List ρ) (stock : Finset κ) : Prop where
  apart : Apart own rows
  right : ∀ row ∈ rows, Right own shown row stock
  covered : ∀ key ∈ stock, ∃ row ∈ rows, key ∈ own row

/-- A visit keeps the keys of the row, and touches no others. -/
structure Local (visit : ρ → Finset κ → ρ × Finset κ) : Prop where
  same : ∀ row stock, own (visit row stock).1 = own row
  frame : ∀ row stock, ∀ key ∉ own row, key ∈ (visit row stock).2 ↔ key ∈ stock

variable {own shown} {visit : ρ → Finset κ → ρ × Finset κ} {rows : List ρ} {stock : Finset κ}

/-! ## The rows of a walk -/

theorem exists_of_mem_walk {row' : ρ} (h : row' ∈ (walk visit rows stock).1) :
    ∃ row ∈ rows, ∃ stock', row' = (visit row stock').1 := by
  induction rows generalizing stock with
  | nil => exact absurd h List.not_mem_nil
  | cons first rows ih =>
    rcases List.mem_cons.mp h with rfl | h
    · exact ⟨first, List.mem_cons_self, stock, rfl⟩
    grind

/-- What a visit makes of a row holds of each row after the walk. -/
theorem forall_walk {P Q : ρ → Prop} (hvisit : ∀ row stock, P row → Q (visit row stock).1)
    (h : ∀ row ∈ rows, P row) : ∀ row ∈ (walk visit rows stock).1, Q row := by
  intro row' hrow'
  obtain ⟨row, hrow, stock', rfl⟩ := exists_of_mem_walk hrow'
  exact hvisit row stock' (h row hrow)

theorem mem_walk_of_fixed {row : ρ} (hrow : row ∈ rows)
    (hfixed : ∀ stock, (visit row stock).1 = row) : row ∈ (walk visit rows stock).1 := by
  induction rows generalizing stock with
  | nil => exact absurd hrow List.not_mem_nil
  | cons first rows ih =>
    rcases List.mem_cons.mp hrow with rfl | hrow
    · exact List.mem_cons.mpr (.inl (hfixed stock).symm)
    · exact List.mem_cons_of_mem _ (ih hrow)

/-! ## The keys of a walk -/

theorem own_walk (hlocal : Local own visit) (rows : List ρ) (stock : Finset κ) :
    (walk visit rows stock).1.map own = rows.map own := by
  induction rows generalizing stock with
  | nil => rfl
  | cons first rows ih => simp only [walk, List.map_cons, hlocal.same, ih]

theorem frame_walk (hlocal : Local own visit) (stock : Finset κ) {key : κ}
    (hkey : ∀ row ∈ rows, key ∉ own row) :
    key ∈ (walk visit rows stock).2 ↔ key ∈ stock := by
  induction rows generalizing stock with
  | nil => exact Iff.rfl
  | cons first rows ih =>
    have hrest := ih (visit first stock).2
      fun row hrow => hkey row (List.mem_cons_of_mem first hrow)
    exact hrest.trans (hlocal.frame first stock key (hkey first List.mem_cons_self))

theorem Apart.eq {row row' : ρ} {key : κ} (h : Apart own rows) (hrow : row ∈ rows)
    (hrow' : row' ∈ rows) (hkey : key ∈ own row) (hkey' : key ∈ own row') : row = row' := by
  induction rows with
  | nil => exact absurd hrow List.not_mem_nil
  | cons first rows ih =>
    obtain ⟨hfirst, hapart⟩ := List.pairwise_cons.mp h
    rcases List.mem_cons.mp hrow with rfl | hrest
    · grind
    · rcases List.mem_cons.mp hrow' with rfl | hrest'
      · exact absurd hkey (hfirst row hrest key hkey')
      · exact ih hapart hrest hrest'

theorem apart_walk (hlocal : Local own visit) (h : Apart own rows) :
    Apart own (walk visit rows stock).1 := by
  have hmap := own_walk hlocal rows stock
  unfold Apart at h ⊢
  rw [← List.pairwise_map (f := own) (R := fun keys keys' => ∀ key ∈ keys, key ∉ keys')] at h ⊢
  rwa [hmap]

theorem right_walk (hlocal : Local own visit) (hapart : Apart own rows)
    (hvisit : ∀ row ∈ rows, ∀ stock, Right own shown row stock →
      Right own shown (visit row stock).1 (visit row stock).2)
    (h : ∀ row ∈ rows, Right own shown row stock) :
    ∀ row ∈ (walk visit rows stock).1, Right own shown row (walk visit rows stock).2 := by
  induction rows generalizing stock with
  | nil => exact fun row hrow => absurd hrow List.not_mem_nil
  | cons first rows ih =>
    obtain ⟨hfirst, hapart⟩ := List.pairwise_cons.mp hapart
    have hkept := hvisit first List.mem_cons_self stock (h first List.mem_cons_self)
    intro row hrow
    rcases List.mem_cons.mp hrow with rfl | hrow
    · -- the other rows do not touch the keys of the first
      intro key hkey
      have howned : key ∈ own first := hlocal.same first stock ▸ hkey
      have hframe := frame_walk hlocal (visit first stock).2
        fun row' hrow' => hfirst row' hrow' key howned
      exact hframe.trans (hkept key hkey)
    · have hrest := fun row' hrow' => hvisit row' (List.mem_cons_of_mem first hrow')
      refine ih hapart hrest ?_ row hrow
      intro row' hrow' key hkey
      have hother : key ∉ own first := fun howned => hfirst row' hrow' key howned hkey
      exact (hlocal.frame first stock key hother).trans
        (h row' (List.mem_cons_of_mem first hrow') key hkey)

/-- The visit of a row finds its keys as they were, and leaves them as they will be. -/
theorem exists_visit (hlocal : Local own visit) (stock : Finset κ) (hapart : Apart own rows)
    {row : ρ} (hrow : row ∈ rows) : ∃ stock', (∀ key ∈ own row, key ∈ stock' ↔ key ∈ stock) ∧
      ∀ key ∈ own row, key ∈ (walk visit rows stock).2 ↔ key ∈ (visit row stock').2 := by
  induction rows generalizing stock with
  | nil => exact absurd hrow List.not_mem_nil
  | cons first rows ih =>
    obtain ⟨hfirst, hapart⟩ := List.pairwise_cons.mp hapart
    rcases List.mem_cons.mp hrow with rfl | hrest
    · refine ⟨stock, fun _ _ => Iff.rfl, fun key hkey => ?_⟩
      exact frame_walk hlocal _ fun row' hrow' => hfirst row' hrow' key hkey
    · obtain ⟨stock', hbefore, hafter⟩ := ih (visit first stock).2 hapart hrest
      refine ⟨stock', fun key hkey => ?_, hafter⟩
      have hother : key ∉ own first := fun howned => hfirst row hrest key howned hkey
      exact (hbefore key hkey).trans (hlocal.frame first stock key hother)

/-- Visits that keep the tally of their row keep that of the table. -/
theorem Tallies.walk (hlocal : Local own visit) (h : Tallies own shown rows stock)
    (hvisit : ∀ row ∈ rows, ∀ stock, Right own shown row stock →
      Right own shown (visit row stock).1 (visit row stock).2) :
    Tallies own shown (walk visit rows stock).1 (walk visit rows stock).2 where
  apart := apart_walk hlocal h.apart
  right := right_walk hlocal h.apart hvisit h.right
  covered key hkey := by
    have hmap := own_walk hlocal rows stock
    have howned : ∃ row ∈ rows, key ∈ own row := by
      by_contra hnone
      have hold := (frame_walk hlocal stock fun row hrow hown => hnone ⟨row, hrow, hown⟩).mp hkey
      exact hnone (h.covered key hold)
    grind [List.mem_map_of_mem]

/-- A key of the set is shown by a row, and conversely. -/
theorem Tallies.mem_iff (h : Tallies own shown rows stock)
    (hsub : ∀ row ∈ rows, shown row ⊆ own row) {key : κ} :
    key ∈ stock ↔ ∃ row ∈ rows, key ∈ shown row := by
  constructor
  · intro hkey
    obtain ⟨row, hrow, hown⟩ := h.covered key hkey
    exact ⟨row, hrow, (h.right row hrow key hown).mp hkey⟩
  · rintro ⟨row, hrow, hshown⟩
    exact (h.right row hrow key (hsub row hrow hshown)).mpr hshown

end EtherDevice.Lib.OwnedRows
