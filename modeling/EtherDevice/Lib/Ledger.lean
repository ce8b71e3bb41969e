import Mathlib.Data.List.Perm.Basic
import Mathlib.Data.List.Nodup
import Mathlib.Tactic.Common

/-!
# Ledgers

A resource manager gives out keys for values and takes them back; `live` lists what is
given out. The holders of the keys are elsewhere. `Ledger held live` says that the two
sides agree: what the holders hold is what is live, each of it once, and no key is given
out twice.
-/

namespace EtherDevice.Lib

universe u v

variable {κ : Type u} {ν : Type v} {held live : List (κ × ν)} {k : κ} {x : ν}

/-- What the holders hold is what is live. -/
structure Ledger (held live : List (κ × ν)) : Prop where
  perm : held.Perm live
  keys : (live.map Prod.fst).Nodup

namespace Ledger

theorem empty : Ledger ([] : List (κ × ν)) [] := ⟨.refl [], .nil⟩

theorem held_keys (h : Ledger held live) : (held.map Prod.fst).Nodup :=
  (h.perm.map Prod.fst).nodup_iff.mpr h.keys

theorem of_perm {held' : List (κ × ν)} (h : Ledger held live) (hp : held'.Perm held) :
    Ledger held' live :=
  ⟨hp.trans h.perm, h.keys⟩

theorem mem_iff (h : Ledger held live) : (k, x) ∈ held ↔ (k, x) ∈ live := h.perm.mem_iff

theorem add (h : Ledger held live) (hk : k ∉ live.map Prod.fst) :
    Ledger ((k, x) :: held) ((k, x) :: live) where
  perm := h.perm.cons (k, x)
  keys := by
    simp [hk, h.keys]

variable [DecidableEq κ]

theorem remove (h : Ledger ((k, x) :: held) live) :
    Ledger held (live.filter fun p => decide (p.1 ≠ k)) := by
  have hkeys := h.held_keys
  rw [List.map_cons, List.nodup_cons] at hkeys
  constructor
  · have hp := h.perm.filter fun p => decide (p.1 ≠ k)
    have hrest : (held.filter fun p => decide (p.1 ≠ k)) = held := by
      apply List.filter_eq_self.mpr
      intro p hmem
      rw [decide_eq_true_eq]
      intro heq
      have hkey : p.1 ∈ held.map Prod.fst := List.mem_map_of_mem hmem
      exact hkeys.1 (heq ▸ hkey)
    rw [List.filter_cons_of_neg (by simp), hrest] at hp
    exact hp
  · exact List.Nodup.sublist (List.filter_sublist.map Prod.fst) h.keys

theorem lookup_eq (h : Ledger held live) (hm : (k, x) ∈ held) : live.lookup k = some x := by
  have hl := h.mem_iff.mp hm
  have hkeys := h.keys
  clear h hm
  induction live with
  | nil => cases hl
  | cons p live ih =>
    rw [List.map_cons, List.nodup_cons] at hkeys
    rcases List.mem_cons.mp hl with rfl | hl
    · simp
    · have hne : k ≠ p.1 := by
        intro heq
        simp_all
      rw [List.lookup_cons, beq_false_of_ne hne]
      exact ih hl hkeys.2

end Ledger

end EtherDevice.Lib
