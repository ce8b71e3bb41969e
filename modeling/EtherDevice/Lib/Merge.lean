import Mathlib

/-!
# Queues that merge two streams

Entries are numbered in the order of their arrival. A queue has an entry for each element
of two streams, in order of arrival; the streams wait elsewhere. If the next element of
one stream is older than all of the other stream, it belongs to the head of the queue.
-/

namespace EtherDevice.Lib

universe u

variable {α : Type u} [LinearOrder α] {q a b : List α} {x : α}

/-- `q` has the elements of `a` and of `b`; all three are in order. -/
structure Merged (q a b : List α) : Prop where
  sorted : q.Pairwise (· < ·)
  left : a.Pairwise (· < ·)
  right : b.Pairwise (· < ·)
  perm : q.Perm (a ++ b)

namespace Merged

theorem nil : Merged ([] : List α) [] [] := ⟨.nil, .nil, .nil, .nil⟩

theorem symm (h : Merged q a b) : Merged q b a :=
  ⟨h.sorted, h.right, h.left, h.perm.trans List.perm_append_comm⟩

theorem mem_iff (h : Merged q a b) : x ∈ q ↔ x ∈ a ∨ x ∈ b := by
  rw [h.perm.mem_iff, List.mem_append]

theorem arrive (h : Merged q a b) (hx : ∀ y ∈ q, y < x) : Merged (q ++ [x]) (a ++ [x]) b where
  sorted := by
    rw [List.pairwise_append]
    refine ⟨h.sorted, List.pairwise_singleton _ _, ?_⟩
    simp_all
  left := by
    rw [List.pairwise_append]
    refine ⟨h.left, List.pairwise_singleton _ _, ?_⟩
    intro y hy z hz
    rw [List.mem_singleton.mp hz]
    exact hx y (h.mem_iff.mpr (.inl hy))
  right := h.right
  perm := by
    have hswap : (a ++ [x] ++ b).Perm (a ++ b ++ [x]) := by
      rw [List.append_assoc, List.append_assoc]
      exact List.perm_append_comm.append_left a
    exact (h.perm.append_right [x]).trans hswap.symm

/-- The head of a stream is at the head of the queue if it is older than the other
stream. -/
theorem take (h : Merged q (x :: a) b) (hx : ∀ y ∈ b, x < y) :
    ∃ rest, q = x :: rest ∧ Merged rest a b := by
  have hmem : x ∈ q := h.mem_iff.mpr (.inl List.mem_cons_self)
  cases q with
  | nil => cases hmem
  | cons y rest =>
    have hle : x = y := by
      rcases List.mem_cons.mp hmem with heq | hrest
      · exact heq
      · have hlt : y < x := List.rel_of_pairwise_cons h.sorted hrest
        rcases h.mem_iff.mp List.mem_cons_self with hleft | hright
        · rcases List.mem_cons.mp hleft with heq | ha
          · exact heq.symm
          · exact absurd (List.rel_of_pairwise_cons h.left ha) (lt_asymm hlt)
        · exact absurd (hx y hright) (lt_asymm hlt)
    subst hle
    exact ⟨rest, rfl, h.sorted.of_cons, h.left.of_cons, h.right, h.perm.cons_inv⟩

theorem nil_of_nil (h : Merged [] a b) : a = [] ∧ b = [] := by
  have hnil := h.perm.symm.eq_nil
  exact List.append_eq_nil_iff.mp hnil

end Merged

end EtherDevice.Lib
