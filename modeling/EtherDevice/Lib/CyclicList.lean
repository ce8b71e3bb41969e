import Mathlib.Data.List.Chain
import Mathlib.Data.List.Nodup
import Mathlib.Logic.Function.Basic
import Mathlib.Tactic.Common

/-!
# Lists that are linked both ways round a sentinel

`Ring` says that the links of a sentinel and of the nodes of a list follow one another in both
directions. A node is put between two neighbours and taken out again by writing their links.
-/

namespace EtherDevice.Lib

/-- A chain whose pairs keep their relation stays a chain. -/
theorem isChain_congr {α : Type*} {R S : α → α → Prop} {l : List α}
    (h : ∀ a ∈ l.dropLast, ∀ b ∈ l.tail, R a b → S a b) (hl : l.IsChain R) : l.IsChain S := by
  induction l with
  | nil => exact .nil
  | cons a l ih =>
    cases l with
    | nil => exact .singleton a
    | cons b l =>
      obtain ⟨hab, hl⟩ := List.isChain_cons_cons.mp hl
      refine List.isChain_cons_cons.mpr ⟨h a (by simp) b (by simp) hab, ih ?_ hl⟩
      exact fun c hc d hd => h c (List.mem_cons_of_mem _ hc) d (List.mem_cons_of_mem _ hd)

structure Linked (ι : Type*) where
  next : ι → ι
  prev : ι → ι

namespace Linked

variable {ι : Type*} {l : Linked ι} {head x p n : ι} {xs ys as bs : List ι}

/-- The nodes `xs` follow the sentinel in this order, and the sentinel follows them. -/
structure Ring (l : Linked ι) (head : ι) (xs : List ι) : Prop where
  nodup : (head :: xs).Nodup
  linked : (head :: xs ++ [head]).IsChain fun a b => l.next a = b ∧ l.prev b = a

/-- Only the links of the sentinel and of the nodes matter. -/
theorem Ring.congr {m : Linked ι} (h : l.Ring head xs)
    (hsame : ∀ a ∈ head :: xs, m.next a = l.next a ∧ m.prev a = l.prev a) : m.Ring head xs := by
  refine ⟨h.nodup, isChain_congr (fun a ha b hb hab => ?_) h.linked⟩
  rw [List.dropLast_concat] at ha
  have hb : b ∈ head :: xs := (List.perm_append_singleton head xs).mem_iff.mp hb
  exact ⟨(hsame a ha).1.trans hab.1, (hsame b hb).2.trans hab.2⟩

theorem Ring.empty : l.Ring head [] ↔ l.next head = head ∧ l.prev head = head :=
  ⟨fun h => (List.isChain_cons_cons.mp h.linked).1,
    fun h => ⟨List.nodup_singleton head, List.isChain_cons_cons.mpr ⟨h, .singleton head⟩⟩⟩

theorem exists_neighbours (head : ι) (xs ys : List ι) :
    ∃ as p n bs, head :: xs = as ++ [p] ∧ ys ++ [head] = n :: bs :=
  ⟨(head :: xs).dropLast, _, _, (ys ++ [head]).tail, (List.dropLast_concat_getLast (by simp)).symm,
    (List.cons_head_tail (by simp)).symm⟩

theorem ring_eq (has : head :: xs = as ++ [p]) (hbs : ys ++ [head] = n :: bs) (zs : List ι) :
    head :: (xs ++ (zs ++ ys)) ++ [head] = as ++ p :: (zs ++ n :: bs) := by
  calc head :: (xs ++ (zs ++ ys)) ++ [head] = (head :: xs) ++ (zs ++ (ys ++ [head])) := by simp
    _ = as ++ p :: (zs ++ n :: bs) := by rw [has, hbs, List.append_assoc]; rfl

theorem Ring.neighbours (h : l.Ring head (xs ++ ys)) (has : head :: xs = as ++ [p])
    (hbs : ys ++ [head] = n :: bs) :
    (as ++ [p]).IsChain (fun a b => l.next a = b ∧ l.prev b = a) ∧ (l.next p = n ∧ l.prev n = p) ∧
      (n :: bs).IsChain fun a b => l.next a = b ∧ l.prev b = a := by
  have hring : head :: (xs ++ ys) ++ [head] = as ++ p :: n :: bs := ring_eq has hbs []
  exact List.isChain_append_cons_cons.mp (hring ▸ h.linked)

theorem Ring.notMem (h : (head :: (xs ++ ys)).Nodup) (has : head :: xs = as ++ [p])
    (hbs : ys ++ [head] = n :: bs) : p ∉ as ∧ n ∉ bs := by
  constructor
  · have hnodup : (as ++ [p]).Nodup := has ▸ h.sublist (by simp)
    exact fun hp => (List.nodup_append.mp hnodup).2.2 p hp p (List.mem_singleton_self p) rfl
  · have hnodup : (n :: bs).Nodup := by
      rw [← hbs, (List.perm_append_singleton head ys).nodup_iff]
      exact h.sublist (by simp)
    exact (List.nodup_cons.mp hnodup).1

variable [DecidableEq ι]

/-- Put `x` between `p` and `n`. -/
def insert (l : Linked ι) (p x n : ι) : Linked ι where
  next := Function.update (Function.update l.next x n) p x
  prev := Function.update (Function.update l.prev n x) x p

def bypass (l : Linked ι) (x : ι) : Linked ι where
  next := Function.update l.next (l.prev x) (l.next x)
  prev := Function.update l.prev (l.next x) (l.prev x)

theorem insert_next (a : ι) :
    (l.insert p x n).next a = if a = p then x else if a = x then n else l.next a := by
  simp [insert, Function.update_apply]

theorem insert_prev (a : ι) :
    (l.insert p x n).prev a = if a = x then p else if a = n then x else l.prev a := by
  simp [insert, Function.update_apply]

theorem bypass_next (a : ι) :
    (l.bypass x).next a = if a = l.prev x then l.next x else l.next a := by
  simp [bypass, Function.update_apply]

theorem bypass_prev (a : ι) :
    (l.bypass x).prev a = if a = l.next x then l.prev x else l.prev a := by
  simp [bypass, Function.update_apply]

theorem Ring.insert (h : l.Ring head (xs ++ ys)) (has : head :: xs = as ++ [p])
    (hbs : ys ++ [head] = n :: bs) (hx : x ∉ head :: (xs ++ ys)) :
    (l.insert p x n).Ring head (xs ++ x :: ys) := by
  obtain ⟨hbefore, ⟨hpn, hnp⟩, hafter⟩ := h.neighbours has hbs
  obtain ⟨hp, hn⟩ := Ring.notMem h.nodup has hbs
  have hxs : x ∉ as ++ [p] := by
    rw [← has]
    grind
  have hys : x ∉ n :: bs := by
    rw [← hbs]
    grind
  have hxp : x ≠ p := fun h => hxs (by simp [h])
  have hxn : x ≠ n := fun h => hys (by simp [h])
  -- the links of other neighbours stay
  have hkeep : ∀ {a b}, a ≠ p ∨ b ≠ n → a ≠ x → b ≠ x → l.next a = b ∧ l.prev b = a →
      (l.insert p x n).next a = b ∧ (l.insert p x n).prev b = a := by
    grind [insert_next, insert_prev]
  refine ⟨by grind [h.nodup], ?_⟩
  have hring : head :: (xs ++ x :: ys) ++ [head] = as ++ p :: x :: n :: bs :=
    ring_eq has hbs [x]
  rw [hring]
  refine List.isChain_append_cons_cons.mpr ⟨isChain_congr (fun a ha b hb => ?_) hbefore, ?_,
    List.isChain_cons_cons.mpr ⟨?_, isChain_congr (fun a ha b hb => ?_) hafter⟩⟩
  · rw [List.dropLast_concat] at ha
    exact hkeep (.inl (ne_of_mem_of_not_mem ha hp))
      (ne_of_mem_of_not_mem (List.mem_append_left _ ha) hxs)
      (ne_of_mem_of_not_mem (List.mem_of_mem_tail hb) hxs)
  · simp [insert_next, insert_prev]
  · simp [insert_next, insert_prev, hxp, hxn.symm]
  · exact hkeep (.inr (ne_of_mem_of_not_mem hb hn))
      (ne_of_mem_of_not_mem (List.dropLast_subset _ ha) hys)
      (ne_of_mem_of_not_mem (List.mem_cons_of_mem n hb) hys)

theorem Ring.bypass (h : l.Ring head (xs ++ x :: ys)) : (l.bypass x).Ring head (xs ++ ys) := by
  obtain ⟨as, p, n, bs, has, hbs⟩ := exists_neighbours head xs ys
  have hring : head :: (xs ++ x :: ys) ++ [head] = as ++ p :: x :: n :: bs :=
    ring_eq has hbs [x]
  obtain ⟨hbefore, ⟨hpx, hxp⟩, hafter⟩ := List.isChain_append_cons_cons.mp (hring ▸ h.linked)
  obtain ⟨⟨hxn, hnx⟩, hafter⟩ := List.isChain_cons_cons.mp hafter
  have hnodup : (head :: (xs ++ ys)).Nodup := h.nodup.sublist (by simp)
  obtain ⟨hp, hn⟩ := Ring.notMem hnodup has hbs
  have hxs : x ∉ as ++ [p] := by
    rw [← has]
    grind [h.nodup]
  have hys : x ∉ n :: bs := by
    rw [← hbs]
    grind [h.nodup]
  have hkeep : ∀ {a b}, a ≠ p ∨ b ≠ n → a ≠ x → b ≠ x → l.next a = b ∧ l.prev b = a →
      (l.bypass x).next a = b ∧ (l.bypass x).prev b = a := by
    grind [bypass_next, bypass_prev]
  refine ⟨hnodup, ?_⟩
  have hring : head :: (xs ++ ys) ++ [head] = as ++ p :: n :: bs := ring_eq has hbs []
  rw [hring]
  refine List.isChain_append_cons_cons.mpr ⟨isChain_congr (fun a ha b hb => ?_) hbefore, ?_,
    isChain_congr (fun a ha b hb => ?_) hafter⟩
  · rw [List.dropLast_concat] at ha
    exact hkeep (.inl (ne_of_mem_of_not_mem ha hp))
      (ne_of_mem_of_not_mem (List.mem_append_left _ ha) hxs)
      (ne_of_mem_of_not_mem (List.mem_of_mem_tail hb) hxs)
  · simp [bypass_next, bypass_prev, hxn, hxp]
  · exact hkeep (.inr (ne_of_mem_of_not_mem hb hn))
      (ne_of_mem_of_not_mem (List.dropLast_subset _ ha) hys)
      (ne_of_mem_of_not_mem (List.mem_cons_of_mem n hb) hys)

/-! ## A list with a null -/

section Null

variable {α : Type*} {l : Linked (Option α)} {a : α} {u v : List α}

/-- The nodes of a list whose first and last link are those of the null. -/
def Lists (l : Linked (Option α)) (u : List α) : Prop := l.Ring none (u.map some)

theorem exists_eq_getLast? (u : List α) : ∃ as, none :: u.map some = as ++ [u.getLast?] := by
  obtain rfl | ⟨u, a, rfl⟩ := u.eq_nil_or_concat'
  · exact ⟨[], rfl⟩
  · exact ⟨none :: u.map some, by simp⟩

theorem exists_eq_head? (v : List α) : ∃ bs, v.map some ++ [none] = v.head? :: bs := by
  cases v with
  | nil => exact ⟨[], rfl⟩
  | cons a v => exact ⟨v.map some ++ [none], rfl⟩

theorem Lists.links (h : l.Lists (u ++ v)) :
    l.next u.getLast? = v.head? ∧ l.prev v.head? = u.getLast? := by
  obtain ⟨as, has⟩ := exists_eq_getLast? u
  obtain ⟨bs, hbs⟩ := exists_eq_head? v
  rw [Lists, List.map_append] at h
  exact (h.neighbours has hbs).2.1

theorem Lists.congr {m : Linked (Option α)} (h : l.Lists u)
    (hnone : m.next none = l.next none ∧ m.prev none = l.prev none)
    (hsame : ∀ a ∈ u, m.next (some a) = l.next (some a) ∧ m.prev (some a) = l.prev (some a)) :
    m.Lists u :=
  Ring.congr h (List.forall_mem_cons.mpr ⟨hnone, List.forall_mem_map.mpr hsame⟩)

theorem Lists.nodup (h : l.Lists u) : u.Nodup := (List.nodup_cons.mp (Ring.nodup h)).2.of_map _

theorem Lists.around (h : l.Lists (u ++ a :: v)) :
    l.next (some a) = v.head? ∧ l.prev (some a) = u.getLast? := by
  have hsplit : u ++ a :: v = (u ++ [a]) ++ v := by simp
  have hnext := (hsplit ▸ h).links.1
  rw [List.getLast?_concat] at hnext
  exact ⟨hnext, h.links.2⟩

variable [DecidableEq α]

theorem Lists.insert (h : l.Lists (u ++ v)) (ha : a ∉ u ++ v) :
    (l.insert u.getLast? (some a) v.head?).Lists (u ++ a :: v) := by
  obtain ⟨as, has⟩ := exists_eq_getLast? u
  obtain ⟨bs, hbs⟩ := exists_eq_head? v
  rw [Lists, List.map_append] at h ⊢
  exact Ring.insert h has hbs (by simpa using ha)

theorem Lists.bypass (h : l.Lists (u ++ a :: v)) : (l.bypass (some a)).Lists (u ++ v) := by
  rw [Lists, List.map_append] at h ⊢
  exact Ring.bypass h

end Null

end Linked

end EtherDevice.Lib
