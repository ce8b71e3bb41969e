import Mathlib.Tactic.Common
import Mathlib.Data.List.Basic
import Mathlib.Data.List.Nodup
import Mathlib.Data.List.Perm.Subperm
import Mathlib.Logic.Function.Basic

/-!
# Bucket chains threaded through one index space

A hash table with chaining keeps `N` bucket heads at the indices below `N` and the
overflow entries at the indices from `N` on. Every entry has a forward link `next`, in
which `0` ends the chain, and overflow entries have a back link `prev`.

`Walk` and `BackLinks` describe one chain as the list of its overflow entries.
`Chained` says that a whole table is well formed: the chains of its used heads are
finite, pairwise disjoint, linked both ways, and together hold every used overflow
entry. The four operations on such a table are `Chained.fillHead`, `Chained.append`,
`Chained.unlink` and `Chained.clearHeads`; their hypotheses say pointwise what the
operation writes.
-/

namespace EtherDevice.Lib

/-! ## One chain -/

/-- Following `next` from `a` visits the entries of `l` in this order, then reads `0`. -/
def Walk (next : Nat → Nat) : Nat → List Nat → Prop
  | a, [] => next a = 0
  | a, b :: l => next a = b ∧ b ≠ 0 ∧ Walk next b l

/-- The back link of every entry of `l` names its predecessor on the chain of `a`. -/
def BackLinks (prev : Nat → Nat) : Nat → List Nat → Prop
  | _, [] => True
  | a, b :: l => prev b = a ∧ BackLinks prev b l

/-- Following `next` from `h` passes `e` before it ends. -/
def OnWalk (next : Nat → Nat) (h e : Nat) : Prop := ∃ l, Walk next h l ∧ e ∈ h :: l

/-- The last entry of a chain: its head, or the last overflow entry. -/
def lastOf : Nat → List Nat → Nat
  | a, [] => a
  | _, b :: l => lastOf b l

theorem lastOf_mem (a : Nat) (l : List Nat) : lastOf a l ∈ a :: l := by
  induction l generalizing a with
  | nil => exact List.mem_cons_self
  | cons b l ih => exact List.mem_cons_of_mem a (ih b)

theorem lastOf_concat (a b : Nat) (l : List Nat) : lastOf a (l ++ [b]) = b := by
  induction l generalizing a with
  | nil => rfl
  | cons c l ih => exact ih c

theorem ne_lastOf_cons {a b : Nat} {l : List Nat} (hnd : (a :: b :: l).Nodup) :
    a ≠ lastOf a (b :: l) := by
  grind [lastOf, lastOf_mem]

namespace Walk

variable {next next' : Nat → Nat}

theorem unique {a : Nat} {l l' : List Nat} (h : Walk next a l) (h' : Walk next a l') :
    l = l' := by
  induction l generalizing a l' with
  | nil =>
    cases l' with
    | nil => rfl
    | cons b l' => exact absurd (h'.1.symm.trans h) h'.2.1
  | cons b l ih =>
    cases l' with
    | nil => exact absurd (h.1.symm.trans h') h.2.1
    | cons b' l' =>
      obtain rfl : b = b' := h.1.symm.trans h'.1
      rw [ih h.2.2 h'.2.2]

theorem congr {a : Nat} {l : List Nat} (h : Walk next a l)
    (he : ∀ x ∈ a :: l, next' x = next x) : Walk next' a l := by
  induction l generalizing a with
  | nil => exact (he a List.mem_cons_self).trans h
  | cons b l ih =>
    refine ⟨(he a List.mem_cons_self).trans h.1, h.2.1, ih h.2.2 ?_⟩
    exact fun x hx => he x (List.mem_cons_of_mem a hx)

/-- A walk that passes `e` continues from `e`. -/
theorem tail {a e : Nat} {l₁ l₂ : List Nat} (h : Walk next a (l₁ ++ e :: l₂)) :
    Walk next e l₂ := by
  induction l₁ generalizing a with
  | nil => exact h.2.2
  | cons b l₁ ih => exact ih h.2.2

theorem next_eq {a : Nat} {l : List Nat} (h : Walk next a l) : next a = l.headD 0 := by
  cases l with
  | nil => exact h
  | cons b l => exact h.1

/-- Writing `e` into the last link of a chain appends `e`. -/
theorem concat {a e : Nat} {l : List Nat} (h : Walk next a l) (hnd : (a :: l).Nodup)
    (he : e ≠ 0) (hlast : next' (lastOf a l) = e) (hend : next' e = 0)
    (hsame : ∀ x ∈ a :: l, x ≠ lastOf a l → next' x = next x) :
    Walk next' a (l ++ [e]) := by
  induction l generalizing a with
  | nil => exact ⟨hlast, he, hend⟩
  | cons b l ih =>
    refine ⟨(hsame a List.mem_cons_self (ne_lastOf_cons hnd)).trans h.1, h.2.1, ?_⟩
    exact ih h.2.2 (List.nodup_cons.mp hnd).2 hlast
      fun x hx hne => hsame x (List.mem_cons_of_mem a hx) hne

/-- Writing the successor of `e` over the link to `e` removes `e` from the chain. -/
theorem unlink {a e : Nat} {l₁ l₂ : List Nat} (h : Walk next a (l₁ ++ e :: l₂))
    (hnd : (a :: (l₁ ++ e :: l₂)).Nodup) (hprev : next' (lastOf a l₁) = next e)
    (hsame : ∀ x ∈ a :: (l₁ ++ l₂), x ≠ lastOf a l₁ → next' x = next x) :
    Walk next' a (l₁ ++ l₂) := by
  induction l₁ generalizing a with
  | nil =>
    have hl₂ : Walk next e l₂ := h.2.2
    have hout : ∀ x ∈ l₂, x ≠ a := by
      rintro x hx rfl
      exact (List.nodup_cons.mp hnd).1 (List.mem_cons_of_mem e hx)
    cases l₂ with
    | nil => exact hprev.trans hl₂
    | cons n l₂ =>
      refine ⟨hprev.trans hl₂.1, hl₂.2.1, hl₂.2.2.congr fun x hx => ?_⟩
      exact hsame x (List.mem_cons_of_mem a hx) (hout x hx)
  | cons b l₁ ih =>
    have hne : a ≠ lastOf a (b :: l₁) := by
      grind [ne_lastOf_cons]
    refine ⟨(hsame a List.mem_cons_self hne).trans h.1, h.2.1, ?_⟩
    exact ih h.2.2 (List.nodup_cons.mp hnd).2 hprev
      fun x hx hne' => hsame x (List.mem_cons_of_mem a hx) hne'

end Walk

namespace BackLinks

variable {prev prev' : Nat → Nat}

theorem congr {a : Nat} {l : List Nat} (h : BackLinks prev a l)
    (he : ∀ x ∈ l, prev' x = prev x) : BackLinks prev' a l := by
  induction l generalizing a with
  | nil => trivial
  | cons b l ih =>
    refine ⟨(he b List.mem_cons_self).trans h.1, ih h.2 ?_⟩
    exact fun x hx => he x (List.mem_cons_of_mem b hx)

theorem at_mid {a e : Nat} {l₁ l₂ : List Nat} (h : BackLinks prev a (l₁ ++ e :: l₂)) :
    prev e = lastOf a l₁ := by
  induction l₁ generalizing a with
  | nil => exact h.1
  | cons b l₁ ih => exact ih h.2

theorem concat {a e : Nat} {l : List Nat} (h : BackLinks prev a l)
    (he : prev' e = lastOf a l) (hsame : ∀ x ∈ l, prev' x = prev x) :
    BackLinks prev' a (l ++ [e]) := by
  induction l generalizing a with
  | nil => exact ⟨he, trivial⟩
  | cons b l ih =>
    refine ⟨(hsame b List.mem_cons_self).trans h.1, ih h.2 he ?_⟩
    exact fun x hx => hsame x (List.mem_cons_of_mem b hx)

theorem unlink {a e : Nat} {l₁ l₂ : List Nat} (h : BackLinks prev a (l₁ ++ e :: l₂))
    (hnd : (l₁ ++ e :: l₂).Nodup) (hhead : ∀ n ∈ l₂.head?, prev' n = lastOf a l₁)
    (hsame : ∀ x ∈ l₁ ++ l₂, x ∉ l₂.head? → prev' x = prev x) :
    BackLinks prev' a (l₁ ++ l₂) := by
  induction l₁ generalizing a with
  | nil =>
    cases l₂ with
    | nil => trivial
    | cons n l₂ =>
      refine ⟨hhead n rfl, h.2.2.congr fun x hx => hsame x (List.mem_cons_of_mem n hx) ?_⟩
      grind
  | cons b l₁ ih =>
    have hb : b ∉ l₂.head? := by
      grind
    refine ⟨(hsame b List.mem_cons_self hb).trans h.1, ?_⟩
    exact ih h.2 (List.nodup_cons.mp hnd).2 hhead
      fun x hx hne => hsame x (List.mem_cons_of_mem b hx) hne

end BackLinks

/-! ## A table of chains -/

/-- What the chains of a table depend on: the entries in use and their links. -/
structure Links where
  used : Nat → Prop
  next : Nat → Nat
  prev : Nat → Nat

/-- The used overflow entries of a table with `N` heads and `E` overflow entries are
distributed over the chains of the used heads, `chain h` being the chain of head `h`.
The overflow entry `N` is never on a chain. -/
structure Chained (N E : Nat) (L : Links) (chain : Nat → List Nat) : Prop where
  walk : ∀ h, h < N → L.used h → Walk L.next h (chain h)
  back : ∀ h, h < N → L.used h → BackLinks L.prev h (chain h)
  nodup : ∀ h, (chain h).Nodup
  mem : ∀ h, ∀ e ∈ chain h, N < e ∧ e < N + E ∧ L.used e
  disjoint : ∀ h h' e, e ∈ chain h → e ∈ chain h' → h = h'
  cover : ∀ e, N ≤ e → e < N + E → L.used e → ∃ h, e ∈ chain h
  head : ∀ h, chain h ≠ [] → h < N ∧ L.used h

namespace Chained

variable {N E : Nat} {L L' : Links} {chain : Nat → List Nat}

theorem head_of_mem (hc : Chained N E L chain) {h e : Nat} (he : e ∈ chain h) :
    h < N ∧ L.used h :=
  hc.head h (List.ne_nil_of_mem he)

theorem head_notMem (hc : Chained N E L chain) {h h' : Nat} (hh : h < N) : h ∉ chain h' := by
  intro hmem
  have := (hc.mem h' h hmem).1
  omega

theorem nodup_cons (hc : Chained N E L chain) {h : Nat} (hh : h < N) :
    (h :: chain h).Nodup :=
  List.nodup_cons.mpr ⟨hc.head_notMem hh, hc.nodup h⟩

theorem used_of_mem (hc : Chained N E L chain) {h x : Nat} (hu : L.used h)
    (hx : x ∈ h :: chain h) : L.used x := by
  rcases List.mem_cons.mp hx with rfl | hx
  · exact hu
  · exact (hc.mem h x hx).2.2

theorem lastOf_used (hc : Chained N E L chain) {h : Nat} (hu : L.used h) :
    L.used (lastOf h (chain h)) :=
  hc.used_of_mem hu (lastOf_mem h (chain h))

theorem lastOf_lt (hc : Chained N E L chain) {h : Nat} (hh : h < N) :
    lastOf h (chain h) < N + E := by
  rcases List.mem_cons.mp (lastOf_mem h (chain h)) with heq | hmem
  · omega
  · exact (hc.mem h _ hmem).2.1

/-- A chain has at most as many entries as the overflow area. -/
theorem length_le (hc : Chained N E L chain) (h : Nat) : (chain h).length ≤ E := by
  have hsub : chain h ⊆ List.range' N E := by
    intro e he
    obtain ⟨hlo, hhi, -⟩ := hc.mem h e he
    exact List.mem_range'_1.mpr ⟨Nat.le_of_lt hlo, hhi⟩
  simpa using (List.subperm_of_subset (hc.nodup h) hsub).length_le

/-- The chain with an overflow entry, its head, and its place on the chain. -/
theorem split (hc : Chained N E L chain) {e : Nat} (hN : N ≤ e) (hE : e < N + E)
    (hu : L.used e) :
    ∃ h l₁ l₂, h < N ∧ L.used h ∧ chain h = l₁ ++ e :: l₂ := by
  obtain ⟨h, hmem⟩ := hc.cover e hN hE hu
  obtain ⟨l₁, l₂, hsplit⟩ := List.append_of_mem hmem
  exact ⟨h, l₁, l₂, (hc.head_of_mem hmem).1, (hc.head_of_mem hmem).2, hsplit⟩

/-- An overflow entry with successor `0` ends its chain. -/
theorem split_last (hc : Chained N E L chain) {h e : Nat} {l₁ l₂ : List Nat} (hh : h < N)
    (hu : L.used h) (hsplit : chain h = l₁ ++ e :: l₂) (hend : L.next e = 0) : l₂ = [] := by
  have hwalk := hc.walk h hh hu
  rw [hsplit] at hwalk
  exact (Walk.unique (l := []) hend hwalk.tail).symm

theorem congr (hc : Chained N E L chain) (hused : ∀ x, L'.used x ↔ L.used x)
    (hnext : ∀ x, L.used x → L'.next x = L.next x)
    (hprev : ∀ x, L.used x → L'.prev x = L.prev x) : Chained N E L' chain where
  walk h hh hu :=
    have hu := (hused h).mp hu
    (hc.walk h hh hu).congr fun x hx => hnext x (hc.used_of_mem hu hx)
  back h hh hu :=
    (hc.back h hh ((hused h).mp hu)).congr fun x hx => hprev x (hc.mem h x hx).2.2
  nodup := hc.nodup
  mem h e he := by
    obtain ⟨hlo, hhi, hu⟩ := hc.mem h e he
    exact ⟨hlo, hhi, (hused e).mpr hu⟩
  disjoint := hc.disjoint
  cover e hlo hhi hu := hc.cover e hlo hhi ((hused e).mp hu)
  head h hne := ⟨(hc.head h hne).1, (hused h).mpr (hc.head h hne).2⟩

/-- A used overflow entry is on the walk of exactly one used head. -/
theorem existsUnique_head (hc : Chained N E L chain) {e : Nat} (hlo : N ≤ e)
    (hhi : e < N + E) (hu : L.used e) :
    ∃! h, h < N ∧ L.used h ∧ OnWalk L.next h e := by
  obtain ⟨h, hmem⟩ := hc.cover e hlo hhi hu
  obtain ⟨hh, huh⟩ := hc.head_of_mem hmem
  refine ⟨h, ⟨hh, huh, chain h, hc.walk h hh huh, List.mem_cons_of_mem h hmem⟩, ?_⟩
  rintro g ⟨hg, hug, l, hwalk, hel⟩
  obtain rfl : l = chain g := hwalk.unique (hc.walk g hg hug)
  rcases List.mem_cons.mp hel with rfl | hel
  · omega
  · exact hc.disjoint g h e hel hmem

theorem chain_nil_of_unused (hc : Chained N E L chain) {h : Nat} (hu : ¬ L.used h) :
    chain h = [] := by
  by_contra hne
  exact hu (hc.head h hne).2

theorem notMem_of_unused (hc : Chained N E L chain) {e h : Nat} (hu : ¬ L.used e) :
    e ∉ chain h := fun hmem => hu (hc.mem h e hmem).2.2

theorem fillHead (hc : Chained N E L chain) {h : Nat} (hh : h < N) (hfree : ¬ L.used h)
    (hused : ∀ x, L'.used x ↔ x = h ∨ L.used x) (hend : L'.next h = 0)
    (hnext : ∀ x, x ≠ h → L'.next x = L.next x)
    (hprev : ∀ x, x ≠ h → L'.prev x = L.prev x) : Chained N E L' chain where
  walk g hg hu := by
    by_cases hgh : g = h
    · subst hgh
      rw [hc.chain_nil_of_unused hfree]
      exact hend
    · have hu : L.used g := ((hused g).mp hu).resolve_left hgh
      refine (hc.walk g hg hu).congr fun x hx => hnext x ?_
      rintro rfl
      exact hfree (hc.used_of_mem hu hx)
  back g hg hu := by
    by_cases hgh : g = h
    · subst hgh
      rw [hc.chain_nil_of_unused hfree]
      trivial
    · have hu : L.used g := ((hused g).mp hu).resolve_left hgh
      refine (hc.back g hg hu).congr fun x hx => hprev x ?_
      rintro rfl
      exact hfree (hc.mem g x hx).2.2
  nodup := hc.nodup
  mem g e he := by
    obtain ⟨hlo, hhi, hu⟩ := hc.mem g e he
    exact ⟨hlo, hhi, (hused e).mpr (.inr hu)⟩
  disjoint := hc.disjoint
  cover e hlo hhi hu := by
    refine hc.cover e hlo hhi (((hused e).mp hu).resolve_left ?_)
    omega
  head g hne := ⟨(hc.head g hne).1, (hused g).mpr (.inr (hc.head g hne).2)⟩

/-- A free overflow entry `e` becomes the last one on the chain of `h`. -/
theorem append (hc : Chained N E L chain) {h e : Nat} (hh : h < N) (hu : L.used h)
    (hlo : N < e) (hhi : e < N + E) (hfree : ¬ L.used e)
    (hused : ∀ x, L'.used x ↔ x = e ∨ L.used x)
    (hlast : L'.next (lastOf h (chain h)) = e) (hend : L'.next e = 0)
    (hnext : ∀ x, x ≠ e → x ≠ lastOf h (chain h) → L'.next x = L.next x)
    (hback : L'.prev e = lastOf h (chain h))
    (hprev : ∀ x, x ≠ e → L'.prev x = L.prev x) :
    Chained N E L' (Function.update chain h (chain h ++ [e])) := by
  have hout : ∀ g, e ∉ chain g := fun g => hc.notMem_of_unused hfree
  have hne : ∀ g, ∀ x ∈ chain g, x ≠ e := by
    rintro g x hx rfl
    exact hout g hx
  have hmem : ∀ g x, x ∈ Function.update chain h (chain h ++ [e]) g ↔
      x ∈ chain g ∨ (g = h ∧ x = e) := by
    intro g x
    by_cases hg : g = h
    · subst hg
      simp
    · simp [hg]
  refine ⟨?_, ?_, ?_, ?_, ?_, ?_, ?_⟩
  · intro g hg hug
    have hug : L.used g := ((hused g).mp hug).resolve_left (by omega)
    by_cases hgh : g = h
    · subst hgh
      rw [Function.update_self]
      refine (hc.walk g hg hug).concat (hc.nodup_cons hg) (by omega) hlast hend ?_
      intro x hx hxl
      refine hnext x ?_ hxl
      rintro rfl
      exact hfree (hc.used_of_mem hug hx)
    · rw [Function.update_of_ne hgh]
      refine (hc.walk g hg hug).congr fun x hx => hnext x ?_ ?_
      · rintro rfl
        exact hfree (hc.used_of_mem hug hx)
      · -- the last entry of `h` is on no other chain
        rintro rfl
        rcases List.mem_cons.mp (lastOf_mem h (chain h)) with heq | hin
        · rw [heq] at hx
          rcases List.mem_cons.mp hx with rfl | hx
          · exact hgh rfl
          · exact hc.head_notMem hh hx
        · rcases List.mem_cons.mp hx with heq | hx
          · rw [heq] at hin
            exact hc.head_notMem hg hin
          · exact hgh (hc.disjoint _ _ _ hx hin)
  · intro g hg hug
    have hug : L.used g := ((hused g).mp hug).resolve_left (by omega)
    by_cases hgh : g = h
    · subst hgh
      rw [Function.update_self]
      exact (hc.back g hg hug).concat hback fun x hx => hprev x (hne g x hx)
    · rw [Function.update_of_ne hgh]
      exact (hc.back g hg hug).congr fun x hx => hprev x (hne g x hx)
  · intro g
    by_cases hgh : g = h
    · subst hgh
      rw [Function.update_self]
      exact List.nodup_append.mpr ⟨hc.nodup g, by simp, by simpa using fun x hx => hne g x hx⟩
    simp [hgh, hc.nodup]
  · intro g x hx
    rcases (hmem g x).mp hx with hx | ⟨-, rfl⟩
    · obtain ⟨h1, h2, h3⟩ := hc.mem g x hx
      exact ⟨h1, h2, (hused x).mpr (.inr h3)⟩
    · exact ⟨hlo, hhi, (hused x).mpr (.inl rfl)⟩
  · intro g g' x hx hx'
    rcases (hmem g x).mp hx with hx | ⟨hg, hxe⟩
    · rcases (hmem g' x).mp hx' with hx' | ⟨-, hxe⟩
      · exact hc.disjoint g g' x hx hx'
      · exact absurd hxe (hne g x hx)
    simp_all
  · intro x hx hx' hux
    rcases (hused x).mp hux with rfl | hux
    · exact ⟨h, (hmem h x).mpr (.inr ⟨rfl, rfl⟩)⟩
    · obtain ⟨g, hg⟩ := hc.cover x hx hx' hux
      exact ⟨g, (hmem g x).mpr (.inl hg)⟩
  · intro g hg
    by_cases hgh : g = h
    · simp [hgh, hh, hused, hu]
    · rw [Function.update_of_ne hgh] at hg
      exact ⟨(hc.head g hg).1, (hused g).mpr (.inr (hc.head g hg).2)⟩

/-- The overflow entry `e` leaves the chain of `h`, and its neighbours are joined. -/
theorem unlink (hc : Chained N E L chain) {h e : Nat} {l₁ l₂ : List Nat}
    (hsplit : chain h = l₁ ++ e :: l₂)
    (hused : ∀ x, L'.used x ↔ L.used x ∧ x ≠ e)
    (hjoin : L'.next (lastOf h l₁) = L.next e)
    (hnext : ∀ x, x ≠ e → x ≠ lastOf h l₁ → L'.next x = L.next x)
    (hback : ∀ n ∈ l₂.head?, L'.prev n = lastOf h l₁)
    (hprev : ∀ x, x ≠ e → x ∉ l₂.head? → L'.prev x = L.prev x) :
    Chained N E L' (Function.update chain h (l₁ ++ l₂)) := by
  have hein : e ∈ chain h := by simp [hsplit]
  have hnd : (l₁ ++ e :: l₂).Nodup := hsplit ▸ hc.nodup h
  have hout : e ∉ l₁ ++ l₂ := by
    intro hmem
    have := List.nodup_middle.mp hnd
    exact (List.nodup_cons.mp this).1 hmem
  have hmem : ∀ g x, x ∈ Function.update chain h (l₁ ++ l₂) g ↔ x ∈ chain g ∧ x ≠ e := by
    intro g x
    by_cases hg : g = h
    · grind
    · rw [Function.update_of_ne hg]
      refine ⟨fun hx => ⟨hx, ?_⟩, fun hx => hx.1⟩
      rintro rfl
      exact hg (hc.disjoint _ _ _ hx hein)
  obtain ⟨hh, huh⟩ := hc.head_of_mem hein
  have hlast : lastOf h l₁ ∈ h :: chain h := by
    rcases List.mem_cons.mp (lastOf_mem h l₁) with heq | hin
    · simp [heq]
    · simp [hsplit, hin]
  -- an entry of another chain is neither `e`, nor its neighbours
  have hother : ∀ g, g < N → g ≠ h → ∀ x ∈ g :: chain g, x ∉ h :: chain h := by
    intro g hg hgh x hx hxh
    rcases List.mem_cons.mp hx with rfl | hx
    · rcases List.mem_cons.mp hxh with rfl | hxh
      · exact hgh rfl
      · exact hc.head_notMem hg hxh
    · rcases List.mem_cons.mp hxh with rfl | hxh
      · exact hc.head_notMem hh hx
      · exact hgh (hc.disjoint _ _ _ hx hxh)
  refine ⟨?_, ?_, ?_, ?_, ?_, ?_, ?_⟩
  · intro g hg hug
    have hug : L.used g := ((hused g).mp hug).1
    by_cases hgh : g = h
    · subst hgh
      rw [Function.update_self]
      have hwalk := hc.walk g hg hug
      have hndc := hc.nodup_cons hg
      rw [hsplit] at hwalk hndc
      refine hwalk.unlink hndc hjoin fun x hx hxl => hnext x ?_ hxl
      grind
    · rw [Function.update_of_ne hgh]
      refine (hc.walk g hg hug).congr fun x hx => hnext x ?_ ?_
      · rintro rfl
        exact hother g hg hgh x hx (List.mem_cons_of_mem h hein)
      · rintro rfl
        exact hother g hg hgh _ hx hlast
  · intro g hg hug
    have hug : L.used g := ((hused g).mp hug).1
    by_cases hgh : g = h
    · subst hgh
      rw [Function.update_self]
      have hb := hc.back g hg hug
      rw [hsplit] at hb
      refine hb.unlink hnd hback fun x hx hxl => hprev x ?_ hxl
      rintro rfl
      exact hout hx
    · rw [Function.update_of_ne hgh]
      refine (hc.back g hg hug).congr fun x hx => hprev x ?_ ?_
      · rintro rfl
        exact hgh (hc.disjoint _ _ _ hx hein)
      grind
  · intro g
    by_cases hgh : g = h
    · subst hgh
      rw [Function.update_self]
      exact (List.nodup_cons.mp (List.nodup_middle.mp hnd)).2
    simp [hgh, hc.nodup]
  · intro g x hx
    obtain ⟨hx, hne⟩ := (hmem g x).mp hx
    obtain ⟨h1, h2, h3⟩ := hc.mem g x hx
    exact ⟨h1, h2, (hused x).mpr ⟨h3, hne⟩⟩
  · intro g g' x hx hx'
    exact hc.disjoint g g' x ((hmem g x).mp hx).1 ((hmem g' x).mp hx').1
  · intro x hx hx' hux
    obtain ⟨hux, hne⟩ := (hused x).mp hux
    simp [hc.cover, hx, hx', hux, hmem, hne]
  · intro g hg
    obtain ⟨x, hx⟩ := List.exists_mem_of_ne_nil _ hg
    obtain ⟨hgN, hug⟩ := hc.head_of_mem ((hmem g x).mp hx).1
    refine ⟨hgN, (hused g).mpr ⟨hug, ?_⟩⟩
    rintro rfl
    exact hc.head_notMem hgN hein

theorem clearHeads (hc : Chained N E L chain) {S : Nat → Prop}
    (hS : ∀ x, S x → x < N ∧ chain x = [])
    (hused : ∀ x, L'.used x ↔ L.used x ∧ ¬ S x)
    (hnext : ∀ x, ¬ S x → L'.next x = L.next x)
    (hprev : ∀ x, ¬ S x → L'.prev x = L.prev x) : Chained N E L' chain := by
  have hout : ∀ g, ∀ x ∈ chain g, ¬ S x := by
    intro g x hx hs
    exact hc.head_notMem (hS x hs).1 hx
  refine ⟨?_, ?_, hc.nodup, ?_, hc.disjoint, ?_, ?_⟩
  · intro g hg hug
    obtain ⟨hug, hs⟩ := (hused g).mp hug
    refine (hc.walk g hg hug).congr fun x hx => hnext x ?_
    rcases List.mem_cons.mp hx with rfl | hx
    · exact hs
    · exact hout g x hx
  · intro g hg hug
    exact (hc.back g hg ((hused g).mp hug).1).congr fun x hx => hprev x (hout g x hx)
  · intro g x hx
    obtain ⟨h1, h2, h3⟩ := hc.mem g x hx
    exact ⟨h1, h2, (hused x).mpr ⟨h3, hout g x hx⟩⟩
  · intro x hx hx' hux
    exact hc.cover x hx hx' ((hused x).mp hux).1
  · intro g hne
    exact ⟨(hc.head g hne).1, (hused g).mpr ⟨(hc.head g hne).2, fun hs => hne (hS g hs).2⟩⟩

end Chained

end EtherDevice.Lib
