import EtherDevice.Lib.FirstMatch
import Mathlib.Data.Finset.Basic

/-!
# Adjacency lists

Nodes that list their neighbours, with a label on each entry. `Mutual` says that the lists are
those of an undirected graph whose edges carry the labels: each edge has one entry in the list of
either end. An edge is entered, changed or removed by one operation on each of the two lists, which
`Replaced` describes, and `Mutual.set` shows that the graph is kept.
-/

namespace EtherDevice.Lib

universe u v w

variable {ι : Type u} {E : Type v} {L : Type w} {t : Finset ι} {may : ι → ι → Prop} {key : E → ι}
  {label : E → L} {lists lists' : ι → List E} {A B : ι}

/-- The nodes list each other, once and with one label. `may` is which edges there may be. -/
structure Mutual (t : Finset ι) (may : ι → ι → Prop) (key : E → ι) (label : E → L)
    (lists : ι → List E) : Prop where
  once : ∀ A ∈ t, ((lists A).map key).Nodup
  known : ∀ A ∈ t, ∀ e ∈ lists A, key e ∈ t ∧ may A (key e)
  shared : ∀ A ∈ t, ∀ e ∈ lists A, ∃ e' ∈ lists (key e), key e' = A ∧ label e' = label e

/-- A list with a new entry for one key, whose label meets `P`; there is none where `P` is met
by no label. -/
structure Replaced (key : E → ι) (label : E → L) (old new : List E) (k : ι) (P : L → Prop) :
    Prop where
  other : ∀ e, key e ≠ k → (e ∈ new ↔ e ∈ old)
  here : ∀ e ∈ new, key e = k → P (label e)
  exists_here : ∀ x, P x → ∃ e ∈ new, key e = k ∧ label e = x
  once : (new.map key).Nodup

theorem Mutual.congr (h : Mutual t may key label lists) (hlists : ∀ A ∈ t, lists' A = lists A) :
    Mutual t may key label lists' := by
  refine ⟨fun A hA => ?_, fun A hA e he => ?_, fun A hA e he => ?_⟩
  · rw [hlists A hA]
    exact h.once A hA
  · rw [hlists A hA] at he
    exact h.known A hA e he
  · rw [hlists A hA] at he
    rw [hlists _ (h.known A hA e he).1]
    exact h.shared A hA e he

theorem Mutual.of_replaced [DecidableEq ι] (h : Mutual t may key label lists) (hA : A ∈ t)
    (hB : B ∈ t) (hmay : may A B) (hirr : ∀ A, ¬ may A A) {P : L → Prop}
    (hrest : ∀ C, C ≠ A → C ≠ B → lists' C = lists C)
    (hlistA : Replaced key label (lists A) (lists' A) B P)
    (hlistB : Replaced key label (lists B) (lists' B) A P) {e : E} (he : e ∈ lists' A) :
    (key e ∈ t ∧ may A (key e)) ∧ ∃ e' ∈ lists' (key e), key e' = A ∧ label e' = label e := by
  by_cases hsame : key e = B
  · rw [hsame]
    exact ⟨⟨hB, hmay⟩, hlistB.exists_here _ (hlistA.here e he hsame)⟩
  · have hold : e ∈ lists A := (hlistA.other e hsame).mp he
    obtain ⟨hmem, hmay_e⟩ := h.known A hA e hold
    have hne : key e ≠ A := fun heq => hirr A (heq ▸ hmay_e)
    simp [hmem, hmay_e, hrest, hne, hsame, h.shared, hA, hold]

/-- The entries of two nodes for each other are replaced alike. -/
theorem Mutual.set [DecidableEq ι] (h : Mutual t may key label lists) (hA : A ∈ t) (hB : B ∈ t)
    (hAB : may A B) (hBA : may B A) (hirr : ∀ A, ¬ may A A) {P : L → Prop}
    (hrest : ∀ C, C ≠ A → C ≠ B → lists' C = lists C)
    (hlistA : Replaced key label (lists A) (lists' A) B P)
    (hlistB : Replaced key label (lists B) (lists' B) A P) :
    Mutual t may key label lists' := by
  have hrest' : ∀ C, C ≠ B → C ≠ A → lists' C = lists C := fun C hCB hCA => hrest C hCA hCB
  have hall : ∀ C ∈ t, ∀ e ∈ lists' C, (key e ∈ t ∧ may C (key e)) ∧
      ∃ e' ∈ lists' (key e), key e' = C ∧ label e' = label e := by
    intro C hC e he
    by_cases hCA : C = A
    · subst hCA
      exact h.of_replaced hC hB hAB hirr hrest hlistA hlistB he
    by_cases hCB : C = B
    · subst hCB
      exact h.of_replaced hC hA hBA hirr hrest' hlistB hlistA he
    -- an edge of two other nodes, or of another node and an end
    rw [hrest C hCA hCB] at he
    obtain ⟨e', he', hkey, hlabel⟩ := h.shared C hC e he
    refine ⟨h.known C hC e he, e', ?_, hkey, hlabel⟩
    by_cases heA : key e = A
    · rw [heA] at he' ⊢
      exact (hlistA.other e' (hkey ▸ hCB)).mpr he'
    by_cases heB : key e = B
    · rw [heB] at he' ⊢
      exact (hlistB.other e' (hkey ▸ hCA)).mpr he'
    rwa [hrest _ heA heB]
  refine ⟨fun C hC => ?_, fun C hC e he => (hall C hC e he).1, fun C hC e he =>
    (hall C hC e he).2⟩
  by_cases hCA : C = A
  · rw [hCA]
    exact hlistA.once
  by_cases hCB : C = B
  · rw [hCB]
    exact hlistB.once
  rw [hrest C hCA hCB]
  exact h.once C hC

theorem Mutual.ne_of_mem (h : Mutual t may key label lists) (hnone : lists A = []) (hB : B ∈ t)
    {e : E} (he : e ∈ lists B) : key e ≠ A := by
  rintro rfl
  obtain ⟨e', he', -⟩ := h.shared B hB e he
  rw [hnone] at he'
  cases he'

theorem Mutual.erase [DecidableEq ι] (h : Mutual t may key label lists) (hnone : lists A = []) :
    Mutual (t.erase A) may key label lists := by
  refine ⟨fun B hB => h.once B (Finset.mem_of_mem_erase hB), fun B hB e he => ?_,
    fun B hB => h.shared B (Finset.mem_of_mem_erase hB)⟩
  obtain ⟨hmem, hmay⟩ := h.known B (Finset.mem_of_mem_erase hB) e he
  exact ⟨Finset.mem_erase.mpr ⟨h.ne_of_mem hnone (Finset.mem_of_mem_erase hB) he, hmem⟩, hmay⟩

theorem Mutual.insert [DecidableEq ι] (h : Mutual t may key label lists) (hA : A ∉ t)
    (hnone : lists' A = []) (hlists : ∀ B ∈ t, lists' B = lists B) :
    Mutual (insert A t) may key label lists' := by
  have h' := h.congr hlists
  refine ⟨fun B hB => ?_, fun B hB e he => ?_, fun B hB e he => ?_⟩
  · rcases Finset.mem_insert.mp hB with rfl | hold
    · rw [hnone]
      exact List.nodup_nil
    · exact h'.once B hold
  · rcases Finset.mem_insert.mp hB with rfl | hold
    · rw [hnone] at he
      cases he
    · obtain ⟨hmem, hmay⟩ := h'.known B hold e he
      exact ⟨Finset.mem_insert_of_mem hmem, hmay⟩
  · rcases Finset.mem_insert.mp hB with rfl | hold
    · rw [hnone] at he
      cases he
    · exact h'.shared B hold e he

/-! ## One list -/

section List

variable [BEq ι] [LawfulBEq ι] {xs : List E} {k : ι} (hkeys : (xs.map key).Nodup)

include hkeys

theorem replaced_eraseP (label : E → L) (k : ι) :
    Replaced key label xs (xs.eraseP fun e => key e == k) k fun _ => False where
  other e he := by
    simp [he]
  here e he hkey := ((mem_eraseP_key hkeys).mp he).2 hkey
  exists_here _ h := h.elim
  once := nodup_eraseP_key hkeys

theorem replaced_changeFirst (label : E → L) {f : E → E} (hf : ∀ e, key (f e) = key e) {e : E}
    (he : e ∈ xs)
    (hkey : key e = k) :
    Replaced key label xs (changeFirst (fun e => key e == k) f xs) k (· = label (f e)) := by
  have honly : ∀ x ∈ xs, key x = k → x = e := fun x hx hxk =>
    List.inj_on_of_nodup_map hkeys hx he (hxk.trans hkey.symm)
  refine ⟨fun x hx => ?_, fun x hx hxk => ?_, ?_, ?_⟩
  · rw [changeFirst_key hkeys, List.mem_map]
    constructor
    · grind
    · exact fun hmem => ⟨x, hmem, if_neg (by simpa using hx)⟩
  · rw [changeFirst_key hkeys, List.mem_map] at hx
    grind
  · rintro _ rfl
    refine ⟨f e, ?_, (hf e).trans hkey, rfl⟩
    rw [changeFirst_key hkeys, List.mem_map]
    exact ⟨e, he, if_pos (by simpa using hkey)⟩
  · rw [map_changeFirst hf]
    exact hkeys

omit [BEq ι] [LawfulBEq ι] in
theorem replaced_append {e : E} (hnew : key e ∉ xs.map key) :
    Replaced key label xs (xs ++ [e]) (key e) (· = label e) := by
  refine ⟨fun x hx => ?_, fun x hx hkey => ?_, ?_, ?_⟩
  · rw [List.mem_append, List.mem_singleton, or_iff_left]
    rintro rfl
    exact hx rfl
  · rcases List.mem_append.mp hx with hold | hsame
    · exact absurd (hkey ▸ List.mem_map_of_mem hold) hnew
    · rw [List.mem_singleton.mp hsame]
  · rintro _ rfl
    exact ⟨e, List.mem_append_right _ (List.mem_singleton.mpr rfl), rfl, rfl⟩
  · rw [List.map_append, List.nodup_append]
    refine ⟨hkeys, List.nodup_singleton _, ?_⟩
    rintro x hx _ hy rfl
    obtain rfl := List.mem_singleton.mp hy
    exact hnew hx

end List

end EtherDevice.Lib
