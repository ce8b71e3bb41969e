import EtherDevice.Ipacm.OffloadLinks

/-!
# Failing interfaces

Here the calls of the interfaces may fail. A link is recorded only with what is installed, and
`Relinked` says which links an operation can add. `turnoff_offload_links` returns at the first call
that fails, and at the first link without one back. `Cleared` says what is turned off then, and
`TurnsOff` is the condition under which no link to the client is left.
-/

namespace EtherDevice.Ipacm.LanToLan

open Lib

variable {s s' : LanToLan} {A B : Ptr} {a : Answers}

def linked (s : LanToLan) (A : Ptr) : List Ptr := (s.links A).map (·.peer_pointer)

structure Relinked (new : Ptr → Ptr → Prop) (s s' : LanToLan) : Prop extends LinkStep s s' where
  unfounded : s.unfounded = [] → s'.unfounded = []
  linked : ∀ C, ∀ D ∈ s'.linked C, D ∈ s.linked C ∨ new C D

abbrev Unlinked (s s' : LanToLan) : Prop := Relinked (fun _ _ => False) s s'

namespace Relinked

variable {new : Ptr → Ptr → Prop}

theorem refl (s : LanToLan) : Relinked new s s :=
  ⟨LinkStep.refl s, fun h => h, fun _ _ h => .inl h⟩

theorem trans {s₁ : LanToLan} (h : Relinked new s s₁) (h' : Relinked new s₁ s') :
    Relinked new s s' := by
  refine ⟨h.toLinkStep.trans h'.toLinkStep, fun hs => h'.unfounded (h.unfounded hs),
    fun C D hD => ?_⟩
  rcases h'.linked C D hD with hold | hnew
  · exact h.linked C D hold
  · exact .inr hnew

theorem of_calls (s : LanToLan) (rules : Rule → Handles) (calls : Nat) :
    Relinked new s { s with rules := rules, calls := calls } :=
  ⟨⟨rfl, fun _ => rfl, rfl⟩, fun h => h, fun _ _ h => .inl h⟩

end Relinked

theorem del_eq (a : Answers) (s : LanToLan) (rule : Rule) (handle : Nat) : ∃ rules,
    s.del a rule handle =
      (decide (s.calls ∉ a.fails), { s with rules := rules, calls := s.calls + 1 }) := by
  unfold del
  split_ifs with hfails
  · exact ⟨s.rules, by rw [decide_eq_false (not_not.mpr hfails)]⟩
  · exact ⟨_, by rw [decide_eq_true hfails]⟩

theorem delOffloadLink_eq (a : Answers) (s : LanToLan) (link : OffloadLinkInfo) : ∃ rules,
    s.delOffloadLink a link = (decide (∀ i : Nat, i < 3 → s.calls + i ∉ a.fails),
      { s with rules := rules, calls := s.calls + 3 }) := by
  obtain ⟨rules₁, hdel₁⟩ := del_eq a s .flt link.flt_rule_hdl
  obtain ⟨rules₂, hdel₂⟩ := del_eq a { s with rules := rules₁, calls := s.calls + 1 } .rt
    link.rt_rule_hdl
  obtain ⟨rules₃, hdel₃⟩ := del_eq a { s with rules := rules₂, calls := s.calls + 1 + 1 } .hdr
    link.hdr_hdl
  refine ⟨rules₃, ?_⟩
  unfold delOffloadLink
  rw [hdel₁]
  dsimp only at hdel₂ ⊢
  rw [hdel₂]
  rw [hdel₃]
  refine Prod.ext ?_ rfl
  rw [Bool.eq_iff_iff]
  simp only [Bool.and_eq_true, decide_eq_true_eq]
  constructor
  · grind
  · exact fun h => ⟨⟨h 0 (by omega), h 1 (by omega)⟩, h 2 (by omega)⟩

theorem add_cases (a : Answers) (s : LanToLan) (rule : Rule) :
    s.add a rule = (none, { s with calls := s.calls + 1 }) ∨ ∃ handle rules,
      s.add a rule = (some handle, { s with rules := rules, calls := s.calls + 1 }) ∧
        handle ∈ (rules rule).live ∧ ∀ other, (s.rules other).live ≤ (rules other).live := by
  unfold add
  split_ifs with hfails
  · exact .inl rfl
  · refine .inr ⟨_, _, rfl, ?_, fun other => ?_⟩
    · rw [Function.update_self]
      exact Multiset.mem_cons_self _ _
    · by_cases hother : other = rule
      · subst hother
        rw [Function.update_self]
        exact Multiset.le_cons_self _ _
      · rw [Function.update_of_ne hother]

theorem linked_modify (s : LanToLan) (A : Ptr) (f : List OffloadLinkInfo → List OffloadLinkInfo)
    (C : Ptr) : (s.modify A fun c => { c with link := f c.link }).linked C =
      if C = A then (f (s.links A)).map (·.peer_pointer) else s.linked C := by
  rw [modify_link]
  unfold linked
  rw [links_withLinks]
  split_ifs with hC
  · rw [hC, Function.update_self]
  · rw [Function.update_of_ne hC]

theorem relinked_modify {new : Ptr → Ptr → Prop} (s : LanToLan) (A : Ptr)
    (f : List OffloadLinkInfo → List OffloadLinkInfo)
    (hf : ∀ D ∈ (f (s.links A)).map (·.peer_pointer), D ∈ s.linked A ∨ new A D) :
    Relinked new s (s.modify A fun c => { c with link := f c.link }) := by
  refine ⟨linkStep_modify s A f, fun h => h, fun C D hD => ?_⟩
  rw [linked_modify] at hD
  split_ifs at hD with hC
  · subst hC
    exact hf D hD
  · exact .inl hD

theorem relinked_delOffloadLink {new : Ptr → Ptr → Prop} (a : Answers) (s : LanToLan)
    (link : OffloadLinkInfo) : Relinked new s (s.delOffloadLink a link).2 := by
  obtain ⟨rules, hdel⟩ := delOffloadLink_eq a s link
  rw [hdel]
  exact Relinked.of_calls s rules _

theorem relinked_addOffloadLink {new : Ptr → Ptr → Prop} (a : Answers) (s : LanToLan)
    (hnew : new A B) : Relinked new s (s.addOffloadLink a A B).2 := by
  unfold addOffloadLink
  split
  · exact Relinked.refl s
  rcases add_cases a s .hdr with hadd₁ | ⟨hdr, rules₁, hadd₁, hhdr, -⟩ <;> rw [hadd₁]
  · exact Relinked.of_calls s s.rules _
  dsimp only
  rcases add_cases a { s with rules := rules₁, calls := s.calls + 1 } .rt with
    hadd₂ | ⟨rt, rules₂, hadd₂, hrt, hle₂⟩ <;> dsimp only at hadd₂ <;> rw [hadd₂]
  · dsimp only
    obtain ⟨rules, hdel⟩ := del_eq a { s with rules := rules₁, calls := s.calls + 1 + 1 } .hdr hdr
    rw [hdel]
    exact Relinked.of_calls s rules _
  dsimp only
  rcases add_cases a { s with rules := rules₂, calls := s.calls + 1 + 1 } .flt with
    hadd₃ | ⟨flt, rules₃, hadd₃, hflt, hle₃⟩ <;> dsimp only at hadd₃ <;> rw [hadd₃]
  · dsimp only
    obtain ⟨rules, hdel⟩ :=
      del_eq a { s with rules := rules₂, calls := s.calls + 1 + 1 + 1 } .rt rt
    rw [hdel]
    obtain ⟨rules', hdel'⟩ :=
      del_eq a { s with rules := rules, calls := s.calls + 1 + 1 + 1 + 1 } .hdr hdr
    rw [hdel']
    exact Relinked.of_calls s rules' _
  have hall : ([Rule.hdr, .rt, .flt].all fun rule =>
      (OffloadLinkInfo.mk B flt rt hdr).handle rule ∈ (rules₃ rule).live) = true := by
    simp only [List.all_cons, List.all_nil, Bool.and_true, Bool.and_eq_true, decide_eq_true_eq]
    exact ⟨Multiset.mem_of_le ((hle₂ .hdr).trans (hle₃ .hdr)) hhdr,
      Multiset.mem_of_le (hle₃ .rt) hrt, hflt⟩
  unfold pushLink
  dsimp only
  rw [if_pos hall]
  have hpush : Relinked new s
      (s.modify A fun c => { c with link := c.link ++ [⟨B, flt, rt, hdr⟩] }) := by
    refine relinked_modify s A (· ++ [⟨B, flt, rt, hdr⟩]) fun D hD => ?_
    rw [List.map_append, List.mem_append] at hD
    refine hD.imp_right fun hD => ?_
    simp_all
  exact ⟨⟨hpush.table, hpush.client, hpush.disconnected⟩, hpush.unfounded, hpush.linked⟩

theorem relinked_checkPotentialLink {new : Ptr → Ptr → Prop} {list : List PeerInfo}
    (hnew : ∀ it ∈ list, new A it.peer_pointer ∧ new it.peer_pointer A) :
    Relinked new s (checkPotentialLink a A list s) := by
  induction list generalizing s with
  | nil => exact Relinked.refl s
  | cons it list ih =>
    have hrest := fun other hother => hnew other (List.mem_cons_of_mem it hother)
    obtain ⟨hto, hback⟩ := hnew it List.mem_cons_self
    unfold checkPotentialLink
    split
    · have hboth := (relinked_addOffloadLink a s hto).trans
        (relinked_addOffloadLink a (s.addOffloadLink a A it.peer_pointer).2 hback)
      refine hboth.trans ?_
      dsimp only
      split
      · have hinc : Relinked new (((s.addOffloadLink a A it.peer_pointer).2.addOffloadLink a
            it.peer_pointer A).2) (((s.addOffloadLink a A it.peer_pointer).2.addOffloadLink a
            it.peer_pointer A).2.incPairs A.1) :=
          ⟨⟨rfl, fun _ => rfl, rfl⟩, fun h => h, fun _ _ h => .inl h⟩
        exact hinc.trans (ih hrest)
      · exact ih hrest
    · exact ih hrest

theorem linkTo_eq_none : s.linkTo A B = none ↔ B ∉ s.linked A := find?_key_eq_none

theorem linked_eraseLinkTo (s : LanToLan) (A B C : Ptr) :
    (s.eraseLinkTo A B).linked C = if C = A then (s.linked A).erase B else s.linked C := by
  have hmap : ((s.links A).eraseP (·.peer_pointer == B)).map (·.peer_pointer) =
      (s.linked A).erase B := by
    rw [linked, List.erase_eq_eraseP', List.eraseP_map]
    rfl
  rw [← hmap]
  exact linked_modify s A (List.eraseP (·.peer_pointer == B)) C

theorem unlinked_eraseLinkTo (s : LanToLan) (A B : Ptr) : Unlinked s (s.eraseLinkTo A B) := by
  refine relinked_modify s A (List.eraseP (·.peer_pointer == B)) fun D hD => .inl ?_
  obtain ⟨link, hlink, hkey⟩ := List.mem_map.mp hD
  exact List.mem_map.mpr ⟨link, List.mem_of_mem_eraseP hlink, hkey⟩

theorem unlinked_decPairs (s : LanToLan) (iptype : IpType) : Unlinked s (s.decPairs iptype) :=
  ⟨⟨rfl, fun _ => rfl, rfl⟩, fun h => h, fun _ _ h => .inl h⟩

theorem unlinked_eraseLink (a : Answers) (s : LanToLan) (A B : Ptr) :
    Unlinked s (s.eraseLink a A B).2 := by
  unfold eraseLink
  split
  · exact Relinked.refl s
  · exact (relinked_delOffloadLink a s _).trans (unlinked_eraseLinkTo _ A B)

theorem unlinked_eraseOffloadLink (a : Answers) (s : LanToLan) (A B : Ptr) :
    Unlinked s (s.eraseOffloadLink a A B) := by
  have hboth := (unlinked_eraseLink a s A B).trans (unlinked_eraseLink a (s.eraseLink a A B).2 B A)
  unfold eraseOffloadLink
  dsimp only
  split
  · exact hboth.trans (unlinked_decPairs _ _)
  · exact hboth

theorem unlinked_eraseLinks (a : Answers) (s : LanToLan) (A B : Ptr) :
    Unlinked s (s.eraseLinks a A B) := by
  unfold eraseLinks
  split
  · exact unlinked_eraseOffloadLink a s A B
  · have hside : ∀ (s : LanToLan) (A B : Ptr), Unlinked s (if (s.client A).is_powersave &&
        ((s.client B).is_active || (s.client B).is_powersave) then
        s.eraseOffloadLink a A B else s) := by
      intro s A B
      split
      · exact unlinked_eraseOffloadLink a s A B
      · exact Relinked.refl s
    exact (hside s A B).trans (hside _ B A)

/-- The first `t` links of a list were turned off, with those back, and then a call failed or
there was no link back. -/
structure Cleared (a : Answers) (B : Ptr) (list : List OffloadLinkInfo) (t : Nat)
    (s s' : LanToLan) : Prop where
  step : Unlinked s s'
  le : t ≤ list.length
  count : ∀ A, A ≠ B → (s'.linked A).count B + ((list.take t).map (·.peer_pointer)).count A =
    (s.linked A).count B
  succeed : ∀ i, i < 6 * t → s.calls + i ∉ a.fails
  stop : t = list.length ∨ (∃ i, i < 6 ∧ s.calls + 6 * t + i ∈ a.fails) ∨
    ∃ link ∈ list[t]?, B ∉ s'.linked link.peer_pointer

theorem Cleared.cons {link : OffloadLinkInfo} {list : List OffloadLinkInfo} {t : Nat}
    {s₁ : LanToLan} (h : Cleared a B list t s₁ s') (hstep : Unlinked s s₁)
    (hcalls : s₁.calls = s.calls + 6) (hok : ∀ i, i < 6 → s.calls + i ∉ a.fails)
    (hback : B ∈ s.linked link.peer_pointer)
    (hlinked : ∀ A, A ≠ B → s₁.linked A =
      if A = link.peer_pointer then (s.linked link.peer_pointer).erase B else s.linked A) :
    Cleared a B (link :: list) (t + 1) s s' where
  step := hstep.trans h.step
  le := Nat.succ_le_succ h.le
  count A hA := by
    have hrest := h.count A hA
    rw [hlinked A hA] at hrest
    rw [List.take_succ_cons, List.map_cons, List.count_cons]
    by_cases hpeer : A = link.peer_pointer
    · subst hpeer
      have hpos := List.count_pos_iff.mpr hback
      rw [if_pos rfl, List.count_erase_self] at hrest
      rw [if_pos (beq_self_eq_true _)]
      omega
    · rw [if_neg hpeer] at hrest
      rw [if_neg (by simpa using Ne.symm hpeer)]
      exact hrest
  succeed i hi := by
    by_cases hfirst : i < 6
    · exact hok i hfirst
    · have hrest := h.succeed (i - 6) (by omega)
      rwa [hcalls, show s.calls + 6 + (i - 6) = s.calls + i by omega] at hrest
  stop := by
    refine h.stop.imp (congrArg (· + 1)) (Or.imp ?_ ?_)
    · rintro ⟨i, hi, hfails⟩
      refine ⟨i, hi, ?_⟩
      rwa [hcalls, show s.calls + 6 + 6 * t + i = s.calls + 6 * (t + 1) + i by omega] at hfails
    simp

theorem cleared_turnoffOffloadLinks (a : Answers) {list : List OffloadLinkInfo}
    (hne : ∀ link ∈ list, link.peer_pointer ≠ B) :
    ∃ t, Cleared a B list t s (turnoffOffloadLinks a B list s).2 := by
  induction list generalizing s with
  | nil =>
    have hnil : Unlinked s (s.modify B fun c => { c with link := [] }) :=
      relinked_modify s B (fun _ => []) fun _ hD => by cases hD
    refine ⟨0, ⟨hnil, le_rfl, fun A hA => ?_, fun _ hi => ?_, .inl rfl⟩⟩
    · show ((s.modify B fun c => { c with link := [] }).linked A).count B + 0 = _
      rw [linked_modify s B (fun _ => []), if_neg hA, Nat.add_zero]
    · omega
  | cons link list ih =>
    obtain ⟨rules₁, hdel₁⟩ := delOffloadLink_eq a s link
    -- nothing is turned off where the loop ends with the first link
    have hend : ∀ s', Unlinked s s' → (∀ A, A ≠ B → s'.linked A = s.linked A) →
        ((∃ i, i < 6 ∧ s.calls + i ∈ a.fails) ∨ B ∉ s'.linked link.peer_pointer) →
        ∃ t, Cleared a B (link :: list) t s s' := by
      intro s' hstep hlinked hstop
      refine ⟨0, ⟨hstep, Nat.zero_le _, fun A hA => ?_, fun _ hi => by omega, .inr ?_⟩⟩
      · rw [hlinked A hA]
        rfl
      · exact hstop.imp_right fun hnone => ⟨link, rfl, hnone⟩
    have hsame : ∀ (rules : Rule → Handles) (calls : Nat) (A : Ptr), A ≠ B →
        ({ s with rules := rules, calls := calls } : LanToLan).linked A = s.linked A :=
      fun _ _ _ _ => rfl
    unfold turnoffOffloadLinks
    rw [hdel₁]
    by_cases hok₁ : ∀ i : Nat, i < 3 → s.calls + i ∉ a.fails
    · rw [decide_eq_true hok₁]
      dsimp only
      cases hback : linkTo { s with rules := rules₁, calls := s.calls + 3 } link.peer_pointer B with
      | none =>
        exact hend _ (Relinked.of_calls s _ _) (hsame _ _) (.inr (linkTo_eq_none.mp hback))
      | some back =>
        have hmem : B ∈ s.linked link.peer_pointer := by
          by_contra hnot
          have hnone : linkTo { s with rules := rules₁, calls := s.calls + 3 } link.peer_pointer B =
            none := linkTo_eq_none.mpr hnot
          simp_all
        dsimp only
        obtain ⟨rules₂, hdel₂⟩ :=
          delOffloadLink_eq a { s with rules := rules₁, calls := s.calls + 3 } back
        rw [hdel₂]
        by_cases hok₂ : ∀ i : Nat, i < 3 → s.calls + 3 + i ∉ a.fails
        · rw [decide_eq_true hok₂]
          let s₁ := (({ s with rules := rules₂, calls := s.calls + 3 + 3 } : LanToLan).eraseLinkTo
            link.peer_pointer B).decPairs B.1
          obtain ⟨t, hrest⟩ := ih (s := s₁) fun other hother =>
            hne other (List.mem_cons_of_mem _ hother)
          refine ⟨t + 1, hrest.cons ?_ rfl ?_ hmem ?_⟩
          · exact (Relinked.of_calls s _ _).trans
              ((unlinked_eraseLinkTo _ _ _).trans (unlinked_decPairs _ _))
          · intro i hi
            by_cases hfirst : i < 3
            · exact hok₁ i hfirst
            · have hlater := hok₂ (i - 3) (by omega)
              rwa [show s.calls + 3 + (i - 3) = s.calls + i by omega] at hlater
          · intro A _
            exact linked_eraseLinkTo { s with rules := rules₂, calls := s.calls + 3 + 3 } _ _ A
        · rw [decide_eq_false hok₂]
          refine hend _ (Relinked.of_calls s _ _) (hsame _ _) (.inl ?_)
          push Not at hok₂
          obtain ⟨i, hi, hfails⟩ := hok₂
          exact ⟨3 + i, by omega, by rwa [← Nat.add_assoc]⟩
    · rw [decide_eq_false hok₁]
      refine hend _ (Relinked.of_calls s _ _) (hsame _ _) (.inl ?_)
      push Not at hok₁
      obtain ⟨i, hi, hfails⟩ := hok₁
      exact ⟨i, by omega, hfails⟩

/-- The links of a client can be turned off with all those back: enough calls succeed, and the
other clients have no more links back than there are links that these calls turn off. -/
def TurnsOff (s : LanToLan) (a : Answers) (B : Ptr) : Prop :=
  ∃ t ≤ (s.linked B).length, (∀ i, i < 6 * t → i ∉ a.fails) ∧
    ∀ A ∈ s.table, A ≠ B → (s.linked A).count B = ((s.linked B).take t).count A

theorem Cleared.none_left_iff {t : Nat} (h : Cleared a B (s.links B) t s s') (hcalls : s.calls = 0)
    (hpeers : ∀ A ∈ s.linked B, A ∈ s.table ∧ A ≠ B) :
    (∀ A ∈ s.table, A ≠ B → B ∉ s'.linked A) ↔ s.TurnsOff a B := by
  have hcount := h.count
  simp only [List.map_take] at hcount
  constructor
  · intro hnone
    refine ⟨t, ?_, fun i hi => ?_, fun A hA hAB => ?_⟩
    · rw [linked, List.length_map]
      exact h.le
    · have hok := h.succeed i hi
      rwa [hcalls, Nat.zero_add] at hok
    · have heq := hcount A hAB
      rw [List.count_eq_zero_of_not_mem (hnone A hA hAB), Nat.zero_add] at heq
      exact heq.symm
  · rintro ⟨t₀, hle, hok, hall⟩ A hA hAB
    rw [linked, List.length_map] at hle
    have hcountA := hcount A hAB
    have hallA := hall A hA hAB
    have hreached : t₀ ≤ t := by
      by_contra hlt
      rcases h.stop with hend | ⟨i, hi, hfails⟩ | ⟨link, hlink, hnone⟩
      · omega
      · rw [hcalls, Nat.zero_add] at hfails
        exact hok (6 * t + i) (by omega) hfails
      · -- the next link has one back
        have hget : (s.linked B)[t]? = some link.peer_pointer := by
          simp_all [linked]
        obtain ⟨hX, hXB⟩ := hpeers _ (List.mem_of_getElem? hget)
        have hcountX := hcount _ hXB
        have hallX := hall _ hX hXB
        rw [List.count_eq_zero_of_not_mem hnone, Nat.zero_add] at hcountX
        have hsucc : ((s.linked B).take (t + 1)).count link.peer_pointer =
            ((s.linked B).take t).count link.peer_pointer + 1 := by
          simp [List.take_add_one, hget]
        have hmono : ((s.linked B).take (t + 1)).count link.peer_pointer ≤
            ((s.linked B).take t₀).count link.peer_pointer :=
          (List.take_sublist_take_left (by omega)).count_le _
        rw [show (s.links B).map (·.peer_pointer) = s.linked B from rfl] at hcountX
        omega
    have hmono : ((s.linked B).take t₀).count A ≤ ((s.linked B).take t).count A :=
      (List.take_sublist_take_left hreached).count_le _
    rw [show (s.links B).map (·.peer_pointer) = s.linked B from rfl] at hcountA
    exact List.count_eq_zero.mp (by omega)

theorem unlinked_pauseLink (a : Answers) (s : LanToLan) (A : Ptr) (link : OffloadLinkInfo) :
    Unlinked s (s.pauseLink a A link) := by
  obtain ⟨rules, hdel⟩ := del_eq a s .flt link.flt_rule_hdl
  unfold pauseLink
  rw [hdel]
  exact ⟨⟨rfl, fun _ => rfl, rfl⟩, fun h => h, fun _ _ h => .inl h⟩

theorem unlinked_removeFltRules (a : Answers) (A : Ptr) (list : List OffloadLinkInfo) :
    Unlinked s (removeFltRules a A list s).2 := by
  induction list generalizing s with
  | nil => exact Relinked.refl s
  | cons link list ih =>
    have hfirst := unlinked_pauseLink a s A link
    unfold removeFltRules
    dsimp only
    split
    · exact hfirst
    · exact hfirst.trans ((unlinked_pauseLink a _ _ _).trans ih)

theorem linked_resumeLink (s : LanToLan) (A B : Ptr) {list : List OffloadLinkInfo}
    (hkeys : list.map (·.peer_pointer) = s.linked A) :
    Unlinked s (s.resumeLink A B list) ∧ ∀ C, (s.resumeLink A B list).linked C = s.linked C := by
  have hstep : Unlinked s (s.modify A fun c => { c with link := list }) :=
    relinked_modify s A (fun _ => list) fun D hD => .inl (hkeys ▸ hD)
  refine ⟨⟨⟨hstep.table, hstep.client, hstep.disconnected⟩, hstep.unfounded, hstep.linked⟩,
    fun C => ?_⟩
  refine (linked_modify s A (fun _ => list) C).trans ?_
  simp_all

theorem unlinked_addFltRules (a : Answers) (A : Ptr) {done list : List OffloadLinkInfo}
    (hkeys : (done ++ list).map (·.peer_pointer) = s.linked A) :
    Unlinked s (addFltRules a A done list s).2 := by
  induction list generalizing s done with
  | nil => exact Relinked.refl s
  | cons link list ih =>
    unfold addFltRules
    rcases add_cases a s .flt with hadd₁ | ⟨flt, rules₁, hadd₁, -, -⟩ <;> rw [hadd₁]
    · exact Relinked.of_calls s s.rules _
    dsimp only
    have hcalls : Unlinked s { s with rules := rules₁, calls := s.calls + 1 } :=
      Relinked.of_calls s _ _
    have hkeys₁ : (done ++ { link with flt_rule_hdl := flt } :: list).map (·.peer_pointer) =
        s.linked A := by
      simp_all
    obtain ⟨hstep₁, hlinked₁⟩ :=
      linked_resumeLink { s with rules := rules₁, calls := s.calls + 1 } A link.peer_pointer hkeys₁
    let s₁ := LanToLan.resumeLink { s with rules := rules₁, calls := s.calls + 1 } A
      link.peer_pointer (done ++ { link with flt_rule_hdl := flt } :: list)
    have hfirst : Unlinked s s₁ := hcalls.trans hstep₁
    split
    · exact hfirst
    rcases add_cases a s₁ .flt with hadd₂ | ⟨flt', rules₂, hadd₂, -, -⟩ <;> rw [hadd₂]
    · exact hfirst.trans (Relinked.of_calls s₁ s₁.rules _)
    have hkeys₂ : (changeFirst (·.peer_pointer == A) (fun back =>
        { back with flt_rule_hdl := flt' }) (s₁.links link.peer_pointer)).map (·.peer_pointer) =
        s₁.linked link.peer_pointer := map_changeFirst fun _ => rfl
    obtain ⟨hstep₂, hlinked₂⟩ :=
      linked_resumeLink { s₁ with rules := rules₂, calls := s₁.calls + 1 } link.peer_pointer A
        hkeys₂
    refine (hfirst.trans (Relinked.of_calls s₁ _ _)).trans (hstep₂.trans (ih ?_))
    rw [hlinked₂, show linked { s₁ with rules := rules₂, calls := s₁.calls + 1 } A = s₁.linked A
      from rfl, hlinked₁, show linked { s with rules := rules₁, calls := s.calls + 1 } A =
      s.linked A from rfl, ← hkeys₁, List.append_assoc]
    rfl

structure Weak (s : LanToLan) : Prop where
  peers : Peers s
  may : ∀ A ∈ s.table, ∀ B ∈ s.linked A, MayConnect A B
  unfounded : s.unfounded = []

def Closed (s : LanToLan) : Prop := ∀ A ∈ s.table, ∀ B ∈ s.linked A, B ∈ s.table

/-- A client that was reported disconnected is not in the table. -/
def Gone (s : LanToLan) : Prop := ∀ D ∈ s.disconnected, D ∉ s.table

/-- What an event does: it leaves no link behind exactly if `safe` holds. -/
structure Outcome (s s' : LanToLan) (safe : Prop) : Prop where
  weak : Weak s'
  closed : Closed s' ↔ safe
  gone : Gone s → Gone s'

theorem Gone.mono (h : Gone s) (htable : s'.table ⊆ s.table)
    (hdisconnected : s'.disconnected = s.disconnected) : Gone s' :=
  fun D hD hmem => h D (hdisconnected ▸ hD) (htable hmem)

theorem linked_congr (hclient : ∀ C, (s'.client C).link = (s.client C).link) (C : Ptr) :
    s'.linked C = s.linked C := by
  unfold linked links
  rw [hclient]

namespace Weak

theorem congr (h : Weak s) (htable : s'.table = s.table)
    (hclient : ∀ C, (s'.client C).peer = (s.client C).peer ∧
      (s'.client C).link = (s.client C).link) (hunfounded : s'.unfounded = s.unfounded) :
    Weak s' := by
  refine ⟨h.peers.congr htable fun C => (hclient C).1, ?_, hunfounded.trans h.unfounded⟩
  rw [htable]
  intro A hA B hB
  rw [linked_congr fun C => (hclient C).2] at hB
  exact h.may A hA B hB

theorem relinked {new : Ptr → Ptr → Prop} (h : Weak s) (hstep : Relinked new s s')
    (hnew : ∀ C ∈ s.table, ∀ D, new C D → MayConnect C D) : Weak s' := by
  refine ⟨h.peers.linkStep hstep.toLinkStep, ?_, hstep.unfounded h.unfounded⟩
  rw [hstep.table]
  intro A hA B hB
  exact (hstep.linked A B hB).elim (h.may A hA B) (hnew A hA B)

theorem unlinked (h : Weak s) (hstep : Unlinked s s') : Weak s' :=
  h.relinked hstep fun _ _ _ hnew => hnew.elim

theorem withPeers (h : Weak s) {lists : Ptr → List PeerInfo} (hpeers : Peers (s.withPeers lists)) :
    Weak (s.withPeers lists) :=
  ⟨hpeers, h.may, h.unfounded⟩

theorem eraseClient (h : Weak s) (hnil : s.peers A = []) : Weak (s.eraseClient A) :=
  ⟨h.peers.eraseClient hnil, fun C hC => h.may C (Finset.mem_of_mem_erase hC), h.unfounded⟩

end Weak

namespace Closed

theorem congr (h : Closed s) (htable : s'.table = s.table)
    (hclient : ∀ C, (s'.client C).link = (s.client C).link) : Closed s' := by
  unfold Closed
  rw [htable]
  intro A hA B hB
  rw [linked_congr hclient] at hB
  exact h A hA B hB

theorem relinked {new : Ptr → Ptr → Prop} (h : Closed s) (hstep : Relinked new s s')
    (hnew : ∀ C ∈ s.table, ∀ D, new C D → D ∈ s.table) : Closed s' := by
  unfold Closed
  rw [hstep.table]
  intro A hA B hB
  exact (hstep.linked A B hB).elim (h A hA B) (hnew A hA B)

theorem unlinked (h : Closed s) (hstep : Unlinked s s') : Closed s' :=
  h.relinked hstep fun _ _ _ hnew => hnew.elim

theorem eraseClient_iff (h : Closed s) :
    Closed (s.eraseClient A) ↔ ∀ C ∈ s.table, C ≠ A → A ∉ s.linked C := by
  constructor
  · intro hclosed C hC hCA hmem
    exact Finset.notMem_erase A s.table (hclosed C (Finset.mem_erase.mpr ⟨hCA, hC⟩) A hmem)
  · intro hnone C hC D hD
    obtain ⟨hCA, hmem⟩ := Finset.mem_erase.mp hC
    refine Finset.mem_erase.mpr ⟨?_, h C hmem D hD⟩
    rintro rfl
    exact hnone C hmem hCA hD

end Closed

end EtherDevice.Ipacm.LanToLan
