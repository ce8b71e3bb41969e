import Mathlib
import EtherDevice.Ipacm.OffloadFailures

/-!
# No dangling clients

Whatever calls fail, the peer lists agree with each other, and a link is recorded with what is
installed. What can be left behind is a link to a client that goes: the handlers erase a client
also where its links could not be turned off. In the runs without such a step no pointer dangles,
and such a step leaves one at once (`noDangling_of_reachable`).
-/

namespace EtherDevice.Ipacm.LanToLan

open Lib

variable {s s' : LanToLan} {A B : Ptr} {a : Answers}

theorem Outcome.of_closed {safe : Prop} (hweak : Weak s') (hclosed : Closed s')
    (hgone : Gone s → Gone s') (hsafe : safe) : Outcome s s' safe :=
  ⟨hweak, iff_of_true hclosed hsafe, hgone⟩

variable {data : LanClient}

theorem Weak.turnoff (h : Weak s) (a : Answers) (hA : A ∈ s.table) :
    ∃ t, Cleared a A (s.links A) t s (turnoffOffloadLinks a A (s.client A).link s).2 :=
  cleared_turnoffOffloadLinks a fun _ hlink =>
    (h.may A hA _ (List.mem_map_of_mem hlink)).1

theorem Weak.clearPeerList (h : Weak s) (hA : A ∈ s.table) : ∃ lists,
    LanToLan.clearPeerList A (s.client A).peer s = (true, s.withPeers lists) ∧
      Weak (s.withPeers lists) ∧ lists A = [] := by
  have hsame : s.withPeers (Function.update s.peers A (s.client A).peer) = s := by
    rw [show (s.client A).peer = s.peers A from rfl, Function.update_eq_self]
    rfl
  obtain ⟨lists, hrun, hpeers, hnil, -⟩ := Peers.clearPeerList hA (hsame.symm ▸ h.peers)
  exact ⟨lists, hrun, h.withPeers hpeers, hnil⟩

theorem modify_lists {f : ClientInfo → ClientInfo}
    (hf : ∀ c, (f c).peer = c.peer ∧ (f c).link = c.link) (s : LanToLan) (A C : Ptr) :
    ((s.modify A f).client C).peer = (s.client C).peer ∧
      ((s.modify A f).client C).link = (s.client C).link := by
  unfold modify
  grind

theorem activate_lists (s : LanToLan) (A : Ptr) (mac_addr : Nat) (C : Ptr) :
    ((s.activate A mac_addr).client C).peer = (s.client C).peer ∧
      ((s.activate A mac_addr).client C).link = (s.client C).link := by
  refine modify_lists ?_ s A C
  exact fun _ => ⟨rfl, rfl⟩

theorem Weak.activate (h : Weak s) (A : Ptr) (mac_addr : Nat) : Weak (s.activate A mac_addr) :=
  h.congr rfl (activate_lists s A mac_addr) rfl

theorem Closed.activate (h : Closed s) (A : Ptr) (mac_addr : Nat) :
    Closed (s.activate A mac_addr) :=
  h.congr rfl fun C => (activate_lists s A mac_addr C).2

theorem Weak.checkPotentialLink (h : Weak s) (hclosed : Closed s) (a : Answers) (hA : A ∈ s.table) :
    Weak (LanToLan.checkPotentialLink a A (s.client A).peer s) ∧
      Closed (LanToLan.checkPotentialLink a A (s.client A).peer s) ∧
      LinkStep s (LanToLan.checkPotentialLink a A (s.client A).peer s) := by
  have hstep : Relinked (fun C D => MayConnect C D ∧ D ∈ s.table) s
      (LanToLan.checkPotentialLink a A (s.client A).peer s) := by
    refine relinked_checkPotentialLink fun it hit => ?_
    obtain ⟨hpeer, hmay⟩ := h.peers.agree.known A hA it hit
    exact ⟨⟨hmay, hpeer⟩, hmay.symm, hA⟩
  exact ⟨h.relinked hstep fun _ _ _ hnew => hnew.1, hclosed.relinked hstep fun _ _ _ hnew => hnew.2,
    hstep.toLinkStep⟩

theorem handleClientActive_outcome (h : Weak s) (hclosed : Closed s) :
    Outcome s (s.handleClientActive a data) True := by
  unfold handleClientActive
  split
  · exact Outcome.of_closed h hclosed id trivial
  dsimp only
  let s₀ : LanToLan := { s with disconnected := s.disconnected.erase data.ptr }
  have h₀ : Weak s₀ := h.congr rfl (fun _ => ⟨rfl, rfl⟩) rfl
  have hclosed₀ : Closed s₀ := hclosed.congr rfl fun _ => rfl
  have hgone₀ : Gone s → Gone s₀ := fun hgone D hD => hgone D (Finset.mem_of_mem_erase hD)
  split
  · rename_i hA
    have hself : (s₀.newClient data.ptr data.mac_addr).linked data.ptr = [] := by
      simp [linked, links, newClient]
    have hother : ∀ C ∈ s.table,
        (s₀.newClient data.ptr data.mac_addr).linked C = s.linked C := by
      intro C hC
      have hne : C ≠ data.ptr := fun heq => hA (heq ▸ hC)
      simp [linked, links, newClient, hne, s₀]
    refine Outcome.of_closed ⟨h₀.peers.newClient hA _, ?_, h.unfounded⟩ ?_ ?_ trivial
    · intro C hC D hD
      rcases Finset.mem_insert.mp hC with rfl | hmem
      · rw [hself] at hD
        cases hD
      · rw [hother C hmem] at hD
        exact h.may C hmem D hD
    · intro C hC D hD
      rcases Finset.mem_insert.mp hC with rfl | hmem
      · rw [hself] at hD
        cases hD
      · rw [hother C hmem] at hD
        exact Finset.mem_insert_of_mem (hclosed C hmem D hD)
    · intro hgone D hD hmem
      obtain ⟨hne, hD⟩ := Finset.mem_erase.mp hD
      exact hgone D hD ((Finset.mem_insert.mp hmem).resolve_left hne)
  rename_i hA
  have hA : data.ptr ∈ s.table := not_not.mp hA
  split
  · split
    · exact Outcome.of_closed h₀ hclosed₀ hgone₀ trivial
    · obtain ⟨t, hcleared⟩ := h₀.turnoff a hA
      let s₁ := (turnoffOffloadLinks a data.ptr (s₀.client data.ptr).link s₀).2
      have h₁ : Weak s₁ := h₀.unlinked hcleared.step
      have htable₁ : s₁.table = s.table := hcleared.step.table
      obtain ⟨lists, hrun, h₂, -⟩ := h₁.clearPeerList (htable₁ ▸ hA)
      have hclosed₂ : Closed (s₁.withPeers lists) :=
        (hclosed₀.unlinked hcleared.step).congr rfl fun _ => rfl
      rw [show LanToLan.clearPeerList data.ptr (s₁.client data.ptr).peer s₁ = _ from hrun]
      refine Outcome.of_closed (h₂.activate _ _) (hclosed₂.activate _ _) (fun hgone => ?_) trivial
      exact (hgone₀ hgone).mono hcleared.step.table.le hcleared.step.disconnected
  · obtain ⟨hweak, hclosed', hstep⟩ := (h₀.activate data.ptr data.mac_addr).checkPotentialLink
      (hclosed₀.activate _ _) a hA
    refine Outcome.of_closed hweak hclosed' (fun hgone => ?_) trivial
    exact (hgone₀ hgone).mono hstep.table.le hstep.disconnected

theorem handleClientInactive_outcome (h : Weak s) (hclosed : Closed s) (hcalls : s.calls = 0) :
    Outcome s (s.handleClientInactive a data)
      (data.p_iface ≠ none → data.ptr ∈ s.table → s.peers data.ptr = [] →
        TurnsOff s a data.ptr) := by
  unfold handleClientInactive
  dsimp only
  split
  · grind [Outcome.of_closed]
  rename_i hskip
  obtain ⟨hiface, hA⟩ := not_or.mp hskip
  have hA : data.ptr ∈ s.table := not_not.mp hA
  obtain ⟨t, hcleared⟩ := h.turnoff a hA
  let s₁ := (turnoffOffloadLinks a data.ptr (s.client data.ptr).link s).2
  let s₂ := s₁.modify data.ptr fun c => { c with is_active := false }
  have hlists : ∀ C, (s₂.client C).peer = (s₁.client C).peer ∧
      (s₂.client C).link = (s₁.client C).link := by
    refine modify_lists ?_ s₁ data.ptr
    exact fun _ => ⟨rfl, rfl⟩
  have h₂ : Weak s₂ := (h.unlinked hcleared.step).congr rfl hlists rfl
  have hclosed₂ : Closed s₂ := (hclosed.unlinked hcleared.step).congr rfl fun C => (hlists C).2
  have htable₂ : s₂.table = s.table := hcleared.step.table
  have hdisconnected : s₂.disconnected = s.disconnected := hcleared.step.disconnected
  have hpeers : (s₂.client data.ptr).peer = s.peers data.ptr :=
    (hlists data.ptr).1.trans (hcleared.step.toLinkStep.peers data.ptr)
  split
  · rename_i hempty
    refine ⟨h₂.eraseClient hempty, ?_, fun hgone => hgone.mono ?_ hdisconnected⟩
    · refine hclosed₂.eraseClient_iff.trans ?_
      rw [htable₂]
      have hlinked : ∀ C, s₂.linked C = s₁.linked C := linked_congr fun C => (hlists C).2
      simp only [hlinked]
      refine (hcleared.none_left_iff hcalls fun C hC => ?_).trans ?_
      · exact ⟨hclosed _ hA C hC, (h.may _ hA C hC).1⟩
      · rw [hpeers] at hempty
        exact ⟨fun hoff _ _ _ => hoff, fun hoff => hoff hiface hA hempty⟩
    · exact (Finset.erase_subset _ _).trans htable₂.le
  · rename_i hpeer
    refine Outcome.of_closed h₂ hclosed₂ (fun hgone => hgone.mono htable₂.le hdisconnected) ?_
    intro _ _ hempty
    exact absurd (hpeers.trans hempty) hpeer

theorem handleClientDisconnect_outcome (h : Weak s) (hclosed : Closed s) (hcalls : s.calls = 0) :
    Outcome s (s.handleClientDisconnect a data)
      (data.p_iface ≠ none → data.ptr ∈ s.table → TurnsOff s a data.ptr) := by
  unfold handleClientDisconnect
  dsimp only
  split
  · simp_all [Outcome.of_closed]
  rename_i hiface
  let s₀ : LanToLan := { s with disconnected := insert data.ptr s.disconnected }
  have h₀ : Weak s₀ := h.congr rfl (fun _ => ⟨rfl, rfl⟩) rfl
  have hclosed₀ : Closed s₀ := hclosed.congr rfl fun _ => rfl
  split
  · rename_i hA
    refine Outcome.of_closed h₀ hclosed₀ (fun hgone D hD => ?_) fun _ hmem => absurd hmem hA
    rcases Finset.mem_insert.mp hD with rfl | hD
    · exact hA
    · exact hgone D hD
  rename_i hA
  have hA : data.ptr ∈ s.table := not_not.mp hA
  obtain ⟨t, hcleared⟩ := h₀.turnoff a hA
  let s₁ := (turnoffOffloadLinks a data.ptr (s₀.client data.ptr).link s₀).2
  have h₁ : Weak s₁ := h₀.unlinked hcleared.step
  have htable₁ : s₁.table = s.table := hcleared.step.table
  obtain ⟨lists, hrun, h₂, hnil⟩ := h₁.clearPeerList (htable₁ ▸ hA)
  have hclosed₂ : Closed (s₁.withPeers lists) :=
    (hclosed₀.unlinked hcleared.step).congr rfl fun _ => rfl
  rw [show LanToLan.clearPeerList data.ptr (s₁.client data.ptr).peer s₁ = _ from hrun]
  refine ⟨h₂.eraseClient hnil, ?_, fun hgone D hD hmem => ?_⟩
  · refine hclosed₂.eraseClient_iff.trans ?_
    rw [show (s₁.withPeers lists).table = s.table from htable₁]
    refine (hcleared.none_left_iff hcalls fun C hC => ?_).trans ?_
    · exact ⟨hclosed _ hA C hC, (h.may _ hA C hC).1⟩
    · exact ⟨fun hoff _ _ => hoff, fun hoff => hoff hiface hA⟩
  · have hD : D ∈ s₁.disconnected := hD
    rw [hcleared.step.disconnected] at hD
    obtain ⟨hne, hmem⟩ := Finset.mem_erase.mp hmem
    exact hgone D ((Finset.mem_insert.mp hD).resolve_left hne) (htable₁ ▸ hmem)

theorem handleClientPowerSave_outcome (h : Weak s) (hclosed : Closed s) :
    Outcome s (s.handleClientPowerSave a data) True := by
  unfold handleClientPowerSave
  dsimp only
  split
  · exact Outcome.of_closed h hclosed id trivial
  have hstep := unlinked_removeFltRules a (s := s) data.ptr (s.client data.ptr).link
  have h₁ := h.unlinked hstep
  have hclosed₁ := hclosed.unlinked hstep
  have hgone : Gone s → Gone _ := fun hgone => hgone.mono hstep.table.le hstep.disconnected
  cases hrun : removeFltRules a data.ptr (s.client data.ptr).link s with
  | mk res s₁ =>
    rw [hrun] at h₁ hclosed₁ hgone
    cases res with
    | false => exact Outcome.of_closed h₁ hclosed₁ hgone trivial
    | true =>
      have hlists : ∀ C, ((s₁.modify data.ptr fun c =>
          { c with is_active := false, is_powersave := true }).client C).peer =
            (s₁.client C).peer ∧ ((s₁.modify data.ptr fun c =>
          { c with is_active := false, is_powersave := true }).client C).link =
            (s₁.client C).link := by
        simp [modify_lists]
      exact Outcome.of_closed (h₁.congr rfl hlists rfl)
        (hclosed₁.congr rfl fun C => (hlists C).2) hgone trivial

theorem handleClientPowerRecover_outcome (h : Weak s) (hclosed : Closed s) :
    Outcome s (s.handleClientPowerRecover a data) True := by
  unfold handleClientPowerRecover
  dsimp only
  split
  · exact Outcome.of_closed h hclosed id trivial
  rename_i hskip
  have hA : data.ptr ∈ s.table := not_not.mp (not_or.mp hskip).2
  split
  · exact Outcome.of_closed h hclosed id trivial
  have hstep : Unlinked s (addFltRules a data.ptr [] (s.client data.ptr).link s).2 :=
    unlinked_addFltRules a data.ptr rfl
  have h₁ := h.unlinked hstep
  have hclosed₁ := hclosed.unlinked hstep
  have htable := hstep.table
  have hdisconnected := hstep.disconnected
  cases hrun : addFltRules a data.ptr [] (s.client data.ptr).link s with
  | mk res s₁ =>
    rw [hrun] at h₁ hclosed₁ htable hdisconnected
    cases res with
    | false =>
      exact Outcome.of_closed h₁ hclosed₁ (fun hgone => hgone.mono htable.le hdisconnected) trivial
    | true =>
      let s₂ := s₁.modify data.ptr fun c => { c with is_active := true, is_powersave := false }
      have hlists : ∀ C, (s₂.client C).peer = (s₁.client C).peer ∧
          (s₂.client C).link = (s₁.client C).link := by
        refine modify_lists ?_ s₁ data.ptr
        exact fun _ => ⟨rfl, rfl⟩
      have h₂ : Weak s₂ := h₁.congr rfl hlists rfl
      obtain ⟨hweak, hclosed', hlast⟩ :=
        h₂.checkPotentialLink (hclosed₁.congr rfl fun C => (hlists C).2) a (htable ▸ hA)
      refine Outcome.of_closed hweak hclosed' (fun hgone => ?_) trivial
      exact hgone.mono (hlast.table.trans htable).le (hlast.disconnected.trans hdisconnected)

theorem handleNewConnection_outcome {data : Connection} (h : Weak s) (hclosed : Closed s)
    (hne : data.src ≠ data.dst) : Outcome s (s.handleNewConnection a data) True := by
  unfold handleNewConnection
  dsimp only
  split
  · exact Outcome.of_closed h hclosed id trivial
  rename_i hskip
  have hsrc : data.src ∈ s.table := not_not.mp fun hnot => hskip (.inl hnot)
  have hdst : data.dst ∈ s.table := not_not.mp fun hnot => hskip (.inr hnot)
  have hmay := mayConnect_of_connection hne
  rw [addConnection_eq s hne]
  let s₁ := s.withPeers (s.bothLists data.src data.dst addEntry)
  have h₁ : Weak s₁ := h.withPeers (h.peers.addConnection hsrc hdst hmay)
  have hclosed₁ : Closed s₁ := hclosed.congr rfl fun _ => rfl
  let new : Ptr → Ptr → Prop := fun C D => MayConnect C D ∧ D ∈ s.table
  have hend : ∀ s', Relinked new s₁ s' → Outcome s s' True := fun s' hstep =>
    Outcome.of_closed (h₁.relinked hstep fun _ _ _ hnew => hnew.1)
      (hclosed₁.relinked hstep fun _ _ _ hnew => hnew.2)
      (fun hgone => hgone.mono hstep.table.le hstep.disconnected) trivial
  have hto : Relinked new s₁ (s₁.addOffloadLink a data.src data.dst).2 :=
    relinked_addOffloadLink a s₁ ⟨hmay, hdst⟩
  split
  · split
    · rename_i s₂ hadd₁
      rw [hadd₁] at hto
      exact hend s₂ hto
    · rename_i s₂ hadd₁
      rw [hadd₁] at hto
      have hback : Relinked new s₁ (s₂.addOffloadLink a data.dst data.src).2 :=
        hto.trans (relinked_addOffloadLink a s₂ ⟨hmay.symm, hsrc⟩)
      split
      · simp_all
      · rename_i s₃ hadd₂
        rw [hadd₂] at hback
        exact hend _ ⟨⟨hback.table, hback.client, hback.disconnected⟩, hback.unfounded,
          hback.linked⟩
  · exact hend s₁ (Relinked.refl s₁)

/-- A client without peers that is neither active nor in power save. -/
def Idle (s : LanToLan) (A : Ptr) : Prop :=
  (s.client A).is_active = false ∧ (s.client A).is_powersave = false ∧ s.peers A = []

theorem eraseIdle_eq (s : LanToLan) (A : Ptr) :
    Idle s A ∧ s.eraseIdle A = s.eraseClient A ∨ ¬ Idle s A ∧ s.eraseIdle A = s := by
  have hidle : (!(s.client A).is_active && !(s.client A).is_powersave &&
      (s.client A).peer.isEmpty) = true ↔ Idle s A := by
    rw [Bool.and_eq_true, Bool.and_eq_true, Bool.not_eq_true', Bool.not_eq_true',
      List.isEmpty_iff, and_assoc]
    rfl
  grind [eraseIdle]

theorem Weak.eraseIdle (h : Weak s) (A : Ptr) : Weak (s.eraseIdle A) := by
  rcases eraseIdle_eq s A with ⟨hidle, heq⟩ | ⟨-, heq⟩ <;> rw [heq]
  · exact h.eraseClient hidle.2.2
  · exact h

theorem client_eraseIdle (s : LanToLan) (A : Ptr) : (s.eraseIdle A).client = s.client := by
  rcases eraseIdle_eq s A with ⟨-, heq⟩ | ⟨-, heq⟩ <;> rw [heq]
  rfl

theorem disconnected_eraseIdle (s : LanToLan) (A : Ptr) :
    (s.eraseIdle A).disconnected = s.disconnected := by
  rcases eraseIdle_eq s A with ⟨-, heq⟩ | ⟨-, heq⟩ <;> rw [heq]
  rfl

theorem mem_eraseIdle {C : Ptr} :
    C ∈ (s.eraseIdle A).table ↔ C ∈ s.table ∧ ¬ (C = A ∧ Idle s A) := by
  rcases eraseIdle_eq s A with ⟨hidle, heq⟩ | ⟨hidle, heq⟩ <;> rw [heq]
  · rw [and_iff_left hidle, eraseClient, Finset.mem_erase, and_comm]
  · rw [and_iff_left fun hsame => hidle hsame.2]

/-- A client that is neither active nor in power save, and lists nobody else. -/
def OnlyPeer (s : LanToLan) (A B : Ptr) : Prop :=
  (s.client A).is_active = false ∧ (s.client A).is_powersave = false ∧
    ∀ it ∈ s.peers A, it.peer_pointer = B

instance (s : LanToLan) (A B : Ptr) : Decidable (OnlyPeer s A B) := by
  unfold OnlyPeer
  infer_instance

def Goes (s : LanToLan) (src dst C : Ptr) : Prop :=
  C = src ∧ OnlyPeer s src dst ∨ C = dst ∧ OnlyPeer s dst src

instance (s : LanToLan) (src dst C : Ptr) : Decidable (Goes s src dst C) := by
  unfold Goes
  infer_instance

theorem removeEntry_eq_nil {peers : List PeerInfo} {other : Ptr}
    (hkeys : (peers.map (·.peer_pointer)).Nodup) (hlast : connsIn peers other = 1) :
    removeEntry other peers = [] ↔ ∀ it ∈ peers, it.peer_pointer = other := by
  have herase : removeEntry other peers = peers.eraseP (·.peer_pointer == other) := by
    unfold connsIn at hlast
    unfold removeEntry
    cases hfind : peers.find? (·.peer_pointer == other) with
    | none =>
      rw [hfind] at hlast
      cases hlast
    | some it =>
      simp_all
  simp [List.eq_nil_iff_forall_not_mem, mem_eraseP_key, herase, hkeys]

theorem eraseLinks_of_idle (a : Answers) (hactive : (s.client A).is_active = false)
    (hpowersave : (s.client A).is_powersave = false) (B : Ptr) :
    s.eraseLinks a A B = s ∧ s.eraseLinks a B A = s := by
  unfold eraseLinks
  simp [hactive, hpowersave]

theorem handleDelConnection_outcome {data : Connection} (h : Weak s) (hclosed : Closed s)
    (hne : data.src ≠ data.dst) :
    Outcome s (s.handleDelConnection a data)
      (data.src ∈ s.table ∧ data.dst ∈ s.table ∧ connsIn (s.peers data.dst) data.src = 1 →
        ∀ C ∈ s.table, ¬ Goes s data.src data.dst C → ∀ D ∈ s.linked C,
          ¬ Goes s data.src data.dst D) := by
  unfold handleDelConnection
  dsimp only
  split
  · grind [Outcome.of_closed]
  rename_i hskip
  have hsrc : data.src ∈ s.table := not_not.mp fun hnot => hskip (.inl hnot)
  have hdst : data.dst ∈ s.table := not_not.mp fun hnot => hskip (.inr hnot)
  rw [removeConnection_eq s hne]
  let s₁ := s.withPeers (s.bothLists data.src data.dst removeEntry)
  have h₁ : Weak s₁ :=
    h.withPeers (h.peers.removeConnection hsrc hdst (mayConnect_of_connection hne))
  have hclosed₁ : Closed s₁ := hclosed.congr rfl fun _ => rfl
  by_cases hlast : connsIn (s.peers data.dst) data.src = 1
  · rw [decide_eq_true hlast]
    have hstep := unlinked_eraseLinks a s₁ data.src data.dst
    let s₂ := s₁.eraseLinks a data.src data.dst
    have h₂ : Weak s₂ := h₁.unlinked hstep
    have hclosed₂ : Closed s₂ := hclosed₁.unlinked hstep
    have htable₂ : s₂.table = s.table := hstep.table
    -- who goes is known before the event
    have hside : ∀ {A B}, A ∈ s.table → connsIn (s.peers A) B = 1 →
        s₁.peers A = removeEntry B (s.peers A) → (Idle s₂ A ↔ OnlyPeer s A B) := by
      intro A B hA hone hlist
      unfold Idle OnlyPeer
      rw [hstep.toLinkStep.is_active, hstep.toLinkStep.is_powersave, hstep.toLinkStep.peers, hlist,
        removeEntry_eq_nil (h.peers.agree.once A hA) hone]
      rfl
    have hidle : Idle s₂ data.src ↔ OnlyPeer s data.src data.dst :=
      hside hsrc (by rw [h.peers.conns_comm hsrc hdst, hlast]) (bothLists_left hne)
    have hidle' : Idle (s₂.eraseIdle data.src) data.dst ↔ OnlyPeer s data.dst data.src := by
      refine Iff.trans ?_ (hside hdst hlast bothLists_right)
      unfold Idle peers
      rw [client_eraseIdle]
    have hmem : ∀ C, C ∈ ((s₂.eraseIdle data.src).eraseIdle data.dst).table ↔
        C ∈ s.table ∧ ¬ Goes s data.src data.dst C := by
      simp [mem_eraseIdle, and_assoc, Goes, hidle, hidle', htable₂]
    have hlinked : ∀ C, ((s₂.eraseIdle data.src).eraseIdle data.dst).linked C = s₂.linked C := by
      refine linked_congr fun C => ?_
      rw [client_eraseIdle, client_eraseIdle]
    have hend : Closed ((s₂.eraseIdle data.src).eraseIdle data.dst) ↔
        ∀ C ∈ s.table, ¬ Goes s data.src data.dst C → ∀ D ∈ s₂.linked C,
          D ∈ s.table ∧ ¬ Goes s data.src data.dst D := by
      simp_all [Closed]
    refine ⟨(h₂.eraseIdle _).eraseIdle _, hend.trans ?_, fun hgone => hgone.mono ?_ ?_⟩
    · by_cases hgoes : OnlyPeer s data.src data.dst ∨ OnlyPeer s data.dst data.src
      · -- one of them is idle, and no link is erased
        have hsame : s₂ = s₁ := by
          rcases hgoes with ⟨hactive, hpowersave, -⟩ | ⟨hactive, hpowersave, -⟩
          · exact (eraseLinks_of_idle a (s := s₁) hactive hpowersave _).1
          · exact (eraseLinks_of_idle a (s := s₁) hactive hpowersave _).2
        rw [hsame]
        constructor
        · exact fun hall _ C hC hstays D hD => (hall C hC hstays D hD).2
        · exact fun hall C hC hstays D hD =>
            ⟨hclosed C hC D hD, hall ⟨hsrc, hdst, hlast⟩ C hC hstays D hD⟩
      · have hstay : ∀ D, ¬ Goes s data.src data.dst D :=
          fun D hD => hgoes (hD.imp And.right And.right)
        refine iff_of_true (fun C hC _ D hD => ⟨?_, hstay D⟩) fun _ _ _ _ D _ => hstay D
        exact htable₂ ▸ hclosed₂ C (htable₂.symm ▸ hC) D hD
    · exact fun C hC => ((hmem C).mp hC).1
    · rw [disconnected_eraseIdle, disconnected_eraseIdle]
      exact hstep.disconnected
  · rw [decide_eq_false hlast]
    exact Outcome.of_closed h₁ hclosed₁ id fun hboth => absurd hboth.2.2 hlast

/-- No pointer to a client that is not in the table, no link without its rules, and nothing left of
a disconnected client. -/
structure NoDangling (s : LanToLan) : Prop where
  peers : ∀ A ∈ s.table, ∀ it ∈ s.peers A, it.peer_pointer ∈ s.table
  links : ∀ A ∈ s.table, ∀ link ∈ s.links A, link.peer_pointer ∈ s.table
  founded : s.unfounded = []
  gone : ∀ D ∈ s.disconnected, D ∉ s.table ∧
    ∀ A ∈ s.table, ∀ link ∈ s.links A, link.peer_pointer ≠ D

/-- An event that erases a client also takes all links to it. -/
def TakesLinks (s : LanToLan) (op : Event × Answers) : Prop :=
  match op.1 with
  | .inactive data => data.p_iface ≠ none → data.ptr ∈ s.table → s.peers data.ptr = [] →
      TurnsOff s op.2 data.ptr
  | .disconnect data => data.p_iface ≠ none → data.ptr ∈ s.table → TurnsOff s op.2 data.ptr
  | .delConnection data =>
    data.src ∈ s.table ∧ data.dst ∈ s.table ∧ connsIn (s.peers data.dst) data.src = 1 →
      ∀ C ∈ s.table, ¬ Goes s data.src data.dst C → ∀ D ∈ s.linked C,
        ¬ Goes s data.src data.dst D
  | _ => True

instance (s : LanToLan) (a : Answers) (B : Ptr) : Decidable (TurnsOff s a B) := by
  unfold TurnsOff
  infer_instance

instance (s : LanToLan) : (op : Event × Answers) → Decidable (s.TakesLinks op)
  | (.inactive _, _) | (.disconnect _, _) => inferInstanceAs (Decidable (_ → _ → _))
  | (.delConnection _, _) => inferInstanceAs (Decidable (_ → ∀ C ∈ s.table, _))
  | (.active _, _) | (.powerSave _, _) | (.powerRecover _, _) | (.newConnection _, _) =>
    .isTrue trivial

structure Founded (s : LanToLan) : Prop extends Weak s where
  closed : Closed s
  gone : Gone s

theorem founded_start : Founded {} where
  peers := ⟨⟨nofun, nofun, nofun⟩, nofun⟩
  may := nofun
  unfounded := rfl
  closed := nofun
  gone := nofun

theorem Founded.outcome (h : Founded s) {op : Event × Answers} (henabled : s.Enabled op) :
    Outcome { s with calls := 0 } (s.exec op) (s.TakesLinks op) := by
  have h₀ : Weak { s with calls := 0 } := h.toWeak.congr rfl (fun _ => ⟨rfl, rfl⟩) rfl
  have hclosed₀ : Closed { s with calls := 0 } := h.closed.congr rfl fun _ => rfl
  unfold Enabled at henabled
  unfold LanToLan.exec TakesLinks
  cases hop : op.1 with
  | active data => exact handleClientActive_outcome h₀ hclosed₀
  | inactive data => exact handleClientInactive_outcome h₀ hclosed₀ rfl
  | disconnect data => exact handleClientDisconnect_outcome h₀ hclosed₀ rfl
  | powerSave data => exact handleClientPowerSave_outcome h₀ hclosed₀
  | powerRecover data => exact handleClientPowerRecover_outcome h₀ hclosed₀
  | newConnection data =>
    simp_all [handleNewConnection_outcome]
  | delConnection data =>
    rw [hop] at henabled
    exact handleDelConnection_outcome h₀ hclosed₀ henabled

theorem Weak.noDangling_iff (h : Weak s) (hgone : Gone s) : NoDangling s ↔ Closed s := by
  constructor
  · intro hdangling A hA B hB
    obtain ⟨link, hlink, rfl⟩ := List.mem_map.mp hB
    exact hdangling.links A hA link hlink
  · intro hclosed
    have hlinks : ∀ A ∈ s.table, ∀ link ∈ s.links A, link.peer_pointer ∈ s.table :=
      fun A hA link hlink => hclosed A hA _ (List.mem_map_of_mem hlink)
    refine ⟨fun A hA it hit => (h.peers.agree.known A hA it hit).1, hlinks, h.unfounded,
      fun D hD => ⟨hgone D hD, fun A hA link hlink heq => ?_⟩⟩
    exact hgone D hD (heq ▸ hlinks A hA link hlink)

theorem founded_invariant : (system.restrict TakesLinks).Invariant Founded := by
  refine System.Invariant.of_restrict ?_ ?_
  · rintro s rfl
    exact founded_start
  · rintro s op s' h htakes ⟨henabled, rfl⟩
    have houtcome := h.outcome henabled
    exact ⟨houtcome.weak, houtcome.closed.mpr htakes, houtcome.gone h.gone⟩

/-- Whatever calls fail, no pointer dangles in the runs where each event that erases a client takes
the links to it; and there the next event keeps this exactly if it does so too. -/
theorem noDangling_of_reachable (h : (system.restrict TakesLinks).Reachable s) :
    NoDangling s ∧ ∀ op, s.Enabled op → (NoDangling (s.exec op) ↔ s.TakesLinks op) := by
  have hfounded := founded_invariant.reachable h
  refine ⟨(hfounded.noDangling_iff hfounded.gone).mpr hfounded.closed, fun op henabled => ?_⟩
  have houtcome := hfounded.outcome henabled
  exact (houtcome.weak.noDangling_iff (houtcome.gone hfounded.gone)).trans houtcome.closed

/-- The link back is not recorded, and the client that has the other one is disconnected. -/
def oneWay : List (Event × Answers) :=
  [(.active (clientAt 1), {}), (.active (clientAt 2), {}), (.active (clientAt 3), {}),
    (.newConnection (between 2 1), { fails := [3] }), (.newConnection (between 1 3), {}),
    (.disconnect (clientAt 2), { fails := [0] })]

theorem noDangling_of_reachable_oneWay : ∃ s : LanToLan, (s.table.card = 2 ∧
    (s.linked (.v4, 3)) = [(.v4, 1)]) ∧ NoDangling s ∧
    ∀ op, s.Enabled op → (NoDangling (s.exec op) ↔ s.TakesLinks op) := by
  have hrun : (System.follow (fun s op => TakesLinks s op ∧ Enabled s op) exec oneWay {}).any
      (fun s => s.table.card = 2 ∧ (s.linked (.v4, 3)) = [(.v4, 1)]) = true := by
    decide +kernel
  obtain ⟨s, hs, hend⟩ := Option.any_eq_true _ _ |>.mp hrun
  exact ⟨s, of_decide_eq_true hend,
    noDangling_of_reachable (System.reachable_follow oneWay (.init rfl) hs)⟩

def notTurnedOff : List (Event × Answers) :=
  [(.active (clientAt 1), {}), (.active (clientAt 2), {}), (.newConnection (between 1 2), {}),
    (.disconnect (clientAt 1), { fails := [0] })]

theorem not_noDangling : ¬ ∀ s, system.Reachable s → NoDangling s := by
  intro hall
  have hrun : (System.follow (fun s op => True ∧ Enabled s op) exec notTurnedOff {}).any
      (fun s => (.v4, 2) ∈ s.table ∧ (.v4, 1) ∉ s.table ∧ (.v4, 1) ∈ s.linked (.v4, 2)) = true := by
    decide +kernel
  obtain ⟨s, hs, hend⟩ := Option.any_eq_true _ _ |>.mp hrun
  obtain ⟨hmem, hnot, hlinked⟩ := of_decide_eq_true hend
  have hinit : (system.restrict fun _ _ => True).Reachable {} := .init rfl
  have hreach := (System.reachable_follow notTurnedOff hinit hs).of_restrict
  obtain ⟨link, hlink, heq⟩ := List.mem_map.mp hlinked
  exact hnot (heq ▸ (hall s hreach).links _ hmem link hlink)

end EtherDevice.Ipacm.LanToLan
