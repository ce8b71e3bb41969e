import EtherDevice.Ipacm.LanToLan
import EtherDevice.Lib.AdjacencyLists

/-!
# The peer lists

Two clients list each other, with the same number of connections. `add_connection` and
`remove_connection` change the entries of two clients for each other in the same way, and
`clear_peer_list` removes them pair by pair, so each client is listed exactly by those that it
lists, whatever the interfaces answer.
-/

namespace EtherDevice.Ipacm

open Lib

def connsIn (peers : List PeerInfo) (other : Ptr) : Int :=
  match peers.find? (·.peer_pointer == other) with
  | none => 0
  | some it => it.num_connection

def addEntry (other : Ptr) (peers : List PeerInfo) : List PeerInfo :=
  if peers.any (·.peer_pointer == other) then
    changeFirst (·.peer_pointer == other)
      (fun it => { it with num_connection := it.num_connection + 1 }) peers
  else peers ++ [⟨other, 1⟩]

def removeEntry (other : Ptr) (peers : List PeerInfo) : List PeerInfo :=
  match peers.find? (·.peer_pointer == other) with
  | none => peers
  | some it =>
    if it.num_connection - 1 = 0 then peers.eraseP (·.peer_pointer == other)
    else
      changeFirst (·.peer_pointer == other)
        (fun it => { it with num_connection := it.num_connection - 1 }) peers

abbrev EntryIs (old new : List PeerInfo) (other : Ptr) (P : Int → Prop) : Prop :=
  Replaced (·.peer_pointer) (·.num_connection) old new other P

section Entry

variable {peers : List PeerInfo} {other : Ptr}

theorem connsIn_eq_zero (hnot : other ∉ peers.map (·.peer_pointer)) : connsIn peers other = 0 := by
  unfold connsIn
  rw [find?_key_eq_none.mpr hnot]

theorem connsIn_nonneg (other : Ptr) (hpos : ∀ it ∈ peers, 0 < it.num_connection) :
    0 ≤ connsIn peers other := by
  grind [connsIn]

variable (hkeys : (peers.map (·.peer_pointer)).Nodup)

include hkeys

theorem connsIn_of_mem {it : PeerInfo} (hit : it ∈ peers) :
    connsIn peers it.peer_pointer = it.num_connection := by
  have hfind := (find?_key_eq_some hkeys).mpr ⟨hit, rfl⟩
  unfold connsIn
  rw [hfind]

theorem entryIs_addEntry :
    EntryIs peers (addEntry other peers) other (· = connsIn peers other + 1) := by
  unfold addEntry
  split_ifs with hlisted
  · obtain ⟨it, hit, hsame⟩ := List.any_eq_true.mp hlisted
    rw [beq_iff_eq] at hsame
    have hchanged := replaced_changeFirst hkeys (·.num_connection)
      (f := fun it => { it with num_connection := it.num_connection + 1 }) (fun _ => rfl) hit hsame
    rw [← hsame, connsIn_of_mem hkeys hit, hsame]
    exact hchanged
  simp_all [connsIn_eq_zero, replaced_append]

theorem entryIs_removeEntry (other : Ptr)
    (hpos : ∀ it ∈ peers, 0 < it.num_connection) :
    EntryIs peers (removeEntry other peers) other
      fun n => n = connsIn peers other - 1 ∧ 0 < n := by
  unfold removeEntry
  cases hfind : peers.find? (·.peer_pointer == other) with
  | none =>
    have hnot : other ∉ peers.map (·.peer_pointer) := find?_key_eq_none.mp hfind
    rw [connsIn_eq_zero hnot]
    refine ⟨fun _ _ => Iff.rfl, fun it hit hsame => ?_, ?_, hkeys⟩
    · exact absurd (List.mem_map.mpr ⟨it, hit, hsame⟩) hnot
    omega
  | some old =>
    obtain ⟨hold, rfl⟩ := (find?_key_eq_some hkeys).mp hfind
    have hold_pos := hpos old hold
    rw [connsIn_of_mem hkeys hold]
    dsimp only
    split_ifs with hlast
    · grind [replaced_eraseP]
    · have hchanged := replaced_changeFirst hkeys (·.num_connection)
        (f := fun it => { it with num_connection := it.num_connection - 1 }) (fun _ => rfl) hold rfl
      grind

end Entry

namespace LanToLan

variable {s : LanToLan} {A B : Ptr}

def MayConnect (A B : Ptr) : Prop := B ≠ A ∧ B.1 = A.1

theorem MayConnect.symm (h : MayConnect A B) : MayConnect B A := ⟨h.1.symm, h.2.symm⟩

theorem not_mayConnect_self (A : Ptr) : ¬ MayConnect A A := fun h => h.1 rfl

theorem mayConnect_of_connection {data : Connection} (hne : data.src ≠ data.dst) :
    MayConnect data.src data.dst := by
  refine ⟨hne.symm, ?_⟩
  unfold Connection.src Connection.dst keyOf
  cases data.iptype <;> rfl

def peers (s : LanToLan) (p : Ptr) : List PeerInfo := (s.client p).peer

def withPeers (s : LanToLan) (peers : Ptr → List PeerInfo) : LanToLan :=
  { s with client := fun p => { s.client p with peer := peers p } }

theorem peers_withPeers (s : LanToLan) (lists : Ptr → List PeerInfo) :
    (s.withPeers lists).peers = lists := rfl

theorem modify_peer (s : LanToLan) (A : Ptr) (f : List PeerInfo → List PeerInfo) :
    s.modify A (fun c => { c with peer := f c.peer }) =
      s.withPeers (Function.update s.peers A (f (s.peers A))) := by
  unfold modify withPeers
  congr 1
  funext p
  by_cases hp : p = A
  · subst hp
    simp [peers]
  · simp [peers, hp]

/-- Clients of one table list each other, with the same number of connections. -/
structure Peers (s : LanToLan) : Prop where
  agree : Mutual s.table MayConnect (·.peer_pointer) (·.num_connection) s.peers
  positive : ∀ A ∈ s.table, ∀ it ∈ s.peers A, 0 < it.num_connection

theorem Peers.congr {s' : LanToLan} (h : Peers s) (htable : s'.table = s.table)
    (hpeers : ∀ p, s'.peers p = s.peers p) : Peers s' := by
  refine ⟨htable ▸ h.agree.congr fun p _ => hpeers p, ?_⟩
  rw [htable]
  exact fun A hA it hit => h.positive A hA it (hpeers A ▸ hit)

theorem Peers.conns_comm (h : Peers s) (hA : A ∈ s.table) (hB : B ∈ s.table) :
    connsIn (s.peers A) B = connsIn (s.peers B) A := by
  -- one of the two lists the other
  have hlisted : ∀ {A B}, A ∈ s.table → B ∈ s.table → B ∈ (s.peers A).map (·.peer_pointer) →
      connsIn (s.peers A) B = connsIn (s.peers B) A := by
    intro A B hA hB hmem
    obtain ⟨it, hit, rfl⟩ := List.mem_map.mp hmem
    obtain ⟨back, hback, rfl, hnum⟩ := h.agree.shared A hA it hit
    simp [connsIn_of_mem, h.agree.once, hA, hit, hB, hback, hnum.symm]
  by_cases hAB : B ∈ (s.peers A).map (·.peer_pointer)
  · exact hlisted hA hB hAB
  · by_cases hBA : A ∈ (s.peers B).map (·.peer_pointer)
    · exact (hlisted hB hA hBA).symm
    · rw [connsIn_eq_zero hAB, connsIn_eq_zero hBA]

theorem Peers.set (h : Peers s) (hA : A ∈ s.table) (hB : B ∈ s.table) (hAB : MayConnect A B)
    {P : Int → Prop} (hpos : ∀ n, P n → 0 < n) {lists : Ptr → List PeerInfo}
    (hrest : ∀ C, C ≠ A → C ≠ B → lists C = s.peers C)
    (hlistA : EntryIs (s.peers A) (lists A) B P) (hlistB : EntryIs (s.peers B) (lists B) A P) :
    Peers (s.withPeers lists) := by
  have hside : ∀ {A B}, A ∈ s.table → EntryIs (s.peers A) (lists A) B P →
      ∀ it ∈ lists A, 0 < it.num_connection := by
    intro A B hA hlist it hit
    by_cases hsame : it.peer_pointer = B
    · exact hpos _ (hlist.here it hit hsame)
    · exact h.positive A hA it ((hlist.other it hsame).mp hit)
  refine ⟨h.agree.set hA hB hAB hAB.symm not_mayConnect_self hrest hlistA hlistB,
    fun C hC it hit => ?_⟩
  rw [peers_withPeers] at hit
  by_cases hCA : C = A
  · subst hCA
    exact hside hA hlistA it hit
  by_cases hCB : C = B
  · subst hCB
    exact hside hB hlistB it hit
  rw [hrest C hCA hCB] at hit
  exact h.positive C hC it hit

theorem addPeer_eq (s : LanToLan) (A B : Ptr) : s.addPeer A B =
    (!(s.peers A).any (·.peer_pointer == B),
      s.withPeers (Function.update s.peers A (addEntry B (s.peers A)))) := by
  cases hlisted : (s.peers A).any (·.peer_pointer == B) with
  | true =>
    unfold addEntry
    rw [if_pos hlisted, ← modify_peer]
    exact if_pos hlisted
  | false =>
    have hnot : ¬ (s.peers A).any (·.peer_pointer == B) = true := by simp [hlisted]
    unfold addEntry
    rw [if_neg hnot]
    exact (if_neg hnot).trans (congrArg (Prod.mk true) (modify_peer s A (· ++ [⟨B, 1⟩])))

theorem removePeer_eq (s : LanToLan) (A B : Ptr) : s.removePeer A B =
    (decide (connsIn (s.peers A) B = 1),
      s.withPeers (Function.update s.peers A (removeEntry B (s.peers A)))) := by
  have hkeep : s.withPeers (Function.update s.peers A (s.peers A)) = s := by
    rw [Function.update_eq_self]
    rfl
  unfold removePeer removeEntry connsIn
  change (match (s.peers A).find? (·.peer_pointer == B) with | none => _ | some it => _) = _
  cases hfind : (s.peers A).find? (·.peer_pointer == B) with
  | none =>
    rw [hkeep]
    rfl
  | some it =>
    dsimp only
    split_ifs with hlast
    · rw [← modify_peer s A (List.eraseP (·.peer_pointer == B)),
        decide_eq_true (show it.num_connection = 1 by omega)]
    · rw [← modify_peer s A (changeFirst _ _),
        decide_eq_false (show ¬ it.num_connection = 1 by omega)]

def bothLists (s : LanToLan) (A B : Ptr) (f : Ptr → List PeerInfo → List PeerInfo) :
    Ptr → List PeerInfo :=
  Function.update (Function.update s.peers A (f B (s.peers A))) B (f A (s.peers B))

section BothLists

variable {f : Ptr → List PeerInfo → List PeerInfo}

theorem bothLists_left (hne : A ≠ B) : s.bothLists A B f A = f B (s.peers A) := by
  rw [bothLists, Function.update_of_ne hne, Function.update_self]

theorem bothLists_right : s.bothLists A B f B = f A (s.peers B) := Function.update_self _ _ _

theorem bothLists_other {C : Ptr} (hCA : C ≠ A) (hCB : C ≠ B) :
    s.bothLists A B f C = s.peers C := by
  rw [bothLists, Function.update_of_ne hCB, Function.update_of_ne hCA]

theorem Peers.bothLists (h : Peers s) (hA : A ∈ s.table) (hB : B ∈ s.table)
    (hAB : MayConnect A B) {P : Int → Prop} (hpos : ∀ n, P n → 0 < n)
    (hlistA : EntryIs (s.peers A) (f B (s.peers A)) B P)
    (hlistB : EntryIs (s.peers B) (f A (s.peers B)) A P) :
    Peers (s.withPeers (s.bothLists A B f)) := by
  refine h.set hA hB hAB hpos (fun C hCA hCB => bothLists_other hCA hCB) ?_ ?_
  · rw [bothLists_left hAB.1.symm]
    exact hlistA
  · rw [bothLists_right]
    exact hlistB

end BothLists

theorem addConnection_eq (s : LanToLan) (hne : A ≠ B) : s.addConnection A B =
    (!(s.peers A).any (·.peer_pointer == B) || !(s.peers B).any (·.peer_pointer == A),
      s.withPeers (s.bothLists A B addEntry)) := by
  have hB : (s.withPeers (Function.update s.peers A (addEntry B (s.peers A)))).peers B =
      s.peers B := Function.update_of_ne hne.symm _ _
  unfold addConnection
  rw [addPeer_eq]
  dsimp only
  rw [addPeer_eq, hB]
  rfl

theorem removeConnection_eq (s : LanToLan) (hne : A ≠ B) : s.removeConnection A B =
    (decide (connsIn (s.peers B) A = 1), s.withPeers (s.bothLists A B removeEntry)) := by
  have hB : (s.withPeers (Function.update s.peers A (removeEntry B (s.peers A)))).peers B =
      s.peers B := Function.update_of_ne hne.symm _ _
  unfold removeConnection
  rw [removePeer_eq, removePeer_eq, hB]
  rfl

theorem Peers.addConnection (h : Peers s) (hA : A ∈ s.table) (hB : B ∈ s.table)
    (hAB : MayConnect A B) : Peers (s.withPeers (s.bothLists A B addEntry)) := by
  refine h.bothLists hA hB hAB ?_ (entryIs_addEntry (h.agree.once A hA)) ?_
  · rintro n rfl
    have hnonneg := connsIn_nonneg B (h.positive A hA)
    omega
  · rw [h.conns_comm hA hB]
    exact entryIs_addEntry (h.agree.once B hB)

theorem Peers.removeConnection (h : Peers s) (hA : A ∈ s.table) (hB : B ∈ s.table)
    (hAB : MayConnect A B) : Peers (s.withPeers (s.bothLists A B removeEntry)) := by
  have hlistA := entryIs_removeEntry (h.agree.once A hA) B (h.positive A hA)
  have hlistB := entryIs_removeEntry (h.agree.once B hB) A (h.positive B hB)
  rw [← h.conns_comm hA hB] at hlistB
  exact h.bothLists hA hB hAB (fun n hn => hn.2) hlistA hlistB

theorem Peers.clearPeerList {list : List PeerInfo} (hA : A ∈ s.table)
    (h : Peers (s.withPeers (Function.update s.peers A list))) :
    ∃ lists, clearPeerList A list s = (true, s.withPeers lists) ∧ Peers (s.withPeers lists) ∧
      lists A = [] ∧
      ∀ C ∈ s.table, C ≠ A → ∀ it, it ∈ lists C ↔ it ∈ s.peers C ∧ it.peer_pointer ≠ A := by
  induction list generalizing s with
  | nil =>
    refine ⟨_, congrArg (Prod.mk true) (modify_peer s A fun _ => []), h,
      Function.update_self _ _ _, fun C hC hCA it => ⟨fun hit => ?_, fun hit => ?_⟩⟩
    · have hne := h.agree.ne_of_mem (Function.update_self _ _ _) hC hit
      simp_all
    simp [hCA, hit]
  | cons it list ih =>
    have hfirst : (s.withPeers (Function.update s.peers A (it :: list))).peers A = it :: list :=
      Function.update_self _ _ _
    have hmem : it ∈ (s.withPeers (Function.update s.peers A (it :: list))).peers A := by
      simp_all
    obtain ⟨hB, hAB⟩ := h.agree.known A hA it hmem
    obtain ⟨back, hback, hkey, -⟩ := h.agree.shared A hA it hmem
    have hpeersB : (s.withPeers (Function.update s.peers A (it :: list))).peers it.peer_pointer =
        s.peers it.peer_pointer := Function.update_of_ne hAB.1 _ _
    rw [hpeersB] at hback
    have hlisted : (s.client it.peer_pointer).peer.any (·.peer_pointer == A) = true :=
      List.any_eq_true.mpr ⟨back, hback, beq_iff_eq.mpr hkey⟩
    rw [LanToLan.clearPeerList, if_pos hlisted,
      modify_peer s it.peer_pointer (List.eraseP (·.peer_pointer == A))]
    let s₁ := s.withPeers (Function.update s.peers it.peer_pointer
      ((s.peers it.peer_pointer).eraseP (·.peer_pointer == A)))
    suffices hrest : Peers (s₁.withPeers (Function.update s₁.peers A list)) by
      obtain ⟨lists, hrun, hpeers, hnil, hkept⟩ := ih (s := s₁) hA hrest
      refine ⟨lists, hrun, hpeers, hnil, fun C hC hCA other => (hkept C hC hCA other).trans ?_⟩
      refine and_congr_left fun hne => ?_
      show other ∈ Function.update s.peers it.peer_pointer _ C ↔ _
      grind
    -- the entries of the two for each other are gone
    refine h.set hA hB hAB (P := fun _ => False) (fun _ hn => hn.elim) ?_ ?_ ?_
    · intro C hCA hCB
      rw [peers_withPeers, peers_withPeers, Function.update_of_ne hCA, Function.update_of_ne hCB,
        Function.update_of_ne hCA]
    · have hrest : EntryIs (it :: list) ((it :: list).eraseP (·.peer_pointer == it.peer_pointer))
          it.peer_pointer fun _ => False := replaced_eraseP (hfirst ▸ h.agree.once A hA) _ _
      simp_all
    · rw [hpeersB, Function.update_of_ne hAB.1, peers_withPeers, Function.update_self]
      exact replaced_eraseP (hpeersB ▸ h.agree.once it.peer_pointer hB) _ _

theorem Peers.eraseClient (h : Peers s) (hA : s.peers A = []) : Peers (s.eraseClient A) :=
  ⟨h.agree.erase hA, fun C hC => h.positive C (Finset.mem_of_mem_erase hC)⟩

theorem peers_newClient_self (s : LanToLan) (A : Ptr) (mac_addr : Nat) :
    (s.newClient A mac_addr).peers A = [] := by
  simp [peers, newClient]

theorem peers_newClient {C : Ptr} (hCA : C ≠ A) (mac_addr : Nat) :
    (s.newClient A mac_addr).peers C = s.peers C := by
  simp [peers, newClient, hCA]

theorem Peers.newClient (h : Peers s) (hA : A ∉ s.table) (mac_addr : Nat) :
    Peers (s.newClient A mac_addr) := by
  have hold : ∀ C ∈ s.table, (s.newClient A mac_addr).peers C = s.peers C := by
    intro C hC
    refine peers_newClient ?_ mac_addr
    rintro rfl
    exact hA hC
  refine ⟨h.agree.insert hA (peers_newClient_self s A mac_addr) hold, fun C hC it hit => ?_⟩
  rcases Finset.mem_insert.mp hC with rfl | hmem
  · rw [peers_newClient_self] at hit
    cases hit
  · rw [hold C hmem] at hit
    exact h.positive C hmem it hit

end LanToLan

end EtherDevice.Ipacm
