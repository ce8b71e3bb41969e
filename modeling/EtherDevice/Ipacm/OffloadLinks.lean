import EtherDevice.Ipacm.PeerLists

/-!
# The offload links

The lists of links of the clients, and the steps in which only links and what they install differ.
-/

namespace EtherDevice.Ipacm.LanToLan

open Lib

variable {s s' : LanToLan} {A B : Ptr} {a : Answers}

def links (s : LanToLan) (p : Ptr) : List OffloadLinkInfo := (s.client p).link

def withLinks (s : LanToLan) (links : Ptr → List OffloadLinkInfo) : LanToLan :=
  { s with client := fun p => { s.client p with link := links p } }

structure LinkStep (s s' : LanToLan) : Prop where
  table : s'.table = s.table
  client : ∀ p, s'.client p = { s.client p with link := s'.links p }
  disconnected : s'.disconnected = s.disconnected

theorem LinkStep.refl (s : LanToLan) : LinkStep s s := ⟨rfl, fun _ => rfl, rfl⟩

theorem LinkStep.trans {s₁ s₂ : LanToLan} (h : LinkStep s s₁) (h' : LinkStep s₁ s₂) :
    LinkStep s s₂ where
  table := h'.table.trans h.table
  client p := by rw [h'.client, h.client]
  disconnected := h'.disconnected.trans h.disconnected

theorem LinkStep.peers {s' : LanToLan} (h : LinkStep s s') (p : Ptr) : s'.peers p = s.peers p := by
  unfold LanToLan.peers
  rw [h.client]

theorem Peers.linkStep {s' : LanToLan} (h : Peers s) (hstep : LinkStep s s') : Peers s' :=
  h.congr hstep.table hstep.peers

theorem LinkStep.is_active (h : LinkStep s s') (C : Ptr) :
    (s'.client C).is_active = (s.client C).is_active := by rw [h.client]

theorem LinkStep.is_powersave (h : LinkStep s s') (C : Ptr) :
    (s'.client C).is_powersave = (s.client C).is_powersave := by rw [h.client]

theorem modify_link (s : LanToLan) (A : Ptr) (f : List OffloadLinkInfo → List OffloadLinkInfo) :
    s.modify A (fun c => { c with link := f c.link }) =
      s.withLinks (Function.update s.links A (f (s.links A))) := by
  unfold modify withLinks
  congr 1
  funext p
  by_cases hp : p = A
  · subst hp
    simp [links]
  · simp [links, hp]

theorem links_withLinks (s : LanToLan) (lists : Ptr → List OffloadLinkInfo) :
    (s.withLinks lists).links = lists := rfl

theorem linkStep_withLinks (s : LanToLan) (lists : Ptr → List OffloadLinkInfo) :
    LinkStep s (s.withLinks lists) := ⟨rfl, fun _ => rfl, rfl⟩

theorem linkStep_modify (s : LanToLan) (A : Ptr)
    (f : List OffloadLinkInfo → List OffloadLinkInfo) :
    LinkStep s (s.modify A fun c => { c with link := f c.link }) := by
  rw [modify_link]
  exact linkStep_withLinks s _

def clientAt (addr : Nat) : LanClient := { iptype := .v4, ipv4_addr := addr, mac_addr := addr }

def between (src dst : Nat) : Connection :=
  { iptype := .v4, src_ipv4_addr := src, dst_ipv4_addr := dst }

end EtherDevice.Ipacm.LanToLan
