import Mathlib

/-!
# Handles of a driver

A driver gives out handles and takes them back. `live` is what it has given out, and `missed`
are the handles it was asked to take back though they were not live. `Owned held` says that a
client of the driver records exactly the live handles, once each, and that none was missed.
-/

namespace EtherDevice.Lib

/-- How the driver chooses the next handle: not one in use, and not 0. -/
structure Fresh where
  pick : Multiset Nat → Nat
  pick_ne_zero : ∀ live, pick live ≠ 0
  pick_notMem : ∀ live, pick live ∉ live

def Fresh.next : Fresh where
  pick live := live.sup + 1
  pick_ne_zero _ := Nat.succ_ne_zero _
  pick_notMem _ h := absurd (Multiset.le_sup h) (Nat.not_succ_le_self _)

structure Handles where
  live : Multiset Nat := 0
  missed : List Nat := []

namespace Handles

variable {H : Handles} {held : Multiset Nat}

def add (H : Handles) (fresh : Fresh) : Nat × Handles :=
  (fresh.pick H.live, { H with live := fresh.pick H.live ::ₘ H.live })

def del (H : Handles) (handle : Nat) : Handles :=
  if handle ∈ H.live then { H with live := H.live.erase handle }
  else { H with missed := handle :: H.missed }

structure Owned (H : Handles) (held : Multiset Nat) : Prop where
  live : H.live = held
  nodup : held.Nodup
  zero : 0 ∉ held
  missed : H.missed = []

theorem owned_empty : Owned {} 0 := ⟨rfl, Multiset.nodup_zero, Multiset.notMem_zero _, rfl⟩

theorem Owned.congr {held' : Multiset Nat} (h : Owned H held) (heq : held = held') :
    Owned H held' := heq ▸ h

theorem Owned.add (h : Owned H held) (fresh : Fresh) :
    Owned (H.add fresh).2 ((H.add fresh).1 ::ₘ held) := by
  have hfresh : fresh.pick H.live ∉ held := h.live ▸ fresh.pick_notMem H.live
  refine ⟨congrArg _ h.live, Multiset.nodup_cons.mpr ⟨hfresh, h.nodup⟩, ?_, h.missed⟩
  rw [Multiset.mem_cons, not_or]
  exact ⟨(fresh.pick_ne_zero _).symm, h.zero⟩

theorem Owned.del {handle : Nat} (h : Owned H (handle ::ₘ held)) : Owned (H.del handle) held := by
  have hlive : handle ∈ H.live := h.live ▸ Multiset.mem_cons_self _ _
  unfold Handles.del
  rw [if_pos hlive]
  refine ⟨?_, (Multiset.nodup_cons.mp h.nodup).2, ?_, h.missed⟩
  · rw [h.live, Multiset.erase_cons_head]
  · exact fun hzero => h.zero (Multiset.mem_cons_of_mem hzero)

theorem Owned.ne_zero {handle : Nat} (h : Owned H held) (hmem : handle ∈ held) : handle ≠ 0 :=
  fun hzero => h.zero (hzero ▸ hmem)

theorem Owned.foldl_del {handles : List Nat} (h : Owned H (↑handles + held)) :
    Owned (handles.foldl Handles.del H) held := by
  induction handles generalizing H with
  | nil => exact h.congr (by simp)
  | cons handle handles ih =>
    refine ih (Owned.del (h.congr ?_))
    rw [← Multiset.cons_coe, Multiset.cons_add]

end Handles

end EtherDevice.Lib
