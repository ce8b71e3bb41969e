import Mathlib.Data.List.Perm.Basic
import Mathlib.Data.List.Nodup
import Mathlib.Tactic.Common

/-!
# Stocks of resources

A system gives resources out and takes them back. `live` is what is out, and `missed` are the
resources that it was asked to take back though they were not out. `Holds S held` says that a
client records exactly what is out, each resource once, and that nothing was missed.
-/

namespace EtherDevice.Lib

universe u

structure Stock (κ : Type u) where
  live : List κ := []
  missed : List κ := []

namespace Stock

variable {κ : Type u} [DecidableEq κ] {S : Stock κ} {held held' : List κ} {k : κ}

def take (S : Stock κ) (k : κ) : Stock κ := { S with live := k :: S.live }

def giveBack (S : Stock κ) (k : κ) : Stock κ :=
  if k ∈ S.live then { S with live := S.live.erase k } else { S with missed := k :: S.missed }

theorem mem_of_mem_giveBack {k' : κ} (h : k' ∈ (S.giveBack k).live) : k' ∈ S.live := by
  unfold giveBack at h
  split at h
  · exact List.mem_of_mem_erase h
  · exact h

structure Holds (S : Stock κ) (held : List κ) : Prop where
  live : S.live.Perm held
  nodup : held.Nodup
  missed : S.missed = []

namespace Holds

omit [DecidableEq κ]

theorem empty : Holds ({} : Stock κ) [] := ⟨.refl _, .nil, rfl⟩

theorem perm (h : Holds S held) (hp : held.Perm held') : Holds S held' :=
  ⟨h.live.trans hp, hp.nodup_iff.mp h.nodup, h.missed⟩

theorem mem_iff (h : Holds S held) : k ∈ S.live ↔ k ∈ held := h.live.mem_iff

theorem take (h : Holds S held) (hk : k ∉ S.live) : Holds (S.take k) (k :: held) :=
  ⟨h.live.cons k, List.nodup_cons.mpr ⟨fun hin => hk (h.mem_iff.mpr hin), h.nodup⟩, h.missed⟩

variable [DecidableEq κ]

theorem giveBack (h : Holds S (k :: held)) : Holds (S.giveBack k) held := by
  have hk : k ∈ S.live := h.mem_iff.mpr List.mem_cons_self
  unfold Stock.giveBack
  rw [if_pos hk]
  refine ⟨?_, (List.nodup_cons.mp h.nodup).2, h.missed⟩
  have hp := h.live.erase k
  rwa [List.erase_cons_head] at hp

end Holds

end Stock

end EtherDevice.Lib
