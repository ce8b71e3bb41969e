import Mathlib
import EtherDevice.MmStream.Stream

/-!
# Every buffer has as many references as holders

The count of a buffer is raised in the sections of the poll thread and of the command thread, and
lowered by every return. It is the number of holders as long as each notification reaches its
channel, and the linked channel gets no buffer that was queued back before the section that counts
its reference.
-/

namespace EtherDevice.MmStream

open Lib

/-! ## Distinct holders are few -/

theorem length_le_of_nodup {holders : List Holder} (h : holders.Nodup) : holders.length ≤ 8 :=
  h.length_le_card

namespace Stream

/-! ## What the updates keep -/

section Frame

variable (s : Stream) (b : Nat)

theorem qbuf_frame (result : QbufResult) : ∃ count polled kernel, s.qbuf b result =
    { s with queuedBufferCount := count, polled := polled, kernel := kernel } := by
  unfold qbuf unqueue
  split
  · exact ⟨_, _, _, rfl⟩
  · dsimp only
    split <;> split <;> try split
    all_goals exact ⟨_, _, _, rfl⟩

theorem kernel_qbuf (result : QbufResult) : (s.qbuf b result).kernel =
    if result = .queued then s.kernel ++ [b] else s.kernel := by
  unfold qbuf unqueue
  cases result <;> dsimp only <;> simp only [reduceCtorEq, if_true, if_false] <;>
    split <;> try split
  all_goals rfl

theorem unqueue_frame : ∃ polled, s.unqueue =
    { s with queuedBufferCount := s.queuedBufferCount - 1, polled := polled } := by
  unfold unqueue
  dsimp only
  split <;> exact ⟨_, rfl⟩

end Frame

/-! ## The queue -/

structure Queued (s : Stream) : Prop where
  count : s.queuedBufferCount = s.kernel.length
  polled : s.polled ↔ 0 < s.queuedBufferCount

theorem Queued.qbuf {s : Stream} (h : s.Queued) (b : Nat) (result : QbufResult) :
    (s.qbuf b result).Queued := by
  have hcount := h.count
  have hpolled := h.polled
  unfold Stream.qbuf unqueue
  cases result with
  | notInvalidated => exact h
  | failed =>
    by_cases hfirst : s.queuedBufferCount + 1 = 1
    · have hzero : s.queuedBufferCount + 1 - 1 = 0 := by omega
      simp only [reduceCtorEq, if_false, if_pos hfirst, if_pos hzero]
      constructor <;> dsimp only
      · omega
      · simp [hzero]
    · have hmany : ¬ s.queuedBufferCount + 1 - 1 = 0 := by omega
      simp only [reduceCtorEq, if_false, if_neg hfirst, if_neg hmany]
      constructor <;> dsimp only
      · omega
      · rw [hpolled]
        omega
  | queued =>
    by_cases hfirst : s.queuedBufferCount + 1 = 1
    · simp only [reduceCtorEq, if_false, if_true, if_pos hfirst]
      constructor <;> dsimp only
      · simp_all
      · simp [hfirst]
    · simp only [reduceCtorEq, if_false, if_true, if_neg hfirst]
      constructor <;> dsimp only
      · simp_all
      · rw [hpolled]
        omega

theorem Queued.read {s : Stream} (h : s.Queued) {b : Nat} (hb : b ∈ s.kernel) :
    ({ s with kernel := s.kernel.erase b }.unqueue).Queued := by
  have hcount := h.count
  have hpolled := h.polled
  have hlength := List.length_erase_of_mem hb
  have hpos := List.length_pos_of_mem hb
  unfold unqueue
  dsimp only
  split
  · constructor <;> dsimp only
    · omega
    · simp_all
  · constructor <;> dsimp only
    · omega
    · rw [hpolled]
      omega

/-! ## References -/

/-- The counts are those of the holders in `H`. A buffer in the queue has none, and what was
queued back was returned by its last holder. -/
structure Refs (s : Stream) (H : Nat → List Holder) : Prop where
  refs : ∀ idx, (s.bufStatus idx).bufRefcnt = (H idx).length
  distinct : ∀ idx, (H idx).Nodup
  kernel : ∀ idx ∈ s.kernel, (s.bufStatus idx).inKernel = true ∧ H idx = []
  once : s.kernel.Nodup
  requeued : s.requeued = s.lastReturns
  queue : s.Queued

namespace Refs

variable {s : Stream} {H H' : Nat → List Holder} {b : Nat}

theorem perm (h : s.Refs H) (hperm : ∀ idx, (H' idx).Perm (H idx)) : s.Refs H' where
  refs idx := (h.refs idx).trans (hperm idx).length_eq.symm
  distinct idx := (hperm idx).nodup_iff.mpr (h.distinct idx)
  kernel idx hidx := by
    obtain ⟨hflag, hnone⟩ := h.kernel idx hidx
    exact ⟨hflag, List.perm_nil.mp (hnone ▸ hperm idx)⟩
  once := h.once
  requeued := h.requeued
  queue := h.queue

theorem add (h : s.Refs H) (hb : b ∉ s.kernel) (new : List Holder) (status : BufStatus)
    (hnew : (new ++ H b).Nodup)
    (hstatus : status.bufRefcnt = ((s.bufStatus b).bufRefcnt + new.length) % 256) :
    (s.setStatus b status).Refs (Function.update H b (new ++ H b)) where
  refs idx := by
    by_cases hidx : idx = b
    · subst hidx
      have hlength := length_le_of_nodup hnew
      simp only [setStatus, Function.update_self, hstatus, h.refs, List.length_append] at *
      omega
    · simpa only [setStatus, Function.update_of_ne hidx] using h.refs idx
  distinct idx := by
    by_cases hidx : idx = b
    · simp [hidx, hnew]
    · simpa only [Function.update_of_ne hidx] using h.distinct idx
  kernel idx hidx := by
    have hne : idx ≠ b := fun heq => hb (heq ▸ hidx)
    simpa only [setStatus, Function.update_of_ne hne] using h.kernel idx hidx
  once := h.once
  requeued := h.requeued
  queue := ⟨h.queue.count, h.queue.polled⟩

theorem read (h : s.Refs H) (hb : b ∈ s.kernel) :
    ({ s with kernel := s.kernel.erase b }.unqueue).Refs H := by
  have hqueue := h.queue.read hb
  obtain ⟨polled, hs⟩ := unqueue_frame { s with kernel := s.kernel.erase b }
  rw [hs] at hqueue ⊢
  exact ⟨h.refs, h.distinct, fun idx hidx => h.kernel idx (List.mem_of_mem_erase hidx),
    h.once.erase _, h.requeued, hqueue⟩

theorem giveBack_of_ne_nil (h : s.Refs H) {who : Holder} {rest : List Holder}
    (hb : (H b).Perm (who :: rest)) (hrest : s.holders b ≠ []) (hne : rest ≠ [])
    (result : QbufResult) : s.giveBack b result =
      s.setStatus b { s.bufStatus b with bufRefcnt := rest.length } := by
  have hcount := (h.refs b).trans hb.length_eq
  simp_all [giveBack, bufDone]

theorem giveBack_of_nil (h : s.Refs H) {who : Holder} (hb : (H b).Perm [who])
    (hrest : s.holders b = []) (result : QbufResult) :
    ∃ count polled kernel status, s.giveBack b result =
        { s with
          bufStatus := Function.update s.bufStatus b status
          queuedBufferCount := count
          polled := polled
          kernel := kernel
          requeued := b :: s.requeued
          lastReturns := b :: s.lastReturns } ∧
      status.bufRefcnt = 0 ∧ (result = .queued → status.inKernel = true) ∧
      kernel = (if result = .queued then s.kernel ++ [b] else s.kernel) ∧
      (s.giveBack b result).Queued := by
  have hcount : (s.bufStatus b).bufRefcnt = 1 := (h.refs b).trans hb.length_eq
  simp only [giveBack, bufDone, if_pos hrest, hcount, Nat.sub_self, if_true,
    if_neg (show ¬ (1 : Nat) = 0 by decide)]
  set t : Stream := ({ s with lastReturns := b :: s.lastReturns } : Stream).setStatus b
    { s.bufStatus b with bufRefcnt := 0 } with ht
  obtain ⟨c, p, k, hq⟩ := qbuf_frame t b result
  have hkernel : k = if result = .queued then s.kernel ++ [b] else s.kernel := by
    have := kernel_qbuf t b result
    rw [hq] at this
    exact this
  have hqueued : (t.qbuf b result).Queued :=
    Queued.qbuf (s := t) ⟨h.queue.count, h.queue.polled⟩ b result
  rw [hq] at hqueued ⊢
  by_cases hresult : result = .queued
  · refine ⟨c, p, k, ⟨0, true⟩, ?_, rfl, fun _ => rfl, hkernel, ?_⟩
    · simp only [if_pos hresult, setStatus, ht, Function.update_self, Function.update_idem]
    · rw [if_pos hresult]
      exact ⟨hqueued.count, hqueued.polled⟩
  · refine ⟨c, p, k, { s.bufStatus b with bufRefcnt := 0 }, ?_, rfl,
      fun h => absurd h hresult, hkernel, ?_⟩
    · simp only [if_neg hresult, setStatus, ht]
    · rw [if_neg hresult]
      exact ⟨hqueued.count, hqueued.polled⟩

theorem giveBack (h : s.Refs H) {who : Holder} {rest : List Holder}
    (hb : (H b).Perm (who :: rest)) (hrest : s.holders b = rest) (result : QbufResult) :
    (s.giveBack b result).Refs (Function.update H b rest) := by
  have hout : b ∉ s.kernel := by
    intro hin
    have hnone := (h.kernel b hin).2
    simp_all
  have hdistinct : ∀ idx, (Function.update H b rest idx).Nodup := by
    intro idx
    by_cases hidx : idx = b
    · subst hidx
      rw [Function.update_self]
      exact (hb.nodup_iff.mp (h.distinct idx)).of_cons
    simp [hidx, h.distinct]
  by_cases hlast : rest = []
  · rw [hlast] at hb hdistinct ⊢
    obtain ⟨c, p, k, status, hs, hrefs, hflag, hkernel, hqueued⟩ :=
      giveBack_of_nil h hb (hrest.trans hlast) result
    rw [hs] at hqueued ⊢
    refine ⟨fun idx => ?_, hdistinct, fun idx hidx => ?_, ?_, congrArg (b :: ·) h.requeued,
      hqueued⟩
    · by_cases hidx : idx = b
      · simp [hidx, hrefs]
      · simpa only [Function.update_of_ne hidx] using h.refs idx
    · by_cases heq : idx = b
      · subst heq
        have hresult : result = .queued := by
          by_contra hother
          exact hout (by simpa only [hkernel, if_neg hother] using hidx)
        simpa only [Function.update_self, and_true] using hflag hresult
      · have hin : idx ∈ s.kernel := by
          rw [hkernel] at hidx
          split at hidx
          · simpa [heq] using hidx
          · exact hidx
        simpa only [Function.update_of_ne heq] using h.kernel idx hin
    · rw [hkernel]
      split
      · exact List.nodup_append.mpr ⟨h.once, List.nodup_singleton b, by
          intro x hx y hy hxy
          exact hout (List.mem_singleton.mp hy ▸ hxy ▸ hx)⟩
      · exact h.once
  · rw [giveBack_of_ne_nil h hb (hrest ▸ hlast) hlast]
    refine ⟨fun idx => ?_, hdistinct, fun idx hidx => ?_, h.once, h.requeued,
      ⟨h.queue.count, h.queue.polled⟩⟩
    · by_cases hidx : idx = b
      · simp [setStatus, hidx]
      · simpa only [setStatus, Function.update_of_ne hidx] using h.refs idx
    · have hne : idx ≠ b := fun heq => hout (heq ▸ hidx)
      simpa only [setStatus, Function.update_of_ne hne] using h.kernel idx hidx

end Refs

/-! ## How holders move -/

section Moves

variable (s : Stream) (b : Nat) (idx : Nat)

theorem heldBy_deliver (h : Holder) :
    (s.deliver b h).heldBy idx = (if b = idx then [h] else []) ++ s.heldBy idx := by
  unfold heldBy deliver
  by_cases hidx : b = idx <;> simp [hidx]

theorem holders_deliver (h : Holder) :
    (s.deliver b h).holders idx = (if b = idx then [h] else []) ++ s.holders idx := by
  have hheld := heldBy_deliver s b idx h
  unfold holders
  rw [hheld]
  simp only [List.append_assoc]
  rfl

theorem holders_erase {h : Holder} (hmem : (b, h) ∈ s.held) :
    (s.holders idx).Perm ((if b = idx then [h] else []) ++
      ({ s with held := s.held.erase (b, h) } : Stream).holders idx) := by
  have hperm := (List.perm_cons_erase hmem).filter fun g => g.1 = idx
  have hheld : (s.heldBy idx).Perm ((if b = idx then [h] else []) ++
      ({ s with held := s.held.erase (b, h) } : Stream).heldBy idx) := by
    refine (hperm.map Prod.snd).trans (.of_eq ?_)
    unfold heldBy
    by_cases hidx : b = idx <;> simp [hidx]
  have happend := hheld.append_right ((s.cmdQueue.filter (· = idx)).map
    (fun _ => Holder.cmdThread) ++ (s.dispatching idx ++ s.giving idx))
  unfold holders
  simp only [List.append_assoc] at happend ⊢
  exact happend

theorem holders_enqueue : ({ s with cmdQueue := s.cmdQueue ++ [b] } : Stream).holders idx |>.Perm
    ((if b = idx then [.cmdThread] else []) ++ s.holders idx) := by
  rw [List.perm_iff_count]
  intro h
  by_cases hidx : b = idx
  · simp only [holders, heldBy, dispatching, giving, hidx, List.filter_append, List.map_append,
      List.count_append, decide_true, List.filter_cons_of_pos, List.filter_nil, List.map_cons,
      List.map_nil, if_true]
    omega
  simp [holders, heldBy, dispatching, giving, hidx]

theorem holders_dequeue {rest : List Nat} (hqueue : s.cmdQueue = b :: rest) :
    (s.holders idx).Perm ((if b = idx then [.cmdThread] else []) ++
      ({ s with cmdQueue := rest } : Stream).holders idx) := by
  rw [List.perm_iff_count]
  intro h
  by_cases hidx : b = idx
  · simp only [holders, heldBy, dispatching, giving, hqueue, hidx, List.map_cons,
      List.count_append, decide_true, List.filter_cons_of_pos, if_true, List.count_cons,
      List.count_nil]
    omega
  simp [holders, heldBy, dispatching, giving, hqueue, hidx]

theorem holders_dispatch {i : Nat} (hdispatch : s.dispatch = .running b i) :
    (s.holders idx).Perm ((if b = idx then [.cmdThread] else []) ++
      ({ s with dispatch := .idle } : Stream).holders idx) := by
  rw [List.perm_iff_count]
  intro h
  simp only [holders, heldBy, dispatching, giving, hdispatch, List.count_append, List.count_nil]
  omega

theorem holders_notify :
    (s.holders idx).Perm (s.giving idx ++
      ({ s with notify := .idle } : Stream).holders idx) := by
  rw [List.perm_iff_count]
  intro h
  simp only [holders, heldBy, dispatching, giving, List.count_append, List.count_nil]
  omega

end Moves

/-! ## The invariant -/

/-- The notifications are made, and the linked channel is not given a buffer that was queued
back. -/
def Timely (s : Stream) : Op → Prop
  | .dataNotify notified =>
    match s.notify with
    | .notifying _ _ => s.isBundled → notified
    | .linking idx _ => s.isLinked → notified ∧ idx ∉ s.kernel
    | .queueing _ hasCb => hasCb → notified
    | _ => True
  | _ => True

instance (s : Stream) : (op : Op) → Decidable (s.Timely op)
  | .dataNotify notified => by
    unfold Timely
    dsimp only
    split <;> infer_instance
  | .readMsmFrame _ | .dispatchAppData _ | .bufDone _ _ _ | .regBufCb _ | .link _ => .isTrue trivial

/-- The delivering call has read a frame and has counted no reference yet. -/
def Taken (s : Stream) (idx : Nat) : Prop :=
  s.notify = .read idx ∨ ∃ hasCb, s.notify = .checked idx hasCb

/-- The delivering call has not come past the linked channel. -/
def Unlinked (s : Stream) (idx : Nat) : Prop :=
  ∃ hasCb, s.notify = .notifying idx hasCb ∨ s.notify = .linking idx hasCb

/-- Each buffer has as many references as holders, a buffer just read has none, and who is still
to be given a buffer does not have it. -/
structure Inv (s : Stream) : Prop where
  refs : s.Refs s.holders
  taken : ∀ idx, s.Taken idx → idx ∉ s.kernel ∧ s.holders idx = []
  unlinked : ∀ idx, s.Unlinked idx → (idx, .linked) ∉ s.held
  uncalled : ∀ idx, idx ∈ s.cmdQueue ∨ Holder.cmdThread ∈ s.giving idx →
    ∀ i, (idx, .user i) ∉ s.held
  calling : ∀ idx n, s.dispatch = .running idx n → ∀ i : Fin bufCbMax, n ≤ i →
    (idx, .user i) ∉ s.held

theorem mem_heldBy {s : Stream} {idx : Nat} {h : Holder} :
    h ∈ s.heldBy idx ↔ (idx, h) ∈ s.held := by
  simp [heldBy]

theorem mem_holders {s : Stream} {idx : Nat} {h : Holder} : h ∈ s.holders idx ↔
    (idx, h) ∈ s.held ∨ (idx ∈ s.cmdQueue ∧ h = .cmdThread) ∨ h ∈ s.dispatching idx ∨
      h ∈ s.giving idx := by
  simp only [holders, List.mem_append, mem_heldBy, List.mem_map, List.mem_filter,
    decide_eq_true_eq, or_assoc]
  grind

theorem holders_update (H : Nat → List Holder) (b idx : Nat) (new : List Holder) :
    Function.update H b (new ++ H b) idx = (if b = idx then new else []) ++ H idx := by
  by_cases hidx : idx = b
  · subst hidx
    simp
  · simp [Function.update_of_ne hidx, Ne.symm hidx]

theorem holders_renotify (s : Stream) (n : Notify) (idx : Nat) :
    ({ s with notify := n } : Stream).holders idx =
      s.heldBy idx ++ (s.cmdQueue.filter (· = idx)).map (fun _ => Holder.cmdThread) ++
        s.dispatching idx ++ ({ s with notify := n } : Stream).giving idx := rfl

namespace Refs

variable {s : Stream}

theorem of_eq {s' : Stream} {H : Nat → List Holder} (h : s.Refs H)
    (hstatus : s'.bufStatus = s.bufStatus) (hkernel : s'.kernel = s.kernel)
    (hrequeued : s'.requeued = s.requeued) (hreturns : s'.lastReturns = s.lastReturns)
    (hcount : s'.queuedBufferCount = s.queuedBufferCount) (hpolled : s'.polled = s.polled) :
    s'.Refs H := by
  refine ⟨?_, h.distinct, ?_, ?_, ?_, ⟨?_, ?_⟩⟩
  · rw [hstatus]
    exact h.refs
  · rw [hstatus, hkernel]
    exact h.kernel
  · rw [hkernel]
    exact h.once
  · rw [hrequeued, hreturns]
    exact h.requeued
  · rw [hcount, hkernel]
    exact h.queue.count
  · rw [hcount, hpolled]
    exact h.queue.polled

end Refs

theorem Inv.renotify {s : Stream} (h : s.Inv) {n : Notify}
    (hgiving : ∀ idx, ({ s with notify := n } : Stream).giving idx = s.giving idx)
    (htaken : ∀ idx, ({ s with notify := n } : Stream).Taken idx → s.Taken idx)
    (hunlinked : ∀ idx, ({ s with notify := n } : Stream).Unlinked idx → s.Unlinked idx) :
    ({ s with notify := n } : Stream).Inv := by
  have hholders : ∀ idx, ({ s with notify := n } : Stream).holders idx = s.holders idx := by
    intro idx
    rw [holders_renotify, hgiving]
    rfl
  refine ⟨?_, fun idx hidx => ?_, fun idx hidx => h.unlinked idx (hunlinked idx hidx),
    fun idx hqueue => ?_, h.calling⟩
  · exact (h.refs.perm fun idx => .of_eq (hholders idx)).of_eq rfl rfl rfl rfl rfl rfl
  · rw [hholders]
    exact h.taken idx (htaken idx hidx)
  · rw [hgiving] at hqueue
    exact h.uncalled idx hqueue

theorem Inv.readMsmFrame {s : Stream} (h : s.Inv) {frame : Option (Nat × Bool)}
    (hidle : s.notify = .idle) (hframe : ∀ f ∈ frame, f.1 ∈ s.kernel) :
    (s.readMsmFrame frame).Inv := by
  cases frame with
  | none => exact h
  | some f =>
    obtain ⟨b, cleaned⟩ := f
    have hb : b ∈ s.kernel := hframe _ rfl
    have hrefs := h.refs.read hb
    obtain ⟨polled, hs⟩ := unqueue_frame { s with kernel := s.kernel.erase b }
    simp only [Stream.readMsmFrame]
    rw [hs] at hrefs ⊢
    have hgiving : ∀ idx, s.giving idx = [] := fun idx => by simp only [giving, hidle]
    split
    · have hholders : ∀ idx, ({ s with
          queuedBufferCount := s.queuedBufferCount - 1
          polled := polled
          kernel := s.kernel.erase b
          notify := .read b } : Stream).holders idx = s.holders idx := by
        intro idx
        simp only [holders, hgiving]
        rfl
      refine ⟨?_, fun idx htaken => ?_, fun idx hunlinked => ?_, fun idx hqueue => ?_, h.calling⟩
      · exact (hrefs.perm fun idx => .of_eq (hholders idx)).of_eq rfl rfl rfl rfl rfl rfl
      · have heq : b = idx := by
          obtain hread | ⟨_, hread⟩ := htaken
          · exact Notify.read.inj hread
          · cases hread
        subst heq
        exact ⟨h.refs.once.not_mem_erase, (hholders b).trans (h.refs.kernel b hb).2⟩
      · obtain ⟨_, hnotify | hnotify⟩ := hunlinked <;> cases hnotify
      · obtain hqueue | hgives := hqueue
        · exact h.uncalled idx (.inl hqueue)
        · cases hgives
    · refine ⟨hrefs, fun idx htaken => ?_, h.unlinked, h.uncalled, h.calling⟩
      obtain hread | ⟨_, hread⟩ := htaken <;> exact absurd (hidle.symm.trans hread) nofun

theorem Inv.count {s : Stream} (h : s.Inv) {b : Nat} {hasCb : Bool}
    (hnotify : s.notify = .checked b hasCb) (notified : Bool) : (s.dataNotify notified).Inv := by
  obtain ⟨hout, hnone⟩ := h.taken b (.inr ⟨hasCb, hnotify⟩)
  have hzero : (s.bufStatus b).bufRefcnt = 0 := by rw [h.refs.refs, hnone, List.length_nil]
  set new : List Holder :=
    (if s.isBundled then [.channel] else []) ++ if hasCb then [.cmdThread] else [] with hnew
  have hs : s.dataNotify notified =
      { s.setStatus b ⟨new.length % 256, false⟩ with notify := .notifying b hasCb } := by
    simp only [dataNotify, hnotify, hnew]
    cases hbundled : s.isBundled <;> cases hasCb <;>
      simp [setStatus, addRef, hzero, hbundled]
  rw [hs]
  have hgiving : ∀ idx, s.giving idx = [] := fun idx => by simp only [giving, hnotify]
  have hnodup : (new ++ s.holders b).Nodup := by
    rw [hnone, List.append_nil, hnew]
    cases s.isBundled <;> cases hasCb <;> decide
  have hadd := h.refs.add hout new ⟨new.length % 256, false⟩ hnodup (by simp [hzero])
  have hgives : ∀ idx, ({ s.setStatus b ⟨new.length % 256, false⟩ with
      notify := .notifying b hasCb } : Stream).giving idx = if b = idx then new else [] :=
    fun idx => rfl
  refine ⟨?_, fun idx htaken => ?_, fun idx hunlinked => ?_, fun idx hqueue i hmem => ?_,
    h.calling⟩
  · refine (hadd.perm fun idx => ?_).of_eq rfl rfl rfl rfl rfl rfl
    rw [holders_update, holders_renotify, hgives]
    refine List.perm_append_comm.trans (.of_eq (congrArg _ ?_))
    simp only [holders, hgiving, List.append_nil]
    rfl
  · obtain hread | ⟨_, hread⟩ := htaken <;> cases hread
  · have heq : b = idx := by
      obtain ⟨_, hread | hread⟩ := hunlinked
      · exact (Notify.notifying.inj hread).1
      · cases hread
    intro hmem
    have : Holder.linked ∈ s.holders b := mem_holders.mpr (.inl (heq ▸ hmem))
    rw [hnone] at this
    cases this
  · rw [hgives] at hqueue
    obtain hqueue | hqueue := hqueue
    · exact h.uncalled idx (.inl hqueue) i hmem
    · split at hqueue
      · rename_i heq
        have : Holder.user i ∈ s.holders b := mem_holders.mpr (.inl (heq ▸ hmem))
        rw [hnone] at this
        cases this
      · cases hqueue

theorem Inv.notifyChannel {s : Stream} (h : s.Inv) {b : Nat} {hasCb : Bool}
    (hnotify : s.notify = .notifying b hasCb) {notified : Bool} (hok : s.isBundled → notified) :
    (s.dataNotify notified).Inv := by
  have hunlinked : ∀ idx,
      ({ s with notify := .linking b hasCb } : Stream).Unlinked idx → s.Unlinked idx := by
    rintro idx ⟨c, hread | hread⟩
    · cases hread
    · exact ⟨c, .inl (hnotify.trans (by simp_all))⟩
  simp only [Stream.dataNotify, hnotify]
  by_cases hbundled : s.isBundled
  · rw [if_pos ⟨hbundled, hok hbundled⟩]
    have hgives : ∀ idx, ({ s.deliver b .channel with notify := .linking b hasCb } : Stream).giving
        idx = if b = idx ∧ hasCb then [.cmdThread] else [] := fun idx => rfl
    have hgiving : ∀ idx, s.giving idx = (if b = idx then [.channel] else []) ++
        if b = idx ∧ hasCb then [.cmdThread] else [] := by
      intro idx
      simp only [giving, hnotify, if_pos hbundled]
      by_cases hidx : b = idx <;> simp [hidx]
    refine ⟨?_, fun idx htaken => ?_, fun idx hidx => ?_, fun idx hqueue i hmem => ?_,
      fun idx n hdispatch i hi hmem => ?_⟩
    · refine (h.refs.perm fun idx => ?_).of_eq rfl rfl rfl rfl rfl rfl
      rw [holders_renotify, heldBy_deliver, hgives, List.perm_iff_count]
      intro who
      simp only [holders, hgiving, List.count_append]
      show _ + List.count who (List.map _ (List.filter _ s.cmdQueue)) +
        List.count who (s.dispatching idx) + _ = _
      omega
    · obtain hread | ⟨_, hread⟩ := htaken <;> cases hread
    · exact fun hmem => h.unlinked idx (hunlinked idx hidx) (by simpa [deliver] using hmem)
    · refine h.uncalled idx ?_ i (by simpa [deliver] using hmem)
      obtain hqueue | hqueue := hqueue
      · exact .inl hqueue
      simp_all
    · exact h.calling idx n hdispatch i hi (by simpa [deliver] using hmem)
  · rw [if_neg fun hand => hbundled hand.1]
    refine h.renotify (fun idx => ?_) (fun idx htaken => ?_) hunlinked
    · simp only [giving, hnotify, if_neg hbundled]
      by_cases hidx : b = idx <;> simp [hidx]
    · obtain hread | ⟨_, hread⟩ := htaken <;> cases hread

theorem Inv.notifyLinked {s : Stream} (h : s.Inv) {b : Nat} {hasCb : Bool}
    (hnotify : s.notify = .linking b hasCb) {notified : Bool}
    (hok : s.isLinked → notified ∧ b ∉ s.kernel) : (s.dataNotify notified).Inv := by
  have hgiving : ∀ idx, s.giving idx = if b = idx ∧ hasCb then [.cmdThread] else [] :=
    fun idx => by simp only [giving, hnotify]
  simp only [Stream.dataNotify, hnotify]
  by_cases hlinked : s.isLinked
  · obtain ⟨hnotified, hout⟩ := hok hlinked
    rw [if_pos hlinked, if_pos hnotified]
    have hnew : Holder.linked ∉ s.holders b := by
      rw [mem_holders, hgiving]
      rintro (hmem | ⟨_, hwho⟩ | hwho | hwho)
      · exact h.unlinked b ⟨hasCb, .inr hnotify⟩ hmem
      · cases hwho
      · unfold dispatching at hwho
        split at hwho
        · cases hwho
        · split at hwho <;> simp at hwho
      · split at hwho <;> simp at hwho
    have hadd := h.refs.add hout [.linked]
      { s.bufStatus b with bufRefcnt := ((s.bufStatus b).bufRefcnt + 1) % 256 }
      (List.nodup_cons.mpr ⟨hnew, h.refs.distinct b⟩) rfl
    refine ⟨?_, fun idx htaken => ?_, fun idx hidx => ?_, fun idx hqueue i hmem => ?_,
      fun idx n hdispatch i hi hmem => ?_⟩
    · refine (hadd.perm fun idx => .of_eq ?_).of_eq rfl rfl rfl rfl rfl rfl
      have hgives : ({ (s.addRef b 1).deliver b .linked with
          notify := .queueing b hasCb } : Stream).giving idx = s.giving idx := (hgiving idx).symm
      rw [holders_update, holders_renotify, heldBy_deliver, hgives]
      simp only [holders, List.append_assoc]
      rfl
    · obtain hread | ⟨_, hread⟩ := htaken <;> cases hread
    · obtain ⟨_, hread | hread⟩ := hidx <;> cases hread
    · refine h.uncalled idx ?_ i (by simpa [deliver, addRef, setStatus] using hmem)
      obtain hqueue | hqueue := hqueue
      · exact .inl hqueue
      · right
        rw [hgiving]
        exact hqueue
    · exact h.calling idx n hdispatch i hi (by simpa [deliver, addRef, setStatus] using hmem)
  · rw [if_neg hlinked]
    refine h.renotify (fun idx => (hgiving idx).symm) (fun idx htaken => ?_) fun idx hidx => ?_
    · obtain hread | ⟨_, hread⟩ := htaken <;> cases hread
    · obtain ⟨_, hread | hread⟩ := hidx <;> cases hread

theorem Inv.enqueue {s : Stream} (h : s.Inv) {b : Nat} {hasCb : Bool}
    (hnotify : s.notify = .queueing b hasCb) {notified : Bool} (hok : hasCb → notified) :
    (s.dataNotify notified).Inv := by
  simp only [Stream.dataNotify, hnotify]
  by_cases hcb : hasCb
  · rw [if_pos ⟨hcb, hok hcb⟩]
    have hgiving : ∀ idx, s.giving idx = if b = idx then [.cmdThread] else [] :=
      fun idx => by simp only [giving, hnotify, hcb, and_true]
    refine ⟨?_, fun idx htaken => ?_, fun idx hidx => ?_, fun idx hqueue => ?_, h.calling⟩
    · refine (h.refs.perm fun idx => ?_).of_eq rfl rfl rfl rfl rfl rfl
      refine (holders_enqueue { s with notify := .idle } b idx).trans ?_
      rw [← hgiving]
      exact (holders_notify s idx).symm
    · obtain hread | ⟨_, hread⟩ := htaken <;> cases hread
    · obtain ⟨_, hread | hread⟩ := hidx <;> cases hread
    · obtain hqueue | hqueue := hqueue
      · obtain hqueue | hlast := List.mem_append.mp hqueue
        · exact h.uncalled idx (.inl hqueue)
        · refine h.uncalled idx (.inr ?_)
          simp_all
      · cases hqueue
  · rw [if_neg fun hand => hcb hand.1]
    refine h.renotify (fun idx => ?_) (fun idx htaken => ?_) fun idx hidx => ?_
    · simp [giving, hnotify, hcb]
    · obtain hread | ⟨_, hread⟩ := htaken <;> cases hread
    · obtain ⟨_, hread | hread⟩ := hidx <;> cases hread

theorem Inv.dataNotify {s : Stream} (h : s.Inv) {notified : Bool}
    (hok : s.Timely (.dataNotify notified)) : (s.dataNotify notified).Inv := by
  simp only [Timely] at hok
  cases hnotify : s.notify with
  | idle =>
    simp only [Stream.dataNotify, hnotify]
    exact h
  | read b =>
    simp only [Stream.dataNotify, hnotify]
    refine h.renotify (fun idx => ?_) (fun idx htaken => ?_) fun idx hidx => ?_
    · simp only [giving, hnotify]
    · obtain hread | ⟨_, hread⟩ := htaken
      · cases hread
      · exact .inl (hnotify.trans (congrArg _ (Notify.checked.inj hread).1))
    · obtain ⟨_, hread | hread⟩ := hidx <;> cases hread
  | checked b hasCb => exact h.count hnotify notified
  | notifying b hasCb =>
    rw [hnotify] at hok
    exact h.notifyChannel hnotify hok
  | linking b hasCb =>
    rw [hnotify] at hok
    exact h.notifyLinked hnotify hok
  | queueing b hasCb =>
    rw [hnotify] at hok
    exact h.enqueue hnotify hok

/-! ## Returns and callbacks -/

theorem giveBack_frame (s : Stream) (b : Nat) (result : QbufResult) :
    ∃ status count polled kernel requeued lastReturns, s.giveBack b result =
      { s with
        bufStatus := status
        queuedBufferCount := count
        polled := polled
        kernel := kernel
        requeued := requeued
        lastReturns := lastReturns } ∧ ∀ x ∈ kernel, x ∈ s.kernel ∨ x = b := by
  have hdone : ∀ t : Stream, ∃ status count polled kernel requeued, t.bufDone b result =
      { t with
        bufStatus := status
        queuedBufferCount := count
        polled := polled
        kernel := kernel
        requeued := requeued } ∧ ∀ x ∈ kernel, x ∈ t.kernel ∨ x = b := by
    intro t
    unfold bufDone
    dsimp only
    split
    · exact ⟨_, _, _, _, _, rfl, fun x hx => .inl hx⟩
    · split
      · obtain ⟨c, p, k, hq⟩ := qbuf_frame (t.setStatus b
          { t.bufStatus b with bufRefcnt := (t.bufStatus b).bufRefcnt - 1 }) b result
        grind [kernel_qbuf, setStatus]
      · exact ⟨_, _, _, _, _, rfl, fun x hx => .inl hx⟩
  unfold giveBack
  split
  · obtain ⟨st, c, p, k, r, hs, hmem⟩ := hdone { s with lastReturns := b :: s.lastReturns }
    exact ⟨st, c, p, k, r, _, hs, hmem⟩
  · obtain ⟨st, c, p, k, r, hs, hmem⟩ := hdone s
    exact ⟨st, c, p, k, r, _, hs, hmem⟩

theorem Inv.giveBack {s t : Stream} (h : s.Inv) {b : Nat} {who : Holder}
    (hrefs : t.Refs s.holders) (hkernel : t.kernel = s.kernel)
    (hholders : ∀ idx, (s.holders idx).Perm ((if b = idx then [who] else []) ++ t.holders idx))
    (hnotify : t.notify = s.notify) (hbundled : t.isBundled = s.isBundled)
    (hqueue : t.cmdQueue = s.cmdQueue) (hheld : ∀ g ∈ t.held, g ∈ s.held)
    (hdispatch : ∀ idx n, t.dispatch = .running idx n → s.dispatch = .running idx n)
    (result : QbufResult) : (t.giveBack b result).Inv := by
  have hb : (s.holders b).Perm (who :: t.holders b) := by
    simpa only [if_true, List.singleton_append] using hholders b
  have hreturned := hrefs.giveBack hb rfl result
  obtain ⟨st, c, p, k, r, l, hs, hmem⟩ := giveBack_frame t b result
  rw [hs] at hreturned ⊢
  refine ⟨?_, fun idx htaken => ?_, fun idx hidx hin => ?_, fun idx hwait i hin => ?_,
    fun idx n hrunning i hi hin => ?_⟩
  · refine hreturned.perm fun idx => ?_
    have hidx := hholders idx
    by_cases heq : idx = b
    · subst heq
      rw [Function.update_self]
      rfl
    · rw [if_neg (Ne.symm heq), List.nil_append] at hidx
      rw [Function.update_of_ne heq]
      exact hidx.symm
  · have htaken' : s.Taken idx := by
      simp_all [Taken]
    obtain ⟨hout, hnone⟩ := h.taken idx htaken'
    have hne : idx ≠ b := by
      intro heq
      simp_all
    refine ⟨fun hin => ?_, ?_⟩
    · obtain hin | heq := hmem idx hin
      · exact hout (hkernel ▸ hin)
      · exact hne heq
    · have hidx := hholders idx
      rw [if_neg (Ne.symm hne), List.nil_append, hnone] at hidx
      exact List.nil_perm.mp hidx
  · refine h.unlinked idx ?_ (hheld _ hin)
    simp_all [Unlinked]
  · refine h.uncalled idx ?_ i (hheld _ hin)
    simp_all [giving]
  · exact h.calling idx n (hdispatch idx n hrunning) i hi (hheld _ hin)

theorem Inv.bufDone {s : Stream} (h : s.Inv) {b : Nat} {who : Holder} (hmem : (b, who) ∈ s.held)
    (result : QbufResult) :
    (({ s with held := s.held.erase (b, who) } : Stream).giveBack b result).Inv :=
  h.giveBack (t := { s with held := s.held.erase (b, who) })
    (h.refs.of_eq rfl rfl rfl rfl rfl rfl) rfl (fun idx => holders_erase s b idx hmem)
    rfl rfl rfl (fun _ hg => List.mem_of_mem_erase hg) (fun _ _ hrunning => hrunning) result

theorem Inv.startDispatch {s : Stream} (h : s.Inv) {b : Nat} {rest : List Nat}
    (hidle : s.dispatch = .idle) (hqueue : s.cmdQueue = b :: rest) :
    ({ s with cmdQueue := rest, dispatch := .running b 0 } : Stream).Inv := by
  have hholders : ∀ idx, (({ s with cmdQueue := rest, dispatch := .running b 0 } : Stream).holders
      idx).Perm (s.holders idx) := by
    intro idx
    refine (holders_dispatch _ b idx (i := 0) rfl).trans ?_
    refine .trans (.of_eq ?_) (holders_dequeue s b idx hqueue).symm
    simp only [holders, dispatching, hidle]
  refine ⟨?_, fun idx htaken => ?_, h.unlinked, fun idx hwait => ?_, fun idx n hrunning i _ => ?_⟩
  · exact (h.refs.perm hholders).of_eq rfl rfl rfl rfl rfl rfl
  · obtain ⟨hout, hnone⟩ := h.taken idx htaken
    exact ⟨hout, List.perm_nil.mp (hnone ▸ hholders idx)⟩
  · refine h.uncalled idx (hwait.imp_left fun hmem => ?_)
    simp [hqueue, hmem]
  · refine h.uncalled idx (.inl ?_) i
    simp_all

/-- The buffer that is dispatched is not in the queue of the command thread, and it is not about to
be put there. -/
theorem Inv.dispatched {s : Stream} (h : s.Inv) {b n : Nat}
    (hdispatch : s.dispatch = .running b n) :
    b ∉ s.cmdQueue ∧ Holder.cmdThread ∉ s.giving b := by
  have hdistinct := (holders_dispatch s b b hdispatch).nodup_iff.mp (h.refs.distinct b)
  rw [if_pos rfl, List.singleton_append, List.nodup_cons, mem_holders] at hdistinct
  exact ⟨fun hmem => hdistinct.1 (.inr (.inl ⟨hmem, rfl⟩)),
    fun hmem => hdistinct.1 (.inr (.inr (.inr hmem)))⟩

theorem Inv.callback {s : Stream} (h : s.Inv) {b n : Nat} (hdispatch : s.dispatch = .running b n)
    (hn : n < bufCbMax) :
    ({ s.callback b ⟨n, hn⟩ with dispatch := .running b (n + 1) } : Stream).Inv := by
  have hmove : ∀ cbs : Fin bufCbMax → Option Int,
      ({ s with bufCb := cbs, dispatch := .running b (n + 1) } : Stream).Inv := by
    intro cbs
    have hholders : ∀ idx, ({ s with bufCb := cbs, dispatch := .running b (n + 1) } :
        Stream).holders idx = s.holders idx := by
      intro idx
      simp only [holders, dispatching, hdispatch]
      rfl
    refine ⟨?_, fun idx htaken => ?_, h.unlinked, h.uncalled, fun idx m hrunning i hi => ?_⟩
    · exact (h.refs.perm fun idx => .of_eq (hholders idx)).of_eq rfl rfl rfl rfl rfl rfl
    · rw [hholders]
      exact h.taken idx htaken
    · obtain ⟨rfl, rfl⟩ := Dispatch.running.inj hrunning
      exact h.calling b n hdispatch i (by omega)
  unfold Stream.callback
  split
  · exact hmove s.bufCb
  · rename_i count _
    split
    · have hmem : Holder.cmdThread ∈ s.holders b := by
        rw [mem_holders]
        simp [dispatching, hdispatch]
      have hout : b ∉ s.kernel := by
        intro hin
        rw [(h.refs.kernel b hin).2] at hmem
        cases hmem
      have hnew : Holder.user ⟨n, hn⟩ ∉ s.holders b := by
        rw [mem_holders]
        rintro (hheld | ⟨_, hwho⟩ | hwho | hwho)
        · exact h.calling b n hdispatch ⟨n, hn⟩ le_rfl hheld
        · cases hwho
        · simp [dispatching, hdispatch] at hwho
        grind [giving]
      have hadd := h.refs.add hout [.user ⟨n, hn⟩]
        { s.bufStatus b with bufRefcnt := ((s.bufStatus b).bufRefcnt + 1) % 256 }
        (List.nodup_cons.mpr ⟨hnew, h.refs.distinct b⟩) rfl
      set cbs := Function.update s.bufCb ⟨n, hn⟩ (countDown count)
      have hholders : ∀ idx, ({ (s.addRef b 1).deliver b (.user ⟨n, hn⟩) with
          bufCb := cbs
          dispatch := .running b (n + 1) } : Stream).holders idx =
            (if b = idx then [.user ⟨n, hn⟩] else []) ++ s.holders idx := by
        intro idx
        have hdispatching : ({ (s.addRef b 1).deliver b (.user ⟨n, hn⟩) with
            bufCb := cbs
            dispatch := .running b (n + 1) } : Stream).dispatching idx = s.dispatching idx := by
          simp only [dispatching, hdispatch]
        rw [← holders_deliver]
        unfold holders
        rw [hdispatching]
        rfl
      have hheld : ∀ {idx who}, (idx, who) ∈ ((s.addRef b 1).deliver b (.user ⟨n, hn⟩)).held →
          (idx = b ∧ who = .user ⟨n, hn⟩) ∨ (idx, who) ∈ s.held := by
        simp [deliver, addRef, setStatus]
      refine ⟨?_, fun idx htaken => ?_, fun idx hidx hin => ?_, fun idx hwait i hin => ?_,
        fun idx m hrunning i hi hin => ?_⟩
      · refine (hadd.perm fun idx => .of_eq ?_).of_eq rfl rfl rfl rfl rfl rfl
        rw [holders_update]
        exact hholders idx
      · obtain ⟨hidx, hnone⟩ := h.taken idx htaken
        have hne : b ≠ idx := by
          intro heq
          simp_all
        exact ⟨hidx, (hholders idx).trans (by rw [if_neg hne, List.nil_append, hnone])⟩
      · obtain ⟨_, hwho⟩ | hin := hheld hin
        · cases hwho
        · exact h.unlinked idx hidx hin
      · obtain ⟨rfl, _⟩ | hin := hheld hin
        · exact hwait.elim (h.dispatched hdispatch).1 (h.dispatched hdispatch).2
        · exact h.uncalled idx hwait i hin
      · obtain ⟨rfl, rfl⟩ := Dispatch.running.inj hrunning
        obtain ⟨_, hwho⟩ | hin := hheld hin
        · have : i.val = n := congrArg Fin.val (Holder.user.inj hwho)
          omega
        · exact h.calling b n hdispatch i (by omega) hin
    · exact hmove _

theorem Inv.dispatchAppData {s : Stream} (h : s.Inv) (result : QbufResult) :
    (s.dispatchAppData result).Inv := by
  unfold Stream.dispatchAppData
  split
  · rename_i hidle
    split
    · exact h
    · rename_i b rest hqueue
      exact h.startDispatch hidle hqueue
  · rename_i b n hdispatch
    split
    · rename_i hn
      exact h.callback hdispatch hn
    · refine h.giveBack (t := { s with dispatch := .idle }) (h.refs.of_eq rfl rfl rfl rfl rfl rfl)
        rfl (fun idx => holders_dispatch s b idx hdispatch) rfl rfl rfl (fun _ hg => hg) ?_ result
      simp

/-! ## Runs -/

theorem Unregistered.regBuf {s₀ : Stream} (h : s₀.Unregistered) {regFlags : Nat → Bool}
    {result : Nat → QbufResult} (n : Nat) : ∀ s, regBuf regFlags result s₀ n = some s →
      s.Refs s.holders ∧ (s.notify = .idle ∧ s.dispatch = .idle ∧ s.cmdQueue = []) ∧
        (∀ g ∈ s.held, g.2 = .client) ∧ (∀ idx, n ≤ idx → idx ∉ s.kernel ∧ s.holders idx = []) := by
  induction n with
  | zero =>
    intro s hs
    cases hs
    obtain ⟨hcount, hpolled, hkernel⟩ := h.queue
    obtain ⟨hnotify, hdispatch, hqueue⟩ := h.threads
    obtain ⟨hheld, hrequeued, hreturns⟩ := h.history
    have hholders : ∀ idx, s₀.holders idx = [] := by
      simp_all [holders, heldBy, dispatching, giving]
    refine ⟨⟨fun idx => ?_, fun idx => ?_, fun idx hidx => ?_, ?_, ?_, ⟨?_, ?_⟩⟩, h.threads,
      fun g hg => ?_, fun idx _ => ⟨?_, hholders idx⟩⟩
    · rw [hholders, h.status, List.length_nil]
    · simp_all
    · rw [hkernel] at hidx
      cases hidx
    · simp_all
    · rw [hrequeued, hreturns]
    · rw [hcount, hkernel]
      rfl
    · simp [hcount, hpolled]
    · rw [hheld] at hg
      cases hg
    simp [hkernel]
  | succ n ih =>
    intro s hs
    simp only [Stream.regBuf] at hs
    split at hs
    · cases hs
    · rename_i t ht
      obtain ⟨hrefs, ⟨hnotify, hdispatch, hqueue⟩, hclient, hlater⟩ := ih t ht
      obtain ⟨hout, hnone⟩ := hlater n le_rfl
      split at hs
      · split at hs
        · rename_i hresult
          cases hs
          obtain ⟨c, p, k, hq⟩ := qbuf_frame t n (result n)
          have hkernel := kernel_qbuf t n (result n)
          have hqueued := hrefs.queue.qbuf n (result n)
          rw [hq] at hkernel hqueued ⊢
          have hk : k = t.kernel ++ [n] := hkernel.trans (if_pos hresult)
          subst hk
          refine ⟨⟨fun idx => ?_, hrefs.distinct, fun idx hidx => ?_, ?_, hrefs.requeued,
            ⟨hqueued.count, hqueued.polled⟩⟩, ⟨hnotify, hdispatch, hqueue⟩, hclient,
            fun idx hidx => ?_⟩
          · by_cases heq : idx = n
            · subst heq
              simp only [setStatus, Function.update_self]
              exact (congrArg List.length hnone).symm
            · simp only [setStatus, Function.update_of_ne heq]
              exact hrefs.refs idx
          · by_cases heq : idx = n
            · subst heq
              simp only [setStatus, Function.update_self, true_and]
              exact hnone
            · have hin : idx ∈ t.kernel := by simpa [setStatus, heq] using hidx
              simp only [setStatus, Function.update_of_ne heq]
              exact hrefs.kernel idx hin
          · refine List.nodup_append.mpr ⟨hrefs.once, List.nodup_singleton n, ?_⟩
            intro x hx y hy hxy
            exact hout (List.mem_singleton.mp hy ▸ hxy ▸ hx)
          · obtain ⟨hidx', hnone'⟩ := hlater idx (by omega)
            have hne : idx ≠ n := by omega
            exact ⟨by simpa [setStatus, hne] using hidx', hnone'⟩
        · cases hs
      · cases hs
        have hadd := hrefs.add hout [.client] ⟨1, false⟩
          (by rw [hnone]; decide) (by rw [hrefs.refs, hnone]; rfl)
        refine ⟨?_, ⟨hnotify, hdispatch, hqueue⟩, fun g hg => ?_, fun idx hidx => ?_⟩
        · refine (hadd.perm fun idx => .of_eq ?_).of_eq rfl rfl rfl rfl rfl rfl
          rw [holders_update, holders_deliver]
          rfl
        · obtain rfl | hg := List.mem_cons.mp hg
          · rfl
          · exact hclient g hg
        · obtain ⟨hidx', hnone'⟩ := hlater idx (by omega)
          refine ⟨hidx', ?_⟩
          rw [holders_deliver, if_neg (by omega)]
          exact hnone'

theorem inv_invariant : (system.restrict Timely).Invariant Inv := by
  refine .of_restrict ?_ ?_
  · rintro s ⟨bufNum, regFlags, result, s₀, h₀, hs⟩
    obtain ⟨hrefs, ⟨hnotify, hdispatch, hqueue⟩, hclient, _⟩ := h₀.regBuf bufNum s hs
    have hother : ∀ {idx who}, (idx, who) ∈ s.held → who = .client := fun hg => hclient _ hg
    refine ⟨hrefs, fun idx htaken => ?_, fun idx _ hmem => ?_, fun idx _ i hmem => ?_,
      fun idx n _ i _ hmem => ?_⟩
    · obtain hread | ⟨_, hread⟩ := htaken <;> exact absurd (hnotify.symm.trans hread) nofun
    · cases hother hmem
    · cases hother hmem
    · cases hother hmem
  · rintro s op s' h hok ⟨hen, rfl⟩
    cases op with
    | readMsmFrame frame => exact h.readMsmFrame hen.1 hen.2
    | dataNotify notified => exact h.dataNotify hok
    | dispatchAppData result => exact h.dispatchAppData result
    | bufDone idx who result => exact h.bufDone hen result
    | regBufCb count =>
      simp only [exec, Stream.regBufCb]
      split
      · exact h
      · exact ⟨h.refs.of_eq rfl rfl rfl rfl rfl rfl, h.taken, h.unlinked, h.uncalled, h.calling⟩
    | link isLinked =>
      exact ⟨h.refs.of_eq rfl rfl rfl rfl rfl rfl, h.taken, h.unlinked, h.uncalled, h.calling⟩

/-- Every reachable stream owns its buffers, as long as each notification is made and the linked
channel is not given a buffer that was queued back. -/
theorem owned_of_reachable {s : Stream} (hs : (system.restrict Timely).Reachable s) : s.Owned := by
  have h := inv_invariant.reachable hs
  refine ⟨fun idx => ?_, h.refs.once, h.refs.requeued, h.refs.queue.count, h.refs.queue.polled⟩
  by_cases hidx : idx ∈ s.kernel
  · obtain ⟨hflag, hnone⟩ := h.refs.kernel idx hidx
    have hrefs := h.refs.refs idx
    rw [hnone] at hrefs
    refine .inl ⟨hidx, ?_, hnone⟩
    cases hstatus : s.bufStatus idx
    simp_all
  · exact .inr ⟨hidx, h.refs.refs idx⟩

def linkedStream : Stream where
  isBundled := true
  isLinked := true
  bufCb := fun _ => none
  bufStatus := Function.update (fun _ => ⟨0, false⟩) 0 ⟨0, true⟩
  queuedBufferCount := 1
  polled := true
  cmdQueue := []
  notify := .idle
  dispatch := .idle
  kernel := [0]
  held := []
  requeued := []
  lastReturns := []

theorem initial_linkedStream : linkedStream.Initial :=
  ⟨1, fun _ => true, fun _ => .queued,
    { linkedStream with
      bufStatus := fun _ => ⟨0, false⟩, queuedBufferCount := 0, polled := false, kernel := [] },
    ⟨fun _ => rfl, ⟨rfl, rfl, rfl⟩, ⟨rfl, rfl, rfl⟩, ⟨rfl, rfl, rfl⟩⟩, rfl⟩

/-- Both channels and a callback that is called once get a frame and return it, and the last return
queues the buffer back. -/
theorem owned_of_reachable_threeHolders : ∃ s : Stream, (system.restrict Timely).Reachable s ∧
    s.Owned ∧ s.held = [] ∧ s.requeued = [0] ∧ s.kernel = [0] := by
  have hrun : (System.follow (fun s op => Timely s op ∧ Enabled s op) exec
      [.regBufCb 1, .readMsmFrame (some (0, true)), .dataNotify true, .dataNotify true,
        .dataNotify true, .dataNotify true, .bufDone 0 .channel .queued, .dataNotify true,
        .dispatchAppData .queued, .dispatchAppData .queued, .bufDone 0 .linked .queued,
        .dispatchAppData .queued, .dispatchAppData .queued, .dispatchAppData .queued,
        .dispatchAppData .queued, .bufDone 0 (.user 0) .queued]
      linkedStream).any (fun s => s.held = [] ∧ s.requeued = [0] ∧ s.kernel = [0]) = true := by
    decide +kernel
  obtain ⟨s, hs, hend⟩ := (Option.any_eq_true _ _).mp hrun
  have hinit : (system.restrict Timely).Reachable linkedStream := .init initial_linkedStream
  have hreach := System.reachable_follow _ hinit hs
  have hend := of_decide_eq_true hend
  exact ⟨s, hreach, owned_of_reachable hreach, hend.1, hend.2.1, hend.2.2⟩

/-- The channel of the bundle returns the buffer before the linked channel is given it. The buffer
is queued back while the linked channel has it. -/
theorem not_owned : ¬ ∀ s : Stream, system.Reachable s → s.Owned := by
  intro howned
  have hrun : (System.follow (fun s op => True ∧ Enabled s op) exec
      [.readMsmFrame (some (0, true)), .dataNotify true, .dataNotify true, .dataNotify true,
        .bufDone 0 .channel .queued, .dataNotify true]
      linkedStream).any (fun s => 0 ∈ s.kernel ∧ (0, .linked) ∈ s.held) = true := by
    decide +kernel
  obtain ⟨s, hs, hend⟩ := (Option.any_eq_true _ _).mp hrun
  have hinit : (system.restrict fun _ _ => True).Reachable linkedStream :=
    .init initial_linkedStream
  have hreach := (System.reachable_follow _ hinit hs).of_restrict
  obtain ⟨hqueued, hlinked⟩ := of_decide_eq_true hend
  obtain ⟨_, _, hnone⟩ | ⟨hout, _⟩ := (howned s hreach).accounted 0
  · have : Holder.linked ∈ s.holders 0 := mem_holders.mpr (.inl hlinked)
    rw [hnone] at this
    cases this
  · exact hout hqueued

end Stream

end EtherDevice.MmStream
