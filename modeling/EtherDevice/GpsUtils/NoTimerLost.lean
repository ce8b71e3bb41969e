import EtherDevice.GpsUtils.NeverEarly

/-!
# The time set on the timerfd

When nothing is pending, the soonest timer has its time set on a polled timerfd. This holds in
every run: `updateSoonestTime` sets the time when the top gets sooner, when it goes, and at the
end of an expiry.

That an empty heap has no time set is true only in some runs. `MsgTimerRemove` and
`MsgTimerExpire` ask with no prior top, and without a current top either `updateSoonestTime`
sees no change and leaves the timerfd as it is. `Disarmed` is the condition on a step that the
time is gone by then.
-/

namespace EtherDevice.GpsUtils.LocTimers

open Lib Lib.PriorityQueue

variable {s : LocTimers}

/-- No message is queued or under way, and no expiry is about to send one. -/
structure NothingPending (s : LocTimers) : Prop where
  queue : s.queue = []
  msgTask : s.msgTask = .idle
  pollTask : s.pollTask = .waiting ∨ s.pollTask = .woken

/-- The time set is not later than the top's, and the poll task waits for it. -/
def ArmedFor (s : LocTimers) (timer : Delegate) : Prop :=
  s.polled = true ∧ ∃ time ∈ s.armed, time.toNs ≤ timer.mFutureTime.toNs

/-- With nothing pending, the soonest timer is not lost. -/
def SoonestArmed (s : LocTimers) : Prop :=
  s.NothingPending → ∀ top, s.heap.peek = some top → s.ArmedFor top

/-- With nothing pending, a container without timers has no time set. -/
def EmptyDisarmed (s : LocTimers) : Prop :=
  s.NothingPending → s.heap.peek = none → s.armed = none

def ExpiryPending (s : LocTimers) : Prop :=
  .timerExpire ∈ s.queue ∨ s.msgTask ≠ .idle ∨ s.pollTask = .disarmed ∨ s.pollTask = .unpolled

structure ArmedInv (s : LocTimers) : Prop where
  heap : s.HeapInv
  armed : s.ExpiryPending ∨ ∀ timer ∈ s.heap.elements, s.ArmedFor timer

theorem ArmedInv.of_clientStep {s' : LocTimers} (h : s.ArmedInv) (hheap : s'.HeapInv)
    (hstep : s.ClientStep s') : s'.ArmedInv := by
  refine ⟨hheap, ?_⟩
  obtain ⟨sent, hsent⟩ := hstep.queue
  unfold ExpiryPending ArmedFor
  rw [hstep.heap, hstep.armed, hstep.polled, hstep.msgTask, hstep.pollTask, hsent]
  exact h.armed.imp_left fun hpending => hpending.imp_left (List.mem_append_left sent)

theorem armedFor_settime {top timer : Delegate} (htop : Tops Delegate.outRanks top s.heap.elements)
    (hmade : s.Made top) (hmem : timer ∈ s.heap.elements) :
    (s.addPoll.settime top.mFutureTime).ArmedFor timer := by
  refine ⟨rfl, top.mFutureTime, ?_, Delegate.toNs_le_of_tops htop hmem⟩
  have hpos := hmade.2
  have hne : ¬ (top.mFutureTime.tvSec = 0 ∧ top.mFutureTime.tvNsec = 0) := by
    unfold Timespec.toNs at hpos
    omega
  simp only [settime, if_neg hne]
  rfl

theorem ArmedFor.of_le {timer timer' : Delegate} (h : s.ArmedFor timer)
    (hle : timer.mFutureTime.toNs ≤ timer'.mFutureTime.toNs) : s.ArmedFor timer' := by
  obtain ⟨hpolled, time, htime, hearly⟩ := h
  exact ⟨hpolled, time, htime, Nat.le_trans hearly hle⟩

theorem armedFor_updateSoonestTime (h : s.HeapInv) {priorTop : Option Delegate}
    (hprior : ∀ prior, priorTop = some prior → s.ArmedFor prior) {timer : Delegate}
    (hmem : timer ∈ s.heap.elements) : (s.updateSoonestTime priorTop).ArmedFor timer := by
  rcases LocHeap.peek_cases h.wellFormed with ⟨top, hpeek, htopmem, htop⟩ | ⟨-, hempty⟩
  · have hset := armedFor_settime htop (h.stored top htopmem) hmem
    have hsoonest := Delegate.toNs_le_of_tops htop hmem
    unfold updateSoonestTime
    simp only [hpeek]
    split
    · cases priorTop with
      | none => exact hset
      | some prior =>
        dsimp only
        split
        · exact hset
        · rename_i hrank
          rw [Delegate.outRanks_iff] at hrank
          exact (hprior prior rfl).of_le (by omega)
    · rename_i hsame
      rw [not_not] at hsame
      exact (hprior top hsame.symm).of_le hsoonest
  simp_all

theorem expiryPending_updateSoonestTime (priorTop : Option Delegate) (h : s.ExpiryPending) :
    (s.updateSoonestTime priorTop).ExpiryPending := by
  obtain ⟨armed, polled, heq⟩ := updateSoonestTime_eq s priorTop
  rw [heq]
  exact h

theorem armedInv_procPush {mTimer : Delegate} (h : s.ArmedInv) (hmade : s.Made mTimer) :
    (s.procPush mTimer).ArmedInv := by
  have hheap := heapInv_push h.heap hmade
  refine ⟨heapInv_updateSoonestTime hheap _, ?_⟩
  rcases h.armed with hpending | harmed
  · exact .inl (expiryPending_updateSoonestTime s.heap.peek hpending)
  · refine .inr fun timer hmem => armedFor_updateSoonestTime hheap (fun prior hprior => ?_) ?_
    · rcases LocHeap.peek_cases h.heap.wellFormed with ⟨top, hpeek, htopmem, -⟩ | ⟨hpeek, -⟩
      · have hsame : top = prior := Option.some.inj (hpeek.symm.trans hprior)
        exact harmed prior (hsame ▸ htopmem)
      · cases hpeek.symm.trans hprior
    · obtain ⟨armed, polled, heq⟩ := procPush_eq s mTimer
      rw [heq] at hmem
      exact hmem

theorem armedInv_procRemove {mTimer : Delegate} (h : s.ArmedInv) :
    (s.procRemove mTimer).ArmedInv := by
  have hle := LocHeap.elements_remove_le (x := mTimer) h.heap.wellFormed
  have hheap := heapInv_remove h.heap mTimer
  unfold procRemove
  dsimp only
  split
  · refine ⟨heapInv_updateSoonestTime hheap _, ?_⟩
    rcases h.armed with hpending | harmed
    · exact .inl (expiryPending_updateSoonestTime none hpending)
    · refine .inr fun timer hmem => armedFor_updateSoonestTime hheap (fun prior hprior => ?_) ?_
      · cases hprior
      · obtain ⟨armed, polled, heq⟩ := updateSoonestTime_eq
          { s with heap := (s.heap.remove Delegate.outRanks mTimer).2 } none
        rw [heq] at hmem
        exact hmem
  · exact ⟨hheap, h.armed.imp_right fun harmed timer hmem =>
      harmed timer (Multiset.mem_of_le hle hmem)⟩

theorem ArmedInv.tail {msg : LocMsg} (h : s.ArmedInv) (hidle : s.msgTask = .idle)
    (hhead : s.queue.head? = some msg) (hmsg : msg ≠ .timerExpire) :
    ArmedInv { s with queue := s.queue.tail } := by
  refine ⟨heapInv_tail h.heap, h.armed.imp_left ?_⟩
  rintro (hqueued | hbusy | hpoll)
  · left
    obtain ⟨queue, hqueue⟩ := List.head?_eq_some_iff.mp hhead
    rw [hqueue] at hqueued ⊢
    exact (List.mem_cons.mp hqueued).resolve_left fun heq => hmsg heq.symm
  · exact absurd hidle hbusy
  · exact .inr (.inr hpoll)

theorem armedInv_proc (h : s.ArmedInv) (henabled : Op.proc.Enabled s) : s.proc.ArmedInv := by
  have hheap := heapInv_proc h.heap
  obtain ⟨hidle, -⟩ := henabled
  unfold proc at hheap ⊢
  split
  · exact h
  · rename_i mTimer hhead
    have hmade : s.Made mTimer := h.heap.pushed mTimer (List.mem_of_mem_head? hhead)
    exact armedInv_procPush (h.tail hidle hhead (by nofun)) hmade
  · rename_i mTimer hhead
    exact armedInv_procRemove (h.tail hidle hhead (by nofun))
  · rename_i hhead
    rw [hhead] at hheap
    refine ⟨hheap, .inl (.inr (.inl ?_))⟩
    nofun

theorem armedInv_popIfOutRanks {now : Timespec} (h : s.HeapInv) :
    (s.popIfOutRanks now).ArmedInv := by
  have hheap := heapInv_popIfOutRanks h now
  refine ⟨hheap, .inl (.inr (.inl ?_))⟩
  rcases popIfOutRanks_cases s now with ⟨top, -, -, heq⟩ | ⟨-, heq⟩
  · rw [heq, popTimer_eq]
    nofun
  · rw [heq]
    nofun

theorem armedInv_expireTimer (h : s.ArmedInv) : s.expireTimer.ArmedInv := by
  unfold expireTimer
  split
  · exact ⟨{ h.heap with }, .inl (.inr (.inl (by nofun)))⟩
  · have hheap := heapInv_updateSoonestTime h.heap none
    refine ⟨{ hheap with }, .inr fun timer hmem => ?_⟩
    have hmem' : timer ∈ s.heap.elements := by
      obtain ⟨armed, polled, heq⟩ := updateSoonestTime_eq s none
      rw [heq] at hmem
      exact hmem
    exact armedFor_updateSoonestTime h.heap (fun prior hprior => by cases hprior) hmem'
  · exact h

theorem armedInv_stopClient (h : s.ArmedInv) : s.stopClient.ArmedInv := by
  unfold stopClient
  split
  · rename_i now timer client _
    have hstop := heapInv_stop h.heap client
    have hcalled : ((s.stop client).2.timeOutCallback timer).HeapInv := { hstop with }
    dsimp only
    split
    · exact armedInv_popIfOutRanks hcalled
    · exact armedInv_popIfOutRanks hstop
  · exact armedInv_popIfOutRanks h.heap
  · exact h

theorem armedInv_next {op : Op} (h : s.ArmedInv) (henabled : op.Enabled s) :
    (s.next op).ArmedInv := by
  have hheap := heapInv_next h.heap henabled
  cases op with
  | start client timeOutInMs => exact h.of_clientStep hheap (clientStep_start s client timeOutInMs)
  | stop client => exact h.of_clientStep hheap (clientStep_stop s client)
  | tick clock => exact ⟨hheap, h.armed⟩
  | wake =>
    refine ⟨hheap, h.armed.imp_left ?_⟩
    rintro (hqueued | hbusy | hpoll | hpoll)
    · exact .inl hqueued
    · exact .inr (.inl hbusy)
    · cases henabled.1.symm.trans hpoll
    · cases henabled.1.symm.trans hpoll
  | disarm => exact ⟨hheap, .inl (.inr (.inr (.inl rfl)))⟩
  | removePoll => exact ⟨hheap, .inl (.inr (.inr (.inr rfl)))⟩
  | sendExpire =>
    exact ⟨hheap, .inl (.inl (List.mem_append_right _ (List.mem_singleton_self _)))⟩
  | proc => exact armedInv_proc h henabled
  | expireTimer => exact armedInv_expireTimer h
  | stopClient => exact armedInv_stopClient h

theorem armedInv_invariant : system.Invariant ArmedInv where
  init s h := by
    refine ⟨heapInv_initial h, .inr ?_⟩
    obtain ⟨clock, -, rfl⟩ := h
    exact fun timer hmem => absurd hmem (Multiset.notMem_zero timer)
  step _ _ _ h hstep := hstep.2 ▸ armedInv_next h hstep.1

theorem ArmedInv.soonestArmed (h : s.ArmedInv) : s.SoonestArmed := by
  intro hnothing top hpeek
  rcases h.armed with (hqueued | hbusy | hpoll | hpoll) | harmed
  · rw [hnothing.queue] at hqueued
    exact absurd hqueued List.not_mem_nil
  · exact absurd hnothing.msgTask hbusy
  · rcases hnothing.pollTask with hwait | hwait
    · cases hwait.symm.trans hpoll
    · cases hwait.symm.trans hpoll
  · rcases hnothing.pollTask with hwait | hwait
    · cases hwait.symm.trans hpoll
    · cases hwait.symm.trans hpoll
  · rcases LocHeap.peek_cases h.heap.wellFormed with ⟨top', hpeek', hmem, -⟩ | ⟨hpeek', -⟩
    · simp_all
    · cases hpeek'.symm.trans hpeek

/-- Where a step leaves no timer and does not see that the last one went, the timerfd is
disarmed before. -/
def Disarmed (s : LocTimers) : Op → Prop
  | .proc => ∀ timer, s.queue.head? = some (.timerRemove timer) →
      s.heap.elements = {timer} → s.armed = none
  | .expireTimer => ∀ now, s.msgTask = .popped now none → s.heap.peek = none → s.armed = none
  | _ => True

structure EmptyInv (s : LocTimers) : Prop where
  heap : s.HeapInv
  empty : s.msgTask = .idle → s.heap.peek = none → s.armed = none

theorem updateSoonestTime_none (h : s.heap.peek = none) : s.updateSoonestTime none = s := by
  simp [updateSoonestTime, h]

theorem procRemove_of_peek_none {mTimer : Delegate}
    (h : (s.heap.remove Delegate.outRanks mTimer).2.peek = none) :
    s.procRemove mTimer =
      { s with heap := (s.heap.remove Delegate.outRanks mTimer).2 } := by
  simp [procRemove, updateSoonestTime_none, h]

theorem remove_peek_none {mTimer : Delegate} (h : s.HeapInv)
    (hnone : (s.heap.remove Delegate.outRanks mTimer).2.peek = none) :
    s.heap.elements = {mTimer} ∨ s.heap.peek = none := by
  rcases LocHeap.remove_cases h.wellFormed mTimer with ⟨rest, heq, helems, -⟩ | ⟨heq, -⟩
  · rw [heq] at hnone
    left
    rw [helems, LocHeap.peek_eq_none.mp hnone]
    rfl
  simp_all

theorem emptyInv_proc (h : s.EmptyInv) (henabled : Op.proc.Enabled s) (hok : s.Disarmed .proc) :
    s.proc.EmptyInv := by
  refine ⟨heapInv_proc h.heap, ?_⟩
  obtain ⟨hidle, -⟩ := henabled
  unfold proc
  split
  · exact h.empty
  · rename_i mTimer _
    obtain ⟨armed, polled, heq⟩ := procPush_eq { s with queue := s.queue.tail } mTimer
    rw [heq]
    intro _ hpeek
    have helems := LocHeap.peek_eq_none.mp hpeek
    simp_all [LocHeap.elements_push]
  · rename_i mTimer hhead
    intro _ hpeek
    obtain ⟨armed, polled, heq⟩ := procRemove_eq { s with queue := s.queue.tail } mTimer
    rw [heq] at hpeek
    rw [procRemove_of_peek_none hpeek]
    rcases remove_peek_none h.heap hpeek with honly | hnone
    · exact hok mTimer hhead honly
    · exact h.empty hidle hnone
  · nofun

theorem emptyInv_expireTimer (h : s.EmptyInv) (hok : s.Disarmed .expireTimer) :
    s.expireTimer.EmptyInv := by
  unfold expireTimer
  split
  · exact ⟨{ h.heap with }, nofun⟩
  · rename_i now hpopped
    have hheap := heapInv_updateSoonestTime h.heap none
    refine ⟨{ hheap with }, fun _ hpeek => ?_⟩
    have hnone : s.heap.peek = none := by
      obtain ⟨armed, polled, heq⟩ := updateSoonestTime_eq s none
      rw [heq] at hpeek
      exact hpeek
    rw [updateSoonestTime_none hnone]
    exact hok now hpopped hnone
  · exact h

theorem emptyInv_popIfOutRanks {now : Timespec} (h : s.HeapInv) :
    (s.popIfOutRanks now).EmptyInv := by
  refine ⟨heapInv_popIfOutRanks h now, ?_⟩
  rcases popIfOutRanks_cases s now with ⟨top, -, -, heq⟩ | ⟨-, heq⟩
  · rw [heq, popTimer_eq]
    nofun
  · rw [heq]
    nofun

theorem emptyInv_stopClient (h : s.EmptyInv) : s.stopClient.EmptyInv := by
  unfold stopClient
  split
  · rename_i now timer client _
    have hstop := heapInv_stop h.heap client
    have hcalled : ((s.stop client).2.timeOutCallback timer).HeapInv := { hstop with }
    dsimp only
    split
    · exact emptyInv_popIfOutRanks hcalled
    · exact emptyInv_popIfOutRanks hstop
  · exact emptyInv_popIfOutRanks h.heap
  · exact h

theorem EmptyInv.of_clientStep {s' : LocTimers} (h : s.EmptyInv) (hheap : s'.HeapInv)
    (hstep : s.ClientStep s') : s'.EmptyInv := by
  refine ⟨hheap, ?_⟩
  rw [hstep.msgTask, hstep.heap, hstep.armed]
  exact h.empty

theorem emptyInv_next {op : Op} (h : s.EmptyInv) (hok : s.Disarmed op) (henabled : op.Enabled s) :
    (s.next op).EmptyInv := by
  have hheap := heapInv_next h.heap henabled
  cases op with
  | start client timeOutInMs => exact h.of_clientStep hheap (clientStep_start s client timeOutInMs)
  | stop client => exact h.of_clientStep hheap (clientStep_stop s client)
  | tick clock => exact ⟨hheap, h.empty⟩
  | wake => exact ⟨hheap, h.empty⟩
  | disarm => exact ⟨hheap, fun _ _ => rfl⟩
  | removePoll => exact ⟨hheap, h.empty⟩
  | sendExpire => exact ⟨hheap, h.empty⟩
  | proc => exact emptyInv_proc h henabled hok
  | expireTimer => exact emptyInv_expireTimer h hok
  | stopClient => exact emptyInv_stopClient h

/-- The runs in which the timerfd is disarmed where the last timer goes unseen. -/
def disarmedSystem : System LocTimers Op := system.restrict Disarmed

theorem emptyInv_invariant : disarmedSystem.Invariant EmptyInv := by
  apply System.Invariant.of_restrict
  · intro s hinit
    refine ⟨heapInv_initial hinit, ?_⟩
    obtain ⟨clock, -, rfl⟩ := hinit
    exact fun _ _ => rfl
  · rintro s op s' h hok ⟨henabled, rfl⟩
    exact emptyInv_next h hok henabled

theorem armed_of_not_disarmed {op : Op} (h : s.HeapInv) (hnot : ¬ s.Disarmed op) :
    (s.next op).heap.peek = none ∧ (s.next op).armed ≠ none := by
  cases op with
  | proc =>
    simp only [Disarmed, not_forall] at hnot
    obtain ⟨timer, hhead, honly, harmed⟩ := hnot
    have hnone : (s.heap.remove Delegate.outRanks timer).2.peek = none := by
      rcases LocHeap.remove_cases h.wellFormed timer with ⟨rest, heq, helems, -⟩ | ⟨-, habsent⟩
      · rw [honly] at helems
        simp_all [LocHeap.peek_eq_none]
      simp_all
    simp_all [next, proc, procRemove_of_peek_none]
  | expireTimer =>
    simp only [Disarmed, not_forall] at hnot
    grind [next, expireTimer, updateSoonestTime_none]
  | start _ _ | stop _ | tick _ | wake | disarm | removePoll | sendExpire | stopClient =>
    exact absurd trivial hnot

/-- In every run, with nothing pending, the soonest timer is armed; and a container without
timers is disarmed in the runs where the last timer never goes unseen. Any other step that
leaves nothing pending leaves the time of a timer that is gone. -/
theorem noTimerLost_of_reachable (s : LocTimers) :
    (system.Reachable s → s.SoonestArmed) ∧
    (disarmedSystem.Reachable s → s.EmptyDisarmed) ∧
    (∀ op, system.Reachable s → op.Enabled s → ¬ s.Disarmed op →
      (s.next op).NothingPending → ¬ (s.next op).EmptyDisarmed) := by
  refine ⟨fun hs => ?_, fun hs hnothing => ?_, fun op hs _ hnot hnothing hempty => ?_⟩
  · exact (armedInv_invariant.reachable hs).soonestArmed
  · exact (emptyInv_invariant.reachable hs).empty hnothing.msgTask
  · obtain ⟨hpeek, harmed⟩ := armed_of_not_disarmed (heapInv_invariant.reachable hs) hnot
    exact harmed (hempty hnothing hpeek)

instance (s : LocTimers) : (op : Op) → Decidable (s.Disarmed op)
  | .proc =>
    match h : s.queue.head? with
    | some (.timerRemove timer) =>
      decidable_of_iff (s.heap.elements = {timer} → s.armed = none)
        ⟨fun hok timer' h' => by cases h.symm.trans h'; exact hok, fun hok => hok timer h⟩
    | some (.timerPush _) => .isTrue fun _ h' => by cases h.symm.trans h'
    | some .timerExpire => .isTrue fun _ h' => by cases h.symm.trans h'
    | none => .isTrue fun _ h' => by cases h.symm.trans h'
  | .expireTimer =>
    match h : s.msgTask with
    | .popped now none =>
      decidable_of_iff (s.heap.peek = none → s.armed = none)
        ⟨fun hok _ _ => hok, fun hok => hok now h⟩
    | .popped _ (some _) => .isTrue fun _ h' => by cases h.symm.trans h'
    | .idle => .isTrue fun _ h' => by cases h.symm.trans h'
    | .expiring _ _ _ => .isTrue fun _ h' => by cases h.symm.trans h'
  | .start _ _ | .stop _ | .tick _ | .wake | .disarm | .removePoll | .sendExpire | .stopClient =>
    .isTrue trivial

def drainRun : List Op :=
  let expiry := kernelExpiry ++ [.proc, .expireTimer, .stopClient, .expireTimer, .proc]
  twoTimers ++ [tickTo 6] ++ expiry ++ [tickTo 10] ++ expiry

theorem noTimerLost_of_reachable_drained :
    ∃ s, System.follow (fun s op => s.Disarmed op ∧ op.Enabled s) next drainRun boot = some s ∧
      (s.callbacks.length = 2 ∧ s.heap.peek = none) ∧ s.SoonestArmed ∧ s.EmptyDisarmed := by
  have hrun : (System.follow (fun s op => s.Disarmed op ∧ op.Enabled s) next drainRun boot).any
      (fun s => s.callbacks.length = 2 ∧ s.heap.peek = none) = true := by decide +kernel
  obtain ⟨s, hs, hcalls⟩ := (Option.any_eq_true _ _).mp hrun
  have hreach : disarmedSystem.Reachable s :=
    System.reachable_follow _ (.init ⟨_, by decide, rfl⟩) hs
  simp [of_decide_eq_true, noTimerLost_of_reachable, hs, hcalls, hreach.of_restrict, hreach]

/-- The only timer is stopped before it is due. -/
def stopRun : List Op := [.start 0 1000, .proc, .stop 0, .proc]

theorem not_noTimerLost :
    ∃ s, system.Reachable s ∧ s.NothingPending ∧ ¬ (s.SoonestArmed ∧ s.EmptyDisarmed) := by
  have hrun : (System.follow (fun s op => True ∧ op.Enabled s) next stopRun boot).any
      (fun s => (s.queue = [] ∧ s.msgTask = .idle ∧ s.pollTask = .waiting) ∧
        s.heap.peek = none ∧ s.armed ≠ none) = true := by decide +kernel
  obtain ⟨s, hs, hleft⟩ := (Option.any_eq_true _ _).mp hrun
  have hreach : (system.restrict fun _ _ => True).Reachable s :=
    System.reachable_follow _ (.init ⟨_, by decide, rfl⟩) hs
  obtain ⟨⟨hqueue, hidle, hwait⟩, hpeek, harmed⟩ := of_decide_eq_true hleft
  have hnothing : s.NothingPending := ⟨hqueue, hidle, .inl hwait⟩
  exact ⟨s, hreach.of_restrict, hnothing, fun h => harmed (h.2 hnothing hpeek)⟩

end EtherDevice.GpsUtils.LocTimers
