import Mathlib
import EtherDevice.GpsUtils.LocTimer

/-!
# Callbacks and due times

The loop of `MsgTimerExpire` pops its first timer without comparing it with the time. Between
the kernel's expiry and the message other messages are taken: a stopped timer that was due may
be gone by then, and the first pop takes one that is not.

`Timely` is the condition on a step that this does not happen: when the message task takes a
`MsgTimerExpire`, the top of the heap is due, or its client let go of it, or there is none.
Runs of timely steps never call back early; any other such message calls back early, if the
other threads let it.
-/

namespace EtherDevice.GpsUtils.LocTimers

open Lib Lib.PriorityQueue

variable {s : LocTimers}

/-- Every callback came at or after the time of its delegate. -/
def NeverEarly (s : LocTimers) : Prop :=
  ∀ call ∈ s.callbacks, call.1.mFutureTime.toNs ≤ call.2.toNs

def DueOrStopped (s : LocTimers) (timer : Delegate) : Prop :=
  timer.mFutureTime.toNs ≤ s.clock.toNs ∨ (s.vars timer.address).mClient = none

/-- A `MsgTimerExpire` finds a top that is due or stopped. -/
def Timely (s : LocTimers) (op : Op) : Prop :=
  op = .proc → s.queue.head? = some .timerExpire → ∀ top ∈ s.heap.peek, s.DueOrStopped top

def TaskTimely (s : LocTimers) : MsgTask → Prop
  | .idle => True
  | .popped now timer =>
    now.toNs ≤ s.clock.toNs ∧ ∀ top ∈ timer, s.Made top ∧ s.DueOrStopped top
  | .expiring now timer client =>
    now.toNs ≤ s.clock.toNs ∧ (client = none ∨ timer.mFutureTime.toNs ≤ s.clock.toNs)

structure TimelyInv (s : LocTimers) : Prop where
  heap : s.HeapInv
  called : s.NeverEarly
  task : s.TaskTimely s.msgTask

theorem TaskTimely.of_same {s' : LocTimers} {task : MsgTask} (h : s.TaskTimely task)
    (hclock : s'.clock = s.clock) (hvars : s'.vars = s.vars) (hfresh : s'.fresh = s.fresh) :
    s'.TaskTimely task := by
  cases task with
  | idle => trivial
  | popped now timer =>
    refine ⟨hclock ▸ h.1, fun top htop => ?_⟩
    unfold Made DueOrStopped
    rw [hfresh, hclock, hvars]
    exact h.2 top htop
  | expiring now timer client => exact ⟨hclock ▸ h.1, hclock ▸ h.2⟩

theorem taskTimely_stop {task : MsgTask} (h : s.TaskTimely task) (client : Nat) :
    (s.stop client).2.TaskTimely task := by
  rcases stop_cases s client with ⟨-, heq⟩ | ⟨timer', own, removal, -, hown, -, heq⟩
  · rw [heq]
    exact h
  · rw [heq]
    cases task with
    | idle => trivial
    | expiring now timer client' => exact h
    | popped now timer =>
      refine ⟨h.1, fun top htop => ⟨(h.2 top htop).1, ?_⟩⟩
      unfold DueOrStopped
      dsimp only
      by_cases hsame : top.address = timer'.address
      · simp [hsame, hown]
      · rw [Function.update_of_ne hsame]
        exact (h.2 top htop).2

theorem taskTimely_start {task : MsgTask} (h : s.TaskTimely task) (client timeOutInMs : Nat) :
    (s.start client timeOutInMs).2.TaskTimely task := by
  unfold start
  split
  · exact h
  · cases task with
    | idle => trivial
    | expiring now timer client' => exact h
    | popped now timer =>
      refine ⟨h.1, fun top htop => ?_⟩
      obtain ⟨hmade, hdue⟩ := h.2 top htop
      refine ⟨⟨Nat.lt_succ_of_lt hmade.1, hmade.2⟩, ?_⟩
      unfold DueOrStopped
      dsimp only [sendMsg]
      rw [Function.update_of_ne (Nat.ne_of_lt hmade.1)]
      exact hdue

theorem taskTimely_popTimer {now : Timespec} (hheap : s.HeapInv)
    (hnow : now.toNs ≤ s.clock.toNs) (hdue : ∀ top ∈ s.heap.peek, s.DueOrStopped top) :
    (s.popTimer now).TaskTimely (s.popTimer now).msgTask := by
  rw [popTimer_eq]
  refine ⟨hnow, fun top htop => ⟨hheap.stored top ?_, hdue top htop⟩⟩
  rcases LocHeap.peek_cases hheap.wellFormed with ⟨top', hpeek, hmem, -⟩ | ⟨hpeek, -⟩
  · simp_all
  · exact absurd (htop.symm.trans hpeek) (Option.some_ne_none top)

theorem timelyInv_popIfOutRanks {now : Timespec} (hheap : s.HeapInv) (hcalled : s.NeverEarly)
    (hnow : now.toNs ≤ s.clock.toNs) : (s.popIfOutRanks now).TimelyInv := by
  have hheap' := heapInv_popIfOutRanks hheap now
  rcases popIfOutRanks_cases s now with ⟨top, hpeek, hdue, heq⟩ | ⟨-, heq⟩
  · rw [heq] at hheap' ⊢
    refine ⟨hheap', hcalled, taskTimely_popTimer hheap hnow fun top' htop => ?_⟩
    have hsame : top = top' := Option.some.inj (hpeek.symm.trans htop)
    exact .inl (hsame ▸ Nat.le_trans hdue hnow)
  · rw [heq] at hheap' ⊢
    exact ⟨hheap', hcalled, hnow, fun top htop => absurd htop (Option.not_mem_none top)⟩

theorem timelyInv_proc (h : s.TimelyInv) (henabled : Op.proc.Enabled s) (htimely : s.Timely .proc) :
    s.proc.TimelyInv := by
  have hheap := heapInv_proc h.heap
  have hidle := henabled.1
  have hcalled := h.called
  unfold proc at hheap ⊢
  split
  · exact h
  · rename_i mTimer hhead
    rw [hhead] at hheap
    obtain ⟨armed, polled, heq⟩ := procPush_eq { s with queue := s.queue.tail } mTimer
    dsimp only at hheap
    rw [heq] at hheap ⊢
    refine ⟨hheap, hcalled, ?_⟩
    rw [hidle]
    trivial
  · rename_i mTimer hhead
    rw [hhead] at hheap
    obtain ⟨armed, polled, heq⟩ := procRemove_eq { s with queue := s.queue.tail } mTimer
    dsimp only at hheap
    rw [heq] at hheap ⊢
    refine ⟨hheap, hcalled, ?_⟩
    rw [hidle]
    trivial
  · rename_i hhead
    rw [hhead] at hheap
    exact ⟨hheap, hcalled,
      taskTimely_popTimer (heapInv_tail h.heap) (Nat.le_refl _) (htimely rfl hhead)⟩

theorem timelyInv_expireTimer (h : s.TimelyInv) : s.expireTimer.TimelyInv := by
  obtain ⟨hheap, hcalled, htask⟩ := h
  unfold expireTimer
  split
  · rename_i now timer hpopped
    rw [hpopped] at htask
    obtain ⟨-, hdue⟩ := htask.2 timer rfl
    exact ⟨{ hheap with }, hcalled, htask.1, hdue.symm⟩
  · have hheap' := heapInv_updateSoonestTime hheap none
    obtain ⟨armed, polled, heq⟩ := updateSoonestTime_eq s none
    rw [heq] at hheap' ⊢
    exact ⟨{ hheap' with }, hcalled, trivial⟩
  · exact ⟨hheap, hcalled, htask⟩

theorem timelyInv_stopClient (h : s.TimelyInv) : s.stopClient.TimelyInv := by
  obtain ⟨hheap, hcalled, htask⟩ := h
  unfold stopClient
  split
  · rename_i now timer client hexpiring
    rw [hexpiring] at htask
    obtain ⟨hnow, hnone | hdue⟩ := htask
    · exact absurd hnone (Option.some_ne_none client)
    · have hstep := clientStep_stop s client
      have hheap' := heapInv_stop hheap client
      rw [← hstep.clock] at hnow hdue
      have hcalled' : (s.stop client).2.NeverEarly := by
        unfold NeverEarly
        rw [hstep.callbacks]
        exact hcalled
      have hheapCalled : ((s.stop client).2.timeOutCallback timer).HeapInv := { hheap' with }
      dsimp only
      split
      · refine timelyInv_popIfOutRanks hheapCalled (fun call hmem => ?_) hnow
        rcases List.mem_append.mp hmem with hmem | hmem
        · exact hcalled' call hmem
        simp_all
      · exact timelyInv_popIfOutRanks hheap' hcalled' hnow
  · rename_i now timer hexpiring
    rw [hexpiring] at htask
    exact timelyInv_popIfOutRanks hheap hcalled htask.1
  · exact ⟨hheap, hcalled, htask⟩

theorem timelyInv_next {op : Op} (h : s.TimelyInv) (htimely : s.Timely op)
    (henabled : op.Enabled s) : (s.next op).TimelyInv := by
  have hheap := heapInv_next h.heap henabled
  cases op with
  | start client timeOutInMs =>
    have hstep := clientStep_start s client timeOutInMs
    refine ⟨hheap, ?_, ?_⟩
    · exact fun call hmem => h.called call (hstep.callbacks ▸ hmem)
    · exact hstep.msgTask ▸ taskTimely_start h.task client timeOutInMs
  | stop client =>
    have hstep := clientStep_stop s client
    refine ⟨hheap, ?_, ?_⟩
    · exact fun call hmem => h.called call (hstep.callbacks ▸ hmem)
    · exact hstep.msgTask ▸ taskTimely_stop h.task client
  | tick clock =>
    refine ⟨hheap, h.called, ?_⟩
    have htask := h.task
    have hlater : s.clock.toNs ≤ clock.toNs := henabled
    show TaskTimely { s with clock := clock } s.msgTask
    cases hcase : s.msgTask with
    | idle => trivial
    | popped now timer =>
      rw [hcase] at htask
      refine ⟨Nat.le_trans htask.1 hlater, fun top htop => ⟨(htask.2 top htop).1, ?_⟩⟩
      exact (htask.2 top htop).2.imp_left fun hdue => Nat.le_trans hdue hlater
    | expiring now timer client =>
      rw [hcase] at htask
      exact ⟨Nat.le_trans htask.1 hlater, htask.2.imp_right fun hdue => Nat.le_trans hdue hlater⟩
  | wake => exact ⟨hheap, h.called, h.task.of_same rfl rfl rfl⟩
  | disarm => exact ⟨hheap, h.called, h.task.of_same rfl rfl rfl⟩
  | removePoll => exact ⟨hheap, h.called, h.task.of_same rfl rfl rfl⟩
  | sendExpire => exact ⟨hheap, h.called, h.task.of_same rfl rfl rfl⟩
  | proc => exact timelyInv_proc h henabled htimely
  | expireTimer => exact timelyInv_expireTimer h
  | stopClient => exact timelyInv_stopClient h

/-- The runs in which every expiry message finds a timer that is due or stopped. -/
def timelySystem : System LocTimers Op := system.restrict Timely

theorem timelyInv_invariant : timelySystem.Invariant TimelyInv := by
  apply System.Invariant.of_restrict
  · intro s hinit
    have hheap := heapInv_initial hinit
    obtain ⟨clock, -, rfl⟩ := hinit
    exact ⟨hheap, fun call hmem => absurd hmem List.not_mem_nil, trivial⟩
  · rintro s op s' h htimely ⟨henabled, rfl⟩
    exact timelyInv_next h htimely henabled

def ClientsInv (s : LocTimers) : Prop :=
  ∀ address client, (s.vars address).mClient = some client →
    ∃ timer, s.mTimer client = some timer ∧ timer.address = address

theorem clientsInv_start (h : s.ClientsInv) (client timeOutInMs : Nat) :
    (s.start client timeOutInMs).2.ClientsInv := by
  unfold start
  split
  · exact h
  · rename_i hnone
    intro address client' hclient
    dsimp only [sendMsg] at hclient ⊢
    by_cases haddr : address = s.fresh
    · simp_all
    · rw [Function.update_of_ne haddr] at hclient
      obtain ⟨timer, htimer, hown⟩ := h address client' hclient
      have hne : client' ≠ client := by
        rintro rfl
        exact absurd (hnone.symm.trans htimer) (Option.some_ne_none timer).symm
      exact ⟨timer, by rw [Function.update_of_ne hne, htimer], hown⟩

theorem clientsInv_stop (h : s.ClientsInv) (client : Nat) : (s.stop client).2.ClientsInv := by
  rcases stop_cases s client with ⟨-, heq⟩ | ⟨timer, own, removal, htimer, hown, -, heq⟩
  · rw [heq]
    exact h
  · rw [heq]
    intro address client' hclient
    dsimp only at hclient ⊢
    by_cases haddr : address = timer.address
    · simp_all
    · rw [Function.update_of_ne haddr] at hclient
      obtain ⟨timer', htimer', hown'⟩ := h address client' hclient
      grind

theorem clientsInv_popIfOutRanks (h : s.ClientsInv) (now : Timespec) :
    (s.popIfOutRanks now).ClientsInv := by
  rcases popIfOutRanks_cases s now with ⟨top, -, -, heq⟩ | ⟨-, heq⟩
  · rw [heq]
    exact h
  · rw [heq]
    exact h

theorem clientsInv_proc (h : s.ClientsInv) : s.proc.ClientsInv := by
  unfold proc
  split
  · exact h
  · rename_i mTimer _
    obtain ⟨armed, polled, heq⟩ := procPush_eq { s with queue := s.queue.tail } mTimer
    rw [heq]
    exact h
  · rename_i mTimer _
    obtain ⟨armed, polled, heq⟩ := procRemove_eq { s with queue := s.queue.tail } mTimer
    rw [heq]
    exact h
  · exact h

theorem clientsInv_next (op : Op) (h : s.ClientsInv) : (s.next op).ClientsInv := by
  cases op with
  | start client timeOutInMs => exact clientsInv_start h client timeOutInMs
  | stop client => exact clientsInv_stop h client
  | proc => exact clientsInv_proc h
  | expireTimer =>
    simp only [next, expireTimer]
    split
    · exact h
    · obtain ⟨armed, polled, heq⟩ := updateSoonestTime_eq s none
      rw [heq]
      exact h
    · exact h
  | stopClient =>
    simp only [next, stopClient]
    split
    · rename_i now timer client _
      have hstop := clientsInv_stop h client
      have hcalled : ((s.stop client).2.timeOutCallback timer).ClientsInv := hstop
      split
      · exact clientsInv_popIfOutRanks hcalled now
      · exact clientsInv_popIfOutRanks hstop now
    · exact clientsInv_popIfOutRanks h _
    · exact h
  | tick clock => exact h
  | wake => exact h
  | disarm => exact h
  | removePoll => exact h
  | sendExpire => exact h

theorem clientsInv_invariant : system.Invariant ClientsInv where
  init s h := by
    obtain ⟨clock, -, rfl⟩ := h
    exact fun _ _ hclient => absurd hclient (Option.some_ne_none _).symm
  step _ op _ h hstep := hstep.2 ▸ clientsInv_next op h

instance (s : LocTimers) : (op : Op) → Decidable (op.Enabled s)
  | .start _ _ | .stop _ => .isTrue trivial
  | .tick clock => inferInstanceAs (Decidable (s.clock.toNs ≤ clock.toNs))
  | .wake => inferInstanceAs (Decidable (_ ∧ _ ∧ ∃ time ∈ s.armed, _))
  | .disarm => inferInstanceAs (Decidable (s.pollTask = .woken))
  | .removePoll => inferInstanceAs (Decidable (s.pollTask = .disarmed))
  | .sendExpire => inferInstanceAs (Decidable (s.pollTask = .unpolled))
  | .proc => inferInstanceAs (Decidable (_ ∧ s.queue ≠ []))
  | .expireTimer =>
    match h : s.msgTask with
    | .popped now timer => .isTrue ⟨now, timer, h⟩
    | .idle => .isFalse fun ⟨_, _, h'⟩ => by cases h.symm.trans h'
    | .expiring _ _ _ => .isFalse fun ⟨_, _, h'⟩ => by cases h.symm.trans h'
  | .stopClient =>
    match h : s.msgTask with
    | .expiring now timer client => .isTrue ⟨now, timer, client, h⟩
    | .idle => .isFalse fun ⟨_, _, _, h'⟩ => by cases h.symm.trans h'
    | .popped _ _ => .isFalse fun ⟨_, _, _, h'⟩ => by cases h.symm.trans h'

instance (s : LocTimers) (timer : Delegate) : Decidable (s.DueOrStopped timer) :=
  inferInstanceAs (Decidable (_ ∨ _))

instance (s : LocTimers) (op : Op) : Decidable (s.Timely op) :=
  inferInstanceAs (Decidable (_ → _ → ∀ top ∈ s.heap.peek, _))

/-- The next steps of a run, if nothing comes between them. -/
def run (ops : List Op) (s : LocTimers) : Option LocTimers :=
  System.follow (fun s op => op.Enabled s) next ops s

theorem callbacks_popIfOutRanks (now : Timespec) :
    (s.popIfOutRanks now).callbacks = s.callbacks := by
  rcases popIfOutRanks_cases s now with ⟨top, -, -, heq⟩ | ⟨-, heq⟩
  · rw [heq, popTimer]
  · rw [heq]

theorem early_of_not_timely (hclients : s.ClientsInv) (henabled : Op.proc.Enabled s)
    (hnot : ¬ s.Timely .proc) :
    ∃ s', run [.proc, .expireTimer, .stopClient] s = some s' ∧ ¬ s'.NeverEarly := by
  obtain ⟨hidle, hqueue⟩ := henabled
  unfold Timely at hnot
  push Not at hnot
  obtain ⟨-, hhead, top, htop, hearly⟩ := hnot
  unfold DueOrStopped at hearly
  push Not at hearly
  obtain ⟨hlate, hclient⟩ := hearly
  obtain ⟨client, hclient⟩ := Option.ne_none_iff_exists'.mp hclient
  obtain ⟨timer, htimer, -⟩ := hclients top.address client hclient
  have hproc : (s.next .proc) = { s with
      queue := s.queue.tail
      heap := (s.heap.pop Delegate.outRanks).2
      msgTask := .popped s.clock (some top) } := by
    simp_all [next, proc, popTimer_eq]
  have hexpire : (s.next .proc).next .expireTimer = { s with
      queue := s.queue.tail
      heap := (s.heap.pop Delegate.outRanks).2
      msgTask := .expiring s.clock top (some client) } := by
    rw [hproc]
    simp only [next, expireTimer, hclient]
  have hstop : (((s.next .proc).next .expireTimer).next .stopClient).callbacks =
      s.callbacks ++ [(top, s.clock)] := by
    rw [hexpire]
    simp only [next, stopClient]
    rcases stop_cases { s with
        queue := s.queue.tail
        heap := (s.heap.pop Delegate.outRanks).2
        msgTask := .expiring s.clock top (some client) } client with
      ⟨hnone, -⟩ | ⟨timer', own, removal, -, -, -, heq⟩
    · exact absurd (htimer.symm.trans hnone) (Option.some_ne_none timer)
    · rw [heq]
      simp only [if_true, callbacks_popIfOutRanks]
      rfl
  refine ⟨((s.next .proc).next .expireTimer).next .stopClient, ?_, fun hnever => ?_⟩
  · have h1 : Op.proc.Enabled s := ⟨hidle, hqueue⟩
    have h2 : Op.expireTimer.Enabled (s.next .proc) := by
      rw [hproc]
      exact ⟨_, _, rfl⟩
    have h3 : Op.stopClient.Enabled ((s.next .proc).next .expireTimer) := by
      rw [hexpire]
      exact ⟨_, _, _, rfl⟩
    simp only [run, System.follow, if_pos h1, if_pos h2, if_pos h3]
  · have hcall : (top, s.clock) ∈
        (((s.next .proc).next .expireTimer).next .stopClient).callbacks := by
      simp [hstop]
    have hdue : top.mFutureTime.toNs ≤ s.clock.toNs := hnever (top, s.clock) hcall
    omega

/-- In the runs in which every expiry message finds a timer that is due or stopped, no timer
is called back early; from the state before any other such message the next steps do call
one back early. -/
theorem neverEarly_of_reachable (s : LocTimers) :
    (timelySystem.Reachable s → s.NeverEarly) ∧
    (system.Reachable s → Op.proc.Enabled s → ¬ s.Timely .proc →
      ∃ s', run [.proc, .expireTimer, .stopClient] s = some s' ∧ ¬ s'.NeverEarly) := by
  constructor
  · intro hs
    exact (timelyInv_invariant.reachable hs).called
  · intro hs henabled hnot
    exact early_of_not_timely (clientsInv_invariant.reachable hs) henabled hnot

def boot : LocTimers := { clock := ⟨5, 0, Timespec.zero_tvNsec_lt⟩ }

def tickTo (tvSec : Nat) : Op := .tick ⟨tvSec, 0, Timespec.zero_tvNsec_lt⟩

def kernelExpiry : List Op := [.wake, .disarm, .removePoll, .sendExpire]

def twoTimers : List Op := [.start 0 1000, .proc, .start 1 5000, .proc]

def dueRun : List Op :=
  twoTimers ++ [tickTo 6] ++ kernelExpiry ++ [.proc, .expireTimer, .stopClient, .expireTimer]

theorem neverEarly_of_reachable_due :
    ∃ s, System.follow (fun s op => s.Timely op ∧ op.Enabled s) next dueRun boot = some s ∧
      s.callbacks = [(⟨1, ⟨6, 0, Timespec.zero_tvNsec_lt⟩⟩, ⟨6, 0, Timespec.zero_tvNsec_lt⟩)] ∧
        s.NeverEarly := by
  have hrun : (System.follow (fun s op => s.Timely op ∧ op.Enabled s) next dueRun boot).any
      (fun s => s.callbacks = [(⟨1, ⟨6, 0, Timespec.zero_tvNsec_lt⟩⟩,
        ⟨6, 0, Timespec.zero_tvNsec_lt⟩)]) = true := by
    decide +kernel
  obtain ⟨s, hs, hcalls⟩ := (Option.any_eq_true _ _).mp hrun
  have hreach : timelySystem.Reachable s :=
    System.reachable_follow _ (.init ⟨_, by decide, rfl⟩) hs
  exact ⟨s, hs, of_decide_eq_true hcalls, (neverEarly_of_reachable s).1 hreach⟩

/-- The first timer is stopped when it is due. The removal is taken before the expiry, and
the expiry calls back the second timer. -/
def earlyRun : List Op :=
  twoTimers ++ [tickTo 6, .stop 0] ++ kernelExpiry ++ [.proc, .proc, .expireTimer, .stopClient]

theorem not_neverEarly : ∃ s, system.Reachable s ∧ ¬ s.NeverEarly := by
  have hrun : (System.follow (fun s op => True ∧ op.Enabled s) next earlyRun boot).any
      (fun s => ∃ call ∈ s.callbacks, call.2.toNs < call.1.mFutureTime.toNs) = true := by
    decide +kernel
  obtain ⟨s, hs, hearly⟩ := (Option.any_eq_true _ _).mp hrun
  have hreach : (system.restrict fun _ _ => True).Reachable s :=
    System.reachable_follow _ (.init ⟨_, by decide, rfl⟩) hs
  obtain ⟨call, hmem, hlt⟩ := of_decide_eq_true hearly
  exact ⟨s, hreach.of_restrict, fun hnever => Nat.not_le_of_lt hlt (hnever call hmem)⟩

end EtherDevice.GpsUtils.LocTimers
