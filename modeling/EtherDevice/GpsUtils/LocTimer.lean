import EtherDevice.GpsUtils.LocHeap
import EtherDevice.Lib.Transition
import Mathlib.Logic.Function.Basic

/-!
# `LocTimerContainer`: the location timers

The model of `gps/utils/LocTimer.cpp` for one container: the heap of the timer delegates, the
time set on its timerfd, the queue of the message task, the poll task, and the `LocTimer`
objects that start and stop delegates from any thread.

The three threads interleave. The message task takes one message at a time; `MsgTimerExpire`
is cut where it calls out: before `LocTimerDelegate::expire` reads the client, and before it
stops it. The poll task is cut between the three calls of `LocTimerContainer::expire`. The
clock moves at any moment, and `epoll_wait` returns once the time set is reached.
-/

namespace EtherDevice.GpsUtils

open Lib Lib.PriorityQueue

structure Timespec where
  tvSec : Nat
  tvNsec : Nat
  tvNsec_lt : tvNsec < 1000000000
deriving DecidableEq

namespace Timespec

theorem zero_tvNsec_lt : 0 < 1000000000 := by decide

def toNs (t : Timespec) : Nat := t.tvSec * 1000000000 + t.tvNsec

def after (now : Timespec) (timeOutInMs : Nat) : Timespec :=
  let tvSec := now.tvSec + timeOutInMs / 1000
  let tvNsec := now.tvNsec + (timeOutInMs % 1000) * 1000000
  if h : tvNsec ≥ 1000000000 then
    ⟨tvSec + tvNsec / 1000000000, tvNsec % 1000000000, Nat.mod_lt _ (by omega)⟩
  else ⟨tvSec, tvNsec, by omega⟩

theorem toNs_after (now : Timespec) (timeOutInMs : Nat) :
    (now.after timeOutInMs).toNs = now.toNs + timeOutInMs * 1000000 := by
  simp only [after]
  split
  · simp only [toNs]
    omega
  · simp only [toNs]
    omega

end Timespec

/-- What does not change of a `LocTimerDelegate`. -/
structure Delegate where
  address : Nat
  mFutureTime : Timespec
deriving DecidableEq

structure DelegateVars where
  mClient : Option Nat := none
  mContainer : Bool := false
deriving DecidableEq

namespace Delegate

def ranks (this timer : Delegate) : Int :=
  let rank : Int := timer.mFutureTime.tvSec - this.mFutureTime.tvSec
  if 0 = rank then timer.mFutureTime.tvNsec - this.mFutureTime.tvNsec else rank

def outRanks (this timer : Delegate) : Prop := this.ranks timer > 0

instance : DecidableRel outRanks := fun this timer =>
  inferInstanceAs (Decidable (this.ranks timer > 0))

theorem outRanks_iff {this timer : Delegate} :
    this.outRanks timer ↔ this.mFutureTime.toNs < timer.mFutureTime.toNs := by
  have hthis := this.mFutureTime.tvNsec_lt
  have htimer := timer.mFutureTime.tvNsec_lt
  unfold outRanks ranks Timespec.toNs
  dsimp only
  split <;> omega

instance : IsStrictWeakOrder Delegate outRanks where
  irrefl a := by
    rw [outRanks_iff]
    omega
  trans a b c := by
    simp only [outRanks_iff]
    omega
  incomp_trans a b c := by
    simp only [outRanks_iff]
    omega

theorem toNs_le_of_tops {top timer : Delegate} {stored : Multiset Delegate}
    (h : Tops outRanks top stored) (hmem : timer ∈ stored) :
    top.mFutureTime.toNs ≤ timer.mFutureTime.toNs := by
  have hnot := h timer hmem
  rw [outRanks_iff] at hnot
  omega

end Delegate

inductive LocMsg where
  | timerPush (mTimer : Delegate)
  | timerRemove (mTimer : Delegate)
  | timerExpire
deriving DecidableEq

/-- Where the poll task is: in `epoll_wait`, or before the calls of
`LocTimerContainer::expire`. -/
inductive PollTask where
  | waiting
  | woken
  | disarmed
  | unpolled
deriving DecidableEq

/-- Where the message task is: between messages, in the loop of `MsgTimerExpire` with what
was popped, or inside `LocTimerDelegate::expire` with the client that it read. -/
inductive MsgTask where
  | idle
  | popped (now : Timespec) (timer : Option Delegate)
  | expiring (now : Timespec) (timer : Delegate) (client : Option Nat)
deriving DecidableEq

/-- The container, the tasks around it and the `LocTimer` objects. -/
structure LocTimers where
  heap : LocHeap Delegate := .empty
  /-- The time set on the timerfd. -/
  armed : Option Timespec := none
  /-- The timerfd is in the epoll set. -/
  polled : Bool := false
  queue : List LocMsg := []
  msgTask : MsgTask := .idle
  pollTask : PollTask := .waiting
  clock : Timespec
  mTimer : Nat → Option Delegate := fun _ => none
  vars : Nat → DelegateVars := fun _ => {}
  /-- The next delegate's address. -/
  fresh : Nat := 1
  /-- The calls of `timeOutCallback`: the delegate that expired, and when. -/
  callbacks : List (Delegate × Timespec) := []

namespace LocTimers

variable (s : LocTimers)

def settime (time : Timespec) : LocTimers :=
  { s with armed := if time.tvSec = 0 ∧ time.tvNsec = 0 then none else some time }

def addPoll : LocTimers := { s with polled := true }

def removePoll : LocTimers := { s with polled := false }

def updateSoonestTime (priorTop : Option Delegate) : LocTimers :=
  let curTop := s.heap.peek
  if curTop ≠ priorTop then
    match curTop, priorTop with
    | none, _ => s.removePoll.settime ⟨0, 0, Timespec.zero_tvNsec_lt⟩
    | some top, none => s.addPoll.settime top.mFutureTime
    | some top, some prior =>
      if top.outRanks prior then s.addPoll.settime top.mFutureTime else s
  else s

def sendMsg (msg : LocMsg) : LocTimers := { s with queue := s.queue ++ [msg] }

def destroyLocked (timer : Delegate) : LocTimers :=
  let own := { s.vars timer.address with mClient := none }
  if own.mContainer then
    let stopped := { own with mContainer := false }
    let s' := { s with vars := Function.update s.vars timer.address stopped }
    s'.sendMsg (.timerRemove timer)
  else { s with vars := Function.update s.vars timer.address own }

def start (client timeOutInMs : Nat) : Bool × LocTimers :=
  match s.mTimer client with
  | some _ => (false, s)
  | none =>
    let timer : Delegate := ⟨s.fresh, s.clock.after timeOutInMs⟩
    let own : DelegateVars := { mClient := some client, mContainer := true }
    let s' := { s with
      fresh := s.fresh + 1
      vars := Function.update s.vars timer.address own
      mTimer := Function.update s.mTimer client (some timer) }
    (true, s'.sendMsg (.timerPush timer))

def stop (client : Nat) : Bool × LocTimers :=
  match s.mTimer client with
  | none => (false, s)
  | some timer =>
    let s' := { s with mTimer := Function.update s.mTimer client none }
    (true, s'.destroyLocked timer)

def procPush (mTimer : Delegate) : LocTimers :=
  let priorTop := s.heap.peek
  let s' := { s with heap := s.heap.push Delegate.outRanks mTimer }
  s'.updateSoonestTime priorTop

def procRemove (mTimer : Delegate) : LocTimers :=
  let priorTop := s.heap.peek
  let removed := s.heap.remove Delegate.outRanks mTimer
  let s' := { s with heap := removed.2 }
  if priorTop = removed.1 then s'.updateSoonestTime none else s'

def popTimer (now : Timespec) : LocTimers :=
  let popped := s.heap.pop Delegate.outRanks
  { s with heap := popped.2, msgTask := .popped now popped.1 }

def popIfOutRanks (now : Timespec) : LocTimers :=
  match s.heap.peek with
  | none => { s with msgTask := .popped now none }
  | some top =>
    if ¬ (⟨0, now⟩ : Delegate).outRanks top then s.popTimer now
    else { s with msgTask := .popped now none }

/-- The message task takes a message. The first pop of `MsgTimerExpire` compares nothing. -/
def proc : LocTimers :=
  let s' := { s with queue := s.queue.tail }
  match s.queue.head? with
  | none => s
  | some (.timerPush mTimer) => s'.procPush mTimer
  | some (.timerRemove mTimer) => s'.procRemove mTimer
  | some .timerExpire => s'.popTimer s.clock

def timeOutCallback (timer : Delegate) : LocTimers :=
  { s with callbacks := s.callbacks ++ [(timer, s.clock)] }

/-- `LocTimerDelegate::expire` keeps a copy of the client; the loop ends at `NULL`. -/
def expireTimer : LocTimers :=
  match s.msgTask with
  | .popped now (some timer) =>
    { s with msgTask := .expiring now timer (s.vars timer.address).mClient }
  | .popped _ none => { s.updateSoonestTime none with msgTask := .idle }
  | _ => s

/-- It stops the client and, unless someone else had, calls it back; then the loop pops. -/
def stopClient : LocTimers :=
  match s.msgTask with
  | .expiring now timer (some client) =>
    let stopped := s.stop client
    if stopped.1 then (stopped.2.timeOutCallback timer).popIfOutRanks now
    else stopped.2.popIfOutRanks now
  | .expiring now _ none => s.popIfOutRanks now
  | _ => s

/-- The steps of the clients, the clock and the two tasks. -/
inductive Op where
  | start (client timeOutInMs : Nat)
  | stop (client : Nat)
  | tick (clock : Timespec)
  | wake
  | disarm
  | removePoll
  | sendExpire
  | proc
  | expireTimer
  | stopClient
deriving DecidableEq

def Op.Enabled (s : LocTimers) : Op → Prop
  | .start _ _ | .stop _ => True
  | .tick clock => s.clock.toNs ≤ clock.toNs
  | .wake => s.pollTask = .waiting ∧ s.polled = true ∧
      ∃ time ∈ s.armed, time.toNs ≤ s.clock.toNs
  | .disarm => s.pollTask = .woken
  | .removePoll => s.pollTask = .disarmed
  | .sendExpire => s.pollTask = .unpolled
  | .proc => s.msgTask = .idle ∧ s.queue ≠ []
  | .expireTimer => ∃ now timer, s.msgTask = .popped now timer
  | .stopClient => ∃ now timer client, s.msgTask = .expiring now timer client

def next (s : LocTimers) : Op → LocTimers
  | .start client timeOutInMs => (s.start client timeOutInMs).2
  | .stop client => (s.stop client).2
  | .tick clock => { s with clock := clock }
  | .wake => { s with pollTask := .woken }
  | .disarm => { s.settime ⟨0, 0, Timespec.zero_tvNsec_lt⟩ with pollTask := .disarmed }
  | .removePoll => { s.removePoll with pollTask := .unpolled }
  | .sendExpire => { s.sendMsg .timerExpire with pollTask := .waiting }
  | .proc => s.proc
  | .expireTimer => s.expireTimer
  | .stopClient => s.stopClient

def Initial (s : LocTimers) : Prop := ∃ clock, 0 < clock.toNs ∧ s = { clock := clock }

def system : System LocTimers Op := .ofFunction Initial (fun s op => op.Enabled s) next

section Operations

variable {s : LocTimers} {client : Nat} {now : Timespec}

theorem updateSoonestTime_eq (s : LocTimers) (priorTop : Option Delegate) :
    ∃ armed polled, s.updateSoonestTime priorTop = { s with armed := armed, polled := polled } := by
  unfold updateSoonestTime
  dsimp only
  split
  · split
    · exact ⟨_, _, rfl⟩
    · exact ⟨_, _, rfl⟩
    · split
      · exact ⟨_, _, rfl⟩
      · exact ⟨_, _, rfl⟩
  · exact ⟨_, _, rfl⟩

theorem stop_cases (s : LocTimers) (client : Nat) :
    (s.mTimer client = none ∧ s.stop client = (false, s)) ∨
    ∃ timer own removal, s.mTimer client = some timer ∧ own.mClient = none ∧
      (removal = [] ∨ removal = [.timerRemove timer]) ∧
      s.stop client = (true, { s with
        mTimer := Function.update s.mTimer client none
        vars := Function.update s.vars timer.address own
        queue := s.queue ++ removal }) := by
  unfold stop
  cases htimer : s.mTimer client with
  | none => exact .inl ⟨rfl, rfl⟩
  | some timer =>
    right
    let own := { s.vars timer.address with mClient := none }
    unfold destroyLocked
    dsimp only
    split
    · exact ⟨timer, { own with mContainer := false }, [.timerRemove timer], rfl, rfl, .inr rfl,
        rfl⟩
    · refine ⟨timer, own, [], rfl, rfl, .inl rfl, ?_⟩
      rw [List.append_nil]

/-- What the clients leave as it is: all but the queue, to which they send, and their own
variables. -/
structure ClientStep (s s' : LocTimers) : Prop where
  heap : s'.heap = s.heap
  armed : s'.armed = s.armed
  polled : s'.polled = s.polled
  msgTask : s'.msgTask = s.msgTask
  pollTask : s'.pollTask = s.pollTask
  clock : s'.clock = s.clock
  callbacks : s'.callbacks = s.callbacks
  queue : ∃ sent, s'.queue = s.queue ++ sent

theorem clientStep_stop (s : LocTimers) (client : Nat) : s.ClientStep (s.stop client).2 := by
  rcases stop_cases s client with ⟨-, heq⟩ | ⟨timer, own, removal, -, -, -, heq⟩
  · rw [heq]
    exact ⟨rfl, rfl, rfl, rfl, rfl, rfl, rfl, [], (List.append_nil _).symm⟩
  · rw [heq]
    exact ⟨rfl, rfl, rfl, rfl, rfl, rfl, rfl, removal, rfl⟩

theorem clientStep_start (s : LocTimers) (client timeOutInMs : Nat) :
    s.ClientStep (s.start client timeOutInMs).2 := by
  unfold start
  split
  · exact ⟨rfl, rfl, rfl, rfl, rfl, rfl, rfl, [], (List.append_nil _).symm⟩
  · exact ⟨rfl, rfl, rfl, rfl, rfl, rfl, rfl, _, rfl⟩

theorem popTimer_eq (s : LocTimers) (now : Timespec) :
    s.popTimer now = { s with
      heap := (s.heap.pop Delegate.outRanks).2
      msgTask := .popped now s.heap.peek } := by
  rw [popTimer, LocHeap.pop_fst]

theorem popIfOutRanks_cases (s : LocTimers) (now : Timespec) :
    (∃ top, s.heap.peek = some top ∧ top.mFutureTime.toNs ≤ now.toNs ∧
      s.popIfOutRanks now = s.popTimer now) ∨
    ((∀ top, s.heap.peek = some top → now.toNs < top.mFutureTime.toNs) ∧
      s.popIfOutRanks now = { s with msgTask := .popped now none }) := by
  unfold popIfOutRanks
  cases htop : s.heap.peek with
  | none => exact .inr ⟨fun top h => absurd h (Option.some_ne_none top).symm, rfl⟩
  | some top =>
    dsimp only
    split
    · simp_all [Delegate.outRanks_iff]
    simp_all [Delegate.outRanks_iff]

theorem procPush_eq (s : LocTimers) (mTimer : Delegate) :
    ∃ armed polled, s.procPush mTimer = { s with
      heap := s.heap.push Delegate.outRanks mTimer, armed := armed, polled := polled } := by
  obtain ⟨armed, polled, heq⟩ := updateSoonestTime_eq
    { s with heap := s.heap.push Delegate.outRanks mTimer } s.heap.peek
  exact ⟨armed, polled, heq⟩

theorem procRemove_eq (s : LocTimers) (mTimer : Delegate) :
    ∃ armed polled, s.procRemove mTimer = { s with
      heap := (s.heap.remove Delegate.outRanks mTimer).2, armed := armed, polled := polled } := by
  unfold procRemove
  dsimp only
  split
  · obtain ⟨armed, polled, heq⟩ := updateSoonestTime_eq
      { s with heap := (s.heap.remove Delegate.outRanks mTimer).2 } none
    exact ⟨armed, polled, heq⟩
  · exact ⟨_, _, rfl⟩

end Operations

def Made (s : LocTimers) (timer : Delegate) : Prop :=
  timer.address < s.fresh ∧ 0 < timer.mFutureTime.toNs

structure HeapInv (s : LocTimers) : Prop where
  wellFormed : s.heap.WellFormed Delegate.outRanks
  stored : ∀ timer ∈ s.heap.elements, s.Made timer
  pushed : ∀ timer, .timerPush timer ∈ s.queue → s.Made timer
  clock : 0 < s.clock.toNs

variable {s : LocTimers}

theorem heapInv_stop (h : s.HeapInv) (client : Nat) : (s.stop client).2.HeapInv := by
  rcases stop_cases s client with ⟨-, heq⟩ | ⟨timer, own, removal, -, -, hremoval, heq⟩
  · rw [heq]
    exact h
  · rw [heq]
    refine { h with pushed := fun timer' hmem => h.pushed timer' ?_ }
    grind

theorem heapInv_start (h : s.HeapInv) (client timeOutInMs : Nat) :
    (s.start client timeOutInMs).2.HeapInv := by
  unfold start
  split
  · exact h
  · have hmade : ∀ timer, s.Made timer → timer.address < s.fresh + 1 ∧
        0 < timer.mFutureTime.toNs := fun timer hm => ⟨Nat.lt_succ_of_lt hm.1, hm.2⟩
    refine { wellFormed := h.wellFormed, clock := h.clock, stored := ?_, pushed := ?_ }
    · exact fun timer hmem => hmade timer (h.stored timer hmem)
    · intro timer hmem
      rcases List.mem_append.mp hmem with hmem | hmem
      · exact hmade timer (h.pushed timer hmem)
      · cases List.mem_singleton.mp hmem
        refine ⟨Nat.lt_succ_self _, ?_⟩
        have hclock := h.clock
        have htime := s.clock.toNs_after timeOutInMs
        show 0 < (s.clock.after timeOutInMs).toNs
        omega

theorem heapInv_popTimer (h : s.HeapInv) (now : Timespec) : (s.popTimer now).HeapInv :=
  { h with
    wellFormed := LocHeap.wellFormed_pop h.wellFormed
    stored := fun timer hmem =>
      h.stored timer (Multiset.mem_of_le (LocHeap.elements_pop_le h.wellFormed) hmem) }

theorem heapInv_popIfOutRanks (h : s.HeapInv) (now : Timespec) :
    (s.popIfOutRanks now).HeapInv := by
  rcases popIfOutRanks_cases s now with ⟨top, -, -, heq⟩ | ⟨-, heq⟩
  · rw [heq]
    exact heapInv_popTimer h now
  · rw [heq]
    exact { h with }

theorem heapInv_updateSoonestTime (h : s.HeapInv) (priorTop : Option Delegate) :
    (s.updateSoonestTime priorTop).HeapInv := by
  obtain ⟨armed, polled, heq⟩ := updateSoonestTime_eq s priorTop
  rw [heq]
  exact { h with }

theorem heapInv_tail (h : s.HeapInv) : HeapInv { s with queue := s.queue.tail } :=
  { h with pushed := fun timer hmem => h.pushed timer (List.mem_of_mem_tail hmem) }

theorem heapInv_push {mTimer : Delegate} (h : s.HeapInv) (hmade : s.Made mTimer) :
    HeapInv { s with heap := s.heap.push Delegate.outRanks mTimer } := by
  refine { h with wellFormed := LocHeap.wellFormed_push h.wellFormed, stored := ?_ }
  intro timer hmem
  rw [LocHeap.elements_push] at hmem
  rcases Multiset.mem_cons.mp hmem with rfl | hold
  · exact hmade
  · exact h.stored timer hold

theorem heapInv_remove (h : s.HeapInv) (mTimer : Delegate) :
    HeapInv { s with heap := (s.heap.remove Delegate.outRanks mTimer).2 } :=
  { h with
    wellFormed := LocHeap.wellFormed_remove h.wellFormed
    stored := fun timer hmem =>
      h.stored timer (Multiset.mem_of_le (LocHeap.elements_remove_le h.wellFormed) hmem) }

theorem heapInv_procRemove (h : s.HeapInv) (mTimer : Delegate) :
    (s.procRemove mTimer).HeapInv := by
  unfold procRemove
  dsimp only
  split
  · exact heapInv_updateSoonestTime (heapInv_remove h mTimer) none
  · exact heapInv_remove h mTimer

theorem heapInv_proc (h : s.HeapInv) : s.proc.HeapInv := by
  have htail := heapInv_tail h
  unfold proc
  split
  · exact h
  · rename_i mTimer hhead
    have hmade : s.Made mTimer := h.pushed mTimer (List.mem_of_mem_head? hhead)
    exact heapInv_updateSoonestTime (heapInv_push htail hmade) s.heap.peek
  · simp_all [heapInv_procRemove]
  · exact heapInv_popTimer htail s.clock

theorem heapInv_next {op : Op} (h : s.HeapInv) (henabled : op.Enabled s) : (s.next op).HeapInv := by
  cases op with
  | start client timeOutInMs => exact heapInv_start h client timeOutInMs
  | stop client => exact heapInv_stop h client
  | tick clock => exact { h with clock := Nat.lt_of_lt_of_le h.clock henabled }
  | wake => exact { h with }
  | disarm => exact { h with }
  | removePoll => exact { h with }
  | sendExpire =>
    refine { h with pushed := fun timer hmem => ?_ }
    rcases List.mem_append.mp hmem with hmem | hmem
    · exact h.pushed timer hmem
    · cases List.mem_singleton.mp hmem
  | proc => exact heapInv_proc h
  | expireTimer =>
    simp only [next, expireTimer]
    split
    · exact { h with }
    · exact { heapInv_updateSoonestTime h none with }
    · exact h
  | stopClient =>
    simp only [next, stopClient]
    split
    · rename_i now timer client hbusy
      have hstop := heapInv_stop h client
      have hcalled : ((s.stop client).2.timeOutCallback timer).HeapInv := { hstop with }
      split
      · exact heapInv_popIfOutRanks hcalled now
      · exact heapInv_popIfOutRanks hstop now
    · exact heapInv_popIfOutRanks h _
    · exact h

theorem heapInv_initial (h : Initial s) : s.HeapInv := by
  obtain ⟨clock, hclock, rfl⟩ := h
  exact {
    wellFormed := LocHeap.wellFormed_empty
    stored := fun _ hmem => absurd hmem (Multiset.notMem_zero _)
    pushed := fun _ hmem => absurd hmem List.not_mem_nil
    clock := hclock }

theorem heapInv_invariant : system.Invariant HeapInv where
  init _ h := heapInv_initial h
  step _ _ _ h hstep := hstep.2 ▸ heapInv_next h hstep.1

end LocTimers

end EtherDevice.GpsUtils
