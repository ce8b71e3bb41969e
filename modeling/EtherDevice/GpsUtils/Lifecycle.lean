import EtherDevice.GpsUtils.NeverEarly

/-!
# The life of a `LocTimerDelegate`

The runs of `LocTimers` with what can end a delegate's life: a client also destroys its
`LocTimer`, and `MsgTimerRemove` deletes the delegate. `LocTimerDelegate::expire` is cut once
more, between the `stop` that it forces and the callback, since the client can be destroyed
there. What the two steps do together is `LocTimers.stopClient`.

`created`, `deleted` and `stopped` record the delegates of the starts that succeeded, of the
`delete`s, and of the starts that a client was told to be stopped. `misused` records the
destroyed `LocTimer`s that `expire` still uses.
-/

namespace EtherDevice.GpsUtils

open Lib

/-- The timers with their clients' lives. -/
structure Lifecycle where
  timers : LocTimers
  /-- The client that `expire` has stopped and is about to call back. -/
  calling : Option Nat := none
  destroyed : List Nat := []
  created : List Delegate := []
  deleted : List Delegate := []
  stopped : List Delegate := []
  misused : List Nat := []

namespace Lifecycle

variable (s : Lifecycle)

def start (client timeOutInMs : Nat) : Lifecycle :=
  let started := s.timers.start client timeOutInMs
  { s with
    timers := started.2
    created := if started.1 then s.created ++ (started.2.mTimer client).toList else s.created }

def stop (client : Nat) : Lifecycle :=
  let answer := s.timers.stop client
  { s with
    timers := answer.2
    stopped := if answer.1 then s.stopped ++ (s.timers.mTimer client).toList else s.stopped }

def destroy (client : Nat) : Lifecycle :=
  let s' := s.stop client
  { s' with destroyed := client :: s'.destroyed }

/-- The message task takes a message. `MsgTimerRemove::proc` ends with the `delete`. -/
def proc : Lifecycle :=
  { s with
    timers := s.timers.proc
    deleted :=
      match s.timers.queue.head? with
      | some (.timerRemove mTimer) => s.deleted ++ [mTimer]
      | _ => s.deleted }

/-- The `stop` in `LocTimerDelegate::expire`. -/
def stopClient : Lifecycle :=
  match s.timers.msgTask with
  | .expiring now _ (some client) =>
    if client ∈ s.destroyed then
      { s with misused := client :: s.misused, timers := s.timers.popIfOutRanks now }
    else
      let answer := s.timers.stop client
      if answer.1 then { s with timers := answer.2, calling := some client }
      else { s with timers := answer.2.popIfOutRanks now }
  | .expiring now _ none => { s with timers := s.timers.popIfOutRanks now }
  | _ => s

def callBack : Lifecycle :=
  match s.timers.msgTask, s.calling with
  | .expiring now timer _, some client =>
    if client ∈ s.destroyed then
      { s with
        misused := client :: s.misused
        timers := s.timers.popIfOutRanks now
        calling := none }
    else
      { s with
        timers := (s.timers.timeOutCallback timer).popIfOutRanks now
        calling := none }
  | _, _ => s

inductive Keep where
  | tick (clock : Timespec)
  | wake
  | disarm
  | removePoll
  | sendExpire
deriving DecidableEq

def Keep.op : Keep → LocTimers.Op
  | .tick clock => .tick clock
  | .wake => .wake
  | .disarm => .disarm
  | .removePoll => .removePoll
  | .sendExpire => .sendExpire

inductive Op where
  | start (client timeOutInMs : Nat)
  | stop (client : Nat)
  | destroy (client : Nat)
  | keep (step : Keep)
  | proc
  | expireTimer
  | stopClient
  | callBack
deriving DecidableEq

/-- When a step can be taken. A client does not use its `LocTimer` after its end. -/
def Op.Enabled (s : Lifecycle) : Op → Prop
  | .start client _ | .stop client | .destroy client => client ∉ s.destroyed
  | .keep step => step.op.Enabled s.timers
  | .proc => LocTimers.Op.proc.Enabled s.timers
  | .expireTimer => LocTimers.Op.expireTimer.Enabled s.timers
  | .stopClient => LocTimers.Op.stopClient.Enabled s.timers ∧ s.calling = none
  | .callBack => s.calling ≠ none

instance (s : Lifecycle) (op : Op) : Decidable (op.Enabled s) := by
  cases op <;> unfold Op.Enabled <;> infer_instance

def next (s : Lifecycle) : Op → Lifecycle
  | .start client timeOutInMs => s.start client timeOutInMs
  | .stop client => s.stop client
  | .destroy client => s.destroy client
  | .keep step => { s with timers := s.timers.next step.op }
  | .proc => s.proc
  | .expireTimer => { s with timers := s.timers.expireTimer }
  | .stopClient => s.stopClient
  | .callBack => s.callBack

/-- A container without timers, and clients that nobody has destroyed. -/
def Initial (s : Lifecycle) : Prop := ∃ timers, timers.Initial ∧ s = { timers := timers }

/-- The runs of the container and its clients. -/
def system : System Lifecycle Op := .ofFunction Initial (fun s op => op.Enabled s) next

/-- A client's handle points to the delegate. -/
def Owned (s : Lifecycle) (timer : Delegate) : Prop :=
  ∃ client, s.timers.mTimer client = some timer

def called (s : Lifecycle) : List Delegate := s.timers.callbacks.map Prod.fst

def Held (s : Lifecycle) (timer : Delegate) : Prop :=
  ∃ now, s.timers.msgTask = .popped now (some timer)

def deletions (s : Lifecycle) (timer : Delegate) : Nat :=
  s.timers.queue.count (.timerRemove timer) + s.deleted.count timer

/-- The life of every delegate is in order. -/
structure Sound (s : Lifecycle) : Prop where
  /-- A delegate that no handle has any more is deleted once, or its one removal is queued. -/
  deletedOnce : ∀ timer ∈ s.created, ¬ s.Owned timer → s.deletions timer = 1
  /-- A delegate is not deleted as long as its client has it. -/
  owned : ∀ timer, s.Owned timer → timer ∈ s.created ∧ s.deletions timer = 0
  /-- Nothing else is deleted. -/
  deletedMade : ∀ timer ∈ s.deleted, timer ∈ s.created
  /-- After its deletion no delegate is in the heap, on its way there, or in use. -/
  gone : ∀ timer ∈ s.deleted, timer ∉ s.timers.heap.elements ∧
    .timerPush timer ∉ s.timers.queue ∧ ¬ s.Held timer
  /-- A callback runs at most once for a start. -/
  calledOnce : s.called.Nodup
  /-- It does not run for a start whose client was told that it is stopped. -/
  calledNotStopped : ∀ timer ∈ s.stopped, timer ∉ s.called
  /-- No `LocTimer` is used after its destruction. -/
  notMisused : s.misused = []

/-- `expire` finds its client as it read it: not destroyed, and not started again after it was
stopped. When it calls the client back, that is not destroyed either. -/
def Ok (s : Lifecycle) : Op → Prop
  | .stopClient =>
    match s.timers.msgTask with
    | .expiring _ timer (some client) =>
      client ∉ s.destroyed ∧
        (s.timers.mTimer client = none ∨ s.timers.mTimer client = some timer)
    | _ => True
  | .callBack => ∀ client ∈ s.calling, client ∉ s.destroyed
  | _ => True

instance (s : Lifecycle) : (op : Op) → Decidable (s.Ok op)
  | .stopClient => by
    unfold Ok
    dsimp only
    split <;> infer_instance
  | .callBack => inferInstanceAs (Decidable (∀ client ∈ s.calling, _))
  | .start _ _ | .stop _ | .destroy _ | .keep _ | .proc | .expireTimer => .isTrue trivial

end Lifecycle

end EtherDevice.GpsUtils
