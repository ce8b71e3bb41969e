import Mathlib
import EtherDevice.Lib.Transition

/-!
# The poll thread

Clients change the entries of a poll thread without a lock, and send it a command, which they may
wait for. A step is a locked section, a read of the pipe, or a statement on what threads share; the
poll set is the thread's own. The pipe does not fail, and no call is in progress when the struct is
cleared.
-/

namespace EtherDevice.MmStream.PollThread

open Lib

/-- `mm_camera_pipe_cmd_type_t`. The launch is acknowledged like a command, and counts as one. -/
inductive Cmd
  | launch
  | pollEntriesUpdated
  | pollEntriesUpdatedAsync
  | commit
  | exit
deriving DecidableEq

def Cmd.isUpdate : Cmd → Bool
  | .pollEntriesUpdated | .pollEntriesUpdatedAsync => true
  | _ => false

def Cmd.isSync : Cmd → Bool
  | .pollEntriesUpdatedAsync => false
  | _ => true

def maxStreamNumInBundle : Nat := 6

inductive PollType
  | evt | data
deriving DecidableEq

def PollType.slots : PollType → Nat
  | .evt => 1
  | .data => maxStreamNumInBundle

def PollType.idx : PollType → Nat → Nat
  | .evt, _ => 0
  | .data, handler => handler % 256

structure PollEntry where
  fd : Int := -1
  handler : Nat := 0
  notifyCb : Option Nat := none
  userData : Nat := 0

inductive Field
  | fd | handler | notifyCb | userData
deriving DecidableEq

/-- What `add_poll_fd` and `del_poll_fd` write, a field after the other. -/
inductive Change
  | add (entry : PollEntry)
  | del

def Change.write : Change → Field → PollEntry → PollEntry
  | .add entry, .fd, old => { old with fd := entry.fd }
  | .add entry, .handler, old => { old with handler := entry.handler }
  | .add entry, .notifyCb, old => { old with notifyCb := entry.notifyCb }
  | .add entry, .userData, old => { old with userData := entry.userData }
  | .del, .fd, old => { old with fd := -1 }
  | .del, .handler, old => { old with handler := 0 }
  | .del, .notifyCb, old => { old with notifyCb := none }
  | .del, .userData, old => old

def Change.after : Change → Field → Option Field
  | _, .fd => some .handler
  | _, .handler => some .notifyCb
  | .add _, .notifyCb => some .userData
  | _, _ => none

def Change.isDel : Change → Bool
  | .add _ => false
  | .del => true

inductive Call
  | launch
  | update (i : Nat) (isDel sync : Bool)
  | commit
  | release

def Call.cmd : Call → Cmd
  | .launch => .launch
  | .update _ _ true => .pollEntriesUpdated
  | .update _ _ false => .pollEntriesUpdatedAsync
  | .commit => .commit
  | .release => .exit

inductive ClientPc
  | idle
  | changing (i : Nat) (change : Change) (sync : Bool) (field : Field)
  | sending (call : Call)
  | waiting (call : Call) (n : Nat)
  | woken (call : Call) (n : Nat)
  | joining
  | freeing

inductive WorkerPc
  | starting
  | publishing
  | polling
  | updating (i : Nat)
  | copying (i : Nat)
  | stopping
  | acking
  | notifying (ready : List Nat)
  | calling (i : Nat) (ready : List Nat)
  | checking
  | ended

/-- `pollFds` are the `num_fds` descriptors past that of the pipe, `running` tells if `state` is
`POLL`, and `condV` lists the clients that wait for the condition. Of the commands `written`, the
first `read` have left the pipe. `returned` are the numbers of the commands whose calls returned.
`resetBy` is the client that made the descriptor of an entry invalid, and `removed` tells if its
call to wait has returned. -/
structure State where
  pollType : PollType
  pollEntries : Nat → PollEntry := fun _ => {}
  pollFds : List Int := []
  running : Bool := false
  status : Bool := false
  condV : List Nat
  written : List Cmd := [.launch]
  read : Nat := 1
  worker : WorkerPc := .starting
  client : Nat → ClientPc
  freed : Bool := false
  released : Bool := false
  returned : List Nat := []
  resetBy : Nat → Option Nat := fun _ => none
  removed : Nat → Bool := fun _ => false

def launched (pollType : PollType) (c : Nat) : State where
  pollType
  condV := [c]
  client := Function.update (fun _ => .idle) c (.waiting .launch 0)

inductive Label
  | sigDone (c : Nat)
  | publish | command | update | copy | stop
  | ready (revents : Nat → Bool)
  | pollFails | test | call | check
  | add (c : Nat) (entry : PollEntry) (sync : Bool)
  | del (c handler : Nat) (sync : Bool)
  | write (c : Nat)
  | commit (c : Nat)
  | release (c : Nat)
  | send (c : Nat)
  | wake (c : Nat)
  | join (c : Nat)
  | free (c : Nat)

namespace State

variable (s : State)

def setClient (c : Nat) (pc : ClientPc) : State :=
  { s with client := Function.update s.client c pc }

/-- What `poll` looks at for an entry; it ignores a negative descriptor. -/
def polled (i : Nat) : Option Int := s.pollFds[i]?.filter (0 ≤ ·)

def registered (i : Nat) : Option Int :=
  if 0 ≤ (s.pollEntries i).fd then some (s.pollEntries i).fd else none

/-- `pthread_cond_signal` wakes one of the clients, if any waits. -/
def signal (c : Nat) : State :=
  match s.client c with
  | .waiting call n =>
    if c ∈ s.condV then { s.setClient c (.woken call n) with condV := s.condV.erase c } else s
  | _ => s

def sigDone (c : Nat) : State :=
  { s.signal c with
    status := true
    worker := match s.worker with
      | .starting => .publishing
      | _ => .checking }

/-- `mm_camera_poll_proc_pipe`, up to the loop over the entries. -/
def command : State :=
  match s.written[s.read]? with
  | none => s
  | some cmd =>
    if cmd.isUpdate then { s with read := s.read + 1, pollFds := [], worker := .updating 0 }
    else if cmd = .commit then { s with read := s.read + 1, worker := .acking }
    else { s with read := s.read + 1, worker := .stopping }

def update : State :=
  match s.worker with
  | .updating i =>
    if i < s.pollType.slots then
      if 0 ≤ (s.pollEntries i).fd then { s with worker := .copying i }
      else
        { s with
          pollFds := if s.pollType = .data then s.pollFds ++ [-1] else s.pollFds
          worker := .updating (i + 1) }
    else if s.written[s.read - 1]? = some .pollEntriesUpdatedAsync then
      { s with worker := .checking }
    else { s with worker := .acking }
  | _ => s

def copy : State :=
  match s.worker with
  | .copying i =>
    { s with
      pollFds := s.pollFds ++ [(s.pollEntries i).fd]
      worker := .updating (i + 1) }
  | _ => s

/-- `poll` returns with events of some entries, and none of the pipe. -/
def ready (revents : Nat → Bool) : State :=
  { s with
    worker := .notifying ((List.range s.pollFds.length).filter fun i =>
      revents i && (s.polled i).isSome) }

/-- Whether the next entry has a `notify_cb`. -/
def test : State :=
  match s.worker with
  | .notifying (i :: ready) =>
    if (s.pollEntries i).notifyCb.isSome then { s with worker := .calling i ready }
    else { s with worker := .notifying ready }
  | _ => { s with worker := .checking }

def call : State :=
  match s.worker with
  | .calling _ ready => { s with worker := .notifying ready }
  | _ => s

def add (c : Nat) (entry : PollEntry) (sync : Bool) : State :=
  if s.pollType.idx entry.handler < maxStreamNumInBundle then
    s.setClient c (.changing (s.pollType.idx entry.handler) (.add entry) sync .fd)
  else s.setClient c .idle

def del (c handler : Nat) (sync : Bool) : State :=
  if s.pollType.idx handler < maxStreamNumInBundle ∧
      handler = (s.pollEntries (s.pollType.idx handler)).handler then
    s.setClient c (.changing (s.pollType.idx handler) .del sync .fd)
  else s.setClient c .idle

def write (c : Nat) : State :=
  match s.client c with
  | .changing i change sync field =>
    { s with
      pollEntries :=
        Function.update s.pollEntries i (change.write field (s.pollEntries i))
      client := Function.update s.client c (match change.after field with
        | some field => .changing i change sync field
        | none => .sending (.update i change.isDel sync))
      resetBy := if field = .fd then
          Function.update s.resetBy i (if change.isDel then some c else none)
        else s.resetBy
      removed := if field = .fd then
          Function.update s.removed i (change.isDel && s.removed i)
        else s.removed }
  | _ => s

def release (c : Nat) : State :=
  if s.running then s.setClient c (.sending .release)
  else { s.setClient c .idle with released := true }

/-- `mm_camera_poll_sig`, up to its wait, and `mm_camera_poll_sig_async`. -/
def send (c : Nat) : State :=
  match s.client c with
  | .sending call =>
    if call.cmd.isSync then
      { s.setClient c (.waiting call s.written.length) with
        status := false
        written := s.written ++ [call.cmd]
        condV := s.condV ++ [c] }
    else { s.setClient c .idle with status := false, written := s.written ++ [call.cmd] }
  | _ => s

/-- The rest of a call that waited; `release` goes on to join the thread. -/
def wake (c : Nat) : State :=
  match s.client c with
  | .woken call n =>
    { s.setClient c (match call with
        | .release => .joining
        | _ => .idle) with
      returned := n :: s.returned
      removed := match call with
        | .update i true _ =>
          Function.update s.removed i (s.removed i || decide (s.resetBy i = some c))
        | _ => s.removed }
  | _ => s

end State

def next (s : State) : Label → State
  | .sigDone c => s.sigDone c
  | .publish => { s with running := true, worker := .polling }
  | .command => s.command
  | .update => s.update
  | .copy => s.copy
  | .stop => { s with running := false, worker := .acking }
  | .ready revents => s.ready revents
  | .pollFails => { s with worker := .checking }
  | .test => s.test
  | .call => s.call
  | .check => { s with worker := if s.running then .polling else .ended }
  | .add c entry sync => s.add c entry sync
  | .del c handler sync => s.del c handler sync
  | .write c => s.write c
  | .commit c => s.setClient c (.sending .commit)
  | .release c => s.release c
  | .send c => s.send c
  | .wake c => s.wake c
  | .join c => s.setClient c .freeing
  | .free c => { s.setClient c .idle with running := false, freed := true, released := true }

def Enabled (s : State) : Label → Prop
  | .sigDone c => (s.worker = .starting ∨ s.worker = .acking) ∧ (s.condV = [] ∨ c ∈ s.condV)
  | .publish => s.worker = .publishing
  | .command => s.worker = .polling ∧ s.read < s.written.length
  | .update => ∃ i, s.worker = .updating i
  | .copy => ∃ i, s.worker = .copying i
  | .stop => s.worker = .stopping
  | .ready _ => s.worker = .polling ∧ s.read = s.written.length
  | .pollFails => s.worker = .polling
  | .test => ∃ ready, s.worker = .notifying ready
  | .call => ∃ i ready, s.worker = .calling i ready
  | .check => s.worker = .checking
  | .release c => s.client c = .idle
  | .add c _ _ | .del c _ _ | .commit c => s.client c = .idle ∧ s.freed = false
  | .write c => ∃ i change sync field, s.client c = .changing i change sync field
  | .send c => ∃ call, s.client c = .sending call
  | .wake c => ∃ call n, s.client c = .woken call n
  | .join c => s.client c = .joining ∧ s.worker = .ended
  | .free c => s.client c = .freeing ∧ ∀ c', c' ≠ c → s.client c' = .idle

def system : System State Label :=
  .ofFunction (fun s => ∃ pollType c, s = launched pollType c) Enabled next

end EtherDevice.MmStream.PollThread
