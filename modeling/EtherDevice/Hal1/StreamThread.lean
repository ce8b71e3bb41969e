import EtherDevice.Lib.Transition
import Mathlib.Data.List.Perm.Basic
import Mathlib.Logic.Function.Basic

/-!
# The thread of a stream

`dataNotifyCB` queues a copy of a frame and sends a command for it. The thread of
`dataProcRoutine` takes a frame for each command, until it takes the command to exit, which `stop`
puts at the front. A step is an operation of a queue or of the semaphore, or what a frame is given
to. Frames are numbered as they arrive, and a thread by its `pthread_t`, which is not 0.
-/

namespace EtherDevice.Hal1.StreamThread

open Lib

inductive Cmd
  | doNextJob | exit
deriving DecidableEq

/-- Where a thread is in `dataProcRoutine`; `ended` also for one that was not created. -/
inductive ThreadPc
  | ended
  | waiting
  | woken
  | dequeuing
  | calling (frame : Nat)
  | flushing
deriving DecidableEq

/-- Where the caller of `start` and `stop` is. -/
inductive Control
  | idle
  | launching
  | exiting
  | posting
  | joining
deriving DecidableEq

/-- `toSend` and `toPost` count the calls of `dataNotifyCB` that have queued their frame: before
the command is queued, and before the semaphore is posted. `refused` are the frames of the calls
that found the queue inactive. `atStop` is how many frames `mDataCB` had when `stop` returned, up
to the next `start`. -/
structure State where
  hasDataCB : Bool
  dataQ : List Nat := []
  active : Bool := true
  cmdQueue : List Cmd := []
  cmdSem : Nat := 0
  thread : Nat → ThreadPc := fun _ => .ended
  cmdPid : Nat := 0
  nextPid : Nat := 1
  control : Control := .idle
  toSend : Nat := 0
  toPost : Nat := 0
  refused : List Nat := []
  received : Nat := 0
  delivered : List Nat := []
  returned : List Nat := []
  atStop : Option Nat := none

inductive Label
  | enqueue | sendCmd | post
  | refuse (frame : Nat)
  | wait (p : Nat)
  | getCmd (p : Nat)
  | dequeue (p : Nat)
  | dataCB (p : Nat)
  | flush (p : Nat)
  | init | launch | stop | sendExit | postExit | join

namespace State

variable (s : State)

def setThread (p : Nat) (pc : ThreadPc) : State :=
  { s with thread := Function.update s.thread p pc }

def enqueue : State :=
  if s.active then
    { s with
      dataQ := s.dataQ ++ [s.received]
      received := s.received + 1
      toSend := s.toSend + 1 }
  else { s with refused := s.refused ++ [s.received], received := s.received + 1 }

def getCmd (p : Nat) : State :=
  match s.cmdQueue with
  | [] => s.setThread p .waiting
  | .doNextJob :: cmdQueue => { s.setThread p .dequeuing with cmdQueue }
  | .exit :: cmdQueue => { s.setThread p .flushing with cmdQueue }

def dequeue (p : Nat) : State :=
  if s.active then
    match s.dataQ with
    | [] => s.setThread p .waiting
    | frame :: dataQ => { s.setThread p (.calling frame) with dataQ }
  else s.setThread p .waiting

/-- The frame is passed on, or given back if there is no callback. -/
def dataCB (p : Nat) : State :=
  match s.thread p with
  | .calling frame =>
    if s.hasDataCB then { s.setThread p .waiting with delivered := s.delivered ++ [frame] }
    else { s.setThread p .waiting with returned := s.returned ++ [frame] }
  | _ => s

def flush (p : Nat) : State :=
  if s.active then
    { s.setThread p .ended with
      dataQ := []
      active := false
      returned := s.returned ++ s.dataQ }
  else s.setThread p .ended

def stop : State :=
  if s.cmdPid = 0 then { s with atStop := some s.delivered.length }
  else { s with control := .exiting }

end State

def next (s : State) : Label → State
  | .enqueue => s.enqueue
  | .sendCmd =>
    { s with
      cmdQueue := s.cmdQueue ++ [.doNextJob]
      toSend := s.toSend - 1
      toPost := s.toPost + 1 }
  | .post => { s with cmdSem := s.cmdSem + 1, toPost := s.toPost - 1 }
  | .refuse frame =>
    { s with refused := s.refused.erase frame, returned := s.returned ++ [frame] }
  | .wait p => { s.setThread p .woken with cmdSem := s.cmdSem - 1 }
  | .getCmd p => s.getCmd p
  | .dequeue p => s.dequeue p
  | .dataCB p => s.dataCB p
  | .flush p => s.flush p
  | .init => { s with active := true, control := .launching, atStop := none }
  | .launch =>
    { s.setThread s.nextPid .waiting with
      cmdPid := s.nextPid
      nextPid := s.nextPid + 1
      control := .idle }
  | .stop => s.stop
  | .sendExit => { s with cmdQueue := .exit :: s.cmdQueue, control := .posting }
  | .postExit => { s with cmdSem := s.cmdSem + 1, control := .joining }
  | .join => { s with cmdPid := 0, control := .idle, atStop := some s.delivered.length }

def Enabled (s : State) : Label → Prop
  | .enqueue => True
  | .sendCmd => 0 < s.toSend
  | .post => 0 < s.toPost
  | .refuse frame => frame ∈ s.refused
  | .wait p => s.thread p = .waiting ∧ 0 < s.cmdSem
  | .getCmd p => s.thread p = .woken
  | .dequeue p => s.thread p = .dequeuing
  | .dataCB p => ∃ frame, s.thread p = .calling frame
  | .flush p => s.thread p = .flushing
  | .init => s.control = .idle
  | .launch => s.control = .launching
  | .stop => s.control = .idle
  | .sendExit => s.control = .exiting
  | .postExit => s.control = .posting
  | .join => s.control = .joining ∧ s.thread s.cmdPid = .ended

/-- `start` is called for a stream whose thread does not run. -/
def Cond (s : State) : Label → Prop
  | .init => s.cmdPid = 0
  | _ => True

def system : System State Label :=
  .ofFunction (fun s => ∃ hasDataCB, s = { hasDataCB }) Enabled next

def ThreadPc.hand : ThreadPc → List Nat
  | .calling frame => [frame]
  | _ => []

/-- The frames that are not disposed of yet. -/
def State.held (s : State) : List Nat := (s.thread s.cmdPid).hand ++ s.dataQ ++ s.refused

/-- The frames that a waiting thread leaves in the queue are those of calls of `dataNotifyCB` that
have not posted the semaphore. -/
structure Served (s : State) : Prop where
  once : (s.delivered ++ s.returned ++ s.held).Perm (List.range s.received)
  /-- With no call in progress, nothing is held by a thread that waits or has exited. -/
  settled : s.refused = [] → s.toSend = 0 → s.toPost = 0 →
    (∃ p, s.thread p = .waiting ∧ s.cmdSem = 0) ∨
      s.active = false ∧ s.thread s.cmdPid = .ended →
    (s.delivered ++ s.returned).Perm (List.range s.received)
  order : s.delivered.Pairwise (· < ·)
  idle : ∀ p, s.thread p = .waiting → s.cmdSem = 0 → s.dataQ.length ≤ s.toSend + s.toPost
  stopped : ∀ n ∈ s.atStop, s.delivered.length = n

/-! ## The invariant -/

def ThreadPc.isWoken : ThreadPc → Nat
  | .woken => 1
  | _ => 0

def ThreadPc.isDequeuing : ThreadPc → Nat
  | .dequeuing => 1
  | _ => 0

def Control.isPosting : Control → Nat
  | .posting => 1
  | _ => 0

def Exits (s : State) : Prop :=
  match s.control with
  | .posting | .joining =>
    s.cmdPid ≠ 0 ∧ (s.cmdQueue.count .exit = 1 ∧ s.thread s.cmdPid ≠ .ended ∧
        s.thread s.cmdPid ≠ .flushing ∨
      s.cmdQueue.count .exit = 0 ∧
        (s.thread s.cmdPid = .flushing ∨ s.thread s.cmdPid = .ended))
  | .launching => s.cmdPid = 0 ∧ s.cmdQueue.count .exit = 0
  | .exiting => s.cmdPid ≠ 0 ∧ s.cmdQueue.count .exit = 0 ∧ s.thread s.cmdPid ≠ .ended ∧
      s.thread s.cmdPid ≠ .flushing
  | .idle => s.cmdQueue.count .exit = 0 ∧ (s.cmdPid ≠ 0 → s.thread s.cmdPid ≠ .ended ∧
      s.thread s.cmdPid ≠ .flushing)

structure Inv (s : State) : Prop where
  once : (s.delivered ++ s.returned ++ s.held).Perm (List.range s.received)
  order : (s.delivered ++ ((s.thread s.cmdPid).hand ++ s.dataQ)).Pairwise (· < ·)
  alone : ∀ p, p ≠ s.cmdPid ∨ p = 0 → s.thread p = .ended
  pid : s.cmdPid < s.nextPid
  inactive : s.active = false → s.dataQ = []
  exits : Exits s
  /-- A frame in the queue has a command. -/
  cmds : s.dataQ.length ≤
    s.cmdQueue.count .doNextJob + s.toSend + (s.thread s.cmdPid).isDequeuing
  /-- A command in the queue has a count of the semaphore, but for those in between. -/
  tokens : s.cmdQueue.length =
    s.cmdSem + (s.thread s.cmdPid).isWoken + s.toPost + s.control.isPosting
  stopped : ∀ n ∈ s.atStop, s.delivered.length = n ∧ s.cmdPid = 0 ∧ s.control = .idle

variable {s : State}

theorem inv_init (hasDataCB : Bool) : Inv { hasDataCB } where
  once := by simp [State.held, ThreadPc.hand]
  order := by simp [ThreadPc.hand]
  alone := by simp
  pid := Nat.zero_lt_one
  inactive h := by simp at h
  exits := ⟨rfl, fun h => absurd rfl h⟩
  cmds := Nat.zero_le _
  tokens := rfl
  stopped := by simp

theorem length_eq_count (l : List Cmd) :
    l.length = l.count .doNextJob + l.count .exit := by
  induction l with
  | nil => rfl
  | cons c l ih => cases c <;> simp [ih] <;> omega

theorem Inv.pid_of_ne_ended (hs : Inv s) {p : Nat} (hp : s.thread p ≠ .ended) :
    p = s.cmdPid ∧ s.cmdPid ≠ 0 := by
  constructor
  · by_contra hne
    exact hp (hs.alone p (Or.inl hne))
  · intro hzero
    by_cases hne : p = s.cmdPid
    · exact hp (hs.alone p (Or.inr (hne.trans hzero)))
    · exact hp (hs.alone p (Or.inl hne))

theorem Inv.idle (hs : Inv s) {p : Nat} (hp : s.thread p = .waiting) (hsem : s.cmdSem = 0) :
    s.dataQ.length ≤ s.toSend + s.toPost := by
  obtain ⟨rfl, -⟩ := hs.pid_of_ne_ended (p := p) (by simp [hp])
  have hcmds := hs.cmds
  have htokens := hs.tokens
  have hexits := hs.exits
  rw [length_eq_count] at htokens
  rw [Exits] at hexits
  rw [hp] at hcmds htokens
  simp only [ThreadPc.isDequeuing, ThreadPc.isWoken] at hcmds htokens
  cases hcontrol : s.control <;> simp [hcontrol, hp, Control.isPosting] at hexits htokens <;> omega

theorem Inv.served (hs : Inv s) : Served s := by
  refine ⟨hs.once, fun hrefused hsend hpost hrest => ?_, (List.pairwise_append.1 hs.order).1,
    fun p => hs.idle, fun n hn => (hs.stopped n hn).1⟩
  have hheld : s.held = [] := by
    obtain ⟨p, hp, hsem⟩ | ⟨hactive, hended⟩ := hrest
    · have hidle := hs.idle hp hsem
      rw [hsend, hpost] at hidle
      rw [(hs.pid_of_ne_ended (p := p) (by simp [hp])).1] at hp
      rw [State.held, hp, hrefused, List.length_eq_zero_iff.1 (Nat.le_zero.1 hidle)]
      rfl
    · rw [State.held, hended, hrefused, hs.inactive hactive]
      rfl
  simpa [hheld] using hs.once

/-! ## The steps -/

theorem Inv.lt_received (hs : Inv s) {frame : Nat}
    (h : frame ∈ s.delivered ++ ((s.thread s.cmdPid).hand ++ s.dataQ)) : frame < s.received := by
  refine List.mem_range.1 (hs.once.mem_iff.1 ?_)
  simp only [State.held, List.mem_append] at h ⊢
  tauto

theorem Inv.enqueue (hs : Inv s) : Inv s.enqueue := by
  have hcmds := hs.cmds
  rw [State.enqueue]
  split_ifs with hactive
  · refine ⟨?_, ?_, hs.alone, hs.pid, fun h => ?_, hs.exits, ?_, hs.tokens, hs.stopped⟩
    · rw [List.range_succ]
      refine List.Perm.trans ?_ (hs.once.append_right [s.received])
      simp only [State.held, List.append_assoc]
      exact .append_left _ (.append_left _ (.append_left _ (.append_left _ List.perm_append_comm)))
    · dsimp only
      rw [← List.append_assoc, ← List.append_assoc, List.pairwise_append]
      refine ⟨by simpa using hs.order, List.pairwise_singleton _ _, fun a ha b hb => ?_⟩
      rw [List.mem_singleton.1 hb]
      exact hs.lt_received (by simpa using ha)
    · simp [hactive] at h
    · simp only [List.length_append, List.length_singleton]
      omega
  · refine ⟨?_, hs.order, hs.alone, hs.pid, hs.inactive, hs.exits, hcmds, hs.tokens, hs.stopped⟩
    rw [List.range_succ]
    refine List.Perm.trans ?_ (hs.once.append_right [s.received])
    simp only [State.held, List.append_assoc]
    exact .refl _

theorem Inv.sendCmd (hs : Inv s) (htoSend : 0 < s.toSend) : Inv (next s .sendCmd) := by
  have hcmds := hs.cmds
  have htokens := hs.tokens
  refine ⟨hs.once, hs.order, hs.alone, hs.pid, hs.inactive, ?_, ?_, ?_, hs.stopped⟩
  · have hexits := hs.exits
    simpa [Exits, next] using hexits
  · simp only [next, List.count_append, List.count_singleton_self]
    omega
  · simp only [next, List.length_append, List.length_singleton]
    omega

theorem Inv.post (hs : Inv s) (htoPost : 0 < s.toPost) : Inv (next s .post) := by
  have htokens := hs.tokens
  refine ⟨hs.once, hs.order, hs.alone, hs.pid, hs.inactive, hs.exits, hs.cmds, ?_, hs.stopped⟩
  simp only [next]
  omega

theorem Inv.refuse (hs : Inv s) {frame : Nat} (hframe : frame ∈ s.refused) :
    Inv (next s (.refuse frame)) := by
  refine ⟨?_, hs.order, hs.alone, hs.pid, hs.inactive, hs.exits, hs.cmds, hs.tokens, hs.stopped⟩
  refine List.Perm.trans ?_ hs.once
  simp only [State.held, next, List.append_assoc]
  refine .append_left _ (.append_left _ (List.perm_iff_count.2 fun a => ?_))
  have herase := (List.perm_cons_erase hframe).count_eq a
  simp only [List.count_append, List.count_cons, List.count_nil] at herase ⊢
  omega

theorem Inv.alone_update (hs : Inv s) (hpid : s.cmdPid ≠ 0) (pc : ThreadPc) {q : Nat}
    (hq : q ≠ s.cmdPid ∨ q = 0) : Function.update s.thread s.cmdPid pc q = .ended := by
  have hne : q ≠ s.cmdPid := by
    obtain hq | rfl := hq
    · exact hq
    · exact fun h => hpid h.symm
  rw [Function.update_of_ne hne]
  exact hs.alone q hq

theorem Exits.of_running {s' : State} (h : Exits s)
    (hrun : s.thread s.cmdPid ≠ .ended ∧ s.thread s.cmdPid ≠ .flushing)
    (hrun' : s'.thread s'.cmdPid ≠ .ended ∧ s'.thread s'.cmdPid ≠ .flushing)
    (hcontrol : s'.control = s.control) (hpid : s'.cmdPid = s.cmdPid)
    (hcount : s'.cmdQueue.count .exit = s.cmdQueue.count .exit) : Exits s' := by
  rw [Exits, hcontrol, hcount]
  rw [Exits] at h
  rw [hpid] at hrun' ⊢
  cases hcontrol : s.control <;> simp_all

theorem Inv.wait (hs : Inv s) {p : Nat} (hp : s.thread p = .waiting) (hsem : 0 < s.cmdSem) :
    Inv (next s (.wait p)) := by
  obtain ⟨rfl, hpid⟩ := hs.pid_of_ne_ended (p := p) (by simp [hp])
  have htokens := hs.tokens
  have honce := hs.once
  have horder := hs.order
  have hcmds := hs.cmds
  simp only [State.held, hp, ThreadPc.hand, ThreadPc.isWoken, ThreadPc.isDequeuing]
    at htokens honce horder hcmds
  refine ⟨?_, ?_, fun q hq => hs.alone_update hpid _ hq, hs.pid, hs.inactive, ?_, ?_, ?_,
    hs.stopped⟩
  · simpa [State.held, next, State.setThread, ThreadPc.hand] using honce
  · simpa [next, State.setThread, ThreadPc.hand] using horder
  · exact hs.exits.of_running (by simp [hp]) (by simp [next, State.setThread]) rfl rfl rfl
  · simpa [next, State.setThread, ThreadPc.isDequeuing] using hcmds
  · simp only [next, State.setThread, Function.update_self, ThreadPc.isWoken]
    omega

theorem Inv.getCmd (hs : Inv s) {p : Nat} (hp : s.thread p = .woken) : Inv (s.getCmd p) := by
  obtain ⟨rfl, hpid⟩ := hs.pid_of_ne_ended (p := p) (by simp [hp])
  have htokens := hs.tokens
  have honce := hs.once
  have horder := hs.order
  have hcmds := hs.cmds
  have hexits := hs.exits
  simp only [State.held, hp, ThreadPc.hand, ThreadPc.isWoken, ThreadPc.isDequeuing]
    at htokens honce horder hcmds
  rw [State.getCmd]
  split
  · rename_i hqueue
    simp only [hqueue, List.length_nil] at htokens
    omega
  · rename_i cmdQueue hqueue
    simp only [hqueue, List.length_cons, List.count_cons_self] at htokens hcmds
    refine ⟨?_, ?_, fun q hq => hs.alone_update hpid _ hq, hs.pid, hs.inactive, ?_, ?_, ?_,
      hs.stopped⟩
    · simpa [State.held, State.setThread, ThreadPc.hand] using honce
    · simpa [State.setThread, ThreadPc.hand] using horder
    · exact hs.exits.of_running (by simp [hp]) (by simp [State.setThread]) rfl rfl
        (by simp [hqueue])
    · simp only [State.setThread, Function.update_self, ThreadPc.isDequeuing]
      omega
    · simp only [State.setThread, Function.update_self, ThreadPc.isWoken]
      omega
  · rename_i cmdQueue hqueue
    have hdoNext : s.cmdQueue.count .doNextJob = cmdQueue.count .doNextJob := by simp [hqueue]
    have hcount : s.cmdQueue.count .exit = cmdQueue.count .exit + 1 := by simp [hqueue]
    simp only [hqueue, List.length_cons] at htokens
    refine ⟨?_, ?_, fun q hq => hs.alone_update hpid _ hq, hs.pid, hs.inactive, ?_, ?_, ?_,
      hs.stopped⟩
    · simpa [State.held, State.setThread, ThreadPc.hand] using honce
    · simpa [State.setThread, ThreadPc.hand] using horder
    · -- only a call of `stop` puts this command there
      rw [Exits, hcount] at hexits
      cases hcontrol : s.control <;> simp [Exits, State.setThread, hcontrol, hpid] at hexits ⊢
      · exact hexits.1
      · exact hexits.1
    · simp only [State.setThread, Function.update_self, ThreadPc.isDequeuing]
      omega
    · simp only [State.setThread, Function.update_self, ThreadPc.isWoken]
      omega

theorem Inv.dequeue (hs : Inv s) {p : Nat} (hp : s.thread p = .dequeuing) : Inv (s.dequeue p) := by
  obtain ⟨rfl, hpid⟩ := hs.pid_of_ne_ended (p := p) (by simp [hp])
  have htokens := hs.tokens
  have honce := hs.once
  have horder := hs.order
  have hcmds := hs.cmds
  simp only [State.held, hp, ThreadPc.hand, ThreadPc.isWoken, ThreadPc.isDequeuing]
    at htokens honce horder hcmds
  have hempty : s.dataQ = [] → Inv (s.setThread s.cmdPid .waiting) := by
    intro hnil
    refine ⟨?_, ?_, fun q hq => hs.alone_update hpid _ hq, hs.pid, hs.inactive, ?_, ?_, ?_,
      hs.stopped⟩
    · simpa [State.held, State.setThread, ThreadPc.hand] using honce
    · simpa [State.setThread, ThreadPc.hand] using horder
    · exact hs.exits.of_running (by simp [hp]) (by simp [State.setThread]) rfl rfl rfl
    · simp [State.setThread, hnil]
    · simpa [State.setThread, ThreadPc.isWoken] using htokens
  rw [State.dequeue]
  split_ifs with hactive
  · split
    · rename_i hnil
      exact hempty hnil
    · rename_i frame dataQ hqueue
      simp only [hqueue, List.length_cons] at honce horder hcmds
      refine ⟨?_, ?_, fun q hq => hs.alone_update hpid _ hq, hs.pid, fun h => ?_, ?_, ?_, ?_,
        hs.stopped⟩
      · simpa [State.held, State.setThread, ThreadPc.hand] using honce
      · simpa [State.setThread, ThreadPc.hand] using horder
      · simp [State.setThread, hactive] at h
      · exact hs.exits.of_running (by simp [hp]) (by simp [State.setThread]) rfl rfl rfl
      · simp only [State.setThread, Function.update_self, ThreadPc.isDequeuing]
        omega
      · simpa [State.setThread, ThreadPc.isWoken] using htokens
  · exact hempty (hs.inactive (by simpa using hactive))

theorem Inv.dataCB (hs : Inv s) {p frame : Nat} (hp : s.thread p = .calling frame) :
    Inv (s.dataCB p) := by
  obtain ⟨rfl, hpid⟩ := hs.pid_of_ne_ended (p := p) (by simp [hp])
  have htokens := hs.tokens
  have honce := hs.once
  have horder := hs.order
  have hcmds := hs.cmds
  have hstopped := hs.stopped
  simp only [State.held, hp, ThreadPc.hand, ThreadPc.isWoken, ThreadPc.isDequeuing]
    at htokens honce horder hcmds
  have hexits : ∀ s' : State, s'.thread = Function.update s.thread s.cmdPid .waiting →
      s'.control = s.control → s'.cmdPid = s.cmdPid → s'.cmdQueue = s.cmdQueue → Exits s' := by
    intro s' hthread hcontrol hpid' hqueue
    exact hs.exits.of_running (by simp [hp]) (by simp [hthread, hpid']) hcontrol hpid'
      (by rw [hqueue])
  rw [State.dataCB, hp]
  dsimp only
  split_ifs
  · refine ⟨?_, ?_, fun q hq => hs.alone_update hpid _ hq, hs.pid, hs.inactive,
      hexits _ rfl rfl rfl rfl, ?_, ?_, fun n hn => ?_⟩
    · refine List.Perm.trans (List.perm_iff_count.2 fun a => ?_) honce
      simp only [State.held, State.setThread, Function.update_self, ThreadPc.hand,
        List.count_append, List.nil_append]
      omega
    · simpa [State.setThread, ThreadPc.hand] using horder
    · simpa [State.setThread, ThreadPc.isDequeuing] using hcmds
    · simpa [State.setThread, ThreadPc.isWoken] using htokens
    · exact absurd (hstopped n hn).2.1 hpid
  · refine ⟨?_, ?_, fun q hq => hs.alone_update hpid _ hq, hs.pid, hs.inactive,
      hexits _ rfl rfl rfl rfl, ?_, ?_, hstopped⟩
    · refine List.Perm.trans (List.perm_iff_count.2 fun a => ?_) honce
      simp only [State.held, State.setThread, Function.update_self, ThreadPc.hand,
        List.count_append, List.nil_append]
      omega
    · simp only [State.setThread, Function.update_self, ThreadPc.hand, List.nil_append]
      exact horder.sublist (.append_left (List.sublist_append_right _ _) _)
    · simpa [State.setThread, ThreadPc.isDequeuing] using hcmds
    · simpa [State.setThread, ThreadPc.isWoken] using htokens

theorem Inv.flush (hs : Inv s) {p : Nat} (hp : s.thread p = .flushing) : Inv (s.flush p) := by
  obtain ⟨rfl, hpid⟩ := hs.pid_of_ne_ended (p := p) (by simp [hp])
  have htokens := hs.tokens
  have honce := hs.once
  have horder := hs.order
  have hcmds := hs.cmds
  simp only [State.held, hp, ThreadPc.hand, ThreadPc.isWoken, ThreadPc.isDequeuing]
    at htokens honce horder hcmds
  have hexits : ∀ s' : State, s'.thread = Function.update s.thread s.cmdPid .ended →
      s'.control = s.control → s'.cmdPid = s.cmdPid → s'.cmdQueue = s.cmdQueue → Exits s' := by
    intro s' hthread hcontrol hpid' hqueue
    have h := hs.exits
    rw [Exits] at h ⊢
    rw [hcontrol, hpid', hqueue, hthread]
    cases hc : s.control <;> simp_all
  rw [State.flush]
  split_ifs with hactive
  · refine ⟨?_, ?_, fun q hq => hs.alone_update hpid _ hq, hs.pid, fun _ => rfl,
      hexits _ rfl rfl rfl rfl, Nat.zero_le _, ?_, hs.stopped⟩
    · refine List.Perm.trans (List.perm_iff_count.2 fun a => ?_) honce
      simp only [State.held, State.setThread, Function.update_self, ThreadPc.hand,
        List.count_append, List.nil_append]
      omega
    · simp only [State.setThread, Function.update_self, ThreadPc.hand, List.append_nil]
      exact horder.sublist (List.sublist_append_left _ _)
    · simpa [State.setThread, ThreadPc.isWoken] using htokens
  · refine ⟨?_, ?_, fun q hq => hs.alone_update hpid _ hq, hs.pid, hs.inactive,
      hexits _ rfl rfl rfl rfl, ?_, ?_, hs.stopped⟩
    · simpa [State.held, State.setThread, ThreadPc.hand] using honce
    · simpa [State.setThread, ThreadPc.hand] using horder
    · simpa [State.setThread, ThreadPc.isDequeuing] using hcmds
    · simpa [State.setThread, ThreadPc.isWoken] using htokens

/-! ## Starting and stopping -/

theorem Inv.init (hs : Inv s) (hcontrol : s.control = .idle) (hpid : s.cmdPid = 0) :
    Inv (next s .init) := by
  have hexits := hs.exits
  have htokens := hs.tokens
  rw [Exits, hcontrol] at hexits
  rw [hcontrol] at htokens
  exact ⟨hs.once, hs.order, hs.alone, hs.pid, fun h => by simp [next] at h, ⟨hpid, hexits.1⟩,
    hs.cmds, htokens, by simp [next]⟩

theorem Inv.launch (hs : Inv s) (hcontrol : s.control = .launching) : Inv (next s .launch) := by
  have hexits := hs.exits
  have htokens := hs.tokens
  have honce := hs.once
  have horder := hs.order
  have hcmds := hs.cmds
  rw [Exits, hcontrol] at hexits
  obtain ⟨hpid, hcount⟩ := hexits
  have hended : s.thread s.cmdPid = .ended := hs.alone _ (Or.inr hpid)
  have hlt := hs.pid
  simp only [State.held, hended, hcontrol, ThreadPc.hand, ThreadPc.isWoken, ThreadPc.isDequeuing,
    Control.isPosting] at htokens honce horder hcmds
  refine ⟨?_, ?_, fun q hq => ?_, Nat.lt_succ_self _, hs.inactive, ⟨hcount, fun _ => ?_⟩, ?_, ?_,
    fun n hn => ?_⟩
  · simpa [State.held, next, State.setThread, ThreadPc.hand] using honce
  · simpa [next, State.setThread, ThreadPc.hand] using horder
  · have hne : q ≠ s.nextPid := by
      simp only [next] at hq
      omega
    simp only [next, State.setThread, Function.update_of_ne hne]
    by_cases hq0 : q = s.cmdPid
    · rwa [hq0]
    · exact hs.alone q (Or.inl hq0)
  · simp [next, State.setThread]
  · simpa [next, State.setThread, ThreadPc.isDequeuing] using hcmds
  · simpa [next, State.setThread, ThreadPc.isWoken, Control.isPosting] using htokens
  · have := (hs.stopped n hn).2.2
    simp [hcontrol] at this

theorem Inv.stop (hs : Inv s) (hcontrol : s.control = .idle) : Inv s.stop := by
  have hexits := hs.exits
  have htokens := hs.tokens
  rw [Exits, hcontrol] at hexits
  rw [hcontrol] at htokens
  rw [State.stop]
  split_ifs with hpid
  · refine ⟨hs.once, hs.order, hs.alone, hs.pid, hs.inactive, hs.exits, hs.cmds, hs.tokens,
      fun n hn => ?_⟩
    simp only [Option.mem_def, Option.some.injEq] at hn
    exact ⟨hn, hpid, hcontrol⟩
  · refine ⟨hs.once, hs.order, hs.alone, hs.pid, hs.inactive, ⟨hpid, hexits.1, hexits.2 hpid⟩,
      hs.cmds, htokens, fun n hn => absurd (hs.stopped n hn).2.1 hpid⟩

theorem Inv.sendExit (hs : Inv s) (hcontrol : s.control = .exiting) : Inv (next s .sendExit) := by
  have hexits := hs.exits
  have htokens := hs.tokens
  have hcmds := hs.cmds
  rw [Exits, hcontrol] at hexits
  rw [hcontrol] at htokens
  obtain ⟨hpid, hcount, hrun⟩ := hexits
  refine ⟨hs.once, hs.order, hs.alone, hs.pid, hs.inactive,
    ⟨hpid, Or.inl ⟨by simp [next, hcount], hrun⟩⟩, ?_, ?_,
    fun n hn => absurd (hs.stopped n hn).2.1 hpid⟩
  · simpa [next] using hcmds
  · simp only [next, List.length_cons, Control.isPosting] at htokens ⊢
    omega

theorem Inv.postExit (hs : Inv s) (hcontrol : s.control = .posting) : Inv (next s .postExit) := by
  have hexits := hs.exits
  have htokens := hs.tokens
  rw [Exits, hcontrol] at hexits
  rw [hcontrol] at htokens
  refine ⟨hs.once, hs.order, hs.alone, hs.pid, hs.inactive, hexits, hs.cmds, ?_,
    fun n hn => absurd (hs.stopped n hn).2.1 hexits.1⟩
  simp only [next, Control.isPosting] at htokens ⊢
  omega

theorem Inv.join (hs : Inv s) (hcontrol : s.control = .joining)
    (hended : s.thread s.cmdPid = .ended) : Inv (next s .join) := by
  have hexits := hs.exits
  have htokens := hs.tokens
  have honce := hs.once
  have horder := hs.order
  have hcmds := hs.cmds
  rw [Exits, hcontrol] at hexits
  simp only [State.held, hended, hcontrol, ThreadPc.hand, ThreadPc.isWoken, ThreadPc.isDequeuing,
    Control.isPosting] at htokens honce horder hcmds
  have hall : ∀ q, s.thread q = .ended := by
    intro q
    by_cases hq : q = s.cmdPid
    · rwa [hq]
    · exact hs.alone q (Or.inl hq)
  obtain ⟨-, ⟨-, hnot, -⟩ | ⟨hcount, -⟩⟩ := hexits
  · exact absurd hended hnot
  refine ⟨?_, ?_, fun q _ => hall q, Nat.zero_lt_of_lt hs.pid, hs.inactive,
    ⟨hcount, fun h => absurd rfl h⟩, ?_, ?_, fun n hn => ?_⟩
  · simpa [State.held, next, hall, ThreadPc.hand] using honce
  · simpa [next, hall, ThreadPc.hand] using horder
  · simpa [next, hall, ThreadPc.isDequeuing] using hcmds
  · simpa [next, hall, ThreadPc.isWoken, Control.isPosting] using htokens
  · simp only [next, Option.mem_def, Option.some.injEq] at hn
    exact ⟨hn, rfl, rfl⟩

theorem Inv.next (hs : Inv s) {i : Label} (henabled : Enabled s i) (hcond : Cond s i) :
    Inv (next s i) := by
  cases i with
  | enqueue => exact hs.enqueue
  | sendCmd => exact hs.sendCmd henabled
  | post => exact hs.post henabled
  | refuse frame => exact hs.refuse henabled
  | wait p => exact hs.wait henabled.1 henabled.2
  | getCmd p => exact hs.getCmd henabled
  | dequeue p => exact hs.dequeue henabled
  | dataCB p =>
    obtain ⟨frame, hframe⟩ := henabled
    exact hs.dataCB hframe
  | flush p => exact hs.flush henabled
  | init => exact hs.init henabled hcond
  | launch => exact hs.launch henabled
  | stop => exact hs.stop henabled
  | sendExit => exact hs.sendExit henabled
  | postExit => exact hs.postExit henabled
  | join => exact hs.join henabled.1 henabled.2

theorem invariant : (system.restrict Cond).Invariant Inv := by
  refine System.Invariant.of_restrict (fun s hs => ?_) fun s i s' hs hcond hstep => ?_
  · obtain ⟨hasDataCB, rfl⟩ := hs
    exact inv_init hasDataCB
  · obtain ⟨henabled, rfl⟩ := hstep
    exact hs.next henabled hcond

/-- In every run in which a stream is started only while its thread does not run. -/
theorem served_of_reachable (hs : (system.restrict Cond).Reachable s) : Served s :=
  (invariant.reachable hs).served

def oneFrame : List Label := [.init, .launch, .enqueue]

theorem served_oneFrame : Served (oneFrame.foldl next { hasDataCB := true }) := by
  refine served_of_reachable (System.reachable_foldl ?_ (.init ⟨true, rfl⟩))
  exact ⟨⟨rfl, rfl⟩, ⟨trivial, rfl⟩, ⟨trivial, trivial⟩, trivial⟩

/-- The stream is started twice. The first thread has a frame in hand when the second one takes the
command to exit. -/
def twoThreads : List Label :=
  [.init, .launch, .init, .launch, .enqueue, .sendCmd, .post, .wait 1, .getCmd 1, .dequeue 1, .stop,
    .sendExit, .postExit, .wait 2, .getCmd 2, .flush 2, .join, .dataCB 1]

/-- A waiting thread can leave a frame whose command is not sent, and with two threads a frame is
passed on after `stop`. -/
theorem not_served : (∃ s, (system.restrict Cond).Reachable s ∧
      ∃ p, s.thread p = .waiting ∧ s.cmdSem = 0 ∧ s.dataQ ≠ []) ∧
    ∃ s, system.Reachable s ∧ ∃ n ∈ s.atStop, s.delivered.length ≠ n := by
  constructor
  · refine ⟨oneFrame.foldl next { hasDataCB := true },
      System.reachable_foldl ?_ (.init ⟨true, rfl⟩), 1, rfl, rfl, by decide⟩
    exact ⟨⟨rfl, rfl⟩, ⟨trivial, rfl⟩, ⟨trivial, trivial⟩, trivial⟩
  · have hstart : (system.restrict fun _ _ => True).Reachable { hasDataCB := true } :=
      .init ⟨true, rfl⟩
    refine ⟨twoThreads.foldl next { hasDataCB := true },
      (System.reachable_foldl ?_ hstart).of_restrict, 0, rfl, by decide⟩
    exact ⟨⟨trivial, rfl⟩, ⟨trivial, rfl⟩, ⟨trivial, rfl⟩, ⟨trivial, rfl⟩, ⟨trivial, trivial⟩,
      ⟨trivial, Nat.zero_lt_one⟩, ⟨trivial, Nat.zero_lt_one⟩, ⟨trivial, rfl, by decide⟩,
      ⟨trivial, rfl⟩, ⟨trivial, rfl⟩, ⟨trivial, rfl⟩, ⟨trivial, rfl⟩, ⟨trivial, rfl⟩,
      ⟨trivial, rfl, by decide⟩, ⟨trivial, rfl⟩, ⟨trivial, rfl⟩, ⟨trivial, rfl, rfl⟩,
      ⟨trivial, 0, rfl⟩, trivial⟩

end EtherDevice.Hal1.StreamThread
