import EtherDevice.MmStream.PollThread

/-!
# The command protocol of the poll thread

One condition serves all calls that wait, so a signal wakes the call of its command where no two
calls wait at once. `Fresh`, `Silent` and `Acked` are what holds of the poll set, of the callbacks
and, there, of the commands.
-/

namespace EtherDevice.MmStream.PollThread

open Lib

variable {s s' : State} {c i : Nat}

/-! ## The protocol -/

/-- The worker has a command that it has not acknowledged. -/
def WorkerPc.busy : WorkerPc → Bool
  | .starting | .updating _ | .copying _ | .stopping | .acking => true
  | _ => false

def State.processed (s : State) : Nat := if s.worker.busy then s.read - 1 else s.read

/-- The call has changed entry `i`, and not sent its command yet. -/
def ClientPc.Dirty (i : Nat) : ClientPc → Prop
  | .changing j _ _ field => j = i ∧ field ≠ .fd
  | .sending (.update j _ _) => j = i
  | _ => False

/-- The poll set follows the entries, and an entry that was deleted is not notified of. -/
structure State.Follows (s : State) : Prop where
  polled : s.worker = .polling → s.read = s.written.length →
    ∀ i, (∀ c, ¬ (s.client c).Dirty i) → s.polled i = s.registered i
  silent : ∀ i ready, s.worker = .calling i ready → s.removed i = false

/-- A call of `release` that returns or clears the struct finds that the worker has ended. -/
structure State.Joined (s : State) : Prop where
  released : s.released = true → s.worker = .ended
  freeing : ∀ c, s.client c = .freeing → s.worker = .ended

/-- A command is not waited for while another one is. -/
def OneWaits (s : State) : Label → Prop
  | .send c => ∀ call, s.client c = .sending call → call.cmd.isSync = true → s.condV = []
  | _ => True

/-- `release` is called while the worker runs, or when it has ended. -/
def RunsAtRelease (s : State) : Label → Prop
  | .release _ => s.running = true ∨ s.worker = .ended
  | _ => True

/-! ## Steps -/

def WorkerPc.Has (cmd : Option Cmd) : WorkerPc → Prop
  | .starting | .stopping | .acking => ∃ x, cmd = some x ∧ x.isSync = true
  | .updating _ | .copying _ => ∃ x, cmd = some x ∧ x.isUpdate = true
  | _ => True

/-- The loop over the entries has not come to entry `i`. -/
def WorkerPc.Before (i : Nat) : WorkerPc → Prop
  | .updating j | .copying j => j ≤ i
  | _ => False

def WorkerPc.Fills (slots length : Nat) : WorkerPc → Prop
  | .updating j => j ≤ slots ∧ length ≤ j ∧ (j < slots → length = j)
  | .copying j => j < slots ∧ length = j
  | _ => length ≤ slots

/-- The entries whose events the worker has not come past. -/
def WorkerPc.ahead : WorkerPc → List Nat
  | .notifying ready => ready
  | .calling i ready => i :: ready
  | _ => []

/-- The worker goes on without an entry, a command or an acknowledgement. -/
structure State.Moves (s : State) (worker : WorkerPc) : Prop where
  busy : worker.busy = s.worker.busy
  has : ∀ cmd, s.worker.Has cmd → worker.Has cmd
  fills : ∀ slots length, s.worker.Fills slots length → worker.Fills slots length
  before : ∀ i, s.worker.Before i → worker.Before i
  ahead : ∀ i ∈ worker.ahead, i ∈ s.worker.ahead ∨ s.polled i ≠ none
  empty : s.worker.ahead = [] → worker.ahead = [] ∨ s.read = s.written.length
  live : s.worker ≠ .ended

def ClientPc.Apart : ClientPc → Prop
  | .idle | .joining | .freeing => True
  | _ => False

/-- The client has not changed an entry for its call. -/
def ClientPc.Starts (slots : Nat) : ClientPc → Prop
  | .idle | .freeing => True
  | .changing i _ _ field => i < slots ∧ field = .fd
  | .sending call => call = .commit ∨ call = .release
  | _ => False

theorem idx_lt_slots (pollType : PollType) {handler : Nat}
    (h : pollType.idx handler < maxStreamNumInBundle) : pollType.idx handler < pollType.slots := by
  cases pollType with
  | evt => exact Nat.zero_lt_one
  | data => exact h

theorem moves_of_apart {worker : WorkerPc} (hold : s.worker.busy = false)
    (hnew : worker.busy = false) (hlive : s.worker ≠ .ended)
    (hahead : ∀ i ∈ worker.ahead, i ∈ s.worker.ahead ∨ s.polled i ≠ none)
    (hempty : s.worker.ahead = [] → worker.ahead = [] ∨ s.read = s.written.length) :
    s.Moves worker := by
  refine ⟨hnew.trans hold.symm, fun cmd _ => ?_, fun slots length h => ?_, fun i h => ?_, hahead,
    hempty, hlive⟩
  · cases worker <;> simp_all [WorkerPc.busy, WorkerPc.Has]
  · cases hs : s.worker <;> cases worker <;> simp_all [WorkerPc.busy, WorkerPc.Fills]
  · cases hs : s.worker <;> simp_all [WorkerPc.busy, WorkerPc.Before]

theorem effect {label : Label} (henabled : Enabled s label) :
    (∃ worker running, next s label = { s with running, worker } ∧ s.Moves worker) ∨
    (∃ c pc running freed released,
      next s label = { s.setClient c pc with running, freed, released } ∧
      (s.client c).Apart ∧ pc.Starts s.pollType.slots ∧ (pc = .freeing → s.worker = .ended) ∧
      (RunsAtRelease s label → released = true →
        s.released = true ∨ s.worker = .ended ∨ s.client c = .freeing)) ∨
    label = .command ∨ label = .update ∨ label = .copy ∨
    ∃ c, label = .sigDone c ∨ label = .write c ∨ label = .send c ∨ label = .wake c := by
  cases label with
  | command => simp
  | update => simp
  | copy => simp
  | sigDone c => simp
  | write c => simp
  | send c => simp
  | wake c => simp
  | publish =>
    have hworker : s.worker = .publishing := henabled
    refine .inl ⟨_, _, rfl, moves_of_apart ?_ rfl ?_ ?_ ?_⟩ <;>
      simp [hworker, WorkerPc.busy, WorkerPc.ahead]
  | stop =>
    have hworker : s.worker = .stopping := henabled
    refine .inl ⟨_, _, rfl, ⟨?_, ?_, ?_, ?_, ?_, ?_, ?_⟩⟩ <;>
      simp [hworker, WorkerPc.busy, WorkerPc.Has, WorkerPc.Fills, WorkerPc.Before, WorkerPc.ahead]
  | ready revents =>
    refine .inl ⟨_, _, rfl, moves_of_apart ?_ rfl ?_ (fun i hi => .inr ?_) fun _ => .inr henabled.2⟩
    · simp [henabled.1, WorkerPc.busy]
    · simp [henabled.1]
    · simp_all [WorkerPc.ahead, Option.isSome_iff_ne_none]
  | pollFails =>
    have hworker : s.worker = .polling := henabled
    refine .inl ⟨_, _, rfl, moves_of_apart ?_ rfl ?_ ?_ ?_⟩ <;>
      simp [hworker, WorkerPc.busy, WorkerPc.ahead]
  | test =>
    obtain ⟨ready, hworker⟩ := henabled
    have hnew : ∃ worker, s.test = { s with worker } ∧ worker.busy = false ∧
        (∀ i ∈ worker.ahead, i ∈ ready) ∧ (ready = [] → worker.ahead = []) := by
      simp only [State.test, hworker]
      cases ready with
      | nil => exact ⟨_, rfl, rfl, by simp [WorkerPc.ahead], by simp [WorkerPc.ahead]⟩
      | cons i ready =>
        dsimp only
        split <;> exact ⟨_, rfl, rfl, by simp +contextual [WorkerPc.ahead], by simp⟩
    obtain ⟨worker, heq, hbusy, hahead, hempty⟩ := hnew
    refine .inl ⟨worker, s.running, heq, moves_of_apart ?_ hbusy ?_ (fun i hi => .inl ?_) ?_⟩
    · simp [hworker, WorkerPc.busy]
    · simp [hworker]
    · rw [hworker]
      exact hahead i hi
    · rw [hworker]
      exact fun h => .inl (hempty h)
  | call =>
    obtain ⟨i, ready, hworker⟩ := henabled
    refine .inl ⟨.notifying ready, s.running, ?_, moves_of_apart ?_ rfl ?_ ?_ ?_⟩ <;>
      simp +contextual [next, State.call, hworker, WorkerPc.busy, WorkerPc.ahead]
  | check =>
    have hworker : s.worker = .checking := henabled
    refine .inl ⟨_, _, rfl, moves_of_apart ?_ ?_ ?_ ?_ ?_⟩
    all_goals cases s.running <;> simp [hworker, WorkerPc.busy, WorkerPc.ahead]
  | add c entry sync =>
    have hc : (s.client c).Apart := by simp [henabled.1, ClientPc.Apart]
    simp only [next, State.add]
    split
    · rename_i hi
      exact .inr (.inl ⟨c, _, _, _, _, rfl, hc, ⟨idx_lt_slots _ hi, rfl⟩, nofun, fun _ => .inl⟩)
    · exact .inr (.inl ⟨c, _, _, _, _, rfl, hc, trivial, nofun, fun _ => .inl⟩)
  | del c handler sync =>
    have hc : (s.client c).Apart := by simp [henabled.1, ClientPc.Apart]
    simp only [next, State.del]
    split
    · rename_i hi
      exact .inr (.inl ⟨c, _, _, _, _, rfl, hc, ⟨idx_lt_slots _ hi.1, rfl⟩, nofun, fun _ => .inl⟩)
    · exact .inr (.inl ⟨c, _, _, _, _, rfl, hc, trivial, nofun, fun _ => .inl⟩)
  | commit c =>
    exact .inr (.inl ⟨c, _, _, _, _, rfl, by simp [henabled.1, ClientPc.Apart], .inl rfl, nofun,
      fun _ => .inl⟩)
  | release c =>
    have hc : s.client c = .idle := henabled
    have hapart : (s.client c).Apart := by simp [hc, ClientPc.Apart]
    simp only [next, State.release]
    split
    · exact .inr (.inl ⟨c, _, _, _, _, rfl, hapart, .inr rfl, nofun, fun _ => .inl⟩)
    · rename_i hrunning
      exact .inr (.inl ⟨c, _, _, _, _, rfl, hapart, trivial, nofun,
        fun hok _ => .inr (.inl (hok.resolve_left hrunning))⟩)
  | join c =>
    exact .inr (.inl ⟨c, _, _, _, _, rfl, by simp [henabled.1, ClientPc.Apart], trivial,
      fun _ => henabled.2, fun _ => .inl⟩)
  | free c =>
    exact .inr (.inl ⟨c, _, _, _, _, rfl, by simp [henabled.1, ClientPc.Apart], trivial, nofun,
      fun _ _ => .inr (.inr henabled.1)⟩)

theorem signal_cases (s : State) (c : Nat) : s.signal c = s ∨ ∃ call n condV,
    s.client c = .waiting call n ∧
      s.signal c = { s.setClient c (.woken call n) with condV } := by
  unfold State.signal
  split
  · rename_i call n hc
    split
    · exact .inr ⟨call, n, _, hc, rfl⟩
    · exact .inl rfl
  · exact .inl rfl

theorem worker_signal (s : State) (c : Nat) : (s.signal c).worker = s.worker := by
  obtain heq | ⟨call, n, condV, -, heq⟩ := signal_cases s c <;> rw [heq]
  rfl

theorem send_cases {call : Call} (hc : s.client c = .sending call) : ∃ pc condV,
    s.send c = { s.setClient c pc with
      status := false, written := s.written ++ [call.cmd], condV } ∧
    (call.cmd.isSync = true ∧ pc = .waiting call s.written.length ∧ condV = s.condV ++ [c] ∨
      call.cmd.isSync = false ∧ pc = .idle ∧ condV = s.condV) := by
  unfold State.send
  rw [hc]
  dsimp only
  split
  · rename_i hsync
    exact ⟨_, _, rfl, .inl ⟨hsync, rfl, rfl⟩⟩
  · rename_i hsync
    exact ⟨_, _, rfl, .inr ⟨by simpa using hsync, rfl, rfl⟩⟩

/-! ## The poll set -/

/-- A command in the pipe makes the worker look at the entries. -/
def State.Pending (s : State) : Prop :=
  ∃ n cmd, s.read ≤ n ∧ s.written[n]? = some cmd ∧ cmd.isUpdate = true

structure Fresh (s : State) : Prop where
  le : s.read ≤ s.written.length
  fills : s.worker.Fills s.pollType.slots s.pollFds.length
  outside : ∀ i, s.pollType.slots ≤ i → (s.pollEntries i).fd < 0
  inside : ∀ c i change sync field, s.client c = .changing i change sync field →
    i < s.pollType.slots
  fresh : ∀ i, s.polled i = s.registered i ∨ s.Pending ∨ s.worker.Before i ∨
    ∃ c, (s.client c).Dirty i

theorem registered_of_neg (h : (s.pollEntries i).fd < 0) : s.registered i = none :=
  if_neg (Int.not_le.mpr h)

theorem polled_append {fd : Int} (hs' : s'.pollFds = s.pollFds ++ [fd]) (j : Nat) :
    s'.polled j = if j = s.pollFds.length then (if 0 ≤ fd then some fd else none)
      else s.polled j := by
  unfold State.polled
  rw [hs', List.getElem?_append]
  split
  · rw [if_neg (by omega)]
  · by_cases hj : j = s.pollFds.length
    · subst hj
      simp [Option.filter]
    · rw [if_neg hj, List.getElem?_eq_none (by simp; omega), List.getElem?_eq_none (by omega)]

theorem Fresh.start (pollType : PollType) (c : Nat) : Fresh (launched pollType c) where
  le := Nat.le_refl 1
  fills := Nat.zero_le _
  outside _ _ := Int.negSucc_lt_zero 0
  inside c' i change sync field h := by
    by_cases hc : c' = c <;> simp_all [launched]
  fresh i := .inl rfl

theorem not_pending (h : s.read = s.written.length) : ¬ s.Pending := by
  rintro ⟨n, cmd, hn, hcmd, -⟩
  have hlt := (List.getElem?_eq_some_iff.mp hcmd).1
  omega

theorem pending_tail {cmd : Cmd} (hcmd : s.written[s.read]? = some cmd)
    (hupdate : cmd.isUpdate = false) (h : s.Pending) :
    ∃ n cmd, s.read + 1 ≤ n ∧ s.written[n]? = some cmd ∧ cmd.isUpdate = true := by
  obtain ⟨n, x, hn, hx, hxupdate⟩ := h
  refine ⟨n, x, ?_, hx, hxupdate⟩
  by_contra hlt
  have heq : n = s.read := by omega
  simp_all

theorem pending_append (cmds : List Cmd) (h : s.Pending) :
    ∃ n cmd, s.read ≤ n ∧ (s.written ++ cmds)[n]? = some cmd ∧ cmd.isUpdate = true := by
  obtain ⟨n, x, hn, hx, hupdate⟩ := h
  refine ⟨n, x, hn, ?_, hupdate⟩
  rw [List.getElem?_append_left (List.getElem?_eq_some_iff.mp hx).1, hx]

theorem Fresh.frame (h : Fresh s) (htype : s'.pollType = s.pollType)
    (hentries : s'.pollEntries = s.pollEntries) (hfds : s'.pollFds = s.pollFds)
    (hread : s'.read = s.read) (hwritten : s'.written = s.written)
    (hfills : s'.worker.Fills s.pollType.slots s.pollFds.length)
    (hbefore : ∀ i, s.worker.Before i → s'.worker.Before i)
    (hclient : ∀ c, s'.client c = s.client c ∨ (∀ i, ¬ (s.client c).Dirty i) ∧
      ∀ i change sync field, s'.client c = .changing i change sync field →
        i < s.pollType.slots) : Fresh s' := by
  refine ⟨?_, ?_, ?_, fun c i change sync field hc => ?_, fun i => ?_⟩
  · rw [hread, hwritten]
    exact h.le
  · rw [htype, hfds]
    exact hfills
  · rw [htype, hentries]
    exact h.outside
  · rw [htype]
    rcases hclient c with heq | ⟨-, hin⟩
    · exact h.inside c i change sync field (heq ▸ hc)
    · exact hin i change sync field hc
  · rw [State.polled, State.registered, State.Pending, hfds, hentries, hread, hwritten]
    refine (h.fresh i).imp_right (Or.imp_right (Or.imp (hbefore i) ?_))
    rintro ⟨c, hdirty⟩
    rcases hclient c with heq | ⟨hclean, -⟩
    · exact ⟨c, heq ▸ hdirty⟩
    · exact (hclean i hdirty).elim

theorem Fresh.update (h : Fresh s) (hworker : s.worker = .updating i) : Fresh s.update := by
  have hfills := h.fills
  rw [hworker] at hfills
  obtain ⟨hi, hlength, hfull⟩ := hfills
  simp only [State.update, hworker]
  split
  · rename_i hlt
    split
    · exact h.frame rfl rfl rfl rfl rfl ⟨hlt, hfull hlt⟩ (by simp [hworker, WorkerPc.Before])
        fun c => .inl rfl
    · rename_i hneg
      have hlength' := hfull hlt
      have hpolled : ∀ j, State.polled { s with
          pollFds := if s.pollType = .data then s.pollFds ++ [-1] else s.pollFds
          worker := .updating (i + 1) } j = if j = i then none else s.polled j := by
        intro j
        by_cases hdata : s.pollType = .data
        · rw [polled_append (if_pos hdata), hlength']
          rfl
        · by_cases hj : j = i
          · simp [State.polled, hdata, hj, hlength']
          · simp [State.polled, hdata, hj]
      refine ⟨h.le, ⟨hlt, ?_, ?_⟩, h.outside, h.inside, fun j => ?_⟩
      · dsimp only
        split
        · simp [hlength']
        · omega
      · cases htype : s.pollType with
        | data => simp [hlength']
        | evt => simp [PollType.slots]
      · rw [hpolled]
        by_cases hj : j = i
        · rw [if_pos hj, hj]
          exact .inl (registered_of_neg (s := s) (by omega)).symm
        · rw [if_neg hj]
          refine (h.fresh j).imp_right (Or.imp_right (Or.imp_left fun hbefore => ?_))
          rw [hworker] at hbefore
          have hle : i ≤ j := hbefore
          have hlt : i + 1 ≤ j := by omega
          exact hlt
  · have hdone : i = s.pollType.slots := by omega
    have hfresh : ∀ j, s.polled j = s.registered j ∨ s.Pending ∨ False ∨
        ∃ c, (s.client c).Dirty j := by
      intro j
      rcases h.fresh j with heq | hpending | hbefore | hdirty
      · exact .inl heq
      · exact .inr (.inl hpending)
      · rw [hworker] at hbefore
        have hle : i ≤ j := hbefore
        left
        rw [registered_of_neg (h.outside j (hdone ▸ hle)), State.polled,
          List.getElem?_eq_none (by omega)]
        rfl
      · exact .inr (.inr (.inr hdirty))
    split <;> exact ⟨h.le, hdone ▸ hlength, h.outside, h.inside, hfresh⟩

theorem Fresh.copy (h : Fresh s) (hworker : s.worker = .copying i) : Fresh s.copy := by
  have hfills := h.fills
  rw [hworker] at hfills
  obtain ⟨hi, hlength⟩ := hfills
  simp only [State.copy, hworker]
  refine ⟨h.le, ⟨hi, by simp [hlength], fun _ => by simp [hlength]⟩, h.outside, h.inside,
    fun j => ?_⟩
  rw [polled_append (s := s) rfl j]
  by_cases hj : j = s.pollFds.length
  · left
    rw [if_pos hj, hj, hlength]
    rfl
  · rw [if_neg hj]
    refine (h.fresh j).imp_right (Or.imp_right (Or.imp_left fun hbefore => ?_))
    rw [hworker] at hbefore
    have hle : i ≤ j := hbefore
    have hlt : i + 1 ≤ j := by omega
    exact hlt

theorem command_cases (hread : s.read < s.written.length) : ∃ cmd pollFds worker,
    s.written[s.read]? = some cmd ∧ s.command = { s with read := s.read + 1, pollFds, worker } ∧
    worker.busy = true ∧ worker.Has (some cmd) ∧
    (cmd.isUpdate = true ∧ pollFds = [] ∧ worker = .updating 0 ∨
      cmd.isUpdate = false ∧ pollFds = s.pollFds ∧ (worker = .acking ∨ worker = .stopping)) := by
  have hcmd := List.getElem?_eq_getElem hread
  refine ⟨s.written[s.read], ?_⟩
  unfold State.command
  rw [hcmd]
  cases s.written[s.read]
  case pollEntriesUpdated | pollEntriesUpdatedAsync =>
    exact ⟨_, _, rfl, rfl, rfl, ⟨_, rfl, rfl⟩, .inl ⟨rfl, rfl, rfl⟩⟩
  case commit => exact ⟨_, _, rfl, rfl, rfl, ⟨_, rfl, rfl⟩, .inr ⟨rfl, rfl, .inl rfl⟩⟩
  all_goals exact ⟨_, _, rfl, rfl, rfl, ⟨_, rfl, rfl⟩, .inr ⟨rfl, rfl, .inr rfl⟩⟩

theorem Fresh.command (h : Fresh s) (hworker : s.worker = .polling)
    (hread : s.read < s.written.length) : Fresh s.command := by
  have hlength : s.pollFds.length ≤ s.pollType.slots := by
    have hfills := h.fills
    rwa [hworker] at hfills
  obtain ⟨cmd, pollFds, worker, hcmd, heq, -, -, hcases⟩ := command_cases hread
  rw [heq]
  obtain ⟨-, rfl, rfl⟩ | ⟨hupdate, rfl, hnew⟩ := hcases
  · exact ⟨hread, ⟨Nat.zero_le _, Nat.le_refl 0, fun _ => rfl⟩, h.outside, h.inside,
      fun i => .inr (.inr (.inl (Nat.zero_le i)))⟩
  · refine ⟨hread, ?_, h.outside, h.inside, fun i => ?_⟩
    · rcases hnew with rfl | rfl <;> exact hlength
    · have hfresh := h.fresh i
      rw [hworker] at hfresh
      refine hfresh.imp_right (Or.imp (pending_tail hcmd hupdate) (Or.imp_left False.elim))

theorem after_ne_fd (change : Change) (field : Field) : change.after field ≠ some .fd := by
  cases change <;> cases field <;> simp [Change.after]

theorem Fresh.write (h : Fresh s) {change : Change} {sync : Bool} {field : Field}
    (hc : s.client c = .changing i change sync field) : Fresh (s.write c) := by
  have hi := h.inside c i change sync field hc
  simp only [State.write, hc]
  refine ⟨h.le, h.fills, fun j hj => ?_, fun c' j change' sync' field' hc' => ?_, fun j => ?_⟩
  · have hne : j ≠ i := by
      rintro rfl
      exact Nat.not_le.mpr hi hj
    simpa [hne] using h.outside j hj
  · by_cases hcc : c' = c
    · subst hcc
      simp only [Function.update_self] at hc'
      split at hc'
      · cases hc'
        exact hi
      · cases hc'
    · exact h.inside c' j change' sync' field' (by simpa [hcc] using hc')
  · by_cases hj : j = i
    · subst hj
      refine .inr (.inr (.inr ⟨c, ?_⟩))
      simp only [Function.update_self]
      split
      · rename_i field' hfield
        exact ⟨rfl, fun hfd => after_ne_fd change field (hfd ▸ hfield)⟩
      · rfl
    · simp only [State.registered, Function.update_of_ne hj]
      refine (h.fresh j).imp_right (Or.imp_right (Or.imp_right ?_))
      rintro ⟨c', hdirty⟩
      refine ⟨c', ?_⟩
      rw [Function.update_of_ne]
      · exact hdirty
      · rintro rfl
        rw [hc] at hdirty
        exact hj hdirty.1.symm

theorem Fresh.send (h : Fresh s) {call : Call} (hc : s.client c = .sending call) :
    Fresh (s.send c) := by
  obtain ⟨pc, condV, heq, hpc⟩ := send_cases hc
  have hclean : ∀ i change sync field, pc ≠ .changing i change sync field := by
    obtain ⟨-, rfl, -⟩ | ⟨-, rfl, -⟩ := hpc <;> simp
  rw [heq]
  refine ⟨?_, h.fills, h.outside, fun c' i change sync field hc' => ?_, fun i => ?_⟩
  · rw [List.length_append]
    exact Nat.le_add_right_of_le h.le
  · by_cases hcc : c' = c
    · subst hcc
      exact (hclean i change sync field (by simpa [State.setClient] using hc')).elim
    · exact h.inside c' i change sync field (by simpa [State.setClient, hcc] using hc')
  · rcases h.fresh i with hsame | hpending | hbefore | ⟨c', hdirty⟩
    · exact .inl hsame
    · exact .inr (.inl (pending_append _ hpending))
    · exact .inr (.inr (.inl hbefore))
    · by_cases hcc : c' = c
      · subst hcc
        refine .inr (.inl ⟨s.written.length, call.cmd, h.le, List.getElem?_concat_length, ?_⟩)
        rw [hc] at hdirty
        cases call with
        | update j isDel sync => cases sync <;> rfl
        | _ => cases hdirty
      · exact .inr (.inr (.inr ⟨c', by simpa [State.setClient, hcc] using hdirty⟩))

theorem Fresh.client (h : Fresh s) {pc : ClientPc} (hold : ∀ i, ¬ (s.client c).Dirty i)
    (hnew : ∀ i change sync field, pc = .changing i change sync field → i < s.pollType.slots) :
    Fresh (s.setClient c pc) := by
  refine h.frame rfl rfl rfl rfl rfl h.fills (fun _ hi => hi) fun c' => ?_
  by_cases hcc : c' = c
  · subst hcc
    exact .inr ⟨hold, by simpa [State.setClient] using hnew⟩
  · exact .inl (Function.update_of_ne hcc ..)

theorem Fresh.kept (h : Fresh s) {label : Label} (henabled : Enabled s label) :
    Fresh (next s label) := by
  rcases effect henabled with ⟨worker, running, heq, hmoves⟩ |
    ⟨c, pc, running, freed, released, heq, hold, hpc, -⟩ | rfl | rfl | rfl |
    ⟨c, rfl | rfl | rfl | rfl⟩
  · rw [heq]
    exact h.frame rfl rfl rfl rfl rfl (hmoves.fills _ _ h.fills) hmoves.before fun c => .inl rfl
  · rw [heq]
    have hnew : Fresh (s.setClient c pc) := by
      refine h.client (fun i hi => ?_) ?_
      · cases hs : s.client c <;> simp_all [ClientPc.Apart, ClientPc.Dirty]
      · rintro i change sync field rfl
        exact hpc.1
    exact ⟨hnew.le, hnew.fills, hnew.outside, hnew.inside, hnew.fresh⟩
  · exact h.command henabled.1 henabled.2
  · exact h.update henabled.choose_spec
  · exact h.copy henabled.choose_spec
  · have hsignal : Fresh (s.signal c) := by
      obtain heq | ⟨call, n, condV, hc, heq⟩ := signal_cases s c <;> rw [heq]
      · exact h
      · have hnew : Fresh (s.setClient c (.woken call n)) :=
          h.client (by simp [hc, ClientPc.Dirty]) (by simp)
        exact ⟨hnew.le, hnew.fills, hnew.outside, hnew.inside, hnew.fresh⟩
    have hlength := hsignal.fills
    rw [worker_signal] at hlength
    refine hsignal.frame rfl rfl rfl rfl rfl ?_ (fun i hi => ?_) fun c => .inl rfl
    · simp only [next, State.sigDone]
      rcases henabled.1 with hw | hw <;> rw [hw] at hlength ⊢ <;> exact hlength
    · rw [worker_signal] at hi
      rcases henabled.1 with hw | hw <;> rw [hw] at hi <;> exact hi.elim
  · obtain ⟨i, change, sync, field, hc⟩ := henabled
    exact h.write hc
  · obtain ⟨call, hc⟩ := henabled
    exact h.send hc
  · obtain ⟨call, n, hc⟩ := henabled
    simp only [next, State.wake, hc]
    refine h.frame rfl rfl rfl rfl rfl h.fills (fun _ hi => hi) fun c' => ?_
    by_cases hcc : c' = c
    · subst hcc
      refine .inr ⟨by simp [hc, ClientPc.Dirty], ?_⟩
      cases call <;> simp [State.setClient]
    · exact .inl (Function.update_of_ne hcc ..)

/-! ## The callbacks -/

def Call.Deletes (i : Nat) : Call → Prop
  | .update j isDel _ => j = i ∧ isDel = true
  | _ => False

/-- The call has made the descriptor of entry `i` invalid. -/
def ClientPc.Resets (i : Nat) : ClientPc → Prop
  | .changing j change _ field => j = i ∧ change.isDel = true ∧ field ≠ .fd
  | .sending call | .waiting call _ | .woken call _ => call.Deletes i
  | _ => False

/-- The call has sent command `n`, and is not done. -/
def ClientPc.Sent (call : Call) (n : Nat) (pc : ClientPc) : Prop :=
  pc = .waiting call n ∨ pc = .woken call n

/-- The worker has no event of entry `i`, and gets none before it looks at the entries again. -/
def State.Quiet (s : State) (i : Nat) : Prop := s.polled i = none ∧ i ∉ s.worker.ahead

/-- A call that is woken by the acknowledgement of another command finds the worker without an
event, and its own command comes before the next ones. -/
structure Silent (s : State) : Prop where
  sent : ∀ c call n, (s.client c).Sent call n → s.written[n]? = some call.cmd
  removed : ∀ i, s.removed i = true →
    (s.pollEntries i).fd < 0 ∧ (s.Quiet i ∨ s.worker.ahead = [] ∧ s.Pending)
  reset : ∀ c i, (s.client c).Resets i → s.resetBy i = some c → (s.pollEntries i).fd < 0
  quiet : ∀ c call n i, (s.client c).Sent call n → call.Deletes i → s.resetBy i = some c →
    n < s.read → s.Quiet i
  woken : ∀ c call n, s.client c = .woken call n → n < s.read ∨ s.worker.ahead = []

theorem Call.Deletes.isUpdate {call : Call} (h : call.Deletes i) : call.cmd.isUpdate = true := by
  cases call with
  | update j isDel sync => cases sync <;> rfl
  | _ => cases h

theorem ClientPc.Sent.resets {pc : ClientPc} {call : Call} {n : Nat} (h : pc.Sent call n)
    (hcall : call.Deletes i) : pc.Resets i := by
  rcases h with rfl | rfl <;> exact hcall

theorem Silent.start (pollType : PollType) (c : Nat) : Silent (launched pollType c) where
  sent c' call n h := by
    by_cases hc : c' = c <;> simp_all [launched, ClientPc.Sent]
    obtain ⟨rfl, rfl⟩ := h
    rfl
  removed i h := by cases h
  reset _ _ _ h := by cases h
  quiet _ _ _ _ _ _ h := by cases h
  woken _ _ _ _ := .inr rfl

theorem Silent.frame (h : Silent s) (hentries : s'.pollEntries = s.pollEntries)
    (hreset : s'.resetBy = s.resetBy) (hremoved : s'.removed = s.removed)
    (hread : s'.read = s.read) (hwritten : s'.written = s.written)
    (hquiet : ∀ i, (s.pollEntries i).fd < 0 → s.Quiet i → s'.Quiet i)
    (hempty : s.worker.ahead = [] → s'.worker.ahead = [] ∨ s.read = s.written.length)
    (hresets : ∀ c i, (s'.client c).Resets i → (s.client c).Resets i)
    (hsent : ∀ c call n, (s'.client c).Sent call n → (s.client c).Sent call n)
    (hwoken : ∀ c call n, s'.client c = .woken call n →
      s.client c = .woken call n ∨ s'.worker.ahead = []) : Silent s' where
  sent c call n hc := by
    rw [hwritten]
    exact h.sent c call n (hsent c call n hc)
  removed i hi := by
    rw [hremoved] at hi
    rw [hentries, State.Pending, hread, hwritten]
    obtain ⟨hfd, hq | ⟨hahead, hpending⟩⟩ := h.removed i hi
    · exact ⟨hfd, .inl (hquiet i hfd hq)⟩
    · refine ⟨hfd, .inr ⟨(hempty hahead).resolve_right fun hall => ?_, hpending⟩⟩
      exact not_pending hall hpending
  reset c i hc hi := by
    rw [hreset] at hi
    rw [hentries]
    exact h.reset c i (hresets c i hc) hi
  quiet c call n i hc hi hby hn := by
    rw [hreset] at hby
    rw [hread] at hn
    have hold := hsent c call n hc
    exact hquiet i (h.reset c i (hold.resets hi) hby) (h.quiet c call n i hold hi hby hn)
  woken c call n hc := by
    rw [hread]
    rcases hwoken c call n hc with hold | hahead
    · rcases h.woken c call n hold with hn | hahead
      · exact .inl hn
      · refine (hempty hahead).symm.imp_left fun hall => ?_
        rw [hall]
        exact (List.getElem?_eq_some_iff.mp (h.sent c call n (.inr hold))).1
    · exact .inr hahead

theorem Silent.client (h : Silent s) {pc : ClientPc}
    (hresets : ∀ i, pc.Resets i → (s.client c).Resets i)
    (hsent : ∀ call n, pc.Sent call n → (s.client c).Sent call n)
    (hwoken : ∀ call n, pc = .woken call n → s.worker.ahead = []) : Silent (s.setClient c pc) := by
  refine h.frame rfl rfl rfl rfl rfl (fun _ _ hq => hq) .inl (fun c' i hc' => ?_)
    (fun c' call n hc' => ?_) fun c' call n hc' => ?_ <;> by_cases hcc : c' = c
  · subst hcc
    exact hresets i (by simpa [State.setClient] using hc')
  · simpa [State.setClient, hcc] using hc'
  · subst hcc
    exact hsent call n (by simpa [State.setClient] using hc')
  · simpa [State.setClient, hcc] using hc'
  · subst hcc
    exact .inr (hwoken call n (by simpa [State.setClient] using hc'))
  · exact .inl (by simpa [State.setClient, hcc] using hc')

theorem Silent.command (h : Silent s) (hread : s.read < s.written.length) : Silent s.command := by
  obtain ⟨cmd, pollFds, worker, hcmd, heq, -, -, hcases⟩ := command_cases hread
  have hahead : worker.ahead = [] := by
    obtain ⟨-, -, rfl⟩ | ⟨-, -, rfl | rfl⟩ := hcases <;> rfl
  have hquiet : ∀ i, s.Quiet i ∨ cmd.isUpdate = true → s.command.Quiet i := by
    intro i hi
    rw [heq]
    refine ⟨?_, by simp [hahead]⟩
    obtain ⟨-, rfl, -⟩ | ⟨hupdate, rfl, -⟩ := hcases
    · rfl
    · exact (hi.resolve_right (by simp [hupdate])).1
  refine ⟨?_, fun i hi => ?_, ?_, fun c call n i hc hi hby hn => ?_, fun _ _ _ _ => .inr ?_⟩
  · rw [heq]
    exact h.sent
  · rw [heq] at hi
    obtain ⟨hfd, hold⟩ := h.removed i hi
    refine ⟨by rw [heq]; exact hfd, ?_⟩
    cases hupdate : cmd.isUpdate with
    | true => exact .inl (hquiet i (.inr hupdate))
    | false =>
      refine hold.imp (fun hq => hquiet i (.inl hq)) fun hpending => ?_
      rw [heq]
      exact ⟨hahead, pending_tail hcmd hupdate hpending.2⟩
  · rw [heq]
    exact h.reset
  · rw [heq] at hc hby hn
    have hle : n < s.read + 1 := hn
    by_cases hlt : n < s.read
    · exact hquiet i (.inl (h.quiet c call n i hc hi hby hlt))
    · have hlast : n = s.read := by omega
      have hsent := h.sent c call n hc
      rw [hlast, hcmd, Option.some.injEq] at hsent
      exact hquiet i (.inr (hsent ▸ hi.isUpdate))
  · rw [heq]
    exact hahead

theorem Silent.worker (h : Silent s) {worker : WorkerPc} {running : Bool}
    (hahead : ∀ i ∈ worker.ahead, i ∈ s.worker.ahead ∨ s.polled i ≠ none)
    (hempty : s.worker.ahead = [] → worker.ahead = [] ∨ s.read = s.written.length) :
    Silent { s with running, worker } := by
  refine h.frame rfl rfl rfl rfl rfl (fun i _ hq => ⟨hq.1, fun hi => ?_⟩) hempty (fun _ _ hc => hc)
    (fun _ _ _ hc => hc) fun _ _ _ hc => .inl hc
  rcases hahead i hi with hold | hpolled
  · exact hq.2 hold
  · exact hpolled hq.1

theorem Silent.update (h : Silent s) (hworker : s.worker = .updating i) : Silent s.update := by
  simp only [State.update, hworker]
  split
  · split
    · exact h.worker (by simp [WorkerPc.ahead]) fun _ => .inl rfl
    · refine h.frame rfl rfl rfl rfl rfl (fun j _ hq => ⟨?_, by simp [WorkerPc.ahead]⟩)
        (fun _ => .inl rfl) (fun _ _ hc => hc) (fun _ _ _ hc => hc) fun _ _ _ hc => .inl hc
      by_cases hdata : s.pollType = .data
      · rw [polled_append (if_pos hdata)]
        split
        · rfl
        · exact hq.1
      · have hfds : s.polled j = none := hq.1
        simpa [State.polled, hdata] using hfds
  · split <;> exact h.worker (by simp [WorkerPc.ahead]) fun _ => .inl rfl

theorem Silent.copy (h : Silent s) (hfresh : Fresh s) (hworker : s.worker = .copying i) :
    Silent s.copy := by
  have hfills := hfresh.fills
  rw [hworker] at hfills
  simp only [State.copy, hworker]
  refine h.frame rfl rfl rfl rfl rfl (fun j hfd hq => ⟨?_, by simp [WorkerPc.ahead]⟩)
    (fun _ => .inl rfl) (fun _ _ hc => hc) (fun _ _ _ hc => hc) fun _ _ _ hc => .inl hc
  rw [polled_append (s := s) rfl]
  split
  · rename_i hj
    have heq : j = i := hj.trans hfills.2
    rw [if_neg (by rw [← heq]; omega)]
  · exact hq.1

theorem Silent.write (h : Silent s) {change : Change} {sync : Bool} {field : Field}
    (hc : s.client c = .changing i change sync field) : Silent (s.write c) := by
  have hself : ∃ pc, (s.write c).client = Function.update s.client c pc ∧
      (∀ call n, ¬ pc.Sent call n) ∧ ∀ j, pc.Resets j → j = i ∧ change.isDel = true := by
    simp only [State.write, hc]
    refine ⟨_, rfl, ?_⟩
    split
    · exact ⟨by simp [ClientPc.Sent], fun j hj => ⟨hj.1.symm, hj.2.1⟩⟩
    · exact ⟨by simp [ClientPc.Sent], fun j hj => ⟨hj.1.symm, hj.2⟩⟩
  obtain ⟨pc, hclient, hnotSent, hpc⟩ := hself
  have hsent : ∀ c' call n, ((s.write c).client c').Sent call n → (s.client c').Sent call n := by
    intro c' call n hc'
    rw [hclient] at hc'
    by_cases hcc : c' = c
    · subst hcc
      rw [Function.update_self] at hc'
      exact (hnotSent call n hc').elim
    · rwa [Function.update_of_ne hcc] at hc'
  have hsame : (s.write c).read = s.read ∧ (s.write c).written = s.written ∧
      (s.write c).worker = s.worker ∧ (s.write c).pollFds = s.pollFds := by
    simp [State.write, hc]
  obtain ⟨hread, hwritten, hworker, hfds⟩ := hsame
  have hremoved : ∀ j, (s.write c).removed j = true → s.removed j = true ∧
      ((s.pollEntries j).fd < 0 → ((s.write c).pollEntries j).fd < 0) := by
    intro j
    by_cases hj : j = i
    · subst hj
      cases change <;> cases field <;>
        simp +contextual [State.write, hc, Change.write, Change.isDel]
    · by_cases hfd : field = .fd <;> simp +contextual [State.write, hc, hj, hfd]
  -- A write of the descriptor is the one that the entry's owner is taken from.
  have hby : ∀ c' j, (s.write c).resetBy j = some c' →
      (j = i ∧ c = c' ∧ ((s.write c).pollEntries j).fd < 0) ∨
        (j ≠ i ∨ field ≠ .fd) ∧ s.resetBy j = some c' ∧
          ((s.write c).pollEntries j).fd = (s.pollEntries j).fd := by
    intro c' j
    by_cases hj : j = i
    · subst hj
      simp only [State.write, hc]
      cases change <;> cases field <;> simp +contextual [Change.write, Change.isDel]
    · by_cases hfd : field = .fd <;> simp +contextual [State.write, hc, hj, hfd]
  refine ⟨fun c' call n hc' => ?_, fun j hj => ?_, fun c' j hc' hj => ?_,
    fun c' call n j hc' hcall hj hn => ?_, fun c' call n hc' => ?_⟩
  · rw [hwritten]
    exact h.sent c' call n (hsent c' call n hc')
  · obtain ⟨hold, hfd⟩ := hremoved j hj
    obtain ⟨hneg, hq⟩ := h.removed j hold
    rw [State.Quiet, State.polled, State.Pending, hread, hwritten, hworker, hfds]
    exact ⟨hfd hneg, hq⟩
  · obtain ⟨-, -, hneg⟩ | ⟨hj', hold, heq⟩ := hby c' j hj
    · exact hneg
    · rw [heq]
      refine h.reset c' j ?_ hold
      rw [hclient] at hc'
      by_cases hcc : c' = c
      · subst hcc
        rw [Function.update_self] at hc'
        obtain ⟨rfl, hdel⟩ := hpc j hc'
        rw [hc]
        exact ⟨rfl, hdel, hj'.resolve_left fun hne => hne rfl⟩
      · rwa [Function.update_of_ne hcc] at hc'
  · have hold := hsent c' call n hc'
    rw [hread] at hn
    rw [State.Quiet, State.polled, hworker, hfds]
    obtain ⟨-, rfl, -⟩ | ⟨-, hreset, -⟩ := hby c' j hj
    · rw [hc] at hold
      simp [ClientPc.Sent] at hold
    · exact h.quiet c' call n j hold hcall hreset hn
  · rw [hread, hworker]
    rw [hclient] at hc'
    by_cases hcc : c' = c
    · subst hcc
      rw [Function.update_self] at hc'
      exact (hnotSent call n (.inr hc')).elim
    · rw [Function.update_of_ne hcc] at hc'
      exact h.woken c' call n hc'

theorem Silent.send (h : Silent s) {call : Call} (hc : s.client c = .sending call)
    (hle : s.read ≤ s.written.length) : Silent (s.send c) := by
  obtain ⟨pc, condV, heq, hpc⟩ := send_cases hc
  have hresets : ∀ i, pc.Resets i → call.Deletes i := by
    obtain ⟨-, rfl, -⟩ | ⟨-, rfl, -⟩ := hpc
    · exact fun i hi => hi
    · exact fun i hi => hi.elim
  have hsent : ∀ call' n, pc.Sent call' n →
      pc = .waiting call' n ∧ call' = call ∧ n = s.written.length := by
    obtain ⟨-, rfl, -⟩ | ⟨-, rfl, -⟩ := hpc <;> simp [ClientPc.Sent, eq_comm]
  rw [heq]
  refine ⟨fun c' call' n hc' => ?_, fun i hi => ?_, fun c' i hc' => ?_,
    fun c' call' n i hc' hdel hby hn => ?_, fun c' call' n hc' => ?_⟩
  · by_cases hcc : c' = c
    · subst hcc
      obtain ⟨-, rfl, rfl⟩ := hsent call' n (by simpa [State.setClient] using hc')
      exact List.getElem?_concat_length
    · have hold := h.sent c' call' n (by simpa [State.setClient, hcc] using hc')
      exact (List.getElem?_append_left (List.getElem?_eq_some_iff.mp hold).1).trans hold
  · obtain ⟨hfd, hq⟩ := h.removed i hi
    exact ⟨hfd, hq.imp_right (And.imp_right (pending_append _))⟩
  · by_cases hcc : c' = c
    · subst hcc
      refine h.reset c' i ?_
      rw [hc]
      exact hresets i (by simpa [State.setClient] using hc')
    · exact h.reset c' i (by simpa [State.setClient, hcc] using hc')
  · by_cases hcc : c' = c
    · subst hcc
      obtain ⟨-, -, rfl⟩ := hsent call' n (by simpa [State.setClient] using hc')
      exact (Nat.not_le.mpr hn hle).elim
    · exact h.quiet c' call' n i (by simpa [State.setClient, hcc] using hc') hdel hby hn
  · by_cases hcc : c' = c
    · subst hcc
      have hpc' : pc = .woken call' n := by simpa [State.setClient] using hc'
      have hwaiting := (hsent call' n (.inr hpc')).1
      rw [hpc'] at hwaiting
      cases hwaiting
    · exact h.woken c' call' n (by simpa [State.setClient, hcc] using hc')

theorem wake_cases {call : Call} {n : Nat} (hc : s.client c = .woken call n) : ∃ pc removed,
    s.wake c = { s.setClient c pc with returned := n :: s.returned, removed } ∧
    (pc = .idle ∨ pc = .joining) ∧
    ∀ i, removed i = true → s.removed i = true ∨ call.Deletes i ∧ s.resetBy i = some c := by
  unfold State.wake
  rw [hc]
  cases call with
  | update j isDel sync =>
    cases isDel with
    | false => exact ⟨_, _, rfl, .inl rfl, fun i => .inl⟩
    | true =>
      refine ⟨_, _, rfl, .inl rfl, fun i hi => ?_⟩
      by_cases hij : i = j
      · subst hij
        simpa [Call.Deletes] using hi
      · exact .inl (by simpa [hij] using hi)
  | launch | commit => exact ⟨_, _, rfl, .inl rfl, fun i => .inl⟩
  | release => exact ⟨_, _, rfl, .inr rfl, fun i => .inl⟩

theorem Silent.wake (h : Silent s) {call : Call} {n : Nat} (hc : s.client c = .woken call n) :
    Silent (s.wake c) := by
  obtain ⟨pc, removed, heq, hpc, hremoved⟩ := wake_cases hc
  have hnew : Silent (s.setClient c pc) := by
    refine h.client (fun i hi => ?_) (fun call n hn => ?_) (fun call n hn => ?_) <;>
      rcases hpc with rfl | rfl
    · exact hi.elim
    · exact hi.elim
    · simp [ClientPc.Sent] at hn
    · simp [ClientPc.Sent] at hn
    · cases hn
    · cases hn
  rw [heq]
  refine ⟨hnew.sent, fun i hi => ?_, hnew.reset, hnew.quiet, hnew.woken⟩
  rcases hremoved i hi with hold | ⟨hdel, hby⟩
  · exact h.removed i hold
  · have hsent : (s.client c).Sent call n := .inr hc
    refine ⟨h.reset c i (hsent.resets hdel) hby, ?_⟩
    by_cases hn : n < s.read
    · exact .inl (h.quiet c call n i hsent hdel hby hn)
    · exact .inr ⟨(h.woken c call n hc).resolve_left hn,
        n, call.cmd, Nat.not_lt.mp hn, h.sent c call n hsent, hdel.isUpdate⟩

theorem Silent.kept (h : Silent s) (hfresh : Fresh s) {label : Label}
    (henabled : Enabled s label) : Silent (next s label) := by
  rcases effect henabled with ⟨worker, running, heq, hmoves⟩ |
    ⟨c, pc, running, freed, released, heq, hold, hpc, -⟩ | rfl | rfl | rfl |
    ⟨c, rfl | rfl | rfl | rfl⟩
  · rw [heq]
    exact h.worker hmoves.ahead hmoves.empty
  · rw [heq]
    have hnew : Silent (s.setClient c pc) := by
      refine h.client (fun i hi => ?_) (fun call n hn => ?_) fun call n hn => ?_
      · cases pc <;> simp [ClientPc.Resets] at hi <;> simp [ClientPc.Starts] at hpc
        · exact (hi.2.2 hpc.2).elim
        · rcases hpc with rfl | rfl <;> exact hi.elim
      · rcases hn with rfl | rfl <;> exact hpc.elim
      · subst hn
        exact hpc.elim
    exact ⟨hnew.sent, hnew.removed, hnew.reset, hnew.quiet, hnew.woken⟩
  · exact h.command henabled.2
  · exact h.update henabled.choose_spec
  · exact h.copy hfresh henabled.choose_spec
  · have hahead : s.worker.ahead = [] := by rcases henabled.1 with hw | hw <;> rw [hw] <;> rfl
    have hsignal : Silent (s.signal c) := by
      obtain heq | ⟨call, n, condV, hc, heq⟩ := signal_cases s c <;> rw [heq]
      · exact h
      · have hnew : Silent (s.setClient c (.woken call n)) := by
          refine h.client (fun i hi => by rw [hc]; exact hi) (fun call' n' hsent => ?_)
            fun _ _ _ => hahead
          rcases hsent with hsent | hsent <;> cases hsent
          exact .inl hc
        exact ⟨hnew.sent, hnew.removed, hnew.reset, hnew.quiet, hnew.woken⟩
    have hempty : ∀ worker : WorkerPc, worker = .publishing ∨ worker = .checking →
        Silent { s.signal c with worker } := by
      intro worker hworker
      have hnone : worker.ahead = [] := by rcases hworker with rfl | rfl <;> rfl
      exact hsignal.worker (by simp [hnone]) fun _ => .inl hnone
    have hnew := hempty (s.sigDone c).worker (by unfold State.sigDone; dsimp only; split <;> simp)
    exact ⟨hnew.sent, hnew.removed, hnew.reset, hnew.quiet, hnew.woken⟩
  · obtain ⟨i, change, sync, field, hc⟩ := henabled
    exact h.write hc
  · obtain ⟨call, hc⟩ := henabled
    exact h.send hc hfresh.le
  · obtain ⟨call, n, hc⟩ := henabled
    exact h.wake hc

/-! ## Acknowledgements -/

structure Acked (s : State) : Prop where
  pos : 1 ≤ s.read
  has : s.worker.Has s.written[s.read - 1]?
  pending : ∀ n cmd, s.processed ≤ n → s.written[n]? = some cmd → cmd.isSync = true →
    ∃ c ∈ s.condV, ∃ call, s.client c = .waiting call n
  single : s.condV.length ≤ 1
  woken : ∀ c call n, s.client c = .woken call n → n < s.processed
  returned : ∀ n ∈ s.returned, n < s.processed

theorem processed_le (s : State) : s.processed ≤ s.read := by
  unfold State.processed
  split <;> omega

theorem Acked.start (pollType : PollType) (c : Nat) : Acked (launched pollType c) where
  pos := Nat.le_refl 1
  has := ⟨.launch, rfl, rfl⟩
  pending n cmd _ hn _ := by
    cases n with
    | zero => exact ⟨c, List.mem_singleton_self c, .launch, by simp [launched]⟩
    | succ n => cases hn
  single := Nat.le_refl 1
  woken c' call n h := by
    by_cases hc : c' = c <;> simp_all [launched]
  returned n h := by cases h

/-- The worker goes on, and may be done with a command that nobody waits for. -/
theorem Acked.worker (h : Acked s) {worker : WorkerPc} {running : Bool} {pollFds : List Int}
    (hhas : worker.Has s.written[s.read - 1]?) (hbusy : worker.busy = s.worker.busy ∨
      worker.busy = false ∧ s.written[s.read - 1]? = some .pollEntriesUpdatedAsync) :
    Acked { s with running, pollFds, worker } := by
  have hle : s.processed ≤ State.processed { s with running, pollFds, worker } := by
    unfold State.processed
    grind
  exact ⟨h.pos, hhas, fun n cmd hn => h.pending n cmd (Nat.le_trans hle hn), h.single,
    fun c call n hc => Nat.lt_of_lt_of_le (h.woken c call n hc) hle,
    fun n hn => Nat.lt_of_lt_of_le (h.returned n hn) hle⟩

theorem Acked.client {pc : ClientPc} (h : Acked s) (hread : s'.read = s.read)
    (hwritten : s'.written = s.written) (hcond : s'.condV = s.condV)
    (hworker : s'.worker = s.worker) (hclient : s'.client = Function.update s.client c pc)
    (hreturned : ∀ n ∈ s'.returned, n < s.processed)
    (hold : ∀ call n, s.client c ≠ .waiting call n) (hnew : ∀ call n, pc ≠ .woken call n) :
    Acked s' := by
  have hprocessed : s'.processed = s.processed := by
    unfold State.processed
    rw [hread, hworker]
  refine ⟨hread ▸ h.pos, ?_, fun n cmd hn hcmd hsync => ?_, hcond ▸ h.single,
    fun c' call n hc' => ?_, ?_⟩
  · rw [hread, hwritten, hworker]
    exact h.has
  · rw [hprocessed] at hn
    rw [hwritten] at hcmd
    obtain ⟨c', hmem, call, hc'⟩ := h.pending n cmd hn hcmd hsync
    refine ⟨c', hcond ▸ hmem, call, ?_⟩
    rw [hclient, Function.update_of_ne, hc']
    rintro rfl
    exact hold call n hc'
  · rw [hprocessed]
    rw [hclient] at hc'
    by_cases hcc : c' = c
    · subst hcc
      exact (hnew call n (by rwa [Function.update_self] at hc')).elim
    · exact h.woken c' call n (by rwa [Function.update_of_ne hcc] at hc')
  · rw [hprocessed]
    exact hreturned

theorem Acked.sigDone (h : Acked s) (hworker : s.worker = .starting ∨ s.worker = .acking)
    (hc : s.condV = [] ∨ c ∈ s.condV) : Acked (s.sigDone c) := by
  have hbusy : s.processed = s.read - 1 := by
    rcases hworker with hw | hw <;> simp [State.processed, hw, WorkerPc.busy]
  obtain ⟨cmd, hcmd, hsync⟩ : ∃ x, s.written[s.read - 1]? = some x ∧ x.isSync = true := by
    have hhas := h.has
    rcases hworker with hw | hw <;> simpa [hw, WorkerPc.Has] using hhas
  obtain ⟨c', hmem, call, hc'⟩ := h.pending _ cmd (Nat.le_of_eq hbusy) hcmd hsync
  -- The call of the command is the only one that waits.
  obtain ⟨hcond, rfl⟩ : s.condV = [c] ∧ c' = c := by
    have hsingle := h.single
    match hlist : s.condV with
    | [] => simp [hlist] at hmem
    | [x] => simp_all
    | _ :: _ :: _ => simp [hlist] at hsingle
  have hsignal : s.signal c' =
      { s.setClient c' (.woken call (s.read - 1)) with condV := [] } := by
    simp [State.signal, hc', hcond]
  have hprocessed : (s.sigDone c').processed = s.read := by
    rcases hworker with hw | hw <;>
      simp [State.sigDone, hsignal, State.processed, State.setClient, hw, WorkerPc.busy]
  have hpos := h.pos
  refine ⟨?_, ?_, fun n x hn hx hxs => ?_, ?_, fun c call n hwoken => ?_, fun n hn => ?_⟩
  · rw [State.sigDone, hsignal]
    exact h.pos
  · rcases hworker with hw | hw <;>
      simp [State.sigDone, hsignal, State.setClient, hw, WorkerPc.Has]
  · rw [hprocessed] at hn
    rw [State.sigDone, hsignal] at hx
    obtain ⟨x', hmem', call', hx'⟩ := h.pending n x (by omega) hx hxs
    have heq : x' = c' := by simpa [hcond] using hmem'
    rw [heq, hc', ClientPc.waiting.injEq] at hx'
    omega
  · simp [State.sigDone, hsignal]
  · rw [hprocessed]
    simp only [State.sigDone, hsignal, State.setClient] at hwoken
    by_cases hcc : c = c'
    · subst hcc
      rw [Function.update_self, ClientPc.woken.injEq] at hwoken
      omega
    · rw [Function.update_of_ne hcc] at hwoken
      exact Nat.lt_of_lt_of_le (h.woken c call n hwoken) (processed_le s)
  · rw [State.sigDone, hsignal] at hn
    rw [hprocessed]
    exact Nat.lt_of_lt_of_le (h.returned n hn) (processed_le s)

theorem Acked.command (h : Acked s) (hworker : s.worker = .polling)
    (hread : s.read < s.written.length) : Acked s.command := by
  have hold : s.processed = s.read := by simp [State.processed, hworker, WorkerPc.busy]
  obtain ⟨cmd, pollFds, worker, hcmd, heq, hbusy, hhas, -⟩ := command_cases hread
  have hnew : s.command.processed = s.processed := by
    rw [hold, heq, State.processed, if_pos hbusy]
    exact Nat.add_sub_cancel ..
  refine ⟨?_, ?_, ?_, ?_, ?_, ?_⟩
  · rw [heq]
    exact Nat.succ_pos _
  · rw [heq]
    exact hcmd ▸ hhas
  · rw [hnew, heq]
    exact h.pending
  · rw [heq]
    exact h.single
  · rw [hnew, heq]
    exact h.woken
  · rw [hnew, heq]
    exact h.returned

theorem Acked.send (h : Acked s) (hle : s.read ≤ s.written.length) {call : Call}
    (hc : s.client c = .sending call) (hok : call.cmd.isSync = true → s.condV = []) :
    Acked (s.send c) := by
  obtain ⟨pc, condV, heq, hpc⟩ := send_cases hc
  have hprocessed : (s.send c).processed = s.processed := by
    rw [heq]
    rfl
  have hpos := h.pos
  have hother : ∀ c', c' ≠ c → (s.send c).client c' = s.client c' := by
    intro c' hne
    rw [heq]
    exact Function.update_of_ne hne ..
  have hself : (s.send c).client c = pc := by
    rw [heq]
    exact Function.update_self ..
  have hwritten : (s.send c).written = s.written ++ [call.cmd] := by rw [heq]
  refine ⟨heq ▸ h.pos, ?_, fun n cmd hn hcmd hsync => ?_, ?_, fun c' call' n hwoken => ?_, ?_⟩
  · rw [heq]
    dsimp only [State.setClient]
    rw [List.getElem?_append_left (by omega)]
    exact h.has
  · rw [hprocessed] at hn
    rw [hwritten, List.getElem?_append] at hcmd
    split at hcmd
    · obtain ⟨c', hmem, call', hc'⟩ := h.pending n cmd hn hcmd hsync
      obtain ⟨hs, rfl, rfl⟩ | ⟨hs, rfl, rfl⟩ := hpc
      · rw [hok hs] at hmem
        cases hmem
      · refine ⟨c', by rw [heq]; exact hmem, call', ?_⟩
        rw [hother c' (by rintro rfl; rw [hc] at hc'; cases hc'), hc']
    · have hn : n = s.written.length := by grind
      subst hn
      obtain ⟨hs, rfl, rfl⟩ | ⟨hs, rfl, rfl⟩ := hpc
      · exact ⟨c, by rw [heq]; simp, call, hself⟩
      · simp_all
  · obtain ⟨hs, rfl, rfl⟩ | ⟨hs, rfl, rfl⟩ := hpc
    · simp [heq, hok hs]
    · rw [heq]
      exact h.single
  · rw [hprocessed]
    by_cases hne : c' = c
    · subst hne
      obtain ⟨hs, rfl, rfl⟩ | ⟨hs, rfl, rfl⟩ := hpc <;> simp [hself] at hwoken
    · rw [hother c' hne] at hwoken
      exact h.woken c' call' n hwoken
  · rw [hprocessed, heq]
    exact h.returned

theorem Acked.wake (h : Acked s) {call : Call} {n : Nat} (hc : s.client c = .woken call n) :
    Acked (s.wake c) := by
  obtain ⟨pc, removed, heq, hpc, -⟩ := wake_cases hc
  rw [heq]
  refine h.client rfl rfl rfl rfl rfl ?_ (by simp [hc]) ?_
  · rintro m (_ | ⟨_, hm⟩)
    · exact h.woken c call n hc
    · exact h.returned m hm
  · rcases hpc with rfl | rfl <;> simp

theorem Acked.update (h : Acked s) (hworker : s.worker = .updating i) : Acked s.update := by
  have hhas : ∃ x, s.written[s.read - 1]? = some x ∧ x.isUpdate = true := by
    simpa [hworker, WorkerPc.Has] using h.has
  simp only [State.update, hworker]
  split
  · split <;> exact h.worker hhas (.inl (by simp [hworker, WorkerPc.busy]))
  · split
    · rename_i hasync
      exact h.worker trivial (.inr ⟨rfl, hasync⟩)
    · rename_i hsync
      refine h.worker ?_ (.inl (by simp [hworker, WorkerPc.busy]))
      obtain ⟨x, hx, hupdate⟩ := hhas
      refine ⟨x, hx, ?_⟩
      cases x <;> simp_all [Cmd.isUpdate, Cmd.isSync]

theorem Acked.copy (h : Acked s) (hworker : s.worker = .copying i) : Acked s.copy := by
  have hhas := h.has
  simp only [State.copy, hworker] at hhas ⊢
  exact h.worker hhas (.inl (by simp [hworker, WorkerPc.busy]))

theorem Acked.kept (h : Acked s) (hfresh : Fresh s) {label : Label} (hok : OneWaits s label)
    (henabled : Enabled s label) : Acked (next s label) := by
  rcases effect henabled with ⟨worker, running, heq, hmoves⟩ |
    ⟨c, pc, running, freed, released, heq, hold, hpc, -⟩ | rfl | rfl | rfl |
    ⟨c, rfl | rfl | rfl | rfl⟩
  · rw [heq]
    exact h.worker (hmoves.has _ h.has) (.inl hmoves.busy)
  · rw [heq]
    refine h.client rfl rfl rfl rfl rfl h.returned (fun call n hc => ?_) fun call n hn => ?_
    · rw [hc] at hold
      exact hold
    · rw [hn] at hpc
      exact hpc
  · exact h.command henabled.1 henabled.2
  · exact h.update henabled.choose_spec
  · exact h.copy henabled.choose_spec
  · exact h.sigDone henabled.1 henabled.2
  · obtain ⟨i, change, sync, field, hc⟩ := henabled
    simp only [next, State.write, hc]
    refine h.client rfl rfl rfl rfl rfl h.returned (by simp [hc]) ?_
    split <;> simp
  · obtain ⟨call, hc⟩ := henabled
    exact h.send hfresh.le hc (hok call hc)
  · obtain ⟨call, n, hc⟩ := henabled
    exact h.wake hc

/-! ## Runs -/

theorem State.Joined.frame (h : s.Joined) (hworker : s.worker = .ended → s'.worker = .ended)
    (hreleased : s'.released = true → s.released = true)
    (hclient : ∀ c, s'.client c = .freeing → s.client c = .freeing) : s'.Joined where
  released hr := hworker (h.released (hreleased hr))
  freeing c hc := hworker (h.freeing c (hclient c hc))

theorem State.Joined.client (h : s.Joined) {pc : ClientPc} (hpc : pc ≠ .freeing) :
    (s.setClient c pc).Joined := by
  refine h.frame id id fun c' hc' => ?_
  by_cases hcc : c' = c
  · subst hcc
    exact (hpc (by simpa [State.setClient] using hc')).elim
  · simpa [State.setClient, hcc] using hc'

theorem State.Joined.kept (h : s.Joined) {label : Label} (hok : RunsAtRelease s label)
    (henabled : Enabled s label) : (next s label).Joined := by
  rcases effect henabled with ⟨worker, running, heq, hmoves⟩ |
    ⟨c, pc, running, freed, released, heq, -, -, hpc, hreleased⟩ | rfl | rfl | rfl |
    ⟨c, rfl | rfl | rfl | rfl⟩
  · rw [heq]
    exact h.frame (fun hw => (hmoves.live hw).elim) id fun _ hc => hc
  · rw [heq]
    refine ⟨fun hr => ?_, fun c' hc' => ?_⟩
    · rcases hreleased hok hr with hold | hended | hc
      · exact h.released hold
      · exact hended
      · exact h.freeing c hc
    · by_cases hcc : c' = c
      · subst hcc
        exact hpc (by simpa [State.setClient] using hc')
      · exact h.freeing c' (by simpa [State.setClient, hcc] using hc')
  · obtain ⟨cmd, pollFds, worker, -, heq, -⟩ := command_cases henabled.2
    rw [next, heq]
    exact h.frame (by simp [henabled.1]) id fun _ hc => hc
  · obtain ⟨i, hworker⟩ := henabled
    refine h.frame (by simp [hworker]) ?_ ?_ <;> simp only [next, State.update] <;> grind
  · obtain ⟨i, hworker⟩ := henabled
    refine h.frame (by simp [hworker]) ?_ ?_ <;> simp [next, State.copy, hworker]
  · have hsignal : (s.signal c).Joined := by
      obtain heq | ⟨call, n, condV, -, heq⟩ := signal_cases s c <;> rw [heq]
      · exact h
      · have hnew : (s.setClient c (.woken call n)).Joined := h.client (by simp)
        exact ⟨hnew.released, hnew.freeing⟩
    refine hsignal.frame ?_ id fun _ hc => hc
    rw [worker_signal]
    rcases henabled.1 with hw | hw <;> simp [hw]
  · obtain ⟨i, change, sync, field, hc⟩ := henabled
    simp only [next, State.write, hc]
    have hnew : ∀ pc : ClientPc, pc ≠ .freeing → (s.setClient c pc).Joined := fun _ => h.client
    exact ⟨h.released, (hnew _ (by split <;> simp)).freeing⟩
  · obtain ⟨call, hc⟩ := henabled
    obtain ⟨pc, condV, heq, hpc⟩ := send_cases hc
    have hnew : (s.setClient c pc).Joined := by
      obtain ⟨-, rfl, -⟩ | ⟨-, rfl, -⟩ := hpc <;> exact h.client (by simp)
    rw [next, heq]
    exact ⟨hnew.released, hnew.freeing⟩
  · obtain ⟨call, n, hc⟩ := henabled
    obtain ⟨pc, removed, heq, hpc, -⟩ := wake_cases hc
    have hnew : (s.setClient c pc).Joined := by
      rcases hpc with rfl | rfl <;> exact h.client (by simp)
    rw [next, heq]
    exact ⟨hnew.released, hnew.freeing⟩

theorem fresh_and_silent_of_reachable (h : system.Reachable s) : Fresh s ∧ Silent s := by
  induction h with
  | init hinit =>
    obtain ⟨pollType, c, rfl⟩ := hinit
    exact ⟨.start pollType c, .start pollType c⟩
  | step _ hstep ih =>
    obtain ⟨henabled, rfl⟩ := hstep
    exact ⟨ih.1.kept henabled, ih.2.kept ih.1 henabled⟩

theorem acked_of_reachable (h : (system.restrict OneWaits).Reachable s) : Acked s := by
  induction h with
  | init hinit =>
    obtain ⟨pollType, c, rfl⟩ := hinit
    exact .start pollType c
  | step hs hstep ih =>
    obtain ⟨hok, henabled, rfl⟩ := hstep
    exact ih.kept (fresh_and_silent_of_reachable hs.of_restrict).1 hok henabled

theorem joined_of_reachable (h : (system.restrict RunsAtRelease).Reachable s) : s.Joined := by
  refine (System.Invariant.of_restrict ?_ ?_).reachable h
  · rintro _ ⟨pollType, c, rfl⟩
    refine ⟨nofun, fun c' hc' => ?_⟩
    by_cases hc : c' = c <;> simp_all [launched]
  · rintro s label _ hs hok ⟨henabled, rfl⟩
    exact hs.kept hok henabled

/-- The poll set and the callbacks are right in every run. A call that waits returns after its
command where one waits at a time, and `release` joins the thread where it is called late enough. -/
theorem protocol_of_reachable (h : system.Reachable s) : s.Follows ∧
    ((system.restrict OneWaits).Reachable s → ∀ n ∈ s.returned, n < s.processed) ∧
    ((system.restrict RunsAtRelease).Reachable s → s.Joined) := by
  obtain ⟨hfresh, hsilent⟩ := fresh_and_silent_of_reachable h
  refine ⟨⟨fun hworker hread i hclean => ?_, fun i ready hworker => ?_⟩,
    fun hone => (acked_of_reachable hone).returned, joined_of_reachable⟩
  · rcases hfresh.fresh i with heq | hpending | hbefore | ⟨c, hdirty⟩
    · exact heq
    · exact (not_pending hread hpending).elim
    · rw [hworker] at hbefore
      exact hbefore.elim
    · exact (hclean c hdirty).elim
  · by_contra hremoved
    obtain ⟨-, hq | hempty⟩ := hsilent.removed i (by simpa using hremoved)
    · have hahead := hq.2
      rw [hworker] at hahead
      exact hahead (List.mem_cons_self ..)
    · rw [hworker] at hempty
      cases hempty.1

def twoCommits : List Label :=
  [.sigDone 0, .publish, .wake 0, .commit 1, .commit 2, .send 1, .send 2, .command, .sigDone 2,
    .wake 2]

def oneWrite : List Label :=
  [.sigDone 0, .publish, .wake 0, .add 0 { fd := 5, handler := 256 } true, .write 0]

def earlyRelease : List Label := [.sigDone 0, .wake 0, .release 0]

theorem along_oneWrite {ok : State → Label → Prop} (hok : ∀ s, ∀ label ∈ oneWrite, ok s label) :
    (system.restrict ok).Reachable (oneWrite.foldl next (launched .data 0)) := by
  refine System.reachable_foldl ?_ (.init ⟨.data, 0, rfl⟩)
  simp only [oneWrite, List.forall_mem_cons] at hok
  exact ⟨⟨(hok _).1, .inl rfl, .inr (by decide)⟩, ⟨(hok _).2.1, rfl⟩,
    ⟨(hok _).2.2.1, .launch, 0, rfl⟩,
    ⟨(hok _).2.2.2.1, rfl, rfl⟩, ⟨(hok _).2.2.2.2.1, 0, _, true, .fd, rfl⟩, trivial⟩

theorem protocol_oneWrite : (oneWrite.foldl next (launched .data 0)).Follows ∧
    (∀ n ∈ (oneWrite.foldl next (launched .data 0)).returned,
      n < (oneWrite.foldl next (launched .data 0)).processed) ∧
    (oneWrite.foldl next (launched .data 0)).Joined := by
  have hrun : system.Reachable (oneWrite.foldl next (launched .data 0)) :=
    (along_oneWrite fun _ _ _ => trivial :
      (system.restrict fun _ _ => True).Reachable _).of_restrict
  obtain ⟨hfollows, hreturned, hjoined⟩ := protocol_of_reachable hrun
  refine ⟨hfollows, hreturned (along_oneWrite ?_), hjoined (along_oneWrite ?_)⟩ <;>
    simp [oneWrite, OneWaits, RunsAtRelease]

/-- With two calls that wait, the second one returns first. Between a change of an entry and its
command the poll set is another one. And `release` returns before the thread has said it runs. -/
theorem not_protocol :
    (∃ s, system.Reachable s ∧ ∃ n ∈ s.returned, s.processed ≤ n) ∧
    (∃ s, system.Reachable s ∧ s.worker = .polling ∧ s.read = s.written.length ∧
      ∃ i, s.polled i ≠ s.registered i) ∧
    ∃ s, system.Reachable s ∧ 0 ∈ s.returned ∧ s.released = true ∧ s.worker ≠ .ended := by
  have hstart : (system.restrict fun _ _ => True).Reachable (launched .data 0) :=
    .init ⟨.data, 0, rfl⟩
  refine ⟨⟨twoCommits.foldl next (launched .data 0), (System.reachable_foldl ?_ hstart).of_restrict,
      2, by decide, by decide⟩,
    ⟨oneWrite.foldl next (launched .data 0), (System.reachable_foldl ?_ hstart).of_restrict,
      rfl, rfl, 0, by decide⟩,
    earlyRelease.foldl next (launched .data 0), (System.reachable_foldl ?_ hstart).of_restrict,
      by decide, rfl, nofun⟩
  · exact ⟨⟨trivial, .inl rfl, .inr (by decide)⟩, ⟨trivial, rfl⟩, ⟨trivial, .launch, 0, rfl⟩,
      ⟨trivial, rfl, rfl⟩, ⟨trivial, rfl, rfl⟩, ⟨trivial, .commit, rfl⟩, ⟨trivial, .commit, rfl⟩,
      ⟨trivial, rfl, by decide⟩, ⟨trivial, .inr rfl, .inr (by decide)⟩, ⟨trivial, .commit, 2, rfl⟩,
      trivial⟩
  · exact ⟨⟨trivial, .inl rfl, .inr (by decide)⟩, ⟨trivial, rfl⟩, ⟨trivial, .launch, 0, rfl⟩,
      ⟨trivial, rfl, rfl⟩, ⟨trivial, 0, _, true, .fd, rfl⟩, trivial⟩
  · exact ⟨⟨trivial, .inl rfl, .inr (by decide)⟩, ⟨trivial, .launch, 0, rfl⟩, ⟨trivial, rfl⟩,
      trivial⟩

end EtherDevice.MmStream.PollThread
