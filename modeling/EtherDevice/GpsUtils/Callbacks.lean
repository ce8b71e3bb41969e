import Mathlib
import EtherDevice.GpsUtils.DeletedOnce

/-!
# Callbacks of stopped timers

`LocTimerDelegate::expire` reads the client of the delegate without its lock. A client that is
stopped and started again in between gets the callback of the old start, and its new delegate is
stopped; a client that is destroyed in between is used after its end. In the runs without such a
step (`Ok`) every delegate is deleted once and called back at most once, and never after its
client was told that it is stopped (`sound_of_reachable`). From the state before any other such
step the next ones break this.
-/

namespace EtherDevice.GpsUtils.Lifecycle

open Lib

section Calls

variable {s : Lifecycle}

def Released (s : Lifecycle) (timer : Delegate) : Prop := timer ∈ s.created ∧ ¬ s.Owned timer

structure CallsInv (s : Lifecycle) : Prop where
  stopped : ∀ timer ∈ s.stopped, s.Released timer
  called : ∀ timer ∈ s.called, s.Released timer ∧ timer ∉ s.stopped
  calledOnce : s.called.Nodup
  /-- The client that `expire` read had the delegate, and has it or was stopped since. -/
  read : ∀ now timer client, s.timers.msgTask = .expiring now timer (some client) →
    s.calling = none → s.timers.mTimer client = some timer ∨ timer ∈ s.stopped
  /-- The client that `expire` stopped had the delegate. -/
  calling : ∀ client, s.calling = some client →
    ∃ now timer, s.timers.msgTask = .expiring now timer (some client) ∧
      s.Released timer ∧ timer ∉ s.stopped ∧ timer ∉ s.called
  notMisused : s.misused = []

structure Inv (s : Lifecycle) : Prop where
  placed : Placed s.timers s.created s.deleted
  calls : CallsInv s

theorem Inv.sound (h : s.Inv) : s.Sound where
  deletedOnce timer hmade hnot := h.placed.fates.once timer hmade hnot
  owned timer := fun ⟨client, htimer⟩ =>
    ⟨(h.placed.owned client timer htimer).1, h.placed.fates.kept client timer htimer⟩
  deletedMade timer hdeleted := by
    by_contra hnot
    exact (not_removed (h.placed.fates.unmade timer hnot)).2 hdeleted
  gone timer hdeleted := by
    refine ⟨fun hmem => (h.placed.stored timer hmem).2 hdeleted,
      fun hmem => (h.placed.queued timer hmem).2.2 hdeleted, fun ⟨now, hheld⟩ => ?_⟩
    exact (h.placed.held now timer hheld).2 hdeleted
  calledOnce := h.calls.calledOnce
  calledNotStopped timer hstopped hcalled := (h.calls.called timer hcalled).2 hstopped
  notMisused := h.calls.notMisused

/-- A step that neither calls back, nor starts or stops, and after which the message task has
read no client, or one that has the delegate. -/
theorem CallsInv.of_same {s' : Lifecycle} (h : s.CallsInv)
    (hmTimer : s'.timers.mTimer = s.timers.mTimer)
    (hcallbacks : s'.timers.callbacks = s.timers.callbacks) (hcreated : s'.created = s.created)
    (hstopped : s'.stopped = s.stopped) (hcalling : s'.calling = s.calling)
    (hmisused : s'.misused = s.misused)
    (htask : s'.timers.msgTask = s.timers.msgTask ∨ s.calling = none ∧
      ∀ now timer client, s'.timers.msgTask = .expiring now timer (some client) →
        s.timers.mTimer client = some timer) : s'.CallsInv := by
  have hreleased : ∀ timer, s'.Released timer ↔ s.Released timer := by
    simp_all [Released, Owned]
  have hcalled : s'.called = s.called := congrArg (List.map Prod.fst) hcallbacks
  refine {
    stopped := fun timer hmem => (hreleased timer).mpr (h.stopped timer (hstopped ▸ hmem))
    called := fun timer hmem => by
      rw [hreleased, hstopped]
      exact h.called timer (hcalled ▸ hmem)
    calledOnce := hcalled ▸ h.calledOnce
    read := fun now timer client hread hnone => ?_
    calling := fun client hsome => ?_
    notMisused := hmisused.trans h.notMisused }
  · rw [hmTimer, hstopped]
    rcases htask with hsame | ⟨-, hnew⟩
    · exact h.read now timer client (hsame ▸ hread) (hcalling ▸ hnone)
    · exact .inl (hnew now timer client hread)
  · rw [hcalling] at hsome
    rcases htask with hsame | ⟨hnone, -⟩
    · simp [hsame, h.calling, hsome, hreleased, hstopped, hcalled]
    simp_all

theorem inv_start (h : s.Inv) (client timeOutInMs : Nat) : (s.start client timeOutInMs).Inv := by
  cases hclient : s.timers.mTimer client with
  | some timer =>
    simp_all [start, LocTimers.start]
  | none =>
    have hplaced := placed_start h.placed hclient timeOutInMs
    have heq : s.start client timeOutInMs = { s with
        timers := (s.timers.start client timeOutInMs).2
        created := s.created ++ [newTimer s.timers timeOutInMs] } := by
      unfold start
      rw [start_eq hclient]
      simp
    rw [heq]
    refine ⟨hplaced, ?_⟩
    have hnew : newTimer s.timers timeOutInMs ∉ s.created := fun hmem =>
      Nat.lt_irrefl _ (h.placed.made _ hmem)
    have hmTimer : (s.timers.start client timeOutInMs).2.mTimer =
        Function.update s.timers.mTimer client (some (newTimer s.timers timeOutInMs)) := by
      rw [start_eq hclient]
    have hstep := LocTimers.clientStep_start s.timers client timeOutInMs
    have hkeep : ∀ timer, s.Released timer →
        Released { s with
          timers := (s.timers.start client timeOutInMs).2
          created := s.created ++ [newTimer s.timers timeOutInMs] } timer := by
      rintro timer ⟨hmade, hnot⟩
      refine ⟨List.mem_append_left _ hmade, fun ⟨client', hown⟩ => ?_⟩
      rw [hmTimer] at hown
      by_cases hsame : client' = client
      · simp_all
      · rw [Function.update_of_ne hsame] at hown
        exact hnot ⟨client', hown⟩
    have hcalled : (s.timers.start client timeOutInMs).2.callbacks = s.timers.callbacks :=
      hstep.callbacks
    refine {
      stopped := fun timer hmem => hkeep timer (h.calls.stopped timer hmem)
      called := fun timer hmem => ?_
      calledOnce := ?_
      read := fun now timer client' hread hnone => ?_
      calling := fun client' hsome => ?_
      notMisused := h.calls.notMisused }
    · unfold Lifecycle.called at hmem
      rw [hcalled] at hmem
      obtain ⟨hrel, hnot⟩ := h.calls.called timer hmem
      exact ⟨hkeep timer hrel, hnot⟩
    · unfold Lifecycle.called
      rw [hcalled]
      exact h.calls.calledOnce
    · rw [hstep.msgTask] at hread
      rcases h.calls.read now timer client' hread hnone with hown | hstopped
      · have hne : client' ≠ client := by
          rintro rfl
          exact absurd (hclient.symm.trans hown) (Option.some_ne_none _).symm
        simp [hmTimer, hne, hown]
      · exact .inr hstopped
    · obtain ⟨now, timer, hread, hrel, hnot, hfree⟩ := h.calls.calling client' hsome
      refine ⟨now, timer, hstep.msgTask.trans hread, hkeep timer hrel, hnot, ?_⟩
      simp_all [Lifecycle.called]

theorem Inv.stop_spec (h : s.Inv) {client : Nat} {timer : Delegate}
    (htimer : s.timers.mTimer client = some timer) :
    (s.timers.stop client).1 = true ∧
      (s.timers.stop client).2.mTimer = Function.update s.timers.mTimer client none ∧
      ∀ client' timer', (s.timers.stop client).2.mTimer client' = some timer' →
        s.timers.mTimer client' = some timer' ∧ timer' ≠ timer := by
  rw [h.placed.stop_eq htimer]
  refine ⟨rfl, rfl, fun client' timer' htimer' => ?_⟩
  dsimp only at htimer'
  have hne : client' ≠ client := by
    rintro rfl
    simp_all
  rw [Function.update_of_ne hne] at htimer'
  refine ⟨htimer', ?_⟩
  rintro rfl
  exact hne (h.placed.owner_unique htimer' htimer)

theorem stop_eq_of_none {client : Nat} (hnone : s.timers.mTimer client = none) :
    s.timers.stop client = (false, s.timers) := by
  unfold LocTimers.stop
  rw [hnone]

theorem inv_stop (h : s.Inv) (client : Nat) : (s.stop client).Inv := by
  have hplaced := placed_stop h.placed client
  have hstep := LocTimers.clientStep_stop s.timers client
  cases hclient : s.timers.mTimer client with
  | none =>
    simp_all [stop, stop_eq_of_none]
  | some timer =>
    obtain ⟨hanswer, hmTimer, howners⟩ := h.stop_spec hclient
    have heq : s.stop client = { s with
        timers := (s.timers.stop client).2
        stopped := s.stopped ++ [timer] } := by
      simp_all [stop]
    rw [heq]
    refine ⟨hplaced, ?_⟩
    have hmade := (h.placed.owned client timer hclient).1
    have howned : ∀ timer', s.Released timer' → timer' ≠ timer := by
      rintro timer' ⟨-, hnot⟩ rfl
      exact hnot ⟨client, hclient⟩
    have hkeep : ∀ timer', timer' ∈ s.created → ¬ s.Owned timer' ∨ timer' = timer →
        Released { s with
          timers := (s.timers.stop client).2
          stopped := s.stopped ++ [timer] } timer' := by
      intro timer' hmade' hfree
      refine ⟨hmade', fun ⟨client', hown⟩ => ?_⟩
      obtain ⟨hold, hne⟩ := howners client' timer' hown
      exact hfree.elim (fun hnot => hnot ⟨client', hold⟩) hne
    have hnotStopped : ∀ timer', s.Released timer' → timer' ∉ s.stopped →
        timer' ∉ s.stopped ++ [timer] := by
      simp_all
    have hcalled : (s.timers.stop client).2.callbacks.map Prod.fst = s.called :=
      congrArg (List.map Prod.fst) hstep.callbacks
    refine {
      stopped := fun timer' hmem => ?_
      called := fun timer' hmem => ?_
      calledOnce := (congrArg List.Nodup hcalled).mpr h.calls.calledOnce
      read := fun now timer' client' hread hnone => ?_
      calling := fun client' hsome => ?_
      notMisused := h.calls.notMisused }
    · rcases List.mem_append.mp hmem with hmem | hmem
      · obtain ⟨hmade', hnot⟩ := h.calls.stopped timer' hmem
        exact hkeep timer' hmade' (.inl hnot)
      simp_all
    · obtain ⟨hrel, hnot⟩ := h.calls.called timer' (hcalled ▸ hmem)
      exact ⟨hkeep timer' hrel.1 (.inl hrel.2), hnotStopped timer' hrel hnot⟩
    · rw [hstep.msgTask] at hread
      rcases h.calls.read now timer' client' hread hnone with hown | hstopped
      · by_cases hsame : client' = client
        · simp_all
        simp [hmTimer, hsame, hown]
      · exact .inr (List.mem_append_left _ hstopped)
    · obtain ⟨now, timer', hread, hrel, hnot, hfree⟩ := h.calls.calling client' hsome
      exact ⟨now, timer', hstep.msgTask.trans hread, hkeep timer' hrel.1 (.inl hrel.2),
        hnotStopped timer' hrel hnot, fun hmem => hfree (hcalled ▸ hmem)⟩

theorem inv_destroy (h : s.Inv) (client : Nat) : (s.destroy client).Inv := by
  obtain ⟨hplaced, hcalls⟩ := inv_stop h client
  exact ⟨hplaced, { hcalls with }⟩

theorem popIfOutRanks_frame (t : LocTimers) (now : Timespec) :
    (t.popIfOutRanks now).mTimer = t.mTimer ∧ (t.popIfOutRanks now).callbacks = t.callbacks ∧
      ∃ timer, (t.popIfOutRanks now).msgTask = .popped now timer := by
  grind [LocTimers.popIfOutRanks_cases, LocTimers.popTimer_eq]

theorem inv_popIfOutRanks (h : s.Inv) (hnone : s.calling = none) (now : Timespec) :
    Inv { s with timers := s.timers.popIfOutRanks now } := by
  obtain ⟨hmTimer, hcallbacks, timer, htask⟩ := popIfOutRanks_frame s.timers now
  refine ⟨placed_popIfOutRanks h.placed now, h.calls.of_same hmTimer hcallbacks rfl rfl rfl rfl
    (.inr ⟨hnone, fun now' timer' client hread => ?_⟩)⟩
  rw [htask] at hread
  cases hread

theorem inv_keep (h : s.Inv) (step : Keep) (henabled : step.op.Enabled s.timers) :
    Inv { s with timers := s.timers.next step.op } := by
  refine ⟨placed_keep h.placed step henabled, ?_⟩
  cases step with
  | tick clock => exact h.calls.of_same rfl rfl rfl rfl rfl rfl (.inl rfl)
  | wake => exact h.calls.of_same rfl rfl rfl rfl rfl rfl (.inl rfl)
  | disarm => exact h.calls.of_same rfl rfl rfl rfl rfl rfl (.inl rfl)
  | removePoll => exact h.calls.of_same rfl rfl rfl rfl rfl rfl (.inl rfl)
  | sendExpire => exact h.calls.of_same rfl rfl rfl rfl rfl rfl (.inl rfl)

theorem calling_eq_none (h : s.Inv)
    (htask : ∀ now timer client, s.timers.msgTask ≠ .expiring now timer (some client)) :
    s.calling = none := by
  cases hcalling : s.calling with
  | none => rfl
  | some client =>
    obtain ⟨now, timer, hread, -⟩ := h.calls.calling client hcalling
    exact absurd hread (htask now timer client)

theorem inv_proc (h : s.Inv) (henabled : LocTimers.Op.proc.Enabled s.timers) : s.proc.Inv := by
  refine ⟨placed_proc h.placed henabled, ?_⟩
  obtain ⟨hidle, hne⟩ := henabled
  have hnone := calling_eq_none h fun now timer client hread => by
    rw [hidle] at hread
    cases hread
  have hproc : s.timers.proc.mTimer = s.timers.mTimer ∧
      s.timers.proc.callbacks = s.timers.callbacks ∧
      (s.timers.proc.msgTask = .idle ∨ ∃ now timer, s.timers.proc.msgTask = .popped now timer) := by
    unfold LocTimers.proc
    cases hqueue : s.timers.queue with
    | nil => exact absurd hqueue hne
    | cons msg rest =>
      cases msg with
      | timerPush timer =>
        dsimp only [List.head?_cons]
        obtain ⟨armed, polled, heq⟩ :=
          LocTimers.procPush_eq
            { s.timers with queue := (LocMsg.timerPush timer :: rest).tail } timer
        simp_all
      | timerRemove timer =>
        dsimp only [List.head?_cons]
        obtain ⟨armed, polled, heq⟩ := LocTimers.procRemove_eq
          { s.timers with queue := (LocMsg.timerRemove timer :: rest).tail } timer
        simp_all
      | timerExpire =>
        exact ⟨rfl, rfl, .inr ⟨_, _, rfl⟩⟩
  obtain ⟨hmTimer, hcallbacks, htask⟩ := hproc
  refine h.calls.of_same hmTimer hcallbacks rfl rfl rfl rfl
    (.inr ⟨hnone, fun now timer client hread => ?_⟩)
  change s.timers.proc.msgTask = _ at hread
  simp_all

theorem inv_expireTimer (h : s.Inv) (henabled : LocTimers.Op.expireTimer.Enabled s.timers) :
    Inv { s with timers := s.timers.expireTimer } := by
  refine ⟨placed_expireTimer h.placed, ?_⟩
  obtain ⟨now, timer, hpopped⟩ := henabled
  have hnone := calling_eq_none h fun now timer client hread => by
    rw [hpopped] at hread
    cases hread
  cases timer with
  | none =>
    obtain ⟨armed, polled, heq⟩ := LocTimers.updateSoonestTime_eq s.timers none
    have hexpire : s.timers.expireTimer = { s.timers with
        armed := armed, polled := polled, msgTask := .idle } := by
      simp_all [LocTimers.expireTimer]
    simp [hexpire, h.calls.of_same, hnone]
  | some timer =>
    have hexpire : s.timers.expireTimer = { s.timers with
        msgTask := .expiring now timer (s.timers.vars timer.address).mClient } := by
      unfold LocTimers.expireTimer
      rw [hpopped]
    rw [hexpire]
    refine h.calls.of_same rfl rfl rfl rfl rfl rfl
      (.inr ⟨hnone, fun now' timer' client hread => ?_⟩)
    injection hread with hnow htimer hclient
    rw [← htimer]
    exact h.placed.mTimer_of_mClient (h.placed.held now timer hpopped).1 hclient

theorem inv_stopClient (h : s.Inv) (hnone : s.calling = none) (hok : s.Ok .stopClient) :
    s.stopClient.Inv := by
  unfold stopClient
  cases htask : s.timers.msgTask with
  | idle => exact h
  | popped now timer => exact h
  | expiring now timer client =>
    cases client with
    | none => exact inv_popIfOutRanks h hnone now
    | some client =>
      unfold Ok at hok
      rw [htask] at hok
      obtain ⟨hlive, hmTimer⟩ := hok
      dsimp only
      rw [if_neg hlive]
      rcases hmTimer with hfree | hown
      · rw [stop_eq_of_none hfree]
        exact inv_popIfOutRanks h hnone now
      · obtain ⟨hanswer, hupdate, howners⟩ := h.stop_spec hown
        have hstep := LocTimers.clientStep_stop s.timers client
        have hmade := (h.placed.owned client timer hown).1
        rw [if_pos hanswer]
        refine ⟨placed_stop h.placed client, ?_⟩
        have hcalled : (s.timers.stop client).2.callbacks.map Prod.fst = s.called :=
          congrArg (List.map Prod.fst) hstep.callbacks
        have hkeep : ∀ timer', s.Released timer' → Released { s with
            timers := (s.timers.stop client).2
            calling := some client } timer' := by
          rintro timer' ⟨hmade', hnot⟩
          exact ⟨hmade', fun ⟨client', hown'⟩ =>
            hnot ⟨client', (howners client' timer' hown').1⟩⟩
        have howned : s.Owned timer := ⟨client, hown⟩
        refine {
          stopped := fun timer' hmem => hkeep timer' (h.calls.stopped timer' hmem)
          called := fun timer' hmem => ?_
          calledOnce := (congrArg List.Nodup hcalled).mpr h.calls.calledOnce
          read := fun now' timer' client' _ hcalling => by cases hcalling
          calling := fun client' hsome => ?_
          notMisused := h.calls.notMisused }
        · obtain ⟨hrel, hnot⟩ := h.calls.called timer' (hcalled ▸ hmem)
          exact ⟨hkeep timer' hrel, hnot⟩
        · cases hsome
          refine ⟨now, timer, hstep.msgTask.trans htask,
            ⟨hmade, fun ⟨client', hown'⟩ => (howners client' timer hown').2 rfl⟩, ?_, ?_⟩
          · exact fun hmem => (h.calls.stopped timer hmem).2 howned
          · exact fun hmem => (h.calls.called timer (hcalled ▸ hmem)).1.2 howned

theorem inv_callBack (h : s.Inv) (henabled : s.calling ≠ none) (hok : s.Ok .callBack) :
    s.callBack.Inv := by
  obtain ⟨client, hcalling⟩ := Option.ne_none_iff_exists'.mp henabled
  obtain ⟨now, timer, htask, hrel, hnot, hfree⟩ := h.calls.calling client hcalling
  have hlive : client ∉ s.destroyed := hok client hcalling
  unfold callBack
  rw [htask, hcalling]
  dsimp only
  rw [if_neg hlive]
  have hcallback : Placed (s.timers.timeOutCallback timer) s.created s.deleted :=
    { h.placed with heap := { h.placed.heap with }, clients := h.placed.clients }
  obtain ⟨hmTimer, hcallbacks, timer', htask'⟩ :=
    popIfOutRanks_frame (s.timers.timeOutCallback timer) now
  refine ⟨placed_popIfOutRanks hcallback now, ?_⟩
  have hreleased : ∀ timer', s.Released timer' → Released { s with
      timers := (s.timers.timeOutCallback timer).popIfOutRanks now
      calling := none } timer' := by
    rintro timer' ⟨hmade, hnot⟩
    refine ⟨hmade, fun ⟨client', hown⟩ => hnot ⟨client', ?_⟩⟩
    rwa [hmTimer] at hown
  have hcalled : ((s.timers.timeOutCallback timer).popIfOutRanks now).callbacks.map Prod.fst =
      s.called ++ [timer] := by
    rw [hcallbacks]
    exact List.map_append
  refine {
    stopped := fun timer' hmem => hreleased timer' (h.calls.stopped timer' hmem)
    called := fun timer' hmem => ?_
    calledOnce := ?_
    read := fun now' timer' client' hread _ => ?_
    calling := fun client' hsome => by cases hsome
    notMisused := h.calls.notMisused }
  · unfold Lifecycle.called at hmem
    rw [hcalled] at hmem
    rcases List.mem_append.mp hmem with hmem | hmem
    · simp [h.calls.called, hmem, hreleased]
    simp_all
  · unfold Lifecycle.called
    rw [hcalled, List.nodup_append]
    refine ⟨h.calls.calledOnce, List.nodup_singleton _, fun timer' hmem timer'' hmem' => ?_⟩
    rw [List.mem_singleton.mp hmem']
    rintro rfl
    exact hfree hmem
  simp_all

theorem inv_next {op : Op} (h : s.Inv) (henabled : op.Enabled s) (hok : s.Ok op) :
    (s.next op).Inv := by
  cases op with
  | start client timeOutInMs => exact inv_start h client timeOutInMs
  | stop client => exact inv_stop h client
  | destroy client => exact inv_destroy h client
  | keep step => exact inv_keep h step henabled
  | proc => exact inv_proc h henabled
  | expireTimer => exact inv_expireTimer h henabled
  | stopClient => exact inv_stopClient h henabled.2 hok
  | callBack => exact inv_callBack h henabled hok

theorem inv_initial (h : Initial s) : s.Inv := by
  obtain ⟨timers, hinitial, rfl⟩ := h
  have hheap := LocTimers.heapInv_initial hinitial
  have hclients := LocTimers.clientsInv_invariant.init timers hinitial
  obtain ⟨clock, -, rfl⟩ := hinitial
  constructor
  · exact {
      heap := hheap
      clients := hclients
      made := fun _ hmem => absurd hmem List.not_mem_nil
      sameAddress := fun _ hmem => absurd hmem List.not_mem_nil
      owned := fun _ _ htimer => absurd htimer (Option.some_ne_none _).symm
      queued := fun _ hmem => absurd hmem List.not_mem_nil
      ordered := List.Pairwise.nil
      heapNodup := Multiset.nodup_zero
      stored := fun _ hmem => absurd hmem (Multiset.notMem_zero _)
      held := fun _ _ htask => by cases htask
      fates := ⟨fun _ hmem => absurd hmem List.not_mem_nil,
        fun _ _ htimer => absurd htimer (Option.some_ne_none _).symm, fun _ _ => rfl⟩ }
  · exact {
      stopped := fun _ hmem => absurd hmem List.not_mem_nil
      called := fun _ hmem => absurd hmem List.not_mem_nil
      calledOnce := List.nodup_nil
      read := fun _ _ _ htask => by cases htask
      calling := fun _ hsome => by cases hsome
      notMisused := rfl }

theorem inv_invariant : (system.restrict Ok).Invariant Inv := by
  refine System.Invariant.of_restrict (fun s hinit => inv_initial hinit) ?_
  rintro s op s' h hok ⟨henabled, rfl⟩
  exact inv_next h henabled hok

theorem not_sound_of_misused (client : Nat) (rest : List Nat) (h : s.misused = client :: rest) :
    ¬ s.Sound := fun hsound => by
  rw [hsound.notMisused] at h
  cases h

theorem not_sound_restarted (h : s.Inv) (hnone : s.calling = none) {now : Timespec}
    {timer timer' : Delegate} {client : Nat}
    (htask : s.timers.msgTask = .expiring now timer (some client))
    (hlive : client ∉ s.destroyed) (htimer : s.timers.mTimer client = some timer')
    (hne : timer' ≠ timer) :
    s.stopClient.calling ≠ none ∧ ¬ s.stopClient.callBack.Sound := by
  obtain ⟨hanswer, -, -⟩ := h.stop_spec htimer
  have hstep := LocTimers.clientStep_stop s.timers client
  have hstopped : timer ∈ s.stopped := by
    refine (h.calls.read now timer client htask hnone).resolve_left fun hown => ?_
    simp_all
  have heq : s.stopClient = { s with
      timers := (s.timers.stop client).2
      calling := some client } := by
    simp [stopClient, htask, hlive, hanswer]
  have hcall : s.stopClient.callBack = { s with
      timers := ((s.timers.stop client).2.timeOutCallback timer).popIfOutRanks now
      calling := none } := by
    simp [callBack, heq, hstep.msgTask, htask, hlive]
  refine ⟨by rw [heq]; exact Option.some_ne_none client, fun hsound => ?_⟩
  rw [hcall] at hsound
  refine hsound.calledNotStopped timer hstopped ?_
  unfold Lifecycle.called
  rw [(popIfOutRanks_frame _ now).2.1]
  exact List.mem_map.mpr ⟨(timer, _), List.mem_append_right _ (List.mem_singleton_self _), rfl⟩

theorem broken_of_not_ok {op : Op} (h : s.Inv) (henabled : op.Enabled s) (hnot : ¬ s.Ok op) :
    ¬ (s.next op).Sound ∨
      (Op.callBack.Enabled (s.next op) ∧ ¬ ((s.next op).next .callBack).Sound) := by
  cases op with
  | stopClient =>
    obtain ⟨⟨now, timer, client, htask⟩, hnone⟩ := henabled
    unfold Ok at hnot
    rw [htask] at hnot
    cases client with
    | none => exact absurd trivial hnot
    | some client =>
      by_cases hlive : client ∈ s.destroyed
      · refine .inl (not_sound_of_misused client s.misused ?_)
        simp only [next, stopClient, htask, if_pos hlive]
      · cases htimer : s.timers.mTimer client with
        | none => exact absurd ⟨hlive, .inl htimer⟩ hnot
        | some timer' =>
          have hne : timer' ≠ timer := by
            simp_all
          exact .inr (not_sound_restarted h hnone htask hlive htimer hne)
  | callBack =>
    obtain ⟨client, hcalling⟩ := Option.ne_none_iff_exists'.mp henabled
    obtain ⟨now, timer, htask, -⟩ := h.calls.calling client hcalling
    have hlive : client ∈ s.destroyed := by
      by_contra hlive
      refine hnot fun client' hsome => ?_
      simp_all
    refine .inl (not_sound_of_misused client s.misused ?_)
    simp only [next, callBack, htask, hcalling, if_pos hlive]
  | start | stop | destroy | keep | proc | expireTimer => exact absurd trivial hnot

/-- In every run whose steps meet the condition the life of every delegate is in order; any other
step breaks it, at once or with the callback that follows. -/
theorem sound_of_reachable {s : Lifecycle} (hs : (system.restrict Ok).Reachable s) :
    s.Sound ∧ ∀ op, op.Enabled s → ¬ s.Ok op →
      ¬ (s.next op).Sound ∨
        (Op.callBack.Enabled (s.next op) ∧ ¬ ((s.next op).next .callBack).Sound) :=
  have hinv := inv_invariant.reachable hs
  ⟨hinv.sound, fun _ henabled hnot => broken_of_not_ok hinv henabled hnot⟩

end Calls

def boot : Lifecycle := { timers := LocTimers.boot }

theorem boot_initial : Initial boot := ⟨LocTimers.boot, ⟨_, by decide, rfl⟩, rfl⟩

/-- The poll task handles an expiry at 6 s, and the message task takes it. -/
def expiry : List Op :=
  [.keep (.tick ⟨6, 0, Timespec.zero_tvNsec_lt⟩), .keep .wake, .keep .disarm, .keep .removePoll,
    .keep .sendExpire, .proc, .expireTimer]

/-- Client 1 stops its timer and is destroyed; client 0 is called back and starts again. -/
def twoLives : List Op :=
  [.start 0 1000, .start 1 5000, .proc, .proc, .stop 1, .proc, .destroy 1] ++ expiry ++
    [.stopClient, .callBack, .expireTimer, .start 0 1000, .proc, .proc]

theorem sound_of_reachable_twoLives :
    ∃ s, (system.restrict Ok).Reachable s ∧ s.called.length = 1 ∧ s.deleted.length = 2 ∧
      (s.Sound ∧ ∀ op, op.Enabled s → ¬ s.Ok op →
        ¬ (s.next op).Sound ∨
          (Op.callBack.Enabled (s.next op) ∧ ¬ ((s.next op).next .callBack).Sound)) := by
  have hrun : (System.follow (fun s op => Ok s op ∧ op.Enabled s) next twoLives boot).any
      (fun s => s.called.length = 1 ∧ s.deleted.length = 2) = true := by decide +kernel
  obtain ⟨s, hs, hcounts⟩ := (Option.any_eq_true _ _).mp hrun
  have hinit : (system.restrict Ok).Reachable boot := .init boot_initial
  have hreach := System.reachable_follow _ hinit hs
  obtain ⟨hcalled, hdeleted⟩ := of_decide_eq_true hcounts
  exact ⟨s, hreach, hcalled, hdeleted, sound_of_reachable hreach⟩

/-- Client 0 stops its timer and starts it again after `expire` read it. The callback of the
first start runs, and the second one is stopped. -/
def restarted : List Op :=
  [.start 0 1000, .proc] ++ expiry ++ [.stop 0, .start 0 5000, .stopClient, .callBack]

theorem not_sound : ¬ ∀ s, system.Reachable s → s.Sound := by
  have hrun : (System.follow (fun s op => True ∧ op.Enabled s) next restarted boot).any
      (fun s => ∃ timer ∈ s.stopped, timer ∈ s.called) = true := by decide +kernel
  obtain ⟨s, hs, hcalled⟩ := (Option.any_eq_true _ _).mp hrun
  have hinit : (system.restrict fun _ _ => True).Reachable boot := .init boot_initial
  have hreach := System.reachable_follow _ hinit hs
  obtain ⟨timer, hstopped, hmem⟩ := of_decide_eq_true hcalled
  exact fun h => (h s hreach.of_restrict).calledNotStopped timer hstopped hmem

end EtherDevice.GpsUtils.Lifecycle
