import EtherDevice.GpsUtils.Lifecycle

/-!
# One deletion for each delegate

A delegate is deleted by its one `MsgTimerRemove`, which the `stop` that takes it from its
client sends. Its `MsgTimerPush` is ahead of that message in the queue, so the removal finds the
delegate in the heap or popped before, and nothing puts it back. `Placed` says where the
delegates are, and every step of every run keeps it.
-/

namespace EtherDevice.GpsUtils.Lifecycle

open Lib Lib.PriorityQueue

def NotPushAfter (msg msg' : LocMsg) : Prop :=
  ∀ timer, msg = .timerPush timer ∨ msg = .timerRemove timer → msg' ≠ .timerPush timer

def deletionsIn (t : LocTimers) (deleted : List Delegate) (timer : Delegate) : Nat :=
  t.queue.count (.timerRemove timer) + deleted.count timer

structure Fates (mTimer : Nat → Option Delegate) (created : List Delegate)
    (deletions : Delegate → Nat) : Prop where
  once : ∀ timer ∈ created, (¬ ∃ client, mTimer client = some timer) → deletions timer = 1
  kept : ∀ client timer, mTimer client = some timer → deletions timer = 0
  unmade : ∀ timer, timer ∉ created → deletions timer = 0

theorem Fates.of_eq {mTimer : Nat → Option Delegate} {created : List Delegate}
    {deletions deletions' : Delegate → Nat} (h : Fates mTimer created deletions)
    (heq : ∀ timer, deletions' timer = deletions timer) : Fates mTimer created deletions' :=
  (funext heq : deletions' = deletions) ▸ h

structure Placed (t : LocTimers) (created deleted : List Delegate) : Prop where
  heap : t.HeapInv
  clients : t.ClientsInv
  made : ∀ timer ∈ created, timer.address < t.fresh
  sameAddress : ∀ timer ∈ created, ∀ timer' ∈ created,
    timer.address = timer'.address → timer = timer'
  owned : ∀ client timer, t.mTimer client = some timer →
    timer ∈ created ∧ t.vars timer.address = ⟨some client, true⟩
  queued : ∀ timer, .timerPush timer ∈ t.queue →
    timer ∈ created ∧ timer ∉ t.heap.elements ∧ timer ∉ deleted
  ordered : t.queue.Pairwise NotPushAfter
  heapNodup : t.heap.elements.Nodup
  stored : ∀ timer ∈ t.heap.elements, timer ∈ created ∧ timer ∉ deleted
  held : ∀ now timer, t.msgTask = .popped now (some timer) →
    timer ∈ created ∧ timer ∉ deleted
  fates : Fates t.mTimer created (deletionsIn t deleted)

section Placed

variable {t : LocTimers} {created deleted : List Delegate}

theorem not_removed {timer : Delegate}
    (hzero : deletionsIn t deleted timer = 0) :
    .timerRemove timer ∉ t.queue ∧ timer ∉ deleted := by
  unfold deletionsIn at hzero
  exact ⟨List.count_eq_zero.mp (by omega), List.count_eq_zero.mp (by omega)⟩

theorem Placed.owner_unique (h : Placed t created deleted) {client client' : Nat}
    {timer : Delegate} (hc : t.mTimer client = some timer)
    (hc' : t.mTimer client' = some timer) : client = client' := by
  have heq := (h.owned client timer hc).2.symm.trans (h.owned client' timer hc').2
  cases heq
  rfl

theorem Placed.mTimer_of_mClient (h : Placed t created deleted) {client : Nat}
    {timer : Delegate} (hmade : timer ∈ created)
    (hc : (t.vars timer.address).mClient = some client) : t.mTimer client = some timer := by
  obtain ⟨timer', htimer', haddr⟩ := h.clients timer.address client hc
  rw [htimer', h.sameAddress timer' (h.owned client timer' htimer').1 timer hmade haddr]

theorem Placed.of_same {t' : LocTimers} (sent : List LocMsg) (h : Placed t created deleted)
    (hheap' : t'.HeapInv) (hclients' : t'.ClientsInv) (hheap : t'.heap = t.heap)
    (hmTimer : t'.mTimer = t.mTimer) (hvars : t'.vars = t.vars) (hfresh : t'.fresh = t.fresh)
    (hqueue : t'.queue = t.queue ++ sent) (hsent : ∀ msg ∈ sent, msg = .timerExpire)
    (htask : ∀ now timer, t'.msgTask = .popped now (some timer) →
      timer ∈ created ∧ timer ∉ deleted) : Placed t' created deleted := by
  have hpush : ∀ timer, .timerPush timer ∈ t'.queue → .timerPush timer ∈ t.queue := by
    grind
  have hcount : ∀ timer, deletionsIn t' deleted timer = deletionsIn t deleted timer := by
    intro timer
    have hnot : (LocMsg.timerRemove timer) ∉ sent := fun hmem => by cases hsent _ hmem
    unfold deletionsIn
    rw [hqueue, List.count_append, List.count_eq_zero.mpr hnot, Nat.add_zero]
  refine {
    heap := hheap'
    clients := hclients'
    made := hfresh ▸ h.made
    sameAddress := h.sameAddress
    owned := by rw [hmTimer, hvars]; exact h.owned
    queued := fun timer hmem => by rw [hheap]; exact h.queued timer (hpush timer hmem)
    ordered := ?_
    heapNodup := hheap ▸ h.heapNodup
    stored := by rw [hheap]; exact h.stored
    held := htask
    fates := hmTimer ▸ h.fates.of_eq hcount }
  rw [hqueue, List.pairwise_append]
  refine ⟨h.ordered, ?_, fun msg _ msg' hmem' timer _ hpush => ?_⟩
  · refine List.pairwise_of_forall_mem_list fun msg _ msg' hmem' timer _ hpush => ?_
    rw [hsent msg' hmem'] at hpush
    cases hpush
  · rw [hsent msg' hmem'] at hpush
    cases hpush

def newTimer (t : LocTimers) (timeOutInMs : Nat) : Delegate :=
  ⟨t.fresh, t.clock.after timeOutInMs⟩

theorem start_eq {client : Nat} (hnone : t.mTimer client = none) (timeOutInMs : Nat) :
    t.start client timeOutInMs = (true, { t with
      fresh := t.fresh + 1
      vars := Function.update t.vars t.fresh ⟨some client, true⟩
      mTimer := Function.update t.mTimer client (some (newTimer t timeOutInMs))
      queue := t.queue ++ [.timerPush (newTimer t timeOutInMs)] }) := by
  unfold LocTimers.start
  rw [hnone]
  rfl

theorem placed_start (h : Placed t created deleted) {client : Nat}
    (hnone : t.mTimer client = none) (timeOutInMs : Nat) :
    Placed (t.start client timeOutInMs).2 (created ++ [newTimer t timeOutInMs]) deleted := by
  have hheap := LocTimers.heapInv_start h.heap client timeOutInMs
  have hclients := LocTimers.clientsInv_start h.clients client timeOutInMs
  rw [start_eq hnone] at hheap hclients ⊢
  have hnew : newTimer t timeOutInMs ∉ created := fun hmem =>
    Nat.lt_irrefl _ (h.made (newTimer t timeOutInMs) hmem)
  have hother : ∀ timer ∈ created, timer.address ≠ t.fresh := fun timer hmem =>
    Nat.ne_of_lt (h.made timer hmem)
  obtain ⟨hnotRemoved, hnotDeleted⟩ := not_removed (h.fates.unmade _ hnew)
  have hcount : ∀ timer, (t.queue ++ [LocMsg.timerPush (newTimer t timeOutInMs)]).count
      (.timerRemove timer) = t.queue.count (.timerRemove timer) := by
    intro timer
    simp
  constructor
  case heap => exact hheap
  case clients => exact hclients
  case heapNodup => exact h.heapNodup
  case stored =>
    exact fun timer hmem =>
      ⟨List.mem_append_left _ (h.stored timer hmem).1, (h.stored timer hmem).2⟩
  case held =>
    exact fun now timer htask =>
      ⟨List.mem_append_left _ (h.held now timer htask).1, (h.held now timer htask).2⟩
  case made =>
    intro timer hmem
    rcases List.mem_append.mp hmem with hmem | hmem
    · exact Nat.lt_succ_of_lt (h.made timer hmem)
    · rw [List.mem_singleton.mp hmem]
      exact Nat.lt_succ_self _
  case sameAddress =>
    intro timer hmem timer' hmem' haddr
    rcases List.mem_append.mp hmem with hmem | hmem <;>
      rcases List.mem_append.mp hmem' with hmem' | hmem'
    · exact h.sameAddress timer hmem timer' hmem' haddr
    · rw [List.mem_singleton.mp hmem'] at haddr
      exact absurd haddr (hother timer hmem)
    · rw [List.mem_singleton.mp hmem] at haddr
      exact absurd haddr.symm (hother timer' hmem')
    · rw [List.mem_singleton.mp hmem, List.mem_singleton.mp hmem']
  case owned =>
    intro client' timer htimer
    dsimp only at htimer ⊢
    by_cases hsame : client' = client
    · rw [hsame, Function.update_self] at htimer
      cases htimer
      rw [hsame]
      exact ⟨List.mem_append_right _ (List.mem_singleton_self _), Function.update_self ..⟩
    · rw [Function.update_of_ne hsame] at htimer
      obtain ⟨hmem, hvars⟩ := h.owned client' timer htimer
      simp [hmem, hother, hvars]
  case queued =>
    intro timer hmem
    rcases List.mem_append.mp hmem with hmem | hmem
    · simp [h.queued, hmem]
    · cases List.mem_singleton.mp hmem
      refine ⟨List.mem_append_right _ (List.mem_singleton_self _), ?_, hnotDeleted⟩
      exact fun hstored => hnew (h.stored _ hstored).1
  case ordered =>
    rw [List.pairwise_append]
    refine ⟨h.ordered, List.pairwise_singleton _ _, ?_⟩
    intro msg hmem msg' hmem' timer htimer hpush
    rw [List.mem_singleton.mp hmem'] at hpush
    cases hpush
    rcases htimer with rfl | rfl
    · exact hnew (h.queued _ hmem).1
    · exact hnotRemoved hmem
  case fates =>
    refine ⟨?_, ?_, ?_⟩
    · intro timer hmem hnot
      unfold deletionsIn
      dsimp only at hnot ⊢
      rw [hcount]
      rcases List.mem_append.mp hmem with hmem | hmem
      · refine h.fates.once timer hmem fun ⟨client', htimer⟩ => hnot ⟨client', ?_⟩
        have hne : client' ≠ client := by
          rintro rfl
          exact absurd (hnone.symm.trans htimer) (Option.some_ne_none _).symm
        rw [Function.update_of_ne hne, htimer]
      · rw [List.mem_singleton.mp hmem] at hnot
        exact absurd ⟨client, Function.update_self ..⟩ hnot
    · intro client' timer htimer
      unfold deletionsIn
      dsimp only at htimer ⊢
      rw [hcount]
      by_cases hsame : client' = client
      · rw [hsame, Function.update_self] at htimer
        cases htimer
        exact h.fates.unmade _ hnew
      · rw [Function.update_of_ne hsame] at htimer
        exact h.fates.kept client' timer htimer
    · intro timer hnot
      unfold deletionsIn
      rw [hcount]
      exact h.fates.unmade timer fun hmem => hnot (List.mem_append_left _ hmem)

theorem Placed.stop_eq (h : Placed t created deleted) {client : Nat} {timer : Delegate}
    (htimer : t.mTimer client = some timer) :
    t.stop client = (true, { t with
      mTimer := Function.update t.mTimer client none
      vars := Function.update t.vars timer.address {}
      queue := t.queue ++ [.timerRemove timer] }) := by
  have hvars := (h.owned client timer htimer).2
  unfold LocTimers.stop LocTimers.destroyLocked
  simp only [htimer, hvars]
  rfl

theorem placed_stop (h : Placed t created deleted) (client : Nat) :
    Placed (t.stop client).2 created deleted := by
  have hheap := LocTimers.heapInv_stop h.heap client
  have hclients := LocTimers.clientsInv_stop h.clients client
  cases htimer : t.mTimer client with
  | none =>
    simp_all [LocTimers.stop]
  | some timer =>
    rw [h.stop_eq htimer] at hheap hclients ⊢
    obtain ⟨hmade, -⟩ := h.owned client timer htimer
    have hother : ∀ client' timer', Function.update t.mTimer client none client' = some timer' →
        t.mTimer client' = some timer' ∧ timer' ≠ timer := by
      intro client' timer' htimer'
      have hne : client' ≠ client := by
        rintro rfl
        simp_all
      rw [Function.update_of_ne hne] at htimer'
      refine ⟨htimer', ?_⟩
      rintro rfl
      exact hne (h.owner_unique htimer' htimer)
    have hcount : ∀ timer', (t.queue ++ [LocMsg.timerRemove timer]).count (.timerRemove timer') =
        t.queue.count (.timerRemove timer') + if timer' = timer then 1 else 0 := by
      grind
    refine { h with
      heap := hheap
      clients := hclients
      owned := ?_
      queued := ?_
      ordered := ?_
      fates := ⟨?_, ?_, ?_⟩ }
    · intro client' timer' htimer'
      obtain ⟨hold, hne⟩ := hother client' timer' htimer'
      obtain ⟨hmade', hvars'⟩ := h.owned client' timer' hold
      have haddr : timer'.address ≠ timer.address := fun haddr =>
        hne (h.sameAddress timer' hmade' timer hmade haddr)
      exact ⟨hmade', (Function.update_of_ne haddr _ _).trans hvars'⟩
    · intro timer' hmem
      rcases List.mem_append.mp hmem with hmem | hmem
      · exact h.queued timer' hmem
      · cases List.mem_singleton.mp hmem
    · refine List.pairwise_append.mpr ⟨h.ordered, List.pairwise_singleton _ _, ?_⟩
      intro msg hmem msg' hmem' timer' _ hpush
      simp_all
    · intro timer' hmade' hnot
      unfold deletionsIn
      rw [hcount]
      by_cases hsame : timer' = timer
      · have hzero := h.fates.kept client timer htimer
        simp_all [deletionsIn]
      · rw [if_neg hsame, Nat.add_zero]
        refine h.fates.once timer' hmade' fun ⟨client', hold⟩ => hnot ⟨client', ?_⟩
        grind
    · intro client' timer' htimer'
      obtain ⟨hold, hne⟩ := hother client' timer' htimer'
      unfold deletionsIn
      rw [hcount, if_neg hne, Nat.add_zero]
      exact h.fates.kept client' timer' hold
    · intro timer' hnot
      have hne : timer' ≠ timer := by
        rintro rfl
        exact hnot hmade
      unfold deletionsIn
      rw [hcount, if_neg hne, Nat.add_zero]
      exact h.fates.unmade timer' hnot

theorem placed_keep (h : Placed t created deleted) (step : Keep) (henabled : step.op.Enabled t) :
    Placed (t.next step.op) created deleted := by
  have hheap := LocTimers.heapInv_next h.heap henabled
  have hclients := LocTimers.clientsInv_next step.op h.clients
  cases step with
  | sendExpire =>
    exact h.of_same [.timerExpire] hheap hclients rfl rfl rfl rfl rfl
      (fun _ hmem => List.mem_singleton.mp hmem) h.held
  | tick clock =>
    exact h.of_same [] hheap hclients rfl rfl rfl rfl (List.append_nil _).symm
      (fun _ hmem => absurd hmem List.not_mem_nil) h.held
  | wake =>
    exact h.of_same [] hheap hclients rfl rfl rfl rfl (List.append_nil _).symm
      (fun _ hmem => absurd hmem List.not_mem_nil) h.held
  | disarm =>
    exact h.of_same [] hheap hclients rfl rfl rfl rfl (List.append_nil _).symm
      (fun _ hmem => absurd hmem List.not_mem_nil) h.held
  | removePoll =>
    exact h.of_same [] hheap hclients rfl rfl rfl rfl (List.append_nil _).symm
      (fun _ hmem => absurd hmem List.not_mem_nil) h.held

theorem placed_popTimer (h : Placed t created deleted) (now : Timespec) :
    Placed (t.popTimer now) created deleted := by
  have hheap := LocTimers.heapInv_popTimer h.heap now
  rw [LocTimers.popTimer_eq] at hheap ⊢
  rcases LocHeap.pop_cases h.heap.wellFormed with
    ⟨top, rest, hpeek, hpop, helems, -, -⟩ | ⟨hpeek, hpop, -⟩
  · rw [hpop, hpeek] at hheap ⊢
    have hnodup := h.heapNodup
    rw [helems] at hnodup
    have hsub : ∀ timer ∈ rest.elements, timer ∈ t.heap.elements := fun timer hmem =>
      helems ▸ Multiset.mem_cons_of_mem hmem
    exact { h with
      heap := hheap
      clients := h.clients
      heapNodup := (Multiset.nodup_cons.mp hnodup).2
      queued := fun timer hmem =>
        have hplaces := h.queued timer hmem
        ⟨hplaces.1, fun hrest => hplaces.2.1 (hsub timer hrest), hplaces.2.2⟩
      stored := fun timer hmem => h.stored timer (hsub timer hmem)
      held := fun now' timer htask => by
        cases htask
        exact h.stored top (helems ▸ Multiset.mem_cons_self _ _) }
  · rw [hpop, hpeek] at hheap ⊢
    exact { h with
      heap := hheap
      clients := h.clients
      held := fun now' timer htask => by cases htask }

theorem placed_popIfOutRanks (h : Placed t created deleted) (now : Timespec) :
    Placed (t.popIfOutRanks now) created deleted := by
  have hheap := LocTimers.heapInv_popIfOutRanks h.heap now
  rcases LocTimers.popIfOutRanks_cases t now with ⟨top, -, -, heq⟩ | ⟨-, heq⟩
  · rw [heq]
    exact placed_popTimer h now
  · rw [heq] at hheap ⊢
    exact { h with
      heap := hheap
      clients := h.clients
      held := fun now' timer htask => by cases htask }

theorem placed_expireTimer (h : Placed t created deleted) :
    Placed t.expireTimer created deleted := by
  unfold LocTimers.expireTimer
  split
  · exact { h with
      heap := { h.heap with }
      clients := h.clients
      held := fun now' timer htask => by cases htask }
  · have hheap := LocTimers.heapInv_updateSoonestTime h.heap none
    obtain ⟨armed, polled, heq⟩ := LocTimers.updateSoonestTime_eq t none
    rw [heq] at hheap ⊢
    exact { h with
      heap := { hheap with }
      clients := h.clients
      held := fun now' timer htask => by cases htask }
  · exact h

theorem placed_push (h : Placed t created deleted) {timer : Delegate} {rest : List LocMsg}
    (hqueue : t.queue = .timerPush timer :: rest) :
    Placed { t with queue := rest, heap := t.heap.push Delegate.outRanks timer }
      created deleted := by
  obtain ⟨hmade, hnotStored, hnotDeleted⟩ := h.queued timer (hqueue ▸ List.mem_cons_self)
  have hordered := h.ordered
  rw [hqueue, List.pairwise_cons] at hordered
  have hrest : ∀ msg ∈ rest, msg ∈ t.queue := fun msg hmem =>
    hqueue ▸ List.mem_cons_of_mem _ hmem
  have hcount : ∀ timer', rest.count (.timerRemove timer') =
      t.queue.count (.timerRemove timer') := by
    simp [hqueue]
  have hheap : LocTimers.HeapInv { t with queue := rest } :=
    { h.heap with pushed := fun timer' hmem => h.heap.pushed timer' (hrest _ hmem) }
  have hpush := LocTimers.heapInv_push hheap
    (h.heap.pushed timer (hqueue ▸ List.mem_cons_self))
  refine { h with
    heap := hpush
    clients := h.clients
    queued := ?_
    ordered := hordered.2
    heapNodup := ?_
    stored := ?_
    fates := h.fates.of_eq fun timer' =>
      congrArg (· + deleted.count timer') (hcount timer') }
  · intro timer' hmem
    obtain ⟨hmade', hnotStored', hnotDeleted'⟩ := h.queued timer' (hrest _ hmem)
    refine ⟨hmade', ?_, hnotDeleted'⟩
    rw [LocHeap.elements_push]
    intro hstored
    rcases Multiset.mem_cons.mp hstored with rfl | hstored
    · exact hordered.1 _ hmem timer' (.inl rfl) rfl
    · exact hnotStored' hstored
  · simp [LocHeap.elements_push, hnotStored, h.heapNodup]
  · intro timer' hmem
    rw [LocHeap.elements_push] at hmem
    rcases Multiset.mem_cons.mp hmem with rfl | hmem
    · exact ⟨hmade, hnotDeleted⟩
    · exact h.stored timer' hmem

theorem placed_remove (h : Placed t created deleted) {timer : Delegate} {rest : List LocMsg}
    (hqueue : t.queue = .timerRemove timer :: rest) (hidle : t.msgTask = .idle) :
    Placed { t with queue := rest, heap := (t.heap.remove Delegate.outRanks timer).2 }
      created (deleted ++ [timer]) := by
  have hordered := h.ordered
  rw [hqueue, List.pairwise_cons] at hordered
  have hrest : ∀ msg ∈ rest, msg ∈ t.queue := fun msg hmem =>
    hqueue ▸ List.mem_cons_of_mem _ hmem
  have hcount : ∀ timer', rest.count (.timerRemove timer') + (deleted ++ [timer]).count timer' =
      t.queue.count (.timerRemove timer') + deleted.count timer' := by
    grind
  have hheap : LocTimers.HeapInv { t with queue := rest } :=
    { h.heap with pushed := fun timer' hmem => h.heap.pushed timer' (hrest _ hmem) }
  have hsub : ∀ timer' ∈ (t.heap.remove Delegate.outRanks timer).2.elements,
      timer' ∈ t.heap.elements := fun timer' hmem =>
    Multiset.mem_of_le (LocHeap.elements_remove_le h.heap.wellFormed) hmem
  have hremoved : timer ∉ (t.heap.remove Delegate.outRanks timer).2.elements := by
    rcases LocHeap.remove_cases h.heap.wellFormed timer with ⟨rest', heq, helems, -⟩ | ⟨heq, hnot⟩
    · rw [heq]
      have hnodup := h.heapNodup
      simp_all
    · rw [heq]
      exact hnot
  refine { h with
    heap := LocTimers.heapInv_remove hheap timer
    clients := h.clients
    queued := ?_
    ordered := hordered.2
    heapNodup := Multiset.nodup_of_le (LocHeap.elements_remove_le h.heap.wellFormed) h.heapNodup
    stored := ?_
    held := ?_
    fates := h.fates.of_eq hcount }
  · intro timer' hmem
    obtain ⟨hmade', hnotStored', hnotDeleted'⟩ := h.queued timer' (hrest _ hmem)
    refine ⟨hmade', fun hstored => hnotStored' (hsub timer' hstored), fun hdeleted => ?_⟩
    rcases List.mem_append.mp hdeleted with hdeleted | hdeleted
    · exact hnotDeleted' hdeleted
    · rw [List.mem_singleton.mp hdeleted] at hmem
      exact hordered.1 _ hmem timer (.inr rfl) rfl
  · intro timer' hmem
    obtain ⟨hmade', hnotDeleted'⟩ := h.stored timer' (hsub timer' hmem)
    grind
  simp [hidle]

theorem placed_expire (h : Placed t created deleted) {rest : List LocMsg}
    (hqueue : t.queue = .timerExpire :: rest) :
    Placed { t with queue := rest } created deleted := by
  have hordered := h.ordered
  rw [hqueue, List.pairwise_cons] at hordered
  have hrest : ∀ msg ∈ rest, msg ∈ t.queue := fun msg hmem =>
    hqueue ▸ List.mem_cons_of_mem _ hmem
  have hcount : ∀ timer', rest.count (.timerRemove timer') =
      t.queue.count (.timerRemove timer') := by
    simp [hqueue]
  exact { h with
    heap := { h.heap with pushed := fun timer' hmem => h.heap.pushed timer' (hrest _ hmem) }
    clients := h.clients
    queued := fun timer' hmem => h.queued timer' (hrest _ hmem)
    ordered := hordered.2
    fates := h.fates.of_eq fun timer' =>
      congrArg (· + deleted.count timer') (hcount timer') }

theorem Placed.armed_polled (h : Placed t created deleted) (armed : Option Timespec)
    (polled : Bool) : Placed { t with armed := armed, polled := polled } created deleted :=
  { h with heap := { h.heap with }, clients := h.clients }

theorem placed_proc (h : Placed t created deleted) (henabled : LocTimers.Op.proc.Enabled t) :
    Placed t.proc created
      (match t.queue.head? with
      | some (.timerRemove mTimer) => deleted ++ [mTimer]
      | _ => deleted) := by
  obtain ⟨hidle, hne⟩ := henabled
  unfold LocTimers.proc
  cases hqueue : t.queue with
  | nil => exact absurd hqueue hne
  | cons msg rest =>
    cases msg with
    | timerPush timer =>
      dsimp only [List.head?_cons, List.tail_cons]
      obtain ⟨armed, polled, heq⟩ := LocTimers.procPush_eq { t with queue := rest } timer
      rw [heq]
      exact (placed_push h hqueue).armed_polled armed polled
    | timerRemove timer =>
      dsimp only [List.head?_cons, List.tail_cons]
      obtain ⟨armed, polled, heq⟩ := LocTimers.procRemove_eq { t with queue := rest } timer
      rw [heq]
      exact (placed_remove h hqueue hidle).armed_polled armed polled
    | timerExpire =>
      exact placed_popTimer (placed_expire h hqueue) t.clock

end Placed

end EtherDevice.GpsUtils.Lifecycle
