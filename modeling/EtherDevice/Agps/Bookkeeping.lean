import Mathlib
import EtherDevice.Agps.StateMachine
import EtherDevice.Lib.Transition

/-!
# Bookkeeping of the AGPS connections

The machine of the base class over any sequence of subscriptions and answers of the framework.
Its state says what its list of subscribers is like, and it sends a request exactly where its
state asks for one. For this, the list must not hold two subscribers that are equal. The check of
`addSubscriber` asks the subscribers in the list whether they equal the new one; a
`BITSubscriber` without an IPv4 address compares what it finds in the place of the IPv6 address,
also if the new one is of another class, which would answer otherwise.
-/

namespace EtherDevice.Agps

open Lib

/-! ## The base class -/

/-- `AgpsStateMachine::sendRsrcRequest`: the request that it passes on, if it does. -/
def Call.nifRequest : Call → Option AGpsStatusValue
  | .notify _ _ => none
  | .setInactive _ => none
  | .sendRsrcRequest action subscribers =>
    let s := subscribers.find? fun s => s.forMe .active
    if s.isNone = decide (action = .releaseAgpsDataConn) then some action else none

def Call.intended : Call → Option AGpsStatusValue
  | .notify _ _ => none
  | .setInactive _ => none
  | .sendRsrcRequest action _ => some action

inductive FrameworkEvent where
  | granted
  | released
  | denied

def FrameworkEvent.toEvent : FrameworkEvent → AgpsStateMachine.Event
  | .granted => .granted
  | .released => .released
  | .denied => .denied

namespace AgpsStateMachine

inductive Op where
  | subscribe (subscriber : Subscriber)
  | unsubscribe (subscriber : Subscriber)
  | framework (event : FrameworkEvent)

/-- A step of the base class. Its `sendRsrcRequest` returns `0`. -/
def exec (m : AgpsStateMachine) : Op → AgpsStateMachine × List Call
  | .subscribe subscriber => m.subscribeRsrc 0 subscriber
  | .unsubscribe subscriber => (m.unsubscribeRsrc 0 subscriber).2
  | .framework event => m.onRsrcEvent 0 event.toEvent

structure Initial (m : AgpsStateMachine) : Prop where
  state : m.state = .released
  subscribers : m.subscribers = []

/-- The new subscriber is of another class than a `BITSubscriber` of the list that has no IPv4
address, and has its ID, but not its IPv6 address. -/
def Confuses (m : AgpsStateMachine) (subscriber : Subscriber) : Prop :=
  ∃ s ∈ m.subscribers, s.cls = .bit ∧ subscriber.cls ≠ .bit ∧ s.id = inaddrNone ∧
    subscriber.id = inaddrNone ∧ s.ipv6 ≠ subscriber.ipv6

def Clear (m : AgpsStateMachine) : Op → Prop
  | .subscribe subscriber => ¬ m.Confuses subscriber
  | .unsubscribe _ => True
  | .framework _ => True

def system : System AgpsStateMachine Op :=
  .ofFunction Initial (fun _ _ => True) fun m op => (m.exec op).1

/-- The runs in which no subscriber is taken for another one. -/
def clearSystem : System AgpsStateMachine Op := system.restrict Clear

/-! ## What the state says -/

/-- The state and the list of subscribers belong together. -/
structure Bookkept (m : AgpsStateMachine) : Prop where
  released : m.state = .released ↔ m.subscribers = []
  active : m.state = .pending ∨ m.state = .acquired → ∃ s ∈ m.subscribers, s.isInactive = false
  inactive : m.state = .releasing → ∃ s ∈ m.subscribers, s.isInactive = true
  distinct : m.subscribers.Pairwise fun s t => s.equals t = false ∧ t.equals s = false

def requestsOf (m : AgpsStateMachine) (op : Op) (m' : AgpsStateMachine) :
    List AGpsStatusValue :=
  if m.state ≠ .pending ∧ m'.state = .pending then [.requestAgpsDataConn]
  else
    match op with
    | .unsubscribe _ =>
      if (m.state = .pending ∨ m.state = .acquired) ∧ m'.hasActiveSubscribers = false then
        [.releaseAgpsDataConn]
      else []
    | .subscribe _ => []
    | .framework _ => []

/-- A step sends the requests that its states ask for, and none is held back. -/
def SendsRight (m : AgpsStateMachine) (op : Op) : Prop :=
  (m.exec op).2.filterMap Call.nifRequest = m.requestsOf op (m.exec op).1 ∧
    (m.exec op).2.filterMap Call.nifRequest = (m.exec op).2.filterMap Call.intended

end AgpsStateMachine

/-! ## The invariant -/

section Invariant

variable {m m' : AgpsStateMachine} {s t : Subscriber} {l : List Subscriber}

/-- No two subscribers of the list are equal. -/
def Distinct (l : List Subscriber) : Prop :=
  l.Pairwise fun s t => s.equals t = false ∧ t.equals s = false

theorem Distinct.not_equals (h : Distinct l) (hs : s ∈ l) (ht : t ∈ l) (hne : s ≠ t) :
    s.equals t = false := by
  have hsymm : Std.Symm fun s t : Subscriber => s.equals t = false ∧ t.equals s = false :=
    ⟨fun _ _ h => h.symm⟩
  exact (List.Pairwise.forall h hs ht hne).1

theorem Distinct.index_eq (h : Distinct l) {i j : Nat} (hi : l[i]? = some s) (hj : l[j]? = some t)
    (hequal : s.equals t = true) : i = j := by
  obtain ⟨hilt, rfl⟩ := List.getElem?_eq_some_iff.mp hi
  obtain ⟨hjlt, rfl⟩ := List.getElem?_eq_some_iff.mp hj
  have hdistinct := List.pairwise_iff_getElem.mp h
  grind

theorem Distinct.filter (h : Distinct l) (p : Subscriber → Bool) : Distinct (l.filter p) :=
  h.sublist List.filter_sublist

theorem Distinct.modify (h : Distinct l) (i : Nat) : Distinct (l.modify i .setInactive) := by
  unfold Distinct at h ⊢
  rw [List.pairwise_iff_getElem] at h ⊢
  intro j k hj hk hjk
  rw [List.length_modify] at hj hk
  have hkeep := h j k hj hk hjk
  simp only [List.getElem_modify]
  split
  · split
    · simpa using hkeep
    · simpa using hkeep
  · split
    · simpa using hkeep
    · simpa using hkeep

theorem equals_symm_of_clear (hclear : ¬ m.Confuses s) (ht : t ∈ m.subscribers)
    (hne : t.equals s = false) : s.equals t = false := by
  by_contra heq
  rw [Bool.not_eq_false] at heq
  have hid : s.id = t.id := by
    unfold Subscriber.equals at heq
    cases hcls : s.cls <;> simp_all
  have htcls : t.cls = .bit := by
    unfold Subscriber.equals at hne
    cases hcls : t.cls <;> simp_all
  have hnone : inaddrNone = t.id ∧ t.ipv6 ≠ s.ipv6 := by
    simp_all [Subscriber.equals]
  have hscls : s.cls ≠ .bit := by
    intro hbit
    simp_all [Subscriber.equals]
  exact hclear ⟨t, ht, htcls, hscls, hnone.1.symm, hid.trans hnone.1.symm, hnone.2⟩

theorem Distinct.add (h : Distinct m.subscribers) (hclear : ¬ m.Confuses s) :
    Distinct (m.addSubscriber s).subscribers := by
  rcases addSubscriber_cases m s with ⟨-, heq⟩ | ⟨hnone, heq⟩
  · rw [heq]
    exact h
  · rw [heq]
    refine List.pairwise_cons.mpr ⟨fun t ht => ?_, h⟩
    exact ⟨equals_symm_of_clear hclear ht (hnone t ht), hnone t ht⟩

theorem Distinct.leave (h : Distinct m.subscribers) (i : Nat) :
    Distinct (m.leave i s).1.subscribers := by
  rcases leave_cases m i s with ⟨-, heq⟩ | ⟨-, heq⟩
  · rw [heq]
    exact h.modify i
  · rw [heq]
    exact h.filter _

theorem mem_addSubscriber (ht : t ∈ m.subscribers) : t ∈ (m.addSubscriber s).subscribers := by
  grind [addSubscriber_cases]

@[simp] theorem addSubscriber_state : (m.addSubscriber s).state = m.state := by
  rcases addSubscriber_cases m s with ⟨-, heq⟩ | ⟨-, heq⟩
  · rw [heq]
  · rw [heq]

theorem addSubscriber_ne_nil : (m.addSubscriber s).subscribers ≠ [] := by
  rcases addSubscriber_cases m s with ⟨⟨t, ht, -⟩, heq⟩ | ⟨-, heq⟩
  · rw [heq]
    exact List.ne_nil_of_mem ht
  simp [heq]

namespace AgpsStateMachine

theorem Bookkept.subscribe_released (h : m.Bookkept) (hstate : m.state = .released) :
    (m.addSubscriber s).subscribers = [s.clone] := by
  have hempty := h.released.mp hstate
  grind [addSubscriber_cases]

theorem Bookkept.add (h : m.Bookkept) (hclear : ¬ m.Confuses s) (hstate : m.state ≠ .released) :
    (m.addSubscriber s).Bookkept where
  released := by
    simp [addSubscriber_ne_nil, hstate]
  active := by
    rw [addSubscriber_state]
    intro hup
    obtain ⟨t, ht, hactive⟩ := h.active hup
    exact ⟨t, mem_addSubscriber ht, hactive⟩
  inactive := by
    rw [addSubscriber_state]
    intro hdown
    obtain ⟨t, ht, hinactive⟩ := h.inactive hdown
    exact ⟨t, mem_addSubscriber ht, hinactive⟩
  distinct := Distinct.add h.distinct hclear

theorem Bookkept.releaseIfUnused (hdistinct : Distinct m.subscribers)
    (hup : m.state = .pending ∨ m.state = .acquired) : m.releaseIfUnused.1.Bookkept := by
  rcases releaseIfUnused_cases m with ⟨hempty, heq⟩ | ⟨hne, hnone, heq⟩ | ⟨hactive, heq⟩
  · rw [heq]
    exact ⟨⟨fun _ => hempty, fun _ => rfl⟩, by simp, nofun, hdistinct⟩
  · rw [heq]
    refine ⟨⟨nofun, fun hempty => absurd hempty hne⟩, by simp, fun _ => ?_, hdistinct⟩
    obtain ⟨t, ht⟩ := List.exists_mem_of_ne_nil _ hne
    exact ⟨t, ht, hasActiveSubscribers_eq_false.mp hnone t ht⟩
  · rw [heq]
    obtain ⟨t, ht, hactive⟩ := hasActiveSubscribers_iff.mp hactive
    refine ⟨⟨fun hrel => ?_, fun hempty => ?_⟩, fun _ => ⟨t, ht, hactive⟩, fun hdown => ?_,
      hdistinct⟩
    · rcases hup with hup | hup <;> rw [hup] at hrel <;> cases hrel
    · simp_all
    · rcases hup with hup | hup <;> rw [hup] at hdown <;> cases hdown

theorem Bookkept.leave_releasing (h : m.Bookkept) (hstate : m.state = .releasing) {i : Nat}
    (hi : m.subscribers[i]? = some s) : (m.leave i s).1.Bookkept ∧
      (m.leave i s).1.hasSubscribers = true := by
  obtain ⟨t, ht, hinactive⟩ := h.inactive hstate
  have hstays : ∃ t ∈ (m.leave i s).1.subscribers, t.isInactive = true := by
    rcases leave_cases m i s with ⟨-, heq⟩ | ⟨hwait, heq⟩
    · rw [heq]
      obtain ⟨j, hj⟩ := List.mem_iff_getElem?.mp ht
      by_cases hij : i = j
      · refine ⟨t.setInactive, ?_, isInactive_setInactive_of_isInactive hinactive⟩
        refine List.mem_of_getElem? (i := j) ?_
        simp [hj, hij]
      · refine ⟨t, List.mem_of_getElem? (i := j) ?_, hinactive⟩
        simp [hj, hij]
    · -- it is another one than the subscriber that leaves
      rw [heq]
      refine ⟨t, List.mem_filter.mpr ⟨ht, ?_⟩, hinactive⟩
      have hne : t ≠ s := by
        rintro rfl
        simp_all [waitForCloseComplete_of_isInactive]
      have hmem := List.mem_of_getElem? hi
      simp [Distinct.not_equals h.distinct ht hmem hne]
  obtain ⟨u, hu, huinactive⟩ := hstays
  have hne : (m.leave i s).1.subscribers ≠ [] := List.ne_nil_of_mem hu
  have hreleasing : (m.leave i s).1.state = .releasing := (leave_state m i s).trans hstate
  refine ⟨⟨?_, ?_, fun _ => ⟨u, hu, huinactive⟩, Distinct.leave h.distinct i⟩, ?_⟩
  · simp [hreleasing, hne]
  · rw [hreleasing]
    simp
  · by_contra hempty
    exact hne (hasSubscribers_eq_false.mp (Bool.not_eq_true _ ▸ hempty))

theorem onReleasing_unsubscribe {i : Nat} (h : (m.leave i s).1.hasSubscribers = true) :
    m.onReleasing (.unsubscribe i s) = m.leave i s := by
  unfold AgpsStateMachine.onReleasing
  simp only [h, if_true]

theorem closed_cases (m : AgpsStateMachine) {status : RsrcStatus} (hstatus : status ≠ .subscribe) :
    (∃ s ∈ m.subscribers, s.isInactive = false) ∧ m.closed status =
        ({ m with
            state := .pending
            subscribers := m.subscribers.filter fun s => !s.isInactive },
          ((m.subscribers.filter fun s => s.isInactive).map fun s => .notify s status) ++
            [.sendRsrcRequest .requestAgpsDataConn
              (m.subscribers.filter fun s => !s.isInactive)]) ∨
      (∀ s ∈ m.subscribers, s.isInactive = true) ∧ m.closed status =
        ({ m with state := .released, subscribers := [] },
          (m.subscribers.filter fun s => s.isInactive).map fun s => .notify s status) := by
  unfold AgpsStateMachine.closed
  rw [notifySubscribers_delete hstatus]
  simp only
  split
  · rename_i hactive
    obtain ⟨s, hs, hsactive⟩ := hasActiveSubscribers_iff.mp hactive
    exact .inl ⟨⟨s, (List.mem_filter.mp hs).1, hsactive⟩, rfl⟩
  simp_all [hasActiveSubscribers_eq_false, Subscriber.forMe]

theorem closed_subscribers (m : AgpsStateMachine) {status : RsrcStatus}
    (hstatus : status ≠ .subscribe) :
    (m.closed status).1.subscribers = m.subscribers.filter fun s => !s.isInactive := by
  rcases closed_cases m hstatus with ⟨-, heq⟩ | ⟨hall, heq⟩
  · rw [heq]
  simp_all

theorem subscribeRsrc_cases (m : AgpsStateMachine) (ret : Int) (s : Subscriber) :
    (m.enforceSingleSubscriber && m.hasSubscribers) = true ∧
        m.subscribeRsrc ret s = (m, [.notify s .denied]) ∨
      (m.enforceSingleSubscriber && m.hasSubscribers) = false ∧
        (m.subscribeRsrc ret s).1.subscribers = (m.addSubscriber s).subscribers := by
  unfold AgpsStateMachine.subscribeRsrc
  split
  · rename_i hfull
    exact .inl ⟨hfull, rfl⟩
  · rename_i hroom
    refine .inr ⟨by simpa using hroom, ?_⟩
    unfold AgpsStateMachine.onRsrcEvent
    split
    · unfold AgpsStateMachine.onReleased
      simp only
      split
      · rfl
      · rfl
    · rfl
    · rfl
    · rfl

theorem unsubscribeRsrc_cases (m : AgpsStateMachine) (ret : Int) (u : Subscriber) :
    (m.state = .released ∨ ∀ s ∈ m.subscribers, s.equals u = false) ∧
        (m.unsubscribeRsrc ret u).2.1.subscribers = m.subscribers ∨
      ∃ (i : Nat) (t : Subscriber), m.subscribers[i]? = some t ∧ t.equals u = true ∧
        (m.unsubscribeRsrc ret u).2.1.subscribers = (m.leave i t).1.subscribers := by
  unfold AgpsStateMachine.unsubscribeRsrc
  simp only
  split
  · simp_all [Subscriber.forMe]
  rename_i t hi
  have hequals : t.equals u = true := by
    obtain ⟨hlt, rfl⟩ := List.getElem?_eq_some_iff.mp hi
    exact List.findIdx_getElem (w := hlt)
  have hrelease : ∀ m : AgpsStateMachine, m.releaseIfUnused.1.subscribers = m.subscribers := by
    grind [releaseIfUnused_cases]
  unfold AgpsStateMachine.onRsrcEvent
  split
  · rename_i hstate
    exact .inl ⟨.inl hstate, rfl⟩
  · exact .inr ⟨_, t, hi, hequals, hrelease _⟩
  · exact .inr ⟨_, t, hi, hequals, hrelease _⟩
  · refine .inr ⟨_, t, hi, hequals, ?_⟩
    unfold AgpsStateMachine.onReleasing
    simp only
    split
    · rfl
    · rfl

theorem framework_cases (m : AgpsStateMachine) (ret : Int) (event : FrameworkEvent) :
    (m.onRsrcEvent ret event.toEvent).1.subscribers = m.subscribers ∧
        (∀ call ∈ (m.onRsrcEvent ret event.toEvent).2,
          ∃ s ∈ m.subscribers, s.isInactive = false ∧ call = .notify s .granted) ∨
      event ≠ .granted ∧ (∃ status : RsrcStatus, (status = .released ∨ status = .denied) ∧
        m.onRsrcEvent ret event.toEvent = ({ m with state := .released, subscribers := [] },
          m.subscribers.map fun s => .notify s status)) ∨
      event ≠ .granted ∧ m.state = .releasing ∧
        ∃ status : RsrcStatus, (status = .released ∨ status = .denied) ∧
        m.onRsrcEvent ret event.toEvent = m.closed status := by
  have hdropped : ∀ status : RsrcStatus, status ≠ .subscribe →
      { m with state := .released }.notifySubscribers ⟨.all, status, true⟩ =
        ({ m with state := .released, subscribers := [] },
          m.subscribers.map fun s => .notify s status) := by
    intro status hstatus
    have hnone : (m.subscribers.filter fun s => !s.forMe .all) = [] :=
      List.filter_eq_nil_iff.mpr fun s _ => by simp [Subscriber.forMe]
    have hall : (m.subscribers.filter fun s => s.forMe .all) = m.subscribers :=
      List.filter_eq_self.mpr fun s _ => rfl
    rw [notifySubscribers_delete hstatus]
    simp only [hnone, hall]
  unfold AgpsStateMachine.onRsrcEvent
  cases event with
  | granted =>
    split
    · exact .inl ⟨rfl, List.forall_mem_nil _⟩
    · have hgranted : RsrcStatus.granted ≠ .subscribe := by simp
      have heq : m.onPending .granted = ({ m with state := .acquired }, _) :=
        notifySubscribers_keep hgranted
      refine .inl ?_
      show (m.onPending .granted).1.subscribers = _ ∧ ∀ call ∈ (m.onPending .granted).2, _
      grind [Subscriber.forMe]
    · exact .inl ⟨rfl, List.forall_mem_nil _⟩
    · exact .inl ⟨rfl, List.forall_mem_nil _⟩
  | released =>
    split
    · exact .inl ⟨rfl, List.forall_mem_nil _⟩
    · exact .inl ⟨rfl, List.forall_mem_nil _⟩
    · exact .inr (.inl ⟨by simp, .released, .inl rfl, hdropped _ (by simp)⟩)
    · rename_i hstate
      exact .inr (.inr ⟨by simp, hstate, .released, .inl rfl, rfl⟩)
  | denied =>
    split
    · exact .inl ⟨rfl, List.forall_mem_nil _⟩
    · exact .inr (.inl ⟨by simp, .denied, .inr rfl, hdropped _ (by simp)⟩)
    · exact .inl ⟨rfl, List.forall_mem_nil _⟩
    · rename_i hstate
      exact .inr (.inr ⟨by simp, hstate, .denied, .inr rfl, rfl⟩)

theorem Bookkept.closed (h : m.Bookkept) {status : RsrcStatus} (hstatus : status ≠ .subscribe) :
    (m.closed status).1.Bookkept := by
  rcases closed_cases m hstatus with ⟨⟨s, hs, hactive⟩, heq⟩ | ⟨-, heq⟩
  · rw [heq]
    have hmem : s ∈ m.subscribers.filter fun s => !s.isInactive :=
      List.mem_filter.mpr ⟨hs, by simp [hactive]⟩
    exact ⟨⟨nofun, fun hempty => absurd hempty (List.ne_nil_of_mem hmem)⟩,
      fun _ => ⟨s, hmem, hactive⟩, nofun, Distinct.filter h.distinct _⟩
  · rw [heq]
    exact ⟨⟨fun _ => rfl, fun _ => rfl⟩, by simp, nofun, List.Pairwise.nil⟩

theorem bookkept_dropped {receiver : Receiver} {status : RsrcStatus}
    (hstatus : status ≠ .subscribe) (hall : ∀ s : Subscriber, s.forMe receiver = true) :
    ({ m with state := .released }.notifySubscribers ⟨receiver, status, true⟩).1.Bookkept := by
  rw [notifySubscribers_delete hstatus]
  have hempty : (m.subscribers.filter fun s => !s.forMe receiver) = [] :=
    List.filter_eq_nil_iff.mpr fun s _ => by simp [hall s]
  exact ⟨⟨fun _ => hempty, fun _ => rfl⟩, by simp, nofun, by simp [hempty]⟩

theorem Bookkept.onRsrcEvent (h : m.Bookkept) {op : Op} (hclear : m.Clear op) :
    (m.exec op).1.Bookkept := by
  cases op with
  | subscribe s =>
    show (m.subscribeRsrc 0 s).1.Bookkept
    unfold AgpsStateMachine.subscribeRsrc
    split
    · exact h
    unfold AgpsStateMachine.onRsrcEvent
    split
    · rename_i hstate
      have hlist : (m.addSubscriber s).subscribers = [s.clone] := h.subscribe_released hstate
      show AgpsStateMachine.Bookkept { m.addSubscriber s with state := .pending }
      refine ⟨⟨nofun, fun hempty => absurd hempty addSubscriber_ne_nil⟩, fun _ => ?_, nofun,
        Distinct.add h.distinct hclear⟩
      exact ⟨s.clone, by simp [hlist], clone_isInactive⟩
    · rename_i hstate
      exact h.add hclear (by simp [hstate])
    · rename_i hstate
      exact h.add hclear (by simp [hstate])
    · rename_i hstate
      exact h.add hclear (by simp [hstate])
  | unsubscribe s =>
    show (m.unsubscribeRsrc 0 s).2.1.Bookkept
    unfold AgpsStateMachine.unsubscribeRsrc
    simp only
    split
    · exact h
    rename_i t hi
    unfold AgpsStateMachine.onRsrcEvent
    split
    · exact h
    · rename_i hstate
      refine Bookkept.releaseIfUnused (Distinct.leave h.distinct _) (.inl ?_)
      exact (leave_state m _ t).trans hstate
    · rename_i hstate
      refine Bookkept.releaseIfUnused (Distinct.leave h.distinct _) (.inr ?_)
      exact (leave_state m _ t).trans hstate
    · rename_i hstate
      simp [onReleasing_unsubscribe, h.leave_releasing, hstate, hi]
  | framework event =>
    show (m.onRsrcEvent 0 event.toEvent).1.Bookkept
    unfold AgpsStateMachine.onRsrcEvent
    cases event with
    | granted =>
      split
      · exact h
      · rename_i hstate
        show ({ m with state := .acquired }.notifySubscribers ⟨.active, .granted, false⟩).1.Bookkept
        have hup := h.active (.inl hstate)
        refine ⟨⟨nofun, fun hempty => ?_⟩, fun _ => hup, nofun, h.distinct⟩
        obtain ⟨t, ht, -⟩ := hup
        exact absurd hempty (List.ne_nil_of_mem ht)
      · exact h
      · exact h
    | released =>
      split
      · exact h
      · exact h
      · exact bookkept_dropped nofun fun _ => rfl
      · exact h.closed nofun
    | denied =>
      split
      · exact h
      · exact bookkept_dropped nofun fun _ => rfl
      · exact h
      · exact h.closed nofun

theorem bookkept_invariant : clearSystem.Invariant Bookkept := by
  constructor
  · intro m hinit
    refine ⟨⟨fun _ => hinit.subscribers, fun _ => hinit.state⟩, fun hup => ?_, fun hdown => ?_, ?_⟩
    · rw [hinit.state] at hup
      rcases hup with hup | hup <;> cases hup
    · rw [hinit.state] at hdown
      cases hdown
    simp [hinit.subscribers]
  · rintro m op m' h ⟨hclear, -, rfl⟩
    exact h.onRsrcEvent hclear

/-! ## Requests -/

/-- The calls pass on these requests, and intend no others. -/
def Sends (calls : List Call) (requests : List AGpsStatusValue) : Prop :=
  calls.filterMap Call.nifRequest = requests ∧ calls.filterMap Call.intended = requests

theorem sends_nil : Sends [] [] := ⟨rfl, rfl⟩

theorem Sends.append {calls calls' : List Call} {requests requests' : List AGpsStatusValue}
    (h : Sends calls requests) (h' : Sends calls' requests') :
    Sends (calls ++ calls') (requests ++ requests') := by
  obtain ⟨hsent, hintended⟩ := h
  obtain ⟨hsent', hintended'⟩ := h'
  constructor
  · rw [List.filterMap_append, hsent, hsent']
  · rw [List.filterMap_append, hintended, hintended']

theorem sends_notify (l : List Subscriber) (status : RsrcStatus) :
    Sends (l.map fun s => .notify s status) [] := by
  induction l with
  | nil => exact sends_nil
  | cons s l ih => exact ih

theorem sends_notify_if (c : Bool) (s : Subscriber) (status : RsrcStatus) :
    Sends (if c then [.notify s status] else []) [] := by
  cases c
  · exact sends_nil
  · exact ⟨rfl, rfl⟩

theorem sends_leave (i : Nat) (s : Subscriber) : Sends (m.leave i s).2 [] := by
  rcases leave_cases m i s with ⟨-, heq⟩ | ⟨-, heq⟩
  · rw [heq]
    exact ⟨rfl, rfl⟩
  · rw [heq]
    exact sends_notify _ _

theorem sends_request (h : ∃ s ∈ l, s.isInactive = false) :
    Sends [.sendRsrcRequest .requestAgpsDataConn l] [.requestAgpsDataConn] := by
  have hsome : (l.find? fun s => s.forMe .active).isSome = true := by
    simpa [Subscriber.forMe] using h
  refine ⟨?_, rfl⟩
  simp [Call.nifRequest, hsome]

theorem sends_release (h : m.hasActiveSubscribers = false) :
    Sends [m.send .releaseAgpsDataConn] [.releaseAgpsDataConn] := by
  have hnone : m.subscribers.find? (fun s => s.forMe .active) = none := by
    simpa [AgpsStateMachine.hasActiveSubscribers] using h
  refine ⟨?_, rfl⟩
  simp [AgpsStateMachine.send, Call.nifRequest, hnone]

theorem Sends.sendsRight {op : Op} (h : Sends (m.exec op).2 (m.requestsOf op (m.exec op).1)) :
    m.SendsRight op := ⟨h.1, h.1.trans h.2.symm⟩

theorem requestsOf_same {op : Op} (hstate : m'.state = m.state)
    (hactive : m.state = .pending ∨ m.state = .acquired → m'.hasActiveSubscribers = true) :
    m.requestsOf op m' = [] := by
  unfold requestsOf
  rw [hstate, if_neg fun h => h.1 h.2]
  cases op with
  | subscribe s => rfl
  | unsubscribe s =>
    simp_all
  | framework event => rfl

theorem requestsOf_framework {event : FrameworkEvent} (h : m'.state ≠ .pending) :
    m.requestsOf (.framework event) m' = [] := by
  simp [requestsOf, h]

theorem Bookkept.hasActive (h : m.Bookkept) (hup : m.state = .pending ∨ m.state = .acquired) :
    m.hasActiveSubscribers = true := hasActiveSubscribers_iff.mpr (h.active hup)

theorem sends_releaseIfUnused {i : Nat} {u : Subscriber}
    (hup : m.state = .pending ∨ m.state = .acquired) :
    Sends ((m.leave i s).2 ++ (m.leave i s).1.releaseIfUnused.2)
      (m.requestsOf (.unsubscribe u) (m.leave i s).1.releaseIfUnused.1) := by
  have hleft := leave_state m i s
  have hrelease : ∀ m' : AgpsStateMachine, m'.state ≠ .pending →
      m'.hasActiveSubscribers = false →
      m.requestsOf (.unsubscribe u) m' = [.releaseAgpsDataConn] := by
    simp_all [requestsOf]
  rcases releaseIfUnused_cases (m.leave i s).1 with ⟨hempty, heq⟩ | ⟨-, hnone, heq⟩ | ⟨hactive, heq⟩
  · have hnone : (m.leave i s).1.hasActiveSubscribers = false := by
      simp [AgpsStateMachine.hasActiveSubscribers, hempty]
    rw [heq, hrelease { (m.leave i s).1 with state := .released } (by simp) hnone]
    exact (sends_leave i s).append (sends_release hnone)
  · rw [heq, hrelease { (m.leave i s).1 with state := .releasing } (by simp) hnone]
    exact (sends_leave i s).append (sends_release hnone)
  simp [requestsOf_same, sends_leave, heq, hleft, hactive]

theorem Bookkept.sendsRight (h : m.Bookkept) (op : Op) : m.SendsRight op := by
  apply Sends.sendsRight
  have hsame : ∀ op, m.requestsOf op m = [] := fun op => requestsOf_same rfl h.hasActive
  cases op with
  | subscribe s =>
    show Sends (m.subscribeRsrc 0 s).2 (m.requestsOf _ (m.subscribeRsrc 0 s).1)
    unfold AgpsStateMachine.subscribeRsrc
    split
    · simp_all [sends_notify_if]
    have hadd : m.requestsOf (.subscribe s) (m.addSubscriber s) = [] := by
      refine requestsOf_same addSubscriber_state fun hup => ?_
      obtain ⟨t, ht, hactive⟩ := h.active hup
      exact hasActiveSubscribers_iff.mpr ⟨t, mem_addSubscriber ht, hactive⟩
    unfold AgpsStateMachine.onRsrcEvent
    split
    · rename_i hstate
      have hlist : (m.addSubscriber s).subscribers = [s.clone] := h.subscribe_released hstate
      show Sends [(m.addSubscriber s).send .requestAgpsDataConn]
        (m.requestsOf _ { m.addSubscriber s with state := .pending })
      have hrequests : m.requestsOf (.subscribe s) { m.addSubscriber s with state := .pending } =
          [.requestAgpsDataConn] := if_pos ⟨by simp [hstate], rfl⟩
      rw [hrequests]
      exact sends_request ⟨s.clone, by simp [hlist], clone_isInactive⟩
    · show Sends [] (m.requestsOf _ (m.addSubscriber s))
      rw [hadd]
      exact sends_nil
    · show Sends (if _ then _ else _) (m.requestsOf _ (m.addSubscriber s))
      rw [hadd]
      exact sends_notify_if _ _ _
    · show Sends [] (m.requestsOf _ (m.addSubscriber s))
      rw [hadd]
      exact sends_nil
  | unsubscribe s =>
    show Sends (m.unsubscribeRsrc 0 s).2.2 (m.requestsOf _ (m.unsubscribeRsrc 0 s).2.1)
    unfold AgpsStateMachine.unsubscribeRsrc
    simp only
    split
    · rw [hsame]
      exact sends_nil
    rename_i t hi
    unfold AgpsStateMachine.onRsrcEvent
    split
    · show Sends (if _ then _ else _) (m.requestsOf _ m)
      rw [hsame]
      exact sends_notify_if _ _ _
    · rename_i hstate
      exact sends_releaseIfUnused (.inl hstate)
    · rename_i hstate
      exact sends_releaseIfUnused (.inr hstate)
    · rename_i hstate
      simp [onReleasing_unsubscribe, requestsOf_same, leave_state, sends_leave, h.leave_releasing,
        hstate, hi]
  | framework event =>
    show Sends (m.onRsrcEvent 0 event.toEvent).2
      (m.requestsOf _ (m.onRsrcEvent 0 event.toEvent).1)
    have hclosed : ∀ status : RsrcStatus, status ≠ .subscribe → m.state = .releasing →
        Sends (m.closed status).2 (m.requestsOf (.framework event) (m.closed status).1) := by
      intro status hstatus hstate
      rcases closed_cases m hstatus with ⟨⟨s, hs, hactive⟩, heq⟩ | ⟨-, heq⟩
      · rw [heq]
        have hrequest : Sends _ _ :=
          sends_request (l := m.subscribers.filter fun s => !s.isInactive)
          ⟨s, List.mem_filter.mpr ⟨hs, by simp [hactive]⟩, hactive⟩
        have hrequests : m.requestsOf (.framework event) { m with
              state := .pending
              subscribers := m.subscribers.filter fun s => !s.isInactive } =
            [.requestAgpsDataConn] := if_pos ⟨by simp [hstate], rfl⟩
        rw [hrequests]
        exact (sends_notify _ status).append hrequest
      simp [requestsOf_framework, sends_notify, heq]
    have hdropped : ∀ receiver : Receiver, ∀ status : RsrcStatus, status ≠ .subscribe →
        Sends ({ m with state := .released }.notifySubscribers ⟨receiver, status, true⟩).2
          (m.requestsOf (.framework event)
            ({ m with state := .released }.notifySubscribers ⟨receiver, status, true⟩).1) := by
      simp_all [notifySubscribers_delete, requestsOf_framework, sends_notify]
    have hsame := hsame (.framework event)
    unfold AgpsStateMachine.onRsrcEvent
    cases event with
    | granted =>
      split
      · exact hsame ▸ sends_nil
      · have hgranted : RsrcStatus.granted ≠ .subscribe := nofun
        show Sends ({ m with state := .acquired }.notifySubscribers ⟨.active, .granted, false⟩).2
          (m.requestsOf _
            ({ m with state := .acquired }.notifySubscribers ⟨.active, .granted, false⟩).1)
        simp [notifySubscribers_keep, requestsOf_framework, sends_notify]
      · exact hsame ▸ sends_nil
      · exact hsame ▸ sends_nil
    | released =>
      split
      · exact hsame ▸ sends_nil
      · exact hsame ▸ sends_nil
      · exact hdropped _ _ nofun
      · rename_i hstate
        exact hclosed _ nofun hstate
    | denied =>
      split
      · exact hsame ▸ sends_nil
      · exact hdropped _ _ nofun
      · exact hsame ▸ sends_nil
      · rename_i hstate
        exact hclosed _ nofun hstate

/-- In the runs in which no subscriber is taken for another one, the state and the list belong
together, and a step sends exactly the requests that its states ask for. -/
theorem bookkept_of_reachable (hm : clearSystem.Reachable m) :
    m.Bookkept ∧ ∀ op, m.SendsRight op := by
  have h := bookkept_invariant.reachable hm
  exact ⟨h, fun op => h.sendsRight op⟩

/-! ## Computed runs -/

instance (m : AgpsStateMachine) (s : Subscriber) : Decidable (m.Confuses s) :=
  inferInstanceAs (Decidable (∃ t ∈ m.subscribers, _ ∧ _ ∧ _ ∧ _ ∧ _))

instance (m : AgpsStateMachine) : (op : Op) → Decidable (m.Clear op)
  | .subscribe s => inferInstanceAs (Decidable (¬ m.Confuses s))
  | .unsubscribe _ => .isTrue trivial
  | .framework _ => .isTrue trivial

def newMachine : AgpsStateMachine := ⟨.released, [], false⟩

theorem initial_newMachine : newMachine.Initial := ⟨rfl, rfl⟩

def atlSubscriber (id : UInt32) : Subscriber := ⟨.atl, id, [], false⟩

def wifiSubscriber (id : UInt32) : Subscriber := ⟨.wifi, id, [], false⟩

def lastOneWaits : List Op :=
  [.subscribe (atlSubscriber 1), .subscribe (wifiSubscriber 2), .framework .granted,
    .unsubscribe (wifiSubscriber 2), .unsubscribe (atlSubscriber 1)]

theorem bookkept_of_reachable_lastOneWaits : ∃ m : AgpsStateMachine, m.state = .releasing ∧
    m.Bookkept ∧ m.SendsRight (.subscribe (atlSubscriber 3)) := by
  have hrun : (System.follow (fun m op => Clear m op ∧ True) (fun m op => (m.exec op).1)
      lastOneWaits newMachine).any (fun m => m.state = .releasing) = true := by decide +kernel
  obtain ⟨m, hm, hstate⟩ := (Option.any_eq_true _ _).mp hrun
  obtain ⟨hkept, hsends⟩ := bookkept_of_reachable
    (System.reachable_follow lastOneWaits (.init initial_newMachine) hm)
  exact ⟨m, of_decide_eq_true hstate, hkept, hsends _⟩

/-- A `BITSubscriber` without an IPv4 address is in the list when another subscriber comes that
has its ID. -/
theorem not_bookkept : ∃ m, system.Reachable m ∧ ¬ m.Bookkept := by
  have hinit : (system.restrict fun _ _ => True).Reachable newMachine := .init initial_newMachine
  have hrun : (System.follow (fun _ _ => True ∧ True) (fun m op => (m.exec op).1)
      [.subscribe ⟨.bit, inaddrNone, [0x32], false⟩, .subscribe (atlSubscriber inaddrNone)]
      newMachine).any (fun m => m.subscribers =
        [atlSubscriber inaddrNone, ⟨.bit, inaddrNone, [0x32], false⟩]) = true := by
    decide +kernel
  obtain ⟨m, hm, hlist⟩ := (Option.any_eq_true _ _).mp hrun
  refine ⟨m, (System.reachable_follow _ hinit hm).of_restrict, fun h => ?_⟩
  have hdistinct := h.distinct
  rw [of_decide_eq_true hlist] at hdistinct
  have hfirst := (List.pairwise_cons.mp hdistinct).1 _ List.mem_cons_self
  exact absurd hfirst.1 (by decide)

end AgpsStateMachine

end Invariant

end EtherDevice.Agps
