import Mathlib.Tactic.Common

/-!
# The AGPS state machine

`AgpsStateMachine` of `loc_eng_agps.cpp` keeps a data connection for its subscribers. A handler
takes the machine to the next one and makes calls: it notifies subscribers, sets one inactive,
or asks for the connection with `sendRsrcRequest`. What a call does depends on the class of the
machine and of the subscriber; here it is only recorded, with the list of subscribers that
`sendRsrcRequest` looks through. The value that `sendRsrcRequest` returns is an argument of the
handlers; for the base class it is `0`.

`notifySubscribers` reads the receiver of a notification again after it has deleted it. Its
memory is taken to be as before.
-/

namespace EtherDevice.Agps

inductive RsrcStatus where
  | subscribe
  | unsubscribe
  | granted
  | released
  | denied
deriving DecidableEq

inductive AGpsStatusValue where
  | requestAgpsDataConn
  | releaseAgpsDataConn
deriving DecidableEq

inductive SubscriberClass where
  | bit
  | atl
  | wifi
  | ds
deriving DecidableEq

def inaddrNone : UInt32 := 0xFFFFFFFF

/-- `Subscriber`. The string `ipv6` is `mIPv6Addr` of a `BITSubscriber`, and what is found in its
place in a subscriber of another class. -/
structure Subscriber where
  cls : SubscriberClass
  id : UInt32
  ipv6 : List UInt8
  mIsInactive : Bool
deriving DecidableEq

namespace Subscriber

variable (s : Subscriber)

/-- `equals`. A `BITSubscriber` takes the other one for a `BITSubscriber`, too. -/
def equals (t : Subscriber) : Bool :=
  match s.cls with
  | .bit => s.id = t.id ∧ (inaddrNone ≠ s.id ∨ s.ipv6 = t.ipv6)
  | .atl => s.id = t.id
  | .wifi => s.id = t.id
  | .ds => s.id = t.id

def waitForCloseComplete : Bool :=
  match s.cls with
  | .bit => false
  | .atl => false
  | .wifi => true
  | .ds => true

def isInactive : Bool :=
  match s.cls with
  | .bit => false
  | .atl => false
  | .wifi => s.mIsInactive
  | .ds => s.mIsInactive

def setInactive : Subscriber :=
  match s.cls with
  | .bit => s
  | .atl => s
  | .wifi => { s with mIsInactive := true }
  | .ds => { s with mIsInactive := true }

def clone : Subscriber := { s with mIsInactive := false }

end Subscriber

inductive Receiver where
  | only (rcver : Subscriber)
  | all
  | active
  | inactive

structure Notification where
  receiver : Receiver
  rsrcStatus : RsrcStatus
  postNotifyDelete : Bool

def Subscriber.forMe (s : Subscriber) : Receiver → Bool
  | .only rcver => s.equals rcver
  | .all => true
  | .active => !s.isInactive
  | .inactive => s.isInactive

def Subscriber.notifyRsrcStatus (s : Subscriber) (n : Notification) : Bool :=
  s.forMe n.receiver && decide (n.rsrcStatus ≠ .subscribe)

/-- What a handler does besides changing the machine. -/
inductive Call where
  | notify (s : Subscriber) (status : RsrcStatus)
  | setInactive (s : Subscriber)
  | sendRsrcRequest (action : AGpsStatusValue) (subscribers : List Subscriber)

inductive AgpsState where
  | released
  | pending
  | acquired
  | releasing
deriving DecidableEq

/-- `AgpsStateMachine`. The head of the list is the subscriber that was added last. -/
structure AgpsStateMachine where
  state : AgpsState
  subscribers : List Subscriber
  enforceSingleSubscriber : Bool

def notifyLoop (n : Notification) : Nat → List Subscriber → List Subscriber × List Call
  | 0, l => (l, [])
  | rounds + 1, l =>
    match l.find? fun s => s.notifyRsrcStatus n with
    | none => (l, [])
    | some s =>
      let rest := notifyLoop n rounds (l.eraseP fun s => s.notifyRsrcStatus n)
      (rest.1, .notify s n.rsrcStatus :: rest.2)

namespace AgpsStateMachine

variable (m : AgpsStateMachine)

def hasSubscribers : Bool := !m.subscribers.isEmpty

def hasActiveSubscribers : Bool := (m.subscribers.find? fun s => s.forMe .active).isSome

def notifySubscribers (n : Notification) : AgpsStateMachine × List Call :=
  if n.postNotifyDelete then
    let (subscribers, calls) := notifyLoop n m.subscribers.length m.subscribers
    ({ m with subscribers }, calls)
  else
    (m, (m.subscribers.filter fun s => s.notifyRsrcStatus n).map fun s => .notify s n.rsrcStatus)

def addSubscriber (subscriber : Subscriber) : AgpsStateMachine :=
  match m.subscribers.find? fun s => s.forMe (.only subscriber) with
  | none => { m with subscribers := subscriber.clone :: m.subscribers }
  | some _ => m

/-- An event, with the position and the value of the subscriber that leaves. -/
inductive Event where
  | subscribe (subscriber : Subscriber)
  | unsubscribe (i : Nat) (subscriber : Subscriber)
  | granted
  | released
  | denied

def leave (i : Nat) (subscriber : Subscriber) : AgpsStateMachine × List Call :=
  if subscriber.waitForCloseComplete then
    ({ m with subscribers := m.subscribers.modify i .setInactive }, [.setInactive subscriber])
  else m.notifySubscribers ⟨.only subscriber, .unsubscribe, true⟩

def send (action : AGpsStatusValue) : Call := .sendRsrcRequest action m.subscribers

def onReleased (ret : Int) : Event → AgpsStateMachine × List Call
  | .subscribe subscriber =>
    let m := m.addSubscriber subscriber
    if ret = 0 then ({ m with state := .pending }, [m.send .requestAgpsDataConn])
    else (m, [m.send .requestAgpsDataConn])
  | .unsubscribe _ subscriber =>
    (m, if subscriber.notifyRsrcStatus ⟨.only subscriber, .unsubscribe, false⟩ then
      [.notify subscriber .unsubscribe] else [])
  | .granted => (m, [])
  | .released => (m, [])
  | .denied => (m, [])

def releaseIfUnused : AgpsStateMachine × List Call :=
  if !m.hasSubscribers then ({ m with state := .released }, [m.send .releaseAgpsDataConn])
  else if !m.hasActiveSubscribers then
    ({ m with state := .releasing }, [m.send .releaseAgpsDataConn])
  else (m, [])

def onPending : Event → AgpsStateMachine × List Call
  | .subscribe subscriber => (m.addSubscriber subscriber, [])
  | .unsubscribe i subscriber =>
    let (m, left) := m.leave i subscriber
    let (m, calls) := m.releaseIfUnused
    (m, left ++ calls)
  | .granted => { m with state := .acquired }.notifySubscribers ⟨.active, .granted, false⟩
  -- either `granted` or `denied` is expected
  | .released => (m, [])
  | .denied => { m with state := .released }.notifySubscribers ⟨.all, .denied, true⟩

def onAcquired : Event → AgpsStateMachine × List Call
  | .subscribe subscriber =>
    (m.addSubscriber subscriber,
      if subscriber.notifyRsrcStatus ⟨.only subscriber, .granted, false⟩ then
        [.notify subscriber .granted] else [])
  | .unsubscribe i subscriber =>
    let (m, left) := m.leave i subscriber
    let (m, calls) := m.releaseIfUnused
    (m, left ++ calls)
  | .granted => (m, [])
  | .released => { m with state := .released }.notifySubscribers ⟨.all, .released, true⟩
  | .denied => (m, [])

def closed (status : RsrcStatus) : AgpsStateMachine × List Call :=
  let (m, calls) := m.notifySubscribers ⟨.inactive, status, true⟩
  if m.hasActiveSubscribers then
    ({ m with state := .pending }, calls ++ [m.send .requestAgpsDataConn])
  else ({ m with state := .released }, calls)

def onReleasing : Event → AgpsStateMachine × List Call
  | .subscribe subscriber => (m.addSubscriber subscriber, [])
  | .unsubscribe i subscriber =>
    let (m, left) := m.leave i subscriber
    (if m.hasSubscribers then m else { m with state := .released }, left)
  | .granted => (m, [])
  | .released => m.closed .released
  | .denied => m.closed .denied

def onRsrcEvent (ret : Int) (event : Event) : AgpsStateMachine × List Call :=
  match m.state with
  | .released => m.onReleased ret event
  | .pending => m.onPending event
  | .acquired => m.onAcquired event
  | .releasing => m.onReleasing event

def subscribeRsrc (ret : Int) (subscriber : Subscriber) : AgpsStateMachine × List Call :=
  if m.enforceSingleSubscriber && m.hasSubscribers then
    (m, if subscriber.notifyRsrcStatus ⟨.all, .denied, true⟩ then
      [.notify subscriber .denied] else [])
  else m.onRsrcEvent ret (.subscribe subscriber)

def unsubscribeRsrc (ret : Int) (subscriber : Subscriber) : Bool × AgpsStateMachine × List Call :=
  let i := m.subscribers.findIdx fun s => s.forMe (.only subscriber)
  match m.subscribers[i]? with
  | none => (false, m, [])
  | some s => (true, m.onRsrcEvent ret (.unsubscribe i s))

def dropAllSubscribers : AgpsStateMachine := { m with subscribers := [] }

end AgpsStateMachine

section Subscribers

variable {s t : Subscriber}

@[simp] theorem clone_equals : s.clone.equals t = s.equals t := rfl

@[simp] theorem equals_clone : s.equals t.clone = s.equals t := rfl

theorem setInactive_fields : s.setInactive.cls = s.cls ∧ s.setInactive.id = s.id ∧
    s.setInactive.ipv6 = s.ipv6 := by
  unfold Subscriber.setInactive
  cases hcls : s.cls <;> simp [hcls]

@[simp] theorem setInactive_equals : s.setInactive.equals t = s.equals t := by
  obtain ⟨hcls, hid, hipv6⟩ := @setInactive_fields s
  simp only [Subscriber.equals, hcls, hid, hipv6]

@[simp] theorem equals_setInactive : s.equals t.setInactive = s.equals t := by
  obtain ⟨-, hid, hipv6⟩ := @setInactive_fields t
  simp only [Subscriber.equals, hid, hipv6]

@[simp] theorem clone_isInactive : s.clone.isInactive = false := by
  cases hcls : s.cls <;> simp [Subscriber.isInactive, Subscriber.clone, hcls]

theorem isInactive_setInactive (h : s.waitForCloseComplete = true) :
    s.setInactive.isInactive = true := by
  unfold Subscriber.waitForCloseComplete at h
  unfold Subscriber.setInactive Subscriber.isInactive
  cases hcls : s.cls <;> simp_all

theorem isInactive_setInactive_of_isInactive (h : s.isInactive = true) :
    s.setInactive.isInactive = true := by
  unfold Subscriber.isInactive at h
  unfold Subscriber.setInactive Subscriber.isInactive
  cases hcls : s.cls <;> simp_all

theorem waitForCloseComplete_of_isInactive (h : s.isInactive = true) :
    s.waitForCloseComplete = true := by
  unfold Subscriber.isInactive at h
  unfold Subscriber.waitForCloseComplete
  cases hcls : s.cls <;> simp_all

@[simp] theorem equals_self : s.equals s = true := by
  cases hcls : s.cls <;> simp [Subscriber.equals, hcls]

end Subscribers

section List

variable {m : AgpsStateMachine} {s : Subscriber} {l : List Subscriber}

theorem notifyLoop_of_le (n : Notification) (rounds : Nat) (l : List Subscriber)
    (h : l.countP (fun s => s.notifyRsrcStatus n) ≤ rounds) :
    notifyLoop n rounds l = (l.filter fun s => !s.notifyRsrcStatus n,
      (l.filter fun s => s.notifyRsrcStatus n).map fun s => .notify s n.rsrcStatus) := by
  have hnone : ∀ l : List Subscriber, (∀ s ∈ l, s.notifyRsrcStatus n = false) →
      (l, ([] : List Call)) = (l.filter fun s => !s.notifyRsrcStatus n,
        (l.filter fun s => s.notifyRsrcStatus n).map fun s => .notify s n.rsrcStatus) := by
    intro l hall
    rw [List.filter_eq_self.mpr fun s hs => by simp [hall s hs],
      List.filter_eq_nil_iff.mpr fun s hs => by simp [hall s hs]]
    rfl
  induction rounds generalizing l with
  | zero =>
    refine hnone l fun s hs => ?_
    have hzero := List.countP_eq_zero.mp (Nat.le_zero.mp h) s hs
    simpa using hzero
  | succ rounds ih =>
    unfold notifyLoop
    split
    · rename_i hfind
      exact hnone l fun s hs => by simpa using List.find?_eq_none.mp hfind s hs
    · rename_i s hfind
      obtain ⟨hs, before, behind, rfl, hbefore⟩ := List.find?_eq_some_iff_append.mp hfind
      have hpass : ∀ t ∈ before, ¬ t.notifyRsrcStatus n = true := fun t ht => by
        simpa using hbefore t ht
      have herase : (before ++ s :: behind).eraseP (fun s => s.notifyRsrcStatus n) =
          before ++ behind := by
        grind
      have hcount : (before ++ behind).countP (fun s => s.notifyRsrcStatus n) ≤ rounds := by
        grind
      grind

theorem notifySubscribers_delete {receiver : Receiver} {status : RsrcStatus}
    (hstatus : status ≠ .subscribe) :
    m.notifySubscribers ⟨receiver, status, true⟩ =
      ({ m with subscribers := m.subscribers.filter fun s => !s.forMe receiver },
        (m.subscribers.filter fun s => s.forMe receiver).map fun s => .notify s status) := by
  simp [Subscriber.notifyRsrcStatus, AgpsStateMachine.notifySubscribers, notifyLoop_of_le,
    List.countP_le_length, hstatus]

theorem notifySubscribers_keep {receiver : Receiver} {status : RsrcStatus}
    (hstatus : status ≠ .subscribe) :
    m.notifySubscribers ⟨receiver, status, false⟩ =
      (m, (m.subscribers.filter fun s => s.forMe receiver).map fun s => .notify s status) := by
  simp [Subscriber.notifyRsrcStatus, AgpsStateMachine.notifySubscribers, hstatus]

theorem addSubscriber_cases (m : AgpsStateMachine) (s : Subscriber) :
    (∃ t ∈ m.subscribers, t.equals s = true) ∧ m.addSubscriber s = m ∨
      (∀ t ∈ m.subscribers, t.equals s = false) ∧
        m.addSubscriber s = { m with subscribers := s.clone :: m.subscribers } := by
  grind [AgpsStateMachine.addSubscriber, Subscriber.forMe]

theorem hasSubscribers_eq_false : m.hasSubscribers = false ↔ m.subscribers = [] := by
  simp [AgpsStateMachine.hasSubscribers]

theorem hasActiveSubscribers_iff : m.hasActiveSubscribers = true ↔
    ∃ s ∈ m.subscribers, s.isInactive = false := by
  simp [AgpsStateMachine.hasActiveSubscribers, Subscriber.forMe]

theorem hasActiveSubscribers_eq_false : m.hasActiveSubscribers = false ↔
    ∀ s ∈ m.subscribers, s.isInactive = true := by
  rw [← Bool.not_eq_true, hasActiveSubscribers_iff]
  simp

theorem leave_cases (m : AgpsStateMachine) (i : Nat) (s : Subscriber) :
    s.waitForCloseComplete = true ∧ m.leave i s =
        ({ m with subscribers := m.subscribers.modify i .setInactive }, [.setInactive s]) ∨
      s.waitForCloseComplete = false ∧ m.leave i s =
        ({ m with subscribers := m.subscribers.filter fun t => !t.equals s },
          (m.subscribers.filter fun t => t.equals s).map fun t => .notify t .unsubscribe) := by
  unfold AgpsStateMachine.leave
  split
  · simp_all
  · rename_i hwait
    exact .inr ⟨by simpa using hwait, notifySubscribers_delete nofun⟩

theorem leave_state (m : AgpsStateMachine) (i : Nat) (s : Subscriber) :
    (m.leave i s).1.state = m.state := by
  rcases leave_cases m i s with ⟨-, heq⟩ | ⟨-, heq⟩
  · rw [heq]
  · rw [heq]

theorem releaseIfUnused_cases (m : AgpsStateMachine) :
    m.subscribers = [] ∧ m.releaseIfUnused =
        ({ m with state := .released }, [m.send .releaseAgpsDataConn]) ∨
      m.subscribers ≠ [] ∧ m.hasActiveSubscribers = false ∧ m.releaseIfUnused =
        ({ m with state := .releasing }, [m.send .releaseAgpsDataConn]) ∨
      m.hasActiveSubscribers = true ∧ m.releaseIfUnused = (m, []) := by
  unfold AgpsStateMachine.releaseIfUnused
  split
  · rename_i hempty
    exact .inl ⟨hasSubscribers_eq_false.mp (by simpa using hempty), rfl⟩
  rename_i hsome
  have hne : m.subscribers ≠ [] := fun h => hsome (by simp [hasSubscribers_eq_false.mpr h])
  simp [hne]

theorem notifySubscribers_enforce (m : AgpsStateMachine) (n : Notification) :
    (m.notifySubscribers n).1.enforceSingleSubscriber = m.enforceSingleSubscriber := by
  unfold AgpsStateMachine.notifySubscribers
  split
  · rfl
  · rfl

theorem addSubscriber_enforce (m : AgpsStateMachine) (s : Subscriber) :
    (m.addSubscriber s).enforceSingleSubscriber = m.enforceSingleSubscriber := by
  unfold AgpsStateMachine.addSubscriber
  split
  · rfl
  · rfl

theorem leave_enforce (m : AgpsStateMachine) (i : Nat) (s : Subscriber) :
    (m.leave i s).1.enforceSingleSubscriber = m.enforceSingleSubscriber := by
  unfold AgpsStateMachine.leave
  split
  · rfl
  · exact notifySubscribers_enforce _ _

theorem releaseIfUnused_enforce (m : AgpsStateMachine) :
    m.releaseIfUnused.1.enforceSingleSubscriber = m.enforceSingleSubscriber := by
  unfold AgpsStateMachine.releaseIfUnused
  split_ifs
  · rfl
  · rfl
  · rfl

theorem closed_enforce (m : AgpsStateMachine) (status : RsrcStatus) :
    (m.closed status).1.enforceSingleSubscriber = m.enforceSingleSubscriber := by
  unfold AgpsStateMachine.closed
  simp only
  split
  · exact notifySubscribers_enforce _ _
  · exact notifySubscribers_enforce _ _

theorem onRsrcEvent_enforce (m : AgpsStateMachine) (ret : Int) (event : AgpsStateMachine.Event) :
    (m.onRsrcEvent ret event).1.enforceSingleSubscriber = m.enforceSingleSubscriber := by
  unfold AgpsStateMachine.onRsrcEvent
  split
  · cases event with
    | subscribe s =>
      unfold AgpsStateMachine.onReleased
      simp only
      split
      · exact addSubscriber_enforce m s
      · exact addSubscriber_enforce m s
    | unsubscribe i s => rfl
    | granted => rfl
    | released => rfl
    | denied => rfl
  · cases event with
    | subscribe s => exact addSubscriber_enforce m s
    | unsubscribe i s => exact (releaseIfUnused_enforce _).trans (leave_enforce m i s)
    | granted => exact notifySubscribers_enforce _ _
    | released => rfl
    | denied => exact notifySubscribers_enforce _ _
  · cases event with
    | subscribe s => exact addSubscriber_enforce m s
    | unsubscribe i s => exact (releaseIfUnused_enforce _).trans (leave_enforce m i s)
    | granted => rfl
    | released => exact notifySubscribers_enforce _ _
    | denied => rfl
  · cases event with
    | subscribe s => exact addSubscriber_enforce m s
    | unsubscribe i s =>
      unfold AgpsStateMachine.onReleasing
      simp only
      split
      · exact leave_enforce m i s
      · exact leave_enforce m i s
    | granted => rfl
    | released => exact closed_enforce m .released
    | denied => exact closed_enforce m .denied

theorem subscribeRsrc_enforce (m : AgpsStateMachine) (ret : Int) (s : Subscriber) :
    (m.subscribeRsrc ret s).1.enforceSingleSubscriber = m.enforceSingleSubscriber := by
  unfold AgpsStateMachine.subscribeRsrc
  split
  · rfl
  · exact onRsrcEvent_enforce m ret _

theorem unsubscribeRsrc_enforce (m : AgpsStateMachine) (ret : Int) (s : Subscriber) :
    (m.unsubscribeRsrc ret s).2.1.enforceSingleSubscriber = m.enforceSingleSubscriber := by
  unfold AgpsStateMachine.unsubscribeRsrc
  simp only
  split
  · rfl
  · exact onRsrcEvent_enforce m ret _

end List

end EtherDevice.Agps
