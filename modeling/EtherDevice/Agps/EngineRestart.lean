import Mathlib
import EtherDevice.Agps.DataCall

/-!
# The connections over a restart of the engine

`LocEng` has the machines of `loc_eng_data_s_type`, each with the requests that it still owes a
release: those that the framework accepted and has not ended itself. A machine without
subscribers should be released and owe nothing. When the engine comes up again,
`dropAllSubscribers` empties the lists of two of them and leaves their states as they are.
-/

namespace EtherDevice.Agps

open Lib

/-! ## What is owed -/

def AGpsStatusValue.owedAfter (owed : Nat) : AGpsStatusValue → Nat
  | .requestAgpsDataConn => owed + 1
  | .releaseAgpsDataConn => owed - 1

def FrameworkEvent.owedAfter (owed : Nat) : FrameworkEvent → Nat
  | .granted => owed
  | .released => 0
  | .denied => 0

/-- `requestRsrc` of an `ExtServicer`: the request, if `dataCallCb` accepts it. -/
def Call.accepted (answer : Answer) (call : Call) : Option AGpsStatusValue :=
  call.intended.filter fun action => dataCallCb answer action = errSuccess

structure Nif where
  machine : AgpsStateMachine
  owed : Nat

def Nif.after (owed : Nat) (next : AgpsStateMachine × List Call) : Nif where
  machine := next.1
  owed := (next.2.filterMap Call.nifRequest).foldl AGpsStatusValue.owedAfter owed

structure DsNif where
  machine : DSStateMachine
  owed : Nat

def DsNif.after (answer : Answer) (mRetries owed : Nat) (next : AgpsStateMachine × List Call) :
    DsNif where
  machine := ⟨next.1, (perform answer mRetries next.2).1⟩
  owed := (next.2.filterMap (Call.accepted answer)).foldl AGpsStatusValue.owedAfter owed

namespace Nif

variable (n : Nif)

def subscribeRsrc (s : Subscriber) : Nif := .after n.owed (n.machine.subscribeRsrc 0 s)

def unsubscribeRsrc (s : Subscriber) : Bool × Nif :=
  let next := n.machine.unsubscribeRsrc 0 s
  (next.1, .after n.owed next.2)

def onRsrcEvent (event : FrameworkEvent) : Nif :=
  .after (event.owedAfter n.owed) (n.machine.onRsrcEvent 0 event.toEvent)

def dropAllSubscribers : Nif := { n with machine := n.machine.dropAllSubscribers }

end Nif

namespace DsNif

variable (n : DsNif) (answer : Answer)

def subscribeRsrc (s : Subscriber) : DsNif :=
  .after answer n.machine.mRetries n.owed
    (n.machine.base.subscribeRsrc (n.machine.returned answer) s)

def unsubscribeRsrc (s : Subscriber) : Bool × DsNif :=
  let next := n.machine.base.unsubscribeRsrc (n.machine.returned answer) s
  (next.1, .after answer n.machine.mRetries n.owed next.2)

def onRsrcEvent (event : FrameworkEvent) : DsNif :=
  .after answer n.machine.mRetries (event.owedAfter n.owed) (n.machine.onRsrcEvent answer event)

end DsNif

/-- The machine is released, owes nothing, and asks for a new connection for its next
subscriber. -/
def Nif.Unused (n : Nif) : Prop :=
  n.machine.state = .released ∧ n.owed = 0 ∧ ∀ s,
    (n.machine.subscribeRsrc 0 s).2.filterMap Call.nifRequest = [.requestAgpsDataConn] ∧
      ∀ t, .notify t .granted ∉ (n.machine.subscribeRsrc 0 s).2

def DsNif.Unused (n : DsNif) : Prop :=
  n.machine.base.state = .released ∧ n.owed = 0 ∧ ∀ answer s,
    (n.machine.base.subscribeRsrc (n.machine.returned answer) s).2.filterMap Call.intended =
        [.requestAgpsDataConn] ∧
      ∀ t, .notify t .granted ∉ (n.machine.base.subscribeRsrc (n.machine.returned answer) s).2

/-! ## The engine -/

inductive AGpsExtType where
  | wifi
  | invalid
  | supl
  | suplEs
  | other
deriving DecidableEq

/-- The machines of `loc_eng_data_s_type`, after `loc_eng_agps_init`. -/
structure LocEng where
  agnss : Option Nif
  internet : Nif
  wifi : Nif
  ds : Option DsNif

inductive NifId where
  | agnss
  | internet
  | wifi
  | ds

namespace LocEng

variable (e : LocEng)

def getAgpsStateMachine : AGpsExtType → NifId
  | .wifi => .wifi
  | .invalid => .agnss
  | .supl => .agnss
  | .suplEs => if e.ds.isSome then .ds else .agnss
  | .other => .internet

/-- `subscribeRsrc` of a machine, if it is there. -/
def subscribeRsrc (answer : Answer) (s : Subscriber) : NifId → LocEng
  | .agnss => { e with agnss := e.agnss.map fun n => n.subscribeRsrc s }
  | .internet => { e with internet := e.internet.subscribeRsrc s }
  | .wifi => { e with wifi := e.wifi.subscribeRsrc s }
  | .ds => { e with ds := e.ds.map fun n => n.subscribeRsrc answer s }

/-- `unsubscribeRsrc` of a machine, if it is there, with the value it returns. -/
def unsubscribeRsrc (answer : Answer) (s : Subscriber) : NifId → Bool × LocEng
  | .agnss =>
    ((e.agnss.map fun n => (n.unsubscribeRsrc s).1).getD false,
      { e with agnss := e.agnss.map fun n => (n.unsubscribeRsrc s).2 })
  | .internet =>
    ((e.internet.unsubscribeRsrc s).1, { e with internet := (e.internet.unsubscribeRsrc s).2 })
  | .wifi => ((e.wifi.unsubscribeRsrc s).1, { e with wifi := (e.wifi.unsubscribeRsrc s).2 })
  | .ds =>
    ((e.ds.map fun n => (n.unsubscribeRsrc answer s).1).getD false,
      { e with ds := e.ds.map fun n => (n.unsubscribeRsrc answer s).2 })

/-- `onRsrcEvent` of a machine, if it is there. -/
def onRsrcEvent (answer : Answer) (event : FrameworkEvent) : NifId → LocEng
  | .agnss => { e with agnss := e.agnss.map fun n => n.onRsrcEvent event }
  | .internet => { e with internet := e.internet.onRsrcEvent event }
  | .wifi => { e with wifi := e.wifi.onRsrcEvent event }
  | .ds => { e with ds := e.ds.map fun n => n.onRsrcEvent answer event }

/-- `LocEngRequestSuplEs::proc`. Where an `ATLSubscriber` has no IPv6 address, `memory` is what is
found in its place. -/
def requestSuplEs (answer : Answer) (id : UInt32) (memory : List UInt8) : LocEng :=
  if e.ds.isSome then e.subscribeRsrc answer (dsSubscriber id) .ds
  else e.subscribeRsrc answer ⟨.atl, id, memory, false⟩ .agnss

def releaseATL (answer : Answer) (id : UInt32) (memory : List UInt8) : LocEng :=
  let (found, e) := e.unsubscribeRsrc answer ⟨.atl, id, memory, false⟩ .agnss
  if found then e
  else
    let (found, e) := e.unsubscribeRsrc answer ⟨.atl, id, memory, false⟩ .internet
    if found then e
    else (e.unsubscribeRsrc answer (dsSubscriber id) .ds).2

def engineUp : LocEng :=
  { e with
    agnss := e.agnss.map Nif.dropAllSubscribers
    internet := e.internet.dropAllSubscribers }

/-- The messages. The framework answers for a machine. -/
inductive Op where
  | requestATL (id : UInt32) (memory : List UInt8) (type : AGpsExtType)
  | releaseATL (id : UInt32) (memory : List UInt8)
  | requestSuplEs (id : UInt32) (memory : List UInt8)
  | reqRelBIT (type : AGpsExtType) (ipv4 : UInt32) (ipv6 : List UInt8) (isReq : Bool)
  | reqRelWifi (senderId : UInt32) (memory : List UInt8) (isReq : Bool)
  | framework (nif : NifId) (event : FrameworkEvent)
  | dataClientInit
  | engineDown
  | engineUp

def Enabled : Op × Answer → Prop
  | (.dataClientInit, _) => e.ds = none
  | (_, _) => True

def exec : Op × Answer → LocEng
  | (.requestATL id memory type, answer) =>
    e.subscribeRsrc answer ⟨.atl, id, memory, false⟩ (e.getAgpsStateMachine type)
  | (.releaseATL id memory, answer) => e.releaseATL answer id memory
  | (.requestSuplEs id memory, answer) => e.requestSuplEs answer id memory
  | (.reqRelBIT type ipv4 ipv6 isReq, answer) =>
    let s : Subscriber := ⟨.bit, ipv4, ipv6, false⟩
    if isReq then e.subscribeRsrc answer s (e.getAgpsStateMachine type)
    else (e.unsubscribeRsrc answer s (e.getAgpsStateMachine type)).2
  | (.reqRelWifi senderId memory isReq, answer) =>
    let s : Subscriber := ⟨.wifi, senderId, memory, false⟩
    if isReq then e.subscribeRsrc answer s .wifi else (e.unsubscribeRsrc answer s .wifi).2
  | (.framework nif event, answer) => e.onRsrcEvent answer event nif
  | (.dataClientInit, _) => { e with ds := some ⟨⟨⟨.released, [], false⟩, 0⟩, 0⟩ }
  -- neither `loc_eng_ni_reset_on_engine_restart` nor the status concern the machines
  | (.engineDown, _) => e
  | (.engineUp, _) => e.engineUp

/-- The machines are new, and there is no `DSStateMachine` yet. -/
structure Initial : Prop where
  agnss : ∀ n ∈ e.agnss, n.machine.Initial ∧ n.owed = 0
  internet : e.internet.machine.Initial ∧ e.internet.owed = 0
  wifi : e.wifi.machine.Initial ∧ e.wifi.owed = 0
  ds : e.ds = none

def system : System LocEng (Op × Answer) := .ofFunction Initial Enabled exec

/-! ## What a machine without subscribers should be -/

/-- No machine without subscribers keeps a connection. -/
structure NoneSurvives : Prop where
  agnss : ∀ n ∈ e.agnss, n.machine.subscribers = [] → n.Unused
  internet : e.internet.machine.subscribers = [] → e.internet.Unused
  wifi : e.wifi.machine.subscribers = [] → e.wifi.Unused
  ds : ∀ n ∈ e.ds, n.machine.base.subscribers = [] → n.Unused

/-- The engine comes up while nobody has subscribed to the machines whose lists it empties. -/
def Quiet : Op × Answer → Prop
  | (.engineUp, _) =>
    (∀ n ∈ e.agnss, n.machine.subscribers = []) ∧ e.internet.machine.subscribers = []
  | (_, _) => True

def quietSystem : System LocEng (Op × Answer) := system.restrict Quiet

end LocEng

/-! ## Handlers -/

section Handlers

variable {m : AgpsStateMachine} {owed : Nat} {ret : Int} {s : Subscriber} {l : List Subscriber}

structure Settled (m : AgpsStateMachine) (owed : Nat) : Prop where
  used : m.subscribers = [] → m.state = .released
  owed_le : owed ≤ 1
  idle : m.state = .released ∨ m.state = .releasing → owed = 0

/-- The request of a call, if a request for a connection returns `ret`. -/
def Call.counted (ret : Int) (call : Call) : Option AGpsStatusValue :=
  call.intended.filter fun action => action = .releaseAgpsDataConn ∨ ret = 0

def charge (ret : Int) (owed : Nat) (calls : List Call) : Nat :=
  (calls.filterMap (Call.counted ret)).foldl AGpsStatusValue.owedAfter owed

theorem charge_append (calls calls' : List Call) :
    charge ret owed (calls ++ calls') = charge ret (charge ret owed calls) calls' := by
  simp [charge]

theorem charge_notify (l : List Subscriber) (status : RsrcStatus) :
    charge ret owed (l.map fun s => .notify s status) = owed := by
  unfold charge
  rw [List.filterMap_map]
  have hnone : l.filterMap (Call.counted ret ∘ fun s => Call.notify s status) = [] :=
    List.filterMap_eq_nil_iff.mpr fun s _ => rfl
  rw [hnone]
  rfl

theorem charge_notify_if (c : Bool) (s : Subscriber) (status : RsrcStatus) :
    charge ret owed (if c then [.notify s status] else []) = owed := by
  cases c
  · rfl
  · rfl

theorem charge_leave (i : Nat) (s : Subscriber) :
    charge ret owed (m.leave i s).2 = owed := by
  rcases leave_cases m i s with ⟨-, heq⟩ | ⟨-, heq⟩
  · rw [heq]
    rfl
  · rw [heq]
    exact charge_notify _ _

theorem charge_release :
    charge ret owed [.sendRsrcRequest .releaseAgpsDataConn l] = owed - 1 := rfl

theorem charge_request_of_eq (hret : ret = 0) :
    charge ret owed [.sendRsrcRequest .requestAgpsDataConn l] = owed + 1 := by
  unfold charge Call.counted Call.intended
  simp [hret, AGpsStatusValue.owedAfter]

theorem charge_request_of_ne (hret : ret ≠ 0) :
    charge ret owed [.sendRsrcRequest .requestAgpsDataConn l] = owed := by
  unfold charge Call.counted Call.intended
  simp [hret]

theorem Settled.ne_nil (h : Settled m owed) (hstate : m.state ≠ .released) :
    m.subscribers ≠ [] := fun hempty => hstate (h.used hempty)

theorem Settled.add (h : Settled m owed) (s : Subscriber) : Settled (m.addSubscriber s) owed := by
  refine ⟨fun hempty => absurd hempty addSubscriber_ne_nil, h.owed_le, ?_⟩
  rw [addSubscriber_state]
  exact h.idle

theorem settled_releaseIfUnused (hup : m.state = .pending ∨ m.state = .acquired)
    (howed : owed ≤ 1) :
    Settled m.releaseIfUnused.1 (charge ret owed m.releaseIfUnused.2) := by
  have hzero : owed - 1 = 0 := by omega
  rcases releaseIfUnused_cases m with ⟨hempty, heq⟩ | ⟨hne, -, heq⟩ | ⟨hactive, heq⟩
  · rw [heq]
    refine ⟨fun _ => rfl, ?_, fun _ => hzero⟩
    rw [AgpsStateMachine.send, charge_release, hzero]
    exact Nat.zero_le 1
  · rw [heq]
    refine ⟨fun hempty => absurd hempty hne, ?_, fun _ => hzero⟩
    rw [AgpsStateMachine.send, charge_release, hzero]
    exact Nat.zero_le 1
  · rw [heq]
    obtain ⟨s, hs, -⟩ := hasActiveSubscribers_iff.mp hactive
    refine ⟨fun hempty => absurd hempty (List.ne_nil_of_mem hs), howed, fun hidle => ?_⟩
    grind

theorem settled_closed {status : RsrcStatus} (hstatus : status ≠ .subscribe) :
    Settled (m.closed status).1 (charge ret 0 (m.closed status).2) := by
  rcases AgpsStateMachine.closed_cases m hstatus with ⟨⟨s, hs, hactive⟩, heq⟩ | ⟨-, heq⟩
  · rw [heq, charge_append, charge_notify]
    have hmem : s ∈ m.subscribers.filter fun s => !s.isInactive :=
      List.mem_filter.mpr ⟨hs, by simp [hactive]⟩
    refine ⟨fun hempty => absurd hempty (List.ne_nil_of_mem hmem), ?_, by simp⟩
    by_cases hret : ret = 0
    · exact Nat.le_of_eq (charge_request_of_eq hret)
    · rw [charge_request_of_ne hret]
      exact Nat.zero_le 1
  · rw [heq, charge_notify]
    exact ⟨fun _ => rfl, Nat.zero_le 1, fun _ => rfl⟩

theorem settled_dropped {status : RsrcStatus} (hstatus : status ≠ .subscribe) :
    Settled ({ m with state := .released }.notifySubscribers ⟨.all, status, true⟩).1
      (charge ret 0 ({ m with state := .released }.notifySubscribers ⟨.all, status, true⟩).2) := by
  rw [notifySubscribers_delete hstatus, charge_notify]
  exact ⟨fun _ => rfl, Nat.zero_le 1, fun _ => rfl⟩

theorem Settled.subscribe (h : Settled m owed) (ret : Int) (s : Subscriber) :
    Settled (m.subscribeRsrc ret s).1 (charge ret owed (m.subscribeRsrc ret s).2) := by
  unfold AgpsStateMachine.subscribeRsrc
  split
  · exact h
  unfold AgpsStateMachine.onRsrcEvent
  split
  · rename_i hstate
    have howed := h.idle (.inl hstate)
    unfold AgpsStateMachine.onReleased
    simp only
    split
    · rename_i hret
      rw [AgpsStateMachine.send, charge_request_of_eq hret, howed]
      exact ⟨fun hempty => absurd hempty addSubscriber_ne_nil, Nat.le_refl 1, by simp⟩
    · rename_i hret
      rw [AgpsStateMachine.send, charge_request_of_ne hret]
      exact h.add s
  · exact h.add s
  · show Settled (m.addSubscriber s) (charge ret owed (if _ then _ else _))
    rw [charge_notify_if]
    exact h.add s
  · exact h.add s

theorem Settled.unsubscribe (h : Settled m owed) (ret : Int) (s : Subscriber) :
    Settled (m.unsubscribeRsrc ret s).2.1 (charge ret owed (m.unsubscribeRsrc ret s).2.2) := by
  unfold AgpsStateMachine.unsubscribeRsrc
  simp only
  split
  · exact h
  rename_i t hi
  have hrelease : ∀ i, m.state = .pending ∨ m.state = .acquired →
      Settled (m.leave i t).1.releaseIfUnused.1
        (charge ret owed ((m.leave i t).2 ++ (m.leave i t).1.releaseIfUnused.2)) := by
    intro i hup
    simp [charge_append, charge_leave, leave_state, settled_releaseIfUnused, hup, h.owed_le]
  unfold AgpsStateMachine.onRsrcEvent
  split
  · show Settled m (charge ret owed (if _ then _ else _))
    rw [charge_notify_if]
    exact h
  · rename_i hstate
    exact hrelease _ (.inl hstate)
  · rename_i hstate
    exact hrelease _ (.inr hstate)
  · rename_i hstate
    have howed := h.idle (.inr hstate)
    unfold AgpsStateMachine.onReleasing
    simp only
    rw [charge_leave]
    split
    · rename_i hsome
      refine ⟨fun hempty => ?_, h.owed_le, fun _ => howed⟩
      rw [hasSubscribers_eq_false.mpr hempty] at hsome
      cases hsome
    · exact ⟨fun _ => rfl, h.owed_le, fun _ => howed⟩

theorem Settled.framework (h : Settled m owed) (ret : Int) (event : FrameworkEvent) :
    Settled (m.onRsrcEvent ret event.toEvent).1
      (charge ret (event.owedAfter owed) (m.onRsrcEvent ret event.toEvent).2) := by
  have hended : Settled m 0 := ⟨h.used, Nat.zero_le 1, fun _ => rfl⟩
  unfold AgpsStateMachine.onRsrcEvent
  cases event with
  | granted =>
    split
    · exact h
    · rename_i hstate
      have hgranted : RsrcStatus.granted ≠ .subscribe := nofun
      have heq : m.onPending .granted = ({ m with state := .acquired }, _) :=
        notifySubscribers_keep hgranted
      show Settled (m.onPending .granted).1 (charge ret owed (m.onPending .granted).2)
      rw [heq, charge_notify]
      exact ⟨fun hempty => absurd hempty (h.ne_nil (by simp [hstate])), h.owed_le, by simp⟩
    · exact h
    · exact h
  | released =>
    split
    · exact hended
    · exact hended
    · exact settled_dropped nofun
    · exact settled_closed nofun
  | denied =>
    split
    · exact hended
    · exact settled_dropped nofun
    · exact hended
    · exact settled_closed nofun

/-! ## Machines of the base class -/

def ReleasedEmpty (m : AgpsStateMachine) : Prop := m.state = .released → m.subscribers = []

structure Passes (next : AgpsStateMachine × List Call) : Prop where
  sends : next.2.filterMap Call.nifRequest = next.2.filterMap Call.intended
  empty : ReleasedEmpty next.1

theorem passes_of_sends {next : AgpsStateMachine × List Call} {requests : List AGpsStatusValue}
    (hsends : AgpsStateMachine.Sends next.2 requests) (hempty : ReleasedEmpty next.1) :
    Passes next := ⟨hsends.1.trans hsends.2.symm, hempty⟩

theorem passes_releaseIfUnused {i : Nat} (hup : m.state = .pending ∨ m.state = .acquired) :
    Passes ((m.leave i s).1.releaseIfUnused.1, (m.leave i s).2 ++ (m.leave i s).1.releaseIfUnused.2)
    := by
  have hleft := AgpsStateMachine.sends_leave (m := m) i s
  rcases releaseIfUnused_cases (m.leave i s).1 with ⟨hempty, heq⟩ | ⟨-, hnone, heq⟩ | ⟨hactive, heq⟩
  · have hnone : (m.leave i s).1.hasActiveSubscribers = false := by
      simp [AgpsStateMachine.hasActiveSubscribers, hempty]
    rw [heq]
    exact passes_of_sends (hleft.append (AgpsStateMachine.sends_release hnone)) fun _ => hempty
  · rw [heq]
    refine passes_of_sends (hleft.append (AgpsStateMachine.sends_release hnone)) ?_
    simp [ReleasedEmpty]
  · rw [heq]
    refine passes_of_sends (hleft.append AgpsStateMachine.sends_nil) fun hstate => ?_
    simp_all [leave_state]

theorem passes_closed {status : RsrcStatus} (hstatus : status ≠ .subscribe) :
    Passes (m.closed status) := by
  rcases AgpsStateMachine.closed_cases m hstatus with ⟨⟨s, hs, hactive⟩, heq⟩ | ⟨-, heq⟩
  · rw [heq]
    have hrequest : AgpsStateMachine.Sends _ _ :=
      AgpsStateMachine.sends_request (l := m.subscribers.filter fun s => !s.isInactive)
        ⟨s, List.mem_filter.mpr ⟨hs, by simp [hactive]⟩, hactive⟩
    exact passes_of_sends ((AgpsStateMachine.sends_notify _ status).append hrequest) nofun
  · rw [heq]
    exact passes_of_sends (AgpsStateMachine.sends_notify _ status) fun _ => rfl

theorem passes_dropped {status : RsrcStatus} (hstatus : status ≠ .subscribe) :
    Passes ({ m with state := .released }.notifySubscribers ⟨.all, status, true⟩) := by
  rw [notifySubscribers_delete hstatus]
  refine passes_of_sends (AgpsStateMachine.sends_notify _ status) fun _ => ?_
  exact List.filter_eq_nil_iff.mpr fun s _ => by simp [Subscriber.forMe]

theorem addSubscriber_of_empty (hempty : m.subscribers = []) :
    (m.addSubscriber s).subscribers = [s.clone] := by
  grind [addSubscriber_cases]

theorem ReleasedEmpty.subscribe (h : ReleasedEmpty m) (s : Subscriber) :
    Passes (m.subscribeRsrc 0 s) := by
  have hother : m.state ≠ .released → ReleasedEmpty (m.addSubscriber s) := by
    intro hstate hreleased
    simp_all
  unfold AgpsStateMachine.subscribeRsrc
  split
  · exact passes_of_sends (AgpsStateMachine.sends_notify_if
      (s.notifyRsrcStatus ⟨.all, .denied, true⟩) s .denied) h
  unfold AgpsStateMachine.onRsrcEvent
  split
  · rename_i hstate
    have hlist := addSubscriber_of_empty (s := s) (h hstate)
    have hactive : ∃ t ∈ (m.addSubscriber s).subscribers, t.isInactive = false :=
      ⟨s.clone, by simp [hlist], clone_isInactive⟩
    exact passes_of_sends (AgpsStateMachine.sends_request hactive) nofun
  · rename_i hstate
    exact passes_of_sends AgpsStateMachine.sends_nil (hother (by simp [hstate]))
  · rename_i hstate
    exact passes_of_sends (AgpsStateMachine.sends_notify_if _ s .granted)
      (hother (by simp [hstate]))
  · rename_i hstate
    exact passes_of_sends AgpsStateMachine.sends_nil (hother (by simp [hstate]))

theorem ReleasedEmpty.unsubscribe (h : ReleasedEmpty m) (s : Subscriber) :
    Passes (m.unsubscribeRsrc 0 s).2 := by
  unfold AgpsStateMachine.unsubscribeRsrc
  simp only
  split
  · exact passes_of_sends AgpsStateMachine.sends_nil h
  unfold AgpsStateMachine.onRsrcEvent
  split
  · exact passes_of_sends (AgpsStateMachine.sends_notify_if _ _ .unsubscribe) h
  · rename_i hstate
    exact passes_releaseIfUnused (.inl hstate)
  · rename_i hstate
    exact passes_releaseIfUnused (.inr hstate)
  · rename_i hstate
    have hleft := AgpsStateMachine.sends_leave (m := m)
    unfold AgpsStateMachine.onReleasing
    simp only
    refine passes_of_sends (hleft _ _) fun hreleased => ?_
    split at hreleased
    · simp_all [leave_state]
    · rename_i hempty
      rw [if_neg hempty]
      rw [Bool.not_eq_true] at hempty
      exact hasSubscribers_eq_false.mp hempty

theorem ReleasedEmpty.framework (h : ReleasedEmpty m) (event : FrameworkEvent) :
    Passes (m.onRsrcEvent 0 event.toEvent) := by
  have hidle : Passes (m, []) := passes_of_sends AgpsStateMachine.sends_nil h
  unfold AgpsStateMachine.onRsrcEvent
  cases event with
  | granted =>
    split
    · exact hidle
    · show Passes (m.onPending .granted)
      exact passes_of_sends (AgpsStateMachine.sends_notify _ .granted) nofun
    · exact hidle
    · exact hidle
  | released =>
    split
    · exact hidle
    · exact hidle
    · exact passes_dropped nofun
    · exact passes_closed nofun
  | denied =>
    split
    · exact hidle
    · exact passes_dropped nofun
    · exact hidle
    · exact passes_closed nofun

theorem Passes.owed_after {next : AgpsStateMachine × List Call} (h : Passes next) (owed : Nat) :
    (Nif.after owed next).owed = charge 0 owed next.2 := by
  have hall : next.2.filterMap (Call.counted 0) = next.2.filterMap Call.intended := by
    refine congrArg (fun f => next.2.filterMap f) (funext fun call => ?_)
    unfold Call.counted
    cases call.intended <;> simp
  unfold charge
  rw [hall, ← h.sends]
  rfl

structure Nif.Inv (n : Nif) : Prop where
  settled : Settled n.machine n.owed
  empty : ReleasedEmpty n.machine

theorem Passes.inv {next : AgpsStateMachine × List Call} (h : Passes next)
    (hsettled : Settled next.1 (charge 0 owed next.2)) : (Nif.after owed next).Inv := by
  refine ⟨?_, h.empty⟩
  rw [h.owed_after]
  exact hsettled

variable {n : Nif}

theorem Nif.Inv.subscribeRsrc (h : n.Inv) (s : Subscriber) : (n.subscribeRsrc s).Inv :=
  (h.empty.subscribe s).inv (h.settled.subscribe 0 s)

theorem Nif.Inv.unsubscribeRsrc (h : n.Inv) (s : Subscriber) : (n.unsubscribeRsrc s).2.Inv :=
  (h.empty.unsubscribe s).inv (h.settled.unsubscribe 0 s)

theorem Nif.Inv.onRsrcEvent (h : n.Inv) (event : FrameworkEvent) : (n.onRsrcEvent event).Inv :=
  (h.empty.framework event).inv (h.settled.framework 0 event)

theorem Nif.dropAllSubscribers_of_empty (hempty : n.machine.subscribers = []) :
    n.dropAllSubscribers = n := by
  unfold Nif.dropAllSubscribers AgpsStateMachine.dropAllSubscribers
  rw [← hempty]

theorem Nif.Inv.unused (h : n.Inv) (hempty : n.machine.subscribers = []) : n.Unused := by
  have hstate := h.settled.used hempty
  refine ⟨hstate, h.settled.idle (.inl hstate), fun s => ?_⟩
  have hcalls : (n.machine.subscribeRsrc 0 s).2 =
      [(n.machine.addSubscriber s).send .requestAgpsDataConn] := by
    unfold AgpsStateMachine.subscribeRsrc AgpsStateMachine.onRsrcEvent
    rw [hasSubscribers_eq_false.mpr hempty, Bool.and_false, hstate]
    rfl
  have hlist := addSubscriber_of_empty (s := s) hempty
  rw [hcalls]
  refine ⟨(AgpsStateMachine.sends_request ⟨s.clone, ?_, clone_isInactive⟩).1, fun t ht => ?_⟩
  · simp_all
  · exact absurd (List.mem_singleton.mp ht) nofun

end Handlers

/-! ## The machine of the emergency data call -/

section Ds

variable {n : DsNif} {answer : Answer}

theorem accepted_eq (m : DSStateMachine) (answer : Answer) :
    Call.accepted answer = Call.counted (m.returned answer) := by
  have hzero : m.returned answer = 0 ↔ answer.ret = errSuccess := sendRsrcRequest_eq_zero
  funext call
  unfold Call.accepted Call.counted
  cases call.intended with
  | none => rfl
  | some action =>
    cases action with
    | requestAgpsDataConn =>
      grind [dataCallCb]
    | releaseAgpsDataConn => simp [Option.filter, dataCallCb, errSuccess]

/-- The state, the list and what is owed belong together in a `DSStateMachine`, too. -/
def DsNif.Inv (n : DsNif) : Prop := Settled n.machine.base n.owed

theorem DsNif.inv_after {owed : Nat} {next : AgpsStateMachine × List Call} (m : DSStateMachine)
    (hsettled : Settled next.1 (charge (m.returned answer) owed next.2)) :
    (DsNif.after answer m.mRetries owed next).Inv := by
  unfold charge at hsettled
  rw [← accepted_eq] at hsettled
  exact hsettled

theorem DsNif.Inv.subscribeRsrc (h : n.Inv) (s : Subscriber) : (n.subscribeRsrc answer s).Inv :=
  DsNif.inv_after n.machine (Settled.subscribe h _ s)

theorem DsNif.Inv.unsubscribeRsrc (h : n.Inv) (s : Subscriber) :
    (n.unsubscribeRsrc answer s).2.Inv :=
  DsNif.inv_after n.machine (Settled.unsubscribe h _ s)

theorem DsNif.Inv.onRsrcEvent (h : n.Inv) (event : FrameworkEvent) :
    (n.onRsrcEvent answer event).Inv := by
  refine DsNif.inv_after n.machine ?_
  cases event with
  | granted => exact Settled.framework h _ .granted
  | denied => exact Settled.framework h _ .denied
  | released =>
    rcases onRsrcEvent_released n.machine answer with ⟨-, heq⟩ | ⟨-, heq⟩
    · rw [heq]
      exact Settled.framework h _ .denied
    · rw [heq]
      exact Settled.framework h _ .released

theorem DsNif.Inv.unused (h : n.Inv) (hempty : n.machine.base.subscribers = []) : n.Unused := by
  have hstate := Settled.used h hempty
  refine ⟨hstate, Settled.idle h (.inl hstate), fun answer s => ?_⟩
  have hcalls : (n.machine.base.subscribeRsrc (n.machine.returned answer) s).2 =
      [(n.machine.base.addSubscriber s).send .requestAgpsDataConn] := by
    unfold AgpsStateMachine.subscribeRsrc AgpsStateMachine.onRsrcEvent
    rw [hasSubscribers_eq_false.mpr hempty, Bool.and_false, hstate]
    unfold AgpsStateMachine.onReleased
    simp only [Bool.false_eq_true, if_false]
    split
    · rfl
    · rfl
  rw [hcalls]
  exact ⟨rfl, fun t ht => absurd (List.mem_singleton.mp ht) nofun⟩

end Ds

/-! ## The invariant -/

namespace LocEng

section Invariant

variable {e : LocEng} {answer : Answer}

structure Inv (e : LocEng) : Prop where
  agnss : ∀ n ∈ e.agnss, n.Inv
  internet : e.internet.Inv
  wifi : e.wifi.Inv
  ds : ∀ n ∈ e.ds, n.Inv

theorem forall_map {α β : Type} {f : α → β} {P : α → Prop} {Q : β → Prop} {o : Option α}
    (h : ∀ n ∈ o, P n) (hstep : ∀ n, P n → Q (f n)) : ∀ n ∈ o.map f, Q n := by
  simp_all

theorem Inv.subscribeRsrc (h : e.Inv) (answer : Answer) (s : Subscriber) (nif : NifId) :
    (e.subscribeRsrc answer s nif).Inv := by
  cases nif with
  | agnss => exact ⟨forall_map h.agnss fun n hn => hn.subscribeRsrc s, h.internet, h.wifi, h.ds⟩
  | internet => exact ⟨h.agnss, h.internet.subscribeRsrc s, h.wifi, h.ds⟩
  | wifi => exact ⟨h.agnss, h.internet, h.wifi.subscribeRsrc s, h.ds⟩
  | ds => exact ⟨h.agnss, h.internet, h.wifi, forall_map h.ds fun n hn => hn.subscribeRsrc s⟩

theorem Inv.unsubscribeRsrc (h : e.Inv) (answer : Answer) (s : Subscriber) (nif : NifId) :
    (e.unsubscribeRsrc answer s nif).2.Inv := by
  cases nif with
  | agnss => exact ⟨forall_map h.agnss fun n hn => hn.unsubscribeRsrc s, h.internet, h.wifi, h.ds⟩
  | internet => exact ⟨h.agnss, h.internet.unsubscribeRsrc s, h.wifi, h.ds⟩
  | wifi => exact ⟨h.agnss, h.internet, h.wifi.unsubscribeRsrc s, h.ds⟩
  | ds => exact ⟨h.agnss, h.internet, h.wifi, forall_map h.ds fun n hn => hn.unsubscribeRsrc s⟩

theorem Inv.onRsrcEvent (h : e.Inv) (answer : Answer) (event : FrameworkEvent) (nif : NifId) :
    (e.onRsrcEvent answer event nif).Inv := by
  cases nif with
  | agnss => exact ⟨forall_map h.agnss fun n hn => hn.onRsrcEvent event, h.internet, h.wifi, h.ds⟩
  | internet => exact ⟨h.agnss, h.internet.onRsrcEvent event, h.wifi, h.ds⟩
  | wifi => exact ⟨h.agnss, h.internet, h.wifi.onRsrcEvent event, h.ds⟩
  | ds => exact ⟨h.agnss, h.internet, h.wifi, forall_map h.ds fun n hn => hn.onRsrcEvent event⟩

theorem Inv.releaseATL (h : e.Inv) (answer : Answer) (id : UInt32) (memory : List UInt8) :
    (e.releaseATL answer id memory).Inv := by
  unfold LocEng.releaseATL
  simp only
  have hagnss := h.unsubscribeRsrc answer ⟨.atl, id, memory, false⟩ .agnss
  have hinternet := hagnss.unsubscribeRsrc answer ⟨.atl, id, memory, false⟩ .internet
  split
  · exact hagnss
  split
  · exact hinternet
  · exact hinternet.unsubscribeRsrc answer _ .ds

theorem engineUp_of_quiet (hquiet : e.Quiet (.engineUp, answer)) : e.engineUp = e := by
  obtain ⟨hagnss, hinternet⟩ := hquiet
  have hmap : e.agnss.map Nif.dropAllSubscribers = e.agnss := by
    cases hsome : e.agnss with
    | none => rfl
    | some n => exact congrArg some (Nif.dropAllSubscribers_of_empty (hagnss n hsome))
  unfold LocEng.engineUp
  rw [hmap, Nif.dropAllSubscribers_of_empty hinternet]

theorem nif_inv_of_initial {n : Nif} (hinit : n.machine.Initial ∧ n.owed = 0) : n.Inv := by
  obtain ⟨⟨hstate, hempty⟩, howed⟩ := hinit
  exact ⟨⟨fun _ => hstate, howed ▸ Nat.zero_le 1, fun _ => howed⟩, fun _ => hempty⟩

theorem inv_invariant : quietSystem.Invariant Inv := by
  constructor
  · intro e hinit
    refine ⟨fun n hn => nif_inv_of_initial (hinit.agnss n hn), nif_inv_of_initial hinit.internet,
      nif_inv_of_initial hinit.wifi, fun n hn => ?_⟩
    rw [hinit.ds] at hn
    cases hn
  · rintro e ⟨op, answer⟩ e' h ⟨hquiet, -, rfl⟩
    cases op with
    | requestATL id memory type => exact h.subscribeRsrc answer _ _
    | releaseATL id memory => exact h.releaseATL answer id memory
    | requestSuplEs id memory =>
      show (e.requestSuplEs answer id memory).Inv
      unfold LocEng.requestSuplEs
      split
      · exact h.subscribeRsrc answer _ _
      · exact h.subscribeRsrc answer _ _
    | reqRelBIT type ipv4 ipv6 isReq =>
      cases isReq with
      | true => exact h.subscribeRsrc answer _ _
      | false => exact h.unsubscribeRsrc answer _ _
    | reqRelWifi senderId memory isReq =>
      cases isReq with
      | true => exact h.subscribeRsrc answer ⟨.wifi, senderId, memory, false⟩ .wifi
      | false => exact h.unsubscribeRsrc answer ⟨.wifi, senderId, memory, false⟩ .wifi
    | framework nif event => exact h.onRsrcEvent answer event nif
    | dataClientInit =>
      refine ⟨h.agnss, h.internet, h.wifi, fun n hn => ?_⟩
      obtain rfl := Option.some.inj hn
      exact ⟨fun _ => rfl, Nat.zero_le 1, fun _ => rfl⟩
    | engineDown => exact h
    | engineUp =>
      show e.engineUp.Inv
      rw [engineUp_of_quiet hquiet]
      exact h

/-- In the runs in which the engine comes up again only while the lists that it empties are empty,
no machine without subscribers keeps a connection. -/
theorem noneSurvives_of_reachable (he : quietSystem.Reachable e) : e.NoneSurvives := by
  have h := inv_invariant.reachable he
  exact ⟨fun n hn hempty => (h.agnss n hn).unused hempty, h.internet.unused, h.wifi.unused,
    fun n hn hempty => (h.ds n hn).unused hempty⟩

end Invariant

/-! ## Computed runs -/

section Runs

instance (e : LocEng) : (label : Op × Answer) → Decidable (e.Enabled label)
  | (.dataClientInit, _) => decidable_of_iff (e.ds.isNone = true) (by simp [Enabled])
  | (.requestATL _ _ _, _) => .isTrue trivial
  | (.releaseATL _ _, _) => .isTrue trivial
  | (.requestSuplEs _ _, _) => .isTrue trivial
  | (.reqRelBIT _ _ _ _, _) => .isTrue trivial
  | (.reqRelWifi _ _ _, _) => .isTrue trivial
  | (.framework _ _, _) => .isTrue trivial
  | (.engineDown, _) => .isTrue trivial
  | (.engineUp, _) => .isTrue trivial

instance (e : LocEng) : (label : Op × Answer) → Decidable (e.Quiet label)
  | (.engineUp, _) =>
    inferInstanceAs (Decidable ((∀ n ∈ e.agnss, n.machine.subscribers = []) ∧ _))
  | (.requestATL _ _ _, _) => .isTrue trivial
  | (.releaseATL _ _, _) => .isTrue trivial
  | (.requestSuplEs _ _, _) => .isTrue trivial
  | (.reqRelBIT _ _ _ _, _) => .isTrue trivial
  | (.reqRelWifi _ _ _, _) => .isTrue trivial
  | (.framework _ _, _) => .isTrue trivial
  | (.dataClientInit, _) => .isTrue trivial
  | (.engineDown, _) => .isTrue trivial

def started : LocEng where
  agnss := some ⟨AgpsStateMachine.newMachine, 0⟩
  internet := ⟨AgpsStateMachine.newMachine, 0⟩
  wifi := ⟨⟨.released, [], true⟩, 0⟩
  ds := none

theorem initial_started : started.Initial := by
  refine ⟨fun n hn => ?_, ⟨⟨rfl, rfl⟩, rfl⟩, ⟨⟨rfl, rfl⟩, rfl⟩, rfl⟩
  obtain rfl := Option.some.inj hn
  exact ⟨⟨rfl, rfl⟩, rfl⟩

def success : Answer := ⟨errSuccess, true⟩

def wifiRestart : List (Op × Answer) :=
  [(.requestATL 1 [] .supl, success), (.reqRelWifi 2 [] true, success),
    (.framework .agnss .granted, success), (.releaseATL 1 [], success),
    (.engineDown, success), (.engineUp, success)]

theorem noneSurvives_of_reachable_wifiRestart : ∃ e : LocEng,
    e.wifi.machine.state = .pending ∧ e.wifi.owed = 1 ∧ e.NoneSurvives := by
  have hrun : (System.follow (fun e label => Quiet e label ∧ Enabled e label) exec wifiRestart
      started).any (fun e => e.wifi.machine.state = .pending ∧ e.wifi.owed = 1) = true := by
    decide +kernel
  obtain ⟨e, he, hstate⟩ := (Option.any_eq_true _ _).mp hrun
  have hnone := noneSurvives_of_reachable
    (System.reachable_follow wifiRestart (.init initial_started) he)
  obtain ⟨hpending, howed⟩ := of_decide_eq_true hstate
  exact ⟨e, hpending, howed, hnone⟩

theorem not_noneSurvives : ∃ e : LocEng, system.Reachable e ∧ ¬ e.NoneSurvives := by
  have hinit : (system.restrict fun _ _ => True).Reachable started := .init initial_started
  have hrun : (System.follow (fun e label => True ∧ Enabled e label) exec
      [(.reqRelBIT .other 1 [] true, success), (.framework .internet .granted, success),
        (.engineDown, success), (.engineUp, success)] started).any (fun e =>
      e.internet.machine.subscribers = [] ∧ e.internet.machine.state = .acquired) = true := by
    decide +kernel
  obtain ⟨e, he, hstate⟩ := (Option.any_eq_true _ _).mp hrun
  obtain ⟨hempty, hacquired⟩ := of_decide_eq_true hstate
  refine ⟨e, (System.reachable_follow _ hinit he).of_restrict, fun hnone => ?_⟩
  have hreleased := (hnone.internet hempty).1
  simp_all

end Runs

end LocEng

end EtherDevice.Agps
