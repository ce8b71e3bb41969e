import Mathlib
import EtherDevice.Agps.Bookkeeping

/-!
# The emergency data call

`DSStateMachine` runs the states of the base class for the data call of an emergency session. Its
requests may fail. A busy engine is asked again after a delay, up to `MAX_START_DATA_CALL_RETRIES`
times, and a request that fails otherwise falls back to a normal `ATL` request. A subscriber that
the framework tells off leaves the list. One that unsubscribes stays there until the call is closed,
but is inactive, and neither `retryCallback` nor `RSRC_GRANTED` concern it.
-/

namespace EtherDevice.Agps

open Lib

/-! ## Requests -/

inductive AdapterCall where
  | requestATL (id : UInt32)
  | closeDataCall
  | atlOpenStatus (id : UInt32)
  | atlCloseStatus (id : UInt32)
  | requestSuplES (id : UInt32)
  | dataCall (action : AGpsStatusValue)
  | locTimerStart (handle : Bool)
deriving DecidableEq

/-- What a request for the data call meets: the value of `openAndStartDataCall`, and whether
`loc_timer_start` gives a handle. -/
structure Answer where
  ret : Int
  handle : Bool

def errSuccess : Int := 0

def errUnsupported : Int := 2

def errEngineBusy : Int := 6

def maxStartDataCallRetries : Nat := 4

def dataCallCb (answer : Answer) : AGpsStatusValue → Int
  | .requestAgpsDataConn => answer.ret
  | .releaseAgpsDataConn => 0

def informStatus (mRetries : Nat) (status : RsrcStatus) (id : UInt32) : Nat × List AdapterCall :=
  match status with
  | .unsubscribe => (mRetries, [.atlCloseStatus id])
  | .released => (mRetries, [.closeDataCall])
  | .denied => (0, [.requestATL id])
  | .granted => (mRetries, [.atlOpenStatus id])
  | .subscribe => (mRetries, [])

def sendRsrcRequest (answer : Answer) (mRetries : Nat) (action : AGpsStatusValue)
    (subscribers : List Subscriber) : Int × Nat × List AdapterCall :=
  let connHandle := ((subscribers.find? fun s => s.forMe .active).map Subscriber.id).getD (-1)
  let ret := dataCallCb answer action
  if ret = errEngineBusy then
    let mRetries := mRetries + 1
    if mRetries > maxStartDataCallRetries then
      let (mRetries, calls) := informStatus mRetries .denied connHandle
      (ret, mRetries, .dataCall action :: calls)
    else
      -- a handle is taken for an error
      (if answer.handle then -1 else ret, mRetries,
        [.dataCall action, .locTimerStart answer.handle])
  else if ret = errUnsupported then
    let (mRetries, calls) := informStatus mRetries .denied connHandle
    (ret, mRetries, .dataCall action :: calls)
  else if ret = errSuccess then (ret, mRetries, [.dataCall action])
  else if ret = -1 then
    let (mRetries, calls) := informStatus mRetries .denied connHandle
    (ret, mRetries, .dataCall action :: calls)
  else (ret, mRetries, [.dataCall action])

/-- A `DSSubscriber` informs its machine. What other subscribers do is not recorded. -/
def Subscriber.inform (s : Subscriber) (mRetries : Nat) (status : RsrcStatus) :
    Nat × List AdapterCall :=
  if s.cls = .ds then informStatus mRetries status s.id else (mRetries, [])

def perform (answer : Answer) (mRetries : Nat) : List Call → Nat × List AdapterCall
  | [] => (mRetries, [])
  | .notify s status :: calls =>
    let (mRetries, informed) := s.inform mRetries status
    let (mRetries, rest) := perform answer mRetries calls
    (mRetries, informed ++ rest)
  | .setInactive s :: calls =>
    let (mRetries, informed) := s.inform mRetries .unsubscribe
    let (mRetries, rest) := perform answer mRetries calls
    (mRetries, informed ++ rest)
  | .sendRsrcRequest action subscribers :: calls =>
    let (_, mRetries, sent) := sendRsrcRequest answer mRetries action subscribers
    let (mRetries, rest) := perform answer mRetries calls
    (mRetries, sent ++ rest)

/-! ## The machine -/

structure DSStateMachine where
  base : AgpsStateMachine
  mRetries : Nat

def dsSubscriber (id : UInt32) : Subscriber := ⟨.ds, id, [], false⟩

namespace DSStateMachine

inductive Op where
  | subscribe (id : UInt32)
  | unsubscribe (id : UInt32)
  | framework (event : FrameworkEvent)
  | retry

variable (m : DSStateMachine)

def returned (answer : Answer) : Int :=
  (sendRsrcRequest answer m.mRetries .requestAgpsDataConn m.base.subscribers).1

/-- `DSStateMachine::onRsrcEvent`. `RSRC_RELEASED` in a state that does not know it is handled as
`RSRC_DENIED`. -/
def onRsrcEvent (answer : Answer) : FrameworkEvent → AgpsStateMachine × List Call
  | .granted => m.base.onRsrcEvent (m.returned answer) .granted
  | .released =>
    let next := m.base.onRsrcEvent (m.returned answer) .released
    if next.1.state ≠ m.base.state then next
    else
      let (base, calls) := next.1.onRsrcEvent (m.returned answer) .denied
      (base, next.2 ++ calls)
  | .denied => m.base.onRsrcEvent (m.returned answer) .denied

def handle (answer : Answer) : Op → AgpsStateMachine × List Call
  | .subscribe id => m.base.subscribeRsrc (m.returned answer) (dsSubscriber id)
  | .unsubscribe id => (m.base.unsubscribeRsrc (m.returned answer) (dsSubscriber id)).2
  | .framework event => m.onRsrcEvent answer event
  | .retry => (m.base, [])

def retryCallback : List AdapterCall :=
  match m.base.subscribers.find? fun s => s.forMe .active with
  | some s => [.requestSuplES s.id]
  | none => []

/-- `retryCallback` runs when a timer expires, and the other steps run handlers of the base
class. -/
def calls (answer : Answer) : Op → List AdapterCall
  | .retry => m.retryCallback
  | .subscribe id => (perform answer m.mRetries (m.handle answer (.subscribe id)).2).2
  | .unsubscribe id => (perform answer m.mRetries (m.handle answer (.unsubscribe id)).2).2
  | .framework event => (perform answer m.mRetries (m.handle answer (.framework event)).2).2

def exec (answer : Answer) (op : Op) : DSStateMachine where
  base := (m.handle answer op).1
  mRetries := (perform answer m.mRetries (m.handle answer op).2).1

end DSStateMachine

/-! ## The runs -/

def Call.toldOff : Call → Option UInt32
  | .notify s .denied => some s.id
  | .notify s .released => some s.id
  | .notify _ _ => none
  | .setInactive _ => none
  | .sendRsrcRequest _ _ => none

def delayedAfter : Nat → List AdapterCall → Nat
  | delayed, [] => delayed
  | _, .requestATL _ :: calls => delayedAfter 0 calls
  | delayed, .locTimerStart handle :: calls =>
    delayedAfter (if handle then delayed + 1 else delayed) calls
  | delayed, .closeDataCall :: calls => delayedAfter delayed calls
  | delayed, .atlOpenStatus _ :: calls => delayedAfter delayed calls
  | delayed, .atlCloseStatus _ :: calls => delayedAfter delayed calls
  | delayed, .requestSuplES _ :: calls => delayedAfter delayed calls
  | delayed, .dataCall _ :: calls => delayedAfter delayed calls

/-- The machine with its pending timers, and the clients that have not subscribed since the
framework told them off (`told`) or since they unsubscribed (`left`). -/
structure DataCallRun where
  machine : DSStateMachine
  timers : Nat
  told : List UInt32
  left : List UInt32
  delayed : Nat

namespace DataCallRun

open DSStateMachine (Op)

variable (r : DataCallRun)

def LeavesReleased (id : UInt32) : Prop :=
  r.machine.base.state = .released ∧ ∃ s ∈ r.machine.base.subscribers, s.id = id

instance (id : UInt32) : Decidable (r.LeavesReleased id) :=
  inferInstanceAs (Decidable (_ ∧ ∃ s ∈ r.machine.base.subscribers, _))

def toldAfter (answer : Answer) : Op → List UInt32
  | .subscribe id => r.told.filter fun old => old ≠ id
  | .unsubscribe _ => r.told
  | .framework event =>
    (r.machine.handle answer (.framework event)).2.filterMap Call.toldOff ++ r.told
  | .retry => r.told

def leftAfter : Op → List UInt32
  | .subscribe id => r.left.filter fun old => old ≠ id
  | .unsubscribe id => if r.LeavesReleased id then r.left else id :: r.left
  | .framework _ => r.left
  | .retry => r.left

def timersAfter : Op → Nat
  | .subscribe _ => r.timers
  | .unsubscribe _ => r.timers
  | .framework _ => r.timers
  | .retry => r.timers - 1

def Enabled : Op × Answer → Prop
  | (.subscribe _, _) => True
  | (.unsubscribe _, _) => True
  | (.framework _, _) => True
  | (.retry, _) => 0 < r.timers

def exec (label : Op × Answer) : DataCallRun where
  machine := r.machine.exec label.2 label.1
  timers := r.timersAfter label.1 + (r.machine.calls label.2 label.1).count (.locTimerStart true)
  told := r.toldAfter label.2 label.1
  left := r.leftAfter label.1
  delayed := delayedAfter r.delayed (r.machine.calls label.2 label.1)

structure Initial : Prop where
  base : r.machine.base.Initial
  enforceSingleSubscriber : r.machine.base.enforceSingleSubscriber = false
  mRetries : r.machine.mRetries = 0
  timers : r.timers = 0
  told : r.told = []
  left : r.left = []
  delayed : r.delayed = 0

def system : System DataCallRun (Op × Answer) := .ofFunction Initial Enabled exec

/-! ## What falling back should do -/

/-- Who was told off or has unsubscribed is not in the list. -/
def OutOfList : Prop := ∀ id ∈ r.told ++ r.left, ∀ s ∈ r.machine.base.subscribers, s.id ≠ id

/-- Who was told off is not in the list, and who has unsubscribed is inactive there until the call
is closed. Neither is asked for again, nor has a handle opened. -/
structure FallsBack : Prop where
  told : ∀ id ∈ r.told, ∀ s ∈ r.machine.base.subscribers, s.id ≠ id
  left : ∀ id ∈ r.left, ∀ s ∈ r.machine.base.subscribers, s.id = id → s.isInactive = true
  closed : ∀ answer event, event = .released ∧ r.machine.base.state ≠ .released ∨
      event = .denied ∧ (r.machine.base.state = .pending ∨ r.machine.base.state = .releasing) →
    ∀ s ∈ (r.machine.exec answer (.framework event)).base.subscribers, s.isInactive = false
  retry : ∀ id ∈ r.told ++ r.left, .requestSuplES id ∉ r.machine.retryCallback
  granted : ∀ answer, ∀ id ∈ r.told ++ r.left,
    .atlOpenStatus id ∉ r.machine.calls answer (.framework .granted)
  mRetries : r.machine.mRetries ≤ maxStartDataCallRetries
  delayed : r.delayed ≤ maxStartDataCallRetries
  reset : ∀ answer op, (∃ id, .requestATL id ∈ r.machine.calls answer op) →
    (∀ handle, .locTimerStart handle ∉ r.machine.calls answer op) →
      (r.machine.exec answer op).mRetries = 0

end DataCallRun

/-! ## Calls -/

section Calls

variable {answer : Answer} {mRetries : Nat} {id : UInt32} {status : RsrcStatus}
  {action : AGpsStatusValue} {subscribers : List Subscriber}

theorem delayedAfter_append (delayed : Nat) (calls calls' : List AdapterCall) :
    delayedAfter delayed (calls ++ calls') = delayedAfter (delayedAfter delayed calls) calls' := by
  induction calls generalizing delayed with
  | nil => rfl
  | cons call calls ih =>
    cases call with
    | requestATL id => exact ih 0
    | locTimerStart handle => exact ih _
    | closeDataCall => exact ih delayed
    | atlOpenStatus id => exact ih delayed
    | atlCloseStatus id => exact ih delayed
    | requestSuplES id => exact ih delayed
    | dataCall action => exact ih delayed

theorem sendRsrcRequest_eq_zero : (sendRsrcRequest answer mRetries action subscribers).1 = 0 ↔
    dataCallCb answer action = errSuccess := by
  unfold sendRsrcRequest
  simp only
  split
  · rename_i hbusy
    have hne : errEngineBusy ≠ 0 := by decide
    rw [hbusy]
    split
    · exact ⟨fun h => absurd h hne, fun h => absurd h hne⟩
    · refine ⟨fun h => ?_, fun h => absurd h hne⟩
      omega
  split
  · rfl
  split
  · rfl
  split
  · rfl
  · rfl

def CountsRight (mRetries : Nat) (next : Nat × List AdapterCall) : Prop :=
  ∀ delayed, delayed ≤ mRetries → mRetries ≤ maxStartDataCallRetries →
    delayedAfter delayed next.2 ≤ next.1 ∧ next.1 ≤ maxStartDataCallRetries

theorem countsRight_informStatus (mRetries : Nat) (status : RsrcStatus) (id : UInt32) :
    CountsRight mRetries (informStatus mRetries status id) := by
  intro delayed hdelayed hmax
  cases status with
  | denied => exact ⟨Nat.le_refl 0, Nat.zero_le _⟩
  | subscribe => exact ⟨hdelayed, hmax⟩
  | unsubscribe => exact ⟨hdelayed, hmax⟩
  | granted => exact ⟨hdelayed, hmax⟩
  | released => exact ⟨hdelayed, hmax⟩

theorem countsRight_inform (s : Subscriber) (mRetries : Nat) (status : RsrcStatus) :
    CountsRight mRetries (s.inform mRetries status) := by
  unfold Subscriber.inform
  split
  · exact countsRight_informStatus mRetries status s.id
  · exact fun delayed hdelayed hmax => ⟨hdelayed, hmax⟩

theorem countsRight_sendRsrcRequest (answer : Answer) (mRetries : Nat) (action : AGpsStatusValue)
    (subscribers : List Subscriber) :
    CountsRight mRetries (sendRsrcRequest answer mRetries action subscribers).2 := by
  intro delayed hdelayed hmax
  have hzero : 0 ≤ 0 ∧ 0 ≤ maxStartDataCallRetries := ⟨Nat.le_refl 0, Nat.zero_le _⟩
  unfold sendRsrcRequest
  simp only
  split
  · split
    · exact hzero
    · rename_i hroom
      refine ⟨?_, Nat.not_lt.mp hroom⟩
      cases answer.handle with
      | true => exact Nat.succ_le_succ hdelayed
      | false => exact Nat.le_succ_of_le hdelayed
  split
  · exact hzero
  split
  · exact ⟨hdelayed, hmax⟩
  split
  · exact hzero
  · exact ⟨hdelayed, hmax⟩

theorem countsRight_perform (answer : Answer) (mRetries : Nat) (calls : List Call) :
    CountsRight mRetries (perform answer mRetries calls) := by
  induction calls generalizing mRetries with
  | nil => exact fun delayed hdelayed hmax => ⟨hdelayed, hmax⟩
  | cons call calls ih =>
    intro delayed hdelayed hmax
    cases call with
    | notify s status =>
      obtain ⟨hcount, hbound⟩ := countsRight_inform s mRetries status _ hdelayed hmax
      have hrest := ih _ _ hcount hbound
      rw [← delayedAfter_append] at hrest
      exact hrest
    | setInactive s =>
      obtain ⟨hcount, hbound⟩ := countsRight_inform s mRetries .unsubscribe _ hdelayed hmax
      have hrest := ih _ _ hcount hbound
      rw [← delayedAfter_append] at hrest
      exact hrest
    | sendRsrcRequest action subscribers =>
      obtain ⟨hcount, hbound⟩ :=
        countsRight_sendRsrcRequest answer mRetries action subscribers _ hdelayed hmax
      have hrest := ih _ _ hcount hbound
      rw [← delayedAfter_append] at hrest
      exact hrest

def ResetsRight (mRetries : Nat) (next : Nat × List AdapterCall) : Prop :=
  (∀ handle, .locTimerStart handle ∉ next.2) →
    (next.1 = mRetries ∨ next.1 = 0) ∧ ((∃ id, .requestATL id ∈ next.2) → next.1 = 0)

theorem resetsRight_informStatus (mRetries : Nat) (status : RsrcStatus) (id : UInt32) :
    ResetsRight mRetries (informStatus mRetries status id) := by
  intro _
  cases status with
  | denied => exact ⟨.inr rfl, fun _ => rfl⟩
  | subscribe => exact ⟨.inl rfl, by simp [informStatus]⟩
  | unsubscribe => exact ⟨.inl rfl, by simp [informStatus]⟩
  | granted => exact ⟨.inl rfl, by simp [informStatus]⟩
  | released => exact ⟨.inl rfl, by simp [informStatus]⟩

theorem resetsRight_inform (s : Subscriber) (mRetries : Nat) (status : RsrcStatus) :
    ResetsRight mRetries (s.inform mRetries status) := by
  unfold Subscriber.inform
  split
  · exact resetsRight_informStatus mRetries status s.id
  · exact fun _ => ⟨.inl rfl, by simp⟩

theorem resetsRight_sendRsrcRequest (answer : Answer) (mRetries : Nat) (action : AGpsStatusValue)
    (subscribers : List Subscriber) :
    ResetsRight mRetries (sendRsrcRequest answer mRetries action subscribers).2 := by
  intro hquiet
  unfold sendRsrcRequest at hquiet ⊢
  simp only at hquiet ⊢
  split at hquiet
  · split at hquiet
    · rename_i hbusy hmany
      rw [if_pos hbusy, if_pos hmany]
      exact ⟨.inr rfl, fun _ => rfl⟩
    · exact absurd (by simp) (hquiet answer.handle)
  rename_i hbusy
  rw [if_neg hbusy]
  split
  · exact ⟨.inr rfl, fun _ => rfl⟩
  split
  · exact ⟨.inl rfl, by simp⟩
  split
  · exact ⟨.inr rfl, fun _ => rfl⟩
  · exact ⟨.inl rfl, by simp⟩

theorem ResetsRight.append {next next' : Nat × List AdapterCall} (h : ResetsRight mRetries next)
    (h' : ResetsRight next.1 next') : ResetsRight mRetries (next'.1, next.2 ++ next'.2) := by
  intro hquiet
  obtain ⟨hkeep, hreset⟩ := h fun handle hmem => hquiet handle (List.mem_append_left _ hmem)
  obtain ⟨hkeep', hreset'⟩ := h' fun handle hmem => hquiet handle (List.mem_append_right _ hmem)
  grind

theorem resetsRight_perform (answer : Answer) (mRetries : Nat) (calls : List Call) :
    ResetsRight mRetries (perform answer mRetries calls) := by
  induction calls generalizing mRetries with
  | nil => exact fun _ => ⟨.inl rfl, by simp [perform]⟩
  | cons call calls ih =>
    cases call with
    | notify s status => exact (resetsRight_inform s mRetries status).append (ih _)
    | setInactive s => exact (resetsRight_inform s mRetries .unsubscribe).append (ih _)
    | sendRsrcRequest action subscribers =>
      exact (resetsRight_sendRsrcRequest answer mRetries action subscribers).append (ih _)

theorem notify_of_atlOpenStatus {calls : List Call}
    (h : .atlOpenStatus id ∈ (perform answer mRetries calls).2) :
    ∃ s : Subscriber, s.id = id ∧ .notify s .granted ∈ calls := by
  have hinform : ∀ (s : Subscriber) mRetries status,
      .atlOpenStatus id ∈ (s.inform mRetries status).2 → status = .granted ∧ s.id = id := by
    intro s mRetries status hmem
    unfold Subscriber.inform at hmem
    split at hmem
    · cases status with
      | granted => simpa [informStatus, eq_comm] using hmem
      | subscribe => simp [informStatus] at hmem
      | unsubscribe => simp [informStatus] at hmem
      | released => simp [informStatus] at hmem
      | denied => simp [informStatus] at hmem
    · exact absurd hmem List.not_mem_nil
  induction calls generalizing mRetries with
  | nil => simp [perform] at h
  | cons call calls ih =>
    cases call with
    | notify s status =>
      rcases List.mem_append.mp h with h | h
      · obtain ⟨rfl, rfl⟩ := hinform _ _ _ h
        exact ⟨s, rfl, List.mem_cons_self⟩
      · obtain ⟨t, ht, hmem⟩ := ih h
        exact ⟨t, ht, List.mem_cons_of_mem _ hmem⟩
    | setInactive s =>
      rcases List.mem_append.mp h with h | h
      · obtain ⟨hstatus, -⟩ := hinform _ _ _ h
        cases hstatus
      · obtain ⟨t, ht, hmem⟩ := ih h
        exact ⟨t, ht, List.mem_cons_of_mem _ hmem⟩
    | sendRsrcRequest action subscribers =>
      rcases List.mem_append.mp h with h | h
      · have hnot : .atlOpenStatus id ∉
            (sendRsrcRequest answer mRetries action subscribers).2.2 := by
          unfold sendRsrcRequest
          simp only
          split_ifs <;> simp [informStatus]
        exact absurd h hnot
      · obtain ⟨t, ht, hmem⟩ := ih h
        exact ⟨t, ht, List.mem_cons_of_mem _ hmem⟩

end Calls

/-! ## The invariant -/

section Invariant

variable {m : DSStateMachine} {r : DataCallRun} {answer : Answer} {s t : Subscriber}
  {id : UInt32} {l : List Subscriber}

open DSStateMachine (Op)

theorem onRsrcEvent_released (m : DSStateMachine) (answer : Answer) :
    (m.base.state = .released ∨ m.base.state = .pending) ∧ m.onRsrcEvent answer .released =
        m.base.onRsrcEvent (m.returned answer) .denied ∨
      (m.base.state = .acquired ∨ m.base.state = .releasing) ∧ m.onRsrcEvent answer .released =
        m.base.onRsrcEvent (m.returned answer) .released := by
  have hidle : m.base.onRsrcEvent (m.returned answer) .released = (m.base, []) →
      m.onRsrcEvent answer .released = m.base.onRsrcEvent (m.returned answer) .denied := by
    simp_all [DSStateMachine.onRsrcEvent]
  have hleaves : (m.base.onRsrcEvent (m.returned answer) .released).1.state ≠ m.base.state →
      m.onRsrcEvent answer .released = m.base.onRsrcEvent (m.returned answer) .released := by
    intro hne
    exact if_pos hne
  cases hstate : m.base.state with
  | released =>
    simp [AgpsStateMachine.onRsrcEvent, AgpsStateMachine.onReleased, hidle, hstate]
  | pending =>
    simp [AgpsStateMachine.onRsrcEvent, AgpsStateMachine.onPending, hidle, hstate]
  | acquired =>
    refine .inr ⟨.inl rfl, hleaves ?_⟩
    simp only [AgpsStateMachine.onRsrcEvent, hstate]
    nofun
  | releasing =>
    refine .inr ⟨.inr rfl, hleaves ?_⟩
    simp only [AgpsStateMachine.onRsrcEvent, hstate]
    have hreleased : RsrcStatus.released ≠ .subscribe := nofun
    show (m.base.closed .released).1.state ≠ .releasing
    grind [AgpsStateMachine.closed_cases]

theorem onRsrcEvent_eq (m : DSStateMachine) (answer : Answer) (event : FrameworkEvent) :
    ∃ event' : FrameworkEvent,
      m.onRsrcEvent answer event = m.base.onRsrcEvent (m.returned answer) event'.toEvent := by
  cases event with
  | granted => exact ⟨.granted, rfl⟩
  | denied => exact ⟨.denied, rfl⟩
  | released =>
    rcases onRsrcEvent_released m answer with ⟨-, heq⟩ | ⟨-, heq⟩
    · exact ⟨.denied, heq⟩
    · exact ⟨.released, heq⟩

structure Entries (l : List Subscriber) : Prop where
  cls : ∀ s ∈ l, s.cls = .ds
  distinct : Distinct l

theorem Entries.equals_iff (h : Entries l) (hs : s ∈ l) : s.equals t = true ↔ s.id = t.id := by
  simp [Subscriber.equals, h.cls, hs]

theorem Entries.wait (h : Entries l) (hs : s ∈ l) : s.waitForCloseComplete = true := by
  unfold Subscriber.waitForCloseComplete
  rw [h.cls s hs]

theorem Entries.filter (h : Entries l) (p : Subscriber → Bool) : Entries (l.filter p) :=
  ⟨fun s hs => h.cls s (List.mem_filter.mp hs).1, h.distinct.filter p⟩

theorem Entries.nil : Entries [] := ⟨nofun, List.Pairwise.nil⟩

theorem mem_modify {i : Nat} (hs : s ∈ l.modify i .setInactive) : ∃ (j : Nat) (t : Subscriber),
    l[j]? = some t ∧ s = if i = j then t.setInactive else t := by
  obtain ⟨j, hj⟩ := List.mem_iff_getElem?.mp hs
  grind

theorem Entries.modify (h : Entries l) (i : Nat) : Entries (l.modify i .setInactive) := by
  refine ⟨fun s hs => ?_, h.distinct.modify i⟩
  obtain ⟨j, t, ht, rfl⟩ := mem_modify hs
  have hcls := h.cls t (List.mem_of_getElem? ht)
  split
  · exact setInactive_fields.1.trans hcls
  · exact hcls

theorem Entries.add {base : AgpsStateMachine} (h : Entries base.subscribers) (id : UInt32) :
    Entries (base.addSubscriber (dsSubscriber id)).subscribers := by
  have hclear : ¬ base.Confuses (dsSubscriber id) := by
    rintro ⟨s, hs, hcls, -⟩
    rw [h.cls s hs] at hcls
    cases hcls
  refine ⟨fun s hs => ?_, Distinct.add h.distinct hclear⟩
  rcases addSubscriber_cases base (dsSubscriber id) with ⟨-, heq⟩ | ⟨-, heq⟩
  · rw [heq] at hs
    exact h.cls s hs
  · rw [heq] at hs
    rcases List.mem_cons.mp hs with rfl | hs
    · rfl
    · exact h.cls s hs

namespace DataCallRun

structure Inv (r : DataCallRun) : Prop where
  enforceSingleSubscriber : r.machine.base.enforceSingleSubscriber = false
  entries : Entries r.machine.base.subscribers
  told : ∀ id ∈ r.told, ∀ s ∈ r.machine.base.subscribers, s.id ≠ id
  left : ∀ id ∈ r.left, ∀ s ∈ r.machine.base.subscribers, s.id = id → s.isInactive = true
  mRetries : r.machine.mRetries ≤ maxStartDataCallRetries
  delayed : r.delayed ≤ r.machine.mRetries

theorem Inv.not_active (h : r.Inv) (hid : id ∈ r.told ++ r.left)
    (hs : s ∈ r.machine.base.subscribers) (hactive : s.isInactive = false) : s.id ≠ id := by
  intro heq
  rcases List.mem_append.mp hid with htold | hleft
  · exact h.told id htold s hs heq
  · rw [h.left id hleft s hs heq] at hactive
    cases hactive

theorem Inv.counts (h : r.Inv) (answer : Answer) (op : Op) :
    (r.machine.exec answer op).mRetries ≤ maxStartDataCallRetries ∧
      delayedAfter r.delayed (r.machine.calls answer op) ≤ (r.machine.exec answer op).mRetries := by
  have hcounts := countsRight_perform answer r.machine.mRetries (r.machine.handle answer op).2
    r.delayed h.delayed h.mRetries
  cases op with
  | subscribe id => exact hcounts.symm
  | unsubscribe id => exact hcounts.symm
  | framework event => exact hcounts.symm
  | retry =>
    refine ⟨h.mRetries, ?_⟩
    show delayedAfter r.delayed r.machine.retryCallback ≤ r.machine.mRetries
    unfold DSStateMachine.retryCallback
    split
    · exact h.delayed
    · exact h.delayed

theorem Inv.subscribe (h : r.Inv) (answer : Answer) (id : UInt32) :
    (r.exec (.subscribe id, answer)).Inv := by
  have hcounts := h.counts answer (.subscribe id)
  have hnew : ∀ s ∈ (r.machine.handle answer (.subscribe id)).1.subscribers,
      s.id = id ∨ s ∈ r.machine.base.subscribers := by
    intro s hs
    rcases AgpsStateMachine.subscribeRsrc_cases r.machine.base (r.machine.returned answer)
        (dsSubscriber id) with ⟨hfull, -⟩ | ⟨-, hlist⟩
    · rw [h.enforceSingleSubscriber] at hfull
      cases hfull
    · rcases addSubscriber_cases r.machine.base (dsSubscriber id) with ⟨-, heq⟩ | ⟨-, heq⟩
      · exact .inr (heq ▸ hlist ▸ hs)
      · have hs : s ∈ (r.machine.base.addSubscriber (dsSubscriber id)).subscribers := hlist ▸ hs
        rw [heq] at hs
        rcases List.mem_cons.mp hs with rfl | hs
        · exact .inl rfl
        · exact .inr hs
  refine ⟨?_, ?_, fun old hold s hs => ?_, fun old hold s hs hid => ?_, hcounts.1, hcounts.2⟩
  · exact (subscribeRsrc_enforce _ _ _).trans h.enforceSingleSubscriber
  · show Entries (r.machine.base.subscribeRsrc _ _).1.subscribers
    rcases AgpsStateMachine.subscribeRsrc_cases r.machine.base (r.machine.returned answer)
        (dsSubscriber id) with ⟨-, heq⟩ | ⟨-, hlist⟩
    · rw [heq]
      exact h.entries
    · rw [hlist]
      exact h.entries.add id
  · obtain ⟨hold, hother⟩ := List.mem_filter.mp hold
    rcases hnew s hs with hid | hs
    · rw [hid]
      exact Ne.symm (of_decide_eq_true hother)
    · exact h.told old hold s hs
  · obtain ⟨hold, hother⟩ := List.mem_filter.mp hold
    rcases hnew s hs with hid' | hs
    · exact absurd (hid.symm.trans hid') (of_decide_eq_true hother)
    · exact h.left old hold s hs hid

theorem Inv.unsubscribe (h : r.Inv) (answer : Answer) (id : UInt32) :
    (r.exec (.unsubscribe id, answer)).Inv := by
  have hcounts := h.counts answer (.unsubscribe id)
  have henforce := (unsubscribeRsrc_enforce r.machine.base (r.machine.returned answer)
    (dsSubscriber id)).trans h.enforceSingleSubscriber
  have hleft : ∀ old ∈ r.leftAfter (.unsubscribe id),
      old ∈ r.left ∨ old = id ∧ ¬ r.LeavesReleased id := by
    grind [leftAfter]
  rcases AgpsStateMachine.unsubscribeRsrc_cases r.machine.base (r.machine.returned answer)
      (dsSubscriber id) with ⟨hnone, hlist⟩ | ⟨i, t, hi, htid, hlist⟩
  · have hlist : (r.exec (.unsubscribe id, answer)).machine.base.subscribers =
        r.machine.base.subscribers := hlist
    refine ⟨henforce, ?_, fun old hold s hs => ?_, fun old hold s hs hid => ?_, hcounts.1,
      hcounts.2⟩
    · rw [hlist]
      exact h.entries
    · rw [hlist] at hs
      exact h.told old hold s hs
    · rw [hlist] at hs
      rcases hleft old hold with hold | ⟨rfl, hup⟩
      · exact h.left old hold s hs hid
      · rcases hnone with hreleased | hnone
        · exact absurd ⟨hreleased, s, hs, hid⟩ hup
        · have hequal := (h.entries.equals_iff (t := dsSubscriber old) hs).mpr hid
          simp_all
  · have ht := List.mem_of_getElem? hi
    have hwait := h.entries.wait ht
    have hleave : r.machine.base.leave i t =
        ({ r.machine.base with subscribers := r.machine.base.subscribers.modify i .setInactive },
          [.setInactive t]) := if_pos hwait
    have hlist : (r.exec (.unsubscribe id, answer)).machine.base.subscribers =
        r.machine.base.subscribers.modify i .setInactive := by
      rw [hleave] at hlist
      exact hlist
    refine ⟨henforce, ?_, fun old hold s hs => ?_, fun old hold s hs hid => ?_, hcounts.1,
      hcounts.2⟩
    · rw [hlist]
      exact h.entries.modify i
    · rw [hlist] at hs
      obtain ⟨j, u, hj, rfl⟩ := mem_modify hs
      have hu := h.told old hold u (List.mem_of_getElem? hj)
      split
      · rw [setInactive_fields.2.1]
        exact hu
      · exact hu
    · rw [hlist] at hs
      obtain ⟨j, u, hj, rfl⟩ := mem_modify hs
      have hu := List.mem_of_getElem? hj
      by_cases hij : i = j
      · simp_all [isInactive_setInactive]
      · rw [if_neg hij] at hid ⊢
        rcases hleft old hold with hold | ⟨rfl, -⟩
        · exact h.left old hold u hu hid
        · -- the subscriber that leaves is the only one with its ID
          have hsame : t.equals u = true := (h.entries.equals_iff ht).mpr
            (((h.entries.equals_iff ht).mp htid).trans hid.symm)
          exact absurd (h.entries.distinct.index_eq hi hj hsame) hij

theorem Inv.framework (h : r.Inv) (answer : Answer) (event : FrameworkEvent) :
    (r.exec (.framework event, answer)).Inv := by
  have hcounts := h.counts answer (.framework event)
  obtain ⟨event', heq⟩ := onRsrcEvent_eq r.machine answer event
  have henforce := (onRsrcEvent_enforce r.machine.base (r.machine.returned answer)
    event'.toEvent).trans h.enforceSingleSubscriber
  rcases AgpsStateMachine.framework_cases r.machine.base (r.machine.returned answer) event' with
    ⟨hlist, hcalls⟩ | ⟨-, status, hstatus, hall⟩ | ⟨-, -, status, hstatus, hclosed⟩
  · rw [← heq] at henforce hlist hcalls
    have hnone : (r.machine.onRsrcEvent answer event).2.filterMap Call.toldOff = [] := by
      refine List.filterMap_eq_nil_iff.mpr fun call hcall => ?_
      obtain ⟨s, -, -, rfl⟩ := hcalls call hcall
      rfl
    have htold : (r.exec (.framework event, answer)).told = r.told :=
      congrArg (fun ids => ids ++ r.told) hnone
    have hlist : (r.exec (.framework event, answer)).machine.base.subscribers =
        r.machine.base.subscribers := hlist
    refine ⟨henforce, ?_, ?_, ?_, hcounts.1, hcounts.2⟩
    · rw [hlist]
      exact h.entries
    · rw [hlist, htold]
      exact h.told
    · rw [hlist]
      exact h.left
  · rw [← heq] at henforce hall
    have hlist : (r.exec (.framework event, answer)).machine.base.subscribers = [] :=
      congrArg (fun next => next.1.subscribers) hall
    refine ⟨henforce, ?_, ?_, ?_, hcounts.1, hcounts.2⟩
    · rw [hlist]
      exact Entries.nil
    · simp [hlist]
    · simp [hlist]
  · rw [← heq] at henforce hclosed
    have hne : status ≠ .subscribe := by rcases hstatus with rfl | rfl <;> nofun
    have hlist : (r.exec (.framework event, answer)).machine.base.subscribers =
        r.machine.base.subscribers.filter fun s => !s.isInactive :=
      (congrArg (fun next => next.1.subscribers) hclosed).trans
        (AgpsStateMachine.closed_subscribers r.machine.base hne)
    have htold : ∀ id ∈ (r.exec (.framework event, answer)).told, id ∈ r.told ∨
        ∃ s ∈ r.machine.base.subscribers, s.isInactive = true ∧ s.id = id := by
      intro id hid
      rcases List.mem_append.mp hid with hid | hid
      · obtain ⟨call, hcall, htells⟩ := List.mem_filterMap.mp hid
        have hcall : call ∈ (r.machine.base.closed status).2 := hclosed ▸ hcall
        have hmem : call ∈ (r.machine.base.subscribers.filter fun s => s.isInactive).map
            fun s => Call.notify s status := by
          rcases AgpsStateMachine.closed_cases r.machine.base hne with ⟨-, heq⟩ | ⟨-, heq⟩
          · rw [heq] at hcall
            rcases List.mem_append.mp hcall with hcall | hcall
            · exact hcall
            · rw [List.mem_singleton.mp hcall] at htells
              cases htells
          · rw [heq] at hcall
            exact hcall
        obtain ⟨s, hs, rfl⟩ := List.mem_map.mp hmem
        obtain ⟨hs, hinactive⟩ := List.mem_filter.mp hs
        refine .inr ⟨s, hs, hinactive, ?_⟩
        rcases hstatus with rfl | rfl
        · exact Option.some.inj htells
        · exact Option.some.inj htells
      · exact .inl hid
    refine ⟨henforce, ?_, fun id hid s hs => ?_, fun id hid s hs hsid => ?_, hcounts.1, hcounts.2⟩
    · rw [hlist]
      exact h.entries.filter _
    · rw [hlist] at hs
      obtain ⟨hs, hactive⟩ := List.mem_filter.mp hs
      rcases htold id hid with hid | ⟨t, ht, hinactive, rfl⟩
      · exact h.told id hid s hs
      · -- the inactive one is another subscriber, and so has another ID
        intro hsame
        have hne : s ≠ t := by
          rintro rfl
          simp_all
        have hdiff := h.entries.distinct.not_equals hs ht hne
        rw [(h.entries.equals_iff hs).mpr hsame] at hdiff
        cases hdiff
    · rw [hlist] at hs
      exact h.left id hid s (List.mem_filter.mp hs).1 hsid

theorem inv_invariant : system.Invariant Inv := by
  constructor
  · intro r hinit
    have hnone := hinit.base.subscribers
    refine ⟨hinit.enforceSingleSubscriber, ?_, ?_, ?_, ?_, ?_⟩
    · rw [hnone]
      exact Entries.nil
    · simp [hnone]
    · simp [hnone]
    · rw [hinit.mRetries]
      exact Nat.zero_le _
    · rw [hinit.delayed]
      exact Nat.zero_le _
  · rintro r ⟨op, answer⟩ r' h ⟨-, rfl⟩
    cases op with
    | subscribe id => exact h.subscribe answer id
    | unsubscribe id => exact h.unsubscribe answer id
    | framework event => exact h.framework answer event
    | retry =>
      obtain ⟨hbound, hdelayed⟩ := h.counts answer .retry
      exact ⟨h.enforceSingleSubscriber, h.entries, h.told, h.left, hbound, hdelayed⟩

theorem active_of_closed (m : DSStateMachine) (answer : Answer) {event : FrameworkEvent}
    (hevent : event = .released ∧ m.base.state ≠ .released ∨
      event = .denied ∧ (m.base.state = .pending ∨ m.base.state = .releasing)) :
    ∀ s ∈ (m.onRsrcEvent answer event).1.subscribers, s.isInactive = false := by
  have hdropped : ∀ status : RsrcStatus, status ≠ .subscribe → ∀ s ∈ ({ m.base with
      state := .released }.notifySubscribers ⟨.all, status, true⟩).1.subscribers,
        s.isInactive = false := by
    simp_all [notifySubscribers_delete, Subscriber.forMe]
  have hclosed : ∀ status : RsrcStatus, status ≠ .subscribe →
      ∀ s ∈ (m.base.closed status).1.subscribers, s.isInactive = false := by
    simp_all [AgpsStateMachine.closed_subscribers]
  have hdenied : m.base.state = .pending ∨ m.base.state = .releasing →
      ∀ s ∈ (m.base.onRsrcEvent (m.returned answer) .denied).1.subscribers,
        s.isInactive = false := by
    rintro (hstate | hstate)
    · simp only [AgpsStateMachine.onRsrcEvent, hstate]
      exact hdropped .denied (by simp)
    · simp only [AgpsStateMachine.onRsrcEvent, hstate]
      exact hclosed .denied (by simp)
  rcases hevent with ⟨rfl, hstate⟩ | ⟨rfl, hstate⟩
  · rcases onRsrcEvent_released m answer with ⟨hup, heq⟩ | ⟨hup, heq⟩
    · simp_all
    · rw [heq]
      rcases hup with hup | hup
      · simp only [AgpsStateMachine.onRsrcEvent, hup]
        exact hdropped .released (by simp)
      · simp only [AgpsStateMachine.onRsrcEvent, hup]
        exact hclosed .released (by simp)
  · exact hdenied hstate

theorem Inv.fallsBack (h : r.Inv) : r.FallsBack where
  told := h.told
  left := h.left
  closed answer event hevent := active_of_closed r.machine answer hevent
  retry id hid hmem := by
    unfold DSStateMachine.retryCallback at hmem
    split at hmem
    · rename_i s hfind
      have hs := List.mem_of_find?_eq_some hfind
      have hactive : s.isInactive = false := by
        simpa [Subscriber.forMe] using List.find?_some hfind
      refine h.not_active hid hs hactive ?_
      simpa [eq_comm] using hmem
    · exact absurd hmem List.not_mem_nil
  granted answer id hid hmem := by
    obtain ⟨s, hsid, hnotify⟩ := notify_of_atlOpenStatus hmem
    rcases AgpsStateMachine.framework_cases r.machine.base (r.machine.returned answer) .granted
      with ⟨-, hcalls⟩ | ⟨hnot, -⟩ | ⟨hnot, -⟩
    · obtain ⟨t, ht, hactive, heq⟩ := hcalls _ hnotify
      cases heq
      exact h.not_active hid ht hactive hsid
    · exact hnot rfl
    · exact hnot rfl
  mRetries := h.mRetries
  delayed := Nat.le_trans h.delayed h.mRetries
  reset answer op hfell hquiet := by
    have hreset := resetsRight_perform answer r.machine.mRetries (r.machine.handle answer op).2
    cases op with
    | subscribe id => exact (hreset hquiet).2 hfell
    | unsubscribe id => exact (hreset hquiet).2 hfell
    | framework event => exact (hreset hquiet).2 hfell
    | retry =>
      obtain ⟨id, hmem⟩ := hfell
      have hnot : .requestATL id ∉ r.machine.retryCallback := by
        unfold DSStateMachine.retryCallback
        split
        · simp
        · simp
      exact absurd hmem hnot

/-- In every run, who was told off by the framework or has unsubscribed is out of the list or
inactive, and a busy engine is asked again at most `MAX_START_DATA_CALL_RETRIES` times. -/
theorem fallsBack_of_reachable (hr : system.Reachable r) : r.FallsBack :=
  (inv_invariant.reachable hr).fallsBack

/-! ## Computed runs -/

instance (r : DataCallRun) : (label : Op × Answer) → Decidable (r.Enabled label)
  | (.subscribe _, _) => .isTrue trivial
  | (.unsubscribe _, _) => .isTrue trivial
  | (.framework _, _) => .isTrue trivial
  | (.retry, _) => inferInstanceAs (Decidable (0 < r.timers))

def newRun : DataCallRun := ⟨⟨⟨.released, [], false⟩, 0⟩, 0, [], [], 0⟩

theorem initial_newRun : newRun.Initial := ⟨⟨rfl, rfl⟩, rfl, rfl, rfl, rfl, rfl, rfl⟩

/-- The engine is busy at first, and the client unsubscribes before its call is closed. -/
def retriedAndLeft : List (Op × Answer) :=
  [(.subscribe 1, ⟨errEngineBusy, true⟩), (.retry, ⟨errSuccess, true⟩),
    (.subscribe 1, ⟨errSuccess, true⟩), (.framework .granted, ⟨errSuccess, true⟩),
    (.unsubscribe 1, ⟨errSuccess, true⟩)]

theorem fallsBack_of_reachable_retriedAndLeft : ∃ r : DataCallRun,
    r.machine.base.state = .releasing ∧ r.left = [1] ∧ r.delayed = 1 ∧ r.FallsBack := by
  have hrun : (System.follow (fun r label => True ∧ Enabled r label) exec retriedAndLeft newRun).any
      (fun r => r.machine.base.state = .releasing ∧ r.left = [1] ∧ r.delayed = 1) = true := by
    decide +kernel
  obtain ⟨r, hr, hstate⟩ := (Option.any_eq_true _ _).mp hrun
  have hinit : (system.restrict fun _ _ => True).Reachable newRun := .init initial_newRun
  have hfalls := fallsBack_of_reachable (System.reachable_follow _ hinit hr).of_restrict
  obtain ⟨hreleasing, hleft, hdelayed⟩ := of_decide_eq_true hstate
  exact ⟨r, hreleasing, hleft, hdelayed, hfalls⟩

/-- A client that unsubscribes is in the list until its call is closed. -/
theorem not_outOfList : ∃ r : DataCallRun, system.Reachable r ∧ ¬ r.OutOfList := by
  have hinit : (system.restrict fun _ _ => True).Reachable newRun := .init initial_newRun
  have hrun : (System.follow (fun r label => True ∧ Enabled r label) exec
      [(.subscribe 1, ⟨errSuccess, true⟩), (.unsubscribe 1, ⟨errSuccess, true⟩)] newRun).any
      (fun r => r.machine.base.subscribers = [(dsSubscriber 1).setInactive] ∧ r.left = [1]) =
        true := by
    decide +kernel
  obtain ⟨r, hr, hstate⟩ := (Option.any_eq_true _ _).mp hrun
  obtain ⟨hlist, hleft⟩ := of_decide_eq_true hstate
  refine ⟨r, (System.reachable_follow _ hinit hr).of_restrict, fun hout => ?_⟩
  refine hout 1 ?_ (dsSubscriber 1).setInactive ?_ rfl
  · simp [hleft]
  simp [hlist]

end DataCallRun

end Invariant

end EtherDevice.Agps
