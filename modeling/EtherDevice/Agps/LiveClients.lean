import Mathlib
import EtherDevice.Agps.Bookkeeping

/-!
# Live clients

`LiveRun` has next to the machine the clients that subscribed, have not unsubscribed since, and
were not told `RSRC_DENIED` or `RSRC_RELEASED`. Each of them should have an active subscriber in
the list. `addSubscriber` does not look whether the subscriber that it finds is active, so that a
client that subscribes again before its last connection is closed is not served. In the runs
without that, no connection is released while a client is live, and each client is told the next
answer to the request for its connection.
-/

namespace EtherDevice.Agps

open Lib

def Call.tellsOff (client : Subscriber) : Call → Bool
  | .notify s .denied => s.equals client
  | .notify s .released => s.equals client
  | .notify _ _ => false
  | .setInactive _ => false
  | .sendRsrcRequest _ _ => false

/-- The machine with its live clients. -/
structure LiveRun where
  machine : AgpsStateMachine
  live : List Subscriber

namespace LiveRun

open AgpsStateMachine (Op)

variable (r : LiveRun)

def clientsAfter : Op → List Subscriber
  | .subscribe subscriber => subscriber :: r.live
  | .unsubscribe subscriber => r.live.filter fun client => !client.equals subscriber
  | .framework _ => r.live

def exec (op : Op) : LiveRun where
  machine := (r.machine.exec op).1
  live := (r.clientsAfter op).filter fun client =>
    !(r.machine.exec op).2.any fun call => call.tellsOff client

def system : System LiveRun Op :=
  .ofFunction (fun r => r.machine.Initial ∧ r.live = []) (fun _ _ => True) exec

def Served (client : Subscriber) : Prop :=
  ∃ s ∈ r.machine.subscribers, s.isInactive = false ∧ s.equals client = true

def Tells (op : Op) (client : Subscriber) (status : RsrcStatus) : Prop :=
  ∃ s : Subscriber, s.equals client = true ∧ .notify s status ∈ (r.machine.exec op).2

/-- Live clients are served. A connection is released only without one. The next answer to a
request is told to each of them, and if their request has to wait for the old connection to close,
they stay live until it is sent. -/
structure LiveRight : Prop where
  served : ∀ client ∈ r.live, r.Served client
  release : ∀ op, .releaseAgpsDataConn ∈ (r.machine.exec op).2.filterMap Call.nifRequest →
    (r.exec op).live = []
  granted : r.machine.state = .pending → ∀ client ∈ r.live,
    r.Tells (.framework .granted) client .granted
  denied : r.machine.state = .pending → ∀ client ∈ r.live,
    r.Tells (.framework .denied) client .denied
  closed : ∀ event, event = .released ∨ event = .denied → r.machine.state = .releasing →
    ∀ client ∈ r.live, client ∈ (r.exec (.framework event)).live ∧
      (r.exec (.framework event)).machine.state = .pending ∧
      (r.machine.exec (.framework event)).2.filterMap Call.nifRequest = [.requestAgpsDataConn]

/-- The new subscriber has the ID `INADDR_NONE`, as one of the list, and just one of the two is a
`BITSubscriber`. -/
def Mixes (subscriber : Subscriber) : Prop :=
  ∃ s ∈ r.machine.subscribers, s.id = inaddrNone ∧ subscriber.id = inaddrNone ∧
    ¬ (s.cls = .bit ↔ subscriber.cls = .bit)

def Reopens (subscriber : Subscriber) : Prop :=
  (r.machine.enforceSingleSubscriber && r.machine.hasSubscribers) = false ∧
    ∃ s ∈ r.machine.subscribers, s.equals subscriber = true ∧ s.isInactive = true

/-- No client subscribes again while its last connection is not closed, and none is taken for a
client of another class. -/
def Keeps : Op → Prop
  | .subscribe subscriber => ¬ r.Mixes subscriber ∧ ¬ r.Reopens subscriber
  | .unsubscribe _ => True
  | .framework _ => True

def liveSystem : System LiveRun Op := system.restrict Keeps

section Clients

variable {r : LiveRun} {v6 : Bool} {s t : Subscriber} {op : Op}

/-- The subscribers with the ID `INADDR_NONE` are the `BITSubscriber`s, or there are no such
`BITSubscriber`s. -/
def Plain (v6 : Bool) (s : Subscriber) : Prop := s.id = inaddrNone → (s.cls = .bit ↔ v6 = true)

def key (v6 : Bool) (s : Subscriber) : UInt32 × List UInt8 :=
  (s.id, if s.id = inaddrNone ∧ v6 = true then s.ipv6 else [])

theorem equals_iff_key (hs : Plain v6 s) : s.equals t = true ↔ key v6 s = key v6 t := by
  unfold key Subscriber.equals
  by_cases hid : s.id = t.id
  · by_cases hnone : s.id = inaddrNone
    · have hbit := hs hnone
      rw [← hid]
      simp only [hnone, true_and]
      grind
    · rw [← hid]
      cases hcls : s.cls <;> simp [hnone, Ne.symm hnone]
  · cases hcls : s.cls <;> simp [hid]

@[simp] theorem key_clone : key v6 s.clone = key v6 s := rfl

theorem Plain.setInactive (hs : Plain v6 s) : Plain v6 s.setInactive := by
  simp_all [setInactive_fields, Plain]

theorem Plain.clone (hs : Plain v6 s) : Plain v6 s.clone := hs

end Clients

section Invariant

variable {r : LiveRun} {v6 : Bool} {s t c : Subscriber} {op : Op}

structure Inv (v6 : Bool) (r : LiveRun) : Prop where
  bookkept : r.machine.Bookkept
  plain : ∀ s ∈ r.machine.subscribers, Plain v6 s
  plainLive : ∀ c ∈ r.live, Plain v6 c
  served : ∀ c ∈ r.live, ∃ s ∈ r.machine.subscribers, s.isInactive = false ∧ key v6 s = key v6 c

theorem Inv.not_confuses (h : r.Inv v6) (hs : Plain v6 s) : ¬ r.machine.Confuses s := by
  rintro ⟨t, ht, htcls, hscls, htid, hsid, -⟩
  exact hscls ((hs hsid).mpr ((h.plain t ht htid).mp htcls))

theorem mem_live_exec : c ∈ (r.exec op).live ↔ c ∈ r.clientsAfter op ∧
    ∀ call ∈ (r.machine.exec op).2, call.tellsOff c = false := by
  unfold exec
  simp [List.mem_filter]

theorem Inv.of_served (h : r.Inv v6) (hnew : ∀ s, op = .subscribe s → Plain v6 s)
    (hplain : ∀ s ∈ (r.machine.exec op).1.subscribers, Plain v6 s)
    (hserved : ∀ c ∈ (r.exec op).live,
      ∃ s ∈ (r.machine.exec op).1.subscribers, s.isInactive = false ∧ key v6 s = key v6 c) :
    (r.exec op).Inv v6 where
  bookkept := by
    refine h.bookkept.onRsrcEvent ?_
    cases op with
    | subscribe s => exact h.not_confuses (hnew s rfl)
    | unsubscribe s => trivial
    | framework event => trivial
  plain := hplain
  plainLive c hc := by
    obtain ⟨hc, -⟩ := mem_live_exec.mp hc
    cases op with
    | subscribe s =>
      rcases List.mem_cons.mp hc with rfl | hc
      · exact hnew c rfl
      · exact h.plainLive c hc
    | unsubscribe s => exact h.plainLive c (List.mem_filter.mp hc).1
    | framework event => exact h.plainLive c hc
  served := hserved

theorem Inv.exists_plain (h : r.Inv v6) (hmix : ¬ r.Mixes s) : ∃ v6, r.Inv v6 ∧ Plain v6 s := by
  by_cases hother : ∃ t ∈ r.machine.subscribers, t.id = inaddrNone
  · obtain ⟨t, ht, htid⟩ := hother
    refine ⟨v6, h, fun hsid => ?_⟩
    have hsame : t.cls = .bit ↔ s.cls = .bit := by
      by_contra hdiff
      exact hmix ⟨t, ht, htid, hsid, hdiff⟩
    exact hsame.symm.trans (h.plain t ht htid)
  · -- there is nobody to tell it from
    push Not at hother
    have hlive : ∀ c ∈ r.live, c.id ≠ inaddrNone := by
      intro c hc hcid
      obtain ⟨t, ht, -, hkey⟩ := h.served c hc
      exact hother t ht ((Prod.mk.inj hkey).1.trans hcid)
    have hkeep : ∀ v6', ∀ t : Subscriber, t.id ≠ inaddrNone → key v6' t = (t.id, []) := by
      simp_all [key]
    refine ⟨decide (s.cls = .bit), ⟨h.bookkept, fun t ht hid => absurd hid (hother t ht),
      fun c hc hid => absurd hid (hlive c hc), fun c hc => ?_⟩, fun _ => by simp⟩
    obtain ⟨t, ht, hactive, hkey⟩ := h.served c hc
    grind

theorem Inv.subscribe (h : r.Inv v6) (hs : Plain v6 s) (hopen : ¬ r.Reopens s) :
    (r.exec (.subscribe s)).Inv v6 := by
  have hnew : ∀ t, AgpsStateMachine.Op.subscribe s = .subscribe t → Plain v6 t := by
    rintro t ⟨rfl⟩
    exact hs
  rcases AgpsStateMachine.subscribeRsrc_cases r.machine 0 s with ⟨-, heq⟩ | ⟨hroom, hlist⟩
  · have heq : r.machine.exec (.subscribe s) = (r.machine, [.notify s .denied]) := heq
    refine h.of_served hnew (by rw [heq]; exact h.plain) fun c hc => ?_
    obtain ⟨hc, htold⟩ := mem_live_exec.mp hc
    rw [heq] at htold ⊢
    rcases List.mem_cons.mp hc with rfl | hc
    · simp_all [Call.tellsOff]
    · exact h.served c hc
  have hlist : (r.machine.exec (.subscribe s)).1.subscribers =
      (r.machine.addSubscriber s).subscribers := hlist
  have hadd := addSubscriber_cases r.machine s
  refine h.of_served hnew (fun t ht => ?_) fun c hc => ?_
  · rw [hlist] at ht
    rcases hadd with ⟨-, heq⟩ | ⟨-, heq⟩
    · rw [heq] at ht
      exact h.plain t ht
    · rw [heq] at ht
      rcases List.mem_cons.mp ht with rfl | ht
      · exact hs.clone
      · exact h.plain t ht
  · rw [hlist]
    obtain ⟨hc, -⟩ := mem_live_exec.mp hc
    rcases List.mem_cons.mp hc with rfl | hc
    · rcases hadd with ⟨⟨t, ht, hequal⟩, heq⟩ | ⟨-, heq⟩
      · rw [heq]
        refine ⟨t, ht, ?_, (equals_iff_key (h.plain t ht)).mp hequal⟩
        by_contra hinactive
        exact hopen ⟨hroom, t, ht, hequal, by simpa using hinactive⟩
      simp_all
    · obtain ⟨t, ht, hactive, hkey⟩ := h.served c hc
      exact ⟨t, mem_addSubscriber ht, hactive, hkey⟩

theorem Inv.unsubscribe (h : r.Inv v6) (u : Subscriber) : (r.exec (.unsubscribe u)).Inv v6 := by
  rcases AgpsStateMachine.unsubscribeRsrc_cases r.machine 0 u with
    ⟨-, hlist⟩ | ⟨i, t, hi, htu, hlist⟩
  · have hlist : (r.machine.exec (.unsubscribe u)).1.subscribers = r.machine.subscribers := hlist
    refine h.of_served nofun (by rw [hlist]; exact h.plain) fun c hc => ?_
    rw [hlist]
    obtain ⟨hc, -⟩ := mem_live_exec.mp hc
    exact h.served c (List.mem_filter.mp hc).1
  have hlist : (r.machine.exec (.unsubscribe u)).1.subscribers =
      (r.machine.leave i t).1.subscribers := hlist
  have ht : t ∈ r.machine.subscribers := List.mem_of_getElem? hi
  have hkeyt : key v6 t = key v6 u := (equals_iff_key (h.plain t ht)).mp htu
  have hother : ∀ c ∈ (r.exec (.unsubscribe u)).live, ∃ e ∈ r.machine.subscribers,
      e.isInactive = false ∧ key v6 e = key v6 c ∧ key v6 e ≠ key v6 t := by
    intro c hc
    obtain ⟨hc, hcu⟩ := List.mem_filter.mp (mem_live_exec.mp hc).1
    obtain ⟨e, he, hactive, hkey⟩ := h.served c hc
    refine ⟨e, he, hactive, hkey, fun heq => ?_⟩
    have hsame : c.equals u = true :=
      (equals_iff_key (h.plainLive c hc)).mpr (hkey.symm.trans (heq.trans hkeyt))
    simp [hsame] at hcu
  rcases leave_cases r.machine i t with ⟨-, heq⟩ | ⟨-, heq⟩
  · rw [heq] at hlist
    refine h.of_served nofun (fun s hs => ?_) fun c hc => ?_
    · rw [hlist] at hs
      obtain ⟨j, hj⟩ := List.mem_iff_getElem?.mp hs
      rw [List.getElem?_modify] at hj
      obtain ⟨e, hej, rfl⟩ := Option.map_eq_some_iff.mp hj
      have he := h.plain e (List.mem_of_getElem? hej)
      split
      · exact he.setInactive
      · exact he
    · rw [hlist]
      obtain ⟨e, he, hactive, hkey, hne⟩ := hother c hc
      obtain ⟨j, hj⟩ := List.mem_iff_getElem?.mp he
      refine ⟨e, List.mem_of_getElem? (i := j) ?_, hactive, hkey⟩
      grind
  · rw [heq] at hlist
    refine h.of_served nofun (fun s hs => ?_) fun c hc => ?_
    · rw [hlist] at hs
      exact h.plain s (List.mem_filter.mp hs).1
    · rw [hlist]
      obtain ⟨e, he, hactive, hkey, hne⟩ := hother c hc
      refine ⟨e, List.mem_filter.mpr ⟨he, ?_⟩, hactive, hkey⟩
      have hdiff : e.equals t = false := by
        by_contra hequal
        exact hne ((equals_iff_key (h.plain e he)).mp (by simpa using hequal))
      simp [hdiff]

theorem Inv.framework (h : r.Inv v6) (event : FrameworkEvent) :
    (r.exec (.framework event)).Inv v6 := by
  have hexec : r.machine.exec (.framework event) = r.machine.onRsrcEvent 0 event.toEvent := rfl
  rcases AgpsStateMachine.framework_cases r.machine 0 event with
    ⟨hlist, -⟩ | ⟨-, status, hstatus, heq⟩ | ⟨-, -, status, hstatus, heq⟩
  · rw [← hexec] at hlist
    refine h.of_served nofun (by rw [hlist]; exact h.plain) fun c hc => ?_
    rw [hlist]
    exact h.served c (mem_live_exec.mp hc).1
  · refine h.of_served nofun (by simp [hexec, heq]) fun c hc => ?_
    obtain ⟨hc, hnot⟩ := mem_live_exec.mp hc
    obtain ⟨e, he, -, hkey⟩ := h.served c hc
    have hoff := hnot (.notify e status) (by rw [hexec, heq]; exact List.mem_map_of_mem he)
    have hequal := (equals_iff_key (h.plain e he)).mpr hkey
    rcases hstatus with rfl | rfl
    · exact absurd (hequal.symm.trans hoff) nofun
    · exact absurd (hequal.symm.trans hoff) nofun
  · have hlist : (r.machine.exec (.framework event)).1.subscribers =
        r.machine.subscribers.filter fun s => !s.isInactive := by
      rw [hexec, heq]
      exact AgpsStateMachine.closed_subscribers r.machine
        (by rcases hstatus with rfl | rfl <;> nofun)
    refine h.of_served nofun (fun s hs => ?_) fun c hc => ?_
    · rw [hlist] at hs
      exact h.plain s (List.mem_filter.mp hs).1
    · rw [hlist]
      obtain ⟨e, he, hactive, hkey⟩ := h.served c (mem_live_exec.mp hc).1
      exact ⟨e, List.mem_filter.mpr ⟨he, by simp [hactive]⟩, hactive, hkey⟩

theorem inv_invariant : liveSystem.Invariant fun r => ∃ v6, r.Inv v6 := by
  constructor
  · rintro r ⟨hinit, hlive⟩
    have hnone : ∀ s, s ∉ r.machine.subscribers := by simp [hinit.subscribers]
    refine ⟨false, AgpsStateMachine.bookkept_invariant.init _ hinit,
      fun s hs => absurd hs (hnone s), ?_, ?_⟩
    · simp [hlive]
    · simp [hlive]
  · rintro r op r' ⟨v6, h⟩ ⟨hkeeps, -, rfl⟩
    cases op with
    | subscribe s =>
      obtain ⟨hmix, hopen⟩ := hkeeps
      obtain ⟨v6', h, hs⟩ := h.exists_plain hmix
      exact ⟨v6', h.subscribe hs hopen⟩
    | unsubscribe u => exact ⟨v6, h.unsubscribe u⟩
    | framework event => exact ⟨v6, h.framework event⟩

theorem Inv.release (h : r.Inv v6)
    (hsent : .releaseAgpsDataConn ∈ (r.machine.exec op).2.filterMap Call.nifRequest) :
    (r.exec op).live = [] := by
  rw [(h.bookkept.sendsRight op).1] at hsent
  unfold AgpsStateMachine.requestsOf at hsent
  split at hsent
  · simp at hsent
  cases op with
  | subscribe s => simp at hsent
  | unsubscribe u =>
    simp only at hsent
    split at hsent
    · rename_i hlast
      have hnone := hasActiveSubscribers_eq_false.mp hlast.2
      by_contra hlive
      obtain ⟨c, hc⟩ := List.exists_mem_of_ne_nil _ hlive
      obtain ⟨e, he, hactive, -⟩ := (h.unsubscribe u).served c hc
      rw [hnone e he] at hactive
      cases hactive
    · simp at hsent
  | framework event => simp at hsent

theorem Inv.closed (h : r.Inv v6) {status : RsrcStatus} {event : FrameworkEvent}
    (hstatus : status = .released ∨ status = .denied)
    (hexec : r.machine.exec (.framework event) = r.machine.closed status)
    (hstate : r.machine.state = .releasing) (hc : c ∈ r.live) :
    c ∈ (r.exec (.framework event)).live ∧ (r.exec (.framework event)).machine.state = .pending ∧
      (r.machine.exec (.framework event)).2.filterMap Call.nifRequest = [.requestAgpsDataConn] := by
  have hne : status ≠ .subscribe := by rcases hstatus with rfl | rfl <;> nofun
  obtain ⟨e, he, hactive, hkey⟩ := h.served c hc
  rcases AgpsStateMachine.closed_cases r.machine hne with ⟨-, heq⟩ | ⟨hall, -⟩
  · have hcalls := hexec.trans heq
    refine ⟨mem_live_exec.mpr ⟨hc, fun call hcall => ?_⟩, ?_, ?_⟩
    · rw [hcalls] at hcall
      rcases List.mem_append.mp hcall with hcall | hcall
      · obtain ⟨s, hs, rfl⟩ := List.mem_map.mp hcall
        obtain ⟨hs, hinactive⟩ := List.mem_filter.mp hs
        have hother : s.equals c = false := by
          by_contra hequal
          have hskey := (equals_iff_key (h.plain s hs)).mp (Bool.not_eq_false _ ▸ hequal)
          have hse : s ≠ e := by
            rintro rfl
            simp_all
          have hdiff := Distinct.not_equals h.bookkept.distinct hs he hse
          rw [(equals_iff_key (h.plain s hs)).mpr (hskey.trans hkey.symm)] at hdiff
          cases hdiff
        rcases hstatus with rfl | rfl
        · exact hother
        · exact hother
      · rw [List.mem_singleton.mp hcall]
        rfl
    · show (r.machine.exec (.framework event)).1.state = .pending
      rw [hcalls]
    · rw [(h.bookkept.sendsRight (.framework event)).1, hcalls]
      exact if_pos ⟨by simp [hstate], rfl⟩
  simp_all

theorem Inv.liveRight (h : r.Inv v6) : r.LiveRight where
  served c hc := by
    obtain ⟨e, he, hactive, hkey⟩ := h.served c hc
    exact ⟨e, he, hactive, (equals_iff_key (h.plain e he)).mpr hkey⟩
  release op hsent := h.release hsent
  granted hstate c hc := by
    obtain ⟨e, he, hactive, hkey⟩ := h.served c hc
    have hgranted : RsrcStatus.granted ≠ .subscribe := by simp
    refine ⟨e, (equals_iff_key (h.plain e he)).mpr hkey, ?_⟩
    show _ ∈ (r.machine.onRsrcEvent 0 .granted).2
    simp [AgpsStateMachine.onRsrcEvent, AgpsStateMachine.onPending, notifySubscribers_keep,
      Subscriber.forMe, hstate, he, hactive]
  denied hstate c hc := by
    obtain ⟨e, he, -, hkey⟩ := h.served c hc
    have hdenied : RsrcStatus.denied ≠ .subscribe := by simp
    refine ⟨e, (equals_iff_key (h.plain e he)).mpr hkey, ?_⟩
    show _ ∈ (r.machine.onRsrcEvent 0 .denied).2
    unfold AgpsStateMachine.onRsrcEvent
    simp only [hstate]
    unfold AgpsStateMachine.onPending
    rw [notifySubscribers_delete hdenied]
    exact List.mem_map_of_mem (List.mem_filter.mpr ⟨he, rfl⟩)
  closed event hevent hstate c hc := by
    rcases hevent with rfl | rfl
    · refine @Inv.closed r v6 c h .released .released (.inl rfl) ?_ hstate hc
      show r.machine.onRsrcEvent 0 .released = _
      unfold AgpsStateMachine.onRsrcEvent
      simp only [hstate]
      rfl
    · refine @Inv.closed r v6 c h .denied .denied (.inr rfl) ?_ hstate hc
      show r.machine.onRsrcEvent 0 .denied = _
      unfold AgpsStateMachine.onRsrcEvent
      simp only [hstate]
      rfl

/-- In the runs in which no client subscribes again before its last connection is closed, live
clients keep their connection. -/
theorem liveRight_of_reachable (hr : liveSystem.Reachable r) : r.LiveRight := by
  obtain ⟨v6, h⟩ := inv_invariant.reachable hr
  exact h.liveRight

instance (r : LiveRun) (s : Subscriber) : Decidable (r.Mixes s) :=
  inferInstanceAs (Decidable (∃ t ∈ r.machine.subscribers, _ ∧ _ ∧ ¬ _))

instance (r : LiveRun) (s : Subscriber) : Decidable (r.Reopens s) :=
  inferInstanceAs (Decidable (_ = false ∧ ∃ t ∈ r.machine.subscribers, _ ∧ _))

instance (r : LiveRun) : (op : Op) → Decidable (r.Keeps op)
  | .subscribe s => inferInstanceAs (Decidable (¬ r.Mixes s ∧ ¬ r.Reopens s))
  | .unsubscribe _ => .isTrue trivial
  | .framework _ => .isTrue trivial

def newRun : LiveRun := ⟨AgpsStateMachine.newMachine, []⟩

def joinsReleasing : List Op :=
  [.subscribe (AgpsStateMachine.wifiSubscriber 2), .framework .granted,
    .unsubscribe (AgpsStateMachine.wifiSubscriber 2),
    .subscribe (AgpsStateMachine.wifiSubscriber 3)]

theorem liveRight_of_reachable_joinsReleasing : ∃ r : LiveRun,
    r.machine.state = .releasing ∧ r.live = [AgpsStateMachine.wifiSubscriber 3] ∧
      r.LiveRight := by
  have hrun : (System.follow (fun r op => Keeps r op ∧ True) exec joinsReleasing newRun).any
      (fun r => r.machine.state = .releasing ∧ r.live = [AgpsStateMachine.wifiSubscriber 3]) =
        true := by
    decide +kernel
  obtain ⟨r, hr, hstate⟩ := (Option.any_eq_true _ _).mp hrun
  have hright := liveRight_of_reachable (System.reachable_follow joinsReleasing
    (.init ⟨AgpsStateMachine.initial_newMachine, rfl⟩) hr)
  obtain ⟨hreleasing, hlive⟩ := of_decide_eq_true hstate
  exact ⟨r, hreleasing, hlive, hright⟩

/-- A client subscribes again while its own connection is being released. -/
theorem not_liveRight : ∃ r, system.Reachable r ∧ ¬ r.LiveRight := by
  have hinit : (system.restrict fun _ _ => True).Reachable newRun :=
    .init ⟨AgpsStateMachine.initial_newMachine, rfl⟩
  have hrun : (System.follow (fun _ _ => True ∧ True) exec
      [.subscribe (AgpsStateMachine.wifiSubscriber 2), .framework .granted,
        .unsubscribe (AgpsStateMachine.wifiSubscriber 2),
        .subscribe (AgpsStateMachine.wifiSubscriber 2)] newRun).any (fun r =>
      r.machine.subscribers = [(AgpsStateMachine.wifiSubscriber 2).setInactive] ∧
        r.live = [AgpsStateMachine.wifiSubscriber 2]) = true := by
    decide +kernel
  obtain ⟨r, hr, hstate⟩ := (Option.any_eq_true _ _).mp hrun
  obtain ⟨hlist, hlive⟩ := of_decide_eq_true hstate
  refine ⟨r, (System.reachable_follow _ hinit hr).of_restrict, fun h => ?_⟩
  obtain ⟨s, hs, hactive, -⟩ := h.served _ (hlive ▸ List.mem_cons_self)
  rw [hlist, List.mem_singleton] at hs
  rw [hs] at hactive
  exact absurd hactive (by decide)

end Invariant

end LiveRun

end EtherDevice.Agps
