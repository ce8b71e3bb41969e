import Mathlib
import EtherDevice.Agps.StateMachine

/-!
# A subscriber that leaves

The handlers of `RSRC_UNSUBSCRIBE` notify with the subscriber of the list as the receiver. The
search that follows its deletion compares the receiver with every subscriber that is left.
-/

namespace EtherDevice.Agps.AgpsStateMachine

/-- The rounds of `notifySubscribers` read a receiver that they have deleted. The receiver is the
one at a position of the list until it is deleted. -/
def notifyReads (n : Notification) : Nat → Option Nat → List Subscriber → Bool
  | 0, _, _ => false
  | rounds + 1, rcver, l =>
    (rcver.isNone && !l.isEmpty) ||
      match l.findIdx? fun s => s.notifyRsrcStatus n with
      | none => false
      | some j =>
        let rcver := rcver.bind fun i => if i = j then none else some (if j < i then i - 1 else i)
        notifyReads n rounds rcver (l.eraseIdx j)

variable (m : AgpsStateMachine) (i : Nat) (s : Subscriber)

def readsDeleted : Bool :=
  m.state ≠ .released && !s.waitForCloseComplete &&
    notifyReads ⟨.only s, .unsubscribe, true⟩ m.subscribers.length (some i) m.subscribers

def notified (calls : List Call) : List (Subscriber × RsrcStatus) :=
  calls.filterMap fun
    | .notify s status => some (s, status)
    | _ => none

/-- The subscriber at a position is notified once and deleted, the other ones stay, and no deleted
one is read. -/
def Leaves (ret : Int) (subscriber : Subscriber) : Prop :=
  let r := m.unsubscribeRsrc ret subscriber
  notified r.2.2 = [(s, .unsubscribe)] ∧ r.2.1.subscribers = m.subscribers.eraseIdx i ∧
    m.readsDeleted i s = false

variable {m i s}

theorem notified_append (xs ys : List Call) : notified (xs ++ ys) = notified xs ++ notified ys :=
  List.filterMap_append

theorem notified_map (l : List Subscriber) (status : RsrcStatus) :
    notified (l.map fun t => .notify t status) = l.map fun t => (t, status) := by
  simp [notified, List.filterMap_map, Function.comp_def]

theorem onRsrcEvent_unsubscribe (ret : Int) (hstate : m.state ≠ .released)
    (hwait : s.waitForCloseComplete = false) :
    (m.onRsrcEvent ret (.unsubscribe i s)).1.subscribers =
        m.subscribers.filter (fun t => !t.equals s) ∧
      notified (m.onRsrcEvent ret (.unsubscribe i s)).2 =
        (m.subscribers.filter fun t => t.equals s).map fun t => (t, .unsubscribe) := by
  have hleave : m.leave i s = ({ m with subscribers := m.subscribers.filter fun t => !t.equals s },
      (m.subscribers.filter fun t => t.equals s).map fun t => .notify t .unsubscribe) := by
    rw [leave, if_neg (by simp [hwait]), notifySubscribers_delete (by decide)]
    rfl
  have hunused : ∀ m : AgpsStateMachine, m.releaseIfUnused.1.subscribers = m.subscribers ∧
      notified m.releaseIfUnused.2 = [] := by
    intro m
    unfold releaseIfUnused
    split_ifs <;> exact ⟨rfl, rfl⟩
  unfold onRsrcEvent
  cases hm : m.state with
  | released => exact absurd hm hstate
  | pending =>
    simp only [onPending, hleave, notified_append, notified_map, hunused, List.append_nil,
      and_self]
  | acquired =>
    simp only [onAcquired, hleave, notified_append, notified_map, hunused, List.append_nil,
      and_self]
  | releasing =>
    simp only [onReleasing, hleave, notified_map]
    split_ifs <;> exact ⟨rfl, trivial⟩

theorem notifyReads_deleted {n : Notification} {rounds : Nat} {l : List Subscriber} (h : l ≠ [])
    (hrounds : rounds ≠ 0) : notifyReads n rounds none l = true := by
  obtain ⟨rounds, rfl⟩ := Nat.exists_eq_succ_of_ne_zero hrounds
  simp [notifyReads, h]

theorem notifyReads_eq {n : Notification} {before behind : List Subscriber} {rounds : Nat}
    (hbefore : ∀ t ∈ before, t.notifyRsrcStatus n = false) (hs : s.notifyRsrcStatus n = true)
    (hne : before ++ behind ≠ []) :
    notifyReads n (rounds + 2) (some before.length) (before ++ s :: behind) = true := by
  have hfirst : (before ++ s :: behind).findIdx? (fun t => t.notifyRsrcStatus n) =
      some before.length := by
    simp [List.findIdx?_append, List.findIdx?_eq_none_iff.mpr hbefore, List.findIdx?_cons, hs]
  have hrest : (before ++ s :: behind).eraseIdx before.length = before ++ behind := by
    rw [List.eraseIdx_append_of_length_le (Nat.le_refl _), Nat.sub_self]
    rfl
  rw [notifyReads, hfirst]
  simp only [Option.bind_some, if_true, hrest, notifyReads_deleted hne (Nat.succ_ne_zero rounds),
    Bool.or_true]

/-- A subscriber that need not wait leaves as it should exactly if the machine is not released and
has no other subscriber. -/
theorem leaves_iff (m : AgpsStateMachine) (ret : Int) (subscriber s : Subscriber) (i : Nat)
    (hindex : m.subscribers.findIdx (fun t => t.equals subscriber) = i)
    (hfound : m.subscribers[i]? = some s) (hwait : s.waitForCloseComplete = false) :
    m.Leaves i s ret subscriber ↔ m.state ≠ .released ∧ m.subscribers = [s] := by
  have hresult :
      m.unsubscribeRsrc ret subscriber = (true, m.onRsrcEvent ret (.unsubscribe i s)) := by
    unfold unsubscribeRsrc
    simp only [Subscriber.forMe, hindex, hfound]
  obtain ⟨hlt, hget⟩ := List.getElem?_eq_some_iff.mp hfound
  obtain ⟨before, behind, hsplit, hlength⟩ : ∃ before behind,
      m.subscribers = before ++ s :: behind ∧ before.length = i :=
    ⟨m.subscribers.take i, m.subscribers.drop (i + 1),
      by rw [← hget, List.getElem_cons_drop, List.take_append_drop], by simp [Nat.le_of_lt hlt]⟩
  unfold Leaves
  rw [hresult]
  by_cases hstate : m.state = .released
  · refine iff_of_false ?_ fun h => h.1 hstate
    rintro ⟨-, herase, -⟩
    have hlength := congrArg List.length herase
    simp only [onRsrcEvent, hstate, onReleased, List.length_eraseIdx_of_lt hlt] at hlength
    omega
  obtain ⟨hlist, hcalls⟩ := onRsrcEvent_unsubscribe (i := i) ret hstate hwait
  simp only [hlist, hcalls, readsDeleted, hwait]
  constructor
  · rintro ⟨hone, herase, hreads⟩
    refine ⟨hstate, ?_⟩
    rw [hsplit, ← hlength, List.eraseIdx_append_of_length_le (Nat.le_refl _), Nat.sub_self,
      List.filter_append, List.filter_cons_of_neg (by simp), List.eraseIdx_cons_zero] at herase
    -- the subscribers before the one that leaves do not equal it
    have hbefore : ∀ t ∈ before, t.equals s = false := by
      have hall := congrArg List.length herase
      have hle := List.length_filter_le (fun t => !t.equals s) before
      have hle' := List.length_filter_le (fun t => !t.equals s) behind
      rw [List.length_append, List.length_append] at hall
      have heq := List.length_filter_eq_length_iff.mp
        (show (before.filter fun t => !t.equals s).length = before.length by omega)
      exact fun t ht => by simpa using heq t ht
    by_contra hmore
    have hne : before ++ behind ≠ [] := by
      intro hnil
      obtain ⟨rfl, rfl⟩ := List.append_eq_nil_iff.mp hnil
      exact hmore hsplit
    obtain ⟨rounds, hrounds⟩ : ∃ rounds, m.subscribers.length = rounds + 2 := by
      have hpos := List.length_pos_iff.mpr hne
      rw [hsplit, List.length_append, List.length_cons]
      rw [List.length_append] at hpos
      exact ⟨before.length + behind.length - 1, by omega⟩
    rw [hrounds, hsplit, ← hlength, notifyReads_eq _ _ hne] at hreads
    · simp [hstate] at hreads
    · exact fun t ht => by simp [Subscriber.notifyRsrcStatus, Subscriber.forMe, hbefore t ht]
    · simp [Subscriber.notifyRsrcStatus, Subscriber.forMe]
  · rintro ⟨-, hsingle⟩
    obtain rfl : i = 0 := by
      rw [hsingle] at hlt
      simpa using hlt
    rw [hsingle]
    simp [notifyReads, Subscriber.notifyRsrcStatus, Subscriber.forMe]

theorem not_leaves : ¬ ∀ (m : AgpsStateMachine) (ret : Int) (subscriber s : Subscriber) (i : Nat),
    m.subscribers.findIdx (fun t => t.equals subscriber) = i → m.subscribers[i]? = some s →
      s.waitForCloseComplete = false → m.Leaves i s ret subscriber := by
  intro h
  have hleaves := h ⟨.pending, [⟨.atl, 1, [], false⟩, ⟨.atl, 2, [], false⟩], false⟩ 0
    ⟨.atl, 2, [], false⟩ ⟨.atl, 2, [], false⟩ 1 (by decide) rfl rfl
  exact absurd hleaves.2.2 (by decide)

theorem leaves_only : Leaves ⟨.pending, [⟨.atl, 1, [], false⟩], false⟩ 0 ⟨.atl, 1, [], false⟩ 0
    ⟨.atl, 1, [], false⟩ :=
  (leaves_iff ⟨.pending, [⟨.atl, 1, [], false⟩], false⟩ 0 ⟨.atl, 1, [], false⟩
    ⟨.atl, 1, [], false⟩ 0
    (by decide) rfl rfl).mpr ⟨by decide, rfl⟩

end EtherDevice.Agps.AgpsStateMachine
