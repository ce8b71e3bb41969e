import Mathlib.Tactic.Common

/-!
# The queues of the camera library

`QCameraQueue` is a list that refuses entries and gives none while it is not active. A
queue is active from its construction; `flush` empties it and makes it inactive, `init`
makes it active again.
-/

namespace EtherDevice.PostProc

universe u

structure CameraQueue (α : Type u) where
  items : List α := []
  active : Bool := true
  deriving DecidableEq, Repr

namespace CameraQueue

variable {α : Type u} (q : CameraQueue α) (data : α) (node : Bool)

def init : CameraQueue α := { q with active := true }

def isEmpty : Bool := q.items.isEmpty

def enqueue : Bool × CameraQueue α :=
  if node && q.active then (true, { q with items := q.items ++ [data] }) else (false, q)

def peek : Option α := if q.active then q.items.head? else none

def dequeue : Option α × CameraQueue α :=
  match q.active, q.items with
  | true, data :: rest => (some data, { q with items := rest })
  | _, _ => (none, q)

def dequeueTail : Option α × CameraQueue α :=
  if q.active then (q.items.getLast?, { q with items := q.items.dropLast }) else (none, q)

def flush : List α × CameraQueue α :=
  if q.active then (q.items, ⟨[], false⟩) else ([], q)

def flushNodes (select : α → Bool) : List α × CameraQueue α :=
  if q.active then
    (q.items.filter select, { q with items := q.items.filter (!select ·) })
  else ([], q)

variable {q data node}

@[simp] theorem init_items : q.init.items = q.items := rfl

@[simp] theorem init_active : q.init.active = true := rfl

theorem isEmpty_iff : q.isEmpty = true ↔ q.items = [] := List.isEmpty_iff

@[simp] theorem enqueue_active : (q.enqueue data node).2.active = q.active := by
  unfold enqueue
  split <;> rfl

theorem enqueue_ok (hnode : node = true) (hactive : q.active = true) :
    q.enqueue data node = (true, ⟨q.items ++ [data], true⟩) := by
  obtain ⟨items, active⟩ := q
  subst hnode hactive
  rfl

theorem enqueue_true {q' : CameraQueue α} (h : q.enqueue data node = (true, q')) :
    q.active = true ∧ q' = ⟨q.items ++ [data], true⟩ := by
  obtain ⟨items, active⟩ := q
  unfold enqueue at h
  split at h
  · rename_i hok
    obtain ⟨-, rfl⟩ := Bool.and_eq_true_iff.mp hok
    exact ⟨rfl, (Prod.mk.inj h).2.symm⟩
  · cases h

theorem enqueue_items (hnode : node = true) (hactive : q.active = true) :
    (q.enqueue data node).2.items = q.items ++ [data] := by
  rw [enqueue_ok hnode hactive]

theorem enqueue_cases (q : CameraQueue α) (data : α) (node : Bool) :
    (q.enqueue data node).2.items = q.items ++ [data] ∨
      (q.enqueue data node).2.items = q.items := by
  unfold enqueue
  split
  · exact .inl rfl
  · exact .inr rfl

theorem mem_of_mem_enqueue {x : α} (hx : x ∈ (q.enqueue data node).2.items) :
    x ∈ q.items ∨ x = data := by
  rcases enqueue_cases q data node with h | h
  · rw [h] at hx
    simpa using hx
  · rw [h] at hx
    exact .inl hx

theorem dequeue_cases :
    (∃ data rest, q = ⟨data :: rest, true⟩ ∧ q.dequeue = (some data, ⟨rest, true⟩)) ∨
      q.dequeue = (none, q) ∧ (q.active = true → q.items = []) := by
  obtain ⟨items, active⟩ := q
  cases active with
  | false => exact .inr ⟨rfl, nofun⟩
  | true =>
    cases items with
    | nil => exact .inr ⟨rfl, fun _ => rfl⟩
    | cons data rest => exact .inl ⟨data, rest, rfl, rfl⟩

theorem dequeue_some {q' : CameraQueue α} (h : q.dequeue = (some data, q')) :
    q = ⟨data :: q'.items, true⟩ ∧ q'.active = true := by
  rcases dequeue_cases (q := q) with ⟨data', rest, rfl, hdeq⟩ | ⟨hnone, -⟩
  · cases hdeq.symm.trans h
    exact ⟨rfl, rfl⟩
  · cases hnone.symm.trans h

theorem peek_eq_some (h : q.dequeue.1 = some data) : q.peek = some data := by
  have hdequeue : q.dequeue = (some data, q.dequeue.2) := Prod.ext h rfl
  rw [(dequeue_some hdequeue).1]
  rfl

theorem dequeue_none (hq : q.items = []) : q.dequeue = (none, q) := by
  obtain ⟨items, active⟩ := q
  subst hq
  cases active <;> rfl

theorem items_of_dequeue (hactive : q.active = true) (h : q.dequeue.1 = none) : q.items = [] := by
  rcases dequeue_cases (q := q) with ⟨data, rest, -, hdeq⟩ | ⟨-, hempty⟩
  · rw [hdeq] at h
    cases h
  · exact hempty hactive

theorem dequeue_cons {rest : List α} (hactive : q.active = true) (hq : q.items = data :: rest) :
    q.dequeue = (some data, ⟨rest, true⟩) := by
  obtain ⟨items, active⟩ := q
  subst hactive hq
  rfl

theorem dequeue_items : q.dequeue.1.toList ++ q.dequeue.2.items = q.items := by
  rcases dequeue_cases (q := q) with ⟨data, rest, rfl, h⟩ | ⟨h, -⟩
  · rfl
  · rw [h]
    rfl

@[simp] theorem dequeue_active : q.dequeue.2.active = q.active := by
  rcases dequeue_cases (q := q) with ⟨data, rest, rfl, h⟩ | ⟨h, -⟩
  · rw [h]
  · rw [h]

@[simp] theorem dequeueTail_active : q.dequeueTail.2.active = q.active := by
  unfold dequeueTail
  split <;> rfl

theorem dequeueTail_enqueue (hnode : node = true) (hactive : q.active = true) :
    (q.enqueue data node).2.dequeueTail = (some data, q) := by
  rw [enqueue_ok hnode hactive]
  obtain ⟨items, active⟩ := q
  subst hactive
  simp [dequeueTail]

@[simp] theorem flush_queue_active : q.flush.2.active = false := by
  unfold flush
  split
  · rfl
  · simp_all

theorem flush_items : q.flush.1 ++ q.flush.2.items = q.items := by
  unfold flush
  split
  · exact List.append_nil _
  · rfl

theorem mem_of_mem_flush {x : α} (hx : x ∈ q.flush.1) : x ∈ q.items := by
  rw [← flush_items (q := q)]
  exact List.mem_append_left _ hx

theorem mem_of_mem_flush_items {x : α} (hx : x ∈ q.flush.2.items) : x ∈ q.items := by
  rw [← flush_items (q := q)]
  exact List.mem_append_right _ hx

theorem flush_items_nil (hactive : q.active = true) : q.flush.2.items = [] := by
  unfold flush
  rw [if_pos hactive]

theorem flushNodes_perm (q : CameraQueue α) (select : α → Bool) :
    ((q.flushNodes select).1 ++ (q.flushNodes select).2.items).Perm q.items := by
  unfold flushNodes
  split
  · exact List.filter_append_perm select q.items
  · exact .refl _

@[simp] theorem flushNodes_active (q : CameraQueue α) (select : α → Bool) :
    (q.flushNodes select).2.active = q.active := by
  unfold flushNodes
  split <;> rfl

def Tidy (q : CameraQueue α) : Prop := q.active = false → q.items = []

theorem tidy_of_active (h : q.active = true) : q.Tidy := fun hidle => by simp [h] at hidle

theorem Tidy.init : q.init.Tidy := tidy_of_active rfl

theorem Tidy.dequeue (h : q.Tidy) : q.dequeue.2.Tidy := by
  rcases dequeue_cases (q := q) with ⟨data, rest, -, hdeq⟩ | ⟨hdeq, -⟩
  · rw [hdeq]
    exact tidy_of_active rfl
  · rwa [hdeq]

theorem Tidy.flush_items (h : q.Tidy) : q.flush.2.items = [] := by
  cases hactive : q.active with
  | true => exact flush_items_nil hactive
  | false =>
    unfold flush
    simpa [hactive] using h hactive

theorem Tidy.flush (h : q.Tidy) : q.flush.2.Tidy := fun _ => h.flush_items

end CameraQueue

end EtherDevice.PostProc
