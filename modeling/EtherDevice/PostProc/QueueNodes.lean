import Mathlib
import EtherDevice.MmJpeg.Queue
import EtherDevice.PostProc.CameraQueue

/-!
# The nodes of a camera queue

`QCameraQueue` keeps its entries in a cyclic list of nodes with a sentinel. Every operation does to
them what `CameraQueue` says.
-/

namespace EtherDevice.PostProc

open Lib Lib.Linked

/-- `QCameraQueue`: `m_head`, `m_size` and the nodes, and `m_active`. -/
structure QueueNodes extends MmJpeg.Queue where
  m_active : Bool := true

namespace QueueNodes

/-- The operations, the first two with the node that is allocated. The match functions are applied
to the data of a node, `0` is the null pointer. -/
inductive Op
  | init
  | enqueue (node : Option Nat) (data : Nat)
  | enqueueWithPriority (node : Option Nat) (data : Nat)
  | dequeue (bFromHead : Bool)
  | flush
  | flushNodes (select : Option (Nat → Bool))

variable (q : QueueNodes)

def enqueue (node : Option Nat) (data : Nat) : Bool × QueueNodes :=
  match node, q.m_active with
  | some a, true => (true, { q with toQueue := q.enq (some a) data })
  | _, _ => (false, q)

def enqueueWithPriority (node : Option Nat) (data : Nat) : Bool × QueueNodes :=
  match node, q.m_active with
  | some a, true =>
    (true, { q with
      toQueue := { q.alloc a data with
        list := q.list.insert none (some a) (q.list.next none)
        size := q.size + 1 } })
  | _, _ => (false, q)

def dequeue (bFromHead : Bool) : Nat × QueueNodes :=
  if q.m_active then
    match if bFromHead then q.list.next none else q.list.prev none with
    | none => (0, q)
    | some a => (q.data a, { q with toQueue := (q.unlink a).free a })
  else (0, q)

def flushLoop (select : Nat → Bool) : Nat → MmJpeg.Queue → Option Nat → MmJpeg.Queue
  | 0, t, _ => { t with faulted := true }
  | _ + 1, t, none => t
  | fuel + 1, t, some a =>
    let pos := t.list.next (some a)
    let t := { t with faulted := t.faulted || decide (a ∉ t.live) }
    flushLoop select fuel (if select (t.data a) then t.flushNode a else t) pos

def flush : QueueNodes :=
  if q.m_active then
    { q with
      toQueue := { flushLoop (fun _ => true) (q.live.length + 1) q.toQueue (q.list.next none) with
        size := 0 }
      m_active := false }
  else q

def flushNodes : Option (Nat → Bool) → QueueNodes
  | none => q
  | some select =>
    if q.m_active then
      { q with toQueue := flushLoop select (q.live.length + 1) q.toQueue (q.list.next none) }
    else q

def exec (q : QueueNodes) : Op → QueueNodes
  | .init => { q with m_active := true }
  | .enqueue node data => (q.enqueue node data).2
  | .enqueueWithPriority node data => (q.enqueueWithPriority node data).2
  | .dequeue bFromHead => (q.dequeue bFromHead).2
  | .flush => q.flush
  | .flushNodes select => q.flushNodes select

def Enabled : Op → Prop
  | .enqueue node _ | .enqueueWithPriority node _ => ∀ a ∈ node, a ∉ q.live
  | _ => True

def abstract (nodes : List Nat) : CameraQueue Nat := ⟨nodes.map q.data, q.m_active⟩

/-- The queue is well formed, and an operation keeps it so, returns and releases what it does for
the sequence of the entries, and leaves that sequence. -/
def Refines (op : Op) : Prop :=
  (∃ nodes, q.Holds nodes) ∧ ∀ nodes, q.Holds nodes → ∃ nodes', (q.exec op).Holds nodes' ∧
    let c := q.abstract nodes
    let c' := (q.exec op).abstract nodes'
    match op with
    | .init => c' = c.init
    | .enqueue node d => ((q.enqueue node d).1, c') = c.enqueue d node.isSome
    | .enqueueWithPriority node d => ((q.enqueueWithPriority node d).1, c') =
        if node.isSome && c.active then (true, { c with items := d :: c.items }) else (false, c)
    | .dequeue true => ((q.dequeue true).1, c') = c.dequeue.map (·.getD 0) id
    | .dequeue false => ((q.dequeue false).1, c') = c.dequeueTail.map (·.getD 0) id
    | .flush => (q.exec .flush).released = q.released ++ c.flush.1.filter (· ≠ 0) ∧ c' = c.flush.2
    | .flushNodes none => c' = c
    | .flushNodes (some select) => (q.exec (.flushNodes (some select))).released =
        q.released ++ (c.flushNodes select).1.filter (· ≠ 0) ∧ c' = (c.flushNodes select).2

variable {q}

theorem flushLoop_holds {f : Nat → Bool} {k : Nat} {t : MmJpeg.Queue} {u v : List Nat}
    (h : t.Holds (u ++ v)) (hfuel : v.length < k) :
    (flushLoop f k t v.head?).Holds (u ++ v.filter fun a => !f (t.data a)) ∧
      (flushLoop f k t v.head?).data = t.data ∧
        (flushLoop f k t v.head?).released =
          t.released ++ ((v.map t.data).filter f).filter (· ≠ 0) := by
  induction v generalizing k t u with
  | nil =>
    obtain ⟨k, rfl⟩ := Nat.exists_eq_add_of_lt hfuel
    simpa [flushLoop] using h
  | cons a v ih =>
    obtain ⟨k, rfl⟩ := Nat.exists_eq_add_of_lt (Nat.zero_lt_of_lt hfuel)
    have hlive : a ∈ t.live := h.live.mem_iff.mpr (by simp)
    have hsame : { t with faulted := t.faulted || decide (a ∉ t.live) } = t := by
      simp [hlive]
    have hnext : t.list.next (some a) = v.head? := (Lists.around h.lists).1
    rw [Nat.zero_add, List.head?_cons, flushLoop, hsame, hnext]
    cases hselect : f (t.data a) with
    | true =>
      have hremoved := h.remove
      obtain ⟨hholds, hdata, hreleased⟩ := ih (t := t.flushNode a) (k := k)
        ⟨hremoved.lists, hremoved.size, hremoved.live, hremoved.sound⟩ (by simpa using hfuel)
      rw [if_pos rfl]
      refine ⟨?_, hdata, ?_⟩
      · rw [List.filter_cons_of_neg (by simp [hselect])]
        exact hholds
      · rw [hreleased]
        by_cases hzero : t.data a = 0 <;> simp [MmJpeg.Queue.flushNode, MmJpeg.Queue.unlink,
          MmJpeg.Queue.free, hselect, hzero]
    | false =>
      have hkept : t.Holds ((u ++ [a]) ++ v) := by simpa using h
      obtain ⟨hholds, hdata, hreleased⟩ := ih hkept (k := k) (by simpa using hfuel)
      rw [if_neg Bool.false_ne_true]
      refine ⟨?_, hdata, ?_⟩
      · rw [List.filter_cons_of_pos (by simp [hselect])]
        simpa using hholds
      · simp [hreleased, hselect]

theorem refines (hexists : ∃ nodes, q.Holds nodes) {op : Op} (henabled : q.Enabled op) :
    q.Refines op := by
  refine ⟨hexists, fun nodes h => ?_⟩
  have hnext := h.next
  have hlength : nodes.length < q.live.length + 1 := by
    rw [h.live.length_eq]
    exact Nat.lt_succ_self _
  cases op with
  | init => exact ⟨nodes, h, rfl⟩
  | enqueue node d =>
    cases node with
    | none => exact ⟨nodes, h, rfl⟩
    | some a =>
      cases hactive : q.m_active with
      | false =>
        refine ⟨nodes, ?_⟩
        simp [exec, enqueue, hactive, abstract, CameraQueue.enqueue, h]
      | true =>
        obtain ⟨hholds, hseq⟩ := h.enq (d := d) (henabled a rfl)
        refine ⟨nodes ++ [a], ?_⟩
        simp only [exec, enqueue, hactive, abstract, CameraQueue.enqueue, hholds, hseq]
        simp
  | enqueueWithPriority node d =>
    cases node with
    | none => exact ⟨nodes, h, rfl⟩
    | some a =>
      cases hactive : q.m_active with
      | false =>
        refine ⟨nodes, ?_⟩
        simp [exec, enqueueWithPriority, hactive, abstract, h]
      | true =>
        have ha : a ∉ nodes := mt h.live.mem_iff.mpr (henabled a rfl)
        refine ⟨a :: nodes, ⟨?_, ?_, ?_, ?_⟩, ?_⟩
        · simp only [exec, enqueueWithPriority, hactive, hnext]
          exact Lists.insert (u := []) h.lists ha
        · simp [exec, enqueueWithPriority, hactive, h.size]
        · simpa [exec, enqueueWithPriority, hactive, MmJpeg.Queue.alloc] using h.live
        · simpa [exec, enqueueWithPriority, hactive, MmJpeg.Queue.alloc] using h.sound
        · simp [exec, enqueueWithPriority, hactive, abstract, MmJpeg.Queue.alloc,
            MmJpeg.Queue.map_alloc ha]
  | dequeue bFromHead =>
    cases hactive : q.m_active with
    | false =>
      refine ⟨nodes, ?_⟩
      cases bFromHead <;> simp [exec, dequeue, hactive, abstract, CameraQueue.dequeue,
        CameraQueue.dequeueTail, h]
    | true =>
      cases bFromHead with
      | true =>
        cases nodes with
        | nil =>
          refine ⟨[], ?_⟩
          simp [exec, dequeue, hactive, abstract, CameraQueue.dequeue, h, hnext]
        | cons a nodes =>
          refine ⟨nodes, ?_⟩
          simp only [exec, dequeue, hactive, abstract, CameraQueue.dequeue, hnext]
          exact ⟨h.remove (u := []), rfl⟩
      | false =>
        have hprev : q.list.prev none = nodes.getLast? :=
          (Lists.links (v := []) ((List.append_nil nodes).symm ▸ h.lists)).2
        obtain rfl | ⟨nodes, a, rfl⟩ := nodes.eq_nil_or_concat'
        · refine ⟨[], ?_⟩
          simpa [exec, dequeue, hactive, abstract, CameraQueue.dequeueTail, hprev] using h
        · refine ⟨nodes, ?_⟩
          have hremoved := h.remove
          rw [List.append_nil] at hremoved
          rw [List.getLast?_concat] at hprev
          simp only [exec, dequeue, hactive, abstract, CameraQueue.dequeueTail, hprev]
          exact ⟨hremoved, by simp [MmJpeg.Queue.unlink, MmJpeg.Queue.free]⟩
  | flush =>
    cases hactive : q.m_active with
    | false =>
      refine ⟨nodes, ?_⟩
      simp [exec, flush, hactive, abstract, CameraQueue.flush, h]
    | true =>
      obtain ⟨hholds, -, hreleased⟩ :=
        flushLoop_holds (f := fun _ => true) (u := []) h hlength
      rw [← hnext] at hholds hreleased
      simp only [Bool.not_true, List.filter_false, List.append_nil, List.filter_true]
        at hholds hreleased
      refine ⟨[], ?_⟩
      simp only [exec, flush, hactive, abstract, CameraQueue.flush]
      exact ⟨⟨hholds.lists, rfl, hholds.live, hholds.sound⟩, hreleased, rfl⟩
  | flushNodes select =>
    cases select with
    | none => exact ⟨nodes, h, rfl⟩
    | some select =>
      cases hactive : q.m_active with
      | false =>
        refine ⟨nodes, ?_⟩
        simp [exec, flushNodes, hactive, abstract, CameraQueue.flushNodes, h]
      | true =>
        obtain ⟨hholds, hdata, hreleased⟩ := flushLoop_holds (f := select) (u := []) h hlength
        rw [← hnext] at hholds hdata hreleased
        refine ⟨nodes.filter fun a => !select (q.data a), ?_⟩
        simp only [exec, flushNodes, hactive, abstract, CameraQueue.flushNodes]
        exact ⟨hholds, hreleased, by simp [hdata, List.filter_map, Function.comp_def]⟩

/-- In every run, the operations refine those of the entries. -/
theorem refines_along (ops : List Op) (henabled : System.Along Enabled exec ops {}) :
    System.Along Refines exec ops {} := by
  refine System.Along.imp (P := fun q => ∃ nodes, q.Holds nodes) (fun q op h henabled => ?_)
    ⟨[], MmJpeg.Queue.holds_new⟩ henabled
  have hrefines := refines h henabled
  obtain ⟨nodes', hholds, -⟩ := hrefines.2 _ h.choose_spec
  exact ⟨hrefines, nodes', hholds⟩

/-- Three entries, of which the second one is flushed and the last one taken. -/
theorem refines_along_three : System.Along Refines exec
    [.enqueue (some 0) 1, .enqueue (some 1) 2, .enqueueWithPriority (some 2) 3,
      .flushNodes (some (· == 1)), .dequeue false, .flush] {} :=
  refines_along _ (by
    simp [System.Along, Enabled, exec, enqueue, MmJpeg.Queue.enq, MmJpeg.Queue.alloc])

end QueueNodes

end EtherDevice.PostProc
