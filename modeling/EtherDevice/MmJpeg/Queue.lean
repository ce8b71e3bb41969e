import EtherDevice.Lib.CyclicList
import EtherDevice.Lib.Transition

/-!
# The queue of the JPEG interface

`mm_jpeg_queue` is a cyclic list with a sentinel. Its nodes are in memory: what is freed must not be
read. `mm_jpeg_queue_flush` reads the next node out of the one that it has just freed.
-/

namespace EtherDevice.MmJpeg

open Lib Lib.Linked

abbrev CamList := Linked (Option Nat)

namespace CamList

variable (l : CamList) (item node head : Option Nat)

def init : CamList := ⟨fun _ => none, fun _ => none⟩

def addTailNode : CamList := l.insert (l.prev head) item head

def insertBeforeNode : CamList where
  next := Function.update (Function.update l.next item node) (l.prev node) item
  prev := Function.update (Function.update l.prev item (l.prev node)) node item

def delNode : CamList where
  next := Function.update (l.bypass node).next node node
  prev := Function.update (l.bypass node).prev node node

variable {l} {a : Nat} {u v : List Nat}

theorem lists_init : Lists init [] := Ring.empty.mpr ⟨rfl, rfl⟩

theorem Lists.addTailNode (h : l.Lists u) (ha : a ∉ u) :
    (CamList.addTailNode l (some a) none).Lists (u ++ [a]) := by
  have h : l.Lists (u ++ []) := (List.append_nil u).symm ▸ h
  have hprev : l.prev none = u.getLast? := h.links.2
  rw [CamList.addTailNode, hprev]
  exact h.insert (by simpa using ha)

theorem Lists.insertBeforeNode (h : l.Lists u) (ha : a ∉ u) :
    (CamList.insertBeforeNode l (some a) (l.next none)).Lists (a :: u) := by
  have hnext : l.next none = u.head? := (Lists.links (u := []) h).1
  have hprev : l.prev u.head? = none := (Lists.links (u := []) h).2
  have hne : some a ≠ u.head? := fun h => ha (List.mem_of_head? h.symm)
  have heq : CamList.insertBeforeNode l (some a) u.head? = l.insert none (some a) u.head? := by
    rw [CamList.insertBeforeNode, Linked.insert, hprev, Function.update_comm hne]
  rw [hnext, heq]
  exact Lists.insert (u := []) h ha

theorem Lists.delNode (h : l.Lists (u ++ a :: v)) :
    (CamList.delNode l (some a)).Lists (u ++ v) := by
  have ha : a ∉ u ++ v := (List.nodup_middle.mp h.nodup).notMem
  refine h.bypass.congr (by simp [CamList.delNode]) fun b hb => ?_
  have hne : b ≠ a := fun h => ha (h ▸ hb)
  simp [CamList.delNode, hne]

end CamList

/-- `mm_jpeg_queue_t`, with the memory of its nodes. `faulted` tells that a freed node was read or
freed again, `released` has the data that were freed with their nodes. -/
structure Queue where
  list : CamList := CamList.init
  size : Int := 0
  data : Nat → Nat := fun _ => 0
  live : List Nat := []
  freed : List Nat := []
  released : List Nat := []
  faulted : Bool := false

/-- The operations, the first two with the node that is allocated. -/
inductive Queue.Op
  | enq (node : Option Nat) (data : Nat)
  | enqHead (node : Option Nat) (data : Nat)
  | deq
  | peek
  | flush

namespace Queue

variable (q : Queue)

def alloc (node data : Nat) : Queue :=
  { q with data := Function.update q.data node data, live := node :: q.live }

def free (node : Nat) : Queue :=
  { q with
    live := q.live.erase node
    freed := q.freed ++ [node]
    faulted := q.faulted || decide (node ∉ q.live) }

def unlink (node : Nat) : Queue :=
  { q with list := q.list.delNode (some node), size := q.size - 1 }

def enq (node : Option Nat) (data : Nat) : Queue :=
  match node with
  | none => q
  | some a =>
    { q.alloc a data with list := q.list.addTailNode (some a) none, size := q.size + 1 }

def enqHead (node : Option Nat) (data : Nat) : Queue :=
  match node with
  | none => q
  | some a =>
    { q.alloc a data with
      list := q.list.insertBeforeNode (some a) (q.list.next none)
      size := q.size + 1 }

def deq : Nat × Queue :=
  match q.list.next none with
  | none => (0, q)
  | some a => (q.data a, (q.unlink a).free a)

def peek : Nat := (q.list.next none).elim 0 q.data

/-- One round of `mm_jpeg_queue_flush`: the node is taken out and freed, with its data if there are
any. -/
def flushNode (node : Nat) : Queue :=
  let t := (q.unlink node).free node
  { t with released := if q.data node ≠ 0 then q.released ++ [q.data node] else q.released }

/-- The loop of `mm_jpeg_queue_flush`, which goes on where the freed node leads if that can be
read. -/
def flushLoop : Nat → Queue → Option Nat → Queue
  | 0, q, _ => { q with faulted := true }
  | _ + 1, q, none => q
  | fuel + 1, q, some a =>
    let t := q.flushNode a
    if a ∈ t.live then flushLoop fuel t (t.list.next (some a)) else { t with faulted := true }

/-- `mm_jpeg_queue_flush`, of which at most `fuel` rounds are made. -/
def flush (fuel : Nat) : Queue :=
  { flushLoop fuel q (q.list.next none) with size := 0 }

def exec (q : Queue) : Op → Queue
  | .enq node data => q.enq node data
  | .enqHead node data => q.enqHead node data
  | .deq => q.deq.2
  | .peek => q
  | .flush => q.flush (q.live.length + 1)

def Enabled : Op → Prop
  | .enq node _ | .enqHead node _ => ∀ a ∈ node, a ∉ q.live
  | _ => True

structure Holds (q : Queue) (nodes : List Nat) : Prop where
  lists : q.list.Lists nodes
  size : q.size = nodes.length
  live : q.live.Perm nodes
  sound : q.faulted = false

/-- What an operation does to the sequence of the data. A flush frees each node once. -/
def Follows (op : Op) (nodes nodes' : List Nat) : Prop :=
  let seq := nodes.map q.data
  let seq' := nodes'.map (q.exec op).data
  match op with
  | .enq node d => seq' = if node.isSome then seq ++ [d] else seq
  | .enqHead node d => seq' = if node.isSome then d :: seq else seq
  | .deq => q.deq.1 = seq.headD 0 ∧ seq' = seq.tail
  | .peek => q.peek = seq.headD 0 ∧ seq' = seq
  | .flush => nodes' = [] ∧ (q.exec .flush).freed = q.freed ++ nodes

/-- The queue is well formed, and an operation keeps it so and does what it does to the sequence. -/
def Refines (op : Op) : Prop :=
  (∃ nodes, q.Holds nodes) ∧
    ∀ nodes, q.Holds nodes → ∃ nodes', (q.exec op).Holds nodes' ∧ q.Follows op nodes nodes'

def Cond : Op → Prop
  | .flush => q.size = 0
  | _ => True

variable {q} {nodes : List Nat} {a d : Nat}

theorem map_alloc (ha : a ∉ nodes) : nodes.map (Function.update q.data a d) = nodes.map q.data :=
  List.map_congr_left fun _ hb => Function.update_of_ne (ne_of_mem_of_not_mem hb ha) _ _

theorem Holds.next (h : q.Holds nodes) : q.list.next none = nodes.head? :=
  (Lists.links (u := []) h.lists).1

theorem Holds.enq (h : q.Holds nodes) (ha : a ∉ q.live) :
    (q.enq (some a) d).Holds (nodes ++ [a]) ∧
      (nodes ++ [a]).map (q.enq (some a) d).data = nodes.map q.data ++ [d] := by
  have ha' : a ∉ nodes := mt h.live.mem_iff.mpr ha
  refine ⟨⟨CamList.Lists.addTailNode h.lists ha', ?_, ?_, h.sound⟩, ?_⟩
  · simp [Queue.enq, alloc, h.size]
  · exact (h.live.cons a).trans (List.perm_append_singleton a nodes).symm
  · simp [Queue.enq, alloc, map_alloc ha']

theorem Holds.enqHead (h : q.Holds nodes) (ha : a ∉ q.live) :
    (q.enqHead (some a) d).Holds (a :: nodes) ∧
      (a :: nodes).map (q.enqHead (some a) d).data = d :: nodes.map q.data := by
  have ha' : a ∉ nodes := mt h.live.mem_iff.mpr ha
  refine ⟨⟨CamList.Lists.insertBeforeNode h.lists ha', ?_, h.live.cons a, h.sound⟩, ?_⟩
  · simp [Queue.enqHead, alloc, h.size]
  · simp [Queue.enqHead, alloc, map_alloc ha']

theorem Holds.remove {u v : List Nat} (h : q.Holds (u ++ a :: v)) :
    ((q.unlink a).free a).Holds (u ++ v) := by
  have hlive : a ∈ q.live := h.live.mem_iff.mpr (by simp)
  have hsize := h.size
  refine ⟨CamList.Lists.delNode h.lists, ?_, ?_, ?_⟩
  · simp only [unlink, free, List.length_append, List.length_cons] at hsize ⊢
    omega
  · have herase := (h.live.trans List.perm_middle).erase a
    rwa [List.erase_cons_head] at herase
  · simp [unlink, free, h.sound, hlive]

theorem Holds.deq (h : q.Holds (a :: nodes)) : q.deq = (q.data a, (q.unlink a).free a) := by
  simp [Queue.deq, h.next]

theorem Holds.faulted_flush (h : q.Holds (a :: nodes)) (fuel : Nat) :
    (q.flush (fuel + 1)).faulted = true := by
  have hfreed : a ∉ (q.flushNode a).live :=
    ((h.live.nodup_iff.mpr h.lists.nodup)).not_mem_erase
  rw [flush, h.next]
  simp only [List.head?_cons, flushLoop, if_neg hfreed]

theorem Holds.follows (h : q.Holds nodes) {op : Op} (henabled : q.Enabled op) (hcond : q.Cond op) :
    ∃ nodes', (q.exec op).Holds nodes' ∧ q.Follows op nodes nodes' := by
  match op, nodes with
  | .enq none _, nodes | .enqHead none _, nodes => exact ⟨nodes, h, rfl⟩
  | .enq (some a) d, nodes => exact ⟨_, h.enq (henabled a rfl)⟩
  | .enqHead (some a) d, nodes => exact ⟨_, h.enqHead (henabled a rfl)⟩
  | .peek, nodes =>
    refine ⟨nodes, h, ?_, rfl⟩
    rw [peek, h.next]
    cases nodes <;> rfl
  | .deq, [] =>
    have hdeq : q.deq = (0, q) := by simp [Queue.deq, h.next]
    refine ⟨[], ?_, congrArg Prod.fst hdeq, rfl⟩
    exact (congrArg (Holds · []) (congrArg Prod.snd hdeq)).mpr h
  | .deq, a :: nodes =>
    have hdeq := h.deq
    refine ⟨nodes, ?_, congrArg Prod.fst hdeq, congrArg (fun t => nodes.map t.2.data) hdeq⟩
    exact (congrArg (Holds · nodes) (congrArg Prod.snd hdeq)).mpr (h.remove (u := []))
  | .flush, [] =>
    have hflush : q.exec .flush = q := by
      simp only [exec, flush, h.next, List.head?_nil, flushLoop]
      rw [← show q.size = 0 from h.size]
    exact ⟨[], hflush.symm ▸ h, rfl, by rw [hflush, List.append_nil]⟩
  | .flush, a :: nodes =>
    have hlength := h.size.symm.trans hcond
    simp only [List.length_cons] at hlength
    omega

theorem Holds.refines_iff (h : q.Holds nodes) {op : Op} (henabled : q.Enabled op) :
    q.Refines op ↔ q.Cond op := by
  refine ⟨fun hrefines => ?_, fun hcond => ⟨⟨nodes, h⟩, fun _ h => h.follows henabled hcond⟩⟩
  match op, nodes with
  | .flush, [] => exact h.size
  | .flush, a :: nodes =>
    obtain ⟨_, hholds, -⟩ := hrefines.2 _ h
    exact absurd (hholds.sound.symm.trans (h.faulted_flush _)) Bool.false_ne_true
  | .enq _ _, _ | .enqHead _ _, _ | .deq, _ | .peek, _ => trivial

theorem holds_new : Holds {} [] := ⟨CamList.lists_init, rfl, .nil, rfl⟩

/-- In every run, the operations refine those of a sequence if and only if no queue with a node is
flushed. -/
theorem refines_along_iff (ops : List Op) :
    System.Along (fun q op => Enabled q op ∧ Refines q op) exec ops {} ↔
      System.Along (fun q op => Enabled q op ∧ Cond q op) exec ops {} := by
  refine System.along_iff (P := fun q => ∃ nodes, q.Holds nodes) (fun q op ⟨_, h⟩ => ?_)
    (fun q op ⟨_, h⟩ hcond => ?_) ops ⟨[], holds_new⟩
  · exact and_congr_right fun henabled => h.refines_iff henabled
  · obtain ⟨nodes', hholds, -⟩ := h.follows hcond.1 hcond.2
    exact ⟨nodes', hholds⟩

theorem not_refines_along : ¬ ∀ ops : List Op, System.Along Enabled exec ops {} →
    System.Along Refines exec ops {} := by
  intro h
  obtain ⟨⟨_, hnodes⟩, hstep⟩ :=
    (h [.enq (some 0) 1, .flush] ⟨by simp [Enabled], trivial, trivial⟩).2.1
  obtain ⟨_, hholds, -⟩ := hstep _ hnodes
  exact absurd hholds.sound (by decide)

end Queue

end EtherDevice.MmJpeg
