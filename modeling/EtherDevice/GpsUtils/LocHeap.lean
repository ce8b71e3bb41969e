import EtherDevice.Lib.PriorityQueue

/-!
# `LocHeap`: the location heap

The model of `gps/utils/LocHeap.cpp`. A `LocHeapNode` is a node of `HeapTree`; its `mData`
is a reference to a `LocRankable`, so that equality on `α` is equality of addresses, and
`outRanks` is the virtual comparison of the client.

`push` swaps payloads downwards and lets the smaller side grow; `pop` swaps the winner of
the two subtrees upwards and detaches the leaf where this ends. `Ordered` and `Sized` are
what `checkNodes` tests (`checkNodes_iff`). Every sequence of operations keeps them and is a
run of `Lib.PriorityQueue` (`isPriorityQueue_history`).
-/

namespace EtherDevice.GpsUtils

open Lib.PriorityQueue

universe u

inductive HeapTree (α : Type u) where
  | null
  | node (mData : α) (mSize : Int) (mLeft mRight : HeapTree α)
deriving DecidableEq

namespace HeapTree

variable {α : Type u}

/-! ## What a tree stores -/

def mSize : HeapTree α → Int
  | null => 0
  | node _ size _ _ => size

def elements : HeapTree α → Multiset α
  | null => 0
  | node mData _ mLeft mRight => mData ::ₘ (mLeft.elements + mRight.elements)

def subElements : HeapTree α → Multiset α
  | null => 0
  | node _ _ mLeft mRight => mLeft.elements + mRight.elements

def Ordered (outRanks : α → α → Prop) : HeapTree α → Prop
  | null => True
  | node mData _ mLeft mRight =>
    Tops outRanks mData (mLeft.elements + mRight.elements) ∧
      mLeft.Ordered outRanks ∧ mRight.Ordered outRanks

/-- Every node knows the number of nodes of its subtree. -/
def Sized : HeapTree α → Prop
  | null => True
  | node _ size mLeft mRight =>
    size = 1 + mLeft.elements.card + mRight.elements.card ∧ mLeft.Sized ∧ mRight.Sized

section

variable {outRanks : α → α → Prop} {mData : α} {size : Int} {t mLeft mRight : HeapTree α}

@[simp] theorem elements_null : (null : HeapTree α).elements = 0 := rfl

@[simp] theorem elements_node :
    (node mData size mLeft mRight).elements = mData ::ₘ (mLeft.elements + mRight.elements) :=
  rfl

theorem elements_leaf : (node mData size null null).elements = mData ::ₘ 0 := rfl

@[simp] theorem sized_null : (null : HeapTree α).Sized := trivial

@[simp] theorem ordered_null : (null : HeapTree α).Ordered outRanks := trivial

theorem ordered_leaf : (node mData size null null).Ordered outRanks :=
  ⟨tops_zero, trivial, trivial⟩

theorem sized_leaf : (node mData 1 null null).Sized := ⟨rfl, trivial, trivial⟩

theorem ordered_node : (node mData size mLeft mRight).Ordered outRanks ↔
    Tops outRanks mData (mLeft.elements + mRight.elements) ∧
      mLeft.Ordered outRanks ∧ mRight.Ordered outRanks :=
  Iff.rfl

theorem sized_node : (node mData size mLeft mRight).Sized ↔
    size = 1 + mLeft.elements.card + mRight.elements.card ∧ mLeft.Sized ∧ mRight.Sized :=
  Iff.rfl

theorem Sized.mSize_eq (h : t.Sized) : t.mSize = t.elements.card := by
  cases t with
  | null => rfl
  | node mData size mLeft mRight =>
    have hsize := (sized_node.mp h).1
    simp only [mSize, elements_node, Multiset.card_cons, Multiset.card_add]
    omega

theorem Ordered.tops_root [IsStrictWeakOrder α outRanks]
    (h : (node mData size mLeft mRight).Ordered outRanks) :
    Tops outRanks mData (node mData size mLeft mRight).elements := by
  rw [elements_node, tops_cons]
  exact ⟨irrefl_of outRanks mData, (ordered_node.mp h).1⟩

end

/-! ## The operations -/

variable (outRanks : α → α → Prop) [DecidableRel outRanks]

/-- Where `push` swaps: the payload that stays at the node, and the one that goes below. -/
def settle (data mData : α) : α × α :=
  if outRanks data mData then (data, mData) else (mData, data)

def push (data : α) : HeapTree α → HeapTree α
  | null => node data 1 null null
  | node mData size null mRight =>
    let settled := settle outRanks data mData
    node settled.1 (size + 1) (node settled.2 1 null null) mRight
  | node mData size (node l lSize ll lr) null =>
    let settled := settle outRanks data mData
    node settled.1 (size + 1) (node l lSize ll lr) (node settled.2 1 null null)
  | node mData size (node l lSize ll lr) (node r rSize rl rr) =>
    let settled := settle outRanks data mData
    -- the smaller of the subtrees takes the node
    if lSize ≤ rSize then
      node settled.1 (size + 1) (push settled.2 (node l lSize ll lr)) (node r rSize rl rr)
    else
      node settled.1 (size + 1) (node l lSize ll lr) (push settled.2 (node r rSize rl rr))

/-- `LocHeapNode::pop` of a node into which `mData` was swapped; the answer is the payload of
the node popped out. -/
def popWith (mData : α) : HeapTree α → α × HeapTree α
  | null => (mData, null)
  | node _ _ null null => (mData, null)
  | node _ size null (node r rSize rl rr) =>
    let popped := popWith mData (node r rSize rl rr)
    (popped.1, node r (size - 1) null popped.2)
  | node _ size (node l lSize ll lr) null =>
    let popped := popWith mData (node l lSize ll lr)
    (popped.1, node l (size - 1) popped.2 null)
  | node _ size (node l lSize ll lr) (node r rSize rl rr) =>
    if outRanks l r then
      let popped := popWith mData (node l lSize ll lr)
      (popped.1, node l (size - 1) popped.2 (node r rSize rl rr))
    else
      let popped := popWith mData (node r rSize rl rr)
      (popped.1, node r (size - 1) (node l lSize ll lr) popped.2)

def pop : HeapTree α → Option α × HeapTree α
  | null => (none, null)
  | node mData size mLeft mRight =>
    let popped := popWith outRanks mData (node mData size mLeft mRight)
    (some popped.1, popped.2)

/-- `LocHeapNode::remove`: the payload of the node removed, if there was one. -/
def remove [DecidableEq α] (data : α) : HeapTree α → Option α × HeapTree α
  | null => (none, null)
  | node mData size mLeft mRight =>
    if data = mData then
      -- this is the node, by address
      pop outRanks (node mData size mLeft mRight)
    else if ¬ outRanks data mData then
      let left := remove data mLeft
      if left.1.isSome then (left.1, node mData (size - 1) left.2 mRight)
      else
        let right := remove data mRight
        if right.1.isSome then (right.1, node mData (size - 1) left.2 right.2)
        else (none, node mData size left.2 right.2)
    else (none, node mData size mLeft mRight)

def childOutRanks (mData : α) : HeapTree α → Bool
  | null => false
  | node child _ _ _ => decide (outRanks child mData)

def checkNodes : HeapTree α → Bool
  | null => true
  | node mData size mLeft mRight =>
    if childOutRanks outRanks mData mLeft || !checkNodes mLeft then false
    else if childOutRanks outRanks mData mRight || !checkNodes mRight then false
    else decide (size - mLeft.mSize - mRight.mSize = 1)

variable {outRanks} {data mData x : α} {size : Int} {t mLeft mRight : HeapTree α}

/-! ## `push` -/

theorem settle_elements (stored : Multiset α) :
    (settle outRanks data mData).1 ::ₘ (settle outRanks data mData).2 ::ₘ stored =
      data ::ₘ mData ::ₘ stored := by
  unfold settle
  split
  · rfl
  · exact Multiset.cons_swap _ _ _

theorem elements_push : (push outRanks data t).elements = data ::ₘ t.elements := by
  fun_induction push with
  | case1 data => rfl
  | case2 data mData size mRight =>
    rw [elements_node, elements_leaf, Multiset.cons_add]
    exact settle_elements _
  | case3 data mData size l lSize ll lr =>
    rw [elements_node, elements_leaf, Multiset.add_cons]
    exact settle_elements _
  | case4 data mData size l lSize ll lr r rSize rl rr settled hle ih =>
    rw [elements_node, ih, Multiset.cons_add]
    exact settle_elements _
  | case5 data mData size l lSize ll lr r rSize rl rr settled hle ih =>
    rw [elements_node, ih, Multiset.add_cons]
    exact settle_elements _

theorem tops_settle [IsStrictWeakOrder α outRanks] {below : Multiset α}
    (h : Tops outRanks mData below) :
    Tops outRanks (settle outRanks data mData).1 ((settle outRanks data mData).2 ::ₘ below) := by
  unfold settle
  rw [tops_cons]
  split
  · rename_i hout
    simp [not_outRanks_of_outRanks, hout, h.of_not_outRanks]
  simp_all

theorem ordered_push [IsStrictWeakOrder α outRanks] (h : t.Ordered outRanks) :
    (push outRanks data t).Ordered outRanks := by
  fun_induction push with
  | case1 data => exact ordered_leaf
  | case2 data mData size mRight =>
    obtain ⟨htop, hleft, hright⟩ := ordered_node.mp h
    refine ordered_node.mpr ⟨?_, ordered_leaf, hright⟩
    rw [elements_leaf, Multiset.cons_add]
    exact tops_settle htop
  | case3 data mData size l lSize ll lr =>
    obtain ⟨htop, hleft, hright⟩ := ordered_node.mp h
    refine ordered_node.mpr ⟨?_, hleft, ordered_leaf⟩
    rw [elements_leaf, Multiset.add_cons]
    exact tops_settle htop
  | case4 data mData size l lSize ll lr r rSize rl rr settled hle ih =>
    obtain ⟨htop, hleft, hright⟩ := ordered_node.mp h
    refine ordered_node.mpr ⟨?_, ih hleft, hright⟩
    rw [elements_push, Multiset.cons_add]
    exact tops_settle htop
  | case5 data mData size l lSize ll lr r rSize rl rr settled hle ih =>
    obtain ⟨htop, hleft, hright⟩ := ordered_node.mp h
    refine ordered_node.mpr ⟨?_, hleft, ih hright⟩
    rw [elements_push, Multiset.add_cons]
    exact tops_settle htop

theorem sized_push (h : t.Sized) : (push outRanks data t).Sized := by
  fun_induction push with
  | case1 data => exact sized_leaf
  | case2 data mData size mRight =>
    obtain ⟨hsize, hleft, hright⟩ := sized_node.mp h
    refine sized_node.mpr ⟨?_, sized_leaf, hright⟩
    rw [hsize, elements_leaf, elements_null, Multiset.card_cons]
    omega
  | case3 data mData size l lSize ll lr =>
    obtain ⟨hsize, hleft, hright⟩ := sized_node.mp h
    refine sized_node.mpr ⟨?_, hleft, sized_leaf⟩
    simp [hsize]
  | case4 data mData size l lSize ll lr r rSize rl rr settled hle ih =>
    obtain ⟨hsize, hleft, hright⟩ := sized_node.mp h
    refine sized_node.mpr ⟨?_, ih hleft, hright⟩
    rw [hsize, elements_push, Multiset.card_cons]
    omega
  | case5 data mData size l lSize ll lr r rSize rl rr settled hle ih =>
    obtain ⟨hsize, hleft, hright⟩ := sized_node.mp h
    refine sized_node.mpr ⟨?_, hleft, ih hright⟩
    rw [hsize, elements_push, Multiset.card_cons]
    omega

/-! ## `pop` -/

theorem popWith_fst : (popWith outRanks data t).1 = data := by
  fun_induction popWith with
  | case1 => rfl
  | case2 => rfl
  | case3 size r rSize rl rr _ popped ih => exact ih
  | case4 size l lSize ll lr _ popped ih => exact ih
  | case5 size l lSize ll lr r rSize rl rr _ hout popped ih => exact ih
  | case6 size l lSize ll lr r rSize rl rr _ hout popped ih => exact ih

theorem elements_popWith : (popWith outRanks data t).2.elements = t.subElements := by
  fun_induction popWith with
  | case1 => rfl
  | case2 => rfl
  | case3 _ size r rSize rl rr popped ih =>
    rw [elements_node, ih]
    simp only [subElements, elements_node, elements_null, Multiset.zero_add]
  | case4 _ size l lSize ll lr popped ih =>
    rw [elements_node, ih]
    simp only [subElements, elements_node, elements_null, Multiset.add_zero]
  | case5 _ size l lSize ll lr r rSize rl rr hout popped ih =>
    rw [elements_node, ih]
    simp only [subElements, elements_node, Multiset.cons_add]
  | case6 _ size l lSize ll lr r rSize rl rr hout popped ih =>
    rw [elements_node, ih]
    simp only [subElements, elements_node, Multiset.add_cons]

theorem ordered_popWith [IsStrictWeakOrder α outRanks] (h : t.Ordered outRanks) :
    (popWith outRanks data t).2.Ordered outRanks := by
  fun_induction popWith with
  | case1 => trivial
  | case2 => trivial
  | case3 _ size r rSize rl rr popped ih =>
    obtain ⟨-, -, hright⟩ := ordered_node.mp h
    refine ordered_node.mpr ⟨?_, trivial, ih hright⟩
    rw [elements_popWith, elements_null, Multiset.zero_add]
    exact (ordered_node.mp hright).1
  | case4 _ size l lSize ll lr popped ih =>
    obtain ⟨-, hleft, -⟩ := ordered_node.mp h
    refine ordered_node.mpr ⟨?_, ih hleft, trivial⟩
    rw [elements_popWith, elements_null, Multiset.add_zero]
    exact (ordered_node.mp hleft).1
  | case5 _ size l lSize ll lr r rSize rl rr hout popped ih =>
    obtain ⟨-, hleft, hright⟩ := ordered_node.mp h
    refine ordered_node.mpr ⟨?_, ih hleft, hright⟩
    rw [elements_popWith, tops_add]
    exact ⟨(ordered_node.mp hleft).1,
      hright.tops_root.of_not_outRanks (not_outRanks_of_outRanks hout)⟩
  | case6 _ size l lSize ll lr r rSize rl rr hout popped ih =>
    obtain ⟨-, hleft, hright⟩ := ordered_node.mp h
    refine ordered_node.mpr ⟨?_, hleft, ih hright⟩
    rw [elements_popWith, tops_add]
    exact ⟨hleft.tops_root.of_not_outRanks hout, (ordered_node.mp hright).1⟩

theorem sized_popWith (h : t.Sized) : (popWith outRanks data t).2.Sized := by
  fun_induction popWith with
  | case1 => trivial
  | case2 => trivial
  | case3 _ size r rSize rl rr popped ih =>
    obtain ⟨hsize, -, hright⟩ := sized_node.mp h
    refine sized_node.mpr ⟨?_, trivial, ih hright⟩
    rw [hsize, elements_popWith, elements_node, Multiset.card_cons]
    simp only [subElements, elements_null]
    omega
  | case4 _ size l lSize ll lr popped ih =>
    obtain ⟨hsize, hleft, -⟩ := sized_node.mp h
    refine sized_node.mpr ⟨?_, ih hleft, trivial⟩
    rw [hsize, elements_popWith, elements_node, Multiset.card_cons]
    simp only [subElements, elements_null]
    omega
  | case5 _ size l lSize ll lr r rSize rl rr hout popped ih =>
    obtain ⟨hsize, hleft, hright⟩ := sized_node.mp h
    refine sized_node.mpr ⟨?_, ih hleft, hright⟩
    rw [hsize, elements_popWith, elements_node, elements_node, Multiset.card_cons,
      Multiset.card_cons]
    simp only [subElements]
    omega
  | case6 _ size l lSize ll lr r rSize rl rr hout popped ih =>
    obtain ⟨hsize, hleft, hright⟩ := sized_node.mp h
    refine sized_node.mpr ⟨?_, hleft, ih hright⟩
    rw [hsize, elements_popWith, elements_node, elements_node, Multiset.card_cons,
      Multiset.card_cons]
    simp only [subElements]
    omega

theorem pop_node : pop outRanks (node mData size mLeft mRight) =
    (some mData, (popWith outRanks mData (node mData size mLeft mRight)).2) := by
  rw [pop, popWith_fst]

/-! ## `remove` -/

section Remove

variable [DecidableEq α]

theorem remove_cases [IsStrictWeakOrder α outRanks] (data : α) (t : HeapTree α) :
    (∃ rest, remove outRanks data t = (some data, rest) ∧
      t.elements = data ::ₘ rest.elements ∧ (t.Ordered outRanks → rest.Ordered outRanks) ∧
      (t.Sized → rest.Sized)) ∨
    (remove outRanks data t = (none, t) ∧ (t.Ordered outRanks → data ∉ t.elements)) := by
  induction t with
  | null => exact .inr ⟨rfl, fun _ => Multiset.notMem_zero data⟩
  | node mData size mLeft mRight ihl ihr =>
    unfold remove
    split
    · rename_i heq
      subst heq
      refine .inl ⟨_, pop_node, ?_, ordered_popWith, sized_popWith⟩
      rw [elements_popWith]
      rfl
    · rename_i hne
      split
      · rcases ihl with ⟨rest, hl, helems, hord, hsized⟩ | ⟨hl, habsl⟩
        · refine .inl ⟨node mData (size - 1) rest mRight, by simp [hl], ?_, ?_, ?_⟩
          · rw [elements_node, elements_node, helems, Multiset.cons_add, Multiset.cons_swap]
          · intro h
            obtain ⟨htop, hleft, hright⟩ := ordered_node.mp h
            refine ordered_node.mpr ⟨?_, hord hleft, hright⟩
            simp_all [tops_cons]
          · intro h
            obtain ⟨hsize, hleft, hright⟩ := sized_node.mp h
            refine sized_node.mpr ⟨?_, hsized hleft, hright⟩
            rw [hsize, helems, Multiset.card_cons]
            omega
        · rcases ihr with ⟨rest, hr, helems, hord, hsized⟩ | ⟨hr, habsr⟩
          · refine .inl ⟨node mData (size - 1) mLeft rest, by simp [hl, hr], ?_, ?_, ?_⟩
            · rw [elements_node, elements_node, helems, Multiset.add_cons, Multiset.cons_swap]
            · intro h
              obtain ⟨htop, hleft, hright⟩ := ordered_node.mp h
              refine ordered_node.mpr ⟨?_, hleft, hord hright⟩
              simp_all [tops_cons]
            · intro h
              obtain ⟨hsize, hleft, hright⟩ := sized_node.mp h
              refine sized_node.mpr ⟨?_, hleft, hsized hright⟩
              rw [hsize, helems, Multiset.card_cons]
              omega
          · refine .inr ⟨by simp [hl, hr], fun h => ?_⟩
            obtain ⟨-, hleft, hright⟩ := ordered_node.mp h
            simp [hne, habsl, hleft, habsr, hright]
      · -- what outranks the top of an ordered tree is not in it
        rename_i hout
        refine .inr ⟨rfl, fun h hmem => ?_⟩
        exact h.tops_root data hmem (not_not.mp hout)

end Remove

/-! ## `checkNodes` -/

theorem childOutRanks_eq_false : childOutRanks outRanks mData t = false ↔
    ∀ child size l r, t = node child size l r → ¬ outRanks child mData := by
  cases t with
  | null => simp [childOutRanks]
  | node child size l r =>
    grind [childOutRanks]

theorem tops_elements [IsStrictWeakOrder α outRanks] (h : t.Ordered outRanks) :
    Tops outRanks mData t.elements ↔ childOutRanks outRanks mData t = false := by
  rw [childOutRanks_eq_false]
  constructor
  · rintro htop child size l r rfl
    exact htop child (Multiset.mem_cons_self child _)
  · intro hchild
    cases t with
    | null => exact tops_zero
    | node child size l r =>
      exact h.tops_root.of_not_outRanks (hchild child size l r rfl)

theorem checkNodes_iff [IsStrictWeakOrder α outRanks] :
    checkNodes outRanks t = true ↔ t.Ordered outRanks ∧ t.Sized := by
  induction t with
  | null => simp [checkNodes]
  | node mData size mLeft mRight ihl ihr =>
    have hcheck : checkNodes outRanks (node mData size mLeft mRight) = true ↔
        (childOutRanks outRanks mData mLeft = false ∧ checkNodes outRanks mLeft = true) ∧
        (childOutRanks outRanks mData mRight = false ∧ checkNodes outRanks mRight = true) ∧
        size - mLeft.mSize - mRight.mSize = 1 := by
      simp [checkNodes]
    rw [hcheck, ihl, ihr, ordered_node, sized_node, tops_add]
    constructor
    · rintro ⟨⟨hl, hol, hsl⟩, ⟨hr, hor, hsr⟩, hsize⟩
      rw [hsl.mSize_eq, hsr.mSize_eq] at hsize
      exact ⟨⟨⟨(tops_elements hol).mpr hl, (tops_elements hor).mpr hr⟩, hol, hor⟩,
        by omega, hsl, hsr⟩
    · rintro ⟨⟨⟨hl, hr⟩, hol, hor⟩, hsize, hsl, hsr⟩
      rw [hsl.mSize_eq, hsr.mSize_eq]
      exact ⟨⟨(tops_elements hol).mp hl, hol, hsl⟩, ⟨(tops_elements hor).mp hr, hor, hsr⟩,
        by omega⟩

end HeapTree

/-! ## `LocHeap` -/

structure LocHeap (α : Type u) where
  mTree : HeapTree α
deriving DecidableEq

namespace LocHeap

variable {α : Type u}

def empty : LocHeap α := { mTree := .null }

def elements (heap : LocHeap α) : Multiset α := heap.mTree.elements

def peek (heap : LocHeap α) : Option α :=
  match heap.mTree with
  | .null => none
  | .node mData _ _ _ => some mData

structure WellFormed (outRanks : α → α → Prop) (heap : LocHeap α) : Prop where
  ordered : heap.mTree.Ordered outRanks
  sized : heap.mTree.Sized

theorem wellFormed_empty {outRanks : α → α → Prop} : (empty : LocHeap α).WellFormed outRanks :=
  ⟨trivial, trivial⟩

@[simp] theorem elements_empty : (empty : LocHeap α).elements = 0 := rfl

theorem peek_eq_none {heap : LocHeap α} : heap.peek = none ↔ heap.elements = 0 := by
  obtain ⟨tree⟩ := heap
  cases tree with
  | null => exact iff_of_true rfl rfl
  | node mData size mLeft mRight =>
    exact iff_of_false (Option.some_ne_none mData) Multiset.cons_ne_zero

theorem peek_cases {outRanks : α → α → Prop} [IsStrictWeakOrder α outRanks] {heap : LocHeap α}
    (h : heap.WellFormed outRanks) :
    (∃ x, heap.peek = some x ∧ x ∈ heap.elements ∧ Tops outRanks x heap.elements) ∨
    (heap.peek = none ∧ heap.elements = 0) := by
  obtain ⟨tree⟩ := heap
  cases tree with
  | null => exact .inr ⟨rfl, rfl⟩
  | node mData size mLeft mRight =>
    exact .inl ⟨mData, rfl, Multiset.mem_cons_self _ _, h.ordered.tops_root⟩

variable (outRanks : α → α → Prop) [DecidableRel outRanks]

def push (node : α) (heap : LocHeap α) : LocHeap α :=
  { mTree := heap.mTree.push outRanks node }

def pop (heap : LocHeap α) : Option α × LocHeap α :=
  let popped := heap.mTree.pop outRanks
  (popped.1, { mTree := popped.2 })

def checkTree (heap : LocHeap α) : Bool := heap.mTree.checkNodes outRanks

def remove [DecidableEq α] (rankable : α) (heap : LocHeap α) : Option α × LocHeap α :=
  let removed := heap.mTree.remove outRanks rankable
  (removed.1, { mTree := removed.2 })

def exec [DecidableEq α] : Op α → LocHeap α → Option α × LocHeap α
  | .push node, heap => (none, heap.push outRanks node)
  | .pop, heap => heap.pop outRanks
  | .peek, heap => (heap.peek, heap)
  | .remove rankable, heap => heap.remove outRanks rankable

variable {outRanks} {heap : LocHeap α} {x : α}

theorem checkTree_iff [IsStrictWeakOrder α outRanks] :
    heap.checkTree outRanks = true ↔ heap.WellFormed outRanks :=
  HeapTree.checkNodes_iff.trans ⟨fun h => ⟨h.1, h.2⟩, fun h => ⟨h.ordered, h.sized⟩⟩

theorem elements_push : (heap.push outRanks x).elements = x ::ₘ heap.elements :=
  HeapTree.elements_push

theorem wellFormed_push [IsStrictWeakOrder α outRanks] (h : heap.WellFormed outRanks) :
    (heap.push outRanks x).WellFormed outRanks :=
  ⟨HeapTree.ordered_push h.ordered, HeapTree.sized_push h.sized⟩

theorem pop_fst : (heap.pop outRanks).1 = heap.peek := by
  obtain ⟨tree⟩ := heap
  cases tree with
  | null => rfl
  | node mData size mLeft mRight => exact congrArg Prod.fst HeapTree.pop_node

theorem pop_cases [IsStrictWeakOrder α outRanks] (h : heap.WellFormed outRanks) :
    (∃ x rest, heap.peek = some x ∧ heap.pop outRanks = (some x, rest) ∧
      heap.elements = x ::ₘ rest.elements ∧ Tops outRanks x heap.elements ∧
      rest.WellFormed outRanks) ∨
    (heap.peek = none ∧ heap.pop outRanks = (none, heap) ∧ heap.elements = 0) := by
  obtain ⟨tree⟩ := heap
  cases tree with
  | null => exact .inr ⟨rfl, rfl, rfl⟩
  | node mData size mLeft mRight =>
    let rest := (HeapTree.node mData size mLeft mRight).popWith outRanks mData
    refine .inl ⟨mData, { mTree := rest.2 }, rfl, ?_, ?_, h.ordered.tops_root, ?_⟩
    · simp only [pop, HeapTree.pop_node, rest]
    · simp only [elements, rest, HeapTree.elements_popWith]
      rfl
    · exact ⟨HeapTree.ordered_popWith h.ordered, HeapTree.sized_popWith h.sized⟩

theorem wellFormed_pop [IsStrictWeakOrder α outRanks] (h : heap.WellFormed outRanks) :
    (heap.pop outRanks).2.WellFormed outRanks := by
  rcases pop_cases h with ⟨x, rest, -, heq, -, -, hrest⟩ | ⟨-, heq, -⟩
  · rw [heq]
    exact hrest
  · rw [heq]
    exact h

theorem elements_pop_le [IsStrictWeakOrder α outRanks] (h : heap.WellFormed outRanks) :
    (heap.pop outRanks).2.elements ≤ heap.elements := by
  rcases pop_cases h with ⟨x, rest, -, heq, helems, -, -⟩ | ⟨-, heq, -⟩
  · rw [heq, helems]
    exact Multiset.le_cons_self _ _
  · rw [heq]

section Remove

variable [DecidableEq α]

theorem remove_cases [IsStrictWeakOrder α outRanks] (h : heap.WellFormed outRanks) (x : α) :
    (∃ rest, heap.remove outRanks x = (some x, rest) ∧
      heap.elements = x ::ₘ rest.elements ∧ rest.WellFormed outRanks) ∨
    (heap.remove outRanks x = (none, heap) ∧ x ∉ heap.elements) := by
  rcases @HeapTree.remove_cases α outRanks _ _ _ x heap.mTree with
    ⟨rest, heq, helems, hord, hsized⟩ | ⟨heq, hnot⟩
  · refine .inl ⟨⟨rest⟩, ?_, helems, hord h.ordered, hsized h.sized⟩
    simp only [remove, heq]
  · refine .inr ⟨?_, hnot h.ordered⟩
    simp only [remove, heq]

theorem wellFormed_remove [IsStrictWeakOrder α outRanks] (h : heap.WellFormed outRanks) :
    (heap.remove outRanks x).2.WellFormed outRanks := by
  rcases remove_cases h x with ⟨rest, heq, -, hrest⟩ | ⟨heq, -⟩
  · rw [heq]
    exact hrest
  · rw [heq]
    exact h

theorem elements_remove_le [IsStrictWeakOrder α outRanks] (h : heap.WellFormed outRanks) :
    (heap.remove outRanks x).2.elements ≤ heap.elements := by
  rcases remove_cases h x with ⟨rest, heq, helems, -⟩ | ⟨heq, -⟩
  · rw [heq, helems]
    exact Multiset.le_cons_self _ _
  · rw [heq]

theorem wellFormed_exec [IsStrictWeakOrder α outRanks] (op : Op α)
    (h : heap.WellFormed outRanks) : (exec outRanks op heap).2.WellFormed outRanks := by
  cases op with
  | push node => exact wellFormed_push h
  | pop => exact wellFormed_pop h
  | peek => exact h
  | remove rankable => exact wellFormed_remove h

theorem step_exec [IsStrictWeakOrder α outRanks] (op : Op α) (h : heap.WellFormed outRanks) :
    Step outRanks heap.elements op (exec outRanks op heap).1
      (exec outRanks op heap).2.elements := by
  cases op with
  | push node =>
    rw [exec, elements_push]
    exact .push
  | pop =>
    rcases pop_cases h with ⟨x, rest, -, heq, helems, htop, -⟩ | ⟨-, heq, helems⟩
    · rw [exec, heq, helems]
      exact .pop (helems ▸ htop)
    · rw [exec, heq, helems]
      exact .popEmpty
  | peek =>
    rcases peek_cases h with ⟨x, heq, hmem, htop⟩ | ⟨heq, helems⟩
    · rw [exec, heq]
      exact .peek hmem htop
    · rw [exec, heq, helems]
      exact .peekEmpty
  | remove rankable =>
    rcases remove_cases h rankable with ⟨rest, heq, helems, -⟩ | ⟨heq, hnot⟩
    · rw [exec, heq, helems]
      exact .remove
    · rw [exec, heq]
      exact .removeAbsent hnot

/-- **`LocHeap` is a priority queue.** After every sequence of operations the tree is a heap
whose nodes know their sizes, which is what `checkTree` finds, and what was answered and what
is stored is what a priority queue may answer and stores. -/
theorem isPriorityQueue_history [IsStrictWeakOrder α outRanks] (ops : List (Op α)) :
    let after := history (exec outRanks) ops empty
    after.2.checkTree outRanks = true ∧ after.2.mTree.Ordered outRanks ∧
      after.2.mTree.Sized ∧ Run outRanks 0 after.1 after.2.elements ∧
      after.2.elements + taken after.1 = pushed after.1 := by
  intro after
  have hgood : after.2.WellFormed outRanks :=
    history_invariant (fun op _ => wellFormed_exec op) ops wellFormed_empty
  have hrun : Run outRanks 0 after.1 after.2.elements :=
    Run.of_step (fun op _ => wellFormed_exec op) (fun op _ => step_exec op) ops
      wellFormed_empty
  refine ⟨checkTree_iff.mpr hgood, hgood.ordered, hgood.sized, hrun, ?_⟩
  rw [hrun.balance, Multiset.zero_add]

/-- What `remove` owes for the data `x`: take it out once if it is stored, and else answer
`NULL` and change nothing. -/
structure RemovesExactly (outRanks : α → α → Prop) [DecidableRel outRanks] (heap : LocHeap α)
    (x : α) : Prop where
  stored : x ∈ heap.elements → ∃ rest, heap.remove outRanks x = (some x, rest) ∧
    rest.elements = heap.elements.erase x ∧ rest.WellFormed outRanks
  absent : x ∉ heap.elements → heap.remove outRanks x = (none, heap)

theorem WellFormed.removesExactly [IsStrictWeakOrder α outRanks] (h : heap.WellFormed outRanks)
    (x : α) : RemovesExactly outRanks heap x := by
  rcases remove_cases h x with ⟨rest, heq, helems, hrest⟩ | ⟨heq, hnot⟩
  · have hmem : x ∈ heap.elements := helems ▸ Multiset.mem_cons_self x rest.elements
    refine ⟨fun _ => ⟨rest, heq, ?_, hrest⟩, fun hnot => absurd hmem hnot⟩
    rw [helems, Multiset.erase_cons_head]
  · exact ⟨fun hmem => absurd hmem hnot, fun _ => heq⟩

/-- **`remove` finds exactly what is stored**, after every sequence of operations and for
every data, also where others tie with it. -/
theorem removesExactly_history [IsStrictWeakOrder α outRanks] (ops : List (Op α)) (x : α) :
    RemovesExactly outRanks (history (exec outRanks) ops empty).2 x :=
  (history_invariant (fun op _ => wellFormed_exec op) ops wellFormed_empty).removesExactly x

end Remove

end LocHeap

/-! ## The data of the debug program -/

structure LocHeapDebugData where
  address : Nat
  mID : Int
deriving DecidableEq

namespace LocHeapDebugData

def ranks (this rankable : LocHeapDebugData) : Int := rankable.mID - this.mID

def outRanks (this rankable : LocHeapDebugData) : Prop := this.ranks rankable > 0

instance : DecidableRel outRanks := fun this rankable =>
  inferInstanceAs (Decidable (this.ranks rankable > 0))

instance : IsStrictWeakOrder LocHeapDebugData outRanks where
  irrefl a := by
    unfold outRanks ranks
    omega
  trans a b c := by
    unfold outRanks ranks
    omega
  incomp_trans a b c := by
    unfold outRanks ranks
    omega

def sampleOps : List (Op LocHeapDebugData) :=
  [.push ⟨1, 5⟩, .push ⟨2, 2⟩, .push ⟨3, 7⟩, .push ⟨4, 2⟩, .remove ⟨1, 5⟩, .pop, .peek]

theorem isPriorityQueue_history_sampleOps :
    let after := history (LocHeap.exec outRanks) sampleOps LocHeap.empty
    after.2.checkTree outRanks = true ∧ after.2.mTree.Ordered outRanks ∧
      after.2.mTree.Sized ∧ Run outRanks 0 after.1 after.2.elements ∧
      after.2.elements + taken after.1 = pushed after.1 :=
  LocHeap.isPriorityQueue_history sampleOps

/-- The datum `⟨2, 2⟩` is removed from below one of its rank. -/
theorem removesExactly_history_tie :
    LocHeap.RemovesExactly outRanks
      (history (LocHeap.exec outRanks) (sampleOps.take 4) LocHeap.empty).2 ⟨2, 2⟩ :=
  LocHeap.removesExactly_history (sampleOps.take 4) ⟨2, 2⟩

end LocHeapDebugData

end EtherDevice.GpsUtils
