import Mathlib.Data.Multiset.AddSub
import Mathlib.Order.Defs.Unbundled
import Mathlib.Tactic.Common

/-!
# Priority queues

A priority queue stores a multiset and gives out an element that no other outranks. Which
one, if several do, is open: `Step` is a relation, and `Run` is its closure over sequences
of operations with their answers.

Ranking is a strict weak order: elements that do not outrank each other rank equally.
`Tops` says that an element may be given out. `Run.of_step` lifts an implementation from
single operations to sequences.
-/

namespace EtherDevice.Lib.PriorityQueue

universe u v

variable {α : Type u}

/-! ## Ranking -/

/-- Nothing stored outranks `x`. -/
def Tops (outRanks : α → α → Prop) (x : α) (stored : Multiset α) : Prop :=
  ∀ y ∈ stored, ¬ outRanks y x

section Order

variable {outRanks : α → α → Prop} {x y z : α} {stored stored' : Multiset α}

theorem not_outRanks_trans [IsStrictWeakOrder α outRanks] (hxy : ¬ outRanks y x)
    (hyz : ¬ outRanks z y) : ¬ outRanks z x := by
  intro hzx
  have hyz' : ¬ outRanks y z := fun h => hxy (IsTrans.trans y z x h hzx)
  have hxy' : ¬ outRanks x y := fun h => hyz (IsTrans.trans z x y hzx h)
  exact (IsStrictWeakOrder.incomp_trans z y x ⟨hyz, hyz'⟩ ⟨hxy, hxy'⟩).1 hzx

theorem not_outRanks_of_outRanks [IsStrictWeakOrder α outRanks] (h : outRanks x y) :
    ¬ outRanks y x :=
  fun h' => irrefl_of outRanks x (trans_of outRanks h h')

theorem Tops.of_not_outRanks [IsStrictWeakOrder α outRanks] (hy : Tops outRanks y stored)
    (hxy : ¬ outRanks y x) : Tops outRanks x stored :=
  fun z hz => not_outRanks_trans hxy (hy z hz)

@[simp] theorem tops_zero : Tops outRanks x 0 := fun _ h => absurd h (Multiset.notMem_zero _)

theorem tops_cons :
    Tops outRanks x (y ::ₘ stored) ↔ ¬ outRanks y x ∧ Tops outRanks x stored := by
  simp [Tops]

theorem tops_add :
    Tops outRanks x (stored + stored') ↔ Tops outRanks x stored ∧ Tops outRanks x stored' := by
  simp only [Tops, Multiset.mem_add, or_imp, forall_and]

end Order

/-! ## Operations -/

/-- The operations. The answer to each is an element or nothing. -/
inductive Op (α : Type u) where
  | push (x : α)
  | pop
  | peek
  | remove (x : α)
deriving DecidableEq

/-- What an operation may answer and what is stored afterwards. -/
inductive Step (outRanks : α → α → Prop) : Multiset α → Op α → Option α → Multiset α → Prop
  | push {x : α} {stored : Multiset α} : Step outRanks stored (.push x) none (x ::ₘ stored)
  | pop {x : α} {stored : Multiset α} :
      Tops outRanks x (x ::ₘ stored) → Step outRanks (x ::ₘ stored) .pop (some x) stored
  | popEmpty : Step outRanks 0 .pop none 0
  | peek {x : α} {stored : Multiset α} :
      x ∈ stored → Tops outRanks x stored → Step outRanks stored .peek (some x) stored
  | peekEmpty : Step outRanks 0 .peek none 0
  | remove {x : α} {stored : Multiset α} :
      Step outRanks (x ::ₘ stored) (.remove x) (some x) stored
  | removeAbsent {x : α} {stored : Multiset α} :
      x ∉ stored → Step outRanks stored (.remove x) none stored

/-- Sequences of operations, each with its answer. -/
inductive Run (outRanks : α → α → Prop) :
    Multiset α → List (Op α × Option α) → Multiset α → Prop
  | nil {stored : Multiset α} : Run outRanks stored [] stored
  | cons {stored stored' stored'' : Multiset α} {op : Op α} {answer : Option α}
      {rest : List (Op α × Option α)} :
      Step outRanks stored op answer stored' → Run outRanks stored' rest stored'' →
      Run outRanks stored ((op, answer) :: rest) stored''

/-! ## What was pushed and what was taken -/

def pushed : List (Op α × Option α) → Multiset α
  | [] => 0
  | (.push x, _) :: rest => x ::ₘ pushed rest
  | _ :: rest => pushed rest

/-- The elements that `pop` and `remove` gave out. -/
def taken : List (Op α × Option α) → Multiset α
  | [] => 0
  | (.pop, some x) :: rest => x ::ₘ taken rest
  | (.remove _, some x) :: rest => x ::ₘ taken rest
  | _ :: rest => taken rest

theorem Run.balance {outRanks : α → α → Prop} {stored stored' : Multiset α}
    {steps : List (Op α × Option α)} (h : Run outRanks stored steps stored') :
    stored' + taken steps = stored + pushed steps := by
  induction h with
  | nil => rfl
  | cons hstep _ ih =>
    cases hstep with
    | push => simpa only [taken, pushed, Multiset.cons_add, Multiset.add_cons] using ih
    | pop => simp [taken, pushed, ih]
    | remove => simp [taken, pushed, ih]
    | popEmpty | peek | peekEmpty | removeAbsent => exact ih

/-! ## Implementations -/

section Implementation

variable {σ : Type v} (exec : Op α → σ → Option α × σ)

/-- A sequence of operations: each with its answer, and the state after them. -/
def history : List (Op α) → σ → List (Op α × Option α) × σ
  | [], s => ([], s)
  | op :: ops, s =>
    let done := exec op s
    let rest := history ops done.2
    ((op, done.1) :: rest.1, rest.2)

variable {exec} {outRanks : α → α → Prop} {elements : σ → Multiset α} {Good : σ → Prop}

/-- An invariant of each operation is one of sequences of operations. -/
theorem history_invariant (hgood : ∀ op s, Good s → Good (exec op s).2) (ops : List (Op α))
    {s : σ} (hs : Good s) : Good (history exec ops s).2 := by
  induction ops generalizing s with
  | nil => exact hs
  | cons op ops ih => exact ih (hgood op s hs)

/-- If each operation is a step of the priority queue, then sequences are runs of it. -/
theorem Run.of_step (hgood : ∀ op s, Good s → Good (exec op s).2)
    (hstep : ∀ op s, Good s →
      Step outRanks (elements s) op (exec op s).1 (elements (exec op s).2))
    (ops : List (Op α)) {s : σ} (hs : Good s) :
    Run outRanks (elements s) (history exec ops s).1 (elements (history exec ops s).2) := by
  induction ops generalizing s with
  | nil => exact .nil
  | cons op ops ih => exact .cons (hstep op s hs) (ih (hgood op s hs))

end Implementation

end EtherDevice.Lib.PriorityQueue
