import Mathlib
import EtherDevice.Lib.ByteMemory

/-!
# Conversion in place

A walk goes through some items and writes a word of 16 bits for each of them, which it computes from
the memory that it has changed so far. The items come in the order of falling positions, so that a
byte of an earlier position, or of the item's own word, is still the original one when the item has
its turn.

`exact_iff` is for walks that may read what they have written: if the words before are exact, the
item sees the original memory with those words in it.
-/

namespace EtherDevice.Lib

namespace Memory

def byteOf (v i : Nat) : UInt8 := UInt8.ofNat (v / 256 ^ i)

/-- The word at a position is stored, as two bytes. -/
def setWord (mem : Memory) (k v : Nat) : Memory :=
  fun a => if a / 2 = k then byteOf v (a % 2) else mem a

def word (mem : Memory) (k : Nat) : Nat := mem.loadLE (2 * k) 2

variable {mem mem' : Memory} {k a v : Nat}

theorem word_eq (mem : Memory) (k : Nat) :
    mem.word k = (mem (2 * k)).toNat + 256 * (mem (2 * k + 1)).toNat := rfl

theorem setWord_of_eq (h : a / 2 = k) : mem.setWord k v a = byteOf v (a % 2) := if_pos h

theorem setWord_of_ne (h : a / 2 ≠ k) : mem.setWord k v a = mem a := if_neg h

theorem word_of_bytes (hv : v < 65536) (h : ∀ a, a / 2 = k → mem a = byteOf v (a % 2)) :
    mem.word k = v := by
  have hlow : mem (2 * k) = UInt8.ofNat v := by
    rw [h (2 * k) (by omega), Nat.mul_mod_right]
    exact congrArg UInt8.ofNat (Nat.div_one v)
  have hhigh : mem (2 * k + 1) = UInt8.ofNat (v / 256) := by
    rw [h (2 * k + 1) (by omega), Nat.mul_add_mod]
    rfl
  rw [word_eq, hlow, hhigh, UInt8.toNat_ofNat', UInt8.toNat_ofNat']
  omega

/-! ## Walks -/

universe u

variable {ι : Type u}

def walk (value : Memory → ι → Nat) (pos : ι → Nat) (items : List ι) (mem : Memory) : Memory :=
  items.foldl (fun mem i => mem.setWord (pos i) (value mem i)) mem

variable {value : Memory → ι → Nat} {target : ι → Nat} {pos : ι → Nat} {items pre post : List ι}
  {i : ι}

theorem walk_append : walk value pos (pre ++ post) mem =
    walk value pos post (walk value pos pre mem) := List.foldl_append

theorem walk_cons : walk value pos (i :: post) mem =
    walk value pos post (mem.setWord (pos i) (value mem i)) := rfl

theorem walk_frame (h : ∀ i ∈ items, a / 2 ≠ pos i) : walk value pos items mem a = mem a := by
  induction items generalizing mem with
  | nil => rfl
  | cons i items ih =>
    simp_all [walk_cons, setWord_of_ne]

/-- The items come in the order of falling positions. -/
def Falling (pos : ι → Nat) (items : List ι) : Prop := items.Pairwise fun i j => pos j < pos i

theorem Falling.lt_of_pre (h : Falling pos (pre ++ i :: post)) : ∀ j ∈ pre, pos i < pos j :=
  fun j hj => (List.pairwise_append.mp h).2.2 j hj i List.mem_cons_self

theorem Falling.lt_of_post (h : Falling pos (pre ++ i :: post)) : ∀ j ∈ post, pos j < pos i :=
  (List.pairwise_cons.mp (List.pairwise_append.mp h).2.1).1

/-- The word of an item is the one that it computes at its turn. -/
theorem word_walk (h : Falling pos (pre ++ i :: post))
    (hv : value (walk value pos pre mem) i < 65536) :
    (walk value pos (pre ++ i :: post) mem).word (pos i) =
      value (walk value pos pre mem) i := by
  apply word_of_bytes hv
  intro a ha
  rw [walk_append, walk_cons, walk_frame, setWord_of_eq ha]
  intro j hj
  have hlt := h.lt_of_post j hj
  omega

/-- The bytes of a position at most that of the item are still the original ones. -/
theorem walk_pre (h : Falling pos (pre ++ i :: post)) (ha : a / 2 ≤ pos i) :
    walk value pos pre mem a = mem a := by
  apply walk_frame
  intro j hj
  have hlt := h.lt_of_pre j hj
  omega

theorem exact_of_behind (h : Falling pos items) (hv : ∀ i ∈ items, target i < 65536)
    (hvalue : ∀ i ∈ items, ∀ mem', (∀ a, a / 2 ≤ pos i → mem' a = mem a) →
      value mem' i = target i) :
    ∀ i ∈ items, (walk value pos items mem).word (pos i) = target i := by
  intro i hi
  obtain ⟨pre, post, rfl⟩ := List.append_of_mem hi
  grind [walk_pre, word_walk]

/-! ## Walks that read what they wrote -/

/-- The memory with the words that the items have to get. -/
def written (target : ι → Nat) (pos : ι → Nat) (items : List ι) (mem : Memory) : Memory :=
  walk (fun _ => target) pos items mem

theorem written_of_mem (h : Falling pos items) (hi : i ∈ items) (ha : a / 2 = pos i) :
    written target pos items mem a = byteOf (target i) (a % 2) := by
  obtain ⟨pre, post, rfl⟩ := List.append_of_mem hi
  rw [written, walk_append, walk_cons, walk_frame, setWord_of_eq ha]
  intro j hj
  have hlt := h.lt_of_post j hj
  omega

theorem walk_eq_written (hvalue : ∀ pre i post, items = pre ++ i :: post →
      walk value pos pre mem = written target pos pre mem →
      value (written target pos pre mem) i = target i) (pre post : List ι)
    (hitems : items = pre ++ post) : walk value pos pre mem = written target pos pre mem := by
  induction pre using List.reverseRecOn generalizing post with
  | nil => rfl
  | append_singleton pre i ih =>
    have hsplit : items = pre ++ i :: post := by
      simp_all
    have hpre := ih (i :: post) hsplit
    have hi := hvalue pre i post hsplit hpre
    rw [walk_append, walk_cons, hpre, hi, written, written, walk_append]
    rfl

/-- The items get their words exactly if each computes its own where those before it are written. -/
theorem exact_iff (target : ι → Nat) (mem : Memory) (h : Falling pos items)
    (hv : ∀ mem, ∀ i ∈ items, value mem i < 65536) :
    (∀ i ∈ items, (walk value pos items mem).word (pos i) = target i) ↔
      ∀ pre i post, items = pre ++ i :: post →
        value (written target pos pre mem) i = target i := by
  constructor
  · intro hexact
    have hturn : ∀ pre i post, items = pre ++ i :: post →
        walk value pos pre mem = written target pos pre mem →
        value (written target pos pre mem) i = target i := by
      grind [word_walk]
    intro pre i post hsplit
    exact hturn pre i post hsplit (walk_eq_written hturn pre (i :: post) hsplit)
  · intro hall i hi
    obtain ⟨pre, post, rfl⟩ := List.append_of_mem hi
    have hpre := walk_eq_written (fun pre i post hsplit _ => hall pre i post hsplit) pre (i :: post)
      rfl
    rw [word_walk h (hv _ i hi), hpre]
    exact hall pre i post rfl

end Memory

end EtherDevice.Lib
