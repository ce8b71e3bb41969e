import EtherDevice.Hal3.Memory
import EtherDevice.Lib.Transition
import Mathlib.Data.List.Flatten

/-!
# Heap memory of the camera HAL

`QCamera3HeapMemory::allocate` allocates the buffers one after the other and then maps them. A
failed allocation takes back what was allocated before it. A failed mapping takes back one mapping
at most, and the call goes on and succeeds.
-/

namespace EtherDevice.Hal3.Memory

open Lib

structure IonAnswers where
  opens : Bool := true
  allocates : Bool := true
  shares : Bool := true
deriving DecidableEq

def IonAnswers.Ok (answers : IonAnswers) : Prop :=
  answers.opens = true ∧ answers.allocates = true ∧ answers.shares = true

instance (answers : IonAnswers) : Decidable answers.Ok := inferInstanceAs (Decidable (_ ∧ _ ∧ _))

/-- `QCamera3HeapMemory`, and what it has from the kernel. -/
structure Heap where
  memInfo : Nat → MemInfo := fun _ => {}
  ptr : Nat → Nat := fun _ => 0
  bufferCount : Nat := 0
  os : Os := {}

section

variable (kernel : Kernel)

def allocOneBuffer (answers : IonAnswers) (size : Nat) (memInfo : MemInfo) (os : Os) :
    Int × MemInfo × Os :=
  if answers.opens = false then (noMemory, memInfo, os)
  else
    let mainIonFd := kernel.descriptor os.live
    let os := os.take (.descriptor mainIonFd)
    -- page size aligned, with a mask of 32 bits
    let len := (size + 4095) % 2 ^ 32 / 4096 * 4096
    if answers.allocates = false then (noMemory, memInfo, os.giveBack (.descriptor mainIonFd))
    else
      let handle := kernel.handle os.live mainIonFd
      let os := os.take (.handle mainIonFd handle)
      if answers.shares = false then
        (noMemory, memInfo,
          (os.giveBack (.handle mainIonFd handle)).giveBack (.descriptor mainIonFd))
      else
        let fd := kernel.descriptor os.live
        (0, { fd, mainIonFd, handle, size := len }, os.take (.descriptor fd))

def deallocOneBuffer (memInfo : MemInfo) (os : Os) : MemInfo × Os :=
  let (fd, os) :=
    if 0 ≤ memInfo.fd then (-1, os.giveBack (.descriptor memInfo.fd)) else (memInfo.fd, os)
  let (mainIonFd, os) :=
    if 0 ≤ memInfo.mainIonFd then
      (-1, (os.giveBack (.handle memInfo.mainIonFd memInfo.handle)).giveBack
        (.descriptor memInfo.mainIonFd))
    else (memInfo.mainIonFd, os)
  ({ fd, mainIonFd, handle := 0, size := 0 }, os)

namespace Heap

variable (s : Heap)

def deallocSlot (i : Nat) : Heap :=
  let (memInfo, os) := deallocOneBuffer (s.memInfo i) s.os
  { s with memInfo := Function.update s.memInfo i memInfo, os }

/-- The loop of `alloc` that takes back the slots below `n`, the last one first. -/
def deallocDown : Nat → Heap → Heap
  | 0, s => s
  | n + 1, s => deallocDown n (s.deallocSlot n)

def allocFrom (answers : Nat → IonAnswers) (size : Nat) : Nat → Nat → Heap → Int × Heap
  | _, 0, s => (0, s)
  | i, todo + 1, s =>
    let (rc, memInfo, os) := allocOneBuffer kernel (answers i) size (s.memInfo i) s.os
    let s := { s with memInfo := Function.update s.memInfo i memInfo, os }
    if rc < 0 then (rc, s.deallocDown i) else allocFrom answers size (i + 1) todo s

def alloc (answers : Nat → IonAnswers) (count size : Nat) : Int × Heap :=
  if maxNumFrames < count then (badIndex, s)
  else if s.bufferCount ≠ 0 then (invalidOperation, s)
  else s.allocFrom kernel answers size 0 count

/-- The loop of `allocate` that maps the slots, at slot `i` with `todo` slots to go. A failure
takes back the mapping before it. -/
def mapFrom (maps : Nat → Bool) : Nat → Nat → Int → Heap → Int × Heap
  | _, 0, rc, s => (rc, s)
  | i, todo + 1, rc, s =>
    if maps i then
      let vaddr := kernel.address s.os.live
      mapFrom maps (i + 1) todo rc
        { s with ptr := Function.update s.ptr i vaddr, os := s.os.take (.mapping vaddr) }
    else if i = 0 then mapFrom maps (i + 1) todo rc s
    else mapFrom maps (i + 1) todo noMemory
      { s with os := s.os.giveBack (.mapping (s.ptr (i - 1))) }

def allocate (answers : Nat → IonAnswers) (maps : Nat → Bool) (count size : Nat) : Int × Heap :=
  let (rc, s) := s.alloc kernel answers count size
  if rc < 0 then (rc, s)
  else
    let (rc, s) := s.mapFrom kernel maps 0 count rc
    (0, if rc = 0 then { s with bufferCount := count } else s)

def unmapFrom : Nat → Nat → Heap → Heap
  | _, 0, s => s
  | i, todo + 1, s => unmapFrom (i + 1) todo
      { s with ptr := Function.update s.ptr i 0, os := s.os.giveBack (.mapping (s.ptr i)) }

def deallocFrom : Nat → Nat → Heap → Heap
  | _, 0, s => s
  | i, todo + 1, s => deallocFrom (i + 1) todo (s.deallocSlot i)

def deallocate : Heap :=
  { (s.unmapFrom 0 s.bufferCount).deallocFrom 0 s.bufferCount with bufferCount := 0 }

end Heap

end

/-! ## One buffer -/

variable {answers : IonAnswers} {os : Os} {held : List Resource} {memInfo : MemInfo} {size : Nat}

def MemInfo.resources (memInfo : MemInfo) : List Resource :=
  [.descriptor memInfo.fd, .handle memInfo.mainIonFd memInfo.handle, .descriptor memInfo.mainIonFd]

def MemInfo.Opened (memInfo : MemInfo) : Prop := 0 ≤ memInfo.fd ∧ 0 ≤ memInfo.mainIonFd

theorem allocOneBuffer_ok (kernel : Kernel) (size : Nat) (memInfo : MemInfo) (h : os.Holds held)
    (hok : answers.Ok) :
    ∃ memInfo' os', allocOneBuffer kernel answers size memInfo os = (0, memInfo', os') ∧
      memInfo'.Opened ∧ os'.Holds (memInfo'.resources ++ held) := by
  obtain ⟨hopens, hallocates, hshares⟩ := hok
  unfold allocOneBuffer
  simp only [hopens, hallocates, hshares, Bool.true_eq_false, if_false]
  refine ⟨_, _, rfl, ⟨Int.natCast_nonneg _, Int.natCast_nonneg _⟩, ?_⟩
  exact ((h.take (kernel.descriptor_notMem _)).take (kernel.handle_notMem _ _)).take
    (kernel.descriptor_notMem _)

theorem allocOneBuffer_failed (kernel : Kernel) (size : Nat) (memInfo : MemInfo)
    (h : os.Holds held) (hfail : ¬ answers.Ok) :
    ∃ os', allocOneBuffer kernel answers size memInfo os = (noMemory, memInfo, os') ∧
      os'.Holds held := by
  have hmain := h.take (kernel.descriptor_notMem os.live)
  unfold allocOneBuffer
  split
  · exact ⟨os, rfl, h⟩
  split
  · exact ⟨_, rfl, hmain.giveBack⟩
  · split
    · exact ⟨_, rfl, (hmain.take (kernel.handle_notMem _ _)).giveBack.giveBack⟩
    · refine absurd ⟨?_, ?_, ?_⟩ hfail <;> simp_all

theorem deallocOneBuffer_opened (h : os.Holds (memInfo.resources ++ held))
    (hopened : memInfo.Opened) :
    ∃ os', deallocOneBuffer memInfo os = ({}, os') ∧ os'.Holds held := by
  unfold deallocOneBuffer
  rw [if_pos hopened.1]
  dsimp only
  rw [if_pos hopened.2]
  exact ⟨_, rfl, h.giveBack.giveBack.giveBack⟩

namespace Heap

variable {s : Heap} {i n : Nat} {slots : List Nat} {maps : Nat → Bool}

/-! ## Allocated slots -/

structure Allocated (s : Heap) (slots : List Nat) (held : List Resource) : Prop where
  holds : s.os.Holds (slots.flatMap (fun i => (s.memInfo i).resources) ++ held)
  opened : ∀ i ∈ slots, (s.memInfo i).Opened
  free : ∀ i ∉ slots, s.memInfo i = {}

theorem Allocated.perm {slots' : List Nat} (h : s.Allocated slots held)
    (hp : slots.Perm slots') : s.Allocated slots' held where
  holds := h.holds.perm ((hp.flatMap_right _).append_right _)
  opened i hi := h.opened i (hp.mem_iff.mpr hi)
  free i hi := h.free i fun hin => hi (hp.mem_iff.mp hin)

theorem flatMap_update (hi : i ∉ slots) (f : Nat → MemInfo) :
    slots.flatMap (fun j => (Function.update f i memInfo j).resources) =
      slots.flatMap fun j => (f j).resources := by
  refine List.flatMap_congr fun j hj => ?_
  have hji : j ≠ i := fun heq => hi (heq ▸ hj)
  rw [Function.update_of_ne hji]

theorem Allocated.deallocSlot (h : s.Allocated (i :: slots) held) (hi : i ∉ slots) :
    (s.deallocSlot i).Allocated slots held ∧ (s.deallocSlot i).ptr = s.ptr ∧
      (s.deallocSlot i).bufferCount = s.bufferCount := by
  have hholds := h.holds
  obtain ⟨os', hdealloc, hos'⟩ := deallocOneBuffer_opened hholds (h.opened i List.mem_cons_self)
  unfold Heap.deallocSlot
  rw [hdealloc]
  refine ⟨⟨?_, fun j hj => ?_, fun j hj => ?_⟩, rfl, rfl⟩
  · rw [flatMap_update hi]
    exact hos'
  · have hji : j ≠ i := fun heq => hi (heq ▸ hj)
    simp [hji, h.opened, hj]
  · dsimp only
    by_cases hji : j = i
    · rw [hji, Function.update_self]
    simp [hji, h.free, hj]

theorem range_succ_perm (n : Nat) : (List.range (n + 1)).Perm (n :: List.range n) := by
  simp [List.range_succ]

theorem deallocDown_allocated (n : Nat) {s : Heap} (h : s.Allocated (List.range n) held) :
    (deallocDown n s).Allocated [] held ∧ (deallocDown n s).ptr = s.ptr ∧
      (deallocDown n s).bufferCount = s.bufferCount := by
  induction n generalizing s with
  | zero => exact ⟨h, rfl, rfl⟩
  | succ n ih =>
    obtain ⟨hslot, hptr, hcount⟩ :=
      (h.perm (range_succ_perm n)).deallocSlot (by simp)
    obtain ⟨hrest, hptr', hcount'⟩ := ih hslot
    exact ⟨hrest, hptr'.trans hptr, hcount'.trans hcount⟩

theorem deallocFrom_allocated (i todo : Nat) {s : Heap}
    (h : s.Allocated (List.range' i todo) held) :
    (s.deallocFrom i todo).Allocated [] held ∧ (s.deallocFrom i todo).ptr = s.ptr ∧
      (s.deallocFrom i todo).bufferCount = s.bufferCount := by
  induction todo generalizing i s with
  | zero => exact ⟨h, rfl, rfl⟩
  | succ todo ih =>
    have hi : i ∉ List.range' (i + 1) todo := by
      simp
    obtain ⟨hslot, hptr, hcount⟩ := Allocated.deallocSlot h hi
    obtain ⟨hrest, hptr', hcount'⟩ := ih (i + 1) hslot
    exact ⟨hrest, hptr'.trans hptr, hcount'.trans hcount⟩

theorem Allocated.alloc (kernel : Kernel) (size : Nat) (h : s.Allocated slots held)
    (hi : i ∉ slots) (hok : answers.Ok) : ∃ memInfo os,
      allocOneBuffer kernel answers size (s.memInfo i) s.os = (0, memInfo, os) ∧
      Allocated { s with memInfo := Function.update s.memInfo i memInfo, os } (i :: slots)
        held := by
  obtain ⟨memInfo, os, halloc, hopened, hos⟩ :=
    allocOneBuffer_ok kernel size (s.memInfo i) h.holds hok
  refine ⟨memInfo, os, halloc, ?_, fun j hj => ?_, fun j hj => ?_⟩
  · simp [flatMap_update, hi, hos]
  · by_cases hji : j = i
    · simp [hji, hopened]
    · dsimp only
      rw [Function.update_of_ne hji]
      exact h.opened j ((List.mem_cons.mp hj).resolve_left hji)
  · have hji : j ≠ i := fun heq => hj (heq ▸ List.mem_cons_self)
    dsimp only
    rw [Function.update_of_ne hji]
    exact h.free j fun hin => hj (List.mem_cons_of_mem _ hin)

theorem allocFrom_spec (kernel : Kernel) (answers : Nat → IonAnswers) (size i todo : Nat) {s : Heap}
    (h : s.Allocated (List.range i) held) : ∃ s' : Heap,
      s'.ptr = s.ptr ∧ s'.bufferCount = s.bufferCount ∧
      ((∀ j, i ≤ j → j < i + todo → (answers j).Ok) ∧
          s.allocFrom kernel answers size i todo = (0, s') ∧
          s'.Allocated (List.range (i + todo)) held ∨
        (∃ j, i ≤ j ∧ j < i + todo ∧ ¬ (answers j).Ok) ∧
          s.allocFrom kernel answers size i todo = (noMemory, s') ∧ s'.Allocated [] held) := by
  induction todo generalizing i s with
  | zero => exact ⟨s, rfl, rfl, .inl ⟨fun j hj hlt => by omega, rfl, h⟩⟩
  | succ todo ih =>
    unfold allocFrom
    by_cases hok : (answers i).Ok
    · obtain ⟨memInfo, os, halloc, hnext⟩ := h.alloc kernel size List.not_mem_range_self hok
      rw [halloc]
      obtain ⟨s', hptr, hcount, hcases⟩ := ih (i + 1) (hnext.perm (range_succ_perm i).symm)
      grind
    · obtain ⟨os, halloc, hos⟩ := allocOneBuffer_failed kernel size (s.memInfo i) h.holds hok
      rw [halloc]
      dsimp only
      rw [if_pos (by decide), Function.update_eq_self]
      have hslots : Allocated { s with os } (List.range i) held := ⟨hos, h.opened, h.free⟩
      obtain ⟨hfree, hptr, hcount⟩ := deallocDown_allocated i hslots
      exact ⟨_, hptr, hcount, .inr ⟨⟨i, Nat.le_refl _, by omega, hok⟩, rfl, hfree⟩⟩

/-! ## Mapped slots -/

structure Mapped (s : Heap) (slots : List Nat) (held : List Resource) : Prop where
  holds : s.os.Holds (slots.map (fun i => .mapping (s.ptr i)) ++ held)
  free : ∀ i ∉ slots, s.ptr i = 0

theorem map_update (hi : i ∉ slots) (f : Nat → Nat) (addr : Nat) :
    slots.map (fun j => Resource.mapping (Function.update f i addr j)) =
      slots.map fun j => .mapping (f j) := by
  refine List.map_congr_left fun j hj => ?_
  have hji : j ≠ i := fun heq => hi (heq ▸ hj)
  rw [Function.update_of_ne hji]

theorem Mapped.perm {slots' : List Nat} (h : s.Mapped slots held) (hp : slots.Perm slots') :
    s.Mapped slots' held where
  holds := h.holds.perm ((hp.map _).append_right _)
  free i hi := h.free i fun hin => hi (hp.mem_iff.mp hin)

theorem mapFrom_mapped (kernel : Kernel) (i todo : Nat) (rc : Int) {s : Heap}
    (h : s.Mapped (List.range i) held) (hmaps : ∀ j, i ≤ j → j < i + todo → maps j = true) :
    ∃ s' : Heap, s.mapFrom kernel maps i todo rc = (rc, s') ∧ s'.memInfo = s.memInfo ∧
        s'.bufferCount = s.bufferCount ∧ s'.Mapped (List.range (i + todo)) held := by
  induction todo generalizing i s with
  | zero => exact ⟨s, rfl, rfl, rfl, h⟩
  | succ todo ih =>
    unfold mapFrom
    rw [if_pos (hmaps i (Nat.le_refl i) (by omega))]
    set vaddr := kernel.address s.os.live with hvaddr
    have hnext : Mapped { s with
        ptr := Function.update s.ptr i vaddr
        os := s.os.take (.mapping vaddr) } (i :: List.range i) held := by
      refine ⟨?_, fun j hj => ?_⟩
      · dsimp only
        rw [List.map_cons, Function.update_self, map_update List.not_mem_range_self]
        exact h.holds.take (kernel.address_notMem _)
      · have hji : j ≠ i := fun heq => hj (heq ▸ List.mem_cons_self)
        dsimp only
        rw [Function.update_of_ne hji]
        exact h.free j fun hin => hj (List.mem_cons_of_mem _ hin)
    obtain ⟨s', hrun, hinfo, hcount, hmapped⟩ := ih (i + 1) (hnext.perm (range_succ_perm i).symm)
      fun j hj hlt => hmaps j (by omega) (by omega)
    exact ⟨s', hrun, hinfo, hcount, by rwa [Nat.add_right_comm] at hmapped⟩

theorem mapFrom_failed (kernel : Kernel) (maps : Nat → Bool) (i todo : Nat) (rc : Int) (s : Heap)
    (hnull : .mapping 0 ∉ s.os.live) :
    .mapping 0 ∉ (s.mapFrom kernel maps i todo rc).2.os.live ∧
      ∀ j, maps j = false → (s.mapFrom kernel maps i todo rc).2.ptr j = s.ptr j := by
  induction todo generalizing i rc s with
  | zero => exact ⟨hnull, fun _ _ => rfl⟩
  | succ todo ih =>
    unfold mapFrom
    split
    · rename_i hok
      obtain ⟨hnull', hptr⟩ := ih (i + 1) rc { s with
          ptr := Function.update s.ptr i (kernel.address s.os.live)
          os := s.os.take (.mapping (kernel.address s.os.live)) } (by
        intro hin
        rcases List.mem_cons.mp hin with heq | hin
        · exact kernel.address_ne_zero _ (Resource.mapping.inj heq).symm
        · exact hnull hin)
      grind
    · split
      · exact ih (i + 1) rc s hnull
      · obtain ⟨hnull', hptr⟩ := ih (i + 1) noMemory
          { s with os := s.os.giveBack (.mapping (s.ptr (i - 1))) }
          fun hin => hnull (Stock.mem_of_mem_giveBack hin)
        exact ⟨hnull', hptr⟩

theorem unmapFrom_mapped (i todo : Nat) {s : Heap} (h : s.Mapped (List.range' i todo) held) :
    (s.unmapFrom i todo).Mapped [] held ∧ (s.unmapFrom i todo).memInfo = s.memInfo := by
  induction todo generalizing i s with
  | zero => exact ⟨h, rfl⟩
  | succ todo ih =>
    have hi : i ∉ List.range' (i + 1) todo := by
      simp
    refine ih (i + 1) ⟨?_, fun j hj => ?_⟩
    · rw [map_update hi]
      exact h.holds.giveBack
    · dsimp only
      by_cases hji : j = i
      · rw [hji, Function.update_self]
      · rw [Function.update_of_ne hji]
        refine h.free j fun hin => ?_
        exact (List.mem_cons.mp hin).elim hji hj

/-! ## Calls -/

def slot (s : Heap) (i : Nat) : List Resource := .mapping (s.ptr i) :: (s.memInfo i).resources

/-- The slots below the count are allocated and mapped, and no others. -/
structure Tidy (s : Heap) : Prop where
  holds : s.os.Holds ((List.range s.bufferCount).flatMap s.slot)
  opened : ∀ i < s.bufferCount, (s.memInfo i).Opened
  free : ∀ i, s.bufferCount ≤ i → s.memInfo i = {} ∧ s.ptr i = 0

theorem tidy_start : Tidy {} where
  holds := .empty
  opened _ hi := absurd hi (Nat.not_lt_zero _)
  free _ _ := ⟨rfl, rfl⟩

theorem Tidy.allocated (h : s.Tidy) (hcount : s.bufferCount = 0) :
    s.Allocated (List.range 0) [] where
  holds := by simpa [hcount] using h.holds
  opened i hi := absurd hi List.not_mem_nil
  free i _ := (h.free i (hcount ▸ Nat.zero_le i)).1

theorem allocate_all (kernel : Kernel) (size : Nat) (h : s.Tidy) (hcount : s.bufferCount = 0)
    {answers : Nat → IonAnswers} (hn : n ≤ maxNumFrames) (hok : ∀ i < n, (answers i).Ok)
    (hmaps : ∀ i < n, maps i = true) :
    ∃ s' : Heap, s.allocate kernel answers maps n size = (0, s') ∧ s'.bufferCount = n ∧
      s'.Tidy := by
  obtain ⟨s₁, hptr, hcount₁, ⟨-, hrun, halloc⟩ | ⟨⟨j, -, hlt, hnot⟩, -, -⟩⟩ :=
    allocFrom_spec kernel answers size 0 n (h.allocated hcount)
  · rw [Nat.zero_add] at halloc
    have hmapped : s₁.Mapped (List.range 0)
        ((List.range n).flatMap fun i => (s₁.memInfo i).resources) := by
      refine ⟨?_, fun i _ => ?_⟩
      · simpa using halloc.holds
      simp [hptr, h.free, hcount]
    obtain ⟨s₂, hmap, hinfo, -, hmapped'⟩ := mapFrom_mapped kernel 0 n 0 hmapped
      fun j _ hlt => hmaps j (by omega)
    rw [Nat.zero_add] at hmapped'
    refine ⟨{ s₂ with bufferCount := n }, ?_, rfl, ?_, fun i hi => ?_, fun i hi => ?_⟩
    · simp [allocate, alloc, if_neg, hn, hcount, hrun, hmap]
    · rw [← hinfo] at hmapped'
      exact hmapped'.holds.perm (List.map_append_flatMap_perm _ _ _)
    · simp [hinfo, halloc.opened, hi]
    · dsimp only at hi ⊢
      rw [hinfo]
      have hi' : i ∉ List.range n := fun hin => absurd (List.mem_range.mp hin) (by omega)
      exact ⟨halloc.free i hi', hmapped'.free i hi'⟩
  · exact absurd (hok j (by omega)) hnot

theorem allocate_none (kernel : Kernel) (maps : Nat → Bool) (size : Nat) (h : s.Tidy)
    (hcount : s.bufferCount = 0) {answers : Nat → IonAnswers} (hn : n ≤ maxNumFrames)
    (hfail : ∃ i < n, ¬ (answers i).Ok) :
    ∃ s' : Heap, s.allocate kernel answers maps n size = (noMemory, s') ∧ s'.bufferCount = 0 ∧
      s'.Tidy := by
  obtain ⟨s₁, hptr, hcount₁, ⟨hall, -, -⟩ | ⟨-, hrun, hfree⟩⟩ :=
    allocFrom_spec kernel answers size 0 n (h.allocated hcount)
  · obtain ⟨i, hi, hnot⟩ := hfail
    exact absurd (hall i (Nat.zero_le i) (by omega)) hnot
  · have hzero : s₁.bufferCount = 0 := hcount₁.trans hcount
    refine ⟨s₁, ?_, hzero, ?_, fun i hi => ?_, fun i hi => ?_⟩
    · unfold allocate alloc
      rw [if_neg (Nat.not_lt.mpr hn), if_neg (not_not.mpr hcount), hrun]
      rfl
    · simpa [hzero] using hfree.holds
    · exact absurd hi (by omega)
    simp [hptr, hfree.free, h.free, hcount]

theorem allocate_refused (kernel : Kernel) (answers : Nat → IonAnswers) (maps : Nat → Bool)
    (size : Nat) (hguard : maxNumFrames < n ∨ s.bufferCount ≠ 0) :
    ∃ rc, rc < 0 ∧ s.allocate kernel answers maps n size = (rc, s) := by
  unfold allocate alloc
  by_cases hn : maxNumFrames < n
  · simp [badIndex, hn]
  simp [invalidOperation, hn, hguard.resolve_left]

theorem deallocate_tidy (h : s.Tidy) :
    (s.deallocate).Tidy ∧ (s.deallocate).os.live = [] ∧ (s.deallocate).bufferCount = 0 := by
  have hmapped : s.Mapped (List.range' 0 s.bufferCount)
      ((List.range s.bufferCount).flatMap fun i => (s.memInfo i).resources) := by
    rw [← List.range_eq_range']
    refine ⟨h.holds.perm (List.map_append_flatMap_perm _ _ _).symm, fun i hi => ?_⟩
    exact (h.free i (by simpa using hi)).2
  obtain ⟨hunmapped, hinfo⟩ := unmapFrom_mapped 0 s.bufferCount hmapped
  have halloc : (s.unmapFrom 0 s.bufferCount).Allocated (List.range' 0 s.bufferCount) [] := by
    rw [← List.range_eq_range']
    refine ⟨?_, fun i hi => ?_, fun i hi => ?_⟩
    · rw [hinfo, List.append_nil]
      exact hunmapped.holds
    · rw [hinfo]
      exact h.opened i (List.mem_range.mp hi)
    · rw [hinfo]
      exact (h.free i (by simpa using hi)).1
  obtain ⟨hfree, hptr, -⟩ := deallocFrom_allocated 0 s.bufferCount halloc
  have hholds : (s.deallocate).os.Holds [] := hfree.holds
  refine ⟨⟨hholds, fun i hi => absurd hi (Nat.not_lt_zero i), fun i _ => ⟨?_, ?_⟩⟩,
    List.Perm.eq_nil hholds.live, rfl⟩
  · exact hfree.free i List.not_mem_nil
  · exact (congrFun hptr i).trans (hunmapped.free i List.not_mem_nil)

/-! ## All or nothing -/

def AllOrNothing (s : Heap) (count : Nat) (r : Int × Heap) : Prop :=
  r.1 = 0 ∧ r.2.bufferCount = count ∧
      r.2.os.Holds ((List.range count).flatMap r.2.slot ++ s.os.live) ∨
    r.1 < 0 ∧ r.2.bufferCount = s.bufferCount ∧ r.2.os.Holds s.os.live

end Heap

/-- The calls, with the answers of the kernel. -/
inductive HeapOp
  | allocate (kernel : Kernel) (answers : Nat → IonAnswers) (maps : Nat → Bool) (count size : Nat)
  | deallocate

def HeapOp.exec (s : Heap) : HeapOp → Heap
  | .allocate kernel answers maps count size => (s.allocate kernel answers maps count size).2
  | .deallocate => s.deallocate

/-- An allocation is all or nothing, and nothing is closed or unmapped that is not there. -/
def HeapOp.Kept (s : Heap) (op : HeapOp) : Prop :=
  (op.exec s).os.missed = [] ∧
    match op with
    | .allocate kernel answers maps count size =>
      s.AllOrNothing count (s.allocate kernel answers maps count size)
    | .deallocate => (op.exec s).os.live = [] ∧ (op.exec s).bufferCount = 0

/-- The call does not come to a mapping that fails. -/
def HeapOp.Maps (s : Heap) : HeapOp → Prop
  | .allocate _ answers maps count _ =>
    (maxNumFrames < count ∨ s.bufferCount ≠ 0 ∨ ∃ i < count, ¬ (answers i).Ok) ∨
      ∀ i < count, maps i = true
  | .deallocate => True

namespace Heap

variable {s : Heap} {op : HeapOp}

theorem tidy_exec (h : s.Tidy) (hmaps : op.Maps s) : (op.exec s).Tidy ∧ op.Kept s := by
  cases op with
  | deallocate =>
    obtain ⟨htidy, hlive, hcount⟩ := deallocate_tidy h
    exact ⟨htidy, htidy.holds.missed, hlive, hcount⟩
  | allocate kernel answers maps count size =>
    have hheld : s.os.Holds s.os.live := h.holds.perm h.holds.live.symm
    unfold HeapOp.Kept HeapOp.exec AllOrNothing
    dsimp only
    by_cases hguard : maxNumFrames < count ∨ s.bufferCount ≠ 0
    · obtain ⟨rc, hrc, hrun⟩ := allocate_refused kernel answers maps size hguard
      simp [hrun, h, h.holds.missed, hrc, hheld]
    · rw [not_or, Nat.not_lt, not_not] at hguard
      obtain ⟨hn, hzero⟩ := hguard
      have hlive : s.os.live = [] := by
        have hperm := h.holds.live
        simp_all
      by_cases hfail : ∃ i < count, ¬ (answers i).Ok
      · obtain ⟨s', hrun, hcount, htidy⟩ := allocate_none kernel maps size h hzero hn hfail
        rw [hrun]
        refine ⟨htidy, htidy.holds.missed,
          .inr ⟨show noMemory < 0 by decide, hcount.trans hzero.symm, ?_⟩⟩
        have hholds := htidy.holds
        simp_all
      · have hall : ∀ i < count, (answers i).Ok := fun i hi =>
          by_contra fun hnot => hfail ⟨i, hi, hnot⟩
        have hmap : ∀ i < count, maps i = true := by
          rcases hmaps with (hbig | hnonzero | hfail') | hmap
          · exact absurd hbig (Nat.not_lt.mpr hn)
          · exact absurd hzero hnonzero
          · exact absurd hfail' hfail
          · exact hmap
        obtain ⟨s', hrun, hcount, htidy⟩ := allocate_all kernel size h hzero hn hall hmap
        rw [hrun]
        refine ⟨htidy, htidy.holds.missed, .inl ⟨rfl, hcount, ?_⟩⟩
        have hholds := htidy.holds
        simp_all

theorem maps_of_kept (h : s.Tidy) (hkept : op.Kept s) : op.Maps s := by
  cases op with
  | deallocate => trivial
  | allocate kernel answers maps count size =>
    by_contra hmaps
    unfold HeapOp.Maps at hmaps
    rw [not_or, not_or, not_or, Nat.not_lt, not_not] at hmaps
    obtain ⟨⟨hn, hzero, hall⟩, hfail⟩ := hmaps
    obtain ⟨i, hi, hbad⟩ : ∃ i < count, maps i = false := by
      simp [by_contra, hfail]
    obtain ⟨s₁, hptr, -, ⟨-, hrun, halloc⟩ | ⟨⟨j, -, hlt, hnot⟩, -, -⟩⟩ :=
      allocFrom_spec kernel answers size 0 count (h.allocated hzero)
    · have hnull : .mapping 0 ∉ s₁.os.live := by
        simp [MemInfo.resources, halloc.holds.mem_iff]
      obtain ⟨hnull', hptr'⟩ := mapFrom_failed kernel maps 0 count 0 s₁ hnull
      have hcall : s.allocate kernel answers maps count size =
          (0, if (s₁.mapFrom kernel maps 0 count 0).1 = 0 then
            { (s₁.mapFrom kernel maps 0 count 0).2 with bufferCount := count }
          else (s₁.mapFrom kernel maps 0 count 0).2) := by
        simp [allocate, alloc, if_neg, hn, hzero, hrun]
      have hsame : (s.allocate kernel answers maps count size).2.os =
            (s₁.mapFrom kernel maps 0 count 0).2.os ∧
          (s.allocate kernel answers maps count size).2.ptr =
            (s₁.mapFrom kernel maps 0 count 0).2.ptr := by
        rw [hcall]
        split <;> exact ⟨rfl, rfl⟩
      rcases hkept.2 with ⟨-, -, hholds⟩ | ⟨hneg, -, -⟩
      · -- the pointer of the slot that was not mapped is `NULL`
        refine hnull' (hsame.1 ▸ hholds.mem_iff.mpr (List.mem_append_left _ ?_))
        refine List.mem_flatMap.mpr ⟨i, List.mem_range.mpr hi, List.mem_cons.mpr (.inl ?_)⟩
        rw [hsame.2, hptr' i hbad, hptr, (h.free i (hzero ▸ Nat.zero_le i)).2]
      simp_all
    · exact absurd (by_contra fun hnot' => hall ⟨j, by omega, hnot'⟩) hnot

/-- **Allocation is all or nothing, and nothing is closed or unmapped twice**, exactly in the runs
that never come to a mapping that fails. -/
theorem kept_iff_maps (ops : List HeapOp) :
    System.Along (fun s op => op.Kept s) HeapOp.exec ops {} ↔
      System.Along (fun s op => op.Maps s) HeapOp.exec ops {} := by
  refine System.along_iff (P := Tidy) (fun s op h => ⟨?_, fun hmaps => ?_⟩)
    (fun s op h hmaps => ?_) ops tidy_start
  · exact maps_of_kept h
  · exact (tidy_exec h hmaps).2
  · exact (tidy_exec h hmaps).1

/-- One buffer is allocated, and `mmap` fails. -/
def unmappedCalls : List HeapOp :=
  [.allocate Kernel.next (fun _ => {}) (fun _ => false) 1 4096]

theorem not_kept_unmapped :
    ¬ ∀ ops : List HeapOp, System.Along (fun s op => op.Kept s) HeapOp.exec ops {} := by
  intro h
  rcases (h unmappedCalls).1.2 with ⟨-, -, hholds⟩ | ⟨hneg, -, -⟩
  · exact absurd hholds.live.length_eq (by decide +kernel)
  · exact absurd hneg (by decide +kernel)

end Heap

end EtherDevice.Hal3.Memory
