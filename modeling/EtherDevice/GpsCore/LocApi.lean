import Mathlib
import EtherDevice.Lib.Transition

/-!
# The adapters of the location API

`LocApiBase` keeps its adapters in the front of an array, and calls them in the order of the array.
An adapter registers when it is made and leaves when it is destroyed. The array has ten places;
whoever finds it full is forgotten. `Delivers` says who is called, and holds in every reachable
state (`delivers_of_reachable`).
-/

namespace EtherDevice.GpsCore

open Lib

def maxAdapters : Nat := 10

inductive Sent where
  | locOpenMsg (mask : UInt32)
  | close
deriving Repr, DecidableEq

/-- `mEvtMask` is that of the adapters. `alive` and `refused` record which adapters exist, and which
of them found the array full. -/
structure LocApi where
  mLocAdapters : List (Option Nat)
  mExcludedMask : UInt32
  mEvtMask : Nat → UInt32
  sent : List Sent
  alive : List Nat
  refused : List Nat

def toAllAdapters : List (Option Nat) → List Nat
  | some adapter :: slots => adapter :: toAllAdapters slots
  | _ => []

def to1stHandlingAdapter (handles : Nat → Bool) : List (Option Nat) → List Nat
  | some adapter :: slots =>
    adapter :: if handles adapter then [] else to1stHandlingAdapter handles slots
  | _ => []

/-- The array, and whether the adapter was entered. -/
def enter (adapter : Nat) : List (Option Nat) → List (Option Nat) × Bool
  | [] => ([], false)
  | none :: slots => (some adapter :: slots, true)
  | some a :: slots =>
    if a = adapter then (some a :: slots, false)
    else (some a :: (enter adapter slots).1, (enter adapter slots).2)

namespace LocApi

variable {s s' : LocApi} {l : List Nat}

def new (excludedMask : UInt32) : LocApi where
  mLocAdapters := List.replicate maxAdapters none
  mExcludedMask := excludedMask
  mEvtMask _ := 0
  sent := []
  alive := []
  refused := []

def getEvtMask (s : LocApi) : UInt32 :=
  (toAllAdapters s.mLocAdapters).foldl (fun mask adapter => mask ||| s.mEvtMask adapter) 0 &&&
    ~~~s.mExcludedMask

def sendMsg (s : LocApi) (msg : Sent) : LocApi := { s with sent := s.sent ++ [msg] }

def addAdapter (s : LocApi) (adapter : Nat) : LocApi :=
  let (slots, entered) := enter adapter s.mLocAdapters
  if entered then { s with mLocAdapters := slots }.sendMsg (.locOpenMsg (s.mEvtMask adapter))
  else { s with refused := adapter :: s.refused }

/-- The last adapter moves to the place of the one that leaves. -/
def removeAdapter (s : LocApi) (adapter : Nat) : LocApi :=
  let used := toAllAdapters s.mLocAdapters
  let j := used.idxOf adapter
  let i := used.length - 1
  if j < used.length then
    let slots := (s.mLocAdapters.set j (s.mLocAdapters.getD i none)).set i none
    let s := { s with mLocAdapters := slots }
    s.sendMsg (if i = 0 then .close else .locOpenMsg s.getEvtMask)
  else { s with refused := s.refused.erase adapter }

def updateEvtMask (s : LocApi) : LocApi := s.sendMsg (.locOpenMsg s.getEvtMask)

inductive Op where
  | construct (adapter : Nat) (mask : UInt32)
  | destruct (adapter : Nat)
  | updateEvtMask (adapter : Nat) (event : UInt32) (isEnabled : Bool)

/-- Two adapters are never at one address, and one that is destroyed makes no calls. -/
def Allowed (s : LocApi) : Op → Prop
  | .construct adapter _ => adapter ∉ s.alive
  | .destruct adapter => adapter ∈ s.alive
  | .updateEvtMask adapter _ _ => adapter ∈ s.alive

def exec (s : LocApi) : Op → LocApi
  | .construct adapter mask =>
    { s with alive := adapter :: s.alive, mEvtMask := Function.update s.mEvtMask adapter mask
      }.addAdapter adapter
  | .destruct adapter => { s.removeAdapter adapter with alive := s.alive.erase adapter }
  | .updateEvtMask adapter event isEnabled =>
    let mask := s.mEvtMask adapter
    let mask' := if isEnabled then mask ||| event else mask &&& ~~~event
    { s with mEvtMask := Function.update s.mEvtMask adapter mask' }.updateEvtMask

def system : System LocApi Op where
  init s := ∃ excludedMask, s = new excludedMask
  step s op s' := s.Allowed op ∧ s' = s.exec op

/-! ## The array holds a list -/

def Holds (slots : List (Option Nat)) (l : List Nat) : Prop :=
  l.length ≤ maxAdapters ∧
    slots = l.map some ++ List.replicate (maxAdapters - l.length) none

theorem toAllAdapters_append (l : List Nat) (k : Nat) :
    toAllAdapters (l.map some ++ List.replicate k none) = l := by
  induction l with
  | nil => cases k <;> rfl
  | cons adapter l ih => exact congrArg (adapter :: ·) ih

theorem to1stHandlingAdapter_append (handles : Nat → Bool) (l : List Nat) (k : Nat) :
    to1stHandlingAdapter handles (l.map some ++ List.replicate k none) =
      l.takeWhile (fun a => !handles a) ++ (l.dropWhile fun a => !handles a).take 1 := by
  induction l with
  | nil => cases k <;> rfl
  | cons adapter l ih =>
    rw [List.map_cons, List.cons_append]
    unfold to1stHandlingAdapter
    cases hadapter : handles adapter with
    | true => simp [hadapter]
    | false => simp [hadapter, ih]

theorem enter_append {adapter : Nat} (hnew : adapter ∉ l) (k : Nat) :
    enter adapter (l.map some ++ List.replicate k none) =
      if k = 0 then (l.map some, false)
      else ((l ++ [adapter]).map some ++ List.replicate (k - 1) none, true) := by
  induction l with
  | nil => cases k <;> simp [enter, List.replicate_succ]
  | cons a l ih =>
    rw [List.mem_cons, not_or] at hnew
    rw [List.map_cons, List.cons_append]
    unfold enter
    rw [if_neg (Ne.symm hnew.1), ih hnew.2]
    split_ifs <;> rfl

theorem set_getLast {last : Nat} {adapters : List Nat} (k : Nat) :
    (((adapters ++ [last]).map some ++ List.replicate k none).set adapters.length none) =
      adapters.map some ++ List.replicate (k + 1) none := by
  rw [List.map_append, List.append_assoc, List.set_append_right _ _ (by simp)]
  simp [List.replicate_succ]

theorem idxOf_middle {adapter : Nat} {front back : List Nat} (hfront : adapter ∉ front) :
    (front ++ adapter :: back).idxOf adapter = front.length := by
  rw [List.idxOf_append_of_notMem hfront, List.idxOf_cons_self, Nat.add_zero]

theorem exists_removed {adapter : Nat} (hmem : adapter ∈ l) (k : Nat) :
    ∃ rest, l.Perm (adapter :: rest) ∧
      ((l.map some ++ List.replicate k none).set (l.idxOf adapter)
        ((l.map some ++ List.replicate k none).getD (l.length - 1) none)).set (l.length - 1) none =
        rest.map some ++ List.replicate (k + 1) none := by
  obtain ⟨front, back, rfl, hfront⟩ := List.eq_append_cons_of_mem hmem
  rw [idxOf_middle hfront]
  obtain rfl | ⟨mid, last, rfl⟩ := List.eq_nil_or_concat' back
  · have hlast : (front ++ [adapter]).length - 1 = front.length := by simp
    refine ⟨front, List.perm_append_comm, ?_⟩
    rw [hlast, List.set_set, set_getLast]
  · have hlast : (front ++ adapter :: (mid ++ [last])).length - 1 =
        (front ++ last :: mid).length := by
      simp
    have hget : ((front ++ adapter :: (mid ++ [last])).map some ++ List.replicate k none).getD
        (front ++ last :: mid).length none = some last := by
      simp [List.getD_eq_getElem?_getD]
    have hset : ((front ++ adapter :: (mid ++ [last])).map some ++ List.replicate k none).set
        front.length (some last) =
          ((front ++ last :: mid) ++ [last]).map some ++ List.replicate k none := by
      simp
    refine ⟨front ++ last :: mid, ?_, ?_⟩
    · apply List.perm_middle.trans
      apply List.Perm.cons
      apply List.Perm.append_left
      exact List.perm_append_comm
    · rw [hlast, hget, hset, set_getLast]

/-! ## Every run -/

/-- The array holds the adapters that exist and were not refused. -/
structure Registered (s : LocApi) (l : List Nat) : Prop where
  holds : Holds s.mLocAdapters l
  nodup : s.alive.Nodup
  perm : s.alive.Perm (l ++ s.refused)

theorem Registered.toAll (h : Registered s l) : toAllAdapters s.mLocAdapters = l := by
  rw [h.holds.2]
  exact toAllAdapters_append ..

theorem Registered.construct {adapter : Nat} (h : Registered s l) (hnew : adapter ∉ s.alive)
    (mask : UInt32) : ∃ l', Registered (s.exec (.construct adapter mask)) l' := by
  have hfresh : adapter ∉ l := fun hmem => hnew (h.perm.mem_iff.mpr (List.mem_append_left _ hmem))
  have henter := enter_append hfresh (maxAdapters - l.length)
  have hnodup : (adapter :: s.alive).Nodup := List.nodup_cons.mpr ⟨hnew, h.nodup⟩
  rw [← h.holds.2] at henter
  unfold exec addAdapter
  dsimp only
  rw [henter]
  by_cases hfull : maxAdapters - l.length = 0
  · rw [if_pos hfull]
    refine ⟨l, h.holds, hnodup, ?_⟩
    exact (h.perm.cons adapter).trans List.perm_middle.symm
  · rw [if_neg hfull]
    refine ⟨l ++ [adapter], ⟨?_, ?_⟩, hnodup, ?_⟩
    · rw [List.length_append, List.length_singleton]
      omega
    · rw [List.length_append, List.length_singleton, Nat.sub_add_eq]
      rfl
    · rw [List.append_assoc]
      exact (h.perm.cons adapter).trans List.perm_middle.symm

theorem Registered.destruct {adapter : Nat} (h : Registered s l) :
    ∃ l', Registered (s.exec (.destruct adapter)) l' := by
  have hnodup := h.nodup.erase adapter
  have herase := h.perm.erase adapter
  unfold exec removeAdapter
  dsimp only
  rw [h.toAll]
  by_cases hidx : l.idxOf adapter < l.length
  · have hmem : adapter ∈ l := List.idxOf_lt_length_iff.mp hidx
    obtain ⟨rest, hperm, hslots⟩ := exists_removed hmem (maxAdapters - l.length)
    have hlen := hperm.length_eq
    have hmax := h.holds.1
    rw [List.length_cons] at hlen
    rw [← h.holds.2] at hslots
    rw [if_pos hidx]
    refine ⟨rest, ⟨by omega, ?_⟩, hnodup, ?_⟩
    · have hfree : maxAdapters - rest.length = maxAdapters - l.length + 1 := by omega
      rw [hfree]
      exact hslots
    · refine ((h.perm.trans (hperm.append_right _)).erase adapter).trans ?_
      rw [List.cons_append, List.erase_cons_head]
      exact List.Perm.refl _
  · have hmem : adapter ∉ l := fun hmem => hidx (List.idxOf_lt_length_iff.mpr hmem)
    rw [List.erase_append_right _ hmem] at herase
    rw [if_neg hidx]
    exact ⟨l, h.holds, hnodup, herase⟩

theorem registered_invariant : system.Invariant fun s => ∃ l, Registered s l where
  init := by
    rintro s ⟨excludedMask, rfl⟩
    exact ⟨[], ⟨Nat.zero_le _, rfl⟩, List.nodup_nil, List.Perm.refl _⟩
  step := by
    rintro s op s' ⟨l, h⟩ ⟨hallowed, rfl⟩
    cases op with
    | construct adapter mask => exact h.construct hallowed mask
    | destruct adapter => exact h.destruct
    | updateEvtMask adapter event isEnabled => exact ⟨l, h.holds, h.nodup, h.perm⟩

/-- Who is called, and which events are asked for. -/
structure Delivers (s : LocApi) : Prop where
  toAll : ∀ adapter, (toAllAdapters s.mLocAdapters).count adapter =
    if adapter ∈ s.alive ∧ adapter ∉ s.refused then 1 else 0
  atMost : (toAllAdapters s.mLocAdapters).length ≤ maxAdapters
  to1st : ∀ handles : Nat → Bool,
    (to1stHandlingAdapter handles s.mLocAdapters).Nodup ∧
      ((to1stHandlingAdapter handles s.mLocAdapters).filter handles).length =
        if ∃ adapter ∈ s.alive, adapter ∉ s.refused ∧ handles adapter then 1 else 0
  evtMask : ∀ bit < 32, s.getEvtMask.toBitVec.getLsbD bit = true ↔
    s.mExcludedMask.toBitVec.getLsbD bit = false ∧
      ∃ adapter ∈ s.alive, adapter ∉ s.refused ∧ (s.mEvtMask adapter).toBitVec.getLsbD bit = true

theorem Registered.mem_iff (h : Registered s l) {adapter : Nat} :
    adapter ∈ l ↔ adapter ∈ s.alive ∧ adapter ∉ s.refused := by
  have hdisjoint := List.disjoint_of_nodup_append (h.perm.nodup_iff.mp h.nodup)
  rw [h.perm.mem_iff, List.mem_append]
  constructor
  · intro hmem
    exact ⟨.inl hmem, hdisjoint hmem⟩
  · rintro ⟨hmem | hmem, hnot⟩
    · exact hmem
    · exact absurd hmem hnot

theorem filter_firstHandling (handles : Nat → Bool) (l : List Nat) :
    ((l.takeWhile (fun a => !handles a) ++ (l.dropWhile fun a => !handles a).take 1).filter
      handles).length = if ∃ adapter ∈ l, handles adapter then 1 else 0 := by
  induction l with
  | nil => simp
  | cons adapter l ih =>
    cases hadapter : handles adapter with
    | true => simp [hadapter]
    | false => simpa [hadapter] using ih

theorem getLsbD_foldl (mask : Nat → UInt32) (bit : Nat) (l : List Nat) (start : UInt32) :
    (l.foldl (fun m adapter => m ||| mask adapter) start).toBitVec.getLsbD bit =
      (start.toBitVec.getLsbD bit || l.any fun adapter => (mask adapter).toBitVec.getLsbD bit) := by
  induction l generalizing start with
  | nil => simp
  | cons adapter l ih =>
    rw [List.foldl_cons, ih, List.any_cons, UInt32.toBitVec_or, BitVec.getLsbD_or, Bool.or_assoc]

/-- Every adapter that found a place is called once for every event as long as it exists, unless one
before it handles the event. -/
theorem delivers_of_reachable (h : system.Reachable s) : s.Delivers := by
  obtain ⟨l, hreg⟩ := registered_invariant.reachable h
  have hall := hreg.toAll
  have hnodup : l.Nodup := (List.nodup_append.mp (hreg.perm.nodup_iff.mp hreg.nodup)).1
  refine ⟨?_, ?_, ?_, ?_⟩
  · intro adapter
    rw [hall, hnodup.count]
    simp only [hreg.mem_iff]
  · rw [hall]
    exact hreg.holds.1
  · intro handles
    rw [hreg.holds.2, to1stHandlingAdapter_append, filter_firstHandling]
    constructor
    · have htake : ((l.takeWhile fun a => !handles a) ++ (l.dropWhile fun a => !handles a).take 1)
          |>.Sublist l := by
        conv_rhs => rw [← List.takeWhile_append_dropWhile (p := fun a => !handles a) (l := l)]
        exact (List.take_sublist ..).append_left _
      exact hnodup.sublist htake
    · simp only [hreg.mem_iff, and_assoc]
  · intro bit hbit
    unfold getEvtMask
    rw [hall, UInt32.toBitVec_and, BitVec.getLsbD_and, getLsbD_foldl, UInt32.toBitVec_not,
      BitVec.getLsbD_not]
    simp [hbit, hreg.mem_iff, and_assoc, and_comm]

theorem delivers_of_reachable_two :
    ((((new 0).exec (.construct 7 1)).exec (.construct 9 6)).exec (.destruct 7)).Delivers := by
  have hnew : system.Reachable (new 0) := .init ⟨0, rfl⟩
  have hone := hnew.step (i := Op.construct 7 1) ⟨show 7 ∉ [] by decide, rfl⟩
  have htwo := hone.step (i := Op.construct 9 6) ⟨show 9 ∉ [7] by decide, rfl⟩
  exact delivers_of_reachable (htwo.step (i := Op.destruct 7) ⟨show 7 ∈ [9, 7] by decide, rfl⟩)

end LocApi

end EtherDevice.GpsCore
