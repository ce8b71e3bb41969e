import EtherDevice.Lib.Transition
import Mathlib.Data.List.Nodup
import Mathlib.Data.List.Perm.Basic
import Mathlib.Data.Nat.ModEq

/-!
# Offline buffers of a reprocess channel

`doReprocessOffline` maps the input buffer and the metadata buffer of a frame and puts them into
two lists, from which `unmapOfflineBuffers` takes the first ones. A metadata buffer whose input
buffer could not be mapped stays mapped without being in a list. Where only the metadata buffer, or
the command, fails, the mappings stay in the lists, and the lists no longer belong together.
-/

namespace EtherDevice.Hal3.OfflineBuffers

open Lib

inductive MappingType
  | offlineInputBuf
  | offlineMetaBuf
deriving DecidableEq

/-- `OfflineBuffer`. Its stream is always the first one of the channel. -/
structure OfflineBuffer where
  type : MappingType
  index : Nat
deriving DecidableEq

def inputBuf (index : Nat) : OfflineBuffer := ⟨.offlineInputBuf, index⟩

def metaBuf (index : Nat) : OfflineBuffer := ⟨.offlineMetaBuf, index⟩

/-- `QCamera3ReprocessChannel`. `mapped` is what the backend has mapped, `missed` what was unmapped
without being mapped, and `outstanding` are the two indices of each frame that was sent and not
unmapped since. -/
structure ReprocessChannel where
  mNumBuffers : Nat
  mOfflineBuffers : List OfflineBuffer := []
  mOfflineMetaBuffers : List OfflineBuffer := []
  mOfflineBuffersIndex : Int := -1
  mOfflineMetaIndex : Int := (mNumBuffers : Int) - 1
  mapped : List OfflineBuffer := []
  missed : List OfflineBuffer := []
  outstanding : List (Nat × Nat) := []

/-- Whether the checks of the frame and of the stream pass, and which calls succeed. -/
structure Answers where
  valid : Bool := true
  input : Bool := true
  metadata : Bool := true
  setParameter : Bool := true

inductive Op
  | doReprocessOffline (answers : Answers)
  | unmapOfflineBuffers (all : Bool)

namespace ReprocessChannel

variable (s : ReprocessChannel)

def mapInput (ok : Bool) : Nat × ReprocessChannel :=
  let last := if s.mOfflineBuffersIndex = (s.mNumBuffers : Int) - 1 then -1
    else s.mOfflineBuffersIndex
  let index := (last + 1).toNat
  (index, if ok then
    { s with
      mOfflineBuffers := s.mOfflineBuffers ++ [inputBuf index]
      mOfflineBuffersIndex := index
      mapped := inputBuf index :: s.mapped }
  else { s with mOfflineBuffersIndex := last })

/-- `mapBuf` of the metadata buffer, which is put into its list if nothing has failed so far. -/
def mapMetadata (ok noError : Bool) : Nat × ReprocessChannel :=
  let last := if s.mOfflineMetaIndex = (s.mNumBuffers : Int) * 2 - 1 then (s.mNumBuffers : Int) - 1
    else s.mOfflineMetaIndex
  let index := (last + 1).toNat
  let mapped := if ok then metaBuf index :: s.mapped else s.mapped
  (index, if ok && noError then
    { s with
      mOfflineMetaBuffers := s.mOfflineMetaBuffers ++ [metaBuf index]
      mOfflineMetaIndex := index
      mapped }
  else { s with mOfflineMetaIndex := last, mapped })

def doReprocessOffline (answers : Answers) : Bool × ReprocessChannel :=
  if answers.valid = false then (false, s)
  else
    let first := s.mapInput answers.input
    let second := first.2.mapMetadata answers.metadata answers.input
    if answers.input && answers.metadata && answers.setParameter then
      (true, { second.2 with outstanding := second.2.outstanding ++ [(first.1, second.1)] })
    else (false, second.2)

def unmapBuf (s : ReprocessChannel) (b : OfflineBuffer) : ReprocessChannel :=
  if b ∈ s.mapped then { s with mapped := s.mapped.erase b }
  else { s with missed := b :: s.missed }

def unmapOfflineBuffers (all : Bool) : ReprocessChannel :=
  let n := if all then s.mOfflineBuffers.length else 1
  let m := if all then s.mOfflineMetaBuffers.length else 1
  let t := (s.mOfflineBuffers.take n ++ s.mOfflineMetaBuffers.take m).foldl unmapBuf s
  { t with
    mOfflineBuffers := s.mOfflineBuffers.drop n
    mOfflineMetaBuffers := s.mOfflineMetaBuffers.drop m
    outstanding := if all then [] else s.outstanding.tail }

def exec (s : ReprocessChannel) : Op → ReprocessChannel
  | .doReprocessOffline answers => (s.doReprocessOffline answers).2
  | .unmapOfflineBuffers all => s.unmapOfflineBuffers all

/-- At most `mNumBuffers` frames are outstanding, and one of them completes before its buffers are
unmapped. -/
def Enabled : Op → Prop
  | .doReprocessOffline _ => s.outstanding.length < s.mNumBuffers
  | .unmapOfflineBuffers all => all = true ∨ s.outstanding ≠ []

/-- The mapped indices are distinct, and nothing is unmapped that is not mapped. A frame that is
sent has its two buffers mapped, and a call that fails leaves the mappings alone. The buffers that
are unmapped one by one are those of the oldest frame, and in the end everything is unmapped. -/
def Paired (op : Op) : Prop :=
  ((s.exec op).mapped.map OfflineBuffer.index).Nodup ∧ (s.exec op).missed = s.missed ∧
    match op with
    | .doReprocessOffline answers =>
      if (s.doReprocessOffline answers).1 then
        ∃ i m, (s.exec op).outstanding = s.outstanding ++ [(i, m)] ∧
          (s.exec op).mapped.Perm (inputBuf i :: metaBuf m :: s.mapped)
      else (s.exec op).outstanding = s.outstanding ∧ (s.exec op).mapped.Perm s.mapped
    | .unmapOfflineBuffers false => ∃ i m, s.outstanding = (i, m) :: (s.exec op).outstanding ∧
        s.mapped.Perm (inputBuf i :: metaBuf m :: (s.exec op).mapped)
    | .unmapOfflineBuffers true => (s.exec op).outstanding = [] ∧ (s.exec op).mapped = []

/-- Both buffers are mapped and the frame is sent, or neither buffer is mapped. -/
def Cond : Op → Prop
  | .doReprocessOffline answers => answers.valid = true →
      answers.input = answers.metadata ∧ (answers.input = true → answers.setParameter = true)
  | .unmapOfflineBuffers _ => True

def indices (n j : Nat) : Nat × Nat := (j % n, n + j % n)

/-- The lists have the buffers of the outstanding frames, whose indices follow one another round the
ring, and only these buffers are mapped. -/
structure Sound : Prop where
  inputs : s.mOfflineBuffers = s.outstanding.map fun p => inputBuf p.1
  metas : s.mOfflineMetaBuffers = s.outstanding.map fun p => metaBuf p.2
  mapped : s.mapped.Perm (s.mOfflineBuffers ++ s.mOfflineMetaBuffers)
  few : s.outstanding.length ≤ s.mNumBuffers
  ring : ∃ a, s.outstanding = (List.range' a s.outstanding.length).map (indices s.mNumBuffers) ∧
    (s.mNumBuffers ≠ 0 → ((s.mapInput true).1, (s.mapMetadata true true).1) =
      indices s.mNumBuffers (a + s.outstanding.length))

variable {s}

theorem succ_mod {n : Nat} (hn : n ≠ 0) (j : Nat) :
    (j + 1) % n = if j % n = n - 1 then 0 else j % n + 1 := by
  have hlt := Nat.mod_lt j (Nat.pos_of_ne_zero hn)
  rw [← Nat.mod_add_mod]
  split_ifs with hlast
  · rw [hlast, Nat.sub_add_cancel (Nat.pos_of_ne_zero hn), Nat.mod_self]
  · exact Nat.mod_eq_of_lt (by omega)

theorem nodup_ring {n a k : Nat} (hk : k ≤ n) : ((List.range' a k).map (· % n)).Nodup := by
  refine (List.nodup_map_iff_inj_on List.nodup_range').mpr fun i hi j hj hij => ?_
  rw [List.mem_range'_1] at hi hj
  have hclose : ∀ {x y : Nat}, x ≤ y → y < x + n → x % n = y % n → x = y := by
    intro x y hle hlt heq
    have hdvd := (Nat.modEq_iff_dvd' hle).mp heq
    have hzero := Nat.eq_zero_of_dvd_of_lt hdvd (by omega)
    omega
  obtain hle | hle := Nat.le_total i j
  · exact hclose hle (by omega) hij
  · exact (hclose hle (by omega) hij.symm).symm

theorem Sound.nodup (h : s.Sound) : (s.mapped.map OfflineBuffer.index).Nodup := by
  obtain ⟨a, hring, -⟩ := h.ring
  have hperm := h.mapped.map OfflineBuffer.index
  rw [h.inputs, h.metas, hring, List.map_append, List.map_map, List.map_map, List.map_map,
    List.map_map] at hperm
  refine hperm.nodup_iff.mpr (List.Nodup.append (nodup_ring h.few) ?_ ?_)
  · have hnodup := (nodup_ring (a := a) h.few).map fun _ _ =>
      Nat.add_left_cancel (n := s.mNumBuffers)
    rwa [List.map_map] at hnodup
  · intro i hi hi'
    obtain ⟨j, hj, rfl⟩ := List.mem_map.mp hi
    obtain ⟨l, -, hl⟩ := List.mem_map.mp hi'
    have hpos : 0 < s.mNumBuffers := by
      have hfew := h.few
      rw [List.mem_range'_1] at hj
      omega
    have hlt : j % s.mNumBuffers < s.mNumBuffers := Nat.mod_lt j hpos
    simp [indices, inputBuf, metaBuf] at hl
    omega

theorem sound_new (mNumBuffers : Nat) : Sound { mNumBuffers } where
  inputs := rfl
  metas := rfl
  mapped := .nil
  few := Nat.zero_le _
  ring := ⟨0, rfl, fun _ => by simp [mapInput, mapMetadata, indices]⟩

theorem foldl_unmapBuf {bufs r : List OfflineBuffer} (h : s.mapped.Perm (bufs ++ r)) :
    ∃ mapped, bufs.foldl unmapBuf s = { s with mapped } ∧ mapped.Perm r := by
  induction bufs generalizing s with
  | nil => exact ⟨s.mapped, rfl, h⟩
  | cons b bufs ih =>
    have hb : b ∈ s.mapped := h.mem_iff.mpr List.mem_cons_self
    have hstep : s.unmapBuf b = { s with mapped := s.mapped.erase b } := if_pos hb
    have herase := h.erase b
    rw [List.cons_append, List.erase_cons_head] at herase
    rw [List.foldl_cons, hstep]
    exact ih herase

theorem next_indices {n j : Nat} (hn : n ≠ 0) {i m : Int} (hi : i = (j % n : Nat))
    (hm : m = (n + j % n : Nat)) :
    (((if i = (n : Int) - 1 then -1 else i) + 1).toNat,
      ((if m = (n : Int) * 2 - 1 then (n : Int) - 1 else m) + 1).toNat) = indices n (j + 1) := by
  have hsucc := succ_mod hn j
  simp only [indices, Prod.mk.injEq]
  split_ifs at hsucc ⊢ <;> omega

def sent (s : ReprocessChannel) (i m : Nat) : ReprocessChannel :=
  { s with
    mOfflineBuffers := s.mOfflineBuffers ++ [inputBuf i]
    mOfflineMetaBuffers := s.mOfflineMetaBuffers ++ [metaBuf m]
    mOfflineBuffersIndex := i
    mOfflineMetaIndex := m
    mapped := metaBuf m :: inputBuf i :: s.mapped
    outstanding := s.outstanding ++ [(i, m)] }

theorem doReprocessOffline_sent :
    s.doReprocessOffline {} = (true, s.sent (s.mapInput true).1 (s.mapMetadata true true).1) := rfl

theorem Sound.sent (h : s.Sound) (henabled : s.outstanding.length < s.mNumBuffers) :
    Sound (s.doReprocessOffline {}).2 := by
  obtain ⟨a, hring, hnext⟩ := h.ring
  have hpair := hnext (by omega)
  obtain ⟨hinput, hmeta⟩ := Prod.ext_iff.mp hpair
  dsimp only at hinput hmeta
  rw [doReprocessOffline_sent, hinput, hmeta]
  constructor
  case inputs => simp [ReprocessChannel.sent, h.inputs]
  case metas => simp [ReprocessChannel.sent, h.metas]
  case mapped =>
    refine List.perm_iff_count.mpr fun b => ?_
    have hcount := h.mapped.count_eq b
    simp only [ReprocessChannel.sent, List.count_append, List.count_cons, List.count_nil]
      at hcount ⊢
    omega
  case few => exact List.length_append.trans_le henabled
  case ring =>
    refine ⟨a, ?_, fun hn => ?_⟩
    · rw [ReprocessChannel.sent, List.length_append, List.length_singleton, List.range'_concat,
        List.map_append, ← hring, Nat.one_mul]
      rfl
    · exact (next_indices hn rfl rfl).trans (by simp [ReprocessChannel.sent, Nat.add_assoc])

theorem Sound.failed (h : s.Sound) (setParameter : Bool) :
    Sound (s.doReprocessOffline { input := false, metadata := false, setParameter }).2 := by
  obtain ⟨a, hring, hnext⟩ := h.ring
  have hfailed : (s.doReprocessOffline { input := false, metadata := false, setParameter }).2 =
      { s with
        mOfflineBuffersIndex := (s.mapInput false).2.mOfflineBuffersIndex
        mOfflineMetaIndex := (s.mapMetadata false false).2.mOfflineMetaIndex } := rfl
  rw [hfailed]
  refine ⟨h.inputs, h.metas, h.mapped, h.few, a, hring, fun hn => Eq.trans ?_ (hnext hn)⟩
  simp only [mapInput, mapMetadata, Bool.false_eq_true, if_false, Bool.and_self, Prod.mk.injEq]
  split_ifs <;> omega

theorem Sound.unmap_one (h : s.Sound) (hne : s.outstanding ≠ []) :
    Sound (s.unmapOfflineBuffers false) ∧ (s.unmapOfflineBuffers false).missed = s.missed ∧
      ∃ i m, s.outstanding = (i, m) :: (s.unmapOfflineBuffers false).outstanding ∧
        s.mapped.Perm (inputBuf i :: metaBuf m :: (s.unmapOfflineBuffers false).mapped) := by
  obtain ⟨⟨i, m⟩, rest, hout⟩ := List.exists_cons_of_ne_nil hne
  have hinputs := h.inputs
  have hmetas := h.metas
  rw [hout, List.map_cons] at hinputs hmetas
  have hperm : s.mapped.Perm ([inputBuf i, metaBuf m] ++
      (rest.map (fun p => inputBuf p.1) ++ rest.map fun p => metaBuf p.2)) := by
    refine h.mapped.trans ?_
    rw [hinputs, hmetas]
    exact List.perm_middle.cons _
  obtain ⟨mapped, hfold, hrest⟩ := foldl_unmapBuf hperm
  have heq : s.unmapOfflineBuffers false = { s with
      mOfflineBuffers := rest.map fun p => inputBuf p.1
      mOfflineMetaBuffers := rest.map fun p => metaBuf p.2
      mapped
      outstanding := rest } := by
    simp [unmapOfflineBuffers, hinputs, hmetas, hfold, hout]
  obtain ⟨a, hring, hnext⟩ := h.ring
  have hlength : s.outstanding.length = rest.length + 1 := by rw [hout, List.length_cons]
  rw [hlength, List.range'_succ, hout, List.map_cons] at hring
  rw [hlength, Nat.add_left_comm, Nat.add_comm] at hnext
  rw [heq]
  refine ⟨⟨rfl, rfl, hrest, Nat.le_of_succ_le (hlength.ge.trans h.few), a + 1,
    (List.cons.inj hring).2, ?_⟩,
    rfl, i, m, hout, hperm.trans ((hrest.symm.cons _).cons _)⟩
  exact hnext

theorem Sound.unmap_all (h : s.Sound) :
    Sound (s.unmapOfflineBuffers true) ∧ (s.unmapOfflineBuffers true).missed = s.missed ∧
      (s.unmapOfflineBuffers true).outstanding = [] ∧
        (s.unmapOfflineBuffers true).mapped = [] := by
  obtain ⟨mapped, hfold, hrest⟩ := foldl_unmapBuf (r := [])
    (h.mapped.trans (.of_eq (List.append_nil _).symm))
  obtain ⟨a, -, hnext⟩ := h.ring
  have heq : s.unmapOfflineBuffers true = { s with
      mOfflineBuffers := []
      mOfflineMetaBuffers := []
      mapped := []
      outstanding := [] } := by
    simp only [unmapOfflineBuffers, if_true, List.take_length, List.drop_length, hfold,
      hrest.eq_nil]
  rw [heq]
  exact ⟨⟨rfl, rfl, .nil, Nat.zero_le _, _, rfl, hnext⟩, rfl, rfl, rfl⟩

theorem Sound.paired_iff (h : s.Sound) {op : Op} (henabled : s.Enabled op) :
    (s.Paired op ↔ Cond op) ∧ (Cond op → (s.exec op).Sound) := by
  have hboth : ∀ {op}, s.Paired op → Cond op → (s.exec op).Sound →
      (s.Paired op ↔ Cond op) ∧ (Cond op → (s.exec op).Sound) :=
    fun hpaired hcond hsound => ⟨iff_of_true hpaired hcond, fun _ => hsound⟩
  match op with
  | .unmapOfflineBuffers false =>
    obtain ⟨hsound, hmissed, holdest⟩ := h.unmap_one (henabled.resolve_left Bool.false_ne_true)
    exact hboth ⟨hsound.nodup, hmissed, holdest⟩ trivial hsound
  | .unmapOfflineBuffers true =>
    obtain ⟨hsound, hmissed, hempty⟩ := h.unmap_all
    exact hboth ⟨hsound.nodup, hmissed, hempty⟩ trivial hsound
  | .doReprocessOffline ⟨false, _, _, _⟩ =>
    exact hboth ⟨h.nodup, rfl, rfl, .rfl⟩ nofun h
  | .doReprocessOffline ⟨true, true, true, true⟩ =>
    have hsound := h.sent henabled
    exact hboth ⟨hsound.nodup, rfl, _, _, rfl, .swap ..⟩ (fun _ => ⟨rfl, fun _ => rfl⟩) hsound
  | .doReprocessOffline ⟨true, false, false, setParameter⟩ =>
    have hsound := h.failed setParameter
    exact hboth ⟨hsound.nodup, rfl, rfl, .rfl⟩ (fun _ => ⟨rfl, nofun⟩) hsound
  | .doReprocessOffline ⟨true, true, true, false⟩ | .doReprocessOffline ⟨true, true, false, _⟩
  | .doReprocessOffline ⟨true, false, true, _⟩ =>
    -- a call that fails leaves a mapping
    refine ⟨iff_of_false (fun hpaired => ?_) fun hcond => ?_, fun hcond => ?_⟩
    · exact absurd hpaired.2.2.2.length_eq (by
        simp [exec, doReprocessOffline, mapInput, mapMetadata, Nat.add_assoc])
    · simpa using hcond rfl
    · simpa using hcond rfl

/-- In every run in which at most `mNumBuffers` frames are outstanding, the buffers stay paired if
and only if every frame that passes the checks has both buffers mapped and is sent, or has neither
mapped. -/
theorem paired_along_iff (mNumBuffers : Nat) (ops : List Op) :
    System.Along (fun s op => Enabled s op ∧ Paired s op) exec ops { mNumBuffers } ↔
      System.Along (fun s op => Enabled s op ∧ Cond op) exec ops { mNumBuffers } := by
  refine System.along_iff (fun s op hsound => ?_) (fun s op hsound hcond => ?_) ops
    (sound_new mNumBuffers)
  · exact and_congr_right fun henabled => (hsound.paired_iff henabled).1
  · exact (hsound.paired_iff hcond.1).2 hcond.2

/-- The metadata buffer of a frame whose input buffer cannot be mapped stays mapped. -/
theorem not_paired_along : ¬ ∀ (mNumBuffers : Nat) (ops : List Op),
    System.Along Enabled exec ops { mNumBuffers } →
      System.Along Paired exec ops { mNumBuffers } := by
  intro h
  have hperm := (h 1 [.doReprocessOffline { input := false }] ⟨Nat.zero_lt_one, trivial⟩).1.2.2.2
  exact absurd hperm.length_eq (by decide)

end ReprocessChannel
end EtherDevice.Hal3.OfflineBuffers
