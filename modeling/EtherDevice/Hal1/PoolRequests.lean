import EtherDevice.Hal1.MemoryPool

/-!
# What the pool knows of its buffers

`allocOneBuffer` derives the heap, the flags and the length of an allocation from the request; a
secure buffer is from another heap and has other flags than the request names. The descriptor gets
the heap and the cache flag of the request, and nothing tells whether the buffer is secure.
`findBufferLocked` compares descriptors only.
-/

namespace EtherDevice.Hal1.PoolRequests

open Lib
open MemoryPool (StreamType Ion ionSize)

structure Request where
  heap_id : UInt32
  size : UInt32
  cached : Bool
  streamType : StreamType
  secure_mode : Bool
  deriving DecidableEq

/-- `flags` of `ion_allocation_data`: none, `ION_FLAG_CACHED` or `ION_SECURE`. -/
inductive Flags
  | plain | cached | secure
  deriving DecidableEq, Repr

/-- A heap that a request names, or `ION_HEAP(ION_CP_MM_HEAP_ID)`. -/
inductive Heap
  | requested (heap_id : UInt32)
  | cpMm
  deriving DecidableEq, Repr

structure Allocation where
  len : UInt32
  heap_id_mask : Heap
  flags : Flags
  deriving DecidableEq, Repr

def Request.allocation (r : Request) : Allocation where
  len := ionSize r.size r.secure_mode
  heap_id_mask := if r.secure_mode then .cpMm else .requested r.heap_id
  flags := if r.secure_mode then .secure else if r.cached then .cached else .plain

structure MemInfo where
  handle : Nat
  size : UInt32
  cached : Bool
  heap_id : UInt32
  deriving DecidableEq, Repr

def Request.memInfo (r : Request) (handle : Nat) : MemInfo :=
  ⟨handle, r.allocation.len, r.cached, r.heap_id⟩

def Request.fits (r : Request) (info : MemInfo) : Bool :=
  r.size ≤ info.size && info.heap_id == r.heap_id && info.cached == r.cached

/-- `QCameraMemoryPool`, with the allocations by their handles, and the descriptors that were handed
out. -/
structure Pool where
  mPools : StreamType → List MemInfo := fun _ => []
  made : List Allocation := []
  handed : List MemInfo := []

namespace Pool

variable (s : Pool)

def findBuffer (r : Request) : Option MemInfo := (s.mPools r.streamType).find? r.fits

def allocOneBuffer (r : Request) : Ion → Option MemInfo × Pool
  | .allocated =>
    (some (r.memInfo s.made.length), { s with made := s.made ++ [r.allocation] })
  | _ => (none, s)

def allocateBuffer (r : Request) (answer : Ion) : Option MemInfo × Pool :=
  match s.findBuffer r with
  | some info =>
    let rest := (s.mPools r.streamType).eraseP r.fits
    (some info, { s with mPools := Function.update s.mPools r.streamType rest })
  | none => s.allocOneBuffer r answer

def releaseBuffer (info : MemInfo) (streamType : StreamType) : Pool :=
  { s with mPools :=
      Function.update s.mPools streamType (s.mPools streamType ++ [info]) }

end Pool

/-- A call. The buffer that is released is one that was handed out. -/
inductive Op
  | allocateBuffer (r : Request) (answer : Ion)
  | releaseBuffer (index : Nat) (streamType : StreamType)

namespace Pool

def exec (s : Pool) : Op → Pool
  | .allocateBuffer r answer =>
    match s.allocateBuffer r answer with
    | (some info, s) => { s with handed := s.handed ++ [info] }
    | (none, s) => s
  | .releaseBuffer index streamType =>
    match s.handed[index]? with
    | some info => s.releaseBuffer info streamType
    | none => s

def Meets (s : Pool) (r : Request) (info : MemInfo) : Prop :=
  ∃ a, s.made[info.handle]? = some a ∧ r.size ≤ a.len ∧
    a.heap_id_mask = r.allocation.heap_id_mask ∧ a.flags = r.allocation.flags

/-- A buffer that is handed out meets its request. -/
def Satisfied (s : Pool) : Op → Prop
  | .allocateBuffer r answer =>
    ∀ info ∈ (s.allocateBuffer r answer).1, (s.allocateBuffer r answer).2.Meets r info
  | .releaseBuffer .. => True

/-- The first buffer of the pool whose descriptor fits is secure if the request is, and no other
one; if there is none, the size can be rounded up. -/
def Cond (s : Pool) : Op → Prop
  | .allocateBuffer r answer =>
    match (s.mPools r.streamType).find? r.fits with
    | some info => ∀ a ∈ s.made[info.handle]?, a.flags = .secure ↔ r.secure_mode = true
    | none => answer = .allocated → r.size ≤ ionSize r.size r.secure_mode
  | .releaseBuffer .. => True

def Knows (s : Pool) (info : MemInfo) : Prop :=
  ∃ r : Request, s.made[info.handle]? = some r.allocation ∧ info = r.memInfo info.handle

structure Sound (s : Pool) : Prop where
  pooled : ∀ streamType, ∀ info ∈ s.mPools streamType, s.Knows info
  handed : ∀ info ∈ s.handed, s.Knows info

variable {s : Pool} {r : Request} {answer : Ion} {info : MemInfo}

theorem Knows.append (h : s.Knows info) (a : Allocation) :
    Knows { s with made := s.made ++ [a] } info := by
  obtain ⟨r, hmade, hinfo⟩ := h
  refine ⟨r, ?_, hinfo⟩
  have hlt := (List.getElem?_eq_some_iff.mp hmade).1
  rw [List.getElem?_append_left hlt]
  exact hmade

theorem flags_secure : r.allocation.flags = .secure ↔ r.secure_mode = true := by
  unfold Request.allocation
  cases r.secure_mode with
  | true => exact iff_of_true rfl rfl
  | false => cases r.cached <;> exact iff_of_false nofun nofun

theorem meets_iff_of_fits {old : Request} (hmade : s.made[info.handle]? = some old.allocation)
    (hinfo : info = old.memInfo info.handle) (hfits : r.fits info = true) :
    s.Meets r info ↔ (old.allocation.flags = .secure ↔ r.secure_mode = true) := by
  unfold Request.fits at hfits
  rw [hinfo] at hfits
  simp only [Request.memInfo, Bool.and_eq_true, beq_iff_eq] at hfits
  obtain ⟨⟨hsize, hheap⟩, hcached⟩ := hfits
  have hsize := of_decide_eq_true hsize
  rw [flags_secure]
  constructor
  · rintro ⟨a, ha, -, -, hflags⟩
    obtain rfl := Option.some.inj (hmade.symm.trans ha)
    rw [← flags_secure, ← flags_secure, hflags]
  · intro hsecure
    have hmode : old.secure_mode = r.secure_mode := Bool.eq_iff_iff.mpr hsecure
    refine ⟨old.allocation, hmade, hsize, ?_, ?_⟩
    · unfold Request.allocation
      simp only [hmode, hheap]
    · unfold Request.allocation
      simp only [hmode, hcached]

theorem satisfied_iff (h : s.Sound) (op : Op) : s.Satisfied op ↔ s.Cond op := by
  cases op with
  | releaseBuffer index streamType => exact Iff.rfl
  | allocateBuffer r answer =>
    unfold Satisfied Cond allocateBuffer findBuffer
    cases hfind : (s.mPools r.streamType).find? r.fits with
    | some info =>
      obtain ⟨old, hmade, hinfo⟩ := h.pooled r.streamType info (List.mem_of_find?_eq_some hfind)
      have hiff := meets_iff_of_fits hmade hinfo (List.find?_some hfind)
      simp only [hfind, Option.mem_some_iff, forall_eq', hmade]
      exact hiff
    | none =>
      cases answer with
      | allocated =>
        simp only [hfind, allocOneBuffer, Option.mem_some_iff, forall_eq', forall_const]
        constructor
        · rintro ⟨a, ha, hsize, -⟩
          have hlast : (s.made ++ [r.allocation])[s.made.length]? = some r.allocation := by simp
          obtain rfl := Option.some.inj (hlast.symm.trans ha)
          exact hsize
        · intro hsize
          exact ⟨r.allocation, by simp [Request.memInfo], hsize, rfl, rfl⟩
      | failed =>
        simp [allocOneBuffer, hfind]
      | notShared =>
        simp [allocOneBuffer, hfind]

theorem Sound.exec (h : s.Sound) (op : Op) : (s.exec op).Sound := by
  cases op with
  | releaseBuffer index streamType =>
    unfold Pool.exec
    simp only
    split
    · rename_i info hinfo
      refine ⟨fun type x hx => ?_, h.handed⟩
      by_cases htype : type = streamType
      · subst htype
        simp only [releaseBuffer, Function.update_self, List.mem_append, List.mem_singleton] at hx
        rcases hx with hold | rfl
        · exact h.pooled type x hold
        · exact h.handed x (List.mem_of_getElem? hinfo)
      · simp only [releaseBuffer, Function.update_of_ne htype] at hx
        exact h.pooled type x hx
    · exact h
  | allocateBuffer r answer =>
    cases hfind : (s.mPools r.streamType).find? r.fits with
    | some info =>
      have hrun : s.exec (.allocateBuffer r answer) = { s with
          mPools := Function.update s.mPools r.streamType
            ((s.mPools r.streamType).eraseP r.fits)
          handed := s.handed ++ [info] } := by
        simp only [Pool.exec, allocateBuffer, findBuffer, hfind]
      have hinfo := h.pooled r.streamType info (List.mem_of_find?_eq_some hfind)
      rw [hrun]
      refine ⟨fun type x hx => ?_, fun x hx => ?_⟩
      · by_cases htype : type = r.streamType
        · subst htype
          simp only [Function.update_self] at hx
          exact h.pooled _ x (List.mem_of_mem_eraseP hx)
        · simp only [Function.update_of_ne htype] at hx
          exact h.pooled type x hx
      · rcases List.mem_append.mp hx with hold | hnew
        · exact h.handed x hold
        · rw [List.mem_singleton.mp hnew]
          exact hinfo
    | none =>
      cases answer with
      | allocated =>
        have hrun : s.exec (.allocateBuffer r .allocated) = { s with
            made := s.made ++ [r.allocation]
            handed := s.handed ++ [r.memInfo s.made.length] } := by
          simp only [Pool.exec, allocateBuffer, findBuffer, hfind, allocOneBuffer]
        rw [hrun]
        refine ⟨fun type x hx => (h.pooled type x hx).append _, fun x hx => ?_⟩
        rcases List.mem_append.mp hx with hold | hnew
        · exact (h.handed x hold).append _
        · rw [List.mem_singleton.mp hnew]
          exact ⟨r, by simp [Request.memInfo], rfl⟩
      | failed =>
        have hrun : s.exec (.allocateBuffer r .failed) = s := by
          simp only [Pool.exec, allocateBuffer, findBuffer, hfind, allocOneBuffer]
        rwa [hrun]
      | notShared =>
        grind [allocateBuffer, Pool.exec, findBuffer, allocOneBuffer]

theorem Sound.new : Sound {} := ⟨nofun, nofun⟩

/-- Every buffer that is handed out meets its request exactly if no secure buffer is found for an
ordinary request or the reverse, and no size is too large to be rounded up. -/
theorem satisfied_along_iff (ops : List Op) :
    System.Along Satisfied exec ops {} ↔ System.Along Cond exec ops {} :=
  System.along_iff (fun _ op h => satisfied_iff h op) (fun _ op h _ => h.exec op) ops Sound.new

theorem not_satisfied_along : ¬ ∀ ops : List Op, System.Along Satisfied exec ops {} := by
  intro h
  have hrun := h [.allocateBuffer ⟨1, 4096, false, .video, false⟩ .allocated,
    .releaseBuffer 0 .video, .allocateBuffer ⟨1, 4096, false, .video, true⟩ .allocated]
  obtain ⟨a, ha, -, -, hflags⟩ := hrun.2.2.1 ⟨0, 4096, false, 1⟩ (by decide)
  have hplain : a.flags = .plain := by
    obtain rfl := Option.some.inj ha
    rfl
  rw [hplain] at hflags
  exact absurd hflags (by decide)

end Pool

end EtherDevice.Hal1.PoolRequests
