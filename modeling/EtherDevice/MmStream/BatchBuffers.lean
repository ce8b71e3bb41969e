import EtherDevice.Lib.Transition
import Mathlib.Data.Int.Notation
import Mathlib.Data.List.Basic
import Mathlib.Logic.Function.Basic

/-!
# The plane buffers of a batch

A plane buffer that is returned is staged in a free container, which goes to the kernel when it is
full. Each one is written at the first place of the container, and a container that has been in use
is never free again.
-/

namespace EtherDevice.MmStream.BatchBuffers

open Lib

/-- A buffer of type `CAM_STREAM_BUF_TYPE_USERPTR` with its status. `cont_buf_idx` is what the
kernel reads and fills. -/
structure Container where
  in_kernel : Bool
  buf_refcnt : Nat
  bufs_used : Nat
  buf_in_use : Bool
  buf_idx : Nat → Int := fun _ => -1
  cont_buf_idx : List Int

/-- The stream in batch mode. `returned` has the plane buffers that came back on their own, and
`queued` what the containers named that were filled with them. -/
structure Stream where
  frame_buf_cnt : Nat
  buf_num : Nat
  buf : Nat → Container
  cur_buf_idx : Int := -1
  cur_bufs_staged : Nat := 0
  returned : List Int := []
  queued : List (List Int) := []

inductive Op
  /-- The kernel delivers a container to some holders, with a time after the last one or not. -/
  | deliver (idx : Nat) (planes : List Int) (later : Bool) (holders : Nat)
  /-- A plane buffer comes back, and the kernel takes a container or not. -/
  | planeDone (buf_idx : Nat) (qbuf : Bool)
  /-- A container comes back as a whole. -/
  | containerDone (idx : Nat) (qbuf : Bool)

namespace Container

variable (c : Container)

def readUserBuf (planes : List Int) (later : Bool) (holders : Nat) : Container :=
  let c := { c with in_kernel := false, buf_refcnt := c.buf_refcnt + holders }
  if later then
    { c with buf_idx := fun i => planes.getD i (c.buf_idx i), bufs_used := planes.length,
             buf_in_use := true, cont_buf_idx := planes }
  else c

def names : List Int :=
  (List.range c.bufs_used).map c.buf_idx

def fill : Container :=
  { c with cont_buf_idx := c.names
           buf_idx := fun i => if i < c.bufs_used then -1 else c.buf_idx i }

def take : Container :=
  { c with in_kernel := true, buf_in_use := true }

def free : Bool :=
  !c.in_kernel && !c.buf_in_use

def release : Container :=
  { c with buf_refcnt := (c.buf_refcnt + 255) % 256 }

end Container

namespace Stream

variable (s : Stream)

def set (i : Nat) (c : Container) : Stream :=
  { s with buf := Function.update s.buf i c }

def writeContainer (idx : Nat) (qbuf : Bool) : Stream :=
  let c := (s.buf idx).release
  if c.buf_refcnt = 0 then s.set idx (if qbuf then c.fill.take else c.fill) else s.set idx c

def index : Option Nat :=
  if s.cur_buf_idx < 0 ∨ s.buf_num ≤ s.cur_buf_idx then
    (List.range s.buf_num).find? fun i => (s.buf i).free
  else some s.cur_buf_idx.toNat

def insert (i : Nat) (buf_idx : Int) : Stream :=
  { s.set i { s.buf i with buf_idx := Function.update (s.buf i).buf_idx 0 buf_idx } with
    cur_buf_idx := i
    cur_bufs_staged := s.cur_bufs_staged + 1 }

def writePlane (buf_idx : Int) (qbuf : Bool) : Stream :=
  match s.index with
  | none => s
  | some i =>
    let s := s.insert i buf_idx
    if s.cur_bufs_staged = (s.buf i).bufs_used then
      let c := (s.buf i).release
      if c.buf_refcnt = 0 then
        if qbuf then
          { s.set i c.fill.take with cur_bufs_staged := 0, cur_buf_idx := -1
                                     queued := s.queued ++ [c.names] }
        else s.set i c.fill
      else s.set i c
    else s

def exec : Op → Stream
  | .deliver idx planes later holders =>
    s.set idx ((s.buf idx).readUserBuf planes later holders)
  | .planeDone buf_idx qbuf =>
    ({ s with returned := s.returned ++ [(buf_idx : Int)] }).writePlane buf_idx qbuf
  | .containerDone idx qbuf => s.writeContainer idx qbuf

def enabled : Op → Bool
  | .deliver idx _ _ _ => decide (idx < s.buf_num) && (s.buf idx).in_kernel
  | .planeDone _ _ => true
  | .containerDone idx _ => decide (idx < s.buf_num) && (s.buf idx).buf_in_use

def next (op : Op) : Stream :=
  if s.enabled op then s.exec op else s

def staged : List Int :=
  (List.range s.cur_bufs_staged).map (s.buf s.cur_buf_idx.toNat).buf_idx

def Named : Prop :=
  s.returned = s.queued.flatten ++ s.staged ∧ ∀ names ∈ s.queued, names.length = s.frame_buf_cnt

def Names (op : Op) : Prop :=
  (s.next op).Named

/-- Nothing is staged when a plane buffer comes back, a container is free, and it goes to the
kernel if it is full with one buffer. -/
def Cond : Op → Prop
  | .planeDone _ qbuf => s.cur_bufs_staged = 0 ∧ (∃ i < s.buf_num, (s.buf i).free = true) ∧
      (s.frame_buf_cnt = 1 → qbuf = true)
  | _ => True

/-- `mm_stream_init_bufs` and `mm_stream_reg_buf`: a container is queued at first if its flag says
so, and else is held by the upper layer. -/
def start (frame_buf_cnt buf_num : Nat) (reg_flags : Nat → Bool) (cont : Nat → List Int) :
    Stream where
  frame_buf_cnt := frame_buf_cnt
  buf_num := buf_num
  buf i :=
    { in_kernel := reg_flags i, buf_refcnt := if reg_flags i then 0 else 1,
      bufs_used := frame_buf_cnt, buf_in_use := reg_flags i, cont_buf_idx := cont i }

/-- A container that is free is as it was at first, up to the name at the first place. -/
structure Fresh (c : Container) : Prop where
  refcnt : c.buf_refcnt = 1
  used : c.bufs_used = s.frame_buf_cnt
  empty : ∀ j, 1 ≤ j → c.buf_idx j = -1

/-- One container at most is being filled, and it has one plane buffer. -/
structure Sound : Prop where
  fresh : ∀ i < s.buf_num, (s.buf i).free = true → s.Fresh (s.buf i)
  kernel : ∀ i < s.buf_num, (s.buf i).in_kernel = true → (s.buf i).buf_in_use = true
  current : s.cur_buf_idx = -1 ∧ s.cur_bufs_staged = 0 ∨
    ∃ i < s.buf_num, s.cur_buf_idx = i ∧ (s.buf i).free = true ∧ s.cur_bufs_staged = 1 ∧
      s.frame_buf_cnt ≠ 1
  named : s.Named

theorem sound_start (frame_buf_cnt buf_num : Nat) (reg_flags : Nat → Bool)
    (cont : Nat → List Int) : (start frame_buf_cnt buf_num reg_flags cont).Sound where
  fresh i _ hfree := by
    have hflag : reg_flags i = false := by simpa [start, Container.free] using hfree
    exact ⟨by simp [start, hflag], rfl, fun _ _ => rfl⟩
  kernel _ _ h := h
  current := .inl ⟨rfl, rfl⟩
  named := ⟨rfl, by simp [start]⟩

variable {s}

theorem Sound.containers {i : Nat} {c : Container} (h : s.Sound)
    (hfresh : c.free = true → s.Fresh c) (hkernel : c.in_kernel = true → c.buf_in_use = true) :
    (∀ j < s.buf_num, ((s.set i c).buf j).free = true → s.Fresh ((s.set i c).buf j)) ∧
      ∀ j < s.buf_num, ((s.set i c).buf j).in_kernel = true →
        ((s.set i c).buf j).buf_in_use = true := by
  have hbuf (j : Nat) : (s.set i c).buf j = if j = i then c else s.buf j :=
    Function.update_apply ..
  constructor
  · intro j hj
    rw [hbuf]
    split
    · exact hfresh
    · exact h.fresh j hj
  · intro j hj
    rw [hbuf]
    split
    · exact hkernel
    · exact h.kernel j hj

theorem not_free_of_in_use {c : Container} (h : c.buf_in_use = true) : c.free = false := by
  simp [Container.free, h]

theorem Sound.set {idx : Nat} {c : Container} (h : s.Sound) (hidx : (s.buf idx).free = false)
    (hc : c.buf_in_use = true) : (s.set idx c).Sound where
  fresh j hj hfree :=
    let hfresh := (h.containers (fun hfree => by simp [Container.free, hc] at hfree)
      fun _ => hc).1 j hj hfree
    ⟨hfresh.1, hfresh.2, hfresh.3⟩
  kernel := (h.containers (fun hfree => by simp [Container.free, hc] at hfree) fun _ => hc).2
  current := by
    obtain hnone | ⟨i, hi, hcur, hfree, hstaged⟩ := h.current
    · exact .inl hnone
    · have hne : i ≠ idx := by
        rintro rfl
        simp [hidx] at hfree
      exact .inr ⟨i, hi, hcur, by simpa [Stream.set, hne] using hfree, hstaged⟩
  named := by
    obtain ⟨hreturned, hlength⟩ := h.named
    refine ⟨?_, hlength⟩
    obtain ⟨-, hstaged⟩ | ⟨i, -, hcur, hfree, -⟩ := h.current
    · simpa [staged, Stream.set, hstaged] using hreturned
    · have hne : i ≠ idx := by
        rintro rfl
        simp [hidx] at hfree
      simpa [staged, Stream.set, hcur, hne] using hreturned

theorem sound_container (h : s.Sound) {op : Op} (hop : ∀ b q, op ≠ .planeDone b q)
    (henabled : s.enabled op = true) : (s.exec op).Sound := by
  cases op with
  | deliver idx planes later holders =>
    obtain ⟨hidx, hkernel⟩ := Bool.and_eq_true_iff.mp henabled
    have huse := h.kernel idx (of_decide_eq_true hidx) hkernel
    refine h.set (not_free_of_in_use huse) ?_
    unfold Container.readUserBuf
    cases later with
    | true => rfl
    | false => exact huse
  | planeDone b q => exact absurd rfl (hop b q)
  | containerDone idx qbuf =>
    obtain ⟨hidx, huse⟩ := Bool.and_eq_true_iff.mp henabled
    simp only [exec, writeContainer]
    split
    · cases qbuf with
      | true => exact h.set (not_free_of_in_use huse) rfl
      | false => exact h.set (not_free_of_in_use huse) huse
    · exact h.set (not_free_of_in_use huse) huse

theorem not_ends (xs ys : List Int) (b : Nat) {f : Nat → Int} {k : Nat} (hf : f k = -1) :
    xs ++ [(b : Int)] ≠ ys ++ (List.range (k + 1)).map f := by
  intro heq
  rw [List.range_succ, List.map_append, List.map_singleton, ← List.append_assoc, hf] at heq
  have hlast := (List.append_inj' heq rfl).2
  simp at hlast

theorem not_named_second {i b : Nat} {qbuf : Bool} (h : s.Sound) (hi : i < s.buf_num)
    (hcur : s.cur_buf_idx = i) (hfree : (s.buf i).free = true) (hstaged : s.cur_bufs_staged = 1) :
    ¬(s.exec (.planeDone b qbuf)).Named := by
  have hfresh := h.fresh i hi hfree
  have hindex : index { s with returned := s.returned ++ [(b : Int)] } = some i := by
    rw [index, if_neg (by dsimp only; omega), hcur]
    rfl
  have hone : Function.update (s.buf i).buf_idx 0 (b : Int) 1 = -1 := hfresh.empty 1 (Nat.le_refl 1)
  rintro ⟨hreturned, -⟩
  simp only [exec, writePlane, hindex] at hreturned
  split_ifs at hreturned with hfull hzero hqbuf
  · have hused : (s.buf i).bufs_used = 2 := by
      simpa [insert, Stream.set, hstaged] using hfull.symm
    refine not_ends s.returned s.queued.flatten b (k := 1) hone ?_
    simpa [insert, Stream.set, staged, Container.names, Container.release, hused] using hreturned
  · refine not_ends s.returned s.queued.flatten b (k := 1)
      (f := fun j => if j < (s.buf i).bufs_used then -1 else
        Function.update (s.buf i).buf_idx 0 (b : Int) j) (by rw [hone, ite_self]) ?_
    simpa [insert, Stream.set, staged, Container.fill, Container.release, hstaged] using hreturned
  · refine not_ends s.returned s.queued.flatten b (k := 1) hone ?_
    simpa [insert, Stream.set, staged, Container.release, hstaged] using hreturned
  · refine not_ends s.returned s.queued.flatten b (k := 1) hone ?_
    simpa [insert, Stream.set, staged, hstaged] using hreturned

theorem first_iff {b : Nat} {qbuf : Bool} (h : s.Sound) (hcur : s.cur_buf_idx = -1)
    (hstaged : s.cur_bufs_staged = 0) :
    ((s.exec (.planeDone b qbuf)).Named ↔ s.Cond (.planeDone b qbuf)) ∧
      (s.Cond (.planeDone b qbuf) → (s.exec (.planeDone b qbuf)).Sound) := by
  obtain ⟨hreturned, hlength⟩ := h.named
  have hall : s.returned = s.queued.flatten := by simpa [staged, hstaged] using hreturned
  have hindex : index { s with returned := s.returned ++ [(b : Int)] } =
      (List.range s.buf_num).find? fun i => (s.buf i).free := if_pos (.inl (by dsimp only; omega))
  cases hfind : (List.range s.buf_num).find? fun i => (s.buf i).free with
  | none =>
    have hnone : ¬∃ i < s.buf_num, (s.buf i).free = true := by
      rintro ⟨i, hi, hfree⟩
      exact absurd hfree (List.find?_eq_none.mp hfind i (List.mem_range.mpr hi))
    have hexec : s.exec (.planeDone b qbuf) =
        { s with returned := s.returned ++ [(b : Int)] } := by
      simp only [exec, writePlane, hindex, hfind]
    refine ⟨iff_of_false ?_ fun hcond => hnone hcond.2.1, fun hcond => absurd hcond.2.1 hnone⟩
    rw [hexec]
    rintro ⟨hnamed, -⟩
    simp [staged, hstaged, hall] at hnamed
  | some i =>
    have hfree : (s.buf i).free = true := by simpa using List.find?_some hfind
    have hi : i < s.buf_num := List.mem_range.mp (List.mem_of_find?_eq_some hfind)
    have hfresh := h.fresh i hi hfree
    have hcond : s.Cond (.planeDone b qbuf) ↔ (s.frame_buf_cnt = 1 → qbuf = true) :=
      ⟨fun hcond => hcond.2.2, fun hfull => ⟨hstaged, ⟨i, hi, hfree⟩, hfull⟩⟩
    rw [hcond]
    obtain ⟨c, hused, hrefcnt, hnames, hkept, hkernel, hc⟩ : ∃ c, c.bufs_used = s.frame_buf_cnt ∧
        c.buf_refcnt = 1 ∧ c.buf_idx = Function.update (s.buf i).buf_idx 0 (b : Int) ∧
        c.free = true ∧ c.in_kernel = (s.buf i).in_kernel ∧
        insert { s with returned := s.returned ++ [(b : Int)] } i b =
          { s.set i c with returned := s.returned ++ [(b : Int)], cur_buf_idx := i
                           cur_bufs_staged := 1 } :=
      ⟨{ s.buf i with buf_idx := Function.update (s.buf i).buf_idx 0 (b : Int) }, hfresh.used,
        hfresh.refcnt, rfl, hfree, rfl,
        by simp [insert, Stream.set, hstaged]⟩
    have hzero : c.release.buf_refcnt = 0 := by simp [Container.release, hrefcnt]
    simp only [exec, writePlane, hindex, hfind, hc, Stream.set, Function.update_self,
      Function.update_idem, hused, hzero, if_true]
    by_cases hone : s.frame_buf_cnt = 1
    · have hname : c.names = [(b : Int)] := by simp [Container.names, hused, hone, hnames]
      rw [if_pos hone.symm]
      cases qbuf with
      | true =>
        have hnamed : Named { s.set i c.release.fill.take with
            returned := s.returned ++ [(b : Int)], queued := s.queued ++ [c.names]
            cur_bufs_staged := 0, cur_buf_idx := -1 } := by
          refine ⟨by simp [staged, hname, hall], ?_⟩
          intro names hmem
          rcases List.mem_append.mp hmem with hmem | hmem
          · exact hlength names hmem
          · rw [List.mem_singleton.mp hmem, hname, List.length_singleton]
            exact hone.symm
        obtain ⟨hfree', hkernel'⟩ := h.containers (i := i) (c := c.release.fill.take)
          (fun hfree => absurd hfree (by simp [Container.free, Container.take]))
          fun _ => rfl
        exact ⟨iff_of_true hnamed fun _ => rfl, fun _ => ⟨fun j hj hfree =>
          ⟨(hfree' j hj hfree).1, (hfree' j hj hfree).2, (hfree' j hj hfree).3⟩, hkernel',
          .inl ⟨rfl, rfl⟩, hnamed⟩⟩
      | false =>
        have hnot : ¬(s.frame_buf_cnt = 1 → false = true) := fun hfull => nomatch hfull hone
        refine ⟨iff_of_false ?_ hnot, fun hfull => absurd hfull hnot⟩
        rintro ⟨hnamed, -⟩
        simp [staged, Container.fill, Container.release, hused, hone, hall] at hnamed
    · rw [if_neg (Ne.symm hone)]
      have hnamed : Named { s.set i c with
          returned := s.returned ++ [(b : Int)], cur_buf_idx := i, cur_bufs_staged := 1 } := by
        refine ⟨?_, hlength⟩
        simp [staged, Stream.set, hnames, hall]
      obtain ⟨hfree', hkernel'⟩ := h.containers (i := i) (c := c)
        (fun _ => ⟨hrefcnt, hused, fun j hj => by
          rw [hnames, Function.update_of_ne (by omega)]
          exact hfresh.empty j hj⟩)
        fun hin => by simp [Container.free, hin] at hkept
      exact ⟨iff_of_true hnamed fun hfull => absurd hfull hone, fun _ => ⟨fun j hj hfree =>
        ⟨(hfree' j hj hfree).1, (hfree' j hj hfree).2, (hfree' j hj hfree).3⟩, hkernel',
        .inr ⟨i, hi, rfl, by simpa [Stream.set] using hkept, rfl, hone⟩, hnamed⟩⟩

theorem names_iff (h : s.Sound) (op : Op) :
    (s.Names op ↔ s.Cond op) ∧ (s.Cond op → (s.next op).Sound) := by
  have hcontainer (hop : ∀ b q, op ≠ .planeDone b q) : (s.next op).Sound := by
    unfold next
    split
    · next henabled => exact sound_container h hop henabled
    · exact h
  cases op with
  | planeDone b qbuf =>
    obtain ⟨hcur, hstaged⟩ | ⟨i, hi, hcur, hfree, hstaged, -⟩ := h.current
    · exact first_iff h hcur hstaged
    · have hnot : ¬s.Cond (.planeDone b qbuf) := fun hcond => by
        have hzero := hcond.1
        omega
      exact ⟨iff_of_false (not_named_second h hi hcur hfree hstaged) hnot,
        fun hcond => absurd hcond hnot⟩
  | deliver idx planes later holders =>
    exact ⟨iff_of_true (hcontainer nofun).named trivial, fun _ => hcontainer nofun⟩
  | containerDone idx qbuf =>
    exact ⟨iff_of_true (hcontainer nofun).named trivial, fun _ => hcontainer nofun⟩

/-- In every run, the containers name what was returned if and only if nothing is staged whenever a
plane buffer comes back, a container is free for it, and it is queued if it is full. -/
theorem names_along_iff (frame_buf_cnt buf_num : Nat) (reg_flags : Nat → Bool)
    (cont : Nat → List Int) (ops : List Op) :
    System.Along Names next ops (start frame_buf_cnt buf_num reg_flags cont) ↔
      System.Along Cond next ops (start frame_buf_cnt buf_num reg_flags cont) :=
  System.along_iff (fun _ op h => (names_iff h op).1) (fun _ op h => (names_iff h op).2) ops
    (sound_start frame_buf_cnt buf_num reg_flags cont)

/-- Two plane buffers of a batch of two come back: the container names the second one only. -/
theorem not_names_along : ¬∀ (frame_buf_cnt buf_num : Nat) (reg_flags : Nat → Bool)
    (cont : Nat → List Int) (ops : List Op),
    System.Along Names next ops (start frame_buf_cnt buf_num reg_flags cont) := by
  intro h
  have hrun := (h 2 2 (· == 0) (fun i => [2 * i, 2 * i + 1])
    [.deliver 0 [0, 1] true 1, .planeDone 0 true, .planeDone 1 true]).2.2.1
  exact absurd hrun.1 (by decide)

end Stream

end EtherDevice.MmStream.BatchBuffers
