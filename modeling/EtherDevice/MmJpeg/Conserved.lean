import Mathlib
import EtherDevice.MmJpeg.Jobs

/-!
# No job, session or output buffer is lost

An accepted job is pending or ongoing, or it has one outcome. A session of a live group is in the
queue of free sessions or works for one ongoing job, and so is an output buffer. This holds as long
as no ongoing job is aborted, a job finds an output buffer, and the encoder reports a job only while
the job is ongoing.
-/

namespace EtherDevice.MmJpeg

open Lib

def Group.outBufs (group : Group) : List Nat := (List.range group.numDstBufs).map (· + 1)

/-- The group after a session of it has ended a job. -/
def Group.returned (group : Group) (h : SessionIdx) (buf : Option Nat) : Group :=
  { group with
    sessionHandleQ := group.sessionHandleQ ++ [h]
    outBufQ := group.outBufQ ++ buf.toList }

structure Shared {α : Type} (items queue : List α) (has : Job → α → Prop) : Prop where
  once : queue.Nodup
  own : ∀ x ∈ queue, x ∈ items
  item : ∀ x ∈ items, (x ∈ queue ∧ ∀ j, ¬ has j x) ∨ (x ∉ queue ∧ ∃! j, has j x)

theorem Shared.perm {α : Type} {items queue : List α} {has : Job → α → Prop}
    (h : Shared items queue has) (hitems : items.Nodup)
    (hnone : ∀ x ∈ items, ∀ j, ¬ has j x) : queue.Perm items := by
  refine (List.perm_ext_iff_of_nodup h.once hitems).mpr fun x => ⟨h.own x, fun hx => ?_⟩
  obtain ⟨hin, -⟩ | ⟨-, j, hj, -⟩ := h.item x hx
  · exact hin
  · exact absurd hj (hnone x hx j)

theorem Group.nodup_outBufs (group : Group) : group.outBufs.Nodup :=
  List.nodup_range.map fun _ _ hab => Nat.succ.inj hab

namespace Jpeg

variable (s : Jpeg)

/-! ## What is conserved -/

def Has (j : Job) (h : SessionIdx) : Prop := j ∈ s.ongoingJobQ ∧ (s.session h).job = some j

def HasBuf (j : Job) (g b : Nat) : Prop :=
  ∃ h ∈ (s.group g).sessions, s.Has j h ∧ (s.session h).autoOutBuf ∧ (b : Int) = j.dstIndex + 1

/-- Every accepted job is pending or ongoing, or has one outcome: a callback, or its removal by a
call that names it. In a live group, the sessions and the output buffers are free or with one
ongoing job each, and an ongoing job has one session. When no job is ongoing in a group, all its
sessions and output buffers are free. -/
structure Conserved : Prop where
  outcomes : (List.range s.accepted).Perm (s.jobQueue.map Job.serial ++
    s.ongoingJobQ.map Job.serial ++ s.reported.map Prod.fst ++ s.removed.map fun r => r.1.serial)
  named : ∀ r ∈ s.removed, r.2.Names r.1
  handles : ∀ g, (s.group g).live → Shared (s.group g).sessions (s.group g).sessionHandleQ s.Has
  outBufs : ∀ g, (s.group g).live →
    Shared (s.group g).outBufs (s.group g).outBufQ fun j b => s.HasBuf j g b
  ongoing : ∀ j ∈ s.ongoingJobQ, ∃! h, s.Has j h
  restored : ∀ g, (s.group g).live → (∀ h ∈ (s.group g).sessions, ∀ j, ¬ s.Has j h) →
    (s.group g).sessionHandleQ.Perm (s.group g).sessions ∧
      (s.group g).outBufQ.Perm (s.group g).outBufs

def Busy (h : SessionIdx) : Prop :=
  (s.groupOf h).live ∧ h ∈ (s.groupOf h).sessions ∧ h ∉ (s.groupOf h).sessionHandleQ

/-- No ongoing job is aborted. A job that is processed finds an output buffer, if it needs one, and
its identifier is not that of an ongoing job. A callback that reports a job, and a failure to start
one, come while the session works for it. -/
def Regular : Op → Prop
  | .abortJob jobId => (∃ j ∈ s.jobQueue, j.jobId = jobId) ∨ ∀ j ∈ s.ongoingJobQ, j.jobId ≠ jobId
  | .processJob => ∀ j ∈ s.jobQueue.head?, (s.groupOf j.jobId.session).sessionHandleQ ≠ [] →
      s.ongoingJobQ.length < s.concurrent →
        (j.dstIndex < 0 → (s.groupOf j.jobId.session).outBufQ ≠ []) ∧
          ∀ o ∈ s.ongoingJobQ, o.jobId ≠ j.jobId
  | .configure ok =>
    match s.jobLock with
    | .configuring h => ok = false → s.Busy h
    | _ => True
  | .fill ok =>
    match s.jobLock with
    | .filling h => ok = false → s.Busy h
    | _ => True
  | .fbd h => (s.session h).abortState = .abortNone → s.Busy h
  | .event h isError => (s.session h).abortState ≠ .abortInit → isError →
      (s.session h).encoding → s.Busy h
  | _ => True

instance (h : SessionIdx) : Decidable (s.Busy h) :=
  decidable_of_iff ((s.groupOf h).live ∧ (∃ h' ∈ (s.groupOf h).sessions, h' = h) ∧
      ∀ h' ∈ (s.groupOf h).sessionHandleQ, h' ≠ h) <| by
    simp [Busy, -Prod.forall, List.forall_mem_ne']

instance : (op : Op) → Decidable (s.Regular op)
  | .abortJob _ => inferInstanceAs (Decidable (_ ∨ _))
  | .processJob => inferInstanceAs (Decidable (∀ j ∈ s.jobQueue.head?, _))
  | .configure ok =>
    match h : s.jobLock with
    | .configuring i => decidable_of_iff (ok = false → s.Busy i) (by simp [Regular, h])
    | .idle | .filling _ | .aborting _ _ _ | .closing _ _ => .isTrue (by simp [Regular, h])
  | .fill ok =>
    match h : s.jobLock with
    | .filling i => decidable_of_iff (ok = false → s.Busy i) (by simp [Regular, h])
    | .idle | .configuring _ | .aborting _ _ _ | .closing _ _ => .isTrue (by simp [Regular, h])
  | .fbd h => inferInstanceAs (Decidable (_ → s.Busy h))
  | .event h isError => inferInstanceAs (Decidable (_ → isError → _ → s.Busy h))
  | .newClient | .createSession _ _ _ _ | .startJob _ _ _ | .destroySession _ | .closeClient _
  | .sessionAbort _ | .close => .isTrue trivial

/-! ## The invariant -/

structure Core : Prop where
  outcomes : (List.range s.accepted).Perm (s.jobQueue.map Job.serial ++
    s.ongoingJobQ.map Job.serial ++ s.reported.map Prod.fst ++ s.removed.map fun r => r.1.serial)
  named : ∀ r ∈ s.removed, r.2.Names r.1
  groups : ∀ g, (s.group g).live → g < s.numGroups ∧ (s.group g).sessions.Nodup
  sessions : ∀ g, (s.group g).live → ∀ h ∈ (s.group g).sessions, (s.session h).group = g ∧
    (s.session h).active ∧ s.isUsed h.1 ∧ h.2 < maxSession ∧
      ∀ b, (s.group g).sessions.head? = some b → b.1 = h.1
  handleQ : ∀ g, (s.group g).live → (s.group g).sessionHandleQ.Nodup ∧
    ∀ h ∈ (s.group g).sessionHandleQ, h ∈ (s.group g).sessions
  pending : ∀ j ∈ s.jobQueue, s.IsSession j.jobId.session
  ids : (s.ongoingJobQ.map Job.jobId).Nodup
  holder : ∀ j ∈ s.ongoingJobQ, s.IsSession j.jobId.session ∧ ∃ h, s.Busy h ∧
    (s.session h).job = some j ∧ (s.session h).group = (s.session j.jobId.session).group
  busy : ∀ h, s.Busy h → ∃ j ∈ s.ongoingJobQ, (s.session h).job = some j
  unique : ∀ h h' j, s.Busy h → s.Busy h' → (s.session h).job = some j →
    (s.session h').job = some j → h = h'
  known : ∀ h j, (s.session h).job = some j → j.serial < s.accepted ∧
    (∀ p ∈ s.jobQueue, p.serial ≠ j.serial) ∧ (j ∈ s.ongoingJobQ → s.Busy h)

structure Bufs : Prop where
  queue : ∀ g, (s.group g).live → (s.group g).outBufQ.Nodup ∧
    ∀ b ∈ (s.group g).outBufQ, b ∈ (s.group g).outBufs
  taken : ∀ h j, s.Busy h → (s.session h).autoOutBuf → (s.session h).job = some j →
    ∃ b ∈ (s.groupOf h).outBufs, b ∉ (s.groupOf h).outBufQ ∧ j.dstIndex + 1 = b
  distinct : ∀ h h' j j', s.Busy h → s.Busy h' → (s.session h).group = (s.session h').group →
    (s.session h).autoOutBuf → (s.session h').autoOutBuf → (s.session h).job = some j →
    (s.session h').job = some j' → j.dstIndex = j'.dstIndex → h = h'
  all : ∀ g, (s.group g).live → ∀ b ∈ (s.group g).outBufs, b ∈ (s.group g).outBufQ ∨
    ∃ h ∈ (s.group g).sessions, s.Busy h ∧ (s.session h).autoOutBuf ∧
      ∃ j, (s.session h).job = some j ∧ j.dstIndex + 1 = b

structure Calls : Prop where
  destroying : ∀ chain waiting g, s.jobLock = .aborting chain waiting (.destroySession g) →
    ¬ (s.group g).live ∧ ∀ h ∈ (s.group g).sessions, (s.session h).group = g
  closing : ∀ client i, (s.jobLock = .closing client i ∨
    ∃ chain waiting, s.jobLock = .aborting chain waiting (.close client i)) →
      ∀ h, s.IsSession h → h.1 = client → i ≤ h.2

structure Inv : Prop where
  core : s.Core
  bufs : s.Bufs
  calls : s.Calls

variable {s}

/-! ## What the invariant looks at -/

structure Same (s s' : Jpeg) : Prop where
  session : ∀ h, (s'.session h).active = (s.session h).active ∧
    (s'.session h).job = (s.session h).job ∧
    (s'.session h).autoOutBuf = (s.session h).autoOutBuf ∧
    (s'.session h).group = (s.session h).group
  groups : s'.group = s.group ∧ s'.numGroups = s.numGroups ∧ s'.isUsed = s.isUsed
  queues : s'.jobQueue = s.jobQueue ∧ s'.ongoingJobQ = s.ongoingJobQ
  history : s'.accepted = s.accepted ∧ s'.reported = s.reported ∧ s'.removed = s.removed

namespace Same

variable {s' : Jpeg} (h : Same s s')

include h

theorem groupOf (x : SessionIdx) : s'.groupOf x = s.groupOf x := by
  unfold Jpeg.groupOf
  rw [h.groups.1, (h.session x).2.2.2]

theorem busy (x : SessionIdx) : s'.Busy x ↔ s.Busy x := by
  unfold Busy
  rw [h.groupOf]

theorem isSession (x : SessionIdx) : s'.IsSession x ↔ s.IsSession x := by
  unfold IsSession
  rw [h.groupOf]

theorem core (hcore : s.Core) : s'.Core := by
  obtain ⟨hgroup, hnum, hused⟩ := h.groups
  obtain ⟨hpending, hongoing⟩ := h.queues
  obtain ⟨haccepted, hreported, hremoved⟩ := h.history
  have hjob : ∀ x, (s'.session x).job = (s.session x).job := fun x => (h.session x).2.1
  have hto : ∀ x, (s'.session x).group = (s.session x).group := fun x => (h.session x).2.2.2
  have hactive : ∀ x, (s'.session x).active = (s.session x).active := fun x => (h.session x).1
  refine ⟨?_, ?_, ?_, ?_, ?_, ?_, ?_, ?_, ?_, ?_, ?_⟩ <;>
    simp only [hgroup, hnum, hused, hpending, hongoing, haccepted, hreported, hremoved, hjob, hto,
      hactive, h.busy, h.isSession]
  · exact hcore.outcomes
  · exact hcore.named
  · exact hcore.groups
  · exact hcore.sessions
  · exact hcore.handleQ
  · exact hcore.pending
  · exact hcore.ids
  · exact hcore.holder
  · exact hcore.busy
  · exact hcore.unique
  · exact hcore.known

theorem bufs (hbufs : s.Bufs) : s'.Bufs := by
  have hgroup := h.groups.1
  have hjob : ∀ x, (s'.session x).job = (s.session x).job := fun x => (h.session x).2.1
  have hauto : ∀ x, (s'.session x).autoOutBuf = (s.session x).autoOutBuf :=
    fun x => (h.session x).2.2.1
  have hto : ∀ x, (s'.session x).group = (s.session x).group := fun x => (h.session x).2.2.2
  refine ⟨?_, ?_, ?_, ?_⟩ <;> simp only [hgroup, hjob, hauto, hto, h.busy, h.groupOf]
  · exact hbufs.queue
  · exact hbufs.taken
  · exact hbufs.distinct
  · exact hbufs.all

end Same

theorem same_setSession (s : Jpeg) (x : SessionIdx) (session : Session) (lock : JobLock)
    (h : session.active = (s.session x).active ∧ session.job = (s.session x).job ∧
      session.autoOutBuf = (s.session x).autoOutBuf ∧ session.group = (s.session x).group) :
    Same s { s.setSession x session with jobLock := lock } := by
  refine ⟨fun y => ?_, ⟨rfl, rfl, rfl⟩, ⟨rfl, rfl⟩, ⟨rfl, rfl, rfl⟩⟩
  by_cases hy : y = x
  · simp [setSession, hy, h]
  · simp only [setSession, Function.update_of_ne hy, and_self]

theorem same_jobLock (s : Jpeg) (lock : JobLock) : Same s { s with jobLock := lock } :=
  ⟨fun _ => ⟨rfl, rfl, rfl, rfl⟩, ⟨rfl, rfl, rfl⟩, ⟨rfl, rfl⟩, ⟨rfl, rfl, rfl⟩⟩

/-! ## The end of a job -/

section Finish

variable {h : SessionIdx} {j : Job}

theorem finish_eq (hjob : (s.session h).job = some j) (done : Bool) : s.finish h done =
    { (s.setGroup (s.session h).group ((s.groupOf h).returned h
        (if (s.session h).autoOutBuf then some (j.dstIndex + 1).toNat else none))).setSession h
          { s.session h with encoding := false } with
      ongoingJobQ := s.ongoingJobQ.eraseP fun o => o.jobId = j.jobId
      reported := (j.serial, done) :: s.reported } := by
  simp only [finish, report, hjob, jobDone]
  unfold Group.returned setSession setGroup Jpeg.groupOf
  cases (s.session h).autoOutBuf <;> simp [hjob]

structure Ended (s s' : Jpeg) (h : SessionIdx) (j : Job) (buf : Option Nat) : Prop where
  session : ∀ x, (s'.session x).active = (s.session x).active ∧
    (s'.session x).job = (s.session x).job ∧
    (s'.session x).autoOutBuf = (s.session x).autoOutBuf ∧
    (s'.session x).group = (s.session x).group
  group : s'.group = Function.update s.group (s.session h).group ((s.groupOf h).returned h buf)
  others : s'.numGroups = s.numGroups ∧ s'.isUsed = s.isUsed
  queues : s'.jobQueue = s.jobQueue ∧ s'.ongoingJobQ = s.ongoingJobQ.eraseP (·.jobId = j.jobId)
  history : s'.accepted = s.accepted ∧ s'.removed = s.removed ∧
    ∃ done, s'.reported = (j.serial, done) :: s.reported

theorem ended_finish (hjob : (s.session h).job = some j) (done : Bool) :
    Ended s (s.finish h done) h j
      (if (s.session h).autoOutBuf then some (j.dstIndex + 1).toNat else none) := by
  rw [finish_eq hjob]
  refine ⟨fun x => ?_, rfl, ⟨rfl, rfl⟩, ⟨rfl, rfl⟩, ⟨rfl, rfl, done, rfl⟩⟩
  by_cases hx : x = h
  · subst hx
    simp [setSession, setGroup]
  · simp [setSession, setGroup, Function.update_of_ne hx]

theorem Core.eraseP_jobId (hcore : s.Core) (hj : j ∈ s.ongoingJobQ) :
    s.ongoingJobQ.eraseP (·.jobId = j.jobId) = s.ongoingJobQ.erase j := by
  have hids := hcore.ids
  revert hj hids
  generalize s.ongoingJobQ = q
  induction q with
  | nil => intro hj; cases hj
  | cons o q ih =>
    grind

namespace Ended

variable {s' : Jpeg} {buf : Option Nat} (e : Ended s s' h j buf)

include e

theorem groupOf (x : SessionIdx) : s'.groupOf x =
    if (s.session x).group = (s.session h).group then (s.groupOf h).returned h buf
    else s.groupOf x := by
  unfold Jpeg.groupOf
  rw [(e.session x).2.2.2, e.group]
  by_cases hx : (s.session x).group = (s.session h).group
  · rw [hx, if_pos rfl, Function.update_self]
    rfl
  · rw [if_neg hx, Function.update_of_ne hx]

theorem live (g : Nat) : (s'.group g).live = (s.group g).live ∧
    (s'.group g).sessions = (s.group g).sessions ∧
    (s'.group g).outBufs = (s.group g).outBufs := by
  rw [e.group]
  by_cases hg : g = (s.session h).group
  · subst hg
    rw [Function.update_self]
    exact ⟨rfl, rfl, rfl⟩
  simp [hg]

theorem isSession (x : SessionIdx) : s'.IsSession x ↔ s.IsSession x := by
  simp [IsSession, Jpeg.groupOf, e.session, e.live]

theorem busy (x : SessionIdx) : s'.Busy x ↔ s.Busy x ∧ x ≠ h := by
  unfold Busy
  rw [e.groupOf]
  by_cases hx : (s.session x).group = (s.session h).group
  · have hsame : s.groupOf x = s.groupOf h := congrArg s.group hx
    rw [if_pos hx, hsame]
    simp only [Group.returned, List.mem_append, List.mem_singleton, not_or]
    tauto
  · rw [if_neg hx]
    tauto

theorem core (hcore : s.Core) (hbusy : s.Busy h) (hjob : (s.session h).job = some j) :
    s'.Core := by
  obtain ⟨hnum, hused⟩ := e.others
  obtain ⟨hpending, hongoing⟩ := e.queues
  obtain ⟨haccepted, hremoved, done, hreported⟩ := e.history
  have hj : j ∈ s.ongoingJobQ := by
    obtain ⟨j', hj', hjob'⟩ := hcore.busy h hbusy
    simp_all
  rw [hcore.eraseP_jobId hj] at hongoing
  have honce : s.ongoingJobQ.Nodup := hcore.ids.of_map _
  have hperm := List.perm_cons_erase hj
  have hsessionJob : ∀ x, (s'.session x).job = (s.session x).job := fun x => (e.session x).2.1
  have hto : ∀ x, (s'.session x).group = (s.session x).group := fun x => (e.session x).2.2.2
  have hactive : ∀ x, (s'.session x).active = (s.session x).active := fun x => (e.session x).1
  refine ⟨?_, ?_, fun g hg => ?_, fun g hg x hx => ?_, fun g hg => ?_, fun p hp => ?_, ?_,
    fun o ho => ?_, fun x hx => ?_, fun x y o hx hy hxo hyo => ?_, fun x o hxo => ?_⟩
  · rw [haccepted, hpending, hongoing, hremoved, hreported]
    refine hcore.outcomes.trans ?_
    grind
  · rw [hremoved]
    exact hcore.named
  · rw [(e.live g).1] at hg
    rw [hnum, (e.live g).2.1]
    exact hcore.groups g hg
  · rw [(e.live g).1] at hg
    rw [(e.live g).2.1] at hx ⊢
    rw [hto, hactive, hused]
    exact hcore.sessions g hg x hx
  · rw [(e.live g).1] at hg
    obtain ⟨hnodup, hown⟩ := hcore.handleQ g hg
    rw [e.group]
    by_cases heq : g = (s.session h).group
    · subst heq
      rw [Function.update_self]
      refine ⟨List.nodup_append.mpr ⟨hnodup, List.nodup_singleton h, fun x hx y hy hxy => ?_⟩,
        fun x hx => ?_⟩
      · rw [hxy, List.mem_singleton.mp hy] at hx
        exact hbusy.2.2 hx
      · obtain hx | hx := List.mem_append.mp hx
        · exact hown x hx
        · rw [List.mem_singleton.mp hx]
          exact hbusy.2.1
    simp_all
  · rw [hpending] at hp
    exact (e.isSession _).mpr (hcore.pending p hp)
  · rw [hongoing]
    exact hcore.ids.sublist (List.erase_sublist.map _)
  · rw [hongoing, honce.mem_erase_iff] at ho
    obtain ⟨hsession, x, hx, hxjob, hxgroup⟩ := hcore.holder o ho.2
    refine ⟨(e.isSession _).mpr hsession, x, (e.busy x).mpr ⟨hx, fun heq => ?_⟩, ?_, ?_⟩
    · simp_all
    · rw [hsessionJob]
      exact hxjob
    · rw [hto, hto]
      exact hxgroup
  · obtain ⟨hx, hne⟩ := (e.busy x).mp hx
    obtain ⟨o, ho, hxo⟩ := hcore.busy x hx
    rw [hongoing, hsessionJob]
    refine ⟨o, honce.mem_erase_iff.mpr ⟨fun heq => ?_, ho⟩, hxo⟩
    subst heq
    exact hne (hcore.unique x h o hx hbusy hxo hjob)
  · rw [hsessionJob] at hxo hyo
    exact hcore.unique x y o ((e.busy x).mp hx).1 ((e.busy y).mp hy).1 hxo hyo
  · rw [hsessionJob] at hxo
    obtain ⟨hlt, hfresh, hongo⟩ := hcore.known x o hxo
    rw [haccepted, hpending]
    refine ⟨hlt, hfresh, fun ho => ?_⟩
    rw [hongoing, honce.mem_erase_iff] at ho
    refine (e.busy x).mpr ⟨hongo ho.2, fun heq => ?_⟩
    simp_all

theorem bufs (hcore : s.Core) (hbufs : s.Bufs) (hbusy : s.Busy h)
    (hjob : (s.session h).job = some j)
    (hbuf : buf = if (s.session h).autoOutBuf then some (j.dstIndex + 1).toNat else none) :
    s'.Bufs := by
  have hsessionJob : ∀ x, (s'.session x).job = (s.session x).job := fun x => (e.session x).2.1
  have hto : ∀ x, (s'.session x).group = (s.session x).group := fun x => (e.session x).2.2.2
  have hauto : ∀ x, (s'.session x).autoOutBuf = (s.session x).autoOutBuf :=
    fun x => (e.session x).2.2.1
  have hmem : ∀ b ∈ buf, b ∈ (s.groupOf h).outBufs ∧ b ∉ (s.groupOf h).outBufQ ∧
      j.dstIndex + 1 = b ∧ (s.session h).autoOutBuf = true := by
    intro b hb
    rw [hbuf] at hb
    split at hb
    · rename_i hset
      obtain ⟨b', hb', hout, hdst⟩ := hbufs.taken h j hbusy hset hjob
      simp_all
    · cases hb
  refine ⟨fun g hg => ?_, fun x o hx hset hxo => ?_,
    fun x y o p hx hy hxy hsx hsy hxo hyp hdst => ?_, fun g hg b hb => ?_⟩
  · rw [(e.live g).1] at hg
    obtain ⟨hnodup, hown⟩ := hbufs.queue g hg
    rw [(e.live g).2.2, e.group]
    by_cases heq : g = (s.session h).group
    · subst heq
      rw [Function.update_self]
      refine ⟨List.nodup_append.mpr ⟨hnodup, ?_, fun b hb c hc hbc => ?_⟩, fun b hb => ?_⟩
      · cases buf <;> simp
      · exact (hmem c (Option.mem_toList.mp hc)).2.1 (hbc ▸ hb)
      · obtain hb | hb := List.mem_append.mp hb
        · exact hown b hb
        · exact (hmem b (Option.mem_toList.mp hb)).1
    · rw [Function.update_of_ne heq]
      exact ⟨hnodup, hown⟩
  · obtain ⟨hx, hne⟩ := (e.busy x).mp hx
    rw [hauto] at hset
    rw [hsessionJob] at hxo
    obtain ⟨b, hb, hout, hdst⟩ := hbufs.taken x o hx hset hxo
    rw [e.groupOf]
    split
    · rename_i hgroup
      have hsame : s.groupOf x = s.groupOf h := congrArg s.group hgroup
      rw [hsame] at hb hout
      refine ⟨b, hb, fun hin => ?_, hdst⟩
      obtain hin | hin := List.mem_append.mp hin
      · exact hout hin
      · obtain ⟨-, -, hdst', hset'⟩ := hmem b (Option.mem_toList.mp hin)
        exact hne (hbufs.distinct x h o j hx hbusy hgroup hset hset' hxo hjob (by omega))
    · exact ⟨b, hb, hout, hdst⟩
  · rw [hto, hto] at hxy
    rw [hauto] at hsx hsy
    rw [hsessionJob] at hxo hyp
    exact hbufs.distinct x y o p ((e.busy x).mp hx).1 ((e.busy y).mp hy).1 hxy hsx hsy hxo hyp hdst
  · rw [(e.live g).1] at hg
    rw [(e.live g).2.2] at hb
    rw [(e.live g).2.1]
    obtain hin | ⟨x, hx, hxbusy, hset, o, hxo, hdst⟩ := hbufs.all g hg b hb
    · left
      rw [e.group]
      by_cases heq : g = (s.session h).group
      · subst heq
        rw [Function.update_self]
        exact List.mem_append_left _ hin
      simp [heq, hin]
    · by_cases hxh : x = h
      · left
        subst hxh
        have heq : g = (s.session x).group := (hcore.sessions g hg x hx).1.symm
        rw [hjob] at hxo
        obtain rfl := Option.some.inj hxo
        rw [e.group, heq, Function.update_self, hbuf, if_pos hset]
        refine List.mem_append_right _ ?_
        simp_all
      · right
        refine ⟨x, hx, (e.busy x).mpr ⟨hxbusy, hxh⟩, ?_, o, ?_, hdst⟩
        · rw [hauto]
          exact hset
        · rw [hsessionJob]
          exact hxo

end Ended

end Finish

/-! ## The start of a job -/

/-- The first pending job was given the first free session `h` of the group `g`, and the output
buffer `buf`, and is now the ongoing job `j`. -/
structure Started (s s' : Jpeg) (h : SessionIdx) (j : Job) (g : Nat) (buf : Option Nat) : Prop where
  session : ∀ x, (s'.session x).active = (s.session x).active ∧
    (s'.session x).group = (s.session x).group ∧
    (x ≠ h → (s'.session x).job = (s.session x).job ∧
      (s'.session x).autoOutBuf = (s.session x).autoOutBuf)
  self : (s'.session h).job = some j ∧ (s'.session h).autoOutBuf = buf.isSome
  group : ∃ handleQ outBufQ, (s.group g).sessionHandleQ = h :: handleQ ∧
    (s.group g).outBufQ = buf.toList ++ outBufQ ∧
    s'.group = Function.update s.group g { s.group g with sessionHandleQ := handleQ, outBufQ }
  others : s'.numGroups = s.numGroups ∧ s'.isUsed = s.isUsed
  pending : ∃ p, s.jobQueue = p :: s'.jobQueue ∧ p.serial = j.serial ∧ p.jobId = j.jobId ∧
    (s.session p.jobId.session).group = g
  ongoing : s'.ongoingJobQ = s.ongoingJobQ ++ [j]
  history : s'.accepted = s.accepted ∧ s'.removed = s.removed ∧ s'.reported = s.reported
  buf : ∀ b ∈ buf, j.dstIndex + 1 = b

namespace Started

variable {s' : Jpeg} {h : SessionIdx} {j : Job} {g : Nat} {buf : Option Nat}
  (e : Started s s' h j g buf)

include e

theorem live (i : Nat) : (s'.group i).live = (s.group i).live ∧
    (s'.group i).sessions = (s.group i).sessions ∧
    (s'.group i).outBufs = (s.group i).outBufs := by
  obtain ⟨_, _, _, _, hgroup⟩ := e.group
  rw [hgroup]
  by_cases hi : i = g
  · subst hi
    rw [Function.update_self]
    exact ⟨rfl, rfl, rfl⟩
  simp [hi]

theorem isSession (x : SessionIdx) : s'.IsSession x ↔ s.IsSession x := by
  simp [IsSession, Jpeg.groupOf, e.session, e.live]

theorem group_live (hcore : s.Core) : (s.group g).live ∧ h ∈ (s.group g).sessions ∧
    (s.session h).group = g ∧ ¬ s.Busy h := by
  obtain ⟨p, hpending, -, -, hp⟩ := e.pending
  obtain ⟨handleQ, _, hhandleQ, -, -⟩ := e.group
  have hsession : s.IsSession p.jobId.session :=
    hcore.pending p (hpending ▸ List.mem_cons_self)
  have hlive : (s.group g).live := by
    rw [← hp]
    exact hsession.1
  have hfree : h ∈ (s.group g).sessionHandleQ := hhandleQ ▸ List.mem_cons_self
  have hown := (hcore.handleQ g hlive).2 h hfree
  have hgroup := (hcore.sessions g hlive h hown).1
  refine ⟨hlive, hown, hgroup, fun hbusy => hbusy.2.2 ?_⟩
  unfold Jpeg.groupOf
  rw [hgroup]
  exact hfree

theorem busy (hcore : s.Core) (x : SessionIdx) : s'.Busy x ↔ s.Busy x ∨ x = h := by
  obtain ⟨hlive, hown, hto, -⟩ := e.group_live hcore
  obtain ⟨handleQ, outBufQ, hhandleQ, -, hgroup⟩ := e.group
  have honce := (hcore.handleQ g hlive).1
  rw [hhandleQ, List.nodup_cons] at honce
  unfold Busy Jpeg.groupOf
  rw [(e.session x).2.1, hgroup]
  grind

theorem core (hcore : s.Core) (hids : ∀ o ∈ s.ongoingJobQ, o.jobId ≠ j.jobId) : s'.Core := by
  obtain ⟨hlive, hown, hhgroup, hfree⟩ := e.group_live hcore
  obtain ⟨handleQ, outBufQ, hhandleQ, -, hgroup⟩ := e.group
  obtain ⟨hnum, hused⟩ := e.others
  obtain ⟨p, hpending, hserial, hjobId, hp⟩ := e.pending
  obtain ⟨haccepted, hremoved, hreported⟩ := e.history
  have hto : ∀ x, (s'.session x).group = (s.session x).group := fun x => (e.session x).2.1
  have hnew : j ∉ s.ongoingJobQ := fun hin => hids j hin rfl
  -- an ongoing job of before has kept its session
  have hother : ∀ x o, (s.session x).job = some o → o ∈ s.ongoingJobQ → x ≠ h := by
    rintro x o hxo ho rfl
    exact hfree ((hcore.known _ o hxo).2.2 ho)
  have hserials := hcore.outcomes.nodup_iff.mp List.nodup_range
  rw [hpending] at hserials
  have hrest : ∀ q ∈ s'.jobQueue, q.serial ≠ j.serial := by
    simp_all
  have hjlt : j.serial < s.accepted := by
    refine List.mem_range.mp (hcore.outcomes.mem_iff.mpr ?_)
    simp [hpending, hserial]
  refine ⟨?_, ?_, fun i hi => ?_, fun i hi x hx => ?_, fun i hi => ?_, fun q hq => ?_, ?_,
    fun o ho => ?_, fun x hx => ?_, fun x y o hx hy hxo hyo => ?_, fun x o hxo => ?_⟩
  · rw [haccepted, hremoved, hreported, e.ongoing]
    refine hcore.outcomes.trans ?_
    rw [List.perm_iff_count]
    intro n
    simp only [hpending, List.map_cons, List.map_append, List.map_nil, List.count_append,
      List.count_cons, List.count_nil, hserial]
    omega
  · rw [hremoved]
    exact hcore.named
  · rw [(e.live i).1] at hi
    rw [hnum, (e.live i).2.1]
    exact hcore.groups i hi
  · rw [(e.live i).1] at hi
    rw [(e.live i).2.1] at hx ⊢
    rw [hto, (e.session x).1, hused]
    exact hcore.sessions i hi x hx
  · rw [(e.live i).1] at hi
    obtain ⟨honce, hsub⟩ := hcore.handleQ i hi
    rw [hgroup]
    by_cases heq : i = g
    · simp_all
    simp_all
  · exact (e.isSession _).mpr (hcore.pending q (hpending ▸ List.mem_cons_of_mem _ hq))
  · rw [e.ongoing, List.map_append, List.map_singleton]
    refine List.nodup_append.mpr ⟨hcore.ids, List.nodup_singleton _, fun i hi k hk hik => ?_⟩
    obtain ⟨o, ho, rfl⟩ := List.mem_map.mp hi
    exact hids o ho (hik.trans (List.mem_singleton.mp hk))
  · rw [e.ongoing] at ho
    obtain ho | ho := List.mem_append.mp ho
    · obtain ⟨hsession, x, hx, hxo, hxgroup⟩ := hcore.holder o ho
      refine ⟨(e.isSession _).mpr hsession, x, (e.busy hcore x).mpr (.inl hx), ?_, ?_⟩
      · simp [e.session, hother, hxo, ho]
      simp_all
    · obtain rfl := List.mem_singleton.mp ho
      refine ⟨(e.isSession _).mpr ?_, h, (e.busy hcore h).mpr (.inr rfl), e.self.1, ?_⟩
      · rw [← hjobId]
        exact hcore.pending p (hpending ▸ List.mem_cons_self)
      · rw [hto, hto, hhgroup, ← hjobId, hp]
  · rw [e.ongoing]
    obtain hx | rfl := (e.busy hcore x).mp hx
    · obtain ⟨o, ho, hxo⟩ := hcore.busy x hx
      simp [ho, e.session, hother, hxo]
    · exact ⟨j, List.mem_append_right _ (List.mem_singleton_self j), e.self.1⟩
  · have hown : ∀ x o, s'.Busy x → (s'.session x).job = some o →
        (x = h ∧ o = j) ∨ (s.Busy x ∧ (s.session x).job = some o ∧ o ∈ s.ongoingJobQ) := by
      intro x o hx hxo
      by_cases hxh : x = h
      · subst hxh
        rw [e.self.1] at hxo
        exact .inl ⟨rfl, (Option.some.inj hxo).symm⟩
      · have hx := ((e.busy hcore x).mp hx).resolve_right hxh
        rw [((e.session x).2.2 hxh).1] at hxo
        obtain ⟨o', ho', hxo'⟩ := hcore.busy x hx
        simp_all
    obtain ⟨rfl, rfl⟩ | ⟨hx, hxo, ho⟩ := hown x o hx hxo
    · obtain ⟨rfl, -⟩ | ⟨-, -, ho⟩ := hown y o hy hyo
      · rfl
      · exact absurd ho hnew
    · obtain ⟨-, rfl⟩ | ⟨hy, hyo, -⟩ := hown y o hy hyo
      · exact absurd ho hnew
      · exact hcore.unique x y o hx hy hxo hyo
  · rw [haccepted]
    by_cases hxh : x = h
    · subst hxh
      rw [e.self.1] at hxo
      obtain rfl := Option.some.inj hxo
      exact ⟨hjlt, hrest, fun _ => (e.busy hcore x).mpr (.inr rfl)⟩
    · rw [((e.session x).2.2 hxh).1] at hxo
      obtain ⟨hlt, hfresh, hongo⟩ := hcore.known x o hxo
      refine ⟨hlt, fun q hq => hfresh q (hpending ▸ List.mem_cons_of_mem _ hq), fun ho => ?_⟩
      rw [e.ongoing] at ho
      obtain ho | ho := List.mem_append.mp ho
      · exact (e.busy hcore x).mpr (.inl (hongo ho))
      simp_all

theorem bufs (hcore : s.Core) (hbufs : s.Bufs) : s'.Bufs := by
  obtain ⟨hlive, hown, hhgroup, hfree⟩ := e.group_live hcore
  obtain ⟨handleQ, outBufQ, -, houtBufQ, hgroup⟩ := e.group
  have hto : ∀ x, (s'.session x).group = (s.session x).group := fun x => (e.session x).2.1
  obtain ⟨honce, hsub⟩ := hbufs.queue g hlive
  rw [houtBufQ] at honce hsub
  obtain ⟨-, honce', hapart⟩ := List.nodup_append.mp honce
  have houtBufs : ∀ x, (s'.groupOf x).outBufs = (s.groupOf x).outBufs := by
    simp [Jpeg.groupOf, hto, e.live]
  have hstill : ∀ x b, b ∈ (s'.groupOf x).outBufQ → b ∈ (s.groupOf x).outBufQ := by
    intro x b hb
    unfold Jpeg.groupOf at hb ⊢
    rw [hto, hgroup] at hb
    grind
  -- a busy session of before has a buffer that was not in the queue
  have hother : ∀ x o, s.Busy x → (s.session x).autoOutBuf → (s.session x).job = some o →
      (s.session x).group = g → buf.isSome → o.dstIndex ≠ j.dstIndex := by
    intro x o hx hset hxo hxg hsome heq
    obtain ⟨b, hb⟩ := Option.isSome_iff_exists.mp hsome
    obtain ⟨c, -, hout, hdst⟩ := hbufs.taken x o hx hset hxo
    have hbj := e.buf b hb
    grind [Jpeg.groupOf]
  have hcase : ∀ x o, s'.Busy x → (s'.session x).autoOutBuf → (s'.session x).job = some o →
      (x = h ∧ o = j ∧ buf.isSome) ∨
        (s.Busy x ∧ (s.session x).autoOutBuf ∧ (s.session x).job = some o) := by
    intro x o hx hset hxo
    by_cases hxh : x = h
    · subst hxh
      rw [e.self.1] at hxo
      rw [e.self.2] at hset
      exact .inl ⟨rfl, (Option.some.inj hxo).symm, hset⟩
    · obtain ⟨hjob, hauto⟩ := (e.session x).2.2 hxh
      rw [hauto] at hset
      rw [hjob] at hxo
      exact .inr ⟨((e.busy hcore x).mp hx).resolve_right hxh, hset, hxo⟩
  refine ⟨fun i hi => ?_, fun x o hx hset hxo => ?_,
    fun x y o q hx hy hxy hsx hsy hxo hyq hdst => ?_, fun i hi b hb => ?_⟩
  · rw [(e.live i).1] at hi
    rw [(e.live i).2.2, hgroup]
    by_cases heq : i = g
    · simp_all
    · rw [Function.update_of_ne heq]
      exact hbufs.queue i hi
  · rw [houtBufs]
    obtain ⟨rfl, rfl, hsome⟩ | ⟨hx, hset, hxo⟩ := hcase x o hx hset hxo
    · obtain ⟨b, hb⟩ := Option.isSome_iff_exists.mp hsome
      rw [hb] at hsub hapart
      refine ⟨b, ?_, fun hin => ?_, e.buf b hb⟩
      · simp_all [Jpeg.groupOf]
      simp_all [Jpeg.groupOf]
    · obtain ⟨b, hb, hout, hdst⟩ := hbufs.taken x o hx hset hxo
      exact ⟨b, hb, fun hin => hout (hstill x b hin), hdst⟩
  · rw [hto, hto] at hxy
    obtain ⟨rfl, rfl, hsome⟩ | ⟨hx, hsx, hxo⟩ := hcase x o hx hsx hxo
    · grind
    · obtain ⟨rfl, rfl, hsome⟩ | ⟨hy, hsy, hyq⟩ := hcase y q hy hsy hyq
      · exact absurd hdst (hother x o hx hsx hxo (hxy.trans hhgroup) hsome)
      · exact hbufs.distinct x y o q hx hy hxy hsx hsy hxo hyq hdst
  · rw [(e.live i).1] at hi
    rw [(e.live i).2.2] at hb
    rw [(e.live i).2.1]
    obtain hin | ⟨x, hx, hxbusy, hset, o, hxo, hdst⟩ := hbufs.all i hi b hb
    · rw [hgroup]
      by_cases heq : i = g
      · subst heq
        rw [houtBufQ] at hin
        rw [Function.update_self]
        obtain hin | hin := List.mem_append.mp hin
        · right
          have hb : b ∈ buf := Option.mem_toList.mp hin
          refine ⟨h, hown, (e.busy hcore h).mpr (.inr rfl), ?_, j, e.self.1, e.buf b hb⟩
          rw [e.self.2]
          exact Option.isSome_iff_exists.mpr ⟨b, hb⟩
        · exact .inl hin
      simp [heq, hin]
    · right
      have hxh : x ≠ h := fun heq => hfree (heq ▸ hxbusy)
      obtain ⟨hjob, hauto⟩ := (e.session x).2.2 hxh
      refine ⟨x, hx, (e.busy hcore x).mpr (.inl hxbusy), ?_, o, ?_, hdst⟩
      · rw [hauto]
        exact hset
      · rw [hjob]
        exact hxo

end Started

/-! ## The end of a group -/

section Retire

variable {x : SessionIdx} {cause : Removal}

theorem retire_cases (s : Jpeg) (x : SessionIdx) (g : Nat) :
    ((s.retire x).group g).live = ((s.group g).live &&
      !decide (g = (s.session x).group ∧ (s.group g).sessions.head? = some x)) ∧
    ((s.retire x).group g).sessions = (s.group g).sessions ∧
    ((s.retire x).group g).sessionHandleQ = (s.group g).sessionHandleQ ∧
    ((s.retire x).group g).outBufQ = (s.group g).outBufQ ∧
    ((s.retire x).group g).outBufs = (s.group g).outBufs := by
  unfold retire
  by_cases hhead : (s.groupOf x).sessions.head? = some x
  · simp only [if_pos hhead]
    by_cases hg : g = (s.session x).group
    · subst hg
      have hhead' : (s.group (s.session x).group).sessions.head? = some x := hhead
      simp only [setGroup, Function.update_self, hhead', and_self, decide_true, Bool.not_true,
        Bool.and_false, true_and]
      exact ⟨rfl, rfl, rfl, rfl⟩
    simp [setGroup, hg]
  · simp only [if_neg hhead]
    have hnot : ¬ (g = (s.session x).group ∧ (s.group g).sessions.head? = some x) := by
      rintro ⟨rfl, hx⟩
      exact hhead hx
    simp only [hnot, decide_false, Bool.not_false, Bool.and_true, and_self]

theorem retire_frame (s : Jpeg) (x : SessionIdx) : ∃ group, s.retire x = { s with group } := by
  unfold retire
  dsimp only
  split
  · exact ⟨_, rfl⟩
  · exact ⟨_, rfl⟩

/-- The jobs of the session `x` were removed, and its group is no longer live. -/
structure Retired (s s' : Jpeg) (x : SessionIdx) (cause : Removal) : Prop where
  session : s'.session = s.session
  live : ∀ g, (s'.group g).live ↔ (s.group g).live ∧
    ¬ (g = (s.session x).group ∧ (s.group g).sessions.head? = some x)
  groups : ∀ g, (s'.group g).sessions = (s.group g).sessions ∧
    (s'.group g).sessionHandleQ = (s.group g).sessionHandleQ ∧
    (s'.group g).outBufQ = (s.group g).outBufQ ∧ (s'.group g).outBufs = (s.group g).outBufs
  others : s'.numGroups = s.numGroups ∧ s'.isUsed = s.isUsed
  queues : s'.jobQueue = s.jobQueue.filter (·.jobId.session ≠ x) ∧
    s'.ongoingJobQ = s.ongoingJobQ.filter (·.jobId.session ≠ x)
  history : s'.accepted = s.accepted ∧ s'.reported = s.reported ∧
    s'.removed = ((s.jobQueue ++ s.ongoingJobQ).filter (·.jobId.session = x)).map
      (fun j => (j, cause)) ++ s.removed

theorem retired_removeJobs (s : Jpeg) (x : SessionIdx) (cause : Removal) :
    Retired s ((s.removeJobs x cause).retire x) x cause := by
  have hgroup := retire_cases (s.removeJobs x cause) x
  obtain ⟨group, hs⟩ := retire_frame (s.removeJobs x cause) x
  rw [hs] at hgroup ⊢
  refine ⟨rfl, fun g => ?_, fun g => (hgroup g).2, ⟨rfl, rfl⟩, ⟨rfl, rfl⟩, ⟨rfl, rfl, rfl⟩⟩
  rw [(hgroup g).1, Bool.and_eq_true, Bool.not_eq_true', decide_eq_false_iff_not]
  exact Iff.rfl

namespace Retired

variable {s' : Jpeg} (e : Retired s s' x cause)

include e

theorem isSession (y : SessionIdx) : s'.IsSession y ↔ s.IsSession y ∧ y ≠ x := by
  unfold IsSession Jpeg.groupOf
  rw [e.session, e.live, (e.groups _).1]
  grind

theorem busy (y : SessionIdx) : s'.Busy y ↔ s.Busy y ∧
    ¬ ((s.session y).group = (s.session x).group ∧ (s.groupOf y).sessions.head? = some x) := by
  unfold Busy Jpeg.groupOf
  rw [e.session, e.live, (e.groups _).1, (e.groups _).2.1]
  tauto

theorem still (hcore : s.Core) {y : SessionIdx} {o : Job} (hy : s.Busy y)
    (ho : o ∈ s.ongoingJobQ) (hyo : (s.session y).job = some o) :
    s'.Busy y ↔ o.jobId.session ≠ x := by
  obtain ⟨hsession, z, hz, hzo, hzgroup⟩ := hcore.holder o ho
  obtain rfl := hcore.unique z y o hz hy hzo hyo
  have hhead : (s.groupOf z).sessions.head? = some o.jobId.session := by
    have : s.groupOf z = s.groupOf o.jobId.session := congrArg s.group hzgroup
    rw [this]
    exact hsession.2
  rw [e.busy, hhead, hzgroup]
  grind

theorem core (hcore : s.Core) (hcause : ∀ j : Job, j.jobId.session = x → cause.Names j) :
    s'.Core := by
  obtain ⟨hnum, hused⟩ := e.others
  obtain ⟨hpending, hongoing⟩ := e.queues
  obtain ⟨haccepted, hreported, hremoved⟩ := e.history
  have hmem : ∀ o, o ∈ s'.ongoingJobQ ↔ o ∈ s.ongoingJobQ ∧ o.jobId.session ≠ x := by
    simp [hongoing]
  refine ⟨?_, fun r hr => ?_, fun g hg => ?_, fun g hg y hy => ?_, fun g hg => ?_, fun p hp => ?_,
    ?_, fun o ho => ?_, fun y hy => ?_, fun y z o hy hz hyo hzo => ?_, fun y o hyo => ?_⟩
  · rw [haccepted, hreported, hremoved, hpending, hongoing]
    refine hcore.outcomes.trans ?_
    have hsplit : ∀ q : List Job, (q.map Job.serial).Perm
        ((q.filter (·.jobId.session ≠ x)).map Job.serial ++
          (q.filter (·.jobId.session = x)).map fun j => j.serial) := by
      grind [List.filter_append_perm]
    grind [Function.comp_def]
  · rw [hremoved] at hr
    obtain hr | hr := List.mem_append.mp hr
    · obtain ⟨j, hj, rfl⟩ := List.mem_map.mp hr
      exact hcause j (of_decide_eq_true (List.mem_filter.mp hj).2)
    · exact hcore.named r hr
  · rw [hnum, (e.groups g).1]
    exact hcore.groups g ((e.live g).mp hg).1
  · rw [(e.groups g).1] at hy ⊢
    rw [e.session, hused]
    exact hcore.sessions g ((e.live g).mp hg).1 y hy
  · rw [(e.groups g).1, (e.groups g).2.1]
    exact hcore.handleQ g ((e.live g).mp hg).1
  · rw [hpending, List.mem_filter, decide_eq_true_eq] at hp
    exact (e.isSession _).mpr ⟨hcore.pending p hp.1, hp.2⟩
  · rw [hongoing]
    exact hcore.ids.sublist (List.filter_sublist.map _)
  · obtain ⟨ho, hne⟩ := (hmem o).mp ho
    obtain ⟨hsession, y, hy, hyo, hygroup⟩ := hcore.holder o ho
    refine ⟨(e.isSession _).mpr ⟨hsession, hne⟩, y, (e.still hcore hy ho hyo).mpr hne, ?_, ?_⟩
    · rw [e.session]
      exact hyo
    · rw [e.session]
      exact hygroup
  · have hy' := ((e.busy y).mp hy).1
    obtain ⟨o, ho, hyo⟩ := hcore.busy y hy'
    rw [e.session]
    exact ⟨o, (hmem o).mpr ⟨ho, (e.still hcore hy' ho hyo).mp hy⟩, hyo⟩
  · rw [e.session] at hyo hzo
    exact hcore.unique y z o ((e.busy y).mp hy).1 ((e.busy z).mp hz).1 hyo hzo
  · rw [e.session] at hyo
    obtain ⟨hlt, hfresh, hongo⟩ := hcore.known y o hyo
    rw [haccepted, hpending]
    refine ⟨hlt, fun p hp => hfresh p (List.mem_filter.mp hp).1, fun ho => ?_⟩
    obtain ⟨ho, hne⟩ := (hmem o).mp ho
    exact (e.still hcore (hongo ho) ho hyo).mpr hne

theorem bufs (hcore : s.Core) (hbufs : s.Bufs) : s'.Bufs := by
  have hgroupOf : ∀ y, (s'.groupOf y).outBufQ = (s.groupOf y).outBufQ ∧
      (s'.groupOf y).outBufs = (s.groupOf y).outBufs := by
    simp [Jpeg.groupOf, e.session, e.groups]
  refine ⟨fun g hg => ?_, fun y o hy hset hyo => ?_,
    fun y z o p hy hz hyz hsy hsz hyo hzp hdst => ?_, fun g hg b hb => ?_⟩
  · rw [(e.groups g).2.2.1, (e.groups g).2.2.2]
    exact hbufs.queue g ((e.live g).mp hg).1
  · rw [e.session] at hset hyo
    rw [(hgroupOf y).1, (hgroupOf y).2]
    exact hbufs.taken y o ((e.busy y).mp hy).1 hset hyo
  · rw [e.session] at hyz hsy hsz hyo hzp
    exact hbufs.distinct y z o p ((e.busy y).mp hy).1 ((e.busy z).mp hz).1 hyz hsy hsz hyo hzp hdst
  · obtain ⟨hlive, hnot⟩ := (e.live g).mp hg
    rw [(e.groups g).2.2.2] at hb
    rw [(e.groups g).2.2.1, (e.groups g).1, e.session]
    refine (hbufs.all g hlive b hb).imp_right ?_
    rintro ⟨y, hy, hybusy, hset, o, hyo, hdst⟩
    refine ⟨y, hy, (e.busy y).mpr ⟨hybusy, ?_⟩, hset, o, hyo, hdst⟩
    have hyg := (hcore.sessions g hlive y hy).1
    unfold Jpeg.groupOf
    rw [hyg]
    exact hnot

end Retired

end Retire

/-! ## Changes outside of the live groups -/

/-- The live groups and their sessions are as they were, and no other session has got a job. -/
structure Outside (s s' : Jpeg) : Prop where
  live : ∀ g, (s'.group g).live ↔ (s.group g).live
  group : ∀ g, (s.group g).live → s'.group g = s.group g
  session : ∀ g, (s.group g).live → ∀ h ∈ (s.group g).sessions, s'.session h = s.session h ∧
    s'.isUsed h.1 = s.isUsed h.1
  job : ∀ h j, (s'.session h).job = some j → (s.session h).job = some j
  numGroups : s'.numGroups = s.numGroups
  queues : s'.jobQueue = s.jobQueue ∧ s'.ongoingJobQ = s.ongoingJobQ
  history : s'.accepted = s.accepted ∧ s'.reported = s.reported ∧ s'.removed = s.removed

namespace Outside

variable {s' : Jpeg} (e : Outside s s')

include e

theorem isSession (x : SessionIdx) : s'.IsSession x ↔ s.IsSession x := by
  unfold IsSession Jpeg.groupOf
  constructor
  · rintro ⟨hlive, hhead⟩
    have hlive' := (e.live _).mp hlive
    rw [e.group _ hlive'] at hhead
    have hsame := (e.session _ hlive' x (List.mem_of_mem_head? hhead)).1
    simp_all
  · rintro ⟨hlive, hhead⟩
    have hx := List.mem_of_mem_head? hhead
    rw [(e.session _ hlive x hx).1, e.group _ hlive]
    exact ⟨hlive, hhead⟩

theorem busy (x : SessionIdx) : s'.Busy x ↔ s.Busy x := by
  unfold Busy Jpeg.groupOf
  constructor
  · rintro ⟨hlive, hx, hout⟩
    have hlive' := (e.live _).mp hlive
    rw [e.group _ hlive'] at hx hout
    have hsame := (e.session _ hlive' x hx).1
    simp_all
  · rintro ⟨hlive, hx, hout⟩
    rw [(e.session _ hlive x hx).1, e.group _ hlive]
    exact ⟨hlive, hx, hout⟩

theorem session_of_busy {x : SessionIdx} (hx : s.Busy x) : s'.session x = s.session x :=
  (e.session _ hx.1 x hx.2.1).1

theorem session_of_isSession {x : SessionIdx} (hx : s.IsSession x) : s'.session x = s.session x :=
  (e.session _ hx.1 x (List.mem_of_mem_head? hx.2)).1

theorem core (hcore : s.Core) : s'.Core := by
  obtain ⟨hpending, hongoing⟩ := e.queues
  obtain ⟨haccepted, hreported, hremoved⟩ := e.history
  refine ⟨?_, ?_, fun g hg => ?_, fun g hg h hh => ?_, fun g hg => ?_, fun p hp => ?_, ?_,
    fun o ho => ?_, fun x hx => ?_, fun x y o hx hy hxo hyo => ?_, fun x o hxo => ?_⟩
  · rw [haccepted, hreported, hremoved, hpending, hongoing]
    exact hcore.outcomes
  · rw [hremoved]
    exact hcore.named
  · rw [e.live] at hg
    rw [e.group g hg, e.numGroups]
    exact hcore.groups g hg
  · rw [e.live] at hg
    rw [e.group g hg] at hh ⊢
    rw [(e.session g hg h hh).1, (e.session g hg h hh).2]
    exact hcore.sessions g hg h hh
  · rw [e.live] at hg
    rw [e.group g hg]
    exact hcore.handleQ g hg
  · rw [hpending] at hp
    exact (e.isSession _).mpr (hcore.pending p hp)
  · rw [hongoing]
    exact hcore.ids
  · rw [hongoing] at ho
    obtain ⟨hsession, x, hx, hxo, hxgroup⟩ := hcore.holder o ho
    refine ⟨(e.isSession _).mpr hsession, x, (e.busy x).mpr hx, ?_, ?_⟩
    · rw [e.session_of_busy hx]
      exact hxo
    · rw [e.session_of_busy hx, e.session_of_isSession hsession]
      exact hxgroup
  · have hx := (e.busy x).mp hx
    rw [hongoing, e.session_of_busy hx]
    exact hcore.busy x hx
  · exact hcore.unique x y o ((e.busy x).mp hx) ((e.busy y).mp hy) (e.job x o hxo)
      (e.job y o hyo)
  · rw [haccepted, hpending, hongoing, e.busy]
    exact hcore.known x o (e.job x o hxo)

theorem bufs (hbufs : s.Bufs) : s'.Bufs := by
  refine ⟨fun g hg => ?_, fun x o hx hset hxo => ?_,
    fun x y o p hx hy hxy hsx hsy hxo hyp hdst => ?_, fun g hg b hb => ?_⟩
  · rw [e.live] at hg
    rw [e.group g hg]
    exact hbufs.queue g hg
  · have hx := (e.busy x).mp hx
    unfold Jpeg.groupOf
    rw [e.session_of_busy hx] at hset hxo ⊢
    rw [e.group _ hx.1]
    exact hbufs.taken x o hx hset hxo
  · have hx := (e.busy x).mp hx
    have hy := (e.busy y).mp hy
    rw [e.session_of_busy hx] at hxy hsx hxo
    rw [e.session_of_busy hy] at hxy hsy hyp
    exact hbufs.distinct x y o p hx hy hxy hsx hsy hxo hyp hdst
  · rw [e.live] at hg
    rw [e.group g hg] at hb ⊢
    refine (hbufs.all g hg b hb).imp_right ?_
    rintro ⟨x, hx, hxbusy, hset, o, hxo, hdst⟩
    refine ⟨x, hx, (e.busy x).mpr hxbusy, ?_, o, ?_, hdst⟩
    · rw [e.session_of_busy hxbusy]
      exact hset
    · rw [e.session_of_busy hxbusy]
      exact hxo

end Outside

/-! ## Calls -/

theorem core_append (hcore : s.Core) {session : SessionIdx} (hsession : s.IsSession session)
    (number : Nat) (dstIndex : Int) : ({ s with
      jobQueue := s.jobQueue ++ [⟨s.accepted, ⟨session, number⟩, dstIndex⟩]
      accepted := s.accepted + 1 } : Jpeg).Core := by
  refine ⟨?_, hcore.named, hcore.groups, hcore.sessions, hcore.handleQ, fun p hp => ?_, hcore.ids,
    hcore.holder, hcore.busy, hcore.unique, fun h j hj => ?_⟩
  · rw [List.range_succ]
    have hperm := hcore.outcomes
    grind
  · obtain hp | hp := List.mem_append.mp hp
    · exact hcore.pending p hp
    · rw [List.mem_singleton.mp hp]
      exact hsession
  · obtain ⟨hlt, hfresh, hongo⟩ := hcore.known h j hj
    refine ⟨Nat.lt_succ_of_lt hlt, fun p hp => ?_, hongo⟩
    grind

theorem perm_eraseP_of_find? {α : Type} {p : α → Bool} {l : List α} {a : α}
    (h : l.find? p = some a) : l.Perm (a :: l.eraseP p) := by
  induction l with
  | nil => cases h
  | cons b l ih =>
    by_cases hb : p b
    · simp_all
    · rw [List.find?_cons_of_neg hb] at h
      rw [List.eraseP_cons_of_neg hb]
      exact ((ih h).cons b).trans (List.Perm.swap a b _)

theorem core_abort (hcore : s.Core) {jobId : JobId} {j : Job}
    (hfind : s.jobQueue.find? (fun j => j.jobId = jobId) = some j) : ({ s with
      jobQueue := s.jobQueue.eraseP fun j => j.jobId = jobId
      removed := (j, .abortJob jobId) :: s.removed } : Jpeg).Core := by
  have hsub := List.eraseP_sublist (p := fun j : Job => decide (j.jobId = jobId)) (l := s.jobQueue)
  refine ⟨?_, fun r hr => ?_, hcore.groups, hcore.sessions, hcore.handleQ, fun p hp => ?_,
    hcore.ids, hcore.holder, hcore.busy, hcore.unique, fun h o ho => ?_⟩
  · have hperm := (perm_eraseP_of_find? hfind).map Job.serial
    refine hcore.outcomes.trans ?_
    grind
  · obtain rfl | hr := List.mem_cons.mp hr
    · have hid : j.jobId = jobId := by simpa using List.find?_some hfind
      exact hid
    · exact hcore.named r hr
  · exact hcore.pending p (hsub.mem hp)
  · obtain ⟨hlt, hfresh, hongo⟩ := hcore.known h o ho
    exact ⟨hlt, fun p hp => hfresh p (hsub.mem hp), hongo⟩

theorem mem_newSessions {client num : Nat} {h : SessionIdx} (hmem : h ∈ s.newSessions client num) :
    h.1 = client ∧ h.2 < maxSession ∧ (s.session h).active = false := by
  have hmem := List.mem_of_mem_take hmem
  grind

theorem nodup_newSessions (s : Jpeg) (client num : Nat) : (s.newSessions client num).Nodup := by
  have hinj : Function.Injective (Prod.mk client : Nat → SessionIdx) :=
    fun _ _ h => (Prod.mk.inj h).2
  exact ((List.nodup_range.map hinj).filter _).sublist (List.take_sublist _ _)

/-- The sessions `sessions` of a client, which were not active, are the new group `g`. -/
structure Created (s s' : Jpeg) (sessions : List SessionIdx) : Prop where
  fresh : ∀ h ∈ sessions, (s.session h).active = false ∧ s.isUsed h.1 ∧ h.2 < maxSession ∧
    ∀ h' ∈ sessions, h'.1 = h.1
  once : sessions.Nodup
  session : ∀ h, (s'.session h).job = (s.session h).job ∧
    (h ∉ sessions → s'.session h = s.session h) ∧
    (h ∈ sessions → (s'.session h).active = true ∧ (s'.session h).group = s.numGroups)
  group : ∃ group : Group, group.sessions = sessions ∧ group.sessionHandleQ = sessions ∧
    group.outBufQ = group.outBufs ∧ s'.group = Function.update s.group s.numGroups group
  others : s'.numGroups = s.numGroups + 1 ∧ s'.isUsed = s.isUsed
  queues : s'.jobQueue = s.jobQueue ∧ s'.ongoingJobQ = s.ongoingJobQ
  history : s'.accepted = s.accepted ∧ s'.reported = s.reported ∧ s'.removed = s.removed

theorem created_createSession {client numSrcBufs numDstBufs : Nat} (burst : Bool)
    (hused : s.isUsed client) (hbufs : ¬ (maxBuf < numSrcBufs ∨ maxBuf < numDstBufs)) :
    Created s (s.createSession client burst numSrcBufs numDstBufs)
      (s.newSessions client (if burst then s.concurrent else 1)) := by
  simp only [createSession, if_neg hbufs]
  refine ⟨fun h hh => ?_, nodup_newSessions s _ _, fun h => ⟨?_, fun hh => ?_, fun hh => ?_⟩,
    ⟨_, rfl, rfl, rfl, rfl⟩, ⟨rfl, rfl⟩, ⟨rfl, rfl⟩, ⟨rfl, rfl, rfl⟩⟩
  · obtain ⟨rfl, hlt, hactive⟩ := mem_newSessions hh
    exact ⟨hactive, hused, hlt, fun h' hh' => (mem_newSessions hh').1⟩
  · by_cases hh : h ∈ s.newSessions client (if burst then s.concurrent else 1)
    · simp only [setGroup, if_pos hh]
    · simp only [setGroup, if_neg hh]
  · simp only [setGroup, if_neg hh]
  · simp only [setGroup, if_pos hh, and_self]

namespace Created

variable {s' : Jpeg} {sessions : List SessionIdx} (e : Created s s' sessions)

include e

theorem old (hcore : s.Core) {g : Nat} (hlive : (s.group g).live) {h : SessionIdx}
    (hh : h ∈ (s.group g).sessions) : s'.session h = s.session h ∧ g ≠ s.numGroups ∧
      s'.group g = s.group g := by
  have hne : g ≠ s.numGroups := Nat.ne_of_lt (hcore.groups g hlive).1
  have hout : h ∉ sessions := by
    intro hin
    have hactive := (hcore.sessions g hlive h hh).2.1
    rw [(e.fresh h hin).1] at hactive
    cases hactive
  obtain ⟨_, _, _, _, hgroup⟩ := e.group
  exact ⟨(e.session h).2.1 hout, hne, by rw [hgroup, Function.update_of_ne hne]⟩

theorem group_of_ne {g : Nat} (hg : g ≠ s.numGroups) : s'.group g = s.group g := by
  obtain ⟨_, _, _, _, hgroup⟩ := e.group
  rw [hgroup, Function.update_of_ne hg]

theorem busy (hcore : s.Core) (x : SessionIdx) : s'.Busy x ↔ s.Busy x := by
  constructor
  · rintro ⟨hlive, hx, hout⟩
    by_cases hnew : (s'.session x).group = s.numGroups
    · obtain ⟨group, hsessions, hhandleQ, -, hgroup⟩ := e.group
      simp_all [Jpeg.groupOf]
    · unfold Jpeg.groupOf at hlive hx hout
      rw [e.group_of_ne hnew] at hlive hx hout
      have hsame := (e.old hcore hlive hx).1
      rw [hsame] at hlive hx hout
      exact ⟨hlive, hx, hout⟩
  · rintro ⟨hlive, hx, hout⟩
    obtain ⟨hsame, -, hgroup⟩ := e.old hcore hlive hx
    simp_all [Busy, Jpeg.groupOf]

theorem isSession (hcore : s.Core) {x : SessionIdx} (hx : s.IsSession x) :
    s'.IsSession x ∧ s'.session x = s.session x := by
  obtain ⟨hlive, hhead⟩ := hx
  obtain ⟨hsame, -, hgroup⟩ := e.old hcore hlive (List.mem_of_mem_head? hhead)
  simp_all [IsSession, Jpeg.groupOf]

theorem core (hcore : s.Core) : s'.Core := by
  obtain ⟨group, hsessions, hhandleQ, -, hgroup⟩ := e.group
  obtain ⟨hnum, hused⟩ := e.others
  obtain ⟨hpending, hongoing⟩ := e.queues
  obtain ⟨haccepted, hreported, hremoved⟩ := e.history
  have hjob : ∀ x, (s'.session x).job = (s.session x).job := fun x => (e.session x).1
  refine ⟨?_, ?_, fun g hg => ?_, fun g hg h hh => ?_, fun g hg => ?_, fun p hp => ?_, ?_,
    fun o ho => ?_, fun x hx => ?_, fun x y o hx hy hxo hyo => ?_, fun x o hxo => ?_⟩
  · rw [haccepted, hreported, hremoved, hpending, hongoing]
    exact hcore.outcomes
  · rw [hremoved]
    exact hcore.named
  · rw [hnum]
    by_cases hnew : g = s.numGroups
    · simp [hnew, hgroup, hsessions, e.once]
    · rw [e.group_of_ne hnew] at hg ⊢
      exact ⟨Nat.lt_succ_of_lt (hcore.groups g hg).1, (hcore.groups g hg).2⟩
  · rw [hused]
    by_cases hnew : g = s.numGroups
    · subst hnew
      rw [hgroup, Function.update_self, hsessions] at hh ⊢
      obtain ⟨-, hu, hlt, hclient⟩ := e.fresh h hh
      obtain ⟨hactive, hto⟩ := (e.session h).2.2 hh
      exact ⟨hto, hactive, hu, hlt, fun b hb => hclient b (List.mem_of_mem_head? hb)⟩
    · rw [e.group_of_ne hnew] at hg hh ⊢
      rw [(e.old hcore hg hh).1]
      exact hcore.sessions g hg h hh
  · by_cases hnew : g = s.numGroups
    · simp [hnew, hgroup, hsessions, hhandleQ, e.once]
    · rw [e.group_of_ne hnew] at hg ⊢
      exact hcore.handleQ g hg
  · rw [hpending] at hp
    exact (e.isSession hcore (hcore.pending p hp)).1
  · rw [hongoing]
    exact hcore.ids
  · rw [hongoing] at ho
    obtain ⟨hsession, x, hx, hxo, hxgroup⟩ := hcore.holder o ho
    obtain ⟨hsession', hsame⟩ := e.isSession hcore hsession
    refine ⟨hsession', x, (e.busy hcore x).mpr hx, ?_, ?_⟩
    · rw [hjob]
      exact hxo
    · rw [hsame, (e.old hcore hx.1 hx.2.1).1]
      exact hxgroup
  · rw [hongoing, hjob]
    exact hcore.busy x ((e.busy hcore x).mp hx)
  · rw [hjob] at hxo hyo
    exact hcore.unique x y o ((e.busy hcore x).mp hx) ((e.busy hcore y).mp hy) hxo hyo
  · rw [hjob] at hxo
    rw [haccepted, hpending, hongoing, e.busy hcore]
    exact hcore.known x o hxo

theorem bufs (hcore : s.Core) (hbufs : s.Bufs) : s'.Bufs := by
  obtain ⟨group, hsessions, hhandleQ, houtBufQ, hgroup⟩ := e.group
  have hold : ∀ x, s'.Busy x → s.Busy x ∧ s'.session x = s.session x ∧
      s'.groupOf x = s.groupOf x := by
    intro x hx
    have hx := (e.busy hcore x).mp hx
    obtain ⟨hsame, -, hgroup⟩ := e.old hcore hx.1 hx.2.1
    simp [Jpeg.groupOf, hx, hsame, hgroup]
  refine ⟨fun g hg => ?_, fun x o hx hset hxo => ?_,
    fun x y o p hx hy hxy hsx hsy hxo hyp hdst => ?_, fun g hg b hb => ?_⟩
  · by_cases hnew : g = s.numGroups
    · simp [hnew, hgroup, houtBufQ, group.nodup_outBufs]
    · rw [e.group_of_ne hnew] at hg ⊢
      exact hbufs.queue g hg
  · obtain ⟨hx, hsame, hto⟩ := hold x hx
    rw [hsame] at hset hxo
    rw [hto]
    exact hbufs.taken x o hx hset hxo
  · obtain ⟨hx, hsamex, -⟩ := hold x hx
    obtain ⟨hy, hsamey, -⟩ := hold y hy
    rw [hsamex] at hxy hsx hxo
    rw [hsamey] at hxy hsy hyp
    exact hbufs.distinct x y o p hx hy hxy hsx hsy hxo hyp hdst
  · by_cases hnew : g = s.numGroups
    · simp_all
    · rw [e.group_of_ne hnew] at hg hb ⊢
      refine (hbufs.all g hg b hb).imp_right ?_
      rintro ⟨x, hx, hxbusy, hset, o, hxo, hdst⟩
      have hsame := (e.old hcore hg hx).1
      refine ⟨x, hx, (e.busy hcore x).mpr hxbusy, ?_, o, ?_, hdst⟩
      · rw [hsame]
        exact hset
      · rw [hsame]
        exact hxo

end Created

/-! ## The invariant is kept -/

theorem calls_of_intfFree (h : s.IntfFree) : s.Calls := by
  unfold IntfFree at h
  refine ⟨fun chain waiting g hlock => ?_, fun client i hlock => ?_⟩
  · rw [hlock] at h
    cases h
  · obtain hlock | ⟨_, _, hlock⟩ := hlock <;>
    · rw [hlock] at h
      cases h

theorem intfFree_of_idle (h : s.jobLock = .idle) : s.IntfFree := by
  unfold IntfFree
  rw [h]
  trivial

theorem Calls.of_eq {s' : Jpeg} (h : s.Calls) (hlock : s'.jobLock = s.jobLock)
    (hgroup : ∀ g, ((s'.group g).live → (s.group g).live) ∧
      (s'.group g).sessions = (s.group g).sessions)
    (hsession : ∀ x, (s'.session x).group = (s.session x).group)
    (his : ∀ x, s'.IsSession x → s.IsSession x) : s'.Calls := by
  refine ⟨fun chain waiting g hl => ?_, fun client i hl x hx => ?_⟩
  · rw [hlock] at hl
    obtain ⟨hdead, hto⟩ := h.destroying chain waiting g hl
    grind
  · rw [hlock] at hl
    exact h.closing client i hl x (his x hx)

theorem Same.calls {s' : Jpeg} (e : Same s s') (h : s.Calls) (hlock : s'.jobLock = s.jobLock) :
    s'.Calls :=
  h.of_eq hlock (fun g => by rw [e.groups.1]; exact ⟨id, rfl⟩) (fun x => (e.session x).2.2.2)
    fun x hx => (e.isSession x).mp hx

namespace Inv

theorem finish (h : s.Inv) {x : SessionIdx} (hbusy : s.Busy x) (done : Bool) :
    (s.finish x done).Inv ∧ (s.finish x done).jobLock = s.jobLock := by
  obtain ⟨j, -, hjob⟩ := h.core.busy x hbusy
  have e := ended_finish hjob done
  have hlock : (s.finish x done).jobLock = s.jobLock := by
    rw [finish_eq hjob]
    rfl
  refine ⟨⟨e.core h.core hbusy hjob, e.bufs h.core h.bufs hbusy hjob rfl, ?_⟩, hlock⟩
  simp [h.calls.of_eq, hlock, e.session, e.isSession, e.live]

theorem setLock (h : s.Inv) {lock : JobLock}
    (hfree : ({ s with jobLock := lock } : Jpeg).IntfFree) :
    ({ s with jobLock := lock } : Jpeg).Inv :=
  ⟨(same_jobLock s lock).core h.core, (same_jobLock s lock).bufs h.bufs, calls_of_intfFree hfree⟩

theorem setSession (h : s.Inv) (x : SessionIdx) (session : Session)
    (hsession : session.active = (s.session x).active ∧ session.job = (s.session x).job ∧
      session.autoOutBuf = (s.session x).autoOutBuf ∧ session.group = (s.session x).group) :
    (s.setSession x session).Inv := by
  have e := same_setSession s x session s.jobLock hsession
  exact ⟨e.core h.core, e.bufs h.bufs, e.calls h.calls rfl⟩

theorem fbd (h : s.Inv) {x : SessionIdx} (hok : s.Regular (.fbd x)) : (s.fbd x).Inv := by
  unfold Jpeg.fbd
  split
  · exact h
  · rename_i hstate
    exact (h.finish (hok (not_not.mp hstate)) true).1

theorem event (h : s.Inv) {x : SessionIdx} {isError : Bool} (hok : s.Regular (.event x isError)) :
    (s.event x isError).Inv := by
  unfold Jpeg.event
  dsimp only
  split
  · exact h.setSession x _ ⟨rfl, rfl, rfl, rfl⟩
  · rename_i hstate
    split
    · rename_i herror
      exact (h.finish (hok hstate herror.1 herror.2) false).1
    · exact h

theorem configure (h : s.Inv) {ok : Bool} (hok : s.Regular (.configure ok)) :
    (s.configure ok).Inv := by
  unfold Jpeg.configure
  split
  · rename_i x hlock
    split
    · have hnext := h.setSession x { s.session x with encoding := true } ⟨rfl, rfl, rfl, rfl⟩
      exact hnext.setLock trivial
    · rename_i hfail
      simp only [Regular, hlock] at hok
      have hbusy := hok (by simpa using hfail)
      exact (h.finish hbusy false).1.setLock trivial
  · exact h

theorem fill (h : s.Inv) {ok : Bool} (hok : s.Regular (.fill ok)) : (s.fill ok).Inv := by
  unfold Jpeg.fill
  split
  · rename_i x hlock
    split
    · exact h.setLock trivial
    · rename_i hfail
      simp only [Regular, hlock] at hok
      have hbusy := hok (by simpa using hfail)
      exact (h.finish hbusy false).1.setLock trivial
  · exact h

theorem processJob (h : s.Inv) (hok : s.Regular .processJob) : s.processJob.Inv := by
  unfold Jpeg.processJob
  split
  · exact h
  · rename_i hroom
    split
    · exact h
    · rename_i j jobQueue hqueue
      dsimp only
      split
      · exact h
      · rename_i x handleQ hhandleQ
        have hhandleQ' : (s.groupOf j.jobId.session).sessionHandleQ ≠ [] := by
          simp [Jpeg.groupOf, hhandleQ]
        obtain ⟨hbuf, hids⟩ := hok j (by rw [hqueue]; rfl) hhandleQ' (Nat.lt_of_not_le hroom)
        have hstart : ∀ (j' : Job) (buf : Option Nat) (outBufQ : List Nat),
            j'.serial = j.serial → j'.jobId = j.jobId → (∀ b ∈ buf, j'.dstIndex + 1 = b) →
            (s.group (s.session j.jobId.session).group).outBufQ = buf.toList ++ outBufQ →
            ((({ s with jobQueue } : Jpeg).setGroup (s.session j.jobId.session).group
              { s.group (s.session j.jobId.session).group with
                sessionHandleQ := handleQ, outBufQ := outBufQ }).encode x j' buf.isSome).Inv := by
          intro j' buf outBufQ hserial hjobId hdst houtBufQ
          have e : Started s ((({ s with jobQueue } : Jpeg).setGroup
              (s.session j.jobId.session).group
              { s.group (s.session j.jobId.session).group with
                sessionHandleQ := handleQ, outBufQ := outBufQ }).encode x j' buf.isSome) x j'
              (s.session j.jobId.session).group buf := by
            refine ⟨fun y => ?_, ⟨?_, ?_⟩, ⟨handleQ, outBufQ, hhandleQ, houtBufQ, rfl⟩,
              ⟨rfl, rfl⟩, ⟨j, hqueue, hserial.symm, hjobId.symm, rfl⟩, rfl, ⟨rfl, rfl, rfl⟩, hdst⟩
            · by_cases hy : y = x
              · subst hy
                simp [encode, Jpeg.setSession, setGroup]
              · simp [encode, Jpeg.setSession, setGroup, Function.update_of_ne hy]
            · simp [encode, Jpeg.setSession]
            · simp [encode, Jpeg.setSession]
          exact ⟨e.core h.core (fun o ho => hjobId ▸ hids o ho), e.bufs h.core h.bufs,
            calls_of_intfFree trivial⟩
        split
        · rename_i hauto
          split
          · rename_i hnone
            exact absurd hnone (hbuf hauto)
          · rename_i b outBufQ houtBufQ
            exact hstart { j with dstIndex := (b : Int) - 1 } (some b) outBufQ rfl rfl
              (fun c hc => by obtain rfl := Option.some.inj hc; simp) houtBufQ
        · exact hstart j none _ rfl rfl (fun c hc => by cases hc) rfl

theorem newClient (h : s.Inv) (hfree : s.IntfFree) : s.newClient.Inv := by
  unfold Jpeg.newClient
  split
  · exact h
  · rename_i c hc
    have hunused : s.isUsed c = false := by simpa using List.find?_some hc
    have hother : ∀ g, (s.group g).live → ∀ x ∈ (s.group g).sessions, x.1 ≠ c := by
      rintro g hg x hx rfl
      have hused := (h.core.sessions g hg x hx).2.2.1
      simp_all
    have e : Outside s { s with
        isUsed := Function.update s.isUsed c true
        session := fun h => if h.1 = c then .zero else s.session h } := by
      refine ⟨fun g => Iff.rfl, fun g _ => rfl, fun g hg x hx => ?_, fun x j hx => ?_, rfl,
        ⟨rfl, rfl⟩, ⟨rfl, rfl, rfl⟩⟩
      · exact ⟨if_neg (hother g hg x hx), Function.update_of_ne (hother g hg x hx) _ _⟩
      · dsimp only at hx
        split at hx
        · cases hx
        · exact hx
    exact ⟨e.core h.core, e.bufs h.bufs, calls_of_intfFree hfree⟩

theorem createSession (h : s.Inv) (hfree : s.IntfFree) {client : Nat} (hused : s.isUsed client)
    (burst : Bool) (numSrcBufs numDstBufs : Nat) :
    (s.createSession client burst numSrcBufs numDstBufs).Inv := by
  by_cases hbufs : maxBuf < numSrcBufs ∨ maxBuf < numDstBufs
  · simp only [Jpeg.createSession, if_pos hbufs]
    exact h
  · have e := created_createSession burst hused hbufs
    refine ⟨e.core h.core, e.bufs h.core h.bufs, calls_of_intfFree ?_⟩
    simp only [Jpeg.createSession, if_neg hbufs]
    exact hfree

theorem startJob (h : s.Inv) (hfree : s.IntfFree) {session : SessionIdx}
    (hsession : (s.session session).active → s.IsSession session) (srcIndex dstIndex : Int) :
    (s.startJob session srcIndex dstIndex).Inv := by
  unfold Jpeg.startJob
  split
  · exact h
  · split
    · exact h
    · rename_i hactive
      split
      · exact h
      · have hnext := h.setSession session { s.session session with
          jobHist := (s.session session).jobHist + 1 } ⟨rfl, rfl, rfl, rfl⟩
        have e := same_setSession s session { s.session session with
          jobHist := (s.session session).jobHist + 1 } s.jobLock ⟨rfl, rfl, rfl, rfl⟩
        have his := (e.isSession session).mpr (hsession (not_not.mp hactive))
        refine ⟨core_append hnext.core his _ dstIndex, ?_, calls_of_intfFree hfree⟩
        exact ⟨hnext.bufs.queue, hnext.bufs.taken, hnext.bufs.distinct, hnext.bufs.all⟩

theorem abortJob (h : s.Inv) {jobId : JobId} (hok : s.Regular (.abortJob jobId))
    (hidle : s.jobLock = .idle) : (s.abortJob jobId).Inv := by
  unfold Jpeg.abortJob
  split
  · rename_i j hfind
    refine ⟨core_abort h.core hfind, ?_, calls_of_intfFree (intfFree_of_idle hidle)⟩
    exact ⟨h.bufs.queue, h.bufs.taken, h.bufs.distinct, h.bufs.all⟩
  · rename_i hpending
    split
    · rename_i j hfind
      have hid : j.jobId = jobId := by simpa using List.find?_some hfind
      obtain ⟨p, hp, hpid⟩ | hnone := hok
      · simp_all
      · exact absurd hid (hnone j (List.mem_of_find?_eq_some hfind))
    · exact h

theorem destroySession (h : s.Inv) {session : SessionIdx} (hsession : s.IsSession session) :
    (s.destroySession session).Inv := by
  have e := retired_removeJobs s session (.destroySession session)
  have hcore := e.core h.core fun j hj => hj
  have hbufs := e.bufs h.core h.bufs
  have hto : (((s.removeJobs session (.destroySession session)).retire session).session
      session).group = (s.session session).group := by rw [e.session]
  unfold Jpeg.destroySession
  refine ⟨(same_jobLock _ _).core hcore, (same_jobLock _ _).bufs hbufs, ?_, ?_⟩
  · intro chain waiting g hlock
    have hg : g = (s.session session).group := by
      simp_all
    subst hg
    refine ⟨fun hlive => ((e.live _).mp hlive).2 ⟨rfl, hsession.2⟩, fun x hx => ?_⟩
    rw [(e.groups _).1] at hx
    rw [e.session]
    exact (h.core.sessions _ hsession.1 x hx).1
  · rintro client i (hlock | ⟨_, _, hlock⟩) <;> simp at hlock

theorem closeClient (h : s.Inv) (client : Nat) :
    ({ s with jobLock := .closing client 0 } : Jpeg).Inv := by
  refine ⟨(same_jobLock _ _).core h.core, (same_jobLock _ _).bufs h.bufs, ?_, ?_⟩
  · simp
  simp

theorem nextSession (h : s.Inv) {chain : List SessionIdx} {waiting : Bool} {call : Call}
    (hlock : s.jobLock = .aborting chain waiting call) (chain' : List SessionIdx)
    (waiting' : Bool) (x : SessionIdx) (session : Session)
    (hsession : session.active = (s.session x).active ∧ session.job = (s.session x).job ∧
      session.autoOutBuf = (s.session x).autoOutBuf ∧ session.group = (s.session x).group) :
    ({ s.setSession x session with jobLock := .aborting chain' waiting' call } : Jpeg).Inv := by
  have e := same_setSession s x session (.aborting chain' waiting' call) hsession
  refine ⟨e.core h.core, e.bufs h.bufs, fun c w g hl => ?_, fun c i hl y hy => ?_⟩
  · cases hl
    obtain ⟨hdead, hto⟩ := h.calls.destroying chain waiting g hlock
    refine ⟨hdead, fun y hy => ?_⟩
    rw [(e.session y).2.2.2]
    exact hto y hy
  · obtain hl | ⟨_, _, hl⟩ := hl <;> cases hl
    exact h.calls.closing c i (.inr ⟨chain, waiting, hlock⟩) y ((e.isSession y).mp hy)

theorem resume (h : s.Inv) {chain : List SessionIdx} {waiting : Bool} {call : Call}
    (hlock : s.jobLock = .aborting chain waiting call) : (s.resume call).Inv := by
  cases call with
  | abortJob => exact h.setLock trivial
  | destroySession g =>
    obtain ⟨hdead, hto⟩ := h.calls.destroying chain waiting g hlock
    have hother : ∀ i, (s.group i).live → ∀ x ∈ (s.group i).sessions, x ∉ (s.group g).sessions := by
      intro i hi x hx hin
      have heq := (h.core.sessions i hi x hx).1.symm.trans (hto x hin)
      exact hdead (heq ▸ hi)
    have hne : ∀ i, (s.group i).live → i ≠ g := fun i hi heq => hdead (heq ▸ hi)
    have e : Outside s (s.resume (.destroySession g)) := by
      refine ⟨fun i => ?_, fun i hi => ?_, fun i hi x hx => ⟨?_, rfl⟩, fun x j hx => ?_, rfl,
        ⟨rfl, rfl⟩, ⟨rfl, rfl, rfl⟩⟩
      · by_cases hi : i = g
        · subst hi
          simp [Jpeg.resume, setGroup]
        · simp [Jpeg.resume, setGroup, Function.update_of_ne hi]
      · simp [Jpeg.resume, setGroup, Function.update_of_ne (hne i hi)]
      · simp only [Jpeg.resume, if_neg (hother i hi x hx)]
        rfl
      · simp only [Jpeg.resume] at hx
        split at hx
        · exact hx
        · exact hx
    exact ⟨e.core h.core, e.bufs h.bufs, calls_of_intfFree trivial⟩
  | close client next =>
    refine ⟨(same_jobLock _ _).core h.core, (same_jobLock _ _).bufs h.bufs, fun c w g hl => ?_,
      fun c i hl => ?_⟩
    · cases hl
    · obtain hl | ⟨_, _, hl⟩ := hl <;> cases hl
      exact h.calls.closing client next (.inr ⟨chain, waiting, hlock⟩)

theorem sessionAbort (h : s.Inv) (sent : Bool) : (s.sessionAbort sent).Inv := by
  unfold Jpeg.sessionAbort
  have hself : ∀ x, s.setSession x (s.session x) = s := by
    intro x
    simp [Jpeg.setSession]
  split
  · rename_i waiting call hlock
    exact h.resume hlock
  · rename_i x chain call hlock
    split
    · exact h
    · exact h.nextSession hlock _ _ x _ ⟨rfl, rfl, rfl, rfl⟩
  · rename_i x chain call hlock
    split
    · have hnext := h.nextSession hlock [] false x (s.session x)
        ⟨rfl, rfl, rfl, rfl⟩
      rwa [hself] at hnext
    · split
      · exact h.nextSession hlock _ _ x _ ⟨rfl, rfl, rfl, rfl⟩
      · split
        · exact h.nextSession hlock _ _ x _ ⟨rfl, rfl, rfl, rfl⟩
        · exact h.nextSession hlock _ _ x _ ⟨rfl, rfl, rfl, rfl⟩
  · exact h

theorem close (h : s.Inv) : s.close.Inv := by
  unfold Jpeg.close
  split
  · rename_i client i hlock
    have hclosing := h.calls.closing client i (.inl hlock)
    split
    · split
      · have e := retired_removeJobs s (client, i) (.close client)
        have hcore := e.core h.core fun j hj => congrArg Prod.fst hj
        refine ⟨(same_jobLock _ _).core hcore, (same_jobLock _ _).bufs (e.bufs h.core h.bufs),
          fun c w g hl => ?_, fun c k hl x hx hc => ?_⟩
        · cases hl
        · obtain hl | ⟨_, _, hl⟩ := hl <;> cases hl
          obtain ⟨hx, hne⟩ := (e.isSession x).mp hx
          grind
      · rename_i hactive
        refine ⟨(same_jobLock _ _).core h.core, (same_jobLock _ _).bufs h.bufs,
          fun c w g hl => ?_, fun c k hl x hx hc => ?_⟩
        · cases hl
        · obtain hl | ⟨_, _, hl⟩ := hl <;> cases hl
          have hle := hclosing x hx hc
          have hxactive := (h.core.sessions _ hx.1 x (List.mem_of_mem_head? hx.2)).2.1
          grind
    · have hother : ∀ g, (s.group g).live → ∀ x ∈ (s.group g).sessions, x.1 ≠ client := by
        intro g hg x hx hc
        obtain ⟨-, -, -, -, hclient⟩ := h.core.sessions g hg x hx
        -- the first session of the group has been come to already
        cases hhead : (s.group g).sessions.head? with
        | none =>
          simp_all
        | some b =>
          have hb := List.mem_of_mem_head? hhead
          obtain ⟨hbg, -, -, hlt, -⟩ := h.core.sessions g hg b hb
          grind [IsSession, Jpeg.groupOf]
      have e : Outside s { s with
          isUsed := Function.update s.isUsed client false
          session := fun h => if h.1 = client then .zero else s.session h
          jobLock := .idle } := by
        refine ⟨fun g => Iff.rfl, fun g _ => rfl, fun g hg x hx => ?_, fun x j hx => ?_, rfl,
          ⟨rfl, rfl⟩, ⟨rfl, rfl, rfl⟩⟩
        · exact ⟨if_neg (hother g hg x hx), Function.update_of_ne (hother g hg x hx) _ _⟩
        · dsimp only at hx
          split at hx
          · cases hx
          · exact hx
      exact ⟨e.core h.core, e.bufs h.bufs, calls_of_intfFree trivial⟩
  · exact h

end Inv

theorem inv_invariant : (system.restrict Regular).Invariant Inv := by
  refine .of_restrict ?_ ?_
  · intro s h0
    obtain ⟨hpending, hongoing⟩ := h0.queues
    obtain ⟨haccepted, hreported, hremoved⟩ := h0.history
    have hdead : ∀ g, ¬ (s.group g).live := by
      intro g
      rw [h0.group]
      exact Bool.false_ne_true
    have hidle : ∀ x, ¬ s.Busy x := fun x hx => hdead _ hx.1
    refine ⟨⟨?_, fun r hr => ?_, fun g hg => absurd hg (hdead g), fun g hg => absurd hg (hdead g),
      fun g hg => absurd hg (hdead g), fun p hp => ?_, ?_, fun o ho => ?_,
      fun x hx => absurd hx (hidle x), fun x y o hx => absurd hx (hidle x), fun x o hxo => ?_⟩,
      ⟨fun g hg => absurd hg (hdead g), fun x o hx => absurd hx (hidle x),
      fun x y o p hx => absurd hx (hidle x), fun g hg => absurd hg (hdead g)⟩,
      calls_of_intfFree (intfFree_of_idle h0.jobLock)⟩
    · simp_all
    · rw [hremoved] at hr
      cases hr
    · rw [hpending] at hp
      cases hp
    · simp_all
    · rw [hongoing] at ho
      cases ho
    · rw [h0.session] at hxo
      cases hxo
  · rintro s op s' h hok ⟨hen, rfl⟩
    cases op with
    | newClient => exact h.newClient hen
    | createSession client burst numSrcBufs numDstBufs =>
      exact h.createSession hen.1 hen.2.1 burst numSrcBufs numDstBufs
    | startJob session srcIndex dstIndex => exact h.startJob hen.1 hen.2 srcIndex dstIndex
    | abortJob jobId => exact h.abortJob hok hen
    | destroySession session => exact h.destroySession hen.2
    | closeClient client => exact h.closeClient client
    | sessionAbort sent => exact h.sessionAbort sent
    | close => exact h.close
    | processJob => exact h.processJob hok
    | configure ok => exact h.configure hok
    | fill ok => exact h.fill hok
    | fbd x => exact h.fbd hok
    | event x isError => exact h.event hok

/-- Jobs, sessions and output buffers are conserved in every run in which no ongoing job is aborted,
jobs find output buffers, and the encoder reports only ongoing jobs. -/
theorem conserved_of_reachable (hs : (system.restrict Regular).Reachable s) : s.Conserved := by
  obtain ⟨hcore, hbufs, -⟩ := inv_invariant.reachable hs
  have hbusy : ∀ {j h}, s.Has j h → s.Busy h := fun {j h} hj => (hcore.known h j hj.2).2.2 hj.1
  have hgroupOf : ∀ {g h}, (s.group g).live → h ∈ (s.group g).sessions →
      s.groupOf h = s.group g := fun {g h} hg hh => congrArg s.group (hcore.sessions g hg h hh).1
  have hhandles : ∀ g, (s.group g).live →
      Shared (s.group g).sessions (s.group g).sessionHandleQ s.Has := by
    intro g hg
    obtain ⟨honce, hown⟩ := hcore.handleQ g hg
    refine ⟨honce, hown, fun h hh => ?_⟩
    have hto := hgroupOf hg hh
    by_cases hfree : h ∈ (s.group g).sessionHandleQ
    · exact .inl ⟨hfree, fun j hj => (hbusy hj).2.2 (hto ▸ hfree)⟩
    · right
      obtain ⟨j, hj, hjob⟩ := hcore.busy h ⟨hto ▸ hg, hto ▸ hh, hto ▸ hfree⟩
      refine ⟨hfree, j, ⟨hj, hjob⟩, fun j' hj' => ?_⟩
      exact Option.some.inj (hj'.2.symm.trans hjob)
  have houtBufs : ∀ g, (s.group g).live →
      Shared (s.group g).outBufs (s.group g).outBufQ fun j b => s.HasBuf j g b := by
    intro g hg
    obtain ⟨honce, hown⟩ := hbufs.queue g hg
    refine ⟨honce, hown, fun b hb => ?_⟩
    by_cases hfree : b ∈ (s.group g).outBufQ
    · refine .inl ⟨hfree, ?_⟩
      rintro j ⟨h, hh, hj, hset, hdst⟩
      obtain ⟨c, -, hout, hdst'⟩ := hbufs.taken h j (hbusy hj) hset hj.2
      have hbc : b = c := by omega
      rw [hgroupOf hg hh, ← hbc] at hout
      exact hout hfree
    · right
      obtain ⟨h, hh, hhbusy, hset, j, hjob, hdst⟩ := (hbufs.all g hg b hb).resolve_left hfree
      obtain ⟨j', hj', hjob'⟩ := hcore.busy h hhbusy
      obtain rfl := Option.some.inj (hjob.symm.trans hjob')
      refine ⟨hfree, j, ⟨h, hh, ⟨hj', hjob⟩, hset, hdst.symm⟩, ?_⟩
      rintro o ⟨x, hx, ho, hxset, hxdst⟩
      have hgroup : (s.session x).group = (s.session h).group :=
        (hcore.sessions g hg x hx).1.trans (hcore.sessions g hg h hh).1.symm
      have hxh := hbufs.distinct x h o j (hbusy ho) hhbusy hgroup hxset hset ho.2 hjob (by omega)
      rw [hxh] at ho
      exact Option.some.inj (ho.2.symm.trans hjob)
  refine ⟨hcore.outcomes, hcore.named, hhandles, houtBufs, fun j hj => ?_, fun g hg hnone => ?_⟩
  · obtain ⟨-, h, hh, hjob, -⟩ := hcore.holder j hj
    exact ⟨h, ⟨hj, hjob⟩, fun x hx => hcore.unique x h j (hbusy hx) hh hx.2 hjob⟩
  · refine ⟨(hhandles g hg).perm (hcore.groups g hg).2 hnone,
      (houtBufs g hg).perm (s.group g).nodup_outBufs ?_⟩
    rintro b - j ⟨h, hh, hj, -, -⟩
    exact hnone h hh j hj

def opened (concurrent : Nat) : Jpeg where
  concurrent := concurrent
  isUsed := fun _ => false
  session := fun _ => .zero
  group := fun _ => .null
  numGroups := 1
  jobQueue := []
  ongoingJobQ := []
  jobLock := .idle
  accepted := 0
  reported := []
  removed := []

theorem initial_opened (concurrent : Nat) : (opened concurrent).Initial :=
  ⟨fun _ => rfl, fun _ => rfl, fun _ => rfl, rfl, ⟨rfl, rfl⟩, rfl, ⟨rfl, rfl, rfl⟩⟩

/-- Two jobs run at a time, one ends well and one with an error, and a third one is aborted while it
is pending. Then the sessions and the output buffers are free again. -/
theorem conserved_of_reachable_threeJobs : ∃ s : Jpeg, (system.restrict Regular).Reachable s ∧
    s.Conserved ∧ s.reported = [(1, false), (0, true)] ∧ s.removed.map (·.1.serial) = [2] ∧
      (s.group 1).sessionHandleQ = [(0, 0), (0, 1)] ∧ (s.group 1).outBufQ = [1, 2] := by
  have hrun : (System.follow (fun s op => Regular s op ∧ Enabled s op) exec
      [.newClient, .createSession 0 true 1 2, .startJob (0, 0) 0 (-1), .startJob (0, 0) 0 (-1),
        .startJob (0, 0) 0 (-1), .processJob, .configure true, .fill true, .processJob,
        .configure true, .fill true, .fbd (0, 0), .event (0, 1) true,
        .abortJob ⟨(0, 0), 258⟩]
      (opened 2)).any (fun s => s.reported = [(1, false), (0, true)] ∧
        s.removed.map (·.1.serial) = [2] ∧ (s.group 1).sessionHandleQ = [(0, 0), (0, 1)] ∧
          (s.group 1).outBufQ = [1, 2]) = true := by
    decide +kernel
  obtain ⟨s, hs, hend⟩ := (Option.any_eq_true _ _).mp hrun
  have hreach := System.reachable_follow _ (.init (initial_opened 2)) hs
  exact ⟨s, hreach, conserved_of_reachable hreach, of_decide_eq_true hend⟩

/-- The only ongoing job is aborted, and its session is in no queue and with no job. -/
theorem not_conserved : ¬ ∀ s : Jpeg, system.Reachable s → s.Conserved := by
  intro hconserved
  have hrun : (System.follow (fun s op => True ∧ Enabled s op) exec
      [.newClient, .createSession 0 false 1 1, .startJob (0, 0) 0 0, .processJob, .configure true,
        .fill true, .abortJob ⟨(0, 0), 256⟩, .sessionAbort true, .event (0, 0) false,
        .sessionAbort true, .sessionAbort true]
      (opened 1)).any (fun s => (s.group 1).live ∧ (s.group 1).sessions = [(0, 0)] ∧
        (s.group 1).sessionHandleQ = [] ∧ s.ongoingJobQ = [] ∧ s.jobLock = .idle) = true := by
    decide +kernel
  obtain ⟨s, hs, hend⟩ := (Option.any_eq_true _ _).mp hrun
  have hinit : (system.restrict fun _ _ => True).Reachable (opened 1) := .init (initial_opened 1)
  have hreach := (System.reachable_follow _ hinit hs).of_restrict
  obtain ⟨hlive, hsessions, hhandleQ, hongoing, -⟩ := of_decide_eq_true hend
  have hitem := ((hconserved s hreach).handles 1 hlive).item (0, 0)
  rw [hsessions, hhandleQ] at hitem
  obtain ⟨hin, -⟩ | ⟨-, j, hj, -⟩ := hitem (List.mem_singleton_self _)
  · cases hin
  · have hmem := hj.1
    rw [hongoing] at hmem
    cases hmem

end Jpeg

end EtherDevice.MmJpeg
