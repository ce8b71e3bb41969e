import EtherDevice.Lib.Transition
import Mathlib.Data.List.Nodup
import Mathlib.Data.List.Perm.Basic
import Mathlib.Logic.Function.Basic

/-!
# Jobs of the JPEG interface

The calls of the clients hold `g_intf_lock` and are made one after the other. The job manager takes
jobs from the pending queue, with `job_lock`, and the encoder calls back from threads of its own.
`mm_jpeg_process_encoding_job` is split where it configures the encoder and where it hands over the
output buffer, and the calls that abort are split at each session, since the encoder may call back
in between.

A session is named by the indices of its client and of itself, and the sessions that one call of
`mm_jpeg_create_session` makes are a group, with the queues they share. Group 0 is the null pointer.
`serial` numbers the accepted jobs. `reported` and `removed` record the callbacks and the jobs that
were removed from a queue.
-/

namespace EtherDevice.MmJpeg

open Lib

def maxClientNum : Nat := 8

def maxSession : Nat := 10

def maxBuf : Nat := 64

def jobHistMax : Nat := 10000

def jobIdMagic : Nat := 0x100

abbrev SessionIdx := Nat × Nat

structure JobId where
  session : SessionIdx
  number : Nat
deriving DecidableEq

structure Job where
  serial : Nat
  jobId : JobId
  dstIndex : Int
deriving DecidableEq

inductive AbortState where
  | abortNone
  | abortInit
  | abortDone
deriving DecidableEq

/-- `mm_jpeg_job_session_t`. The job is `jobId` with `encode_job`. -/
structure Session where
  active : Bool
  encoding : Bool
  abortState : AbortState
  job : Option Job
  autoOutBuf : Bool
  jobHist : Nat
  group : Nat

def Session.zero : Session where
  active := false
  encoding := false
  abortState := .abortNone
  job := none
  autoOutBuf := false
  jobHist := 0
  group := 0

/-- What the sessions of one call of `mm_jpeg_create_session` share. The group is live until a call
destroys or closes it. -/
structure Group where
  sessions : List SessionIdx
  numSrcBufs : Nat
  numDstBufs : Nat
  sessionHandleQ : List SessionIdx
  outBufQ : List Nat
  live : Bool

def Group.null : Group where
  sessions := []
  numSrcBufs := 0
  numDstBufs := 0
  sessionHandleQ := []
  outBufQ := []
  live := false

inductive Removal where
  | abortJob (jobId : JobId)
  | destroySession (session : SessionIdx)
  | close (client : Nat)
deriving DecidableEq

def Removal.Names (j : Job) : Removal → Prop
  | .abortJob jobId => j.jobId = jobId
  | .destroySession session => j.jobId.session = session
  | .close client => j.jobId.session.1 = client

/-- Where a call goes on after `mm_jpeg_session_abort`. -/
inductive Call where
  | abortJob
  | destroySession (group : Nat)
  | close (client next : Nat)
deriving DecidableEq

/-- Who holds `job_lock`: nobody, the job manager with the session that is to encode, a call that
aborts the sessions of a chain, or `mm_jpeg_close` in its loop. -/
inductive JobLock where
  | idle
  | configuring (h : SessionIdx)
  | filling (h : SessionIdx)
  | aborting (chain : List SessionIdx) (waiting : Bool) (call : Call)
  | closing (client next : Nat)
deriving DecidableEq

/-- `mm_jpeg_obj`, with `MM_JPEG_CONCURRENT_SESSIONS_COUNT`. -/
structure Jpeg where
  concurrent : Nat
  isUsed : Nat → Bool
  session : SessionIdx → Session
  group : Nat → Group
  numGroups : Nat
  jobQueue : List Job
  ongoingJobQ : List Job
  jobLock : JobLock
  accepted : Nat
  reported : List (Nat × Bool)
  removed : List (Job × Removal)

namespace Jpeg

variable (s : Jpeg)

def setSession (h : SessionIdx) (session : Session) : Jpeg :=
  { s with session := Function.update s.session h session }

def setGroup (g : Nat) (group : Group) : Jpeg :=
  { s with group := Function.update s.group g group }

def groupOf (h : SessionIdx) : Group := s.group (s.session h).group

def report (h : SessionIdx) (done : Bool) : Jpeg :=
  match (s.session h).job with
  | none => s
  | some j => { s with reported := (j.serial, done) :: s.reported }

def jobDone (h : SessionIdx) : Jpeg :=
  match (s.session h).job with
  | none => s
  | some j =>
    let group := s.groupOf h
    let s := { s with ongoingJobQ := s.ongoingJobQ.eraseP fun o => o.jobId = j.jobId }
    let s := s.setGroup (s.session h).group { group with
      sessionHandleQ := group.sessionHandleQ ++ [h]
      outBufQ := if (s.session h).autoOutBuf then group.outBufQ ++ [(j.dstIndex + 1).toNat]
        else group.outBufQ }
    s.setSession h { s.session h with encoding := false }

def finish (h : SessionIdx) (done : Bool) : Jpeg := (s.report h done).jobDone h

def fbd (h : SessionIdx) : Jpeg :=
  if (s.session h).abortState ≠ .abortNone then s else s.finish h true

def event (h : SessionIdx) (isError : Bool) : Jpeg :=
  let session := s.session h
  if session.abortState = .abortInit then
    s.setSession h { session with abortState := .abortDone }
  else if isError ∧ session.encoding then s.finish h false
  else s

def encode (h : SessionIdx) (j : Job) (autoOutBuf : Bool) : Jpeg :=
  let s := { s with ongoingJobQ := s.ongoingJobQ ++ [j], jobLock := .configuring h }
  s.setSession h { s.session h with
    autoOutBuf
    job := some j
    abortState := .abortNone
    encoding := false }

def processJob : Jpeg :=
  if s.concurrent ≤ s.ongoingJobQ.length then s
  else
    match s.jobQueue with
    | [] => s
    | j :: jobQueue =>
      let g := (s.session j.jobId.session).group
      let group := s.group g
      match group.sessionHandleQ with
      | [] => s
      | h :: sessionHandleQ =>
        let s := { s with jobQueue }
        if j.dstIndex < 0 then
          match group.outBufQ with
          | [] =>
            -- the error path returns with the job and the session in no queue
            let s := s.setGroup g { group with sessionHandleQ }
            s.setSession h { s.session h with autoOutBuf := false }
          | b :: outBufQ =>
            let s := s.setGroup g { group with sessionHandleQ, outBufQ }
            s.encode h { j with dstIndex := (b : Int) - 1 } true
        else (s.setGroup g { group with sessionHandleQ }).encode h j false

def configure (ok : Bool) : Jpeg :=
  match s.jobLock with
  | .configuring h =>
    if ok then
      let s := s.setSession h { s.session h with encoding := true }
      { s with jobLock := .filling h }
    else { s.finish h false with jobLock := .idle }
  | _ => s

def fill (ok : Bool) : Jpeg :=
  match s.jobLock with
  | .filling h => if ok then { s with jobLock := .idle }
    else { s.finish h false with jobLock := .idle }
  | _ => s

def newClient : Jpeg :=
  match (List.range maxClientNum).find? fun c => !s.isUsed c with
  | none => s
  | some c =>
    { s with
      isUsed := Function.update s.isUsed c true
      session := fun h => if h.1 = c then .zero else s.session h }

def newSessions (client num : Nat) : List SessionIdx :=
  (((List.range maxSession).map (Prod.mk client)).filter fun h => !(s.session h).active).take num

def createSession (client : Nat) (burst : Bool) (numSrcBufs numDstBufs : Nat) : Jpeg :=
  if maxBuf < numSrcBufs ∨ maxBuf < numDstBufs then s
  else
    let sessions := s.newSessions client (if burst then s.concurrent else 1)
    let g := s.numGroups
    let s := s.setGroup g {
      sessions, numSrcBufs, numDstBufs
      sessionHandleQ := sessions
      outBufQ := (List.range numDstBufs).map (· + 1)
      live := true }
    { s with
      numGroups := g + 1
      session := fun h =>
        if h ∈ sessions then { s.session h with
          active := true, abortState := .abortNone, autoOutBuf := false, group := g }
        else s.session h }

def startJob (session : SessionIdx) (srcIndex dstIndex : Int) : Jpeg :=
  if maxSession ≤ session.2 ∨ maxClientNum ≤ session.1 then s
  else if ¬ (s.session session).active then s
  else if (s.groupOf session).numSrcBufs ≤ srcIndex ∨
      (s.groupOf session).numDstBufs ≤ dstIndex then s
  else
    let number := (s.session session).jobHist % jobHistMax ||| jobIdMagic
    let s := s.setSession session { s.session session with
      jobHist := (s.session session).jobHist + 1 }
    { s with
      jobQueue := s.jobQueue ++ [⟨s.accepted, ⟨session, number⟩, dstIndex⟩]
      accepted := s.accepted + 1 }

def chain (h : SessionIdx) : List SessionIdx := (s.groupOf h).sessions.dropWhile (· ≠ h)

def abortJob (jobId : JobId) : Jpeg :=
  match s.jobQueue.find? fun j => j.jobId = jobId with
  | some j =>
    { s with
      jobQueue := s.jobQueue.eraseP fun j => j.jobId = jobId
      removed := (j, .abortJob jobId) :: s.removed }
  | none =>
    match s.ongoingJobQ.find? fun j => j.jobId = jobId with
    | some j =>
      { s with
        ongoingJobQ := s.ongoingJobQ.eraseP fun j => j.jobId = jobId
        removed := (j, .abortJob jobId) :: s.removed
        jobLock := .aborting (s.chain jobId.session) false .abortJob }
    | none => s

def removeJobs (session : SessionIdx) (cause : Removal) : Jpeg :=
  { s with
    jobQueue := s.jobQueue.filter fun j => j.jobId.session ≠ session
    ongoingJobQ := s.ongoingJobQ.filter fun j => j.jobId.session ≠ session
    removed := ((s.jobQueue ++ s.ongoingJobQ).filter fun j => j.jobId.session = session).map
      (fun j => (j, cause)) ++ s.removed }

def retire (session : SessionIdx) : Jpeg :=
  let group := s.groupOf session
  if group.sessions.head? = some session then
    s.setGroup (s.session session).group { group with live := false }
  else s

def destroySession (session : SessionIdx) : Jpeg :=
  let s := (s.removeJobs session (.destroySession session)).retire session
  { s with jobLock :=
      .aborting (s.chain session) false (.destroySession (s.session session).group) }

def resume : Call → Jpeg
  | .abortJob => { s with jobLock := .idle }
  | .destroySession g =>
    let sessions := (s.group g).sessions
    let s := s.setGroup g { s.group g with sessionHandleQ := [], outBufQ := [] }
    { s with
      session := fun h => if h ∈ sessions then { s.session h with active := false }
        else s.session h
      jobLock := .idle }
  | .close client next => { s with jobLock := .closing client next }

def sessionAbort (sent : Bool) : Jpeg :=
  match s.jobLock with
  | .aborting [] _ call => s.resume call
  | .aborting (h :: chain) true call =>
    if (s.session h).abortState = .abortInit then s
    else
      let s := s.setSession h { s.session h with abortState := .abortDone }
      { s with jobLock := .aborting chain false call }
  | .aborting (h :: chain) false call =>
    if (s.session h).abortState ≠ .abortNone then { s with jobLock := .aborting [] false call }
    else if ¬ (s.session h).encoding then
      let s := s.setSession h { s.session h with abortState := .abortDone }
      { s with jobLock := .aborting chain false call }
    else
      let s := s.setSession h { s.session h with abortState := .abortInit }
      { s with jobLock := if sent then .aborting (h :: chain) true call
        else .aborting [] false call }
  | _ => s

def close : Jpeg :=
  match s.jobLock with
  | .closing client i =>
    if i < maxSession then
      if (s.session (client, i)).active then
        let s := (s.removeJobs (client, i) (.close client)).retire (client, i)
        { s with jobLock := .aborting (s.chain (client, i)) false (.close client (i + 1)) }
      else { s with jobLock := .closing client (i + 1) }
    else
      { s with
        isUsed := Function.update s.isUsed client false
        session := fun h => if h.1 = client then .zero else s.session h
        jobLock := .idle }
  | _ => s

inductive Op where
  | newClient
  | createSession (client : Nat) (burst : Bool) (numSrcBufs numDstBufs : Nat)
  | startJob (session : SessionIdx) (srcIndex dstIndex : Int)
  | abortJob (jobId : JobId)
  | destroySession (session : SessionIdx)
  | closeClient (client : Nat)
  | sessionAbort (sent : Bool)
  | close
  | processJob
  | configure (ok : Bool)
  | fill (ok : Bool)
  | fbd (h : SessionIdx)
  | event (h : SessionIdx) (isError : Bool)

def exec : Op → Jpeg
  | .newClient => s.newClient
  | .createSession client burst numSrcBufs numDstBufs =>
    s.createSession client burst numSrcBufs numDstBufs
  | .startJob session srcIndex dstIndex => s.startJob session srcIndex dstIndex
  | .abortJob jobId => s.abortJob jobId
  | .destroySession session => s.destroySession session
  | .closeClient client => { s with jobLock := .closing client 0 }
  | .sessionAbort sent => s.sessionAbort sent
  | .close => s.close
  | .processJob => s.processJob
  | .configure ok => s.configure ok
  | .fill ok => s.fill ok
  | .fbd h => s.fbd h
  | .event h isError => s.event h isError

def IntfFree : Prop :=
  match s.jobLock with
  | .aborting _ _ _ | .closing _ _ => False
  | _ => True

def IsSession (session : SessionIdx) : Prop :=
  (s.groupOf session).live ∧ (s.groupOf session).sessions.head? = some session

/-- The calls are made one after the other, by clients that are open and for their sessions.
`mm_jpeg_create_session` finds a free session for each that it needs. -/
def Enabled : Op → Prop
  | .newClient => s.IntfFree
  | .createSession client burst _ _ =>
    s.IntfFree ∧ s.isUsed client ∧ s.newSessions client (if burst then s.concurrent else 1) ≠ [] ∧
      (burst → (s.newSessions client s.concurrent).length = s.concurrent)
  | .startJob session _ _ => s.IntfFree ∧ ((s.session session).active → s.IsSession session)
  | .abortJob _ => s.jobLock = .idle
  | .destroySession session => s.jobLock = .idle ∧ s.IsSession session
  | .closeClient client => s.jobLock = .idle ∧ s.isUsed client
  | .processJob => s.jobLock = .idle
  | _ => True

instance : Decidable s.IntfFree := by
  unfold IntfFree
  split <;> infer_instance

instance (session : SessionIdx) : Decidable (s.IsSession session) := by
  unfold IsSession
  infer_instance

instance (op : Op) : Decidable (s.Enabled op) := by
  cases op <;>
  · unfold Enabled
    infer_instance

structure Initial : Prop where
  isUsed : ∀ c, s.isUsed c = false
  session : ∀ h, s.session h = .zero
  group : ∀ g, s.group g = .null
  numGroups : s.numGroups = 1
  queues : s.jobQueue = [] ∧ s.ongoingJobQ = []
  jobLock : s.jobLock = .idle
  history : s.accepted = 0 ∧ s.reported = [] ∧ s.removed = []

def system : System Jpeg Op := .ofFunction Initial Enabled exec

end Jpeg

end EtherDevice.MmJpeg
