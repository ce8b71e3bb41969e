import EtherDevice.Lib.Transition
import Mathlib.Data.List.Nodup
import Mathlib.Data.List.Perm.Basic
import Mathlib.Data.List.Count
import Mathlib.Logic.Function.Basic

/-!
# Network-initiated requests

The two session records of `loc_eng_ni.cpp` are shared by the message thread (requests, restarts
and the sending of responses), by calls of `loc_eng_ni_respond`, and by one worker for each request.
A section that holds `tLock` is one step. So is each part without it: the request handler, the look
of `loc_eng_ni_respond` at the sessions, the release of a request by a restart, and what a worker
clears after its section. A worker, a message and a request are named by the notification ID.

`held` are the messages in the local variable of a worker. `requests`, `arrived`, `heard`,
`refused`, `resets` and `ignored` record what has happened: the requests accepted, the raw requests
that arrived, the responses given for the request of a session, and the raw requests that were
freed without a response.
-/

namespace EtherDevice.Ni

open Lib

inductive SessionId where
  | sessionEs
  | session
deriving DecidableEq

structure NiSession where
  respTimeLeft : Int
  respRecvd : Bool
  rawRequest : Option Nat
  reqID : Nat
  resp : Int

def responseAccept : Int := 1

def responseNoResp : Int := 3

def responseIgnore : Int := 4

def noResponseTime : Int := 20

structure NiRequest where
  raw : Nat
  id : Nat
  timeLeft : Int
  arrived : Int

structure InformNiResponse where
  mResponse : Int
  mPayload : Nat
  worker : Nat
  taken : Int

inductive Worker where
  | created
  | waiting (expire : Int)
  | clearing
  | sending
deriving DecidableEq

/-- Where a call of `loc_eng_ni_respond` is: it waits for the lock of the session to ignore, or of
the session it has found. -/
inductive Respond where
  | ignoring (id : Nat) (resp : Int)
  | setting (k : SessionId) (id : Nat) (resp : Int)

def Respond.Holds (k : SessionId) : Respond → Prop
  | .ignoring _ _ => True
  | .setting k' _ _ => k' = k

/-- Where the message thread is: `loc_eng_ni_reset_on_engine_restart` comes to a session, or waits
for its lock. -/
inductive Main where
  | idle
  | resetting (k : SessionId)
  | waking (k : SessionId)
deriving DecidableEq

structure NiState where
  sessions : SessionId → NiSession
  reqIDCounter : Nat
  main : Main
  calls : List (Nat × Respond)
  workers : Nat → Option (SessionId × Worker)
  held : List InformNiResponse
  queue : List InformNiResponse
  informed : List InformNiResponse
  clock : Int
  requests : List NiRequest
  arrived : List Nat
  heard : List (Nat × Int)
  refused : List Nat
  resets : List Nat
  ignored : List Nat

namespace NiState

variable (s : NiState)

def setSession (k : SessionId) (session : NiSession) : NiState :=
  { s with sessions := Function.update s.sessions k session }

def setWorker (i : Nat) (worker : Option (SessionId × Worker)) : NiState :=
  { s with workers := Function.update s.workers i worker }

def sessionOf (emergency : Bool) : SessionId := if emergency then .sessionEs else .session

def occupied (emergency : Bool) : Bool :=
  if emergency then (s.sessions .sessionEs).rawRequest.isSome
  else (s.sessions .session).rawRequest.isSome || (s.sessions .sessionEs).rawRequest.isSome

def requestHandler (emergency : Bool) (passThrough : Nat) (timeout : Int) : NiState :=
  let s := { s with arrived := passThrough :: s.arrived }
  if s.occupied emergency then { s with refused := passThrough :: s.refused }
  else
    let k := sessionOf emergency
    let id := s.reqIDCounter + 1
    let timeLeft := 5 + if timeout ≠ 0 then timeout else noResponseTime
    let s := s.setSession k { s.sessions k with
      rawRequest := some passThrough
      reqID := id
      respTimeLeft := timeLeft }
    let s := s.setWorker id (some (k, .created))
    { s with
      reqIDCounter := id
      requests := ⟨passThrough, id, timeLeft, s.clock⟩ :: s.requests }

/-- The session after `k` in `loc_eng_ni_reset_on_engine_restart`. -/
def next : SessionId → Main
  | .sessionEs => .resetting .session
  | .session => .idle

def reset : NiState :=
  match s.main with
  | .idle => s
  | .resetting k =>
    match (s.sessions k).rawRequest with
    | none => { s with main := next k }
    | some raw =>
      let s := s.setSession k { s.sessions k with rawRequest := none }
      { s with main := .waking k, resets := raw :: s.resets }
  | .waking k =>
    let s := s.setSession k { s.sessions k with respRecvd := true }
    { s with main := next k }

def respond (call : Nat) (id : Nat) (resp : Int) : NiState :=
  let es := s.sessions .sessionEs
  let normal := s.sessions .session
  if id = es.reqID ∧ es.rawRequest.isSome then
    let found := if resp = responseAccept ∧ normal.rawRequest.isSome then Respond.ignoring id resp
      else .setting .sessionEs id resp
    { s with calls := (call, found) :: s.calls, heard := (id, resp) :: s.heard }
  else if id = normal.reqID ∧ normal.rawRequest.isSome then
    { s with
      calls := (call, .setting .session id resp) :: s.calls
      heard := (id, resp) :: s.heard }
  else s

def lock (call : Nat) : NiState :=
  let rest := s.calls.filter fun c => c.1 ≠ call
  match s.calls.find? fun c => c.1 = call with
  | none => s
  | some (_, .ignoring id resp) =>
    let s := s.setSession .session { s.sessions .session with
      resp := responseIgnore
      respRecvd := true }
    { s with calls := (call, .setting .sessionEs id resp) :: rest }
  | some (_, .setting k _ resp) =>
    let s := s.setSession k { s.sessions k with resp := resp, respRecvd := true }
    { s with calls := rest }

def take (i : Nat) (k : SessionId) (resp : Int) : NiState :=
  let session := s.sessions k
  let s := s.setWorker i (some (k, .clearing))
  match session.rawRequest with
  | none => s.setSession k { session with resp := resp, respRecvd := false }
  | some raw =>
    let s := s.setSession k { session with
      resp := resp
      respRecvd := false
      rawRequest := none }
    if resp ≠ responseIgnore then { s with held := ⟨resp, raw, i, s.clock⟩ :: s.held }
    else { s with ignored := raw :: s.ignored }

def start (i : Nat) : NiState :=
  match s.workers i with
  | some (k, .created) =>
    if (s.sessions k).respRecvd then s.take i k (s.sessions k).resp
    else s.setWorker i (some (k, .waiting (s.clock + (s.sessions k).respTimeLeft)))
  | _ => s

/-- `pthread_cond_timedwait` returns without a time-out. -/
def wake (i : Nat) : NiState :=
  match s.workers i with
  | some (k, .waiting _) =>
    if (s.sessions k).respRecvd then s.take i k (s.sessions k).resp else s
  | _ => s

/-- `pthread_cond_timedwait` returns `ETIMEDOUT`. -/
def timeout (i : Nat) : NiState :=
  match s.workers i with
  | some (k, .waiting expire) => if expire ≤ s.clock then s.take i k responseNoResp else s
  | _ => s

def finish (i : Nat) : NiState :=
  match s.workers i with
  | some (k, .clearing) =>
    let s := s.setSession k { s.sessions k with respTimeLeft := 0, reqID := 0 }
    s.setWorker i (some (k, .sending))
  | some (_, .sending) =>
    let s := s.setWorker i none
    { s with
      held := s.held.filter fun m => m.worker ≠ i
      queue := s.queue ++ s.held.filter fun m => m.worker = i }
  | _ => s

def deliver : NiState :=
  match s.queue with
  | [] => s
  | m :: queue => { s with queue, informed := m :: s.informed }

inductive Op where
  | request (emergency : Bool) (passThrough : Nat) (timeout : Int)
  | restart
  | reset
  | respond (call : Nat) (id : Nat) (resp : Int)
  | lock (call : Nat)
  | start (i : Nat)
  | wake (i : Nat)
  | timeout (i : Nat)
  | finish (i : Nat)
  | deliver
  | tick (seconds : Nat)

def exec : Op → NiState
  | .request emergency passThrough timeout => s.requestHandler emergency passThrough timeout
  | .restart => { s with main := .resetting .sessionEs }
  | .reset => s.reset
  | .respond call id resp => s.respond call id resp
  | .lock call => s.lock call
  | .start i => s.start i
  | .wake i => s.wake i
  | .timeout i => s.timeout i
  | .finish i => s.finish i
  | .deliver => s.deliver
  | .tick seconds => { s with clock := s.clock + seconds }

/-- The message thread handles one message after the other, and a request has a raw request of its
own. -/
def Enabled : Op → Prop
  | .request _ passThrough _ => s.main = .idle ∧ passThrough ∉ s.arrived
  | .restart => s.main = .idle
  | .deliver => s.main = .idle
  | _ => True

structure Initial : Prop where
  sessions : ∀ k, (s.sessions k).respRecvd = false ∧ (s.sessions k).rawRequest = none ∧
    (s.sessions k).reqID = 0
  main : s.main = .idle
  calls : s.calls = []
  workers : ∀ i, s.workers i = none
  messages : s.held = [] ∧ s.queue = [] ∧ s.informed = []
  history : s.requests = [] ∧ s.arrived = [] ∧ s.heard = [] ∧ s.refused = [] ∧ s.resets = [] ∧
    s.ignored = []

def system : System NiState Op := .ofFunction Initial Enabled exec

def kept : List Nat :=
  (s.sessions .sessionEs).rawRequest.toList ++ (s.sessions .session).rawRequest.toList ++
    (s.held ++ s.queue).map InformNiResponse.mPayload

def freed : List Nat :=
  s.refused ++ s.resets ++ s.ignored ++ s.informed.map InformNiResponse.mPayload

def Carries (m : InformNiResponse) (q : NiRequest) : Prop :=
  q.raw = m.mPayload ∧ q.id = m.worker ∧ ((q.id, m.mResponse) ∈ s.heard ∨
    m.mResponse = responseNoResp ∧ q.arrived + q.timeLeft ≤ m.taken)

def Busy (k : SessionId) (i : Nat) : Prop := ∃ w, s.workers i = some (k, w) ∧ w ≠ .sending

def Holds (k : SessionId) : Prop := s.main = .waking k ∨ ∃ c ∈ s.calls, c.2.Holds k

/-- Each message that was sent carries the answer to its request, and there is at most one for a
request. A request that was neither reset nor ignored has one, or its worker has not finished. A raw
request is freed once, or is kept in one place. A session that is free for a new request has no
flag left over, and nobody waits for its lock. -/
structure Answers : Prop where
  carries : ∀ m ∈ s.queue ++ s.informed, ∃ q ∈ s.requests, s.Carries m q
  once : ((s.queue ++ s.informed).map InformNiResponse.mPayload).Nodup
  answered : ∀ q ∈ s.requests, q.raw ∉ s.resets → q.raw ∉ s.ignored →
    (∃ m ∈ s.queue ++ s.informed, m.mPayload = q.raw) ∨ s.workers q.id ≠ none
  freedOnce : (s.freed ++ s.kept).Perm s.arrived ∧ s.arrived.Nodup
  fresh : ∀ k, (∀ i, ¬ s.Busy k i) → (s.sessions k).respRecvd = false ∧
    (s.sessions k).rawRequest = none ∧ ¬ s.Holds k

def takes : Op → Option SessionId
  | .start i =>
    match s.workers i with
    | some (k, .created) => if (s.sessions k).respRecvd then some k else none
    | _ => none
  | .wake i =>
    match s.workers i with
    | some (k, .waiting _) => if (s.sessions k).respRecvd then some k else none
    | _ => none
  | .timeout i =>
    match s.workers i with
    | some (k, .waiting expire) => if expire ≤ s.clock then some k else none
    | _ => none
  | _ => none

/-- The last worker of a session has cleared it before a request is accepted there. -/
def Cleared : Op → Prop
  | .request emergency _ _ =>
    s.occupied emergency = true ∨ ∀ i ≤ s.reqIDCounter, ¬ s.Busy (sessionOf emergency) i
  | _ => True

/-- A request is accepted only after the last worker of its session has cleared it, and no worker
ends its section while a response or a restart that has looked at the session waits for its
lock. -/
def Quiet (op : Op) : Prop := s.Cleared op ∧ ∀ k ∈ s.takes op, ¬ s.Holds k

def quietSystem : System NiState Op := system.restrict Quiet

end NiState

end EtherDevice.Ni
