import Mathlib
import EtherDevice.MmJpeg.Jobs

/-!
# Identifiers of jobs, sessions and clients

An identifier is a word: the index of the client in the lowest byte, that of the session in the
next one, and above them the number of the job, in which bit 8 is `JOB_ID_MAGICVAL`.
-/

namespace EtherDevice.MmJpeg

open Lib

/-! ## The words -/

def sessionWord (h : SessionIdx) : Nat := 1 <<< 24 ||| (h.2 <<< 8 ||| h.1)

def JobId.word (i : JobId) : Nat := i.number <<< 16 ||| (i.session.2 <<< 8 ||| i.session.1)

def getClientIdx (x : Nat) : Nat := x &&& 0xff

def getSessionIdx (x : Nat) : Nat := x >>> 8 &&& 0xff

theorem word_magic (h : SessionIdx) : (⟨h, jobIdMagic⟩ : JobId).word = sessionWord h := by
  have hmagic : jobIdMagic <<< 16 = 1 <<< 24 := by decide
  rw [JobId.word, sessionWord, hmagic]

theorem JobId.word_eq (i : JobId) (hclient : i.session.1 < 256) (hsession : i.session.2 < 256) :
    i.word = i.number * 65536 + i.session.2 * 256 + i.session.1 := by
  have hlow : i.session.2 <<< 8 + i.session.1 = i.session.2 <<< 8 ||| i.session.1 :=
    Nat.shiftLeft_add_eq_or_of_lt hclient _
  have hlt : i.session.2 <<< 8 ||| i.session.1 < 2 ^ 16 := by
    rw [← hlow, Nat.shiftLeft_eq]
    omega
  rw [word, ← Nat.shiftLeft_add_eq_or_of_lt hlt, ← hlow, Nat.shiftLeft_eq, Nat.shiftLeft_eq]
  omega

theorem JobId.decode (i : JobId) (hclient : i.session.1 < 256) (hsession : i.session.2 < 256) :
    getClientIdx i.word = i.session.1 ∧ getSessionIdx i.word = i.session.2 := by
  have hmask : ∀ x : Nat, x &&& 0xff = x % 256 := fun x => Nat.and_two_pow_sub_one_eq_mod x 8
  rw [getClientIdx, getSessionIdx, hmask, hmask, i.word_eq hclient hsession,
    Nat.shiftRight_eq_div_pow]
  omega

theorem JobId.word_inj {i i' : JobId} (hi : i.session.1 < 256 ∧ i.session.2 < 256)
    (hi' : i'.session.1 < 256 ∧ i'.session.2 < 256) (h : i.word = i'.word) : i = i' := by
  have hword := i.word_eq hi.1 hi.2
  have hword' := i'.word_eq hi'.1 hi'.2
  obtain ⟨⟨client, session⟩, number⟩ := i
  obtain ⟨⟨client', session'⟩, number'⟩ := i'
  simp only [JobId.mk.injEq, Prod.mk.injEq] at *
  omega

def generateHandler (count : Nat) (index : Nat) : Nat × Nat :=
  let count := if (count + 1) % 65536 = 0 then 1 else (count + 1) % 65536
  (count, count <<< 8 ||| index)

theorem generateHandler_mod (count : Nat) {index : Nat} (hindex : index < 256) :
    (generateHandler count index).2 % 256 = index := by
  simp only [generateHandler]
  rw [← Nat.shiftLeft_add_eq_or_of_lt hindex, Nat.shiftLeft_eq]
  omega

def Jpeg.Accepts (s : Jpeg) (session : SessionIdx) (srcIndex dstIndex : Int) : Prop :=
  session.2 < maxSession ∧ session.1 < maxClientNum ∧ (s.session session).active ∧
    srcIndex < (s.groupOf session).numSrcBufs ∧ dstIndex < (s.groupOf session).numDstBufs

/-! ## The interface -/

/-- The jpeg object with the handles of the clients. -/
structure Interface where
  jpeg : Jpeg
  handlerHistoryCount : Nat
  clientHandle : Nat → Nat

namespace Interface

variable (s : Interface)

def exec (op : Jpeg.Op) : Interface :=
  let s' := { s with jpeg := s.jpeg.exec op }
  match op with
  | .newClient =>
    match (List.range maxClientNum).find? fun c => !s.jpeg.isUsed c with
    | none => s'
    | some c =>
      let made := generateHandler s.handlerHistoryCount c
      { s' with
        handlerHistoryCount := made.1
        clientHandle := Function.update s.clientHandle c made.2 }
  | _ => s'

def system : System Interface Jpeg.Op :=
  .ofFunction (fun s => s.jpeg.Initial) (fun s => s.jpeg.Enabled) exec

def jobs : List Job := s.jpeg.jobQueue ++ s.jpeg.ongoingJobQ

/-- A job is not numbered as one of the same session that is not done. -/
def Cond (s : Interface) : Jpeg.Op → Prop
  | .startJob session srcIndex dstIndex =>
    s.jpeg.Accepts session srcIndex dstIndex → ∀ j ∈ s.jobs, j.jobId.session = session →
      j.jobId.number ≠ (s.jpeg.session session).jobHist % jobHistMax ||| jobIdMagic
  | _ => True

structure Distinct : Prop where
  jobs : (s.jobs.map fun j => j.jobId.word).Nodup
  abort : ∀ j ∈ s.jobs, (s.jpeg.abortJob j.jobId).removed = (j, .abortJob j.jobId) :: s.jpeg.removed
  lookup : ∀ j ∈ s.jobs, getClientIdx j.jobId.word = j.jobId.session.1 ∧
    getSessionIdx j.jobId.word = j.jobId.session.2
  sessions : ∀ h h', (s.jpeg.session h).active → (s.jpeg.session h').active →
    sessionWord h = sessionWord h' → h = h'
  clients : ∀ c c', s.jpeg.isUsed c → s.jpeg.isUsed c' → s.clientHandle c = s.clientHandle c' →
    c = c'

end Interface

/-! ## Steps that make no identifier -/

namespace Jpeg

def jobIds (s : Jpeg) : List JobId := (s.jobQueue ++ s.ongoingJobQ).map Job.jobId

/-- Nothing is used, active or outstanding that was not before. -/
structure Shrinks (s s' : Jpeg) : Prop where
  isUsed : ∀ c, s'.isUsed c → s.isUsed c
  active : ∀ h, (s'.session h).active → (s.session h).active
  jobIds : s'.jobIds.Subperm s.jobIds

variable {s s' s'' : Jpeg}

theorem Shrinks.refl (s : Jpeg) : Shrinks s s := ⟨fun _ h => h, fun _ h => h, .refl _⟩

theorem Shrinks.trans (h : Shrinks s s') (h' : Shrinks s' s'') : Shrinks s s'' :=
  ⟨fun c hc => h.isUsed c (h'.isUsed c hc), fun x hx => h.active x (h'.active x hx),
    h'.jobIds.trans h.jobIds⟩

theorem Shrinks.of_eq (hisUsed : s'.isUsed = s.isUsed) (hsession : s'.session = s.session)
    (hqueue : s'.jobQueue = s.jobQueue) (hongoing : s'.ongoingJobQ = s.ongoingJobQ) :
    Shrinks s s' := by
  refine ⟨fun c hc => ?_, fun x hx => ?_, ?_⟩
  · rwa [hisUsed] at hc
  · rwa [hsession] at hx
  · rw [Jpeg.jobIds, hqueue, hongoing]
    exact .refl _

theorem active_update (s : Jpeg) {h : SessionIdx} {session : Session}
    (hactive : session.active → (s.session h).active) (x : SessionIdx) :
    (Function.update s.session h session x).active → (s.session x).active := by
  intro hx
  by_cases hxh : x = h
  · subst hxh
    exact hactive (by simpa using hx)
  · simpa [hxh] using hx

theorem Shrinks.of_active (hisUsed : s'.isUsed = s.isUsed)
    (hactive : ∀ x, (s'.session x).active → (s.session x).active)
    (hqueue : s'.jobQueue = s.jobQueue) (hongoing : s'.ongoingJobQ = s.ongoingJobQ) :
    Shrinks s s' := by
  refine ⟨fun c hc => ?_, hactive, ?_⟩
  · rwa [hisUsed] at hc
  · rw [Jpeg.jobIds, hqueue, hongoing]
    exact .refl _

theorem shrinks_setSession (s : Jpeg) {h : SessionIdx} {session : Session}
    (hactive : session.active → (s.session h).active) : Shrinks s (s.setSession h session) :=
  .of_active rfl (active_update s hactive) rfl rfl

theorem shrinks_setGroup (s : Jpeg) (g : Nat) (group : Group) : Shrinks s (s.setGroup g group) :=
  .of_eq rfl rfl rfl rfl

theorem Shrinks.of_sublist (hisUsed : s'.isUsed = s.isUsed) (hsession : s'.session = s.session)
    (hqueue : s'.jobQueue.Sublist s.jobQueue) (hongoing : s'.ongoingJobQ.Sublist s.ongoingJobQ) :
    Shrinks s s' := by
  refine ⟨fun c hc => ?_, fun x hx => ?_, ((hqueue.append hongoing).map _).subperm⟩
  · rwa [hisUsed] at hc
  · rwa [hsession] at hx

theorem shrinks_report (s : Jpeg) (h : SessionIdx) (done : Bool) : Shrinks s (s.report h done) := by
  rw [report]
  split
  · exact .refl s
  · exact .of_eq rfl rfl rfl rfl

theorem shrinks_jobDone (s : Jpeg) (h : SessionIdx) : Shrinks s (s.jobDone h) := by
  rw [jobDone]
  split
  · exact .refl s
  · rename_i j _
    have herase : Shrinks s
        { s with ongoingJobQ := s.ongoingJobQ.eraseP fun o => o.jobId = j.jobId } :=
      .of_sublist rfl rfl (.refl _) List.eraseP_sublist
    exact (herase.trans (shrinks_setGroup _ _ _)).trans (shrinks_setSession _ fun h => h)

theorem shrinks_finish (s : Jpeg) (h : SessionIdx) (done : Bool) : Shrinks s (s.finish h done) :=
  (shrinks_report s h done).trans (shrinks_jobDone _ h)

theorem shrinks_fbd (s : Jpeg) (h : SessionIdx) : Shrinks s (s.fbd h) := by
  rw [fbd]
  split
  · exact .refl s
  · exact shrinks_finish s h true

theorem shrinks_event (s : Jpeg) (h : SessionIdx) (isError : Bool) :
    Shrinks s (s.event h isError) := by
  simp only [event]
  split_ifs
  · exact shrinks_setSession s fun h => h
  · exact shrinks_finish s h false
  · exact .refl s

theorem shrinks_encode {j : Job} {jobQueue : List Job} (hqueue : s.jobQueue = j :: jobQueue)
    (g : Nat) (group : Group) (h : SessionIdx) (j' : Job) (hid : j'.jobId = j.jobId)
    (autoOutBuf : Bool) :
    Shrinks s ((({ s with jobQueue } : Jpeg).setGroup g group).encode h j' autoOutBuf) := by
  refine ⟨fun _ h => h, active_update s fun h => h, List.Perm.subperm ?_⟩
  have hids : (jobQueue ++ (s.ongoingJobQ ++ [j'])).map Job.jobId =
      (jobQueue ++ s.ongoingJobQ).map Job.jobId ++ [j.jobId] := by
    simp [hid]
  have hids' : (s.jobQueue ++ s.ongoingJobQ).map Job.jobId =
      j.jobId :: (jobQueue ++ s.ongoingJobQ).map Job.jobId := by
    simp [hqueue]
  show List.Perm ((jobQueue ++ (s.ongoingJobQ ++ [j'])).map Job.jobId)
    ((s.jobQueue ++ s.ongoingJobQ).map Job.jobId)
  rw [hids, hids']
  exact List.perm_append_singleton _ _

theorem shrinks_processJob (s : Jpeg) : Shrinks s s.processJob := by
  rw [processJob]
  split_ifs
  · exact .refl s
  split
  · exact .refl s
  rename_i j jobQueue hqueue
  dsimp only
  split
  · exact .refl s
  rename_i h sessionHandleQ _
  split_ifs
  · split
    · have hdrop : Shrinks s { s with jobQueue } :=
        .of_sublist rfl rfl (by rw [hqueue]; exact List.sublist_cons_self _ _) (.refl _)
      exact (hdrop.trans (shrinks_setGroup _ _ _)).trans (shrinks_setSession _ fun h => h)
    · exact shrinks_encode hqueue _ _ h _ (by rfl) true
  · exact shrinks_encode hqueue _ _ h _ (by rfl) false

theorem shrinks_configure (s : Jpeg) (ok : Bool) : Shrinks s (s.configure ok) := by
  rw [configure]
  split
  · split_ifs
    · exact .of_active rfl (active_update s fun h => h) rfl rfl
    · exact (shrinks_finish s _ false).trans (.of_eq rfl rfl rfl rfl)
  · exact .refl s

theorem shrinks_fill (s : Jpeg) (ok : Bool) : Shrinks s (s.fill ok) := by
  rw [fill]
  split
  · split_ifs
    · exact .of_eq rfl rfl rfl rfl
    · exact (shrinks_finish s _ false).trans (.of_eq rfl rfl rfl rfl)
  · exact .refl s

theorem shrinks_abortJob (s : Jpeg) (jobId : JobId) : Shrinks s (s.abortJob jobId) := by
  rw [abortJob]
  split
  · exact .of_sublist rfl rfl List.eraseP_sublist (.refl _)
  · split
    · exact .of_sublist rfl rfl (.refl _) List.eraseP_sublist
    · exact .refl s

theorem shrinks_removeJobs (s : Jpeg) (session : SessionIdx) (cause : Removal) :
    Shrinks s (s.removeJobs session cause) :=
  .of_sublist rfl rfl List.filter_sublist List.filter_sublist

theorem shrinks_retire (s : Jpeg) (session : SessionIdx) : Shrinks s (s.retire session) := by
  simp only [retire]
  split_ifs
  · exact shrinks_setGroup _ _ _
  · exact .refl s

theorem shrinks_destroySession (s : Jpeg) (session : SessionIdx) :
    Shrinks s (s.destroySession session) :=
  ((shrinks_removeJobs s session _).trans (shrinks_retire _ session)).trans (.of_eq rfl rfl rfl rfl)

theorem shrinks_resume (s : Jpeg) (call : Call) : Shrinks s (s.resume call) := by
  cases call with
  | abortJob => exact .of_eq rfl rfl rfl rfl
  | close client next => exact .of_eq rfl rfl rfl rfl
  | destroySession g =>
    refine .of_active rfl (fun x hx => ?_) rfl rfl
    dsimp only [resume, setGroup] at hx
    split_ifs at hx
    exact hx

theorem shrinks_sessionAbort (s : Jpeg) (sent : Bool) : Shrinks s (s.sessionAbort sent) := by
  rw [sessionAbort.eq_def]
  split
  · exact shrinks_resume s _
  · split_ifs
    · exact .refl s
    · exact .of_active rfl (active_update s fun h => h) rfl rfl
  · split_ifs
    · exact .of_eq rfl rfl rfl rfl
    all_goals exact .of_active rfl (active_update s fun h => h) rfl rfl
  · exact .refl s

theorem shrinks_close (s : Jpeg) : Shrinks s s.close := by
  rw [close]
  split
  · rename_i client i _
    split_ifs
    · exact ((shrinks_removeJobs s _ _).trans (shrinks_retire _ _)).trans (.of_eq rfl rfl rfl rfl)
    · exact .of_eq rfl rfl rfl rfl
    · refine ⟨fun c hc => ?_, fun x hx => ?_, .refl _⟩
      · by_cases hclient : c = client
        · simp [hclient] at hc
        · simpa [hclient] using hc
      · dsimp only at hx
        split_ifs at hx
        · simp [Session.zero] at hx
        · exact hx
  · exact .refl s

def Op.Makes : Op → Prop
  | .newClient | .createSession _ _ _ _ | .startJob _ _ _ => True
  | _ => False

instance : (op : Op) → Decidable op.Makes
  | .newClient | .createSession _ _ _ _ | .startJob _ _ _ => .isTrue trivial
  | .abortJob _ | .destroySession _ | .closeClient _ | .sessionAbort _ | .close | .processJob
  | .configure _ | .fill _ | .fbd _ | .event _ _ => .isFalse not_false

theorem shrinks_exec (s : Jpeg) {op : Op} (hop : ¬ op.Makes) : Shrinks s (s.exec op) := by
  cases op with
  | newClient | createSession | startJob => exact absurd trivial hop
  | abortJob jobId => exact shrinks_abortJob s jobId
  | destroySession session => exact shrinks_destroySession s session
  | closeClient client => exact .of_eq rfl rfl rfl rfl
  | sessionAbort sent => exact shrinks_sessionAbort s sent
  | close => exact shrinks_close s
  | processJob => exact shrinks_processJob s
  | configure ok => exact shrinks_configure s ok
  | fill ok => exact shrinks_fill s ok
  | fbd h => exact shrinks_fbd s h
  | event h isError => exact shrinks_event s h isError

/-! ## Distinct identifiers -/

structure IdInv (s : Jpeg) : Prop where
  nodup : s.jobIds.Nodup
  job_lt : ∀ i ∈ s.jobIds, i.session.1 < maxClientNum ∧ i.session.2 < maxSession
  isUsed_lt : ∀ c, s.isUsed c → c < maxClientNum
  active_lt : ∀ h, (s.session h).active → h.1 < maxClientNum ∧ h.2 < maxSession

theorem Initial.idInv (hs : s.Initial) : s.IdInv where
  nodup := by simp [jobIds, hs.queues]
  job_lt := by simp [jobIds, hs.queues]
  isUsed_lt c h := by simp [hs.isUsed] at h
  active_lt x h := by simp [hs.session, Session.zero] at h

theorem Shrinks.idInv (h : Shrinks s s') (hs : s.IdInv) : s'.IdInv where
  nodup := by
    obtain ⟨l, hperm, hsub⟩ := h.jobIds
    exact hperm.nodup_iff.1 (hs.nodup.sublist hsub)
  job_lt i hi := hs.job_lt i (h.jobIds.subset hi)
  isUsed_lt c hc := hs.isUsed_lt c (h.isUsed c hc)
  active_lt x hx := hs.active_lt x (h.active x hx)

theorem IdInv.newClient (hs : s.IdInv) : s.newClient.IdInv := by
  rw [Jpeg.newClient]
  split
  · exact hs
  · rename_i c hc
    have hlt : c < maxClientNum := List.mem_range.1 (List.mem_of_find?_eq_some hc)
    refine ⟨hs.nodup, hs.job_lt, fun c' hc' => ?_, fun x hx => ?_⟩
    · by_cases hcc : c' = c
      · rwa [hcc]
      · exact hs.isUsed_lt c' (by simpa [hcc] using hc')
    · dsimp only at hx
      split_ifs at hx
      · simp [Session.zero] at hx
      · exact hs.active_lt x hx

theorem mem_newSessions_lt {client num : Nat} {h : SessionIdx}
    (hmem : h ∈ s.newSessions client num) : h.1 = client ∧ h.2 < maxSession := by
  have hmem := List.mem_of_mem_filter (List.mem_of_mem_take hmem)
  obtain ⟨i, hi, rfl⟩ := List.mem_map.1 hmem
  exact ⟨rfl, List.mem_range.1 hi⟩

theorem IdInv.createSession (hs : s.IdInv) {client : Nat} (hused : s.isUsed client)
    (burst : Bool) (numSrcBufs numDstBufs : Nat) :
    (s.createSession client burst numSrcBufs numDstBufs).IdInv := by
  simp only [Jpeg.createSession]
  split_ifs
  · exact hs
  all_goals
    refine ⟨hs.nodup, hs.job_lt, hs.isUsed_lt, fun x hx => ?_⟩
    dsimp only [setGroup] at hx
    split_ifs at hx with hmem
    · obtain ⟨hclient, hlt⟩ := mem_newSessions_lt hmem
      exact ⟨hclient ▸ hs.isUsed_lt client hused, hlt⟩
    · exact hs.active_lt x hx

theorem IdInv.startJob (hs : s.IdInv) {session : SessionIdx} {srcIndex dstIndex : Int}
    (hnew : s.Accepts session srcIndex dstIndex → ∀ j ∈ s.jobQueue ++ s.ongoingJobQ,
      j.jobId.session = session →
        j.jobId.number ≠ (s.session session).jobHist % jobHistMax ||| jobIdMagic) :
    (s.startJob session srcIndex dstIndex).IdInv := by
  rw [Jpeg.startJob]
  split
  · exact hs
  rename_i hbounds
  split
  · exact hs
  rename_i hactive
  split
  · exact hs
  rename_i hbufs
  have haccepts : s.Accepts session srcIndex dstIndex := by
    refine ⟨by omega, by omega, not_not.1 hactive, by omega, by omega⟩
  have hids : ∀ i : JobId, List.Perm ((s.jobQueue ++ [(⟨s.accepted, i, dstIndex⟩ : Job)] ++
      s.ongoingJobQ).map Job.jobId) (i :: s.jobIds) := by
    intro i
    simp only [jobIds, List.map_append, List.map_cons, List.append_assoc, List.singleton_append]
    exact List.perm_middle
  refine ⟨(hids _).nodup_iff.2 (List.nodup_cons.2 ⟨fun hmem => ?_, hs.nodup⟩), fun i hi => ?_,
    hs.isUsed_lt,
    fun x hx => hs.active_lt x (@active_update s session _ (by exact fun h => h) x hx)⟩
  · obtain ⟨j, hj, hjid⟩ := List.mem_map.1 hmem
    exact hnew haccepts j hj (congrArg JobId.session hjid) (congrArg JobId.number hjid)
  · obtain rfl | hi := List.mem_cons.1 ((hids _).mem_iff.1 hi)
    · dsimp only
      omega
    · exact hs.job_lt i hi

theorem IdInv.exec (hs : s.IdInv) {op : Op} (henabled : s.Enabled op)
    (hnew : ∀ session srcIndex dstIndex, op = .startJob session srcIndex dstIndex →
      s.Accepts session srcIndex dstIndex → ∀ j ∈ s.jobQueue ++ s.ongoingJobQ,
        j.jobId.session = session →
          j.jobId.number ≠ (s.session session).jobHist % jobHistMax ||| jobIdMagic) :
    (s.exec op).IdInv := by
  by_cases hmakes : op.Makes
  · cases op <;> simp only [Op.Makes] at hmakes
    · exact hs.newClient
    · exact hs.createSession henabled.2.1 _ _ _
    · exact hs.startJob (hnew _ _ _ rfl)
  · exact (shrinks_exec s hmakes).idInv hs

theorem isUsed_exec (s : Jpeg) {op : Op} (hop : op ≠ .newClient) {c : Nat}
    (hc : (s.exec op).isUsed c) : s.isUsed c := by
  by_cases hmakes : op.Makes
  · cases op <;> simp only [Op.Makes] at hmakes
    · exact absurd rfl hop
    · simp only [Jpeg.exec, createSession] at hc
      split_ifs at hc <;> exact hc
    · simp only [Jpeg.exec, startJob] at hc
      split_ifs at hc <;> exact hc
  · exact (shrinks_exec s hmakes).isUsed c hc

theorem find?_of_nodup {α β : Type} [DecidableEq β] {f : α → β} {l : List α} {a : α}
    (hnodup : (l.map f).Nodup) (ha : a ∈ l) : (l.find? fun b => f b = f a) = some a := by
  induction l with
  | nil => simp at ha
  | cons b l ih =>
    rw [List.map_cons, List.nodup_cons] at hnodup
    obtain rfl | ha := List.mem_cons.1 ha
    · simp
    · have hne : f b ≠ f a := fun h => hnodup.1 (h ▸ List.mem_map_of_mem ha)
      rw [List.find?_cons_of_neg (by simpa using hne)]
      exact ih hnodup.2 ha

theorem IdInv.removed_abortJob (hs : s.IdInv) {j : Job} (hj : j ∈ s.jobQueue ++ s.ongoingJobQ) :
    (s.abortJob j.jobId).removed = (j, .abortJob j.jobId) :: s.removed := by
  have hnodup := hs.nodup
  rw [jobIds, List.map_append, List.nodup_append] at hnodup
  obtain ⟨hqueue, hongoing, hdisjoint⟩ := hnodup
  rw [abortJob]
  obtain hj | hj := List.mem_append.1 hj
  · rw [find?_of_nodup hqueue hj]
  · have hnone : (s.jobQueue.find? fun o => o.jobId = j.jobId) = none := by
      rw [List.find?_eq_none]
      intro o ho heq
      exact hdisjoint _ (List.mem_map_of_mem ho) _ (List.mem_map_of_mem hj) (by simpa using heq)
    rw [hnone, find?_of_nodup hongoing hj]

end Jpeg

namespace Interface

structure Inv (s : Interface) : Prop where
  ids : s.jpeg.IdInv
  handles : ∀ c, s.jpeg.isUsed c → s.clientHandle c % 256 = c

variable {s : Interface}

theorem Inv.distinct (hs : s.Inv) : s.Distinct := by
  have hbounds : ∀ j ∈ s.jobs, j.jobId.session.1 < 256 ∧ j.jobId.session.2 < 256 := by
    intro j hj
    have hlt := hs.ids.job_lt _ (List.mem_map_of_mem hj)
    simp only [maxClientNum, maxSession] at hlt
    omega
  refine ⟨?_, fun j hj => hs.ids.removed_abortJob hj, fun j hj =>
    j.jobId.decode (hbounds j hj).1 (hbounds j hj).2, fun h h' hh hh' hword => ?_,
    fun c c' hc hc' hhandle => ?_⟩
  · refine List.Nodup.map_on (fun j hj j' hj' hword => ?_) hs.ids.nodup.of_map
    exact List.inj_on_of_nodup_map hs.ids.nodup hj hj'
      (JobId.word_inj (hbounds j hj) (hbounds j' hj') hword)
  · have hlt := hs.ids.active_lt h hh
    have hlt' := hs.ids.active_lt h' hh'
    simp only [maxClientNum, maxSession] at hlt hlt'
    have hid : (⟨h, jobIdMagic⟩ : JobId) = ⟨h', jobIdMagic⟩ :=
      JobId.word_inj (by dsimp only; omega) (by dsimp only; omega)
        ((word_magic h).trans (hword.trans (word_magic h').symm))
    exact congrArg JobId.session hid
  · rw [← hs.handles c hc, ← hs.handles c' hc', hhandle]

theorem jpeg_exec (s : Interface) (op : Jpeg.Op) : (s.exec op).jpeg = s.jpeg.exec op := by
  rw [exec.eq_def]
  split
  · split <;> rfl
  · rfl

theorem Inv.exec (hs : s.Inv) {op : Jpeg.Op} (henabled : s.jpeg.Enabled op) (hcond : s.Cond op) :
    (s.exec op).Inv := by
  refine ⟨?_, fun c hc => ?_⟩
  · rw [jpeg_exec]
    refine hs.ids.exec henabled fun session srcIndex dstIndex hop => ?_
    subst hop
    exact hcond
  · rw [jpeg_exec] at hc
    rw [Interface.exec.eq_def]
    split
    · simp only [Jpeg.exec, Jpeg.newClient] at hc
      split
      · rename_i hnone
        rw [hnone] at hc
        exact hs.handles c hc
      · rename_i c' hfound
        rw [hfound] at hc
        by_cases hcc : c = c'
        · subst hcc
          have hlt : c < maxClientNum := List.mem_range.1 (List.mem_of_find?_eq_some hfound)
          dsimp only
          rw [Function.update_self]
          exact generateHandler_mod _ (hlt.trans (by decide))
        · dsimp only at hc ⊢
          rw [Function.update_of_ne hcc] at hc ⊢
          exact hs.handles c hc
    · rename_i hop
      exact hs.handles c (Jpeg.isUsed_exec s.jpeg hop hc)

theorem invariant : (system.restrict Cond).Invariant Inv := by
  refine System.Invariant.of_restrict (fun s hs => ?_) fun s op s' hs hcond hstep => ?_
  · refine ⟨hs.idInv, fun c hc => ?_⟩
    simp [hs.isUsed] at hc
  · obtain ⟨henabled, rfl⟩ := hstep
    exact hs.exec henabled hcond

def start (concurrent : Nat) : Interface where
  jpeg :=
    { concurrent
      isUsed := fun _ => false
      session := fun _ => .zero
      group := fun _ => .null
      numGroups := 1
      jobQueue := []
      ongoingJobQ := []
      jobLock := .idle
      accepted := 0
      reported := []
      removed := [] }
  handlerHistoryCount := 0
  clientHandle := fun _ => 0

theorem reachable_start (concurrent : Nat) : system.Reachable (start concurrent) :=
  .init ⟨fun _ => rfl, fun _ => rfl, fun _ => rfl, rfl, ⟨rfl, rfl⟩, rfl, ⟨rfl, rfl, rfl⟩⟩

def opened : Interface :=
  ((start 1).exec .newClient).exec (.createSession 0 false 1 1)

def started : Nat → Interface
  | 0 => opened
  | n + 1 => (started n).exec (.startJob (0, 0) 0 0)

theorem started_eq (n : Nat) : ∃ j : Jpeg, (started n).jpeg = j ∧ j.jobLock = .idle ∧
    (j.session (0, 0)).active = true ∧ (j.session (0, 0)).jobHist = n ∧
    (j.session (0, 0)).group = 1 ∧ j.group = opened.jpeg.group ∧ j.ongoingJobQ = [] ∧
    j.jobQueue.map Job.jobId =
      (List.range n).map fun k => ⟨(0, 0), k % jobHistMax ||| jobIdMagic⟩ := by
  induction n with
  | zero => exact ⟨_, rfl, rfl, rfl, rfl, rfl, rfl, rfl, rfl⟩
  | succ n ih =>
    obtain ⟨j, hj, hlock, hactive, hhist, hgroup, hgroups, hongoing, hqueue⟩ := ih
    have hstep : (started (n + 1)).jpeg = j.startJob (0, 0) 0 0 := by
      rw [started, jpeg_exec, hj]
      rfl
    have hgroupOf : j.groupOf (0, 0) = opened.jpeg.group 1 := by
      rw [Jpeg.groupOf, hgroup, hgroups]
    rw [Jpeg.startJob, if_neg (by decide), if_neg (not_not.2 hactive), hgroupOf,
      if_neg (by decide)] at hstep
    refine ⟨_, hstep, hlock, ?_, ?_, ?_, hgroups, hongoing, ?_⟩
    · simpa [Jpeg.setSession] using hactive
    · simpa [Jpeg.setSession] using hhist
    · simpa [Jpeg.setSession] using hgroup
    · simp [Jpeg.setSession, hqueue, hhist, List.range_succ]

theorem reachable_started (n : Nat) : system.Reachable (started n) := by
  induction n with
  | zero =>
    exact .step (i := .createSession 0 false 1 1)
      (.step (i := .newClient) (reachable_start 1) ⟨by decide, rfl⟩) ⟨by decide, rfl⟩
  | succ n ih =>
    obtain ⟨j, hj, hlock, -, -, hgroup, hgroups, -⟩ := started_eq n
    refine .step (i := .startJob (0, 0) 0 0) ih ⟨?_, rfl⟩
    show (started n).jpeg.Enabled _
    rw [hj]
    refine ⟨?_, fun _ => ?_⟩
    · simp only [Jpeg.IntfFree, hlock]
    · rw [Jpeg.IsSession, Jpeg.groupOf, hgroup, hgroups]
      decide

end Interface

end EtherDevice.MmJpeg
