import Mathlib
import EtherDevice.MmJpeg.Jobs

/-!
# Failures of `mm_jpeg_create_session`

What the allocations, `OMX_GetHandle` and the configuration of the encoder answer is an argument.
The queues that are live are listed, and a session names its own by their places in the lists.
-/

namespace EtherDevice.MmJpeg.CreateSession

/-- `mm_jpeg_job_session_t`; `omxHandle` tells if the handle is open. -/
structure Session where
  active : Bool := false
  omxHandle : Bool := false
  config : Bool := false
  nextSession : Option SessionIdx := none
  clientHdl : Nat := 0
  sessionId : Nat := 0
  queues : Option (Nat × Nat) := none
  numOmxSessions : Nat := 0

/-- `mm_jpeg_obj`, with `MM_JPEG_CONCURRENT_SESSIONS_COUNT`. -/
structure Obj where
  concurrent : Nat
  session : SessionIdx → Session
  numSessions : Nat
  workBufCnt : Nat
  sessionHandleQs : List (List SessionIdx)
  outBufQs : List (List Nat)

structure Params where
  numSrcBufs : Nat
  numDstBufs : Nat
  highQuality : Bool
  burstMode : Bool

/-- The answers: for the work buffers, the two queues, and each of the sessions. -/
structure Outcome where
  reallocate : Nat → Bool
  allocate : Nat → Bool
  sessionHandleQ : Bool
  outBufQ : Bool
  getHandle : Nat → Bool
  configure : Nat → Int

/-- Where a call ends. -/
inductive Ending
  | done
  | error1
  | noOutBufQ
  | noSession
  | notOpened
  | notConfigured (ret : Int)

/-- The value of `rc` at the end: only the configuration sets it in the loop over the sessions. -/
def Ending.rc : Ending → Int
  | .done | .noSession | .notOpened => 0
  | .error1 | .noOutBufQ => -1
  | .notConfigured ret => ret

variable (s : Obj) (client : Nat) (params : Params) (o : Outcome)

def Obj.setSession (h : SessionIdx) (session : Session) : Obj :=
  { s with session := Function.update s.session h session }

def Obj.isFree (client i : Nat) : Bool := !(s.session (client, i)).active

def getNewSessionIdx (client : Nat) : Option Nat := (List.range maxSession).find? (s.isFree client)

def mark (h : SessionIdx) (prev : Option SessionIdx) : Obj :=
  let s := s.setSession h { s.session h with active := true, nextSession := none }
  let s := match prev with
    | none => s
    | some p => s.setSession p { s.session p with nextSession := some h }
  s.setSession h { s.session h with config := false }

def attach (h : SessionIdx) (clientHdl : Nat) : Obj :=
  let q := (s.sessionHandleQs.length - 1, s.outBufQs.length - 1)
  { s.setSession h { s.session h with
      omxHandle := true
      clientHdl
      sessionId := 2 ^ 24 + h.2 * 256 + h.1
      queues := some q } with
    numSessions := s.numSessions + 1
    sessionHandleQs := s.sessionHandleQs.modify q.1 (· ++ [h]) }

def makeSessions (clientHdl num : Nat) : Nat → Nat → Option SessionIdx → Obj → Obj × Ending
  | 0, _, _, s => (s, .done)
  | n + 1, i, prev, s =>
    match getNewSessionIdx s (clientHdl % 256) with
    | none => (s, .noSession)
    | some idx =>
      let h := (clientHdl % 256, idx)
      let s := mark s h prev
      if !o.getHandle i then (s.setSession h { s.session h with active := false }, .notOpened)
      else
        let s := attach s h clientHdl
        if o.configure i ≠ 0 then (s, .notConfigured (o.configure i))
        else
          makeSessions clientHdl num n (i + 1) (some h)
            (s.setSession h { s.session h with config := true, numOmxSessions := num })

def numOmxSessions : Nat := if params.burstMode then s.concurrent else 1

def Starts : Prop :=
  params.numSrcBufs ≤ maxBuf ∧ params.numDstBufs ≤ maxBuf ∧ client % 256 < maxClientNum ∧
    (params.highQuality = true → ∀ i < s.workBufCnt, o.reallocate i = true) ∧
    (∀ i < min (numOmxSessions s params) s.concurrent, s.workBufCnt ≤ i → o.allocate i = true) ∧
    o.sessionHandleQ = true

instance : Decidable (Starts s client params o) := by
  unfold Starts
  infer_instance

def workBufs : Nat :=
  ((List.range (min (numOmxSessions s params) s.concurrent)).drop s.workBufCnt).takeWhile o.allocate
    |>.length

def createSession : Obj × Ending :=
  if ¬ (params.numSrcBufs ≤ maxBuf ∧ params.numDstBufs ≤ maxBuf ∧ client % 256 < maxClientNum ∧
      (params.highQuality = true → ∀ i < s.workBufCnt, o.reallocate i = true)) then (s, .error1)
  else
    let s' := { s with workBufCnt := s.workBufCnt + workBufs s params o }
    if ¬ Starts s client params o then (s', .error1)
    else
      let s' := { s' with sessionHandleQs := s'.sessionHandleQs ++ [[]] }
      if !o.outBufQ then (s', .noOutBufQ)
      else
        let num := numOmxSessions s params
        match makeSessions o client num num 0 none { s' with outBufQs := s'.outBufQs ++ [[]] } with
        | (s', .done) =>
          ({ s' with
              outBufQs := s'.outBufQs.modify (s'.outBufQs.length - 1)
                (· ++ (List.range params.numDstBufs).map (· + 1)) }, .done)
        | result => result

structure Unchanged (s s' : Obj) : Prop where
  session : s'.session = s.session
  numSessions : s'.numSessions = s.numSessions
  sessionHandleQs : s'.sessionHandleQs = s.sessionHandleQs
  outBufQs : s'.outBufQs = s.outBufQs

def Obj.free (client : Nat) : Nat := (List.range maxSession).countP (s.isFree client)

def Configures (num free i k : Nat) : Prop :=
  k < num ∧ k < free ∧ (∀ j ≤ k, o.getHandle (i + j) = true) ∧ ∀ j < k, o.configure (i + j) = 0

/-- A call that gets beyond the first queue also gets the second one, and no session that it
configures refuses. -/
def Cond : Prop :=
  Starts s client params o → o.outBufQ = true ∧
    ∀ k, Configures o (numOmxSessions s params) (s.free (client % 256)) 0 k → o.configure k = 0

/-- A call that gets beyond the first queue gets the second one and all of its sessions. -/
def Completes : Prop :=
  Starts s client params o → o.outBufQ = true ∧
    numOmxSessions s params ≤ s.free (client % 256) ∧
    ∀ k < numOmxSessions s params, o.getHandle k = true ∧ o.configure k = 0

variable {s client params o}

theorem countP_erase {p q : Nat → Bool} {l : List Nat} {a : Nat} (hnodup : l.Nodup) (ha : a ∈ l)
    (hp : p a = true) (hq : q a = false) (hsame : ∀ b, b ≠ a → q b = p b) :
    l.countP p = l.countP q + 1 := by
  induction l with
  | nil => simp at ha
  | cons b l ih =>
    obtain ⟨hnot, hnodup⟩ := List.nodup_cons.1 hnodup
    obtain rfl | ha := List.mem_cons.1 ha
    · have hrest : l.countP q = l.countP p :=
        List.countP_congr fun c hc => by rw [hsame c fun h => hnot (h ▸ hc)]
      rw [List.countP_cons_of_pos hp, List.countP_cons_of_neg (by simp [hq]), hrest]
    · have hne : b ≠ a := fun h => hnot (h ▸ ha)
      rw [List.countP_cons, List.countP_cons, hsame b hne, ih hnodup ha]
      omega

theorem free_of_active {s' : Obj} {idx : Nat} (hfound : getNewSessionIdx s client = some idx)
    (hself : (s'.session (client, idx)).active = true)
    (hother : ∀ x, x ≠ (client, idx) → (s'.session x).active = (s.session x).active) :
    s.free client = s'.free client + 1 := by
  refine countP_erase List.nodup_range (List.mem_of_find?_eq_some hfound)
    (List.find?_some hfound) (by simp [Obj.isFree, hself]) fun b hb => ?_
  rw [Obj.isFree, Obj.isFree, hother _ (by simpa using hb)]

theorem free_of_none (hnone : getNewSessionIdx s client = none) : s.free client = 0 := by
  rw [Obj.free, List.countP_eq_zero]
  exact List.find?_eq_none.1 hnone

theorem active_mark (h : SessionIdx) (prev : Option SessionIdx) (x : SessionIdx) :
    ((mark s h prev).session x).active = if x = h then true else (s.session x).active := by
  by_cases hx : x = h
  · subst hx
    cases prev with
    | none => simp [mark, Obj.setSession]
    | some p =>
      by_cases hp : x = p
      · subst hp
        simp [mark, Obj.setSession]
      · simp [mark, Obj.setSession, hp]
  · cases prev with
    | none => simp [mark, Obj.setSession, hx]
    | some p =>
      by_cases hp : x = p
      · subst hp
        simp [mark, Obj.setSession, hx]
      · simp [mark, Obj.setSession, hx, hp]

theorem outBufQs_mark (h : SessionIdx) (prev : Option SessionIdx) :
    (mark s h prev).outBufQs = s.outBufQs := by
  cases prev <;> rfl

theorem configures_zero {num free i : Nat} (hget : o.getHandle i = true) :
    Configures o (num + 1) (free + 1) i 0 :=
  ⟨by omega, by omega, fun j hj => by rwa [Nat.le_zero.1 hj], fun j hj => by omega⟩

theorem configures_succ {num free i k : Nat} (hget : o.getHandle i = true)
    (hconfigure : o.configure i = 0) : Configures o (num + 1) (free + 1) i (k + 1) ↔
      Configures o num free (i + 1) k := by
  have hshift : ∀ j, i + (j + 1) = i + 1 + j := fun j => by omega
  constructor
  · rintro ⟨hnum, hfree, hgets, hconfigures⟩
    refine ⟨by omega, by omega, fun j hj => ?_, fun j hj => ?_⟩
    · rw [← hshift]
      exact hgets _ (by omega)
    · rw [← hshift]
      exact hconfigures _ (by omega)
  · rintro ⟨hnum, hfree, hgets, hconfigures⟩
    refine ⟨by omega, by omega, fun j hj => ?_, fun j hj => ?_⟩
    · cases j with
      | zero => exact hget
      | succ j =>
        rw [hshift]
        exact hgets j (by omega)
    · cases j with
      | zero => exact hconfigure
      | succ j =>
        rw [hshift]
        exact hconfigures j (by omega)

theorem forall_lt_succ_shift {P : Nat → Prop} {n i : Nat} :
    (∀ k < n + 1, P (i + k)) ↔ P i ∧ ∀ k < n, P (i + 1 + k) := by
  constructor
  · intro h
    refine ⟨h 0 (by omega), fun k hk => ?_⟩
    have := h (k + 1) (by omega)
    rwa [show i + (k + 1) = i + 1 + k by omega] at this
  · rintro ⟨hzero, h⟩ k hk
    cases k with
    | zero => exact hzero
    | succ k =>
      rw [show i + (k + 1) = i + 1 + k by omega]
      exact h k (by omega)

theorem free_attach {clientHdl idx : Nat} (prev : Option SessionIdx) {session : Session}
    (hfound : getNewSessionIdx s client = some idx) (hsession : session.active = true) :
    s.free client = ((attach (mark s (client, idx) prev) (client, idx) clientHdl).setSession
      (client, idx) session).free client + 1 := by
  refine free_of_active hfound ?_ fun x hx => ?_
  · simp [Obj.setSession, hsession]
  · have hmark := active_mark (s := s) (client, idx) prev x
    rw [if_neg hx] at hmark
    simp [Obj.setSession, attach, hx, hmark]

/-- The induction is on the turns that are left. -/
theorem makeSessions_spec {clientHdl num : Nat} (n : Nat) : ∀ (i : Nat) (prev : Option SessionIdx)
    (s : Obj), (makeSessions o clientHdl num n i prev s).1.outBufQs = s.outBufQs ∧
      ((makeSessions o clientHdl num n i prev s).2.rc = 0 ↔
        ∀ k, Configures o n (s.free (clientHdl % 256)) i k → o.configure (i + k) = 0) ∧
      ((makeSessions o clientHdl num n i prev s).2 = .done ↔ n ≤ s.free (clientHdl % 256) ∧
        ∀ k < n, o.getHandle (i + k) = true ∧ o.configure (i + k) = 0) := by
  induction n with
  | zero =>
    intro i prev s
    refine ⟨rfl, ⟨fun _ k hk => absurd hk.1 (by omega), fun _ => rfl⟩,
      ⟨fun _ => ⟨by omega, fun k hk => by omega⟩, fun _ => rfl⟩⟩
  | succ n ih =>
    intro i prev s
    rw [makeSessions]
    cases hfound : getNewSessionIdx s (clientHdl % 256) with
    | none =>
      have hfree := free_of_none hfound
      exact ⟨rfl, ⟨fun _ k hk => absurd hk.2.1 (by omega), fun _ => rfl⟩,
        ⟨fun h => (by cases h), fun h => (by omega)⟩⟩
    | some idx =>
      dsimp only
      cases hget : o.getHandle i with
      | false =>
        rw [if_pos (by decide)]
        refine ⟨outBufQs_mark _ _, ⟨fun _ k hk => ?_, fun _ => rfl⟩,
          ⟨fun h => (by cases h), fun h => ?_⟩⟩
        · exact absurd (hk.2.2.1 0 (by omega)) (by simp [hget])
        · exact absurd (h.2 0 (by omega)).1 (by simp [hget])
      | true =>
        rw [if_neg (by decide)]
        by_cases hconfigure : o.configure i = 0
        · rw [if_neg (not_not.2 hconfigure)]
          have hactive := active_mark (s := s) (clientHdl % 256, idx) prev (clientHdl % 256, idx)
          rw [if_pos rfl] at hactive
          generalize hnext : (attach (mark s (clientHdl % 256, idx) prev) (clientHdl % 256, idx)
            clientHdl).setSession (clientHdl % 256, idx) _ = s'
          have hfree : s.free (clientHdl % 256) = s'.free (clientHdl % 256) + 1 := by
            rw [← hnext]
            exact free_attach prev hfound (by simp [attach, Obj.setSession, hactive])
          have hqueues : s'.outBufQs = s.outBufQs := by
            rw [← hnext]
            exact outBufQs_mark _ _
          obtain ⟨hkeep, hrc, hdone⟩ := ih (i + 1) (some (clientHdl % 256, idx)) s'
          refine ⟨hkeep.trans hqueues, hrc.trans ?_, hdone.trans ?_⟩
          · rw [hfree]
            constructor
            · intro h k hk
              cases k with
              | zero => exact hconfigure
              | succ k =>
                have := h k ((configures_succ hget hconfigure).1 hk)
                rwa [show i + 1 + k = i + (k + 1) by omega] at this
            · intro h k hk
              have := h (k + 1) ((configures_succ hget hconfigure).2 hk)
              rwa [show i + (k + 1) = i + 1 + k by omega] at this
          · rw [hfree, @forall_lt_succ_shift
              (fun k => o.getHandle k = true ∧ o.configure k = 0) n i]
            simp [hget, hconfigure]
        · rw [if_pos hconfigure]
          have hfree := @free_attach _ _ clientHdl _ prev { active := true } hfound rfl
          refine ⟨outBufQs_mark _ _, ⟨fun h => absurd h hconfigure, fun h => ?_⟩,
            ⟨fun h => (by cases h), fun h => absurd (h.2 0 (by omega)).2 hconfigure⟩⟩
          rw [hfree] at h
          exact h 0 (configures_zero hget)

theorem createSession_of_not_starts (h : ¬ Starts s client params o) :
    Unchanged s (createSession s client params o).1 ∧
      (createSession s client params o).2 = .error1 := by
  rw [createSession]
  split
  · exact ⟨⟨rfl, rfl, rfl, rfl⟩, rfl⟩
  · exact ⟨⟨rfl, rfl, rfl, rfl⟩, rfl⟩

theorem createSession_of_starts (h : Starts s client params o) :
    ¬ Unchanged s (createSession s client params o).1 ∧
      ((createSession s client params o).2.rc = 0 ↔ o.outBufQ = true ∧
        ∀ k, Configures o (numOmxSessions s params) (s.free (client % 256)) 0 k →
          o.configure k = 0) ∧
      ((createSession s client params o).2 = .done ↔ o.outBufQ = true ∧
        numOmxSessions s params ≤ s.free (client % 256) ∧
        ∀ k < numOmxSessions s params, o.getHandle k = true ∧ o.configure k = 0) := by
  obtain ⟨hsrc, hdst, hclient, hreallocate, -, -⟩ := id h
  rw [createSession, if_neg (not_not.2 ⟨hsrc, hdst, hclient, hreallocate⟩)]
  dsimp only
  rw [if_neg (not_not.2 h)]
  cases hqueue : o.outBufQ with
  | false =>
    rw [if_pos (by decide)]
    refine ⟨fun hsame => ?_, by simp [Ending.rc], by simp⟩
    have := congrArg List.length hsame.sessionHandleQs
    simp at this
  | true =>
    rw [if_neg (by decide)]
    have hspec := @makeSessions_spec o client (numOmxSessions s params) (numOmxSessions s params)
      0 none
      { s with
        workBufCnt := s.workBufCnt + workBufs s params o
        sessionHandleQs := s.sessionHandleQs ++ [[]]
        outBufQs := s.outBufQs ++ [[]] }
    generalize makeSessions o client (numOmxSessions s params) (numOmxSessions s params) 0 none
      _ = r at hspec ⊢
    obtain ⟨s', ending⟩ := r
    obtain ⟨hqueues, hrc, hdone⟩ := hspec
    simp only [Nat.zero_add] at hrc hdone
    have hlength : s'.outBufQs.length = s.outBufQs.length + 1 := by
      rw [hqueues]
      simp
    have hchanged : ∀ s'' : Obj, s''.outBufQs.length = s'.outBufQs.length → ¬ Unchanged s s'' := by
      intro s'' hlen hsame
      rw [hsame.outBufQs, hlength] at hlen
      omega
    simp only [true_and]
    cases ending with
    | done => exact ⟨hchanged _ (by simp), hrc, hdone⟩
    | error1 | noOutBufQ | noSession | notOpened | notConfigured =>
      exact ⟨hchanged _ rfl, hrc, hdone⟩

/-- A call that returns an error changes nothing, exactly where neither the second queue nor the
configuration of a session fails; one that does not make all its sessions changes nothing, exactly
where it ends before the first queue. -/
theorem unchanged_iff (s : Obj) (client : Nat) (params : Params) (o : Outcome) :
    (((createSession s client params o).2.rc ≠ 0 →
        Unchanged s (createSession s client params o).1) ↔ Cond s client params o) ∧
      (((createSession s client params o).2 ≠ .done →
        Unchanged s (createSession s client params o).1) ↔ Completes s client params o) := by
  by_cases h : Starts s client params o
  · obtain ⟨hchanged, hrc, hdone⟩ := createSession_of_starts h
    refine ⟨⟨fun hsame _ => hrc.1 ?_, fun hcond hne => absurd (hrc.2 (hcond h)) hne⟩,
      ⟨fun hsame _ => hdone.1 ?_, fun hcond hne => absurd (hdone.2 (hcond h)) hne⟩⟩
    · by_contra hne
      exact hchanged (hsame hne)
    · by_contra hne
      exact hchanged (hsame hne)
  · have hsame := (createSession_of_not_starts h).1
    exact ⟨⟨fun _ h' => absurd h' h, fun _ _ => hsame⟩, ⟨fun _ h' => absurd h' h, fun _ _ => hsame⟩⟩

/-- The only session is configured in vain, and stays active. -/
theorem not_unchanged : ¬ ∀ (s : Obj) (client : Nat) (params : Params) (o : Outcome),
    (createSession s client params o).2.rc ≠ 0 →
      Unchanged s (createSession s client params o).1 := by
  intro h
  have hsame := h ⟨1, fun _ => {}, 0, 0, [], []⟩ 256 ⟨1, 1, false, false⟩
    ⟨fun _ => true, fun _ => true, true, true, fun _ => true, fun _ => 1⟩ (by decide)
  have hactive := congrArg Session.active (congrFun hsame.session (0, 0))
  exact absurd hactive (by decide)

end EtherDevice.MmJpeg.CreateSession
