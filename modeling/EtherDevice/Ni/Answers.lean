import EtherDevice.Ni.Sessions

/-!
# Answers to network-initiated requests

While a worker has not ended its section, the notification ID of its session is its own, and only
such a session has a raw request, a flag that is set, or somebody who waits for its lock. A response
that is set in a session was therefore given for the request of its worker.
-/

namespace EtherDevice.Ni

open Lib

def Respond.target : Respond → SessionId × Nat × Int
  | .ignoring id resp => (.sessionEs, id, resp)
  | .setting k id resp => (k, id, resp)

theorem Respond.holds_target (c : Respond) : c.Holds c.target.1 := by
  cases c with
  | ignoring id resp => trivial
  | setting k id resp => rfl

namespace NiState

variable {s : NiState} {k : SessionId} {i j : Nat} {resp : Int} {raw : Nat}

/-! ## The invariant -/

def Pending (s : NiState) (k : SessionId) (i : Nat) : Prop :=
  s.workers i = some (k, .created) ∨ ∃ expire, s.workers i = some (k, .waiting expire)

def Serves (s : NiState) (k : SessionId) (q : NiRequest) : Prop :=
  ∀ raw, (s.sessions k).rawRequest = some raw → raw = q.raw

structure Inv (s : NiState) : Prop where
  busy : ∀ k i, s.Busy k i → (s.sessions k).reqID = i
  raw : ∀ k, (s.sessions k).rawRequest ≠ none → ∃ i, s.Pending k i
  flag : ∀ k, (s.sessions k).respRecvd = true → ∃ i, s.Pending k i
  holds : ∀ k, s.Holds k → ∃ i, s.Pending k i
  wakes : ∀ k, s.main = .waking k → (s.sessions k).rawRequest = none
  created : ∀ k i, s.workers i = some (k, .created) → ∃ q ∈ s.requests, q.id = i ∧
    s.Serves k q ∧ (s.sessions k).respTimeLeft = q.timeLeft ∧ q.arrived ≤ s.clock
  waiting : ∀ k i expire, s.workers i = some (k, .waiting expire) → ∃ q ∈ s.requests, q.id = i ∧
    s.Serves k q ∧ q.arrived + q.timeLeft ≤ expire
  given : ∀ k, (s.sessions k).respRecvd = true → (s.sessions k).rawRequest ≠ none →
    (s.sessions k).resp = responseIgnore ∨
      ((s.sessions k).reqID, (s.sessions k).resp) ∈ s.heard
  calls : ∀ c ∈ s.calls, c.2.target.2 ∈ s.heard ∧
    (s.sessions c.2.target.1).reqID = c.2.target.2.1
  counter : ∀ i, s.workers i ≠ none → i ≤ s.reqIDCounter
  carried : ∀ m ∈ s.held ++ s.queue ++ s.informed, ∃ q ∈ s.requests, s.Carries m q
  held : ∀ m ∈ s.held, ∃ k, s.workers m.worker = some (k, .clearing) ∨
    s.workers m.worker = some (k, .sending)
  request : ∀ q ∈ s.requests, q.raw ∈ s.arrived ∧ q.raw ∉ s.refused
  refused : ∀ raw ∈ s.refused, raw ∈ s.arrived
  unique : ∀ q ∈ s.requests, ∀ q' ∈ s.requests, q.raw = q'.raw → q = q'
  conserved : ∀ raw, s.freed.count raw + s.kept.count raw = s.arrived.count raw
  nodup : s.arrived.Nodup

theorem Pending.busy (h : s.Pending k i) : s.Busy k i := by
  rcases h with h | ⟨expire, h⟩
  · exact ⟨.created, h, nofun⟩
  · exact ⟨.waiting expire, h, nofun⟩

theorem Inv.unique_busy (h : s.Inv) (hi : s.Busy k i) (hj : s.Busy k j) : i = j :=
  (h.busy k i hi).symm.trans (h.busy k j hj)

theorem Inv.not_pending_of_clearing (h : s.Inv) (hi : s.workers i = some (k, .clearing)) :
    ∀ j, ¬ s.Pending k j := by
  intro j hj
  have hij := h.unique_busy ⟨.clearing, hi, nofun⟩ hj.busy
  subst hij
  rcases hj with hj | ⟨expire, hj⟩
  · rw [hi] at hj
    cases hj
  · rw [hi] at hj
    cases hj

theorem carries_mono {s' : NiState} {m : InformNiResponse} {q : NiRequest}
    (hheard : ∀ given ∈ s.heard, given ∈ s'.heard) (h : s.Carries m q) : s'.Carries m q := by
  obtain ⟨hraw, hid, hresp⟩ := h
  exact ⟨hraw, hid, hresp.imp_left (hheard _)⟩

/-! ## The end of a section -/

def message (s : NiState) (i : Nat) (k : SessionId) (resp : Int) : List InformNiResponse :=
  match (s.sessions k).rawRequest with
  | none => []
  | some raw => if resp ≠ responseIgnore then [⟨resp, raw, i, s.clock⟩] else []

def dropped (s : NiState) (k : SessionId) (resp : Int) : List Nat :=
  match (s.sessions k).rawRequest with
  | none => []
  | some raw => if resp ≠ responseIgnore then [] else [raw]

theorem take_eq (s : NiState) (i : Nat) (k : SessionId) (resp : Int) : s.take i k resp =
    { s with
      sessions := Function.update s.sessions k
        { s.sessions k with resp := resp, respRecvd := false, rawRequest := none }
      workers := Function.update s.workers i (some (k, .clearing))
      held := s.message i k resp ++ s.held
      ignored := s.dropped k resp ++ s.ignored } := by
  grind [take, message, dropped, setSession, setWorker]

theorem count_taken (s : NiState) (i : Nat) (k : SessionId) (resp : Int) (raw : Nat) :
    ((s.message i k resp).map InformNiResponse.mPayload).count raw + (s.dropped k resp).count raw =
      (s.sessions k).rawRequest.toList.count raw := by
  unfold message dropped
  cases hraw : (s.sessions k).rawRequest with
  | none => rfl
  | some raw' =>
    simp only
    split
    · rfl
    · exact Nat.zero_add _

theorem mem_message {m : InformNiResponse} (hm : m ∈ s.message i k resp) :
    ∃ raw, (s.sessions k).rawRequest = some raw ∧ resp ≠ responseIgnore ∧
      m = ⟨resp, raw, i, s.clock⟩ := by
  unfold message at hm
  grind

theorem count_raws (sessions : SessionId → NiSession) (k : SessionId) (session : NiSession)
    (raw : Nat) :
    ((Function.update sessions k session .sessionEs).rawRequest.toList ++
        (Function.update sessions k session .session).rawRequest.toList).count raw +
        (sessions k).rawRequest.toList.count raw =
      ((sessions .sessionEs).rawRequest.toList ++
        (sessions .session).rawRequest.toList).count raw +
        session.rawRequest.toList.count raw := by
  cases k with
  | sessionEs =>
    grind
  | session =>
    grind

theorem Pending.setWorker {k' : SessionId} {w : Option (SessionId × Worker)}
    (hi : s.workers i = none ∨ ∃ w, s.workers i = some (k, w)) (hk : k' ≠ k)
    (h : s.Pending k' j) :
    Function.update s.workers i w j = some (k', .created) ∨
      ∃ expire, Function.update s.workers i w j = some (k', .waiting expire) := by
  have hji : j ≠ i := by
    rintro rfl
    obtain ⟨w', hw', -⟩ := h.busy
    simp_all
  rw [Function.update_of_ne hji]
  exact h

/-- The response that a worker finds or chooses is one for its request. -/
def Fits (s : NiState) (q : NiRequest) (resp : Int) : Prop :=
  resp = responseIgnore ∨ (q.id, resp) ∈ s.heard ∨
    resp = responseNoResp ∧ q.arrived + q.timeLeft ≤ s.clock

theorem Inv.take {q : NiRequest} (h : s.Inv) (hi : s.Pending k i) (hquiet : ¬ s.Holds k)
    (hq : q ∈ s.requests) (hqid : q.id = i) (hqserves : s.Serves k q)
    (hfits : (s.sessions k).rawRequest ≠ none → s.Fits q resp) : (s.take i k resp).Inv := by
  have hworker : s.workers i = none ∨ ∃ w, s.workers i = some (k, w) :=
    .inr (hi.elim (fun h => ⟨_, h⟩) fun ⟨_, h⟩ => ⟨_, h⟩)
  have hother : ∀ j, s.Busy k j → j = i := fun j hj => h.unique_busy hj hi.busy
  -- what was pending in another session still is
  have hpending : ∀ k', k' ≠ k → (∃ j, s.Pending k' j) →
      ∃ j, (s.take i k resp).Pending k' j := by
    rintro k' hk ⟨j, hj⟩
    rw [take_eq]
    exact ⟨j, hj.setWorker hworker hk⟩
  have hcalls : ∀ k', (s.take i k resp).Holds k' → k' ≠ k ∧ s.Holds k' := by
    intro k' hk
    rw [take_eq] at hk
    refine ⟨?_, hk⟩
    rintro rfl
    exact hquiet hk
  have hbusy : ∀ k' j w, (s.take i k resp).workers j = some (k', w) → j ≠ i →
      s.workers j = some (k', w) := by
    intro k' j w hj hne
    simp_all [take_eq]
  have hwaits : ∀ k' j w, (s.take i k resp).workers j = some (k', w) → w ≠ .sending →
      w ≠ .clearing → k' ≠ k ∧ s.workers j = some (k', w) := by
    intro k' j w hj hsending hclearing
    by_cases hji : j = i
    · simp_all [take_eq]
    · have hw := hbusy k' j w hj hji
      refine ⟨?_, hw⟩
      rintro rfl
      exact hji (hother j ⟨w, hw, hsending⟩)
  have hsession : ∀ k', k' ≠ k → (s.take i k resp).sessions k' = s.sessions k' := by
    simp_all [take_eq]
  have hself : (s.take i k resp).sessions k =
      { s.sessions k with resp := resp, respRecvd := false, rawRequest := none } := by
    simp [take_eq]
  have hid : ∀ k', ((s.take i k resp).sessions k').reqID = (s.sessions k').reqID := by
    intro k'
    by_cases hk : k' = k
    · rw [hk, hself]
    · rw [hsession k' hk]
  have hserves : ∀ k' q, k' ≠ k → s.Serves k' q → (s.take i k resp).Serves k' q := by
    intro k' q hk hq raw hraw
    rw [hsession k' hk] at hraw
    exact hq raw hraw
  have hframe : (s.take i k resp).requests = s.requests ∧ (s.take i k resp).heard = s.heard ∧
      (s.take i k resp).clock = s.clock ∧ (s.take i k resp).calls = s.calls := by
    simp [take_eq]
  obtain ⟨hrequests, hheard, hclock, hcallsEq⟩ := hframe
  constructor
  case busy =>
    rintro k' j ⟨w, hj, hw⟩
    rw [hid]
    by_cases hji : j = i
    · rw [take_eq, hji] at hj
      simp only [Function.update_self] at hj
      have hk : k = k' := congrArg Prod.fst (Option.some.inj hj)
      rw [hji, ← hk]
      exact h.busy k i hi.busy
    · exact h.busy k' j ⟨w, hbusy k' j w hj hji, hw⟩
  case raw =>
    intro k' hraw
    by_cases hk : k' = k
    · simp_all
    · rw [hsession k' hk] at hraw
      exact hpending k' hk (h.raw k' hraw)
  case flag =>
    intro k' hflag
    by_cases hk : k' = k
    · simp_all
    · rw [hsession k' hk] at hflag
      exact hpending k' hk (h.flag k' hflag)
  case holds =>
    intro k' hholds
    obtain ⟨hk, hholds⟩ := hcalls k' hholds
    exact hpending k' hk (h.holds k' hholds)
  case wakes =>
    intro k' hmain
    by_cases hk : k' = k
    · rw [hk, hself]
    · rw [hsession k' hk]
      rw [take_eq] at hmain
      exact h.wakes k' hmain
  case created =>
    intro k' j hj
    obtain ⟨hk, hj⟩ := hwaits k' j _ hj nofun nofun
    rw [hrequests, hclock, hsession k' hk]
    obtain ⟨q, hq, hqid, hqserves, hrest⟩ := h.created k' j hj
    exact ⟨q, hq, hqid, hserves k' q hk hqserves, hrest⟩
  case waiting =>
    intro k' j expire hj
    obtain ⟨hk, hj⟩ := hwaits k' j _ hj nofun nofun
    rw [hrequests]
    obtain ⟨q, hq, hqid, hqserves, hrest⟩ := h.waiting k' j expire hj
    exact ⟨q, hq, hqid, hserves k' q hk hqserves, hrest⟩
  case given =>
    intro k' hflag hraw
    by_cases hk : k' = k
    · simp_all
    · rw [hsession k' hk] at hflag hraw ⊢
      rw [hheard]
      exact h.given k' hflag hraw
  case calls =>
    intro c hc
    rw [hcallsEq] at hc
    rw [hid, hheard]
    exact h.calls c hc
  case counter =>
    intro j hj
    by_cases hji : j = i
    · rw [take_eq]
      obtain ⟨w, hw, -⟩ := hi.busy
      exact hji ▸ h.counter i (by simp [hw])
    · rw [take_eq] at hj ⊢
      simp only [Function.update_of_ne hji] at hj
      exact h.counter j hj
  case carried =>
    intro m hm
    rw [take_eq] at hm
    rw [hrequests]
    have hold : ∀ m ∈ s.held ++ s.queue ++ s.informed,
        ∃ q ∈ s.requests, (s.take i k resp).Carries m q := by
      intro m hm
      obtain ⟨q, hq, hcarries⟩ := h.carried m hm
      exact ⟨q, hq, carries_mono (by simp [hheard]) hcarries⟩
    simp only [List.append_assoc] at hm
    rcases List.mem_append.mp hm with hm | hm
    · obtain ⟨raw, hraw, hresp, rfl⟩ := mem_message hm
      refine ⟨q, hq, (hqserves raw hraw).symm, hqid, ?_⟩
      rw [hheard]
      exact (hfits (by simp [hraw])).resolve_left hresp
    · exact hold m (by simpa only [List.append_assoc] using hm)
  case held =>
    intro m hm
    rw [take_eq] at hm ⊢
    simp only at hm ⊢
    rcases List.mem_append.mp hm with hm | hm
    · obtain ⟨raw, -, -, rfl⟩ := mem_message hm
      exact ⟨k, .inl (Function.update_self _ _ _)⟩
    · obtain ⟨k', hm⟩ := h.held m hm
      grind
  case request =>
    rw [take_eq]
    exact h.request
  case refused =>
    rw [take_eq]
    exact h.refused
  case unique =>
    rw [take_eq]
    exact h.unique
  case conserved =>
    intro raw
    have hold := h.conserved raw
    have htaken := count_taken s i k resp raw
    have hraws := count_raws s.sessions k
      { s.sessions k with resp := resp, respRecvd := false, rawRequest := none } raw
    grind [take_eq, freed, kept]
  case nodup =>
    rw [take_eq]
    exact h.nodup

/-! ## Steps -/

theorem Inv.fits {q : NiRequest} (h : s.Inv) (hi : s.Pending k i) (hqid : q.id = i)
    (hflag : (s.sessions k).respRecvd = true) (hraw : (s.sessions k).rawRequest ≠ none) :
    s.Fits q (s.sessions k).resp := by
  have hgiven := h.given k hflag hraw
  rw [h.busy k i hi.busy, ← hqid] at hgiven
  exact hgiven.imp_right .inl

theorem Inv.waits (h : s.Inv) (hi : s.workers i = some (k, .created)) :
    (s.setWorker i (some (k, .waiting (s.clock + (s.sessions k).respTimeLeft)))).Inv := by
  have hbusy : ∀ k' j, (s.setWorker i (some (k, .waiting
      (s.clock + (s.sessions k).respTimeLeft)))).Busy k' j → s.Busy k' j := by
    rintro k' j ⟨w, hj, hw⟩
    by_cases hji : j = i
    · subst hji
      simp only [setWorker, Function.update_self] at hj
      have hk : k = k' := congrArg Prod.fst (Option.some.inj hj)
      exact hk ▸ Pending.busy (.inl hi)
    · simp only [setWorker, Function.update_of_ne hji] at hj
      exact ⟨w, hj, hw⟩
  have hpending : ∀ k', (∃ j, s.Pending k' j) → ∃ j, (s.setWorker i (some (k, .waiting
      (s.clock + (s.sessions k).respTimeLeft)))).Pending k' j := by
    rintro k' ⟨j, hj⟩
    by_cases hk : k' = k
    · exact ⟨i, hk ▸ .inr ⟨_, Function.update_self _ _ _⟩⟩
    · exact ⟨j, hj.setWorker (.inr ⟨_, hi⟩) hk⟩
  have hcases : ∀ k' j w, (s.setWorker i (some (k, .waiting
      (s.clock + (s.sessions k).respTimeLeft)))).workers j = some (k', w) →
      j = i ∧ k' = k ∧ w = .waiting (s.clock + (s.sessions k).respTimeLeft) ∨
        s.workers j = some (k', w) := by
    intro k' j w hj
    by_cases hji : j = i
    · subst hji
      simp only [setWorker, Function.update_self] at hj
      cases hj
      exact .inl ⟨rfl, rfl, rfl⟩
    simp_all [setWorker]
  refine { h with
    busy := fun k' j hj => h.busy k' j (hbusy k' j hj)
    raw := fun k' hraw => hpending k' (h.raw k' hraw)
    flag := fun k' hflag => hpending k' (h.flag k' hflag)
    holds := fun k' hholds => hpending k' (h.holds k' hholds)
    created := fun k' j hj => ?_
    waiting := fun k' j expire hj => ?_
    counter := fun j hj => ?_
    held := fun m hm => ?_ }
  · rcases hcases k' j _ hj with ⟨-, -, hw⟩ | hj
    · cases hw
    · exact h.created k' j hj
  · rcases hcases k' j _ hj with ⟨rfl, rfl, hw⟩ | hj
    · obtain ⟨q, hq, hqid, hqserves, hleft, harrived⟩ := h.created k' j hi
      refine ⟨q, hq, hqid, hqserves, ?_⟩
      simp_all
    · exact h.waiting k' j expire hj
  · by_cases hji : j = i
    · exact hji ▸ h.counter i (by simp [hi])
    · simp only [setWorker, Function.update_of_ne hji] at hj
      exact h.counter j hj
  · obtain ⟨k', hm⟩ := h.held m hm
    have hne : m.worker ≠ i := by
      intro heq
      simp_all
    refine ⟨k', ?_⟩
    simp [setWorker, hne, hm]

theorem Inv.start (h : s.Inv) (hquiet : ∀ k ∈ s.takes (.start i), ¬ s.Holds k) :
    (s.start i).Inv := by
  unfold NiState.start
  split
  · rename_i k hi
    split
    · rename_i hflag
      obtain ⟨q, hq, hqid, hqserves, -⟩ := h.created k i hi
      exact h.take (.inl hi) (hquiet k (by simp [takes, hi, hflag])) hq hqid hqserves
        (h.fits (.inl hi) hqid hflag)
    · exact h.waits hi
  · exact h

theorem Inv.wake (h : s.Inv) (hquiet : ∀ k ∈ s.takes (.wake i), ¬ s.Holds k) :
    (s.wake i).Inv := by
  unfold NiState.wake
  split
  · rename_i k expire hi
    split
    · rename_i hflag
      obtain ⟨q, hq, hqid, hqserves, -⟩ := h.waiting k i expire hi
      exact h.take (.inr ⟨expire, hi⟩) (hquiet k (by simp [takes, hi, hflag])) hq hqid hqserves
        (h.fits (.inr ⟨expire, hi⟩) hqid hflag)
    · exact h
  · exact h

theorem Inv.timeout (h : s.Inv) (hquiet : ∀ k ∈ s.takes (.timeout i), ¬ s.Holds k) :
    (s.timeout i).Inv := by
  unfold NiState.timeout
  split
  · rename_i k expire hi
    split
    · rename_i hexpired
      obtain ⟨q, hq, hqid, hqserves, hlate⟩ := h.waiting k i expire hi
      exact h.take (.inr ⟨expire, hi⟩) (hquiet k (by simp [takes, hi, hexpired])) hq hqid hqserves
        fun _ => .inr (.inr ⟨rfl, Int.le_trans hlate hexpired⟩)
    · exact h
  · exact h

theorem Inv.clear (h : s.Inv) (hi : s.workers i = some (k, .clearing)) :
    ((s.setSession k { s.sessions k with respTimeLeft := 0, reqID := 0 }).setWorker i
      (some (k, .sending))).Inv := by
  have hnone := h.not_pending_of_clearing hi
  have hfree : ∀ k', (∃ j, s.Pending k' j) → k' ≠ k := by
    rintro k' ⟨j, hj⟩ rfl
    exact hnone j hj
  have hother : ∀ k', k' ≠ k →
      Function.update s.sessions k { s.sessions k with respTimeLeft := 0, reqID := 0 } k' =
        s.sessions k' := fun k' hk => Function.update_of_ne hk _ _
  have hsame : ∀ k', (Function.update s.sessions k
      { s.sessions k with respTimeLeft := 0, reqID := 0 } k').rawRequest =
        (s.sessions k').rawRequest ∧
      (Function.update s.sessions k
        { s.sessions k with respTimeLeft := 0, reqID := 0 } k').respRecvd =
        (s.sessions k').respRecvd := by
    grind
  have hpending : ∀ k', (∃ j, s.Pending k' j) → ∃ j, ((s.setSession k { s.sessions k with
      respTimeLeft := 0, reqID := 0 }).setWorker i (some (k, .sending))).Pending k' j := by
    rintro k' ⟨j, hj⟩
    exact ⟨j, hj.setWorker (.inr ⟨_, hi⟩) (hfree k' ⟨j, hj⟩)⟩
  have hworker : ∀ k' j w, Function.update s.workers i (some (k, .sending)) j = some (k', w) →
      w ≠ .sending → j ≠ i ∧ s.workers j = some (k', w) := by
    intro k' j w hj hw
    by_cases hji : j = i
    · simp_all
    simp_all
  refine { h with
    busy := ?_
    raw := fun k' hraw => hpending k' (h.raw k' ((hsame k').1 ▸ hraw))
    flag := fun k' hflag => hpending k' (h.flag k' ((hsame k').2 ▸ hflag))
    holds := fun k' hholds => hpending k' (h.holds k' hholds)
    wakes := fun k' hmain => (hsame k').1.trans (h.wakes k' hmain)
    created := fun k' j hj => ?_
    waiting := fun k' j expire hj => ?_
    given := fun k' hflag hraw => ?_
    calls := fun c hc => ?_
    counter := fun j hj => ?_
    held := fun m hm => ?_
    conserved := fun raw => ?_ }
  · rintro k' j ⟨w, hj, hw⟩
    obtain ⟨hji, hold⟩ := hworker k' j w hj hw
    have hk : k' ≠ k := by
      intro hk
      rw [hk] at hold
      exact hji (h.unique_busy ⟨w, hold, hw⟩ ⟨_, hi, nofun⟩)
    exact (congrArg NiSession.reqID (hother k' hk)).trans (h.busy k' j ⟨w, hold, hw⟩)
  · obtain ⟨-, hj⟩ := hworker k' j _ hj nofun
    obtain ⟨q, hq, hqid, hqserves, hleft, harrived⟩ := h.created k' j hj
    refine ⟨q, hq, hqid, fun raw hraw => hqserves raw ((hsame k').1 ▸ hraw), ?_, harrived⟩
    exact (congrArg NiSession.respTimeLeft (hother k' (hfree k' ⟨j, .inl hj⟩))).trans hleft
  · obtain ⟨-, hj⟩ := hworker k' j _ hj nofun
    obtain ⟨q, hq, hqid, hqserves, hlate⟩ := h.waiting k' j expire hj
    exact ⟨q, hq, hqid, fun raw hraw => hqserves raw ((hsame k').1 ▸ hraw), hlate⟩
  · have hk := hfree k' (h.flag k' ((hsame k').2 ▸ hflag))
    have hgiven := h.given k' ((hsame k').2 ▸ hflag) ((hsame k').1 ▸ hraw)
    rw [← hother k' hk] at hgiven
    exact hgiven
  · obtain ⟨hheard, hid⟩ := h.calls c hc
    have hk := hfree _ (h.holds _ (.inr ⟨c, hc, c.2.holds_target⟩))
    exact ⟨hheard, (congrArg NiSession.reqID (hother _ hk)).trans hid⟩
  · by_cases hji : j = i
    · exact hji ▸ h.counter i (by simp [hi])
    · simp only [setWorker, Function.update_of_ne hji] at hj
      exact h.counter j hj
  · obtain ⟨k', hm⟩ := h.held m hm
    by_cases hmi : m.worker = i
    · exact ⟨k, .inr (hmi ▸ Function.update_self _ _ _)⟩
    · refine ⟨k', ?_⟩
      simp [setWorker, setSession, hmi, hm]
  · have hold := h.conserved raw
    simp_all [freed, kept, setSession, setWorker]

theorem Inv.send (h : s.Inv) (hi : s.workers i = some (k, .sending)) :
    Inv { s.setWorker i none with
      held := s.held.filter fun m => m.worker ≠ i
      queue := s.queue ++ s.held.filter fun m => m.worker = i } := by
  have hworker : ∀ k' j w, Function.update s.workers i none j = some (k', w) →
      s.workers j = some (k', w) := by
    grind
  have hpending : ∀ k', (∃ j, s.Pending k' j) → ∃ j,
      Function.update s.workers i none j = some (k', .created) ∨
        ∃ expire, Function.update s.workers i none j = some (k', .waiting expire) := by
    rintro k' ⟨j, hj⟩
    have hji : j ≠ i := by
      rintro rfl
      rcases hj with hj | ⟨expire, hj⟩ <;>
        · rw [hi] at hj
          cases hj
    refine ⟨j, ?_⟩
    rw [Function.update_of_ne hji]
    exact hj
  refine { h with
    busy := fun k' j ⟨w, hj, hw⟩ => h.busy k' j ⟨w, hworker k' j w hj, hw⟩
    raw := fun k' hraw => hpending k' (h.raw k' hraw)
    flag := fun k' hflag => hpending k' (h.flag k' hflag)
    holds := fun k' hholds => hpending k' (h.holds k' hholds)
    created := fun k' j hj => h.created k' j (hworker k' j _ hj)
    waiting := fun k' j expire hj => h.waiting k' j expire (hworker k' j _ hj)
    counter := fun j hj => h.counter j fun hnone => ?_
    carried := fun m hm => h.carried m ?_
    held := fun m hm => ?_
    conserved := fun raw => ?_ }
  · obtain ⟨⟨k', w⟩, hw⟩ := Option.ne_none_iff_exists'.mp hj
    rw [hworker k' j w hw] at hnone
    cases hnone
  · simp only [List.mem_append, List.mem_filter] at hm ⊢
    tauto
  · obtain ⟨hm, hne⟩ := List.mem_filter.mp hm
    simp [setWorker, of_decide_eq_true, hne, h.held, hm]
  · have hold := h.conserved raw
    have hsplit : (s.held.filter fun m => m.worker = i).map InformNiResponse.mPayload ++
        (s.held.filter fun m => m.worker ≠ i).map InformNiResponse.mPayload |>.Perm
          (s.held.map InformNiResponse.mPayload) := by
      have hperm := List.filter_append_perm (fun m : InformNiResponse => m.worker = i) s.held
      simpa using hperm.map InformNiResponse.mPayload
    grind [freed, kept, setWorker]

theorem Inv.finish (h : s.Inv) (i : Nat) : (s.finish i).Inv := by
  unfold NiState.finish
  split
  · rename_i k hi
    exact h.clear hi
  · rename_i k hi
    exact h.send hi
  · exact h

theorem Inv.refuse (h : s.Inv) (hraw : raw ∉ s.arrived) :
    Inv { s with arrived := raw :: s.arrived, refused := raw :: s.refused } := by
  refine { h with
    request := fun q hq => ?_
    refused := fun old hold => ?_
    conserved := fun old => ?_
    nodup := List.nodup_cons.mpr ⟨hraw, h.nodup⟩ }
  · obtain ⟨harrived, hrefused⟩ := h.request q hq
    grind
  · exact (List.mem_cons.mp hold).elim (fun heq => heq ▸ List.mem_cons_self)
      fun hold => List.mem_cons_of_mem _ (h.refused old hold)
  · have hold := h.conserved old
    simp only [freed, kept, List.count_append, List.map_append, List.count_cons] at hold ⊢
    omega

theorem Inv.accept {timeLeft : Int} (h : s.Inv) (hraw : raw ∉ s.arrived)
    (hmain : s.main = .idle) (hfree : (s.sessions k).rawRequest = none)
    (hcleared : ∀ i, ¬ s.Busy k i) :
    Inv { (s.setSession k { s.sessions k with
        rawRequest := some raw
        reqID := s.reqIDCounter + 1
        respTimeLeft := timeLeft }).setWorker (s.reqIDCounter + 1) (some (k, .created)) with
      arrived := raw :: s.arrived
      reqIDCounter := s.reqIDCounter + 1
      requests := ⟨raw, s.reqIDCounter + 1, timeLeft, s.clock⟩ :: s.requests } := by
  have hnone : ∀ k', (∃ j, s.Pending k' j) → k' ≠ k := by
    rintro k' ⟨j, hj⟩ rfl
    exact hcleared j hj.busy
  have hfresh : s.workers (s.reqIDCounter + 1) = none := by
    by_contra hsome
    exact absurd (h.counter _ hsome) (by omega)
  have hother : ∀ k', k' ≠ k → ∀ session, Function.update s.sessions k session k' =
      s.sessions k' := fun k' hk session => Function.update_of_ne hk _ _
  have hworker : ∀ k' j w, Function.update s.workers (s.reqIDCounter + 1) (some (k, .created)) j =
      some (k', w) → j = s.reqIDCounter + 1 ∧ k' = k ∧ w = .created ∨
        s.workers j = some (k', w) := by
    grind
  have hpending : ∀ k', (∃ j, s.Pending k' j) → ∃ j,
      Function.update s.workers (s.reqIDCounter + 1) (some (k, .created)) j =
        some (k', .created) ∨ ∃ expire, Function.update s.workers (s.reqIDCounter + 1)
          (some (k, .created)) j = some (k', .waiting expire) := by
    rintro k' ⟨j, hj⟩
    exact ⟨j, hj.setWorker (.inl hfresh) (hnone k' ⟨j, hj⟩)⟩
  have hkept : ∀ k' w j, s.workers j = some (k', w) → w ≠ .sending → k' ≠ k := by
    rintro k' w j hj hw rfl
    exact hcleared j ⟨w, hj, hw⟩
  constructor
  case busy =>
    rintro k' j ⟨w, hj, hw⟩
    rcases hworker k' j w hj with ⟨rfl, rfl, -⟩ | hj
    · simp only [setWorker, setSession, Function.update_self]
    · exact (congrArg NiSession.reqID (hother k' (hkept k' w j hj hw) _)).trans
        (h.busy k' j ⟨w, hj, hw⟩)
  case raw =>
    intro k' hraw'
    by_cases hk : k' = k
    · exact ⟨s.reqIDCounter + 1, .inl (hk ▸ Function.update_self _ _ _)⟩
    · exact hpending k' (h.raw k' (by
        simp_all [setWorker, setSession]))
  case flag =>
    intro k' hflag
    have hk : k' ≠ k := by
      rintro rfl
      simp only [setWorker, setSession, Function.update_self] at hflag
      exact hnone k' (h.flag k' hflag) rfl
    simp only [setWorker, setSession, Function.update_of_ne hk] at hflag
    exact hpending k' (h.flag k' hflag)
  case holds => exact fun k' hholds => hpending k' (h.holds k' hholds)
  case wakes =>
    intro k' hwaking
    exact absurd (hmain.symm.trans hwaking) nofun
  case created =>
    intro k' j hj
    rcases hworker k' j _ hj with ⟨rfl, rfl, -⟩ | hj
    · refine ⟨_, List.mem_cons_self, rfl, fun raw' hraw' => ?_, ?_, Int.le_refl _⟩
      · simp_all [setWorker, setSession]
      · simp only [setWorker, setSession, Function.update_self]
    · have hk := hkept k' _ j hj nofun
      obtain ⟨q, hq, hqid, hqserves, hleft, harrived⟩ := h.created k' j hj
      refine ⟨q, List.mem_cons_of_mem _ hq, hqid, fun raw' hraw' => hqserves raw' ?_, ?_, harrived⟩
      · simpa only [setWorker, setSession, Function.update_of_ne hk] using hraw'
      · exact (congrArg NiSession.respTimeLeft (hother k' hk _)).trans hleft
  case waiting =>
    intro k' j expire hj
    rcases hworker k' j _ hj with ⟨-, -, hw⟩ | hj
    · cases hw
    · have hk := hkept k' _ j hj nofun
      obtain ⟨q, hq, hqid, hqserves, hlate⟩ := h.waiting k' j expire hj
      refine ⟨q, List.mem_cons_of_mem _ hq, hqid, fun raw' hraw' => hqserves raw' ?_, hlate⟩
      simpa only [setWorker, setSession, Function.update_of_ne hk] using hraw'
  case given =>
    intro k' hflag hraw'
    have hk : k' ≠ k := by
      rintro rfl
      simp only [setWorker, setSession, Function.update_self] at hflag
      exact hnone k' (h.flag k' hflag) rfl
    simp only [setWorker, setSession, Function.update_of_ne hk] at hflag hraw' ⊢
    exact h.given k' hflag hraw'
  case calls =>
    intro c hc
    obtain ⟨hheard, hid⟩ := h.calls c hc
    have hk := hnone _ (h.holds _ (.inr ⟨c, hc, c.2.holds_target⟩))
    exact ⟨hheard, (congrArg NiSession.reqID (hother _ hk _)).trans hid⟩
  case counter =>
    intro j hj
    by_cases hji : j = s.reqIDCounter + 1
    · exact Nat.le_of_eq hji
    · simp only [setWorker, setSession, Function.update_of_ne hji] at hj
      exact Nat.le_succ_of_le (h.counter j hj)
  case carried =>
    intro m hm
    obtain ⟨q, hq, hcarries⟩ := h.carried m hm
    exact ⟨q, List.mem_cons_of_mem _ hq, hcarries⟩
  case held =>
    intro m hm
    obtain ⟨k', hm⟩ := h.held m hm
    have hne : m.worker ≠ s.reqIDCounter + 1 := by
      intro heq
      simp_all
    refine ⟨k', ?_⟩
    simp [setWorker, setSession, hne, hm]
  case request =>
    intro q hq
    rcases List.mem_cons.mp hq with rfl | hq
    · exact ⟨List.mem_cons_self, fun hrefused => hraw (h.refused raw hrefused)⟩
    · obtain ⟨harrived, hrefused⟩ := h.request q hq
      exact ⟨List.mem_cons_of_mem _ harrived, hrefused⟩
  case refused => exact fun old hold => List.mem_cons_of_mem _ (h.refused old hold)
  case unique =>
    intro q hq q' hq' hsame
    rcases List.mem_cons.mp hq with rfl | hq
    · rcases List.mem_cons.mp hq' with rfl | hq'
      · rfl
      · have hsame : raw = q'.raw := hsame
        exact absurd (hsame ▸ (h.request q' hq').1) hraw
    · rcases List.mem_cons.mp hq' with rfl | hq'
      · have hsame : q.raw = raw := hsame
        exact absurd (hsame ▸ (h.request q hq).1) hraw
      · exact h.unique q hq q' hq' hsame
  case conserved =>
    intro old
    have hold := h.conserved old
    have hraws := count_raws s.sessions k { s.sessions k with
      rawRequest := some raw
      reqID := s.reqIDCounter + 1
      respTimeLeft := timeLeft } old
    simp only [freed, kept, setSession, setWorker, List.count_append, List.map_append, hfree,
      Option.toList_none, Option.toList_some, List.count_nil, List.count_cons] at hold hraws ⊢
    omega
  case nodup => exact List.nodup_cons.mpr ⟨hraw, h.nodup⟩

theorem Inv.requestHandler {emergency : Bool} {timeout : Int} (h : s.Inv)
    (henabled : s.Enabled (.request emergency raw timeout))
    (hcleared : s.Cleared (.request emergency raw timeout)) :
    (s.requestHandler emergency raw timeout).Inv := by
  obtain ⟨hmain, hraw⟩ := henabled
  unfold NiState.requestHandler
  simp only
  split
  · exact h.refuse hraw
  · rename_i hfree
    rw [Bool.not_eq_true] at hfree
    have hfree : s.occupied emergency = false := hfree
    have hnone : (s.sessions (sessionOf emergency)).rawRequest = none := by
      unfold occupied at hfree
      unfold sessionOf
      cases emergency with
      | true => simpa using hfree
      | false => simpa using (Bool.or_eq_false_iff.mp hfree).1
    have hidle : ∀ i, ¬ s.Busy (sessionOf emergency) i := by
      intro i hi
      rcases hcleared with hoccupied | hcleared
      · simp_all
      · obtain ⟨w, hw, -⟩ := id hi
        exact hcleared i (h.counter i (by simp [hw])) hi
    exact h.accept hraw hmain hnone hidle

/-- A step that keeps the IDs, the time and the raw request of a session keeps what concerns its
workers. Here it sets a response. -/
theorem Inv.setResp (h : s.Inv) {calls : List (Nat × Respond)} {main : Main}
    (hpending : ∃ i, s.Pending k i)
    (hholds : ∀ k', NiState.Holds { s with calls, main } k' → s.Holds k')
    (hwakes : ∀ k', main = .waking k' → (s.sessions k').rawRequest = none)
    (hcalls : ∀ c ∈ calls, c.2.target.2 ∈ s.heard ∧
      (s.sessions c.2.target.1).reqID = c.2.target.2.1)
    (hgiven : (s.sessions k).rawRequest ≠ none →
      resp = responseIgnore ∨ ((s.sessions k).reqID, resp) ∈ s.heard) :
    Inv { s.setSession k { s.sessions k with resp := resp, respRecvd := true } with
      calls, main } := by
  have hsame : ∀ k', (Function.update s.sessions k
      { s.sessions k with resp := resp, respRecvd := true } k').rawRequest =
        (s.sessions k').rawRequest ∧
      (Function.update s.sessions k
        { s.sessions k with resp := resp, respRecvd := true } k').reqID =
        (s.sessions k').reqID ∧
      (Function.update s.sessions k
        { s.sessions k with resp := resp, respRecvd := true } k').respTimeLeft =
        (s.sessions k').respTimeLeft := by
    grind
  refine { h with
    busy := fun k' j hj => (hsame k').2.1.trans (h.busy k' j hj)
    raw := fun k' hraw => h.raw k' ((hsame k').1 ▸ hraw)
    flag := fun k' hflag => ?_
    holds := fun k' hk => h.holds k' (hholds k' hk)
    wakes := fun k' hmain => (hsame k').1.trans (hwakes k' hmain)
    created := fun k' j hj => ?_
    waiting := fun k' j expire hj => ?_
    given := fun k' hflag hraw => ?_
    calls := fun c hc => ?_
    conserved := fun raw => ?_ }
  · by_cases hk : k' = k
    · exact hk ▸ hpending
    · simp only [setSession, Function.update_of_ne hk] at hflag
      exact h.flag k' hflag
  · obtain ⟨q, hq, hqid, hqserves, hleft, harrived⟩ := h.created k' j hj
    exact ⟨q, hq, hqid, fun raw hraw => hqserves raw ((hsame k').1 ▸ hraw),
      (hsame k').2.2.trans hleft, harrived⟩
  · obtain ⟨q, hq, hqid, hqserves, hlate⟩ := h.waiting k' j expire hj
    exact ⟨q, hq, hqid, fun raw hraw => hqserves raw ((hsame k').1 ▸ hraw), hlate⟩
  · by_cases hk : k' = k
    · simp_all [setSession]
    · simp only [setSession, Function.update_of_ne hk] at hflag hraw ⊢
      exact h.given k' hflag hraw
  · obtain ⟨hheard, hid⟩ := hcalls c hc
    exact ⟨hheard, (hsame _).2.1.trans hid⟩
  · have hold := h.conserved raw
    simp_all [freed, kept, setSession]

theorem next_ne_waking {k' : SessionId} : next k ≠ .waking k' := by
  cases k with
  | sessionEs => nofun
  | session => nofun

theorem Inv.free (h : s.Inv) (hraw : (s.sessions k).rawRequest = some raw) :
    Inv { s.setSession k { s.sessions k with rawRequest := none } with
      main := .waking k
      resets := raw :: s.resets } := by
  have hself : Function.update s.sessions k { s.sessions k with rawRequest := none } k =
      { s.sessions k with rawRequest := none } := Function.update_self _ _ _
  have hother : ∀ k', k' ≠ k → Function.update s.sessions k
      { s.sessions k with rawRequest := none } k' = s.sessions k' :=
    fun k' hk => Function.update_of_ne hk _ _
  have hsame : ∀ k', (Function.update s.sessions k
      { s.sessions k with rawRequest := none } k').reqID = (s.sessions k').reqID ∧
      (Function.update s.sessions k
        { s.sessions k with rawRequest := none } k').respRecvd = (s.sessions k').respRecvd ∧
      (Function.update s.sessions k
        { s.sessions k with rawRequest := none } k').respTimeLeft =
        (s.sessions k').respTimeLeft ∧
      (Function.update s.sessions k
        { s.sessions k with rawRequest := none } k').resp = (s.sessions k').resp := by
    grind
  have hless : ∀ k' raw, (Function.update s.sessions k
      { s.sessions k with rawRequest := none } k').rawRequest = some raw →
        (s.sessions k').rawRequest = some raw := by
    grind
  have hne : ∀ k', (Function.update s.sessions k
      { s.sessions k with rawRequest := none } k').rawRequest ≠ none →
        (s.sessions k').rawRequest ≠ none := by
    grind
  have hpending := h.raw k (by simp [hraw])
  refine { h with
    busy := fun k' j hj => (hsame k').1.trans (h.busy k' j hj)
    raw := fun k' hsome => h.raw k' (hne k' hsome)
    flag := fun k' hflag => h.flag k' ((hsame k').2.1 ▸ hflag)
    holds := fun k' hholds => ?_
    wakes := fun k' hwaking => ?_
    created := fun k' j hj => ?_
    waiting := fun k' j expire hj => ?_
    given := fun k' hflag hsome => ?_
    calls := fun c hc => ?_
    conserved := fun old => ?_ }
  · rcases hholds with hwaking | hcall
    · cases hwaking
      exact hpending
    · exact h.holds k' (.inr hcall)
  · cases hwaking
    exact congrArg NiSession.rawRequest hself
  · obtain ⟨q, hq, hqid, hqserves, hleft, harrived⟩ := h.created k' j hj
    exact ⟨q, hq, hqid, fun raw hraw => hqserves raw (hless k' raw hraw),
      (hsame k').2.2.1.trans hleft, harrived⟩
  · obtain ⟨q, hq, hqid, hqserves, hlate⟩ := h.waiting k' j expire hj
    exact ⟨q, hq, hqid, fun raw hraw => hqserves raw (hless k' raw hraw), hlate⟩
  · have hgiven := h.given k' ((hsame k').2.1 ▸ hflag) (hne k' hsome)
    rw [← (hsame k').1, ← (hsame k').2.2.2] at hgiven
    exact hgiven
  · obtain ⟨hheard, hid⟩ := h.calls c hc
    exact ⟨hheard, (hsame _).1.trans hid⟩
  · have hold := h.conserved old
    have hraws := count_raws s.sessions k { s.sessions k with rawRequest := none } old
    simp only [freed, kept, setSession, List.count_append, List.map_append, hraw,
      Option.toList_none, Option.toList_some, List.count_nil, List.count_cons] at hold hraws ⊢
    omega

theorem Inv.reset (h : s.Inv) : s.reset.Inv := by
  unfold NiState.reset
  split
  · exact h
  · split
    · refine { h with
        holds := fun k' hholds => h.holds k' ?_
        wakes := fun k' hwaking => absurd hwaking next_ne_waking }
      exact .inr (hholds.resolve_left next_ne_waking)
    · rename_i raw hraw
      exact h.free hraw
  · rename_i k hmain
    have hpending := h.holds k (.inl hmain)
    have hnone := h.wakes k hmain
    exact h.setResp hpending (fun k' hholds => .inr (hholds.resolve_left next_ne_waking))
      (fun k' hwaking => absurd hwaking next_ne_waking) h.calls fun hraw => absurd hnone hraw

theorem Inv.hear {call id : Nat} {found : Respond} (h : s.Inv)
    (hholds : ∀ k, found.Holds k → (s.sessions k).rawRequest ≠ none)
    (htarget : found.target.2 = (id, resp)) (hid : (s.sessions found.target.1).reqID = id) :
    Inv { s with calls := (call, found) :: s.calls, heard := (id, resp) :: s.heard } := by
  refine { h with
    holds := fun k' hk => ?_
    given := fun k' hflag hraw => (h.given k' hflag hraw).imp_right fun hmem =>
      List.mem_cons_of_mem _ hmem
    calls := fun c hc => ?_
    carried := fun m hm => ?_ }
  · rcases hk with hwaking | ⟨c, hc, hk⟩
    · exact h.holds k' (.inl hwaking)
    · rcases List.mem_cons.mp hc with rfl | hc
      · exact h.raw k' (hholds k' hk)
      · exact h.holds k' (.inr ⟨c, hc, hk⟩)
  · rcases List.mem_cons.mp hc with rfl | hc
    · exact ⟨htarget ▸ List.mem_cons_self, hid.trans (congrArg Prod.fst htarget).symm⟩
    simp [h.calls, hc]
  · obtain ⟨q, hq, hraw, hqid, hresp⟩ := h.carried m hm
    exact ⟨q, hq, hraw, hqid, hresp.imp_left fun hmem => List.mem_cons_of_mem _ hmem⟩

theorem Inv.respond (h : s.Inv) (call id : Nat) (resp : Int) : (s.respond call id resp).Inv := by
  unfold NiState.respond
  simp only
  split
  · rename_i hes
    have hsome : (s.sessions .sessionEs).rawRequest ≠ none := Option.isSome_iff_ne_none.mp hes.2
    split
    · rename_i haccept
      refine h.hear (fun k _ => ?_) rfl hes.1.symm
      cases k with
      | sessionEs => exact hsome
      | session => exact Option.isSome_iff_ne_none.mp haccept.2
    · refine h.hear (fun k hk => ?_) rfl hes.1.symm
      cases hk
      exact hsome
  · split
    · rename_i hnormal
      refine h.hear (fun k hk => ?_) rfl hnormal.1.symm
      cases hk
      exact Option.isSome_iff_ne_none.mp hnormal.2
    · exact h

theorem Inv.lock (h : s.Inv) (call : Nat) : (s.lock call).Inv := by
  have hrest : ∀ c ∈ s.calls.filter fun c => c.1 ≠ call, c ∈ s.calls :=
    fun c hc => (List.mem_filter.mp hc).1
  unfold NiState.lock
  split
  · exact h
  · rename_i id resp hfind
    have hmem := List.mem_of_find?_eq_some hfind
    refine h.setResp (h.holds _ (.inr ⟨_, hmem, trivial⟩)) (fun k' hk => ?_) h.wakes
      (fun c hc => ?_) fun _ => .inl rfl
    · rcases hk with hwaking | ⟨c, hc, hk⟩
      · exact .inl hwaking
      · rcases List.mem_cons.mp hc with rfl | hc
        · exact .inr ⟨_, hmem, trivial⟩
        · exact .inr ⟨c, hrest c hc, hk⟩
    · rcases List.mem_cons.mp hc with rfl | hc
      · have hcall := h.calls _ hmem
        exact hcall
      · exact h.calls c (hrest c hc)
  · rename_i k id resp hfind
    have hmem := List.mem_of_find?_eq_some hfind
    obtain ⟨hheard, hid⟩ := h.calls _ hmem
    refine h.setResp (h.holds _ (.inr ⟨_, hmem, rfl⟩)) (fun k' hk => ?_) h.wakes
      (fun c hc => h.calls c (hrest c hc)) fun _ => .inr ?_
    · exact hk.imp_right fun ⟨c, hc, hk⟩ => ⟨c, hrest c hc, hk⟩
    · have hid : (s.sessions k).reqID = id := hid
      rw [hid]
      exact hheard

theorem Inv.deliver (h : s.Inv) : s.deliver.Inv := by
  unfold NiState.deliver
  split
  · exact h
  · rename_i m queue hqueue
    refine { h with
      carried := fun m' hm' => h.carried m' ?_
      conserved := fun raw => ?_ }
    · rw [hqueue]
      simp only [List.mem_append, List.mem_cons] at hm' ⊢
      tauto
    · have hold := h.conserved raw
      grind [freed, kept]

theorem Inv.tick (h : s.Inv) (seconds : Nat) : Inv { s with clock := s.clock + seconds } := by
  refine { h with created := fun k j hj => ?_ }
  obtain ⟨q, hq, hqid, hqserves, hleft, harrived⟩ := h.created k j hj
  refine ⟨q, hq, hqid, hqserves, hleft, ?_⟩
  show q.arrived ≤ s.clock + seconds
  omega

theorem inv_invariant : quietSystem.Invariant Inv := by
  constructor
  · intro s hinit
    obtain ⟨hrequests, harrived, hheard, hrefused, hresets, hignored⟩ := hinit.history
    obtain ⟨hheld, hqueue, hinformed⟩ := hinit.messages
    have hworkers := hinit.workers
    have hraw : ∀ k, (s.sessions k).rawRequest = none := fun k => (hinit.sessions k).2.1
    have hflag : ∀ k, (s.sessions k).respRecvd = false := fun k => (hinit.sessions k).1
    constructor
    case busy => exact fun k i ⟨w, hw, _⟩ => by simp [hworkers] at hw
    case raw => exact fun k hsome => absurd (hraw k) hsome
    case flag => exact fun k htrue => by simp [hflag] at htrue
    case holds =>
      rintro k (hwaking | ⟨c, hc, -⟩)
      · rw [hinit.main] at hwaking
        cases hwaking
      · rw [hinit.calls] at hc
        cases hc
    case wakes => exact fun k _ => hraw k
    case created => exact fun k i hw => by simp [hworkers] at hw
    case waiting => exact fun k i expire hw => by simp [hworkers] at hw
    case given => exact fun k htrue _ => by simp [hflag] at htrue
    case calls => simp [hinit.calls]
    case counter => exact fun i hw => absurd (hworkers i) hw
    case carried => simp [hheld, hqueue, hinformed]
    case held => simp [hheld]
    case request => simp [hrequests]
    case refused => simp [hrefused]
    case unique => simp [hrequests]
    case conserved =>
      simp_all [freed, kept]
    case nodup => simp [harrived]
  · rintro s op s' h ⟨⟨hcleared, hquiet⟩, henabled, rfl⟩
    cases op with
    | request emergency raw timeout => exact h.requestHandler henabled hcleared
    | restart =>
      refine { h with
        holds := fun k hholds => h.holds k (hholds.imp_left nofun)
        wakes := nofun }
    | reset => exact h.reset
    | respond call id resp => exact h.respond call id resp
    | lock call => exact h.lock call
    | start i => exact h.start hquiet
    | wake i => exact h.wake hquiet
    | timeout i => exact h.timeout hquiet
    | finish i => exact h.finish i
    | deliver => exact h.deliver
    | tick seconds => exact h.tick seconds

/-! ## Answers -/

theorem Inv.perm (h : s.Inv) : (s.freed ++ s.kept).Perm s.arrived := by
  simp [List.perm_iff_count, h.conserved]

theorem Inv.fresh (h : s.Inv) (hfree : ∀ i, ¬ s.Busy k i) : (s.sessions k).respRecvd = false ∧
    (s.sessions k).rawRequest = none ∧ ¬ s.Holds k := by
  have hnone : ¬ ∃ i, s.Pending k i := fun ⟨i, hi⟩ => hfree i hi.busy
  refine ⟨?_, ?_, fun hholds => hnone (h.holds k hholds)⟩
  · by_contra hflag
    exact hnone (h.flag k (by simpa using hflag))
  · by_contra hraw
    exact hnone (h.raw k hraw)

theorem Inv.answered {q : NiRequest} (h : s.Inv) (hq : q ∈ s.requests) (hresets : q.raw ∉ s.resets)
    (hignored : q.raw ∉ s.ignored) :
    (∃ m ∈ s.queue ++ s.informed, m.mPayload = q.raw) ∨ s.workers q.id ≠ none := by
  obtain ⟨harrived, hrefused⟩ := h.request q hq
  -- a session or a message that has the raw request belongs to the worker of the request
  have hworker : ∀ k, (s.sessions k).rawRequest = some q.raw → s.workers q.id ≠ none := by
    intro k hraw
    obtain ⟨i, hi⟩ := h.raw k (by simp [hraw])
    have hserved : ∃ q' ∈ s.requests, q'.id = i ∧ s.Serves k q' := by
      rcases hi with hi | ⟨expire, hi⟩
      · obtain ⟨q', hq', hid, hserves, -⟩ := h.created k i hi
        exact ⟨q', hq', hid, hserves⟩
      · obtain ⟨q', hq', hid, hserves, -⟩ := h.waiting k i expire hi
        exact ⟨q', hq', hid, hserves⟩
    obtain ⟨q', hq', hid, hserves⟩ := hserved
    rw [h.unique q hq q' hq' (hserves q.raw hraw), hid]
    obtain ⟨w, hw, -⟩ := hi.busy
    simp [hw]
  have hmem : q.raw ∈ s.freed ++ s.kept := h.perm.mem_iff.mpr harrived
  simp only [freed, kept, List.mem_append, List.mem_map, Option.mem_toList] at hmem
  rcases hmem with (((hmem | hmem) | hmem) | ⟨m, hm, hraw⟩) | (hmem | hmem) | ⟨m, hm, hraw⟩
  · exact absurd hmem hrefused
  · exact absurd hmem hresets
  · exact absurd hmem hignored
  · exact .inl ⟨m, List.mem_append_right _ hm, hraw⟩
  · exact .inr (hworker _ hmem)
  · exact .inr (hworker _ hmem)
  · rcases hm with hm | hm
    · obtain ⟨q', hq', hsame, hid, -⟩ := h.carried m
        (List.mem_append_left _ (List.mem_append_left _ hm))
      obtain ⟨k, hw⟩ := h.held m hm
      rw [h.unique q hq q' hq' (hraw.symm.trans hsame.symm), hid]
      rcases hw with hw | hw <;> simp [hw]
    · exact .inl ⟨m, List.mem_append_left _ hm, hraw⟩

theorem Inv.answers (h : s.Inv) : s.Answers where
  carries m hm := by
    simp [h.carried, hm]
  once := by
    have hnodup := h.perm.nodup_iff.mpr h.nodup
    refine List.nodup_iff_count_le_one.mpr fun raw => ?_
    have hcount := List.nodup_iff_count_le_one.mp hnodup raw
    simp only [freed, kept, List.count_append, List.map_append] at hcount ⊢
    omega
  answered q hq hresets hignored := h.answered hq hresets hignored
  freedOnce := ⟨h.perm, h.nodup⟩
  fresh k hfree := h.fresh hfree

instance (s : NiState) (k : SessionId) (i : Nat) : Decidable (s.Busy k i) :=
  decidable_of_iff ((s.workers i).any (fun w => w.1 = k ∧ w.2 ≠ .sending) = true) (by
    unfold Busy
    cases s.workers i with
    | none => simp
    | some w =>
      obtain ⟨k', w⟩ := w
      simp only [Option.any_some, decide_eq_true_eq, Option.some.injEq, Prod.mk.injEq]
      exact ⟨fun ⟨hk, hw⟩ => ⟨w, ⟨hk, rfl⟩, hw⟩, fun ⟨w', ⟨hk, hw'⟩, hw⟩ => ⟨hk, hw' ▸ hw⟩⟩)

instance (k : SessionId) : (c : Respond) → Decidable (c.Holds k)
  | .ignoring _ _ => .isTrue trivial
  | .setting k' _ _ => inferInstanceAs (Decidable (k' = k))

instance (s : NiState) (k : SessionId) : Decidable (s.Holds k) :=
  inferInstanceAs (Decidable (_ ∨ ∃ c ∈ s.calls, c.2.Holds k))

instance (s : NiState) : (op : Op) → Decidable (s.Cleared op)
  | .request emergency _ _ => inferInstanceAs (Decidable (s.occupied emergency = true ∨
    ∀ i ≤ s.reqIDCounter, ¬ s.Busy (sessionOf emergency) i))
  | .restart => .isTrue trivial
  | .reset => .isTrue trivial
  | .respond _ _ _ => .isTrue trivial
  | .lock _ => .isTrue trivial
  | .start _ => .isTrue trivial
  | .wake _ => .isTrue trivial
  | .timeout _ => .isTrue trivial
  | .finish _ => .isTrue trivial
  | .deliver => .isTrue trivial
  | .tick _ => .isTrue trivial

instance (s : NiState) (op : Op) : Decidable (s.Quiet op) :=
  inferInstanceAs (Decidable (_ ∧ ∀ k ∈ s.takes op, ¬ s.Holds k))

instance (s : NiState) : (op : Op) → Decidable (s.Enabled op)
  | .request _ passThrough _ => inferInstanceAs (Decidable (_ ∧ passThrough ∉ s.arrived))
  | .restart => inferInstanceAs (Decidable (_ = _))
  | .deliver => inferInstanceAs (Decidable (_ = _))
  | .reset => .isTrue trivial
  | .respond _ _ _ => .isTrue trivial
  | .lock _ => .isTrue trivial
  | .start _ => .isTrue trivial
  | .wake _ => .isTrue trivial
  | .timeout _ => .isTrue trivial
  | .finish _ => .isTrue trivial
  | .tick _ => .isTrue trivial

def inited : NiState where
  sessions _ := ⟨0, false, none, 0, 0⟩
  reqIDCounter := 0
  main := .idle
  calls := []
  workers _ := none
  held := []
  queue := []
  informed := []
  clock := 0
  requests := []
  arrived := []
  heard := []
  refused := []
  resets := []
  ignored := []

theorem initial_inited : inited.Initial :=
  ⟨fun _ => ⟨rfl, rfl, rfl⟩, rfl, rfl, fun _ => rfl, ⟨rfl, rfl, rfl⟩, rfl, rfl, rfl, rfl, rfl, rfl⟩

def acceptedAndLate : List Op :=
  [.request false 7 0, .start 1, .respond 0 1 responseAccept, .lock 0, .wake 1, .finish 1,
    .finish 1, .request false 8 0, .start 2, .tick 25, .timeout 2, .finish 2, .finish 2]

end NiState

end EtherDevice.Ni
