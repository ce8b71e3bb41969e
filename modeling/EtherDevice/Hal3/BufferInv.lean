import EtherDevice.Hal3.Bookkeeping

/-!
# The buffers of a session

Every requested buffer was returned or is held, each of them once. A buffer in the map is
owed a callback, or waits with its request for the metadata of its frame, or belongs to a
request that a flush found. This file has the invariant (`BufInv`), and shows that accepted
requests and buffer callbacks keep it.
-/

namespace EtherDevice.Hal3

variable {s s' : Session} {h h' : Hwi}

structure RequestsInv (P : List PendingRequestInfo) (owed : List PendingBufferInfo)
    (awaiting : List Nat) : Prop where
  sorted : (P.map PendingRequestInfo.frameNumber).Pairwise (· < ·)
  awaiting : ∀ i ∈ P, i.frameNumber ∈ awaiting
  slots : ∀ i ∈ P, i.inputBuffer = none → ∀ st,
    i.buffers.countP (fun j => j.stream = st) ≤ 1 →
      owed.countP (fun k => k.frameNumber = i.frameNumber ∧ k.stream = st) ≤
        i.buffers.countP fun j => j.stream = st ∧ j.buffer = none
  unstored : ∀ i ∈ P, i.inputBuffer.isSome → i.stored = []

structure BufInv (s : Session) : Prop where
  requests : RequestsInv s.hwi.pendingRequestsList s.owed s.awaiting
  requested : s.requested.Nodup
  account : s.requested.Perm (s.hwi.returned ++ s.hwi.held)
  handles : (s.hwi.held.map Prod.snd).Nodup
  parts : s.hwi.pendingKeys.Perm
    (s.owed.map PendingBufferInfo.key ++ (s.hwi.storedKeys ++ s.idle))
  cached : ∀ c ∈ s.hwi.pendingReprocessResultList, ∃ i ∈ s.hwi.pendingRequestsList,
    i.frameNumber = c.frameNumber ∧ i.inputBuffer.isSome
  requestedAccepted : ∀ x ∈ s.requested, x.1 ∈ s.accepted
  awaitingAccepted : ∀ n ∈ s.awaiting, n ∈ s.accepted
  calledAccepted : ∀ x ∈ s.called, x.1 ∈ s.accepted
  calledOnce : ∀ x ∈ s.called, x ∉ s.owed.map PendingBufferInfo.key ∧ x ∉ s.idle

theorem bufInv_start : BufInv Session.start where
  requests := ⟨.nil, by simp [Session.start], by simp [Session.start], by simp [Session.start]⟩
  requested := .nil
  account := .nil
  handles := .nil
  parts := .nil
  cached := by simp [Session.start]
  requestedAccepted := by simp [Session.start]
  awaitingAccepted := by simp [Session.start]
  calledAccepted := by simp [Session.start]
  calledOnce := by simp [Session.start]

theorem RequestsInv.sublist {P P' : List PendingRequestInfo} {owed owed' : List PendingBufferInfo}
    {awaiting : List Nat} (inv : RequestsInv P owed awaiting) (hP : P'.Sublist P)
    (howed : owed'.Sublist owed) : RequestsInv P' owed' awaiting where
  sorted := inv.sorted.sublist (hP.map _)
  awaiting i hi := inv.awaiting i (hP.subset hi)
  slots i hi hin st hst :=
    Nat.le_trans howed.countP_le (inv.slots i (hP.subset hi) hin st hst)
  unstored i hi := inv.unstored i (hP.subset hi)

theorem RequestsInv.core {P P' : List PendingRequestInfo} {owed : List PendingBufferInfo}
    {awaiting : List Nat} (inv : RequestsInv P owed awaiting)
    (hcore : P'.map PendingRequestInfo.core = P.map PendingRequestInfo.core) :
    RequestsInv P' owed awaiting where
  sorted := by
    rw [frames_of_core hcore]
    exact inv.sorted
  awaiting := forall_of_core (fun i => i.frameNumber ∈ awaiting) hcore inv.awaiting
  slots := forall_of_core
    (fun i => i.inputBuffer = none → ∀ st, i.buffers.countP (fun j => j.stream = st) ≤ 1 →
      owed.countP (fun k => k.frameNumber = i.frameNumber ∧ k.stream = st) ≤
        i.buffers.countP fun j => j.stream = st ∧ j.buffer = none) hcore inv.slots
  unstored := forall_of_core (fun i => i.inputBuffer.isSome → i.stored = []) hcore inv.unstored

theorem BufInv.congr (inv : BufInv s)
    (hP : h.pendingRequestsList.map PendingRequestInfo.core =
      s.hwi.pendingRequestsList.map PendingRequestInfo.core)
    (hmap : h.pendingBuffersMap = s.hwi.pendingBuffersMap)
    (hC : h.pendingReprocessResultList = s.hwi.pendingReprocessResultList)
    (hreturned : h.returned = s.hwi.returned) : BufInv { s with hwi := h } := by
  have hkeys : h.pendingKeys = s.hwi.pendingKeys := by
    unfold Hwi.pendingKeys
    rw [hmap]
  have hcached : h.cachedKeys = s.hwi.cachedKeys := by
    unfold Hwi.cachedKeys
    rw [hC]
  have hheld : h.held = s.hwi.held := by
    unfold Hwi.held
    rw [hkeys, hcached]
  refine { inv with
    requests := inv.requests.core hP
    account := ?_
    handles := ?_
    parts := ?_
    cached := ?_ }
  · show s.requested.Perm (h.returned ++ h.held)
    rw [hreturned, hheld]
    exact inv.account
  · show (h.held.map Prod.snd).Nodup
    rw [hheld]
    exact inv.handles
  · show h.pendingKeys.Perm (_ ++ (h.storedKeys ++ _))
    rw [hkeys, show h.storedKeys = s.hwi.storedKeys from storedKeys_of_core hP]
    exact inv.parts
  · intro c hc
    rw [hC] at hc
    obtain ⟨i, hi, hframe⟩ := inv.cached c hc
    grind [PendingRequestInfo.core, List.mem_map_of_mem]

theorem BufInv.owed_accepted (inv : BufInv s) {k : PendingBufferInfo} (hk : k ∈ s.owed) :
    k.frameNumber ∈ s.accepted := by
  have hkey : k.key ∈ s.hwi.pendingKeys :=
    inv.parts.mem_iff.mpr (List.mem_append_left _ (List.mem_map_of_mem hk))
  have hreq : k.key ∈ s.requested :=
    inv.account.mem_iff.mpr (List.mem_append_right _ (List.mem_append_left _ hkey))
  exact inv.requestedAccepted _ hreq

theorem BufInv.requests_accept (inv : BufInv s) {r : CaptureRequest}
    (hnew : ∀ n ∈ s.accepted, n < r.frameNumber) :
    RequestsInv (s.hwi.pendingRequestsList ++ [r.pendingRequest]) (s.accept r).owed
      (s.accept r).awaiting where
  sorted := by
    rw [List.map_append, List.pairwise_append]
    refine ⟨inv.requests.sorted, List.pairwise_singleton .., ?_⟩
    intro n hn m hm
    obtain ⟨i, hi, rfl⟩ := List.mem_map.mp hn
    obtain rfl : m = r.frameNumber := by simpa [CaptureRequest.pendingRequest] using hm
    exact hnew _ (inv.awaitingAccepted _ (inv.requests.awaiting i hi))
  awaiting i hi := by
    rcases List.mem_append.mp hi with hi | hi
    · exact List.mem_append_left _ (inv.requests.awaiting i hi)
    · obtain rfl := List.mem_singleton.mp hi
      exact List.mem_append_right _ (List.mem_singleton.mpr rfl)
  slots i hi hin st hst := by
    -- no old buffer is of the new frame, and no new one is of an old frame
    have hsplit : (s.accept r).owed.Sublist (s.owed ++ r.pendingBuffers) := by
      unfold Session.accept
      split
      · exact List.sublist_append_left ..
      · exact .refl _
    refine Nat.le_trans hsplit.countP_le ?_
    rw [List.countP_append]
    rcases List.mem_append.mp hi with hi | hi
    · have hnone : r.pendingBuffers.countP
          (fun k => k.frameNumber = i.frameNumber ∧ k.stream = st) = 0 := by
        rw [List.countP_eq_zero]
        intro k hk
        have hlt := hnew _ (inv.awaitingAccepted _ (inv.requests.awaiting i hi))
        have hframe : k.frameNumber = r.frameNumber :=
          CaptureRequest.keys_frame (List.mem_map_of_mem hk)
        simp only [decide_eq_true_eq]
        omega
      have hold := inv.requests.slots i hi hin st hst
      omega
    · obtain rfl := List.mem_singleton.mp hi
      have hnone : s.owed.countP
          (fun k => k.frameNumber = r.pendingRequest.frameNumber ∧ k.stream = st) = 0 := by
        rw [List.countP_eq_zero]
        intro k hk
        have hlt := hnew _ (inv.owed_accepted hk)
        simp only [decide_eq_true_eq]
        show ¬ (k.frameNumber = r.frameNumber ∧ _)
        omega
      simp_all [Nat.le_of_eq, CaptureRequest.pendingRequest, CaptureRequest.pendingBuffers,
        Function.comp_def]
  unstored i hi hin := by
    rcases List.mem_append.mp hi with hi | hi
    · exact inv.requests.unstored i hi hin
    · obtain rfl := List.mem_singleton.mp hi
      exact r.stored_pendingRequest

theorem bufInv_accept (inv : BufInv s) {r : CaptureRequest} (hr : r.Expected s)
    (hP : h.pendingRequestsList = s.hwi.pendingRequestsList ++ [r.pendingRequest])
    (hlist : h.pendingBuffersMap.pendingBufferList =
      s.hwi.pendingBuffersMap.pendingBufferList ++ r.pendingBuffers)
    (hC : h.pendingReprocessResultList = s.hwi.pendingReprocessResultList)
    (htrace : h.trace = s.hwi.trace) : BufInv { s.accept r with hwi := h } := by
  have hkeys : h.pendingKeys = s.hwi.pendingKeys ++ r.keys := by
    simp only [Hwi.pendingKeys, hlist, List.map_append, CaptureRequest.keys]
  have hcached : h.cachedKeys = s.hwi.cachedKeys := by
    unfold Hwi.cachedKeys
    rw [hC]
  have hheld : h.held.Perm (s.hwi.held ++ r.keys) := by
    grind [Hwi.held]
  have hstored : h.storedKeys = s.hwi.storedKeys := by
    simp [Hwi.storedKeys, PendingRequestInfo.storedKeys, hP, r.stored_pendingRequest]
  have hfresh : ∀ x ∈ r.keys, ∀ y : Nat × Nat, y.1 ∈ s.accepted → x ≠ y := by
    intro x hx y hy heq
    have hlt := hr.increasing _ hy
    rw [← heq, CaptureRequest.keys_frame hx] at hlt
    exact Nat.lt_irrefl _ hlt
  refine {
    requests := ?_, requested := ?_, account := ?_, handles := ?_, parts := ?_, cached := ?_
    requestedAccepted := ?_, awaitingAccepted := ?_, calledAccepted := ?_, calledOnce := ?_ }
  · show RequestsInv h.pendingRequestsList _ _
    rw [hP]
    exact inv.requests_accept hr.increasing
  · show (s.requested ++ r.keys).Nodup
    refine List.nodup_append.mpr ⟨inv.requested, ?_, ?_⟩
    · exact .of_map Prod.snd (by rw [r.keys_handles]; exact hr.distinct)
    · intro x hx y hy
      exact (hfresh y hy x (inv.requestedAccepted x hx)).symm
  · show (s.requested ++ r.keys).Perm (h.returned ++ h.held)
    have hreturned : h.returned = s.hwi.returned := by
      unfold Hwi.returned
      rw [htrace]
    rw [hreturned]
    refine (inv.account.append_right _).trans ?_
    rw [List.append_assoc]
    exact hheld.symm.append_left _
  · show (h.held.map Prod.snd).Nodup
    rw [(hheld.map Prod.snd).nodup_iff, List.map_append, r.keys_handles]
    refine List.nodup_append.mpr ⟨inv.handles, hr.distinct, ?_⟩
    rintro x hx y hy rfl
    obtain ⟨b, hb, rfl⟩ := List.mem_map.mp hy
    exact hr.free b hb hx
  · show h.pendingKeys.Perm (((s.accept r).owed.map _) ++ (h.storedKeys ++ (s.accept r).idle))
    rw [hkeys, hstored]
    refine (inv.parts.append_right _).trans ?_
    unfold Session.accept
    split
    · rw [List.append_assoc, List.append_assoc]
      exact .refl _
    · rw [List.map_append, List.append_assoc, List.append_assoc (s.owed.map _)]
      exact List.perm_append_comm.append_left _
  · show ∀ c ∈ h.pendingReprocessResultList, ∃ i ∈ h.pendingRequestsList, _
    rw [hC, hP]
    intro c hc
    simp [inv.cached, hc]
  · show ∀ x ∈ s.requested ++ r.keys, x.1 ∈ s.accepted ++ [r.frameNumber]
    intro x hx
    rcases List.mem_append.mp hx with hx | hx
    · exact List.mem_append_left _ (inv.requestedAccepted x hx)
    · rw [CaptureRequest.keys_frame hx]
      exact List.mem_append_right _ (List.mem_singleton.mpr rfl)
  · show ∀ n ∈ s.awaiting ++ [r.frameNumber], n ∈ s.accepted ++ [r.frameNumber]
    intro n hn
    rcases List.mem_append.mp hn with hn | hn
    · exact List.mem_append_left _ (inv.awaitingAccepted n hn)
    · exact List.mem_append_right _ hn
  · intro x hx
    exact List.mem_append_left _ (inv.calledAccepted x hx)
  · show ∀ x ∈ s.called, x ∉ (s.accept r).owed.map _ ∧ x ∉ (s.accept r).idle
    intro x hx
    have hold := inv.calledOnce x hx
    have hnew : x ∉ r.keys := by
      intro hmem
      exact hfresh x hmem x (inv.calledAccepted x hx) rfl
    unfold Session.accept
    split
    · exact ⟨hold.1, fun hmem => (List.mem_append.mp hmem).elim hold.2 hnew⟩
    · rw [List.map_append]
      exact ⟨fun hmem => (List.mem_append.mp hmem).elim hold.1 hnew, hold.2⟩

structure Returns (h h' : Hwi) (xs : List (Nat × Nat)) : Prop where
  returned : h'.returned.Perm (h.returned ++ xs)
  held : h.held.Perm (xs ++ h'.held)

theorem Returns.account {xs : List (Nat × Nat)} (hret : Returns s.hwi h xs) (inv : BufInv s) :
    s.requested.Perm (h.returned ++ h.held) := by
  refine inv.account.trans ((hret.held.append_left _).trans ?_)
  rw [← List.append_assoc]
  exact hret.returned.symm.append_right _

theorem Returns.handles {xs : List (Nat × Nat)} (hret : Returns s.hwi h xs) (inv : BufInv s) :
    (h.held.map Prod.snd).Nodup := by
  have hnd := (hret.held.map Prod.snd).nodup_iff.mp inv.handles
  rw [List.map_append] at hnd
  exact hnd.of_append_right

theorem BufInv.complete (inv : BufInv s) (l₁ : List PendingRequestInfo) (xs : List (Nat × Nat))
    {l₂ : List PendingRequestInfo} {i : PendingRequestInfo}
    (hP : s.hwi.pendingRequestsList = l₁ ++ i :: l₂) (hP' : h.pendingRequestsList = l₁ ++ l₂)
    (hret : Returns s.hwi h xs) (hkeys : s.hwi.pendingKeys.Perm (i.storedKeys ++ h.pendingKeys))
    (hC : ∀ c ∈ h.pendingReprocessResultList,
      c ∈ s.hwi.pendingReprocessResultList ∧ c.frameNumber ≠ i.frameNumber) :
    BufInv { s with hwi := h } := by
  have hsub : h.pendingRequestsList.Sublist s.hwi.pendingRequestsList := by
    simp [hP, hP']
  refine { inv with
    requests := inv.requests.sublist hsub (.refl _)
    account := hret.account inv
    handles := hret.handles inv
    parts := ?_
    cached := ?_ }
  · have hstored : s.hwi.storedKeys.Perm (i.storedKeys ++ h.storedKeys) := by
      simp [Hwi.storedKeys, List.perm_append_comm_assoc, hP, hP']
    rw [List.perm_iff_count]
    intro x
    have h₁ := hkeys.count_eq x
    have h₂ := hstored.count_eq x
    have h₃ := inv.parts.count_eq x
    simp only [List.count_append] at h₁ h₂ h₃ ⊢
    omega
  · intro c hc
    obtain ⟨hcs, hne⟩ := hC c hc
    obtain ⟨i', hi', heq, hin⟩ := inv.cached c hcs
    grind

theorem BufInv.callback (inv : BufInv s) (xs : List (Nat × Nat)) {k : PendingBufferInfo}
    (hk : k ∈ s.owed)
    (hrequests : RequestsInv h.pendingRequestsList (s.owed.erase k) s.awaiting)
    (hret : Returns s.hwi h xs)
    (hmove : (s.hwi.pendingKeys ++ h.storedKeys).Perm
      (k.key :: (h.pendingKeys ++ s.hwi.storedKeys)))
    (hcached : ∀ c ∈ h.pendingReprocessResultList, ∃ i ∈ h.pendingRequestsList,
      i.frameNumber = c.frameNumber ∧ i.inputBuffer.isSome) :
    BufInv { s with owed := s.owed.erase k, called := s.called ++ [k.key], hwi := h } := by
  have howed := (List.perm_cons_erase hk).map PendingBufferInfo.key
  rw [List.map_cons] at howed
  refine {
    requests := hrequests
    requested := inv.requested
    account := hret.account inv
    handles := hret.handles inv
    parts := ?_
    cached := hcached
    requestedAccepted := inv.requestedAccepted
    awaitingAccepted := inv.awaitingAccepted
    calledAccepted := ?_
    calledOnce := ?_ }
  · rw [List.perm_iff_count]
    intro x
    have h₁ := hmove.count_eq x
    have h₂ := howed.count_eq x
    have h₃ := inv.parts.count_eq x
    simp only [List.count_append, List.count_cons] at h₁ h₂ h₃ ⊢
    omega
  · intro x hx
    rcases List.mem_append.mp hx with hx | hx
    · exact inv.calledAccepted x hx
    · obtain rfl := List.mem_singleton.mp hx
      exact inv.owed_accepted hk
  · intro x hx
    rcases List.mem_append.mp hx with hx | hx
    · have hold := inv.calledOnce x hx
      refine ⟨fun hmem => hold.1 ?_, hold.2⟩
      exact howed.mem_iff.mpr (List.mem_cons_of_mem _ hmem)
    · obtain rfl := List.mem_singleton.mp hx
      -- the buffers in the map are distinct, and the owed and idle ones are parts of it
      have hnd : s.hwi.pendingKeys.Nodup := by
        have hhandles := inv.handles
        rw [Hwi.held, List.map_append] at hhandles
        exact .of_map _ hhandles.of_append_left
      have hparts := inv.parts.nodup_iff.mp hnd
      grind

def Hwi.KeepsRequest (h : Hwi) (b : StreamBuffer) (frameNumber : Nat) : Prop :=
  ∀ i, h.findRequest frameNumber = some i →
    if i.inputBuffer.isSome then
      (∀ j ∈ h.pendingRequestsList, ¬ j.frameNumber < frameNumber) → h.cachedFor frameNumber = []
    else i.buffers.countP (fun j => j.stream = b.stream) ≤ 1

theorem BufInv.pendingHandles (inv : BufInv s) : (s.hwi.pendingKeys.map Prod.snd).Nodup := by
  have hhandles := inv.handles
  rw [Hwi.held, List.map_append] at hhandles
  exact hhandles.of_append_left

theorem BufInv.owed_pending (inv : BufInv s) {k : PendingBufferInfo} (hk : k ∈ s.owed) :
    k.key ∈ s.hwi.pendingKeys :=
  inv.parts.mem_iff.mpr (List.mem_append_left _ (List.mem_map_of_mem hk))

theorem bufInv_buffer_direct (inv : BufInv s) {b : StreamBuffer} {n : Nat}
    (hk : ⟨n, b.stream, b.buffer⟩ ∈ s.owed) (hfind : s.hwi.findRequest n = none) (now : UInt64) :
    BufInv { s with
      owed := s.owed.erase ⟨n, b.stream, b.buffer⟩
      called := s.called ++ [(n, b.buffer)]
      hwi := s.hwi.handleBufferWithLock b n now } := by
  obtain ⟨b', drops, hreturn, hbuf⟩ := returnBuffer_eq s.hwi n b
  have htake : s.hwi.pendingKeys.Perm ((n, b.buffer) :: (s.hwi.takeBuffer b.buffer).pendingKeys) :=
    pendingKeys_takeBuffer inv.pendingHandles (inv.owed_pending hk)
  have hh : s.hwi.handleBufferWithLock b n now =
      (s.hwi.returnBuffer n b).2.emit [.processCaptureResult {
        frameNumber := n
        result := none
        outputBuffers := [(s.hwi.returnBuffer n b).1]
        partialResult := 0 }] := by
    unfold Hwi.handleBufferWithLock
    rw [hfind]
  rw [hh, hreturn]
  refine inv.callback [(n, b.buffer)] hk ?_ ?_ ?_ ?_
  · exact inv.requests.sublist (.refl _) List.erase_sublist
  · constructor
    · rw [returned_emit]
      simp only [List.flatMap_cons, List.flatMap_nil, Event.returned, List.map_cons, List.map_nil,
        hbuf]
      exact .refl _
    · exact htake.append_right _
  · exact htake.append_right _
  · exact inv.cached

theorem bufInv_buffer_reprocess (inv : BufInv s) {b : StreamBuffer} {n : Nat}
    {i : PendingRequestInfo} (hk : ⟨n, b.stream, b.buffer⟩ ∈ s.owed)
    (hfind : s.hwi.findRequest n = some i) (hin : i.inputBuffer.isSome)
    (hkeep : s.hwi.KeepsRequest b n) (now : UInt64) :
    BufInv { s with
      owed := s.owed.erase ⟨n, b.stream, b.buffer⟩
      called := s.called ++ [(n, b.buffer)]
      hwi := s.hwi.handleBufferWithLock b n now } := by
  have htake : s.hwi.pendingKeys.Perm ((n, b.buffer) :: (s.hwi.takeBuffer b.buffer).pendingKeys) :=
    pendingKeys_takeBuffer inv.pendingHandles (inv.owed_pending hk)
  have hsub : (s.owed.erase ⟨n, b.stream, b.buffer⟩).Sublist s.owed := List.erase_sublist
  have hh : s.hwi.handleBufferWithLock b n now = s.hwi.handleReprocessBuffer i b n now := by
    simp_all [Hwi.handleBufferWithLock]
  have hrule := hkeep i hfind
  rw [if_pos hin] at hrule
  obtain ⟨hi, l₁, l₂, hP, hl₁⟩ := findRequest_split hfind
  rw [hh]
  unfold Hwi.handleReprocessBuffer
  rw [takeBuffer_fields]
  dsimp only
  split
  · -- no older request is pending
    rename_i hall
    have hnone : s.hwi.cachedFor n = [] := hrule (by simpa using hall)
    have hP' := eraseRequest_split (n := n) hi hP hl₁
    have hlists : l₁ ++ l₂ = s.hwi.pendingRequestsList.eraseP
        (fun i => decide (i.frameNumber = n)) := hP'.symm
    refine inv.callback [(n, b.buffer)] hk ?_ ?_ ?_ ?_
    · exact inv.requests.sublist List.eraseP_sublist hsub
    · constructor
      · show List.Perm (List.flatMap Event.returned (s.hwi.trace ++ _)) _
        rw [List.flatMap_append]
        exact .refl _
      · exact htake.append_right _
    · have hstored : i.storedKeys = [] := by
        simp [PendingRequestInfo.storedKeys, inv.requests.unstored, hP, hin]
      have hkeys : (List.flatMap PendingRequestInfo.storedKeys (s.hwi.pendingRequestsList.eraseP
          fun i => decide (i.frameNumber = n))) = s.hwi.storedKeys := by
        grind [Hwi.storedKeys]
      show (s.hwi.pendingKeys ++ List.flatMap PendingRequestInfo.storedKeys
          (s.hwi.pendingRequestsList.eraseP fun i => decide (i.frameNumber = n))).Perm _
      rw [hkeys]
      exact htake.append_right _
    · intro c hc
      obtain ⟨i', hi', heq, hin'⟩ := inv.cached c hc
      refine ⟨i', ?_, heq, hin'⟩
      have hne : ¬ c.frameNumber = n := cachedFor_eq_nil.mp hnone c hc
      refine (List.mem_eraseP_of_neg ?_).mpr hi'
      simpa [heq] using hne
  · -- an older request is pending, so that the result waits
    refine inv.callback [] hk ?_ ?_ ?_ ?_
    · exact inv.requests.sublist (.refl _) hsub
    · constructor
      · rw [List.append_nil]
        exact .refl _
      · show (s.hwi.pendingKeys ++ s.hwi.cachedKeys).Perm
          ((s.hwi.takeBuffer b.buffer).pendingKeys ++
            (s.hwi.pendingReprocessResultList ++ [_]).map _)
        rw [List.map_append]
        refine (htake.append_right _).trans ?_
        rw [← List.append_assoc]
        exact List.perm_append_singleton .. |>.symm
    · exact htake.append_right _
    · intro c hc
      rcases List.mem_append.mp hc with hc | hc
      · exact inv.cached c hc
      grind

theorem bufInv_buffer_store (inv : BufInv s) {b : StreamBuffer} {n : Nat}
    {i : PendingRequestInfo} (hk : ⟨n, b.stream, b.buffer⟩ ∈ s.owed)
    (hfind : s.hwi.findRequest n = some i) (hin : i.inputBuffer = none)
    (hkeep : s.hwi.KeepsRequest b n) (now : UInt64) :
    BufInv { s with
      owed := s.owed.erase ⟨n, b.stream, b.buffer⟩
      called := s.called ++ [(n, b.buffer)]
      hwi := s.hwi.handleBufferWithLock b n now } := by
  have hh : s.hwi.handleBufferWithLock b n now = s.hwi.storeBuffer b n := by
    unfold Hwi.handleBufferWithLock
    simp [hfind, hin]
  have honce := hkeep i hfind
  rw [if_neg (by simp [hin])] at honce
  obtain ⟨hi, l₁, l₂, hP, hl₁⟩ := findRequest_split hfind
  have hiP : i ∈ s.hwi.pendingRequestsList := by
    rw [hP]
    simp
  -- the place of the buffer is the only one of its stream, and it is empty
  have hplace := inv.requests.slots i hiP hin b.stream honce
  have howed : 0 < s.owed.countP
      (fun k => decide (k.frameNumber = i.frameNumber ∧ k.stream = b.stream)) :=
    List.countP_pos_iff.mpr ⟨_, hk, by simp [hi]⟩
  have hle : (i.buffers.countP fun j => decide (j.stream = b.stream ∧ j.buffer = none)) ≤
      i.buffers.countP fun j => decide (j.stream = b.stream) :=
    List.countP_mono_left fun j _ hj => by simp_all
  have hone : (i.buffers.countP fun j => decide (j.stream = b.stream ∧ j.buffer = none)) = 1 := by
    omega
  rw [hh, storeBuffer_split hi hP hl₁]
  refine inv.callback [] hk ?_ ⟨(List.append_nil _).symm ▸ .refl _, .refl _⟩ ?_ ?_
  · have hsub : (l₁ ++ l₂).Sublist s.hwi.pendingRequestsList := by
      simp [hP]
    have hrest := inv.requests.sublist hsub
      (List.erase_sublist (a := ⟨n, b.stream, b.buffer⟩) (l := s.owed))
    have hcases : ∀ j ∈ l₁ ++ { i with
        buffers := i.buffers.map (RequestedBufferInfo.fill b) } :: l₂,
        j ∈ l₁ ++ l₂ ∨ j = { i with buffers := i.buffers.map (RequestedBufferInfo.fill b) } := by
      intro j hj
      simp only [List.mem_append, List.mem_cons] at hj ⊢
      tauto
    refine ⟨?_, ?_, ?_, ?_⟩
    · have hsorted := inv.requests.sorted
      simp_all
    · intro j hj
      rcases hcases j hj with hj | rfl
      · exact hrest.awaiting j hj
      · exact inv.requests.awaiting i hiP
    · intro j hj hjin st hst
      rcases hcases j hj with hj | rfl
      · exact hrest.slots j hj hjin st hst
      · dsimp only at hst ⊢
        rw [fill_free]
        have hstreams : (i.buffers.map (RequestedBufferInfo.fill b)).countP
            (fun j => decide (j.stream = st)) =
              i.buffers.countP fun j => decide (j.stream = st) := by
          simp [Function.comp_def, RequestedBufferInfo.fill_stream]
        rw [hstreams] at hst
        have hperm := (List.perm_cons_erase hk).countP_eq
          (fun k => decide (k.frameNumber = i.frameNumber ∧ k.stream = st))
        have hslots := inv.requests.slots i hiP hin st hst
        rw [List.countP_cons] at hperm
        split
        · simp_all
        · omega
    · intro j hj hjin
      rcases hcases j hj with hj | rfl
      · exact hrest.unstored j hj hjin
      · simp [hin] at hjin
  · have hkey : (PendingRequestInfo.storedKeys
        { i with buffers := i.buffers.map (RequestedBufferInfo.fill b) }).Perm
          ((n, b.buffer) :: i.storedKeys) := by
      grind [fill_stored, PendingRequestInfo.storedKeys, PendingRequestInfo.stored]
    grind [Hwi.storedKeys, PendingBufferInfo.key, Hwi.pendingKeys]
  · intro c hc
    obtain ⟨i', hi', heq, hin'⟩ := inv.cached c hc
    grind

theorem bufInv_buffer (inv : BufInv s) {b : StreamBuffer} {n : Nat}
    (hk : ⟨n, b.stream, b.buffer⟩ ∈ s.owed) (hkeep : s.hwi.KeepsRequest b n) (now : UInt64) :
    BufInv { s with
      owed := s.owed.erase ⟨n, b.stream, b.buffer⟩
      called := s.called ++ [(n, b.buffer)]
      hwi := s.hwi.handleBufferWithLock b n now } := by
  cases hfind : s.hwi.findRequest n with
  | none => exact bufInv_buffer_direct inv hk hfind now
  | some i =>
    cases hin : i.inputBuffer with
    | none => exact bufInv_buffer_store inv hk hfind hin hkeep now
    | some input => exact bufInv_buffer_reprocess inv hk hfind (by simp [hin]) hkeep now

end EtherDevice.Hal3
