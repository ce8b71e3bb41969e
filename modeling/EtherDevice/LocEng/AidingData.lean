import EtherDevice.Lib.Transition
import Mathlib.Tactic.Common

/-!
# Aiding data that is to be deleted

A request to delete aiding data is kept while the engine is on. The mask of a request replaces the
one that is kept, so nothing is lost exactly if it has all that was kept.
-/

namespace EtherDevice.LocEng

open Lib

inductive GpsStatusValue
  | none
  | sessionBegin
  | sessionEnd
  | engineOn
  | engineOff
deriving DecidableEq

inductive MuteSessionState
  | none
  | wait
  | inSession
deriving DecidableEq

/-- `loc_eng_data_s_type`, with the session flag of its adapter. `informed` is what the status
callback got, `deleted` what the adapter was told to delete, and `requested` has what was requested
since. -/
structure LocEngData (w : Nat) where
  engine_status : GpsStatusValue := .none
  fix_session_status : GpsStatusValue := .none
  mute_session_state : MuteSessionState := .none
  inSession : Bool := false
  aiding_data_for_deletion : BitVec w := 0
  informed : List GpsStatusValue := []
  deleted : List (BitVec w) := []
  requested : BitVec w := 0

/-- The messages, of which the start of a session may fail. -/
inductive Msg (w : Nat)
  | delAidData (f : BitVec w)
  | reportStatus (status : GpsStatusValue)
  | engineDown
  | startFix (ok : Bool)
  | stopFix
  | muteOneSession

variable {w : Nat}

namespace LocEngData

variable (s : LocEngData w)

def updateAidingDataForDeletion : LocEngData w :=
  if s.engine_status ≠ .engineOn ∧ s.aiding_data_for_deletion ≠ 0 then
    { s with
      deleted := s.deleted ++ [s.aiding_data_for_deletion]
      aiding_data_for_deletion := 0
      requested := 0 }
  else s

def muteAfter (status : GpsStatusValue) : MuteSessionState :=
  let begun : MuteSessionState :=
    if (status = .sessionBegin ∨ status = .engineOn) ∧ s.mute_session_state = .wait then .inSession
    else s.mute_session_state
  if begun = .inSession ∧ (status = .sessionEnd ∨ status = .engineOff) then .none else begun

def reportStatus (status : GpsStatusValue) : LocEngData w :=
  { s with
    mute_session_state := s.muteAfter status
    informed :=
      if status ≠ .none ∧ ¬(status = .sessionEnd ∧ s.inSession = true) ∧
          ¬(status = .sessionBegin ∧ s.inSession = false) ∧
            s.muteAfter status ≠ .inSession then s.informed ++ [status]
      else s.informed
    engine_status :=
      if status = .engineOn ∨ status = .engineOff then status else s.engine_status
    fix_session_status :=
      if status = .sessionBegin ∨ status = .sessionEnd then status else s.fix_session_status }

def exec (s : LocEngData w) : Msg w → LocEngData w
  | .delAidData f =>
    { s with
      aiding_data_for_deletion := f
      requested := s.requested ||| f }.updateAidingDataForDeletion
  | .reportStatus status => (s.reportStatus status).updateAidingDataForDeletion
  | .engineDown => s.reportStatus .engineOff
  | .startFix ok => { s with inSession := s.inSession || ok }
  | .stopFix => { s with inSession := false }
  | .muteOneSession => { s with mute_session_state := .wait }

/-- All that was requested and not deleted is still to be deleted, or a deletion has just had all
of it. -/
def Accumulates (msg : Msg w) : Prop :=
  let union := match msg with
    | .delAidData f => s.requested ||| f
    | _ => s.requested
  (s.exec msg).deleted = s.deleted ∧ (s.exec msg).aiding_data_for_deletion = union ∨
    (s.exec msg).deleted = s.deleted ++ [union] ∧ (s.exec msg).aiding_data_for_deletion = 0

/-- A request has all that is still to be deleted. -/
def Cond : Msg w → Prop
  | .delAidData f => s.aiding_data_for_deletion ||| f = f
  | _ => True

variable {s}

theorem updateAidingDataForDeletion_eq (s : LocEngData w) :
    (s.updateAidingDataForDeletion.deleted = s.deleted ∧
      s.updateAidingDataForDeletion.aiding_data_for_deletion = s.aiding_data_for_deletion ∧
        s.updateAidingDataForDeletion.requested = s.requested) ∨
    (s.updateAidingDataForDeletion.deleted = s.deleted ++ [s.aiding_data_for_deletion] ∧
      s.updateAidingDataForDeletion.aiding_data_for_deletion = 0 ∧
        s.updateAidingDataForDeletion.requested = 0) := by
  unfold updateAidingDataForDeletion
  split
  · exact .inr ⟨rfl, rfl, rfl⟩
  · exact .inl ⟨rfl, rfl, rfl⟩

theorem accumulates_iff (h : s.aiding_data_for_deletion = s.requested) (msg : Msg w) :
    (s.Accumulates msg ↔ s.Cond msg) ∧
      (s.Cond msg → (s.exec msg).aiding_data_for_deletion = (s.exec msg).requested) := by
  cases msg with
  | delAidData f =>
    have hupdate := updateAidingDataForDeletion_eq
      { s with aiding_data_for_deletion := f, requested := s.requested ||| f }
    simp only [Accumulates, Cond, exec, h] at hupdate ⊢
    obtain ⟨hdeleted, hkept, hrequested⟩ | ⟨hdeleted, hkept, hrequested⟩ := hupdate
    · simp [hdeleted, hkept, hrequested, eq_comm (a := f)]
    · simp [hdeleted, hkept, hrequested, eq_comm (a := f)]
  | reportStatus status =>
    obtain ⟨hdeleted, hkept, hrequested⟩ | ⟨hdeleted, hkept, hrequested⟩ :=
      updateAidingDataForDeletion_eq (s.reportStatus status)
    · exact ⟨iff_of_true (.inl ⟨hdeleted, hkept.trans h⟩) trivial,
        fun _ => (hkept.trans h).trans hrequested.symm⟩
    · exact ⟨iff_of_true (.inr ⟨hdeleted.trans (congrArg (s.deleted ++ [·]) h), hkept⟩) trivial,
        fun _ => hkept.trans hrequested.symm⟩
  | engineDown | startFix | stopFix | muteOneSession =>
    exact ⟨iff_of_true (.inl ⟨rfl, h⟩) trivial, fun _ => h⟩

/-- In every run, all requests accumulate if and only if each one has all that is still to be
deleted. -/
theorem accumulates_along_iff (w : Nat) (msgs : List (Msg w)) :
    System.Along Accumulates exec msgs {} ↔ System.Along Cond exec msgs {} :=
  System.along_iff (fun _ msg h => (accumulates_iff h msg).1)
    (fun _ msg h => (accumulates_iff h msg).2) msgs rfl

/-- Two requests while the engine is on: the first one is lost. -/
theorem not_accumulates_along : ¬ ∀ (w : Nat) (msgs : List (Msg w)),
    System.Along Accumulates exec msgs {} := by
  intro h
  have hrun := (h 16 [.reportStatus .engineOn, .delAidData 1, .delAidData 2]).2.2.1
  exact absurd hrun (by unfold Accumulates; decide)

end LocEngData

end EtherDevice.LocEng
