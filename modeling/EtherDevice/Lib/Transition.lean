import Mathlib.Tactic.Common

/-!
# Runs of labelled transition systems

A system is a set of initial states and a labelled step relation. A label names an
operation with its arguments, and with the answers of the environment that the
operation met. `Reachable` collects the states of all finite runs, and
`Invariant.reachable` is the one induction over runs of this development.

`restrict` keeps only the steps whose label meets a condition in the state where the
step starts. It is used where a property holds of every run that avoids certain steps.
-/

namespace EtherDevice.Lib

universe u v

/-- Initial states and labelled steps. -/
structure System (σ : Type u) (ι : Type v) where
  init : σ → Prop
  step : σ → ι → σ → Prop

namespace System

variable {σ : Type u} {ι : Type v} (S : System σ ι)

/-- The states of the finite runs of `S`. -/
inductive Reachable : σ → Prop
  | init {s : σ} : S.init s → Reachable s
  | step {s s' : σ} {i : ι} : Reachable s → S.step s i s' → Reachable s'

/-- A property of the initial states that every step preserves. -/
structure Invariant (P : σ → Prop) : Prop where
  init : ∀ s, S.init s → P s
  step : ∀ s i s', P s → S.step s i s' → P s'

/-- The system with only those steps whose label meets `ok` where the step starts. -/
def restrict (ok : σ → ι → Prop) : System σ ι where
  init := S.init
  step s i s' := ok s i ∧ S.step s i s'

variable {S}

theorem Invariant.reachable {P : σ → Prop} (h : S.Invariant P) {s : σ}
    (hs : S.Reachable s) : P s := by
  induction hs with
  | init h0 => exact h.init _ h0
  | step _ hstep ih => exact h.step _ _ _ ih hstep

/-- A property that holds where the excluded steps are excluded is kept, if each step that is
left keeps it. -/
theorem Invariant.of_restrict {ok : σ → ι → Prop} {P : σ → Prop} (hinit : ∀ s, S.init s → P s)
    (hstep : ∀ s i s', P s → ok s i → S.step s i s' → P s') : (S.restrict ok).Invariant P where
  init := hinit
  step s i s' hP h := hstep s i s' hP h.1 h.2

theorem Reachable.of_restrict {ok : σ → ι → Prop} {s : σ}
    (hs : (S.restrict ok).Reachable s) : S.Reachable s := by
  induction hs with
  | init h0 => exact .init h0
  | step _ hstep ih => exact .step ih hstep.2

/-! ## Systems that compute -/

/-- The system of a function: a label that is enabled has one successor. -/
def ofFunction (start : σ → Prop) (enabled : σ → ι → Prop) (next : σ → ι → σ) : System σ ι where
  init := start
  step s i s' := enabled s i ∧ s' = next s i

/-- The state after some labels that all meet a condition. -/
def follow (ok : σ → ι → Prop) [∀ s i, Decidable (ok s i)] (next : σ → ι → σ) :
    List ι → σ → Option σ
  | [], s => some s
  | i :: labels, s => if ok s i then follow ok next labels (next s i) else none

theorem reachable_follow {start : σ → Prop} {enabled ok : σ → ι → Prop}
    [∀ s i, Decidable (ok s i ∧ enabled s i)] {next : σ → ι → σ} (labels : List ι) {s s' : σ}
    (hs : ((ofFunction start enabled next).restrict ok).Reachable s)
    (hrun : follow (fun s i => ok s i ∧ enabled s i) next labels s = some s') :
    ((ofFunction start enabled next).restrict ok).Reachable s' := by
  induction labels generalizing s with
  | nil =>
    cases hrun
    exact hs
  | cons i labels ih =>
    unfold follow at hrun
    split at hrun
    · rename_i h
      exact ih (.step hs ⟨h.1, h.2, rfl⟩) hrun
    · cases hrun

/-! ## Runs all of whose steps are good -/

/-- Each of these labels meets `φ` in the state where its step starts. -/
def Along (φ : σ → ι → Prop) (next : σ → ι → σ) : List ι → σ → Prop
  | [], _ => True
  | i :: labels, s => φ s i ∧ Along φ next labels (next s i)

/-- Two conditions agree along a run, where an invariant makes them agree and steps that meet
the second one keep it. -/
theorem along_iff {P : σ → Prop} {φ ψ : σ → ι → Prop} {next : σ → ι → σ}
    (hiff : ∀ s i, P s → (φ s i ↔ ψ s i)) (hkeep : ∀ s i, P s → ψ s i → P (next s i))
    (labels : List ι) {s : σ} (hs : P s) : Along φ next labels s ↔ Along ψ next labels s := by
  induction labels generalizing s with
  | nil => exact Iff.rfl
  | cons i labels ih =>
    simp_all [Along]

/-- A condition on the steps gives a property of the steps, where an invariant carries it. -/
theorem Along.imp {P : σ → Prop} {φ ψ : σ → ι → Prop} {next : σ → ι → σ}
    (hstep : ∀ s i, P s → ψ s i → φ s i ∧ P (next s i)) {labels : List ι} {s : σ} (hs : P s)
    (h : Along ψ next labels s) : Along φ next labels s := by
  induction labels generalizing s with
  | nil => trivial
  | cons i labels ih =>
    obtain ⟨hφ, hnext⟩ := hstep s i hs h.1
    exact ⟨hφ, ih hnext h.2⟩

theorem reachable_foldl {start : σ → Prop} {enabled ok : σ → ι → Prop} {next : σ → ι → σ}
    {labels : List ι} {s : σ} (h : Along (fun s i => ok s i ∧ enabled s i) next labels s)
    (hs : ((ofFunction start enabled next).restrict ok).Reachable s) :
    ((ofFunction start enabled next).restrict ok).Reachable (labels.foldl next s) := by
  induction labels generalizing s with
  | nil => exact hs
  | cons i labels ih => exact ih h.2 (.step hs ⟨h.1.1, h.1.2, rfl⟩)

end System

end EtherDevice.Lib
