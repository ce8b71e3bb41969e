import Mathlib

/-!
# Pipelines that finish their jobs in order

Jobs are accepted in increasing order. A pending job may get an early report, once. The
oldest pending job can be finished, and all pending jobs can be aborted together if none of
them got its early report. `Pipeline.inOrder` says what the log of reports has about each
job after any sequence of such steps.

The reports are of any type. `Reports` has those that each kind of step adds for a job.
-/

namespace EtherDevice.Lib

universe u v

variable {α : Type u} {β : Type v}

/-- The jobs, and the log of reports. A pending job is marked if it got its early report. -/
structure Pipeline (α : Type u) (β : Type v) where
  accepted : List α := []
  pending : List (α × Bool) := []
  finished : List α := []
  aborted : List α := []
  log : List (α × β) := []

structure Reports (β : Type v) where
  early : List β
  finish : List β
  abort : List β

/-- The reports of a job that is not finished. -/
def Reports.upTo (R : Reports β) (early : Bool) : List β := if early then R.early else []

namespace Pipeline

/-- The entries of the log for a report of a job. -/
def entries (n : α) (reports : List β) : List (α × β) := reports.map fun r => (n, r)

inductive Step [LT α] (R : Reports β) : Pipeline α β → Pipeline α β → Prop
  | accept {p : Pipeline α β} (n : α) (hnew : ∀ m ∈ p.accepted, m < n) :
      Step R p { p with accepted := p.accepted ++ [n], pending := p.pending ++ [(n, false)] }
  | early {p : Pipeline α β} (n : α) (l₁ l₂ : List (α × Bool))
      (hp : p.pending = l₁ ++ (n, false) :: l₂) :
      Step R p { p with
        pending := l₁ ++ (n, true) :: l₂
        log := p.log ++ entries n R.early }
  | finish {p : Pipeline α β} (n : α) (u : Bool) (rest : List (α × Bool))
      (hp : p.pending = (n, u) :: rest) :
      Step R p { p with
        pending := rest
        finished := p.finished ++ [n]
        log := p.log ++ entries n R.finish }
  | abort {p : Pipeline α β} (ns : List α) (hns : ns.Perm (p.pending.map Prod.fst))
      (hearly : ∀ x ∈ p.pending, x.2 = false) :
      Step R p { p with
        pending := []
        aborted := p.aborted ++ ns
        log := p.log ++ ns.flatMap fun n => entries n R.abort }

variable [LinearOrder α] {R : Reports β} {p p' : Pipeline α β}

def reports (p : Pipeline α β) (n : α) : List β := (p.log.filter fun e => e.1 = n).map Prod.snd

/-- Every job is pending, finished or aborted, and its reports are those of this state. Jobs
finish in increasing order, and before any job that is pending. -/
structure InOrder (R : Reports β) (p : Pipeline α β) : Prop where
  nodup : p.accepted.Nodup
  jobs : p.accepted.Perm (p.pending.map Prod.fst ++ (p.finished ++ p.aborted))
  pendingSorted : (p.pending.map Prod.fst).Pairwise (· < ·)
  finishedSorted : p.finished.Pairwise (· < ·)
  finishedFirst : ∀ m ∈ p.finished, ∀ x ∈ p.pending, m < x.1
  fresh : ∀ n, n ∉ p.accepted → p.reports n = []
  pending : ∀ x ∈ p.pending, p.reports x.1 = R.upTo x.2
  finished : ∀ n ∈ p.finished, ∃ u, p.reports n = R.upTo u ++ R.finish
  aborted : ∀ n ∈ p.aborted, p.reports n = R.abort

/-! ## Reports of a step -/

theorem filter_entries (n m : α) (rs : List β) :
    ((entries n rs).filter fun e => e.1 = m).map Prod.snd = if n = m then rs else [] := by
  unfold entries
  split
  · rename_i h
    subst h
    rw [List.filter_eq_self.mpr (by simp), List.map_map]
    exact List.map_id rs
  simp_all

theorem reports_of_log {n : α} {rs : List β} (hlog : p'.log = p.log ++ entries n rs) (m : α) :
    p'.reports m = p.reports m ++ if n = m then rs else [] := by
  simp [reports, filter_entries, hlog]

theorem reports_of_log_ne {n m : α} {rs : List β} (hlog : p'.log = p.log ++ entries n rs)
    (h : m ≠ n) : p'.reports m = p.reports m := by
  rw [reports_of_log hlog, if_neg h.symm, List.append_nil]

theorem reports_of_log_flatMap {ns : List α} {rs : List β} (hns : ns.Nodup)
    (hlog : p'.log = p.log ++ ns.flatMap fun n => entries n rs) (m : α) :
    p'.reports m = p.reports m ++ if m ∈ ns then rs else [] := by
  unfold reports
  rw [hlog, List.filter_append, List.map_append]
  congr 1
  clear hlog
  induction ns with
  | nil => simp
  | cons n ns ih =>
    obtain ⟨hnot, hns⟩ := List.nodup_cons.mp hns
    rw [List.flatMap_cons, List.filter_append, List.map_append, filter_entries, ih hns]
    grind

/-! ## What every run keeps -/

theorem InOrder.empty : InOrder R ({} : Pipeline α β) where
  nodup := .nil
  jobs := .nil
  pendingSorted := .nil
  finishedSorted := .nil
  finishedFirst := by simp
  fresh _ _ := rfl
  pending := by simp
  finished := by simp
  aborted := by simp

theorem InOrder.mem_accepted (h : InOrder R p) {n : α} :
    n ∈ p.accepted ↔ n ∈ p.pending.map Prod.fst ∨ n ∈ p.finished ∨ n ∈ p.aborted := by
  rw [h.jobs.mem_iff, List.mem_append, List.mem_append]

theorem InOrder.pending_accepted (h : InOrder R p) {x : α × Bool} (hx : x ∈ p.pending) :
    x.1 ∈ p.accepted := h.mem_accepted.mpr (.inl (List.mem_map_of_mem hx))

theorem InOrder.pending_ne (h : InOrder R p) {x : α × Bool} (hx : x ∈ p.pending) {m : α}
    (hm : m ∈ p.finished ∨ m ∈ p.aborted) : m ≠ x.1 := by
  have hnd := h.jobs.nodup_iff.mp h.nodup
  grind

theorem InOrder.accept (h : InOrder R p) {n : α} (hnew : ∀ m ∈ p.accepted, m < n) :
    InOrder R { p with accepted := p.accepted ++ [n], pending := p.pending ++ [(n, false)] } where
  nodup := by
    refine List.nodup_append.mpr ⟨h.nodup, List.nodup_singleton n, ?_⟩
    simp_all [ne_of_lt]
  jobs := by
    refine (h.jobs.append_right [n]).trans ?_
    grind
  pendingSorted := by
    rw [List.map_append, List.pairwise_append]
    refine ⟨h.pendingSorted, List.pairwise_singleton .., ?_⟩
    intro m hm m' hm'
    obtain rfl := List.mem_singleton.mp hm'
    exact hnew m (h.mem_accepted.mpr (.inl hm))
  finishedSorted := h.finishedSorted
  finishedFirst m hm x hx := by
    rcases List.mem_append.mp hx with hx | hx
    · exact h.finishedFirst m hm x hx
    · obtain rfl := List.mem_singleton.mp hx
      exact hnew m (h.mem_accepted.mpr (.inr (.inl hm)))
  fresh m hm := h.fresh m fun hmem => hm (List.mem_append_left _ hmem)
  pending x hx := by
    rcases List.mem_append.mp hx with hx | hx
    · exact h.pending x hx
    · obtain rfl := List.mem_singleton.mp hx
      exact h.fresh n fun hn => absurd (hnew n hn) (lt_irrefl n)
  finished := h.finished
  aborted := h.aborted

theorem InOrder.early (h : InOrder R p) {n : α} {l₁ l₂ : List (α × Bool)}
    (hp : p.pending = l₁ ++ (n, false) :: l₂) :
    InOrder R { p with
      pending := l₁ ++ (n, true) :: l₂
      log := p.log ++ entries n R.early } := by
  have hfst : (l₁ ++ (n, true) :: l₂).map Prod.fst = p.pending.map Prod.fst := by simp [hp]
  have hn : (n, false) ∈ p.pending := by simp [hp]
  have hother : ∀ m, m ∈ p.finished ∨ m ∈ p.aborted →
      Pipeline.reports { p with
        pending := l₁ ++ (n, true) :: l₂
        log := p.log ++ entries n R.early } m = p.reports m :=
    fun m hm => reports_of_log_ne rfl (h.pending_ne hn hm)
  refine {
    nodup := h.nodup, jobs := ?_, pendingSorted := ?_, finishedSorted := h.finishedSorted
    finishedFirst := ?_, fresh := ?_, pending := ?_, finished := ?_, aborted := ?_ }
  · rw [hfst]
    exact h.jobs
  · rw [hfst]
    exact h.pendingSorted
  · intro m hm x hx
    have hmem : x.1 ∈ p.pending.map Prod.fst := by
      rw [← hfst]
      exact List.mem_map_of_mem hx
    obtain ⟨x', hx', heq⟩ := List.mem_map.mp hmem
    rw [← heq]
    exact h.finishedFirst m hm x' hx'
  · intro m hm
    have hne : m ≠ n := by
      rintro rfl
      exact hm (h.pending_accepted hn)
    rw [reports_of_log_ne rfl hne]
    exact h.fresh m hm
  · intro x hx
    have hsorted := h.pendingSorted
    rw [hp, List.map_append, List.map_cons] at hsorted
    have hnd := hsorted.imp ne_of_lt
    -- the job is in the list once
    have hne : ∀ y ∈ l₁ ++ l₂, y.1 ≠ n := by
      intro y hy heq
      have hperm : (n :: (l₁ ++ l₂).map Prod.fst).Nodup := by
        rw [List.map_append]
        exact (List.perm_middle.nodup_iff).mp hnd
      exact (List.nodup_cons.mp hperm).1 (heq ▸ List.mem_map_of_mem hy)
    by_cases hxn : x.1 = n
    · have hxe : x = (n, true) := by
        grind
      subst hxe
      rw [reports_of_log rfl, if_pos rfl, h.pending _ hn]
      rfl
    · rw [reports_of_log_ne rfl hxn]
      apply h.pending
      rw [hp]
      rcases List.mem_append.mp hx with hx | hx
      · exact List.mem_append_left _ hx
      rcases List.mem_cons.mp hx with hx | hx
      · exact absurd (congrArg Prod.fst hx) hxn
      · exact List.mem_append_right _ (List.mem_cons_of_mem _ hx)
  · intro m hm
    rw [hother m (.inl hm)]
    exact h.finished m hm
  · intro m hm
    rw [hother m (.inr hm)]
    exact h.aborted m hm

theorem InOrder.finish (h : InOrder R p) {n : α} {u : Bool} {rest : List (α × Bool)}
    (hp : p.pending = (n, u) :: rest) :
    InOrder R { p with
      pending := rest
      finished := p.finished ++ [n]
      log := p.log ++ entries n R.finish } := by
  have hn : (n, u) ∈ p.pending := by simp [hp]
  have hrest : ∀ x ∈ rest, x ∈ p.pending := by
    simp_all
  have hsorted := h.pendingSorted
  rw [hp, List.map_cons, List.pairwise_cons] at hsorted
  refine {
    nodup := h.nodup, jobs := ?_, pendingSorted := hsorted.2, finishedSorted := ?_
    finishedFirst := ?_, fresh := ?_, pending := ?_, finished := ?_, aborted := ?_ }
  · refine h.jobs.trans ?_
    grind
  · refine List.pairwise_append.mpr ⟨h.finishedSorted, List.pairwise_singleton .., ?_⟩
    intro m hm m' hm'
    obtain rfl := List.mem_singleton.mp hm'
    exact h.finishedFirst m hm _ hn
  · intro m hm x hx
    rcases List.mem_append.mp hm with hm | hm
    · exact h.finishedFirst m hm x (hrest x hx)
    · obtain rfl := List.mem_singleton.mp hm
      exact hsorted.1 x.1 (List.mem_map_of_mem hx)
  · intro m hm
    have hne : m ≠ n := by
      rintro rfl
      exact hm (h.pending_accepted hn)
    rw [reports_of_log_ne rfl hne]
    exact h.fresh m hm
  · intro x hx
    rw [reports_of_log_ne rfl (ne_of_gt (hsorted.1 x.1 (List.mem_map_of_mem hx)))]
    exact h.pending x (hrest x hx)
  · intro m hm
    rcases List.mem_append.mp hm with hm | hm
    · rw [reports_of_log_ne rfl (h.pending_ne hn (.inl hm))]
      exact h.finished m hm
    · obtain rfl := List.mem_singleton.mp hm
      refine ⟨u, ?_⟩
      rw [reports_of_log rfl, if_pos rfl, h.pending _ hn]
  · intro m hm
    rw [reports_of_log_ne rfl (h.pending_ne hn (.inr hm))]
    exact h.aborted m hm

theorem InOrder.abort (h : InOrder R p) {ns : List α} (hns : ns.Perm (p.pending.map Prod.fst))
    (hearly : ∀ x ∈ p.pending, x.2 = false) :
    InOrder R { p with
      pending := []
      aborted := p.aborted ++ ns
      log := p.log ++ ns.flatMap fun n => entries n R.abort } := by
  have hnd : ns.Nodup := hns.nodup_iff.mpr (h.pendingSorted.imp ne_of_lt)
  have hmem : ∀ {n}, n ∈ ns ↔ ∃ x ∈ p.pending, x.1 = n := by
    intro n
    rw [hns.mem_iff, List.mem_map]
  have hother : ∀ m, m ∉ ns → Pipeline.reports { p with
      pending := []
      aborted := p.aborted ++ ns
      log := p.log ++ ns.flatMap fun n => entries n R.abort } m = p.reports m := by
    intro m hm
    rw [reports_of_log_flatMap hnd rfl, if_neg hm, List.append_nil]
  have hdone : ∀ m, m ∈ p.finished ∨ m ∈ p.aborted → m ∉ ns := by
    intro m hm hmns
    obtain ⟨x, hx, rfl⟩ := hmem.mp hmns
    exact h.pending_ne hx hm rfl
  refine {
    nodup := h.nodup, jobs := ?_, pendingSorted := .nil, finishedSorted := h.finishedSorted
    finishedFirst := by simp, fresh := ?_, pending := by simp, finished := ?_, aborted := ?_ }
  · refine h.jobs.trans ?_
    grind
  · intro m hm
    rw [hother m]
    · exact h.fresh m hm
    · intro hmns
      obtain ⟨x, hx, rfl⟩ := hmem.mp hmns
      exact hm (h.pending_accepted hx)
  · intro m hm
    rw [hother m (hdone m (.inl hm))]
    exact h.finished m hm
  · intro m hm
    rcases List.mem_append.mp hm with hm | hm
    · rw [hother m (hdone m (.inr hm))]
      exact h.aborted m hm
    · obtain ⟨x, hx, rfl⟩ := hmem.mp hm
      rw [reports_of_log_flatMap hnd rfl, if_pos hm, h.pending x hx, hearly x hx]
      rfl

theorem Step.inOrder (hstep : Step R p p') (h : InOrder R p) : InOrder R p' := by
  cases hstep with
  | accept n hnew => exact h.accept hnew
  | early n l₁ l₂ hp => exact h.early hp
  | finish n u rest hp => exact h.finish hp
  | abort ns hns hearly => exact h.abort hns hearly

theorem inOrder (hsteps : Relation.ReflTransGen (Step R) p p') (h : InOrder R p) :
    InOrder R p' := by
  induction hsteps with
  | refl => exact h
  | tail _ hstep ih => exact hstep.inOrder ih

end Pipeline

end EtherDevice.Lib
