import EtherDevice.Ipacm.EvtDispatcher
import EtherDevice.Lib.Transition
import Mathlib.Data.List.Count

/-!
# Event dispatch

`ProcessEvt` of `IPACM_EvtDispatcher.cpp`: a walk over the list of listeners in which each
callback may register and deregister any listener. The pointer to the next node is read
before the callback is made, from a copy of the node.

`Kept` is the condition on a step under which the walk meets every listener once: the
callback does not deregister the listener of the node behind its own, as `IPACM_Wlan` does
when it deletes itself, and no listener is registered twice for the event.
-/

namespace EtherDevice.Ipacm

open Lib

/-! ## The code -/

inductive DispatcherOp where
  | registr (event : IpaCmEventId) (obj : Nat) (malloc : Bool)
  | deregistr (obj : Nat)
deriving DecidableEq

namespace EvtDispatcher

def call (d : EvtDispatcher) : DispatcherOp → Option EvtDispatcher
  | .registr event obj malloc => (d.registr event obj malloc).map Prod.fst
  | .deregistr obj => d.deregistr obj

def calls : List DispatcherOp → EvtDispatcher → Option EvtDispatcher
  | [], d => some d
  | op :: ops, d => (d.call op).bind (calls ops)

def countEvent (d : EvtDispatcher) (event : IpaCmEventId) : EvtDispatcher :=
  { d with ipacmEventStats := fun e => d.ipacmEventStats e + if e = event then 1 else 0 }

end EvtDispatcher

inductive DispatchAct where
  | callback (obj : Nat)
  | op (op : DispatcherOp)
deriving DecidableEq

def DispatcherOp.adds : DispatcherOp → Bool
  | .registr _ _ malloc => malloc
  | .deregistr _ => false

def DispatchAct.adds : DispatchAct → Bool
  | .callback _ => false
  | .op call => call.adds

/-- The loop of `ProcessEvt`, with the registrations that it met and what happened in it. -/
structure Dispatch where
  event : IpaCmEventId
  /-- The node to visit. -/
  tmp : Nat
  before : List Registration
  trace : List DispatchAct := []
  /-- The turns of the loop. -/
  visits : Nat := 0

/-- The dispatcher, and the last walk. -/
structure EvtDaemon where
  dispatcher : EvtDispatcher := {}
  dispatch : Option Dispatch := none
  /-- A node was read that had been freed. -/
  readFreed : Bool := false

namespace EvtDaemon

def call (s : EvtDaemon) (op : DispatcherOp) : EvtDaemon :=
  match s.dispatcher.call op with
  | none => { s with readFreed := true }
  | some d => { s with dispatcher := d, dispatch := none }

def processEvt (s : EvtDaemon) (event : IpaCmEventId) : EvtDaemon :=
  { s with dispatch := some ⟨event, s.dispatcher.head, s.dispatcher.registrations, [], 0⟩ }

/-- One turn of the loop of `ProcessEvt`. If the callback is made, it makes the calls `ops`. -/
def visit (s : EvtDaemon) (w : Dispatch) (ops : List DispatcherOp) : EvtDaemon :=
  match s.dispatcher.nodes w.tmp with
  | none => { s with readFreed := true }
  | some tmp1 =>
    if w.event = tmp1.event then
      match (s.dispatcher.countEvent w.event).calls ops with
      | none => { s with readFreed := true }
      | some d => { s with
          dispatcher := d
          dispatch := some { w with
            tmp := tmp1.next
            trace := w.trace ++ .callback tmp1.obj :: ops.map .op
            visits := w.visits + 1 } }
    else { s with dispatch := some { w with tmp := tmp1.next, visits := w.visits + 1 } }

/-- The steps: a call, the begin of a walk, and a turn of its loop. -/
inductive Op where
  | call (op : DispatcherOp)
  | processEvt (event : IpaCmEventId)
  | visit (ops : List DispatcherOp)

def Idle (s : EvtDaemon) : Prop := ∀ w ∈ s.dispatch, w.tmp = 0

/-- The loop goes on while there is a node; nothing is known after a freed one was read. -/
def Enabled (s : EvtDaemon) : Op → Prop
  | .call _ => s.readFreed = false ∧ s.Idle
  | .processEvt _ => s.readFreed = false ∧ s.Idle
  | .visit _ => s.readFreed = false ∧ ¬ s.Idle

def exec (s : EvtDaemon) : Op → EvtDaemon
  | .call op => s.call op
  | .processEvt event => s.processEvt event
  | .visit ops => s.dispatch.elim s fun w => s.visit w ops

def system : System EvtDaemon Op := .ofFunction (· = {}) Enabled exec

end EvtDaemon

/-! ## What a walk should do -/

namespace Registration

def call (regs : List Registration) : DispatcherOp → List Registration
  | .registr event obj malloc => if malloc then regs ++ [⟨event, obj⟩] else regs
  | .deregistr obj => regs.filter fun r => decide (r.obj ≠ obj)

def after (regs : List Registration) : List DispatchAct → List Registration
  | [] => regs
  | .callback _ :: acts => after regs acts
  | .op op :: acts => after (call regs op) acts

end Registration

namespace Dispatch

def CallsRegistered (w : Dispatch) : Prop :=
  ∀ acts obj acts', w.trace = acts ++ .callback obj :: acts' →
    ⟨w.event, obj⟩ ∈ Registration.after w.before acts

/-- Each listener that was registered before and not deregistered had one callback. -/
def CallsEach (w : Dispatch) : Prop :=
  ∀ obj, ⟨w.event, obj⟩ ∈ w.before → .op (.deregistr obj) ∉ w.trace →
    w.trace.count (.callback obj) = 1

def added (w : Dispatch) : Nat := w.trace.countP DispatchAct.adds

end Dispatch

namespace EvtDaemon

/-- Event dispatch survives its callbacks: it reads no freed node, calls registered listeners
only, ends after as many turns as there were nodes and were added, and has then called each
listener once. -/
structure Survives (s : EvtDaemon) : Prop where
  noFreed : s.readFreed = false
  registered : ∀ w ∈ s.dispatch, w.CallsRegistered
  each : ∀ w ∈ s.dispatch, w.tmp = 0 → w.CallsEach
  turns : ∀ w ∈ s.dispatch, w.visits ≤ w.before.length + w.added

/-! ## The condition -/

/-- The callback does not deregister the listener of the node behind its own. -/
def SuccessorKept (s : EvtDaemon) (ops : List DispatcherOp) : Prop :=
  ∀ w ∈ s.dispatch, ∀ tmp1 ∈ s.dispatcher.nodes w.tmp, tmp1.event = w.event →
    ∀ next ∈ s.dispatcher.nodes tmp1.next, .deregistr next.obj ∉ ops

/-- The callback does not register a listener again that is to be called for the event. -/
def NotTwice (s : EvtDaemon) (ops : List DispatcherOp) : Prop :=
  ∀ w ∈ s.dispatch, ∀ r ∈ w.before, r.event = w.event → .registr w.event r.obj true ∈ ops →
    .op (.deregistr r.obj) ∈ w.trace ∨ .deregistr r.obj ∈ ops

/-- The step keeps the node behind the one that it visits, and no listener is registered twice
for the event of a walk. -/
def Kept (s : EvtDaemon) : Op → Prop
  | .call _ => True
  | .processEvt event => (s.dispatcher.registrations.filter (·.event = event)).Nodup
  | .visit ops => s.SuccessorKept ops ∧ s.NotTwice ops

/-- The runs in which every step meets the condition. -/
def keptSystem : System EvtDaemon Op := system.restrict Kept

end EvtDaemon

/-! ## The calls of a callback -/

def Registration.Spared (ops : List DispatcherOp) (r : Registration) : Prop :=
  .deregistr r.obj ∉ ops

instance (ops : List DispatcherOp) (r : Registration) : Decidable (r.Spared ops) :=
  inferInstanceAs (Decidable (_ ∉ _))

namespace Registration

variable {ops : List DispatcherOp} {r : Registration}

theorem spared_registr {event : IpaCmEventId} {obj : Nat} {malloc : Bool} :
    r.Spared (.registr event obj malloc :: ops) ↔ r.Spared ops := by
  simp [Spared]

theorem spared_deregistr {obj : Nat} :
    r.Spared (.deregistr obj :: ops) ↔ r.obj ≠ obj ∧ r.Spared ops := by
  simp [Spared]

end Registration

structure CallsDone (fresh : Nat) (ops : List DispatcherOp) (l l' : List (Nat × Registration)) :
    Prop where
  kept : ∃ new, l' = (l.filter fun e => decide (e.2.Spared ops)) ++ new ∧
    (∀ e ∈ new, fresh ≤ e.1 ∧ .registr e.2.event e.2.obj true ∈ ops) ∧
    new.length ≤ ops.countP DispatcherOp.adds
  regs : l'.map Prod.snd = Registration.after (l.map Prod.snd) (ops.map .op)

namespace CallsDone

variable {l l' : List (Nat × Registration)} {ops : List DispatcherOp} {fresh obj : Nat}
  {event : IpaCmEventId}

theorem nil : CallsDone fresh [] l l where
  kept := by
    simp [Registration.Spared]
  regs := rfl

theorem noMemory (h : CallsDone fresh ops l l') :
    CallsDone fresh (.registr event obj false :: ops) l l' where
  kept := by
    obtain ⟨new, rfl, hnew, hlen⟩ := h.kept
    refine ⟨new, ?_, fun e he => (hnew e he).imp_right (List.mem_cons_of_mem _), hlen⟩
    simp only [Registration.spared_registr]
  regs := h.regs

theorem registr (h : CallsDone (fresh + 1) ops (l ++ [(fresh, ⟨event, obj⟩)]) l') :
    CallsDone fresh (.registr event obj true :: ops) l l' where
  kept := by
    obtain ⟨new, rfl, hnew, hlen⟩ := h.kept
    refine ⟨[(fresh, ⟨event, obj⟩)].filter (fun e => decide (e.2.Spared ops)) ++ new, ?_, ?_, ?_⟩
    · simp only [List.filter_append, List.append_assoc, Registration.spared_registr]
    · grind
    · have hone := List.length_filter_le (fun e : Nat × Registration => decide (e.2.Spared ops))
        [(fresh, ⟨event, obj⟩)]
      rw [List.length_singleton] at hone
      rw [List.length_append, List.countP_cons_of_pos rfl]
      omega
  regs := by
    rw [h.regs, List.map_append]
    rfl

theorem deregistr (h : CallsDone fresh ops (l.filter fun e => decide (e.2.obj ≠ obj)) l') :
    CallsDone fresh (.deregistr obj :: ops) l l' where
  kept := by
    obtain ⟨new, rfl, hnew, hlen⟩ := h.kept
    refine ⟨new, ?_, fun e he => (hnew e he).imp_right (List.mem_cons_of_mem _), hlen⟩
    rw [List.filter_filter]
    congr 1
    apply List.filter_congr
    intro e _
    rw [← Bool.decide_and]
    exact decide_eq_decide.mpr (and_comm.trans Registration.spared_deregistr.symm)
  regs := by
    rw [h.regs]
    simp only [List.map_cons, Registration.after, Registration.call, List.filter_map]
    rfl

end CallsDone

namespace EvtDispatcher

variable {d d' : EvtDispatcher} {l : List (Nat × Registration)} {ops : List DispatcherOp}

theorem calls_holds (h : d.Holds l) (ops : List DispatcherOp) :
    ∃ d' l', d.calls ops = some d' ∧ d'.Holds l' ∧ CallsDone d.fresh ops l l' := by
  induction ops generalizing d l with
  | nil => exact ⟨d, l, rfl, h, .nil⟩
  | cons op ops ih =>
    cases op with
    | registr event obj malloc =>
      cases malloc with
      | false =>
        obtain ⟨d', l', hd', hholds, hdone⟩ := ih h
        exact ⟨d', l', hd', hholds, hdone.noMemory⟩
      | true =>
        obtain ⟨d1, hd1, hholds1, hfresh⟩ := registr_holds h event obj
        obtain ⟨d', l', hd', hholds, hdone⟩ := ih hholds1
        refine ⟨d', l', ?_, hholds, ?_⟩
        · rw [calls, call, hd1]
          exact hd'
        · rw [hfresh] at hdone
          exact hdone.registr
    | deregistr obj =>
      obtain ⟨d1, hd1, hholds1, hfresh⟩ := deregistr_holds h obj
      obtain ⟨d', l', hd', hholds, hdone⟩ := ih hholds1
      refine ⟨d', l', ?_, hholds, ?_⟩
      · rw [calls, call, hd1]
        exact hd'
      · rw [hfresh] at hdone
        exact hdone.deregistr

theorem Holds.countEvent (h : d.Holds l) (event : IpaCmEventId) :
    (d.countEvent event).Holds l :=
  ⟨h.walk, h.nodup, h.node, h.freed, h.fresh, h.pos⟩

end EvtDispatcher

/-! ## The registrations over a walk -/

namespace Registration

variable {regs : List Registration} {acts acts' : List DispatchAct} {r : Registration}

theorem after_append : after regs (acts ++ acts') = after (after regs acts) acts' := by
  induction acts generalizing regs with
  | nil => rfl
  | cons act acts ih =>
    cases act with
    | callback obj => exact ih
    | op op => exact ih

theorem count_after (hregistr : .op (.registr r.event r.obj true) ∉ acts)
    (hderegistr : .op (.deregistr r.obj) ∉ acts) : (after regs acts).count r = regs.count r := by
  induction acts generalizing regs with
  | nil => rfl
  | cons act acts ih =>
    rw [List.mem_cons, not_or] at hregistr hderegistr
    cases act with
    | callback obj => exact ih hregistr.2 hderegistr.2
    | op op =>
      refine (ih hregistr.2 hderegistr.2).trans ?_
      cases op with
      | registr event obj malloc =>
        grind [call]
      | deregistr obj =>
        have hne : r.obj ≠ obj := by
          simp_all
        exact List.count_filter (by simpa using hne)

end Registration

/-! ## What a walk keeps -/

/-- The loop has visited the nodes `done` and has `rest` before it; a walk that is over may
leave nodes that the last callback added. -/
structure DispatchInv (d : EvtDispatcher) (w : Dispatch) (done rest : List (Nat × Registration)) :
    Prop where
  holds : d.Holds (done ++ rest)
  tmp : w.tmp = (rest.map Prod.fst).headD 0 ∨
    w.tmp = 0 ∧ ∀ e ∈ rest, .op (.registr e.2.event e.2.obj true) ∈ w.trace
  regs : (done ++ rest).map Prod.snd = Registration.after w.before w.trace
  registered : w.CallsRegistered
  count : ∀ obj, .op (.deregistr obj) ∉ w.trace →
    w.trace.count (.callback obj) = (done.map Prod.snd).count ⟨w.event, obj⟩
  turns : w.visits + (if w.tmp = 0 then 0 else rest.length) ≤ w.before.length + w.added
  once : (w.before.filter (·.event = w.event)).Nodup
  notTwice : ∀ r ∈ w.before, r.event = w.event →
    .op (.registr w.event r.obj true) ∈ w.trace → .op (.deregistr r.obj) ∈ w.trace

namespace DispatchInv

variable {d d' : EvtDispatcher} {w : Dispatch} {done rest : List (Nat × Registration)}
  {e : Nat × Registration} {event : IpaCmEventId} {ops : List DispatcherOp}

theorem start {l : List (Nat × Registration)} (h : d.Holds l)
    (honce : (d.registrations.filter (·.event = event)).Nodup) :
    DispatchInv d ⟨event, d.head, d.registrations, [], 0⟩ [] l where
  holds := h
  tmp := .inl h.head_eq
  regs := (d.registrations_eq h).symm
  registered acts obj acts' heq := by simp at heq
  count _ _ := rfl
  turns := by
    rw [d.registrations_eq h]
    split_ifs
    · simp
    · simp
  once := honce
  notTwice _ _ _ := nofun

theorem exists_cons (h : DispatchInv d w done rest) (htmp : w.tmp ≠ 0) :
    ∃ e rest', rest = e :: rest' ∧ w.tmp = e.1 := by
  rcases h.tmp with heq | ⟨hzero, -⟩
  · cases rest with
    | nil => exact absurd heq htmp
    | cons e rest' => exact ⟨e, rest', rfl, heq⟩
  · exact absurd hzero htmp

theorem callsEach (h : DispatchInv d w done rest) (htmp : w.tmp = 0) : w.CallsEach := by
  intro obj hbefore hkept
  have hregistr : .op (.registr w.event obj true) ∉ w.trace :=
    fun hmem => hkept (h.notTwice _ hbefore rfl hmem)
  -- the walk has left no node of the listener
  have hrest : (rest.map Prod.snd).count ⟨w.event, obj⟩ = 0 := by
    rw [List.count_eq_zero]
    intro hmem
    obtain ⟨e, he, heq⟩ := List.mem_map.mp hmem
    rcases h.tmp with hhead | ⟨-, hadded⟩
    · cases rest with
      | nil => exact absurd he List.not_mem_nil
      | cons first rest =>
        rw [htmp] at hhead
        exact h.holds.ne_zero (by simp) hhead.symm
    · have hin := hadded e he
      simp_all
  have hall : (Registration.after w.before w.trace).count ⟨w.event, obj⟩ =
      w.before.count ⟨w.event, obj⟩ := Registration.count_after hregistr hkept
  have hone : w.before.count ⟨w.event, obj⟩ = 1 := by
    rw [← List.count_filter (p := fun r : Registration => decide (r.event = w.event)) (by simp)]
    exact List.count_eq_one_of_mem h.once (List.mem_filter.mpr ⟨hbefore, by simp⟩)
  rw [← h.regs, List.map_append, List.count_append, hrest, hone] at hall
  rw [h.count obj hkept]
  exact hall

theorem skip (h : DispatchInv d w done (e :: rest)) (htmp : w.tmp = e.1)
    (hevent : w.event ≠ e.2.event) :
    DispatchInv d { w with tmp := d.link e.1, visits := w.visits + 1 } (done ++ [e]) rest where
  holds := by simpa using h.holds
  tmp := .inl h.holds.link_eq
  regs := by
    rw [← h.regs]
    simp
  registered := h.registered
  count obj hkept := by
    have hne : e.2 ≠ ⟨w.event, obj⟩ := by
      intro heq
      exact hevent (by rw [heq])
    simp [h.count, hkept, hne]
  turns := by
    have hturns := h.turns
    have hnz := h.holds.ne_zero (e := e) (by simp)
    rw [htmp, if_neg hnz, List.length_cons] at hturns
    change w.visits + 1 + (if _ then _ else _) ≤ w.before.length + w.added
    split_ifs
    · omega
    · omega
  once := h.once
  notTwice := h.notTwice

theorem split_trace {acts acts' trace : List DispatchAct} {obj obj' : Nat}
    (h : trace ++ .callback obj :: ops.map .op = acts ++ .callback obj' :: acts') :
    (∃ acts'', trace = acts ++ .callback obj' :: acts'') ∨ acts = trace ∧ obj' = obj := by
  rcases List.append_eq_append_iff.mp h with ⟨mid, rfl, hrest⟩ | ⟨mid, rfl, hrest⟩
  · cases mid with
    | nil =>
      simp_all
    | cons act mid =>
      injection hrest with _ hrest
      have hmem : .callback obj' ∈ ops.map DispatchAct.op := by
        simp [hrest]
      obtain ⟨op, -, hop⟩ := List.mem_map.mp hmem
      cases hop
  · cases mid with
    | nil =>
      simp_all
    | cons act mid =>
      simp_all

theorem op_mem_trace {op : DispatcherOp} {obj : Nat} :
    .op op ∈ w.trace ++ .callback obj :: ops.map DispatchAct.op ↔
      .op op ∈ w.trace ∨ op ∈ ops := by
  simp

theorem callback {l' : List (Nat × Registration)} (h : DispatchInv d w done (e :: rest))
    (htmp : w.tmp = e.1) (hevent : w.event = e.2.event) (hholds : d'.Holds l')
    (hdone : CallsDone d.fresh ops (done ++ [e] ++ rest) l')
    (hkept : ∀ next ∈ rest.head?, next.2.Spared ops)
    (htwice : ∀ r ∈ w.before, r.event = w.event → .registr w.event r.obj true ∈ ops →
      .op (.deregistr r.obj) ∈ w.trace ∨ .deregistr r.obj ∈ ops) :
    ∃ done' rest', DispatchInv d'
      ⟨w.event, d.link e.1, w.before, w.trace ++ .callback e.2.obj :: ops.map .op, w.visits + 1⟩
      done' rest' := by
  obtain ⟨new, rfl, hnew, hlen⟩ := hdone.kept
  let spared : Nat × Registration → Bool := fun e => decide (e.2.Spared ops)
  have hlist : (done ++ [e]).filter spared ++ (rest.filter spared ++ new) =
      (done ++ [e] ++ rest).filter spared ++ new := by
    simp only [List.filter_append, List.append_assoc]
  have hself : (⟨w.event, e.2.obj⟩ : Registration) = e.2 := by rw [hevent]
  refine ⟨(done ++ [e]).filter spared, rest.filter spared ++ new, ?_⟩
  constructor
  case holds =>
    rw [hlist]
    exact hholds
  case tmp =>
    rw [h.holds.link_eq]
    cases rest with
    | nil =>
      refine .inr ⟨rfl, fun e he => ?_⟩
      exact op_mem_trace.mpr (.inr (hnew e he).2)
    | cons next rest =>
      grind
  case regs =>
    have hregs := hdone.regs
    rw [List.append_assoc, List.singleton_append, h.regs] at hregs
    rw [Registration.after_append, hlist, List.append_assoc done [e] rest, List.singleton_append]
    exact hregs
  case registered =>
    intro acts obj acts' heq
    rcases split_trace heq with ⟨acts'', hbefore⟩ | ⟨rfl, rfl⟩
    · exact h.registered acts obj acts'' hbefore
    · rw [← h.regs, hself]
      exact List.mem_map_of_mem (by simp)
  case count =>
    intro obj hobj
    rw [op_mem_trace, not_or] at hobj
    have hspared : (((done ++ [e]).map Prod.snd).filter fun r => decide (r.Spared ops)).count
        ⟨w.event, obj⟩ = ((done ++ [e]).map Prod.snd).count ⟨w.event, obj⟩ :=
      List.count_filter (decide_eq_true hobj.2)
    have hnone : (ops.map DispatchAct.op).count (.callback obj) = 0 := by
      rw [List.count_eq_zero]
      simp
    have hfilter : ((done ++ [e]).filter spared).map Prod.snd =
        ((done ++ [e]).map Prod.snd).filter fun r => decide (r.Spared ops) := by
      rw [List.filter_map]
      rfl
    rw [hfilter, hspared, List.map_append, List.count_append,
      List.count_append, List.count_cons, hnone, h.count obj hobj.1, List.map_singleton, ← hself]
    simp [List.count_singleton]
  case turns =>
    have hturns := h.turns
    have hnz := h.holds.ne_zero (e := e) (by simp)
    have hrest : (rest.filter spared).length ≤ rest.length := List.length_filter_le _ _
    have hadded : (w.trace ++ DispatchAct.callback e.2.obj :: ops.map DispatchAct.op).countP
        DispatchAct.adds = w.added + ops.countP DispatcherOp.adds := by
      rw [List.countP_append, List.countP_cons_of_neg (by simp [DispatchAct.adds]),
        List.countP_map]
      rfl
    rw [htmp, if_neg hnz, List.length_cons] at hturns
    have hbound : w.visits + 1 + (rest.filter spared ++ new).length ≤ w.before.length +
        (w.trace ++ DispatchAct.callback e.2.obj :: ops.map DispatchAct.op).countP
          DispatchAct.adds := by
      rw [hadded, List.length_append]
      omega
    refine Nat.le_trans (Nat.add_le_add_left ?_ _) hbound
    split_ifs
    · exact Nat.zero_le _
    · exact Nat.le_refl _
  case once => exact h.once
  grind [notTwice]

end DispatchInv

/-! ## The steps -/

namespace EvtDaemon

variable {s : EvtDaemon} {w : Dispatch} {ops : List DispatcherOp}

structure DaemonInv (s : EvtDaemon) : Prop where
  noFreed : s.readFreed = false
  list : ∃ l, s.dispatcher.Holds l
  walk : ∀ w ∈ s.dispatch, ∃ done rest, DispatchInv s.dispatcher w done rest

theorem daemonInv_init : ({} : EvtDaemon).DaemonInv where
  noFreed := rfl
  list := ⟨[], EvtDispatcher.holds_empty⟩
  walk := nofun

theorem daemonInv_call (h : s.DaemonInv) (op : DispatcherOp) : (s.call op).DaemonInv := by
  obtain ⟨l, hholds⟩ := h.list
  obtain ⟨d', l', hd', hholds', -⟩ := EvtDispatcher.calls_holds hholds [op]
  have hcall : s.dispatcher.call op = some d' := by
    simp_all [EvtDispatcher.calls]
  unfold call
  rw [hcall]
  exact ⟨h.noFreed, ⟨l', hholds'⟩, nofun⟩

theorem daemonInv_processEvt (h : s.DaemonInv) {event : IpaCmEventId}
    (honce : (s.dispatcher.registrations.filter (·.event = event)).Nodup) :
    (s.processEvt event).DaemonInv where
  noFreed := h.noFreed
  list := h.list
  walk w hw := by
    obtain ⟨l, hholds⟩ := h.list
    obtain rfl := Option.some.inj hw
    exact ⟨[], l, .start hholds honce⟩

theorem visit_cases (h : s.DaemonInv) (hw : s.dispatch = some w) (htmp : w.tmp ≠ 0)
    (ops : List DispatcherOp) :
    ∃ done e rest, DispatchInv s.dispatcher w done (e :: rest) ∧ w.tmp = e.1 ∧
      ((w.event ≠ e.2.event ∧ s.visit w ops = { s with
          dispatch := some { w with tmp := s.dispatcher.link e.1, visits := w.visits + 1 } }) ∨
      (w.event = e.2.event ∧ ∃ d' l', d'.Holds l' ∧
        CallsDone s.dispatcher.fresh ops (done ++ [e] ++ rest) l' ∧
        s.visit w ops = { s with
          dispatcher := d'
          dispatch := some ⟨w.event, s.dispatcher.link e.1, w.before,
            w.trace ++ .callback e.2.obj :: ops.map .op, w.visits + 1⟩ })) := by
  obtain ⟨done, rest, hinv⟩ := h.walk w hw
  obtain ⟨e, rest, rfl, he⟩ := hinv.exists_cons htmp
  refine ⟨done, e, rest, hinv, he, ?_⟩
  have hnode := hinv.holds.nodes_eq (e := e) (by simp)
  unfold visit
  rw [he, hnode]
  by_cases hevent : w.event = e.2.event
  · have hholds : (s.dispatcher.countEvent w.event).Holds (done ++ [e] ++ rest) := by
      have := hinv.holds.countEvent w.event
      simpa using this
    obtain ⟨d', l', hd', hholds', hdone⟩ := EvtDispatcher.calls_holds hholds ops
    refine .inr ⟨hevent, d', l', hholds', hdone, ?_⟩
    simp only [if_pos hevent, hd']
  · exact .inl ⟨hevent, if_neg hevent⟩

theorem successorKept_iff {done rest : List (Nat × Registration)} {e : Nat × Registration}
    (hw : s.dispatch = some w) (hinv : DispatchInv s.dispatcher w done (e :: rest))
    (he : w.tmp = e.1) (hevent : w.event = e.2.event) :
    s.SuccessorKept ops ↔ ∀ next ∈ rest.head?, next.2.Spared ops := by
  have hnode := hinv.holds.nodes_eq (e := e) (by simp)
  have hbehind : ∀ next ∈ rest.head?,
      s.dispatcher.nodes (s.dispatcher.link e.1) =
        some ⟨next.2.event, next.2.obj, s.dispatcher.link next.1⟩ := by
    intro next hnext
    obtain ⟨rest, rfl⟩ := List.head?_eq_some_iff.mp hnext
    rw [hinv.holds.link_eq]
    exact hinv.holds.nodes_eq (by simp)
  rw [← he] at hnode
  constructor
  · intro hkept next hnext
    rw [← he] at hbehind
    exact hkept w hw _ hnode hevent.symm _ (hbehind next hnext)
  · intro hspared w' hw' tmp1 htmp1 _ next hnext
    obtain rfl := Option.some.inj (hw.symm.trans hw')
    obtain rfl := Option.some.inj (hnode.symm.trans htmp1)
    rw [he] at hnext
    cases hrest : rest.head? with
    | none =>
      rw [List.head?_eq_none_iff] at hrest
      subst hrest
      have hend : s.dispatcher.link e.1 = 0 := hinv.holds.link_eq
      have hnone := hinv.holds.freed 0 (List.nodup_cons.mp hinv.holds.nodup).1
      simp_all
    | some y =>
      obtain rfl := Option.some.inj ((hbehind y hrest).symm.trans hnext)
      exact hspared y hrest

theorem daemonInv_visit (h : s.DaemonInv) (hw : s.dispatch = some w) (htmp : w.tmp ≠ 0)
    (hkept : s.SuccessorKept ops) (htwice : s.NotTwice ops) : (s.visit w ops).DaemonInv := by
  obtain ⟨done, e, rest, hinv, he, hcases⟩ := visit_cases h hw htmp ops
  rcases hcases with ⟨hevent, heq⟩ | ⟨hevent, d', l', hholds, hdone, heq⟩
  · rw [heq]
    refine ⟨h.noFreed, h.list, fun w' hw' => ?_⟩
    obtain rfl := Option.some.inj hw'
    exact ⟨_, _, hinv.skip he hevent⟩
  · have hspared := (successorKept_iff hw hinv he hevent).mp hkept
    have hnew := hinv.callback he hevent hholds hdone hspared (htwice w hw)
    rw [heq]
    refine ⟨h.noFreed, ⟨l', hholds⟩, fun w' hw' => ?_⟩
    simp_all

theorem exists_tmp (h : ¬ s.Idle) : ∃ w, s.dispatch = some w ∧ w.tmp ≠ 0 := by
  unfold Idle at h
  push Not at h
  assumption

theorem daemonInv_invariant : keptSystem.Invariant DaemonInv := by
  apply System.Invariant.of_restrict
  · rintro s rfl
    exact daemonInv_init
  · rintro s op s' h hkept ⟨henabled, rfl⟩
    cases op with
    | call op => exact daemonInv_call h op
    | processEvt event => exact daemonInv_processEvt h hkept
    | visit ops =>
      obtain ⟨w, hw, htmp⟩ := exists_tmp henabled.2
      have hvisit := daemonInv_visit h hw htmp hkept.1 hkept.2
      unfold exec
      rw [hw]
      exact hvisit

theorem DaemonInv.survives (h : s.DaemonInv) : s.Survives where
  noFreed := h.noFreed
  registered w hw := by
    obtain ⟨done, rest, hinv⟩ := h.walk w hw
    exact hinv.registered
  each w hw htmp := by
    obtain ⟨done, rest, hinv⟩ := h.walk w hw
    exact hinv.callsEach htmp
  turns w hw := by
    obtain ⟨done, rest, hinv⟩ := h.walk w hw
    exact Nat.le_trans (Nat.le_add_right _ _) hinv.turns

/-- The loop goes on at a node that was freed. -/
def NextFreed (s : EvtDaemon) : Prop :=
  ∃ w ∈ s.dispatch, w.tmp ≠ 0 ∧ s.dispatcher.nodes w.tmp = none

theorem freed_iff {d d' : EvtDispatcher} {done rest l' : List (Nat × Registration)}
    {e next : Nat × Registration} (h : d.Holds (done ++ [e] ++ next :: rest)) (hholds : d'.Holds l')
    (hdone : CallsDone d.fresh ops (done ++ [e] ++ next :: rest) l') :
    d'.nodes next.1 = none ↔ ¬ next.2.Spared ops := by
  have hmem : next ∈ done ++ [e] ++ next :: rest := by simp
  obtain ⟨new, rfl, hnew, -⟩ := hdone.kept
  constructor
  · intro hnone hspared
    have hstays := hholds.nodes_eq (e := next) (List.mem_append_left _
      (List.mem_filter.mpr ⟨hmem, decide_eq_true hspared⟩))
    rw [hnone] at hstays
    cases hstays
  · intro hgoes
    apply hholds.freed
    intro hin
    obtain ⟨a, ha, heq⟩ := List.mem_map.mp hin
    rcases List.mem_append.mp ha with ha | ha
    · obtain ⟨hold, hspared⟩ := List.mem_filter.mp ha
      have hinj := List.inj_on_of_nodup_map (List.nodup_cons.mp h.nodup).2
      rw [hinj hold hmem heq] at hspared
      exact hgoes (of_decide_eq_true hspared)
    · have hfresh := (hnew a ha).1
      have hlt := h.fresh next hmem
      omega

theorem nextFreed_visit (h : s.DaemonInv) (hw : s.dispatch = some w) (htmp : w.tmp ≠ 0)
    (ops : List DispatcherOp) : (s.visit w ops).NextFreed ↔ ¬ s.SuccessorKept ops := by
  obtain ⟨done, e, rest, hinv, he, hcases⟩ := visit_cases h hw htmp ops
  have hlist : s.dispatcher.Holds (done ++ [e] ++ rest) := by simpa using hinv.holds
  have hlink := hinv.holds.link_eq
  have hend : (rest.map Prod.fst).headD 0 ≠ 0 → ∃ next rest', rest = next :: rest' := by
    intro hne
    cases rest with
    | nil => exact absurd rfl hne
    | cons next rest => exact ⟨next, rest, rfl⟩
  rcases hcases with ⟨hevent, heq⟩ | ⟨hevent, d', l', hholds, hdone, heq⟩
  · -- no callback: the node behind is live
    constructor
    · rw [heq]
      rintro ⟨w', hw', hne, hnone⟩
      obtain rfl := Option.some.inj hw'
      rw [hlink] at hne hnone
      obtain ⟨next, rest, rfl⟩ := hend hne
      have hnode := hlist.nodes_eq (e := next) (by simp)
      exact absurd (hnode.symm.trans hnone) nofun
    · intro hnot
      exfalso
      apply hnot
      intro w' hw' tmp1 htmp1 hsame
      obtain rfl := Option.some.inj (hw.symm.trans hw')
      have hnode := hinv.holds.nodes_eq (e := e) (by simp)
      grind
  · rw [heq, successorKept_iff hw hinv he hevent]
    constructor
    · rintro ⟨w', hw', hne, hnone⟩ hspared
      grind [freed_iff]
    · intro hnot
      push Not at hnot
      obtain ⟨next, hnext, hgoes⟩ := hnot
      obtain ⟨rest, rfl⟩ := List.head?_eq_some_iff.mp hnext
      refine ⟨_, rfl, ?_, ?_⟩
      · rw [hlink]
        exact hlist.ne_zero (by simp)
      · rw [hlink]
        exact (freed_iff hlist hholds hdone).mpr hgoes

/-- In the runs in which no callback deregisters the listener of the node behind its own and no
listener is registered twice for the event, event dispatch survives its callbacks. A callback
that does deregister that listener makes the loop go on at a freed node. -/
theorem survives_of_reachable (s : EvtDaemon) (hs : keptSystem.Reachable s) :
    s.Survives ∧
    ∀ ops, ¬ s.Idle → ((s.exec (.visit ops)).NextFreed ↔ ¬ s.SuccessorKept ops) := by
  have h := daemonInv_invariant.reachable hs
  refine ⟨h.survives, fun ops hbusy => ?_⟩
  obtain ⟨w, hw, htmp⟩ := exists_tmp hbusy
  simp [nextFreed_visit, exec, h, hw, htmp]

/-! ## Computed runs -/

instance (s : EvtDaemon) : Decidable s.Idle := inferInstanceAs (Decidable (∀ w ∈ s.dispatch, _))

instance (s : EvtDaemon) : (op : Op) → Decidable (s.Enabled op)
  | .call _ => inferInstanceAs (Decidable (_ ∧ _))
  | .processEvt _ => inferInstanceAs (Decidable (_ ∧ _))
  | .visit _ => inferInstanceAs (Decidable (_ ∧ _))

instance (s : EvtDaemon) (ops : List DispatcherOp) : Decidable (s.SuccessorKept ops) :=
  inferInstanceAs (Decidable (∀ w ∈ s.dispatch, ∀ tmp1 ∈ s.dispatcher.nodes w.tmp, _ → _))

instance (s : EvtDaemon) (ops : List DispatcherOp) : Decidable (s.NotTwice ops) :=
  inferInstanceAs (Decidable (∀ w ∈ s.dispatch, ∀ r ∈ w.before, _ → _))

instance (s : EvtDaemon) : (op : Op) → Decidable (s.Kept op)
  | .call _ => .isTrue trivial
  | .processEvt _ => inferInstanceAs (Decidable (List.Nodup _))
  | .visit _ => inferInstanceAs (Decidable (_ ∧ _))

/-- Two interfaces of which each deletes itself at `IPA_LAN_DELETE_SELF`. The second is the
last of the list. -/
def twoInterfaces : List Op :=
  [.call (.registr .linkDownEvent 1 true), .call (.registr .lanDeleteSelf 1 true),
    .call (.registr .linkDownEvent 2 true), .call (.registr .lanDeleteSelf 2 true),
    .processEvt .lanDeleteSelf, .visit [], .visit [.deregistr 1], .visit []]

theorem survives_of_reachable_twoInterfaces :
    ∃ s, System.follow (fun s op => s.Kept op ∧ s.Enabled op) exec twoInterfaces {} = some s ∧
      (¬ s.Idle ∧ s.dispatcher.registrations = [⟨.linkDownEvent, 2⟩, ⟨.lanDeleteSelf, 2⟩]) ∧
      s.Survives ∧
      ((s.exec (.visit [.deregistr 2])).NextFreed ↔ ¬ s.SuccessorKept [.deregistr 2]) := by
  have hrun : (System.follow (fun s op => s.Kept op ∧ s.Enabled op) exec twoInterfaces {}).any
      (fun s => ¬ s.Idle ∧
        s.dispatcher.registrations = [⟨.linkDownEvent, 2⟩, ⟨.lanDeleteSelf, 2⟩]) = true := by
    decide +kernel
  obtain ⟨s, hs, hlast⟩ := (Option.any_eq_true _ _).mp hrun
  have hbusy := of_decide_eq_true hlast
  have hreach : keptSystem.Reachable s := System.reachable_follow _ (.init rfl) hs
  obtain ⟨hsurvives, hnext⟩ := survives_of_reachable s hreach
  exact ⟨s, hs, hbusy, hsurvives, hnext _ hbusy.1⟩

/-- `IPACM_Wlan` registers for the statistics behind `IPA_LAN_DELETE_SELF`, and deletes itself
at that event: the loop reads the node that was freed. -/
theorem not_survives : ∃ s, system.Reachable s ∧ ¬ s.Survives := by
  have hrun : (System.follow (fun s op => True ∧ s.Enabled op) exec
      [.call (.registr .lanDeleteSelf 1 true), .call (.registr .tetheringStatsUpdateEvent 1 true),
        .processEvt .lanDeleteSelf, .visit [.deregistr 1], .visit []] {}).any
        (fun s => s.readFreed) = true := by decide +kernel
  obtain ⟨s, hs, hfreed⟩ := (Option.any_eq_true _ _).mp hrun
  have hreach : (system.restrict fun _ _ => True).Reachable s :=
    System.reachable_follow _ (.init rfl) hs
  refine ⟨s, hreach.of_restrict, fun hsurvives => ?_⟩
  rw [hsurvives.noFreed] at hfreed
  cases hfreed

end EvtDaemon

end EtherDevice.Ipacm
