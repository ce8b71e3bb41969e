import EtherDevice.Lib.Transition
import Mathlib.Data.List.FinRange
import Mathlib.Logic.Function.Basic

/-!
# Components of the image core

`OMX_GetHandle` loads the library of a component for its first instance, and `OMX_FreeHandle`
unloads it after the last one. What the loader and the libraries answer is part of an operation.
-/

namespace EtherDevice.MmJpeg.OmxCore

open Lib

/-- `omx_core_component_t`; of a pointer that is only tested and called, whether it is set. -/
structure Component where
  handle : Fin 3 → Option Nat := fun _ => none
  isOpen : Bool := false
  libHandle : Bool := false
  getInstance : Bool := false
  createCompFunc : Bool := false

/-- `g_omxcore` and `g_omxcore_cnt`. The loader counts the references to each library, and
`wildCall` is set by a call of a function whose library is not loaded. -/
structure State where
  gOmxcore : Option (Fin 3 → Component) := none
  gOmxcoreCnt : Nat := 0
  loaded : Fin 3 → Nat := fun _ => 0
  wildCall : Bool := false

/-- What `dlopen`, the two calls of `dlsym`, `get_instance` and `create_comp_func` give. -/
structure Outcome where
  dlopen : Bool
  createSym : Bool
  instanceSym : Bool
  inst : Bool
  create : Option Nat

inductive Op
  | init (malloc : Bool)
  | deinit
  | getHandle (handle : Bool) (componentName : Option String) (o : Outcome)
  | freeHandle (hComp : Option Nat) (compDeInit : Bool)

def gCompInfo : Fin 3 → String
  | 0 => "OMX.qcom.image.jpeg.encoder"
  | 1 => "OMX.qcom.image.jpeg.decoder"
  | 2 => "OMX.qcom.image.jpeg.encoder_pipeline"

def getCompFromList : Option String → Option (Fin 3)
  | none => none
  | some compName => (List.finRange 3).find? fun c => gCompInfo c = compName

def getFreeInstIdx (p : Component) : Option (Fin 3) :=
  (List.finRange 3).find? fun i => p.handle i = none

def getIdxFromHandle (core : Fin 3 → Component) (h : Nat) : Option (Fin 3 × Fin 3) :=
  (List.finRange 3).findSome? fun c =>
    ((List.finRange 3).find? fun i => (core c).handle i = some h).map (c, ·)

def isCompActive (p : Component) : Bool := (List.finRange 3).any fun i => p.handle i ≠ none

def omxInit (s : State) (malloc : Bool) : State :=
  match s.gOmxcore with
  | some _ => { s with gOmxcoreCnt := s.gOmxcoreCnt + 1 }
  | none =>
    if malloc then { s with gOmxcore := some fun _ => {}, gOmxcoreCnt := s.gOmxcoreCnt + 1 } else s

def omxDeinit (s : State) : State :=
  { s with
    gOmxcore := if s.gOmxcoreCnt = 1 then none else s.gOmxcore
    gOmxcoreCnt := s.gOmxcoreCnt - 1 }

def State.call (s : State) (c : Fin 3) (pointer : Bool) : State :=
  { s with wildCall := s.wildCall || !pointer || s.loaded c = 0 }

def State.dlclose (s : State) (c : Fin 3) (libHandle : Bool) : State :=
  if libHandle then { s with loaded := Function.update s.loaded c (s.loaded c - 1) } else s

/-- The clean-up at `error`, which a call that opened the library has to close again. -/
def getHandleError (s : State) (core : Fin 3 → Component) (c : Fin 3) (closeHandle : Bool) :
    State × Option Nat :=
  if closeHandle then
    ({ s.dlclose c (core c).libHandle with
        gOmxcore := some (Function.update core c { core c with libHandle := false }) }, none)
  else ({ s with gOmxcore := some core }, none)

def getHandleCreate (s : State) (core : Fin 3 → Component) (c i : Fin 3) (o : Outcome)
    (closeHandle : Bool) : State × Option Nat :=
  let s := s.call c (core c).getInstance
  if !o.inst then getHandleError s core c closeHandle
  else
    let s := s.call c (core c).createCompFunc
    match o.create with
    | none => getHandleError s core c closeHandle
    | some h =>
      ({ s with
          gOmxcore := some (Function.update core c
            { core c with handle := Function.update (core c).handle i (some h) }) }, some h)

def load (p : Component) (o : Outcome) : Component :=
  { p with
    libHandle := true
    isOpen := true
    createCompFunc := o.createSym
    getInstance := o.instanceSym }

def getHandleOf (s : State) (core : Fin 3 → Component) (c : Fin 3) (o : Outcome) :
    State × Option Nat :=
  match getFreeInstIdx (core c) with
  | none => getHandleError s core c false
  | some i =>
    if (core c).isOpen then getHandleCreate s core c i o false
    else if !o.dlopen then
      getHandleError s (Function.update core c { core c with libHandle := false }) c false
    else
      let core := Function.update core c (load (core c) o)
      let s := { s with loaded := Function.update s.loaded c (s.loaded c + 1) }
      if !o.createSym || !o.instanceSym then getHandleError s core c true
      else getHandleCreate s core c i o true

def omxGetHandle (s : State) (handle : Bool) (componentName : Option String) (o : Outcome) :
    State × Option Nat :=
  match s.gOmxcore with
  | none => (s, none)
  | some core =>
    if !handle then (s, none)
    else
      match getCompFromList componentName with
      | none => (s, none)
      | some c => getHandleOf s core c o

def freeHandleAt (s : State) (core : Fin 3 → Component) (c i : Fin 3) (compDeInit : Bool) : State :=
  let s := s.call c true
  if !compDeInit then s
  else
    let p := { core c with handle := Function.update (core c).handle i none }
    if isCompActive p then { s with gOmxcore := some (Function.update core c p) }
    else
      { s.dlclose c p.libHandle with
        gOmxcore := some (Function.update core c
          { p with
            libHandle := false
            getInstance := false
            createCompFunc := false
            isOpen := false }) }

def omxFreeHandle (s : State) (hComp : Option Nat) (compDeInit : Bool) : State :=
  match s.gOmxcore, hComp with
  | none, _ => s
  | _, none => s
  | some core, some h =>
    match getIdxFromHandle core h with
    | none => s
    | some (c, i) => freeHandleAt s core c i compDeInit

def exec (s : State) : Op → State
  | .init malloc => omxInit s malloc
  | .deinit => omxDeinit s
  | .getHandle handle componentName o => (omxGetHandle s handle componentName o).1
  | .freeHandle hComp compDeInit => omxFreeHandle s hComp compDeInit

def State.component (s : State) (c : Fin 3) : Component := (s.gOmxcore.getD fun _ => {}) c

/-- The core is there, and a new instance has none of the handles of the live ones. -/
def Enabled (s : State) : Op → Prop
  | .init _ => True
  | .deinit => True
  | .getHandle _ _ o => s.gOmxcore ≠ none ∧
      ∀ c i, ∀ h, o.create = some h → (s.component c).handle i ≠ some h
  | .freeHandle _ _ => s.gOmxcore ≠ none

structure Sound (s : State) : Prop where
  isOpen_iff : ∀ c, (s.component c).isOpen ↔
    0 < s.loaded c ∧ (s.component c).getInstance ∧ (s.component c).createCompFunc
  loaded_iff : ∀ c, 0 < s.loaded c ↔ ∃ i, (s.component c).handle i ≠ none
  loaded_le : ∀ c, s.loaded c ≤ 1
  slots : ∀ c c' i i', ∀ h, (s.component c).handle i = some h →
    (s.component c').handle i' = some h → c = c' ∧ i = i'
  wildCall : s.wildCall = false

/-- A call of `OMX_GetHandle` that fails changes nothing. -/
def FailureKeeps (s : State) : Op → Prop
  | .getHandle handle componentName o => (omxGetHandle s handle componentName o).2 = none →
      (omxGetHandle s handle componentName o).1 = s
  | _ => True

def Good (s : State) (op : Op) : Prop := Sound (exec s op) ∧ FailureKeeps s op

/-- The core is not given up with an open component, and a call that loads a library succeeds. -/
def Cond (s : State) : Op → Prop
  | .deinit => s.gOmxcoreCnt = 1 → ∀ c, (s.component c).isOpen = false
  | .getHandle handle componentName o => ∀ c, handle = true →
      getCompFromList componentName = some c → (s.component c).isOpen = false → o.dlopen = true →
      o.createSym = true ∧ o.instanceSym = true ∧ o.inst = true ∧ o.create ≠ none
  | _ => True

def Component.Opened (p : Component) (loaded : Nat) : Prop :=
  (p.isOpen = true ∧ p.libHandle = true ∧ p.getInstance = true ∧ p.createCompFunc = true) ∧
    loaded = 1 ∧ ∃ i, p.handle i ≠ none

def Component.Closed (p : Component) (loaded : Nat) : Prop :=
  p.isOpen = false ∧ p.libHandle = false ∧ loaded = 0 ∧ ∀ i, p.handle i = none

structure Inv (s : State) : Prop where
  comps : ∀ c, (s.component c).Opened (s.loaded c) ∨ (s.component c).Closed (s.loaded c)
  slots : ∀ c c' i i', ∀ h, (s.component c).handle i = some h →
    (s.component c').handle i' = some h → c = c' ∧ i = i'
  wildCall : s.wildCall = false
  cnt : s.gOmxcore = none ↔ s.gOmxcoreCnt = 0

variable {s s' : State} {core : Fin 3 → Component} {c i : Fin 3} {p : Component} {o : Outcome}

theorem Inv.sound (hs : Inv s) : Sound s where
  isOpen_iff c := by
    obtain ⟨⟨hopen, -, hget, hcreate⟩, hloaded, -⟩ | ⟨hopen, -, hloaded, -⟩ := hs.comps c
    · simp [hopen, hget, hcreate, hloaded]
    · simp [hopen, hloaded]
  loaded_iff c := by
    obtain ⟨-, hloaded, hlive⟩ | ⟨-, -, hloaded, hnone⟩ := hs.comps c
    · simpa [hloaded] using hlive
    · simp [hloaded, hnone]
  loaded_le c := by
    obtain ⟨-, hloaded, -⟩ | ⟨-, -, hloaded, -⟩ := hs.comps c <;> omega
  slots := hs.slots
  wildCall := hs.wildCall

theorem component_of_core (h : s.gOmxcore = some core) (c : Fin 3) : s.component c = core c := by
  simp [State.component, h]

theorem inv_init : Inv {} where
  comps c := Or.inr ⟨rfl, rfl, rfl, fun _ => rfl⟩
  slots := by simp [State.component]
  wildCall := rfl
  cnt := by simp

theorem Inv.update (hs : Inv s) (hcore : s.gOmxcore = some core)
    (hcore' : s'.gOmxcore = some (Function.update core c p))
    (hcomp : p.Opened (s'.loaded c) ∨ p.Closed (s'.loaded c))
    (hloaded : ∀ c', c' ≠ c → s'.loaded c' = s.loaded c')
    (hhandle : ∀ i h, p.handle i = some h → (core c).handle i = some h ∨
      (∀ j, p.handle j = some h → j = i) ∧ ∀ c' j, c' ≠ c → (core c').handle j ≠ some h)
    (hwild : s'.wildCall = false) (hcnt : s'.gOmxcoreCnt = s.gOmxcoreCnt) : Inv s' := by
  have hother : ∀ c', c' ≠ c → s'.component c' = core c' := by
    intro c' hne
    rw [component_of_core hcore', Function.update_of_ne hne]
  have hself : s'.component c = p := by
    rw [component_of_core hcore', Function.update_self]
  have hslots := hs.slots
  simp only [component_of_core hcore] at hslots
  refine ⟨fun c' => ?_, fun c₁ c₂ i₁ i₂ h h₁ h₂ => ?_, hwild, ?_⟩
  · by_cases hc : c' = c
    · subst hc
      rwa [hself]
    · rw [hother c' hc, hloaded c' hc, ← component_of_core hcore]
      exact hs.comps c'
  · by_cases hc₁ : c₁ = c <;> by_cases hc₂ : c₂ = c
    · subst hc₁ hc₂
      rw [hself] at h₁ h₂
      refine ⟨rfl, ?_⟩
      obtain hold₁ | ⟨honly, -⟩ := hhandle i₁ h h₁
      · obtain hold₂ | ⟨honly, -⟩ := hhandle i₂ h h₂
        · exact (hslots _ _ _ _ h hold₁ hold₂).2
        · exact honly i₁ h₁
      · exact (honly i₂ h₂).symm
    · subst hc₁
      rw [hself] at h₁
      rw [hother c₂ hc₂] at h₂
      obtain hold₁ | ⟨-, hnot⟩ := hhandle i₁ h h₁
      · exact hslots _ _ _ _ h hold₁ h₂
      · exact absurd h₂ (hnot c₂ i₂ hc₂)
    · subst hc₂
      rw [hself] at h₂
      rw [hother c₁ hc₁] at h₁
      obtain hold₂ | ⟨-, hnot⟩ := hhandle i₂ h h₂
      · exact hslots _ _ _ _ h h₁ hold₂
      · exact absurd h₁ (hnot c₁ i₁ hc₁)
    · rw [hother c₁ hc₁] at h₁
      rw [hother c₂ hc₂] at h₂
      exact hslots _ _ _ _ h h₁ h₂
  · rw [hcore', hcnt, ← hs.cnt, hcore]
    simp

theorem getFreeInstIdx_some (h : getFreeInstIdx p = some i) : p.handle i = none := by
  simpa using List.find?_some h

theorem getFreeInstIdx_ne_none (h : ∀ i, p.handle i = none) : getFreeInstIdx p ≠ none := by
  simp [getFreeInstIdx, h]

theorem isCompActive_iff : isCompActive p = true ↔ ∃ i, p.handle i ≠ none := by
  simp [isCompActive]

theorem getIdxFromHandle_some {h : Nat} (hfound : getIdxFromHandle core h = some (c, i)) :
    (core c).handle i = some h := by
  obtain ⟨c', -, hc'⟩ := List.exists_of_findSome?_eq_some hfound
  obtain ⟨i', hi', hpair⟩ := Option.map_eq_some_iff.1 hc'
  cases hpair
  simpa using List.find?_some hi'

theorem call_eq (hwild : s.wildCall = false) (hloaded : s.loaded c ≠ 0) : s.call c true = s := by
  obtain ⟨_, _, _, _⟩ := s
  simp_all [State.call]

theorem getHandleError_false (hcore : s.gOmxcore = some core) :
    getHandleError s core c false = (s, none) := by
  simp [getHandleError, ← hcore]

/-- Only the last line of a call that finds the library in order changes the state. -/
theorem getHandleCreate_eq (hwild : s.wildCall = false) (hloaded : s.loaded c ≠ 0)
    (hget : (core c).getInstance = true) (hcreate : (core c).createCompFunc = true)
    (closeHandle : Bool) : getHandleCreate s core c i o closeHandle =
      match o.inst, o.create with
      | true, some h =>
        ({ s with
            gOmxcore := some (Function.update core c
              { core c with handle := Function.update (core c).handle i (some h) }) }, some h)
      | _, _ => getHandleError s core c closeHandle := by
  rw [getHandleCreate, hget, hcreate]
  simp only [call_eq hwild hloaded]
  cases o.inst <;> cases o.create <;> rfl

theorem Inv.created (hs : Inv s) (hcore : s.gOmxcore = some core) {q : Component} {h : Nat}
    (hfree : q.handle i = none) (hq : ∀ j, q.handle j = (core c).handle j)
    (hopen : q.isOpen = true ∧ q.libHandle = true ∧ q.getInstance = true ∧ q.createCompFunc = true)
    (hfresh : ∀ c i, (s.component c).handle i ≠ some h)
    (hcore' : s'.gOmxcore = some (Function.update core c
      { q with handle := Function.update q.handle i (some h) }))
    (hloaded : s'.loaded = Function.update s.loaded c 1) (hwild : s'.wildCall = false)
    (hcnt : s'.gOmxcoreCnt = s.gOmxcoreCnt) : Inv s' := by
  refine hs.update hcore hcore' (Or.inl ⟨hopen, by simp [hloaded], i, by simp⟩)
    (fun c' hne => by simp [hloaded, hne]) (fun j k hk => ?_) hwild hcnt
  simp only [component_of_core hcore] at hfresh
  by_cases hj : j = i
  · subst hj
    simp only [Function.update_self, Option.some.injEq] at hk
    subst hk
    refine Or.inr ⟨fun j' hj' => ?_, fun c' j' _ => hfresh c' j'⟩
    by_contra hne
    simp only [Function.update_of_ne hne, hq] at hj'
    exact hfresh c j' hj'
  · simp only [Function.update_of_ne hj, hq] at hk
    exact Or.inl hk

theorem Inv.getHandleOf_open (hs : Inv s) (hcore : s.gOmxcore = some core)
    (hopened : (core c).Opened (s.loaded c))
    (hfresh : ∀ c i, ∀ h, o.create = some h → (s.component c).handle i ≠ some h) :
    Inv (getHandleOf s core c o).1 ∧
      ((getHandleOf s core c o).2 = none → (getHandleOf s core c o).1 = s) := by
  obtain ⟨hopen, hloaded, -⟩ := id hopened
  rw [getHandleOf]
  cases hfree : getFreeInstIdx (core c) with
  | none =>
    simp only [getHandleError_false hcore]
    exact ⟨hs, fun _ => trivial⟩
  | some i =>
    simp only [hopen.1, if_true]
    rw [getHandleCreate_eq hs.wildCall (by omega) hopen.2.2.1 hopen.2.2.2]
    split
    · rename_i h _ hcreate
      refine ⟨?_, fun hnone => by cases hnone⟩
      exact hs.created hcore (getFreeInstIdx_some hfree) (fun _ => rfl) hopen
        (fun c i => hfresh c i h hcreate) rfl (by simp [← hloaded]) hs.wildCall rfl
    · rw [getHandleError_false hcore]
      exact ⟨hs, fun _ => rfl⟩

theorem getHandleOf_closed_of_not_dlopen (hcore : s.gOmxcore = some core)
    (hclosed : (core c).Closed (s.loaded c)) (hdlopen : o.dlopen = false) :
    getHandleOf s core c o = (s, none) := by
  obtain ⟨hopen, hlib, -, hnone⟩ := hclosed
  obtain ⟨i, hfree⟩ := Option.ne_none_iff_exists'.1 (getFreeInstIdx_ne_none hnone)
  have hsame : { core c with libHandle := false } = core c := by rw [← hlib]
  rw [getHandleOf, hfree]
  dsimp only
  rw [if_neg (by simp [hopen]), if_pos (by simp [hdlopen]), hsame, Function.update_eq_self,
    getHandleError_false hcore]

theorem Inv.getHandleOf_closed (hs : Inv s) (hcore : s.gOmxcore = some core)
    (hclosed : (core c).Closed (s.loaded c)) (hdlopen : o.dlopen = true)
    (hfresh : ∀ c i, ∀ h, o.create = some h → (s.component c).handle i ≠ some h) :
    if o.createSym = true ∧ o.instanceSym = true ∧ o.inst = true ∧ o.create ≠ none then
      Inv (getHandleOf s core c o).1 ∧ (getHandleOf s core c o).2 ≠ none
    else ¬ Sound (getHandleOf s core c o).1 := by
  obtain ⟨hopen, hlib, hloaded, hnone⟩ := hclosed
  obtain ⟨i, hfree⟩ := Option.ne_none_iff_exists'.1 (getFreeInstIdx_ne_none hnone)
  have hbad : ∀ s' : State, ∀ core' : Fin 3 → Component, s'.loaded c = 1 →
      (core' c).isOpen = true → (core' c).libHandle = true →
      ¬ Sound (getHandleError s' core' c true).1 := by
    intro s' core' hloaded' hopen' hlib' hsound
    have hc := hsound.isOpen_iff c
    simp [getHandleError, State.component, State.dlclose, hlib', hopen', hloaded'] at hc
  have hload : getHandleOf s core c o =
      if (!o.createSym || !o.instanceSym) = true then
        getHandleError { s with loaded := Function.update s.loaded c (s.loaded c + 1) }
          (Function.update core c (load (core c) o)) c true
      else
        getHandleCreate { s with loaded := Function.update s.loaded c (s.loaded c + 1) }
          (Function.update core c (load (core c) o)) c i o true := by
    rw [getHandleOf, hfree]
    dsimp only
    rw [if_neg (by simp [hopen]), if_neg (by simp [hdlopen])]
  by_cases hall : o.createSym = true ∧ o.instanceSym = true ∧ o.inst = true ∧ o.create ≠ none
  · obtain ⟨hcreateSym, hinstanceSym, hinst, hcreate⟩ := id hall
    obtain ⟨h, hcreate⟩ := Option.ne_none_iff_exists'.1 hcreate
    rw [if_pos hall, hload, if_neg (by simp [hcreateSym, hinstanceSym]),
      getHandleCreate_eq (by exact hs.wildCall) (by simp) (by simpa [load] using hinstanceSym)
        (by simpa [load] using hcreateSym), hinst, hcreate]
    refine ⟨?_, by simp⟩
    exact @Inv.created s _ core c i hs hcore (load (core c) o) h (getFreeInstIdx_some hfree)
      (fun _ => rfl) ⟨rfl, rfl, hinstanceSym, hcreateSym⟩ (fun c i => hfresh c i h hcreate)
      (by simp) (by simp [hloaded]) hs.wildCall rfl
  · rw [if_neg hall, hload]
    split_ifs with hsyms
    · exact hbad _ _ (by simp [hloaded]) (by simp [load]) (by simp [load])
    · simp only [Bool.or_eq_true, Bool.not_eq_true', not_or, Bool.not_eq_false] at hsyms
      rw [getHandleCreate_eq (by exact hs.wildCall) (by simp) (by simpa [load] using hsyms.2)
        (by simpa [load] using hsyms.1)]
      split
      · rename_i h hinst hcreate
        exact absurd ⟨hsyms.1, hsyms.2, hinst, by simp [hcreate]⟩ hall
      · exact hbad _ _ (by simp [hloaded]) (by simp [load]) (by simp [load])

theorem Inv.good_getHandle_iff (hs : Inv s) {handle : Bool} {componentName : Option String}
    (henabled : Enabled s (.getHandle handle componentName o)) :
    (Good s (.getHandle handle componentName o) ↔ Cond s (.getHandle handle componentName o)) ∧
      (Cond s (.getHandle handle componentName o) →
        Inv (exec s (.getHandle handle componentName o))) := by
  obtain ⟨hsome, hfresh⟩ := henabled
  obtain ⟨core, hcore⟩ := Option.ne_none_iff_exists'.1 hsome
  simp only [Good, FailureKeeps, Cond, exec, omxGetHandle, hcore]
  cases handle with
  | false => simp [hs, hs.sound]
  | true =>
    cases hname : getCompFromList componentName with
    | none => simp [hs, hs.sound]
    | some c =>
      have hcomp := hs.comps c
      simp only [component_of_core hcore] at hcomp ⊢
      simp only [Bool.not_true, Bool.false_eq_true, if_false, Option.some.injEq, true_implies,
        forall_eq']
      obtain hopened | hclosed := hcomp
      · obtain ⟨hinv, hkeep⟩ := hs.getHandleOf_open hcore hopened hfresh
        have hopen := hopened.1.1
        exact ⟨⟨fun _ h => by simp [hopen] at h, fun _ => ⟨hinv.sound, hkeep⟩⟩, fun _ => hinv⟩
      · have hopen := hclosed.1
        by_cases hdlopen : o.dlopen = true
        · have hstep := hs.getHandleOf_closed hcore hclosed hdlopen hfresh
          simp only [hopen, hdlopen, true_implies]
          split_ifs at hstep with hall
          · exact ⟨⟨fun _ => hall, fun _ => ⟨hstep.1.sound, fun h => absurd h hstep.2⟩⟩,
              fun _ => hstep.1⟩
          · exact ⟨⟨fun h => absurd h.1 hstep, fun h => absurd h hall⟩, fun h => absurd h hall⟩
        · rw [getHandleOf_closed_of_not_dlopen hcore hclosed (by simpa using hdlopen)]
          exact ⟨⟨fun _ _ h => absurd h hdlopen, fun _ => ⟨hs.sound, fun _ => rfl⟩⟩, fun _ => hs⟩

theorem Inv.freeHandleAt (hs : Inv s) (hcore : s.gOmxcore = some core)
    (hlive : (core c).handle i ≠ none) (compDeInit : Bool) :
    Inv (freeHandleAt s core c i compDeInit) := by
  have hcomp := hs.comps c
  rw [component_of_core hcore] at hcomp
  obtain ⟨hopen, hloaded, -⟩ | hclosed := hcomp
  swap
  · exact absurd (hclosed.2.2.2 i) hlive
  rw [OmxCore.freeHandleAt, call_eq hs.wildCall (by omega)]
  have hkept : ∀ j h, Function.update (core c).handle i none j = some h →
      (core c).handle j = some h := by
    intro j h hj
    by_cases hji : j = i
    · subst hji
      simp at hj
    · rwa [Function.update_of_ne hji] at hj
  cases compDeInit with
  | false => exact hs
  | true =>
    dsimp only
    rw [if_neg (by simp)]
    split_ifs with hactive
    · exact hs.update hcore rfl (Or.inl ⟨hopen, hloaded, isCompActive_iff.1 hactive⟩)
        (fun _ _ => rfl) (fun j h hj => Or.inl (hkept j h hj)) hs.wildCall rfl
    · have hnone : ∀ j, Function.update (core c).handle i none j = none := by
        simpa [isCompActive_iff] using hactive
      refine hs.update hcore rfl (Or.inr ⟨rfl, rfl, ?_, hnone⟩) (fun c' hne => ?_)
        (fun j h hj => Or.inl (hkept j h hj)) ?_ ?_
      · simp [State.dlclose, hopen.2.1, hloaded]
      · simp [State.dlclose, hopen.2.1, hne]
      · simp [State.dlclose, hopen.2.1, hs.wildCall]
      · simp [State.dlclose, hopen.2.1]

theorem Inv.omxFreeHandle (hs : Inv s) (hComp : Option Nat) (compDeInit : Bool) :
    Inv (omxFreeHandle s hComp compDeInit) := by
  rw [OmxCore.omxFreeHandle.eq_def]
  split
  · exact hs
  · exact hs
  · rename_i core h hcore
    split
    · exact hs
    · rename_i c i hfound
      refine hs.freeHandleAt hcore ?_ compDeInit
      rw [getIdxFromHandle_some hfound]
      simp

theorem Inv.omxInit (hs : Inv s) (malloc : Bool) : Inv (omxInit s malloc) := by
  cases hcore : s.gOmxcore with
  | some core =>
    simp only [OmxCore.omxInit, hcore]
    have hcomps := hs.comps
    have hslots := hs.slots
    simp only [component_of_core hcore] at hcomps hslots
    exact ⟨hcomps, hslots, hs.wildCall, by simp⟩
  | none =>
    cases malloc with
    | false => simpa [OmxCore.omxInit, hcore] using hs
    | true =>
      have hcomps := hs.comps
      have hnew : ∀ c, s.component c = {} := fun c => by simp [State.component, hcore]
      simp only [hnew] at hcomps
      simp only [OmxCore.omxInit, hcore, if_true]
      exact ⟨hcomps, by simp [State.component], hs.wildCall, by simp⟩

theorem Inv.good_deinit_iff (hs : Inv s) : (Good s .deinit ↔ Cond s .deinit) ∧
    (Cond s .deinit → Inv (exec s .deinit)) := by
  have hkeep : Cond s .deinit → Inv (exec s .deinit) := by
    intro hcond
    by_cases hlast : s.gOmxcoreCnt = 1
    · have hclosed : ∀ c, s.loaded c = 0 := by
        intro c
        obtain ⟨⟨hopen, -⟩, -⟩ | ⟨-, -, hloaded, -⟩ := hs.comps c
        · simp [hcond hlast c] at hopen
        · exact hloaded
      simp only [exec, omxDeinit, hlast]
      exact ⟨fun c => Or.inr ⟨rfl, rfl, hclosed c, fun _ => rfl⟩, by simp [State.component],
        hs.wildCall, by simp⟩
    · have hcnt := hs.cnt
      simp only [exec, omxDeinit, hlast, if_false]
      refine ⟨hs.comps, hs.slots, hs.wildCall, hcnt.trans ?_⟩
      dsimp only
      omega
  refine ⟨⟨fun hgood hlast c => ?_, fun hcond => ⟨(hkeep hcond).sound, trivial⟩⟩, hkeep⟩
  have hloaded := hgood.1.loaded_iff c
  obtain ⟨-, hone, -⟩ | ⟨hopen, -⟩ := hs.comps c
  · simp [exec, omxDeinit, hlast, State.component, hone] at hloaded
  · exact hopen

theorem Inv.good_iff (hs : Inv s) (op : Op) (henabled : Enabled s op) :
    (Good s op ↔ Cond s op) ∧ (Cond s op → Inv (exec s op)) := by
  cases op with
  | init malloc =>
    have hinv := hs.omxInit malloc
    exact ⟨⟨fun _ => trivial, fun _ => ⟨hinv.sound, trivial⟩⟩, fun _ => hinv⟩
  | deinit => exact hs.good_deinit_iff
  | getHandle handle componentName o => exact hs.good_getHandle_iff henabled
  | freeHandle hComp compDeInit =>
    have hinv := hs.omxFreeHandle hComp compDeInit
    exact ⟨⟨fun _ => trivial, fun _ => ⟨hinv.sound, trivial⟩⟩, fun _ => hinv⟩

/-- The life cycle of the components is right in every run in which the core is not given up
with an open component and no call fails that loads a library, and in no other. -/
theorem good_along_iff (ops : List Op) :
    System.Along (fun s op => Enabled s op ∧ Good s op) exec ops {} ↔
      System.Along (fun s op => Enabled s op ∧ Cond s op) exec ops {} := by
  refine System.along_iff (P := Inv) (fun s op hs => ?_) (fun s op hs hcond => ?_) ops inv_init
  · exact and_congr_right fun henabled => (hs.good_iff op henabled).1
  · exact (hs.good_iff op hcond.1).2 hcond.2

/-- The encoder's library is loaded, and `getInstance` gives no object. -/
theorem not_good_along : ¬ ∀ ops : List Op, System.Along Enabled exec ops {} →
    System.Along Good exec ops {} := by
  intro h
  have hgood := (h [.init true, .getHandle true (some "OMX.qcom.image.jpeg.encoder")
    ⟨true, true, true, false, none⟩] ⟨trivial, ⟨by decide, by simp⟩, trivial⟩).2.1.1
  exact absurd (hgood.isOpen_iff 0) (by decide)

end EtherDevice.MmJpeg.OmxCore
