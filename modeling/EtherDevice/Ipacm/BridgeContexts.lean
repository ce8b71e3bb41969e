import EtherDevice.Ipacm.EthBridge
import EtherDevice.Lib.Handles
import EtherDevice.Lib.Transition
import Mathlib.Data.List.Chain
import Mathlib.Data.List.Nodup
import Mathlib.Logic.Function.Basic

/-!
# Header processing contexts

Three contexts that all instances of `IPACM_Lan` share say how a header becomes one of the other
link layer. They are added one after the other, and an event is posted after the second. When the
third cannot be added the second is deleted again, but the event is not taken back.
-/

namespace EtherDevice.Ipacm.EthBridge

open Lib

/-- The three contexts, which are static. -/
inductive CtxName
  | wlanToWlan
  | usbToWlan
  | wlanToUsb
  deriving DecidableEq

structure HdrProcCtxInfo where
  procCtxHdl : Nat := 0
  valid : Bool := false

inductive HdrProcType
  | none
  | ethIIToEthII
  | ethIITo8023
  | ieee8023ToEthII
  | ieee8023To8023
  deriving DecidableEq

/-- A context in the hardware, and which one it was added as. -/
structure InstalledCtx where
  name : CtxName
  hdl : Nat
  type : HdrProcType
  hdrHdl : Nat

inductive CtxEvent
  | set
  | unset
  deriving DecidableEq

structure PostedCtxEvent where
  event : CtxEvent
  ifIndex : Nat

structure BridgeIface where
  ipaIfNum : Nat
  isWlan : Bool

structure HdrTypes where
  usbHdrType : HdrL2Type
  wlanHdrType : HdrL2Type
  usbHdrTemplateHdl : Nat := 0
  wlanHdrTemplateHdl : Nat := 0

structure CtxMemory where
  table : Bool := true
  event : Bool := true

structure CtxAdded where
  fresh : Fresh
  added : CtxName → Bool := fun _ => true
  /-- The deletion that takes the second context back -/
  takenBack : Bool := true

def getHdrProcType : HdrL2Type → HdrL2Type → HdrProcType
  | .ethernetII, .ethernetII => .ethIIToEthII
  | .ethernetII, .ieee8023 => .ethIITo8023
  | .ieee8023, .ethernetII => .ieee8023ToEthII
  | .ieee8023, .ieee8023 => .ieee8023To8023
  | _, _ => .none

/-- The contexts as `IPACM_Lan` records them, those in the hardware and the events posted. -/
structure Contexts where
  info : CtxName → HdrProcCtxInfo := fun _ => {}
  hardware : List InstalledCtx := []
  posted : List PostedCtxEvent := []

namespace Contexts

variable (s : Contexts)

def setValid (name : CtxName) (info : HdrProcCtxInfo) : Contexts :=
  { s with info := Function.update s.info name info }

def post (event : CtxEvent) (iface : BridgeIface) : Contexts :=
  { s with posted := s.posted ++ [⟨event, iface.ipaIfNum⟩] }

def addCtx (name : CtxName) (type : HdrProcType) (hdrHdl : Nat) (fresh : Fresh) : Contexts :=
  let hdl := fresh.pick (s.hardware.map (·.hdl))
  { s with
    info := Function.update s.info name ⟨hdl, true⟩
    hardware := s.hardware ++ [⟨name, hdl, type, hdrHdl⟩] }

def deleteHeaderProcCtx (hdl : Nat) (ok : Bool) : Contexts :=
  if ok then { s with hardware := s.hardware.filter (·.hdl ≠ hdl) } else s

def addWlanToUsb (types : HdrTypes) (added : CtxAdded) : Int × Contexts :=
  if (s.info .wlanToUsb).valid = true then (ipacmSuccess, s)
  else if added.added .wlanToUsb = true then
    (ipacmSuccess, s.addCtx .wlanToUsb (getHdrProcType types.wlanHdrType types.usbHdrType)
      types.usbHdrTemplateHdl added.fresh)
  else
    let hdl := (s.info .usbToWlan).procCtxHdl
    let s := s.deleteHeaderProcCtx hdl added.takenBack
    (ipacmFailure, s.setValid .usbToWlan ⟨hdl, false⟩)

def addUsbToWlan (iface : BridgeIface) (types : HdrTypes) (memory : CtxMemory) (added : CtxAdded) :
    Int × Contexts :=
  if (s.info .usbToWlan).valid = true then s.addWlanToUsb types added
  else if added.added .usbToWlan = false then (ipacmFailure, s)
  else
    let s := s.addCtx .usbToWlan (getHdrProcType types.usbHdrType types.wlanHdrType)
      types.wlanHdrTemplateHdl added.fresh
    if memory.event = false then (ipacmFailure, s)
    else (s.post .set iface).addWlanToUsb types added

def addWlanToWlan (iface : BridgeIface) (types : HdrTypes) (added : CtxAdded) : Int × Contexts :=
  if iface.isWlan = false ∨ (s.info .wlanToWlan).valid = true then (ipacmSuccess, s)
  else if added.added .wlanToWlan = false then (ipacmFailure, s)
  else
    (ipacmSuccess, s.addCtx .wlanToWlan (getHdrProcType types.wlanHdrType types.wlanHdrType)
      types.wlanHdrTemplateHdl added.fresh)

def addHdrProcCtx (iface : BridgeIface) (types : HdrTypes) (memory : CtxMemory)
    (added : CtxAdded) : Int × Contexts :=
  if memory.table = false then (ipacmFailure, s)
  else if types.wlanHdrType = .none then (ipacmSuccess, s)
  else
    let (res, s) := s.addWlanToWlan iface types added
    if types.usbHdrType = .none then (res, s)
    else
      let (res', s) := s.addUsbToWlan iface types memory added
      (if res' = ipacmSuccess then res else res', s)

def delCtx (name : CtxName) (deleted : Bool) : Bool × Contexts :=
  if (s.info name).valid = false then (true, s)
  else if deleted = false then (false, s)
  else
    let hdl := (s.info name).procCtxHdl
    (true, (s.deleteHeaderProcCtx hdl true).setValid name ⟨hdl, false⟩)

def delHdrProcCtx (iface : BridgeIface) (memory : CtxMemory) (deleted : CtxName → Bool) :
    Int × Contexts :=
  let wasValid := (s.info .usbToWlan).valid
  match s.delCtx .usbToWlan (deleted .usbToWlan) with
  | (false, s) => (ipacmFailure, s)
  | (true, s) =>
    if wasValid = true ∧ memory.event = false then (ipacmFailure, s)
    else
      let s := if wasValid = true then s.post .unset iface else s
      match s.delCtx .wlanToUsb (deleted .wlanToUsb) with
      | (false, s) => (ipacmFailure, s)
      | (true, s) =>
        if iface.isWlan = false then (ipacmSuccess, s)
        else
          match s.delCtx .wlanToWlan (deleted .wlanToWlan) with
          | (false, s) => (ipacmFailure, s)
          | (true, s) => (ipacmSuccess, s)

end Contexts

/-- A call of one of the instances. There is memory for it. -/
inductive CtxOp
  | add (iface : BridgeIface) (types : HdrTypes) (added : CtxAdded)
  | del (iface : BridgeIface) (deleted : CtxName → Bool)

namespace Contexts

def exec (s : Contexts) : CtxOp → Contexts
  | .add iface types added => (s.addHdrProcCtx iface types {} added).2
  | .del iface deleted => (s.delHdrProcCtx iface {} deleted).2

def installed (s : Contexts) (name : CtxName) : List Nat :=
  (s.hardware.filter (·.name = name)).map (·.hdl)

/-- A context is in the hardware, under its recorded handle, exactly if it is marked valid. -/
def Installed (s : Contexts) : Prop :=
  ∀ name, s.installed name =
    if (s.info name).valid = true then [(s.info name).procCtxHdl] else []

structure Announced (s : Contexts) : Prop where
  alternate : (s.posted.map (·.event)).IsChain (· ≠ ·)
  last : (s.posted.map (·.event)).getLast? = some .set ↔ (s.info .usbToWlan).valid = true

def Agree (s : Contexts) : Prop := s.Installed ∧ s.Announced

/-- The third context is added when the second one has just been. -/
def Completes (s : Contexts) : CtxOp → Prop
  | .add _ types added => types.wlanHdrType ≠ .none → types.usbHdrType ≠ .none →
      (s.info .usbToWlan).valid = false → (s.info .wlanToUsb).valid = false →
        added.added .usbToWlan = true → added.added .wlanToUsb = true
  | .del _ _ => True

structure Sound (s : Contexts) : Prop extends Announced s where
  installed : s.Installed
  nodup : (s.hardware.map (·.hdl)).Nodup
  order : (s.info .usbToWlan).valid = true → (s.info .wlanToUsb).valid = true

variable {s : Contexts} {name : CtxName}

theorem Sound.agree (h : s.Sound) : s.Agree := ⟨h.installed, h.toAnnounced⟩

theorem empty_sound : Sound {} :=
  ⟨⟨.nil, iff_of_false nofun Bool.false_ne_true⟩, fun _ => rfl, .nil,
    fun h => absurd h Bool.false_ne_true⟩

section

variable (type : HdrProcType) (hdrHdl : Nat) (fresh : Fresh)

theorem info_addCtx (name' : CtxName) : (s.addCtx name type hdrHdl fresh).info name' =
    if name' = name then ⟨fresh.pick (s.hardware.map (·.hdl)), true⟩ else s.info name' :=
  Function.update_apply ..

theorem installed_addCtx (h : s.Installed) (hvalid : (s.info name).valid = false) :
    (s.addCtx name type hdrHdl fresh).Installed := by
  intro name'
  have hold := h name'
  rw [info_addCtx]
  unfold installed addCtx at *
  rw [List.filter_append, List.map_append, hold]
  by_cases hname : name' = name
  · simp [hname, hvalid]
  · rw [if_neg hname]
    simp [Ne.symm hname]

theorem nodup_addCtx (h : (s.hardware.map (·.hdl)).Nodup) :
    ((s.addCtx name type hdrHdl fresh).hardware.map (·.hdl)).Nodup := by
  unfold addCtx
  rw [List.map_append, List.map_singleton]
  refine List.nodup_append'.mpr ⟨h, List.nodup_singleton _, List.disjoint_singleton.mpr ?_⟩
  exact fresh.pick_notMem (s.hardware.map (·.hdl))

end

def drop (s : Contexts) (name : CtxName) : Contexts :=
  (s.deleteHeaderProcCtx (s.info name).procCtxHdl true).setValid name
    ⟨(s.info name).procCtxHdl, false⟩

theorem info_drop (name' : CtxName) : (s.drop name).info name' =
    if name' = name then ⟨(s.info name).procCtxHdl, false⟩ else s.info name' :=
  Function.update_apply ..

theorem hardware_drop : (s.drop name).hardware =
    s.hardware.filter (·.hdl ≠ (s.info name).procCtxHdl) := rfl

theorem installed_drop (h : s.Installed) (hnodup : (s.hardware.map (·.hdl)).Nodup)
    (hvalid : (s.info name).valid = true) : (s.drop name).Installed := by
  have hself : s.installed name = [(s.info name).procCtxHdl] := (h name).trans (if_pos hvalid)
  have hmem : ∀ ctx ∈ s.hardware, ctx.hdl = (s.info name).procCtxHdl ↔ ctx.name = name := by
    intro ctx hctx
    have hin : (s.info name).procCtxHdl ∈ s.installed name := by
      simp [hself]
    obtain ⟨own, hown, hhdl⟩ := List.mem_map.mp hin
    obtain ⟨hown, hname⟩ := List.mem_filter.mp hown
    constructor
    · intro hsame
      rw [List.inj_on_of_nodup_map hnodup hctx hown (hsame.trans hhdl.symm)]
      exact of_decide_eq_true hname
    · intro hsame
      have hctx' : ctx.hdl ∈ s.installed name :=
        List.mem_map_of_mem (List.mem_filter.mpr ⟨hctx, decide_eq_true hsame⟩)
      simp_all
  intro name'
  have hkept : ∀ ctx ∈ s.hardware,
      (decide (ctx.name = name') && decide (ctx.hdl ≠ (s.info name).procCtxHdl)) =
        decide (ctx.name = name' ∧ name' ≠ name) := by
    intro ctx hctx
    rw [← Bool.decide_and, decide_eq_decide, ne_eq, hmem ctx hctx]
    simp_all
  rw [info_drop]
  unfold installed
  rw [hardware_drop, List.filter_filter, List.filter_congr hkept]
  by_cases hname : name' = name
  · simp [hname]
  · simp only [hname, ne_eq, not_false_eq_true, and_true]
    exact h name'

theorem nodup_drop (h : (s.hardware.map (·.hdl)).Nodup) :
    ((s.drop name).hardware.map (·.hdl)).Nodup := by
  rw [hardware_drop]
  exact h.sublist (List.filter_sublist.map _)

theorem announced_congr {s' : Contexts} (h : s.Announced) (hposted : s'.posted = s.posted)
    (hvalid : (s'.info .usbToWlan).valid = (s.info .usbToWlan).valid) : s'.Announced := by
  constructor
  · rw [hposted]
    exact h.alternate
  · rw [hposted, hvalid]
    exact h.last

theorem announced_post {s' : Contexts} {event : CtxEvent} {iface : BridgeIface}
    (h : s.Announced) (hposted : s'.posted = s.posted)
    (hbefore : (s.info .usbToWlan).valid = decide (event = .unset))
    (hafter : (s'.info .usbToWlan).valid = decide (event = .set)) :
    (s'.post event iface).Announced := by
  have hevents : (s'.post event iface).posted.map (·.event) =
      s.posted.map (·.event) ++ [event] := by
    simp [post, hposted]
  constructor
  · rw [hevents]
    refine List.isChain_append.mpr ⟨h.alternate, .singleton _, fun last hlast first hfirst => ?_⟩
    cases hfirst
    have hset := h.last
    rw [hbefore, Option.mem_def.mp hlast] at hset
    rintro rfl
    cases last
    · exact nomatch hset.mp rfl
    · exact nomatch hset.mpr rfl
  · rw [hevents, List.getLast?_concat]
    show some event = some .set ↔ (s'.info .usbToWlan).valid = true
    rw [hafter, Option.some_inj, decide_eq_true_eq]

theorem addWlanToWlan_sound (h : s.Sound) (iface : BridgeIface) (types : HdrTypes)
    (added : CtxAdded) :
    let s' := (s.addWlanToWlan iface types added).2
    s'.Sound ∧ s'.info .usbToWlan = s.info .usbToWlan ∧ s'.info .wlanToUsb = s.info .wlanToUsb := by
  unfold addWlanToWlan
  split
  · exact ⟨h, rfl, rfl⟩
  rename_i hguard
  split
  · exact ⟨h, rfl, rfl⟩
  have hvalid : (s.info .wlanToWlan).valid = false :=
    Bool.eq_false_iff.mpr fun hvalid => hguard (.inr hvalid)
  exact ⟨⟨announced_congr h.toAnnounced rfl rfl, installed_addCtx _ _ _ h.installed hvalid,
    nodup_addCtx _ _ _ h.nodup, h.order⟩, rfl, rfl⟩

theorem addWlanToUsb_agree_iff (types : HdrTypes) (added : CtxAdded) (h : s.Agree)
    (hnodup : (s.hardware.map (·.hdl)).Nodup) (hvalid : (s.info .usbToWlan).valid = true) :
    let s' := (s.addWlanToUsb types added).2
    (s'.Agree ↔ ((s.info .wlanToUsb).valid = false → added.added .wlanToUsb = true)) ∧
      (s'.Agree → s'.Sound) := by
  unfold addWlanToUsb
  split
  · rename_i hthird
    refine ⟨iff_of_true h fun hfalse => ?_, fun _ => ⟨h.2, h.1, hnodup, fun _ => hthird⟩⟩
    exact absurd (hthird.symm.trans hfalse) Bool.noConfusion
  rename_i hthird
  have hthird' : (s.info .wlanToUsb).valid = false := Bool.eq_false_iff.mpr hthird
  split
  · rename_i hadded
    let t := s.addCtx .wlanToUsb (getHdrProcType types.wlanHdrType types.usbHdrType)
      types.usbHdrTemplateHdl added.fresh
    have hinstalled : t.Installed := installed_addCtx _ _ _ h.1 hthird'
    have hannounced : t.Announced := announced_congr h.2 rfl rfl
    exact ⟨iff_of_true ⟨hinstalled, hannounced⟩ fun _ => hadded,
      fun _ => ⟨hannounced, hinstalled, nodup_addCtx _ _ _ hnodup, fun _ => rfl⟩⟩
  · -- the event of the second context stands, but it is not valid any more
    rename_i hadded
    have hnot : ¬ ((s.deleteHeaderProcCtx (s.info .usbToWlan).procCtxHdl added.takenBack).setValid
        .usbToWlan ⟨(s.info .usbToWlan).procCtxHdl, false⟩).Agree := by
      intro hagree
      have hposted : ((s.deleteHeaderProcCtx (s.info .usbToWlan).procCtxHdl
          added.takenBack).setValid .usbToWlan
            ⟨(s.info .usbToWlan).procCtxHdl, false⟩).posted = s.posted := by
        unfold deleteHeaderProcCtx
        split <;> rfl
      have hlast := hagree.2.last
      rw [hposted] at hlast
      exact Bool.false_ne_true (hlast.mp (h.2.last.mpr hvalid))
    simp [hnot, hadded, hthird']

theorem addUsbToWlan_agree_iff (h : s.Sound) (iface : BridgeIface) (types : HdrTypes)
    (added : CtxAdded) :
    let s' := (s.addUsbToWlan iface types {} added).2
    (s'.Agree ↔ ((s.info .usbToWlan).valid = false → (s.info .wlanToUsb).valid = false →
      added.added .usbToWlan = true → added.added .wlanToUsb = true)) ∧ (s'.Agree → s'.Sound) := by
  unfold addUsbToWlan
  split
  · rename_i hvalid
    simp [addWlanToUsb_agree_iff, h.agree, h.nodup, h.order, hvalid.symm.trans]
  rename_i hvalid
  have hinvalid : (s.info .usbToWlan).valid = false := Bool.eq_false_iff.mpr hvalid
  split
  · rename_i hadded
    simp [h.agree, h, hadded.symm.trans]
  rename_i hadded
  have hadded' : added.added .usbToWlan = true := Bool.eq_true_of_not_eq_false hadded
  let t := s.addCtx .usbToWlan (getHdrProcType types.usbHdrType types.wlanHdrType)
    types.wlanHdrTemplateHdl added.fresh
  have hinstalled : (t.post .set iface).Installed := installed_addCtx _ _ _ h.installed hinvalid
  have hannounced : (t.post .set iface).Announced :=
    announced_post h.toAnnounced rfl hinvalid rfl
  obtain ⟨hiff, hsound⟩ := addWlanToUsb_agree_iff types added ⟨hinstalled, hannounced⟩
    (nodup_addCtx _ _ _ h.nodup) rfl
  refine ⟨hiff.trans ?_, hsound⟩
  exact ⟨fun hthird _ hfalse _ => hthird hfalse, fun hall hfalse => hall hinvalid hfalse hadded'⟩

theorem add_agree_iff (h : s.Sound) (iface : BridgeIface) (types : HdrTypes) (added : CtxAdded) :
    ((s.exec (.add iface types added)).Agree ↔ s.Completes (.add iface types added)) ∧
      ((s.exec (.add iface types added)).Agree → (s.exec (.add iface types added)).Sound) := by
  unfold exec addHdrProcCtx Completes
  dsimp only
  by_cases hwlan : types.wlanHdrType = .none
  · simp [hwlan, h.agree, h]
  rw [if_neg hwlan]
  obtain ⟨hsound, hsecond, hthird⟩ := addWlanToWlan_sound h iface types added
  by_cases husb : types.usbHdrType = .none
  · simp [husb, hsound.agree, hsound]
  simp_all [addUsbToWlan_agree_iff]

theorem delCtx_eq (deleted : Bool) : s.delCtx name deleted =
    if (s.info name).valid = false then (true, s)
    else if deleted = false then (false, s)
    else (true, s.drop name) := rfl

theorem delCtx_sound (h : s.Sound) (name : CtxName) (deleted : Bool) (hname : name ≠ .usbToWlan)
    (hsecond : name = .wlanToUsb → (s.info .usbToWlan).valid = false) :
    (s.delCtx name deleted).2.Sound := by
  rw [delCtx_eq]
  split
  · exact h
  rename_i hvalid
  split
  · exact h
  have hother : (s.drop name).info .usbToWlan = s.info .usbToWlan := by
    rw [info_drop, if_neg hname.symm]
  refine ⟨announced_congr h.toAnnounced rfl (congrArg _ hother),
    installed_drop h.installed h.nodup (Bool.eq_true_of_not_eq_false hvalid),
    nodup_drop h.nodup, fun horder => ?_⟩
  rw [hother] at horder
  rw [info_drop, if_neg]
  · exact h.order horder
  · rintro rfl
    exact absurd (horder.symm.trans (hsecond rfl)) Bool.noConfusion

theorem delRest_sound (h : s.Sound) (hsecond : (s.info .usbToWlan).valid = false)
    (iface : BridgeIface) (deleted : CtxName → Bool) :
    (match s.delCtx .wlanToUsb (deleted .wlanToUsb) with
      | (false, s) => (ipacmFailure, s)
      | (true, s) =>
        if iface.isWlan = false then (ipacmSuccess, s)
        else
          match s.delCtx .wlanToWlan (deleted .wlanToWlan) with
          | (false, s) => (ipacmFailure, s)
          | (true, s) => (ipacmSuccess, s)).2.Sound := by
  have hthird := delCtx_sound h .wlanToUsb (deleted .wlanToUsb) (by decide) fun _ => hsecond
  grind [delCtx_sound]

theorem del_sound (h : s.Sound) (iface : BridgeIface) (deleted : CtxName → Bool) :
    (s.exec (.del iface deleted)).Sound := by
  unfold exec delHdrProcCtx
  dsimp only
  rw [delCtx_eq]
  cases hvalid : (s.info .usbToWlan).valid with
  | false =>
    exact delRest_sound h hvalid iface deleted
  | true =>
    cases deleted .usbToWlan with
    | false => exact h
    | true =>
      have hinvalid : ((s.drop .usbToWlan).info .usbToWlan).valid = false := by
        rw [info_drop, if_pos rfl]
      have hannounced : ((s.drop .usbToWlan).post .unset iface).Announced :=
        announced_post h.toAnnounced rfl hvalid hinvalid
      refine delRest_sound ⟨hannounced, installed_drop h.installed h.nodup hvalid,
        nodup_drop h.nodup, fun horder => ?_⟩ hinvalid iface deleted
      exact absurd (horder.symm.trans hinvalid) Bool.noConfusion

theorem agree_iff (h : s.Sound) (op : CtxOp) : (s.exec op).Agree ↔ s.Completes op := by
  cases op with
  | add iface types added => exact (add_agree_iff h iface types added).1
  | del iface deleted => exact iff_of_true (del_sound h iface deleted).agree trivial

theorem exec_sound (h : s.Sound) (op : CtxOp) (hcompletes : s.Completes op) :
    (s.exec op).Sound := by
  cases op with
  | add iface types added =>
    simp [add_agree_iff, h, hcompletes]
  | del iface deleted => exact del_sound h iface deleted

/-- In every run, contexts and events agree exactly if every add that has added the second context
adds the third. -/
theorem contextsAgree_along_iff (ops : List CtxOp) :
    Agree {} ∧ System.Along (fun s op => Agree (s.exec op)) exec ops {} ↔
      System.Along Completes exec ops {} := by
  rw [and_iff_right empty_sound.agree]
  exact System.along_iff (fun _ op h => agree_iff h op) (fun _ op h => exec_sound h op) ops
    empty_sound

/-- The third context cannot be added: the second one is taken back, but not its event. -/
theorem not_contextsAgree_along : ¬ ∀ ops : List CtxOp,
    Agree {} ∧ System.Along (fun s op => Agree (s.exec op)) exec ops {} := by
  intro h
  let op : CtxOp := .add ⟨0, false⟩ ⟨.ethernetII, .ethernetII, 1, 2⟩
    ⟨.next, fun name => decide (name ≠ .wlanToUsb), true⟩
  have hcompletes := (agree_iff empty_sound op).mp (h [op]).2.1
  exact absurd (hcompletes (by decide) (by decide) rfl rfl rfl) (by decide)

end Contexts

end EtherDevice.Ipacm.EthBridge
