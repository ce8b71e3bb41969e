import EtherDevice.Lib.Chain
import Mathlib.Tactic.Common

/-!
# The listeners of the event dispatcher

`registr` and `deregistr` of `IPACM_EvtDispatcher.cpp`, with the linked list that they keep.
A pointer is a number and `0` is `NULL`. A step that reads a node that was freed has no
outcome: `malloc` gives no number twice, so that such a read is seen.

`Holds` gives the list behind the pointers. On it `registr` appends and `deregistr` filters,
and neither reads a freed node.
-/

namespace EtherDevice.Ipacm

open Lib

inductive IpaCmEventId where
  | cfgChangeEvent
  | linkUpEvent
  | linkDownEvent
  | addrAddEvent
  | addrDelEvent
  | routeAddEvent
  | routeDelEvent
  | firewallChangeEvent
  | wlanApLinkUpEvent
  | wlanStaLinkUpEvent
  | wlanClientAddEvent
  | wlanClientDelEvent
  | wlanClientPowerSaveEvent
  | wlanClientRecoverEvent
  | newNeighEvent
  | delNeighEvent
  | neighClientIpAddrAddEvent
  | neighClientIpAddrDelEvent
  | swRoutingEnable
  | swRoutingDisable
  | processCtMessage
  | handleWanUp
  | handleWanDown
  | handleWlanUp
  | handleLanUp
  | wlanClientAddEventEx
  | handleWanUpV6
  | handleWanDownV6
  | lanClientActive
  | lanClientInactive
  | lanClientDisconnect
  | lanClientPowerSave
  | lanClientPowerRecover
  | lanToLanNewConnection
  | lanToLanDelConnection
  | lanDeleteSelf
  | wlanLinkDownEvent
  | usbLinkUpEvent
  | processCtMessageV6
  | privateSubnetChangeEvent
  | wanUpstreamRouteAddEvent
  | wanUpstreamRouteDelEvent
  | wanEmbmsLinkUpEvent
  | ethBridgeUsbClientAddEvent
  | ethBridgeWlanClientAddEvent
  | ethBridgeUsbClientDelEvent
  | ethBridgeWlanClientDelEvent
  | ethBridgeHdrProcCtxSetEvent
  | ethBridgeHdrProcCtxUnsetEvent
  | wlanSwitchToScc
  | wlanSwitchToMcc
  | cradleWanModeSwitch
  | wanXlatConnectEvent
  | tetheringStatsUpdateEvent
  | networkStatsUpdateEvent
  | handleWanUpTether
  | handleWanDownTether
  | handleWanUpV6Tether
  | handleWanDownV6Tether
deriving DecidableEq

structure Registration where
  event : IpaCmEventId
  obj : Nat
deriving DecidableEq

structure CmdEvts where
  event : IpaCmEventId
  obj : Nat
  next : Nat
deriving DecidableEq

def CmdEvts.registration (node : CmdEvts) : Registration := ⟨node.event, node.obj⟩

/-- The list of `IPACM_EvtDispatcher`. A number under `nodes` without a node was freed, or
was not given out yet. -/
structure EvtDispatcher where
  head : Nat := 0
  nodes : Nat → Option CmdEvts := fun _ => none
  /-- The number of the next node. -/
  fresh : Nat := 1
  ipacmEventStats : IpaCmEventId → UInt32 := fun _ => 0

namespace EvtDispatcher

variable {d d' : EvtDispatcher} {event : IpaCmEventId} {obj param p q : Nat}

/-! ## The code -/

def setNode (d : EvtDispatcher) (p : Nat) (node : Option CmdEvts) : EvtDispatcher :=
  { d with nodes := fun q => if q = p then node else d.nodes q }

def setNext (d : EvtDispatcher) (p next : Nat) : Option EvtDispatcher := do
  let node ← d.nodes p
  some (d.setNode p (some { node with next }))

def lastNode (d : EvtDispatcher) : Nat → Nat → Option Nat
  | 0, _ => none
  | fuel + 1, tmp => do
    let node ← d.nodes tmp
    if node.next = 0 then some tmp else d.lastNode fuel node.next

/-- `malloc` of a node that is not linked. -/
def mallocNode (d : EvtDispatcher) (event : IpaCmEventId) (obj : Nat) : EvtDispatcher :=
  { d.setNode d.fresh (some ⟨event, obj, 0⟩) with fresh := d.fresh + 1 }

/-- `registr`, with the answer of `malloc`; the result is `IPACM_SUCCESS` or not. -/
def registr (d : EvtDispatcher) (event : IpaCmEventId) (obj : Nat) (malloc : Bool) :
    Option (EvtDispatcher × Bool) :=
  if malloc then do
    let nw := d.fresh
    let made := d.mallocNode event obj
    if d.head = 0 then some ({ made with head := nw }, true)
    else
      let tmp ← made.lastNode made.fresh d.head
      let linked ← made.setNext tmp nw
      some (linked, true)
  else some (d, false)

def unlinkNode (d : EvtDispatcher) (tmp prev : Nat) (node : CmdEvts) : Option EvtDispatcher :=
  if tmp = d.head then some { d with head := node.next }
  else if node.next = 0 then d.setNext prev 0
  else d.setNext prev node.next

def deregistrLoop (param : Nat) : Nat → EvtDispatcher → Nat → Nat → Option EvtDispatcher
  | 0, _, _, _ => none
  | fuel + 1, d, tmp, prev =>
    if tmp = 0 then some d
    else do
      let node ← d.nodes tmp
      if node.obj = param then
        let unlinked ← d.unlinkNode tmp prev node
        -- `tmp = tmp->next; free(tmp1);`
        let tmp1 ← unlinked.nodes tmp
        deregistrLoop param fuel (unlinked.setNode tmp none) tmp1.next prev
      else deregistrLoop param fuel d node.next tmp

def deregistr (d : EvtDispatcher) (param : Nat) : Option EvtDispatcher :=
  deregistrLoop param (d.fresh + 1) d d.head d.head

def entriesFrom (d : EvtDispatcher) : Nat → Nat → List (Nat × Registration)
  | 0, _ => []
  | fuel + 1, tmp =>
    match d.nodes tmp with
    | none => []
    | some node => (tmp, node.registration) :: d.entriesFrom fuel node.next

def registrations (d : EvtDispatcher) : List Registration :=
  (d.entriesFrom d.fresh d.head).map Prod.snd

/-! ## The list behind the pointers -/

/-- The pointer to follow from a node. The head pointer is that of `0`. -/
def link (d : EvtDispatcher) (p : Nat) : Nat :=
  if p = 0 then d.head else (d.nodes p).elim 0 CmdEvts.next

structure Holds (d : EvtDispatcher) (l : List (Nat × Registration)) : Prop where
  walk : Walk d.link 0 (l.map Prod.fst)
  nodup : (0 :: l.map Prod.fst).Nodup
  node : ∀ e ∈ l, ∃ next, d.nodes e.1 = some ⟨e.2.event, e.2.obj, next⟩
  freed : ∀ p ∉ l.map Prod.fst, d.nodes p = none
  fresh : ∀ e ∈ l, e.1 < d.fresh
  pos : 0 < d.fresh

theorem holds_empty : Holds {} [] where
  walk := rfl
  nodup := by simp
  node := nofun
  freed _ _ := rfl
  fresh := nofun
  pos := by decide

variable {l : List (Nat × Registration)} {e : Nat × Registration}

@[simp] theorem setNode_nodes (node : Option CmdEvts) :
    (d.setNode p node).nodes q = if q = p then node else d.nodes q := rfl

theorem link_of_node {next : Nat} (hp : p ≠ 0) (hnode : d.nodes p = some ⟨event, obj, next⟩) :
    d.link p = next := by
  unfold link
  rw [if_neg hp, hnode]
  rfl

namespace Holds

theorem ne_zero (h : d.Holds l) (he : e ∈ l) : e.1 ≠ 0 := by
  intro hzero
  refine (List.nodup_cons.mp h.nodup).1 ?_
  rw [← hzero]
  exact List.mem_map_of_mem he

theorem nodes_eq (h : d.Holds l) (he : e ∈ l) :
    d.nodes e.1 = some ⟨e.2.event, e.2.obj, d.link e.1⟩ := by
  obtain ⟨next, hnode⟩ := h.node e he
  rw [hnode, link_of_node (h.ne_zero he) hnode]

theorem fresh_notMem (h : d.Holds l) : d.fresh ∉ l.map Prod.fst := by
  intro hmem
  obtain ⟨e, he, heq⟩ := List.mem_map.mp hmem
  have := h.fresh e he
  omega

theorem length_lt (h : d.Holds l) : l.length < d.fresh := by
  have hsub : (0 :: l.map Prod.fst) ⊆ List.range d.fresh := by
    intro p hp
    rw [List.mem_range]
    rcases List.mem_cons.mp hp with rfl | hp
    · exact h.pos
    · obtain ⟨e, he, rfl⟩ := List.mem_map.mp hp
      exact h.fresh e he
  have hle := (h.nodup.subperm hsub).length_le
  rw [List.length_cons, List.length_map, List.length_range] at hle
  omega

theorem link_eq {done rest : List (Nat × Registration)} (h : d.Holds (done ++ e :: rest)) :
    d.link e.1 = (rest.map Prod.fst).headD 0 := by
  have hwalk := h.walk
  rw [List.map_append, List.map_cons] at hwalk
  exact hwalk.tail.next_eq

theorem head_eq (h : d.Holds l) : d.head = (l.map Prod.fst).headD 0 := h.walk.next_eq

end Holds

/-! ## `registr` appends -/

theorem setNext_eq {node : CmdEvts} {next : Nat} (hnode : d.nodes p = some node) :
    d.setNext p next = some (d.setNode p (some { node with next })) := by
  unfold setNext
  rw [hnode]
  rfl

theorem exists_setNext {node : CmdEvts} {next : Nat} (hp : d.nodes p = some node)
    (he : ∃ n, d.nodes e.1 = some ⟨e.2.event, e.2.obj, n⟩) :
    ∃ n, (d.setNode p (some { node with next })).nodes e.1 = some ⟨e.2.event, e.2.obj, n⟩ := by
  obtain ⟨n, hn⟩ := he
  by_cases heq : e.1 = p
  · simp_all
  · exact ⟨n, (if_neg heq).trans hn⟩

theorem lastNode_eq {tmp fuel : Nat} {ids : List Nat} (hwalk : Walk d.link tmp ids)
    (hlive : ∀ p ∈ tmp :: ids, p ≠ 0 ∧ (d.nodes p).isSome) (hfuel : ids.length < fuel) :
    d.lastNode fuel tmp = some (lastOf tmp ids) := by
  induction ids generalizing tmp fuel with
  | nil =>
    obtain ⟨fuel, rfl⟩ : ∃ n, fuel = n + 1 := ⟨fuel - 1, by omega⟩
    obtain ⟨hne, hsome⟩ := hlive tmp List.mem_cons_self
    obtain ⟨node, hnode⟩ := Option.isSome_iff_exists.mp hsome
    have hnext : node.next = 0 := (link_of_node hne hnode).symm.trans hwalk
    simp [lastNode, hnode, hnext, lastOf]
  | cons b ids ih =>
    obtain ⟨fuel, rfl⟩ : ∃ n, fuel = n + 1 := ⟨fuel - 1, by omega⟩
    obtain ⟨hne, hsome⟩ := hlive tmp List.mem_cons_self
    obtain ⟨node, hnode⟩ := Option.isSome_iff_exists.mp hsome
    have hnext : node.next = b := (link_of_node hne hnode).symm.trans hwalk.1
    have hrest : d.lastNode fuel b = some (lastOf b ids) := by
      refine ih hwalk.2.2 (fun p hp => hlive p (List.mem_cons_of_mem tmp hp)) ?_
      simp_all
    simp [lastNode, hnode, hnext, hwalk.2.1, hrest, lastOf]

theorem Holds.append (h : d.Holds l)
    (hlast : d'.link (lastOf 0 (l.map Prod.fst)) = d.fresh)
    (hsame : ∀ x ∈ 0 :: l.map Prod.fst, x ≠ lastOf 0 (l.map Prod.fst) → d'.link x = d.link x)
    (hnode : ∀ e ∈ l, ∃ next, d'.nodes e.1 = some ⟨e.2.event, e.2.obj, next⟩)
    (hnew : d'.nodes d.fresh = some ⟨event, obj, 0⟩)
    (hfreed : ∀ p ∉ l.map Prod.fst, p ≠ d.fresh → d'.nodes p = none)
    (hfresh : d'.fresh = d.fresh + 1) :
    d'.Holds (l ++ [(d.fresh, ⟨event, obj⟩)]) where
  walk := by
    rw [List.map_append]
    have hpos := h.pos
    exact h.walk.concat h.nodup (by omega) hlast (link_of_node (by omega) hnew) hsame
  nodup := by
    have hpos := h.pos
    rw [List.map_append, ← List.cons_append, List.nodup_append]
    refine ⟨h.nodup, List.nodup_singleton _, ?_⟩
    intro p hp q hq
    rw [List.mem_singleton.mp hq]
    rcases List.mem_cons.mp hp with rfl | hp
    · exact (Nat.ne_of_gt hpos).symm
    · rintro rfl
      exact h.fresh_notMem hp
  node e he := by
    grind
  freed p hp := by
    simp_all
  fresh e he := by
    rw [hfresh]
    rcases List.mem_append.mp he with he | he
    · exact Nat.lt_succ_of_lt (h.fresh e he)
    simp_all
  pos := by omega

theorem mallocNode_nodes :
    (d.mallocNode event obj).nodes p =
      if p = d.fresh then some ⟨event, obj, 0⟩ else d.nodes p := rfl

theorem mallocNode_link (hp : p ≠ d.fresh) : (d.mallocNode event obj).link p = d.link p := by
  unfold link
  rw [mallocNode_nodes, if_neg hp]
  rfl

theorem registr_of_nil (h : d.Holds []) (event : IpaCmEventId) (obj : Nat) :
    ∃ d', d.registr event obj true = some (d', true) ∧
      d'.Holds [(d.fresh, ⟨event, obj⟩)] ∧ d'.fresh = d.fresh + 1 := by
  refine ⟨{ d.mallocNode event obj with head := d.fresh }, ?_, ?_, rfl⟩
  · have hhead : d.head = 0 := h.head_eq
    exact if_pos hhead
  · refine h.append rfl ?_ nofun ?_ ?_ rfl
    · intro x hx hlast
      exact absurd (List.mem_singleton.mp hx) hlast
    · exact if_pos rfl
    · intro p hp hfresh
      exact (if_neg hfresh).trans (h.freed p hp)

theorem registr_of_cons (h : d.Holds (e :: l)) (event : IpaCmEventId) (obj : Nat) :
    ∃ d', d.registr event obj true = some (d', true) ∧
      d'.Holds (e :: l ++ [(d.fresh, ⟨event, obj⟩)]) ∧ d'.fresh = d.fresh + 1 := by
  let made := d.mallocNode event obj
  have hhead : d.head = e.1 := h.head_eq
  have hids : ∀ p ∈ e.1 :: l.map Prod.fst, ∃ a ∈ e :: l, a.1 = p :=
    fun p hp => List.mem_map.mp hp
  have hold : ∀ a ∈ e :: l, a.1 ≠ d.fresh := fun a ha => Nat.ne_of_lt (h.fresh a ha)
  have hmade : ∀ a ∈ e :: l, made.nodes a.1 = some ⟨a.2.event, a.2.obj, d.link a.1⟩ :=
    fun a ha => (if_neg (hold a ha)).trans (h.nodes_eq ha)
  obtain ⟨b, hb, hbid⟩ := hids _ (lastOf_mem e.1 (l.map Prod.fst))
  -- the walk to the last node does not meet the new one
  have hlast : made.lastNode made.fresh d.head = some b.1 := by
    have hwalk : Walk made.link e.1 (l.map Prod.fst) := by
      refine h.walk.2.2.congr fun p hp => ?_
      obtain ⟨a, ha, rfl⟩ := hids p hp
      exact mallocNode_link (hold a ha)
    rw [hhead, hbid]
    refine lastNode_eq hwalk ?_ ?_
    · intro p hp
      obtain ⟨a, ha, rfl⟩ := hids p hp
      exact ⟨h.ne_zero ha, by rw [hmade a ha]; rfl⟩
    · have hlt := h.length_lt
      rw [List.length_cons] at hlt
      rw [List.length_map]
      exact Nat.lt_succ_of_lt (by omega)
  let linked := made.setNode b.1 (some ⟨b.2.event, b.2.obj, d.fresh⟩)
  have hset : made.setNext b.1 d.fresh = some linked := setNext_eq (hmade b hb)
  have hlink : ∀ p, p ≠ d.fresh → p ≠ b.1 → linked.link p = d.link p := by
    intro p hp hpb
    rw [← @mallocNode_link d event obj p hp]
    unfold link
    rw [show linked.nodes p = made.nodes p from if_neg hpb]
    rfl
  refine ⟨linked, ?_, ?_, rfl⟩
  · unfold registr
    have hnz : ¬ d.head = 0 := by
      rw [hhead]
      exact h.ne_zero List.mem_cons_self
    rw [if_neg hnz, hlast]
    change (made.setNext b.1 d.fresh).bind _ = _
    rw [hset]
    rfl
  · have hlastOf : lastOf 0 ((e :: l).map Prod.fst) = b.1 := hbid.symm
    refine h.append ?_ ?_ ?_ ?_ ?_ rfl
    · rw [hlastOf]
      exact link_of_node (h.ne_zero hb) (if_pos rfl)
    · intro x hx hne
      rw [hlastOf] at hne
      refine hlink x ?_ hne
      rcases List.mem_cons.mp hx with rfl | hx
      · exact Nat.ne_of_lt h.pos
      · obtain ⟨a, ha, rfl⟩ := hids x hx
        exact hold a ha
    · exact fun a ha => exists_setNext (hmade b hb) ⟨_, hmade a ha⟩
    · exact (if_neg (hold b hb).symm).trans (if_pos rfl)
    · intro p hp hfresh
      have hpb : p ≠ b.1 := by
        rintro rfl
        exact hp (List.mem_map_of_mem hb)
      exact (if_neg hpb).trans ((if_neg hfresh).trans (h.freed p hp))

theorem registr_holds (h : d.Holds l) (event : IpaCmEventId) (obj : Nat) :
    ∃ d', d.registr event obj true = some (d', true) ∧
      d'.Holds (l ++ [(d.fresh, ⟨event, obj⟩)]) ∧ d'.fresh = d.fresh + 1 := by
  cases l with
  | nil => exact registr_of_nil h event obj
  | cons e l => exact registr_of_cons h event obj

/-! ## `deregistr` filters -/

theorem Holds.unlink {done rest : List (Nat × Registration)} (h : d.Holds (done ++ e :: rest))
    (hprev : d'.link (lastOf 0 (done.map Prod.fst)) = d.link e.1)
    (hsame : ∀ x ∈ 0 :: (done ++ rest).map Prod.fst,
      x ≠ lastOf 0 (done.map Prod.fst) → d'.link x = d.link x)
    (hnode : ∀ a ∈ done ++ rest, ∃ next, d'.nodes a.1 = some ⟨a.2.event, a.2.obj, next⟩)
    (hfreed : ∀ p ∉ (done ++ rest).map Prod.fst, d'.nodes p = none)
    (hfresh : d'.fresh = d.fresh) : d'.Holds (done ++ rest) where
  walk := by
    have hwalk := h.walk
    have hnodup := h.nodup
    rw [List.map_append, List.map_cons] at hwalk hnodup
    rw [List.map_append] at hsame ⊢
    exact hwalk.unlink hnodup hprev hsame
  nodup := by
    have hsub : (done ++ rest).Sublist (done ++ e :: rest) := by simp
    exact ((hsub.map Prod.fst).cons_cons 0).nodup h.nodup
  node := hnode
  freed := hfreed
  fresh a ha := by
    have hsub : (done ++ rest).Sublist (done ++ e :: rest) := by simp
    rw [hfresh]
    exact h.fresh a (hsub.subset ha)
  pos := hfresh ▸ h.pos

theorem Holds.unlinkHead (h : d.Holds (e :: l)) :
    ({ d with head := d.link e.1 }.setNode e.1 none).Holds l := by
  have hne := h.nodup
  have hnotMem : e.1 ∉ l.map Prod.fst := (List.nodup_cons.mp (List.nodup_cons.mp hne).2).1
  have hother : ∀ a ∈ l, a.1 ≠ e.1 := by
    intro a ha heq
    exact hnotMem (heq ▸ List.mem_map_of_mem ha)
  have hfront : d.Holds ([] ++ e :: l) := h
  refine hfront.unlink rfl ?_ ?_ ?_ rfl
  · intro x hx hlast
    rcases List.mem_cons.mp hx with rfl | hx
    · exact absurd rfl hlast
    · obtain ⟨a, ha, rfl⟩ := List.mem_map.mp hx
      unfold link
      rw [setNode_nodes, if_neg (hother a ha), if_neg (h.ne_zero (List.mem_cons_of_mem e ha)),
        if_neg (h.ne_zero (List.mem_cons_of_mem e ha))]
  · intro a ha
    obtain ⟨next, hnode⟩ := h.node a (List.mem_cons_of_mem e ha)
    exact ⟨next, (if_neg (hother a ha)).trans hnode⟩
  · intro p hp
    by_cases heq : p = e.1
    · exact if_pos heq
    · refine (if_neg heq).trans (h.freed p ?_)
      simp_all

theorem Holds.unlinkNext {done rest : List (Nat × Registration)} {b : Nat × Registration}
    (h : d.Holds (done ++ [b] ++ e :: rest)) :
    ((d.setNode b.1 (some ⟨b.2.event, b.2.obj, d.link e.1⟩)).setNode e.1 none).Holds
      (done ++ [b] ++ rest) := by
  have hlast : lastOf 0 ((done ++ [b]).map Prod.fst) = b.1 := by
    simp [lastOf_concat]
  have hb : b ∈ done ++ [b] ++ e :: rest := by simp
  have hsub : (done ++ [b] ++ rest).Sublist (done ++ [b] ++ e :: rest) := by simp
  have hnotMem : e.1 ∉ (done ++ [b] ++ rest).map Prod.fst := by
    have hnodup := h.nodup
    grind
  have hother : ∀ a ∈ done ++ [b] ++ rest, a.1 ≠ e.1 := by
    intro a ha heq
    exact hnotMem (heq ▸ List.mem_map_of_mem ha)
  have hbe : b.1 ≠ e.1 := hother b (by simp)
  refine h.unlink ?_ ?_ ?_ ?_ rfl
  · rw [hlast]
    exact link_of_node (h.ne_zero hb) ((if_neg hbe).trans (if_pos rfl))
  · intro x hx hne
    rw [hlast] at hne
    rcases List.mem_cons.mp hx with rfl | hx
    · rfl
    · obtain ⟨a, ha, rfl⟩ := List.mem_map.mp hx
      have hz := h.ne_zero (hsub.subset ha)
      unfold link
      rw [setNode_nodes, setNode_nodes, if_neg (hother a ha), if_neg hne, if_neg hz, if_neg hz]
  · intro a ha
    obtain ⟨next, hnode⟩ := exists_setNext (h.nodes_eq hb) (h.node a (hsub.subset ha))
    exact ⟨next, (if_neg (hother a ha)).trans hnode⟩
  · intro p hp
    by_cases heq : p = e.1
    · exact if_pos heq
    · have hpb : p ≠ b.1 := by
        simp_all
      refine (if_neg heq).trans ((if_neg hpb).trans (h.freed p ?_))
      simp_all

theorem Holds.head_ne {done rest : List (Nat × Registration)} (h : d.Holds (done ++ e :: rest))
    (hne : done ≠ []) : e.1 ≠ d.head := by
  obtain ⟨a, done, rfl⟩ := List.exists_cons_of_ne_nil hne
  have hhead : d.head = a.1 := h.head_eq
  have hnodup := (List.nodup_cons.mp h.nodup).2
  grind

theorem deregistrLoop_of_eq {node : CmdEvts} {fuel prev : Nat} (hp : p ≠ 0)
    (hnode : d.nodes p = some node) (hobj : node.obj = param)
    (hunlink : d.unlinkNode p prev node = some d') (hstill : d'.nodes p = some node) :
    deregistrLoop param (fuel + 1) d p prev =
      deregistrLoop param fuel (d'.setNode p none) node.next prev := by
  simp [deregistrLoop, hp, hnode, hobj, hunlink, hstill]

theorem deregistrLoop_of_ne {node : CmdEvts} {fuel prev : Nat} (hp : p ≠ 0)
    (hnode : d.nodes p = some node) (hobj : node.obj ≠ param) :
    deregistrLoop param (fuel + 1) d p prev = deregistrLoop param fuel d node.next p := by
  simp_all [deregistrLoop]

theorem unlinkNode_of_ne {tmp prev : Nat} {node : CmdEvts} (htmp : tmp ≠ d.head) :
    d.unlinkNode tmp prev node = d.setNext prev node.next := by
  simp_all [unlinkNode]

theorem deregistrLoop_holds {done rest : List (Nat × Registration)} {fuel tmp prev : Nat}
    (h : d.Holds (done ++ rest)) (htmp : tmp = (rest.map Prod.fst).headD 0)
    (hprev : done ≠ [] → prev = lastOf 0 (done.map Prod.fst)) (hfuel : rest.length < fuel) :
    ∃ d', deregistrLoop param fuel d tmp prev = some d' ∧
      d'.Holds (done ++ rest.filter fun e => decide (e.2.obj ≠ param)) ∧ d'.fresh = d.fresh := by
  induction rest generalizing d done fuel tmp prev with
  | nil =>
    obtain ⟨fuel, rfl⟩ : ∃ n, fuel = n + 1 := ⟨fuel - 1, by omega⟩
    exact ⟨d, if_pos htmp, h, rfl⟩
  | cons e rest ih =>
    obtain ⟨fuel, rfl⟩ : ∃ n, fuel = n + 1 := ⟨fuel - 1, by omega⟩
    obtain rfl : tmp = e.1 := htmp
    have he : e ∈ done ++ e :: rest := by simp
    have hlen : rest.length < fuel := by
      simp_all
    have hnz := h.ne_zero he
    have hnode := h.nodes_eq he
    have hnext := h.link_eq
    by_cases hobj : e.2.obj = param
    · rw [List.filter_cons_of_neg (by simpa using hobj)]
      rcases List.eq_nil_or_concat done with rfl | ⟨done, b, rfl⟩
      · have hhead : e.1 = d.head := h.head_eq.symm
        have hrest : ({ d with head := d.link e.1 }.setNode e.1 none).Holds ([] ++ rest) :=
          h.unlinkHead
        obtain ⟨d', hd', hholds, hfresh⟩ := ih hrest hnext (absurd rfl) hlen
        refine ⟨d', ?_, hholds, hfresh⟩
        rw [deregistrLoop_of_eq hnz hnode hobj (if_pos hhead) hnode]
        exact hd'
      · rw [List.concat_eq_append] at h hprev ⊢
        have hb : b ∈ done ++ [b] ++ e :: rest := by simp
        have hprev' : prev = b.1 := by
          simp [lastOf_concat, hprev]
        have hunlink : d.unlinkNode e.1 prev ⟨e.2.event, e.2.obj, d.link e.1⟩ =
            some (d.setNode b.1 (some ⟨b.2.event, b.2.obj, d.link e.1⟩)) := by
          rw [unlinkNode_of_ne (h.head_ne (by simp)), hprev']
          exact setNext_eq (h.nodes_eq hb)
        have hbe : e.1 ≠ b.1 := by
          have hnodup := (List.nodup_cons.mp h.nodup).2
          simp only [List.map_append, List.map_cons, List.nodup_append] at hnodup
          exact (hnodup.2.2 b.1 (by simp) e.1 (by simp)).symm
        obtain ⟨d', hd', hholds, hfresh⟩ := ih h.unlinkNext hnext hprev hlen
        refine ⟨d', ?_, hholds, hfresh⟩
        rw [deregistrLoop_of_eq hnz hnode hobj hunlink ((if_neg hbe).trans hnode)]
        exact hd'
    · rw [List.filter_cons_of_pos (by simpa using hobj)]
      have h' : d.Holds (done ++ [e] ++ rest) := by simpa using h
      have hlast : e.1 = lastOf 0 ((done ++ [e]).map Prod.fst) := by
        simp [lastOf_concat]
      obtain ⟨d', hd', hholds, hfresh⟩ := ih h' hnext (fun _ => hlast) hlen
      refine ⟨d', ?_, by simpa using hholds, hfresh⟩
      rw [deregistrLoop_of_ne hnz hnode hobj]
      exact hd'

theorem deregistr_holds (h : d.Holds l) (param : Nat) :
    ∃ d', d.deregistr param = some d' ∧
      d'.Holds (l.filter fun e => decide (e.2.obj ≠ param)) ∧ d'.fresh = d.fresh := by
  have hfuel : l.length < d.fresh + 1 := Nat.lt_succ_of_lt h.length_lt
  have hfront : d.Holds ([] ++ l) := h
  exact deregistrLoop_holds hfront h.head_eq (absurd rfl) hfuel

/-! ## Reading the list -/

theorem entriesFrom_eq {done rest : List (Nat × Registration)} {fuel : Nat}
    (h : d.Holds (done ++ rest)) (hfuel : rest.length ≤ fuel) :
    d.entriesFrom fuel ((rest.map Prod.fst).headD 0) = rest := by
  induction rest generalizing done fuel with
  | nil =>
    cases fuel with
    | zero => rfl
    | succ fuel =>
      have hnone : d.nodes 0 = none := h.freed 0 (List.nodup_cons.mp h.nodup).1
      simp [entriesFrom, hnone]
  | cons e rest ih =>
    obtain ⟨fuel, rfl⟩ : ∃ n, fuel = n + 1 := ⟨fuel - 1, by simp at hfuel; omega⟩
    have hrest : d.Holds (done ++ [e] ++ rest) := by simpa using h
    have hread := ih hrest (Nat.le_of_succ_le_succ hfuel)
    rw [← h.link_eq] at hread
    unfold entriesFrom
    rw [List.map_cons, List.headD_cons, h.nodes_eq (by simp)]
    exact congrArg (e :: ·) hread

theorem registrations_eq (h : d.Holds l) : d.registrations = l.map Prod.snd := by
  have hfront : d.Holds ([] ++ l) := h
  unfold registrations
  rw [h.head_eq, entriesFrom_eq hfront (Nat.le_of_lt h.length_lt)]

end EvtDispatcher

end EtherDevice.Ipacm
