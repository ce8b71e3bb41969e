import EtherDevice.Ipacm.ClientTable

/-!
# The WAN instances

`IPACM_Wan` is one object for each modem, STA or cradle interface. The objects share the flags
`wan_up` and `wan_up_v6`, the lists of tethered interfaces and the command queue, and the
dispatcher hands an event to each of them in the order of registration.

A default route makes its interface the backhaul of one family. Where the header of the interface
is not complete the activation waits for it. `standing` and `stale` are not in the source: they
follow which of the routes that an instance accepted are still there, and whether an instance came
up without one. `overrun` says that a tethered interface was written behind its array.

The calls into the driver succeed and memory is available. Each interface has TX and RX properties
of both families. The rules they carry, and the flags that only other classes read, are left out.
-/

namespace EtherDevice.Ipacm.Backhaul

open Lib
open ClientTable (IfaceIp Mac V6Addr)

/-- `ipa_ip_type`, as the clients of the LAN side have it. -/
abbrev IpType := ClientTable.IpType

inductive WanMode
  | wlanWan | ecmWan | q6Wan
  deriving DecidableEq, Repr

inductive TxHdr
  | unnamed | incomplete | complete
  deriving DecidableEq, Repr

/-- What makes an interface the default gateway: its default route, or the use as upstream of a
tethered interface. -/
inductive Route
  | default
  | upstream (tether : Int)
  deriving DecidableEq, Repr

def maxDefaultV6RouteRules : Nat := 2

def ipaMaxIfaceEntries : Nat := 15

/-- `IPACM_Wan`. `num_dft_rt_v6` is the number of addresses in `ipv6Addr`. -/
structure Wan where
  ipaIfNum : Int
  mIsStaMode : WanMode
  /-- The category of the interface is `EMBMS_IF`. -/
  embmsIf : Bool := false
  numExtProps : Nat := 1
  txHdr : IpType → TxHdr
  ipType : IfaceIp := .null
  wanV4Addr : UInt32 := 0
  ipv6Addr : List V6Addr := []
  ipv6Prefix : UInt32 × UInt32 := (0, 0)
  active : IpType → Bool := fun _ => false
  headerSet : IpType → Bool := fun _ => false
  headerPartialDefaultWan : IpType → Bool := fun _ => false
  isDefaultGateway : Bool := false
  standing : IpType → List Route := fun _ => []

structure IfaceUp where
  ifname : Option Int := none
  ipv4Addr : UInt32 := 0
  ipv6Prefix : UInt32 × UInt32 := (0, 0)
  isSta : Bool
  deriving DecidableEq, Repr

structure IfaceUpTether where
  ifIndexTether : BitVec 32
  ipv6Prefix : UInt32 × UInt32 := (0, 0)
  isSta : Bool
  deriving DecidableEq, Repr

/-- The events that the instances post, `IPA_HANDLE_WAN_UP` and the others. -/
inductive Posted
  | wanUp (iptype : IpType) (data : IfaceUp)
  | wanDown (iptype : IpType) (data : IfaceUp)
  | wanUpTether (iptype : IpType) (data : IfaceUpTether)
  | wanDownTether (iptype : IpType) (data : IfaceUpTether)
  deriving DecidableEq, Repr

structure Shared where
  wanUp : IpType → Bool := fun _ => false
  tether : IpType → List Int := fun _ => []
  posted : List Posted := []
  stale : Bool := false
  overrun : Bool := false

def Shared.post (g : Shared) (p : Posted) : Shared := { g with posted := g.posted ++ [p] }

def Shared.setWanUp (g : Shared) (iptype : IpType) (up : Bool) : Shared :=
  { g with wanUp := Function.update g.wanUp iptype up }

namespace Wan

variable (w : Wan)

def setActive (iptype : IpType) (on : Bool) : Wan :=
  { w with active := Function.update w.active iptype on }

def setPartial (iptype : IpType) (on : Bool) : Wan :=
  { w with headerPartialDefaultWan := Function.update w.headerPartialDefaultWan iptype on }

def setGateway (on : Bool) : Wan := { w with isDefaultGateway := on }

def request (iptype : IpType) (route : Route) : Wan :=
  { w with standing := Function.update w.standing iptype (route :: w.standing iptype) }

def withdraw (iptype : IpType) (route : Route) : Wan :=
  let rest := (w.standing iptype).filter (· ≠ route)
  { w with standing := Function.update w.standing iptype rest }

def isSta : Bool := w.mIsStaMode ≠ .q6Wan

def isGlobalIpv6Addr (addr : V6Addr) : Bool :=
  addr.1 &&& 0xFFC00000 ≠ (0xFE800000 : UInt32) &&& 0xFFC00000

end Wan

/-- The address of an event, with its `iptype`. -/
inductive Addr
  | v4 (addr : UInt32)
  | v6 (addr : V6Addr)
  deriving DecidableEq, Repr

def Addr.iptype : Addr → IpType
  | .v4 _ => .v4
  | .v6 _ => .v6

def Addr.isZero : Addr → Bool
  | .v4 addr => addr = 0
  | .v6 addr => addr = (0, 0, 0, 0)

def isOnly (ip : IfaceIp) : IpType → Bool
  | .v4 => ip = .v4
  | .v6 => ip = .v6

namespace Wan

variable (w : Wan)

def handleAddrEvt : Addr → Wan
  | .v6 addr =>
    if addr ∈ w.ipv6Addr then w
    else
      { w with
        ipType := if w.ipv6Addr.length = 0 then w.ipType.addFamily .v6 else w.ipType
        ipv6Prefix := if isGlobalIpv6Addr addr then (addr.1, addr.2.1) else w.ipv6Prefix
        ipv6Addr := w.ipv6Addr ++ [addr] }
  | .v4 addr => { w with ipType := w.ipType.addFamily .v4, wanV4Addr := addr }

def addrAdd (addr : Addr) : Wan :=
  if addr.isZero then w
  else if (isOnly w.ipType addr.iptype = false ∧ w.ipType ≠ .max) ∨
      (addr.iptype = .v6 ∧ w.ipv6Addr.length ≠ maxDefaultV6RouteRules) then
    w.handleAddrEvt addr
  else w

/-- The data of an up or down event. The name is in the up event only. -/
def ifaceUp (iptype : IpType) (ifname : Option Int) : IfaceUp where
  ifname := ifname
  ipv4Addr := if iptype = .v4 then w.wanV4Addr else 0
  ipv6Prefix := if iptype = .v6 then w.ipv6Prefix else (0, 0)
  isSta := w.isSta

/-- The end of `handle_route_add_evt`: the rules are there, and the family comes up. -/
def bringUp (iptype : IpType) (g : Shared) : Wan × Shared :=
  (w.setActive iptype true,
    (g.setWanUp iptype true).post (.wanUp iptype (w.ifaceUp iptype (some w.ipaIfNum))))

def handleRouteAddEvt (iptype : IpType) (g : Shared) : Wan × Shared :=
  let w := w.setGateway true
  if w.isSta ∧ w.headerSet iptype = false then
    (w.setPartial iptype true, g)
  else if w.isSta = false ∧ w.numExtProps = 0 then
    (w, g)
  else
    match w.txHdr iptype with
    | .unnamed => w.bringUp iptype g
    | .incomplete => (w.setPartial iptype true, g)
    | .complete => (w.setPartial iptype false).bringUp iptype g

def handleRouteDelEvt (iptype : IpType) (g : Shared) : Wan × Shared :=
  let w := w.setGateway false
  if w.active iptype then
    (w.setActive iptype false,
      (g.post (.wanDown iptype (w.ifaceUp iptype none))).setWanUp iptype false)
  else (w, g)

/-- The family goes down if it is up, as several events have it. -/
def dropDefaultRoute (iptype : IpType) (g : Shared) : Wan × Shared :=
  if w.active iptype then w.handleRouteDelEvt iptype g else (w, g)

def postWanUpTetherEvt (iptype : IpType) (tether : Int) (g : Shared) : Shared :=
  { g.post (.wanUpTether iptype
      { ifIndexTether := BitVec.ofInt 32 tether
        ipv6Prefix := if iptype = .v6 then w.ipv6Prefix else (0, 0)
        isSta := w.isSta }) with
    tether := Function.update g.tether iptype (g.tether iptype ++ [tether])
    overrun := g.overrun || ipaMaxIfaceEntries ≤ (g.tether iptype).length }

def postWanDownTetherEvt (iptype : IpType) (tether : Int) (g : Shared) : Shared :=
  if tether ∈ g.tether iptype then
    { g.post (.wanDownTether iptype
        { ifIndexTether := BitVec.ofInt 32 tether, isSta := w.isSta }) with
      tether := Function.update g.tether iptype ((g.tether iptype).erase tether) }
  else g

def retryDefaultRoute (iptype : IpType) (g : Shared) : Wan × Shared :=
  if w.headerPartialDefaultWan iptype then
    let (w', g') := w.handleRouteAddEvt iptype g
    (w', { g' with stale := g'.stale || (w'.active iptype && (w.standing iptype).isEmpty) })
  else (w, g)

def handleHeaderAddEvt (g : Shared) : Wan × Shared :=
  if w.headerSet .v4 ∨ w.headerSet .v6 then (w, g)
  else
    let w := { w with headerSet := fun _ => true, txHdr := fun _ => .complete }
    let (w, g) := w.retryDefaultRoute .v4 g
    w.retryDefaultRoute .v6 g

def ownAddr : Addr → Bool
  | .v4 addr => addr = w.wanV4Addr
  | .v6 addr => addr ∈ w.ipv6Addr

def neighClientIpAddrAdd (addr : Addr) (mac_addr : Mac) (g : Shared) : Wan × Shared :=
  let (w, g) := if w.mIsStaMode = .wlanWan then w.handleHeaderAddEvt g else (w, g)
  if w.mIsStaMode = .wlanWan ∧ w.ownAddr addr then (w, g)
  else if mac_addr = 0 then (w, g)
  else w.handleHeaderAddEvt g

def handleDownEvt (g : Shared) : Shared :=
  if w.ipType = .null then g
  else
    let (w, g) := w.dropDefaultRoute .v4 g
    (w.dropDefaultRoute .v6 g).2

def familyDown (iptype : IpType) (g : Shared) : Wan × Shared :=
  let (w, g) := w.handleRouteDelEvt iptype (g.setWanUp iptype false)
  (w, (g.tether iptype).foldl (fun g tether => w.postWanDownTetherEvt iptype tether g) g)

def handleDownEvtEx (g : Shared) : Shared :=
  if w.ipType = .null ∨ w.embmsIf ∨ w.isDefaultGateway = false then g
  else
    match w.ipType with
    | .v4 => (w.familyDown .v4 g).2
    | .v6 => (w.familyDown .v6 g).2
    | _ =>
      let (w, g) := w.familyDown .v4 g
      (w.familyDown .v6 g).2

end Wan

inductive RouteDst
  | v4 (addr mask : UInt32)
  | v6 (addr : V6Addr)
  deriving DecidableEq, Repr

def RouteDst.iptype : RouteDst → IpType
  | .v4 .. => .v4
  | .v6 _ => .v6

def RouteDst.isDefault : RouteDst → Bool
  | .v4 addr mask => addr = 0 ∧ mask = 0
  | .v6 addr => addr = (0, 0, 0, 0)

/-- The events, with the index that `iface_ipa_index_query` finds. -/
inductive Event
  | addrAdd (index : Int) (addr : Addr)
  | routeAdd (index : Int) (dst : RouteDst)
  | routeDel (index : Int) (dst : RouteDst)
  | upstreamRouteAdd (index : Int) (iptype : IpType) (tether : Int)
  | upstreamRouteDel (index : Int) (iptype : IpType) (tether : Int)
  | neighClientIpAddrAdd (index : Int) (addr : Addr) (mac_addr : Mac)
  | firewallChange
  | wlanLinkDown (index : Int)
  | linkDown (index : Int)
  deriving DecidableEq, Repr

namespace Wan

variable (w : Wan)

/-- `event_callback`. An instance that deletes itself leaves `none`. -/
def eventCallback (event : Event) (g : Shared) : Option Wan × Shared :=
  match event with
  | .addrAdd index addr => (some (if index = w.ipaIfNum then w.addrAdd addr else w), g)
  | .routeAdd index dst =>
    if dst.isDefault = false then (some w, g)
    else if index = w.ipaIfNum then
      if w.active dst.iptype = false ∧ w.ipType.has dst.iptype then
        let (w, g) := (w.request dst.iptype .default).handleRouteAddEvt dst.iptype g
        (some w, g)
      else (some w, g)
    else
      let (w, g) := w.dropDefaultRoute dst.iptype g
      (some w, g)
  | .routeDel index dst =>
    if dst.isDefault ∧ index = w.ipaIfNum then
      let (w, g) := (w.withdraw dst.iptype .default).dropDefaultRoute dst.iptype g
      (some w, g)
    else (some w, g)
  | .upstreamRouteAdd index iptype tether =>
    if index = w.ipaIfNum then
      if w.ipType.has iptype then
        let (w, g) :=
          if w.active iptype then (w, g)
          else (w.request iptype (.upstream tether)).handleRouteAddEvt iptype g
        (some w, w.postWanUpTetherEvt iptype tether g)
      else (some w, g)
    else
      let (w, g) := w.dropDefaultRoute iptype g
      (some w, g)
  | .upstreamRouteDel index iptype tether =>
    if index = w.ipaIfNum then
      let w := w.withdraw iptype (.upstream tether)
      if w.active iptype then
        let g := w.postWanDownTetherEvt iptype tether g
        if (g.tether iptype).length ≠ 0 then (some w, g)
        else
          let (w, g) := w.handleRouteDelEvt iptype g
          (some w, g)
      else (some w, g)
    else (some w, g)
  | .neighClientIpAddrAdd index addr mac_addr =>
    if index = w.ipaIfNum then
      let (w, g) := w.neighClientIpAddrAdd addr mac_addr g
      (some w, g)
    else (some w, g)
  -- Only filter rules change.
  | .firewallChange => (some w, g)
  | .wlanLinkDown index =>
    if w.mIsStaMode = .wlanWan ∧ index = w.ipaIfNum then (none, w.handleDownEvt g)
    else (some w, g)
  | .linkDown index =>
    match w.mIsStaMode with
    | .q6Wan => if index = w.ipaIfNum then (none, w.handleDownEvtEx g) else (some w, g)
    -- The index is not looked at.
    | .ecmWan => (none, w.handleDownEvt g)
    | .wlanWan => (some w, g)

end Wan

def processEvt (event : Event) : List Wan → Shared → List Wan × Shared
  | [], g => ([], g)
  | w :: ws, g =>
    let first := w.eventCallback event g
    let rest := processEvt event ws first.2
    (first.1.toList ++ rest.1, rest.2)

/-- The live instances in the order of registration, and what they share. -/
structure State where
  wans : List Wan := []
  shared : Shared := {}

structure NewIface where
  ipaIfNum : Int
  mIsStaMode : WanMode
  embmsIf : Bool := false
  numExtProps : Nat := 1
  txHdr : IpType → TxHdr := fun _ => .complete

/-- The constructor. It sets `is_default_gateway` for a modem only, and only a modem reads it. -/
def NewIface.wan (iface : NewIface) : Wan where
  ipaIfNum := iface.ipaIfNum
  mIsStaMode := iface.mIsStaMode
  embmsIf := iface.embmsIf
  numExtProps := iface.numExtProps
  txHdr := iface.txHdr

inductive Op
  | register (iface : NewIface)
  | event (event : Event)

namespace State

def exec (s : State) : Op → State
  | .register iface => { s with wans := s.wans ++ [iface.wan] }
  | .event event =>
    let (wans, shared) := processEvt event s.wans s.shared
    { wans, shared }

end State

end EtherDevice.Ipacm.Backhaul
