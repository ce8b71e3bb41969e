import Mathlib
import EtherDevice.Lib.Handles
import EtherDevice.Lib.Transition

/-!
# The client tables of WLAN and LAN interfaces

`IPACM_Wlan` and `IPACM_Lan` keep one row for each client: its addresses, the handles of its
headers, and for each TX property the handles of its routing rules. A row is as large as the
interface has TX properties, and the rows behind the last client are never cleared.

The handlers of the two classes are near copies of each other, and their common parts are
written once. `power_save_set` and `p_hdr_info` are fields of a WLAN row only. The ioctls on
headers and routing rules succeed, and the driver gives out fresh handles. NAT and LAN-to-LAN
events are left out, except for the one that makes a reset return early.
-/

namespace EtherDevice.Ipacm.ClientTable

open Lib

inductive IpType
  | v4 | v6
  deriving DecidableEq, Repr

/-- `ip_type` of an interface. `null` is `IPACM_IP_NULL`: no address is up. -/
inductive IfaceIp
  | null | v4 | v6 | max
  deriving DecidableEq, Repr

def IfaceIp.has : IfaceIp → IpType → Bool
  | .v4, .v4 | .v6, .v6 | .max, _ => true
  | _, _ => false

def IfaceIp.addFamily : IfaceIp → IpType → IfaceIp
  | .null, .v4 => .v4
  | .null, .v6 => .v6
  | .v4, .v6 | .v6, .v4 => .max
  | ip, _ => ip

abbrev Mac := BitVec 48
abbrev V6Addr := UInt32 × UInt32 × UInt32 × UInt32

def ipv6NumAddr : Nat := 3

def ipaMaxNumWifiClients : Nat := 32
def ipaMaxNumEthClients : Nat := 15

structure RtHdl where
  v4 : Nat := 0
  v6 : Nat → Nat := fun _ => 0
  v6Wan : Nat → Nat := fun _ => 0

structure Client where
  pHdrInfo : Nat := 0
  mac : Mac := 0
  v4Addr : UInt32 := 0
  v6Addr : Nat → V6Addr := fun _ => (0, 0, 0, 0)
  hdrHdlV4 : Nat := 0
  hdrHdlV6 : Nat := 0
  routeRuleSetV4 : Bool := false
  routeRuleSetV6 : Nat := 0
  ipv4Set : Bool := false
  ipv6Set : Nat := 0
  ipv4HeaderSet : Bool := false
  ipv6HeaderSet : Bool := false
  powerSaveSet : Bool := false
  rtHdl : Nat → RtHdl := fun _ => {}

namespace Client

def deleteRoutingHdl (routing : Handles) (handle : Nat) : Handles :=
  if handle = 0 then routing else routing.del handle

def deleteRulesV4 (c : Client) (txs : List Nat) (routing : Handles) : Handles :=
  if c.routeRuleSetV4 then
    txs.foldl (fun routing tx => deleteRoutingHdl routing (c.rtHdl tx).v4) routing
  else routing

def deleteRulesV6 (c : Client) (txs : List Nat) (routing : Handles) : Handles :=
  txs.foldl (fun routing tx =>
    (List.range c.routeRuleSetV6).foldl (fun routing num =>
      deleteRoutingHdl (deleteRoutingHdl routing ((c.rtHdl tx).v6 num))
        ((c.rtHdl tx).v6Wan num)) routing) routing

def setRtV4 (c : Client) (tx handle : Nat) : Client :=
  { c with rtHdl := Function.update c.rtHdl tx { c.rtHdl tx with v4 := handle } }

def setRtV6 (c : Client) (tx num handle handleWan : Nat) : Client :=
  { c with rtHdl := Function.update c.rtHdl tx { c.rtHdl tx with
      v6 := Function.update (c.rtHdl tx).v6 num handle
      v6Wan := Function.update (c.rtHdl tx).v6Wan num handleWan } }

def addRuleV4 (fresh : Fresh) (state : Handles × Client) (tx : Nat) : Handles × Client :=
  let (handle, routing) := state.1.add fresh
  (routing, state.2.setRtV4 tx handle)

def addRuleV6 (fresh : Fresh) (tx : Nat) (state : Handles × Client) (num : Nat) :
    Handles × Client :=
  let (handle, routing) := state.1.add fresh
  let (handleWan, routing) := routing.add fresh
  (routing, state.2.setRtV6 tx num handle handleWan)

def addRulesV4 (c : Client) (fresh : Fresh) (txs : List Nat) (routing : Handles) :
    Handles × Client :=
  txs.foldl (addRuleV4 fresh) (routing, c)

def addRulesV6 (c : Client) (fresh : Fresh) (txs : List Nat) (routing : Handles) :
    Handles × Client :=
  txs.foldl (fun state tx =>
    (List.range' c.routeRuleSetV6 (c.ipv6Set - c.routeRuleSetV6)).foldl (addRuleV6 fresh tx)
      state) (routing, c)

def deleteHeaderV4 (c : Client) (header : Handles) : Bool × Client × Handles :=
  if c.ipv4HeaderSet then
    if c.hdrHdlV4 = 0 then (false, c, header)
    else (true, { c with ipv4HeaderSet := false }, header.del c.hdrHdlV4)
  else (true, c, header)

def deleteHeaderV6 (c : Client) (header : Handles) : Bool × Client × Handles :=
  if c.ipv6HeaderSet then
    if c.hdrHdlV6 = 0 then (false, c, header)
    else (true, { c with ipv6HeaderSet := false }, header.del c.hdrHdlV6)
  else (true, c, header)

def deleteHeaders (c : Client) (header : Handles) : Bool × Client × Handles :=
  match c.deleteHeaderV4 header with
  | (true, c, header) => c.deleteHeaderV6 header
  | failed => failed

def addHeaderV4 (c : Client) (fresh : Fresh) (txProp : List IpType) (header : Handles) :
    Handles × Client :=
  if .v4 ∈ txProp then
    let (handle, header) := header.add fresh
    (header, { c with hdrHdlV4 := handle, ipv4HeaderSet := true })
  else (header, c)

def addHeaderV6 (c : Client) (fresh : Fresh) (txProp : List IpType) (header : Handles) :
    Handles × Client :=
  if .v6 ∈ txProp then
    let (handle, header) := header.add fresh
    (header, { c with hdrHdlV6 := handle, ipv6HeaderSet := true })
  else (header, c)

def addHeaders (c : Client) (fresh : Fresh) (txProp : List IpType) (header : Handles) :
    Handles × Client :=
  let (header, c) := c.addHeaderV4 fresh txProp header
  c.addHeaderV6 fresh txProp header

def cleared (c : Client) : Client :=
  { c with routeRuleSetV4 := false, routeRuleSetV6 := 0, ipv4Set := false, ipv6Set := 0 }

def reset (c : Client) : Client :=
  { c.cleared with ipv4HeaderSet := false, ipv6HeaderSet := false }

/-- The row `src` is copied over the row in front of it, field by field: of the addresses and
their rules those that are set, and of the rules those of the TX properties there are. -/
def copyEth (txs : Nat) (dst src : Client) : Client :=
  { dst with
    mac := src.mac
    hdrHdlV4 := src.hdrHdlV4
    hdrHdlV6 := src.hdrHdlV6
    v4Addr := src.v4Addr
    ipv4Set := src.ipv4Set
    ipv6Set := src.ipv6Set
    ipv4HeaderSet := src.ipv4HeaderSet
    ipv6HeaderSet := src.ipv6HeaderSet
    routeRuleSetV4 := src.routeRuleSetV4
    routeRuleSetV6 := src.routeRuleSetV6
    v6Addr := fun num => if num < src.ipv6Set then src.v6Addr num else dst.v6Addr num
    rtHdl := fun tx =>
      if tx < txs then
        { v4 := (src.rtHdl tx).v4
          v6 := fun num =>
            if num < src.routeRuleSetV6 then (src.rtHdl tx).v6 num else (dst.rtHdl tx).v6 num
          v6Wan := fun num =>
            if num < src.routeRuleSetV6 then (src.rtHdl tx).v6Wan num
            else (dst.rtHdl tx).v6Wan num }
      else dst.rtHdl tx }

def copyWlan (txs : Nat) (dst src : Client) : Client :=
  { copyEth txs dst src with pHdrInfo := src.pHdrInfo }

end Client

inductive Kind
  | wlan | lan
  deriving DecidableEq, Repr

/-- `txProp` is the family of each TX property, and `none` where none are registered. -/
structure Iface where
  kind : Kind
  txProp : Option (List IpType)
  ipType : IfaceIp := .null
  isActive : Bool := true
  rows : Nat → Client := fun _ => {}
  num : Nat := 0
  routing : Handles := {}
  header : Handles := {}

structure EventData where
  mac : Mac
  iptype : IpType
  v4Addr : UInt32 := 0
  v6Addr : V6Addr := (0, 0, 0, 0)

namespace Iface

variable (s : Iface)

/-- The TX properties, and the indices of those of one family. -/
def txs : List IpType := s.txProp.getD []

def txOf (iptype : IpType) : List Nat :=
  (List.range s.txs.length).filter fun tx => s.txs[tx]? = some iptype

def setRow (index : Nat) (c : Client) : Iface :=
  { s with rows := Function.update s.rows index c }

def getClientIndex (mac : Mac) : Option Nat :=
  (List.range s.num).find? fun index => (s.rows index).mac = mac

def deleteRtRules (index : Nat) : IpType → Iface
  | .v4 =>
    { s with routing := (s.rows index).deleteRulesV4 (s.txOf .v4) s.routing }.setRow index
      { s.rows index with routeRuleSetV4 := false }
  | .v6 =>
    { s with routing := (s.rows index).deleteRulesV6 (s.txOf .v6) s.routing }.setRow index
      { s.rows index with routeRuleSetV6 := 0 }

def deleteHeaders (index : Nat) : Bool × Iface :=
  let (res, c, header) := (s.rows index).deleteHeaders s.header
  (res, { s with header := header }.setRow index c)

def addClient (c : Client) (fresh : Fresh) : Iface :=
  let (header, c) := c.addHeaders fresh s.txs s.header
  { s.setRow s.num c.cleared with header := header, num := s.num + 1 }

/-- `handle_wlan_client_init_ex`. `mac` is what the attributes of the event hold, `info` the
event itself, and `total` the number of clients of all WLAN interfaces. -/
def handleWlanClientInitEx (mac : Option Mac) (info total : Nat) (fresh : Fresh) : Iface :=
  if s.num ≥ ipaMaxNumWifiClients ∨ total ≥ ipaMaxNumWifiClients then s
  else
    match s.txProp with
    | none => s
    | some txProp =>
      let c := { s.rows s.num with pHdrInfo := info, powerSaveSet := false }
      -- the attributes are looked at along with the first header of a family
      let c := if txProp = [] then c else { c with mac := mac.getD c.mac }
      s.addClient c fresh

def handleEthHdrInit (mac : Mac) (fresh : Fresh) : Iface :=
  if (s.getClientIndex mac).isSome ∨ s.num ≥ ipaMaxNumEthClients then s
  else
    let c := { s.rows s.num with mac := mac }
    match s.txProp with
    | none => s.setRow s.num c
    | some _ => s.addClient c fresh

def handleClientIpaddr (data : EventData) : Bool × Iface :=
  match s.getClientIndex data.mac with
  | none => (false, s)
  | some index =>
    let c := s.rows index
    match data.iptype with
    | .v4 =>
      if data.v4Addr = 0 then (false, s)
      else if c.ipv4Set = false then
        (true, s.setRow index { c with v4Addr := data.v4Addr, ipv4Set := true })
      else if data.v4Addr = c.v4Addr then (false, s)
      else
        -- the rules of the old address are deleted
        let s := s.deleteRtRules index .v4
        (true, s.setRow index { s.rows index with v4Addr := data.v4Addr })
    | .v6 =>
      if data.v6Addr = (0, 0, 0, 0) then (true, s)
      else if c.ipv6Set < ipv6NumAddr then
        if (List.range c.ipv6Set).any fun num => c.v6Addr num = data.v6Addr then (false, s)
        else
          (true, s.setRow index { c with
            v6Addr := Function.update c.v6Addr c.ipv6Set data.v6Addr
            ipv6Set := c.ipv6Set + 1 })
      else (false, s)

def addRtRules (index : Nat) (iptype : IpType) (fresh : Fresh) : Iface :=
  let c := s.rows index
  match iptype with
  | .v4 =>
    if c.routeRuleSetV4 = false ∧ c.ipv4Set = true then
      let (routing, c) := c.addRulesV4 fresh (s.txOf .v4) s.routing
      { s.setRow index { c with routeRuleSetV4 := true } with routing := routing }
    else s
  | .v6 =>
    if c.routeRuleSetV6 < c.ipv6Set then
      let (routing, c) := c.addRulesV6 fresh (s.txOf .v6) s.routing
      { s.setRow index { c with routeRuleSetV6 := c.ipv6Set } with routing := routing }
    else s

def handleWlanClientRouteRule (mac : Mac) (iptype : IpType) (fresh : Fresh) : Iface :=
  if s.txProp = none then s
  else
    match s.getClientIndex mac with
    | none => s
    | some index => if (s.rows index).powerSaveSet then s else s.addRtRules index iptype fresh

def handleEthClientRouteRule (mac : Mac) (iptype : IpType) (fresh : Fresh) : Iface :=
  if s.txProp = none then s
  else
    match s.getClientIndex mac with
    | none => s
    | some index => s.addRtRules index iptype fresh

def handleWlanClientPwrsave (mac : Mac) : Iface :=
  match s.getClientIndex mac with
  | none => s
  | some index =>
    if (s.rows index).powerSaveSet then s
    else
      let s := (s.deleteRtRules index .v4).deleteRtRules index .v6
      s.setRow index { s.rows index with powerSaveSet := true }

def handleWlanClientRecover (mac : Mac) (fresh : Fresh) : Iface :=
  match s.getClientIndex mac with
  | none => s
  | some index =>
    if (s.rows index).powerSaveSet = false then s
    else
      let s := s.setRow index { s.rows index with powerSaveSet := false }
      let s := if (s.rows index).ipv4Set then s.handleWlanClientRouteRule mac .v4 fresh else s
      if (s.rows index).ipv6Set ≠ 0 then s.handleWlanClientRouteRule mac .v6 fresh else s

def shiftRows (copy : Client → Client → Client) : Nat → Nat → (Nat → Client) → Nat → Client
  | 0, _, rows => rows
  | count + 1, index, rows =>
    shiftRows copy count (index + 1)
      (Function.update rows index (copy (rows index) (rows (index + 1))))

def deleteHandles (index : Nat) : Bool × Iface :=
  ((s.deleteRtRules index .v4).deleteRtRules index .v6).deleteHeaders index

def dropRow (copy : Client → Client → Client) (index : Nat) : Iface :=
  let rows := Function.update s.rows index (s.rows index).reset
  { s with rows := shiftRows copy (s.num - 1 - index) index rows, num := s.num - 1 }

def removeClient (copy : Client → Client → Client) (mac : Mac) : Bool × Iface :=
  match s.getClientIndex mac with
  | none => (true, s)
  | some index =>
    match s.deleteHandles index with
    | (true, s) => (true, s.dropRow copy index)
    | (false, s) => (false, s)

def handleWlanClientDownEvt (mac : Mac) : Bool × Iface :=
  s.removeClient (Client.copyWlan s.txs.length) mac

def handleEthClientDownEvt (mac : Mac) : Bool × Iface :=
  s.removeClient (Client.copyEth s.txs.length) mac

/-- Whether `handle_lan2lan_msg_post` refuses the client with this address: it has an address of
a family that the interface is not up for. -/
def lan2lanMsgFails (mac : Mac) (iptype : IpType) : Bool :=
  match s.getClientIndex mac with
  | none => false
  | some index =>
    (match iptype with
      | .v4 => (s.rows index).ipv4Set
      | .v6 => (s.rows index).ipv6Set != 0) && !s.ipType.has iptype

def resetAddr (index : Nat) : IpType → Iface
  | .v4 => s.setRow index { s.rows index with ipv4Set := false }
  | .v6 => s.setRow index { s.rows index with ipv6Set := 0 }

def resetWlanClients (iptype : IpType) : List Nat → Iface → Iface
  | [], s => s
  | index :: indices, s =>
    let s := s.deleteRtRules index iptype
    if s.lan2lanMsgFails (s.rows index).mac iptype then s
    else resetWlanClients iptype indices (s.resetAddr index iptype)

def handleWlanClientResetRt (iptype : IpType) : Iface :=
  resetWlanClients iptype (List.range s.num) s

def handleLanClientResetRt (iptype : IpType) : Iface :=
  let s := (List.range s.num).foldl (fun s index => s.deleteRtRules index iptype) s
  (List.range s.num).foldl (fun s index => s.resetAddr index iptype) s

/-- The handles of the clients, as `handle_down_evt` deletes them. It stops at a header that
cannot be deleted. -/
def downClients : List Nat → Iface → Iface
  | [], s => s
  | index :: indices, s =>
    let s := (s.deleteRtRules index .v4).deleteRtRules index .v6
    match (s.rows index).deleteHeaders s.header with
    | (true, _, header) => downClients indices { s with header := header }
    | (false, _, header) => { s with header := header }

/-- `handle_down_evt`. Without an address, or when a filter rule cannot be deleted, it goes to
`fail` at once. The tables are freed there. -/
def handleDownEvt (filtersDeleted : Bool) : Iface :=
  let s := if s.ipType = .null ∨ filtersDeleted = false then s
    else downClients (List.range s.num) s
  { s with isActive := false }

end Iface

inductive Op
  /-- The interface gets an address. -/
  | addrAdd (iptype : IpType)
  | wlanClientAddEx (mac : Option Mac) (info total : Nat) (fresh : Fresh)
  | wlanNeighAdd (data : EventData) (fresh : Fresh)
  | wlanPowerSave (mac : Mac)
  | wlanRecover (mac : Mac) (fresh : Fresh)
  | wlanClientDel (mac : Mac)
  | wlanResetRt (iptype : IpType)
  | lanNeighAdd (data : EventData) (fresh : Fresh)
  | lanNeighDel (mac : Mac)
  | lanResetRt (iptype : IpType)
  | down (filtersDeleted : Bool)

def Op.of : Op → Option Kind
  | .addrAdd _ | .down _ => none
  | .lanNeighAdd _ _ | .lanNeighDel _ | .lanResetRt _ => some .lan
  | _ => some .wlan

namespace Iface

def handle (s : Iface) : Op → Iface
  | .addrAdd iptype => { s with ipType := s.ipType.addFamily iptype }
  | .wlanClientAddEx mac info total fresh => s.handleWlanClientInitEx mac info total fresh
  | .wlanNeighAdd data fresh =>
    match s.handleClientIpaddr data with
    | (false, s) => s
    | (true, s) => s.handleWlanClientRouteRule data.mac data.iptype fresh
  | .wlanPowerSave mac => s.handleWlanClientPwrsave mac
  | .wlanRecover mac fresh => s.handleWlanClientRecover mac fresh
  | .wlanClientDel mac => (s.handleWlanClientDownEvt mac).2
  | .wlanResetRt iptype => s.handleWlanClientResetRt iptype
  | .lanNeighAdd data fresh =>
    match (s.handleEthHdrInit data.mac fresh).handleClientIpaddr data with
    | (false, s) => s
    | (true, s) => s.handleEthClientRouteRule data.mac data.iptype fresh
  | .lanNeighDel mac => (s.handleEthClientDownEvt mac).2
  | .lanResetRt iptype => s.handleLanClientResetRt iptype
  | .down filtersDeleted => s.handleDownEvt filtersDeleted

/-- `event_callback`: an interface that is not active handles nothing more. -/
def eventCallback (s : Iface) (op : Op) : Iface := if s.isActive then s.handle op else s

def Initial (s : Iface) : Prop := ∃ kind txProp, s = { kind := kind, txProp := txProp }

def Enabled (s : Iface) (op : Op) : Prop := ∀ kind ∈ op.of, s.kind = kind

instance (s : Iface) (op : Op) : Decidable (Enabled s op) := by
  unfold Enabled
  infer_instance

def system : System Iface Op := .ofFunction Initial Enabled eventCallback

variable {s : Iface} {index : Nat} {c : Client} {iptype : IpType}

@[simp] theorem rows_setRow : (s.setRow index c).rows = Function.update s.rows index c := rfl
@[simp] theorem num_setRow : (s.setRow index c).num = s.num := rfl
@[simp] theorem txProp_setRow : (s.setRow index c).txProp = s.txProp := rfl
@[simp] theorem routing_setRow : (s.setRow index c).routing = s.routing := rfl
@[simp] theorem header_setRow : (s.setRow index c).header = s.header := rfl
@[simp] theorem isActive_setRow : (s.setRow index c).isActive = s.isActive := rfl

@[simp] theorem num_deleteRtRules : (s.deleteRtRules index iptype).num = s.num := by
  cases iptype <;> rfl

@[simp] theorem txProp_deleteRtRules : (s.deleteRtRules index iptype).txProp = s.txProp := by
  cases iptype <;> rfl

@[simp] theorem header_deleteRtRules : (s.deleteRtRules index iptype).header = s.header := by
  cases iptype <;> rfl

@[simp] theorem isActive_deleteRtRules :
    (s.deleteRtRules index iptype).isActive = s.isActive := by
  cases iptype <;> rfl

theorem shiftRows_eq (copy : Client → Client → Client) (count first : Nat)
    (rows : Nat → Client) (j : Nat) :
    shiftRows copy count first rows j =
      if first ≤ j ∧ j < first + count then copy (rows j) (rows (j + 1)) else rows j := by
  induction count generalizing first rows with
  | zero =>
    rw [if_neg (by omega)]
    rfl
  | succ count ih =>
    rw [shiftRows, ih]
    by_cases hj : j = first
    · simp [hj]
    · rw [Function.update_of_ne hj]
      by_cases hin : first + 1 ≤ j ∧ j < first + 1 + count
      · rw [if_pos hin, if_pos (by omega), Function.update_of_ne (by omega)]
      · rw [if_neg hin, if_neg (by omega)]

end Iface

end EtherDevice.Ipacm.ClientTable
