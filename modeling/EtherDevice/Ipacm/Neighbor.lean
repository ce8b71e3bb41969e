import EtherDevice.Ipacm.IfaceTable
import EtherDevice.Lib.CountedArray

/-!
# The neighbour cache

`IPACM_Neighbor` remembers for each client of a WLAN interface the interface and the last IPv4
address. The kernel reports neighbours on the bridge; these reports are posted again with the
interface of the client. A client that comes back is announced with the address that was cached.

The copy of an event that is posted keeps the fields of the event. Memory is not short.
-/

namespace EtherDevice.Ipacm.Neighbor

open Lib IfaceTable

def maxNumNeighborClients : Nat := 17

inductive IpType
  | v4
  | v6
  deriving DecidableEq

structure EventData where
  ifIndex : Int
  macAddr : Nat
  iptype : IpType
  ipv4Addr : BitVec 32
  ipv6Addr : BitVec 128
  deriving DecidableEq

def EventData.HasAddr (data : EventData) : Prop :=
  if data.iptype = .v4 then data.ipv4Addr ≠ 0 else data.ipv6Addr ≠ 0

instance (data : EventData) : Decidable data.HasAddr :=
  inferInstanceAs (Decidable
    (if data.iptype = .v4 then data.ipv4Addr ≠ 0 else data.ipv6Addr ≠ 0))

inductive Attrib
  | macAddr (macAddr : Nat)
  | other

/-- The events, with the event id `IPA_NEW_NEIGH_EVENT` or another one for a neighbour. A buffer
without an attribute for it has whatever address was in it. -/
inductive Event
  | clientAdd (ifIndex : Int) (attribs : List Attrib) (unset : Nat)
  | neigh (isNew : Bool) (data : EventData)

def Event.ifIndex : Event → Int
  | clientAdd ifIndex _ _ => ifIndex
  | neigh _ data => data.ifIndex

def clientMacAddr (unset : Nat) : List Attrib → Nat
  | [] => unset
  | .macAddr macAddr :: attribs => clientMacAddr macAddr attribs
  | .other :: attribs => clientMacAddr unset attribs

def Event.macAddr : Event → Nat
  | clientAdd _ attribs unset => clientMacAddr unset attribs
  | neigh _ data => data.macAddr

/-- `IPA_NEIGH_CLIENT_IP_ADDR_ADD_EVENT`, or `IPA_NEIGH_CLIENT_IP_ADDR_DEL_EVENT`. The IPv6 address
is not set for a client that comes back. -/
structure Post where
  add : Bool
  ifIndex : Int
  macAddr : Nat
  iptype : IpType
  ipv4Addr : BitVec 32
  ipv6Addr : Option (BitVec 128)
  deriving DecidableEq

def EventData.post (data : EventData) (isNew : Bool) : Post where
  add := isNew
  ifIndex := data.ifIndex
  macAddr := data.macAddr
  iptype := data.iptype
  ipv4Addr := data.ipv4Addr
  ipv6Addr := some data.ipv6Addr

structure Client where
  macAddr : Nat
  ifaceIndex : Int
  v4Addr : BitVec 32
  ipaIfNum : Int
  deriving DecidableEq

/-- `IPACM_Neighbor`, and the events that it posted. A row that was never written is `none`. -/
structure Cache extends Cfg where
  neighborClient : Nat → Option Client := fun _ => none
  numNeighborClient : Nat := 0
  posts : List Post := []

namespace Cache

variable (s : Cache) (env : Env)

def touchRow (idx : Int) : Cache := { s with toCfg := s.touch idx }

def setClient (i : Nat) (client : Client) : Cache :=
  { s with neighborClient := Function.update s.neighborClient i (some client) }

def postEvt (post : Post) : Cache := { s with posts := s.posts ++ [post] }

def findClient (macAddr : Nat) : Option (Nat × Client) :=
  (firstBelow (fun row => row.any fun client => client.macAddr = macAddr) s.neighborClient
    s.numNeighborClient).bind fun i => (s.neighborClient i).map fun client => (i, client)

def addClient (client : Client) : Cache :=
  if s.numNeighborClient < maxNumNeighborClients then
    { s.setClient s.numNeighborClient client with numNeighborClient := s.numNeighborClient + 1 }
  else s

def logIface (ifIndex : Int) : Cache :=
  let (idx, cfg) := s.ifaceIpaIndexQuery env ifIndex
  { s with toCfg := cfg.touch idx }

def reconnect (i : Nat) (client : Client) (ifIndex idx : Int) : Cache :=
  let bridge := s.isBridge env idx
  let s := s.touchRow idx
  if bridge then s
  else
    -- the cached index is replaced if it differs
    let client := { client with ifaceIndex := ifIndex }
    let s := s.setClient i client
    if idx ≠ client.ipaIfNum then s
    else if client.v4Addr ≠ 0 then
      (s.postEvt {
        add := true
        ifIndex := client.ifaceIndex
        macAddr := client.macAddr
        iptype := .v4
        ipv4Addr := client.v4Addr
        ipv6Addr := none }).logIface env client.ifaceIndex
    else s

def handleV4 (isNew : Bool) (data : EventData) (idx : Int) : Cache :=
  let bridge := s.isBridge env idx
  let s := s.touchRow idx
  if bridge then
    match s.findClient data.macAddr with
    | none => s
    | some (i, client) =>
      ((s.setClient i { client with v4Addr := data.ipv4Addr }).postEvt
        (EventData.post { data with ifIndex := client.ifaceIndex } isNew)).logIface env
          client.ifaceIndex
  else
    let s := (s.postEvt (data.post isNew)).touchRow idx
    match s.findClient data.macAddr with
    | some (i, client) => (s.setClient i { client with
        ifaceIndex := data.ifIndex
        ipaIfNum := idx
        v4Addr := data.ipv4Addr }).touchRow idx
    | none => s.addClient {
        macAddr := data.macAddr
        ifaceIndex := data.ifIndex
        ipaIfNum := idx
        v4Addr := data.ipv4Addr }

def handleV6 (isNew : Bool) (data : EventData) (idx : Int) : Cache :=
  let bridge := s.isBridge env idx
  let s := s.touchRow idx
  if bridge then
    match s.findClient data.macAddr with
    | none => s
    | some (_, client) =>
      (s.postEvt (EventData.post { data with ifIndex := client.ifaceIndex } isNew)).logIface env
        client.ifaceIndex
  else (s.postEvt (data.post isNew)).touchRow idx

def handleNoAddr (data : EventData) (idx : Int) : Cache :=
  match s.findClient data.macAddr with
  | some (i, client) => s.reconnect env i client data.ifIndex idx
  | none =>
    let bridge := s.isBridge env idx
    let s := s.touchRow idx
    if bridge then s
    else s.addClient {
      macAddr := data.macAddr
      ifaceIndex := data.ifIndex
      ipaIfNum := idx
      v4Addr := 0 }

def eventCallback (event : Event) : Cache :=
  let (idx, cfg) := s.ifaceIpaIndexQuery env event.ifIndex
  let s := { s with toCfg := cfg }
  match event with
  | .clientAdd ifIndex attribs unset =>
    match s.findClient (clientMacAddr unset attribs) with
    | none => s
    | some (i, client) => s.reconnect env i client ifIndex idx
  | .neigh isNew data =>
    if data.iptype = .v4 then
      if data.ipv4Addr ≠ 0 then s.handleV4 env isNew data idx else s
    else if data.ipv6Addr ≠ 0 then s.handleV6 env isNew data idx
    else s.handleNoAddr env data idx

end Cache

end EtherDevice.Ipacm.Neighbor
