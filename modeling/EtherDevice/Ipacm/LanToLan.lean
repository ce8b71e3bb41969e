import EtherDevice.Lib.FirstMatch
import EtherDevice.Lib.Handles
import EtherDevice.Lib.Transition
import Mathlib.Algebra.BigOperators.Group.Finset.Basic
import Mathlib.Algebra.Order.Group.Multiset
import Mathlib.Logic.Function.Basic

/-!
# LAN-to-LAN offload

`IPACM_LanToLan` keeps a table of the clients of each IP type. A client lists its peers, with the
number of connections to each, and its offload links: for a link there are a header, routing rules
and a filter rule, which the interfaces install.

A client is named by its table and its key there, and so are the pointers to it. The calls of the
interfaces are numbered in each event, and those named by the answers fail.
-/

namespace EtherDevice.Ipacm

open Lib

inductive IpType
  | v4 | v6
  deriving DecidableEq, Repr

/-- A pointer to a client: the table it is in, and its key. -/
abbrev Ptr := IpType × Nat

structure PeerInfo where
  peer_pointer : Ptr
  num_connection : Int
  deriving DecidableEq, Repr

structure OffloadLinkInfo where
  peer_pointer : Ptr
  flt_rule_hdl : Nat
  rt_rule_hdl : Nat
  hdr_hdl : Nat
  deriving DecidableEq, Repr

structure ClientInfo where
  mac_addr : Nat := 0
  is_active : Bool := false
  is_powersave : Bool := false
  peer : List PeerInfo := []
  link : List OffloadLinkInfo := []
  deriving DecidableEq, Repr

/-- `ipacm_event_lan_client`. An IPv6 address is given by its two halves. -/
structure LanClient where
  iptype : IpType
  ipv4_addr : Nat := 0
  ipv6_addr : Nat × Nat := (0, 0)
  mac_addr : Nat := 0
  p_iface : Option Nat := some 0
  deriving DecidableEq, Repr

structure Connection where
  iptype : IpType
  src_ipv4_addr : Nat := 0
  dst_ipv4_addr : Nat := 0
  src_ipv6_addr : Nat × Nat := (0, 0)
  dst_ipv6_addr : Nat × Nat := (0, 0)
  deriving DecidableEq, Repr

def keyOf (iptype : IpType) (ipv4_addr : Nat) (ipv6_addr : Nat × Nat) : Ptr :=
  match iptype with
  | .v4 => (.v4, ipv4_addr)
  | .v6 => (.v6, ipv6_addr.2)

def LanClient.ptr (data : LanClient) : Ptr := keyOf data.iptype data.ipv4_addr data.ipv6_addr

def Connection.src (data : Connection) : Ptr :=
  keyOf data.iptype data.src_ipv4_addr data.src_ipv6_addr

def Connection.dst (data : Connection) : Ptr :=
  keyOf data.iptype data.dst_ipv4_addr data.dst_ipv6_addr

inductive Rule
  | hdr | rt | flt
  deriving DecidableEq, Repr

def OffloadLinkInfo.handle (link : OffloadLinkInfo) : Rule → Nat
  | .hdr => link.hdr_hdl
  | .rt => link.rt_rule_hdl
  | .flt => link.flt_rule_hdl

def MAX_OFFLOAD_PAIR : Nat := 3

/-- What an event gets from the interfaces: which calls fail, and the handles. -/
structure Answers where
  fails : List Nat := []
  fresh : Fresh := .next

structure LanToLan where
  /-- the keys of `client_info_v4_` and `client_info_v6_` -/
  table : Finset Ptr := ∅
  client : Ptr → ClientInfo := fun _ => {}
  num_offload_pair : IpType → Nat := fun _ => 0
  /-- what is installed -/
  rules : Rule → Handles := fun _ => {}
  /-- the calls of the event so far -/
  calls : Nat := 0
  /-- the links whose filter rule was removed for power save -/
  removed : Finset (Ptr × Ptr) := ∅
  /-- the links that were recorded with a rule that is not installed -/
  unfounded : List (Ptr × Ptr) := []
  /-- the clients that were reported disconnected, and not active since -/
  disconnected : Finset Ptr := ∅

namespace LanToLan

variable (s : LanToLan) (a : Answers)

def modify (p : Ptr) (f : ClientInfo → ClientInfo) : LanToLan :=
  { s with client := Function.update s.client p (f (s.client p)) }

def incPairs (iptype : IpType) : LanToLan :=
  { s with
    num_offload_pair :=
      Function.update s.num_offload_pair iptype ((s.num_offload_pair iptype + 1) % 256) }

def decPairs (iptype : IpType) : LanToLan :=
  { s with
    num_offload_pair :=
      Function.update s.num_offload_pair iptype ((s.num_offload_pair iptype + 255) % 256) }

def add (rule : Rule) : Option Nat × LanToLan :=
  let s' := { s with calls := s.calls + 1 }
  if s.calls ∈ a.fails then (none, s')
  else
    let added := (s.rules rule).add a.fresh
    (some added.1, { s' with rules := Function.update s.rules rule added.2 })

def del (rule : Rule) (handle : Nat) : Bool × LanToLan :=
  let s' := { s with calls := s.calls + 1 }
  if s.calls ∈ a.fails then (false, s')
  else (true, { s' with rules := Function.update s.rules rule ((s.rules rule).del handle) })

def delOffloadLink (link : OffloadLinkInfo) : Bool × LanToLan :=
  let (flt, s) := s.del a .flt link.flt_rule_hdl
  let (rt, s) := s.del a .rt link.rt_rule_hdl
  let (hdr, s) := s.del a .hdr link.hdr_hdl
  (flt && rt && hdr, s)

def pushLink (client : Ptr) (link : OffloadLinkInfo) : LanToLan :=
  let founded := [Rule.hdr, .rt, .flt].all fun rule => link.handle rule ∈ (s.rules rule).live
  { s.modify client fun c => { c with link := c.link ++ [link] } with
    removed := s.removed.erase (client, link.peer_pointer)
    unfounded := if founded then s.unfounded else (client, link.peer_pointer) :: s.unfounded }

def addOffloadLink (client peer : Ptr) : Bool × LanToLan :=
  if s.num_offload_pair client.1 ≥ MAX_OFFLOAD_PAIR then (false, s)
  else
    match s.add a .hdr with
    | (none, s) => (false, s)
    | (some hdr_hdl, s) =>
      match s.add a .rt with
      | (none, s) => (false, (s.del a .hdr hdr_hdl).2)
      | (some rt_rule_hdl, s) =>
        match s.add a .flt with
        | (none, s) => (false, ((s.del a .rt rt_rule_hdl).2.del a .hdr hdr_hdl).2)
        | (some flt_rule_hdl, s) =>
          (true, s.pushLink client ⟨peer, flt_rule_hdl, rt_rule_hdl, hdr_hdl⟩)

def checkPotentialLink (client : Ptr) : List PeerInfo → LanToLan → LanToLan
  | [], s => s
  | peer :: peers, s =>
    if (s.client peer.peer_pointer).is_active && decide (peer.num_connection > 0) then
      let (_, s) := s.addOffloadLink a client peer.peer_pointer
      -- the result of the other direction counts
      let (res, s) := s.addOffloadLink a peer.peer_pointer client
      checkPotentialLink client peers (if res then s.incPairs client.1 else s)
    else checkPotentialLink client peers s

def linkTo (client other : Ptr) : Option OffloadLinkInfo :=
  (s.client client).link.find? (·.peer_pointer == other)

def eraseLinkTo (client other : Ptr) : LanToLan :=
  s.modify client fun c => { c with link := c.link.eraseP (·.peer_pointer == other) }

def turnoffOffloadLinks (client : Ptr) : List OffloadLinkInfo → LanToLan → Bool × LanToLan
  | [], s => (true, s.modify client fun c => { c with link := [] })
  | link :: links, s =>
    match s.delOffloadLink a link with
    | (false, s) => (false, s)
    | (true, s) =>
      match s.linkTo link.peer_pointer client with
      | none => (false, s)
      | some back =>
        match s.delOffloadLink a back with
        | (false, s) => (false, s)
        | (true, s) =>
          turnoffOffloadLinks client links
            ((s.eraseLinkTo link.peer_pointer client).decPairs client.1)

def eraseLink (client other : Ptr) : Bool × LanToLan :=
  match s.linkTo client other with
  | none => (false, s)
  | some link =>
    let (res, s) := s.delOffloadLink a link
    (res, s.eraseLinkTo client other)

def eraseOffloadLink (src_client dst_client : Ptr) : LanToLan :=
  let (res_src, s) := s.eraseLink a src_client dst_client
  let (res_dst, s) := s.eraseLink a dst_client src_client
  if res_src && res_dst then s.decPairs src_client.1 else s

/-- The filter rule of a link is removed for power save; a failure is only logged. -/
def pauseLink (client : Ptr) (link : OffloadLinkInfo) : LanToLan :=
  { (s.del a .flt link.flt_rule_hdl).2 with
    removed := insert (client, link.peer_pointer) s.removed }

def removeFltRules (client : Ptr) : List OffloadLinkInfo → LanToLan → Bool × LanToLan
  | [], s => (true, s)
  | link :: links, s =>
    let s := s.pauseLink a client link
    match s.linkTo link.peer_pointer client with
    | none => (false, s)
    | some back => removeFltRules client links (s.pauseLink a link.peer_pointer back)

def resumeLink (client other : Ptr) (links : List OffloadLinkInfo) : LanToLan :=
  { s.modify client fun c => { c with link := links } with
    removed := s.removed.erase (client, other) }

def addFltRules (client : Ptr) (done : List OffloadLinkInfo) :
    List OffloadLinkInfo → LanToLan → Bool × LanToLan
  | [], s => (true, s)
  | link :: links, s =>
    match s.add a .flt with
    | (none, s) => (false, s)
    | (some flt, s) =>
      let s := s.resumeLink client link.peer_pointer
        (done ++ { link with flt_rule_hdl := flt } :: links)
      match s.linkTo link.peer_pointer client with
      | none => (false, s)
      | some _ =>
        match s.add a .flt with
        | (none, s) => (false, s)
        | (some flt', s) =>
          let s := s.resumeLink link.peer_pointer client
            (changeFirst (·.peer_pointer == client) (fun back => { back with flt_rule_hdl := flt' })
              (s.client link.peer_pointer).link)
          addFltRules client (done ++ [{ link with flt_rule_hdl := flt }]) links s

def addPeer (client other : Ptr) : Bool × LanToLan :=
  if (s.client client).peer.any (·.peer_pointer == other) then
    (false, s.modify client fun c =>
      let count := fun it : PeerInfo => { it with num_connection := it.num_connection + 1 }
      { c with peer := changeFirst (·.peer_pointer == other) count c.peer })
  else (true, s.modify client fun c => { c with peer := c.peer ++ [⟨other, 1⟩] })

def addConnection (src_client dst_client : Ptr) : Bool × LanToLan :=
  let (new_src, s) := s.addPeer src_client dst_client
  let (new_dst, s) := s.addPeer dst_client src_client
  (new_src || new_dst, s)

def removePeer (client other : Ptr) : Bool × LanToLan :=
  match (s.client client).peer.find? (·.peer_pointer == other) with
  | none => (false, s)
  | some it =>
    if it.num_connection - 1 = 0 then
      (true, s.modify client fun c => { c with peer := c.peer.eraseP (·.peer_pointer == other) })
    else
      (false, s.modify client fun c =>
        let count := fun it : PeerInfo => { it with num_connection := it.num_connection - 1 }
        { c with peer := changeFirst (·.peer_pointer == other) count c.peer })

def removeConnection (src_client dst_client : Ptr) : Bool × LanToLan :=
  (s.removePeer src_client dst_client).2.removePeer dst_client src_client

def clearPeerList (client : Ptr) : List PeerInfo → LanToLan → Bool × LanToLan
  | [], s => (true, s.modify client fun c => { c with peer := [] })
  | it :: peers, s =>
    if (s.client it.peer_pointer).peer.any (·.peer_pointer == client) then
      clearPeerList client peers (s.modify it.peer_pointer fun c =>
        { c with peer := c.peer.eraseP (·.peer_pointer == client) })
    else (false, s)

def eraseClient (p : Ptr) : LanToLan := { s with table := s.table.erase p }

def activate (p : Ptr) (mac_addr : Nat) : LanToLan :=
  s.modify p fun c => { c with mac_addr := mac_addr, is_active := true, is_powersave := false }

def newClient (p : Ptr) (mac_addr : Nat) : LanToLan :=
  { s with
    table := insert p s.table
    client := Function.update s.client p { mac_addr := mac_addr, is_active := true } }

def handleClientActive (data : LanClient) : LanToLan :=
  if data.p_iface = none then s
  else
    let p := data.ptr
    let s := { s with disconnected := s.disconnected.erase p }
    if p ∉ s.table then s.newClient p data.mac_addr
    else if (s.client p).is_active then
      if (s.client p).mac_addr = data.mac_addr then s
      else
        let s := (turnoffOffloadLinks a p (s.client p).link s).2
        let s := (clearPeerList p (s.client p).peer s).2
        s.activate p data.mac_addr
    else
      let s := s.activate p data.mac_addr
      checkPotentialLink a p (s.client p).peer s

def handleClientInactive (data : LanClient) : LanToLan :=
  let p := data.ptr
  if data.p_iface = none ∨ p ∉ s.table then s
  else
    let s := (turnoffOffloadLinks a p (s.client p).link s).2
    let s := s.modify p fun c => { c with is_active := false }
    if (s.client p).peer = [] then s.eraseClient p else s

def handleClientDisconnect (data : LanClient) : LanToLan :=
  let p := data.ptr
  if data.p_iface = none then s
  else
    let s := { s with disconnected := insert p s.disconnected }
    if p ∉ s.table then s
    else
      let s := (turnoffOffloadLinks a p (s.client p).link s).2
      let s := (clearPeerList p (s.client p).peer s).2
      s.eraseClient p

def handleClientPowerSave (data : LanClient) : LanToLan :=
  let p := data.ptr
  if data.p_iface = none ∨ p ∉ s.table then s
  else
    match removeFltRules a p (s.client p).link s with
    | (false, s) => s
    | (true, s) => s.modify p fun c => { c with is_active := false, is_powersave := true }

def handleClientPowerRecover (data : LanClient) : LanToLan :=
  let p := data.ptr
  if data.p_iface = none ∨ p ∉ s.table then s
  else if (s.client p).is_active || !(s.client p).is_powersave then s
  else
    match addFltRules a p [] (s.client p).link s with
    | (false, s) => s
    | (true, s) =>
      let s := s.modify p fun c => { c with is_active := true, is_powersave := false }
      checkPotentialLink a p (s.client p).peer s

def handleNewConnection (data : Connection) : LanToLan :=
  let (src, dst) := (data.src, data.dst)
  if src ∉ s.table ∨ dst ∉ s.table then s
  else
    let (is_first_connection, s) := s.addConnection src dst
    if is_first_connection && (s.client src).is_active && (s.client dst).is_active then
      match s.addOffloadLink a src dst with
      | (false, s) => s
      | (true, s) =>
        match s.addOffloadLink a dst src with
        | (false, s) => s
        | (true, s) => s.incPairs data.iptype
    else s

/-- A client without peers that is neither active nor in power save goes. -/
def eraseIdle (p : Ptr) : LanToLan :=
  if !(s.client p).is_active && !(s.client p).is_powersave && (s.client p).peer.isEmpty then
    s.eraseClient p
  else s

def eraseLinks (src dst : Ptr) : LanToLan :=
  if (s.client src).is_active && (s.client dst).is_active then s.eraseOffloadLink a src dst
  else
    let s := if (s.client src).is_powersave &&
        ((s.client dst).is_active || (s.client dst).is_powersave) then
      s.eraseOffloadLink a src dst else s
    if (s.client dst).is_powersave &&
        ((s.client src).is_active || (s.client src).is_powersave) then
      s.eraseOffloadLink a dst src else s

def handleDelConnection (data : Connection) : LanToLan :=
  let (src, dst) := (data.src, data.dst)
  if src ∉ s.table ∨ dst ∉ s.table then s
  else
    match s.removeConnection src dst with
    | (false, s) => s
    | (true, s) => ((s.eraseLinks a src dst).eraseIdle src).eraseIdle dst

inductive Event
  | active (data : LanClient)
  | inactive (data : LanClient)
  | disconnect (data : LanClient)
  | powerSave (data : LanClient)
  | powerRecover (data : LanClient)
  | newConnection (data : Connection)
  | delConnection (data : Connection)
  deriving DecidableEq, Repr

/-- A connection is between two different clients, which differ in the lower half of an IPv6
address. -/
def Enabled (_ : LanToLan) (op : Event × Answers) : Prop :=
  match op.1 with
  | .newConnection data | .delConnection data => data.src ≠ data.dst
  | _ => True

instance (op : Event × Answers) : Decidable (s.Enabled op) := by
  unfold Enabled
  split <;> infer_instance

def exec (op : Event × Answers) : LanToLan :=
  let s := { s with calls := 0 }
  match op.1 with
  | .active data => s.handleClientActive op.2 data
  | .inactive data => s.handleClientInactive op.2 data
  | .disconnect data => s.handleClientDisconnect op.2 data
  | .powerSave data => s.handleClientPowerSave op.2 data
  | .powerRecover data => s.handleClientPowerRecover op.2 data
  | .newConnection data => s.handleNewConnection op.2 data
  | .delConnection data => s.handleDelConnection op.2 data

def system : System LanToLan (Event × Answers) := .ofFunction (· = {}) Enabled exec

end LanToLan

end EtherDevice.Ipacm
