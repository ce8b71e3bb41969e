import Mathlib
import EtherDevice.Lib.ByteMemory

/-!
# Decoding of routing messages

`ipa_nl_decode_nlmsg` walks over the messages of a datagram and posts events. The buffer of the
datagram was not cleared, so the memory goes on after the datagram; what `malloc` returns for the
data of an event is not cleared either. The names of the interfaces can be found.

The loop keeps its own pointer to the message, but it gives the decoders the start of the
datagram, and the length from the message on.
-/

namespace EtherDevice.Ipacm.Netlink

open Lib

inductive NlType
  | newLink | delLink | newAddr | newRoute | delRoute | newNeigh | delNeigh | other
  deriving DecidableEq, Repr

def nlType : Nat → NlType
  | 16 => .newLink
  | 17 => .delLink
  | 20 => .newAddr
  | 24 => .newRoute
  | 25 => .delRoute
  | 28 => .newNeigh
  | 29 => .delNeigh
  | _ => .other

def nlmsgHdrLen : Nat := 16

def align (len : Nat) : Nat := (len + 3) / 4 * 4

theorem le_align (len : Nat) : len ≤ align len := by
  unfold align
  omega

def nlmsgData (buffer : Memory) : Memory := buffer.shift nlmsgHdrLen

def AF_INET : Nat := 2
def AF_BRIDGE : Nat := 7
def AF_INET6 : Nat := 10

def IFF_UP : Nat := 0x1
def IFF_RUNNING : Nat := 0x40
def IFF_LOWER_UP : Nat := 0x10000

structure IfInfoMsg where
  ifi_family : Nat
  ifi_index : Nat
  ifi_flags : Nat
  ifi_change : Nat
  deriving DecidableEq, Repr

def ifInfoMsg (data : Memory) : IfInfoMsg where
  ifi_family := data.loadLE 0 1
  ifi_index := data.loadLE 4 4
  ifi_flags := data.loadLE 8 4
  ifi_change := data.loadLE 12 4

structure IfAddrMsg where
  ifa_family : Nat
  ifa_index : Nat
  deriving DecidableEq, Repr

def ifAddrMsg (data : Memory) : IfAddrMsg where
  ifa_family := data.loadLE 0 1
  ifa_index := data.loadLE 4 4

structure NdMsg where
  ndm_family : Nat
  ndm_ifindex : Nat
  deriving DecidableEq, Repr

def ndMsg (data : Memory) : NdMsg where
  ndm_family := data.loadLE 0 1
  ndm_ifindex := data.loadLE 4 4

structure RtMsg where
  rtm_family : Nat
  rtm_dst_len : Nat
  rtm_table : Nat
  rtm_protocol : Nat
  rtm_scope : Nat
  rtm_type : Nat
  deriving DecidableEq, Repr

def rtMsg (data : Memory) : RtMsg where
  rtm_family := data.loadLE 0 1
  rtm_dst_len := data.loadLE 1 1
  rtm_table := data.loadLE 4 1
  rtm_protocol := data.loadLE 5 1
  rtm_scope := data.loadLE 6 1
  rtm_type := data.loadLE 7 1

namespace RtMsg

variable (m : RtMsg)

/-- The default and host routes: `RTN_UNICAST`, `RTPROT_BOOT`, `RT_SCOPE_UNIVERSE` and
`RT_TABLE_MAIN` -/
def IsBoot : Prop :=
  m.rtm_type = 1 ∧ m.rtm_protocol = 3 ∧ m.rtm_scope = 0 ∧ m.rtm_table = 254

/-- The IPv6 routes of the kernel: `RTN_UNICAST`, `RTPROT_KERNEL` and `RT_TABLE_MAIN` -/
def IsKernel : Prop :=
  m.rtm_family = AF_INET6 ∧ m.rtm_type = 1 ∧ m.rtm_protocol = 2 ∧ m.rtm_table = 254

instance : Decidable m.IsBoot := inferInstanceAs (Decidable (_ ∧ _))

instance : Decidable m.IsKernel := inferInstanceAs (Decidable (_ ∧ _))

end RtMsg

inductive IpType
  | v4 | v6
  deriving DecidableEq, Repr

structure AddrData where
  iptype : IpType
  if_index : Nat
  ipv4_addr : Nat
  ipv4_addr_mask : Nat
  ipv6_addr : List Nat
  ipv6_addr_mask : List Nat
  deriving DecidableEq, Repr

/-- `ipacm_event_data_all`, with zeros where nothing is set -/
structure AllData where
  iptype : IpType
  if_index : Nat
  ipv4_addr : Nat := 0
  ipv6_addr : List Nat := [0, 0, 0, 0]
  mac_addr : List UInt8
  deriving DecidableEq, Repr

inductive Event
  | linkUp (if_index : Nat)
  | linkDown (if_index : Nat)
  | usbLinkUp (if_index : Nat)
  | addrAdd (data : AddrData)
  | routeAdd (data : AddrData)
  | routeDel (data : AddrData)
  | newNeigh (data : AllData)
  | delNeigh (data : AllData)
  deriving DecidableEq, Repr

structure SockAddr where
  ss_family : Nat := 0
  data : Memory := fun _ => 0

def ntohl (n : Nat) : Nat :=
  n % 256 * 2 ^ 24 + n / 2 ^ 8 % 256 * 2 ^ 16 + n / 2 ^ 16 % 256 * 2 ^ 8 + n / 2 ^ 24 % 256

namespace SockAddr

variable (addr : SockAddr)

def copyV4 : Nat := addr.data.loadLE 0 4

def copyV6 : List Nat := (List.range 4).map fun word => ntohl (addr.data.loadLE (4 * word) 4)

end SockAddr

/-- `ipa_nl_msg_t`, and the local variable of the decoder that keeps a mask. All is reused for the
next message. -/
structure NlRecord where
  prefix_addr : SockAddr := {}
  local_addr : SockAddr := {}
  lladdr : Memory := fun _ => 0
  dst_addr : SockAddr := {}
  oif_index : Nat := 0
  paramDst : Bool := false
  paramGateway : Bool := false
  if_ipipv4_addr_mask : Nat := 0

/-- The loop over the attributes: `RTA_OK` and `RTA_NEXT`. `attr` gets the type of the attribute
and where its data are. The lengths of the messages are aligned, so the length that is left never
wraps. -/
def rtaWalk {α : Type} (data : Memory) (attr : α → Nat → Nat → α) (rtah len : Nat) (r : α) : α :=
  if 4 ≤ len ∧ 4 ≤ data.loadLE rtah 2 ∧ data.loadLE rtah 2 ≤ len then
    rtaWalk data attr (rtah + align (data.loadLE rtah 2)) (len - align (data.loadLE rtah 2))
      (attr r (data.loadLE (rtah + 2) 2) (rtah + 4))
  else r
termination_by len
decreasing_by
  simp only [align]
  omega

def copyAddr (data : Memory) (family rtaData : Nat) : SockAddr := ⟨family, data.shift rtaData⟩

/-- The attributes of an address: `IFA_ADDRESS` -/
def addrAttr (data : Memory) (r : NlRecord) (rta_type rtaData : Nat) : NlRecord :=
  match rta_type with
  | 1 => { r with prefix_addr := copyAddr data (ifAddrMsg data).ifa_family rtaData }
  | _ => r

def decodeRtmAddr (data : Memory) (buflen : Nat) (r : NlRecord) : NlRecord :=
  rtaWalk data (addrAttr data) 8 (buflen - nlmsgHdrLen) r

/-- The attributes of a neighbour: `NDA_DST` and `NDA_LLADDR` -/
def neighAttr (data : Memory) (r : NlRecord) (rta_type rtaData : Nat) : NlRecord :=
  match rta_type with
  | 1 => { r with local_addr := copyAddr data (ndMsg data).ndm_family rtaData }
  | 2 => { r with lladdr := data.shift rtaData }
  | _ => r

def decodeRtmNeigh (data : Memory) (buflen : Nat) (r : NlRecord) : NlRecord :=
  rtaWalk data (neighAttr data) 12 (buflen - nlmsgHdrLen) r

/-- The attributes of a route: `RTA_DST`, `RTA_OIF` and `RTA_GATEWAY`. The source, the incoming
interface and the priority are only logged. -/
def routeAttr (data : Memory) (r : NlRecord) (rta_type rtaData : Nat) : NlRecord :=
  match rta_type with
  | 1 => { r with
      dst_addr := copyAddr data (rtMsg data).rtm_family rtaData
      paramDst := true }
  | 4 => { r with oif_index := data.loadLE rtaData 4 }
  | 5 => { r with paramGateway := true }
  | _ => r

def decodeRtmRoute (data : Memory) (buflen : Nat) (r : NlRecord) : NlRecord :=
  rtaWalk data (routeAttr data) 12 (buflen - nlmsgHdrLen)
    { r with paramDst := false, paramGateway := false }

def maskV6 : Nat → Option Nat
  | 0 => some 0x00000000
  | 4 => some 0xf0000000
  | 8 => some 0xff000000
  | 12 => some 0xfff00000
  | 16 => some 0xffff0000
  | 20 => some 0xfffff000
  | 24 => some 0xffffff00
  | 28 => some 0xfffffff0
  | 32 => some 0xffffffff
  | _ => none

def setMask (words : List Nat) (index value : Nat) : List Nat :=
  match maskV6 value with
  | some mask => words.set index mask
  | none => words

/-- The loop over the words of a mask. Where less than 32 bits are left it writes to
`rest index`. -/
def maskWords (rest : Nat → Nat) (rtm_dst_len : Nat) (words : List Nat) : List Nat :=
  ((List.range 4).foldl (fun (value, words) index =>
    if 32 ≤ value then (value - 32, setMask words index 32)
    else (0, setMask words (rest index) value)) (rtm_dst_len, words)).2.map ntohl

/-- `RTM_NEWLINK`, where the family is not `AF_BRIDGE` -/
def newLinkEvents (link : IfInfoMsg) : List Event :=
  (if IFF_UP &&& link.ifi_change ≠ 0 then
    [if link.ifi_flags &&& IFF_UP ≠ 0 then .linkUp link.ifi_index else .linkDown link.ifi_index]
  else []) ++
  (if link.ifi_flags &&& IFF_RUNNING ≠ 0 ∧ link.ifi_flags &&& IFF_LOWER_UP ≠ 0 then
    [.usbLinkUp link.ifi_index]
  else if link.ifi_flags &&& IFF_LOWER_UP = 0 then [.linkDown link.ifi_index]
  else [])

/-- `RTM_NEWADDR`; `raw` is what `malloc` returned. -/
def newAddrEvent (raw : AddrData) (addr : IfAddrMsg) (r : NlRecord) : Event :=
  if r.prefix_addr.ss_family = AF_INET6 then
    .addrAdd { raw with
      iptype := .v6
      ipv6_addr := r.prefix_addr.copyV6
      if_index := addr.ifa_index }
  else
    .addrAdd { raw with
      iptype := .v4
      ipv4_addr := ntohl r.prefix_addr.copyV4
      if_index := addr.ifa_index }

def routeV6 (raw : AddrData) (r : NlRecord) (mask : List Nat) : AddrData :=
  { raw with
    if_index := r.oif_index
    iptype := .v6
    ipv6_addr := r.dst_addr.copyV6
    ipv6_addr_mask := mask }

def routeV4 (raw : AddrData) (r : NlRecord) (mask : Nat) : AddrData :=
  { raw with
    if_index := r.oif_index
    iptype := .v4
    ipv4_addr := ntohl r.dst_addr.copyV4
    ipv4_addr_mask := ntohl mask }

def newRouteEvents (raw : AddrData) (route : RtMsg) (r : NlRecord) : List Event × NlRecord :=
  if route.IsBoot then
    -- the mask of a host route is what an earlier route left in the variable
    if r.paramDst then ([.routeAdd (routeV4 raw r r.if_ipipv4_addr_mask)], r)
    else if route.rtm_family = AF_INET6 then ([.routeAdd (routeV6 raw r r.dst_addr.copyV6)], r)
    else
      ([.routeAdd (routeV4 raw r r.dst_addr.copyV4)],
        { r with if_ipipv4_addr_mask := r.dst_addr.copyV4 })
  else if route.IsKernel then
    ((if r.paramDst then
        [.routeAdd (routeV6 raw r (maskWords id route.rtm_dst_len raw.ipv6_addr_mask))]
      else []) ++
      (if r.paramGateway then [.routeAdd (routeV6 raw r r.dst_addr.copyV6)] else []), r)
  else ([], r)

def delRouteEvents (raw : AddrData) (route : RtMsg) (r : NlRecord) : List Event × NlRecord :=
  if route.IsBoot then
    if r.paramDst then
      ([.routeDel (routeV4 raw r 0xffffffff)], { r with if_ipipv4_addr_mask := 0xffffffff })
    else if route.rtm_family = AF_INET6 then ([.routeDel (routeV6 raw r r.dst_addr.copyV6)], r)
    else ([.routeDel (routeV4 raw r r.dst_addr.copyV4)], r)
  else if route.IsKernel then
    -- what is left of the prefix goes to the first word
    (if r.paramDst then
      [.routeDel (routeV6 raw r (maskWords (fun _ => 0) route.rtm_dst_len raw.ipv6_addr_mask))]
    else [], r)
  else ([], r)

def neighData (neigh : NdMsg) (r : NlRecord) : AllData :=
  let mac_addr := (List.range 6).map r.lladdr
  if r.local_addr.ss_family = AF_INET6 then
    { iptype := .v6, if_index := neigh.ndm_ifindex, ipv6_addr := r.local_addr.copyV6, mac_addr }
  else if r.local_addr.ss_family = AF_INET then
    { iptype := .v4
      if_index := neigh.ndm_ifindex
      ipv4_addr := ntohl r.local_addr.copyV4
      mac_addr }
  else { iptype := .v6, if_index := neigh.ndm_ifindex, mac_addr }

def decodeMsg (raw : AddrData) (buffer : Memory) (buflen : Nat) (type : NlType) (r : NlRecord) :
    List Event × Option NlRecord :=
  let data := nlmsgData buffer
  match type with
  | .newLink =>
    if (ifInfoMsg data).ifi_family = AF_BRIDGE then ([], none)
    else (newLinkEvents (ifInfoMsg data), some r)
  | .delLink =>
    if (ifInfoMsg data).ifi_family = AF_BRIDGE then ([], none)
    else ([.linkDown (ifInfoMsg data).ifi_index], some r)
  | .newAddr =>
    let r := decodeRtmAddr data buflen r
    ([newAddrEvent raw (ifAddrMsg data) r], some r)
  | .newRoute =>
    let (events, r) := newRouteEvents raw (rtMsg data) (decodeRtmRoute data buflen r)
    (events, some r)
  | .delRoute =>
    let (events, r) := delRouteEvents raw (rtMsg data) (decodeRtmRoute data buflen r)
    (events, some r)
  | .newNeigh =>
    let r := decodeRtmNeigh data buflen r
    ([.newNeigh (neighData (ndMsg data) r)], some r)
  | .delNeigh =>
    let r := decodeRtmNeigh data buflen r
    ([.delNeigh (neighData (ndMsg data) r)], some r)
  | .other => ([], some r)

def decodeLoop (raw : AddrData) (buffer : Memory) (nlh buflen : Nat) (r : NlRecord) :
    List (List Event) :=
  if nlmsgHdrLen ≤ buflen ∧ nlmsgHdrLen ≤ buffer.loadLE nlh 4 ∧ buffer.loadLE nlh 4 ≤ buflen then
    match decodeMsg raw buffer buflen (nlType (buffer.loadLE (nlh + 4) 2)) r with
    | (events, some r) =>
      events :: decodeLoop raw buffer (nlh + align (buffer.loadLE nlh 4))
        (buflen - align (buffer.loadLE nlh 4)) r
    | (events, none) => [events]
  else []
termination_by buflen
decreasing_by
  simp only [align, nlmsgHdrLen] at *
  omega

def ipaNlDecodeNlmsg (raw : AddrData) (buffer : Memory) (buflen : Nat) : List (List Event) :=
  decodeLoop raw buffer 0 buflen {}

end EtherDevice.Ipacm.Netlink
