import EtherDevice.Ipacm.NatApp

/-!
# The conntrack listener

`IPACM_ConntrackListener.cpp`: what a conntrack message does to the NAT cache, and the events
of the WAN interface and of the clients. The attributes of a message are in host order. A
message is turned into an entry with `parse`; `none` is the label `IGNORE`.

`CacheEntry` starts its search at an uninitialised index, which comes with the message. The
message has no outcome if that index is outside the cache.
-/

namespace EtherDevice.Ipacm

structure NfConntrack where
  status : UInt32
  origL4proto : UInt8
  replL4proto : UInt8
  tcpState : UInt8
  origIpv4Src : UInt32
  origIpv4Dst : UInt32
  origPortSrc : UInt16
  origPortDst : UInt16
  replIpv4Src : UInt32
  replPortSrc : UInt16
  replPortDst : UInt16
deriving DecidableEq

inductive MsgType where
  | new
  | update
  | destroy
  | other
deriving DecidableEq

def ipsSrcNat : UInt32 := 0x10

def ipsDstNat : UInt32 := 0x20

def ipprotoTcp : UInt8 := 6

def ipprotoUdp : UInt8 := 17

def tcpConntrackEstablished : UInt8 := 3

def tcpConntrackFinWait : UInt8 := 4

def maxNatIfaces : Nat := 50

def maxStaClntIfaces : Nat := 10

structure PrivateSubnet where
  subnetAddr : UInt32
  subnetMask : UInt32
deriving DecidableEq

structure ConntrackListener where
  natInst : NatApp
  wanUp : Bool
  wanIpaddr : UInt32
  isStaMode : Bool
  staClntCnt : Int
  natIfaceIpv4Addr : List UInt32
  nonnatIfaceIpv4Addr : List UInt32
  staClntIpv4Addr : List UInt32
  privateSubnetTable : List PrivateSubnet

inductive NatSide where
  | dstNat
  | srcNat
deriving DecidableEq

def NfConntrack.tuple (ct : NfConntrack) (publicIp : UInt16) : NatSide → NatTableEntry
  | .dstNat =>
    { protocol := ct.replL4proto
      publicIp
      dstNat := true
      targetIp := ct.origIpv4Src
      targetPort := ct.origPortSrc
      publicPort := ct.origPortDst
      privateIp := ct.replIpv4Src
      privatePort := ct.replPortSrc }
  | .srcNat =>
    { protocol := ct.replL4proto
      publicIp
      dstNat := false
      targetIp := ct.origIpv4Dst
      targetPort := ct.origPortDst
      publicPort := ct.replPortDst
      privateIp := ct.origIpv4Src
      privatePort := ct.origPortSrc }

namespace ConntrackListener

variable (l : ConntrackListener)

/-- The side, and what is written to `public_ip`, which has 16 bits. -/
def natSide (ct : NfConntrack) : Option (NatSide × UInt16) :=
  if ct.status &&& ipsDstNat ≠ 0 then some (.dstNat, 0)
  else if ct.status &&& ipsSrcNat ≠ 0 then some (.srcNat, 0)
  else if ct.origIpv4Src = 0 then none
  else if ct.origIpv4Dst = 0 then none
  else if ct.origIpv4Src = l.wanIpaddr then some (.srcNat, l.wanIpaddr.toUInt16)
  else if ct.origIpv4Dst = l.wanIpaddr then some (.dstNat, l.wanIpaddr.toUInt16)
  else none

def isNatIface (rule : NatTableEntry) : Bool :=
  l.natIfaceIpv4Addr.any fun addr =>
    addr ≠ 0 ∧ (rule.privateIp = addr ∨ rule.targetIp = addr)

def isPrivateSubnet (ipAddr : UInt32) : Bool :=
  l.privateSubnetTable.any fun subnet => subnet.subnetAddr = subnet.subnetMask &&& ipAddr

def select (rule : NatTableEntry) : Option (NatTableEntry × Bool) :=
  if rule.privateIp ≠ l.wanIpaddr then
    if l.isNatIface rule then some (rule, false)
    else if l.isPrivateSubnet rule.privateIp ∨ l.isPrivateSubnet rule.targetIp then
      some (rule, true)
    else none
  else if l.isStaMode then none
  -- a connection of the device itself
  else some ({ rule with privatePort := rule.publicPort }, false)

def staIgnores (rule : NatTableEntry) : Bool :=
  l.isStaMode ∧ l.staClntCnt ≠ 0 ∧
    l.staClntIpv4Addr.headD 0 &&& 0xFFFFFF00 = rule.targetIp &&& 0xFFFFFF00 ∧
    rule.targetIp ∉ l.staClntIpv4Addr.take l.staClntCnt.toNat

/-- `ProcessTCPorUDPMsg` down to the label `ADD`. -/
def parse (ct : NfConntrack) : Option (NatTableEntry × Bool) := do
  let (side, publicIp) ← l.natSide ct
  let (rule, isTempEntry) ← l.select (ct.tuple publicIp side)
  if l.staIgnores rule then none else some (rule, isTempEntry)

end ConntrackListener

def NfConntrack.opens (ct : NfConntrack) (type : MsgType) : Prop :=
  ct.replL4proto = ipprotoTcp ∧ ct.tcpState = tcpConntrackEstablished ∨
    ct.replL4proto = ipprotoUdp ∧ type = .new

instance (ct : NfConntrack) (type : MsgType) : Decidable (ct.opens type) :=
  inferInstanceAs (Decidable (_ ∨ _))

/-- The message is about a connection that ends, if it is not about a new one. -/
def NfConntrack.closes (ct : NfConntrack) (type : MsgType) : Prop :=
  ct.replL4proto = ipprotoTcp ∧ (ct.tcpState = tcpConntrackFinWait ∨ type = .destroy) ∨
    ct.replL4proto = ipprotoUdp ∧ type = .destroy

instance (ct : NfConntrack) (type : MsgType) : Decidable (ct.closes type) :=
  inferInstanceAs (Decidable (_ ∨ _))

namespace ConntrackListener

variable (l : ConntrackListener)

def processTCPorUDPMsg (ct : NfConntrack) (type : MsgType) (cnt : Int) :
    Option ConntrackListener :=
  match l.parse ct with
  | none => some l
  | some (rule, isTempEntry) =>
    if ct.opens type then
      if l.wanUp = false then (l.natInst.cacheEntry rule cnt).map ({ l with natInst := · })
      else if isTempEntry then some { l with natInst := l.natInst.addTempEntry rule }
      else some { l with natInst := (l.natInst.addEntry rule).2 }
    else if ct.closes type then
      if isTempEntry then some { l with natInst := l.natInst.deleteTempEntry rule }
      else some { l with natInst := l.natInst.deleteEntry rule }
    else some l

def processCTMessage (ct : NfConntrack) (type : MsgType) (cnt : Int) :
    Option ConntrackListener :=
  if ipprotoUdp ≠ ct.origL4proto ∧ ipprotoTcp ≠ ct.origL4proto then some l
  else l.processTCPorUDPMsg ct type cnt

def handleWanUp (ipv4Addr : UInt32) (isSta : Bool) : ConntrackListener :=
  if l.wanUp then l
  else if ipv4Addr = 0 then l
  else
    { l with
      wanUp := true
      isStaMode := isSta
      wanIpaddr := ipv4Addr
      natInst := (l.natInst.addTable ipv4Addr).2 }

def handleWanDown (ipv4Addr : UInt32) : ConntrackListener :=
  if l.wanUp then { l with wanUp := false, natInst := (l.natInst.deleteTable ipv4Addr).2 } else l

/-- `HandleNeighIpAddrAddEvt`, for an interface that is among the NAT interfaces or not. -/
def handleNeighIpAddrAddEvt (ipv4Addr : UInt32) (isNatIface : Bool) : ConntrackListener :=
  if ipv4Addr = 0 then l
  else
    let j := l.natIfaceIpv4Addr.findIdx fun addr => addr = ipv4Addr ∨ addr = 0
    if isNatIface ∧ j < l.natIfaceIpv4Addr.length then
      if l.natIfaceIpv4Addr[j]? = some ipv4Addr then l
      else
        { l with
          natIfaceIpv4Addr := l.natIfaceIpv4Addr.set j ipv4Addr
          natInst := (l.natInst.resetPwrSaveIf ipv4Addr).2.flushTempEntries ipv4Addr true }
    else
      -- also a NAT interface for which there was no room
      let i := l.nonnatIfaceIpv4Addr.findIdx fun addr => addr = 0
      if i < l.nonnatIfaceIpv4Addr.length then
        { l with
          nonnatIfaceIpv4Addr := l.nonnatIfaceIpv4Addr.set i ipv4Addr
          natInst := l.natInst.flushTempEntries ipv4Addr false }
      else l

def handleNeighIpAddrDelEvt (ipv4Addr : UInt32) : ConntrackListener :=
  if ipv4Addr = 0 then l
  else
    { l with
      natIfaceIpv4Addr := l.natIfaceIpv4Addr.map fun addr => if addr = ipv4Addr then 0 else addr
      nonnatIfaceIpv4Addr :=
        l.nonnatIfaceIpv4Addr.map fun addr => if addr = ipv4Addr then 0 else addr
      natInst :=
        ((l.natInst.flushTempEntries ipv4Addr false).delEntriesOnClntDiscon ipv4Addr).2 }

def handleSTAClientAddEvt (clntIpAddr : UInt32) : ConntrackListener :=
  if l.staClntCnt ≥ maxStaClntIfaces then l
  else
    let cnt := l.staClntIpv4Addr.findIdx fun addr => addr ≠ 0 ∧ addr = clntIpAddr ∨ addr = 0
    if l.staClntIpv4Addr[cnt]? = some 0 then
      { l with
        staClntIpv4Addr := l.staClntIpv4Addr.set cnt clntIpAddr
        staClntCnt := l.staClntCnt + 1 }
    else l

def handleSTAClientDelEvt (clntIpAddr : UInt32) : ConntrackListener :=
  let cnt := l.staClntIpv4Addr.findIdx fun addr => addr ≠ 0 ∧ addr = clntIpAddr
  if cnt < l.staClntIpv4Addr.length then
    { l with
      staClntIpv4Addr := l.staClntIpv4Addr.set cnt 0
      natInst := (l.natInst.delEntriesOnSTAClntDiscon clntIpAddr).2
      staClntCnt := l.staClntCnt - 1 }
  else l

/-- A new listener. The constructor leaves `wan_ipaddr` and `isStaMode` uninitialised. -/
structure Initial : Prop where
  natInst : l.natInst.Initial
  wanUp : l.wanUp = false
  staClntCnt : l.staClntCnt = 0
  natIfaceIpv4Addr : l.natIfaceIpv4Addr = List.replicate maxNatIfaces 0
  nonnatIfaceIpv4Addr : l.nonnatIfaceIpv4Addr = List.replicate maxNatIfaces 0
  staClntIpv4Addr : l.staClntIpv4Addr = List.replicate maxStaClntIfaces 0

end ConntrackListener

end EtherDevice.Ipacm
