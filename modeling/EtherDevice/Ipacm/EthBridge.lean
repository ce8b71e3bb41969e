import Mathlib.Data.Finset.Insert

/-!
# Ethernet bridging

`IPACM_Lan` lets the hardware pass packets between USB and WLAN clients. What the filter rules of
WLAN clients and the routing rules of USB clients have in common is here: the attributes by which
a rule picks its packets, and the kind of header that a client's packets have.
-/

namespace EtherDevice.Ipacm.EthBridge

inductive IpType
  | v4 | v6
  deriving DecidableEq, Repr

abbrev Mac := BitVec 48

/-- What a rule looks at, a bit of `attrib_mask`. -/
inductive Field
  | srcAddr
  | dstAddr
  | macDstAddrEtherII
  | macDstAddr8023
  | other (bit : Nat)
  deriving DecidableEq

/-- `ipa_rule_attrib`. An IPv4 address is one word, and an IPv6 address four. -/
structure RuleAttrib where
  attribMask : Finset Field := ∅
  srcAddr : List (BitVec 32) := []
  srcAddrMask : List (BitVec 32) := []
  dstAddr : List (BitVec 32) := []
  dstAddrMask : List (BitVec 32) := []
  dstMacAddr : Mac := 0
  dstMacAddrMask : Mac := 0
  deriving DecidableEq

inductive HdrL2Type
  | none | ethernetII | ieee8023
  deriving DecidableEq

def HdrL2Type.macDstAddr : HdrL2Type → Option Field
  | .none => Option.none
  | .ethernetII => some .macDstAddrEtherII
  | .ieee8023 => some .macDstAddr8023

def RuleAttrib.toMac (attrib : RuleAttrib) (field : Field) (mac : Mac) : RuleAttrib :=
  { attrib with
    attribMask := insert field attrib.attribMask
    dstMacAddr := mac
    dstMacAddrMask := BitVec.allOnes 48 }

def ipacmSuccess : Int := 0

def ipacmFailure : Int := -1

end EtherDevice.Ipacm.EthBridge
