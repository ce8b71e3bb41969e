import Mathlib

/-!
# The IPv4 NAT table of the IPA driver

This file has the data of `ipa_nat_drvi.h` and the utility functions of
`ipa_nat_drvi.c`: the two hashes, the checksum differences, the table dimensions, the
rule handles, and what a DMA command writes.

The expansion tables lie directly behind the base tables, both for the rules and for the
index table, and entry numbers run over both: entry `N + i` is entry `i` of an expansion
table when the base table has `N` entries. A table is therefore one function of the
entry number. Entry numbers are natural numbers; a place where their 16 bits can overflow
says so with an explicit `% 2 ^ 16`. There is one table (`IPA_NAT_MAX_IP4_TBLS` is `1`),
so table handles are left out, and `tbl_addr_offset` is the `0` of a fresh allocation.

A function whose C counterpart would read outside its array, or never return, has the
value `none`.
-/

namespace EtherDevice.IpaNati

/-- `ipa_nat_ipv4_rule`, the rule a client asks for. -/
structure IpaNatIpv4Rule where
  targetIp : UInt32
  privateIp : UInt32
  targetPort : UInt16
  privatePort : UInt16
  publicPort : UInt16
  protocol : UInt8
  deriving DecidableEq, Repr

structure IpaNatRule where
  privateIp : UInt32 := 0
  targetIp : UInt32 := 0
  nextIndex : Nat := 0
  publicPort : UInt16 := 0
  privatePort : UInt16 := 0
  targetPort : UInt16 := 0
  ipChksum : UInt16 := 0
  enable : Bool := false
  timeStamp : Nat := 0
  protocol : UInt8 := 0
  prevIndex : Nat := 0
  indxTblEntry : Nat := 0
  tcpUdpChksum : UInt16 := 0
  deriving DecidableEq, Repr

structure IpaNatIndxTblRule where
  tblEntry : Nat := 0
  nextIndex : Nat := 0
  deriving DecidableEq, Repr

structure IpaNatIndxTblSwRule where
  tblEntry : Nat := 0
  nextIndex : Nat := 0
  prevIndex : Nat := 0
  deriving DecidableEq, Repr

/-- `ipa_nat_ip4_table_cache` with the memory it points to. -/
structure IpaNatIp4TableCache where
  valid : Bool
  publicAddr : UInt32
  tableEntries : Nat
  expnTableEntries : Nat
  rules : Nat → IpaNatRule
  index : Nat → IpaNatIndxTblRule
  /-- `index_expn_table_meta[i].prev_index`, by position in the expansion table. -/
  indexExpnTableMeta : Nat → Nat
  ruleIdArray : Nat → Nat

/-- The error values of the driver. -/
inductive Errno
  | einval
  | eio
  | enomem
  deriving DecidableEq, Repr

def ipprotoTcp : UInt8 := 6
def ipprotoUdp : UInt8 := 17

def invalidProtoFieldCmp : UInt8 := 0xFF

def invalidProtoFieldValue : Nat := 0xFF00

def flagEnableBitMask : Nat := 0x8000

def flagDisableBitMask : Nat := 0x0000

def IpaNatIpv4Rule.IsTcpUdp (r : IpaNatIpv4Rule) : Prop :=
  r.protocol = ipprotoTcp ∨ r.protocol = ipprotoUdp

instance (r : IpaNatIpv4Rule) : Decidable r.IsTcpUdp :=
  inferInstanceAs (Decidable (_ ∨ _))

def IpaNatRule.clntRule (r : IpaNatRule) : IpaNatIpv4Rule where
  targetIp := r.targetIp
  privateIp := r.privateIp
  targetPort := r.targetPort
  privatePort := r.privatePort
  publicPort := r.publicPort
  protocol := r.protocol

def foldIp (ip : UInt32) : UInt16 := ip.toUInt16 ^^^ (ip >>> 16).toUInt16

def dstHash (trgtIp : UInt32) (trgtPort publicPort : UInt16) (proto : UInt8)
    (size : Nat) : Nat :=
  let hash := foldIp trgtIp ^^^ trgtPort ^^^ publicPort ^^^ proto.toUInt16
  let hash := hash.toNat &&& size
  if hash = 0 then size else hash

def srcHash (privIp : UInt32) (privPort : UInt16) (trgtIp : UInt32) (trgtPort : UInt16)
    (proto : UInt8) (size : Nat) : Nat :=
  let hash :=
    foldIp privIp ^^^ privPort ^^^ foldIp trgtIp ^^^ trgtPort ^^^ proto.toUInt16
  let hash := hash.toNat &&& size
  if hash = 0 then size else hash

def addCarry (cksum x : UInt32) : UInt32 :=
  let cksum := cksum + x
  if cksum >>> 16 ≠ 0 then (cksum &&& 0xFFFF) + 1 else cksum

def calcIpCksum (pubIpAddr privIpAddr : UInt32) : UInt16 :=
  let cksum := addCarry (pubIpAddr &&& 0xFFFF) (pubIpAddr >>> 16)
  let privIpAddr := ~~~privIpAddr
  let cksum := addCarry cksum (privIpAddr &&& 0xFFFF)
  let cksum := addCarry cksum (privIpAddr >>> 16)
  cksum.toUInt16

def calcTcpUdpCksum (pubIpAddr : UInt32) (pubPort : UInt16) (privIpAddr : UInt32)
    (privPort : UInt16) : UInt16 :=
  let cksum := addCarry (pubIpAddr &&& 0xFFFF) (pubIpAddr >>> 16)
  let cksum := addCarry cksum pubPort.toUInt32
  let privIpAddr := ~~~privIpAddr
  let cksum := addCarry cksum (privIpAddr &&& 0xFFFF)
  let cksum := addCarry cksum (privIpAddr >>> 16)
  let privPort := ~~~privPort
  let cksum := addCarry cksum privPort.toUInt32
  cksum.toUInt16

theorem hash_range {x size : Nat} (hsize : 0 < size) :
    0 < (if x &&& size = 0 then size else x &&& size) ∧
      (if x &&& size = 0 then size else x &&& size) ≤ size := by
  have hle : x &&& size ≤ size := Nat.and_le_right
  split <;> omega

theorem dstHash_range {ip : UInt32} {port pub : UInt16} {proto : UInt8} {size : Nat}
    (hsize : 0 < size) :
    0 < dstHash ip port pub proto size ∧ dstHash ip port pub proto size ≤ size :=
  hash_range hsize

theorem srcHash_range {priv : UInt32} {pport : UInt16} {ip : UInt32} {port : UInt16}
    {proto : UInt8} {size : Nat} (hsize : 0 < size) :
    0 < srcHash priv pport ip port proto size ∧
      srcHash priv pport ip port proto size ≤ size :=
  hash_range hsize

def getNearest2PowerLoop (number : Nat) : Nat → Nat → Nat → Nat
  | 0, _, tmp => tmp
  | fuel + 1, num, tmp =>
    if num = 1 then (if number ≠ tmp then tmp * 2 % 2 ^ 16 else tmp)
    else getNearest2PowerLoop number fuel (num / 2) (tmp * 2 % 2 ^ 16)

def getNearest2Power (num : Nat) : Except Errno Nat :=
  if num = 0 then .error .einval
  else if num = 1 then .ok 2
  else .ok (getNearest2PowerLoop num 16 num 1)

/-- `GetNearestEven`. The loop of the source stops after at most one round. -/
def getNearestEven (num : Nat) : Nat :=
  if num < 2 then 2 else if num % 2 ≠ 0 then (num + 1) % 2 ^ 16 else num

/-- The dimensions that `ipa_nati_alloc_table` computes. The percentages are `.8` and
`.2`; their products with a 16-bit count truncate to these quotients. -/
def allocTable (numberOfEntries : Nat) : Except Errno (Nat × Nat) := do
  let tableEntries := numberOfEntries * 8 / 10
  let tableEntries := if tableEntries = 0 then 1 else tableEntries
  let tableEntries ← getNearest2Power tableEntries
  let expnTableEntries := getNearestEven (numberOfEntries * 2 / 10)
  return (tableEntries, expnTableEntries)

def addIpv4Tbl (publicIpAddr : UInt32) (numberOfEntries : Nat) :
    Except Errno IpaNatIp4TableCache := do
  let (tableEntries, expnTableEntries) ← allocTable numberOfEntries
  return {
    valid := true
    publicAddr := publicIpAddr
    tableEntries
    expnTableEntries
    rules := fun _ => {}
    index := fun _ => {}
    indexExpnTableMeta := fun _ => 0
    ruleIdArray := fun _ => 0 }

theorem getNearest2PowerLoop_even {number fuel num tmp : Nat} (h : tmp % 2 = 0) :
    getNearest2PowerLoop number fuel num tmp % 2 = 0 := by
  induction fuel generalizing num tmp with
  | zero => exact h
  | succ fuel ih =>
    unfold getNearest2PowerLoop
    split
    · split <;> omega
    · exact ih (by omega)

theorem getNearest2Power_even {num N : Nat} (h : getNearest2Power num = .ok N) :
    N % 2 = 0 := by
  unfold getNearest2Power at h
  split at h
  · cases h
  · split at h
    · cases h
      rfl
    · rename_i hne
      cases h
      unfold getNearest2PowerLoop
      rw [if_neg hne]
      exact getNearest2PowerLoop_even (by omega)

theorem getNearest2PowerLoop_lt {number fuel num tmp : Nat} (h : tmp < 2 ^ 16) :
    getNearest2PowerLoop number fuel num tmp < 2 ^ 16 := by
  induction fuel generalizing num tmp with
  | zero => exact h
  | succ fuel ih =>
    unfold getNearest2PowerLoop
    split
    · split <;> omega
    · exact ih (by omega)

theorem getNearest2Power_lt {num N : Nat} (h : getNearest2Power num = .ok N) :
    N < 2 ^ 16 := by
  grind [getNearest2Power, getNearest2PowerLoop_lt]

theorem getNearestEven_range {num : Nat} (h : num ≤ 13107) :
    2 ≤ getNearestEven num ∧ getNearestEven num ≤ 13108 := by
  unfold getNearestEven
  split
  · omega
  · split <;> omega

/-- The bounds that the tables of the driver respect. -/
structure Dims (N E : Nat) : Prop where
  base : 2 ≤ N
  baseLe : N ≤ 32768
  expn : 2 ≤ E
  expnLe : E ≤ 13108

theorem Dims.sum_lt {N E : Nat} (h : Dims N E) : N + E < 2 ^ 16 := by
  have := h.baseLe
  have := h.expnLe
  omega

theorem dims_of_allocTable {n N E : Nat} (hn : n < 2 ^ 16)
    (h : allocTable n = .ok (N, E)) (hpow : ∃ k, N = 2 ^ k) : Dims N E := by
  unfold allocTable at h
  cases hN : getNearest2Power (if n * 8 / 10 = 0 then 1 else n * 8 / 10) with
  | error e =>
    simp only [hN] at h
    cases h
  | ok N' =>
    simp only [hN] at h
    cases h
    have heven := getNearest2Power_even hN
    have hlt := getNearest2Power_lt hN
    obtain ⟨k, rfl⟩ := hpow
    have hE : 2 ≤ getNearestEven (n * 2 / 10) ∧ getNearestEven (n * 2 / 10) ≤ 13108 :=
      getNearestEven_range (by omega)
    have hk : k < 16 := (Nat.pow_lt_pow_iff_right (by decide : 1 < 2)).mp hlt
    have hpos : 0 < 2 ^ k := Nat.two_pow_pos k
    have hle : 2 ^ k ≤ 2 ^ 15 := Nat.pow_le_pow_right (by decide) (by omega)
    exact ⟨by omega, by omega, hE.1, hE.2⟩

namespace IpaNatIp4TableCache

variable (c : IpaNatIp4TableCache)

def size : Nat := c.tableEntries + c.expnTableEntries

def entryAt (expn : Bool) (i : Nat) : Option Nat :=
  if expn then (if i < c.expnTableEntries then some (c.tableEntries + i) else none)
  else (if i < c.tableEntries then some i else none)

/-- The entry read as `expn_tbl[nxt_indx - table_entries]`. Below `table_entries` the
16-bit difference wraps to a position behind the expansion table. -/
def expnEntry (nxtIndx : Nat) : Option Nat :=
  if c.tableEntries ≤ nxtIndx ∧ nxtIndx < c.size then some nxtIndx else none

def modifyRule (e : Nat) (f : IpaNatRule → IpaNatRule) : IpaNatIp4TableCache :=
  { c with rules := Function.update c.rules e (f (c.rules e)) }

def modifyIndex (i : Nat) (f : IpaNatIndxTblRule → IpaNatIndxTblRule) :
    IpaNatIp4TableCache :=
  { c with index := Function.update c.index i (f (c.index i)) }

def setMeta (i prev : Nat) : IpaNatIp4TableCache :=
  { c with indexExpnTableMeta := Function.update c.indexExpnTableMeta i prev }

def setRuleId (i ruleId : Nat) : IpaNatIp4TableCache :=
  { c with ruleIdArray := Function.update c.ruleIdArray i ruleId }

section

variable (e : Nat) (f : IpaNatRule → IpaNatRule)

@[simp] theorem modifyRule_rules :
    (c.modifyRule e f).rules = Function.update c.rules e (f (c.rules e)) := rfl
@[simp] theorem modifyRule_index : (c.modifyRule e f).index = c.index := rfl
@[simp] theorem modifyRule_indexExpnTableMeta :
    (c.modifyRule e f).indexExpnTableMeta = c.indexExpnTableMeta := rfl
@[simp] theorem modifyRule_ruleIdArray : (c.modifyRule e f).ruleIdArray = c.ruleIdArray := rfl
@[simp] theorem modifyRule_tableEntries : (c.modifyRule e f).tableEntries = c.tableEntries := rfl
@[simp] theorem modifyRule_expnTableEntries :
    (c.modifyRule e f).expnTableEntries = c.expnTableEntries := rfl
@[simp] theorem modifyRule_valid : (c.modifyRule e f).valid = c.valid := rfl
@[simp] theorem modifyRule_size : (c.modifyRule e f).size = c.size := rfl

end

section

variable (i : Nat) (f : IpaNatIndxTblRule → IpaNatIndxTblRule)

@[simp] theorem modifyIndex_rules : (c.modifyIndex i f).rules = c.rules := rfl
@[simp] theorem modifyIndex_index :
    (c.modifyIndex i f).index = Function.update c.index i (f (c.index i)) := rfl
@[simp] theorem modifyIndex_indexExpnTableMeta :
    (c.modifyIndex i f).indexExpnTableMeta = c.indexExpnTableMeta := rfl
@[simp] theorem modifyIndex_ruleIdArray : (c.modifyIndex i f).ruleIdArray = c.ruleIdArray := rfl
@[simp] theorem modifyIndex_tableEntries : (c.modifyIndex i f).tableEntries = c.tableEntries := rfl
@[simp] theorem modifyIndex_expnTableEntries :
    (c.modifyIndex i f).expnTableEntries = c.expnTableEntries := rfl
@[simp] theorem modifyIndex_valid : (c.modifyIndex i f).valid = c.valid := rfl
@[simp] theorem modifyIndex_size : (c.modifyIndex i f).size = c.size := rfl

end

section

variable (i prev : Nat)

@[simp] theorem setMeta_rules : (c.setMeta i prev).rules = c.rules := rfl
@[simp] theorem setMeta_index : (c.setMeta i prev).index = c.index := rfl
@[simp] theorem setMeta_indexExpnTableMeta :
    (c.setMeta i prev).indexExpnTableMeta = Function.update c.indexExpnTableMeta i prev := rfl
@[simp] theorem setMeta_ruleIdArray : (c.setMeta i prev).ruleIdArray = c.ruleIdArray := rfl
@[simp] theorem setMeta_tableEntries : (c.setMeta i prev).tableEntries = c.tableEntries := rfl
@[simp] theorem setMeta_expnTableEntries :
    (c.setMeta i prev).expnTableEntries = c.expnTableEntries := rfl
@[simp] theorem setMeta_valid : (c.setMeta i prev).valid = c.valid := rfl
@[simp] theorem setMeta_size : (c.setMeta i prev).size = c.size := rfl

end

section

variable (i ruleId : Nat)

@[simp] theorem setRuleId_rules : (c.setRuleId i ruleId).rules = c.rules := rfl
@[simp] theorem setRuleId_index : (c.setRuleId i ruleId).index = c.index := rfl
@[simp] theorem setRuleId_indexExpnTableMeta :
    (c.setRuleId i ruleId).indexExpnTableMeta = c.indexExpnTableMeta := rfl
@[simp] theorem setRuleId_ruleIdArray :
    (c.setRuleId i ruleId).ruleIdArray = Function.update c.ruleIdArray i ruleId := rfl
@[simp] theorem setRuleId_tableEntries : (c.setRuleId i ruleId).tableEntries = c.tableEntries := rfl
@[simp] theorem setRuleId_expnTableEntries :
    (c.setRuleId i ruleId).expnTableEntries = c.expnTableEntries := rfl
@[simp] theorem setRuleId_valid : (c.setRuleId i ruleId).valid = c.valid := rfl
@[simp] theorem setRuleId_size : (c.setRuleId i ruleId).size = c.size := rfl

end

end IpaNatIp4TableCache

inductive NatTableType
  | baseTbl
  | expnTbl
  | indxTbl
  | indexExpnTbl
  deriving DecidableEq, Repr

def NatTableType.isIndex : NatTableType → Bool
  | .baseTbl | .expnTbl => false
  | .indxTbl | .indexExpnTbl => true

def NatTableType.isExpn : NatTableType → Bool
  | .baseTbl | .indxTbl => false
  | .expnTbl | .indexExpnTbl => true

/-- `ipa_ioc_nat_dma_one`: write the 16 bits `data` at byte `offset` of a table. -/
structure DmaOne where
  baseAddr : NatTableType
  offset : Nat
  data : Nat
  deriving DecidableEq, Repr

def getEntryOffset (tblEntry : Nat) : Nat := tblEntry * 32

def getIndexEntryOffset (indxTblEntry : Nat) : Nat := indxTblEntry * 4

def ruleNextFieldOffset : Nat := 8
def ruleFlagFieldOffset : Nat := 18
def ruleProtoFieldOffset : Nat := 22
def indexRuleNatIndexFieldOffset : Nat := 0
def indexRuleNextFieldOffset : Nat := 2

/-- What the 16-bit write `data` does to a rule at byte `off`. The protocol field starts
in the middle of `ts_proto`: its low byte is the top byte of the time stamp. -/
def IpaNatRule.dma (r : IpaNatRule) (off data : Nat) : Option IpaNatRule :=
  if off = ruleNextFieldOffset then some { r with nextIndex := data }
  else if off = ruleFlagFieldOffset then some { r with enable := data / 2 ^ 15 % 2 == 1 }
  else if off = ruleProtoFieldOffset then
    some { r with
      protocol := UInt8.ofNat (data / 2 ^ 8)
      timeStamp := r.timeStamp % 2 ^ 16 + data % 2 ^ 8 * 2 ^ 16 }
  else none

def IpaNatIndxTblRule.dma (r : IpaNatIndxTblRule) (off data : Nat) :
    Option IpaNatIndxTblRule :=
  if off = indexRuleNatIndexFieldOffset then some { r with tblEntry := data }
  else if off = indexRuleNextFieldOffset then some { r with nextIndex := data }
  else none

def dmaOne (c : IpaNatIp4TableCache) (d : DmaOne) : Option IpaNatIp4TableCache :=
  if d.baseAddr.isIndex then do
    let i ← c.entryAt d.baseAddr.isExpn (d.offset / 4)
    let r ← (c.index i).dma (d.offset % 4) d.data
    return c.modifyIndex i fun _ => r
  else do
    let e ← c.entryAt d.baseAddr.isExpn (d.offset / 32)
    let r ← (c.rules e).dma (d.offset % 32) d.data
    return c.modifyRule e fun _ => r

def dmaAll (c : IpaNatIp4TableCache) (cmds : List DmaOne) : Option IpaNatIp4TableCache :=
  cmds.foldlM dmaOne c

def freeRuleId (ruleIdArray : Nat → Nat) : Nat → Nat → Option Nat
  | 0, _ => none
  | fuel + 1, cnt =>
    if ruleIdArray cnt = 0 then some cnt else freeRuleId ruleIdArray fuel (cnt + 1)

def ruleIdOf (tableEntries tblEntry : Nat) : Nat :=
  if tblEntry ≥ tableEntries then
    ((tblEntry - tableEntries) <<< 1) % 2 ^ 16 ||| 1
  else (tblEntry <<< 1) % 2 ^ 16

/-- `ipa_nati_make_rule_hdl`: the handle is a slot number plus one, `0` if all slots are
taken. -/
def makeRuleHdl (c : IpaNatIp4TableCache) (tblEntry : Nat) : Nat × IpaNatIp4TableCache :=
  let ruleHdl := ruleIdOf c.tableEntries tblEntry
  match freeRuleId c.ruleIdArray c.size 0 with
  | some cnt => (cnt + 1, c.setRuleId cnt ruleHdl)
  | none => (0, c)

/-- `ipa_nati_parse_ipv4_rule_hdl`: the table type and the entry, `0` for a handle that
is out of range. Handle `0` reads `rule_id_array[-1]`. -/
def parseIpv4RuleHdl (c : IpaNatIp4TableCache) (ruleHdl : Nat) : Option (Bool × Nat) :=
  if ruleHdl ≥ c.size then some (false, 0)
  else if ruleHdl = 0 then none
  else
    let ruleId := c.ruleIdArray (ruleHdl - 1)
    some (ruleId &&& 1 ≠ 0, ruleId >>> 1)

end EtherDevice.IpaNati
