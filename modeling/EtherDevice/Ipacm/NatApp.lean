import Mathlib
import EtherDevice.IpaNati.Table
import EtherDevice.Lib.Transition

/-!
# The NAT cache of the connection manager

`NatApp` is the class of `IPACM_Conntrack_NATApp.cpp`: a cache of connections, of which
some have a rule in the hardware table, and a list of connections whose client is not
known yet. The driver below it is `NatDriver`. Its answers are those of the device,
which can refuse every call; for a rule it accepts, the answer is a handle that no live
rule has.

The loops of the class visit each slot of the cache once, in order, and are instances of
`forSlots`.
-/

namespace EtherDevice.Ipacm

open Lib
open IpaNati (IpaNatIpv4Rule)

/-- A call of `ipa_nat_del_ipv4_rule`: the handle, the connection for which it was called,
and the rule that the hardware table has under the handle. -/
structure DelRequest where
  ruleHdl : Nat
  owner : IpaNatIpv4Rule
  target : Option IpaNatIpv4Rule
  deriving DecidableEq, Repr

structure NatDriver where
  answers : Nat → Nat
  /-- The number of answers that were used. -/
  calls : Nat
  table : Bool
  live : List (Nat × IpaNatIpv4Rule)
  delRequests : List DelRequest

namespace NatDriver

variable (d : NatDriver)

def answer : Nat := d.answers d.calls

def next : NatDriver := { d with calls := d.calls + 1 }

/-- `ipa_nat_add_ipv4_tbl`, with the table handle that it leaves. There is at most one
table, and its handle is `1`. -/
def addIpv4Tbl (numberOfEntries tblHdl : Nat) : Bool × Nat × NatDriver :=
  if numberOfEntries = 0 then (false, tblHdl, d)
  else if d.table ∨ d.answer = 0 then (false, 0, d.next)
  else (true, 1, { d.next with table := true })

def DeletesTbl (tblHdl : Nat) : Prop := tblHdl = 1 ∧ d.table = true ∧ d.answer ≠ 0

instance (tblHdl : Nat) : Decidable (d.DeletesTbl tblHdl) :=
  inferInstanceAs (Decidable (_ ∧ _))

def delIpv4Tbl (tblHdl : Nat) : Bool × NatDriver :=
  if d.DeletesTbl tblHdl then (true, { d.next with table := false, live := [] })
  else (false, d.next)

/-- `ipa_nat_add_ipv4_rule`, with the handle of the new rule. -/
def addIpv4Rule (tblHdl : Nat) (rule : IpaNatIpv4Rule) : Option Nat × NatDriver :=
  if tblHdl = 0 ∨ tblHdl > 1 then (none, d.next)
  else if d.table = false ∨ d.answer = 0 ∨ d.answer ∈ d.live.map Prod.fst then (none, d.next)
  else (some d.answer, { d.next with live := (d.answer, rule) :: d.live })

def Deletes (tblHdl ruleHdl : Nat) : Prop :=
  tblHdl ≠ 0 ∧ ruleHdl ≠ 0 ∧ d.table = true ∧ d.answer ≠ 0 ∧ ruleHdl ∈ d.live.map Prod.fst

instance (tblHdl ruleHdl : Nat) : Decidable (d.Deletes tblHdl ruleHdl) :=
  inferInstanceAs (Decidable (_ ∧ _))

def delIpv4Rule (tblHdl ruleHdl : Nat) (owner : IpaNatIpv4Rule) : Bool × NatDriver :=
  let request : DelRequest := ⟨ruleHdl, owner, d.live.lookup ruleHdl⟩
  let d' := { d.next with delRequests := request :: d.delRequests }
  if d.Deletes tblHdl ruleHdl then
    (true, { d' with live := d.live.filter fun p => decide (p.1 ≠ ruleHdl) })
  else (false, d')

end NatDriver

structure NatTableEntry where
  privateIp : UInt32 := 0
  privatePort : UInt16 := 0
  targetIp : UInt32 := 0
  targetPort : UInt16 := 0
  publicIp : UInt16 := 0
  publicPort : UInt16 := 0
  protocol : UInt8 := 0
  timestamp : UInt32 := 0
  dstNat : Bool := false
  enabled : Bool := false
  ruleHdl : Nat := 0
  deriving DecidableEq, Repr

namespace NatTableEntry

variable (e : NatTableEntry)

def natRule : IpaNatIpv4Rule where
  targetIp := e.targetIp
  privateIp := e.privateIp
  targetPort := e.targetPort
  privatePort := e.privatePort
  publicPort := e.publicPort
  protocol := e.protocol

/-- The comparison of `ChkForDup`. The public port is not part of it. -/
def sameConn (rule : NatTableEntry) : Bool :=
  e.privateIp = rule.privateIp ∧ e.targetIp = rule.targetIp ∧
    e.privatePort = rule.privatePort ∧ e.targetPort = rule.targetPort ∧
    e.protocol = rule.protocol

def isFree : Bool :=
  e.privateIp = 0 ∧ e.targetIp = 0 ∧ e.privatePort = 0 ∧ e.targetPort = 0 ∧ e.protocol = 0

def isInvalid : Bool :=
  e.privateIp = 0 ∨ e.targetIp = 0 ∨ e.privatePort = 0 ∨ e.targetPort = 0 ∨ e.protocol = 0

end NatTableEntry

/-- `NatApp`. Its `max_entries` is the length of the cache. -/
structure NatApp where
  cache : List NatTableEntry
  temp : List NatTableEntry
  pubIpAddr : UInt32
  pubIpAddrPre : UInt32
  natTableHdl : Nat
  curCnt : Int
  /-- The protocols and ports of the ALG connections. -/
  algPorts : List (UInt8 × UInt16)
  pwrSaveIfs : List UInt32
  driver : NatDriver

def maxTempEntries : Nat := 25

def ipaMaxNumWifiClients : Nat := 32

def einval : Int := -22

structure Round where
  slot : NatTableEntry
  driver : NatDriver
  curCnt : Int

def forSlots (body : Round → Round) :
    List NatTableEntry → NatDriver → Int → List NatTableEntry × NatDriver × Int
  | [], driver, curCnt => ([], driver, curCnt)
  | slot :: slots, driver, curCnt =>
    let r := body ⟨slot, driver, curCnt⟩
    let rest := forSlots body slots r.driver r.curCnt
    (r.slot :: rest.1, rest.2)

def NatApp.forSlots (a : NatApp) (body : Round → Round) : NatApp :=
  let (cache, driver, curCnt) := Ipacm.forSlots body a.cache a.driver a.curCnt
  { a with cache, driver, curCnt }

/-- Add the rule of a cached connection; forget the connection if that fails. -/
def addSlot (tblHdl : Nat) (r : Round) : Round :=
  match r.driver.addIpv4Rule tblHdl r.slot.natRule with
  | (none, driver) => ⟨{}, driver, r.curCnt - 1⟩
  | (some ruleHdl, driver) => ⟨{ r.slot with ruleHdl, enabled := true }, driver, r.curCnt⟩

def restoreSlot (tblHdl : Nat) (r : Round) : Round :=
  if r.slot.privateIp ≠ 0 then addSlot tblHdl r else r

def resetPwrSaveSlot (tblHdl : Nat) (clientLanIp : UInt32) (r : Round) : Round :=
  if r.slot.privateIp = clientLanIp ∧ r.slot.enabled = false then addSlot tblHdl r else r

/-- Delete the rule of an enabled slot; `done` is what becomes of the slot. -/
def delSlot (tblHdl : Nat) (done : NatTableEntry → NatTableEntry) (r : Round) : Round :=
  match r.driver.delIpv4Rule tblHdl r.slot.ruleHdl r.slot.natRule with
  | (false, driver) => { r with driver }
  | (true, driver) => { r with slot := done r.slot, driver }

def updatePwrSaveSlot (tblHdl : Nat) (clientLanIp : UInt32) (r : Round) : Round :=
  if r.slot.privateIp = clientLanIp ∧ r.slot.enabled = true then
    delSlot tblHdl (fun e => { e with enabled := false, ruleHdl := 0 }) r
  else r

def clntDisconSlot (tblHdl : Nat) (ipAddr : UInt32) (r : Round) : Round :=
  if r.slot.privateIp = ipAddr ∧ r.slot.enabled = true then
    delSlot tblHdl (fun e => { e with enabled := false }) r
  else r

def staClntDisconSlot (tblHdl : Nat) (ipAddr : UInt32) (r : Round) : Round :=
  if r.slot.targetIp = ipAddr then
    if r.slot.enabled then
      match r.driver.delIpv4Rule tblHdl r.slot.ruleHdl r.slot.natRule with
      | (false, driver) => { r with driver }
      | (true, driver) => ⟨{}, driver, r.curCnt - 1⟩
    else ⟨{}, r.driver, r.curCnt - 1⟩
  else r

namespace NatApp

variable (a : NatApp)

def maxEntries : Nat := a.cache.length

def addTable (pubIp : UInt32) : Int × NatApp :=
  match a.driver.addIpv4Tbl (a.maxEntries % 2 ^ 16) a.natTableHdl with
  | (false, natTableHdl, driver) => (einval, { a with natTableHdl, driver })
  | (true, natTableHdl, driver) =>
    let a := { a with natTableHdl, driver }
    let a := if pubIp = a.pubIpAddrPre then a.forSlots (restoreSlot natTableHdl) else a
    (0, { a with pubIpAddr := pubIp })

/-- `Reset`. Its loop compares `enabled` with `false` and assigns nothing. -/
def reset : NatApp := { a with natTableHdl := 0, pubIpAddr := 0 }

def deleteTable (pubIp : UInt32) : Int × NatApp :=
  if a.natTableHdl = 0 then (-1, a)
  else if a.pubIpAddr ≠ pubIp then (-1, a)
  else
    match a.driver.delIpv4Tbl a.natTableHdl with
    | (false, driver) => (einval, { a with driver })
    | (true, driver) => (0, { a with driver, pubIpAddrPre := a.pubIpAddr }.reset)

def chkForDup (rule : NatTableEntry) : Bool := a.cache.any fun e => e.sameConn rule

def deleteEntry (rule : NatTableEntry) : NatApp :=
  let cnt := a.cache.findIdx fun e => e.sameConn rule
  match a.cache[cnt]? with
  | none => a
  | some e =>
    let driver :=
      if e.enabled then (a.driver.delIpv4Rule a.natTableHdl e.ruleHdl e.natRule).2
      else a.driver
    { a with cache := a.cache.set cnt {}, driver, curCnt := a.curCnt - 1 }

def isAlgPort (proto : UInt8) (port : UInt16) : Bool :=
  a.algPorts.any fun p => proto = p.1 ∧ port = p.2

def isPwrSaveIf (ipAddr : UInt32) : Bool :=
  a.pwrSaveIfs.any fun p => p ≠ 0 ∧ ipAddr = p

/-- The slot `cnt` gets the connection `rule`. Its `public_ip` is not written. -/
def fillSlot (cnt : Nat) (rule : NatTableEntry) (enabled : Bool) (ruleHdl : Nat) : NatApp :=
  { a with
    cache := a.cache.modify cnt fun e =>
      { e with
        privateIp := rule.privateIp
        targetIp := rule.targetIp
        targetPort := rule.targetPort
        privatePort := rule.privatePort
        protocol := rule.protocol
        timestamp := 0
        publicPort := rule.publicPort
        dstNat := rule.dstNat
        enabled
        ruleHdl }
    curCnt := a.curCnt + 1 }

def addEntry (rule : NatTableEntry) : Int × NatApp :=
  if a.natTableHdl = 0 then (-1, a)
  else if a.isAlgPort rule.protocol rule.privatePort ∨
      a.isAlgPort rule.protocol rule.targetPort then
    (-1, a)
  else if rule.isInvalid then (0, a)
  else if a.chkForDup rule then (-1, a)
  else
    let cnt := a.cache.findIdx NatTableEntry.isFree
    if a.maxEntries = cnt then (-1, a)
    else if a.isPwrSaveIf rule.privateIp ∨ a.isPwrSaveIf rule.targetIp then
      (0, a.fillSlot cnt rule false 0)
    else
      match a.driver.addIpv4Rule a.natTableHdl rule.natRule with
      | (none, driver) => (-1, { a with driver })
      | (some ruleHdl, driver) => (0, { a with driver }.fillSlot cnt rule true ruleHdl)

def updatePwrSaveIf (clientLanIp : UInt32) : Int × NatApp :=
  if clientLanIp = 0 then (-1, a)
  else if clientLanIp ∈ a.pwrSaveIfs then (0, a)
  else
    let a := { a with pwrSaveIfs := a.pwrSaveIfs.replace 0 clientLanIp }
    (0, a.forSlots (updatePwrSaveSlot a.natTableHdl clientLanIp))

def resetPwrSaveIf (clientLanIp : UInt32) : Int × NatApp :=
  if clientLanIp = 0 then (-1, a)
  else
    let a := { a with pwrSaveIfs := a.pwrSaveIfs.replace clientLanIp 0 }
    (-1, a.forSlots (resetPwrSaveSlot a.natTableHdl clientLanIp))

def addTempEntry (newEntry : NatTableEntry) : NatApp :=
  let cnt := a.temp.findIdx fun e => e.privateIp = 0 ∧ e.targetIp = 0
  { a with temp := a.temp.set cnt newEntry }

def deleteTempEntry (entry : NatTableEntry) : NatApp :=
  let cnt := a.temp.findIdx fun e => e.sameConn entry
  { a with temp := a.temp.set cnt {} }

def flushTempSlot (ipAddr : UInt32) (isAdd : Bool) (e : NatTableEntry) :
    NatTableEntry × NatApp :=
  if e.privateIp = ipAddr ∨ e.targetIp = ipAddr then
    -- `public_ip` has 16 bits
    if isAdd ∧ e.publicIp.toUInt32 = a.pubIpAddr then
      let (ret, a) := a.addEntry e
      if ret ≠ 0 then (e, a) else ({}, a)
    else ({}, a)
  else (e, a)

def flushTempLoop (ipAddr : UInt32) (isAdd : Bool) :
    List NatTableEntry → NatApp → List NatTableEntry × NatApp
  | [], a => ([], a)
  | e :: es, a =>
    let r := a.flushTempSlot ipAddr isAdd e
    let rest := flushTempLoop ipAddr isAdd es r.2
    (r.1 :: rest.1, rest.2)

def flushTempEntries (ipAddr : UInt32) (isAdd : Bool) : NatApp :=
  let (temp, a) := flushTempLoop ipAddr isAdd a.temp a
  { a with temp }

def delEntriesOnClntDiscon (ipAddr : UInt32) : Int × NatApp :=
  if ipAddr = 0 then (-1, a)
  else
    let a := { a with pwrSaveIfs := a.pwrSaveIfs.replace ipAddr 0 }
    (0, a.forSlots (clntDisconSlot a.natTableHdl ipAddr))

def delEntriesOnSTAClntDiscon (ipAddr : UInt32) : Int × NatApp :=
  if ipAddr = 0 then (-1, a)
  else (0, a.forSlots (staClntDisconSlot a.natTableHdl ipAddr))

/-- `CacheEntry`. It does not initialise `cnt`; the search has no meaning, `none`, if the
value that it finds there is outside the cache. -/
def cacheEntry (rule : NatTableEntry) (cnt : Int) : Option NatApp :=
  if rule.isInvalid then some a
  else if a.chkForDup rule then some a
  else if cnt < 0 ∨ a.maxEntries < cnt then none
  else
    let cnt := cnt.toNat + (a.cache.drop cnt.toNat).findIdx NatTableEntry.isFree
    if a.maxEntries = cnt then some a else some (a.fillSlot cnt rule false 0)

end NatApp

/-- A call of an operation; `cacheEntry` comes with the initial value of its `cnt`. -/
inductive Op
  | addTable (pubIp : UInt32)
  | deleteTable (pubIp : UInt32)
  | addEntry (rule : NatTableEntry)
  | deleteEntry (rule : NatTableEntry)
  | updatePwrSaveIf (clientLanIp : UInt32)
  | resetPwrSaveIf (clientLanIp : UInt32)
  | addTempEntry (newEntry : NatTableEntry)
  | deleteTempEntry (entry : NatTableEntry)
  | flushTempEntries (ipAddr : UInt32) (isAdd : Bool)
  | cacheEntry (rule : NatTableEntry) (cnt : Int)
  | delEntriesOnClntDiscon (ipAddr : UInt32)
  | delEntriesOnSTAClntDiscon (ipAddr : UInt32)

def Op.exec (a : NatApp) : Op → Option NatApp
  | .addTable pubIp => some (a.addTable pubIp).2
  | .deleteTable pubIp => some (a.deleteTable pubIp).2
  | .addEntry rule => some (a.addEntry rule).2
  | .deleteEntry rule => some (a.deleteEntry rule)
  | .updatePwrSaveIf clientLanIp => some (a.updatePwrSaveIf clientLanIp).2
  | .resetPwrSaveIf clientLanIp => some (a.resetPwrSaveIf clientLanIp).2
  | .addTempEntry newEntry => some (a.addTempEntry newEntry)
  | .deleteTempEntry entry => some (a.deleteTempEntry entry)
  | .flushTempEntries ipAddr isAdd => some (a.flushTempEntries ipAddr isAdd)
  | .cacheEntry rule cnt => a.cacheEntry rule cnt
  | .delEntriesOnClntDiscon ipAddr => some (a.delEntriesOnClntDiscon ipAddr).2
  | .delEntriesOnSTAClntDiscon ipAddr => some (a.delEntriesOnSTAClntDiscon ipAddr).2

/-- The object that `GetInstance` creates. The constructor leaves `pub_ip_addr_pre` and
`PwrSaveIfs` uninitialised. -/
structure NatApp.Initial (a : NatApp) : Prop where
  cache : ∃ maxEntries, a.cache = List.replicate maxEntries {}
  temp : a.temp = List.replicate maxTempEntries {}
  pubIpAddr : a.pubIpAddr = 0
  natTableHdl : a.natTableHdl = 0
  curCnt : a.curCnt = 0
  pwrSaveIfs : a.pwrSaveIfs.length = ipaMaxNumWifiClients
  table : a.driver.table = false
  live : a.driver.live = []
  delRequests : a.driver.delRequests = []

/-- After an access outside the cache anything can follow. -/
def natAppSystem : System NatApp Op where
  init := NatApp.Initial
  step a op a' := op.exec a = some a' ∨ op.exec a = none

end EtherDevice.Ipacm
