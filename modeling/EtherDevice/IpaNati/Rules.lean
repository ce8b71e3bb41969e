import Mathlib
import EtherDevice.IpaNati.Table

/-!
# Adding and deleting IPv4 rules

`addIpv4Rule` and `delIpv4Rule` are `ipa_nati_add_ipv4_rule` and
`ipa_nati_del_ipv4_rule` with the functions they call. Whether an `IPA_IOC_NAT_DMA` call
succeeds is an argument; a call that fails writes nothing. The result pairs what the
call returns with the table it leaves.
-/

namespace EtherDevice.IpaNati

open IpaNatIp4TableCache

/-- The loop that looks for the last entry of a collision list. The inner `none` is its
error exit, for an entry that names itself; the outer one, an access behind the
expansion table or `2 ^ 16` rounds, after which the loop never ends. -/
def lastEntry (c : IpaNatIp4TableCache) (nextIndexAt : Nat → Nat) :
    Nat → Nat → Nat → Option (Option Nat)
  | 0, _, _ => none
  | fuel + 1, prev, nxtIndx =>
    if nxtIndx = 0 then some (some prev)
    else do
      let e ← c.expnEntry nxtIndx
      if nxtIndx = nextIndexAt e then some none
      else lastEntry c nextIndexAt fuel nxtIndx (nextIndexAt e)

def findLast (c : IpaNatIp4TableCache) (nextIndexAt : Nat → Nat) (newEntry : Nat) :
    Option (Option Nat) :=
  if nextIndexAt newEntry = 0 then some (some newEntry)
  else lastEntry c nextIndexAt (2 ^ 16) 0 (nextIndexAt newEntry)

/-- The first position from `cnt` on that is not busy, `0` if `fuel` ones are. -/
def freeEntryFrom (busy : Nat → Bool) : Nat → Nat → Nat
  | 0, _ => 0
  | fuel + 1, cnt => if busy cnt then freeEntryFrom busy fuel (cnt + 1) else cnt

def expnTblFreeEntry (c : IpaNatIp4TableCache) : Nat :=
  freeEntryFrom (fun cnt => (c.rules (c.tableEntries + cnt)).enable)
    (c.expnTableEntries - 1) 1

def indexExpnGetFreeEntry (c : IpaNatIp4TableCache) : Nat :=
  freeEntryFrom (fun cnt => (c.index (c.tableEntries + cnt)).tblEntry ≠ 0)
    (c.expnTableEntries - 1) 1

def IpaNatIpv4Rule.dstHash (r : IpaNatIpv4Rule) (tableEntries : Nat) : Nat :=
  IpaNati.dstHash r.targetIp r.targetPort r.publicPort r.protocol (tableEntries - 1)

def IpaNatIpv4Rule.srcHash (r : IpaNatIpv4Rule) (tableEntries : Nat) : Nat :=
  IpaNati.srcHash r.privateIp r.privatePort r.targetIp r.targetPort r.protocol
    (tableEntries - 1)

def swRuleOf (publicAddr : UInt32) (clntRule : IpaNatIpv4Rule) : IpaNatRule where
  privateIp := clntRule.privateIp
  privatePort := clntRule.privatePort
  protocol := clntRule.protocol
  publicPort := clntRule.publicPort
  targetIp := clntRule.targetIp
  targetPort := clntRule.targetPort
  ipChksum := calcIpCksum publicAddr clntRule.privateIp
  tcpUdpChksum :=
    if clntRule.protocol = ipprotoTcp ∨ clntRule.protocol = ipprotoUdp then
      calcTcpUdpCksum publicAddr clntRule.publicPort clntRule.privateIp clntRule.privatePort
    else 0
  enable := false
  nextIndex := 0
  timeStamp := 0
  prevIndex := 0
  indxTblEntry := 0

def generateTblRule (c : IpaNatIp4TableCache) (clntRule : IpaNatIpv4Rule) :
    Option (IpaNatRule × Nat) :=
  let swRule := swRuleOf c.publicAddr clntRule
  let newEntry := clntRule.dstHash c.tableEntries
  if ¬ (c.rules newEntry).enable then some (swRule, newEntry)
  else do
    match ← findLast c (fun e => (c.rules e).nextIndex) newEntry with
    | none => some (swRule, 0)
    | some prev =>
      let swRule := { swRule with prevIndex := prev }
      let newEntry := expnTblFreeEntry c
      if newEntry = 0 then some (swRule, 0)
      else some (swRule, newEntry + c.tableEntries)

def generateIndexRule (c : IpaNatIp4TableCache) (clntRule : IpaNatIpv4Rule)
    (tblEntry : Nat) : Option (IpaNatIndxTblSwRule × Nat) :=
  let swRule : IpaNatIndxTblSwRule := { tblEntry }
  let newEntry := clntRule.srcHash c.tableEntries
  if (c.index newEntry).tblEntry = 0 then some (swRule, newEntry)
  else do
    match ← findLast c (fun i => (c.index i).nextIndex) newEntry with
    | none => some (swRule, 0)
    | some prev =>
      let swRule := { swRule with prevIndex := prev }
      let newEntry := indexExpnGetFreeEntry c
      if newEntry = 0 then some (swRule, 0)
      else
        let newEntry := newEntry + c.tableEntries
        if swRule.prevIndex = newEntry then some (swRule, 0)
        else some (swRule, newEntry)

structure Generated where
  rule : IpaNatRule
  indexSwRule : IpaNatIndxTblSwRule
  tblEntry : Nat
  indxTblEntry : Nat
  deriving DecidableEq, Repr

/-- `ipa_nati_generate_rule`. It writes the table only when it succeeds. -/
def generateRule (c : IpaNatIp4TableCache) (clntRule : IpaNatIpv4Rule) :
    Option (Except Errno (Generated × IpaNatIp4TableCache)) := do
  let (rule, tblEntry) ← generateTblRule c clntRule
  if tblEntry = 0 then some (.error .einval)
  else
    let (indexSwRule, indxTblEntry) ← generateIndexRule c clntRule tblEntry
    if indxTblEntry = 0 then some (.error .einval)
    else
      let rule := { rule with indxTblEntry }
      let c :=
        if indxTblEntry ≥ c.tableEntries then
          c.setMeta (indxTblEntry - c.tableEntries) indexSwRule.prevIndex
        else c
      some (.ok (⟨rule, indexSwRule, tblEntry, indxTblEntry⟩, c))

def nextFieldCmd (c : IpaNatIp4TableCache) (prev value : Nat) : DmaOne :=
  if prev < c.tableEntries then
    ⟨.baseTbl, getEntryOffset prev + ruleNextFieldOffset, value⟩
  else
    ⟨.expnTbl, getEntryOffset (prev - c.tableEntries) + ruleNextFieldOffset, value⟩

def indexNextFieldCmd (c : IpaNatIp4TableCache) (prev value : Nat) : DmaOne :=
  if prev < c.tableEntries then
    ⟨.indxTbl, getIndexEntryOffset prev + indexRuleNextFieldOffset, value⟩
  else
    ⟨.indexExpnTbl,
      getIndexEntryOffset (prev - c.tableEntries) + indexRuleNextFieldOffset, value⟩

def writeNextIndex (ok : Bool) (c : IpaNatIp4TableCache) (cmd : DmaOne) :
    Option IpaNatIp4TableCache :=
  if ok then dmaOne c cmd else some c

def copyIpv4RuleToHw (ok : Bool) (c : IpaNatIp4TableCache) (rule : IpaNatRule)
    (entry : Nat) : Option IpaNatIp4TableCache :=
  let c := c.modifyRule entry fun _ => rule
  if rule.prevIndex ≠ 0 then writeNextIndex ok c (nextFieldCmd c rule.prevIndex entry)
  else some c

def copyIpv4IndexRuleToHw (ok : Bool) (c : IpaNatIp4TableCache)
    (indxSwRule : IpaNatIndxTblSwRule) (entry : Nat) : Option IpaNatIp4TableCache :=
  let c := c.modifyIndex entry fun _ => ⟨indxSwRule.tblEntry, indxSwRule.nextIndex⟩
  if indxSwRule.prevIndex ≠ 0 then
    let cmd := indexNextFieldCmd c indxSwRule.prevIndex entry
    writeNextIndex ok c { cmd with offset := cmd.offset % 2 ^ 16 }
  else some c

def enableCmd (c : IpaNatIp4TableCache) (entry : Nat) : DmaOne :=
  if entry < c.tableEntries then
    ⟨.baseTbl, getEntryOffset entry + ruleFlagFieldOffset, flagEnableBitMask⟩
  else
    ⟨.expnTbl, getEntryOffset (entry - c.tableEntries) + ruleFlagFieldOffset,
      flagEnableBitMask⟩

/-- Which of the three ioctls of an add succeed. -/
structure AddDma where
  link : Bool
  indexLink : Bool
  enable : Bool
  deriving DecidableEq, Repr

def AddDma.working : AddDma := ⟨true, true, true⟩

def installRule (dma : AddDma) (c : IpaNatIp4TableCache) (g : Generated) :
    Option (Except Errno Nat × IpaNatIp4TableCache) := do
  let c ← copyIpv4RuleToHw dma.link c g.rule g.tblEntry
  let c ← copyIpv4IndexRuleToHw dma.indexLink c g.indexSwRule g.indxTblEntry
  if ¬ dma.enable then some (.error .eio, c)
  else
    let c ← dmaOne c (enableCmd c g.tblEntry)
    let (ruleHdl, c) := makeRuleHdl c g.tblEntry
    if ruleHdl = 0 then some (.error .einval, c) else some (.ok ruleHdl, c)

def addIpv4Rule (dma : AddDma) (c : IpaNatIp4TableCache) (clntRule : IpaNatIpv4Rule) :
    Option (Except Errno Nat × IpaNatIp4TableCache) := do
  match ← generateRule c clntRule with
  | .error _ => some (.error .einval, c)
  | .ok (g, c) => installRule dma c g

inductive DelType
  | onlyOne
  | head
  | middle
  | last
  deriving DecidableEq, Repr

def findRulePos (expn : Bool) (nextIndex : Nat) : DelType :=
  if expn then (if nextIndex = 0 then .last else .middle)
  else (if nextIndex = 0 then .onlyOne else .head)

def findIndexRulePos (c : IpaNatIp4TableCache) (indxTblEntry : Nat) : DelType :=
  findRulePos (indxTblEntry ≥ c.tableEntries) (c.index indxTblEntry).nextIndex

def delRuleCmd (c : IpaNatIp4TableCache) (r : IpaNatRule) (cur : Nat) : DelType → DmaOne
  | .onlyOne => ⟨.baseTbl, getEntryOffset cur + ruleFlagFieldOffset, flagDisableBitMask⟩
  | .head => ⟨.baseTbl, getEntryOffset cur + ruleProtoFieldOffset, invalidProtoFieldValue⟩
  | .middle => nextFieldCmd c r.prevIndex r.nextIndex
  | .last => nextFieldCmd c r.prevIndex 0

/-- The other commands of a deletion, for the index entry `i`. Deleting a head copies
its successor into the base entry. -/
def delIndexCmds (c : IpaNatIp4TableCache) (i : Nat) : DelType → Option (List DmaOne)
  | .onlyOne => some [⟨.indxTbl, getIndexEntryOffset i + indexRuleNatIndexFieldOffset, 0⟩]
  | .head => do
    let n ← c.expnEntry (c.index i).nextIndex
    return [
      ⟨.indxTbl, getIndexEntryOffset i + indexRuleNatIndexFieldOffset,
        (c.index n).tblEntry⟩,
      ⟨.indxTbl, getIndexEntryOffset i + indexRuleNextFieldOffset,
        (c.index n).nextIndex⟩]
  | .middle => some [
      indexNextFieldCmd c (c.indexExpnTableMeta (i - c.tableEntries)) (c.index i).nextIndex]
  | .last => some [
      indexNextFieldCmd c (c.indexExpnTableMeta (i - c.tableEntries)) 0]

def reorderCmds (cmds : List DmaOne) : List DmaOne :=
  cmds.dropWhile (fun d => !d.baseAddr.isIndex) ++
    cmds.takeWhile (fun d => !d.baseAddr.isIndex)

def updateNextRulePrev (c : IpaNatIp4TableCache) (p : Nat) :
    DelType → Option IpaNatIp4TableCache
  | .middle => (c.expnEntry (c.rules p).nextIndex).map fun n =>
      c.modifyRule n fun r => { r with prevIndex := (c.rules p).prevIndex }
  | _ => some c

def delRuleFields (c : IpaNatIp4TableCache) (p : Nat) (rulePos : DelType) :
    Option IpaNatIp4TableCache :=
  (updateNextRulePrev c p rulePos).map fun c =>
    if rulePos = .head then c else c.modifyRule p fun _ => {}

/-- After the deletion of an index head the entry behind its old successor `n`, if there
is one, has the head `i` as its predecessor. -/
def updateNextNextPrev (c : IpaNatIp4TableCache) (i n : Nat) : Option IpaNatIp4TableCache :=
  if (c.index n).nextIndex ≠ 0 ∧ (c.index n).nextIndex ≥ c.tableEntries then
    (c.expnEntry (c.index n).nextIndex).map fun m => c.setMeta (m - c.tableEntries) i
  else some c

def updateIndxTblEntry (c : IpaNatIp4TableCache) (i : Nat) : Option IpaNatIp4TableCache :=
  if (c.index i).tblEntry < c.size then
    some (c.modifyRule (c.index i).tblEntry fun r => { r with indxTblEntry := i })
  else none

def updateNextPrev (c : IpaNatIp4TableCache) (i : Nat) : Option IpaNatIp4TableCache :=
  (c.expnEntry (c.index i).nextIndex).map fun n =>
    (c.setMeta (n - c.tableEntries) (c.indexExpnTableMeta (i - c.tableEntries))).setMeta
      (i - c.tableEntries) 0

/-- The software writes to the index tables after the deletion's DMA. The successor of
the deleted entry was `n`. -/
def delIndexFields (c : IpaNatIp4TableCache) (i n : Nat) :
    DelType → Option IpaNatIp4TableCache
  | .head => (updateNextNextPrev c i n).bind fun c =>
      updateIndxTblEntry (c.modifyIndex n fun _ => {}) i
  | .middle => (updateNextPrev c i).map fun c => c.modifyIndex i fun _ => {}
  | _ => some (c.modifyIndex i fun _ => {})

/-- `ipa_nati_post_del_dma_cmd` after its check that the rule is enabled: the DMA for
the rule at entry `p`, position `cur` of its table, and its index entry `i`, then the
software writes. -/
def unlinkRule (ok : Bool) (c : IpaNatIp4TableCache) (p cur i : Nat) (rulePos : DelType) :
    Option (Except Errno Unit × IpaNatIp4TableCache) := do
  let indxRulePos := findIndexRulePos c i
  let indexCmds ← delIndexCmds c i indxRulePos
  let cmds := reorderCmds (delRuleCmd c (c.rules p) cur rulePos :: indexCmds)
  if ¬ ok then some (.error .eio, c)
  else
    let n := (c.index i).nextIndex
    let c ← dmaAll c cmds
    let c ← delRuleFields c p rulePos
    let c ← delIndexFields c i n indxRulePos
    some (.ok (), c)

def postDelDmaCmd (ok : Bool) (c : IpaNatIp4TableCache) (curTblEntry : Nat) (expn : Bool)
    (rulePos : DelType) : Option (Except Errno Unit × IpaNatIp4TableCache) := do
  let p ← c.entryAt expn curTblEntry
  if ¬ (c.rules p).enable then some (.error .einval, c)
  else
    let i := (c.rules p).indxTblEntry
    if i < c.size then unlinkRule ok c p curTblEntry i rulePos else none

def delDeadIpv4HeadNodes (c : IpaNatIp4TableCache) : IpaNatIp4TableCache :=
  { c with
    rules := fun cnt =>
      if cnt < c.tableEntries ∧ (c.rules cnt).protocol = invalidProtoFieldCmp ∧
          (c.rules cnt).nextIndex = 0 then {}
      else c.rules cnt }

/-- `ipa_nati_del_ipv4_rule`. The handle is cut to 16 bits to be parsed, but not where
its slot is reset. -/
def delIpv4Rule (ok : Bool) (c : IpaNatIp4TableCache) (ruleHdl : Nat) :
    Option (Except Errno Unit × IpaNatIp4TableCache) := do
  let (expn, tblEntry) ← parseIpv4RuleHdl c (ruleHdl % 2 ^ 16)
  if tblEntry = 0 then some (.error .einval, c)
  else if ¬ c.valid then some (.error .einval, c)
  else
    let p ← c.entryAt expn tblEntry
    let rulePos := findRulePos expn (c.rules p).nextIndex
    match ← postDelDmaCmd ok c tblEntry expn rulePos with
    | (.error _, c) => some (.error .einval, c)
    | (.ok _, c) =>
      let c := delDeadIpv4HeadNodes c
      if ruleHdl - 1 < c.size then some (.ok (), c.setRuleId (ruleHdl - 1) 0) else none

end EtherDevice.IpaNati
