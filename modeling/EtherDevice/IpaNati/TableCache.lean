import Mathlib
import EtherDevice.IpaNati.Handles
import EtherDevice.Lib.Transition

/-!
# The life cycle of the NAT table cache

`ipa_nati_add_ipv4_tbl` and `ipa_nati_del_ipv4_table` of `ipa_nat_drvi.c`, with the four
functions an add goes through. Every system call and every `malloc` gives the value that the
environment chose for it, so each of them can fail in each call.

A call runs in `Driver`, which keeps the changes made before an error is returned. An access
outside an array ends the call with `outOfRange`: the code behaves in an undefined way from
there on. The heap and the mapped memory of the NAT device are two memories, since `malloc` and
`mmap` do not hand out overlapping ones.
-/

namespace EtherDevice.IpaNati.TableCache

open Lib

abbrev maxIp4Tbls : Nat := 1

def tableEntrySize : Nat := 32

def indexTableEntrySize : Nat := 4

def natDevFullName : String := "/dev/ipaNatTable"

/-- `MAP_FAILED`, as an address. It is not `NULL`. -/
def mapFailed : Nat := 2 ^ 64 - 1

def pageSize : Nat := 4096

def pageRound (size : Nat) : Nat := (size + (pageSize - 1)) / pageSize * pageSize

structure Ip4Tbl where
  valid : Bool := false
  publicAddr : UInt32 := 0
  natFd : Int := 0
  size : Nat := 0
  tblAddrOffset : Nat := 0
  tableName : String := ""
  ipv4RulesAddr : Nat := 0
  indexTableAddr : Nat := 0
  tableEntries : Nat := 0
  ipv4ExpnRulesAddr : Nat := 0
  indexTableExpnAddr : Nat := 0
  expnTableEntries : Nat := 0
  indexExpnTableMeta : Nat := 0
  ruleIdArray : Nat := 0
  deriving DecidableEq

/-- `ipa_nat_cache`, with `table_cnt` as an eight-bit number. -/
structure Cache where
  ip4Tbl : Vector Ip4Tbl maxIp4Tbls
  ipaFd : Int
  tableCnt : Nat
  deriving DecidableEq

structure V4NatInit where
  tblIndex : Nat
  ipv4RulesOffset : Nat
  expnRulesOffset : Nat
  indexOffset : Nat
  indexExpnOffset : Nat
  tableEntries : Nat
  expnTableEntries : Nat
  ipAddr : UInt32
  deriving DecidableEq

/-- The cache with what it points to. `maps` and `blocks` are the live mappings of the NAT
device and the live blocks of the heap, as address and bytes, and `posted` are the tables that
the hardware was told of. -/
structure State where
  cache : Cache
  maps : List (Nat × Nat)
  blocks : List (Nat × Nat)
  posted : Nat → Option V4NatInit
  deviceMem : Nat → UInt8
  heapMem : Nat → UInt8

def Cache.zero : Cache where
  ip4Tbl := #v[{}]
  ipaFd := 0
  tableCnt := 0

inductive Arr where
  | ip4Tbl
  | rules
  | expnRules
  | indexTable
  | indexExpnTable
  | indexExpnTableMeta
  deriving DecidableEq, Repr

/-- Element `index` of an array that has `bound` elements. -/
structure Access where
  arr : Arr
  index : Nat
  bound : Nat
  deriving DecidableEq, Repr

inductive Stop where
  | returned (e : Errno)
  | outOfRange (a : Access)
  deriving DecidableEq, Repr

/-- A piece of the driver. The state is kept when it stops. -/
structure Driver (α : Type) where
  run : State → State × Except Stop α

namespace Driver

variable {α β : Type} {x : Driver α} {f : α → Driver β} {s s' : State}

instance : Monad Driver where
  pure a := ⟨fun s => (s, .ok a)⟩
  bind x f := ⟨fun s =>
    match x.run s with
    | (s', .ok a) => (f a).run s'
    | (s', .error e) => (s', .error e)⟩

def stop (e : Stop) : Driver α := ⟨fun s => (s, .error e)⟩

def get : Driver State := ⟨fun s => (s, .ok s)⟩

def modify (f : State → State) : Driver Unit := ⟨fun s => (f s, .ok ())⟩

theorem bind_ok {a : α} (h : x.run s = (s', .ok a)) : (x >>= f).run s = (f a).run s' := by
  simp only [bind, h]

theorem bind_error {e : Stop} (h : x.run s = (s', .error e)) :
    (x >>= f).run s = (s', .error e) := by
  simp only [bind, h]

@[simp] theorem run_pure (a : α) (s : State) : (pure a : Driver α).run s = (s, .ok a) := rfl

@[simp] theorem run_stop (e : Stop) (s : State) :
    (stop e : Driver α).run s = (s, .error e) := rfl

@[simp] theorem run_modify (g : State → State) (s : State) :
    (modify g).run s = (g s, .ok ()) := rfl

@[simp] theorem run_get_bind (k : State → Driver β) (s : State) :
    (get >>= k).run s = (k s).run s := rfl

@[simp] theorem run_modify_bind (g : State → State) (k : Unit → Driver β) (s : State) :
    (modify g >>= k).run s = (k ()).run (g s) := rfl

@[simp] theorem run_stop_bind (e : Stop) (k : α → Driver β) (s : State) :
    ((stop e : Driver α) >>= k).run s = (s, .error e) := rfl

@[simp] theorem run_pure_bind (a : α) (k : α → Driver β) (s : State) :
    ((pure a : Driver α) >>= k).run s = (k a).run s := rfl

end Driver

open Driver

def check (a : Access) : Driver Unit :=
  if a.index < a.bound then pure () else stop (.outOfRange a)

def checkAll : List Access → Driver Unit
  | [] => pure ()
  | a :: l => do
    check a
    checkAll l

def tblAt (index : Nat) : Driver (Fin maxIp4Tbls) :=
  if h : index < maxIp4Tbls then pure ⟨index, h⟩
  else stop (.outOfRange ⟨.ip4Tbl, index, maxIp4Tbls⟩)

namespace State

def tbl (s : State) (i : Fin maxIp4Tbls) : Ip4Tbl := s.cache.ip4Tbl[i]

def setTbl (s : State) (i : Fin maxIp4Tbls) (t : Ip4Tbl) : State :=
  { s with cache := { s.cache with ip4Tbl := s.cache.ip4Tbl.set i t } }

def setIpaFd (s : State) (fd : Int) : State := { s with cache := { s.cache with ipaFd := fd } }

def setTableCnt (s : State) (n : Nat) : State :=
  { s with cache := { s.cache with tableCnt := n % 2 ^ 8 } }

def mappedFrom (s : State) (addr : Nat) : Nat :=
  match s.maps.find? fun m => m.1 ≤ addr && addr < m.1 + m.2 with
  | some m => m.1 + m.2 - addr
  | none => 0

def blockBytes (s : State) (addr : Nat) : Nat :=
  match s.blocks.find? fun b => b.1 = addr with
  | some b => b.2
  | none => 0

end State

def zeroed (mem : Nat → UInt8) (addr len : Nat) : Nat → UInt8 :=
  fun a => if addr ≤ a ∧ a < addr + len then 0 else mem a

def read16 (mem : Nat → UInt8) (addr : Nat) : Nat :=
  (mem addr).toNat + 2 ^ 8 * (mem (addr + 1)).toNat

def read32 (mem : Nat → UInt8) (addr : Nat) : Nat :=
  read16 mem addr + 2 ^ 16 * read16 mem (addr + 2)

/-- What the environment answers in an add: the values returned by the system calls and by
`malloc`, the `offset` that the allocation writes, and what the mapped memory holds. -/
structure AddAnswers where
  openIpa : Int
  allocNatMem : Int
  offset : Nat
  mallocMeta : Nat
  mallocRuleIds : Nat
  openNat : Int
  mmap : Nat
  memory : Nat → UInt8
  initNat : Int

structure NatAllocMem where
  size : Nat
  offset : Nat
  tableEntries : Nat
  expnTableEntries : Nat

def createNatDevice (ans : AddAnswers) : Driver Unit :=
  if ans.allocNatMem ≠ 0 then stop (.returned .einval) else pure ()

/-- The memory size that `ipa_nati_alloc_table` asks for. `total_entries` has 16 bits. -/
def memSize (tableEntries expnTableEntries : Nat) : Nat :=
  let totalEntries := (tableEntries + expnTableEntries) % 2 ^ 16
  tableEntrySize * totalEntries + indexTableEntrySize * totalEntries

def ipaNatiAllocTable (ans : AddAnswers) (numberOfEntries : UInt16) : Driver NatAllocMem :=
  match allocTable numberOfEntries.toNat with
  | .error e => stop (.returned e)
  | .ok (tableEntries, expnTableEntries) => do
    let s ← get
    if s.cache.ipaFd = 0 then
      if ans.openIpa < 0 then
        stop (.returned .eio)
      else
        modify fun s => s.setIpaFd ans.openIpa
    createNatDevice ans
    return ⟨memSize tableEntries expnTableEntries, ans.offset, tableEntries, expnTableEntries⟩

def Ip4Tbl.claimed (t : Ip4Tbl) (mem : NatAllocMem) (publicAddr : UInt32) : Ip4Tbl :=
  { t with
    valid := true
    publicAddr
    size := mem.size
    tblAddrOffset := mem.offset
    tableEntries := mem.tableEntries
    expnTableEntries := mem.expnTableEntries }

def Ip4Tbl.mapped (t : Ip4Tbl) (mem : NatAllocMem) (ipv4RulesAddr : Nat) : Ip4Tbl :=
  let total := mem.tableEntries + mem.expnTableEntries
  { t with
    ipv4RulesAddr
    ipv4ExpnRulesAddr := ipv4RulesAddr + tableEntrySize * mem.tableEntries
    indexTableAddr := ipv4RulesAddr + tableEntrySize * total
    indexTableExpnAddr := ipv4RulesAddr + tableEntrySize * total +
      indexTableEntrySize * mem.tableEntries }

def State.allocated (s : State) (addr bytes : Nat) : State :=
  { s with blocks := (addr, bytes) :: s.blocks, heapMem := zeroed s.heapMem addr bytes }

def allocArray (field : Ip4Tbl → Nat) (store : Ip4Tbl → Nat → Ip4Tbl) (answer bytes : Nat)
    (i : Fin maxIp4Tbls) : Driver Bool := do
  let s ← get
  if field (s.tbl i) = 0 then
    if answer = 0 then
      return false
    else
      modify fun s => (s.setTbl i (store (s.tbl i) answer)).allocated answer bytes
      return true
  else
    return true

def allocIndexExpnTableMeta (answer expnTblEntries : Nat) : Fin maxIp4Tbls → Driver Bool :=
  allocArray (·.indexExpnTableMeta) (fun t p => { t with indexExpnTableMeta := p }) answer
    (2 * expnTblEntries)

def allocRuleIdArray (answer tblEntries expnTblEntries : Nat) : Fin maxIp4Tbls → Driver Bool :=
  allocArray (·.ruleIdArray) (fun t p => { t with ruleIdArray := p }) answer
    (2 * (tblEntries + expnTblEntries))

def State.mmapped (s : State) (ans : AddAnswers) (size : Nat) : State :=
  if ans.mmap = mapFailed then s
  else
    { s with
      maps := (ans.mmap, pageRound size) :: s.maps
      deviceMem := fun a =>
        if ans.mmap ≤ a ∧ a < ans.mmap + pageRound size then ans.memory (a - ans.mmap)
        else s.deviceMem a }

/-- The part of `ipa_nati_update_cache` that opens and maps the NAT device. A failed mapping is
compared with `NULL`. -/
def mapTable (ans : AddAnswers) (mem : NatAllocMem) (i : Fin maxIp4Tbls) : Driver Unit :=
  if ans.openNat < 0 then
    stop (.returned .eio)
  else do
    modify fun s =>
      s.setTbl i { s.tbl i with tableName := natDevFullName, natFd := ans.openNat }
    modify fun s => s.mmapped ans mem.size
    if ans.mmap = 0 then
      stop (.returned .einval)
    else
      modify fun s => s.setTbl i ((s.tbl i).mapped mem ans.mmap)

def updateCache (ans : AddAnswers) (mem : NatAllocMem) (publicAddr : UInt32) : Driver Unit := do
  let s ← get
  let i ← tblAt s.cache.tableCnt
  modify fun s => s.setTbl i ((s.tbl i).claimed mem publicAddr)
  if ← allocIndexExpnTableMeta ans.mallocMeta mem.expnTableEntries i then
    if ← allocRuleIdArray ans.mallocRuleIds mem.tableEntries mem.expnTableEntries i then
      mapTable ans mem i

def memsetTable (arr : Arr) (addr len : Nat) : Driver Unit := do
  let s ← get
  if len ≤ s.mappedFrom addr then
    modify fun s => { s with deviceMem := zeroed s.deviceMem addr len }
  else
    stop (.outOfRange ⟨arr, len - 1, s.mappedFrom addr⟩)

def resetTbl (tblIndx : Nat) : Driver Unit := do
  let i ← tblAt tblIndx
  let s ← get
  let t := s.tbl i
  memsetTable .rules t.ipv4RulesAddr (tableEntrySize * t.tableEntries)
  memsetTable .expnRules t.ipv4ExpnRulesAddr (tableEntrySize * t.expnTableEntries)
  memsetTable .indexTable t.indexTableAddr (indexTableEntrySize * t.tableEntries)
  memsetTable .indexExpnTable t.indexTableExpnAddr (indexTableEntrySize * t.expnTableEntries)

/-- The command of `ipa_nati_post_ipv4_init_cmd`. Offsets have 32 bits, and the mask
`table_entries - 1` has 16. -/
def Ip4Tbl.initCmd (t : Ip4Tbl) (tblIndex : Nat) : V4NatInit :=
  let expnRulesOffset := (t.tblAddrOffset + t.tableEntries * tableEntrySize) % 2 ^ 32
  let indexOffset := (expnRulesOffset + t.expnTableEntries * tableEntrySize) % 2 ^ 32
  { tblIndex
    ipv4RulesOffset := t.tblAddrOffset
    expnRulesOffset
    indexOffset
    indexExpnOffset := (indexOffset + t.tableEntries * indexTableEntrySize) % 2 ^ 32
    tableEntries := (t.tableEntries + (2 ^ 16 - 1)) % 2 ^ 16
    expnTableEntries := t.expnTableEntries
    ipAddr := t.publicAddr }

def postIpv4InitCmd (ret : Int) (tblIndex : Nat) : Driver Unit := do
  let i ← tblAt tblIndex
  if ret ≠ 0 then
    stop (.returned .einval)
  else
    modify fun s =>
      { s with posted := Function.update s.posted tblIndex (some ((s.tbl i).initCmd tblIndex)) }

/-- What `ipa_nat_dump_ipv4_table` reads. Its loops over the expansion tables also read the
entry behind the last one, and an index entry that is not empty makes it read
`index_expn_table_meta`. -/
def State.dumpReads (s : State) (t : Ip4Tbl) : List Access :=
  (List.range t.tableEntries).map (fun cnt =>
      ⟨.rules, cnt, s.mappedFrom t.ipv4RulesAddr / tableEntrySize⟩) ++
    (List.range (t.expnTableEntries + 1)).map (fun cnt =>
      ⟨.expnRules, cnt, s.mappedFrom t.ipv4ExpnRulesAddr / tableEntrySize⟩) ++
    (List.range t.tableEntries).map (fun cnt =>
      ⟨.indexTable, cnt, s.mappedFrom t.indexTableAddr / indexTableEntrySize⟩) ++
    (List.range (t.expnTableEntries + 1)).flatMap (fun cnt =>
      ⟨.indexExpnTable, cnt, s.mappedFrom t.indexTableExpnAddr / indexTableEntrySize⟩ ::
        if read16 s.deviceMem (t.indexTableExpnAddr + indexTableEntrySize * cnt) ≠ 0 then
          [⟨.indexExpnTableMeta, cnt, s.blockBytes t.indexExpnTableMeta / 2⟩]
        else [])

def dumpIpv4Table (tblHdl : Nat) : Driver Unit :=
  if tblHdl = 0 ∨ maxIp4Tbls < tblHdl then
    pure ()
  else do
    let i ← tblAt (tblHdl - 1)
    let s ← get
    checkAll (s.dumpReads (s.tbl i))

def returning {α : Type} (e : Errno) (x : Driver α) : Driver α :=
  ⟨fun s =>
    match x.run s with
    | (s', .error (.returned _)) => (s', .error (.returned e))
    | r => r⟩

def addIpv4Tbl (ans : AddAnswers) (publicIpAddr : UInt32) (numberOfEntries : UInt16) :
    Driver Nat := do
  let s ← get
  let tblIndx := s.cache.tableCnt
  let mem ← returning .enomem (ipaNatiAllocTable ans numberOfEntries)
  returning .einval (updateCache ans mem publicIpAddr)
  resetTbl tblIndx
  returning .einval (postIpv4InitCmd ans.initNat tblIndx)
  modify fun s => s.setTableCnt (s.cache.tableCnt + 1)
  let s ← get
  dumpIpv4Table s.cache.tableCnt
  return s.cache.tableCnt

structure DelAnswers where
  close : Int
  delNat : Int
  deriving DecidableEq

def State.munmapped (s : State) (addr size : Nat) : State :=
  { s with maps := s.maps.erase (addr, pageRound size) }

def State.freed (s : State) (addr : Nat) : State :=
  { s with blocks := s.blocks.eraseP fun b => b.1 = addr }

def delIpv4Table (ans : DelAnswers) (tblHdl : UInt32) : Driver Unit := do
  let index := (tblHdl - 1).toUInt8.toNat
  let i ← tblAt index
  let s ← get
  let t := s.tbl i
  if !t.valid then
    stop (.returned .einval)
  else
    modify fun s => s.munmapped t.ipv4RulesAddr t.size
    if ans.close ≠ 0 then
      stop (.returned .einval)
    else if ans.delNat ≠ 0 then
      stop (.returned .einval)
    else
      modify fun s => { s with posted := Function.update s.posted index none }
      modify fun s => (s.freed t.indexExpnTableMeta).freed t.ruleIdArray
      modify fun s => s.setTbl i {}
      modify fun s => s.setTableCnt (s.cache.tableCnt + (2 ^ 8 - 1))

inductive Call where
  | add (ans : AddAnswers) (publicIpAddr : UInt32) (numberOfEntries : UInt16)
  | del (ans : DelAnswers) (tblHdl : UInt32)

def next (s : State) : Call → State
  | .add ans publicIpAddr numberOfEntries => ((addIpv4Tbl ans publicIpAddr numberOfEntries).run s).1
  | .del ans tblHdl => ((delIpv4Table ans tblHdl).run s).1

/-- A process that has made no call. -/
structure Start (s : State) : Prop where
  cache : s.cache = .zero
  maps : s.maps = []
  blocks : s.blocks = []
  posted : ∀ i, s.posted i = none

/-- What `malloc` promises: a new block is not where a live one is. -/
def NewBlocks (s : State) (ans : AddAnswers) : Prop :=
  (∀ b ∈ s.blocks, b.1 ≠ ans.mallocMeta ∧ b.1 ≠ ans.mallocRuleIds) ∧
    (ans.mallocMeta = ans.mallocRuleIds → ans.mallocMeta = 0)

instance (s : State) (ans : AddAnswers) : Decidable (NewBlocks s ans) :=
  inferInstanceAs (Decidable (_ ∧ _))

def Enabled (s : State) : Call → Prop
  | .add ans _ _ => NewBlocks s ans
  | .del _ _ => True

instance (s : State) (call : Call) : Decidable (Enabled s call) := by
  cases call <;> unfold Enabled <;> infer_instance

/-- Every sequence of calls, whatever fails in them. -/
def system : System State Call := .ofFunction Start Enabled next

def Cache.validCount (c : Cache) : Nat := c.ip4Tbl.toList.countP (·.valid)

structure Counted (c : Cache) : Prop where
  count : c.tableCnt = c.validCount
  le : c.tableCnt ≤ maxIp4Tbls

def ruleAt (mem : Nat → UInt8) (addr : Nat) : IpaNatRule where
  privateIp := (read32 mem addr).toUInt32
  targetIp := (read32 mem (addr + 4)).toUInt32
  nextIndex := read16 mem (addr + 8)
  publicPort := (read16 mem (addr + 10)).toUInt16
  privatePort := (read16 mem (addr + 12)).toUInt16
  targetPort := (read16 mem (addr + 14)).toUInt16
  ipChksum := (read16 mem (addr + 16)).toUInt16
  enable := read16 mem (addr + 18) / 2 ^ 15 = 1
  timeStamp := read32 mem (addr + 20) % 2 ^ 24
  protocol := mem (addr + 23)
  prevIndex := read16 mem (addr + 24)
  indxTblEntry := read16 mem (addr + 26)
  tcpUdpChksum := (read16 mem (addr + 30)).toUInt16

def indexRuleAt (mem : Nat → UInt8) (addr : Nat) : IpaNatIndxTblRule where
  tblEntry := read16 mem addr
  nextIndex := read16 mem (addr + 2)

/-- The table of a slot as the rule functions see it: the entries of the mapped memory and the
software arrays of the heap. -/
def State.table (s : State) (t : Ip4Tbl) : IpaNatIp4TableCache where
  valid := t.valid
  publicAddr := t.publicAddr
  tableEntries := t.tableEntries
  expnTableEntries := t.expnTableEntries
  rules e :=
    if e < t.tableEntries + t.expnTableEntries then
      ruleAt s.deviceMem (t.ipv4RulesAddr + tableEntrySize * e)
    else {}
  index e :=
    if e < t.tableEntries + t.expnTableEntries then
      indexRuleAt s.deviceMem (t.indexTableAddr + indexTableEntrySize * e)
    else {}
  indexExpnTableMeta i :=
    if i < t.expnTableEntries then read16 s.heapMem (t.indexExpnTableMeta + 2 * i) else 0
  ruleIdArray i :=
    if i < t.tableEntries + t.expnTableEntries then
      read16 s.heapMem (t.ruleIdArray + 2 * i)
    else 0

/-- The table of slot `i` can be used: its memory is mapped and large enough, the expansion
tables lie behind the base tables, its arrays are allocated, the hardware knows it, and it is
the empty table that the rule functions start with. -/
structure Usable (s : State) (i : Fin maxIp4Tbls) : Prop where
  valid : (s.tbl i).valid = true
  natFd : 0 ≤ (s.tbl i).natFd
  mapped : ((s.tbl i).ipv4RulesAddr, pageRound (s.tbl i).size) ∈ s.maps
  size : (tableEntrySize + indexTableEntrySize) *
    ((s.tbl i).tableEntries + (s.tbl i).expnTableEntries) ≤ (s.tbl i).size
  expnRules : (s.tbl i).ipv4ExpnRulesAddr =
    (s.tbl i).ipv4RulesAddr + tableEntrySize * (s.tbl i).tableEntries
  indexTable : (s.tbl i).indexTableAddr =
    (s.tbl i).ipv4ExpnRulesAddr + tableEntrySize * (s.tbl i).expnTableEntries
  indexExpnTable : (s.tbl i).indexTableExpnAddr =
    (s.tbl i).indexTableAddr + indexTableEntrySize * (s.tbl i).tableEntries
  indexExpnTableMeta : (s.tbl i).indexExpnTableMeta ≠ 0 ∧
    ((s.tbl i).indexExpnTableMeta, 2 * (s.tbl i).expnTableEntries) ∈ s.blocks
  ruleIdArray : (s.tbl i).ruleIdArray ≠ 0 ∧
    ((s.tbl i).ruleIdArray, 2 * ((s.tbl i).tableEntries + (s.tbl i).expnTableEntries)) ∈ s.blocks
  posted : s.posted i = some ((s.tbl i).initCmd i)
  fresh : Fresh (s.table (s.tbl i))

/-- What a call owes its client, whatever fails in it. -/
structure Kept {α : Type} (r : State × Except Stop α) : Prop where
  counted : Counted r.1.cache
  inRange : ∀ a, r.2 ≠ .error (.outOfRange a)

/-- What an add owes its client besides: a table when it reports success, and the cache as it
was when it reports a failure. -/
structure AddKept (s : State) (r : State × Except Stop Nat) : Prop extends Kept r where
  success : ∀ tblHdl, r.2 = .ok tblHdl → ∃ i : Fin maxIp4Tbls, tblHdl = i + 1 ∧ Usable r.1 i
  failure : ∀ e, r.2 = .error (.returned e) → r.1.cache = s.cache

def CallKept (s : State) : Call → Prop
  | .add ans publicIpAddr numberOfEntries =>
    AddKept s ((addIpv4Tbl ans publicIpAddr numberOfEntries).run s)
  | .del ans tblHdl => Kept ((delIpv4Table ans tblHdl).run s)

end EtherDevice.IpaNati.TableCache
