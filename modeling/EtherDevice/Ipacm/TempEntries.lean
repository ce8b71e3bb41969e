import EtherDevice.Ipacm.ConntrackListener
import EtherDevice.Ipacm.NatConsistency

/-!
# The temporary list

A connection whose client is not known yet waits in the temporary list of `NatApp` until its
client comes up. `TempRun` has the list as the code keeps it, and next to it the WAN address
of each connection. `public_ip` is to be this address, but has 16 bits, and is written only if
`status` has neither of the NAT flags. `WritesAddr` is the condition on a message under which
the address is stored; where it holds of every message that is stored, `FlushTempEntries`
hands over exactly the connections of the client, provided that none of them is from another
WAN address and `AddEntry` takes each of them.
-/

namespace EtherDevice.Ipacm

open Lib

/-! ## The runs -/

/-- The slots of the temporary list that are in use. -/
def NatTableEntry.Pending (e : NatTableEntry) : Prop := ¬ (e.privateIp = 0 ∧ e.targetIp = 0)

def NatTableEntry.OfClient (ip : UInt32) (e : NatTableEntry) : Prop :=
  e.privateIp = ip ∨ e.targetIp = ip

instance (ip : UInt32) (e : NatTableEntry) : Decidable (e.OfClient ip) :=
  inferInstanceAs (Decidable (_ ∨ _))

def NatApp.tempSlot (a : NatApp) : Nat := a.temp.findIdx fun e => e.privateIp = 0 ∧ e.targetIp = 0

/-- The entry that the message gives to `AddTempEntry`. -/
def ConntrackListener.tempRule (l : ConntrackListener) (ct : NfConntrack) (type : MsgType) :
    Option NatTableEntry :=
  if (ipprotoUdp = ct.origL4proto ∨ ipprotoTcp = ct.origL4proto) ∧ ct.opens type ∧
      l.wanUp = true then
    match l.parse ct with
    | some (rule, true) => some rule
    | _ => none
  else none

/-- The listener, and the WAN address at which each slot of the temporary list was filled. -/
structure TempRun where
  listener : ConntrackListener
  addrs : List UInt32

namespace TempRun

/-- What reaches the listener and its `NatApp`. -/
inductive Op where
  | ctMessage (ct : NfConntrack) (type : MsgType) (cnt : Int)
  | wanUp (ipv4Addr : UInt32) (isSta : Bool)
  | wanDown (ipv4Addr : UInt32)
  | neighIpAddrAdd (ipv4Addr : UInt32) (isNatIface : Bool)
  | neighIpAddrDel (ipv4Addr : UInt32)
  | staClientAdd (clntIpAddr : UInt32)
  | staClientDel (clntIpAddr : UInt32)
  | updatePwrSaveIf (clientLanIp : UInt32)
  | resetPwrSaveIf (clientLanIp : UInt32)
  | config (privateSubnetTable : List PrivateSubnet)

variable (s : TempRun)

def addrsAfter (ct : NfConntrack) (type : MsgType) : List UInt32 :=
  match s.listener.tempRule ct type with
  | none => s.addrs
  | some _ => s.addrs.set s.listener.natInst.tempSlot s.listener.wanIpaddr

def exec : Op → Option TempRun
  | .ctMessage ct type cnt =>
    (s.listener.processCTMessage ct type cnt).map (⟨·, s.addrsAfter ct type⟩)
  | .wanUp ipv4Addr isSta => some { s with listener := s.listener.handleWanUp ipv4Addr isSta }
  | .wanDown ipv4Addr => some { s with listener := s.listener.handleWanDown ipv4Addr }
  | .neighIpAddrAdd ipv4Addr isNatIface =>
    some { s with listener := s.listener.handleNeighIpAddrAddEvt ipv4Addr isNatIface }
  | .neighIpAddrDel ipv4Addr =>
    some { s with listener := s.listener.handleNeighIpAddrDelEvt ipv4Addr }
  | .staClientAdd clntIpAddr =>
    some { s with listener := s.listener.handleSTAClientAddEvt clntIpAddr }
  | .staClientDel clntIpAddr =>
    some { s with listener := s.listener.handleSTAClientDelEvt clntIpAddr }
  | .updatePwrSaveIf clientLanIp => some { s with
      listener.natInst := (s.listener.natInst.updatePwrSaveIf clientLanIp).2 }
  | .resetPwrSaveIf clientLanIp => some { s with
      listener.natInst := (s.listener.natInst.resetPwrSaveIf clientLanIp).2 }
  | .config privateSubnetTable => some { s with
      listener.privateSubnetTable := privateSubnetTable }

/-- After an access outside the cache anything can follow. -/
def system : System TempRun Op where
  init s := s.listener.Initial ∧ s.addrs = List.replicate maxTempEntries 0
  step s op s' := s.exec op = some s' ∨ s.exec op = none

end TempRun

/-! ## What the list should do -/

namespace NatApp

variable (a : NatApp) (addrs : List UInt32) (ip : UInt32)

def Handed (pubIp ip : UInt32) (p : NatTableEntry × UInt32) : Prop :=
  p.1.OfClient ip ∧ p.2 = pubIp

instance (pubIp ip : UInt32) (p : NatTableEntry × UInt32) : Decidable (Handed pubIp ip p) :=
  inferInstanceAs (Decidable (_ ∧ _))

def handedSlots (pubIp ip : UInt32) (z : List (NatTableEntry × UInt32)) : List NatTableEntry :=
  (z.filter fun p => decide (Handed pubIp ip p)).map Prod.fst

def keptSlots (pubIp ip : UInt32) (z : List (NatTableEntry × UInt32)) : List NatTableEntry :=
  z.map fun p => if Handed pubIp ip p then {} else p.1

def handedEntries : List NatTableEntry := handedSlots a.pubIpAddr ip (a.temp.zip addrs)

def addEntries (es : List NatTableEntry) : NatApp := es.foldl (fun a e => (a.addEntry e).2) a

/-- The connections of the client are handed over and leave the list; the others stay. -/
def flushWhole : NatApp :=
  { a.addEntries (a.handedEntries addrs ip) with
    temp := keptSlots a.pubIpAddr ip (a.temp.zip addrs) }

def FlushRight : Prop := a.flushTempEntries ip true = a.flushWhole addrs ip

/-! ## The conditions -/

def Takes (rule : NatTableEntry) : Prop :=
  a.natTableHdl ≠ 0 ∧
  ¬ (a.isAlgPort rule.protocol rule.privatePort = true ∨
    a.isAlgPort rule.protocol rule.targetPort = true) ∧
  (rule.isInvalid = true ∨ a.chkForDup rule = false ∧ (∃ e ∈ a.cache, e.isFree = true) ∧
    (a.isPwrSaveIf rule.privateIp = true ∨ a.isPwrSaveIf rule.targetIp = true ∨
      (a.driver.addIpv4Rule a.natTableHdl rule.natRule).1.isSome = true))

/-- `AddEntry` takes the connections, one after the other. -/
def TakesAll : NatApp → List NatTableEntry → Prop
  | _, [] => True
  | a, e :: es => a.Takes e ∧ TakesAll (a.addEntry e).2 es

/-- No connection of the client is from another WAN address than that of the table. -/
def NoneStale : Prop :=
  ∀ p ∈ a.temp.zip addrs, p.1.OfClient ip → p.2 = a.pubIpAddr

end NatApp

namespace TempRun

variable (s : TempRun)

/-- The message writes `public_ip`, and the address fits. -/
def WritesAddr (ct : NfConntrack) : Prop :=
  ct.status &&& ipsDstNat = 0 ∧ ct.status &&& ipsSrcNat = 0 ∧ s.listener.wanIpaddr < 0x10000

/-- The message is stored in the first free slot, with its tuple and the whole address of the WAN
interface, and nothing else happens. -/
def StoresConn (ct : NfConntrack) (type : MsgType) : Prop :=
  ∃ (e : NatTableEntry) (side : NatSide),
    e = ct.tuple e.publicIp side ∧ e.publicIp.toUInt32 = s.listener.wanIpaddr ∧
      ∀ cnt, s.listener.processCTMessage ct type cnt = some { s.listener with
        natInst.temp := s.listener.natInst.temp.set s.listener.natInst.tempSlot e }

/-- Every connection that waits has its WAN address. -/
def StoredWhole : Prop :=
  ∀ (i : Nat) (e : NatTableEntry) (addr : UInt32), s.listener.natInst.temp[i]? = some e →
    s.addrs[i]? = some addr → e.Pending → e.publicIp.toUInt32 = addr

/-- A message that is stored writes its address, and one that is cached starts its search in
the cache. -/
def Whole : Op → Prop
  | .ctMessage ct type cnt =>
    ((s.listener.tempRule ct type).isSome = true → s.WritesAddr ct) ∧
      ∀ p ∈ s.listener.parse ct, ct.opens type → s.listener.wanUp = false →
        SearchInCache s.listener.natInst p.1 cnt
  | _ => True

/-- The runs in which every message that is stored writes its address. -/
def wholeSystem : System TempRun Op := system.restrict Whole

end TempRun

/-! ## What an operation does to the list -/

variable {a a' : NatApp} {addrs : List UInt32} {ip : UInt32}

structure Cleared (temp temp' : List NatTableEntry) : Prop where
  length : temp'.length = temp.length
  slots : ∀ (i : Nat) e, temp'[i]? = some e → e = {} ∨ temp[i]? = some e

namespace Cleared

variable {temp temp' temp'' : List NatTableEntry}

theorem refl (temp : List NatTableEntry) : Cleared temp temp := ⟨rfl, fun _ _ h => .inr h⟩

theorem of_eq (h : temp' = temp) : Cleared temp temp' := h ▸ refl temp

theorem trans (h : Cleared temp temp') (h' : Cleared temp' temp'') : Cleared temp temp'' where
  length := h'.length.trans h.length
  slots i e he := by
    rcases h'.slots i e he with rfl | he
    · exact .inl rfl
    · exact h.slots i e he

theorem set (temp : List NatTableEntry) (cnt : Nat) : Cleared temp (temp.set cnt {}) where
  length := List.length_set
  slots i e he := by
    rw [List.getElem?_set] at he
    split_ifs at he
    · exact .inl (Option.some.inj he).symm
    · exact .inr he

theorem cons {e e' : NatTableEntry} (he : e' = {} ∨ e' = e) (h : Cleared temp temp') :
    Cleared (e :: temp) (e' :: temp') where
  length := congrArg Nat.succ h.length
  slots i x hx := by
    cases i with
    | zero =>
      obtain rfl := Option.some.inj hx
      exact he.imp_right fun heq => congrArg some heq.symm
    | succ i => exact h.slots i x hx

end Cleared

@[simp] theorem addTable_temp (pubIp : UInt32) : (a.addTable pubIp).2.temp = a.temp := by
  unfold NatApp.addTable
  split
  · rfl
  · simp only
    split
    · rfl
    · rfl

@[simp] theorem deleteTable_temp (pubIp : UInt32) : (a.deleteTable pubIp).2.temp = a.temp := by
  unfold NatApp.deleteTable
  split
  · rfl
  split
  · rfl
  split
  · rfl
  · rfl

@[simp] theorem deleteEntry_temp (rule : NatTableEntry) : (a.deleteEntry rule).temp = a.temp := by
  unfold NatApp.deleteEntry
  simp only
  split
  · rfl
  · rfl

theorem addEntry_keeps (rule : NatTableEntry) : (a.addEntry rule).2.temp = a.temp ∧
    (a.addEntry rule).2.pubIpAddr = a.pubIpAddr := by
  unfold NatApp.addEntry
  split
  · exact ⟨rfl, rfl⟩
  split
  · exact ⟨rfl, rfl⟩
  split
  · exact ⟨rfl, rfl⟩
  split
  · exact ⟨rfl, rfl⟩
  simp only
  split
  · exact ⟨rfl, rfl⟩
  split
  · exact ⟨rfl, rfl⟩
  split
  · exact ⟨rfl, rfl⟩
  · exact ⟨rfl, rfl⟩

@[simp] theorem updatePwrSaveIf_temp : (a.updatePwrSaveIf ip).2.temp = a.temp := by
  unfold NatApp.updatePwrSaveIf
  split
  · rfl
  split
  · rfl
  · rfl

@[simp] theorem resetPwrSaveIf_temp : (a.resetPwrSaveIf ip).2.temp = a.temp := by
  unfold NatApp.resetPwrSaveIf
  split
  · rfl
  · rfl

@[simp] theorem delEntriesOnClntDiscon_temp :
    (a.delEntriesOnClntDiscon ip).2.temp = a.temp := by
  unfold NatApp.delEntriesOnClntDiscon
  split
  · rfl
  · rfl

@[simp] theorem delEntriesOnSTAClntDiscon_temp :
    (a.delEntriesOnSTAClntDiscon ip).2.temp = a.temp := by
  unfold NatApp.delEntriesOnSTAClntDiscon
  split
  · rfl
  · rfl

theorem cacheEntry_temp {rule : NatTableEntry} {cnt : Int} (h : a.cacheEntry rule cnt = some a') :
    a'.temp = a.temp := by
  unfold NatApp.cacheEntry at h
  split at h
  · cases h
    rfl
  split at h
  · cases h
    rfl
  split at h
  · cases h
  simp only at h
  split at h
  · cases h
    rfl
  · cases h
    rfl

theorem flushTempLoop_cleared (isAdd : Bool) (es : List NatTableEntry) (a : NatApp) :
    Cleared es (NatApp.flushTempLoop ip isAdd es a).1 := by
  induction es generalizing a with
  | nil => exact .refl []
  | cons e es ih =>
    refine .cons ?_ (ih _)
    grind [NatApp.flushTempSlot]

theorem flushTempEntries_cleared (isAdd : Bool) :
    Cleared a.temp (a.flushTempEntries ip isAdd).temp :=
  flushTempLoop_cleared isAdd a.temp a

/-! ## `FlushTempEntries` -/

theorem isFree_findIdx : a.maxEntries ≠ a.cache.findIdx NatTableEntry.isFree ↔
    ∃ e ∈ a.cache, e.isFree = true := by
  grind [NatApp.maxEntries]

theorem addEntry_eq_zero_iff {rule : NatTableEntry} :
    (a.addEntry rule).1 = 0 ↔ a.Takes rule := by
  have hfails : (-1 : Int) ≠ 0 := by decide
  unfold NatApp.addEntry
  split
  · rename_i htbl
    exact ⟨fun h => absurd h hfails, fun h => absurd htbl h.1⟩
  rename_i htbl
  split
  · rename_i halg
    exact ⟨fun h => absurd h hfails, fun h => absurd halg h.2.1⟩
  rename_i halg
  split
  · rename_i hinvalid
    exact ⟨fun _ => ⟨htbl, halg, .inl hinvalid⟩, fun _ => rfl⟩
  rename_i hvalid
  split
  · rename_i hdup
    refine ⟨fun h => absurd h hfails, fun h => ?_⟩
    have hnot := (h.2.2.resolve_left hvalid).1
    rw [hdup] at hnot
    cases hnot
  rename_i hdup
  simp only
  split
  · rename_i hfull
    refine ⟨fun h => absurd h hfails, fun h => ?_⟩
    exact absurd hfull (isFree_findIdx.mpr (h.2.2.resolve_left hvalid).2.1)
  rename_i hroom
  have hfree := isFree_findIdx.mp hroom
  split
  · rename_i hpwr
    refine ⟨fun _ => ⟨htbl, halg, .inr ⟨by simpa using hdup, hfree, ?_⟩⟩, fun _ => rfl⟩
    exact hpwr.imp_right .inl
  · rename_i hawake
    split
    · rename_i driver hadd
      refine ⟨fun h => absurd h hfails, fun h => ?_⟩
      have hends := (h.2.2.resolve_left hvalid).2.2
      simp_all
    · rename_i hdl driver hadd
      refine ⟨fun _ => ⟨htbl, halg, .inr ⟨by simpa using hdup, hfree, ?_⟩⟩, fun _ => rfl⟩
      rw [hadd]
      exact .inr (.inr rfl)

section Flush

variable {z : List (NatTableEntry × UInt32)}

theorem NatTableEntry.OfClient.ne_free {e : NatTableEntry} (hip : ip ≠ 0) (h : e.OfClient ip) :
    e ≠ {} := by
  rintro rfl
  exact hip (h.elim Eq.symm Eq.symm)

theorem flushTempSlot_match {e : NatTableEntry} (hof : e.OfClient ip)
    (hpub : e.publicIp.toUInt32 = a.pubIpAddr) :
    a.flushTempSlot ip true e = (if (a.addEntry e).1 ≠ 0 then e else {}, (a.addEntry e).2) := by
  show (if e.OfClient ip then _ else _) = _
  rw [if_pos hof, if_pos ⟨rfl, hpub⟩]
  simp only
  split
  · rfl
  · rfl

theorem flushTempSlot_other {e : NatTableEntry} (hof : e.OfClient ip)
    (hpub : e.publicIp.toUInt32 ≠ a.pubIpAddr) : a.flushTempSlot ip true e = ({}, a) := by
  show (if e.OfClient ip then _ else _) = _
  rw [if_pos hof, if_neg fun h => hpub h.2]

theorem flushTempLoop_cons {e e' : NatTableEntry} {es : List NatTableEntry}
    (h : a.flushTempSlot ip true e = (e', a')) :
    NatApp.flushTempLoop ip true (e :: es) a =
      (e' :: (NatApp.flushTempLoop ip true es a').1,
        (NatApp.flushTempLoop ip true es a').2) := by
  show (_, _) = _
  rw [h]

open NatApp (handedSlots keptSlots)

theorem flushTempLoop_eq (hip : ip ≠ 0) (z : List (NatTableEntry × UInt32)) (a : NatApp)
    (hfull : ∀ p ∈ z, p.1.OfClient ip → p.1.publicIp.toUInt32 = p.2) :
    (NatApp.flushTempLoop ip true (z.map Prod.fst) a).2 =
        a.addEntries (handedSlots a.pubIpAddr ip z) ∧
      ((NatApp.flushTempLoop ip true (z.map Prod.fst) a).1 = keptSlots a.pubIpAddr ip z ↔
        (∀ p ∈ z, p.1.OfClient ip → p.2 = a.pubIpAddr) ∧
          a.TakesAll (handedSlots a.pubIpAddr ip z)) := by
  induction z generalizing a with
  | nil => exact ⟨rfl, by simp [NatApp.flushTempLoop, keptSlots, handedSlots, NatApp.TakesAll]⟩
  | cons p z ih =>
    have hrest : ∀ q ∈ z, q.1.OfClient ip → q.1.publicIp.toUInt32 = q.2 :=
      fun q hq => hfull q (List.mem_cons_of_mem p hq)
    rw [List.forall_mem_cons, List.map_cons]
    by_cases hof : p.1.OfClient ip
    · have haddr := hfull p List.mem_cons_self hof
      by_cases hpub : p.2 = a.pubIpAddr
      · -- the connection is handed over
        have hhanded : NatApp.Handed a.pubIpAddr ip p := ⟨hof, hpub⟩
        have hslot := flushTempSlot_match hof (haddr.trans hpub)
        have hkept : keptSlots a.pubIpAddr ip (p :: z) = {} :: keptSlots a.pubIpAddr ip z :=
          congrArg (· :: keptSlots a.pubIpAddr ip z) (if_pos hhanded)
        have hgiven : handedSlots a.pubIpAddr ip (p :: z) =
            p.1 :: handedSlots a.pubIpAddr ip z := by
          simp [handedSlots, hhanded]
        obtain ⟨happ, htemp⟩ := ih (a.addEntry p.1).2 hrest
        rw [(addEntry_keeps p.1).2] at happ htemp
        rw [flushTempLoop_cons hslot, hkept, hgiven]
        refine ⟨happ, ?_⟩
        rw [List.cons_eq_cons, htemp]
        have hcleared : (if (a.addEntry p.1).1 ≠ 0 then p.1 else {}) = {} ↔ a.Takes p.1 := by
          simp [addEntry_eq_zero_iff, hof.ne_free, hip]
        rw [hcleared]
        constructor
        · rintro ⟨htakes, hnone, hall⟩
          exact ⟨⟨fun _ => hpub, hnone⟩, htakes, hall⟩
        · rintro ⟨⟨-, hnone⟩, htakes, hall⟩
          exact ⟨htakes, hnone, hall⟩
      · -- from another WAN address: it is cleared
        have hnot : ¬ NatApp.Handed a.pubIpAddr ip p := fun h => hpub h.2
        have hslot := flushTempSlot_other hof fun h => hpub (haddr.symm.trans h)
        have hkept : keptSlots a.pubIpAddr ip (p :: z) = p.1 :: keptSlots a.pubIpAddr ip z :=
          congrArg (· :: keptSlots a.pubIpAddr ip z) (if_neg hnot)
        have hgiven : handedSlots a.pubIpAddr ip (p :: z) = handedSlots a.pubIpAddr ip z := by
          simp [handedSlots, hnot]
        rw [flushTempLoop_cons hslot, hkept, hgiven]
        refine ⟨(ih a hrest).1, ?_⟩
        constructor
        · intro heq
          exact absurd (List.cons_eq_cons.mp heq).1.symm (hof.ne_free hip)
        simp [hof, hpub]
    · -- not of the client: it stays
      have hnot : ¬ NatApp.Handed a.pubIpAddr ip p := fun h => hof h.1
      have hslot : a.flushTempSlot ip true p.1 = (p.1, a) := if_neg hof
      have hkept : keptSlots a.pubIpAddr ip (p :: z) = p.1 :: keptSlots a.pubIpAddr ip z :=
        congrArg (· :: keptSlots a.pubIpAddr ip z) (if_neg hnot)
      have hgiven : handedSlots a.pubIpAddr ip (p :: z) = handedSlots a.pubIpAddr ip z := by
        simp [handedSlots, hnot]
      obtain ⟨happ, htemp⟩ := ih a hrest
      rw [flushTempLoop_cons hslot, hkept, hgiven]
      simp [happ, htemp, hof]

theorem setTemp_inj {temp temp' : List NatTableEntry} :
    ({ a with temp := temp } : NatApp) = { a with temp := temp' } ↔ temp = temp' :=
  ⟨fun h => congrArg NatApp.temp h, fun h => h ▸ rfl⟩

theorem flushRight_iff (hip : ip ≠ 0) (hlen : addrs.length = a.temp.length)
    (hfull : ∀ p ∈ a.temp.zip addrs, p.1.OfClient ip → p.1.publicIp.toUInt32 = p.2) :
    a.FlushRight addrs ip ↔ a.NoneStale addrs ip ∧ a.TakesAll (a.handedEntries addrs ip) := by
  have hfst : (a.temp.zip addrs).map Prod.fst = a.temp :=
    List.map_fst_zip (Nat.le_of_eq hlen.symm)
  obtain ⟨happ, htemp⟩ := flushTempLoop_eq hip (a.temp.zip addrs) a hfull
  rw [hfst] at happ htemp
  have hstate : a.flushTempEntries ip true = { a.addEntries (a.handedEntries addrs ip) with
      temp := (NatApp.flushTempLoop ip true a.temp a).1 } := by
    show { (NatApp.flushTempLoop ip true a.temp a).2 with
      temp := (NatApp.flushTempLoop ip true a.temp a).1 } = _
    rw [happ]
    rfl
  rw [NatApp.FlushRight, hstate]
  exact setTemp_inj.trans htemp

end Flush

/-! ## A message -/

section Message

variable {l l' : ConntrackListener} {ct : NfConntrack} {type : MsgType} {cnt : Int}
  {rule rule' : NatTableEntry}

theorem processCTMessage_of_tempRule (h : l.tempRule ct type = some rule) :
    l.processCTMessage ct type cnt = some { l with natInst := l.natInst.addTempEntry rule } := by
  unfold ConntrackListener.tempRule at h
  split at h
  · rename_i hguard
    obtain ⟨hproto, hopens, hup⟩ := hguard
    have hnot : ¬ (ipprotoUdp ≠ ct.origL4proto ∧ ipprotoTcp ≠ ct.origL4proto) := fun hno =>
      hproto.elim hno.1 hno.2
    split at h
    · simp_all [ConntrackListener.processCTMessage, ConntrackListener.processTCPorUDPMsg]
    · cases h
  · cases h

theorem processCTMessage_of_not_tempRule (h : l.tempRule ct type = none)
    (hrun : l.processCTMessage ct type cnt = some l') :
    Cleared l.natInst.temp l'.natInst.temp ∧ l'.wanUp = l.wanUp ∧ l'.wanIpaddr = l.wanIpaddr := by
  unfold ConntrackListener.processCTMessage at hrun
  split at hrun
  · cases hrun
    exact ⟨.refl _, rfl, rfl⟩
  rename_i hproto
  have hproto' : ipprotoUdp = ct.origL4proto ∨ ipprotoTcp = ct.origL4proto := by
    by_contra hno
    exact hproto (not_or.mp hno)
  unfold ConntrackListener.processTCPorUDPMsg at hrun
  split at hrun
  · cases hrun
    exact ⟨.refl _, rfl, rfl⟩
  rename_i rule isTempEntry hparse
  split at hrun
  · rename_i hopens
    split at hrun
    · obtain ⟨a', ha', rfl⟩ := Option.map_eq_some_iff.mp hrun
      exact ⟨.of_eq (cacheEntry_temp ha'), rfl, rfl⟩
    rename_i hup
    split at hrun
    · -- such a message would have been stored
      simp_all [ConntrackListener.tempRule]
    · cases hrun
      exact ⟨.of_eq (addEntry_keeps rule).1, rfl, rfl⟩
  split at hrun
  · split at hrun
    · cases hrun
      exact ⟨.set _ _, rfl, rfl⟩
    · cases hrun
      exact ⟨.of_eq (deleteEntry_temp rule), rfl, rfl⟩
  · cases hrun
    exact ⟨.refl _, rfl, rfl⟩

theorem select_temp (h : l.select rule = some (rule', true)) : rule' = rule := by
  unfold ConntrackListener.select at h
  grind

theorem tempRule_tuple (h : l.tempRule ct type = some rule) :
    ∃ side, l.natSide ct = some (side, rule.publicIp) ∧ rule = ct.tuple rule.publicIp side := by
  unfold ConntrackListener.tempRule at h
  split at h
  · split at h
    · rename_i hparse
      cases h
      obtain ⟨⟨side, publicIp⟩, hside, hrest⟩ := Option.bind_eq_some_iff.mp hparse
      obtain ⟨⟨rule', isTempEntry⟩, hselect, hlast⟩ := Option.bind_eq_some_iff.mp hrest
      simp only at hlast
      split at hlast
      · cases hlast
      · cases hlast
        obtain rfl := select_temp hselect
        cases side
        · exact ⟨.dstNat, hside, rfl⟩
        · exact ⟨.srcNat, hside, rfl⟩
    · cases h
  · cases h

theorem toUInt16_toUInt32_eq_iff {addr : UInt32} :
    addr.toUInt16.toUInt32 = addr ↔ addr < 0x10000 := by
  rw [← UInt32.toNat_inj, UInt32.lt_iff_toNat_lt, UInt16.toNat_toUInt32, UInt32.toNat_toUInt16]
  simp

theorem natSide_publicIp {side : NatSide} {publicIp : UInt16} (hwan : l.wanIpaddr ≠ 0)
    (h : l.natSide ct = some (side, publicIp)) : publicIp.toUInt32 = l.wanIpaddr ↔
      ct.status &&& ipsDstNat = 0 ∧ ct.status &&& ipsSrcNat = 0 ∧ l.wanIpaddr < 0x10000 := by
  unfold ConntrackListener.natSide at h
  split at h
  · rename_i hflag
    cases h
    exact ⟨fun h0 => absurd h0.symm hwan, fun hno => absurd hno.1 hflag⟩
  rename_i hdst
  split at h
  · rename_i hflag
    cases h
    exact ⟨fun h0 => absurd h0.symm hwan, fun hno => absurd hno.2.1 hflag⟩
  rename_i hsrc
  have hwritten : l.wanIpaddr.toUInt16.toUInt32 = l.wanIpaddr ↔
      ct.status &&& ipsDstNat = 0 ∧ ct.status &&& ipsSrcNat = 0 ∧ l.wanIpaddr < 0x10000 := by
    rw [toUInt16_toUInt32_eq_iff]
    exact ⟨fun hlt => ⟨not_not.mp hdst, not_not.mp hsrc, hlt⟩, fun h => h.2.2⟩
  grind

end Message

/-! ## The invariant -/

namespace TempRun

variable {s s' : TempRun} {op : Op}

structure Inv (s : TempRun) : Prop where
  length : s.addrs.length = s.listener.natInst.temp.length
  stored : s.StoredWhole
  wan : s.listener.wanUp = true → s.listener.wanIpaddr ≠ 0

theorem Inv.cleared {l : ConntrackListener} (h : s.Inv)
    (hc : Cleared s.listener.natInst.temp l.natInst.temp)
    (hwan : l.wanUp = true → l.wanIpaddr ≠ 0) : Inv { s with listener := l } where
  length := h.length.trans hc.length.symm
  stored i e addr he haddr hpending := by
    rcases hc.slots i e he with rfl | he
    · exact absurd ⟨rfl, rfl⟩ hpending
    · exact h.stored i e addr he haddr hpending
  wan := hwan

theorem wanUp_of_tempRule {ct : NfConntrack} {type : MsgType} {rule : NatTableEntry}
    (h : s.listener.tempRule ct type = some rule) : s.listener.wanUp = true := by
  simp_all [ConntrackListener.tempRule]

theorem Inv.publicIp_iff (h : s.Inv) {ct : NfConntrack} {type : MsgType} {rule : NatTableEntry}
    (hrule : s.listener.tempRule ct type = some rule) :
    rule.publicIp.toUInt32 = s.listener.wanIpaddr ↔ s.WritesAddr ct := by
  obtain ⟨side, hside, -⟩ := tempRule_tuple hrule
  exact natSide_publicIp (h.wan (wanUp_of_tempRule hrule)) hside

theorem Inv.stores (h : s.Inv) (slot : Nat) {rule : NatTableEntry}
    (hpub : rule.publicIp.toUInt32 = s.listener.wanIpaddr) :
    Inv { s with
      listener.natInst.temp := s.listener.natInst.temp.set slot rule
      addrs := s.addrs.set slot s.listener.wanIpaddr } where
  length := by
    simp [h.length]
  stored i e addr he haddr hpending := by
    rw [List.getElem?_set] at he haddr
    by_cases heq : slot = i
    · simp_all
    · rw [if_neg heq] at he haddr
      exact h.stored i e addr he haddr hpending
  wan := h.wan

theorem Inv.ctMessage (h : s.Inv) {ct : NfConntrack} {type : MsgType} {cnt : Int}
    (hok : s.Whole (.ctMessage ct type cnt)) (hexec : s.exec (.ctMessage ct type cnt) = some s') :
    s'.Inv := by
  obtain ⟨l', hl', rfl⟩ := Option.map_eq_some_iff.mp hexec
  unfold addrsAfter
  split
  · rename_i hnone
    obtain ⟨hc, hup, haddr⟩ := processCTMessage_of_not_tempRule hnone hl'
    refine h.cleared hc ?_
    rw [hup, haddr]
    exact h.wan
  · rename_i rule hrule
    rw [processCTMessage_of_tempRule hrule] at hl'
    cases hl'
    have hpub := (h.publicIp_iff hrule).mpr (hok.1 (by simp [hrule]))
    exact h.stores s.listener.natInst.tempSlot hpub

theorem Inv.exec (h : s.Inv) (hok : s.Whole op) (hexec : s.exec op = some s') : s'.Inv := by
  cases op with
  | ctMessage ct type cnt => exact h.ctMessage hok hexec
  | wanUp ipv4Addr isSta =>
    cases hexec
    unfold ConntrackListener.handleWanUp
    split
    · exact h
    split
    · exact h
    · rename_i haddr
      exact h.cleared (.of_eq (addTable_temp ipv4Addr)) fun _ => haddr
  | wanDown ipv4Addr =>
    cases hexec
    unfold ConntrackListener.handleWanDown
    split
    · exact h.cleared (.of_eq (deleteTable_temp ipv4Addr)) nofun
    · exact h
  | neighIpAddrAdd ipv4Addr isNatIface =>
    cases hexec
    unfold ConntrackListener.handleNeighIpAddrAddEvt
    simp only
    split
    · exact h
    split
    · split
      · exact h
      · refine h.cleared (.trans (.of_eq ?_) (flushTempEntries_cleared true)) h.wan
        exact resetPwrSaveIf_temp
    · split
      · exact h.cleared (flushTempEntries_cleared false) h.wan
      · exact h
  | neighIpAddrDel ipv4Addr =>
    cases hexec
    unfold ConntrackListener.handleNeighIpAddrDelEvt
    split
    · exact h
    · have hflush : Cleared s.listener.natInst.temp
          (s.listener.natInst.flushTempEntries ipv4Addr false).temp :=
        flushTempEntries_cleared false
      exact h.cleared (hflush.trans (.of_eq delEntriesOnClntDiscon_temp)) h.wan
  | staClientAdd clntIpAddr =>
    cases hexec
    unfold ConntrackListener.handleSTAClientAddEvt
    split
    · exact h
    simp only
    split
    · exact h.cleared (.refl _) h.wan
    · exact h
  | staClientDel clntIpAddr =>
    cases hexec
    unfold ConntrackListener.handleSTAClientDelEvt
    simp only
    split
    · exact h.cleared (.of_eq delEntriesOnSTAClntDiscon_temp) h.wan
    · exact h
  | updatePwrSaveIf clientLanIp =>
    cases hexec
    exact h.cleared (.of_eq updatePwrSaveIf_temp) h.wan
  | resetPwrSaveIf clientLanIp =>
    cases hexec
    exact h.cleared (.of_eq resetPwrSaveIf_temp) h.wan
  | config privateSubnetTable =>
    cases hexec
    exact h.cleared (.refl _) h.wan

theorem exec_ne_none (hok : s.Whole op) : s.exec op ≠ none := by
  cases op with
  | ctMessage ct type cnt =>
    intro hnone
    have hnone : s.listener.processCTMessage ct type cnt = none := Option.map_eq_none_iff.mp hnone
    unfold ConntrackListener.processCTMessage at hnone
    split at hnone
    · cases hnone
    unfold ConntrackListener.processTCPorUDPMsg at hnone
    split at hnone
    · cases hnone
    rename_i rule isTempEntry hparse
    split at hnone
    · rename_i hopens
      split at hnone
      · rename_i hdown
        exact cacheEntry_ne_none (hok.2 _ hparse hopens hdown) (Option.map_eq_none_iff.mp hnone)
      split at hnone
      · cases hnone
      · cases hnone
    split at hnone
    · split at hnone
      · cases hnone
      · cases hnone
    · cases hnone
  | _ => nofun

theorem inv_invariant : wholeSystem.Invariant Inv := by
  apply System.Invariant.of_restrict
  · rintro s ⟨hinit, haddrs⟩
    refine ⟨?_, ?_, ?_⟩
    · rw [haddrs, hinit.natInst.temp, List.length_replicate, List.length_replicate]
    · intro i e addr he haddr hpending
      rw [hinit.natInst.temp] at he
      obtain rfl := List.eq_of_mem_replicate (List.mem_of_getElem? he)
      exact absurd ⟨rfl, rfl⟩ hpending
    simp [hinit.wanUp]
  · rintro s op s' h hok (hexec | hnone)
    · exact h.exec hok hexec
    · exact absurd hnone (exec_ne_none hok)

theorem Inv.full_of_client (h : s.Inv) {ip : UInt32} (hip : ip ≠ 0)
    {p : NatTableEntry × UInt32} (hp : p ∈ s.listener.natInst.temp.zip s.addrs)
    (hof : p.1.OfClient ip) : p.1.publicIp.toUInt32 = p.2 := by
  obtain ⟨i, hi⟩ := List.mem_iff_getElem?.mp hp
  obtain ⟨he, haddr⟩ := List.getElem?_zip_eq_some.mp hi
  refine h.stored i p.1 p.2 he haddr ?_
  rintro ⟨hprivate, htarget⟩
  exact hip (hof.elim (fun hclient => hclient.symm.trans hprivate)
    fun hclient => hclient.symm.trans htarget)

theorem Inv.storesConn_iff (h : s.Inv) {ct : NfConntrack} {type : MsgType} {rule : NatTableEntry}
    (hrule : s.listener.tempRule ct type = some rule)
    (hroom : ∃ e ∈ s.listener.natInst.temp, ¬ e.Pending) :
    s.StoresConn ct type ↔ s.WritesAddr ct := by
  rw [← h.publicIp_iff hrule]
  constructor
  · rintro ⟨e, side, -, hpub, hrun⟩
    have hslot : s.listener.natInst.tempSlot < s.listener.natInst.temp.length := by
      obtain ⟨free, hmem, hfree⟩ := hroom
      exact List.findIdx_lt_length_of_exists ⟨free, hmem, decide_eq_true (not_not.mp hfree)⟩
    have hsame := (hrun 0).symm.trans (processCTMessage_of_tempRule hrule)
    have htemp : s.listener.natInst.temp.set s.listener.natInst.tempSlot e =
        s.listener.natInst.temp.set s.listener.natInst.tempSlot rule :=
      congrArg (fun l : ConntrackListener => l.natInst.temp) (Option.some.inj hsame)
    grind [List.getElem?_set_self]
  · intro hpub
    obtain ⟨side, -, htuple⟩ := tempRule_tuple hrule
    exact ⟨rule, side, htuple, hpub, fun cnt => processCTMessage_of_tempRule hrule⟩

/-- In the runs in which every message that is stored writes its address, every connection that
waits has its address; the next one is stored with its tuple and its address exactly if it writes
the address; and `FlushTempEntries` hands over exactly the connections of the client, if none is
from another WAN address and `AddEntry` takes each of them, and only then. -/
theorem tempEntries_of_reachable (h : wholeSystem.Reachable s) :
    s.StoredWhole ∧
      (∀ ct type, (s.listener.tempRule ct type).isSome = true →
        (∃ e ∈ s.listener.natInst.temp, ¬ e.Pending) →
        (s.StoresConn ct type ↔ s.WritesAddr ct)) ∧
      ∀ ip, ip ≠ 0 → (s.listener.natInst.FlushRight s.addrs ip ↔
        s.listener.natInst.NoneStale s.addrs ip ∧
          s.listener.natInst.TakesAll (s.listener.natInst.handedEntries s.addrs ip)) := by
  have hinv := inv_invariant.reachable h
  refine ⟨hinv.stored, fun ct type hsome hroom => ?_, fun ip hip => ?_⟩
  · obtain ⟨rule, hrule⟩ := Option.isSome_iff_exists.mp hsome
    exact hinv.storesConn_iff hrule hroom
  · exact flushRight_iff hip hinv.length fun p hp => hinv.full_of_client hip hp

/-! ## Computed runs -/

instance (a : NatApp) (rule : NatTableEntry) : Decidable (a.Takes rule) :=
  inferInstanceAs (Decidable (_ ∧ ¬ (_ ∨ _) ∧
    (_ ∨ _ ∧ (∃ e ∈ a.cache, NatTableEntry.isFree e = true) ∧ (_ ∨ _ ∨ _))))

instance decidableTakesAll : (es : List NatTableEntry) → (a : NatApp) → Decidable (a.TakesAll es)
  | [], _ => .isTrue trivial
  | e :: es, a =>
    have := decidableTakesAll es (a.addEntry e).2
    inferInstanceAs (Decidable (a.Takes e ∧ _))

instance (a : NatApp) (addrs : List UInt32) (ip : UInt32) : Decidable (a.NoneStale addrs ip) :=
  inferInstanceAs (Decidable (∀ p ∈ a.temp.zip addrs, _ → _))

instance (s : TempRun) (ct : NfConntrack) : Decidable (s.WritesAddr ct) :=
  inferInstanceAs (Decidable (_ ∧ _ ∧ _))

instance (a : NatApp) (rule : NatTableEntry) (cnt : Int) : Decidable (SearchInCache a rule cnt) :=
  inferInstanceAs (Decidable (_ → _ → _ ∧ _))

instance (s : TempRun) : (op : Op) → Decidable (s.Whole op)
  | .ctMessage ct _ cnt => inferInstanceAs (Decidable
      ((_ → _) ∧ ∀ p ∈ s.listener.parse ct, _ → _ → SearchInCache s.listener.natInst p.1 cnt))
  | .wanUp _ _ => .isTrue trivial
  | .wanDown _ => .isTrue trivial
  | .neighIpAddrAdd _ _ => .isTrue trivial
  | .neighIpAddrDel _ => .isTrue trivial
  | .staClientAdd _ => .isTrue trivial
  | .staClientDel _ => .isTrue trivial
  | .updatePwrSaveIf _ => .isTrue trivial
  | .resetPwrSaveIf _ => .isTrue trivial
  | .config _ => .isTrue trivial

def follow (ok : TempRun → Op → Prop) [∀ s op, Decidable (ok s op)] (s : TempRun)
    (ops : List Op) : Option TempRun :=
  ops.foldlM (fun s op => if ok s op then s.exec op else none) s

theorem reachable_follow {ok : TempRun → Op → Prop} [∀ s op, Decidable (ok s op)] (ops : List Op)
    (hs : (system.restrict ok).Reachable s) (h : follow ok s ops = some s') :
    (system.restrict ok).Reachable s' := by
  induction ops generalizing s with
  | nil =>
    cases h
    exact hs
  | cons op ops ih =>
    simp only [follow, List.foldlM_cons, Option.bind_eq_bind, Option.bind_eq_some_iff] at h
    obtain ⟨s₁, h₁, h⟩ := h
    split at h₁
    · rename_i hok
      exact ih (.step hs ⟨hok, .inl h₁⟩) h
    · cases h₁

/-- A new listener with one private subnet, 192.168.1.0. -/
def initialRun : TempRun where
  listener :=
    { natInst := initialApp
      wanUp := false
      wanIpaddr := 0
      isStaMode := false
      staClntCnt := 0
      natIfaceIpv4Addr := List.replicate maxNatIfaces 0
      nonnatIfaceIpv4Addr := List.replicate maxNatIfaces 0
      staClntIpv4Addr := List.replicate maxStaClntIfaces 0
      privateSubnetTable := [⟨0xC0A80100, 0xFFFFFF00⟩] }
  addrs := List.replicate maxTempEntries 0

theorem init_initialRun : system.init initialRun :=
  ⟨⟨initial_initialApp, rfl, rfl, rfl, rfl, rfl⟩, rfl⟩

def clientConn (status : UInt32) (host : UInt32) (wan : UInt32) : NfConntrack where
  status
  origL4proto := ipprotoTcp
  replL4proto := ipprotoTcp
  tcpState := tcpConntrackEstablished
  origIpv4Src := if status &&& ipsSrcNat ≠ 0 then 0xC0A80100 + host else 0x08080808
  origIpv4Dst := if status &&& ipsSrcNat ≠ 0 then 0x08080808 else wan
  origPortSrc := 4000
  origPortDst := 80
  replIpv4Src := if status &&& ipsSrcNat ≠ 0 then 0x08080808 else 0xC0A80100 + host
  replPortSrc := 80
  replPortDst := 4000

def twoClients : List Op :=
  [.wanUp 0xA05 false, .ctMessage (clientConn 0 5 0xA05) .update 0,
    .ctMessage (clientConn 0 6 0xA05) .update 0]

theorem tempEntries_of_reachable_twoClients :
    ∃ s, follow Whole initialRun twoClients = some s ∧
      (s.listener.natInst.temp.take 3).map NatTableEntry.privateIp =
        [0xC0A80105, 0xC0A80106, 0] ∧
      s.StoredWhole ∧ s.StoresConn (clientConn 0 7 0xA05) .update ∧
      s.listener.natInst.FlushRight s.addrs 0xC0A80105 := by
  have hrun : (follow Whole initialRun twoClients).any (fun s =>
      (s.listener.natInst.temp.take 3).map NatTableEntry.privateIp =
          [0xC0A80105, 0xC0A80106, 0] ∧
        (s.listener.tempRule (clientConn 0 7 0xA05) .update).isSome = true ∧
        (∃ e ∈ s.listener.natInst.temp, e.privateIp = 0 ∧ e.targetIp = 0) ∧
        s.WritesAddr (clientConn 0 7 0xA05) ∧
        s.listener.natInst.NoneStale s.addrs 0xC0A80105 ∧
        s.listener.natInst.TakesAll (s.listener.natInst.handedEntries s.addrs 0xC0A80105)) =
      true := by decide +kernel
  obtain ⟨s, hs, hcond⟩ := (Option.any_eq_true _ _).mp hrun
  obtain ⟨htemp, hrule, ⟨free, hmem, hfree⟩, hwrites, hstale, htakes⟩ := of_decide_eq_true hcond
  obtain ⟨hstored, hconn, hflush⟩ :=
    tempEntries_of_reachable (reachable_follow twoClients (.init init_initialRun) hs)
  exact ⟨s, hs, htemp, hstored, (hconn _ _ hrule ⟨free, hmem, not_not.mpr hfree⟩).mpr hwrites,
    (hflush 0xC0A80105 (by decide)).mpr ⟨hstale, htakes⟩⟩

/-- The connection of a client is translated by its own NAT, so that its flag is set. Its address
is not stored, and `FlushTempEntries` drops it. -/
theorem not_flushRight :
    ∃ s, system.Reachable s ∧ s.listener.natInst.handedEntries s.addrs 0xC0A80105 ≠ [] ∧
      s.listener.natInst.NoneStale s.addrs 0xC0A80105 ∧
      s.listener.natInst.TakesAll (s.listener.natInst.handedEntries s.addrs 0xC0A80105) ∧
      ¬ s.StoredWhole ∧ ¬ s.listener.natInst.FlushRight s.addrs 0xC0A80105 := by
  have hrun : (follow (fun _ _ => True) initialRun [.wanUp 0x0A010203 false,
      .ctMessage (clientConn ipsSrcNat 5 0x0A010203) .update 0]).any (fun s =>
        s.listener.natInst.handedEntries s.addrs 0xC0A80105 ≠ [] ∧
        s.listener.natInst.NoneStale s.addrs 0xC0A80105 ∧
        s.listener.natInst.TakesAll (s.listener.natInst.handedEntries s.addrs 0xC0A80105) ∧
        (s.listener.natInst.temp.head?.map fun e => (e.privateIp, e.publicIp)) =
          some (0xC0A80105, 0) ∧ s.addrs.head? = some 0x0A010203 ∧
        (s.listener.natInst.flushTempEntries 0xC0A80105 true).curCnt ≠
          (s.listener.natInst.flushWhole s.addrs 0xC0A80105).curCnt) = true := by decide +kernel
  obtain ⟨s, hs, hcond⟩ := (Option.any_eq_true _ _).mp hrun
  obtain ⟨hhanded, hstale, htakes, hfirst, haddr, hcnt⟩ := of_decide_eq_true hcond
  refine ⟨s, (reachable_follow _ (.init init_initialRun) hs).of_restrict, hhanded, hstale, htakes,
    fun hwhole => ?_, fun hright => hcnt (congrArg NatApp.curCnt hright)⟩
  obtain ⟨e, he, hfields⟩ := Option.map_eq_some_iff.mp hfirst
  rw [List.head?_eq_getElem?] at he haddr
  have hpub := hwhole 0 e 0x0A010203 he haddr fun hfree => by
    simp_all
  rw [(Prod.mk.inj hfields).2] at hpub
  cases hpub

end TempRun

end EtherDevice.Ipacm
