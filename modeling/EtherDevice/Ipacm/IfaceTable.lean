import Mathlib.Data.List.Basic
import Mathlib.Tactic.Common

/-!
# The interface table

`iface_ipa_index_query` maps a Linux interface index to a row of `iface_table`. The kernel is asked
for the name of an index that no row has, and a row of that name gets the index; an index without a
name, or with a name that no row has, gives -1. `IPACM_IfaceManager` uses the result before it
looks for -1.

`accesses` has the indices at which the callback that is running has used the table, log texts
included. What lies outside the table is `Env.outside`.
-/

namespace EtherDevice.Ipacm.IfaceTable

inductive IfaceCat
  | lanIf
  | wlanIf
  | wanIf
  | virtualIf
  | ethIf
  | embmsIf
  | oduIf
  | unknownIf
  deriving DecidableEq

structure Row where
  ifaceName : String
  ifCat : IfaceCat
  netlinkInterfaceIndex : Int
  deriving DecidableEq

/-- What a callback meets: the interface names that the kernel has, and the memory around the
table. -/
structure Env where
  ifname : Int → Option String
  outside : Int → Row

/-- `IPACM_Config`, as far as the interfaces go. -/
structure Cfg where
  ifaceTable : List Row
  ipaVirtualIfaceName : String
  ipacmOduEnable : Bool := false
  ipacmOduRouterMode : Bool := false
  accesses : List Int := []

namespace Cfg

variable (s : Cfg) (env : Env)

def InTable (idx : Int) : Prop := 0 ≤ idx ∧ idx < s.ifaceTable.length

instance (idx : Int) : Decidable (s.InTable idx) := inferInstanceAs (Decidable (_ ∧ _))

def ifaceIpaIndexQuery (interfaceIndex : Int) : Int × Cfg :=
  match s.ifaceTable.findIdx? fun row => row.netlinkInterfaceIndex = interfaceIndex with
  | some i => (i, s)
  | none =>
    match env.ifname interfaceIndex with
    | none => (-1, s)
    | some name =>
      match s.ifaceTable.findIdx? fun row => row.ifaceName = name with
      | none => (-1, s)
      | some i => (i, { s with ifaceTable := s.ifaceTable.modify i fun row =>
          { row with netlinkInterfaceIndex := interfaceIndex } })

/-- The interface is known, or can be mapped by its name. -/
def Known (interfaceIndex : Int) : Prop := 0 ≤ (s.ifaceIpaIndexQuery env interfaceIndex).1

instance (interfaceIndex : Int) : Decidable (s.Known env interfaceIndex) :=
  inferInstanceAs (Decidable (0 ≤ _))

def row (idx : Int) : Row :=
  if 0 ≤ idx then s.ifaceTable.getD idx.toNat (env.outside idx) else env.outside idx

def touch (idx : Int) : Cfg := { s with accesses := s.accesses ++ [idx] }

def setCat (idx : Int) (cat : IfaceCat) : Cfg :=
  { s.touch idx with ifaceTable :=
      if 0 ≤ idx then s.ifaceTable.modify idx.toNat fun row => { row with ifCat := cat }
      else s.ifaceTable }

def isBridge (idx : Int) : Prop := (s.row env idx).ifaceName = s.ipaVirtualIfaceName

instance (idx : Int) : Decidable (s.isBridge env idx) := inferInstanceAs (Decidable (_ = _))

end Cfg

inductive WanIfaceType
  | q6Wan
  | wlanWan
  | ecmWan
  deriving DecidableEq

structure IfacemgrData where
  ifIndex : Int
  ifType : WanIfaceType
  macAddr : Nat := 0

structure Instance where
  ipaIfIndex : Int
  ifCat : IfaceCat
  isStaMode : Option WanIfaceType := none
  macAddr : Option Nat := none
  deriving DecidableEq

structure Manager extends Cfg where
  instances : List Instance := []

namespace Manager

variable (s : Manager) (env : Env)

def registr (inst : Instance) : Manager := { s with instances := s.instances ++ [inst] }

def createIfaceInstance (param : IfacemgrData) : Manager :=
  let (idx, cfg) := s.ifaceIpaIndexQuery env param.ifIndex
  let s := { s with toCfg := cfg }
  if idx = -1 then s
  else
    -- `SearchInstance` logs the name
    let s := { s with toCfg := s.touch idx }
    if s.instances.any fun inst => inst.ipaIfIndex = idx then s
    else
      let cat := (s.row env idx).ifCat
      let s := { s with toCfg := s.touch idx }
      match cat with
      | .lanIf | .ethIf | .oduIf | .wlanIf => s.registr { ipaIfIndex := idx, ifCat := cat }
      | .wanIf =>
        if s.ipacmOduEnable = false ∨ s.ipacmOduRouterMode = true then
          s.registr {
            ipaIfIndex := idx
            ifCat := cat
            isStaMode := some param.ifType
            macAddr := if param.ifType = .wlanWan then some param.macAddr else none }
        else s
      | .embmsIf => s.registr { ipaIfIndex := idx, ifCat := cat, isStaMode := some param.ifType }
      | .virtualIf | .unknownIf => { s with toCfg := s.touch idx }

/-- The events of the manager that carry an interface. -/
inductive Event
  | linkUp (ifIndex : Int)
  | usbLinkUp (ifIndex : Int)
  | wlanApLinkUp (ifIndex : Int)
  | wlanStaLinkUp (ifIndex : Int) (macAddr : Nat)
  | wanEmbmsLinkUp (ifIndex : Int)

def Event.ifIndex : Event → Int
  | linkUp ifIndex | usbLinkUp ifIndex | wlanApLinkUp ifIndex | wlanStaLinkUp ifIndex _
  | wanEmbmsLinkUp ifIndex => ifIndex

def eventCallback (event : Event) : Manager :=
  let (idx, cfg) := s.ifaceIpaIndexQuery env event.ifIndex
  let s := { s with toCfg := cfg }
  let cat := (s.row env idx).ifCat
  match event with
  | .linkUp ifIndex =>
    let s := { s with toCfg := s.touch idx }
    if cat = .embmsIf then s
    else if cat = .wanIf then s.createIfaceInstance env { ifIndex, ifType := .q6Wan }
    else s
  | .usbLinkUp ifIndex =>
    let s := { s with toCfg := s.touch idx }
    if cat = .wanIf then s.createIfaceInstance env { ifIndex, ifType := .ecmWan }
    else s.createIfaceInstance env { ifIndex, ifType := .q6Wan }
  | .wlanApLinkUp ifIndex =>
    let s := { s with toCfg := s.touch idx }
    if cat = .unknownIf then
      Manager.createIfaceInstance { s with toCfg := s.setCat idx .wlanIf } env
        { ifIndex, ifType := .q6Wan }
    else s
  | .wlanStaLinkUp ifIndex macAddr =>
    let s := { s with toCfg := s.touch idx }
    if cat = .unknownIf then
      Manager.createIfaceInstance { s with toCfg := s.setCat idx .wanIf } env
        { ifIndex, ifType := .wlanWan, macAddr }
    else s
  | .wanEmbmsLinkUp ifIndex =>
    if s.ipacmOduEnable = true then
      let s := { s with toCfg := s.touch idx }
      if cat = .wanIf then
        Manager.createIfaceInstance { s with toCfg := s.setCat idx .embmsIf } env
          { ifIndex, ifType := .q6Wan }
      else s
    else s

end Manager

end EtherDevice.Ipacm.IfaceTable
