import EtherDevice.Ipacm.ClientTable
import EtherDevice.Lib.CountedArray
import Mathlib.Data.List.Induction
import Mathlib.Data.List.Nodup

/-!
# The names of the client headers

A client that attaches to a WLAN or Ethernet interface gets a header for each family of its TX
properties. The name of the header is put together from the number of the interface, a text of
the family, and a count of the clients attached so far, and both numbers go through a buffer
of two characters.

Next to the name, a header carries here what the name was made from.
-/

namespace EtherDevice.Ipacm.HeaderNames

open Lib
open ClientTable (Kind IpType ipaMaxNumWifiClients ipaMaxNumEthClients)

/-! ## Names -/

def snprintf (size n : Nat) : List Char := (Nat.toDigits 10 n).take (size - 1)

def strlcat (size : Nat) (dst src : List Char) : Nat × List Char :=
  (dst.length + src.length, (dst ++ src).take (size - 1))

def hdrName : Kind → IpType → List Char
  | .wlan, .v4 => "IEEE802_3_v4".toList
  | .wlan, .v6 => "IEEE802_3_v6".toList
  | .lan, .v4 => "IPACM_ETH_v4".toList
  | .lan, .v6 => "IPACM_ETH_v6".toList

def ifaceIndexLen : Nat := 2

structure Key where
  kind : Kind
  ip : IpType
  ipaIfNum : Nat
  headerNameCount : Nat
  deriving DecidableEq, Repr

/-- `IPA_RESOURCE_NAME_MAX`, a constant of the kernel. The longest name has 14 characters. -/
structure ResourceNameMax where
  size : Nat
  fits : 14 < size

def Key.name (max : ResourceNameMax) (key : Key) : Option (List Char) :=
  let name := (snprintf ifaceIndexLen key.ipaIfNum).take (max.size - 1)
  let (len, name) := strlcat max.size name (hdrName key.kind key.ip)
  if len > max.size then none
  else
    let (len, name) := strlcat max.size name (snprintf ifaceIndexLen key.headerNameCount)
    if len > max.size then none else some name

def leading (n : Nat) : List Char := (Nat.toDigits 10 n).take 1

def Key.SameDigits (key key' : Key) : Prop :=
  key.kind = key'.kind ∧ key.ip = key'.ip ∧ leading key.ipaIfNum = leading key'.ipaIfNum ∧
    leading key.headerNameCount = leading key'.headerNameCount

theorem length_leading (n : Nat) : (leading n).length = 1 := by
  have hpos := List.length_pos_iff.mpr (Nat.toDigits_ne_nil (n := n) (b := 10))
  rw [leading, List.length_take]
  omega

theorem length_hdrName (kind : Kind) (ip : IpType) : (hdrName kind ip).length = 12 := by
  cases kind <;> cases ip <;> decide

theorem hdrName_inj {kind kind' : Kind} {ip ip' : IpType}
    (h : hdrName kind ip = hdrName kind' ip') : kind = kind' ∧ ip = ip' := by
  cases kind <;> cases kind' <;> cases ip <;> cases ip' <;>
    first
    | exact ⟨rfl, rfl⟩
    | exact absurd h (by decide)

theorem Key.name_eq (max : ResourceNameMax) (key : Key) : key.name max =
    some (leading key.ipaIfNum ++ hdrName key.kind key.ip ++ leading key.headerNameCount) := by
  have hfits := max.fits
  have hif := length_leading key.ipaIfNum
  have hcount := length_leading key.headerNameCount
  have hname := length_hdrName key.kind key.ip
  unfold Key.name strlcat
  rw [show snprintf ifaceIndexLen key.ipaIfNum = leading key.ipaIfNum from rfl,
    show snprintf ifaceIndexLen key.headerNameCount = leading key.headerNameCount from rfl,
    List.take_of_length_le (by omega)]
  dsimp only
  rw [if_neg (by omega), List.take_of_length_le (by rw [List.length_append]; omega),
    if_neg (by rw [List.length_append]; omega),
    List.take_of_length_le (by rw [List.length_append, List.length_append]; omega)]

theorem Key.name_inj (max : ResourceNameMax) {key key' : Key} :
    key.name max = key'.name max ↔ key.SameDigits key' := by
  rw [Key.name_eq, Key.name_eq, Option.some_inj]
  constructor
  · intro h
    obtain ⟨hfront, hcount⟩ := List.append_inj' h (by rw [length_leading, length_leading])
    obtain ⟨hif, hname⟩ := List.append_inj hfront (by rw [length_leading, length_leading])
    obtain ⟨hkind, hip⟩ := hdrName_inj hname
    exact ⟨hkind, hip, hif, hcount⟩
  · rintro ⟨hkind, hip, hif, hcount⟩
    rw [hkind, hip, hif, hcount]

/-! ## The state -/

structure Header where
  handle : Nat
  name : Option (List Char)
  key : Key
  deriving DecidableEq, Repr

structure Row where
  mac : Nat := 0
  hdrHdl : IpType → Nat := fun _ => 0
  headerSet : IpType → Bool := fun _ => false

/-- An interface: its clients, and its TX properties if it has any. -/
structure Iface where
  kind : Kind
  txProp : Option (List IpType)
  headerNameCount : Nat := 0
  rows : Nat → Row := fun _ => {}
  num : Nat := 0

/-- The interfaces by their numbers, and the headers in the hardware. -/
structure State where
  iface : Nat → Iface
  totalNumWifiClients : Nat := 0
  headers : List Header := []

/-- What the driver answers for the header of one family: whether the partial header can be
copied, and the handle of the full one if it is added. -/
structure Answer where
  copied : Bool := true
  handle : Option Nat
  deriving DecidableEq, Repr

def Answer.Added (answer : Answer) : Prop := answer.copied = true ∧ answer.handle ≠ none

instance (answer : Answer) : Decidable answer.Added := by
  unfold Answer.Added
  infer_instance

namespace State

variable (max : ResourceNameMax) (s : State)

def setIface (i : Nat) (iface : Iface) : State :=
  { s with iface := Function.update s.iface i iface }

def setRow (i index : Nat) (row : Row) : State :=
  s.setIface i { s.iface i with rows := Function.update (s.iface i).rows index row }

def getClientIndex (i mac : Nat) : Option Nat :=
  firstBelow (·.mac == mac) (s.iface i).rows (s.iface i).num

/-! ## A client attaches -/

def newKey (i : Nat) (ip : IpType) : Key :=
  ⟨(s.iface i).kind, ip, i, (s.iface i).headerNameCount⟩

/-- The header of one family, if the interface has a TX property of it. `mac` is what the
attributes of a WLAN event hold. -/
def addHeader (i : Nat) (mac : Option Nat) (ip : IpType) (answer : Answer) : Bool × State :=
  if ip ∈ (s.iface i).txProp.getD [] then
    if answer.copied = false then (false, s)
    else
      let row := (s.iface i).rows (s.iface i).num
      let row := { row with mac := mac.getD row.mac }
      let name := (s.newKey i ip).name max
      match answer.handle with
      | none => (false, s.setRow i (s.iface i).num row)
      | some handle =>
        if name = none then (false, s.setRow i (s.iface i).num row)
        else
          (true, { s.setRow i (s.iface i).num { row with
              hdrHdl := Function.update row.hdrHdl ip handle
              headerSet := Function.update row.headerSet ip true } with
            headers := s.headers ++ [⟨handle, name, s.newKey i ip⟩] })
  else (true, s)

def addHeaders (i : Nat) (mac : Option Nat) (v4 v6 : Answer) : Bool × State :=
  match s.addHeader max i mac .v4 v4 with
  | (false, s) => (false, s)
  | (true, s) =>
    match s.addHeader max i mac .v6 v6 with
    | (false, s) => (false, s)
    | (true, s) =>
      (true, s.setIface i { s.iface i with
        num := (s.iface i).num + 1
        headerNameCount := (s.iface i).headerNameCount + 1 })

def handleWlanClientInitEx (i : Nat) (mac : Option Nat) (v4 v6 : Answer) : State :=
  if (s.iface i).num ≥ ipaMaxNumWifiClients ∨ s.totalNumWifiClients ≥ ipaMaxNumWifiClients then s
  else if (s.iface i).txProp = none then s
  else
    match s.addHeaders max i mac v4 v6 with
    | (false, s) => s
    | (true, s) => { s with totalNumWifiClients := s.totalNumWifiClients + 1 }

def handleEthHdrInit (i mac : Nat) (v4 v6 : Answer) : State :=
  if (s.getClientIndex i mac).isSome then s
  else if (s.iface i).num ≥ ipaMaxNumEthClients then s
  else
    let s := s.setRow i (s.iface i).num
      { (s.iface i).rows (s.iface i).num with mac := mac }
    if (s.iface i).txProp = none then s
    else (s.addHeaders max i (some mac) v4 v6).2

/-! ## A client detaches -/

def deleteHeader (i index : Nat) (ip : IpType) (deleted : Bool) : Bool × State :=
  let row := (s.iface i).rows index
  if row.headerSet ip then
    if deleted = false then (false, s)
    else
      (true,
        { s.setRow i index { row with headerSet := Function.update row.headerSet ip false } with
          headers := s.headers.filter (·.handle ≠ row.hdrHdl ip) })
  else (true, s)

def handleClientDownEvt (i mac : Nat) (v4 v6 : Bool) : State :=
  match s.getClientIndex i mac with
  | none => s
  | some index =>
    match s.deleteHeader i index .v4 v4 with
    | (false, s) => s
    | (true, s) =>
      match s.deleteHeader i index .v6 v6 with
      | (false, s) => s
      | (true, s) =>
        let iface := s.iface i
        let rows := Function.update iface.rows index
          { iface.rows index with headerSet := fun _ => false }
        let s := s.setIface i { iface with
          rows := moveDown (fun _ next => next) rows index (iface.num - 1 - index)
          num := iface.num - 1 }
        if iface.kind = .wlan then { s with totalNumWifiClients := s.totalNumWifiClients - 1 }
        else s

/-! ## Runs -/

inductive Op
  | attach (i : Nat) (mac : Option Nat) (v4 v6 : Answer)
  | detach (i mac : Nat) (v4 v6 : Bool)
  deriving DecidableEq, Repr

/-- An event is handled by the class of the interface. An Ethernet client has its address. -/
def exec : Op → State
  | .attach i mac v4 v6 =>
    match (s.iface i).kind with
    | .wlan => s.handleWlanClientInitEx max i mac v4 v6
    | .lan => s.handleEthHdrInit max i (mac.getD 0) v4 v6
  | .detach i mac v4 v6 => s.handleClientDownEvt i mac v4 v6

/-- The interfaces as they are registered: class and TX properties. -/
abbrev Setup := Nat → Kind × Option (List IpType)

def initial (setup : Setup) : State :=
  { iface := fun i => { kind := (setup i).1, txProp := (setup i).2 } }

def run (setup : Setup) (ops : List Op) : State := ops.foldl (exec max) (initial setup)

/-- No two headers in the hardware have one name. -/
def NamesDistinct : Prop := (s.headers.map (·.name)).Nodup

instance : Decidable s.NamesDistinct := by
  unfold NamesDistinct
  infer_instance

/-! ## What a step installs -/

def Accepts (i : Nat) (mac : Option Nat) : Prop :=
  match (s.iface i).kind with
  | .wlan => (s.iface i).num < ipaMaxNumWifiClients ∧ s.totalNumWifiClients < ipaMaxNumWifiClients
  | .lan => s.getClientIndex i (mac.getD 0) = none ∧ (s.iface i).num < ipaMaxNumEthClients

instance (i : Nat) (mac : Option Nat) : Decidable (s.Accepts i mac) := by
  unfold Accepts
  split <;> infer_instance

def HasTx (i : Nat) (ip : IpType) : Prop := ip ∈ (s.iface i).txProp.getD []

instance (i : Nat) (ip : IpType) : Decidable (s.HasTx i ip) := by
  unfold HasTx
  infer_instance

def newOf (i : Nat) (ip : IpType) (answer : Answer) : List Key :=
  if s.HasTx i ip ∧ answer.Added then [s.newKey i ip] else []

def newOfBoth (i : Nat) (v4 v6 : Answer) : List Key :=
  s.newOf i .v4 v4 ++ if s.HasTx i .v4 ∧ ¬ v4.Added then [] else s.newOf i .v6 v6

def new : Op → List Key
  | .attach i mac v4 v6 => if s.Accepts i mac then s.newOfBoth i v4 v6 else []
  | .detach _ _ _ _ => []

/-- No header in the hardware has the class, the family and the two first digits of one that is
added. -/
def DigitsFree (op : Op) : Prop :=
  ∀ key ∈ s.new op, ∀ header ∈ s.headers, ¬ key.SameDigits header.key

def Named (max : ResourceNameMax) (headers : List Header) : Prop :=
  ∀ header ∈ headers, header.name = header.key.name max

/-! ## Steps -/

def extend (i : Nat) (rows : Nat → Row) (headers : List Header) : State :=
  { s.setIface i { s.iface i with rows := rows } with headers := s.headers ++ headers }

variable {max s}

theorem extend_nil (s : State) (i : Nat) : s.extend i (s.iface i).rows [] = s := by
  simp [extend, setIface]

theorem iface_extend (s : State) (i : Nat) (rows : Nat → Row) (headers : List Header) :
    (s.extend i rows headers).iface i = { s.iface i with rows := rows } :=
  Function.update_self _ _ _

theorem setRow_eq_extend (s : State) (i index : Nat) (row : Row) :
    s.setRow i index row = s.extend i (Function.update (s.iface i).rows index row) [] := by
  unfold setRow extend setIface
  rw [List.append_nil]

theorem extend_extend (s : State) (i : Nat) (rows rows' : Nat → Row)
    (headers headers' : List Header) :
    (s.extend i rows headers).extend i rows' headers' = s.extend i rows' (headers ++ headers') := by
  simp [extend, setIface]

theorem newKey_extend (i : Nat) (rows : Nat → Row) (headers : List Header) (ip : IpType) :
    (s.extend i rows headers).newKey i ip = s.newKey i ip := by
  unfold newKey
  rw [iface_extend]

theorem hasTx_extend (i : Nat) (rows : Nat → Row) (headers : List Header) (ip : IpType) :
    (s.extend i rows headers).HasTx i ip ↔ s.HasTx i ip := by
  unfold HasTx
  rw [iface_extend]

theorem newOf_extend (i : Nat) (rows : Nat → Row) (headers : List Header) (ip : IpType)
    (answer : Answer) : (s.extend i rows headers).newOf i ip answer = s.newOf i ip answer := by
  unfold newOf
  rw [newKey_extend]
  simp only [hasTx_extend]

theorem named_nil : Named max [] := fun _ hmem => absurd hmem List.not_mem_nil

theorem name_ne_none (key : Key) : key.name max ≠ none := by
  rw [Key.name_eq]
  exact Option.some_ne_none _

theorem addHeader_eq (max : ResourceNameMax) (s : State) (i : Nat) (mac : Option Nat)
    (ip : IpType) (answer : Answer) :
    ∃ ok rows headers, s.addHeader max i mac ip answer = (ok, s.extend i rows headers) ∧
      (ok = false ↔ s.HasTx i ip ∧ ¬ answer.Added) ∧
      headers.map (·.key) = s.newOf i ip answer ∧ Named max headers := by
  unfold addHeader newOf
  by_cases htx : s.HasTx i ip
  · rw [if_pos (show ip ∈ _ from htx)]
    by_cases hcopied : answer.copied = false
    · have hnot : ¬ answer.Added := fun hadded => by simp [hadded.1] at hcopied
      refine ⟨false, (s.iface i).rows, [], ?_, iff_of_true rfl ⟨htx, hnot⟩, ?_, named_nil⟩
      · rw [if_pos hcopied, extend_nil]
      simp [hnot]
    · rw [if_neg hcopied]
      cases hhandle : answer.handle with
      | none =>
        have hnot : ¬ answer.Added := fun hadded => hadded.2 hhandle
        refine ⟨false, _, [], congrArg (Prod.mk false) (setRow_eq_extend _ _ _ _),
          iff_of_true rfl ⟨htx, hnot⟩, ?_, named_nil⟩
        simp [hnot]
      | some handle =>
        have hadded : answer.Added := ⟨by simpa using hcopied, by simp [hhandle]⟩
        dsimp only
        rw [if_neg (name_ne_none _)]
        refine ⟨true, _, [⟨handle, (s.newKey i ip).name max, s.newKey i ip⟩], rfl, by simp [hadded],
          ?_, ?_⟩
        · simp_all
        · intro other hmem
          rw [List.mem_singleton.mp hmem]
  · rw [if_neg (show ip ∉ _ from htx)]
    refine ⟨true, (s.iface i).rows, [], ?_, by simp [htx], ?_, named_nil⟩
    · rw [extend_nil]
    simp [htx]

def Adds (max : ResourceNameMax) (s s' : State) (keys : List Key) : Prop :=
  ∃ headers, s'.headers = s.headers ++ headers ∧ headers.map (·.key) = keys ∧ Named max headers

theorem adds_nil (s : State) : Adds max s s [] := ⟨[], (List.append_nil _).symm, rfl, named_nil⟩

theorem Adds.congr {s₁ s₂ s₁' s₂' : State} {keys : List Key} (h : Adds max s₁ s₁' keys)
    (hbefore : s₂.headers = s₁.headers) (hafter : s₂'.headers = s₁'.headers) :
    Adds max s₂ s₂' keys := by
  obtain ⟨headers, hheaders, hkeys, hnamed⟩ := h
  refine ⟨headers, ?_, hkeys, hnamed⟩
  rw [hafter, hbefore]
  exact hheaders

theorem named_append {headers headers' : List Header} (h : Named max headers)
    (h' : Named max headers') : Named max (headers ++ headers') := by
  intro header hmem
  rcases List.mem_append.mp hmem with hold | hnew
  · exact h header hold
  · exact h' header hnew

theorem adds_addHeaders (max : ResourceNameMax) (s : State) (i : Nat) (mac : Option Nat)
    (v4 v6 : Answer) :
    Adds max s (s.addHeaders max i mac v4 v6).2 (s.newOfBoth i v4 v6) := by
  unfold addHeaders newOfBoth
  obtain ⟨ok, rows, headers, hadd, hok, hkeys, hnamed⟩ := addHeader_eq max s i mac .v4 v4
  rw [hadd]
  cases ok with
  | false =>
    rw [if_pos (hok.mp rfl), List.append_nil]
    exact ⟨headers, rfl, hkeys, hnamed⟩
  | true =>
    rw [if_neg fun hfail => Bool.noConfusion (hok.mpr hfail)]
    obtain ⟨ok', rows', headers', hadd', -, hkeys', hnamed'⟩ :=
      addHeader_eq max (s.extend i rows headers) i mac .v6 v6
    rw [newOf_extend] at hkeys'
    have hboth : Adds max s ((s.extend i rows headers).extend i rows' headers')
        (s.newOf i .v4 v4 ++ s.newOf i .v6 v6) := by
      refine ⟨headers ++ headers', ?_, ?_, named_append hnamed hnamed'⟩
      · rw [extend_extend]
        rfl
      · rw [List.map_append, hkeys, hkeys']
    dsimp only
    rw [hadd']
    cases ok' with
    | false => exact hboth
    | true => exact hboth.congr rfl rfl

theorem newOfBoth_of_no_txProp {i : Nat} (hnone : (s.iface i).txProp = none) (v4 v6 : Answer) :
    s.newOfBoth i v4 v6 = [] := by
  have hno : ∀ ip, ¬ s.HasTx i ip := fun ip => by simp [HasTx, hnone]
  have hnew : ∀ ip answer, s.newOf i ip answer = [] := fun ip answer => if_neg fun h => hno ip h.1
  rw [newOfBoth, hnew, if_neg fun h => hno _ h.1, hnew, List.append_nil]

theorem newOfBoth_extend (i : Nat) (rows : Nat → Row) (headers : List Header) (v4 v6 : Answer) :
    (s.extend i rows headers).newOfBoth i v4 v6 = s.newOfBoth i v4 v6 := by
  simp [newOfBoth, newOf_extend, hasTx_extend]

theorem adds_handleWlanClientInitEx (s : State) (i : Nat) (mac : Option Nat) (v4 v6 : Answer) :
    Adds max s (s.handleWlanClientInitEx max i mac v4 v6)
      (if (s.iface i).num < ipaMaxNumWifiClients ∧ s.totalNumWifiClients < ipaMaxNumWifiClients then
        s.newOfBoth i v4 v6 else []) := by
  unfold handleWlanClientInitEx
  by_cases hroom : (s.iface i).num < ipaMaxNumWifiClients ∧
      s.totalNumWifiClients < ipaMaxNumWifiClients
  · have hnot : ¬ ((s.iface i).num ≥ ipaMaxNumWifiClients ∨
        s.totalNumWifiClients ≥ ipaMaxNumWifiClients) := by omega
    rw [if_neg hnot, if_pos hroom]
    by_cases hnone : (s.iface i).txProp = none
    · rw [if_pos hnone, newOfBoth_of_no_txProp hnone]
      exact adds_nil s
    rw [if_neg hnone]
    have hadds := adds_addHeaders max s i mac v4 v6
    cases hadd : s.addHeaders max i mac v4 v6 with
    | mk ok s' =>
      rw [hadd] at hadds
      cases ok with
      | false => exact hadds
      | true => exact hadds.congr rfl rfl
  · have hfull : (s.iface i).num ≥ ipaMaxNumWifiClients ∨
        s.totalNumWifiClients ≥ ipaMaxNumWifiClients := by omega
    rw [if_pos hfull, if_neg hroom]
    exact adds_nil s

theorem adds_handleEthHdrInit (s : State) (i mac : Nat) (v4 v6 : Answer) :
    Adds max s (s.handleEthHdrInit max i mac v4 v6)
      (if s.getClientIndex i mac = none ∧ (s.iface i).num < ipaMaxNumEthClients then
        s.newOfBoth i v4 v6 else []) := by
  unfold handleEthHdrInit
  cases hknown : s.getClientIndex i mac with
  | some index =>
    exact adds_nil s
  | none =>
    rw [if_neg (by exact Bool.false_ne_true)]
    by_cases hfull : (s.iface i).num ≥ ipaMaxNumEthClients
    · simp [if_neg, adds_nil, hfull]
    have hroom : (none : Option Nat) = none ∧ (s.iface i).num < ipaMaxNumEthClients :=
      ⟨rfl, Nat.lt_of_not_ge hfull⟩
    rw [if_neg hfull, if_pos hroom]
    rw [setRow_eq_extend]
    -- the address is stored first
    generalize Function.update (s.iface i).rows (s.iface i).num _ = rows
    have hstored : (s.extend i rows []).headers = s.headers := List.append_nil _
    rw [← newOfBoth_extend i rows [] v4 v6]
    by_cases hnone : ((s.extend i rows []).iface i).txProp = none
    · rw [if_pos hnone, newOfBoth_of_no_txProp hnone]
      exact (adds_nil s).congr rfl hstored
    · rw [if_neg hnone]
      exact (adds_addHeaders _ _ i (some mac) v4 v6).congr hstored.symm rfl

theorem adds_attach (max : ResourceNameMax) (s : State) (i : Nat) (mac : Option Nat)
    (v4 v6 : Answer) :
    Adds max s (s.exec max (.attach i mac v4 v6)) (s.new (.attach i mac v4 v6)) := by
  cases hkind : (s.iface i).kind with
  | wlan =>
    grind [Accepts, exec, new, adds_handleWlanClientInitEx]
  | lan =>
    grind [Accepts, exec, new, adds_handleEthHdrInit]

theorem headers_deleteHeader (s : State) (i index : Nat) (ip : IpType) (deleted : Bool) :
    (s.deleteHeader i index ip deleted).2.headers.Sublist s.headers := by
  unfold deleteHeader
  dsimp only
  split_ifs
  · exact List.Sublist.refl _
  · exact List.filter_sublist
  · exact List.Sublist.refl _

theorem headers_detach (s : State) (i mac : Nat) (v4 v6 : Bool) :
    (s.handleClientDownEvt i mac v4 v6).headers.Sublist s.headers := by
  unfold handleClientDownEvt
  cases s.getClientIndex i mac with
  | none => exact List.Sublist.refl _
  | some index =>
    have hfirst := headers_deleteHeader s i index .v4 v4
    dsimp only
    cases hdel : s.deleteHeader i index .v4 v4 with
    | mk ok s₁ =>
      rw [hdel] at hfirst
      cases ok with
      | false => exact hfirst
      | true =>
        have hsecond := headers_deleteHeader s₁ i index .v6 v6
        dsimp only
        cases hdel' : s₁.deleteHeader i index .v6 v6 with
        | mk ok' s₂ =>
          rw [hdel'] at hsecond
          cases ok' with
          | false => exact hsecond.trans hfirst
          | true =>
            dsimp only
            split_ifs
            · exact hsecond.trans hfirst
            · exact hsecond.trans hfirst

/-! ## Runs keep the names distinct -/

theorem newKey_ip_of_mem {i : Nat} {ip : IpType} {answer : Answer} {key : Key}
    (h : key ∈ s.newOf i ip answer) : key.ip = ip := by
  unfold newOf at h
  split_ifs at h
  · rw [List.mem_singleton.mp h]
    rfl
  · cases h

theorem nodup_ip_new (s : State) (op : Op) : ((s.new op).map (·.ip)).Nodup := by
  have hone : ∀ i ip answer, ((s.newOf i ip answer).map (·.ip)).Nodup := by
    intro i ip answer
    unfold newOf
    split_ifs
    · exact List.nodup_singleton _
    · exact List.nodup_nil
  cases op with
  | detach => exact List.nodup_nil
  | attach i mac v4 v6 =>
    grind [new, newOfBoth, newKey_ip_of_mem]

theorem named_exec (h : Named max s.headers) (op : Op) : Named max (s.exec max op).headers := by
  cases op with
  | attach i mac v4 v6 =>
    obtain ⟨headers, hheaders, -, hnamed⟩ := adds_attach max s i mac v4 v6
    rw [hheaders]
    exact named_append h hnamed
  | detach i mac v4 v6 =>
    exact fun header hmem => h header ((headers_detach s i mac v4 v6).subset hmem)

theorem namesDistinct_exec_iff (hnamed : Named max s.headers) (h : s.NamesDistinct) (op : Op) :
    (s.exec max op).NamesDistinct ↔ s.DigitsFree op := by
  cases op with
  | detach i mac v4 v6 =>
    refine iff_of_true ?_ fun key hkey => absurd hkey List.not_mem_nil
    exact h.sublist ((headers_detach s i mac v4 v6).map _)
  | attach i mac v4 v6 =>
    obtain ⟨headers, hheaders, hkeys, hnew⟩ := adds_attach max s i mac v4 v6
    have hips := nodup_ip_new s (.attach i mac v4 v6)
    rw [← hkeys, List.map_map] at hips
    have hnames : (headers.map (·.name)).Nodup := by
      refine List.Nodup.map_on (fun header hmem header' hmem' heq => ?_) (List.Nodup.of_map _ hips)
      rw [hnew header hmem, hnew header' hmem', Key.name_inj] at heq
      exact List.inj_on_of_nodup_map hips hmem hmem' heq.2.1
    unfold NamesDistinct DigitsFree
    rw [hheaders, List.map_append, List.nodup_append, ← hkeys]
    constructor
    · rintro ⟨-, -, hdisjoint⟩ key hkey old hold hsame
      obtain ⟨header, hmem, rfl⟩ := List.mem_map.mp hkey
      refine hdisjoint _ (List.mem_map_of_mem hold) _ (List.mem_map_of_mem hmem) ?_
      rw [hnamed old hold, hnew header hmem]
      exact ((Key.name_inj max).mpr hsame).symm
    · intro hfree
      refine ⟨h, hnames, fun name hname name' hname' heq => ?_⟩
      obtain ⟨old, hold, rfl⟩ := List.mem_map.mp hname
      obtain ⟨header, hmem, rfl⟩ := List.mem_map.mp hname'
      refine hfree _ (List.mem_map_of_mem hmem) old hold ((Key.name_inj max).mp ?_)
      rw [← hnamed old hold, ← hnew header hmem]
      exact heq.symm

theorem run_append (max : ResourceNameMax) (setup : Setup) (ops : List Op) (op : Op) :
    run max setup (ops ++ [op]) = (run max setup ops).exec max op := by
  simp [run]

theorem named_run (max : ResourceNameMax) (setup : Setup) (ops : List Op) :
    Named max (run max setup ops).headers := by
  induction ops using List.reverseRecOn with
  | nil => exact named_nil
  | append_singleton ops op ih =>
    rw [run_append]
    exact named_exec ih op

/-- The names are distinct in all states of a run exactly when no client attaches while there is a
header in the hardware with the digits of one of its own. -/
theorem namesDistinct_iff_digitsFree (max : ResourceNameMax) (setup : Setup) (ops : List Op) :
    (∀ pre, pre <+: ops → (run max setup pre).NamesDistinct) ↔
      ∀ pre op, pre ++ [op] <+: ops → (run max setup pre).DigitsFree op := by
  constructor
  · grind [List.prefix_append, run_append, namesDistinct_exec_iff, named_run]
  · intro hfree pre
    induction pre using List.reverseRecOn with
    | nil =>
      intro _
      exact List.nodup_nil
    | append_singleton pre op ih =>
      grind [List.prefix_append, run_append, namesDistinct_exec_iff, named_run]

/-- Of the eleven clients that attach to a WLAN interface one after the other, the second and the
eleventh get headers of one name. -/
theorem not_namesDistinct_eleventh : ¬ ∀ (max : ResourceNameMax) (setup : Setup) (ops : List Op),
    (run max setup ops).NamesDistinct := by
  intro hdistinct
  have h := hdistinct ⟨20, by decide⟩ (fun _ => (.wlan, some [.v4]))
    ((List.range 11).map fun mac => .attach 0 (some mac) ⟨true, some (mac + 1)⟩ ⟨true, none⟩)
  exact absurd h (by decide +kernel)

end State

end EtherDevice.Ipacm.HeaderNames
