import Mathlib
import EtherDevice.Ipacm.Netlink

/-!
# Messages are not decoded from themselves

A datagram is a list of well-formed messages. The decoders get the start of the datagram, so every
message after the first one is decoded from the first. And the length that they get does not
account for the header of the message: the loop over the attributes of an address, a neighbour
or a route reads on after the last one, at the end of the datagram in memory that was not cleared.

What remains are the link messages, and the routes that are not reported.
-/

namespace EtherDevice.Ipacm.Netlink

open Lib

/-! ## Datagrams -/

structure Attr where
  rta_type : Nat
  data : List UInt8
  type_lt : rta_type < 2 ^ 16
  len_lt : 4 + data.length < 2 ^ 16

namespace Attr

variable (a : Attr)

def rta_len : Nat := 4 + a.data.length

def bytes : List UInt8 :=
  toLE 2 a.rta_len ++ (toLE 2 a.rta_type ++
    (a.data ++ List.replicate (align a.rta_len - a.rta_len) 0))

@[simp] theorem length_bytes : a.bytes.length = align a.rta_len := by
  simp [bytes, rta_len, align]
  omega

end Attr

def attrBytes (attrs : List Attr) : List UInt8 := attrs.flatMap Attr.bytes

def NlType.HeaderLen : NlType → Nat → Prop
  | .newLink, len | .delLink, len => len = 16
  | .newAddr, len => len = 8
  | .newRoute, len | .delRoute, len | .newNeigh, len | .delNeigh, len => len = 12
  | .other, len => len % 4 = 0

/-- A message, with the rest of its `nlmsghdr`. -/
structure NlMsg where
  nlmsg_type : Nat
  rest : List UInt8
  header : List UInt8
  attrs : List Attr
  type_lt : nlmsg_type < 2 ^ 16
  rest_length : rest.length = 10
  header_length : (nlType nlmsg_type).HeaderLen header.length
  len_lt : 16 + (header ++ attrBytes attrs).length < 2 ^ 32

namespace NlMsg

variable (m : NlMsg)

def payload : List UInt8 := m.header ++ attrBytes m.attrs

def nlmsg_len : Nat := nlmsgHdrLen + m.payload.length

def bytes : List UInt8 :=
  toLE 4 m.nlmsg_len ++ (toLE 2 m.nlmsg_type ++ (m.rest ++ m.payload))

def data : Memory := .ofList m.payload fun _ => 0

def IsReported : Prop := (rtMsg m.data).IsBoot ∨ (rtMsg m.data).IsKernel

instance : Decidable m.IsReported := inferInstanceAs (Decidable (_ ∨ _))

def IsHeaderOnly : Prop :=
  match nlType m.nlmsg_type with
  | .newLink | .delLink => True
  | .newRoute | .delRoute => ¬ m.IsReported
  | _ => False

end NlMsg

def datagramBytes (msgs : List NlMsg) : List UInt8 := msgs.flatMap NlMsg.bytes

/-- The memory that nothing was written to: the buffer after the datagram, and the data of an
event. -/
structure Uninit where
  tail : Memory
  raw : AddrData

def buffer (msgs : List NlMsg) (u : Uninit) : Memory := .ofList (datagramBytes msgs) u.tail

def decoded (msgs : List NlMsg) (u : Uninit) : List (List Event) :=
  ipaNlDecodeNlmsg u.raw (buffer msgs u) (datagramBytes msgs).length

def posted (msgs : List NlMsg) (u : Uninit) (k : Nat) : List Event :=
  ((decoded msgs u)[k]?).getD []

def Event.addrMask : Event → Option (IpType × Nat × Nat × List Nat × List Nat)
  | .routeAdd data | .routeDel data =>
    match data.iptype with
    | .v4 => some (.v4, data.ipv4_addr, data.ipv4_addr_mask, [], [])
    | .v6 => some (.v6, 0, 0, data.ipv6_addr, data.ipv6_addr_mask)
  | _ => none

/-- The events of a datagram are those of its messages, each one alone in a datagram. The events
of a message are the same whatever the other messages and the rest of the memory hold. And a route
of the kernel is deleted under the address and the mask that it was added with. -/
structure DecodedFromItself (msgs : List NlMsg) : Prop where
  events : ∀ u u', (decoded msgs u).flatten = msgs.flatMap fun m => posted [m] u' 0
  own : ∀ k m, msgs[k]? = some m → ∀ msgs' u u', msgs'.length = msgs.length →
    msgs'[k]? = some m → posted msgs' u k = posted [m] u' 0
  sameRoute : ∀ add ∈ msgs, nlType add.nlmsg_type = .newRoute → (rtMsg add.data).IsKernel →
    ∀ del : NlMsg, nlType del.nlmsg_type = .delRoute → del.payload = add.payload →
      ∀ u u' e e', (posted [add] u 0).head? = some e → (posted [del] u' 0).head? = some e' →
        e.addrMask = e'.addrMask

/-- The condition: a message that is decoded is the first one, and only its header is read. -/
def HeaderOnly (msgs : List NlMsg) : Prop :=
  ∀ k m, msgs[k]? = some m → nlType m.nlmsg_type = .other ∨ k = 0 ∧ m.IsHeaderOnly

/-! ## What the messages look like in memory -/

theorem datagramBytes_cons (m : NlMsg) (msgs : List NlMsg) :
    datagramBytes (m :: msgs) = m.bytes ++ datagramBytes msgs := List.flatMap_cons

theorem align_of_dvd {n : Nat} (h : n % 4 = 0) : align n = n := by
  unfold align
  omega

theorem align_mod (n : Nat) : align n % 4 = 0 := by simp [align]

theorem attrBytes_mod (attrs : List Attr) : (attrBytes attrs).length % 4 = 0 := by
  induction attrs with
  | nil => rfl
  | cons a attrs ih =>
    have := align_mod a.rta_len
    simp only [attrBytes, List.flatMap_cons, List.length_append, Attr.length_bytes] at *
    omega

namespace NlMsg

variable {m : NlMsg} {msgs : List NlMsg} {u : Uninit} {mem : Memory} {nlh : Nat}

theorem header_mod (m : NlMsg) : m.header.length % 4 = 0 := by
  have hlen := m.header_length
  cases htype : nlType m.nlmsg_type <;> rw [htype] at hlen <;> simp_all [NlType.HeaderLen]

theorem headerLen {type : NlType} (htype : nlType m.nlmsg_type = type) :
    type.HeaderLen m.header.length := htype ▸ m.header_length

theorem align_len (m : NlMsg) : align m.nlmsg_len = m.nlmsg_len := by
  have hheader := m.header_mod
  have hattrs := attrBytes_mod m.attrs
  refine align_of_dvd ?_
  simp only [nlmsg_len, payload, List.length_append, nlmsgHdrLen]
  omega

@[simp] theorem length_bytes (m : NlMsg) : m.bytes.length = m.nlmsg_len := by
  have := m.rest_length
  simp only [bytes, List.length_append, length_toLE, nlmsg_len, nlmsgHdrLen]
  omega

structure At (m : NlMsg) (mem : Memory) (nlh : Nat) : Prop where
  len : mem.loadLE nlh 4 = m.nlmsg_len
  type : mem.loadLE (nlh + 4) 2 = m.nlmsg_type
  payload : mem.Holds (nlh + nlmsgHdrLen) m.payload

theorem at_of_holds (h : mem.Holds nlh m.bytes) : m.At mem nlh := by
  obtain ⟨hlen, h⟩ := Memory.holds_append.mp h
  obtain ⟨htype, h⟩ := Memory.holds_append.mp h
  obtain ⟨-, hpayload⟩ := Memory.holds_append.mp h
  rw [length_toLE, length_toLE, m.rest_length] at hpayload
  exact ⟨hlen.loadLE m.len_lt, htype.loadLE m.type_lt, hpayload⟩

theorem data_eq {i : Nat} (hi : i < m.payload.length) :
    nlmsgData (buffer (m :: msgs) u) i = m.data i := by
  have hholds := Memory.holds_ofList (datagramBytes (m :: msgs)) u.tail
  rw [datagramBytes_cons] at hholds
  have hpayload := (at_of_holds (Memory.holds_append.mp hholds).1).payload
  have hdata := Memory.holds_ofList m.payload fun _ => 0
  rw [Nat.zero_add] at hpayload
  rw [nlmsgData, Memory.shift, buffer, datagramBytes_cons, hpayload i hi]
  exact ((hdata i hi).symm.trans (by rw [Nat.zero_add]; rfl))

end NlMsg

variable {m : NlMsg} {msgs : List NlMsg} {u : Uninit} {mem : Memory} {raw : AddrData}

theorem loadLE_data {off width : Nat} (h : off + width ≤ m.header.length) :
    (nlmsgData (buffer (m :: msgs) u)).loadLE off width = m.data.loadLE off width := by
  refine Memory.loadLE_congr fun i hi => m.data_eq ?_
  simp only [NlMsg.payload, List.length_append]
  omega

theorem ifInfoMsg_data (hlen : m.header.length = 16) :
    ifInfoMsg (nlmsgData (buffer (m :: msgs) u)) = ifInfoMsg m.data := by
  simp [ifInfoMsg, loadLE_data, hlen]

theorem rtMsg_data (hlen : m.header.length = 12) :
    rtMsg (nlmsgData (buffer (m :: msgs) u)) = rtMsg m.data := by
  simp [rtMsg, loadLE_data, hlen]

/-! ## The loop over the messages -/

theorem decodeLoop_cons {rest : List UInt8} {nlh : Nat} (r : NlRecord)
    (h : mem.Holds nlh (m.bytes ++ rest)) :
    decodeLoop raw mem nlh (m.bytes ++ rest).length r =
      (decodeMsg raw mem (m.bytes ++ rest).length (nlType m.nlmsg_type) r).1 ::
        (decodeMsg raw mem (m.bytes ++ rest).length (nlType m.nlmsg_type) r).2.elim []
          (decodeLoop raw mem (nlh + m.nlmsg_len) rest.length) := by
  obtain ⟨hlen, htype, -⟩ := NlMsg.at_of_holds (Memory.holds_append.mp h).1
  have hfit : nlmsgHdrLen ≤ m.nlmsg_len := Nat.le_add_right _ _
  rw [decodeLoop, hlen, htype, m.align_len]
  rw [if_pos (by simp only [List.length_append, NlMsg.length_bytes]; omega)]
  grind [NlMsg.length_bytes]

theorem decodeLoop_getElem? (raw : AddrData) (r : NlRecord) {nlh k : Nat}
    (h : mem.Holds nlh (datagramBytes msgs)) (hk : msgs[k]? = some m) :
    (decodeLoop raw mem nlh (datagramBytes msgs).length r)[k]? = none ∨
      ∃ len r', (decodeLoop raw mem nlh (datagramBytes msgs).length r)[k]? =
        some (decodeMsg raw mem len (nlType m.nlmsg_type) r').1 := by
  induction msgs generalizing nlh k r with
  | nil => simp at hk
  | cons first msgs ih =>
    rw [datagramBytes_cons] at h ⊢
    rw [decodeLoop_cons r h]
    have hrest := (Memory.holds_append.mp h).2
    rw [NlMsg.length_bytes] at hrest
    cases k with
    | zero =>
      obtain rfl : first = m := by simpa using hk
      exact .inr ⟨_, r, rfl⟩
    | succ k =>
      cases (decodeMsg raw mem (first.bytes ++ datagramBytes msgs).length
          (nlType first.nlmsg_type) r).2 with
      | none => exact .inl rfl
      | some r' => exact ih r' hrest (by simpa using hk)

theorem length_decodeLoop_le {nlh : Nat} {r : NlRecord}
    (h : mem.Holds nlh (datagramBytes msgs)) :
    (decodeLoop raw mem nlh (datagramBytes msgs).length r).length ≤ msgs.length := by
  induction msgs generalizing nlh r with
  | nil =>
    simp [decodeLoop, datagramBytes, nlmsgHdrLen]
  | cons first msgs ih =>
    rw [datagramBytes_cons] at h ⊢
    rw [decodeLoop_cons r h]
    have hrest := (Memory.holds_append.mp h).2
    cases (decodeMsg raw mem (first.bytes ++ datagramBytes msgs).length
        (nlType first.nlmsg_type) r).2 with
    | none => simp
    | some r' => simpa using ih hrest

theorem decodeLoop_visits (raw : AddrData) (r : NlRecord) {nlh k : Nat}
    (h : mem.Holds nlh (datagramBytes msgs))
    (hbridge : (ifInfoMsg (nlmsgData mem)).ifi_family ≠ AF_BRIDGE) (hk : msgs[k]? = some m) :
    ∃ len r', (decodeLoop raw mem nlh (datagramBytes msgs).length r)[k]? =
      some (decodeMsg raw mem len (nlType m.nlmsg_type) r').1 := by
  induction msgs generalizing nlh k r with
  | nil => simp at hk
  | cons first msgs ih =>
    rw [datagramBytes_cons] at h ⊢
    rw [decodeLoop_cons r h]
    have hrest := (Memory.holds_append.mp h).2
    rw [NlMsg.length_bytes] at hrest
    cases k with
    | zero =>
      obtain rfl : first = m := by simpa using hk
      exact ⟨_, r, rfl⟩
    | succ k =>
      have hgoes (len : Nat) (type : NlType) :
          ∃ r', (decodeMsg raw mem len type r).2 = some r' := by
        cases type <;> simp [decodeMsg, hbridge]
      obtain ⟨r', hr'⟩ := hgoes (first.bytes ++ datagramBytes msgs).length
        (nlType first.nlmsg_type)
      simp_all

theorem posted_head : posted (m :: msgs) u 0 =
    (decodeMsg u.raw (buffer (m :: msgs) u) (datagramBytes (m :: msgs)).length
      (nlType m.nlmsg_type) {}).1 := by
  have h := Memory.holds_ofList (datagramBytes (m :: msgs)) u.tail
  rw [posted, decoded, ipaNlDecodeNlmsg]
  unfold buffer
  rw [datagramBytes_cons] at h ⊢
  rw [decodeLoop_cons _ h]
  rfl

/-! ## The loop over the attributes -/

section Walk

variable {α : Type} {data : Memory} {attr : α → Nat → Nat → α} {rtah : Nat}

def attrFold (attr : α → Nat → Nat → α) : Nat → α → List Attr → α
  | _, r, [] => r
  | rtah, r, a :: attrs =>
    attrFold attr (rtah + align a.rta_len) (attr r a.rta_type (rtah + 4)) attrs

theorem rtaWalk_short {len : Nat} (h : len < 4) (r : α) : rtaWalk data attr rtah len r = r := by
  rw [rtaWalk, if_neg (by omega)]

theorem rtaWalk_attrs {attrs : List Attr} (h : data.Holds rtah (attrBytes attrs)) (r : α) :
    rtaWalk data attr rtah (attrBytes attrs).length r = attrFold attr rtah r attrs := by
  induction attrs generalizing rtah r with
  | nil => exact rtaWalk_short (by decide) r
  | cons a attrs ih =>
    rw [attrBytes, List.flatMap_cons] at h ⊢
    obtain ⟨hattr, hrest⟩ := Memory.holds_append.mp h
    obtain ⟨hlen, hattr⟩ := Memory.holds_append.mp hattr
    obtain ⟨htype, -⟩ := Memory.holds_append.mp hattr
    rw [length_toLE] at htype
    rw [Attr.length_bytes] at hrest
    have hrta : data.loadLE rtah 2 = a.rta_len := hlen.loadLE a.len_lt
    have hfour : 4 ≤ a.rta_len := Nat.le_add_right _ _
    have hle := le_align a.rta_len
    rw [rtaWalk, hrta, htype.loadLE a.type_lt, if_pos (by simp; omega)]
    rw [List.length_append, Attr.length_bytes, Nat.add_sub_cancel_left]
    exact ih hrest _

theorem attrFold_append (attrs last : List Attr) (rtah : Nat) (r : α) :
    attrFold attr rtah r (attrs ++ last) =
      attrFold attr (rtah + (attrBytes attrs).length) (attrFold attr rtah r attrs) last := by
  induction attrs generalizing rtah r with
  | nil => rfl
  | cons a attrs ih =>
    simp [attrFold, attrBytes, Nat.add_assoc, ih]

end Walk

/-! ## Attributes in the memory after the datagram -/

def showsAttrs (attrs : List Attr) (raw : AddrData) : Uninit where
  tail := .ofList (attrBytes attrs) fun _ => 0
  raw := raw

theorem holds_attrs (m : NlMsg) (attrs : List Attr) (raw : AddrData) :
    (nlmsgData (buffer [m] (showsAttrs attrs raw))).Holds m.header.length
      (attrBytes (m.attrs ++ attrs)) := by
  have htail : (buffer [m] (showsAttrs attrs raw)).Holds m.nlmsg_len (attrBytes attrs) := by
    have hafter := (Memory.holds_ofList (attrBytes attrs) fun _ => 0).ofList_rest
      (datagramBytes [m])
    rwa [show (datagramBytes [m]).length = m.nlmsg_len by simp [datagramBytes]] at hafter
  have hholds := Memory.holds_ofList (datagramBytes [m]) (showsAttrs attrs raw).tail
  have hpayload := (NlMsg.at_of_holds (Memory.holds_append.mp hholds).1).payload
  have hown : (nlmsgData (buffer [m] (showsAttrs attrs raw))).Holds 0 m.payload :=
    Memory.Holds.shift (by rwa [Nat.add_zero])
  have hrest : (nlmsgData (buffer [m] (showsAttrs attrs raw))).Holds m.payload.length
      (attrBytes attrs) := htail.shift
  rw [attrBytes, List.flatMap_append]
  refine Memory.holds_append.mpr ⟨?_, ?_⟩
  · have := (Memory.holds_append.mp hown).2
    rwa [Nat.zero_add] at this
  · rwa [NlMsg.payload, List.length_append] at hrest

section Tail

variable {α : Type} {b : UInt8}

def NlMsg.attrsEnd (m : NlMsg) : Nat := m.header.length + (attrBytes m.attrs).length

theorem rtaWalk_alone (m : NlMsg) (last : List Attr) (raw : AddrData) (attr : α → Nat → Nat → α)
    (hlast : (attrBytes last).length = m.header.length) (r : α) :
    ∃ r', rtaWalk (nlmsgData (buffer [m] (showsAttrs last raw))) attr m.header.length
        ((datagramBytes [m]).length - nlmsgHdrLen) r = attrFold attr m.attrsEnd r' last := by
  have hlen : (datagramBytes [m]).length - nlmsgHdrLen = (attrBytes (m.attrs ++ last)).length := by
    grind [attrBytes, datagramBytes, NlMsg.length_bytes, NlMsg.nlmsg_len, NlMsg.payload]
  refine ⟨attrFold attr m.header.length r m.attrs, ?_⟩
  rw [hlen, rtaWalk_attrs (holds_attrs m last raw), attrFold_append]
  rfl

theorem holds_last (m : NlMsg) (last : List Attr) (raw : AddrData) :
    (nlmsgData (buffer [m] (showsAttrs last raw))).Holds m.attrsEnd (attrBytes last) := by
  have h := holds_attrs m last raw
  rw [attrBytes, List.flatMap_append] at h
  exact (Memory.holds_append.mp h).2

theorem Attr.holds_data {a : Attr} {attrs : List Attr} {off : Nat}
    (h : mem.Holds off (attrBytes (a :: attrs))) : mem.Holds (off + 4) a.data := by
  have h := (Memory.holds_append.mp (Memory.holds_append.mp (Memory.holds_append.mp h).1).2).2
  exact (Memory.holds_append.mp h).1

/-- What an event says of its message in its first word. -/
def Event.word : Event → Nat
  | .linkUp if_index | .linkDown if_index | .usbLinkUp if_index => if_index
  | .addrAdd data =>
    match data.iptype with
    | .v4 => data.ipv4_addr
    | .v6 => data.ipv6_addr.headD 0
  | .routeAdd data | .routeDel data => data.if_index
  | .newNeigh data | .delNeigh data => (data.mac_addr.headD 0).toNat

def tailAddress (b : UInt8) : List Attr := [⟨1, [0, 0, 0, b], by decide, by simp⟩]

def tailLladdr (b : UInt8) : List Attr := [⟨2, [b, 0, 0, 0, 0, 0, 0, 0], by decide, by simp⟩]

def tailOif (b : UInt8) : List Attr :=
  [⟨1, [], by decide, by simp⟩, ⟨4, [b, 0, 0, 0], by decide, by simp⟩]

theorem loadLE_four {off : Nat} {b₀ b₁ b₂ b₃ : UInt8} (h : mem.Holds off [b₀, b₁, b₂, b₃]) :
    mem.loadLE off 4 =
      b₀.toNat + 256 * (b₁.toNat + 256 * (b₂.toNat + 256 * b₃.toNat)) := by
  obtain ⟨h0, h⟩ := Memory.holds_cons.mp h
  obtain ⟨h1, h⟩ := Memory.holds_cons.mp h
  obtain ⟨h2, h⟩ := Memory.holds_cons.mp h
  obtain ⟨h3, -⟩ := Memory.holds_cons.mp h
  simp [Memory.loadLE, h0, h1, h2, h3]

theorem ntohl_tail {off : Nat} (h : mem.Holds off [0, 0, 0, b]) :
    ntohl (mem.loadLE off 4) = b.toNat := by
  have hb := b.toNat_lt
  rw [loadLE_four h]
  simp [ntohl]
  omega

theorem word_newAddr (htype : nlType m.nlmsg_type = .newAddr) (raw : AddrData) (b : UInt8) :
    (posted [m] (showsAttrs (tailAddress b) raw) 0).head?.map Event.word = some b.toNat := by
  have hlen : m.header.length = 8 := m.headerLen htype
  have hdata := Attr.holds_data (holds_last m (tailAddress b) raw)
  have hlast : (attrBytes (tailAddress b)).length = m.header.length := by
    simp [attrBytes, tailAddress, align, Attr.rta_len, hlen]
  rw [posted_head, htype]
  simp only [decodeMsg, decodeRtmAddr, List.head?_cons, Option.map_some, Option.some_inj]
  generalize hmem : nlmsgData (buffer [m] (showsAttrs (tailAddress b) raw)) = mem at *
  obtain ⟨r', hr'⟩ := rtaWalk_alone m (tailAddress b) raw (addrAttr mem) hlast {}
  rw [hmem, hlen] at hr'
  rw [hr']
  have hload : ntohl ((mem.shift (m.attrsEnd + 4)).loadLE 0 4) = b.toNat :=
    ntohl_tail (Memory.Holds.shift hdata)
  simp only [tailAddress, attrFold, addrAttr, newAddrEvent, copyAddr]
  split
  · exact hload
  · exact hload

theorem word_neighData (hlen : m.header.length = 12) (raw : AddrData) (b : UInt8) :
    ((neighData (ndMsg (nlmsgData (buffer [m] (showsAttrs (tailLladdr b) raw))))
      (decodeRtmNeigh (nlmsgData (buffer [m] (showsAttrs (tailLladdr b) raw)))
        (datagramBytes [m]).length {})).mac_addr.headD 0).toNat = b.toNat := by
  have hdata := Attr.holds_data (holds_last m (tailLladdr b) raw)
  have hlast : (attrBytes (tailLladdr b)).length = m.header.length := by
    simp [attrBytes, tailLladdr, align, Attr.rta_len, hlen]
  generalize hmem : nlmsgData (buffer [m] (showsAttrs (tailLladdr b) raw)) = mem at *
  obtain ⟨r', hr'⟩ := rtaWalk_alone m (tailLladdr b) raw (neighAttr mem) hlast {}
  rw [hmem, hlen] at hr'
  rw [decodeRtmNeigh, hr']
  have hfirst : mem (m.attrsEnd + 4) = b := (Memory.holds_cons.mp hdata).1
  simp only [tailLladdr, attrFold, neighAttr, neighData]
  split_ifs <;> exact congrArg UInt8.toNat hfirst

theorem decodeRtmRoute_tail (hlen : m.header.length = 12) (raw : AddrData) (b : UInt8) :
    let r := decodeRtmRoute (nlmsgData (buffer [m] (showsAttrs (tailOif b) raw)))
      (datagramBytes [m]).length {}
    r.paramDst = true ∧ r.oif_index = b.toNat := by
  have hlast := holds_last m (tailOif b) raw
  have hlength : (attrBytes (tailOif b)).length = m.header.length := by
    simp [attrBytes, tailOif, align, Attr.rta_len, hlen]
  have hdata : (nlmsgData (buffer [m] (showsAttrs (tailOif b) raw))).Holds
      (m.attrsEnd + 4 + 4) [b, 0, 0, 0] := by
    have hoif := (Memory.holds_append.mp hlast).2
    exact Attr.holds_data (a := ⟨4, [b, 0, 0, 0], by decide, by simp⟩) hoif
  generalize hmem : nlmsgData (buffer [m] (showsAttrs (tailOif b) raw)) = mem at *
  obtain ⟨r', hr'⟩ := rtaWalk_alone m (tailOif b) raw (routeAttr mem) hlength {}
  rw [hmem, hlen] at hr'
  rw [decodeRtmRoute, hr']
  refine ⟨rfl, (loadLE_four hdata).trans ?_⟩
  simp

theorem RtMsg.IsKernel.not_isBoot {route : RtMsg} (h : route.IsKernel) : ¬ route.IsBoot :=
  fun hboot => by cases hboot.2.1.symm.trans h.2.2.1

end Tail

theorem posted_tail (htype : nlType m.nlmsg_type ≠ .other) (hread : ¬ m.IsHeaderOnly)
    (b : UInt8) : ∃ u, (posted [m] u 0).head?.map Event.word = some b.toNat := by
  let raw : AddrData := ⟨.v4, 0, 0, 0, [], []⟩
  unfold NlMsg.IsHeaderOnly at hread
  cases hm : nlType m.nlmsg_type with
  | other => exact absurd hm htype
  | newLink | delLink => simp [hm] at hread
  | newAddr => exact ⟨_, word_newAddr hm raw b⟩
  | newNeigh | delNeigh =>
    refine ⟨showsAttrs (tailLladdr b) raw, ?_⟩
    rw [posted_head, hm]
    exact congrArg some (word_neighData (m.headerLen hm) raw b)
  | newRoute =>
    refine ⟨showsAttrs (tailOif b) raw, ?_⟩
    have hlen : m.header.length = 12 := m.headerLen hm
    obtain ⟨hdst, hoif⟩ := decodeRtmRoute_tail hlen raw b
    have hreported : m.IsReported := by simpa [hm] using hread
    rw [posted_head, hm]
    simp only [decodeMsg, rtMsg_data hlen, newRouteEvents, hdst, if_true]
    rcases hreported with hboot | hkernel
    · rw [if_pos hboot]
      exact congrArg some hoif
    · rw [if_neg hkernel.not_isBoot, if_pos hkernel]
      exact congrArg some hoif
  | delRoute =>
    refine ⟨showsAttrs (tailOif b) raw, ?_⟩
    have hlen : m.header.length = 12 := m.headerLen hm
    obtain ⟨hdst, hoif⟩ := decodeRtmRoute_tail hlen raw b
    have hreported : m.IsReported := by simpa [hm] using hread
    rw [posted_head, hm]
    simp only [decodeMsg, rtMsg_data hlen, delRouteEvents, hdst, if_true]
    rcases hreported with hboot | hkernel
    · rw [if_pos hboot]
      exact congrArg some hoif
    · rw [if_neg hkernel.not_isBoot, if_pos hkernel]
      exact congrArg some hoif

/-! ## Messages of which only the header is read -/

theorem posted_other (hk : msgs[k]? = some m) (htype : nlType m.nlmsg_type = .other) :
    posted msgs u k = [] := by
  have hholds := Memory.holds_ofList (datagramBytes msgs) u.tail
  rcases decodeLoop_getElem? u.raw {} hholds hk with hnone | ⟨len, r', hsome⟩
  · rw [posted, decoded, ipaNlDecodeNlmsg, buffer, hnone]
    rfl
  · rw [posted, decoded, ipaNlDecodeNlmsg, buffer, hsome, htype]
    rfl

theorem posted_route (htype : nlType m.nlmsg_type = .newRoute ∨ nlType m.nlmsg_type = .delRoute)
    (hsilent : ¬ m.IsReported) : posted (m :: msgs) u 0 = [] := by
  obtain ⟨hboot, hkernel⟩ := not_or.mp hsilent
  rw [posted_head]
  rcases htype with htype | htype
  · simp only [htype, decodeMsg, rtMsg_data (m.headerLen htype), newRouteEvents, if_neg hboot,
      if_neg hkernel]
  · simp only [htype, decodeMsg, rtMsg_data (m.headerLen htype), delRouteEvents, if_neg hboot,
      if_neg hkernel]

theorem posted_headerOnly (hread : m.IsHeaderOnly) (msgs msgs' : List NlMsg) (u u' : Uninit) :
    posted (m :: msgs) u 0 = posted (m :: msgs') u' 0 := by
  unfold NlMsg.IsHeaderOnly at hread
  cases hm : nlType m.nlmsg_type with
  | newLink | delLink =>
    rw [posted_head, posted_head]
    simp only [hm, decodeMsg, ifInfoMsg_data (m.headerLen hm)]
  | newRoute | delRoute =>
    simp_all [posted_route]
  | newAddr | newNeigh | delNeigh | other => simp [hm] at hread

theorem flatten_eq_flatMap {α β : Type} {lists : List (List β)} {items : List α}
    {f : α → List β} (hlength : lists.length ≤ items.length)
    (h : ∀ (k : Nat) (a : α), items[k]? = some a → (lists[k]?).getD [] = f a) :
    lists.flatten = items.flatMap f := by
  induction items generalizing lists with
  | nil => simp_all
  | cons a items ih =>
    have hhead := h 0 a rfl
    cases lists with
    | nil =>
      have hrest := @ih [] (Nat.zero_le _) fun k b hk => h (k + 1) b hk
      simp_all
    | cons list lists =>
      have hrest := ih (by simpa using hlength) fun k b hk => h (k + 1) b hk
      simp_all

theorem decodedFromItself_of_headerOnly (h : HeaderOnly msgs) : DecodedFromItself msgs := by
  have hown : ∀ k m, msgs[k]? = some m → ∀ msgs' u u', msgs'.length = msgs.length →
      msgs'[k]? = some m → posted msgs' u k = posted [m] u' 0 := by
    intro k m hk msgs' u u' hlength hk'
    rcases h k m hk with hother | ⟨rfl, hread⟩
    · rw [posted_other hk' hother, posted_other (by rfl) hother]
    · obtain ⟨rest, rfl⟩ : ∃ rest, msgs' = m :: rest := by
        cases msgs' with
        | nil => simp at hk'
        | cons first rest => exact ⟨rest, by simpa using hk'⟩
      exact posted_headerOnly hread rest [] u u'
  refine ⟨fun u u' => ?_, hown, ?_⟩
  · have hholds := Memory.holds_ofList (datagramBytes msgs) u.tail
    exact flatten_eq_flatMap (length_decodeLoop_le hholds)
      fun k m hk => hown k m hk msgs u u' rfl hk
  · intro add hadd htype hkernel
    obtain ⟨k, hk⟩ := List.mem_iff_getElem?.mp hadd
    rcases h k add hk with hother | ⟨-, hread⟩
    · simp_all
    simp_all [NlMsg.IsHeaderOnly, NlMsg.IsReported]

/-! ## Messages that are decoded from the first one -/

def linkMsg (if_index : UInt8) : NlMsg where
  nlmsg_type := 16
  rest := List.replicate 10 0
  header := [0, 0, 0, 0, if_index, 0, 0, 0, 0, 0, 0, 0, 1, 0, 0, 0]
  attrs := []
  type_lt := by decide
  rest_length := rfl
  header_length := rfl
  len_lt := by simp [attrBytes]

def routeMsg : NlMsg where
  nlmsg_type := 24
  rest := List.replicate 10 0
  header := [2, 0, 0, 0, 254, 3, 0, 1, 0, 0, 0, 0]
  attrs := []
  type_lt := by decide
  rest_length := rfl
  header_length := rfl
  len_lt := by decide

theorem ifInfoMsg_linkMsg (msgs : List NlMsg) (u : Uninit) (if_index : UInt8) :
    ifInfoMsg (nlmsgData (buffer (linkMsg if_index :: msgs) u)) = ⟨0, if_index.toNat, 0, 1⟩ := by
  rw [ifInfoMsg_data rfl]
  simp [ifInfoMsg, NlMsg.data, NlMsg.payload, linkMsg, attrBytes, Memory.loadLE, Memory.ofList]

theorem isBoot_routeMsg (msgs : List NlMsg) (u : Uninit) :
    (rtMsg (nlmsgData (buffer (routeMsg :: msgs) u))).IsBoot := by
  rw [rtMsg_data rfl]
  decide +kernel

theorem word_linkMsg (raw : AddrData) (if_index : UInt8) (len : Nat) {type : NlType}
    (htype : type = .newLink ∨ type = .delLink) (r : NlRecord) :
    (decodeMsg raw (buffer (linkMsg if_index :: msgs) u) len type r).1.head?.map Event.word =
      some if_index.toNat := by
  rcases htype with rfl | rfl
  · simp [decodeMsg, ifInfoMsg_linkMsg, newLinkEvents, AF_BRIDGE, IFF_UP, Event.word]
  · simp [decodeMsg, ifInfoMsg_linkMsg, AF_BRIDGE, Event.word]

theorem posted_afterLink {k : Nat} (if_index : UInt8) (hk : msgs[k]? = some m)
    (htype : nlType m.nlmsg_type = .newLink ∨ nlType m.nlmsg_type = .delLink) :
    (posted (linkMsg if_index :: msgs) u (k + 1)).head?.map Event.word =
      some if_index.toNat := by
  have hholds := Memory.holds_ofList (datagramBytes (linkMsg if_index :: msgs)) u.tail
  have hbridge : (ifInfoMsg (nlmsgData (buffer (linkMsg if_index :: msgs) u))).ifi_family ≠
      AF_BRIDGE := by
    show 0 ≠ AF_BRIDGE
    decide
  obtain ⟨len, r, hposted⟩ := decodeLoop_visits u.raw {} (k := k + 1) hholds hbridge hk
  rw [posted, decoded, ipaNlDecodeNlmsg, buffer, hposted, ← buffer]
  exact word_linkMsg u.raw if_index len htype r

theorem posted_afterRoute {k : Nat} (hk : msgs[k]? = some m)
    (htype : nlType m.nlmsg_type = .newRoute ∨ nlType m.nlmsg_type = .delRoute) :
    posted (routeMsg :: msgs) u (k + 1) ≠ [] := by
  have hholds := Memory.holds_ofList (datagramBytes (routeMsg :: msgs)) u.tail
  have hboot := isBoot_routeMsg msgs u
  have hbridge : (ifInfoMsg (nlmsgData (buffer (routeMsg :: msgs) u))).ifi_family ≠
      AF_BRIDGE := by
    show (nlmsgData (buffer (routeMsg :: msgs) u)).loadLE 0 1 ≠ AF_BRIDGE
    rw [loadLE_data (by decide)]
    decide +kernel
  obtain ⟨len, r, hposted⟩ := decodeLoop_visits u.raw {} (k := k + 1) hholds hbridge hk
  rw [posted, decoded, ipaNlDecodeNlmsg, buffer, hposted, ← buffer]
  rcases htype with htype | htype
  · simp only [htype, decodeMsg, newRouteEvents, if_pos hboot]
    split_ifs <;> simp
  · simp only [htype, decodeMsg, delRouteEvents, if_pos hboot]
    split_ifs <;> simp

/-! ## The condition -/

theorem headerOnly_of_decodedFromItself (h : DecodedFromItself msgs) : HeaderOnly msgs := by
  intro k m hk
  by_contra hnot
  obtain ⟨htype, hfirst⟩ := not_or.mp hnot
  let u₀ : Uninit := ⟨fun _ => 0, ⟨.v4, 0, 0, 0, [], []⟩⟩
  by_cases hread : m.IsHeaderOnly
  · -- the message is not the first one: another first message changes its events
    obtain ⟨k, rfl⟩ := Nat.exists_eq_succ_of_ne_zero fun hzero => hfirst ⟨hzero, hread⟩
    obtain ⟨first, rest, rfl⟩ : ∃ first rest, msgs = first :: rest := by
      cases msgs with
      | nil => simp at hk
      | cons first rest => exact ⟨first, rest, rfl⟩
    have hrest : rest[k]? = some m := by simpa using hk
    have hother (other : NlMsg) : posted (other :: rest) u₀ (k + 1) = posted [m] u₀ 0 :=
      h.own (k + 1) m hk (other :: rest) u₀ u₀ rfl hk
    have hkind : (nlType m.nlmsg_type = .newLink ∨ nlType m.nlmsg_type = .delLink) ∨
        (nlType m.nlmsg_type = .newRoute ∨ nlType m.nlmsg_type = .delRoute) := by
      unfold NlMsg.IsHeaderOnly at hread
      cases hm : nlType m.nlmsg_type <;> simp [hm] at hread ⊢
    rcases hkind with hlink | hroute
    · have hone := posted_afterLink (u := u₀) 1 hrest hlink
      have htwo := posted_afterLink (u := u₀) 2 hrest hlink
      rw [hother] at hone htwo
      rw [hone] at htwo
      cases htwo
    · refine posted_afterRoute (u := u₀) hrest hroute ?_
      grind [posted_route, NlMsg.IsHeaderOnly]
  · -- the memory after the message changes its events
    obtain ⟨u₁, h₁⟩ := posted_tail htype hread 1
    obtain ⟨u₂, h₂⟩ := posted_tail htype hread 2
    rw [← h.own k m hk msgs u₀ u₁ rfl hk] at h₁
    rw [← h.own k m hk msgs u₀ u₂ rfl hk, h₁] at h₂
    cases h₂

/-- The messages of a datagram are decoded from themselves where all that are decoded are the
first one, of which only the header is read. -/
theorem decodedFromItself_iff (msgs : List NlMsg) : DecodedFromItself msgs ↔ HeaderOnly msgs :=
  ⟨headerOnly_of_decodedFromItself, decodedFromItself_of_headerOnly⟩

/-- The second of two link messages is posted with the interface of the first. -/
theorem not_decodedFromItself_twoLinks : ¬ ∀ msgs, DecodedFromItself msgs := by
  intro hall
  let u₀ : Uninit := ⟨fun _ => 0, ⟨.v4, 0, 0, 0, [], []⟩⟩
  have htogether : (posted [linkMsg 1, linkMsg 2] u₀ 1).head?.map Event.word = some 1 :=
    posted_afterLink (k := 0) (m := linkMsg 2) 1 rfl (.inl rfl)
  have halone : (posted [linkMsg 2] u₀ 0).head?.map Event.word = some 2 := by
    rw [posted_head]
    exact word_linkMsg _ 2 _ (.inl rfl) _
  rw [(hall [linkMsg 1, linkMsg 2]).own 1 (linkMsg 2) rfl _ u₀ u₀ rfl rfl, halone] at htogether
  cases htogether

end EtherDevice.Ipacm.Netlink
