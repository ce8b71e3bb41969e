import Mathlib
import EtherDevice.Ipacm.Netlink

/-!
# What the decoders read of a datagram

Two loops walk over a datagram, one over its messages and one over the attributes of a message.
Both take the lengths that they find off what is left, in unsigned numbers. The trace of a walk
has what is read, and the numbers that are subtracted. `fuel` bounds the trace of a walk; a walk
that needs more has not ended.

The walks stay inside of the datagram, if and only if its messages fit. The loop over the messages
does not see that the length of the last message may be rounded up beyond the datagram. The loop
over the attributes begins behind the header of the message, but its length still has this header;
and what is copied is as long as the place it is copied to.
-/

namespace EtherDevice.Ipacm.Netlink

open Lib

def maxLen : Nat := 2048

structure Datagram where
  bytes : List UInt8
  length_le : bytes.length ≤ maxLen

namespace Datagram

variable (d : Datagram)

def length : Nat := d.bytes.length

def buffer (tail : Memory) : Memory := .ofList d.bytes tail

def load (off width : Nat) : Nat := (d.buffer fun _ => 0).loadLE off width

end Datagram

inductive Access
  /-- A field of a header of a message, a family or an attribute -/
  | header (off width : Nat)
  /-- `size` bytes of the data of an attribute -/
  | payload (rtaData size rta_len : Nat)
  | length (len sub : Nat)
  deriving DecidableEq, Repr

/-- The access stays inside of a datagram of this length, of the attribute and of the numbers. -/
def Access.Inside (length : Nat) : Access → Prop
  | .header off width => off + width ≤ length
  | .payload rtaData size rta_len => rtaData + size ≤ length ∧ 4 + size ≤ rta_len
  | .length len sub => sub ≤ len

instance (length : Nat) : ∀ a : Access, Decidable (a.Inside length)
  | .header off width => inferInstanceAs (Decidable (off + width ≤ length))
  | .payload rtaData size rta_len =>
    inferInstanceAs (Decidable (rtaData + size ≤ length ∧ 4 + size ≤ rta_len))
  | .length len sub => inferInstanceAs (Decidable (sub ≤ len))

structure Trace where
  accesses : List Access := []
  ended : Bool := true
  deriving DecidableEq, Repr

namespace Trace

def after (accesses : List Access) (t : Trace) : Trace :=
  { t with accesses := accesses ++ t.accesses }

def andThen (t u : Trace) : Trace := if t.ended then u.after t.accesses else t

/-- The code comes to its end, and all of its accesses stay inside. -/
def Inside (length : Nat) (t : Trace) : Prop :=
  t.ended = true ∧ ∀ a ∈ t.accesses, a.Inside length

end Trace

def subLen (len sub : Nat) : Nat := (len + 2 ^ 32 - sub) % 2 ^ 32

def nlmsgAlign (len : Nat) : Nat := (len + 3) % 2 ^ 32 / 4 * 4

def ssDataLen : Nat := 126

def addrCopied : Nat → Option Nat
  | 1 => some ssDataLen
  | _ => none

def neighCopied : Nat → Option Nat
  | 1 => some ssDataLen
  | 2 => some 14
  | _ => none

def routeCopied : Nat → Option Nat
  | 1 | 2 | 5 => some ssDataLen
  | 3 | 4 | 6 => some 4
  | _ => none

def rtaReads (mem : Memory) (copied : Nat → Option Nat) : Nat → Nat → Nat → Trace
  | 0, _, _ => { ended := false }
  | fuel + 1, rtah, len =>
    if 4 ≤ len then
      let rta_len := mem.loadLE rtah 2
      Trace.after [.header rtah 2] <|
        if 4 ≤ rta_len ∧ rta_len ≤ len then
          let copy := (copied (mem.loadLE (rtah + 2) 2)).toList.map fun size =>
            Access.payload (rtah + 4) size rta_len
          Trace.after (.header (rtah + 2) 2 :: copy ++ [.length len (align rta_len)]) <|
            rtaReads mem copied fuel (rtah + align rta_len) (subLen len (align rta_len))
        else {}
    else {}

def rtmReads (mem : Memory) (headerLen : Nat) (copied : Nat → Option Nat) (fuel buflen : Nat) :
    Trace :=
  Trace.after [.header nlmsgHdrLen headerLen, .length buflen nlmsgHdrLen] <|
    rtaReads mem copied fuel (nlmsgHdrLen + headerLen) (subLen buflen nlmsgHdrLen)

def rtmLinkReads (buflen : Nat) : Trace :=
  { accesses := [.header nlmsgHdrLen 16, .length buflen nlmsgHdrLen] }

def rtmAddrReads (mem : Memory) (fuel buflen : Nat) : Trace :=
  rtmReads mem 8 addrCopied fuel buflen

def rtmNeighReads (mem : Memory) (fuel buflen : Nat) : Trace :=
  rtmReads mem 12 neighCopied fuel buflen

def rtmRouteReads (mem : Memory) (fuel buflen : Nat) : Trace :=
  rtmReads mem 12 routeCopied fuel buflen

def msgReads (mem : Memory) (fuel buflen : Nat) : NlType → Trace
  | .newLink | .delLink => rtmLinkReads buflen
  | .newAddr => rtmAddrReads mem fuel buflen
  | .newRoute | .delRoute => rtmRouteReads mem fuel buflen
  | .newNeigh | .delNeigh => rtmNeighReads mem fuel buflen
  | .other => {}

def leaves (mem : Memory) (fails : Bool) : NlType → Bool
  | .newLink | .delLink => fails || (ifInfoMsg (nlmsgData mem)).ifi_family == AF_BRIDGE
  | .other => false
  | _ => fails

/-- The loop over the messages: `NLMSG_OK` and `NLMSG_NEXT`. `fails` says for which of them the
body cannot be done. -/
def loopReads (mem : Memory) (fails : Nat → Bool) : Nat → Nat → Nat → Trace
  | 0, _, _ => { ended := false }
  | fuel + 1, nlh, buflen =>
    if nlmsgHdrLen ≤ buflen then
      let nlmsg_len := mem.loadLE nlh 4
      Trace.after [.header nlh 4] <|
        if nlmsgHdrLen ≤ nlmsg_len ∧ nlmsg_len ≤ buflen then
          let type := nlType (mem.loadLE (nlh + 4) 2)
          Trace.after [.header (nlh + 4) 2] <|
            (msgReads mem fuel buflen type).andThen <|
              if leaves mem (fails nlh) type then {}
              else
                Trace.after [.length buflen (nlmsgAlign nlmsg_len)] <|
                  loopReads mem fails fuel (nlh + nlmsgAlign nlmsg_len)
                    (subLen buflen (nlmsgAlign nlmsg_len))
        else {}
    else {}

namespace Datagram

variable (d : Datagram)

def reads (tail : Memory) (fails : Nat → Bool) (fuel : Nat) : Trace :=
  loopReads (d.buffer tail) fails fuel 0 d.length

/-- Whatever lies behind the datagram, the walk over it ends and stays inside. -/
def StaysInside : Prop :=
  ∀ tail fails, ∃ fuel, (d.reads tail fails fuel).Inside d.length

/-- The attributes from a place on, where the code counts `len` bytes: each of them that is met is
in the datagram with its header, has a rounded length that is left, and gives the bytes that are
copied of its type. -/
inductive AttrsFit (copied : Nat → Option Nat) : Nat → Nat → Prop
  | short {rtah len : Nat} : len < 4 → AttrsFit copied rtah len
  | stop {rtah len : Nat} : 4 ≤ len → rtah + 2 ≤ d.length →
    ¬ (4 ≤ d.load rtah 2 ∧ d.load rtah 2 ≤ len) → AttrsFit copied rtah len
  | next {rtah len : Nat} : rtah + 4 ≤ d.length → 4 ≤ d.load rtah 2 → d.load rtah 2 ≤ len →
    (∀ size ∈ copied (d.load (rtah + 2) 2),
      rtah + 4 + size ≤ d.length ∧ 4 + size ≤ d.load rtah 2) →
    align (d.load rtah 2) ≤ len →
    AttrsFit copied (rtah + align (d.load rtah 2)) (len - align (d.load rtah 2)) →
    AttrsFit copied rtah len

def FamilyFits (headerLen : Nat) (copied : Nat → Option Nat) (buflen : Nat) : Prop :=
  nlmsgHdrLen + headerLen ≤ d.length ∧
    d.AttrsFit copied (nlmsgHdrLen + headerLen) (buflen - nlmsgHdrLen)

def MsgFits (buflen : Nat) : NlType → Prop
  | .newLink | .delLink => nlmsgHdrLen + 16 ≤ d.length
  | .newAddr => d.FamilyFits 8 addrCopied buflen
  | .newRoute | .delRoute => d.FamilyFits 12 routeCopied buflen
  | .newNeigh | .delNeigh => d.FamilyFits 12 neighCopied buflen
  | .other => True

def IsBridge : NlType → Prop
  | .newLink | .delLink => d.load nlmsgHdrLen 1 = AF_BRIDGE
  | _ => False

/-- The messages from a place on, where `buflen` bytes are left: each that is met can be decoded,
and its rounded length is left, unless the walk ends with it. -/
inductive MsgsFit : Nat → Nat → Prop
  | short {nlh buflen : Nat} : buflen < nlmsgHdrLen → MsgsFit nlh buflen
  | stop {nlh buflen : Nat} : nlmsgHdrLen ≤ buflen →
    ¬ (nlmsgHdrLen ≤ d.load nlh 4 ∧ d.load nlh 4 ≤ buflen) → MsgsFit nlh buflen
  | bridge {nlh buflen : Nat} : nlmsgHdrLen ≤ d.load nlh 4 → d.load nlh 4 ≤ buflen →
    d.MsgFits buflen (nlType (d.load (nlh + 4) 2)) → d.IsBridge (nlType (d.load (nlh + 4) 2)) →
    MsgsFit nlh buflen
  | next {nlh buflen : Nat} : nlmsgHdrLen ≤ d.load nlh 4 → d.load nlh 4 ≤ buflen →
    d.MsgFits buflen (nlType (d.load (nlh + 4) 2)) → align (d.load nlh 4) ≤ buflen →
    MsgsFit (nlh + align (d.load nlh 4)) (buflen - align (d.load nlh 4)) → MsgsFit nlh buflen

def Fits : Prop := d.MsgsFit 0 d.length

end Datagram

namespace Trace

variable {length : Nat} {accesses : List Access} {t u : Trace}

theorem inside_empty (length : Nat) : ({} : Trace).Inside length :=
  ⟨rfl, fun _ ha => absurd ha List.not_mem_nil⟩

theorem inside_after :
    (after accesses t).Inside length ↔ (∀ a ∈ accesses, a.Inside length) ∧ t.Inside length := by
  unfold Inside after
  rw [List.forall_mem_append]
  exact and_left_comm

theorem inside_andThen : (t.andThen u).Inside length ↔ t.Inside length ∧ u.Inside length := by
  unfold andThen
  split
  · rename_i hended
    rw [inside_after]
    exact and_congr_left fun _ => (and_iff_right hended).symm
  · rename_i hended
    exact iff_of_false (fun h => hended h.1) fun h => hended h.1.1

end Trace

theorem nlmsgAlign_eq {len : Nat} (h : len ≤ maxLen) : nlmsgAlign len = align len := by
  unfold nlmsgAlign align
  unfold maxLen at h
  omega

theorem subLen_eq {len sub : Nat} (hsub : sub ≤ len) (hlen : len < 2 ^ 32) :
    subLen len sub = len - sub := by
  unfold subLen
  omega

namespace Datagram

variable {d : Datagram} {tail : Memory} {copied : Nat → Option Nat} {fuel rtah len : Nat}

theorem loadLE_buffer {off width : Nat} (h : off + width ≤ d.length) :
    (d.buffer tail).loadLE off width = d.load off width := by
  refine Memory.loadLE_congr fun i hi => ?_
  have hlt : off + i < d.bytes.length := by
    unfold length at h
    omega
  unfold buffer Memory.ofList
  rw [dif_pos hlt, dif_pos hlt]

theorem attrsFit_of_inside (hlen : len < 2 ^ 32)
    (h : (rtaReads (d.buffer tail) copied fuel rtah len).Inside d.length) :
    d.AttrsFit copied rtah len := by
  induction fuel generalizing rtah len with
  | zero => cases h.1
  | succ fuel ih =>
    unfold rtaReads at h
    split at h
    · rename_i hfour
      obtain ⟨hheader, h⟩ := Trace.inside_after.mp h
      have hlength : rtah + 2 ≤ d.length := hheader _ List.mem_cons_self
      rw [loadLE_buffer hlength] at h
      split at h
      · rename_i hok
        obtain ⟨haccesses, h⟩ := Trace.inside_after.mp h
        rw [List.cons_append, List.forall_mem_cons, List.forall_mem_append] at haccesses
        obtain ⟨htype, hcopy, hsub⟩ := haccesses
        rw [loadLE_buffer (show rtah + 2 + 2 ≤ d.length from htype)] at hcopy
        have hsub : align (d.load rtah 2) ≤ len := hsub _ List.mem_cons_self
        rw [subLen_eq hsub hlen] at h
        refine .next htype hok.1 hok.2 (fun size hsize => ?_) hsub (ih (by omega) h)
        exact hcopy _ (List.mem_map_of_mem (Option.mem_toList.mpr hsize))
      · rename_i hbad
        exact .stop hfour hlength hbad
    · rename_i hshort
      exact .short (Nat.lt_of_not_le hshort)

theorem AttrsFit.inside (h : d.AttrsFit copied rtah len) (hlen : len < 2 ^ 32)
    (hfuel : len < fuel) :
    (rtaReads (d.buffer tail) copied fuel rtah len).Inside d.length := by
  induction h generalizing fuel with
  | short hshort =>
    obtain ⟨fuel, rfl⟩ := Nat.exists_eq_succ_of_ne_zero (Nat.ne_zero_of_lt hfuel)
    rw [rtaReads, if_neg (Nat.not_le.mpr hshort)]
    exact Trace.inside_empty _
  | stop hfour hlength hbad =>
    obtain ⟨fuel, rfl⟩ := Nat.exists_eq_succ_of_ne_zero (Nat.ne_zero_of_lt hfuel)
    rw [rtaReads, if_pos hfour, loadLE_buffer hlength]
    dsimp only
    rw [if_neg hbad, Trace.inside_after]
    refine ⟨fun a ha => ?_, Trace.inside_empty _⟩
    obtain rfl := List.mem_singleton.mp ha
    exact hlength
  | @next rtah len htype hmin hmax hcopy hsub _ ih =>
    obtain ⟨fuel, rfl⟩ := Nat.exists_eq_succ_of_ne_zero (Nat.ne_zero_of_lt hfuel)
    have hlength : rtah + 2 ≤ d.length := by omega
    have hrounded := le_align (d.load rtah 2)
    rw [rtaReads, if_pos (by omega), loadLE_buffer hlength]
    dsimp only
    rw [if_pos ⟨hmin, hmax⟩, loadLE_buffer (show rtah + 2 + 2 ≤ d.length from htype),
      subLen_eq hsub hlen, Trace.inside_after, Trace.inside_after, List.forall_mem_singleton]
    refine ⟨hlength, fun a ha => ?_, ih (by omega) (by omega)⟩
    rcases List.mem_append.mp ha with ha | ha
    · rcases List.mem_cons.mp ha with rfl | ha
      · exact htype
      · obtain ⟨size, hsize, rfl⟩ := List.mem_map.mp ha
        exact hcopy size (Option.mem_toList.mp hsize)
    · obtain rfl := List.mem_singleton.mp ha
      exact hsub

variable {headerLen buflen nlh : Nat} {fails : Nat → Bool}

theorem familyFits_of_inside (hmin : nlmsgHdrLen ≤ buflen) (hmax : buflen < 2 ^ 32)
    (h : (rtmReads (d.buffer tail) headerLen copied fuel buflen).Inside d.length) :
    d.FamilyFits headerLen copied buflen := by
  unfold rtmReads at h
  rw [subLen_eq hmin hmax] at h
  obtain ⟨hheader, hattrs⟩ := Trace.inside_after.mp h
  exact ⟨hheader _ List.mem_cons_self, attrsFit_of_inside (by omega) hattrs⟩

theorem FamilyFits.inside (h : d.FamilyFits headerLen copied buflen)
    (hmin : nlmsgHdrLen ≤ buflen) (hmax : buflen < 2 ^ 32) (hfuel : buflen ≤ fuel) :
    (rtmReads (d.buffer tail) headerLen copied fuel buflen).Inside d.length := by
  have hleft : buflen - nlmsgHdrLen < fuel :=
    Nat.lt_of_lt_of_le (Nat.sub_lt_of_pos_le (by decide) hmin) hfuel
  unfold rtmReads
  rw [subLen_eq hmin hmax, Trace.inside_after]
  refine ⟨fun a ha => ?_, h.2.inside (by omega) hleft⟩
  rcases List.mem_cons.mp ha with rfl | ha
  · exact h.1
  · obtain rfl := List.mem_singleton.mp ha
    exact hmin

theorem msgFits_of_inside {type : NlType} (hmin : nlmsgHdrLen ≤ buflen) (hmax : buflen < 2 ^ 32)
    (h : (msgReads (d.buffer tail) fuel buflen type).Inside d.length) :
    d.MsgFits buflen type := by
  cases type with
  | newLink | delLink => exact h.2 _ List.mem_cons_self
  | newAddr | newRoute | delRoute | newNeigh | delNeigh =>
    exact familyFits_of_inside hmin hmax h
  | other => trivial

theorem MsgFits.inside {type : NlType} (h : d.MsgFits buflen type) (hmin : nlmsgHdrLen ≤ buflen)
    (hmax : buflen < 2 ^ 32) (hfuel : buflen ≤ fuel) :
    (msgReads (d.buffer tail) fuel buflen type).Inside d.length := by
  cases type with
  | newLink | delLink =>
    refine ⟨rfl, fun a ha => ?_⟩
    rcases List.mem_cons.mp ha with rfl | ha
    · exact h
    · obtain rfl := List.mem_singleton.mp ha
      exact hmin
  | newAddr | newRoute | delRoute | newNeigh | delNeigh =>
    exact FamilyFits.inside h hmin hmax hfuel
  | other => exact Trace.inside_empty _

theorem leaves_of_isBridge {type : NlType} (hfits : d.MsgFits buflen type)
    (hbridge : d.IsBridge type) (fails : Bool) : leaves (d.buffer tail) fails type = true := by
  cases type with
  | newLink | delLink =>
    have hread : (d.buffer tail).loadLE nlmsgHdrLen 1 = AF_BRIDGE :=
      (loadLE_buffer (Nat.le_trans (by decide) hfits)).trans hbridge
    exact Bool.or_eq_true_iff.mpr (.inr (beq_iff_eq.mpr hread))
  | newAddr | newRoute | delRoute | newNeigh | delNeigh | other => cases hbridge

theorem isBridge_of_leaves {type : NlType} (hfits : d.MsgFits buflen type)
    (h : leaves (d.buffer tail) false type = true) : d.IsBridge type := by
  cases type with
  | newLink | delLink =>
    have hread : (d.buffer tail).loadLE nlmsgHdrLen 1 = AF_BRIDGE := beq_iff_eq.mp h
    exact (loadLE_buffer (Nat.le_trans (by decide) hfits)).symm.trans hread
  | newAddr | newRoute | delRoute | newNeigh | delNeigh | other => cases h

theorem loopReads_of_valid (hplace : nlh + buflen = d.length)
    (hmin : nlmsgHdrLen ≤ d.load nlh 4) (hmax : d.load nlh 4 ≤ buflen) :
    loopReads (d.buffer tail) fails (fuel + 1) nlh buflen =
      Trace.after [.header nlh 4, .header (nlh + 4) 2]
        ((msgReads (d.buffer tail) fuel buflen (nlType (d.load (nlh + 4) 2))).andThen <|
          if leaves (d.buffer tail) (fails nlh) (nlType (d.load (nlh + 4) 2)) then {}
          else
            Trace.after [.length buflen (align (d.load nlh 4))] <|
              loopReads (d.buffer tail) fails fuel (nlh + align (d.load nlh 4))
                (subLen buflen (align (d.load nlh 4)))) := by
  have hlength : d.length ≤ maxLen := d.length_le
  have hleft : nlmsgHdrLen ≤ buflen := Nat.le_trans hmin hmax
  have hheader : nlh + 16 ≤ d.length := hplace ▸ Nat.add_le_add_left hleft nlh
  have hmaxLen : d.load nlh 4 ≤ maxLen := by omega
  rw [loopReads, if_pos hleft, loadLE_buffer (by omega), loadLE_buffer (by omega)]
  dsimp only
  rw [if_pos ⟨hmin, hmax⟩, nlmsgAlign_eq hmaxLen]
  rfl

theorem msgsFit_of_inside (hplace : nlh + buflen = d.length)
    (h : (loopReads (d.buffer tail) (fun _ => false) fuel nlh buflen).Inside d.length) :
    d.MsgsFit nlh buflen := by
  have hlength : d.length ≤ 2048 := d.length_le
  induction fuel generalizing nlh buflen with
  | zero => cases h.1
  | succ fuel ih =>
    by_cases hmin : nlmsgHdrLen ≤ buflen
    · by_cases hok : nlmsgHdrLen ≤ d.load nlh 4 ∧ d.load nlh 4 ≤ buflen
      · rw [loopReads_of_valid hplace hok.1 hok.2, Trace.inside_after, Trace.inside_andThen] at h
        obtain ⟨-, hmsg, h⟩ := h
        have hmax : buflen < 2 ^ 32 := by omega
        have hfits := msgFits_of_inside hmin hmax hmsg
        split at h
        · rename_i hleaves
          exact .bridge hok.1 hok.2 hfits (isBridge_of_leaves hfits hleaves)
        · obtain ⟨hsub, h⟩ := Trace.inside_after.mp h
          have hsub : align (d.load nlh 4) ≤ buflen := hsub _ List.mem_cons_self
          rw [subLen_eq hsub hmax] at h
          exact .next hok.1 hok.2 hfits hsub (ih (by omega) h)
      · exact .stop hmin hok
    · exact .short (Nat.lt_of_not_le hmin)

theorem headers_inside (hplace : nlh + buflen = d.length) (hmin : nlmsgHdrLen ≤ buflen) :
    ∀ a ∈ [Access.header nlh 4, .header (nlh + 4) 2], a.Inside d.length := by
  have hheader : nlh + 16 ≤ d.length := hplace ▸ Nat.add_le_add_left hmin nlh
  rw [List.forall_mem_cons, List.forall_mem_singleton]
  exact ⟨show nlh + 4 ≤ d.length by omega, show nlh + 4 + 2 ≤ d.length by omega⟩

theorem MsgsFit.inside (h : d.MsgsFit nlh buflen) (hplace : nlh + buflen = d.length)
    (hfuel : buflen < fuel) :
    (loopReads (d.buffer tail) fails fuel nlh buflen).Inside d.length := by
  have hlength : d.length ≤ 2048 := d.length_le
  induction h generalizing fuel with
  | short hshort =>
    obtain ⟨fuel, rfl⟩ := Nat.exists_eq_succ_of_ne_zero (Nat.ne_zero_of_lt hfuel)
    rw [loopReads, if_neg (Nat.not_le.mpr hshort)]
    exact Trace.inside_empty _
  | @stop nlh buflen hmin hbad =>
    obtain ⟨fuel, rfl⟩ := Nat.exists_eq_succ_of_ne_zero (Nat.ne_zero_of_lt hfuel)
    have hheaders := headers_inside hplace hmin
    have hread : nlh + 4 ≤ d.length := hheaders _ List.mem_cons_self
    simp_all [loopReads, loadLE_buffer, if_neg, Trace.inside_after, Trace.inside_empty]
  | @bridge nlh buflen hmin hmax hfits hbridge =>
    obtain ⟨fuel, rfl⟩ := Nat.exists_eq_succ_of_ne_zero (Nat.ne_zero_of_lt hfuel)
    have hleft : nlmsgHdrLen ≤ buflen := Nat.le_trans hmin hmax
    rw [loopReads_of_valid hplace hmin hmax, leaves_of_isBridge hfits hbridge, if_pos rfl,
      Trace.inside_after, Trace.inside_andThen]
    exact ⟨headers_inside hplace hleft, hfits.inside hleft (by omega) (by omega),
      Trace.inside_empty _⟩
  | @next nlh buflen hmin hmax hfits hsub _ ih =>
    obtain ⟨fuel, rfl⟩ := Nat.exists_eq_succ_of_ne_zero (Nat.ne_zero_of_lt hfuel)
    have hleft : 16 ≤ buflen := Nat.le_trans hmin hmax
    have hrounded := le_align (d.load nlh 4)
    have hsome : 16 ≤ d.load nlh 4 := hmin
    rw [loopReads_of_valid hplace hmin hmax, Trace.inside_after, Trace.inside_andThen]
    refine ⟨headers_inside hplace hleft, hfits.inside hleft (by omega) (by omega), ?_⟩
    split
    · exact Trace.inside_empty _
    · rw [Trace.inside_after, List.forall_mem_singleton, subLen_eq hsub (by omega)]
      exact ⟨hsub, ih (by omega) (by omega)⟩

/-- The walk over a datagram stays inside of it, if and only if its messages fit. -/
theorem staysInside_iff (d : Datagram) : d.StaysInside ↔ d.Fits := by
  constructor
  · intro h
    obtain ⟨fuel, hinside⟩ := h (fun _ => 0) fun _ => false
    exact msgsFit_of_inside (Nat.zero_add _) hinside
  · exact fun h tail fails => ⟨d.length + 1, h.inside (Nat.zero_add _) (Nat.lt_succ_self _)⟩

/-- `RTM_NEWADDR` for an IPv4 address, as the kernel sends it. -/
def newAddrDatagram : Datagram where
  bytes := [32, 0, 0, 0, 20, 0, 0, 0, 0, 0, 0, 0, 0, 0, 0, 0, 2, 24, 0, 0, 3, 0, 0, 0,
    8, 0, 1, 0, 192, 168, 1, 1]
  length_le := by decide

/-- The copy of the address has the size of the place it is copied to. -/
theorem not_staysInside_newAddr : ¬ ∀ d : Datagram, d.StaysInside := by
  intro h
  obtain ⟨fuel, hinside⟩ := h newAddrDatagram (fun _ => 0) fun _ => false
  cases msgsFit_of_inside (Nat.zero_add _) hinside with
  | short hshort => exact absurd hshort (by decide)
  | stop _ hbad => exact hbad (by decide)
  | bridge _ _ _ hbridge => exact hbridge
  | next _ _ hmsg _ _ =>
    have hfamily : newAddrDatagram.FamilyFits 8 addrCopied 32 := hmsg
    cases hfamily.2 with
    | short hshort => exact absurd hshort (by decide)
    | stop _ _ hbad => exact hbad (by decide)
    | next _ _ _ hcopy _ _ => exact absurd (hcopy ssDataLen (by decide)).1 (by decide)

end Datagram

end EtherDevice.Ipacm.Netlink
