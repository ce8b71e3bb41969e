import EtherDevice.Hal3.StreamConfig
import Mathlib.Algebra.Order.Group.Multiset
import Mathlib.Data.List.Perm.Basic
import Mathlib.Data.Multiset.Filter

/-!
# Each stream keeps its channel

In the state between two calls every stream of `mStreamInfo` has a channel, recorded in the stream
and in its entry, and the picture and the raw member point to such a channel. All other channels
that exist are the common ones.

A call that is rejected after the first stream was entered leaves streams without a channel, and
so does an accepted one with an input stream, a bidirectional stream without a JPEG stream, or an
output stream of another format: the next call stops a channel that is NULL. And nothing clears
`mPictureChannel` and `mRawChannel` when `cleanAndSortStreamInfo` deletes their channel.
-/

namespace EtherDevice.Hal3.Config

open Lib

namespace Hwi

variable {s : Hwi} {cap : Capability} {a : Answers} {streams : List Stream}

def IsStreamChannel (s : Hwi) (member : Option Nat) : Prop :=
  ∀ c, member = some c →
    c ∈ s.channels.live ∧ ∃ info ∈ s.mStreamInfo, info.channel = some c

def IsRecorded (s : Hwi) (c : Nat) : Prop :=
  (∃ info ∈ s.mStreamInfo, info.channel = some c ∧ s.priv info.stream.id = some c) ∨
    s.mMetadataChannel = some c ∨ s.mSupportChannel = some c ∨ s.mAnalysisChannel = some c ∨
      s.mRawDumpChannel = some c

structure Accepted (cap : Capability) (a : Answers) (streams : List Stream) : Prop where
  numStreams : checkNumStreams cap streams = none
  check : checkStreams cap streams a = none
  oneInput : streams.countP Stream.isInputOrBidirectional ≤ 1
  infos : ∀ i < streams.length, a.infoAlloc i = true
  metadata : a.metadataAlloc = true ∧ a.metadataInit = true
  analysis : a.analysisAlloc = true
  support : isSupportChannelNeeded streams = true → a.supportAlloc = true
  channels : ∀ i < streams.length, a.channelAlloc i = true
  rawDump : a.enableRawDump = true → a.rawDumpAlloc = true

/-- No channel was used that is NULL or deleted, none was deleted twice, and none is lost. The
output streams of an accepted call have their channels, and the two members are NULL or the
channel of a stream. The next call can stop the channels, and a valid one is accepted. -/
structure Consistent (cap : Capability) (s : Hwi) : Prop where
  fault : s.fault = false
  deletedOnce : s.channels.missed = []
  notLost : ∀ c ∈ s.channels.live, s.IsRecorded c
  configured : ∀ streams, s.configured = some streams → ∀ st ∈ streams,
    st.stream_type = .output → ∃ c ∈ s.channels.live, s.priv st.id = some c ∧
      ∃ info ∈ s.mStreamInfo, info.stream.id = st.id ∧ info.channel = some c
  picture : s.IsStreamChannel s.mPictureChannel
  raw : s.IsStreamChannel s.mRawChannel
  stops : s.invalidate.fault = false
  accepts : ∀ a streams, Accepted cap a streams →
    (s.configureStreams cap a (some streams)).1 = .ok

def CreatesAll (a : Answers) (streams : List Stream) : Prop :=
  streams.countP Stream.isInputOrBidirectional ≤ 1 ∧
    (∀ i < streams.length, a.infoAlloc i = true) ∧ a.metadataAlloc = true ∧
    a.metadataInit = true ∧ a.analysisAlloc = true ∧
    (isSupportChannelNeeded streams = true → a.supportAlloc = true) ∧
    ∀ i < streams.length, a.channelAlloc i = true

def FirstFails (s : Hwi) (a : Answers) (streams : List Stream) : Prop :=
  streams.head?.any (fun st => !s.mStreamInfo.any (·.stream.id == st.id)) = true ∧
    a.infoAlloc 0 = false

/-- The call is rejected before any stream is entered, or it creates a channel for each stream,
and a new picture and raw channel where there was one. -/
def Ok (cap : Capability) (s : Hwi) (call : Call) : Prop :=
  match call.streamList with
  | none => True
  | some streams =>
    (checkNumStreams cap streams ≠ none ∨ checkStreams cap streams call.answers ≠ none ∨
      s.FirstFails call.answers streams) ∨
    CreatesAll call.answers streams ∧ (∀ st ∈ streams, (channelKind streams st).isSome = true) ∧
      (s.mPictureChannel.isSome = true →
        ∃ st ∈ streams, channelKind streams st = some .picture) ∧
      (s.mRawChannel.isSome = true → ∃ st ∈ streams, channelKind streams st = some .raw)

instance (call : Call) : Decidable (Ok cap s call) := by
  unfold Ok
  cases call.streamList <;> unfold FirstFails CreatesAll <;> infer_instance

def ids (s : Hwi) : List Nat := s.mStreamInfo.map (·.stream.id)

def ofMember (member : Option Nat) : Multiset Nat := member.toList

theorem ofMember_none : ofMember none = 0 := rfl

/-- The channels that are not those of a stream. -/
def common (s : Hwi) : Multiset Nat :=
  ofMember s.mMetadataChannel + ofMember s.mSupportChannel + ofMember s.mAnalysisChannel +
    ofMember s.mRawDumpChannel

def held (s : Hwi) : Multiset Nat := ↑(s.ids.filterMap s.priv) + s.common

structure Owns (s : Hwi) : Prop where
  fault : s.fault = false
  channels : s.channels.Owned s.held
  ids : s.ids.Nodup
  recorded : ∀ info ∈ s.mStreamInfo, info.channel = s.priv info.stream.id

def Points (s : Hwi) (member : Option Nat) : Prop :=
  ∀ c, member = some c → ∃ id ∈ s.ids, s.priv id = some c

structure Inv (s : Hwi) : Prop extends Owns s where
  hasChannel : ∀ id ∈ s.ids, (s.priv id).isSome = true
  picture : s.Points s.mPictureChannel
  raw : s.Points s.mRawChannel
  configured : ∀ streams, s.configured = some streams → ∀ st ∈ streams, st.id ∈ s.ids

theorem mem_ids {id : Nat} : id ∈ s.ids ↔ ∃ info ∈ s.mStreamInfo, info.stream.id = id := by
  simp [ids]

theorem any_id_iff {id : Nat} : (s.mStreamInfo.any (·.stream.id == id)) = true ↔ id ∈ s.ids := by
  simp [ids]

theorem filterMap_update {ids : List Nat} (hids : ids.Nodup) {id : Nat} (hid : id ∈ ids)
    (priv : Nat → Option Nat) (channel : Option Nat) :
    (ids.filterMap (Function.update priv id channel) : Multiset Nat) =
      ofMember channel + ↑((ids.erase id).filterMap priv) := by
  have hperm := (List.perm_cons_erase hid).filterMap (Function.update priv id channel)
  have hrest : (ids.erase id).filterMap (Function.update priv id channel) =
      (ids.erase id).filterMap priv := by
    grind [List.filterMap_congr]
  rw [Multiset.coe_eq_coe.mpr hperm, List.filterMap_cons, Function.update_self, hrest]
  cases channel with
  | none => simp [ofMember]
  | some c => simp [ofMember]

theorem filterMap_erase {ids : List Nat} (hids : ids.Nodup) {id : Nat} (hid : id ∈ ids)
    (priv : Nat → Option Nat) :
    (ids.filterMap priv : Multiset Nat) =
      ofMember (priv id) + ↑((ids.erase id).filterMap priv) := by
  have h := filterMap_update hids hid priv (priv id)
  rwa [Function.update_eq_self] at h

theorem mem_held_of_priv {id c : Nat} (hid : id ∈ s.ids) (hc : s.priv id = some c) :
    c ∈ s.held :=
  Multiset.mem_add.mpr (.inl (Multiset.mem_coe.mpr (List.mem_filterMap.mpr ⟨id, hid, hc⟩)))

theorem Points.mem_held {member : Option Nat} (h : s.Points member) {c : Nat}
    (hc : member = some c) : c ∈ s.held := by
  obtain ⟨id, hid, hpriv⟩ := h c hc
  exact mem_held_of_priv hid hpriv

theorem Owns.mem_held_iff (h : Owns s) {c : Nat} : c ∈ s.held ↔ s.IsRecorded c := by
  simp only [held, common, Multiset.mem_add, Multiset.mem_coe, List.mem_filterMap, ofMember,
    Option.mem_toList, IsRecorded]
  have hstream : (∃ id ∈ s.ids, s.priv id = some c) ↔
      ∃ info ∈ s.mStreamInfo, info.channel = some c ∧ s.priv info.stream.id = some c := by
    constructor
    · rintro ⟨id, hid, hpriv⟩
      obtain ⟨info, hinfo, rfl⟩ := mem_ids.mp hid
      exact ⟨info, hinfo, (h.recorded info hinfo).trans hpriv, hpriv⟩
    · rintro ⟨info, hinfo, -, hpriv⟩
      exact ⟨info.stream.id, mem_ids.mpr ⟨info, hinfo, rfl⟩, hpriv⟩
  rw [hstream, or_assoc, or_assoc]

theorem Owns.use {c : Nat} (h : Owns s) (hc : c ∈ s.held) : s.use (some c) = s :=
  if_pos (h.channels.live ▸ hc)

theorem Owns.useIfSet {member : Option Nat} (h : Owns s)
    (hmember : ∀ c, member = some c → c ∈ s.held) : s.useIfSet member = s := by
  cases member with
  | none => rfl
  | some c => exact h.use (hmember c rfl)

theorem owned_delete (member : Option Nat) {held : Multiset Nat}
    (h : s.channels.Owned (ofMember member + held)) :
    (s.delete member).channels.Owned held := by
  cases member with
  | none => exact h.congr (by simp [ofMember])
  | some c => exact Handles.Owned.del (h.congr (by simp [ofMember]))

theorem arrive_priv (streams : List Stream) {id : Nat} (hid : id ∈ s.ids) :
    (s.arrive streams).priv id = s.priv id := by
  have hknown := any_id_iff.mpr hid
  simp only [arrive, hknown, Bool.not_true, Bool.and_false, Bool.false_eq_true, if_false]

theorem arrive_new {id : Nat} (hnew : id ∉ s.ids) (hid : ∃ st ∈ streams, st.id = id) :
    (s.arrive streams).priv id = none := by
  have hunknown : s.mStreamInfo.any (·.stream.id == id) = false := by
    rw [← Bool.not_eq_true, any_id_iff]
    exact hnew
  simp_all [arrive]

theorem Inv.arrive (h : Inv s) : Inv (s.arrive streams) := by
  have hpriv {id : Nat} (hid : id ∈ s.ids) := arrive_priv streams hid
  have hpoints {member : Option Nat} (hmember : s.Points member) :
      (s.arrive streams).Points member := by
    intro c hc
    obtain ⟨id, hid, hsome⟩ := hmember c hc
    exact ⟨id, hid, (hpriv hid).trans hsome⟩
  refine ⟨⟨h.fault, h.channels.congr ?_, h.ids, fun info hinfo => ?_⟩, fun id hid => ?_,
    hpoints h.picture, hpoints h.raw, h.configured⟩
  · have hstreams : s.ids.filterMap (s.arrive streams).priv = s.ids.filterMap s.priv :=
      List.filterMap_congr fun id hid => hpriv hid
    show s.held = ↑(s.ids.filterMap (s.arrive streams).priv) + s.common
    rw [hstreams]
    rfl
  · exact (h.recorded info hinfo).trans (hpriv (mem_ids.mpr ⟨info, hinfo, rfl⟩)).symm
  · rw [hpriv hid]
    exact h.hasChannel id hid

theorem Inv.foldl_use (h : Inv s) {infos : List StreamInfo} (hinfos : infos ⊆ s.mStreamInfo) :
    infos.foldl (fun s' info => s'.use (s'.priv info.stream.id)) s = s := by
  induction infos with
  | nil => rfl
  | cons info infos ih =>
    have hid : info.stream.id ∈ s.ids := mem_ids.mpr ⟨info, hinfos List.mem_cons_self, rfl⟩
    obtain ⟨c, hc⟩ := Option.isSome_iff_exists.mp (h.hasChannel _ hid)
    have hheld : c ∈ s.held := mem_held_of_priv hid hc
    rw [List.foldl_cons, hc, h.use hheld]
    exact ih fun x hx => hinfos (List.mem_cons_of_mem _ hx)

theorem ids_invalidateStreams (s : Hwi) : s.invalidateStreams.ids = s.ids := by
  simp [ids, invalidateStreams, Function.comp_def]

theorem Owns.invalidateStreams (h : Owns s) : Owns s.invalidateStreams := by
  refine ⟨h.fault, h.channels.congr ?_, by rw [ids_invalidateStreams]; exact h.ids, ?_⟩
  · rw [held, held, ids_invalidateStreams]
    rfl
  · intro info hinfo
    obtain ⟨old, hold, rfl⟩ := List.mem_map.mp hinfo
    exact h.recorded old hold

theorem Owns.of_delete {s' : Hwi} (h : Owns s) (member : Option Nat)
    (hchannels : s'.channels = (s.delete member).channels) (hpriv : s'.priv = s.priv)
    (hinfos : s'.mStreamInfo = s.mStreamInfo) (hfault : s'.fault = s.fault)
    (hcommon : s.common = ofMember member + s'.common) : Owns s' := by
  have hids : s'.ids = s.ids := by rw [Hwi.ids, hinfos, Hwi.ids]
  refine ⟨hfault.trans h.fault, ?_, hids ▸ h.ids, ?_⟩
  · simp [owned_delete, held, add_left_comm, hchannels, h.channels.congr, hids, hpriv, hcommon]
  · rw [hinfos, hpriv]
    exact h.recorded

theorem Owns.deleteRawDump (h : Owns s) : Owns s.deleteRawDump := by
  refine h.of_delete s.mRawDumpChannel rfl rfl rfl rfl ?_
  rw [common, add_comm]
  exact congrArg _ (add_zero _).symm

theorem member_le_common (s : Hwi) : ofMember s.mMetadataChannel ≤ s.common ∧
    ofMember s.mSupportChannel ≤ s.common ∧ ofMember s.mAnalysisChannel ≤ s.common := by
  have hfront : ofMember s.mMetadataChannel + ofMember s.mSupportChannel +
      ofMember s.mAnalysisChannel ≤ s.common := Multiset.le_add_right _ _
  have htwo := (Multiset.le_add_right _ _).trans hfront
  exact ⟨(Multiset.le_add_right _ _).trans htwo, (Multiset.le_add_left _ _).trans htwo,
    (Multiset.le_add_left _ _).trans hfront⟩

theorem mem_held_member {member : Option Nat} {c : Nat} (hc : member = some c)
    (hle : ofMember member ≤ s.common) : c ∈ s.held := by
  refine Multiset.mem_add.mpr (.inr (Multiset.mem_of_le hle ?_))
  simp [ofMember, hc]

theorem Inv.invalidate_eq (h : Inv s) : s.invalidate = s.invalidateStreams.deleteRawDump := by
  have hinvalid := h.toOwns.invalidateStreams
  have hdump : s.invalidateStreams.useIfSet s.mRawDumpChannel = s.invalidateStreams :=
    hinvalid.useIfSet fun c hc => mem_held_member hc (Multiset.le_add_left _ _)
  have hcommon {member : Option Nat}
      (hle : ofMember member ≤ s.invalidateStreams.deleteRawDump.common) :
      s.invalidateStreams.deleteRawDump.useIfSet member = s.invalidateStreams.deleteRawDump :=
    hinvalid.deleteRawDump.useIfSet fun c hc => mem_held_member hc hle
  have hstop : s.stopStreams = s := h.foldl_use (List.Subset.refl _)
  unfold invalidate
  rw [hstop]
  dsimp only
  obtain ⟨hmetadata, hsupport, hanalysis⟩ := member_le_common s.invalidateStreams.deleteRawDump
  rw [show s.invalidateStreams.mRawDumpChannel = s.mRawDumpChannel from rfl, hdump,
    hcommon hsupport, hcommon hanalysis, hcommon hmetadata]

theorem Inv.invalidate (h : Inv s) : Inv s.invalidate := by
  rw [h.invalidate_eq]
  have hids : s.invalidateStreams.deleteRawDump.ids = s.ids := ids_invalidateStreams s
  refine ⟨h.toOwns.invalidateStreams.deleteRawDump, ?_, ?_, ?_, ?_⟩
  · rw [hids]
    exact h.hasChannel
  · exact fun c hc => by rw [hids]; exact h.picture c hc
  · exact fun c hc => by rw [hids]; exact h.raw c hc
  · rw [hids]
    exact h.configured

theorem Inv.invalid_of_invalidate (h : Inv s) {info : StreamInfo}
    (hinfo : info ∈ s.invalidate.mStreamInfo) : info.valid = false := by
  rw [h.invalidate_eq] at hinfo
  obtain ⟨old, -, rfl⟩ := List.mem_map.mp hinfo
  rfl

theorem ids_keepStream (st : Stream) : (s.keepStream st).ids = s.ids := by
  simp only [ids, keepStream, List.map_map]
  refine List.map_congr_left fun info _ => ?_
  simp only [Function.comp_apply]
  split_ifs with hsame
  · exact (beq_iff_eq.mp hsame).symm
  · rfl

theorem Owns.keepStream (h : Owns s) {st : Stream} (hid : st.id ∈ s.ids) :
    Owns (s.keepStream st) := by
  have hids : (s.keepStream st).ids = s.ids := ids_keepStream st
  refine ⟨h.fault, ?_, hids ▸ h.ids, ?_⟩
  · refine owned_delete (s.priv st.id) (h.channels.congr ?_)
    have hupdate := filterMap_update h.ids hid s.priv none
    rw [held, held, hids, filterMap_erase h.ids hid, add_assoc]
    show _ = ofMember (s.priv st.id) +
      (↑(s.ids.filterMap (Function.update s.priv st.id none)) + s.common)
    rw [hupdate]
    simp [ofMember]
  · intro info hinfo
    obtain ⟨old, hold, rfl⟩ := List.mem_map.mp hinfo
    show _ = Function.update s.priv st.id none _
    split_ifs with hsame
    · simp
    · rw [Function.update_of_ne (by simpa using hsame)]
      exact h.recorded old hold

theorem Owns.newStream (h : Owns s) {st : Stream} (hid : st.id ∉ s.ids)
    (hnew : s.priv st.id = none) :
    Owns (s.newStream st) := by
  have hids : (s.newStream st).ids = s.ids ++ [st.id] := by simp [Hwi.ids, Hwi.newStream]
  refine ⟨h.fault, h.channels.congr ?_, ?_, ?_⟩
  · rw [held, held, hids, List.filterMap_append]
    show _ = (↑(s.ids.filterMap s.priv ++ [st.id].filterMap s.priv) : Multiset Nat) + s.common
    simp [hnew]
  · rw [hids]
    exact List.nodup_append.mpr ⟨h.ids, List.nodup_singleton _, by
      rintro x hx _ hy rfl
      exact hid (List.mem_singleton.mp hy ▸ hx)⟩
  · intro info hinfo
    rcases List.mem_append.mp hinfo with hold | hadded
    · exact h.recorded info hold
    · rw [List.mem_singleton.mp hadded]
      exact hnew.symm

def IsValid (s : Hwi) (id : Nat) : Prop :=
  ∃ info ∈ s.mStreamInfo, info.stream.id = id ∧ info.valid = true

theorem isValid_keepStream {st : Stream} (hid : st.id ∈ s.ids) {id : Nat} :
    (s.keepStream st).IsValid id ↔ id = st.id ∨ s.IsValid id := by
  constructor
  · rintro ⟨info, hinfo, rfl, hvalid⟩
    obtain ⟨old, hold, rfl⟩ := List.mem_map.mp hinfo
    split_ifs at hvalid ⊢ with hsame
    · exact .inl rfl
    · exact .inr ⟨old, hold, rfl, hvalid⟩
  · intro h
    by_cases hsame : id = st.id
    · obtain ⟨old, hold, hold_id⟩ := mem_ids.mp hid
      refine ⟨⟨st, true, none⟩, List.mem_map.mpr ⟨old, hold, ?_⟩, hsame.symm, rfl⟩
      rw [if_pos (beq_iff_eq.mpr hold_id)]
    · obtain ⟨old, hold, hold_id, hvalid⟩ := h.resolve_left hsame
      refine ⟨old, List.mem_map.mpr ⟨old, hold, ?_⟩, hold_id, hvalid⟩
      rw [if_neg (by rw [beq_iff_eq, hold_id]; exact hsame)]

theorem isValid_newStream {st : Stream} {id : Nat} :
    (s.newStream st).IsValid id ↔ id = st.id ∨ s.IsValid id := by
  simp only [IsValid, newStream, List.mem_append, List.mem_singleton, or_and_right, exists_or,
    exists_eq_left, and_true]
  rw [or_comm, eq_comm]

structure Entered (s : Hwi) (entered : List Nat) (s' : Hwi) : Prop where
  picture : s'.mPictureChannel = s.mPictureChannel
  raw : s'.mRawChannel = s.mRawChannel
  rawDump : s'.mRawDumpChannel = s.mRawDumpChannel
  ids : s.ids ⊆ s'.ids
  isValid : ∀ id, s'.IsValid id ↔ id ∈ entered ∨ s.IsValid id
  priv : ∀ id, id ∈ entered ∨ s.priv id = none → s'.priv id = none

theorem Entered.cons {s₁ s₂ : Hwi} {id : Nat} {entered : List Nat} (h : Entered s [id] s₁)
    (h' : Entered s₁ entered s₂) : Entered s (id :: entered) s₂ where
  picture := h'.picture.trans h.picture
  raw := h'.raw.trans h.raw
  rawDump := h'.rawDump.trans h.rawDump
  ids := List.Subset.trans h.ids h'.ids
  isValid other := by
    rw [h'.isValid, h.isValid, List.mem_singleton, List.mem_cons, or_left_comm, or_assoc]
  priv other hother := by
    refine h'.priv other ?_
    rcases hother with hmem | hnone
    · rcases List.mem_cons.mp hmem with rfl | hrest
      · exact .inr (h.priv other (.inl List.mem_cons_self))
      · exact .inl hrest
    · exact .inr (h.priv other (.inr hnone))

theorem entered_keepStream {st : Stream} (hid : st.id ∈ s.ids) :
    Entered s [st.id] (s.keepStream st) where
  picture := rfl
  raw := rfl
  rawDump := rfl
  ids := by rw [ids_keepStream]; exact List.Subset.refl _
  isValid id := by rw [isValid_keepStream hid, List.mem_singleton]
  priv id hid' := by
    show Function.update s.priv st.id none id = none
    grind

theorem entered_newStream {st : Stream} (hnew : s.priv st.id = none) :
    Entered s [st.id] (s.newStream st) where
  picture := rfl
  raw := rfl
  rawDump := rfl
  ids := by simp [ids, newStream]
  isValid id := by rw [isValid_newStream, List.mem_singleton]
  priv id hid := by
    rcases hid with hmem | hnone
    · rw [List.mem_singleton.mp hmem]
      exact hnew
    · exact hnone

section OneInput

variable {st : Stream} {rest : List Stream} {hasInput : Bool}
  (h : (st :: rest).countP Stream.isInputOrBidirectional + hasInput.toNat ≤ 1)

include h

theorem isInput_and_hasInput : (st.isInputOrBidirectional && hasInput) = false := by
  rw [List.countP_cons] at h
  revert h
  cases st.isInputOrBidirectional <;> cases hasInput <;> simp

theorem countP_rest : rest.countP Stream.isInputOrBidirectional +
    (hasInput || st.isInputOrBidirectional).toNat ≤ 1 := by
  rw [List.countP_cons] at h
  revert h
  cases st.isInputOrBidirectional <;> cases hasInput <;> simp

end OneInput

theorem Owns.enterStreams (h : Owns s) {index : Nat} {hasInput : Bool}
    (hinput : streams.countP Stream.isInputOrBidirectional + hasInput.toNat ≤ 1)
    (halloc : ∀ i < index + streams.length, a.infoAlloc i = true)
    (hnew : ∀ st ∈ streams, st.id ∉ s.ids → s.priv st.id = none) :
    ∃ s', enterStreams a index hasInput streams s = (none, s') ∧ Owns s' ∧
      Entered s (streams.map (·.id)) s' := by
  induction streams generalizing s index hasInput with
  | nil => exact ⟨s, rfl, h, rfl, rfl, rfl, List.Subset.refl _, by simp, by simp⟩
  | cons st rest ih =>
    have hstep : ∃ s₁, s₁ = (if s.mStreamInfo.any (·.stream.id == st.id) then s.keepStream st
        else s.newStream st) ∧ Owns s₁ ∧ Entered s [st.id] s₁ := by
      refine ⟨_, rfl, ?_⟩
      by_cases hknown : st.id ∈ s.ids
      · rw [if_pos (any_id_iff.mpr hknown)]
        exact ⟨h.keepStream hknown, entered_keepStream hknown⟩
      · rw [if_neg (any_id_iff.not.mpr hknown)]
        simp [entered_newStream, hnew, hknown, h.newStream]
    obtain ⟨s₁, hs₁, howns, hentered⟩ := hstep
    have hmemory : a.infoAlloc index = true := halloc index (by simp)
    have hmore : ∀ i < index + 1 + rest.length, a.infoAlloc i = true := by
      intro i hi
      refine halloc i ?_
      rw [List.length_cons]
      omega
    have hnew' : ∀ st' ∈ rest, st'.id ∉ s₁.ids → s₁.priv st'.id = none := fun st' hst' hout =>
      hentered.priv _ (.inr (hnew st' (List.mem_cons_of_mem _ hst') fun hin =>
        hout (hentered.ids hin)))
    obtain ⟨s₂, hs₂, howns₂, hentered₂⟩ := ih howns (countP_rest hinput) hmore hnew'
    refine ⟨s₂, ?_, howns₂, hentered.cons hentered₂⟩
    rw [Hwi.enterStreams]
    simp only [hmemory, Bool.not_true, Bool.and_false, Bool.false_eq_true, if_false,
      isInput_and_hasInput hinput]
    rw [← hs₁]
    exact hs₂

end Hwi

end EtherDevice.Hal3.Config
