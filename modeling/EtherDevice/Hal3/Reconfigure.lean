import EtherDevice.Hal3.ConfigChannels
import Mathlib.Tactic.Abel

/-!
# Configuring the streams

Once the streams are entered the rest of `configureStreams` is one pass: what is left of the old
channels is deleted, the common channels are made, and then a channel for each stream. A phase
that succeeds leaves exactly the recorded channels, and from there the property of all runs whose
calls create a channel for each of their streams follows.
-/

namespace EtherDevice.Hal3.Config

open Lib

namespace Hwi

variable {s : Hwi} {cap : Capability} {a : Answers} {streams : List Stream}

/-! ## The streams that stay -/

theorem foldl_delete (infos : List StreamInfo) (s : Hwi) :
    infos.foldl (fun s' info => s'.delete (s'.priv info.stream.id)) s =
      { s with channels :=
          (infos.filterMap fun info => s.priv info.stream.id).foldl Handles.del s.channels } := by
  induction infos generalizing s with
  | nil => rfl
  | cons info infos ih =>
    grind [delete]

def sorted (infos : List StreamInfo) : List StreamInfo :=
  (infos.filter (·.valid)).filter (!·.stream.format.isRaw) ++
    (infos.filter (·.valid)).filter (·.stream.format.isRaw)

theorem perm_sorted (infos : List StreamInfo) :
    (sorted infos).Perm (infos.filter (·.valid)) :=
  List.perm_append_comm.trans
    (List.filter_append_perm (fun info : StreamInfo => info.stream.format.isRaw) _)

theorem cleanAndSort_eq (s : Hwi) : s.cleanAndSortStreamInfo =
    { s with
      channels := ((s.mStreamInfo.filter (!·.valid)).filterMap
        fun info => s.priv info.stream.id).foldl Handles.del s.channels
      mStreamInfo := sorted s.mStreamInfo } := by
  unfold cleanAndSortStreamInfo
  dsimp only
  rw [foldl_delete]
  rfl

theorem mem_ids_cleanAndSort {id : Nat} : id ∈ s.cleanAndSortStreamInfo.ids ↔ s.IsValid id := by
  rw [cleanAndSort_eq, mem_ids, IsValid]
  simp only [(perm_sorted _).mem_iff, List.mem_filter, and_assoc]
  exact exists_congr fun info => and_congr_right fun _ => and_comm

theorem Owns.cleanAndSortStreamInfo (h : Owns s)
    (hentered : ∀ id, s.IsValid id → s.priv id = none) : Owns s.cleanAndSortStreamInfo := by
  have hperm := perm_sorted s.mStreamInfo
  have hvalid : (s.mStreamInfo.filter (·.valid)).filterMap (fun info => s.priv info.stream.id) =
      [] := by
    refine List.filterMap_eq_nil_iff.mpr fun info hinfo => ?_
    obtain ⟨hmem, htrue⟩ := List.mem_filter.mp hinfo
    exact hentered _ ⟨info, hmem, rfl, htrue⟩
  have hkept : ((sorted s.mStreamInfo).map (·.stream.id)).filterMap s.priv = [] := by
    refine List.eq_nil_of_length_eq_zero ?_
    rw [List.filterMap_map, (hperm.filterMap _).length_eq]
    exact congrArg List.length hvalid
  have hsplit : (s.ids.filterMap s.priv).Perm
      ((s.mStreamInfo.filter (!·.valid)).filterMap fun info => s.priv info.stream.id) := by
    grind [Hwi.ids, List.filter_append_perm]
  rw [cleanAndSort_eq]
  refine ⟨h.fault, ?_, ?_, fun info hinfo => ?_⟩
  · refine Handles.Owned.foldl_del (h.channels.congr ?_)
    show _ = _ + (↑(((sorted s.mStreamInfo).map (·.stream.id)).filterMap s.priv) + s.common)
    rw [held, hkept, Multiset.coe_eq_coe.mpr hsplit, Multiset.coe_nil, zero_add]
  · have hsub : (s.mStreamInfo.filter (·.valid)).Sublist s.mStreamInfo := List.filter_sublist
    rw [Hwi.ids, (hperm.map _).nodup_iff]
    exact h.ids.sublist (hsub.map _)
  · exact h.recorded info (List.mem_filter.mp (hperm.mem_iff.mp hinfo)).1

/-! ## The common channels -/

section Common

variable (s : Hwi) {channel : Option Nat}

theorem common_metadata (hnone : s.mMetadataChannel = none) :
    ({ s with mMetadataChannel := channel } : Hwi).common = ofMember channel + s.common := by
  simp only [common, hnone, ofMember_none]
  abel

theorem common_support (hnone : s.mSupportChannel = none) :
    ({ s with mSupportChannel := channel } : Hwi).common = ofMember channel + s.common := by
  simp only [common, hnone, ofMember_none]
  abel

theorem common_analysis (hnone : s.mAnalysisChannel = none) :
    ({ s with mAnalysisChannel := channel } : Hwi).common = ofMember channel + s.common := by
  simp only [common, hnone, ofMember_none]
  abel

theorem common_rawDump (hnone : s.mRawDumpChannel = none) :
    ({ s with mRawDumpChannel := channel } : Hwi).common = ofMember channel + s.common := by
  simp only [common, hnone, ofMember_none]
  abel

end Common

theorem Owns.deleteCommonChannels (h : Owns s) : Owns s.deleteCommonChannels := by
  let s₁ : Hwi := { s.delete s.mMetadataChannel with mMetadataChannel := none }
  let s₂ : Hwi := { s₁.delete s₁.mSupportChannel with mSupportChannel := none }
  let s₃ : Hwi := { s₂.delete s₂.mAnalysisChannel with mAnalysisChannel := none }
  have h₁ : Owns s₁ := h.of_delete s.mMetadataChannel rfl rfl rfl rfl (common_metadata s₁ rfl)
  have h₂ : Owns s₂ := h₁.of_delete s₁.mSupportChannel rfl rfl rfl rfl (common_support s₂ rfl)
  exact h₂.of_delete s₂.mAnalysisChannel rfl rfl rfl rfl (common_analysis s₃ rfl)

theorem Owns.of_create {s' : Hwi} (h : Owns s) (hchannels : s'.channels = (s.create a).2.channels)
    (hpriv : s'.priv = s.priv) (hinfos : s'.mStreamInfo = s.mStreamInfo)
    (hfault : s'.fault = s.fault) (hcommon : s'.common = ofMember (s.create a).1 + s.common) :
    Owns s' := by
  have hids : s'.ids = s.ids := by rw [Hwi.ids, hinfos, Hwi.ids]
  refine ⟨hfault.trans h.fault, ?_, hids ▸ h.ids, ?_⟩
  · rw [hchannels]
    refine (h.channels.add a.fresh).congr ?_
    rw [held, held, hids, hpriv, hcommon, add_left_comm]
    exact (Multiset.singleton_add _ _).symm
  · rw [hinfos, hpriv]
    exact h.recorded

structure SameStreams (s s' : Hwi) : Prop where
  infos : s'.mStreamInfo = s.mStreamInfo
  priv : s'.priv = s.priv
  picture : s'.mPictureChannel = s.mPictureChannel
  raw : s'.mRawChannel = s.mRawChannel
  rawDump : s'.mRawDumpChannel = s.mRawDumpChannel

theorem SameStreams.ids {s' : Hwi} (h : SameStreams s s') : s'.ids = s.ids := by
  rw [Hwi.ids, h.infos, Hwi.ids]

theorem Owns.createCommonChannels (h : Owns s) (hmetadata : s.mMetadataChannel = none)
    (hsupport : s.mSupportChannel = none) (hanalysis : s.mAnalysisChannel = none)
    (hall : CreatesAll a streams) :
    ∃ s', s.createCommonChannels a streams = (none, s') ∧ Owns s' ∧ SameStreams s s' := by
  obtain ⟨-, -, hmetadataAlloc, hmetadataInit, hanalysisAlloc, hsupportAlloc, -⟩ := hall
  let s₁ : Hwi := { (s.create a).2 with mMetadataChannel := some (s.create a).1 }
  let s₂ : Hwi := { (s₁.create a).2 with mAnalysisChannel := some (s₁.create a).1 }
  let s₃ : Hwi := { (s₂.create a).2 with mSupportChannel := some (s₂.create a).1 }
  have h₁ : Owns s₁ := h.of_create rfl rfl rfl rfl (common_metadata (s.create a).2 hmetadata)
  have h₂ : Owns s₂ := h₁.of_create rfl rfl rfl rfl (common_analysis (s₁.create a).2 hanalysis)
  have h₃ : Owns s₃ := h₂.of_create rfl rfl rfl rfl (common_support (s₂.create a).2 hsupport)
  unfold Hwi.createCommonChannels
  simp only [hmetadataAlloc, hmetadataInit, hanalysisAlloc, Bool.not_true, Bool.false_eq_true,
    if_false]
  cases hneeded : isSupportChannelNeeded streams with
  | false => exact ⟨s₂, rfl, h₂, rfl, rfl, rfl, rfl, rfl⟩
  | true =>
    simp only [hsupportAlloc hneeded, Bool.not_true, Bool.false_eq_true, if_false, if_true]
    exact ⟨s₃, rfl, h₃, rfl, rfl, rfl, rfl, rfl⟩

/-! ## The channels of the streams -/

def member (s : Hwi) : ChannelKind → Option Nat
  | .regular => none
  | .raw => s.mRawChannel
  | .picture => s.mPictureChannel

theorem map_record (s : Hwi) (st : Stream) (infos : List StreamInfo) :
    (s.record st infos).map (·.stream.id) = infos.map (·.stream.id) := by
  induction infos with
  | nil => rfl
  | cons info infos ih =>
    rw [record]
    split_ifs
    · rfl
    · rw [List.map_cons, ih, List.map_cons]

theorem recorded_record {st : Stream} {infos : List StreamInfo}
    (hids : (infos.map (·.stream.id)).Nodup)
    (h : ∀ info ∈ infos, info.stream.id ≠ st.id → info.channel = s.priv info.stream.id) :
    ∀ info ∈ s.record st infos, info.channel = s.priv info.stream.id := by
  induction infos with
  | nil => simp [record]
  | cons head infos ih =>
    rw [List.map_cons, List.nodup_cons] at hids
    intro info hinfo
    rw [record] at hinfo
    split_ifs at hinfo with hsame
    · rcases List.mem_cons.mp hinfo with rfl | htail
      · exact (congrArg s.priv hsame).symm
      simp_all
    grind

/-- What the channels of some streams leave as it was; a member is set to a channel of a stream. -/
structure Progress (s s' : Hwi) : Prop where
  ids : s'.ids = s.ids
  priv : ∀ id c, s.priv id = some c → s'.priv id = some c
  rawDump : s'.mRawDumpChannel = s.mRawDumpChannel
  member : ∀ kind, s'.member kind = s.member kind ∨ s'.Points (s'.member kind)

theorem Progress.refl (s : Hwi) : Progress s s :=
  ⟨rfl, fun _ _ h => h, rfl, fun _ => .inl rfl⟩

theorem Progress.points {s' : Hwi} (h : Progress s s') {member : Option Nat}
    (hmember : s.Points member) : s'.Points member := by
  intro c hc
  obtain ⟨id, hid, hpriv⟩ := hmember c hc
  exact ⟨id, h.ids ▸ hid, h.priv id c hpriv⟩

theorem Progress.points_member {s' : Hwi} (h : Progress s s') {kind : ChannelKind}
    (hmember : s.Points (s.member kind)) : s'.Points (s'.member kind) := by
  rcases h.member kind with hsame | hpoints
  · rw [hsame]
    exact h.points hmember
  · exact hpoints

theorem Progress.trans {s₁ s₂ : Hwi} (h : Progress s s₁) (h' : Progress s₁ s₂) :
    Progress s s₂ where
  ids := h'.ids.trans h.ids
  priv id c hc := h'.priv id c (h.priv id c hc)
  rawDump := h'.rawDump.trans h.rawDump
  member kind := by
    rcases h'.member kind with hsame | hpoints
    · rcases h.member kind with hfirst | hpoints
      · exact .inl (hsame.trans hfirst)
      · rw [hsame]
        exact .inr (h'.points hpoints)
    · exact .inr hpoints

section SetChannel

variable {st : Stream} {kind : ChannelKind} {channel : Nat}

theorem priv_setChannel : (s.setChannel kind st channel).priv =
    Function.update s.priv st.id (some channel) := by
  cases kind <;> rfl

theorem infos_setChannel : (s.setChannel kind st channel).mStreamInfo =
    ({ s with priv := Function.update s.priv st.id (some channel) } : Hwi).record st
      s.mStreamInfo := by
  cases kind <;> rfl

theorem ids_setChannel : (s.setChannel kind st channel).ids = s.ids := by
  rw [ids, infos_setChannel, map_record, ids]

theorem common_setChannel : (s.setChannel kind st channel).common = s.common := by
  cases kind <;> rfl

theorem Owns.setChannel (h : Owns s) (a : Answers) (kind : ChannelKind) (hid : st.id ∈ s.ids)
    (hnone : s.priv st.id = none) :
    Owns ((s.create a).2.setChannel kind st (s.create a).1) := by
  have hids : ((s.create a).2.setChannel kind st (s.create a).1).ids = s.ids := ids_setChannel
  refine ⟨?_, ?_, ?_, ?_⟩
  · cases kind <;> exact h.fault
  · have hchannels : ((s.create a).2.setChannel kind st (s.create a).1).channels =
        (s.create a).2.channels := by cases kind <;> rfl
    rw [hchannels]
    refine (h.channels.add a.fresh).congr ?_
    rw [held, held, hids, priv_setChannel, common_setChannel]
    show _ = ↑(s.ids.filterMap (Function.update s.priv st.id (some (s.create a).1))) + s.common
    rw [filterMap_update h.ids hid, filterMap_erase h.ids hid s.priv, hnone, ofMember_none,
      zero_add, add_assoc]
    exact (Multiset.singleton_add _ _).symm
  · rw [hids]
    exact h.ids
  · rw [infos_setChannel, priv_setChannel]
    refine recorded_record h.ids fun info hinfo hother => ?_
    exact (h.recorded info hinfo).trans (Function.update_of_ne hother _ _).symm

theorem progress_setChannel (a : Answers) (kind : ChannelKind) (hid : st.id ∈ s.ids)
    (hnone : s.priv st.id = none) :
    Progress s ((s.create a).2.setChannel kind st (s.create a).1) := by
  have hpriv : ((s.create a).2.setChannel kind st (s.create a).1).priv =
      Function.update s.priv st.id (some (s.create a).1) := priv_setChannel
  have hids : ((s.create a).2.setChannel kind st (s.create a).1).ids = s.ids := ids_setChannel
  refine ⟨hids, fun id c hc => ?_, by cases kind <;> rfl, fun other => ?_⟩
  · have hother : id ≠ st.id := fun hsame => by rw [hsame, hnone] at hc; cases hc
    simp_all
  · by_cases hsame : ((s.create a).2.setChannel kind st (s.create a).1).member other =
        some (s.create a).1
    · refine .inr fun c hc => ⟨st.id, hids ▸ hid, ?_⟩
      rw [hpriv, Function.update_self, ← hsame, hc]
    · refine .inl ?_
      cases kind <;> cases other <;> first | rfl | exact absurd rfl hsame

theorem points_setChannel (hid : st.id ∈ s.ids) :
    ((s.create a).2.setChannel kind st (s.create a).1).Points
      (((s.create a).2.setChannel kind st (s.create a).1).member kind) := by
  intro c hc
  refine ⟨st.id, ids_setChannel (s := (s.create a).2) ▸ hid, ?_⟩
  rw [priv_setChannel, Function.update_self, ← hc]
  cases kind with
  | regular => cases hc
  | raw => rfl
  | picture => rfl

end SetChannel

structure Created (streams rest : List Stream) (s s' : Hwi) : Prop extends Progress s s' where
  hasChannel : ∀ st ∈ rest, (s'.priv st.id).isSome = true
  points : ∀ kind, (∃ st ∈ rest, s.priv st.id = none ∧ channelKind streams st = some kind) →
    s'.Points (s'.member kind)

theorem Owns.createChannels (h : Owns s) {index : Nat} {rest : List Stream}
    (hids : ∀ st ∈ rest, st.id ∈ s.ids)
    (hsame : ∀ st ∈ rest, ∀ st' ∈ rest, st.id = st'.id → st = st')
    (hkind : ∀ st ∈ rest, (channelKind streams st).isSome = true)
    (halloc : ∀ i < index + rest.length, a.channelAlloc i = true) :
    ∃ s', createChannels a streams index rest s = (none, s') ∧ Owns s' ∧
      Created streams rest s s' := by
  induction rest generalizing s index with
  | nil => exact ⟨s, rfl, h, Progress.refl s, by simp, by simp⟩
  | cons st rest ih =>
    have hid : st.id ∈ s.ids := hids st List.mem_cons_self
    have hids' : ∀ st' ∈ rest, st'.id ∈ s.ids := fun st' hst' =>
      hids st' (List.mem_cons_of_mem _ hst')
    have hsame' : ∀ st₁ ∈ rest, ∀ st₂ ∈ rest, st₁.id = st₂.id → st₁ = st₂ := fun st₁ h₁ st₂ h₂ =>
      hsame st₁ (List.mem_cons_of_mem _ h₁) st₂ (List.mem_cons_of_mem _ h₂)
    have hkind' : ∀ st' ∈ rest, (channelKind streams st').isSome = true := fun st' hst' =>
      hkind st' (List.mem_cons_of_mem _ hst')
    have halloc' : ∀ i < index + 1 + rest.length, a.channelAlloc i = true := by
      intro i hi
      refine halloc i ?_
      rw [List.length_cons]
      omega
    rw [Hwi.createChannels]
    by_cases hnone : s.priv st.id = none
    · obtain ⟨kind, hst⟩ := Option.isSome_iff_exists.mp (hkind st List.mem_cons_self)
      have hmemory : a.channelAlloc index = true := halloc index (by simp)
      have hstep := progress_setChannel a kind hid hnone
      have hnow : (((s.create a).2.setChannel kind st (s.create a).1).priv st.id).isSome := by
        simp [priv_setChannel]
      obtain ⟨s', hs', howns, hcreated⟩ := ih (h.setChannel a kind hid hnone)
        (fun st' hst' => hstep.ids ▸ hids' st' hst') hsame' hkind' halloc'
      refine ⟨s', ?_, howns, hstep.trans hcreated.toProgress, ?_, ?_⟩
      · simp [hnone, hst, hmemory, hs']
      · intro st' hst'
        rcases List.mem_cons.mp hst' with rfl | hrest
        · obtain ⟨c, hc⟩ := Option.isSome_iff_exists.mp hnow
          rw [hcreated.priv _ c hc]
          rfl
        · exact hcreated.hasChannel st' hrest
      · rintro other ⟨st', hst', hnone', hst'_kind⟩
        by_cases heq : st' = st
        · rw [heq, hst] at hst'_kind
          cases hst'_kind
          exact hcreated.toProgress.points_member (points_setChannel hid)
        · -- another stream, which has no channel yet
          have hrest : st' ∈ rest := (List.mem_cons.mp hst').resolve_left heq
          have hother : st'.id ≠ st.id := fun hst_id =>
            heq (hsame st' hst' st List.mem_cons_self hst_id)
          refine hcreated.points other ⟨st', hrest, ?_, hst'_kind⟩
          rw [priv_setChannel, Function.update_of_ne hother]
          exact hnone'
    · obtain ⟨s', hs', howns, hcreated⟩ := ih h hids' hsame' hkind' halloc'
      refine ⟨s', ?_, howns, hcreated.toProgress, ?_, ?_⟩
      · rw [if_neg hnone]
        exact hs'
      · intro st' hst'
        rcases List.mem_cons.mp hst' with rfl | hrest
        · obtain ⟨c, hc⟩ := Option.ne_none_iff_exists'.mp hnone
          rw [hcreated.priv _ c hc]
          rfl
        · exact hcreated.hasChannel st' hrest
      · rintro kind ⟨st', hst', hnone', hst'_kind⟩
        rcases List.mem_cons.mp hst' with rfl | hrest
        · exact absurd hnone' hnone
        · exact hcreated.points kind ⟨st', hrest, hnone', hst'_kind⟩

/-! ## A whole call -/

theorem rest_deleteCommonChannels (s : Hwi) : ∃ channels infos,
    s.cleanAndSortStreamInfo.deleteCommonChannels =
      { s with
        channels := channels
        mStreamInfo := infos
        mMetadataChannel := none
        mSupportChannel := none
        mAnalysisChannel := none } := by
  refine ⟨s.cleanAndSortStreamInfo.deleteCommonChannels.channels,
    s.cleanAndSortStreamInfo.mStreamInfo, ?_⟩
  rw [cleanAndSort_eq]
  rfl

structure Prepared (streams : List Stream) (s s' : Hwi) : Prop extends Owns s' where
  listed : ∀ id, id ∈ s'.ids ↔ ∃ st ∈ streams, st.id = id
  priv : ∀ st ∈ streams, s'.priv st.id = none
  member : ∀ kind, s'.member kind = s.member kind
  rawDump : s'.mRawDumpChannel = s.mRawDumpChannel

theorem Owns.prepare (h : Owns s) (hinvalid : ∀ id, ¬ s.IsValid id)
    (hnew : ∀ st ∈ streams, st.id ∉ s.ids → s.priv st.id = none)
    (hall : CreatesAll a streams) :
    ∃ s₁ s₂, Hwi.enterStreams a 0 false streams s = (none, s₁) ∧
      Hwi.createCommonChannels s₁.cleanAndSortStreamInfo.deleteCommonChannels a streams =
        (none, s₂) ∧ Prepared streams s s₂ := by
  have hinput : streams.countP Stream.isInputOrBidirectional + false.toNat ≤ 1 := by
    simpa using hall.1
  obtain ⟨s₁, hs₁, howns₁, hentered⟩ := h.enterStreams hinput
    (fun i hi => hall.2.1 i (by rwa [Nat.zero_add] at hi)) hnew
  have hvalid : ∀ id, s₁.IsValid id ↔ id ∈ streams.map (·.id) := by
    intro id
    rw [hentered.isValid, or_iff_left (hinvalid id)]
  have hnone : ∀ id, s₁.IsValid id → s₁.priv id = none := fun id hid =>
    hentered.priv id (.inl ((hvalid id).mp hid))
  have howns := (howns₁.cleanAndSortStreamInfo hnone).deleteCommonChannels
  obtain ⟨s₂, hs₂, howns₂, hsame⟩ := howns.createCommonChannels rfl rfl rfl hall
  obtain ⟨channels, infos, hrest⟩ := rest_deleteCommonChannels s₁
  refine ⟨s₁, s₂, hs₁, hs₂, howns₂, fun id => ?_, fun st hst => ?_, fun kind => ?_, ?_⟩
  · rw [hsame.ids]
    exact mem_ids_cleanAndSort.trans ((hvalid id).trans List.mem_map)
  · rw [hsame.priv, hrest]
    exact hentered.priv st.id (.inl (List.mem_map_of_mem hst))
  · cases kind with
    | regular => rfl
    | raw => exact (hsame.raw.trans (by rw [hrest])).trans hentered.raw
    | picture => exact (hsame.picture.trans (by rw [hrest])).trans hentered.picture
  · exact (hsame.rawDump.trans (by rw [hrest])).trans hentered.rawDump

theorem Owns.finish (h : Owns s) (hpicture : s.Points s.mPictureChannel)
    (hnone : s.mRawDumpChannel = none) :
    Owns (s.finish a streams).2 ∧ (s.finish a streams).2.mStreamInfo = s.mStreamInfo ∧
      (s.finish a streams).2.priv = s.priv ∧
      ∀ kind, (s.finish a streams).2.member kind = s.member kind := by
  have huse : (if is4KVideo streams then s.useIfSet s.mPictureChannel else s) = s := by
    rw [h.useIfSet fun c hc => hpicture.mem_held hc, ite_self]
  unfold Hwi.finish
  rw [huse]
  split_ifs with hneeded halloc
  · refine ⟨h.of_create rfl rfl rfl rfl (common_rawDump (s.create a).2 hnone), rfl, rfl, ?_⟩
    intro kind
    cases kind <;> rfl
  · exact ⟨h, rfl, rfl, fun _ => rfl⟩
  · exact ⟨h, rfl, rfl, fun _ => rfl⟩

theorem Owns.reconfigure (h : Owns s) (hinvalid : ∀ id, ¬ s.IsValid id)
    (hrawDump : s.mRawDumpChannel = none)
    (hnew : ∀ st ∈ streams, st.id ∉ s.ids → s.priv st.id = none)
    (hsame : ∀ st ∈ streams, ∀ st' ∈ streams, st.id = st'.id → st = st')
    (hall : CreatesAll a streams) (hkind : ∀ st ∈ streams, (channelKind streams st).isSome = true)
    (hmember : ∀ kind, (s.member kind).isSome = true →
      ∃ st ∈ streams, channelKind streams st = some kind) :
    Inv { (s.reconfigure a streams).2 with configured := some streams } := by
  obtain ⟨s₁, s₂, hs₁, hs₂, hprepared⟩ := h.prepare hinvalid hnew hall
  obtain ⟨s₃, hs₃, howns₃, hcreated⟩ := hprepared.toOwns.createChannels
    (fun st hst => (hprepared.listed st.id).mpr ⟨st, hst, rfl⟩) hsame hkind
    (fun i hi => hall.2.2.2.2.2.2 i (by rwa [Nat.zero_add] at hi))
  have hpoints : ∀ kind, s₃.Points (s₃.member kind) := by
    intro kind
    by_cases hsome : (s.member kind).isSome = true
    · obtain ⟨st, hst, hst_kind⟩ := hmember kind hsome
      exact hcreated.points kind ⟨st, hst, hprepared.priv st hst, hst_kind⟩
    · rcases hcreated.member kind with hkept | hnow
      · rw [hkept, hprepared.member, Option.not_isSome_iff_eq_none.mp hsome]
        exact fun c hc => nomatch hc
      · exact hnow
  have hdump : s₃.mRawDumpChannel = none :=
    hcreated.rawDump.trans (hprepared.rawDump.trans hrawDump)
  obtain ⟨howns, hinfos, hpriv, hmembers⟩ := howns₃.finish (a := a) (hpoints .picture) hdump
  have hresult : s.reconfigure a streams = s₃.finish a streams := by
    simp [Hwi.reconfigure, hs₁, hs₂, hs₃]
  have hids : (s₃.finish a streams).2.ids = s₃.ids := by rw [Hwi.ids, hinfos, Hwi.ids]
  have hlisted : ∀ id, id ∈ (s₃.finish a streams).2.ids ↔ ∃ st ∈ streams, st.id = id := by
    intro id
    rw [hids, hcreated.ids, hprepared.listed]
  have hfinal : ∀ kind, (s₃.finish a streams).2.Points ((s₃.finish a streams).2.member kind) := by
    intro kind c hc
    rw [hids, hpriv]
    exact hpoints kind c ((hmembers kind).symm.trans hc)
  rw [hresult]
  refine ⟨⟨howns.fault, howns.channels, howns.ids, howns.recorded⟩, ?_, hfinal .picture,
    hfinal .raw, ?_⟩
  · intro id hid
    obtain ⟨st, hst, rfl⟩ := (hlisted id).mp hid
    show ((s₃.finish a streams).2.priv st.id).isSome = true
    rw [hpriv]
    exact hcreated.hasChannel st hst
  · intro streams' hstreams' st hst
    cases hstreams'
    exact (hlisted st.id).mpr ⟨st, hst, rfl⟩

/-! ## A valid call is accepted -/

theorem enterStreams_none {index : Nat} {hasInput : Bool}
    (hinput : streams.countP Stream.isInputOrBidirectional + hasInput.toNat ≤ 1)
    (halloc : ∀ i < index + streams.length, a.infoAlloc i = true) :
    (enterStreams a index hasInput streams s).1 = none := by
  induction streams generalizing s index hasInput with
  | nil => rfl
  | cons st rest ih =>
    have hmemory : a.infoAlloc index = true := halloc index (by simp)
    have hfirst : (st.isInputOrBidirectional && hasInput) = false :=
      isInput_and_hasInput hinput
    have hmore : ∀ i < index + 1 + rest.length, a.infoAlloc i = true := by
      intro i hi
      refine halloc i ?_
      rw [List.length_cons]
      omega
    rw [Hwi.enterStreams]
    simp only [hmemory, Bool.not_true, Bool.and_false, Bool.false_eq_true, if_false, hfirst]
    exact ih (countP_rest hinput) hmore

theorem createCommonChannels_none (h : Accepted cap a streams) :
    (s.createCommonChannels a streams).1 = none := by
  unfold createCommonChannels
  simp only [h.metadata.1, h.metadata.2, h.analysis, Bool.not_true, Bool.false_eq_true, if_false]
  split_ifs with hneeded hsupport
  · simp [h.support hneeded] at hsupport
  · rfl
  · rfl

theorem createChannels_none {index : Nat} {rest : List Stream}
    (halloc : ∀ i < index + rest.length, a.channelAlloc i = true) :
    (createChannels a streams index rest s).1 = none := by
  induction rest generalizing s index with
  | nil => rfl
  | cons st rest ih =>
    grind [createChannels]

theorem finish_ok (h : Accepted cap a streams) : (s.finish a streams).1 = .ok := by
  unfold finish
  cases hdump : a.enableRawDump with
  | false => rfl
  | true =>
    simp only [h.rawDump hdump, if_true]
    split_ifs <;> rfl

theorem Accepted.ok (h : Accepted cap a streams) :
    (s.configureStreams cap a (some streams)).1 = .ok := by
  have hinput : streams.countP Stream.isInputOrBidirectional + false.toNat ≤ 1 := by
    simpa using h.oneInput
  have henter : ∀ s : Hwi, (enterStreams a 0 false streams s).1 = none := fun s =>
    enterStreams_none hinput fun i hi => h.infos i (by rwa [Nat.zero_add] at hi)
  have hchannels : ∀ s : Hwi, (createChannels a streams 0 streams s).1 = none := fun s =>
    createChannels_none fun i hi => h.channels i (by rwa [Nat.zero_add] at hi)
  unfold configureStreams
  simp only [h.numStreams, h.check]
  grind [reconfigure, createCommonChannels_none, finish_ok]

/-! ## Runs -/

theorem Inv.isStreamChannel (h : Inv s) {member : Option Nat} (hmember : s.Points member) :
    s.IsStreamChannel member := by
  intro c hc
  obtain ⟨id, hid, hpriv⟩ := hmember c hc
  obtain ⟨info, hinfo, rfl⟩ := mem_ids.mp hid
  exact ⟨h.channels.live ▸ hmember.mem_held hc, info, hinfo, (h.recorded info hinfo).trans hpriv⟩

theorem Inv.consistent (h : Inv s) : Consistent cap s where
  fault := h.fault
  deletedOnce := h.channels.missed
  notLost c hc := h.mem_held_iff.mp (h.channels.live ▸ hc)
  configured streams hstreams st hst _ := by
    have hid : st.id ∈ s.ids := h.configured streams hstreams st hst
    obtain ⟨c, hc⟩ := Option.isSome_iff_exists.mp (h.hasChannel _ hid)
    obtain ⟨info, hinfo, hinfo_id⟩ := mem_ids.mp hid
    have hlive : c ∈ s.channels.live := h.channels.live ▸ mem_held_of_priv hid hc
    exact ⟨c, hlive, hc, info, hinfo, hinfo_id,
      (h.recorded info hinfo).trans (by rw [hinfo_id, hc])⟩
  picture := h.isStreamChannel h.picture
  raw := h.isStreamChannel h.raw
  stops := h.invalidate.fault
  accepts _ _ haccepted := haccepted.ok

theorem inv_init : Inv {} :=
  ⟨⟨rfl, Handles.owned_empty, List.nodup_nil, nofun⟩, nofun, nofun, nofun, nofun⟩

theorem Inv.rejected (h : Inv s) : Inv { s with configured := none } :=
  ⟨⟨h.fault, h.channels, h.ids, h.recorded⟩, h.hasChannel, h.picture, h.raw, nofun⟩

theorem checkStreams_ne_ok {rc : Rc} (h : checkStreams cap streams a = some rc) : rc ≠ .ok := by
  unfold checkStreams at h
  split_ifs at h <;> cases h <;> decide

theorem FirstFails.enterStreams (h : s.FirstFails a streams) :
    enterStreams a 0 false streams s = (some .noMem, s) := by
  obtain ⟨hfirst, hmemory⟩ := h
  cases streams with
  | nil => cases hfirst
  | cons st rest =>
    simp_all [Hwi.enterStreams]

theorem Inv.rest_invalidate (h : Inv s) : s.invalidate.ids = s.ids ∧ s.invalidate.priv = s.priv ∧
    (∀ kind, s.invalidate.member kind = s.member kind) ∧ s.invalidate.mRawDumpChannel = none := by
  rw [h.invalidate_eq]
  exact ⟨ids_invalidateStreams s, rfl, fun kind => by cases kind <;> rfl, rfl⟩

theorem FirstFails.congr {s' : Hwi} (h : s.FirstFails a streams) (hids : s'.ids = s.ids) :
    s'.FirstFails a streams := by
  have hany : ∀ id, s'.mStreamInfo.any (·.stream.id == id) =
      s.mStreamInfo.any (·.stream.id == id) := by
    intro id
    rw [Bool.eq_iff_iff, any_id_iff, any_id_iff, hids]
  refine ⟨?_, h.2⟩
  simp only [hany]
  exact h.1

theorem configureStreams_of_num {rc : Rc} (hnum : checkNumStreams cap streams = some rc) :
    s.configureStreams cap a (some streams) = (rc, s) := by
  unfold configureStreams
  simp only [hnum]

theorem configureStreams_of_check {rc : Rc} (hnum : checkNumStreams cap streams = none)
    (hcheck : checkStreams cap streams a = some rc) :
    s.configureStreams cap a (some streams) = (rc, (s.arrive streams).invalidate) := by
  unfold configureStreams
  simp only [hnum, hcheck]

theorem configureStreams_of_checked (hnum : checkNumStreams cap streams = none)
    (hcheck : checkStreams cap streams a = none) :
    s.configureStreams cap a (some streams) =
      (s.arrive streams).invalidate.reconfigure a streams := by
  unfold configureStreams
  simp only [hnum, hcheck]

theorem Inv.configureStreams (h : Inv s)
    (hsame : ∀ st ∈ streams, ∀ st' ∈ streams, st.id = st'.id → st = st')
    (hok : Ok cap s ⟨some streams, a⟩) : ∃ rc s',
      s.configureStreams cap a (some streams) = (rc, s') ∧
        (rc ≠ .ok ∧ Inv s' ∨ Inv { s' with configured := some streams }) := by
  have harrived : Inv (s.arrive streams) := h.arrive
  have hstopped : Inv (s.arrive streams).invalidate := harrived.invalidate
  obtain ⟨hids, hpriv, hmembers, hdump⟩ := harrived.rest_invalidate
  cases hnum : checkNumStreams cap streams with
  | some rc =>
    refine ⟨rc, s, configureStreams_of_num hnum, .inl ⟨?_, h⟩⟩
    unfold checkNumStreams at hnum
    split_ifs at hnum
    cases hnum
    decide
  | none =>
    cases hcheck : checkStreams cap streams a with
    | some rc =>
      exact ⟨rc, _, configureStreams_of_check hnum hcheck,
        .inl ⟨checkStreams_ne_ok hcheck, hstopped⟩⟩
    | none =>
      rw [configureStreams_of_checked hnum hcheck]
      rcases hok with hearly | ⟨hall, hkind, hpicture, hraw⟩
      · have hfirst : s.FirstFails a streams := by
          simp_all
        refine ⟨.noMem, (s.arrive streams).invalidate, ?_, .inl ⟨by decide, hstopped⟩⟩
        unfold Hwi.reconfigure
        rw [(hfirst.congr hids).enterStreams]
      · refine ⟨_, _, rfl, .inr ?_⟩
        refine hstopped.toOwns.reconfigure ?_ hdump ?_ hsame hall hkind ?_
        · rintro id ⟨info, hinfo, -, hvalid⟩
          rw [harrived.invalid_of_invalidate hinfo] at hvalid
          cases hvalid
        · intro st hst hout
          rw [hpriv]
          exact arrive_new (by rwa [hids] at hout) ⟨st, hst, rfl⟩
        · intro kind hsome
          rw [hmembers] at hsome
          cases kind with
          | regular => cases hsome
          | raw => exact hraw hsome
          | picture => exact hpicture hsome

theorem Inv.exec {call : Call} (h : Inv s) (henabled : Enabled s call) (hok : Ok cap s call) :
    Inv (s.exec cap call) := by
  rcases call with ⟨_ | streams, a⟩
  · exact h.rejected
  · obtain ⟨rc, s', hs', hcase⟩ := h.configureStreams (henabled streams rfl) hok
    unfold Hwi.exec
    simp only [hs']
    rcases hcase with ⟨hrc, hinv⟩ | hinv
    · rw [if_neg hrc]
      exact hinv.rejected
    · split_ifs with hrc
      · exact hinv
      · exact hinv.rejected

theorem inv_invariant : ((system cap).restrict (Ok cap)).Invariant Inv := by
  refine .of_restrict ?_ ?_
  · rintro s rfl
    exact inv_init
  · rintro s call s' h hok ⟨henabled, rfl⟩
    exact h.exec henabled hok

/-- The channels are consistent in every run whose calls are rejected before a stream is entered
or create the channels of all their streams, the picture and the raw one among them where there
was one. -/
theorem consistent_of_reachable (cap : Capability) (s : Hwi)
    (h : ((system cap).restrict (Ok cap)).Reachable s) : Consistent cap s :=
  (inv_invariant.reachable h).consistent

def small (id : Nat) (format : Format) : Stream := ⟨id, .output, format, 640, 480, false⟩

def sensor : Capability := ⟨8, 1920, 1080⟩

/-- A preview with a picture stream, then a call without a list and one with two picture streams,
then the picture stream with a raw stream. -/
theorem consistent_threeCalls : ∃ s : Hwi, Consistent sensor s ∧ s.mStreamInfo.length = 2 ∧
    s.mPictureChannel.isSome = true ∧ s.mRawChannel.isSome = true := by
  have hrun : (System.follow (fun s call => Ok sensor s call ∧ Enabled s call) (exec · sensor)
      [⟨some [small 1 .implementationDefined, small 2 .blob], {}⟩, ⟨none, {}⟩,
        ⟨some [small 2 .blob, small 3 .blob], {}⟩, ⟨some [small 2 .blob, small 4 .raw16], {}⟩]
      {}).any (fun s => s.mStreamInfo.length = 2 ∧ s.mPictureChannel.isSome = true ∧
        s.mRawChannel.isSome = true) = true := by
    decide +kernel
  obtain ⟨s, hs, hend⟩ := (Option.any_eq_true _ _).mp hrun
  have hinit : ((system sensor).restrict (Ok sensor)).Reachable {} := .init rfl
  exact ⟨s, consistent_of_reachable sensor s (System.reachable_follow _ hinit hs),
    of_decide_eq_true hend⟩

/-- The picture stream goes, and a video of 4K uses its deleted channel. -/
theorem not_consistent_video : ¬ ∀ cap s, (system cap).Reachable s → Consistent cap s := by
  intro hall
  have hrun : (System.follow (fun s call => True ∧ Enabled s call) (exec · sensor)
      [⟨some [small 1 .implementationDefined, small 2 .yCbCr420, small 4 .blob], {}⟩,
        ⟨some [small 1 .implementationDefined, ⟨3, .output, .implementationDefined, 3840, 2160,
          true⟩], {}⟩] {}).any (fun s => s.fault) = true := by
    decide +kernel
  obtain ⟨s, hs, hfault⟩ := (Option.any_eq_true _ _).mp hrun
  have hinit : ((system sensor).restrict fun _ _ => True).Reachable {} := .init rfl
  have hkept := (hall sensor s (System.reachable_follow _ hinit hs).of_restrict).fault
  rw [hfault] at hkept
  cases hkept

-- a call with two input streams leaves streams without a channel, and the next one stops them
example : (System.follow (fun s call => True ∧ Enabled s call) (exec · sensor)
    [⟨some [⟨1, .input, .yCbCr420, 640, 480, false⟩, ⟨2, .input, .yCbCr420, 640, 480, false⟩], {}⟩]
    {}).any (fun s => s.configured.isNone && s.invalidate.fault) = true := by
  decide +kernel

end Hwi

end EtherDevice.Hal3.Config
