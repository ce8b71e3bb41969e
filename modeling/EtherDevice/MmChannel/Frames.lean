import EtherDevice.MmChannel.Trimming
import Mathlib.Data.Set.List

/-!
# The frames of the superbufs

Streams that deliver increasing frames fill superbufs of one frame each. A superbuf is
complete after each bundled stream delivered its frame; what they deliver later is newer. So
the superbufs become complete in the order of their frames, and they leave the queue in this
order (`framesRight_of_reachable`).
-/

namespace EtherDevice.MmChannel

open Lib Channel

variable {c c' : Channel} {info : BufInfo} {idx : Nat} {streams : List UInt32}
  {last last' : UInt32 → Option UInt32} {sb x : SuperBuf}

def utilSeqCompWRollover (v1 v2 : UInt32) : Int :=
  if v1 > v2 then 1 else if v1 < v2 then -1 else 0

theorem utilSeqCompWRollover_pos {v1 v2 : UInt32} : 0 < utilSeqCompWRollover v1 v2 ↔ v2 < v1 := by
  unfold utilSeqCompWRollover
  split
  · simp_all
  · rename_i hle
    split
    · exact iff_of_false (by decide) hle
    · exact iff_of_false (by decide) hle

/-! ## Slots -/

def SuperBuf.OneFrame (sb : SuperBuf) (streams : List UInt32) : Prop :=
  ∃ infos : List BufInfo, sb.superBuf = infos.map some ∧ infos.map BufInfo.streamId = streams ∧
    ∀ info ∈ infos, info.frameIdx = sb.frameIdx

/-- A buffer in a slot is of the slot's stream and of the frame of the superbuf, which the
stream has delivered; `last` has the last frame of each stream. -/
structure SuperBuf.OfStreams (streams : List UInt32) (last : UInt32 → Option UInt32)
    (sb : SuperBuf) : Prop where
  length : sb.superBuf.length = streams.length
  slot : ∀ (i : Nat) info, sb.superBuf[i]? = some (some info) → streams[i]? = some info.streamId ∧
    info.frameIdx = sb.frameIdx ∧ ∃ l ∈ last info.streamId, info.frameIdx ≤ l

def Passed (streams : List UInt32) (last : UInt32 → Option UInt32) (frameIdx : UInt32) : Prop :=
  ∀ s ∈ streams, ∃ l ∈ last s, frameIdx ≤ l

def Advances (last last' : UInt32 → Option UInt32) : Prop :=
  ∀ s, ∀ l ∈ last s, ∃ l' ∈ last' s, l ≤ l'

namespace SuperBuf.OfStreams

theorem advance (h : sb.OfStreams streams last) (hlast : Advances last last') :
    sb.OfStreams streams last' where
  length := h.length
  slot i info hslot := by
    obtain ⟨hstream, hframe, l, hl, hle⟩ := h.slot i info hslot
    obtain ⟨l', hl', hle'⟩ := hlast info.streamId l hl
    exact ⟨hstream, hframe, l', hl', UInt32.le_trans hle hle'⟩

theorem congr (h : sb.OfStreams streams last) (hslots : x.superBuf = sb.superBuf)
    (hframe : x.frameIdx = sb.frameIdx) : x.OfStreams streams last where
  length := by rw [hslots, h.length]
  slot := by
    rw [hslots, hframe]
    exact h.slot

theorem put (h : sb.OfStreams streams last) (hstream : streams[idx]? = some info.streamId)
    (hframe : info.frameIdx = sb.frameIdx) (hlast : last info.streamId = some info.frameIdx) :
    (sb.put info idx).OfStreams streams last where
  length := (List.length_set ..).trans h.length
  slot i other hslot := by
    change (sb.superBuf.set idx (some info))[i]? = some (some other) at hslot
    rw [List.getElem?_set] at hslot
    split at hslot
    · rename_i hi
      split at hslot
      · cases hslot
        exact ⟨hi ▸ hstream, hframe, info.frameIdx, hlast, UInt32.le_refl _⟩
      · cases hslot
    · exact h.slot i other hslot

theorem oneFrame (h : sb.OfStreams streams last) (hcomplete : sb.complete = true) :
    sb.OneFrame streams ∧ Passed streams last sb.frameIdx := by
  have hsome : ∀ slot ∈ sb.superBuf, ∃ info, some info = slot := by
    intro slot hslot
    have hframe := List.all_eq_true.mp hcomplete slot hslot
    cases slot with
    | none => simp [slotFrameIdx] at hframe
    | some info => exact ⟨info, rfl⟩
  obtain ⟨infos, hinfos⟩ : sb.superBuf ∈ Set.range (List.map some) := by
    rw [Set.range_list_map]
    exact hsome
  have hslot : ∀ (i : Nat) info, infos[i]? = some info → streams[i]? = some info.streamId ∧
      info.frameIdx = sb.frameIdx ∧ ∃ l ∈ last info.streamId, info.frameIdx ≤ l := by
    intro i info hi
    apply h.slot i info
    rw [← hinfos, List.getElem?_map, hi, Option.map_some]
  have hlength : infos.length = streams.length := by
    rw [← h.length, ← hinfos, List.length_map]
  constructor
  · refine ⟨infos, hinfos.symm, ?_, ?_⟩
    · apply List.ext_getElem?
      intro i
      rw [List.getElem?_map]
      cases hi : infos[i]? with
      | none =>
        simp_all
      | some info => exact (hslot i info hi).1.symm
    · intro info hinfo
      obtain ⟨i, hi⟩ := List.mem_iff_getElem?.mp hinfo
      exact (hslot i info hi).2.1
  · intro s hs
    obtain ⟨i, hi⟩ := List.mem_iff_getElem?.mp hs
    obtain ⟨hlt, -⟩ := List.getElem?_eq_some_iff.mp hi
    have hget := List.getElem?_eq_getElem (hlength ▸ hlt)
    grind

end SuperBuf.OfStreams

/-! ## The comparison -/

def matchedOf (nodes : List SuperBuf) : List SuperBuf := nodes.filter SuperBuf.matched

theorem matchedOf_append (a b : List SuperBuf) : matchedOf (a ++ b) = matchedOf a ++ matchedOf b :=
  List.filter_append ..

theorem matchedOf_unmatched {nodes : List SuperBuf} (h : ∀ sb ∈ nodes, sb.matched = false) :
    matchedOf nodes = [] := by
  apply List.filter_eq_nil_iff.mpr
  intro sb hsb
  simp [h sb hsb]

theorem matchedOf_cons_unmatched (hsb : sb.matched = false) (nodes : List SuperBuf) :
    matchedOf (sb :: nodes) = matchedOf nodes :=
  List.filter_cons_of_neg (by simp [hsb])

theorem matchedOf_cons_matched (hsb : sb.matched = true) (nodes : List SuperBuf) :
    matchedOf (sb :: nodes) = sb :: matchedOf nodes :=
  List.filter_cons_of_pos hsb

/-- The matched superbufs stay, or a complete one of the buffer's frame comes last. -/
def Completes (info : BufInfo) (nodes nodes' : List SuperBuf) : Prop :=
  matchedOf nodes' = matchedOf nodes ∨ ∃ sb ∈ nodes', matchedOf nodes' = matchedOf nodes ++ [sb] ∧
    sb.matched = true ∧ sb.frameIdx = info.frameIdx ∧ sb.complete = true

theorem merge_completes {a b : List SuperBuf} (horder : (a ++ sb :: b).Pairwise InOrder)
    (hnodes : c.nodes = a ++ sb :: b) (hsb : sb.matched = false)
    (hframe : info.frameIdx = sb.frameIdx) (hstep : MergeStep c info idx a sb b c') :
    Completes info c.nodes c'.nodes := by
  have hold : matchedOf c.nodes = matchedOf a ++ matchedOf b := by
    rw [hnodes, matchedOf_append, matchedOf_cons_unmatched hsb]
  cases hstep with
  | filled => exact .inl rfl
  | completed hslot hcomplete =>
    have hb : matchedOf b = [] := by
      apply matchedOf_unmatched
      intro y hy
      exact unmatched_of_pairwise horder hsb y (List.mem_cons_of_mem sb hy)
    have ha : matchedOf a = matchedOf (spared info a) := by
      conv_lhs => rw [← spared_append_purged info a, matchedOf_append]
      rw [matchedOf_unmatched (purged_unmatched (List.pairwise_append.mp horder).1),
        List.append_nil]
    refine .inr ⟨{ sb.put info idx with matched := true, expected := false }, ?_, ?_, rfl,
      hframe.symm, hcomplete⟩
    · exact List.mem_append_right _ List.mem_cons_self
    · rw [hold, ha, hb, matchedOf_append, matchedOf_cons_matched rfl, hb, List.append_nil]
  | merged hslot k expected =>
    have hput : { sb.put info idx with expected := expected }.matched = false := hsb
    left
    rw [hold, matchedOf_append, matchedOf_cons_unmatched hput]

theorem drop_matchedOf (horder : c.nodes.Pairwise InOrder) {dropped : Option Nat}
    (hstep : DropStep c (passed info c.nodes) (dropped, c')) :
    matchedOf c'.nodes = matchedOf c.nodes := by
  have herase : ∀ i < c.nodes.length, (c.nodeAt i).matched = false →
      matchedOf (c.nodes.eraseIdx i) = matchedOf c.nodes := by
    intro i hi hunmatched
    obtain ⟨p, y, q, hnodes, rfl⟩ := split_at hi
    rw [nodeAt_append hnodes] at hunmatched
    simp_all [eraseIdx_middle, matchedOf_append, matchedOf_cons_unmatched]
  cases hstep with
  | kept => rfl
  | @again last i hlast hmany hi =>
    exact herase i (droppable_spec hi).1 (dropsUnmatched_of_order horder hmany last hlast i hi)
  | @last last hlast =>
    obtain ⟨p, l, q, hnodes, rfl, hl, -⟩ := split_of_findIdx? (show _ = some last from hlast)
    apply herase
    · simp [hnodes]
    · rw [nodeAt_append hnodes]
      exact (older_iff.mp hl).1

theorem insertNew_completes {dropped : Option Nat} (hd : Dropped c info dropped c')
    (hidx : idx < c'.bundledStreams.length) (hframe : info.frameIdx ≠ 0) :
    Completes info c'.nodes (c'.insertNew info idx
      ((passed info c.nodes).insertBeforeBuf.map (shifted dropped))).nodes := by
  obtain ⟨p, r, hnodes, hindex, -, hr⟩ := hd.split
  have hnew : (c'.insertNew info idx
      ((passed info c.nodes).insertBeforeBuf.map (shifted dropped))).nodes =
        p ++ c'.newSuperBuf info idx :: r := by
    simp only [insertNew]
    rw [hindex, hnodes, insertIdx_middle]
  rw [hnew, hnodes]
  by_cases hsingle : c'.bundledStreams.length = 1
  · -- all superbufs are matched, and none is newer
    have hend : r = [] := by
      cases r with
      | nil => rfl
      | cons n q =>
        have hn := (newer_iff.mp (hr n q rfl)).1
        rw [hd.counted.single hsingle n (by simp [hnodes])] at hn
        cases hn
    have hmatched : (c'.newSuperBuf info idx).matched = true := by simp [newSuperBuf, hsingle]
    refine .inr ⟨c'.newSuperBuf info idx, by simp, ?_, hmatched, rfl, ?_⟩
    · rw [hend, matchedOf_append, matchedOf_cons_matched hmatched, List.append_nil]
      rfl
    simp_all [newSuperBuf, SuperBuf.complete, slotFrameIdx]
  · have hunmatched : (c'.newSuperBuf info idx).matched = false := by simp [newSuperBuf, hsingle]
    left
    rw [matchedOf_append, matchedOf_append, matchedOf_cons_unmatched hunmatched]

theorem compare_completes (h : Counted c) (hpriority : c.attr.priority ≠ .low)
    (hidx : idx < c.bundledStreams.length) (hframe : info.frameIdx ≠ 0) (memory : Bool) :
    Completes info c.nodes (c.compare info idx memory).nodes := by
  have horder := h.order hpriority
  have hstep := c.compare_step info idx memory
  generalize c.compare info idx memory = c' at hstep ⊢
  cases hstep with
  | merged hnodes hstops hfirst hmerge =>
    obtain ⟨hsb, hjoins⟩ := stops_iff.mp hstops
    have hsame := (joins_iff hpriority (h.noMatch hpriority)).mp hjoins
    exact merge_completes (c := { c with nomatchFrameId := 0 }) (hnodes ▸ horder) hnodes hsb hsame
      hmerge
  | tooOld => exact .inl rfl
  | noMemory hnone hroom hdrop =>
    have hsame := drop_matchedOf horder hdrop
    exact .inl hsame
  | @inserted dropped c₁ hnone hroom hdrop =>
    have hd := counted_drop h hroom (dropsUnmatched_of_order horder) hdrop
    have hbundled : c₁.bundledStreams = c.bundledStreams := by cases hdrop <;> rfl
    have hnew := insertNew_completes hd (hbundled ▸ hidx) hframe
    unfold Completes at hnew ⊢
    rwa [drop_matchedOf horder hdrop] at hnew

theorem compare_ofStreams (h : ∀ sb ∈ c.nodes, sb.OfStreams c.bundledStreams last)
    (hpriority : c.attr.priority ≠ .low) (hnomatch : c.nomatchFrameId = 0)
    (hstream : c.bundledStreams[idx]? = some info.streamId)
    (hlast : last info.streamId = some info.frameIdx) (memory : Bool) :
    ∀ sb ∈ (c.compare info idx memory).nodes, sb.OfStreams c.bundledStreams last := by
  have hdropped : ∀ {w : Walk} {r : Option Nat × Channel}, DropStep c w r →
      r.2.nodes ⊆ c.nodes ∧ r.2.bundledStreams = c.bundledStreams := by
    intro w r hstep
    cases hstep with
    | kept => exact ⟨List.Subset.refl _, rfl⟩
    | again => exact ⟨List.eraseIdx_subset, rfl⟩
    | last => exact ⟨List.eraseIdx_subset, rfl⟩
  have hstep := c.compare_step info idx memory
  generalize c.compare info idx memory = c' at hstep ⊢
  cases hstep with
  | @merged a b sb _ hnodes hstops hfirst hmerge =>
    rw [hnodes] at h
    have hframe := (joins_iff hpriority hnomatch).mp (stops_iff.mp hstops).2
    have hput := (h sb (by simp)).put hstream hframe hlast
    have ha : ∀ y ∈ a, y.OfStreams c.bundledStreams last :=
      fun y hy => h y (List.mem_append_left _ hy)
    have hb : ∀ y ∈ b, y.OfStreams c.bundledStreams last :=
      fun y hy => h y (List.mem_append_right _ (List.mem_cons_of_mem sb hy))
    cases hmerge with
    | filled => exact hnodes ▸ h
    | completed =>
      intro y hy
      rcases List.mem_append.mp hy with hy | hy
      · refine ha y ?_
        rw [← spared_append_purged info a]
        exact List.mem_append_left _ hy
      rcases List.mem_cons.mp hy with rfl | hy
      · exact hput.congr rfl rfl
      · exact hb y hy
    | merged =>
      intro y hy
      rcases List.mem_append.mp hy with hy | hy
      · exact ha y hy
      rcases List.mem_cons.mp hy with rfl | hy
      · exact hput.congr rfl rfl
      · exact hb y hy
  | tooOld => exact h
  | noMemory hnone hroom hdrop =>
    have hsub := (hdropped hdrop).1
    exact fun y hy => h y (hsub hy)
  | @inserted dropped c₁ hnone hroom hdrop =>
    obtain ⟨hsub, hbundled⟩ := hdropped hdrop
    intro y hy
    rcases List.eq_or_mem_of_mem_insertIdx hy with rfl | hy
    · have hempty : (⟨List.replicate c.bundledStreams.length none, false, false,
          info.frameIdx⟩ : SuperBuf).OfStreams c.bundledStreams last := by
        refine ⟨List.length_replicate, fun i other hslot => ?_⟩
        simp_all [List.getElem?_replicate]
      refine (hempty.put hstream rfl hlast).congr ?_ rfl
      exact congrArg (fun s : List UInt32 => (List.replicate s.length none).set idx (some info))
        hbundled
    · exact h y (hsub hy)

/-! ## Dequeueing -/

def front (c c' : Channel) : List SuperBuf := c.nodes.take (c.nodes.length - c'.nodes.length)

theorem front_append (h : c'.nodes <:+ c.nodes) : front c c' ++ c'.nodes = c.nodes := by
  obtain ⟨taken, htaken⟩ := h
  unfold front
  rw [← htaken, List.length_append, Nat.add_sub_cancel, List.take_left]

theorem dequeue_suffix {matchedOnly : Bool}
    (hdeq : c.superbufDequeueInternal matchedOnly = (some sb, c')) : c'.nodes <:+ c.nodes := by
  rcases c.superbufDequeueInternal_cases matchedOnly with hnone | ⟨x, rest, hnodes, -, hsome⟩
  · rw [hnone] at hdeq
    cases hdeq
  · rw [hsome] at hdeq
    cases hdeq
    simp [hnodes]

theorem drain_suffix (c : Channel) (matchedOnly : Bool) (give : SuperBuf → List Buf)
    (fuel : Nat) : (c.drain matchedOnly give fuel).nodes <:+ c.nodes :=
  drain_preserves (P := fun d => d.nodes <:+ c.nodes)
    (fun _ _ _ hd hdeq => (dequeue_suffix hdeq).trans hd) (List.suffix_refl _) fuel

theorem trim_suffix (c : Channel) (limit : UInt8) : (c.trim limit).nodes <:+ c.nodes := by
  unfold Channel.trim
  split
  · exact List.suffix_refl _
  · exact dropAbove_preserves (P := fun d => d.nodes <:+ c.nodes)
      (fun _ _ _ hd hdeq => (dequeue_suffix hdeq).trans hd) (fun _ hd => hd) (List.suffix_refl _) _

theorem handleMetadata_suffix (c : Channel) (info : BufInfo) (env : MetaEnv) :
    (c.handleMetadata info env).2.nodes <:+ c.nodes :=
  handleMetadata_preserves (P := fun d => d.nodes <:+ c.nodes) (fun _ _ hd => hd)
    (fun d hd => (drain_suffix d _ _ _).trans hd) (fun d hd => (drain_suffix d _ _ _).trans hd)
    (List.suffix_refl _) env

theorem dispatch_cases (c : Channel) (sent : Bool) :
    c.dispatch sent = c ∨ ∃ sb rest, c.nodes = sb :: rest ∧ sb.matched = true ∧
      (c.dispatch sent).nodes = rest ∧ (c.dispatch sent).bundledStreams = c.bundledStreams ∧
      (c.dispatch sent).dispatched = c.dispatched ++ if sent then [sb.bufs] else [] := by
  unfold Channel.dispatch
  rcases c.superbufDequeueInternal_cases true with hnone | ⟨sb, rest, hnodes, hmatched, hsome⟩
  · rw [hnone]
    exact .inl rfl
  · rw [hsome]
    refine .inr ⟨sb, rest, hnodes, hmatched rfl, ?_⟩
    cases sent with
    | true => exact ⟨rfl, rfl, rfl⟩
    | false => exact ⟨rfl, rfl, (List.append_nil _).symm⟩

theorem dispatch_suffix (c : Channel) (sent : Bool) : (c.dispatch sent).nodes <:+ c.nodes := by
  grind [dispatch_cases]

theorem deliver_cases (c : Channel) (info : BufInfo) (env : MetaEnv) (memory : Bool) :
    (¬ (info.streamId ∈ c.bundledStreams ∧ info.frameIdx ≠ 0) ∧
      (c.superbufCompAndEnqueue info env memory).2.nodes = c.nodes) ∨
    (info.streamId ∈ c.bundledStreams ∧ info.frameIdx ≠ 0 ∧
      ((c.superbufCompAndEnqueue info env memory).2 =
          (c.handleMetadata info env).2.qbuf [info.buf] ∨
        ∃ idx, c.bundledStreams[idx]? = some info.streamId ∧
          (c.superbufCompAndEnqueue info env memory).2 =
            (c.handleMetadata info env).2.compare info idx memory)) := by
  unfold superbufCompAndEnqueue
  cases hidx : c.bundledStreams.idxOf? info.streamId with
  | none =>
    simp_all
  | some idx =>
    obtain ⟨hlt, hget, -⟩ := List.idxOf?_eq_some_iff.mp hidx
    have hmem : info.streamId ∈ c.bundledStreams := by
      rw [← hget]
      exact List.getElem_mem hlt
    have hstream : c.bundledStreams[idx]? = some info.streamId := by
      rw [List.getElem?_eq_getElem hlt, hget]
    dsimp only
    split
    · rename_i hframe
      exact .inl ⟨fun h => h.2 hframe, rfl⟩
    grind

def Op.dequeued (c : Channel) : Op → List SuperBuf
  | .deliver streamId frameIdx streamType env _ =>
    if streamId ∈ c.bundledStreams ∧ frameIdx ≠ 0 then
      front c (c.receiving.handleMetadata (c.nextInfo streamId frameIdx streamType) env).2
    else []
  | .control _ => []
  | op => front c (op.exec c)

/-! ## Runs -/

/-- A channel with what its streams delivered and what was taken from its queue. -/
structure Observed where
  channel : Channel
  /-- The last frame of each stream. -/
  last : UInt32 → Option UInt32 := fun _ => none
  /-- The matched superbufs that were dequeued, the first one first. -/
  dequeued : List SuperBuf := []

namespace Observed

variable {o : Observed}

def lastAfter (o : Observed) : Op → UInt32 → Option UInt32
  | .deliver streamId frameIdx _ _ _ => Function.update o.last streamId (some frameIdx)
  | _ => o.last

def exec (o : Observed) (op : Op) : Observed where
  channel := op.exec o.channel
  last := o.lastAfter op
  dequeued := o.dequeued ++ matchedOf (op.dequeued o.channel)

def Later (o : Observed) : Op → Prop
  | .deliver streamId frameIdx _ _ _ =>
    ∀ l ∈ o.last streamId, 0 < utilSeqCompWRollover frameIdx l
  | _ => True

def completed (o : Observed) : List SuperBuf := o.dequeued ++ matchedOf o.channel.nodes

theorem advances (op : Op) (hlater : o.Later op) : Advances o.last (o.lastAfter op) := by
  intro s l hl
  cases op with
  | deliver streamId frameIdx streamType env memory =>
    by_cases hs : s = streamId
    · subst hs
      refine ⟨frameIdx, Function.update_self .., ?_⟩
      exact UInt32.le_of_lt (utilSeqCompWRollover_pos.mp (hlater l hl))
    · exact ⟨l, (Function.update_of_ne hs ..).trans hl, UInt32.le_refl l⟩
  | _ => exact ⟨l, hl, UInt32.le_refl l⟩

end Observed

/-- The runs in which each stream delivers increasing frames. -/
def frameSystem (streams : List UInt32) (attr : Attr) : System Observed Op :=
  .ofFunction (· = { channel := { bundledStreams := streams, attr := attr } })
    (fun o op => o.Later op ∧ op.Enabled o.channel) Observed.exec

theorem reachable_channel {attr : Attr} {o : Observed}
    (h : (frameSystem streams attr).Reachable o) :
    (superbufSystem streams attr).Reachable o.channel := by
  induction h with
  | init h =>
    obtain rfl := h
    exact .init rfl
  | step _ hstep ih =>
    obtain ⟨⟨-, henabled⟩, rfl⟩ := hstep
    exact .step ih ⟨henabled, rfl⟩

structure Framed (streams : List UInt32) (o : Observed) : Prop where
  bundled : o.channel.bundledStreams = streams
  slots : ∀ sb ∈ o.channel.nodes, sb.OfStreams streams o.last
  complete : ∀ sb ∈ o.completed, sb.OneFrame streams ∧ Passed streams o.last sb.frameIdx
  increasing : o.completed.Pairwise fun x y => x.frameIdx < y.frameIdx
  dispatched : o.channel.dispatched.Sublist (o.dequeued.map SuperBuf.bufs)

namespace Framed

variable {o : Observed}

theorem completed_dequeue (o : Observed) (hsuffix : c'.nodes <:+ o.channel.nodes) :
    (⟨c', last', o.dequeued ++ matchedOf (front o.channel c')⟩ : Observed).completed =
      o.completed := by
  unfold Observed.completed
  rw [List.append_assoc, ← matchedOf_append, front_append hsuffix]

theorem dequeue (h : Framed streams o) (hlast : Advances o.last last')
    (hsuffix : c'.nodes <:+ o.channel.nodes) (hbundled : c'.bundledStreams = streams)
    (hdispatched : c'.dispatched.Sublist
      ((o.dequeued ++ matchedOf (front o.channel c')).map SuperBuf.bufs)) :
    Framed streams ⟨c', last', o.dequeued ++ matchedOf (front o.channel c')⟩ where
  bundled := hbundled
  slots sb hsb := (h.slots sb (hsuffix.subset hsb)).advance hlast
  complete := by
    rw [completed_dequeue o hsuffix]
    intro sb hsb
    obtain ⟨hframe, hpassed⟩ := h.complete sb hsb
    refine ⟨hframe, fun s hs => ?_⟩
    obtain ⟨l, hl, hle⟩ := hpassed s hs
    obtain ⟨l', hl', hle'⟩ := hlast s l hl
    exact ⟨l', hl', UInt32.le_trans hle hle'⟩
  increasing := by
    rw [completed_dequeue o hsuffix]
    exact h.increasing
  dispatched := hdispatched

theorem dequeueInternal (h : Framed streams o) (hlast : Advances o.last last')
    (hsuffix : c'.nodes <:+ o.channel.nodes) (hsetting : setting c' = setting o.channel) :
    Framed streams ⟨c', last', o.dequeued ++ matchedOf (front o.channel c')⟩ := by
  have hdispatched : c'.dispatched = o.channel.dispatched := congrArg (·.2.2) hsetting
  refine h.dequeue hlast hsuffix ((congrArg (·.1) hsetting).trans h.bundled) ?_
  simp [hdispatched, h.dispatched.trans]

theorem compare (h : Framed streams o) (hsetting : setting c' = setting o.channel)
    (hcompletes : Completes info o.channel.nodes c'.nodes)
    (hslots : ∀ sb ∈ c'.nodes, sb.OfStreams streams o.last)
    (hnewer : ∀ sb ∈ o.completed, sb.frameIdx < info.frameIdx) :
    Framed streams { o with channel := c' } := by
  have hdispatched : c'.dispatched = o.channel.dispatched := congrArg (·.2.2) hsetting
  have hbundled := (congrArg (·.1) hsetting).trans h.bundled
  have hsublist : c'.dispatched.Sublist (o.dequeued.map SuperBuf.bufs) := hdispatched ▸ h.dispatched
  rcases hcompletes with hsame | ⟨sb, hsb, hmatched, -, hframe, hcomplete⟩
  · have hcompleted : { o with channel := c' }.completed = o.completed :=
      congrArg (o.dequeued ++ ·) hsame
    exact ⟨hbundled, hslots, hcompleted ▸ h.complete, hcompleted ▸ h.increasing, hsublist⟩
  · have hcompleted : { o with channel := c' }.completed = o.completed ++ [sb] := by
      simp_all [Observed.completed]
    refine ⟨hbundled, hslots, ?_, ?_, hsublist⟩
    · rw [hcompleted]
      intro y hy
      rcases List.mem_append.mp hy with hy | hy
      · exact h.complete y hy
      · obtain rfl := List.mem_singleton.mp hy
        exact (hslots y hsb).oneFrame hcomplete
    · rw [hcompleted, List.pairwise_append]
      refine ⟨h.increasing, List.pairwise_singleton _ _, ?_⟩
      simp_all

theorem compared (h : Framed streams o) (hcounted : Counted o.channel)
    (hpriority : o.channel.attr.priority ≠ .low)
    (hidx : o.channel.bundledStreams[idx]? = some info.streamId) (hframe : info.frameIdx ≠ 0)
    (hlast : o.last info.streamId = some info.frameIdx)
    (hnewer : ∀ sb ∈ o.completed, sb.frameIdx < info.frameIdx) (memory : Bool) :
    Framed streams { o with channel := o.channel.compare info idx memory } := by
  have hlt := (List.getElem?_eq_some_iff.mp hidx).1
  have hslots := h.slots
  rw [← h.bundled] at hslots
  have hcompared :=
    compare_ofStreams hslots hpriority (hcounted.noMatch hpriority) hidx hlast memory
  rw [h.bundled] at hcompared
  exact h.compare (compare_setting ..) (compare_completes hcounted hpriority hlt hframe memory)
    hcompared hnewer

theorem deliver (h : Framed streams o) (hcounted : Counted o.channel)
    (hpriority : o.channel.attr.priority ≠ .low) {streamId frameIdx : UInt32}
    {streamType : StreamType} {env : MetaEnv} {memory : Bool}
    (hlater : o.Later (.deliver streamId frameIdx streamType env memory)) :
    Framed streams (o.exec (.deliver streamId frameIdx streamType env memory)) := by
  have hlast := Observed.advances _ hlater
  simp only [Observed.exec, Op.exec, Op.dequeued]
  generalize hinfo : o.channel.nextInfo streamId frameIdx streamType = info
  have hstreamId : info.streamId = streamId := by rw [← hinfo]; rfl
  have hframeIdx : info.frameIdx = frameIdx := by rw [← hinfo]; rfl
  have hsetting := deliver_setting o.channel.receiving info env memory
  rcases deliver_cases o.channel.receiving info env memory with
    ⟨hnot, hnodes⟩ | ⟨hstream, hframe, hreached⟩
  · have hfront : front o.channel (o.channel.receiving.superbufCompAndEnqueue info env memory).2 =
        [] := by
      unfold front
      rw [hnodes]
      exact (congrArg (List.take · _) (Nat.sub_self _)).trans List.take_zero
    have hkept := h.dequeueInternal hlast (hnodes ▸ List.suffix_refl _) hsetting
    rw [hfront] at hkept
    have hunreached : ¬ (streamId ∈ o.channel.bundledStreams ∧ frameIdx ≠ 0) := by
      rw [← hstreamId, ← hframeIdx]
      exact hnot
    rwa [if_neg hunreached]
  · have hreach : streamId ∈ o.channel.bundledStreams ∧ frameIdx ≠ 0 := by
      rw [← hstreamId, ← hframeIdx]
      exact ⟨hstream, hframe⟩
    rw [if_pos hreach]
    have hsettingMeta := handleMetadata_setting o.channel.receiving info env
    have hflushed := h.dequeueInternal hlast
      (handleMetadata_suffix o.channel.receiving info env) hsettingMeta
    rcases hreached with hrefused | ⟨idx, hidx, hcompared⟩
    · rw [hrefused]
      exact { hflushed with }
    · have hcountedMeta : Counted o.channel.receiving := { hcounted with }
      have hbundled : (o.channel.receiving.handleMetadata info env).2.bundledStreams =
        o.channel.bundledStreams := congrArg (·.1) hsettingMeta
      rw [hcompared]
      refine hflushed.compared (hcountedMeta.handleMetadata env) ?_ ?_ hframe ?_ ?_ memory
      · exact (attr_of_setting hsettingMeta) ▸ hpriority
      · exact (congrArg (·[idx]?) hbundled).trans hidx
      · rw [hstreamId, hframeIdx]
        exact Function.update_self ..
      · -- the complete superbufs are of frames that the stream has passed
        rw [completed_dequeue o (handleMetadata_suffix o.channel.receiving info env), hframeIdx]
        intro sb hsb
        obtain ⟨l, hl, hle⟩ := (h.complete sb hsb).2 streamId (h.bundled ▸ hreach.1)
        exact UInt32.lt_of_le_of_lt hle (utilSeqCompWRollover_pos.mp (hlater l hl))

theorem dispatch (h : Framed streams o) (sent : Bool) :
    Framed streams (o.exec (.dispatch sent)) := by
  have hrefl : Advances o.last o.last := fun _ l hl => ⟨l, hl, UInt32.le_refl l⟩
  have hsuffix := dispatch_suffix o.channel sent
  rcases dispatch_cases o.channel sent with
    heq | ⟨sb, rest, hnodes, hmatched, hrest, hbundled, hsent⟩
  · exact h.dequeueInternal hrefl hsuffix (congrArg setting heq)
  · refine h.dequeue hrefl hsuffix (hbundled.trans h.bundled) ?_
    have hfront : front o.channel (o.channel.dispatch sent) = [sb] := by
      simp [front, hnodes, hrest]
    simp only [Op.exec]
    rw [hsent, hfront, matchedOf_cons_matched hmatched, List.map_append]
    cases sent with
    | true => exact h.dispatched.append (List.Sublist.refl _)
    | false => exact h.dispatched.append (List.nil_sublist _)

theorem exec (h : Framed streams o) (hcounted : Counted o.channel)
    (hpriority : o.channel.attr.priority ≠ .low) {op : Op} (hlater : o.Later op) :
    Framed streams (o.exec op) := by
  have hrefl : Advances o.last o.last := fun _ l hl => ⟨l, hl, UInt32.le_refl l⟩
  cases op with
  | deliver => exact h.deliver hcounted hpriority hlater
  | bufdoneOverflow => exact h.dequeueInternal hrefl (trim_suffix ..) (trim_setting ..)
  | skip => exact h.dequeueInternal hrefl (trim_suffix ..) (trim_setting ..)
  | flush => exact h.dequeueInternal hrefl (drain_suffix ..) (drain_setting ..)
  | flushMatched => exact h.dequeueInternal hrefl (drain_suffix ..) (drain_setting ..)
  | dispatch sent => exact h.dispatch sent
  | control k =>
    have hnone : o.exec (.control k) = { o with channel := { o.channel with control := k } } := by
      simp [Observed.exec, Observed.lastAfter, Op.exec, Op.dequeued, matchedOf]
    rw [hnone]
    exact { h with }

end Framed

/-- The superbufs are of one frame each, and in order. -/
structure FramesRight (streams : List UInt32) (o : Observed) : Prop where
  matched : ∀ sb ∈ o.channel.nodes, sb.matched = true → sb.OneFrame streams
  ordered : (o.channel.nodes.filter (!·.matched)).Pairwise fun x y => x.frameIdx < y.frameIdx
  dequeued : ∀ sb ∈ o.dequeued, sb.OneFrame streams
  increasing : o.dequeued.Pairwise fun x y => x.frameIdx < y.frameIdx
  dispatched : o.channel.dispatched.Sublist (o.dequeued.map SuperBuf.bufs)

theorem framed_of_reachable {attr : Attr} (hpriority : attr.priority ≠ .low) {o : Observed}
    (ho : (frameSystem streams attr).Reachable o) : Framed streams o := by
  induction ho with
  | init hinit =>
    obtain rfl := hinit
    exact ⟨rfl, nofun, nofun, .nil, List.Sublist.refl _⟩
  | step hreach hstep ih =>
    obtain ⟨⟨hlater, -⟩, rfl⟩ := hstep
    have hkept := (trimmable_invariant streams attr).reachable (reachable_channel hreach)
    exact ih.exec (hkept.counted hpriority) (hkept.same ▸ hpriority) hlater

/-- **Superbufs of one frame.** If each stream delivers increasing frames and the priority is
not low, a matched superbuf has one buffer of each bundled stream, all of one frame, the
unmatched superbufs of the queue are ordered by their frames, and the matched ones are
dequeued in the order of their frames, each frame at most once. -/
theorem framesRight_of_reachable {attr : Attr} (hpriority : attr.priority ≠ .low) {o : Observed}
    (ho : (frameSystem streams attr).Reachable o) : FramesRight streams o := by
  have h := framed_of_reachable hpriority ho
  have hkept := (trimmable_invariant streams attr).reachable (reachable_channel ho)
  have horder := (hkept.counted hpriority).order (hkept.same ▸ hpriority)
  refine ⟨?_, ?_, ?_, ?_, h.dispatched⟩
  · intro sb hsb hmatched
    exact (h.complete sb (List.mem_append_right _ (List.mem_filter.mpr ⟨hsb, hmatched⟩))).1
  · refine (horder.filter _).imp_of_mem ?_
    intro x y hx _ hxy
    rcases hxy with hmatched | ⟨-, hlt⟩
    · simp [hmatched] at hx
    · exact hlt
  · exact fun sb hsb => (h.complete sb (List.mem_append_left _ hsb)).1
  · exact (List.pairwise_append.mp h.increasing).1

/-! ## A computed run -/

instance (o : Observed) : (op : Op) → Decidable (o.Later op)
  | .deliver streamId _ _ _ _ => Option.decidableForallMem (o.last streamId)
  | .bufdoneOverflow | .skip | .flush _ | .flushMatched | .dispatch _ | .control _ =>
    .isTrue trivial

def framesRun : Option Observed :=
  System.follow (fun o op => True ∧ o.Later op ∧ op.Enabled o.channel) Observed.exec
    [preview 5, preview 6, snapshot 6, metadata 6, metadata 7, preview 7, snapshot 7,
      .dispatch true, .dispatch true]
    { channel := { bundledStreams := [1, 2, 3], attr := {} } }

theorem framesRight_of_reachable_framesRun : ∃ o, framesRun = some o ∧
    o.dequeued.map SuperBuf.frameIdx = [6, 7] ∧ FramesRight [1, 2, 3] o := by
  have hrun : framesRun.any (fun o => o.dequeued.map SuperBuf.frameIdx = [6, 7]) = true := by
    decide +kernel
  obtain ⟨o, ho, hdequeued⟩ := (Option.any_eq_true _ _).mp hrun
  have hreach : ((frameSystem [1, 2, 3] {}).restrict fun _ _ => True).Reachable o :=
    System.reachable_follow _ (.init rfl) ho
  exact ⟨o, ho, of_decide_eq_true hdequeued,
    framesRight_of_reachable (by decide) hreach.of_restrict⟩

end EtherDevice.MmChannel
