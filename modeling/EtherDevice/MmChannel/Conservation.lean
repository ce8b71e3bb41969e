import EtherDevice.Lib.Heap
import EtherDevice.MmChannel.Steps
import Mathlib.Data.List.InsertIdx

/-!
# Every buffer is in one place

A buffer that a stream delivered is in one slot of one superbuf of the queue, or was given
back once, or was dispatched in one superbuf (`BuffersKept`). This holds in the runs whose
steps meet `Op.Conserves`.
-/

namespace EtherDevice.MmChannel

open Lib Channel

variable {c c' : Channel} {info : BufInfo} {idx : Nat} {streams : List UInt32} {hand : List Nat}

/-- The slots of a superbuf are those of `n` streams, and what is in them has a frame. -/
structure SuperBuf.Formed (sb : SuperBuf) (n : Nat) : Prop where
  length : sb.superBuf.length = n
  framed : ∀ slot ∈ sb.superBuf, ∀ info ∈ slot, info.frameIdx ≠ 0

def SuperBuf.serials (sb : SuperBuf) : List Nat := sb.bufs.map Buf.serial

theorem SuperBuf.Formed.framed_eq {sb : SuperBuf} {n : Nat} (hf : sb.Formed n) :
    sb.framed = sb.bufs := by
  apply List.filterMap_congr
  intro slot hslot
  cases slot with
  | none => simp
  | some info => simp [slotFrameIdx, hf.framed _ hslot info rfl]

theorem bufs_set (info : BufInfo) {slots : List (Option BufInfo)} (hidx : idx < slots.length)
    (hslot : slots.getD idx none = none) :
    ((slots.set idx (some info)).filterMap fun slot => slot.map BufInfo.buf).Perm
      (info.buf :: slots.filterMap fun slot => slot.map BufInfo.buf) := by
  have hget : slots[idx] = none := by simpa [List.getD, hidx] using hslot
  have hold : slots = slots.take idx ++ none :: slots.drop (idx + 1) := by
    rw [← hget, ← List.drop_eq_getElem_cons hidx, List.take_append_drop]
  rw [List.set_eq_take_append_cons_drop, if_pos hidx]
  grind

theorem slot_none {sb : SuperBuf} {n : Nat} (hf : sb.Formed n) (hidx : idx < n)
    (hslot : slotFrameIdx (sb.superBuf.getD idx none) = 0) : sb.superBuf.getD idx none = none := by
  have hlt : idx < sb.superBuf.length := by
    rw [hf.length]
    exact hidx
  have hget : sb.superBuf.getD idx none = sb.superBuf[idx] := by simp [List.getD, hlt]
  rw [hget] at hslot ⊢
  cases hinfo : sb.superBuf[idx] with
  | none => rfl
  | some info =>
    have hne := hf.framed _ (List.getElem_mem hlt) info (by simp [hinfo])
    simp_all [slotFrameIdx]

theorem SuperBuf.Formed.set {sb x : SuperBuf} {n : Nat} (hf : sb.Formed n)
    (hframe : info.frameIdx ≠ 0) (hx : x.superBuf = sb.superBuf.set idx (some info)) :
    x.Formed n where
  length := by rw [hx, List.length_set, hf.length]
  framed slot hslot other hother := by
    rw [hx] at hslot
    rcases List.mem_or_eq_of_mem_set hslot with hslot | rfl
    · exact hf.framed slot hslot other hother
    · cases hother
      exact hframe

def held (c : Channel) : List Nat := c.nodes.flatMap SuperBuf.serials

def gone (c : Channel) : List Nat := (c.returned ++ c.dispatched.flatten).map Buf.serial

def record (c : Channel) : Heap Nat := ⟨List.range c.delivered, gone c, []⟩

/-- The buffers in the queue and in `hand` are those that were delivered and are not gone. -/
structure Conserved (streams : List UInt32) (c : Channel) (hand : List Nat) : Prop where
  bundled : c.bundledStreams = streams
  balanced : Heap.Balanced (fun _ => False) (record c) (held c ++ hand)
  formed : ∀ sb ∈ c.nodes, sb.Formed streams.length
  notUsed : c.usedFreed = false

namespace Conserved

theorem move (h : Conserved streams c hand) {hand' : List Nat}
    (hbundled : c'.bundledStreams = c.bundledStreams) (hdelivered : c'.delivered = c.delivered)
    (hcount : ∀ n, (held c').count n + hand'.count n + (gone c').count n =
      (held c).count n + hand.count n + (gone c).count n)
    (hformed : ∀ sb ∈ c'.nodes, sb.Formed streams.length) (hnotUsed : c'.usedFreed = false) :
    Conserved streams c' hand' where
  bundled := hbundled.trans h.bundled
  balanced := by
    refine ⟨List.nodup_range, ?_, fun _ hfalse => hfalse.elim⟩
    intro n
    have hold := h.balanced.account n
    simp_all [record]
  formed := hformed
  notUsed := hnotUsed

theorem control (h : Conserved streams c hand) (k : Control) :
    Conserved streams { c with control := k } hand :=
  ⟨h.bundled, h.balanced, h.formed, h.notUsed⟩

theorem qbuf (h : Conserved streams c [info.buf.serial]) :
    Conserved streams (c.qbuf [info.buf]) [] := by
  refine h.move rfl rfl ?_ h.formed h.notUsed
  grind [held, gone, Channel.qbuf]

theorem release (h : Conserved streams c hand) {sb : SuperBuf} {rest : List SuperBuf}
    (hnodes : c.nodes = sb :: rest) {size matchCnt : Int} {bufs : List Buf}
    (hbufs : bufs = sb.bufs) :
    Conserved streams ({ c with nodes := rest, size := size, matchCnt := matchCnt }.qbuf bufs)
      hand := by
  refine h.move rfl rfl ?_ ?_ h.notUsed
  · grind [held, gone, Channel.qbuf, SuperBuf.serials]
  · intro x hx
    exact h.formed x (by rw [hnodes]; exact List.mem_cons_of_mem sb hx)

theorem dequeued (h : Conserved streams c hand) {matchedOnly : Bool} {sb : SuperBuf}
    (hdeq : c.superbufDequeueInternal matchedOnly = (some sb, c')) {bufs : List Buf}
    (hbufs : bufs = sb.bufs) : Conserved streams (c'.qbuf bufs) hand := by
  rcases c.superbufDequeueInternal_cases matchedOnly with hnone | ⟨x, rest, hnodes, -, hsome⟩
  · rw [hnone] at hdeq
    cases hdeq
  · rw [hsome] at hdeq
    cases hdeq
    exact h.release hnodes hbufs

theorem flushMatched (h : Conserved streams c hand) :
    Conserved streams c.superbufFlushMatched hand :=
  drain_preserves (P := fun c => Conserved streams c hand)
    (fun _ _ _ hc hdeq => hc.dequeued hdeq rfl) h _

theorem dropAbove (h : Conserved streams c hand) (limit : UInt8) (fuel : Nat) :
    Conserved streams (c.dropAbove limit fuel) hand :=
  dropAbove_preserves (P := fun c => Conserved streams c hand)
    (fun _ _ _ hc hdeq => hc.dequeued hdeq rfl)
    (fun _ hc => ⟨hc.bundled, hc.balanced, hc.formed, hc.notUsed⟩) h fuel

theorem flush (h : Conserved streams c hand) {camType : StreamType}
    (htype : camType = .default ∨ ∀ sb ∈ c.nodes, ∀ buf ∈ sb.bufs, buf.streamType = camType) :
    Conserved streams (c.superbufFlush camType) hand := by
  apply And.left
  apply drain_preserves (P := fun c => Conserved streams c hand ∧
    (camType = .default ∨ ∀ sb ∈ c.nodes, ∀ buf ∈ sb.bufs, buf.streamType = camType)) ?_ ⟨h, htype⟩
  rintro c sb c' ⟨hc, htype⟩ hdeq
  rcases c.superbufDequeueInternal_cases false with hnone | ⟨x, rest, hnodes, -, hsome⟩
  · rw [hnone] at hdeq
    cases hdeq
  · rw [hsome] at hdeq
    cases hdeq
    refine ⟨hc.release hnodes ?_, ?_⟩
    · apply List.filter_eq_self.mpr
      grind
    · refine htype.imp_right fun hall x hx => hall x ?_
      rw [hnodes]
      exact List.mem_cons_of_mem sb hx

theorem handleMetadata (h : Conserved streams c hand) (env : MetaEnv) :
    Conserved streams (c.handleMetadata info env).2 hand :=
  handleMetadata_preserves (P := fun c => Conserved streams c hand)
    (fun _ k hc => hc.control k) (fun _ hc => hc.flush (.inl rfl)) (fun _ hc => hc.flushMatched) h
    env

theorem dispatch (h : Conserved streams c hand) (sent : Bool) :
    Conserved streams (c.dispatch sent) hand := by
  unfold Channel.dispatch
  rcases c.superbufDequeueInternal_cases true with hnone | ⟨sb, rest, hnodes, -, hsome⟩
  · rw [hnone]
    exact h
  · rw [hsome]
    simp only
    split
    · refine h.move rfl rfl ?_ ?_ h.notUsed
      · grind [held, gone, SuperBuf.serials]
      · intro x hx
        exact h.formed x (by rw [hnodes]; exact List.mem_cons_of_mem sb hx)
    · exact h.release hnodes rfl

end Conserved

theorem serials_set {sb x : SuperBuf} {n : Nat} (hf : sb.Formed n) (hidx : idx < n)
    (hslot : slotFrameIdx (sb.superBuf.getD idx none) = 0)
    (hx : x.superBuf = sb.superBuf.set idx (some info)) (m : Nat) :
    x.serials.count m = sb.serials.count m + [info.buf.serial].count m := by
  have hlt : idx < sb.superBuf.length := by
    rw [hf.length]
    exact hidx
  have hperm := (bufs_set info hlt (slot_none hf hidx hslot)).map Buf.serial
  have hcount := hperm.count_eq m
  rw [List.map_cons, List.count_cons, ← hx] at hcount
  rw [List.count_singleton]
  exact hcount

theorem flatMap_framed (sbs : List SuperBuf) {n : Nat} (hf : ∀ sb ∈ sbs, sb.Formed n) :
    (sbs.flatMap SuperBuf.framed).map Buf.serial = sbs.flatMap SuperBuf.serials := by
  rw [List.map_flatMap]
  apply List.flatMap_congr
  intro sb hsb
  rw [(hf sb hsb).framed_eq]
  rfl

theorem conserved_merge (h : Conserved streams c [info.buf.serial]) (hidx : idx < streams.length)
    (hframe : info.frameIdx ≠ 0) {a b : List SuperBuf} {sb : SuperBuf}
    (hnodes : c.nodes = a ++ sb :: b) (hstep : MergeStep c info idx a sb b c') :
    Conserved streams c' [] := by
  have hsb : sb.Formed streams.length := h.formed sb (by simp [hnodes])
  have hrest : ∀ x ∈ a ++ b, x.Formed streams.length := by
    intro x hx
    apply h.formed
    rw [hnodes]
    rcases List.mem_append.mp hx with hx | hx <;> simp [hx]
  cases hstep with
  | filled => exact h.qbuf
  | completed hslot hcomplete =>
    have ha := spared_append_purged info a
    refine h.move rfl rfl ?_ ?_ h.notUsed
    · intro n
      have hput := serials_set (x := { sb.put info idx with
        matched := true, expected := false }) hsb hidx hslot rfl n
      have hpurged := flatMap_framed (purged info a) fun x hx => hrest x (by
        rw [← ha]
        simp [hx])
      grind [held, gone]
    · intro x hx
      rcases List.mem_append.mp hx with hx | hx
      · exact hrest x (by rw [← ha]; simp [hx])
      rcases List.mem_cons.mp hx with rfl | hx
      · exact hsb.set hframe rfl
      · exact hrest x (List.mem_append_right a hx)
  | @merged hslot k expected =>
    refine h.move rfl rfl ?_ ?_ h.notUsed
    · intro n
      have hput := serials_set (x := { sb.put info idx with expected := expected }) hsb
        hidx hslot rfl n
      grind [held, gone]
    · intro x hx
      rcases List.mem_append.mp hx with hx | hx
      · exact hrest x (List.mem_append_left b hx)
      rcases List.mem_cons.mp hx with rfl | hx
      · exact hsb.set hframe rfl
      · exact hrest x (List.mem_append_right a hx)

/-- If too many superbufs wait, `last_buf` is the one to drop. -/
def DropsLast (c : Channel) (w : Walk) : Prop :=
  c.attr.maxUnmatchedFrames.toNat < w.unmatchedBundles →
    ∀ last ∈ w.lastBuf, c.droppable last w.insertBeforeBuf = none

theorem conserved_drop (h : Conserved streams c hand) {dropped : Option Nat}
    (hlast : DropsLast c (passed info c.nodes))
    (hstep : DropStep c (passed info c.nodes) (dropped, c')) :
    Conserved streams c' hand ∧ ∀ before ∈ (passed info c.nodes).insertBeforeBuf,
      shifted dropped before ≤ c'.nodes.length := by
  have hbefore : ∀ before ∈ (passed info c.nodes).insertBeforeBuf, before < c.nodes.length := by
    intro before hbefore
    obtain ⟨p, x, q, hnodes, rfl, -⟩ := split_of_findIdx? (show _ = some before from hbefore)
    simp [hnodes]
  cases hstep with
  | kept _ => exact ⟨h, fun before hmem => Nat.le_of_lt (hbefore before hmem)⟩
  | again hw hmany hi _ =>
    rw [hlast hmany _ hw] at hi
    cases hi
  | @last last hw hmany =>
    obtain ⟨p, x, q, hnodes, rfl, -⟩ := split_of_findIdx? (show _ = some last from hw)
    have hmiddle : (p ++ x :: q).eraseIdx p.length = p ++ q := by
      rw [List.eraseIdx_append_of_length_le (Nat.le_refl _), Nat.sub_self, List.eraseIdx_cons_zero]
    have hx : x.Formed streams.length := h.formed x (by simp [hnodes])
    refine ⟨h.move rfl rfl ?_ ?_ h.notUsed, ?_⟩
    · intro n
      rw [nodeAt_append hnodes, hx.framed_eq]
      grind [held, gone, SuperBuf.serials]
    · intro y hy
      exact h.formed y (List.mem_of_mem_eraseIdx hy)
    grind [shifted]

theorem conserved_insertNew (h : Conserved streams c [info.buf.serial])
    (hidx : idx < streams.length) (hframe : info.frameIdx ≠ 0) {before : Option Nat}
    (hbefore : ∀ i ∈ before, i ≤ c.nodes.length) :
    Conserved streams (c.insertNew info idx before) [] := by
  have hempty : SuperBuf.Formed ⟨List.replicate streams.length none, false, false, 0⟩
      streams.length := by
    refine ⟨List.length_replicate, ?_⟩
    simp
  have hnew : (c.newSuperBuf info idx).superBuf =
      (List.replicate streams.length none).set idx (some info) := by
    rw [newSuperBuf, h.bundled]
  have hle : before.getD c.nodes.length ≤ c.nodes.length := by
    cases before with
    | none => exact Nat.le_refl _
    | some i => exact hbefore i rfl
  have hperm := List.perm_insertIdx (c.newSuperBuf info idx) c.nodes hle
  refine h.move rfl rfl ?_ ?_ h.notUsed
  · intro n
    have hput := serials_set hempty hidx (by simp [slotFrameIdx, hidx]) hnew n
    have hheld := (hperm.flatMap_right SuperBuf.serials).count_eq n
    have hnone : SuperBuf.serials ⟨List.replicate streams.length none, false, false, 0⟩ = [] := by
      simp [SuperBuf.serials, SuperBuf.bufs]
    rw [List.flatMap_cons, List.count_append, hput, hnone, List.count_nil] at hheld
    have hgone : gone (c.insertNew info idx before) = gone c := rfl
    have hnow : (held (c.insertNew info idx before)).count n =
      0 + [info.buf.serial].count n + (held c).count n := hheld
    rw [hgone, hnow, List.count_nil]
    omega
  · intro x hx
    rcases List.mem_cons.mp (hperm.mem_iff.mp hx) with rfl | hx
    · exact hempty.set hframe hnew
    · exact h.formed x hx

def CompareConserves (c : Channel) (info : BufInfo) (idx : Nat) : Prop :=
  (c.walk info idx 0 {} c.nodes).found = none → DropsLast c (c.walk info idx 0 {} c.nodes)

theorem conserved_compare (h : Conserved streams c [info.buf.serial])
    (hidx : idx < streams.length) (hframe : info.frameIdx ≠ 0)
    (hconserves : CompareConserves c info idx) (memory : Bool) :
    Conserved streams (c.compare info idx memory) [] := by
  have hstep := c.compare_step info idx memory
  have hdrops : (∀ x ∈ c.nodes, c.stops info idx x = false) →
      DropsLast c (passed info c.nodes) := by
    intro hnone
    unfold CompareConserves at hconserves
    rw [walk_none hnone] at hconserves
    exact hconserves rfl
  generalize c.compare info idx memory = c' at hstep ⊢
  cases hstep with
  | merged hnodes _ _ hmerge =>
    have h' : Conserved streams { c with nomatchFrameId := 0 } [info.buf.serial] :=
      ⟨h.bundled, h.balanced, h.formed, h.notUsed⟩
    exact conserved_merge h' hidx hframe hnodes hmerge
  | tooOld => exact h.qbuf
  | noMemory hnone _ hdrop => exact (conserved_drop h (hdrops hnone) hdrop).1.qbuf
  | inserted hnone _ hdrop =>
    obtain ⟨h', hbefore⟩ := conserved_drop h (hdrops hnone) hdrop
    simp_all [conserved_insertNew]

/-- A step loses no buffer and uses no freed node. -/
def Op.Conserves (c : Channel) : Op → Prop
  | .deliver streamId frameIdx streamType env _ => streamId ∈ c.bundledStreams ∧
      ∀ p ∈ c.receiving.comparing (c.nextInfo streamId frameIdx streamType) env,
        CompareConserves p.2 (c.nextInfo streamId frameIdx streamType) p.1
  | .flush camType =>
      camType = .default ∨ ∀ sb ∈ c.nodes, ∀ buf ∈ sb.bufs, buf.streamType = camType
  | _ => True

theorem conserved_receiving (h : Conserved streams c []) :
    Conserved streams c.receiving [c.delivered] where
  bundled := h.bundled
  balanced := by
    have hnew : c.delivered ∉ List.range c.delivered := by simp
    have halloc : Heap.Balanced (fun _ => False) ((record c).alloc c.delivered)
        (held c ++ [c.delivered]) := h.balanced.alloc hnew (by simp)
    rw [Heap.alloc, record, ← List.range_succ] at halloc
    exact halloc
  formed := h.formed
  notUsed := h.notUsed

theorem conserved_exec (h : Conserved streams c []) {op : Op} (hconserves : op.Conserves c) :
    Conserved streams (op.exec c) [] := by
  cases op with
  | deliver streamId frameIdx streamType env memory =>
    obtain ⟨hstream, hcompare⟩ := hconserves
    have h' := conserved_receiving h
    have hmeta : Conserved streams
        (c.receiving.handleMetadata (c.nextInfo streamId frameIdx streamType) env).2
          [c.delivered] := h'.handleMetadata env
    have hstep :=
      c.receiving.deliver_step (c.nextInfo streamId frameIdx streamType) env memory
    simp only [Op.exec]
    generalize (c.receiving.superbufCompAndEnqueue _ env memory).2 = c' at hstep ⊢
    cases hstep with
    | notBundled hnot => exact absurd hstream hnot
    | noFrame => exact h'.qbuf
    | refused => exact hmeta.qbuf
    | compared hidx hframe hcomparing =>
      rw [h'.bundled] at hidx
      exact conserved_compare hmeta hidx hframe (hcompare _ hcomparing) memory
  | bufdoneOverflow =>
    simp only [Op.exec, superbufBufdoneOverflow]
    split
    · exact h
    · exact h.dropAbove _ _
  | skip =>
    simp only [Op.exec, superbufSkip]
    split
    · exact h
    · exact h.dropAbove _ _
  | flush camType => exact h.flush hconserves
  | flushMatched => exact h.flushMatched
  | dispatch sent => exact h.dispatch sent
  | control k => exact h.control k

/-- The runs in which no step loses a buffer. -/
def conservingSystem (streams : List UInt32) (attr : Attr) : System Channel Op :=
  (superbufSystem streams attr).restrict fun c op => op.Conserves c

theorem conserved_invariant (streams : List UInt32) (attr : Attr) :
    (conservingSystem streams attr).Invariant fun c => Conserved streams c [] := by
  apply System.Invariant.of_restrict
  · rintro c rfl
    refine ⟨rfl, ⟨List.nodup_range, ?_, fun _ hfalse => hfalse.elim⟩, ?_, rfl⟩
    · simp [record, held, gone]
    · exact fun sb hsb => absurd hsb List.not_mem_nil
  · rintro c op c' h hconserves ⟨-, rfl⟩
    exact conserved_exec h hconserves

/-- Each buffer that was delivered is in one slot of the queue, or was given back once, or
was dispatched once; nothing else is there; no freed node was used. -/
structure BuffersKept (c : Channel) : Prop where
  onePlace : ∀ n < c.delivered, (c.nodes.flatMap SuperBuf.serials).count n +
    (c.returned.map Buf.serial).count n + (c.dispatched.flatten.map Buf.serial).count n = 1
  noOther : ∀ n ≥ c.delivered, n ∉ c.nodes.flatMap SuperBuf.serials ∧
    n ∉ c.returned.map Buf.serial ∧ n ∉ c.dispatched.flatten.map Buf.serial
  noFreedNode : c.usedFreed = false

theorem Conserved.buffersKept (h : Conserved streams c []) : BuffersKept c := by
  have haccount : ∀ n, (c.nodes.flatMap SuperBuf.serials).count n +
      ((c.returned.map Buf.serial).count n + (c.dispatched.flatten.map Buf.serial).count n) =
        (List.range c.delivered).count n := by
    intro n
    have hold := h.balanced.account n
    simpa only [record, held, gone, List.append_nil, List.map_append, List.count_append] using hold
  constructor
  · grind
  · intro n hn
    have hzero : (List.range c.delivered).count n = 0 :=
      List.count_eq_zero_of_not_mem (by simpa using hn)
    have hall := haccount n
    refine ⟨?_, ?_, ?_⟩ <;> apply List.count_eq_zero.mp <;> omega
  · exact h.notUsed

/-- In the runs whose steps lose no buffer, every buffer is in one place. -/
theorem buffersKept_of_reachable {streams : List UInt32} {attr : Attr}
    (hc : (conservingSystem streams attr).Reachable c) : BuffersKept c :=
  ((conserved_invariant streams attr).reachable hc).buffersKept

instance (c : Channel) (w : Walk) : Decidable (DropsLast c w) :=
  inferInstanceAs (Decidable (_ → ∀ last ∈ w.lastBuf, _))

instance (c : Channel) (info : BufInfo) (idx : Nat) : Decidable (CompareConserves c info idx) :=
  inferInstanceAs (Decidable (_ → _))

instance (c : Channel) : (op : Op) → Decidable (op.Conserves c)
  | .deliver streamId frameIdx streamType env _ => inferInstanceAs (Decidable (_ ∧
      ∀ p ∈ c.receiving.comparing (c.nextInfo streamId frameIdx streamType) env, _))
  | .flush _ => inferInstanceAs (Decidable (_ ∨ _))
  | .bufdoneOverflow | .skip | .flushMatched | .dispatch _ | .control _ => .isTrue trivial

def previewOp (frameIdx : UInt32) : Op :=
  .deliver 1 frameIdx .preview ⟨some ⟨.preview, true⟩, none⟩ true

def metadataOp (frameIdx : UInt32) : Op :=
  .deliver 2 frameIdx .metadata ⟨some ⟨.metadata, true⟩, some {}⟩ true

/-- Two superbufs are completed; one is dispatched and one given back. -/
def bundled : Option Channel :=
  System.follow (fun c op => op.Conserves c ∧ op.Enabled c) Op.exec
    [previewOp 1, previewOp 2, metadataOp 2, .dispatch true, metadataOp 3, previewOp 3,
      .flush .default] { bundledStreams := [1, 2], attr := {} }

theorem buffersKept_of_reachable_bundled :
    ∃ c, bundled = some c ∧ (c.returned.length = 3 ∧ c.dispatched.length = 1) ∧ BuffersKept c := by
  have hrun : bundled.any (fun c => c.returned.length = 3 ∧ c.dispatched.length = 1) = true := by
    decide +kernel
  obtain ⟨c, hc, hgone⟩ := (Option.any_eq_true _ _).mp hrun
  have hreach : (conservingSystem [1, 2] {}).Reachable c := System.reachable_follow _ (.init rfl) hc
  exact ⟨c, hc, of_decide_eq_true hgone, buffersKept_of_reachable hreach⟩

/-- Three frames without metadata: the first superbuf is dropped, and read after that. -/
theorem not_buffersKept : ∃ c, (superbufSystem [1, 2] {}).Reachable c ∧ ¬ BuffersKept c := by
  have hrun : (System.follow (fun c op => True ∧ op.Enabled c) Op.exec
      [previewOp 1, previewOp 2, previewOp 3]
        ({ bundledStreams := [1, 2], attr := {} } : Channel)).any (fun c => c.usedFreed) =
          true := by decide +kernel
  obtain ⟨c, hc, hused⟩ := (Option.any_eq_true _ _).mp hrun
  have hreach : ((superbufSystem [1, 2] {}).restrict fun _ _ => True).Reachable c :=
    System.reachable_follow _ (.init rfl) hc
  refine ⟨c, hreach.of_restrict, ?_⟩
  intro h
  exact absurd hused (by rw [h.noFreedNode]; simp)

end EtherDevice.MmChannel
