import EtherDevice.MmChannel.Counters
import Mathlib.Data.List.TakeWhile

/-!
# Trimming the superbuf queue

`mm_channel_superbuf_bufdone_overflow` and `mm_channel_superbuf_skip` take matched superbufs
from the front of the queue while `match_cnt` is above their limit. The loop ends exactly if
the queue begins with as many matched superbufs as `match_cnt` is above the limit, and then
it leaves at most the limit of them (`trimRight_iff_of_reachable`). Unless the priority is
low, it always ends.
-/

namespace EtherDevice.MmChannel

open Lib

namespace Channel

variable {c c' : Channel} {info : BufInfo} {idx : Nat} {limit : UInt8}

def excess (c : Channel) (limit : UInt8) : Nat := (c.matchCnt - limit.toNat).toNat

def matchedFront (c : Channel) : Nat := (c.nodes.takeWhile SuperBuf.matched).length

def trimmed (c : Channel) (n : Nat) : Channel :=
  { c with
    nodes := c.nodes.drop n
    size := c.size - n
    matchCnt := c.matchCnt - n
    returned := c.returned ++ (c.nodes.take n).flatMap SuperBuf.bufs }

theorem trimmed_zero (c : Channel) : c.trimmed 0 = c := by
  simp [trimmed]

theorem trimmed_succ {sb : SuperBuf} {rest : List SuperBuf} (hnodes : c.nodes = sb :: rest)
    (n : Nat) : ({ c with
      nodes := rest
      size := c.size - 1
      matchCnt := c.matchCnt - 1 }.qbuf sb.bufs).trimmed n = c.trimmed (n + 1) := by
  grind [trimmed, qbuf]

theorem matchedFront_cons {sb : SuperBuf} {rest : List SuperBuf} (hnodes : c.nodes = sb :: rest)
    (hmatched : sb.matched = true) :
    c.matchedFront = (rest.takeWhile SuperBuf.matched).length + 1 := by
  rw [matchedFront, hnodes, List.takeWhile_cons_of_pos hmatched, List.length_cons]

theorem dropAbove_succ (limit : UInt8) (fuel : Nat) (c : Channel) :
    (c.excess limit = 0 ∧ c.dropAbove limit (fuel + 1) = c) ∨
    (0 < c.excess limit ∧ c.matchedFront = 0 ∧
      c.dropAbove limit (fuel + 1) = { c with spins := true }) ∨
    ∃ c₁ : Channel, c.excess limit = c₁.excess limit + 1 ∧ c.matchedFront = c₁.matchedFront + 1 ∧
      (∀ n, c₁.trimmed n = c.trimmed (n + 1)) ∧
      c.dropAbove limit (fuel + 1) = c₁.dropAbove limit fuel := by
  rw [dropAbove]
  by_cases habove : c.matchCnt > limit.toNat
  · rw [if_pos habove]
    right
    have hpos : 0 < c.excess limit := by
      unfold excess
      omega
    rcases hnodes : c.nodes with _ | ⟨sb, rest⟩
    · left
      simp [superbufDequeueInternal, matchedFront, hnodes, hpos]
    cases hmatched : sb.matched with
    | false =>
      simp_all [superbufDequeueInternal, matchedFront]
    | true =>
      right
      refine ⟨_, ?_, matchedFront_cons hnodes hmatched, trimmed_succ hnodes, ?_⟩
      · show c.excess limit = (c.matchCnt - 1 - limit.toNat).toNat + 1
        unfold excess
        omega
      · simp [superbufDequeueInternal, hnodes, hmatched]
  simp_all [if_neg, excess]

theorem dropAbove_of_le {fuel : Nat} (hfuel : c.matchedFront < fuel)
    (hle : c.excess limit ≤ c.matchedFront) :
    c.dropAbove limit fuel = c.trimmed (c.excess limit) := by
  induction fuel generalizing c with
  | zero => exact absurd hfuel (Nat.not_lt_zero _)
  | succ fuel ih =>
    grind [dropAbove_succ, trimmed_zero]

theorem dropAbove_of_lt {fuel : Nat} (hfuel : c.matchedFront < fuel)
    (hlt : c.matchedFront < c.excess limit) : (c.dropAbove limit fuel).spins = true := by
  induction fuel generalizing c with
  | zero => exact absurd hfuel (Nat.not_lt_zero _)
  | succ fuel ih =>
    grind [dropAbove_succ]

theorem matchedFront_le (c : Channel) : c.matchedFront ≤ c.nodes.length :=
  (List.takeWhile_sublist _).length_le

theorem take_matched {n : Nat} (hn : n ≤ c.matchedFront) :
    ∀ sb ∈ c.nodes.take n, sb.matched = true := by
  intro sb hsb
  have hfront : c.nodes.take n <+: c.nodes.takeWhile SuperBuf.matched := by
    apply List.prefix_of_prefix_length_le (List.take_prefix n c.nodes) (List.takeWhile_prefix _)
    exact (List.length_take_le n c.nodes).trans hn
  exact List.mem_takeWhile_imp (hfront.subset hsb)

theorem countP_trimmed {n : Nat} (hn : n ≤ c.matchedFront) :
    (c.trimmed n).nodes.countP SuperBuf.matched + n = c.nodes.countP SuperBuf.matched := by
  have htake : (c.nodes.take n).countP SuperBuf.matched = n := by
    rw [List.countP_eq_length.mpr (take_matched hn), List.length_take]
    exact Nat.min_eq_left (hn.trans c.matchedFront_le)
  conv_rhs => rw [← List.take_append_drop n c.nodes, List.countP_append, htake]
  exact Nat.add_comm _ _

/-- What a call leaves: the loop ends, at most the limit of matched superbufs are there, and
the first ones of the queue, all matched, were given back in their order. -/
structure TrimRight (c : Channel) (limit : UInt8) (c' : Channel) : Prop where
  ends : c'.spins = false
  few : c'.nodes.countP SuperBuf.matched ≤ limit.toNat
  removed : ∃ n ≤ c.nodes.length, (∀ sb ∈ c.nodes.take n, sb.matched = true) ∧ c' = c.trimmed n

/-- The queue begins with as many matched superbufs as `match_cnt` is above the limit; in
continuous mode, in which nothing is taken out, there are no more than the limit. -/
def TrimEnds (c : Channel) (limit : UInt8) : Prop :=
  match c.control.notifyMode with
  | .continuous => c.nodes.countP SuperBuf.matched ≤ limit.toNat
  | .burst => c.excess limit ≤ c.matchedFront

def trim (c : Channel) (limit : UInt8) : Channel :=
  if c.control.notifyMode = .continuous then c else c.dropAbove limit (c.nodes.length + 1)

theorem superbufBufdoneOverflow_eq (c : Channel) :
    c.superbufBufdoneOverflow = c.trim c.attr.waterMark := rfl

theorem superbufSkip_eq (c : Channel) : c.superbufSkip = c.trim c.attr.lookBack := rfl

theorem trim_right_iff (hspins : c.spins = false)
    (hcount : (c.nodes.countP SuperBuf.matched : Int) ≤ c.matchCnt) :
    TrimRight c limit (c.trim limit) ↔ TrimEnds c limit := by
  unfold trim TrimEnds
  cases hmode : c.control.notifyMode with
  | continuous =>
    constructor
    · exact TrimRight.few
    · intro hfew
      refine ⟨hspins, hfew, 0, Nat.zero_le _, ?_, c.trimmed_zero.symm⟩
      simp
  | burst =>
    rw [if_neg (by decide)]
    have hfuel : c.matchedFront < c.nodes.length + 1 := Nat.lt_succ_of_le c.matchedFront_le
    constructor
    · intro hright
      by_contra hlt
      have hends := hright.ends
      simp_all [dropAbove_of_lt]
    · intro hle
      rw [dropAbove_of_le hfuel hle]
      refine ⟨hspins, ?_, _, hle.trans c.matchedFront_le, take_matched hle, rfl⟩
      have hleft := countP_trimmed hle
      have hexcess : c.excess limit = (c.matchCnt - limit.toNat).toNat := rfl
      omega

end Channel

open Channel

variable {c c' : Channel} {info : BufInfo} {idx : Nat}

/-- `match_cnt` is at least the number of matched superbufs. At low priority it can be more,
as matched superbufs are dropped with the older ones. -/
def AtLeastMatched (c : Channel) : Prop := (c.nodes.countP SuperBuf.matched : Int) ≤ c.matchCnt

namespace AtLeastMatched

theorem control (h : AtLeastMatched c) (k : Control) : AtLeastMatched { c with control := k } := h

theorem qbuf (h : AtLeastMatched c) (bufs : List Buf) : AtLeastMatched (c.qbuf bufs) := h

theorem dequeued (h : AtLeastMatched c) {matchedOnly : Bool} {sb : SuperBuf}
    (hdeq : c.superbufDequeueInternal matchedOnly = (some sb, c')) : AtLeastMatched c' := by
  rcases c.superbufDequeueInternal_cases matchedOnly with hnone | ⟨x, rest, hnodes, -, hsome⟩
  · rw [hnone] at hdeq
    cases hdeq
  grind [AtLeastMatched]

theorem flushMatched (h : AtLeastMatched c) : AtLeastMatched c.superbufFlushMatched :=
  drain_preserves (fun _ _ _ hc hdeq => (hc.dequeued hdeq).qbuf _) h _

theorem flush (h : AtLeastMatched c) (camType : StreamType) :
    AtLeastMatched (c.superbufFlush camType) :=
  drain_preserves (fun _ _ _ hc hdeq => (hc.dequeued hdeq).qbuf _) h _

theorem trim (h : AtLeastMatched c) (limit : UInt8) : AtLeastMatched (c.trim limit) := by
  unfold Channel.trim
  split
  · exact h
  · exact dropAbove_preserves (fun _ _ _ hc hdeq => (hc.dequeued hdeq).qbuf _) (fun _ hc => hc) h _

theorem handleMetadata (h : AtLeastMatched c) (env : MetaEnv) :
    AtLeastMatched (c.handleMetadata info env).2 :=
  handleMetadata_preserves (fun _ k hc => hc.control k) (fun _ hc => hc.flush _)
    (fun _ hc => hc.flushMatched) h env

theorem dispatch (h : AtLeastMatched c) (sent : Bool) : AtLeastMatched (c.dispatch sent) := by
  unfold Channel.dispatch
  rcases hdeq : c.superbufDequeueInternal true with ⟨_ | sb, c'⟩
  · rcases c.superbufDequeueInternal_cases true with hnone | ⟨sb, rest, _, _, hsome⟩
    · simp_all
    simp_all
  · simp only
    split
    · have hdequeued := h.dequeued hdeq
      exact hdequeued
    · exact (h.dequeued hdeq).qbuf _

theorem merge (h : AtLeastMatched c) {a b : List SuperBuf} {sb : SuperBuf}
    (hnodes : c.nodes = a ++ sb :: b) (hsb : sb.matched = false)
    (hstep : MergeStep c info idx a sb b c') : AtLeastMatched c' := by
  have hold := h
  unfold AtLeastMatched at hold ⊢
  rw [hnodes, List.countP_append, List.countP_cons, hsb] at hold
  cases hstep with
  | filled => exact h
  | completed =>
    have hspared : (spared info a).countP SuperBuf.matched ≤ a.countP SuperBuf.matched := by
      conv_rhs => rw [← spared_append_purged info a, List.countP_append]
      exact Nat.le_add_right _ _
    simp only [List.countP_append, List.countP_cons, if_true]
    omega
  | merged => simpa [SuperBuf.put, List.countP_cons, hsb] using hold

theorem drop (h : AtLeastMatched c) {w : Walk} {dropped : Option Nat}
    (hstep : DropStep c w (dropped, c')) : AtLeastMatched c' := by
  have herase : ∀ i, (c.nodes.eraseIdx i).countP SuperBuf.matched ≤
      c.nodes.countP SuperBuf.matched := fun i => (List.eraseIdx_sublist _ _).countP_le
  have hold := h
  unfold AtLeastMatched at hold ⊢
  cases hstep with
  | kept => exact hold
  | @again _ i =>
    have hle := herase i
    dsimp only
    omega
  | @last i =>
    have hle := herase i
    dsimp only
    omega

theorem insertNew (h : AtLeastMatched c) (before : Option Nat) :
    AtLeastMatched (c.insertNew info idx before) := by
  have hmatched : (c.newSuperBuf info idx).matched = decide (c.bundledStreams.length = 1) := rfl
  have hinsert : (c.nodes.insertIdx (before.getD c.nodes.length)
      (c.newSuperBuf info idx)).countP SuperBuf.matched ≤
        (c.newSuperBuf info idx :: c.nodes).countP SuperBuf.matched := by
    rcases Nat.lt_or_ge c.nodes.length (before.getD c.nodes.length) with hlt | hle
    · rw [List.insertIdx_of_length_lt hlt]
      exact (List.sublist_cons_self _ _).countP_le
    · exact ((List.perm_insertIdx _ _ hle).countP_eq _).le
  rw [List.countP_cons, hmatched] at hinsert
  unfold AtLeastMatched Channel.insertNew at *
  simp only [decide_eq_true_eq] at hinsert ⊢
  split at hinsert
  · omega
  · omega

theorem compare (h : AtLeastMatched c) (memory : Bool) :
    AtLeastMatched (c.compare info idx memory) := by
  have hstep := c.compare_step info idx memory
  generalize c.compare info idx memory = c' at hstep ⊢
  cases hstep with
  | merged hnodes hstops hfirst hmerge =>
    have h' : AtLeastMatched { c with nomatchFrameId := 0 } := h
    exact h'.merge hnodes (stops_iff.mp hstops).1 hmerge
  | tooOld => exact h
  | noMemory hnone hroom hdrop => exact (h.drop hdrop).qbuf _
  | inserted hnone hroom hdrop => exact (h.drop hdrop).insertNew _

end AtLeastMatched

theorem atLeastMatched_exec (h : AtLeastMatched c) (op : Op) : AtLeastMatched (op.exec c) := by
  cases op with
  | deliver streamId frameIdx streamType env memory =>
    have h' : AtLeastMatched c.receiving := h
    have hstep :=
      c.receiving.deliver_step (c.nextInfo streamId frameIdx streamType) env memory
    simp only [Op.exec]
    generalize (c.receiving.superbufCompAndEnqueue _ env memory).2 = c' at hstep ⊢
    cases hstep with
    | notBundled => exact h'
    | noFrame => exact h'.qbuf _
    | refused => exact (h'.handleMetadata env).qbuf _
    | compared => exact (h'.handleMetadata env).compare memory
  | bufdoneOverflow => exact h.trim _
  | skip => exact h.trim _
  | flush camType => exact h.flush camType
  | flushMatched => exact h.flushMatched
  | dispatch sent => exact h.dispatch sent
  | control k => exact h.control k

theorem matchedFront_of_order (horder : c.nodes.Pairwise InOrder) :
    c.matchedFront = c.nodes.countP SuperBuf.matched := by
  unfold matchedFront
  induction hnodes : c.nodes generalizing c with
  | nil => rfl
  | cons sb rest ih =>
    rw [hnodes] at horder
    cases hmatched : sb.matched with
    | true =>
      rw [List.takeWhile_cons_of_pos hmatched, List.countP_cons_of_pos hmatched, List.length_cons]
      rw [ih (c := { c with nodes := rest }) horder.of_cons rfl]
    | false =>
      have hnone : (sb :: rest).countP SuperBuf.matched = 0 := by
        apply List.countP_eq_zero.mpr
        intro x hx
        rw [unmatched_of_pairwise (a := []) horder hmatched x hx]
        simp
      rw [hnone, List.takeWhile_cons_of_neg (by simp [hmatched]), List.length_nil]

theorem Counted.trimEnds (h : Counted c) (hpriority : c.attr.priority ≠ .low)
    (hmode : c.control.notifyMode = .burst) (limit : UInt8) : TrimEnds c limit := by
  simp [TrimEnds, matchedFront_of_order, excess, h.matchCnt, hmode, h.order, hpriority]

theorem compare_setting (c : Channel) (info : BufInfo) (idx : Nat) (memory : Bool) :
    setting (c.compare info idx memory) = setting c := by
  have hdropped : ∀ {w : Walk} {r : Option Nat × Channel}, DropStep c w r →
      setting r.2 = setting c := by
    intro w r hstep
    cases hstep <;> rfl
  have hstep := c.compare_step info idx memory
  generalize c.compare info idx memory = c' at hstep ⊢
  cases hstep with
  | merged hnodes hstops hfirst hmerge => cases hmerge <;> rfl
  | tooOld => rfl
  | noMemory hnone hroom hdrop =>
    have hsetting := hdropped hdrop
    exact hsetting
  | inserted hnone hroom hdrop =>
    have hsetting := hdropped hdrop
    exact hsetting

theorem trim_setting (c : Channel) (limit : UInt8) : setting (c.trim limit) = setting c := by
  unfold Channel.trim
  split
  · rfl
  · exact dropAbove_preserves (P := fun d => setting d = setting c)
      (fun _ _ _ hd hdeq => (dequeue_setting hdeq).trans hd) (fun _ hd => hd) rfl _

theorem dispatch_attr (c : Channel) (sent : Bool) : (c.dispatch sent).attr = c.attr := by
  unfold Channel.dispatch
  rcases c.superbufDequeueInternal_cases true with hnone | ⟨_, _, _, _, hsome⟩
  · rw [hnone]
  · rw [hsome]
    cases sent <;> rfl

theorem deliver_setting (c : Channel) (info : BufInfo) (env : MetaEnv) (memory : Bool) :
    setting (c.superbufCompAndEnqueue info env memory).2 = setting c := by
  have hmeta := handleMetadata_setting c info env
  have hstep := c.deliver_step info env memory
  generalize (c.superbufCompAndEnqueue info env memory).2 = c' at hstep ⊢
  cases hstep with
  | notBundled => rfl
  | noFrame => rfl
  | refused => exact hmeta
  | compared => exact (compare_setting _ _ _ memory).trans hmeta

theorem exec_attr (c : Channel) (op : Op) : (op.exec c).attr = c.attr := by
  cases op with
  | deliver streamId frameIdx streamType env memory =>
    exact attr_of_setting (deliver_setting c.receiving _ env memory)
  | bufdoneOverflow => exact attr_of_setting (trim_setting c _)
  | skip => exact attr_of_setting (trim_setting c _)
  | flush camType => exact attr_of_setting (drain_setting c _ _ _)
  | flushMatched => exact attr_of_setting (drain_setting c _ _ _)
  | dispatch sent => exact dispatch_attr c sent
  | control k => rfl

/-- What holds in every run: the attributes stay, and unless the priority is low the
counters are right. -/
structure Trimmable (attr : Attr) (c : Channel) : Prop where
  same : c.attr = attr
  atLeast : AtLeastMatched c
  counted : attr.priority ≠ .low → Counted c

theorem trimmable_invariant (streams : List UInt32) (attr : Attr) :
    (superbufSystem streams attr).Invariant (Trimmable attr) where
  init c hc := by
    obtain rfl := hc
    exact ⟨rfl, Int.le_refl 0, fun _ => (counted_invariant streams attr).init _ rfl⟩
  step c op c' h hstep := by
    obtain ⟨-, rfl⟩ := hstep
    refine ⟨(exec_attr c op).trans h.same, atLeastMatched_exec h.atLeast op, fun hpriority => ?_⟩
    refine counted_exec (h.counted hpriority) ?_
    cases op with
    | deliver => exact fun hlow => absurd (h.same ▸ hlow) hpriority
    | _ => trivial

/-- **The loops that trim the queue.** In every state in which the command thread goes on,
the two calls end, leave at most their limit of matched superbufs and give back exactly the
first ones, in their order, if and only if the queue begins with as many matched superbufs
as `match_cnt` is above the limit. Unless the priority is low, it always does. -/
theorem trimRight_iff_of_reachable {streams : List UInt32} {attr : Attr}
    (hc : (superbufSystem streams attr).Reachable c) (hgoes : c.spins = false) :
    (TrimRight c attr.waterMark c.superbufBufdoneOverflow ↔ TrimEnds c attr.waterMark) ∧
    (TrimRight c attr.lookBack c.superbufSkip ↔ TrimEnds c attr.lookBack) ∧
    (attr.priority ≠ .low → c.control.notifyMode = .burst → ∀ limit, TrimEnds c limit) := by
  have h := (trimmable_invariant streams attr).reachable hc
  refine ⟨?_, ?_, fun hpriority hmode limit => ?_⟩
  · rw [superbufBufdoneOverflow_eq, h.same]
    exact trim_right_iff hgoes h.atLeast
  · rw [superbufSkip_eq, h.same]
    exact trim_right_iff hgoes h.atLeast
  · exact (h.counted hpriority).trimEnds (h.same ▸ hpriority) hmode limit

/-- A channel at low priority with the water mark 1. -/
def lowMark : Channel :=
  { lowChannel with attr := { lowChannel.attr with waterMark := 1 } }

def markRun (ops : List Op) : Option Channel :=
  System.follow (fun c op => True ∧ op.Enabled c) Op.exec ops lowMark

theorem reachable_markRun {ops : List Op} (h : markRun ops = some c) :
    (superbufSystem [1, 2, 3] lowMark.attr).Reachable c := by
  have hreach : ((superbufSystem [1, 2, 3] lowMark.attr).restrict fun _ _ => True).Reachable c :=
    System.reachable_follow _ (.init rfl) h
  exact hreach.of_restrict

/-- Two superbufs are complete, and the older one is given back. -/
theorem trimRight_iff_of_reachable_two :
    ∃ c, markRun [preview 12, snapshot 12, metadata 12, preview 13, snapshot 13, metadata 13] =
        some c ∧ c.superbufBufdoneOverflow.returned.map Buf.serial = [0, 1, 2] ∧
      (TrimRight c lowMark.attr.waterMark c.superbufBufdoneOverflow ↔
        TrimEnds c lowMark.attr.waterMark) ∧
      (TrimRight c lowMark.attr.lookBack c.superbufSkip ↔ TrimEnds c lowMark.attr.lookBack) ∧
      (lowMark.attr.priority ≠ .low → c.control.notifyMode = .burst →
        ∀ limit, TrimEnds c limit) := by
  have hrun : (markRun [preview 12, snapshot 12, metadata 12, preview 13, snapshot 13,
      metadata 13]).any (fun c => c.spins = false ∧
        c.superbufBufdoneOverflow.returned.map Buf.serial = [0, 1, 2]) = true := by decide +kernel
  obtain ⟨c, hc, hall⟩ := (Option.any_eq_true _ _).mp hrun
  obtain ⟨hgoes, hreturned⟩ := of_decide_eq_true hall
  exact ⟨c, hc, hreturned, trimRight_iff_of_reachable (reachable_markRun hc) hgoes⟩

/-- The matched superbuf of frame 12 is dropped when frame 13 is complete, so `match_cnt`
counts one that is not there. Later the matched one of frame 22 is behind that of frame 20,
and `mm_channel_superbuf_bufdone_overflow` does not end. -/
theorem not_trimRight : ∃ c, (superbufSystem [1, 2, 3] lowMark.attr).Reachable c ∧
    c.spins = false ∧ ¬ TrimRight c lowMark.attr.waterMark c.superbufBufdoneOverflow := by
  have hrun : (markRun (lowRun ++ [metadata 13, snapshot 13, preview 13, .dispatch true,
      snapshot 20, preview 17, metadata 22, snapshot 22, preview 18])).any
        (fun c => c.spins = false ∧ c.superbufBufdoneOverflow.spins = true) = true := by
    decide +kernel
  obtain ⟨c, hc, hall⟩ := (Option.any_eq_true _ _).mp hrun
  obtain ⟨hgoes, hspins⟩ := of_decide_eq_true hall
  refine ⟨c, reachable_markRun hc, hgoes, fun hright => ?_⟩
  rw [hright.ends] at hspins
  cases hspins

end EtherDevice.MmChannel
