import EtherDevice.MmChannel.Steps
import Mathlib.Data.List.InsertIdx
import Mathlib.Order.Basic

/-!
# The counters of the superbuf queue

`que.size` is the number of superbufs in the queue and `match_cnt` the number of those that
are matched (`CountersRight`). A superbuf that is dropped as unmatched must be unmatched.
Unless the priority is low, the queue is in order: the matched superbufs come first, and
the others are sorted by their frames; then only unmatched ones are dropped. At low priority
this is a condition on the step, `Op.Counts`.
-/

namespace EtherDevice.MmChannel

open Lib Channel

variable {c c' : Channel} {info : BufInfo} {idx : Nat}

/-! ## Order -/

/-- A superbuf may come before another: it is matched, or neither is and its frame is older. -/
def InOrder (x y : SuperBuf) : Prop :=
  x.matched = true ∨ (y.matched = false ∧ x.frameIdx < y.frameIdx)

theorem older_iff {sb : SuperBuf} :
    older info sb = true ↔ sb.matched = false ∧ sb.frameIdx < info.frameIdx := by
  simp [older]

theorem newer_iff {sb : SuperBuf} :
    newer info sb = true ↔ sb.matched = false ∧ info.frameIdx < sb.frameIdx := by
  simp [newer]

theorem stops_iff {sb : SuperBuf} :
    c.stops info idx sb = true ↔ sb.matched = false ∧ c.joins info idx sb = true := by
  simp [stops]

theorem joins_iff (hpriority : c.attr.priority ≠ .low) (hnomatch : c.nomatchFrameId = 0)
    {sb : SuperBuf} : c.joins info idx sb = true ↔ info.frameIdx = sb.frameIdx := by
  simp [joins, hpriority, hnomatch]

theorem unmatched_of_pairwise {a b : List SuperBuf} {l : SuperBuf}
    (horder : (a ++ l :: b).Pairwise InOrder) (hl : l.matched = false) :
    ∀ x ∈ l :: b, x.matched = false := by
  intro x hx
  rcases List.mem_cons.mp hx with rfl | hx
  · exact hl
  · have hrel := List.rel_of_pairwise_cons (List.pairwise_append.mp horder).2.1 hx
    rcases hrel with hmatched | hrel
    · simp_all
    · exact hrel.1

theorem purged_unmatched {a : List SuperBuf} (horder : a.Pairwise InOrder) :
    ∀ x ∈ purged info a, x.matched = false := by
  unfold purged
  split
  · rename_i last hlast
    obtain ⟨p, l, q, rfl, rfl, hl, -⟩ := split_of_findIdx? hlast
    rw [List.drop_left]
    exact unmatched_of_pairwise horder (older_iff.mp hl).1
  · exact fun x hx => absurd hx List.not_mem_nil

/-! ## The invariant -/

def unmatchedCount (nodes : List SuperBuf) : Nat := nodes.countP fun sb => !sb.matched

/-- The counters are right, and what they rest on. -/
structure Counted (c : Channel) : Prop where
  size : c.size = c.nodes.length
  matchCnt : c.matchCnt = c.nodes.countP SuperBuf.matched
  few : c.attr.maxUnmatchedFrames.toNat = 255 ∨
    unmatchedCount c.nodes ≤ c.attr.maxUnmatchedFrames.toNat + 1
  single : c.bundledStreams.length = 1 → ∀ sb ∈ c.nodes, sb.matched = true
  noMatch : c.attr.priority ≠ .low → c.nomatchFrameId = 0
  order : c.attr.priority ≠ .low → c.nodes.Pairwise InOrder

namespace Counted

theorem control (h : Counted c) (k : Control) : Counted { c with control := k } := { h with }

theorem qbuf (h : Counted c) (bufs : List Buf) : Counted (c.qbuf bufs) := { h with }

theorem dequeued (h : Counted c) {matchedOnly : Bool} {sb : SuperBuf}
    (hdeq : c.superbufDequeueInternal matchedOnly = (some sb, c')) : Counted c' := by
  rcases c.superbufDequeueInternal_cases matchedOnly with hnone | ⟨x, rest, hnodes, -, hsome⟩
  · rw [hnone] at hdeq
    cases hdeq
  · rw [hsome] at hdeq
    cases hdeq
    have hsize := h.size
    have hmatch := h.matchCnt
    have hfew := h.few
    simp only [hnodes, unmatchedCount, List.length_cons, List.countP_cons] at hsize hmatch hfew
    refine { h with size := ?_, matchCnt := ?_, few := ?_, single := ?_, order := ?_ }
    · simp_all
    · simp_all
    · show c.attr.maxUnmatchedFrames.toNat = 255 ∨
        rest.countP (fun sb => !sb.matched) ≤ c.attr.maxUnmatchedFrames.toNat + 1
      omega
    · intro hsingle x hx
      exact h.single hsingle x (by rw [hnodes]; exact List.mem_cons_of_mem sb hx)
    · intro hpriority
      have horder := h.order hpriority
      simp_all

theorem flushMatched (h : Counted c) : Counted c.superbufFlushMatched :=
  drain_preserves (fun _ _ _ hc hdeq => (hc.dequeued hdeq).qbuf _) h _

theorem flush (h : Counted c) (camType : StreamType) : Counted (c.superbufFlush camType) :=
  drain_preserves (fun _ _ _ hc hdeq => (hc.dequeued hdeq).qbuf _) h _

theorem dropAbove (h : Counted c) (limit : UInt8) (fuel : Nat) : Counted (c.dropAbove limit fuel) :=
  dropAbove_preserves (fun _ _ _ hc hdeq => (hc.dequeued hdeq).qbuf _) (fun _ hc => { hc with }) h
    fuel

theorem handleMetadata (h : Counted c) (env : MetaEnv) : Counted (c.handleMetadata info env).2 :=
  handleMetadata_preserves (fun _ k hc => hc.control k) (fun _ hc => hc.flush _)
    (fun _ hc => hc.flushMatched) h env

theorem dispatch (h : Counted c) (sent : Bool) : Counted (c.dispatch sent) := by
  unfold Channel.dispatch
  rcases hdeq : c.superbufDequeueInternal true with ⟨_ | sb, c'⟩
  · rcases c.superbufDequeueInternal_cases true with hnone | ⟨sb, rest, _, _, hsome⟩
    · simp_all
    simp_all
  · simp only
    split
    · exact { h.dequeued hdeq with }
    · exact (h.dequeued hdeq).qbuf _

end Counted

/-! ## A buffer that finds its superbuf -/

theorem counted_merge (h : Counted c) {a b : List SuperBuf} {sb : SuperBuf}
    (hnodes : c.nodes = a ++ sb :: b) (hsb : sb.matched = false)
    (hframe : c.attr.priority ≠ .low → info.frameIdx = sb.frameIdx)
    (hpurged : slotFrameIdx (sb.superBuf.getD idx none) = 0 →
      (sb.put info idx).complete = true → ∀ x ∈ purged info a, x.matched = false)
    (hstep : MergeStep c info idx a sb b c') : Counted c' := by
  have ha := spared_append_purged info a
  have hsize := h.size
  have hmatch := h.matchCnt
  have hfew := h.few
  have horder := h.order
  have hsingle : c.bundledStreams.length ≠ 1 := by
    intro hsingle
    have hmatched := h.single hsingle sb (by simp [hnodes])
    simp_all
  rw [hnodes] at hsize hmatch hfew horder
  cases hstep with
  | filled => exact h.qbuf _
  | completed hslot hcomplete =>
    have hdropped := hpurged hslot hcomplete
    have hnone : (purged info a).countP SuperBuf.matched = 0 := by
      simp_all
    refine { h with
      size := ?_, matchCnt := ?_, few := ?_,
      single := fun hone => absurd hone hsingle, order := ?_ }
    · rw [← ha] at hsize
      simp only [List.length_append, List.length_cons] at hsize ⊢
      omega
    · grind
    · grind [unmatchedCount]
    · intro hpriority
      have hold := horder hpriority
      rw [List.pairwise_append, List.pairwise_cons] at hold ⊢
      obtain ⟨hleft, ⟨hhead, hright⟩, hcross⟩ := hold
      have hspared : ∀ x ∈ spared info a, x ∈ a := by
        intro x hx
        rw [← ha]
        exact List.mem_append_left _ hx
      refine ⟨?_, ⟨fun y _ => .inl rfl, hright⟩, ?_⟩
      · rw [← ha] at hleft
        exact (List.pairwise_append.mp hleft).1
      · intro x hx y hy
        have hbefore := hcross x (hspared x hx)
        rcases List.mem_cons.mp hy with rfl | hy
        · -- what is spared is matched, as it is neither newer nor dropped
          rcases hbefore sb List.mem_cons_self with hmatched | ⟨-, hlt⟩
          · exact .inl hmatched
          · have hnot := spared_not_older hx
            cases hmatched : x.matched with
            | true => exact .inl hmatched
            | false =>
              rw [← hframe hpriority] at hlt
              rw [older_iff.mpr ⟨hmatched, hlt⟩] at hnot
              cases hnot
        · exact hbefore y (List.mem_cons_of_mem sb hy)
  | merged hslot k expected =>
    refine { h with
      size := ?_, matchCnt := ?_, few := ?_,
      single := fun hone => absurd hone hsingle, order := ?_ }
    · simpa using hsize
    · simpa [SuperBuf.put, List.countP_cons] using hmatch
    · simpa [unmatchedCount, SuperBuf.put, List.countP_cons] using hfew
    · intro hpriority
      have hold := horder hpriority
      rw [List.pairwise_append, List.pairwise_cons] at hold ⊢
      refine ⟨hold.1, hold.2.1, ?_⟩
      intro x hx y hy
      rcases List.mem_cons.mp hy with rfl | hy
      · exact hold.2.2 x hx sb List.mem_cons_self
      · exact hold.2.2 x hx y (List.mem_cons_of_mem sb hy)

/-! ## A buffer that finds none -/

theorem split_at {α : Type} {xs : List α} {i : Nat} (hi : i < xs.length) :
    ∃ p x q, xs = p ++ x :: q ∧ p.length = i := by
  refine ⟨xs.take i, xs[i], xs.drop (i + 1), ?_, ?_⟩
  · rw [← List.drop_eq_getElem_cons hi, List.take_append_drop]
  · rw [List.length_take]
    omega

theorem eraseIdx_middle {α : Type} (p : List α) (x : α) (q : List α) :
    (p ++ x :: q).eraseIdx p.length = p ++ q := by
  rw [List.eraseIdx_append_of_length_le (Nat.le_refl _), Nat.sub_self, List.eraseIdx_cons_zero]

theorem eraseIdx_around {p q : List SuperBuf} {n : SuperBuf} {d : Nat} (hne : d ≠ p.length) :
    ∃ p' q', (p ++ n :: q).eraseIdx d = p' ++ n :: q' ∧ p'.length = shifted (some d) p.length ∧
      p' ⊆ p ∧ q' ⊆ q := by
  rcases Nat.lt_or_gt_of_ne hne with hlt | hgt
  · refine ⟨p.eraseIdx d, q, ?_, ?_, fun x hx => List.mem_of_mem_eraseIdx hx, fun _ hx => hx⟩
    · exact List.eraseIdx_append_of_lt_length hlt _
    · rw [List.length_eraseIdx_of_lt hlt, shifted, if_pos hlt]
  · refine ⟨p, q.eraseIdx (d - p.length - 1), ?_, ?_, fun _ hx => hx,
      fun x hx => List.mem_of_mem_eraseIdx hx⟩
    · obtain ⟨k, hk⟩ : ∃ k, d - p.length = k + 1 := ⟨d - p.length - 1, by omega⟩
      grind
    · rw [shifted, if_neg (by omega)]

theorem droppable_spec {last i : Nat} {before : Option Nat}
    (hi : c.droppable last before = some i) :
    i < c.nodes.length ∧ last ≤ i ∧ some i ≠ before := by
  have hmem := List.mem_of_find?_eq_some hi
  have hprop := List.find?_some hi
  simp_all

theorem counted_erase (h : Counted c) {p q : List SuperBuf} {x : SuperBuf}
    (hnodes : c.nodes = p ++ x :: q) (hx : x.matched = false) (bufs : List Buf) (used : Bool) :
    Counted { c with
      nodes := p ++ q
      size := c.size - 1
      usedFreed := used
      returned := bufs } ∧
    (c.attr.maxUnmatchedFrames.toNat = 255 ∨
      unmatchedCount (p ++ q) ≤ c.attr.maxUnmatchedFrames.toNat) := by
  have hsize := h.size
  have hmatch := h.matchCnt
  have hfew := h.few
  have hsub : (p ++ q).Sublist c.nodes := by
    simp [hnodes]
  simp only [hnodes, unmatchedCount, List.length_append, List.length_cons, List.countP_append,
    List.countP_cons, hx] at hsize hmatch hfew
  simp at hmatch hfew
  have hroom : c.attr.maxUnmatchedFrames.toNat = 255 ∨
      unmatchedCount (p ++ q) ≤ c.attr.maxUnmatchedFrames.toNat := by
    simp only [unmatchedCount, List.countP_append]
    omega
  refine ⟨{ h with size := ?_, matchCnt := ?_, few := ?_, single := ?_, order := ?_ }, hroom⟩
  · simp only [List.length_append]
    omega
  · simp_all
  · exact hroom.imp_right fun hle => Nat.le_succ_of_le hle
  · exact fun hsingle y hy => h.single hsingle y (hsub.subset hy)
  · exact fun hpriority => (h.order hpriority).sublist hsub

structure Dropped (c : Channel) (info : BufInfo) (dropped : Option Nat) (c' : Channel) : Prop where
  counted : Counted c'
  attr : c'.attr = c.attr
  nomatchFrameId : c'.nomatchFrameId = c.nomatchFrameId
  nodes : c'.nodes ⊆ c.nodes
  room : c.attr.maxUnmatchedFrames.toNat = 255 ∨
    unmatchedCount c'.nodes ≤ c.attr.maxUnmatchedFrames.toNat
  before : ∀ before ∈ (passed info c.nodes).insertBeforeBuf, ∃ p n q, c'.nodes = p ++ n :: q ∧
    p.length = shifted dropped before ∧ newer info n = true ∧ ∀ x ∈ p, newer info x = false
  oldest : (passed info c.nodes).insertBeforeBuf = none → ∀ x ∈ c'.nodes, newer info x = false

theorem dropped_erase (h : Counted c) {d : Nat} (hd : d < c.nodes.length)
    (hunmatched : (c.nodeAt d).matched = false)
    (hne : some d ≠ (passed info c.nodes).insertBeforeBuf) {bufs : List Buf} {used : Bool} :
    Dropped c info (some d) { c with
      nodes := c.nodes.eraseIdx d
      size := c.size - 1
      usedFreed := used
      returned := bufs } := by
  obtain ⟨p, x, q, hnodes, hlen⟩ := split_at hd
  have hx : x.matched = false := by
    rw [← nodeAt_append hnodes, hlen]
    exact hunmatched
  have herase : c.nodes.eraseIdx d = p ++ q := by
    rw [hnodes, ← hlen, eraseIdx_middle]
  obtain ⟨hcounted, hroom⟩ := counted_erase h hnodes hx bufs used
  constructor
  · rw [herase]
    exact hcounted
  · rfl
  · rfl
  · exact fun y hy => List.mem_of_mem_eraseIdx hy
  · rw [herase]
    exact hroom
  · intro before hbefore
    obtain ⟨p', n, q', hnodes', rfl, hn, hp'⟩ :=
      split_of_findIdx? (show _ = some before from hbefore)
    have hne' : d ≠ p'.length := by
      simp_all
    obtain ⟨p'', q'', herase', hlen', hsub, -⟩ := eraseIdx_around (n := n) (q := q') hne'
    refine ⟨p'', n, q'', ?_, hlen', hn, fun y hy => hp' y (hsub hy)⟩
    simp_all
  · intro hbefore y hy
    simpa using List.findIdx?_eq_none_iff.mp (show _ = none from hbefore) y
      (List.mem_of_mem_eraseIdx hy)

def DropsUnmatched (c : Channel) (w : Walk) : Prop :=
  c.attr.maxUnmatchedFrames.toNat < w.unmatchedBundles →
    ∀ last ∈ w.lastBuf, ∀ i ∈ c.droppable last w.insertBeforeBuf, (c.nodeAt i).matched = false

theorem dropsUnmatched_of_order (horder : c.nodes.Pairwise InOrder) :
    DropsUnmatched c (passed info c.nodes) := by
  intro hmany last hlast i hi
  obtain ⟨hlt, hle, -⟩ := droppable_spec hi
  obtain ⟨p, l, q, hnodes, rfl, hl, -⟩ := split_of_findIdx? (show _ = some last from hlast)
  rw [hnodes] at horder
  have hunmatched := unmatched_of_pairwise horder (older_iff.mp hl).1
  grind [nodeAt]

theorem counted_drop (h : Counted c) (hroom : HasRoom c info)
    (hdrops : DropsUnmatched c (passed info c.nodes)) {dropped : Option Nat}
    (hstep : DropStep c (passed info c.nodes) (dropped, c')) : Dropped c info dropped c' := by
  cases hstep with
  | kept hfew =>
    have hle : (passed info c.nodes).unmatchedBundles ≤ c.attr.maxUnmatchedFrames.toNat :=
      hfew.elim hroom id
    have hcount : c.attr.maxUnmatchedFrames.toNat = 255 ∨
        unmatchedCount c.nodes ≤ c.attr.maxUnmatchedFrames.toNat := by
      have hold := h.few
      have hbyte : c.attr.maxUnmatchedFrames.toNat < 256 := c.attr.maxUnmatchedFrames.toNat_lt
      simp only [passed, unmatchedCount] at hle hold ⊢
      omega
    refine ⟨h, rfl, rfl, fun _ hx => hx, hcount, ?_, ?_⟩
    · intro before hbefore
      obtain ⟨p, n, q, hnodes, rfl, hn, hp⟩ := split_of_findIdx? (show _ = some before from hbefore)
      exact ⟨p, n, q, hnodes, rfl, hn, hp⟩
    · intro hbefore y hy
      simpa using List.findIdx?_eq_none_iff.mp (show _ = none from hbefore) y hy
  | @again last i hlast hmany hi times htimes =>
    obtain ⟨hlt, -, hne⟩ := droppable_spec hi
    -- at most one superbuf is too many
    have hone : times = 1 := by
      have hold := h.few
      simp only [passed, unmatchedCount] at hmany htimes hold
      omega
    rw [hone]
    exact dropped_erase h hlt (hdrops hmany last hlast i hi) hne
  | @last last hlast hmany =>
    obtain ⟨p, l, q, hnodes, hlen, hl, -⟩ := split_of_findIdx? (show _ = some last from hlast)
    have hat : c.nodeAt last = l := by
      rw [← hlen]
      exact nodeAt_append hnodes
    have hlt : last < c.nodes.length := by
      simp_all
    refine dropped_erase h hlt (by rw [hat]; exact (older_iff.mp hl).1) ?_
    intro hbefore
    obtain ⟨p', n, q', hnodes', hlen', hn, -⟩ :=
      split_of_findIdx? (show c.nodes.findIdx? (newer info) = some last from hbefore.symm)
    have hsame : l = n := by
      rw [← hat, ← hlen']
      exact nodeAt_append hnodes'
    rw [← hsame] at hn
    exact absurd (older_iff.mp hl).2 (UInt32.not_lt.mpr (UInt32.le_of_lt (newer_iff.mp hn).2))

theorem insertIdx_middle {α : Type} (p r : List α) (x : α) :
    (p ++ r).insertIdx p.length x = p ++ x :: r := by
  induction p with
  | nil => simp
  | cons y p ih => simp [ih]

theorem Dropped.split {dropped : Option Nat} (hd : Dropped c info dropped c') :
    ∃ p r, c'.nodes = p ++ r ∧
      ((passed info c.nodes).insertBeforeBuf.map (shifted dropped)).getD c'.nodes.length =
        p.length ∧
      (∀ x ∈ p, newer info x = false) ∧ ∀ n q, r = n :: q → newer info n = true := by
  cases hbefore : (passed info c.nodes).insertBeforeBuf with
  | none => exact ⟨c'.nodes, [], by simp, by simp, hd.oldest hbefore, nofun⟩
  | some before =>
    obtain ⟨p, n, q, hnodes, hlen, hn, hp⟩ := hd.before before hbefore
    refine ⟨p, n :: q, hnodes, by simp [hlen], hp, ?_⟩
    simp [hn]

theorem counted_insertNew {dropped : Option Nat} (hd : Dropped c info dropped c')
    (hnone : ∀ x ∈ c.nodes, c.stops info idx x = false) :
    Counted (c'.insertNew info idx
      ((passed info c.nodes).insertBeforeBuf.map (shifted dropped))) := by
  obtain ⟨p, r, hnodes, hindex, hp, hr⟩ := hd.split
  have h := hd.counted
  have hsize := h.size
  have hmatch := h.matchCnt
  have hroom := hd.room
  rw [← hd.attr] at hroom
  have hnew : (c'.insertNew info idx
      ((passed info c.nodes).insertBeforeBuf.map (shifted dropped))).nodes =
        p ++ c'.newSuperBuf info idx :: r := by
    simp only [insertNew]
    rw [hindex, hnodes, insertIdx_middle]
  have hmatched : (c'.newSuperBuf info idx).matched = decide (c'.bundledStreams.length = 1) := rfl
  constructor
  · rw [hnew]
    simp only [insertNew, hnodes, List.length_append, List.length_cons] at hsize ⊢
    omega
  · grind [insertNew]
  · rw [hnew]
    show c'.attr.maxUnmatchedFrames.toNat = 255 ∨ _ ≤ c'.attr.maxUnmatchedFrames.toNat + 1
    simp only [unmatchedCount, hnodes, List.countP_append, List.countP_cons] at hroom ⊢
    split <;> omega
  · intro hsingle x hx
    have hsingle' : c'.bundledStreams.length = 1 := hsingle
    rw [hnew] at hx
    rcases List.mem_append.mp hx with hx | hx
    · exact h.single hsingle' x (by rw [hnodes]; exact List.mem_append_left r hx)
    rcases List.mem_cons.mp hx with rfl | hx
    · rw [hmatched, decide_eq_true hsingle']
    · exact h.single hsingle' x (by rw [hnodes]; exact List.mem_append_right p hx)
  · intro hpriority
    have hpriority' : c'.attr.priority ≠ .low := hpriority
    simp [insertNew, hpriority', h.noMatch]
  · intro hpriority
    have hpriority' : c'.attr.priority ≠ .low := hpriority
    have hold := h.order hpriority'
    rw [hnew]
    rw [hnodes] at hold
    rw [List.pairwise_append, List.pairwise_cons]
    obtain ⟨hleft, hright, hcross⟩ := List.pairwise_append.mp hold
    have hunmatched : ∀ x ∈ c'.nodes, x.matched = false →
        (c'.newSuperBuf info idx).matched = false := by
      intro x hx hfalse
      rw [hmatched, decide_eq_false_iff_not]
      intro hsingle
      rw [h.single hsingle x hx] at hfalse
      cases hfalse
    have hlt : ∀ x ∈ p, InOrder x (c'.newSuperBuf info idx) := by
      intro x hx
      have hmem : x ∈ c'.nodes := by
        simp [hnodes, hx]
      cases hx' : x.matched with
      | true => exact .inl hx'
      | false =>
        refine .inr ⟨hunmatched x hmem hx', ?_⟩
        have hnotNewer := hp x hx
        have hnotStop := hnone x (hd.nodes hmem)
        have hne : info.frameIdx ≠ x.frameIdx := by
          intro heq
          have hjoins : c.joins info idx x = true := (joins_iff (hd.attr ▸ hpriority')
            (hd.nomatchFrameId ▸ h.noMatch hpriority')).mpr heq
          rw [stops_iff.mpr ⟨hx', hjoins⟩] at hnotStop
          cases hnotStop
        have hle : x.frameIdx ≤ info.frameIdx := by
          apply UInt32.not_lt.mp
          intro hlt
          rw [newer_iff.mpr ⟨hx', hlt⟩] at hnotNewer
          cases hnotNewer
        exact UInt32.lt_of_le_of_ne hle hne.symm
    refine ⟨hleft, ⟨?_, hright⟩, ?_⟩
    · intro y hy
      cases r with
      | nil => cases hy
      | cons n q =>
        have hn := newer_iff.mp (hr n q rfl)
        refine .inr ?_
        rcases List.mem_cons.mp hy with rfl | hy
        · exact hn
        · rcases List.rel_of_pairwise_cons hright hy with hmatched' | ⟨hy', hlt'⟩
          · simp_all
          · exact ⟨hy', UInt32.lt_trans hn.2 hlt'⟩
    simp_all

/-! ## Runs -/

def CompareCounts (c : Channel) (info : BufInfo) (idx : Nat) : Prop :=
  let w := c.walk info idx 0 {} c.nodes
  (∀ pos ∈ w.found, slotFrameIdx ((c.nodeAt pos).superBuf.getD idx none) = 0 →
    ((c.nodeAt pos).put info idx).complete = true →
      ∀ last ∈ w.lastBuf, ∀ x ∈ (c.nodes.take pos).drop last, x.matched = false) ∧
    (w.found = none → DropsUnmatched c w)

theorem counted_compare (h : Counted c)
    (hcounts : c.attr.priority = .low → CompareCounts c info idx)
    (memory : Bool) : Counted (c.compare info idx memory) := by
  have hdrops : (∀ x ∈ c.nodes, c.stops info idx x = false) →
      DropsUnmatched c (passed info c.nodes) := by
    intro hnone
    by_cases hlow : c.attr.priority = .low
    · have hcompare := (hcounts hlow).2
      rw [walk_none hnone] at hcompare
      exact hcompare rfl
    · exact dropsUnmatched_of_order (h.order hlow)
  have hstep := c.compare_step info idx memory
  generalize c.compare info idx memory = c' at hstep ⊢
  cases hstep with
  | @merged a b sb _ hnodes hstops hfirst hmerge =>
    have h' : Counted { c with nomatchFrameId := 0 } := { h with noMatch := fun _ => rfl }
    obtain ⟨hsb, hjoins⟩ := stops_iff.mp hstops
    have hframe : c.attr.priority ≠ .low → info.frameIdx = sb.frameIdx :=
      fun hpriority => (joins_iff hpriority (h.noMatch hpriority)).mp hjoins
    refine counted_merge h' hnodes hsb hframe ?_ hmerge
    intro hslot hcomplete
    by_cases hlow : c.attr.priority = .low
    · have hcompare := (hcounts hlow).1 a.length (by rw [walk_some hnodes hstops hfirst]; rfl)
      rw [nodeAt_append hnodes, walk_some hnodes hstops hfirst] at hcompare
      have hall := hcompare hslot hcomplete
      unfold purged
      split
      · rename_i last hlast
        have hdropped := hall last hlast
        simp_all
      · exact fun x hx => absurd hx List.not_mem_nil
    · have horder := h.order hlow
      rw [hnodes] at horder
      exact purged_unmatched (List.pairwise_append.mp horder).1
  | tooOld => exact h.qbuf _
  | noMemory hnone hroom hdrop => exact (counted_drop h hroom (hdrops hnone) hdrop).counted.qbuf _
  | inserted hnone hroom hdrop =>
    exact counted_insertNew (counted_drop h hroom (hdrops hnone) hdrop) hnone

/-- At low priority, no superbuf that a delivery drops is matched. -/
def Op.Counts (c : Channel) : Op → Prop
  | .deliver streamId frameIdx streamType env _ => c.attr.priority = .low →
      ∀ p ∈ c.receiving.comparing (c.nextInfo streamId frameIdx streamType) env,
        CompareCounts p.2 (c.nextInfo streamId frameIdx streamType) p.1
  | _ => True

/-- What only commands for the consumer change. -/
def setting (c : Channel) : List UInt32 × Attr × List (List Buf) :=
  (c.bundledStreams, c.attr, c.dispatched)

theorem attr_of_setting (h : setting c' = setting c) : c'.attr = c.attr := congrArg (·.2.1) h

theorem dequeue_setting {matchedOnly : Bool} {sb : SuperBuf}
    (hdeq : c.superbufDequeueInternal matchedOnly = (some sb, c')) : setting c' = setting c := by
  rcases c.superbufDequeueInternal_cases matchedOnly with hnone | ⟨_, _, _, _, hsome⟩
  · rw [hnone] at hdeq
    cases hdeq
  · rw [hsome] at hdeq
    cases hdeq
    rfl

theorem drain_setting (c : Channel) (matchedOnly : Bool) (give : SuperBuf → List Buf)
    (fuel : Nat) : setting (c.drain matchedOnly give fuel) = setting c :=
  drain_preserves (P := fun d => setting d = setting c)
    (fun _ _ _ hd hdeq => (dequeue_setting hdeq).trans hd) rfl fuel

theorem handleMetadata_setting (c : Channel) (info : BufInfo) (env : MetaEnv) :
    setting (c.handleMetadata info env).2 = setting c :=
  handleMetadata_preserves (P := fun d => setting d = setting c) (fun _ _ hd => hd)
    (fun d hd => (drain_setting d _ _ _).trans hd) (fun d hd => (drain_setting d _ _ _).trans hd)
    rfl env

theorem counted_exec (h : Counted c) {op : Op} (hcounts : op.Counts c) : Counted (op.exec c) := by
  cases op with
  | deliver streamId frameIdx streamType env memory =>
    have h' : Counted c.receiving := { h with }
    have hmeta : Counted
        (c.receiving.handleMetadata (c.nextInfo streamId frameIdx streamType) env).2 :=
      h'.handleMetadata env
    have hattr := attr_of_setting
      (handleMetadata_setting c.receiving (c.nextInfo streamId frameIdx streamType) env)
    have hstep :=
      c.receiving.deliver_step (c.nextInfo streamId frameIdx streamType) env memory
    simp only [Op.exec]
    generalize (c.receiving.superbufCompAndEnqueue _ env memory).2 = c' at hstep ⊢
    cases hstep with
    | notBundled => exact h'
    | noFrame => exact h'.qbuf _
    | refused => exact hmeta.qbuf _
    | compared hidx hframe hcomparing =>
      refine counted_compare hmeta (fun hlow => hcounts ?_ _ hcomparing) memory
      rw [hattr] at hlow
      exact hlow
  | bufdoneOverflow =>
    simp only [Op.exec, superbufBufdoneOverflow]
    split
    · exact h
    · exact h.dropAbove _ _
  | skip =>
    simp only [Op.exec, superbufSkip]
    split
    · exact h
    · exact h.dropAbove _ _
  | flush camType => exact h.flush camType
  | flushMatched => exact h.flushMatched
  | dispatch sent => exact h.dispatch sent
  | control k => exact h.control k

/-- The runs in which no matched superbuf is dropped as unmatched. -/
def countingSystem (streams : List UInt32) (attr : Attr) : System Channel Op :=
  (superbufSystem streams attr).restrict fun c op => op.Counts c

theorem counted_invariant (streams : List UInt32) (attr : Attr) :
    (countingSystem streams attr).Invariant Counted := by
  apply System.Invariant.of_restrict
  · rintro c rfl
    exact {
      size := rfl
      matchCnt := rfl
      few := .inr (Nat.zero_le _)
      single := fun _ sb hsb => absurd hsb List.not_mem_nil
      noMatch := fun _ => rfl
      order := fun _ => .nil }
  · rintro c op c' h hcounts ⟨-, rfl⟩
    exact counted_exec h hcounts

/-- `que.size` is the number of superbufs in the queue, and `match_cnt` that of the matched. -/
structure CountersRight (c : Channel) : Prop where
  size : c.size = c.nodes.length
  matchCnt : c.matchCnt = c.nodes.countP SuperBuf.matched

/-- In the runs in which no matched superbuf is dropped as unmatched, the counters are right.
Unless the priority is low, these are all runs. -/
theorem countersRight_of_reachable {streams : List UInt32} {attr : Attr}
    (hc : (countingSystem streams attr).Reachable c) : CountersRight c :=
  have h := (counted_invariant streams attr).reachable hc
  ⟨h.size, h.matchCnt⟩

/-! ## Computed runs -/

instance (c : Channel) (w : Walk) : Decidable (DropsUnmatched c w) :=
  inferInstanceAs (Decidable (_ → ∀ last ∈ w.lastBuf,
    ∀ i ∈ c.droppable last w.insertBeforeBuf, (c.nodeAt i).matched = false))

instance (c : Channel) (info : BufInfo) (idx : Nat) : Decidable (CompareCounts c info idx) :=
  inferInstanceAs (Decidable ((∀ pos ∈ (c.walk info idx 0 {} c.nodes).found, _ → _ →
    ∀ last ∈ (c.walk info idx 0 {} c.nodes).lastBuf,
      ∀ x ∈ (c.nodes.take pos).drop last, _) ∧ (_ → _)))

instance (c : Channel) : (op : Op) → Decidable (op.Counts c)
  | .deliver streamId frameIdx streamType env _ => inferInstanceAs (Decidable (_ →
      ∀ p ∈ c.receiving.comparing (c.nextInfo streamId frameIdx streamType) env, _))
  | .bufdoneOverflow | .skip | .flush _ | .flushMatched | .dispatch _ | .control _ =>
    .isTrue trivial

/-- A channel for preview (1), snapshot (2) and metadata (3), at low priority. -/
def lowChannel : Channel :=
  { bundledStreams := [1, 2, 3], attr := { maxUnmatchedFrames := 5, priority := .low } }

def preview (frameIdx : UInt32) : Op :=
  .deliver 1 frameIdx .preview ⟨some ⟨.preview, true⟩, none⟩ true

def snapshot (frameIdx : UInt32) : Op :=
  .deliver 2 frameIdx .snapshot ⟨some ⟨.snapshot, true⟩, none⟩ true

def metadata (frameIdx : UInt32) : Op :=
  .deliver 3 frameIdx .metadata ⟨some ⟨.metadata, true⟩, some {}⟩ true

/-- Two superbufs at low priority. The preview frame 7 joins the superbuf of frame 10, and
frame 8 completes that of frame 12. -/
def lowRun : List Op := [snapshot 10, preview 7, metadata 12, snapshot 12, preview 8]

def lowCounted : Option Channel :=
  System.follow (fun c op => op.Counts c ∧ op.Enabled c) Op.exec lowRun lowChannel

theorem countersRight_of_reachable_low :
    ∃ c, lowCounted = some c ∧ (c.size = 2 ∧ c.matchCnt = 1) ∧ CountersRight c := by
  have hrun : lowCounted.any (fun c => c.size = 2 ∧ c.matchCnt = 1) = true := by decide +kernel
  obtain ⟨c, hc, hcounters⟩ := (Option.any_eq_true _ _).mp hrun
  have hreach : (countingSystem [1, 2, 3] lowChannel.attr).Reachable c :=
    System.reachable_follow _ (.init rfl) hc
  exact ⟨c, hc, of_decide_eq_true hcounters, countersRight_of_reachable hreach⟩

/-- When frame 13 is complete, the matched superbuf of frame 12 is dropped with the older
one of frame 10. -/
theorem not_countersRight :
    ∃ c, (superbufSystem [1, 2, 3] lowChannel.attr).Reachable c ∧ ¬ CountersRight c := by
  have hrun : (System.follow (fun c op => True ∧ op.Enabled c) Op.exec
      (lowRun ++ [metadata 13, snapshot 13, preview 13]) lowChannel).any
        (fun c => c.matchCnt ≠ c.nodes.countP SuperBuf.matched) = true := by decide +kernel
  obtain ⟨c, hc, hwrong⟩ := (Option.any_eq_true _ _).mp hrun
  have hreach : ((superbufSystem [1, 2, 3] lowChannel.attr).restrict fun _ _ => True).Reachable c :=
    System.reachable_follow _ (.init rfl) hc
  exact ⟨c, hreach.of_restrict, fun h => of_decide_eq_true hwrong h.matchCnt⟩

end EtherDevice.MmChannel
