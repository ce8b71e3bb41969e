import EtherDevice.MmChannel.SuperbufQueue
import Mathlib.Data.List.Basic

/-!
# The steps of the superbuf queue

What each function can do, said once: the walk over the queue in closed form, the outcomes
of the comparison, and rules for the loops that take superbufs out.
-/

namespace EtherDevice.MmChannel

def SuperBuf.put (sb : SuperBuf) (info : BufInfo) (idx : Nat) : SuperBuf :=
  { sb with superBuf := sb.superBuf.set idx (some info) }

namespace Channel

variable {c : Channel} {info : BufInfo} {idx : Nat}

def stops (c : Channel) (info : BufInfo) (idx : Nat) (sb : SuperBuf) : Bool :=
  !sb.matched && c.joins info idx sb

def older (info : BufInfo) (sb : SuperBuf) : Bool :=
  !sb.matched && decide (sb.frameIdx < info.frameIdx)

def newer (info : BufInfo) (sb : SuperBuf) : Bool :=
  !sb.matched && decide (sb.frameIdx > info.frameIdx)

def passed (info : BufInfo) (seen : List SuperBuf) : Walk where
  unmatchedBundles := seen.countP (fun sb => !sb.matched) % 256
  lastBuf := seen.findIdx? (older info)
  insertBeforeBuf := seen.findIdx? (newer info)

theorem findIdx?_snoc {α : Type} (p : α → Bool) (xs : List α) (x : α) :
    (xs ++ [x]).findIdx? p =
      if xs.findIdx? p = none ∧ p x = true then some xs.length else xs.findIdx? p := by
  rw [List.findIdx?_append, List.findIdx?_singleton]
  cases xs.findIdx? p with
  | none => cases p x <;> simp
  | some i => simp

theorem passed_matched {seen : List SuperBuf} {sb : SuperBuf} (hmatched : sb.matched = true) :
    passed info (seen ++ [sb]) = passed info seen := by
  simp [passed, older, newer, hmatched]

theorem passed_unmatched {seen : List SuperBuf} {sb : SuperBuf} (hmatched : sb.matched = false) :
    passed info (seen ++ [sb]) = { passed info seen with
      unmatchedBundles := ((passed info seen).unmatchedBundles + 1) % 256
      lastBuf :=
        if (passed info seen).lastBuf = none ∧ sb.frameIdx < info.frameIdx then some seen.length
        else (passed info seen).lastBuf
      insertBeforeBuf :=
        if (passed info seen).insertBeforeBuf = none ∧ sb.frameIdx > info.frameIdx then
          some seen.length
        else (passed info seen).insertBeforeBuf } := by
  have holder : older info sb = decide (sb.frameIdx < info.frameIdx) := by simp [older, hmatched]
  have hnewer : newer info sb = decide (sb.frameIdx > info.frameIdx) := by simp [newer, hmatched]
  have hcount : (seen ++ [sb]).countP (fun sb => !sb.matched) =
      seen.countP (fun sb => !sb.matched) + 1 := by simp [hmatched]
  simp only [passed, findIdx?_snoc, holder, hnewer, hcount, decide_eq_true_eq]
  rw [Nat.mod_add_mod]
  congr

theorem walk_cons {seen rest : List SuperBuf} {sb : SuperBuf}
    (hsb : c.stops info idx sb = false) :
    c.walk info idx seen.length (passed info seen) (sb :: rest) =
      c.walk info idx (seen ++ [sb]).length (passed info (seen ++ [sb])) rest := by
  rw [List.length_append, List.length_singleton, walk]
  cases hmatched : sb.matched with
  | true => rw [if_pos rfl, passed_matched hmatched]
  | false =>
    simp_all [stops, passed_unmatched]

theorem walk_append (seen tail : List SuperBuf) {rest : List SuperBuf}
    (hrest : ∀ sb ∈ rest, c.stops info idx sb = false) :
    c.walk info idx seen.length (passed info seen) (rest ++ tail) =
      c.walk info idx (seen ++ rest).length (passed info (seen ++ rest)) tail := by
  induction rest generalizing seen with
  | nil => rw [List.append_nil, List.nil_append]
  | cons sb rest ih =>
    grind [walk_cons]

theorem walk_none (hnodes : ∀ sb ∈ c.nodes, c.stops info idx sb = false) :
    c.walk info idx 0 {} c.nodes = passed info c.nodes := by
  have hwalk := walk_append [] [] hnodes
  rwa [List.append_nil, List.nil_append] at hwalk

theorem walk_some {a b : List SuperBuf} {sb : SuperBuf} (hnodes : c.nodes = a ++ sb :: b)
    (hsb : c.stops info idx sb = true) (ha : ∀ x ∈ a, c.stops info idx x = false) :
    c.walk info idx 0 {} c.nodes = { passed info a with found := some a.length } := by
  have hwalk := walk_append [] (sb :: b) ha
  rw [List.nil_append] at hwalk
  rw [hnodes]
  refine hwalk.trans ?_
  simp_all [stops, walk]

theorem nodes_cases (c : Channel) (info : BufInfo) (idx : Nat) :
    (∀ sb ∈ c.nodes, c.stops info idx sb = false) ∨
      ∃ a sb b, c.nodes = a ++ sb :: b ∧ c.stops info idx sb = true ∧
        ∀ x ∈ a, c.stops info idx x = false := by
  cases hfind : c.nodes.find? (c.stops info idx) with
  | none =>
    simp_all
  | some sb =>
    obtain ⟨hsb, a, b, hnodes, ha⟩ := List.find?_eq_some_iff_append.mp hfind
    exact .inr ⟨a, sb, b, hnodes, hsb, fun x hx => by simpa using ha x hx⟩

theorem split_of_findIdx? {α : Type} {p : α → Bool} {xs : List α} {i : Nat}
    (h : xs.findIdx? p = some i) :
    ∃ a x b, xs = a ++ x :: b ∧ a.length = i ∧ p x = true ∧ ∀ y ∈ a, p y = false := by
  obtain ⟨hi, hx, hfirst⟩ := List.findIdx?_eq_some_iff_getElem.mp h
  refine ⟨xs.take i, xs[i], xs.drop (i + 1), ?_, ?_, hx, ?_⟩
  · rw [← List.drop_eq_getElem_cons hi, List.take_append_drop]
  · rw [List.length_take]
    omega
  · intro y hy
    obtain ⟨j, hj, rfl⟩ := List.mem_take_iff_getElem.mp hy
    simpa using hfirst j (by omega)

theorem handleMetadata_preserves {P : Channel → Prop}
    (hcontrol : ∀ c k, P c → P { c with control := k })
    (hflush : ∀ c, P c → P (c.superbufFlush .default))
    (hmatched : ∀ c, P c → P c.superbufFlushMatched) (hc : P c) (env : MetaEnv) :
    P (c.handleMetadata info env).2 := by
  unfold handleMetadata
  split
  · exact hc
  split
  · split
    · exact hc
    rename_i metadata _
    simp only [handleFoundMetadata]
    have hdivert := hcontrol c (c.control.divert info.frameIdx metadata.divertInfo) hc
    generalize { c with control := c.control.divert info.frameIdx metadata.divertInfo } = c₁
      at hdivert ⊢
    split
    · unfold handleZoom1x
      split
      · exact hcontrol _ _ hdivert
      · exact hmatched _ (hcontrol _ _ hdivert)
    have hprep : P (metadata.prepSnapshotDone.elim c₁ c₁.handlePrepSnapshotDone) := by
      cases metadata.prepSnapshotDone with
      | none => exact hdivert
      | some needFutureFrame =>
        grind [handlePrepSnapshotDone]
    split
    · exact hcontrol _ _ hprep
    grind [handleNoGoodFrames]
  · exact hc

theorem superbufDequeueInternal_cases (c : Channel) (matchedOnly : Bool) :
    c.superbufDequeueInternal matchedOnly = (none, c) ∨
      ∃ sb rest, c.nodes = sb :: rest ∧ (matchedOnly = true → sb.matched = true) ∧
        c.superbufDequeueInternal matchedOnly = (some sb, { c with
          nodes := rest
          size := c.size - 1
          matchCnt := if sb.matched then c.matchCnt - 1 else c.matchCnt }) := by
  unfold superbufDequeueInternal
  grind

theorem drain_preserves {P : Channel → Prop} {matchedOnly : Bool} {give : SuperBuf → List Buf}
    (hstep : ∀ c sb c', P c → c.superbufDequeueInternal matchedOnly = (some sb, c') →
      P (c'.qbuf (give sb))) (hc : P c) (fuel : Nat) : P (c.drain matchedOnly give fuel) := by
  induction fuel generalizing c with
  | zero => exact hc
  | succ fuel ih =>
    unfold drain
    rcases c.superbufDequeueInternal_cases matchedOnly with hnone | ⟨sb, rest, _, _, hsome⟩
    · rw [hnone]
      exact hc
    · rw [hsome]
      exact ih (hstep c sb _ hc hsome)

theorem dropAbove_preserves {P : Channel → Prop} {limit : UInt8}
    (hstep : ∀ c sb c', P c → c.superbufDequeueInternal true = (some sb, c') →
      P (c'.qbuf sb.bufs)) (hspins : ∀ c, P c → P { c with spins := true }) (hc : P c)
    (fuel : Nat) : P (c.dropAbove limit fuel) := by
  induction fuel generalizing c with
  | zero => exact hc
  | succ fuel ih =>
    unfold dropAbove
    split
    · rcases c.superbufDequeueInternal_cases true with hnone | ⟨sb, rest, _, _, hsome⟩
      · rw [hnone]
        exact hspins c hc
      · rw [hsome]
        exact ih (hstep c sb _ hc hsome)
    · exact hc

/-- What a complete superbuf after `a` leaves of `a`. -/
def spared (info : BufInfo) (a : List SuperBuf) : List SuperBuf :=
  match a.findIdx? (older info) with
  | some last => a.take last
  | none => a

/-- What a complete superbuf after `a` drops. -/
def purged (info : BufInfo) (a : List SuperBuf) : List SuperBuf :=
  match a.findIdx? (older info) with
  | some last => a.drop last
  | none => []

theorem spared_append_purged (info : BufInfo) (a : List SuperBuf) :
    spared info a ++ purged info a = a := by
  unfold spared purged
  split
  · exact List.take_append_drop _ a
  · exact List.append_nil a

theorem spared_not_older {a : List SuperBuf} {x : SuperBuf} (hx : x ∈ spared info a) :
    older info x = false := by
  unfold spared at hx
  split at hx
  · rename_i last hlast
    obtain ⟨p, y, q, rfl, hlen, -, hp⟩ := split_of_findIdx? hlast
    simp_all
  simp_all

/-- The outcomes of `merge`; `a` and `b` are before and after the superbuf. -/
inductive MergeStep (c : Channel) (info : BufInfo) (idx : Nat) (a : List SuperBuf) (sb : SuperBuf)
    (b : List SuperBuf) : Channel → Prop
  | filled : MergeStep c info idx a sb b (c.qbuf [info.buf])
  | completed (hslot : slotFrameIdx (sb.superBuf.getD idx none) = 0)
      (hcomplete : (sb.put info idx).complete = true) {k : Control} :
      MergeStep c info idx a sb b { c with
        nodes :=
          spared info a ++ { sb.put info idx with matched := true, expected := false } :: b
        control := k
        matchCnt := c.matchCnt + 1
        size := c.size - (purged info a).length
        returned := c.returned ++ (purged info a).flatMap SuperBuf.framed }
  | merged (hslot : slotFrameIdx (sb.superBuf.getD idx none) = 0) (k : Control)
      (expected : Bool) : MergeStep c info idx a sb b { c with
        nodes := a ++ { sb.put info idx with expected := expected } :: b
        control := k }

theorem releaseOlder_eq {a rest : List SuperBuf} (hnodes : c.nodes = a ++ rest) :
    c.releaseOlder (passed info a).lastBuf a.length = { c with
      nodes := spared info a ++ rest
      size := c.size - (purged info a).length
      returned := c.returned ++ (purged info a).flatMap SuperBuf.framed } := by
  simp only [passed, spared, purged]
  cases hlast : a.findIdx? (older info) with
  | none =>
    simp only [releaseOlder, List.flatMap_nil, List.append_nil, List.length_nil]
    rw [← hnodes, show ((0 : Nat) : Int) = 0 from rfl, Int.sub_zero]
  | some last =>
    have hle : last ≤ a.length := by
      obtain ⟨p, y, q, rfl, rfl, -⟩ := split_of_findIdx? hlast
      simp
    simp [releaseOlder, qbuf, List.take_append_of_le_length, hnodes, hle]

theorem merge_step {a b : List SuperBuf} {sb : SuperBuf} (hnodes : c.nodes = a ++ sb :: b) :
    MergeStep c info idx a sb b (c.merge info idx a.length (passed info a).lastBuf sb) := by
  have hset : ∀ x, c.nodes.set a.length x = a ++ x :: b := by
    simp [hnodes]
  unfold merge
  split
  · exact .filled
  rename_i hslot
  have hslot' := not_not.mp hslot
  simp only [hset]
  split
  · rename_i hcomplete
    rw [releaseOlder_eq rfl]
    exact .completed hslot' hcomplete
  split
  · exact .merged hslot' _ true
  · exact .merged hslot' _ sb.expected

inductive DropStep (c : Channel) (w : Walk) : Option Nat × Channel → Prop
  | kept (hfew : w.lastBuf = none ∨ w.unmatchedBundles ≤ c.attr.maxUnmatchedFrames.toNat) :
      DropStep c w (none, c)
  | again {last i : Nat} (hlast : w.lastBuf = some last)
      (hmany : c.attr.maxUnmatchedFrames.toNat < w.unmatchedBundles)
      (hi : c.droppable last w.insertBeforeBuf = some i) {times : Nat}
      (htimes : times = w.unmatchedBundles - c.attr.maxUnmatchedFrames.toNat) :
      DropStep c w (some i, { c with
        nodes := c.nodes.eraseIdx i
        size := c.size - times
        usedFreed := true
        returned := c.returned ++ (List.replicate times (c.nodeAt i).framed).flatten })
  | last {last : Nat} (hlast : w.lastBuf = some last)
      (hmany : c.attr.maxUnmatchedFrames.toNat < w.unmatchedBundles) :
      DropStep c w (some last, { c with
        nodes := c.nodes.eraseIdx last
        size := c.size - 1
        returned := c.returned ++ (c.nodeAt last).framed })

theorem dropUnmatched_step (c : Channel) (w : Walk) : DropStep c w (c.dropUnmatched w) := by
  unfold dropUnmatched
  split
  · rename_i hlast
    exact .kept (.inl hlast)
  rename_i last hlast
  split
  · rename_i hmany
    split
    · rename_i i hi
      exact .again hlast hmany hi rfl
    · exact .last hlast hmany
  · rename_i hfew
    exact .kept (.inr (Nat.le_of_not_lt hfew))

/-- A new superbuf has room in the queue, or an older one can be dropped for it. -/
def HasRoom (c : Channel) (info : BufInfo) : Prop :=
  (passed info c.nodes).lastBuf = none →
    (passed info c.nodes).unmatchedBundles ≤ c.attr.maxUnmatchedFrames.toNat

inductive CompareStep (c : Channel) (info : BufInfo) (idx : Nat) (memory : Bool) : Channel → Prop
  | merged {a b : List SuperBuf} {sb : SuperBuf} {c' : Channel}
      (hnodes : c.nodes = a ++ sb :: b) (hstops : c.stops info idx sb = true)
      (hfirst : ∀ x ∈ a, c.stops info idx x = false)
      (hstep : MergeStep { c with nomatchFrameId := 0 } info idx a sb b c') :
      CompareStep c info idx memory c'
  | tooOld : CompareStep c info idx memory (c.qbuf [info.buf])
  | noMemory {dropped : Option Nat} {c' : Channel}
      (hnone : ∀ x ∈ c.nodes, c.stops info idx x = false) (hroom : HasRoom c info)
      (hstep : DropStep c (passed info c.nodes) (dropped, c')) :
      CompareStep c info idx memory (c'.qbuf [info.buf])
  | inserted {dropped : Option Nat} {c' : Channel}
      (hnone : ∀ x ∈ c.nodes, c.stops info idx x = false) (hroom : HasRoom c info)
      (hstep : DropStep c (passed info c.nodes) (dropped, c')) :
      CompareStep c info idx memory
        (c'.insertNew info idx ((passed info c.nodes).insertBeforeBuf.map (shifted dropped)))

theorem nodeAt_append {a b : List SuperBuf} {sb : SuperBuf} (hnodes : c.nodes = a ++ sb :: b) :
    c.nodeAt a.length = sb := by
  simp [nodeAt, hnodes]

theorem compare_step (c : Channel) (info : BufInfo) (idx : Nat) (memory : Bool) :
    CompareStep c info idx memory (c.compare info idx memory) := by
  unfold compare
  rcases c.nodes_cases info idx with hnone | ⟨a, sb, b, hnodes, hstops, hfirst⟩
  · simp only [walk_none hnone, show (passed info c.nodes).found = none from rfl]
    unfold insert
    split
    · exact .tooOld
    · rename_i htooOld
      have hroom : HasRoom c info := by
        intro hlast
        simp_all
      have hstep := c.dropUnmatched_step (passed info c.nodes)
      simp only
      split
      · exact .inserted hnone hroom hstep
      · exact .noMemory hnone hroom hstep
  · simp only [walk_some hnodes hstops hfirst]
    have hat : { c with nomatchFrameId := 0 }.nodeAt a.length = sb := nodeAt_append hnodes
    rw [hat]
    exact .merged hnodes hstops hfirst (merge_step hnodes)

def comparing (c : Channel) (info : BufInfo) (env : MetaEnv) : Option (Nat × Channel) :=
  match c.bundledStreams.idxOf? info.streamId with
  | none => none
  | some idx =>
    if info.frameIdx = 0 then none
    else
      let (rc, c) := c.handleMetadata info env
      if rc < 0 ∨ info.frameIdx < c.control.expectedFrameId ∨ (c.nomatchFrameId ≠ 0 ∧
          c.nomatchFrameId > info.frameIdx ∧ info.buf.streamType = .metadata) then none
      else some (idx, c)

inductive DeliverStep (c : Channel) (info : BufInfo) (env : MetaEnv) (memory : Bool) :
    Channel → Prop
  | notBundled (hstream : info.streamId ∉ c.bundledStreams) : DeliverStep c info env memory c
  | noFrame : DeliverStep c info env memory (c.qbuf [info.buf])
  | refused : DeliverStep c info env memory ((c.handleMetadata info env).2.qbuf [info.buf])
  | compared {idx : Nat} (hidx : idx < c.bundledStreams.length) (hframe : info.frameIdx ≠ 0)
      (hcomparing : c.comparing info env = some (idx, (c.handleMetadata info env).2)) :
      DeliverStep c info env memory ((c.handleMetadata info env).2.compare info idx memory)

theorem deliver_step (c : Channel) (info : BufInfo) (env : MetaEnv) (memory : Bool) :
    DeliverStep c info env memory (c.superbufCompAndEnqueue info env memory).2 := by
  have hcompared : ∀ idx, c.comparing info env = some (idx, (c.handleMetadata info env).2) →
      idx < c.bundledStreams.length → info.frameIdx ≠ 0 → DeliverStep c info env memory
        ((c.handleMetadata info env).2.compare info idx memory) :=
    fun idx hcomparing hidx hframe => .compared hidx hframe hcomparing
  unfold superbufCompAndEnqueue
  unfold comparing at hcompared
  cases hidx : c.bundledStreams.idxOf? info.streamId with
  | none => exact .notBundled (by simpa using hidx)
  | some idx =>
    simp only [hidx] at hcompared ⊢
    split
    · exact .noFrame
    rename_i hframe
    rw [if_neg hframe] at hcompared
    have hrefused : DeliverStep c info env memory
      ((c.handleMetadata info env).2.qbuf [info.buf]) := .refused
    split
    · exact hrefused
    split
    · exact hrefused
    split
    · exact hrefused
    · rename_i hrc hexpected hnomatch
      refine hcompared idx ?_ ?_ hframe
      · simp [hrc, hexpected, hnomatch]
      · exact (List.idxOf?_eq_some_iff.mp hidx).1

end Channel

end EtherDevice.MmChannel
