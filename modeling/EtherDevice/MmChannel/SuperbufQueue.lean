import EtherDevice.Lib.Transition

/-!
# The superbuf queue of a bundled channel

The channel joins the buffers of its bundled streams to superbufs, one slot for each
stream, and keeps the superbufs in a queue until they are complete and the consumer wants
them. Everything runs on the command thread of the channel.

Each delivery of a buffer has a serial number, so that a buffer that a stream delivers
again is another delivery. `returned` has the buffers that `mm_channel_qbuf` gave back to
their streams, `dispatched` the superbufs that went to the consumer.

The counters of the queue are integers; they count nodes, which fit the memory. The local
`unmatched_bundles` is a byte.
-/

namespace EtherDevice.MmChannel

open Lib

inductive StreamType
  | default
  | preview
  | postview
  | snapshot
  | video
  | callback
  | implDefined
  | metadata
  | raw
  | offlineProc
  | parm
  | analysis
  deriving DecidableEq, Repr

structure Buf where
  serial : Nat
  streamType : StreamType
  deriving DecidableEq, Repr

structure BufInfo where
  streamId : UInt32
  frameIdx : UInt32
  buf : Buf
  deriving DecidableEq, Repr

/-- `mm_channel_queue_node_t`, with a slot for each of its `num_of_bufs` buffers. A slot
that was not written is zero. -/
structure SuperBuf where
  superBuf : List (Option BufInfo)
  matched : Bool := false
  expected : Bool := false
  frameIdx : UInt32
  deriving DecidableEq, Repr

def slotFrameIdx (slot : Option BufInfo) : UInt32 := (slot.map BufInfo.frameIdx).getD 0

namespace SuperBuf

variable (sb : SuperBuf)

/-- The buffers of the slots whose `frame_idx` is not 0. -/
def framed : List Buf :=
  sb.superBuf.filterMap fun slot => if slotFrameIdx slot ≠ 0 then slot.map BufInfo.buf else none

/-- The buffers of the slots whose `buf` is not null. -/
def bufs : List Buf := sb.superBuf.filterMap fun slot => slot.map BufInfo.buf

def complete : Bool := sb.superBuf.all fun slot => slotFrameIdx slot ≠ 0

end SuperBuf

inductive NotifyMode
  | burst
  | continuous
  deriving DecidableEq, Repr

inductive Priority
  | normal
  | focus
  | exposureBracketing
  | low
  deriving DecidableEq, Repr

/-- `mm_camera_channel_attr_t` without the mode, which a command changes. -/
structure Attr where
  waterMark : UInt8 := 2
  lookBack : UInt8 := 2
  postFrameSkip : UInt8 := 0
  maxUnmatchedFrames : UInt8 := 1
  priority : Priority := .normal
  deriving DecidableEq, Repr

inductive BracketingState
  | off
  | waitGoodFrameIdx
  | active
  deriving DecidableEq, Repr

/-- What decides which frames the channel waits for: the frame ids of the queue and the
flags of the channel. -/
structure Control where
  notifyMode : NotifyMode := .burst
  expectedFrameId : UInt32 := 0
  expectedFrameIdWithoutLed : UInt32 := 0
  ledOnStartFrameId : UInt32 := 0
  ledOffStartFrameId : UInt32 := 0
  ledOnNumFrames : UInt32 := 0
  once : Bool := false
  frameSkipCount : UInt32 := 0
  divertedFrameId : UInt8 := 0
  isZoom1xFrameRequested : Bool := false
  bWaitForPrepSnapshotDone : Bool := false
  needLEDFlash : Bool := false
  stopZslSnapshot : Bool := false
  burstSnapNum : UInt32 := 0
  isFlashBracketingEnabled : Bool := false
  bracketingState : BracketingState := .off
  /-- `num_batch` of `frame_config`, if there is one. -/
  frameConfig : Option UInt32 := none
  curCaptureIdx : UInt8 := 0
  /-- The server's id of the snapshot stream, 0 without one. -/
  snapshotStreamId : UInt32 := 0
  deriving DecidableEq, Repr

/-- A bundled channel with its superbuf queue. -/
structure Channel where
  bundledStreams : List UInt32
  attr : Attr
  control : Control := {}
  nodes : List SuperBuf := []
  size : Int := 0
  matchCnt : Int := 0
  nomatchFrameId : UInt32 := 0
  /-- The number of buffers that the streams delivered. -/
  delivered : Nat := 0
  returned : List Buf := []
  dispatched : List (List Buf) := []
  /-- A node was read after it was freed. -/
  usedFreed : Bool := false
  /-- The command thread is in a loop that does not end. -/
  spins : Bool := false
  deriving DecidableEq, Repr

namespace Channel

variable (c : Channel)

def qbuf (bufs : List Buf) : Channel := { c with returned := c.returned ++ bufs }

def superbufDequeueInternal (matchedOnly : Bool) : Option SuperBuf × Channel :=
  match c.nodes with
  | [] => (none, c)
  | sb :: rest =>
    if matchedOnly && !sb.matched then (none, c)
    else (some sb, { c with
      nodes := rest
      size := c.size - 1
      matchCnt := if sb.matched then c.matchCnt - 1 else c.matchCnt })

/-- Take superbufs out and give back what `give` has of them, until none is found. -/
def drain (matchedOnly : Bool) (give : SuperBuf → List Buf) : Nat → Channel → Channel
  | 0, c => c
  | fuel + 1, c =>
    match c.superbufDequeueInternal matchedOnly with
    | (some sb, c) => drain matchedOnly give fuel (c.qbuf (give sb))
    | (none, c) => c

/-- `mm_channel_superbuf_flush`: only buffers of the stream type are given back, unless it
is the default. -/
def superbufFlush (camType : StreamType) : Channel :=
  c.drain false (fun sb => sb.bufs.filter fun buf =>
    camType = .default ∨ camType = buf.streamType) (c.nodes.length + 1)

def superbufFlushMatched : Channel := c.drain true SuperBuf.bufs (c.nodes.length + 1)

/-- The loop of `mm_channel_superbuf_bufdone_overflow` and `mm_channel_superbuf_skip`. It
does not end if the counter is above the limit and the first superbuf is not matched. -/
def dropAbove (limit : UInt8) : Nat → Channel → Channel
  | 0, c => c
  | fuel + 1, c =>
    if c.matchCnt > limit.toNat then
      match c.superbufDequeueInternal true with
      | (some sb, c) => dropAbove limit fuel (c.qbuf sb.bufs)
      | (none, c) => { c with spins := true }
    else c

def superbufBufdoneOverflow : Channel :=
  if c.control.notifyMode = .continuous then c
  else c.dropAbove c.attr.waterMark (c.nodes.length + 1)

def superbufSkip : Channel :=
  if c.control.notifyMode = .continuous then c
  else c.dropAbove c.attr.lookBack (c.nodes.length + 1)

/-- `mm_channel_process_stream_buf` takes a superbuf for the consumer. `sent` tells whether
there is a callback and memory for its command; else the buffers are given back. -/
def dispatch (sent : Bool) : Channel :=
  match c.superbufDequeueInternal true with
  | (none, c) => c
  | (some sb, c) =>
    if sent then { c with dispatched := c.dispatched ++ [sb.bufs] } else c.qbuf sb.bufs

end Channel

structure FrameIdxRange where
  minFrameIdx : UInt32
  maxFrameIdx : UInt32
  numLedOnFrames : UInt32
  frameSkipCount : UInt32
  configBatchIdx : UInt32
  deriving DecidableEq, Repr

structure CropInfo where
  streamId : UInt32
  left : Int
  top : Int
  deriving DecidableEq, Repr

/-- The entries of a metadata buffer that the channel reads. -/
structure Metadata where
  /-- `CAM_INTF_META_PREP_SNAPSHOT_DONE` is there; whether it is `NEED_FUTURE_FRAME`. -/
  prepSnapshotDone : Option Bool := none
  goodFrameIdxRange : Option FrameIdxRange := none
  cropData : Option (List CropInfo) := none
  /-- `frame_id` of `CAM_INTF_BUF_DIVERT_INFO` -/
  divertInfo : Option UInt32 := none
  deriving DecidableEq, Repr

structure StreamObj where
  streamType : StreamType
  ownChannel : Bool := true
  deriving DecidableEq, Repr

/-- What `mm_channel_handle_metadata` finds: the stream object with its info, and the
contents of the buffer. -/
structure MetaEnv where
  stream : Option StreamObj
  metadata : Option Metadata := none
  deriving DecidableEq, Repr

def maxFutureFrameOffset : UInt32 := 100

namespace Control

variable (k : Control)

def divert (frameIdx : UInt32) (divertInfo : Option UInt32) : Control :=
  match divertInfo with
  | none => k
  | some frameId => { k with divertedFrameId := if frameId ≥ frameIdx then frameId.toUInt8 else 0 }

def crop1xFound (cropData : Option (List CropInfo)) : Bool :=
  (cropData.getD []).any fun crop =>
    crop.streamId = k.snapshotStreamId && crop.left = 0 && crop.top = 0

def goodFrames (range : FrameIdxRange) : Control :=
  let k := { k with expectedFrameId := range.minFrameIdx }
  if k.needLEDFlash ∧ k.burstSnapNum > 1 then
    { k with
      ledOnStartFrameId := range.minFrameIdx
      ledOffStartFrameId := range.maxFrameIdx
      once := false
      ledOnNumFrames := range.numLedOnFrames
      frameSkipCount := range.frameSkipCount }
  else k

def bracketing (range : FrameIdxRange) : Control :=
  if k.isFlashBracketingEnabled then
    { k with
      expectedFrameId := range.minFrameIdx
      expectedFrameIdWithoutLed := range.maxFrameIdx }
  else { k with expectedFrameId := range.minFrameIdx, bracketingState := .active }

def batch (range : FrameIdxRange) : Control :=
  match k.frameConfig with
  | some numBatch =>
    if range.configBatchIdx < numBatch then
      { k with expectedFrameId := range.minFrameIdx, curCaptureIdx := range.configBatchIdx.toUInt8 }
    else k
  | none => k

def ledOff (frameIdx : UInt32) : Control :=
  if k.burstSnapNum > 1 ∧ k.needLEDFlash ∧ k.isFlashBracketingEnabled = false ∧
      k.bracketingState = .off ∧ k.frameConfig = none ∧
      frameIdx ≥ k.ledOffStartFrameId ∧ k.once = false then
    { k with
      expectedFrameId := k.ledOffStartFrameId + k.frameSkipCount
      once := true
      stopZslSnapshot := true
      needLEDFlash := false }
  else k

end Control

namespace Channel

variable (c : Channel)

def handleZoom1x (frameIdx : UInt32) (cropFound : Bool) : Channel :=
  if cropFound then
    { c with control := { c.control with
      isZoom1xFrameRequested := false
      expectedFrameId := frameIdx + 1 } }
  else { c with control := { c.control with
    expectedFrameId := c.control.expectedFrameId + maxFutureFrameOffset } }.superbufFlushMatched

def handlePrepSnapshotDone (needFutureFrame : Bool) : Channel :=
  let k := { c.control with bWaitForPrepSnapshotDone := false }
  if needFutureFrame then
    let c := { c with control := { k with
      expectedFrameId := k.expectedFrameId + maxFutureFrameOffset } }.superbufFlush .default
    { c with control := { c.control with needLEDFlash := true } }
  else { c with control := { k with needLEDFlash := false } }

/-- The part of `mm_channel_handle_metadata` without good frames: unwanted frames are
flushed while they are waited for. -/
def handleNoGoodFrames (prepSnapshotDone : Option Bool) : Channel :=
  if c.control.bracketingState = .waitGoodFrameIdx ∧ prepSnapshotDone = none then
    let c := c.superbufFlushMatched
    { c with control := { c.control with
      expectedFrameId := c.control.expectedFrameId + maxFutureFrameOffset } }
  else c

def handleFoundMetadata (frameIdx : UInt32) (metadata : Metadata) : Channel :=
  let c := { c with control := c.control.divert frameIdx metadata.divertInfo }
  if c.control.isZoom1xFrameRequested then
    c.handleZoom1x frameIdx (c.control.crop1xFound metadata.cropData)
  else
    let c := metadata.prepSnapshotDone.elim c c.handlePrepSnapshotDone
    match metadata.goodFrameIdxRange with
    | some range =>
      { c with control :=
        (((c.control.goodFrames range).bracketing range).batch range).ledOff frameIdx }
    | none =>
      let c := c.handleNoGoodFrames metadata.prepSnapshotDone
      { c with control := c.control.ledOff frameIdx }

def handleMetadata (info : BufInfo) (env : MetaEnv) : Int × Channel :=
  match env.stream with
  | none => (-1, c)
  | some stream =>
    if stream.streamType = .metadata ∧ stream.ownChannel then
      match env.metadata with
      | none => (-1, c)
      | some metadata => (0, c.handleFoundMetadata info.frameIdx metadata)
    else (0, c)

structure Walk where
  /-- `pos`, if a superbuf was found. -/
  found : Option Nat := none
  unmatchedBundles : Nat := 0
  lastBuf : Option Nat := none
  insertBeforeBuf : Option Nat := none
  deriving DecidableEq, Repr

/-- The buffer belongs to the superbuf: its frame, or metadata for a frame without, or at
low priority a frame for later metadata. -/
def joins (info : BufInfo) (idx : Nat) (sb : SuperBuf) : Bool :=
  let slot := slotFrameIdx (sb.superBuf.getD idx none)
  info.frameIdx = sb.frameIdx ∨
    (c.nomatchFrameId ≠ 0 ∧ c.nomatchFrameId ≤ info.frameIdx ∧ slot = 0 ∧
      info.buf.streamType = .metadata) ∨
    (c.attr.priority = .low ∧ info.buf.streamType ≠ .metadata ∧ slot = 0 ∧
      sb.frameIdx > info.frameIdx)

def walk (info : BufInfo) (idx : Nat) : Nat → Walk → List SuperBuf → Walk
  | _, w, [] => w
  | i, w, sb :: rest =>
    if sb.matched then walk info idx (i + 1) w rest
    else if c.joins info idx sb then { w with found := some i }
    else
      walk info idx (i + 1) { w with
        unmatchedBundles := (w.unmatchedBundles + 1) % 256
        lastBuf :=
          if w.lastBuf = none ∧ sb.frameIdx < info.frameIdx then some i else w.lastBuf
        insertBeforeBuf :=
          if w.insertBeforeBuf = none ∧ sb.frameIdx > info.frameIdx then some i
          else w.insertBeforeBuf } rest

def afterMatch (k : Control) (attr : Attr) (frameIdx : UInt32) : Control :=
  if k.isFlashBracketingEnabled then
    { k with
      expectedFrameId := k.expectedFrameIdWithoutLed
      isFlashBracketingEnabled := !(frameIdx ≥ k.expectedFrameIdWithoutLed) }
  else { k with expectedFrameId := frameIdx + attr.postFrameSkip.toUInt32 }

def releaseOlder (lastBuf : Option Nat) (pos : Nat) : Channel :=
  match lastBuf with
  | none => c
  | some last =>
    let older := (c.nodes.take pos).drop last
    { c with
      nodes := c.nodes.take last ++ c.nodes.drop pos
      size := c.size - older.length }.qbuf (older.flatMap SuperBuf.framed)

def merge (info : BufInfo) (idx pos : Nat) (lastBuf : Option Nat) (sb : SuperBuf) : Channel :=
  if slotFrameIdx (sb.superBuf.getD idx none) ≠ 0 then c.qbuf [info.buf]
  else
    let sb := { sb with superBuf := sb.superBuf.set idx (some info) }
    if sb.complete then
      { c with
        nodes := c.nodes.set pos { sb with matched := true, expected := false }
        control := afterMatch c.control c.attr info.frameIdx
        matchCnt := c.matchCnt + 1 }.releaseOlder lastBuf pos
    else if c.control.divertedFrameId.toUInt32 = info.frameIdx then
      { c with
        nodes := c.nodes.set pos { sb with expected := true }
        control := { c.control with divertedFrameId := 0 } }
    else { c with nodes := c.nodes.set pos sb }

def nodeAt (i : Nat) : SuperBuf := c.nodes.getD i { superBuf := [], frameIdx := 0 }

def droppable (lastBuf : Nat) (insertBeforeBuf : Option Nat) : Option Nat :=
  (List.range c.nodes.length).find? fun i =>
    lastBuf ≤ i ∧ (c.nodeAt i).expected = false ∧ some i ≠ insertBeforeBuf

/-- Unmatched superbufs are dropped while there are too many of them; the result has the
position of the one that was. The loop reads the next node from the node that it has just
freed. As `cam_list_del_node` has let that node point to itself, the loop stays there and
drops the node again, until it has counted enough. If no superbuf may be dropped,
`last_buf` is. -/
def dropUnmatched (w : Walk) : Option Nat × Channel :=
  match w.lastBuf with
  | none => (none, c)
  | some last =>
    if c.attr.maxUnmatchedFrames.toNat < w.unmatchedBundles then
      match c.droppable last w.insertBeforeBuf with
      | some i =>
        let times := w.unmatchedBundles - c.attr.maxUnmatchedFrames.toNat
        (some i, { c with
          nodes := c.nodes.eraseIdx i
          size := c.size - times
          usedFreed := true }.qbuf (List.replicate times (c.nodeAt i).framed).flatten)
      | none =>
        (some last, { c with
          nodes := c.nodes.eraseIdx last
          size := c.size - 1 }.qbuf (c.nodeAt last).framed)
    else (none, c)

/-- The superbuf of a buffer that found none. -/
def newSuperBuf (info : BufInfo) (idx : Nat) : SuperBuf where
  superBuf := (List.replicate c.bundledStreams.length none).set idx (some info)
  matched := c.bundledStreams.length = 1
  expected := c.control.divertedFrameId.toUInt32 = info.frameIdx ∧ c.bundledStreams.length ≠ 1
  frameIdx := info.frameIdx

def insertNew (info : BufInfo) (idx : Nat) (before : Option Nat) : Channel :=
  let single : Bool := c.bundledStreams.length = 1
  let k :=
    if c.control.divertedFrameId.toUInt32 = info.frameIdx then
      { c.control with divertedFrameId := 0 }
    else c.control
  { c with
    nodes := c.nodes.insertIdx (before.getD c.nodes.length) (c.newSuperBuf info idx)
    size := c.size + 1
    matchCnt := if single then c.matchCnt + 1 else c.matchCnt
    control :=
      if single then
        { k with expectedFrameId := info.frameIdx + c.attr.postFrameSkip.toUInt32 }
      else k
    nomatchFrameId :=
      if c.attr.priority = .low ∧ info.buf.streamType ≠ .metadata then info.frameIdx
      else c.nomatchFrameId }

def shifted (dropped : Option Nat) (i : Nat) : Nat :=
  match dropped with
  | some d => if d < i then i - 1 else i
  | none => i

/-- The buffer found no superbuf. It is given back if it is older than too many that wait,
or if there is no memory. -/
def insert (info : BufInfo) (idx : Nat) (w : Walk) (memory : Bool) : Channel :=
  if c.attr.maxUnmatchedFrames.toNat < w.unmatchedBundles ∧ w.lastBuf = none then
    c.qbuf [info.buf]
  else
    let (dropped, c) := c.dropUnmatched w
    if memory then c.insertNew info idx (w.insertBeforeBuf.map (shifted dropped))
    else c.qbuf [info.buf]

def compare (info : BufInfo) (idx : Nat) (memory : Bool) : Channel :=
  let w := c.walk info idx 0 {} c.nodes
  match w.found with
  | some pos =>
    let c := { c with nomatchFrameId := 0 }
    c.merge info idx pos w.lastBuf (c.nodeAt pos)
  | none => c.insert info idx w memory

def superbufCompAndEnqueue (info : BufInfo) (env : MetaEnv) (memory : Bool) : Int × Channel :=
  match c.bundledStreams.idxOf? info.streamId with
  | none => (-1, c)
  | some idx =>
    if info.frameIdx = 0 then (0, c.qbuf [info.buf])
    else
      let (rc, c) := c.handleMetadata info env
      if rc < 0 then (-1, c.qbuf [info.buf])
      else if info.frameIdx < c.control.expectedFrameId then (0, c.qbuf [info.buf])
      else if c.nomatchFrameId ≠ 0 ∧ c.nomatchFrameId > info.frameIdx ∧
          info.buf.streamType = .metadata then
        (0, c.qbuf [info.buf])
      else (0, c.compare info idx memory)

end Channel

inductive Op
  /-- A stream delivers a buffer. -/
  | deliver (streamId frameIdx : UInt32) (streamType : StreamType) (env : MetaEnv) (memory : Bool)
  | bufdoneOverflow
  | skip
  | flush (camType : StreamType)
  | flushMatched
  | dispatch (sent : Bool)
  /-- A command sets flags or frame ids. -/
  | control (k : Control)
  deriving DecidableEq, Repr

def Channel.nextInfo (c : Channel) (streamId frameIdx : UInt32) (streamType : StreamType) :
    BufInfo :=
  ⟨streamId, frameIdx, ⟨c.delivered, streamType⟩⟩

def Channel.receiving (c : Channel) : Channel := { c with delivered := c.delivered + 1 }

def Op.exec (c : Channel) : Op → Channel
  | .deliver streamId frameIdx streamType env memory =>
    (c.receiving.superbufCompAndEnqueue (c.nextInfo streamId frameIdx streamType) env memory).2
  | .bufdoneOverflow => c.superbufBufdoneOverflow
  | .skip => c.superbufSkip
  | .flush camType => c.superbufFlush camType
  | .flushMatched => c.superbufFlushMatched
  | .dispatch sent => c.dispatch sent
  | .control k => { c with control := k }

/-- The thread goes on if it is not in a loop that does not end. -/
def Op.Enabled (c : Channel) (_ : Op) : Prop := c.spins = false

instance (c : Channel) (op : Op) : Decidable (op.Enabled c) :=
  inferInstanceAs (Decidable (_ = _))

/-- The runs of a channel with some bundled streams. -/
def superbufSystem (bundledStreams : List UInt32) (attr : Attr) : System Channel Op :=
  .ofFunction (· = { bundledStreams := bundledStreams, attr := attr })
    (fun c op => op.Enabled c) Op.exec

end EtherDevice.MmChannel
