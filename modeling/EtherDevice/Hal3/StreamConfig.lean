import Mathlib
import EtherDevice.Lib.Handles
import EtherDevice.Lib.Transition

/-!
# The channels of the configured streams

`configureStreams` stops the channels of the old streams, checks the new ones, deletes the
channels of the streams that stay or go, and creates a channel for each stream. A channel is
recorded in the stream of the framework (`priv`), in `mStreamInfo`, and for the picture and the
raw stream in a member as well.

The channels that exist are the live handles of a heap; a channel that is deleted twice is missed
there. Which sizes the sensor supports, and which memory is allocated, are answers to a call.
-/

namespace EtherDevice.Hal3.Config

open Lib

inductive StreamType
  | output | input | bidirectional | other
  deriving DecidableEq, Repr

inductive Format
  | blob | raw10 | rawOpaque | raw16 | implementationDefined | yCbCr420 | other
  deriving DecidableEq, Repr

def Format.isRaw : Format → Bool
  | .raw10 | .rawOpaque | .raw16 => true
  | _ => false

/-- `camera3_stream_t`, without `priv`. Streams with the same `id` are the same object. -/
structure Stream where
  id : Nat
  stream_type : StreamType
  format : Format
  width : Nat
  height : Nat
  /-- `PRIV_FLAGS_VIDEO_ENCODER` is set in `usage` -/
  videoEncoder : Bool := false
  deriving DecidableEq, Repr

structure StreamInfo where
  stream : Stream
  valid : Bool
  channel : Option Nat
  deriving DecidableEq, Repr

/-- The limits of the camera: `MAX_NUM_STREAMS` and `max_viewfinder_size`. -/
structure Capability where
  maxNumStreams : Nat
  maxViewfinderWidth : Int
  maxViewfinderHeight : Int

inductive Rc
  | ok | badValue | inval | noMem | initFailed
  deriving DecidableEq, Repr

/-- What a call gets from the rest of the system. The functions take the index of the stream. -/
structure Answers where
  fresh : Fresh := .next
  /-- `validateStreamDimensions` finds the size of each stream -/
  dimensions : Bool := true
  infoAlloc : Nat → Bool := fun _ => true
  metadataAlloc : Bool := true
  metadataInit : Bool := true
  analysisAlloc : Bool := true
  supportAlloc : Bool := true
  channelAlloc : Nat → Bool := fun _ => true
  enableRawDump : Bool := false
  rawDumpAlloc : Bool := true

section Checks

variable (cap : Capability) (streams : List Stream)

def int32 (n : Nat) : Int := if n < 2 ^ 31 then n else n - 2 ^ 32

namespace Stream

variable (st : Stream)

def isOutputOrBidirectional : Bool := st.stream_type == .bidirectional || st.stream_type == .output

def isInputOrBidirectional : Bool := st.stream_type == .input || st.stream_type == .bidirectional

def exceedsViewfinder : Bool :=
  decide (cap.maxViewfinderWidth < int32 st.width ∨ cap.maxViewfinderHeight < int32 st.height)

def isVideo : Bool := st.format == .implementationDefined && st.videoEncoder

def is4K : Bool := decide (3840 ≤ st.width) && decide (2160 ≤ st.height)

def exceeds4K : Bool := decide (3840 < st.width) || decide (2160 < st.height)

end Stream

def stallStreamCnt : Nat :=
  streams.countP fun st => st.isOutputOrBidirectional && st.format == .blob

def rawStreamCnt : Nat := streams.countP fun st => st.isOutputOrBidirectional && st.format.isRaw

def processedStreamCnt : Nat :=
  streams.countP fun st => st.isOutputOrBidirectional && st.format != .blob && !st.format.isRaw

def numStreamsOnEncoder : Nat :=
  streams.countP fun st =>
    st.isOutputOrBidirectional && !st.format.isRaw && st.exceedsViewfinder cap

def isZsl : Bool :=
  streams.any fun st => st.stream_type == .bidirectional && st.format == .implementationDefined

def isVideo : Bool := streams.any Stream.isVideo

def is4KVideo : Bool := streams.any fun st => st.isVideo && st.is4K

def jpegExceeds4K : Bool := streams.any fun st => st.format == .blob && st.exceeds4K

def jpegStream : Option Stream := streams.reverse.find? fun st => st.format == .blob

def isSupportChannelNeeded : Bool := streams.all fun st => st.format == .blob || st.format.isRaw

def checkNumStreams : Option Rc :=
  if streams.length < 1 ∨ cap.maxNumStreams ≤ streams.length then some .badValue else none

def checkStreams (a : Answers) : Option Rc :=
  if 1 < stallStreamCnt streams ∨ 1 < rawStreamCnt streams ∨
      3 < processedStreamCnt streams then some .inval
  else if isZsl streams && isVideo streams then some .inval
  else if 2 < numStreamsOnEncoder cap streams then some .inval
  else if is4KVideo streams && jpegExceeds4K streams then some .inval
  else if !a.dimensions then some .inval
  else none

end Checks

structure Hwi where
  /-- the channels that were created and not deleted -/
  channels : Handles := {}
  priv : Nat → Option Nat := fun _ => none
  mStreamInfo : List StreamInfo := []
  mPictureChannel : Option Nat := none
  mRawChannel : Option Nat := none
  mMetadataChannel : Option Nat := none
  mSupportChannel : Option Nat := none
  mAnalysisChannel : Option Nat := none
  mRawDumpChannel : Option Nat := none
  /-- a channel was used that is NULL or does not exist any more -/
  fault : Bool := false
  /-- the streams of the last call, where it was accepted -/
  configured : Option (List Stream) := none

namespace Hwi

variable (s : Hwi) (cap : Capability) (a : Answers)

def use (channel : Option Nat) : Hwi :=
  match channel with
  | some c => if c ∈ s.channels.live then s else { s with fault := true }
  | none => { s with fault := true }

def useIfSet (channel : Option Nat) : Hwi :=
  match channel with
  | some c => s.use (some c)
  | none => s

def delete (channel : Option Nat) : Hwi :=
  { s with channels :=
      match channel with
      | some c => s.channels.del c
      | none => s.channels }

def create : Nat × Hwi :=
  ((s.channels.add a.fresh).1, { s with channels := (s.channels.add a.fresh).2 })

/-- A stream that was not configured comes with a `priv` that is NULL. -/
def arrive (streams : List Stream) : Hwi :=
  { s with priv := fun id =>
      if streams.any (·.id == id) && !s.mStreamInfo.any (·.stream.id == id) then none
      else s.priv id }

def stopStreams : Hwi := s.mStreamInfo.foldl (fun s info => s.use (s.priv info.stream.id)) s

def invalidateStreams : Hwi :=
  { s with mStreamInfo := s.mStreamInfo.map fun info => { info with valid := false } }

def deleteRawDump : Hwi := { s.delete s.mRawDumpChannel with mRawDumpChannel := none }

def invalidate : Hwi :=
  let s := s.stopStreams.invalidateStreams
  let s := (s.useIfSet s.mRawDumpChannel).deleteRawDump
  ((s.useIfSet s.mSupportChannel).useIfSet s.mAnalysisChannel).useIfSet s.mMetadataChannel

def keepStream (st : Stream) : Hwi :=
  { s.delete (s.priv st.id) with
    priv := Function.update s.priv st.id none
    mStreamInfo := s.mStreamInfo.map fun info =>
      if info.stream.id == st.id then ⟨st, true, none⟩ else info }

def newStream (st : Stream) : Hwi :=
  { s with mStreamInfo := s.mStreamInfo ++ [⟨st, true, none⟩] }

/-- The streams are entered into `mStreamInfo`; `index` is the place of the first one, and
`hasInput` tells whether an input stream came before. -/
def enterStreams (index : Nat) (hasInput : Bool) : List Stream → Hwi → Option Rc × Hwi
  | [], s => (none, s)
  | st :: streams, s =>
    let known := s.mStreamInfo.any (·.stream.id == st.id)
    if !known && !a.infoAlloc index then (some .noMem, s)
    else
      let s := if known then s.keepStream st else s.newStream st
      if st.isInputOrBidirectional && hasInput then (some .badValue, s)
      else enterStreams (index + 1) (hasInput || st.isInputOrBidirectional) streams s

def cleanAndSortStreamInfo : Hwi :=
  let invalid := s.mStreamInfo.filter (!·.valid)
  let s := invalid.foldl (fun s info => s.delete (s.priv info.stream.id)) s
  let valid := s.mStreamInfo.filter (·.valid)
  { s with mStreamInfo :=
      valid.filter (!·.stream.format.isRaw) ++ valid.filter (·.stream.format.isRaw) }

def deleteCommonChannels : Hwi :=
  let s := { s.delete s.mMetadataChannel with mMetadataChannel := none }
  let s := { s.delete s.mSupportChannel with mSupportChannel := none }
  { s.delete s.mAnalysisChannel with mAnalysisChannel := none }

def createCommonChannels (streams : List Stream) : Option Rc × Hwi :=
  if !a.metadataAlloc then (some .noMem, s)
  else
    let (metadata, s) := s.create a
    if !a.metadataInit then (some .initFailed, s.delete metadata)
    else
      let s := { s with mMetadataChannel := some metadata }
      if !a.analysisAlloc then (some .noMem, s)
      else
        let (analysis, s) := s.create a
        let s := { s with mAnalysisChannel := some analysis }
        if isSupportChannelNeeded streams then
          if !a.supportAlloc then (some .noMem, s)
          else
            let (support, s) := s.create a
            (none, { s with mSupportChannel := some support })
        else (none, s)

inductive ChannelKind
  | regular | raw | picture
  deriving DecidableEq, Repr

def channelKind (streams : List Stream) (st : Stream) : Option ChannelKind :=
  if st.format = .implementationDefined ∧ st.stream_type = .bidirectional ∧
      (jpegStream streams).isSome then some .regular
  else if st.stream_type = .output then
    match st.format with
    | .implementationDefined | .yCbCr420 => some .regular
    | .rawOpaque | .raw16 | .raw10 => some .raw
    | .blob => some .picture
    | .other => none
  else none

def record (st : Stream) : List StreamInfo → List StreamInfo
  | [] => []
  | info :: infos =>
    if info.stream.id = st.id then { info with channel := s.priv st.id } :: infos
    else info :: record st infos

def setChannel (kind : ChannelKind) (st : Stream) (channel : Nat) : Hwi :=
  let s := { s with priv := Function.update s.priv st.id (some channel) }
  let s := { s with mStreamInfo := s.record st s.mStreamInfo }
  match kind with
  | .regular => s
  | .raw => { s with mRawChannel := some channel }
  | .picture => { s with mPictureChannel := some channel }

def allocFailed (kind : ChannelKind) : Hwi :=
  match kind with
  | .regular => s
  | .raw => { s with mRawChannel := none }
  | .picture => { s with mPictureChannel := none }

def createChannels (streams : List Stream) (index : Nat) : List Stream → Hwi → Option Rc × Hwi
  | [], s => (none, s)
  | st :: rest, s =>
    if s.priv st.id = none then
      match channelKind streams st with
      | some kind =>
        if a.channelAlloc index then
          let (channel, s) := s.create a
          createChannels streams (index + 1) rest (s.setChannel kind st channel)
        else (some .noMem, s.allocFailed kind)
      | none =>
        createChannels streams (index + 1) rest { s with mStreamInfo := s.record st s.mStreamInfo }
    else createChannels streams (index + 1) rest s

/-- `overrideYuvSize` of the picture channel, and the raw dump channel. -/
def finish (streams : List Stream) : Rc × Hwi :=
  let s := if is4KVideo streams then s.useIfSet s.mPictureChannel else s
  if a.enableRawDump && !streams.any (·.format.isRaw) then
    if a.rawDumpAlloc then
      let (channel, s) := s.create a
      (.ok, { s with mRawDumpChannel := some channel })
    else (.noMem, s)
  else (.ok, s)

def reconfigure (streams : List Stream) : Rc × Hwi :=
  match enterStreams a 0 false streams s with
  | (some rc, s) => (rc, s)
  | (none, s) =>
    match createCommonChannels s.cleanAndSortStreamInfo.deleteCommonChannels a streams with
    | (some rc, s) => (rc, s)
    | (none, s) =>
      match createChannels a streams 0 streams s with
      | (some rc, s) => (rc, s)
      | (none, s) => s.finish a streams

/-- `configureStreams`; the list is NULL, or its array is. -/
def configureStreams (streamList : Option (List Stream)) : Rc × Hwi :=
  match streamList with
  | none => (.badValue, s)
  | some streams =>
    match checkNumStreams cap streams with
    | some rc => (rc, s)
    | none =>
      let s := (s.arrive streams).invalidate
      match checkStreams cap streams a with
      | some rc => (rc, s)
      | none => s.reconfigure a streams

structure Call where
  streamList : Option (List Stream)
  answers : Answers := {}

/-- The members of the list with one `id` are one stream. -/
def Enabled (_ : Hwi) (call : Call) : Prop :=
  ∀ streams ∈ call.streamList, ∀ st ∈ streams, ∀ st' ∈ streams, st.id = st'.id → st = st'

instance (call : Call) : Decidable (Enabled s call) := by
  unfold Enabled
  infer_instance

def exec (call : Call) : Hwi :=
  let (rc, s) := s.configureStreams cap call.answers call.streamList
  { s with configured := if rc = .ok then call.streamList else none }

def system : System Hwi Call := .ofFunction (· = {}) Enabled (exec · cap)

end Hwi

end EtherDevice.Hal3.Config
