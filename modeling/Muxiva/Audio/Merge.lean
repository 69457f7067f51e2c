import Muxiva.Audio.Types

/-! The two sides of audio coalescing: `Frame::merge_audio`, which checks and joins its parents, and
`merge_audio_prefix`, which looks for a prefix of the queue that is worth joining. -/
set_option linter.all false
namespace Muxiva.Audio

variable {M E : Type}

def audioMergeTypeError : Failure :=
  failWith "MUXIVA-FRM-AUDIO-MERGE-TYPE" "only audio frames can be merged"

def audioMergeCompatibilityError (message : String) : Failure :=
  failWith "MUXIVA-FRM-AUDIO-MERGE-COMPATIBILITY" message

def mergeArithmeticError : Failure :=
  failWith "MUXIVA-RT-AUDIO-MERGE-ARITHMETIC" "audio merge arithmetic overflowed"

def maxMergeParents : ℕ := 1024
def maxMergeLineage : ℕ := 4096
def mergeReason : String := "runtime_audio_merge"

/-- The timestamp `offset` nanoseconds after `start`; the offset has to fit an `i64` first. -/
def offsetTimestamp (e : Failure) (start : Timestamp) (offset : ℕ) : Result Timestamp := do
  let nanos ← orElse e (toI64 offset)
  orElse e (start.checkedAdd nanos)

namespace Frame

def audioBytes (parent : Frame M E) : Result (List UInt8) := do
  let audio ← orElse audioMergeTypeError parent.asAudio
  return audio.data.buffer

/-- `merge_audio_payload`. `Vec::with_capacity` panics above `isize::MAX` bytes. -/
def mergeAudioPayload (parents : List (Frame M E)) (layout : AudioLayout) :
    Result (List UInt8) := do
  let totalBytes ← parents.foldlM (fun sum parent => do
    let bytes ← parent.audioBytes
    orElse arithmeticError (checkedAdd sum bytes.length)) 0
  if 2 ^ 63 ≤ totalBytes then throw .capacityOverflow
  match layout with
  | .interleaved =>
    parents.foldlM (fun output parent => return output ++ (← parent.audioBytes)) []
  | .planar =>
    -- the parents have been validated
    let channels := (parents.head?.bind asAudio).elim 0 (·.data.channels)
    (List.range channels).foldlM (fun output channel =>
      parents.foldlM (fun output parent => do
        let audio ← orElse audioMergeTypeError parent.asAudio
        return output ++ (← audio.data.planeBytes channel)) output) []

/-- Locals of the loop over the parents. -/
structure MergeState where
  expectedSequence : SequenceId
  samplesPerChannel : ℕ
  lineageEntries : List LineageEntry
  seenIds : Finset FrameId

/-- Shares routing, clock and PCM shape with the first parent. -/
def sharesShape (first audio : AudioFrame M E) : Bool :=
  audio.header.streamId = first.header.streamId && audio.header.traceId = first.header.traceId &&
    audio.header.clockDomain = first.header.clockDomain &&
    audio.data.sampleRateHz = first.data.sampleRateHz &&
    audio.data.channels = first.data.channels &&
    audio.data.sampleFormat = first.data.sampleFormat && audio.data.layout = first.data.layout

/-- One round of the loop over the parents. -/
def mergeParent (first : AudioFrame M E) (origin : TransformOrigin) (st : MergeState)
    (parent : Frame M E) : Result MergeState := do
  let audio ← orElse audioMergeTypeError parent.asAudio
  let header := audio.header
  let startOffset ←
    durationNsForSamples arithmeticError st.samplesPerChannel first.data.sampleRateHz
  let expectedTimestamp ← offsetTimestamp arithmeticError first.header.timestamp startOffset
  if header.frameId ∈ st.seenIds then
    throw (audioMergeCompatibilityError "parent IDs must be unique")
  if ¬ (sharesShape first audio && header.timestamp = expectedTimestamp &&
      header.sequenceId = st.expectedSequence) then
    throw (audioMergeCompatibilityError
      "audio parents must be consecutive and share routing, clock, and PCM shape")
  let nextSamples ←
    orElse arithmeticError (checkedAdd st.samplesPerChannel audio.data.samplesPerChannel)
  let endOffset ← durationNsForSamples arithmeticError nextSamples first.data.sampleRateHz
  let stop ← offsetTimestamp arithmeticError first.header.timestamp endOffset
  let nextLineageLen ← orElse arithmeticError <|
    (checkedAdd st.lineageEntries.length header.lineage.length).bind (checkedAdd · 1)
  if maxMergeLineage < nextLineageLen then
    throw (failWith "MUXIVA-FRM-AUDIO-MERGE-LINEAGE"
      "merged audio lineage cannot exceed 4096 entries")
  let range ← MediaTimeRange.new expectedTimestamp stop header.clockDomain
  let entry ← LineageEntry.withMediaTimeRange header.frameId origin mergeReason range
  let expectedSequence ← orElse arithmeticError st.expectedSequence.checkedNext
  return {
    expectedSequence
    samplesPerChannel := nextSamples
    lineageEntries := st.lineageEntries ++ header.lineage ++ [entry]
    seenIds := insert header.frameId st.seenIds }

def mergeAudio (parents : List (Frame M E)) (newFrameId : FrameId) (origin : TransformOrigin) :
    Result (Frame M E) := do
  if ¬ (2 ≤ parents.length ∧ parents.length ≤ maxMergeParents) then
    throw (failWith "MUXIVA-FRM-AUDIO-MERGE-PARENTS"
      "audio merge requires between 2 and 1024 parent frames")
  let first ← orElse audioMergeTypeError (parents.head?.bind asAudio)
  if parents.any (·.header.frameId = newFrameId) then
    throw (failWith "MUXIVA-FRM-AUDIO-MERGE-ID"
      "a merged frame must use an ID distinct from every parent")
  let merged ← parents.foldlM (mergeParent first origin) ⟨first.header.sequenceId, 0, [], ∅⟩
  let payload ← mergeAudioPayload parents first.data.layout
  let mergedAudio ← AudioData.new payload first.data.sampleRateHz first.data.channels
    first.data.sampleFormat first.data.layout merged.samplesPerChannel
  let header ← FrameHeader.new newFrameId first.header.timestamp first.header.clockDomain
    first.header.sequenceId first.header.streamId first.header.traceId .audio
    first.header.metadata first.header.extensions merged.lineageEntries
  Frame.new header mergedAudio

end Frame

/-- `compatible_with_previous`, for two audio frames. -/
def compatibleWithPrevious (previous next : AudioFrame M E) (expectedTimestamp : Timestamp) : Bool :=
  previous.header.streamId = next.header.streamId &&
    previous.header.traceId = next.header.traceId &&
    previous.header.clockDomain = next.header.clockDomain &&
    previous.header.sequenceId.checkedNext = some next.header.sequenceId &&
    next.header.timestamp = expectedTimestamp &&
    previous.data.sampleRateHz = next.data.sampleRateHz &&
    previous.data.channels = next.data.channels &&
    previous.data.sampleFormat = next.data.sampleFormat &&
    previous.data.layout = next.data.layout

def sampleBoundaryTimestamp (start : Timestamp) (samples rate : ℕ) : Result Timestamp := do
  let offset ← durationNsForSamples mergeArithmeticError samples rate
  offsetTimestamp mergeArithmeticError start offset

/-- The scan of `merge_audio_prefix` over the frames that are left, after `previous`, the last of the
`sourceCount` frames taken so far. -/
def scanPrefix (first : AudioFrame M E) (target maximum : ℕ) (previous : Option (AudioFrame M E))
    (sourceCount samplesPerChannel : ℕ) : List (Frame M E) → Result (ℕ × ℕ)
  | [] => .ok (sourceCount, samplesPerChannel)
  | .other _ :: _ => .ok (sourceCount, samplesPerChannel)
  | .audio audio :: rest => do
    let expectedTimestamp ←
      sampleBoundaryTimestamp first.header.timestamp samplesPerChannel first.data.sampleRateHz
    if previous.any fun p => !compatibleWithPrevious p audio expectedTimestamp then
      return (sourceCount, samplesPerChannel)
    let nextSamples ←
      orElse mergeArithmeticError (checkedAdd samplesPerChannel audio.data.samplesPerChannel)
    let nextDuration ←
      durationNsForSamples mergeArithmeticError nextSamples first.data.sampleRateHz
    if maximum < nextDuration then return (sourceCount, samplesPerChannel)
    if target ≤ nextDuration then return (sourceCount + 1, nextSamples)
    scanPrefix first target maximum (some audio) (sourceCount + 1) nextSamples rest

/-- The number of frames `merge_audio_prefix` decides to merge. -/
def selectPrefix (frames : List (Frame M E)) (target maximum : ℕ) : Result (Option ℕ) := do
  if target = 0 ∨ maximum = 0 ∨ maximum < target then
    throw (failWith "MUXIVA-RT-AUDIO-MERGE-DURATION"
      "audio merge target must be non-zero and no greater than its maximum")
  match frames.head?.bind Frame.asAudio with
  | none => return none
  | some first =>
    let (sourceCount, samplesPerChannel) ←
      scanPrefix first target maximum none 0 0 (frames.take maxMergeParents)
    let duration ←
      durationNsForSamples mergeArithmeticError samplesPerChannel first.data.sampleRateHz
    if sourceCount < 2 ∨ duration < target then return none
    return some sourceCount

structure MergedAudioFrame (M E : Type) where
  frame : Frame M E
  sourceCount : ℕ

/-- `newFrameId` is what the id source returns. -/
def mergeAudioPrefix (frames : List (Frame M E)) (target maximum : ℕ) (newFrameId : FrameId)
    (origin : TransformOrigin) : Result (Option (MergedAudioFrame M E)) := do
  match ← selectPrefix frames target maximum with
  | none => return none
  | some sourceCount =>
    let frame ← Frame.mergeAudio (frames.take sourceCount) newFrameId origin
    return some { frame, sourceCount }

end Muxiva.Audio
