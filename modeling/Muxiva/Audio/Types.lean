import Mathlib.Algebra.Group.Int.Defs
import Mathlib.Algebra.GroupWithZero.Nat
import Mathlib.Data.Finset.Insert
import Muxiva.Graph.Types
import Muxiva.Lib.Fallible

/-! Audio frames: PCM data whose length agrees with its shape, headers that do not name themselves
as a parent, and the checked arithmetic both sides of the merge use. Metadata and extensions are
copied and never looked at. -/
set_option linter.all false
namespace Muxiva.Audio

/-- What a call that does not succeed ends in: an error value, or a panic of the allocator. -/
inductive Failure where
  | error (e : MuxivaError)
  | capacityOverflow
  deriving DecidableEq, Repr

abbrev Result (α : Type) := Except Failure α

def failWith (code message : String) : Failure := .error ⟨.validation, code, message⟩

def arithmeticError : Failure :=
  failWith "MUXIVA-FRM-ARITHMETIC" "frame size arithmetic overflowed"

/-- The `?` operator; what follows may use where the value comes from. -/
def Result.attachBind {α β : Type} :
    (x : Result α) → ((a : α) → x = .ok a → Result β) → Result β
  | .error e, _ => .error e
  | .ok a, f => f a rfl

theorem Result.attachBind_ok {α β : Type} {x : Result α} {a : α} (h : x = .ok a)
    (f : (a : α) → x = .ok a → Result β) : x.attachBind f = f a h := by
  subst h
  rfl

theorem Result.attachBind_error {α β : Type} {x : Result α} {e : Failure} (h : x = .error e)
    (f : (a : α) → x = .ok a → Result β) : x.attachBind f = .error e := by
  subst h
  rfl

theorem Result.attachBind_eq_ok {α β : Type} {x : Result α}
    {f : (a : α) → x = .ok a → Result β} {b : β} :
    x.attachBind f = .ok b ↔ ∃ a h, f a h = .ok b := by
  cases x with
  | error e =>
    constructor
    · exact nofun
    · rintro ⟨a, h, -⟩
      cases h
  | ok a =>
    constructor
    · exact fun h => ⟨a, rfl, h⟩
    · rintro ⟨c, hc, h⟩
      cases hc
      exact h

/-- `Option::ok_or_else`. -/
def orElse {α : Type} (e : Failure) : Option α → Result α
  | some a => .ok a
  | none => .error e

@[simp]
theorem orElse_some {α : Type} (e : Failure) (a : α) : orElse e (some a) = .ok a := rfl

@[simp]
theorem orElse_none {α : Type} (e : Failure) : orElse e (none : Option α) = .error e := rfl

@[simp]
theorem orElse_eq_ok {α : Type} {e : Failure} {o : Option α} {a : α} :
    orElse e o = .ok a ↔ o = some a := by
  cases o with
  | none => simp
  | some b => simp

/-- `u64::checked_add`, and `usize::checked_add`. -/
def checkedAdd (a b : ℕ) : Option ℕ := if a + b < 2 ^ 64 then some (a + b) else none

theorem checkedAdd_some {a b : ℕ} (h : a + b < 2 ^ 64) : checkedAdd a b = some (a + b) := if_pos h

theorem checkedAdd_none {a b : ℕ} (h : ¬ a + b < 2 ^ 64) : checkedAdd a b = none := if_neg h

theorem checkedAdd_eq_some {a b c : ℕ} :
    checkedAdd a b = some c ↔ a + b < 2 ^ 64 ∧ c = a + b := by
  by_cases h : a + b < 2 ^ 64
  · rw [checkedAdd_some h, Option.some.injEq]
    exact ⟨fun hc => ⟨h, hc.symm⟩, fun hc => hc.2.symm⟩
  · rw [checkedAdd_none h]
    exact ⟨nofun, fun hc => absurd hc.1 h⟩

def checkedMul (a b : ℕ) : Option ℕ := if a * b < 2 ^ 64 then some (a * b) else none

theorem checkedMul_some {a b : ℕ} (h : a * b < 2 ^ 64) : checkedMul a b = some (a * b) := if_pos h

theorem checkedMul_none {a b : ℕ} (h : ¬ a * b < 2 ^ 64) : checkedMul a b = none := if_neg h

/-- `i64::try_from` of a `u64`. -/
def toI64 (n : ℕ) : Option ℤ := if n < 2 ^ 63 then some n else none

theorem toI64_some {n : ℕ} (h : n < 2 ^ 63) : toI64 n = some (n : ℤ) := if_pos h

theorem toI64_none {n : ℕ} (h : ¬ n < 2 ^ 63) : toI64 n = none := if_neg h

/-- `duration_ns_for_samples`; the two crates have a copy each, which differ in their error. -/
def durationNsForSamples (e : Failure) (samples rate : ℕ) : Result ℕ :=
  let wholeSeconds := samples / rate
  let remainingSamples := samples % rate
  orElse e <| (checkedMul wholeSeconds 1000000000).bind fun whole =>
    (checkedMul remainingSamples 1000000000).bind fun fraction =>
      checkedAdd whole (fraction / rate)

/-- An `i64` of nanoseconds. -/
@[ext]
structure Timestamp where
  nanos : ℤ
  inRange : -2 ^ 63 ≤ nanos ∧ nanos < 2 ^ 63
  deriving DecidableEq

def Timestamp.zero : Timestamp := ⟨0, by decide⟩

def Timestamp.checkedAdd (t : Timestamp) (nanos : ℤ) : Option Timestamp :=
  if h : -2 ^ 63 ≤ t.nanos + nanos ∧ t.nanos + nanos < 2 ^ 63 then some ⟨t.nanos + nanos, h⟩
  else none

/-- A `u64` counter. -/
@[ext]
structure SequenceId where
  value : ℕ
  inRange : value < 2 ^ 64
  deriving DecidableEq

def SequenceId.zero : SequenceId := ⟨0, by decide⟩

def SequenceId.checkedNext (s : SequenceId) : Option SequenceId :=
  if h : s.value + 1 < 2 ^ 64 then some ⟨s.value + 1, h⟩ else none

inductive ClockKind where
  | monotonic
  | mediaRelative
  | wallClock
  deriving DecidableEq, Repr

structure ClockDomain where
  id : ℕ
  kind : ClockKind
  deriving DecidableEq, Repr

structure MediaTimeRange where
  start : Timestamp
  stop : Timestamp
  clockDomain : ClockDomain
  nonempty : start.nanos < stop.nanos
  deriving DecidableEq

def MediaTimeRange.new (start stop : Timestamp) (clockDomain : ClockDomain) :
    Result MediaTimeRange :=
  if h : stop.nanos ≤ start.nanos then
    .error (failWith "MUXIVA-FRM-LINEAGE-TIME-RANGE" "a media time range must end after it starts")
  else .ok ⟨start, stop, clockDomain, not_le.mp h⟩

structure TransformOrigin where
  nodeId : Option NodeId
  edgeId : Option EdgeId
  attributed : nodeId.isSome ∨ edgeId.isSome
  deriving DecidableEq

structure LineageEntry where
  parentFrameId : FrameId
  origin : TransformOrigin
  reason : String
  mediaTimeRange : Option MediaTimeRange
  deriving DecidableEq

/-- `u8::is_ascii_control`; in UTF-8 no other character has such a byte. -/
def isAsciiControl (c : Char) : Bool := c.toNat < 32 || c.toNat = 127

namespace LineageEntry

def validateReason (reason : String) : Result Unit :=
  if reason.isEmpty || 256 < reason.utf8ByteSize || reason.toList.any isAsciiControl then
    .error (failWith "MUXIVA-FRM-LINEAGE-REASON"
      "lineage reason must be non-empty, at most 256 bytes, and contain no ASCII controls")
  else .ok ()

def new (parentFrameId : FrameId) (origin : TransformOrigin) (reason : String) :
    Result LineageEntry := do
  validateReason reason
  return { parentFrameId, origin, reason, mediaTimeRange := none }

def withMediaTimeRange (parentFrameId : FrameId) (origin : TransformOrigin) (reason : String)
    (mediaTimeRange : MediaTimeRange) : Result LineageEntry := do
  let entry ← new parentFrameId origin reason
  return { entry with mediaTimeRange := some mediaTimeRange }

end LineageEntry

inductive PcmSampleFormat where
  | u8
  | i16Le
  | i24Le
  | i32Le
  | f32Le
  | f64Le
  deriving DecidableEq, Repr

def PcmSampleFormat.bytesPerSample : PcmSampleFormat → ℕ
  | .u8 => 1
  | .i16Le => 2
  | .i24Le => 3
  | .i32Le | .f32Le => 4
  | .f64Le => 8

theorem PcmSampleFormat.bytesPerSample_pos (format : PcmSampleFormat) :
    0 < format.bytesPerSample := by
  cases format <;> decide

inductive AudioLayout where
  | interleaved
  | planar
  deriving DecidableEq, Repr

/-- PCM audio; the rules of `AudioData::new` are fields. -/
structure AudioData where
  buffer : List UInt8
  sampleRateHz : ℕ
  channels : ℕ
  sampleFormat : PcmSampleFormat
  layout : AudioLayout
  samplesPerChannel : ℕ
  durationNs : ℕ
  rate : 1 ≤ sampleRateHz ∧ sampleRateHz ≤ 768000
  channelCount : 1 ≤ channels ∧ channels ≤ 1024
  nonempty : samplesPerChannel ≠ 0
  length : buffer.length = samplesPerChannel * channels * sampleFormat.bytesPerSample
  fits : samplesPerChannel * channels * sampleFormat.bytesPerSample < 2 ^ 64
  duration : durationNsForSamples arithmeticError samplesPerChannel sampleRateHz = .ok durationNs

namespace AudioData

def checkedProduct (left right : ℕ) : Result ℕ := orElse arithmeticError (checkedMul left right)

theorem checkedProduct_eq_ok {a b n : ℕ} :
    checkedProduct a b = .ok n ↔ a * b < 2 ^ 64 ∧ n = a * b := by
  unfold checkedProduct checkedMul orElse
  split_ifs with h
  · simp only [Except.ok.injEq]
    exact ⟨fun hn => ⟨h, hn.symm⟩, fun hn => hn.2.symm⟩
  · simp only [false_iff]
    exact fun hn => h hn.1

/-- The checked product of three factors. -/
def expectedBytes (samplesPerChannel channels bytesPerSample : ℕ) : Result ℕ :=
  checkedProduct samplesPerChannel channels >>= (checkedProduct · bytesPerSample)

theorem of_expectedBytes {a b c n : ℕ} (h : expectedBytes a b c = .ok n) :
    n = a * b * c ∧ a * b * c < 2 ^ 64 := by
  unfold expectedBytes at h
  cases hp : checkedProduct a b with
  | error e => simp [hp, Bind.bind, Except.bind] at h
  | ok m =>
    rw [hp] at h
    obtain ⟨-, rfl⟩ := checkedProduct_eq_ok.mp hp
    obtain ⟨hlt, rfl⟩ := checkedProduct_eq_ok.mp h
    exact ⟨rfl, hlt⟩

theorem samples_lt {samples channels : ℕ} (format : PcmSampleFormat)
    (h : samples * channels * format.bytesPerSample < 2 ^ 64) : samples * channels < 2 ^ 64 :=
  (Nat.le_mul_of_pos_right _ format.bytesPerSample_pos).trans_lt h

theorem expectedBytes_eq {samples channels : ℕ} (format : PcmSampleFormat)
    (h : samples * channels * format.bytesPerSample < 2 ^ 64) :
    expectedBytes samples channels format.bytesPerSample =
      .ok (samples * channels * format.bytesPerSample) := by
  have hproduct := checkedProduct_eq_ok.mpr ⟨samples_lt format h, rfl⟩
  have hbytes := checkedProduct_eq_ok.mpr ⟨h, rfl⟩
  unfold expectedBytes
  rw [hproduct]
  exact hbytes

/-- `AudioData::new`. The error about the length also carries both lengths as context. -/
def new (buffer : List UInt8) (sampleRateHz channels : ℕ) (sampleFormat : PcmSampleFormat)
    (layout : AudioLayout) (samplesPerChannel : ℕ) : Result AudioData :=
  if hrate : ¬ (1 ≤ sampleRateHz ∧ sampleRateHz ≤ 768000) then
    .error (failWith "MUXIVA-FRM-AUDIO-RATE" "audio sample rate must be between 1 and 768000 Hz")
  else if hchannels : ¬ (1 ≤ channels ∧ channels ≤ 1024) then
    .error (failWith "MUXIVA-FRM-AUDIO-CHANNELS"
      "audio channel count must be between 1 and 1024")
  else if hsamples : samplesPerChannel = 0 then
    .error (failWith "MUXIVA-FRM-AUDIO-SAMPLES"
      "audio must contain at least one sample per channel")
  else
    (expectedBytes samplesPerChannel channels sampleFormat.bytesPerSample).attachBind
      fun bytes hbytes =>
    (durationNsForSamples arithmeticError samplesPerChannel sampleRateHz).attachBind
      fun durationNs hduration =>
    if hlength : buffer.length ≠ bytes then
      .error (failWith "MUXIVA-FRM-AUDIO-LENGTH"
        "audio payload length does not match its declared layout")
    else .ok
      { buffer, sampleRateHz, channels, sampleFormat, layout, samplesPerChannel, durationNs
        rate := not_not.mp hrate
        channelCount := not_not.mp hchannels
        nonempty := hsamples
        length := (not_not.mp hlength).trans (of_expectedBytes hbytes).1
        fits := (of_expectedBytes hbytes).2
        duration := hduration }

/-- `plane_bytes`. -/
def planeBytes (d : AudioData) (plane : ℕ) : Result (List UInt8) :=
  let invalidPlane := failWith "MUXIVA-FRM-AUDIO-PLANE" "audio plane index is not part of the layout"
  match d.layout with
  | .interleaved => if plane = 0 then .ok d.buffer else .error invalidPlane
  | .planar =>
    if d.channels ≤ plane then .error invalidPlane
    else do
      let planeBytes ← checkedProduct d.samplesPerChannel d.sampleFormat.bytesPerSample
      let start ← checkedProduct plane planeBytes
      let stop ← orElse arithmeticError (checkedAdd start planeBytes)
      orElse arithmeticError
        (if stop ≤ d.buffer.length then some ((d.buffer.drop start).take (stop - start)) else none)

end AudioData

/-- A header; `M` and `E` are its metadata and its extensions. -/
structure FrameHeader (M E : Type) where
  frameId : FrameId
  timestamp : Timestamp
  clockDomain : ClockDomain
  sequenceId : SequenceId
  streamId : ℕ
  traceId : ℕ
  frameType : FrameType
  metadata : M
  extensions : E
  lineage : List LineageEntry
  acyclic : ¬ lineage.any (·.parentFrameId = frameId) = true

variable {M E : Type}

def FrameHeader.new (frameId : FrameId) (timestamp : Timestamp) (clockDomain : ClockDomain)
    (sequenceId : SequenceId) (streamId traceId : ℕ) (frameType : FrameType) (metadata : M)
    (extensions : E) (lineage : List LineageEntry) : Result (FrameHeader M E) :=
  if h : lineage.any (·.parentFrameId = frameId) then
    .error (failWith "MUXIVA-FRM-LINEAGE-CYCLE" "a frame cannot name itself as a lineage parent")
  else .ok
    { frameId, timestamp, clockDomain, sequenceId, streamId, traceId, frameType, metadata, extensions
      lineage, acyclic := h }

structure AudioFrame (M E : Type) where
  header : FrameHeader M E
  data : AudioData

/-- The five other kinds of frames differ in payloads the merge never looks at. -/
inductive Frame (M E : Type) where
  | audio (frame : AudioFrame M E)
  | other (header : FrameHeader M E)

namespace Frame

def header : Frame M E → FrameHeader M E
  | .audio frame => frame.header
  | .other header => header

def asAudio : Frame M E → Option (AudioFrame M E)
  | .audio frame => some frame
  | .other _ => none

/-- `Frame::new` with an audio payload. The error also carries both types as context. -/
def new (header : FrameHeader M E) (payload : AudioData) : Result (Frame M E) :=
  if header.frameType ≠ .audio then
    .error (failWith "MUXIVA-FRM-TYPE-MISMATCH" "frame header, payload, or expected type differs")
  else .ok (.audio ⟨header, payload⟩)

end Frame
end Muxiva.Audio
