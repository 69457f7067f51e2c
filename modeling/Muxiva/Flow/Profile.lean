import Mathlib.Algebra.GroupWithZero.Nat
import Mathlib.Data.Nat.Notation

/-! The declared behaviour of a realtime input. Durations are numbers of nanoseconds. -/
set_option linter.all false
namespace Muxiva.Flow

/-- `Duration::MAX`: every second a `u64` counts, and all its nanoseconds. -/
def durationMax : ℕ := (2 ^ 64 - 1) * 10 ^ 9 + 999999999

def fromSecs (n : ℕ) : ℕ := n * 10 ^ 9

def fromMillis (n : ℕ) : ℕ := n * 10 ^ 6

/-- `Duration::saturating_mul`. -/
def saturatingMul (d : ℕ) (n : ℕ) : ℕ := min (d * n) durationMax

inductive DeliveryGuarantee where
  | lossless
  | bestEffort
  deriving DecidableEq, Repr

inductive DeliveryOrdering where
  | strict
  | relaxed
  deriving DecidableEq, Repr

inductive AudioOverflowPolicy where
  | propagateBackpressure
  | dropOldest
  | dropNewest
  | dropSilenceFirst
  | abortSession
  deriving DecidableEq, Repr

def AudioOverflowPolicy.dropsFrames : AudioOverflowPolicy → Bool
  | .dropOldest | .dropNewest | .dropSilenceFirst => true
  | .propagateBackpressure | .abortSession => false

structure AudioDurationRange where
  min : ℕ
  max : ℕ
  deriving DecidableEq, Repr

structure RealtimeContract where
  latencyBudget : ℕ
  deliveryGuarantee : DeliveryGuarantee
  permitsAudio : Bool
  acceptedAudioDuration : Option AudioDurationRange
  ordering : DeliveryOrdering
  upstreamCanPause : Bool
  permitsTrustedVadSilenceDrop : Bool
  deriving DecidableEq, Repr

structure RuntimeInputTuning where
  maxFrames : ℕ
  maxBytes : ℕ
  maxBufferedMediaDuration : ℕ
  targetMergeDuration : Option ℕ
  maxMergeDuration : Option ℕ
  maxInFlight : ℕ
  deadline : ℕ
  overflowPolicy : AudioOverflowPolicy
  deriving DecidableEq, Repr

structure RealtimeInputProfile where
  contract : RealtimeContract
  tuning : RuntimeInputTuning
  deriving DecidableEq, Repr

inductive RealtimeProfileError where
  | zeroLatencyBudget
  | latencyBudgetUnbounded
  | audioRangeRequired
  | audioRangeForbidden
  | invalidAudioRange
  | zeroCapacity
  | capacityUnbounded
  | zeroMediaDurationLimit
  | mediaDurationLimitUnbounded
  | mergeDurationRequired
  | mergeDurationForbidden
  | invalidMergeDuration
  | zeroDeadline
  | deadlineUnbounded
  | deadlineExceedsLatencyBudget
  | losslessDrop
  | strictOrderingDrop
  | silenceDropNotPermitted
  | unpausableBackpressureOnly
  deriving DecidableEq, Repr

namespace RealtimeInputProfile

def maxRealtimeDuration : ℕ := fromSecs (60 * 60)
def maxFramesLimit : ℕ := 1000000
def maxBytesLimit : ℕ := 2 ^ 40

def validateAudioRange (contract : RealtimeContract) : Except RealtimeProfileError Unit :=
  match contract.permitsAudio, contract.acceptedAudioDuration with
  | true, none => throw .audioRangeRequired
  | false, some _ => throw .audioRangeForbidden
  | true, some range =>
    if range.min = 0 ∨ range.max = 0 ∨ range.min > range.max then throw .invalidAudioRange
    else pure ()
  | false, none => pure ()

/-- The merge durations; an audio contract without a range has been refused before. -/
def validateMerge (contract : RealtimeContract) (tuning : RuntimeInputTuning) :
    Except RealtimeProfileError Unit :=
  match contract.permitsAudio, tuning.targetMergeDuration, tuning.maxMergeDuration with
  | true, some target, some maximum =>
    match contract.acceptedAudioDuration with
    | none => throw .audioRangeRequired
    | some range =>
      if target = 0 ∨ maximum = 0 ∨ target > maximum ∨ target < range.min ∨
          maximum > range.max ∨ maximum > tuning.maxBufferedMediaDuration then
        throw .invalidMergeDuration
      else pure ()
  | true, _, _ => throw .mergeDurationRequired
  | false, none, none => pure ()
  | false, _, _ => throw .mergeDurationForbidden

def validate (p : RealtimeInputProfile) : Except RealtimeProfileError Unit := do
  let contract := p.contract
  let tuning := p.tuning
  if contract.latencyBudget = 0 then throw .zeroLatencyBudget
  if contract.latencyBudget > maxRealtimeDuration then throw .latencyBudgetUnbounded
  validateAudioRange contract
  if tuning.maxFrames = 0 ∨ tuning.maxBytes = 0 ∨ tuning.maxInFlight = 0 then throw .zeroCapacity
  if tuning.maxFrames > maxFramesLimit ∨ tuning.maxBytes > maxBytesLimit ∨
      tuning.maxInFlight > tuning.maxFrames then throw .capacityUnbounded
  if tuning.maxBufferedMediaDuration = 0 then throw .zeroMediaDurationLimit
  if tuning.maxBufferedMediaDuration > maxRealtimeDuration then throw .mediaDurationLimitUnbounded
  validateMerge contract tuning
  if tuning.deadline = 0 then throw .zeroDeadline
  if tuning.deadline > maxRealtimeDuration then throw .deadlineUnbounded
  if tuning.deadline > contract.latencyBudget then throw .deadlineExceedsLatencyBudget
  if contract.deliveryGuarantee = .lossless ∧ tuning.overflowPolicy.dropsFrames then
    throw .losslessDrop
  if contract.ordering = .strict ∧ tuning.overflowPolicy.dropsFrames then
    throw .strictOrderingDrop
  if tuning.overflowPolicy = .dropSilenceFirst ∧ (contract.deliveryGuarantee ≠ .bestEffort ∨
      ¬ contract.permitsAudio ∨ ¬ contract.permitsTrustedVadSilenceDrop) then
    throw .silenceDropNotPermitted
  if ¬ contract.upstreamCanPause ∧ tuning.overflowPolicy = .propagateBackpressure then
    throw .unpausableBackpressureOnly

/-- `RealtimeInputProfile::default`. -/
def default : RealtimeInputProfile where
  contract :=
    { latencyBudget := fromMillis 250, deliveryGuarantee := .lossless, permitsAudio := false,
      acceptedAudioDuration := none, ordering := .strict, upstreamCanPause := true,
      permitsTrustedVadSilenceDrop := false }
  tuning :=
    { maxFrames := 8, maxBytes := 1024 * 1024, maxBufferedMediaDuration := fromMillis 250,
      targetMergeDuration := none, maxMergeDuration := none, maxInFlight := 1,
      deadline := fromMillis 250, overflowPolicy := .propagateBackpressure }

example : default.validate.isOk := by decide

end RealtimeInputProfile
end Muxiva.Flow
