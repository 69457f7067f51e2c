import Mathlib.Data.Finset.Card
import Mathlib.Data.Rat.Defs
import Muxiva.Flow.Profile
import Muxiva.Lib.System

/-! `AdaptiveFlowController`. The controller is generic in its floating-point numbers: what is
proved about its counters and its modes holds whatever the rates and predictions come out as. -/
set_option linter.all false
namespace Muxiva.Flow

/-- The operations on `f64` the controller uses. -/
class Float64 (F : Type) where
  /-- A literal of the source. -/
  lit : ℚ → F
  /-- `value as f64` of an unsigned integer. -/
  ofCount : ℕ → F
  /-- `Duration::as_secs_f64`. -/
  asSecs : ℕ → F
  /-- `Duration::from_secs_f64`. -/
  fromSecs : F → ℕ
  add : F → F → F
  sub : F → F → F
  mul : F → F → F
  div : F → F → F
  min : F → F → F
  max : F → F → F
  lt : F → F → Bool
  le : F → F → Bool
  eq : F → F → Bool
  isFinite : F → Bool
  epsilon : F

open Float64

def emaAlpha : ℚ := 1 / 4
def resumeSamples : ℕ := 3
def signalHistoryLimit : ℕ := 64
def usizeMax : ℕ := 2 ^ 64 - 1
def u64Max : ℕ := 2 ^ 64 - 1
def u8Max : ℕ := 2 ^ 8 - 1

inductive FlowState where
  | normal
  | pressure
  | critical
  deriving DecidableEq, Repr

structure FrameMeasurement where
  bytes : ℕ
  mediaDuration : ℕ
  deriving DecidableEq, Repr

inductive FlowAction where
  | keepNormalBatch
  | setBatchTarget (target : ℕ)
  | limitAdmissions (limit : ℕ)
  | resumeAdmissions
  | emitPressure
  | emitResume
  | applyOverflow (policy : AudioOverflowPolicy)
  | abortSession
  deriving DecidableEq, Repr

inductive FlowSignalObservation where
  | pressure
  | resume
  deriving DecidableEq, Repr

inductive FlowDropReason where
  | frameLimit
  | byteLimit
  | mediaDurationLimit
  | trustedVadSilence
  | pressureShedding
  | deadlineExpired
  deriving DecidableEq, Repr

inductive FlowError where
  | invalidProfile (error : RealtimeProfileError)
  | clockMovedBackwards
  | counterOverflow
  | admissionWithoutQueuedFrame
  | completionWithoutAdmission
  | dropWithoutQueuedFrame
  | losslessDropForbidden
  deriving DecidableEq, Repr

/-- `FlowWork`; `controller` is the identity of the controller that issued it. -/
structure FlowWork where
  controller : ℕ
  admissionId : ℕ
  measurement : FrameMeasurement
  startedAt : ℕ
  deriving DecidableEq, Repr

structure Prediction where
  latency : ℕ
  timeToSaturation : Option ℕ
  deriving DecidableEq, Repr

structure FlowSnapshot where
  state : FlowState
  queuedFrames : ℕ
  queuedBytes : ℕ
  queuedMediaDuration : ℕ
  inFlight : ℕ
  inputMediaDurationTotal : ℕ
  completedMediaDurationTotal : ℕ
  serviceTimeEma : ℕ
  predictedLatency : ℕ
  predictedTimeToSaturation : Option ℕ
  droppedFramesTotal : ℕ
  droppedBytesTotal : ℕ
  droppedMediaDurationTotal : ℕ
  deriving DecidableEq, Repr

structure FlowUpdate where
  snapshot : FlowSnapshot
  actions : List FlowAction
  deriving DecidableEq, Repr

variable {F : Type}

structure Rates (F : Type) where
  framesPerSec : F
  bytesPerSec : F
  mediaPerWall : F
  deriving DecidableEq

structure AdaptiveFlowController (F : Type) where
  profile : RealtimeInputProfile
  identity : ℕ
  nextAdmissionId : ℕ
  activeAdmissions : Finset ℕ
  state : FlowState
  queuedFrames : ℕ
  queuedBytes : ℕ
  queuedMedia : ℕ
  inFlight : ℕ
  inFlightBytes : ℕ
  inFlightMedia : ℕ
  inputMediaTotal : ℕ
  completedMediaTotal : ℕ
  inputRate : Rates F
  completionRate : Rates F
  lastInputAt : Option ℕ
  serviceTimeEmaSecs : F
  healthySamples : ℕ
  signals : List FlowSignalObservation
  droppedFrames : ℕ
  droppedBytes : ℕ
  droppedMedia : ℕ
  deriving DecidableEq

section Prediction
variable [Float64 F]

def ema (current sample : F) : F :=
  if eq current (lit 0) then sample
  else add (mul (lit emaAlpha) sample) (mul (sub (lit 1) (lit emaAlpha)) current)

def considerSaturation (current : Option F) (remaining netRate : F) : Option F :=
  if le netRate epsilon then current
  else
    let candidate := div remaining netRate
    some (current.elim candidate fun value => Float64.min value candidate)

def ratio (value limit : ℕ) : F := div (ofCount value) (ofCount limit)

def durationRatio (value limit : ℕ) : F := div (asSecs value) (asSecs limit)

def durationFromSecs (seconds : F) : ℕ :=
  if !isFinite seconds || le (asSecs durationMax) seconds then durationMax
  else if le seconds (lit 0) then 0
  else Float64.fromSecs seconds

namespace Rates

/-- `Rates::default`. -/
def default : Rates F where
  framesPerSec := lit 0
  bytesPerSec := lit 0
  mediaPerWall := lit 0

def observe (r : Rates F) (measurement : FrameMeasurement) (elapsed : ℕ) : Rates F :=
  let seconds : F := asSecs elapsed
  { framesPerSec := ema r.framesPerSec (div (lit 1) seconds)
    bytesPerSec := ema r.bytesPerSec (div (ofCount measurement.bytes) seconds)
    mediaPerWall := ema r.mediaPerWall (div (asSecs measurement.mediaDuration) seconds) }

end Rates
end Prediction

namespace AdaptiveFlowController
variable [Float64 F]

def new (profile : RealtimeInputProfile) (identity : ℕ) :
    Except FlowError (AdaptiveFlowController F) :=
  match profile.validate with
  | .error e => .error (.invalidProfile e)
  | .ok () => .ok
    { profile, identity
      nextAdmissionId := 0
      activeAdmissions := ∅
      state := .normal
      queuedFrames := 0
      queuedBytes := 0
      queuedMedia := 0
      inFlight := 0
      inFlightBytes := 0
      inFlightMedia := 0
      inputMediaTotal := 0
      completedMediaTotal := 0
      inputRate := .default
      completionRate := .default
      lastInputAt := none
      serviceTimeEmaSecs := lit 0
      healthySamples := 0
      signals := []
      droppedFrames := 0
      droppedBytes := 0
      droppedMedia := 0 }

def predict (c : AdaptiveFlowController F) : Prediction :=
  let tuning := c.profile.tuning
  let backlogMedia := Nat.min (c.queuedMedia + c.inFlightMedia) durationMax
  let backlogFrames := Nat.min (c.queuedFrames + c.inFlight) usizeMax
  let latencySecs : F :=
    if backlogMedia ≠ 0 ∧ lt epsilon c.completionRate.mediaPerWall then
      add (div (asSecs backlogMedia) c.completionRate.mediaPerWall) c.serviceTimeEmaSecs
    else if backlogFrames > 0 ∧ lt (lit 0) c.serviceTimeEmaSecs then
      div (mul (ofCount backlogFrames) c.serviceTimeEmaSecs) (ofCount tuning.maxInFlight)
    else lit 0
  let saturationSecs : Option F := considerSaturation none
    (ofCount (tuning.maxFrames - c.queuedFrames))
    (sub c.inputRate.framesPerSec c.completionRate.framesPerSec)
  let saturationSecs := considerSaturation saturationSecs
    (ofCount (tuning.maxBytes - c.queuedBytes))
    (sub c.inputRate.bytesPerSec c.completionRate.bytesPerSec)
  let saturationSecs := considerSaturation saturationSecs
    (asSecs (tuning.maxBufferedMediaDuration - c.queuedMedia))
    (sub c.inputRate.mediaPerWall c.completionRate.mediaPerWall)
  { latency := durationFromSecs latencySecs
    timeToSaturation := saturationSecs.map durationFromSecs }

def snapshotWithPrediction (c : AdaptiveFlowController F) (prediction : Prediction) :
    FlowSnapshot where
  state := c.state
  queuedFrames := c.queuedFrames
  queuedBytes := c.queuedBytes
  queuedMediaDuration := c.queuedMedia
  inFlight := c.inFlight
  inputMediaDurationTotal := c.inputMediaTotal
  completedMediaDurationTotal := c.completedMediaTotal
  serviceTimeEma := durationFromSecs c.serviceTimeEmaSecs
  predictedLatency := prediction.latency
  predictedTimeToSaturation := prediction.timeToSaturation
  droppedFramesTotal := c.droppedFrames
  droppedBytesTotal := c.droppedBytes
  droppedMediaDurationTotal := c.droppedMedia

/-- The mode the measurements ask for, and whether they are healthy. -/
def assess (c : AdaptiveFlowController F) (prediction : Prediction) : FlowState × Bool :=
  let tuning := c.profile.tuning
  let frameRatio : F := ratio c.queuedFrames tuning.maxFrames
  let byteRatio : F := ratio c.queuedBytes tuning.maxBytes
  let mediaRatio : F := durationRatio c.queuedMedia tuning.maxBufferedMediaDuration
  let capacityRatio := Float64.max (Float64.max frameRatio byteRatio) mediaRatio
  let latencyRatio : F := durationRatio prediction.latency c.profile.contract.latencyBudget
  let hardLimit := le (lit 1) frameRatio || le (lit 1) byteRatio || le (lit 1) mediaRatio
  let controlInterval := tuning.deadline / 2
  let saturationCritical := prediction.timeToSaturation.any (· ≤ controlInterval)
  let saturationPressure := prediction.timeToSaturation.any (· ≤ tuning.deadline)
  let desired : FlowState :=
    if hardLimit || le (lit 1) latencyRatio || saturationCritical then .critical
    else if le (lit (3 / 4)) capacityRatio || le (lit (3 / 4)) latencyRatio ||
        saturationPressure then .pressure
    else .normal
  let healthy := lt capacityRatio (lit (1 / 2)) && lt latencyRatio (lit (1 / 2)) &&
    prediction.timeToSaturation.all (saturatingMul tuning.deadline 2 < ·)
  (desired, healthy)

/-- The change of mode at one evaluation. -/
def transition (c : AdaptiveFlowController F) (desired : FlowState) (healthy : Bool) :
    AdaptiveFlowController F :=
  match c.state, desired with
  | .normal, next => { c with state := next }
  | .pressure, .critical => { c with state := .critical }
  | .pressure, .normal | .critical, .normal =>
    if healthy then
      let samples := Nat.min (c.healthySamples + 1) u8Max
      if samples ≥ resumeSamples then { c with state := .normal, healthySamples := 0 }
      else { c with healthySamples := samples }
    else { c with healthySamples := 0 }
  | .pressure, .pressure | .critical, _ => { c with healthySamples := 0 }

def recordSignal (c : AdaptiveFlowController F) (signal : FlowSignalObservation) :
    AdaptiveFlowController F :=
  if ¬ c.profile.contract.upstreamCanPause then c
  else
    let kept := if c.signals.length = signalHistoryLimit then c.signals.tail else c.signals
    { c with signals := kept ++ [signal] }

def actions (c : AdaptiveFlowController F) (emitResume emitPressure : Bool) : List FlowAction :=
  let tuning := c.profile.tuning
  match c.state with
  | .normal =>
    [.keepNormalBatch, .resumeAdmissions] ++ (if emitResume then [.emitResume] else [])
  | .pressure =>
    (tuning.maxMergeDuration.toList.map .setBatchTarget) ++
      [.limitAdmissions (Nat.max (tuning.maxInFlight / 2) 1)] ++
      (if emitPressure then [.emitPressure] else [])
  | .critical =>
    [.limitAdmissions 0] ++ (if emitPressure then [.emitPressure] else []) ++
      [match tuning.overflowPolicy with
        | .abortSession => .abortSession
        | policy => .applyOverflow policy]

def evaluate (c : AdaptiveFlowController F) : FlowUpdate × AdaptiveFlowController F :=
  let prediction := c.predict
  let (desired, healthy) := c.assess prediction
  let moved := c.transition desired healthy
  let emitResume : Bool := c.state ≠ moved.state ∧ moved.state = .normal
  let emitPressure : Bool := c.state = .normal ∧ moved.state ≠ .normal
  let told :=
    if emitResume then moved.recordSignal .resume
    else if emitPressure then moved.recordSignal .pressure
    else moved
  ({ snapshot := told.snapshotWithPrediction prediction
     actions := told.actions emitResume emitPressure }, told)

end AdaptiveFlowController

/-- A method of the controller: what it has written stays written when it fails. -/
abbrev FlowM (F : Type) := ExceptT FlowError (StateM (AdaptiveFlowController F))

namespace FlowM

def call {α : Type} (m : FlowM F α) (c : AdaptiveFlowController F) :
    Except FlowError α × AdaptiveFlowController F :=
  m.run.run c

def ofOption {α : Type} (e : FlowError) : Option α → FlowM F α
  | some a => pure a
  | none => throw e

/-- A guard that returns `e` early. -/
def failIf (p : Prop) [Decidable p] (e : FlowError) : FlowM F Unit :=
  if p then throw e else pure ()

end FlowM

def checkedAdd (limit a b : ℕ) : Option ℕ := if a + b ≤ limit then some (a + b) else none

def checkedSub (a b : ℕ) : Option ℕ := if b ≤ a then some (a - b) else none

namespace AdaptiveFlowController
variable [Float64 F]

/-- `self.evaluate()` at the end of a method. -/
def evaluateM : FlowM F FlowUpdate := do
  let (update, c) := (← get).evaluate
  set c
  return update

/-- The part of `record_enqueue` that looks at the clock: `now` is what `clock.now()` returns. -/
def observeInput (measurement : FrameMeasurement) (now : ℕ) : FlowM F Unit := do
  match (← get).lastInputAt with
  | none => pure ()
  | some previous =>
    let elapsed ← .ofOption .clockMovedBackwards (checkedSub now previous)
    modify fun c =>
      if elapsed ≠ 0 then { c with inputRate := c.inputRate.observe measurement elapsed } else c

def recordEnqueue (measurement : FrameMeasurement) (now : ℕ) : FlowM F FlowUpdate := do
  observeInput measurement now
  modify fun c => { c with lastInputAt := some now }
  let queuedFrames ← .ofOption .counterOverflow (checkedAdd usizeMax (← get).queuedFrames 1)
  modify fun c => { c with queuedFrames }
  let queuedBytes ←
    .ofOption .counterOverflow (checkedAdd usizeMax (← get).queuedBytes measurement.bytes)
  modify fun c => { c with queuedBytes }
  let queuedMedia ← .ofOption .counterOverflow
    (checkedAdd durationMax (← get).queuedMedia measurement.mediaDuration)
  modify fun c => { c with queuedMedia }
  let inputMediaTotal ← .ofOption .counterOverflow
    (checkedAdd durationMax (← get).inputMediaTotal measurement.mediaDuration)
  modify fun c => { c with inputMediaTotal }
  evaluateM

/-- Whether a frame of this measurement can be taken off the queued account. -/
def lacksQueued (c : AdaptiveFlowController F) (measurement : FrameMeasurement) : Bool :=
  c.queuedFrames = 0 || c.queuedBytes < measurement.bytes ||
    c.queuedMedia < measurement.mediaDuration

def takeQueued (measurement : FrameMeasurement) (c : AdaptiveFlowController F) :
    AdaptiveFlowController F :=
  { c with
    queuedFrames := c.queuedFrames - 1
    queuedBytes := c.queuedBytes - measurement.bytes
    queuedMedia := c.queuedMedia - measurement.mediaDuration }

def recordAdmission (measurement : FrameMeasurement) (now : ℕ) :
    FlowM F (FlowWork × FlowUpdate) := do
  .failIf ((← get).lacksQueued measurement) .admissionWithoutQueuedFrame
  let admissionId := (← get).nextAdmissionId
  let nextAdmissionId ← .ofOption .counterOverflow (checkedAdd u64Max admissionId 1)
  modify fun c => { c with nextAdmissionId }
  modify (takeQueued measurement)
  let inFlight ← .ofOption .counterOverflow (checkedAdd usizeMax (← get).inFlight 1)
  modify fun c => { c with inFlight }
  let inFlightBytes ←
    .ofOption .counterOverflow (checkedAdd usizeMax (← get).inFlightBytes measurement.bytes)
  modify fun c => { c with inFlightBytes }
  let inFlightMedia ← .ofOption .counterOverflow
    (checkedAdd durationMax (← get).inFlightMedia measurement.mediaDuration)
  modify fun c => { c with inFlightMedia }
  .failIf (admissionId ∈ (← get).activeAdmissions) .counterOverflow
  modify fun c => { c with activeAdmissions := insert admissionId c.activeAdmissions }
  let work : FlowWork :=
    { controller := (← get).identity, admissionId, measurement, startedAt := now }
  return (work, ← evaluateM)

def observeCompletion (work : FlowWork) (serviceTime : ℕ) (c : AdaptiveFlowController F) :
    AdaptiveFlowController F :=
  if serviceTime ≠ 0 then
    { c with
      completionRate := c.completionRate.observe work.measurement serviceTime
      serviceTimeEmaSecs := ema c.serviceTimeEmaSecs (asSecs serviceTime) }
  else c

def recordCompletion (work : FlowWork) (now : ℕ) : FlowM F FlowUpdate := do
  .failIf ((← get).identity ≠ work.controller) .completionWithoutAdmission
  .failIf (work.admissionId ∉ (← get).activeAdmissions) .completionWithoutAdmission
  -- `remove` has taken the id out before the accounts are looked at
  modify fun c => { c with activeAdmissions := c.activeAdmissions.erase work.admissionId }
  let c ← get
  .failIf (c.inFlight = 0 ∨ c.inFlightBytes < work.measurement.bytes ∨
    c.inFlightMedia < work.measurement.mediaDuration) .completionWithoutAdmission
  let serviceTime ← .ofOption .clockMovedBackwards (checkedSub now work.startedAt)
  modify (observeCompletion work serviceTime)
  modify fun c => { c with
    inFlight := c.inFlight - 1
    inFlightBytes := c.inFlightBytes - work.measurement.bytes
    inFlightMedia := c.inFlightMedia - work.measurement.mediaDuration }
  let completedMediaTotal ← .ofOption .counterOverflow
    (checkedAdd durationMax (← get).completedMediaTotal work.measurement.mediaDuration)
  modify fun c => { c with completedMediaTotal }
  evaluateM

/-- The reason of a drop is not looked at. -/
def recordDrop (measurement : FrameMeasurement) (_reason : FlowDropReason) :
    FlowM F FlowUpdate := do
  .failIf ((← get).profile.contract.deliveryGuarantee = .lossless) .losslessDropForbidden
  .failIf ((← get).lacksQueued measurement) .dropWithoutQueuedFrame
  modify (takeQueued measurement)
  let droppedFrames ← .ofOption .counterOverflow (checkedAdd u64Max (← get).droppedFrames 1)
  modify fun c => { c with droppedFrames }
  let droppedBytes ←
    .ofOption .counterOverflow (checkedAdd u64Max (← get).droppedBytes measurement.bytes)
  modify fun c => { c with droppedBytes }
  let droppedMedia ← .ofOption .counterOverflow
    (checkedAdd durationMax (← get).droppedMedia measurement.mediaDuration)
  modify fun c => { c with droppedMedia }
  evaluateM

/-- `sample` forgets the input rate after a silence of two deadlines. -/
def sample (now : ℕ) (c : AdaptiveFlowController F) :
    FlowUpdate × AdaptiveFlowController F :=
  let silent := c.lastInputAt.any fun lastInput =>
    saturatingMul c.profile.tuning.deadline 2 ≤ now - lastInput
  let c := if silent then { c with inputRate := .default } else c
  c.evaluate

end AdaptiveFlowController

/-- A call on the controller, with what the clock returns to it. -/
inductive Call where
  | recordEnqueue (measurement : FrameMeasurement) (now : ℕ)
  | recordAdmission (measurement : FrameMeasurement) (now : ℕ)
  | recordCompletion (work : FlowWork) (now : ℕ)
  | recordDrop (measurement : FrameMeasurement) (reason : FlowDropReason)
  | sample (now : ℕ)
  deriving DecidableEq, Repr

/-- A controller with the frames enqueued on it and the works it has handed out. -/
structure Session (F : Type) where
  controller : AdaptiveFlowController F
  enqueued : List FrameMeasurement
  admitted : List FlowWork

namespace Session
variable [Float64 F]

/-- A call that returns `Ok`. The fields of a `FlowWork` are private, so a work that names this
controller is one it has handed out; any other work may be offered. -/
def step (s : Session F) : Call → Option (Session F)
  | .recordEnqueue measurement now =>
    match (AdaptiveFlowController.recordEnqueue measurement now).call s.controller with
    | (.ok _, c) => some { s with controller := c, enqueued := s.enqueued ++ [measurement] }
    | (.error _, _) => none
  | .recordAdmission measurement now =>
    match (AdaptiveFlowController.recordAdmission measurement now).call s.controller with
    | (.ok (work, _), c) => some { s with controller := c, admitted := s.admitted ++ [work] }
    | (.error _, _) => none
  | .recordCompletion work now =>
    if work.controller = s.controller.identity ∧ work ∉ s.admitted then none
    else
      match (AdaptiveFlowController.recordCompletion work now).call s.controller with
      | (.ok _, c) => some { s with controller := c }
      | (.error _, _) => none
  | .recordDrop measurement reason =>
    match (AdaptiveFlowController.recordDrop measurement reason).call s.controller with
    | (.ok _, c) => some { s with controller := c }
    | (.error _, _) => none
  | .sample now => some { s with controller := (s.controller.sample now).2 }

end Session

/-- The runs of a fresh controller all of whose calls return `Ok`. -/
def successfulCalls (F : Type) [Float64 F] : Transition.System (Session F) Call where
  init s := (∃ profile identity,
    AdaptiveFlowController.new profile identity = .ok s.controller) ∧
    s.enqueued = [] ∧ s.admitted = []
  step := Session.step

end Muxiva.Flow
