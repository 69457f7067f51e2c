import Mathlib.Algebra.Group.Int.Defs
import Mathlib.Algebra.GroupWithZero.Nat
import Mathlib.Data.Int.Notation
import Mathlib.Logic.Function.Basic
import Muxiva.Lib.System
import Muxiva.Lib.Text

/-! `AgentNodeAdapter`: requests chained on a promise tail, the driver they run on and the output
queue. A step is what runs without returning to the event loop: a call of the host, a call of the
driver, a timer, or one reaction to a settled promise. The drivers themselves, `duration_ms`, the
notifications and the ticks asked for are left out. -/
set_option linter.all false
namespace Muxiva.Agent

/-- What `String.prototype.trim` removes. -/
def isTrimmed (c : Char) : Bool :=
  let n := c.toNat
  9 ≤ n && n ≤ 13 || n = 0x20 || n = 0xA0 || n = 0x1680 || 0x2000 ≤ n && n ≤ 0x200A ||
    n = 0x2028 || n = 0x2029 || n = 0x202F || n = 0x205F || n = 0x3000 || n = 0xFEFF

def trimText (text : Text) : Text :=
  ((text.dropWhile isTrimmed).reverse.dropWhile isTrimmed).reverse

/-- A value of the configuration. -/
inductive Setting where
  | missing
  | integer (value : ℤ)
  | text (value : Text)
  | other
  deriving DecidableEq, Repr

/-- `positiveInteger`. -/
def positiveInteger (value : Setting) (fallback maximum : ℕ) : ℕ :=
  match value with
  | .integer n => if 0 < n ∧ n < 2 ^ 53 then min n.toNat maximum else fallback
  | _ => fallback

theorem positiveInteger_pos {value : Setting} {fallback maximum : ℕ} (hfallback : 0 < fallback)
    (hmaximum : 0 < maximum) : 0 < positiveInteger value fallback maximum := by
  unfold positiveInteger
  split
  · split_ifs with hn
    · omega
    · exact hfallback
  · exact hfallback

def Setting.trimmed : Setting → Text
  | .text value => trimText value
  | _ => []

/-- `left ?? right`. -/
def Setting.orElse (left right : Setting) : Setting :=
  match left with
  | .missing => right
  | _ => left

structure Settings where
  maxQueueSize : Setting
  maxResultsPerWakeup : Setting
  maxResultsPerTick : Setting
  timeoutMessage : Setting
  failureMessage : Setting

structure Config where
  maxQueueSize : ℕ
  maxResultsPerWakeup : ℕ
  timeoutMessage : Text
  failureMessage : Text
  queue_pos : 0 < maxQueueSize

def Settings.config (s : Settings) : Config where
  maxQueueSize := positiveInteger s.maxQueueSize 2048 65536
  maxResultsPerWakeup := positiveInteger (s.maxResultsPerWakeup.orElse s.maxResultsPerTick) 64 1024
  timeoutMessage := s.timeoutMessage.trimmed
  failureMessage := s.failureMessage.trimmed
  queue_pos := positiveInteger_pos (by decide) (by decide)

inductive Stage where
  | firstOutput
  | request
  deriving DecidableEq, Repr

def Stage.name : Stage → Text
  | .firstOutput => "first_output".toList
  | .request => "request".toList

def Stage.code : Stage → Text
  | .firstOutput => "MUXIVA_AGENT_FIRST_OUTPUT_TIMEOUT".toList
  | .request => "MUXIVA_AGENT_REQUEST_TIMEOUT".toList

/-- What a run or a watchdog rejects with. -/
structure AgentError where
  message : Text
  code : Option Text
  reason : Option Text
  userMessage : Option Text
  stage : Text
  recoverDriver : Bool
  deriving DecidableEq, Repr

def timeoutError (stage : Stage) (timeoutMs : ℕ) : AgentError where
  message := "Agent ".toList ++ stage.name ++ " timed out after ".toList ++
    (toString timeoutMs).toList ++ " ms".toList
  code := some stage.code
  reason := none
  userMessage := none
  stage := stage.name
  recoverDriver := true

namespace AgentError

def timedOut (error : AgentError) : Bool :=
  error.code = some (Stage.code .firstOutput) || error.code = some (Stage.code .request)

def errorString (value : Option Text) : Text := trimText (value.getD [])

/-- `left || right` of texts. -/
def either (left right : Text) : Text := if left = [] then right else left

def failureReason (error : AgentError) : Text :=
  either (errorString error.reason) (either (errorString error.code) "run.failed".toList)

end AgentError

/-- A driver's own payload is kept as its JSON text. -/
inductive Payload where
  | none
  | text (text : Text)
  | reason (reason : Text)
  | overflow (message : Text)
  | timeout (message reason : Text)
  | failure (message reason : Text) (driverRecovered : Bool)
  | driver (payload : Text)
  deriving DecidableEq, Repr

/-- The topic of an event is `muxiva.agent.` and its type. -/
inductive Frame where
  | text (text : Text) (sequence : ℕ)
  | event (type : String) (payload : Payload) (sequence : ℕ)
  deriving DecidableEq, Repr

def Frame.sequence : Frame → ℕ
  | .text _ sequence => sequence
  | .event _ _ sequence => sequence

inductive Port where
  | textOut
  | eventOut
  deriving DecidableEq, Repr

/-- An entry of the queue, with the request it is about and the `cancel` that put it there. -/
structure Item where
  port : Port
  frame : Frame
  request : ℕ
  cancel : Option ℕ
  deriving DecidableEq, Repr

/-- What the race of a request is settled with. -/
inductive Outcome where
  | resolved
  | rejected (error : AgentError)
  | aborted
  deriving DecidableEq, Repr

inductive Phase where
  | unsubmitted
  | waiting
  | executing
  | returned
  deriving DecidableEq, Repr

/-- `driverRun`: scheduled, called, settled, and its `finally` handler done. -/
inductive Run where
  | none
  | scheduled
  | running
  | settled
  | cleaned
  deriving DecidableEq, Repr

/-- A request, its abort controller, and the variables of its `executeRequest`. -/
structure Request where
  prompt : Text
  sequence : ℕ
  cancelled : Bool
  phase : Phase
  aborted : Bool
  accepting : Bool
  responseText : Text
  driver : ℕ
  epoch : ℕ
  firstOutputTimer : Bool
  requestTimer : Bool
  race : Option Outcome
  run : Run
  deriving DecidableEq, Repr

def Request.unsubmitted : Request where
  prompt := []
  sequence := 0
  cancelled := false
  phase := .unsubmitted
  aborted := false
  accepting := false
  responseText := []
  driver := 0
  epoch := 0
  firstOutputTimer := false
  requestTimer := false
  race := none
  run := .none

structure Adapter where
  queue : List Item
  nextRequestId : ℕ
  activeController : Option ℕ
  activeDriver : Option ℕ
  activeRequest : Option ℕ
  closed : Bool
  driver : ℕ
  driverBusy : Bool
  driverEpoch : ℕ
  requests : ℕ → Request
  /-- The timer whose callback has failed a request: the microtasks it queued run before the host
  calls again. -/
  interrupted : Option ℕ
  createdDrivers : ℕ
  /-- The last request begun. -/
  begun : ℕ
  /-- The calls of `cancel`. -/
  cancels : ℕ
  emitted : List Item

/-- What `validateDriverRoute` returns or throws. -/
inductive Route where
  | none
  | selected (payload : Text)
  | fails (error : AgentError)
  deriving DecidableEq, Repr

inductive Action where
  | start (text : Text) (sequence : ℕ)
  | onSignal (reason : Text) (sequence : ℕ)
  | tick
  | onFinish
  | onAbort (reason : Text)
  | begin (request : ℕ) (created : Bool) (route : Route)
  | runDriver (request : ℕ)
  | sinkText (request : ℕ) (delta : Text)
  | sinkEvent (request : ℕ) (type : String) (payload : Text)
  | settle (request : ℕ) (error : Option AgentError)
  | cleanUp (request : ℕ)
  | timer (request : ℕ) (stage : Stage) (timeoutMs : ℕ)
  | resume (request : ℕ) (created : Bool)
  deriving DecidableEq, Repr

namespace Adapter

variable (c : Config) (s : Adapter)

def update (r : ℕ) (f : Request → Request) : Adapter :=
  { s with requests := Function.update s.requests r (f (s.requests r)) }

/-- `controller.abort`, with the listener that rejects `aborted`. -/
def abort (r : ℕ) : Adapter :=
  if (s.requests r).aborted then s
  else s.update r fun q => { q with aborted := true, race := q.race.or (some .aborted) }

def abortActive : Adapter :=
  match s.activeController with
  | none => s
  | some r => s.abort r

def overflowItem (r : ℕ) (frame : Frame) : Item where
  port := .eventOut
  frame := .event "response.failed" (.overflow ("Agent output queue exceeded ".toList ++
    (toString c.maxQueueSize).toList ++ " items".toList)) frame.sequence
  request := r
  cancel := none

def enqueue (r : ℕ) (port : Port) (frame : Frame) : Adapter :=
  if (s.requests r).cancelled || s.closed then s
  else if c.maxQueueSize ≤ s.queue.length then
    { (s.update r ({ · with cancelled := true })).abortActive with
      queue := [overflowItem c r frame] }
  else { s with queue := s.queue ++ [⟨port, frame, r, none⟩] }

def start (text : Text) (sequence : ℕ) : Adapter :=
  let prompt := trimText text
  if prompt = [] || s.closed then s
  else
    let id := s.nextRequestId + 1
    { s with nextRequestId := id }.update id fun _ =>
      { Request.unsubmitted with prompt, sequence, phase := .waiting }

def hadActiveRequest : Bool := s.activeController.any fun r => !(s.requests r).aborted

def cancelActive : Adapter :=
  match s.activeRequest with
  | none => s.abortActive
  | some r => (s.update r ({ · with cancelled := true })).abortActive

def cancel (reason : Text) (sequence : ℕ) : Adapter :=
  let cancelled : Item :=
    ⟨.eventOut, .event "response.cancelled" (.reason reason) sequence, s.activeRequest.getD 0,
      some (s.cancels + 1)⟩
  { (if s.hadActiveRequest then s.cancelActive else s) with
    activeController := none
    activeDriver := none
    activeRequest := none
    queue := if s.hadActiveRequest then [cancelled] else []
    cancels := s.cancels + 1 }

/-- `rotateDriver`, and whether `createDriver` gave a driver or threw. -/
def rotateDriver (created : Bool) : Adapter × Bool :=
  if created then
    ({ s with
      driverEpoch := s.driverEpoch + 1
      driver := s.createdDrivers
      createdDrivers := s.createdDrivers + 1
      driverBusy := false }, true)
  else ({ s with driverEpoch := s.driverEpoch + 1 }, false)

def sinkText (r : ℕ) (delta : Text) : Adapter :=
  let q := s.requests r
  if !q.accepting || q.cancelled then s
  else if delta = [] then s
  else (s.update r fun q => { q with
    firstOutputTimer := false
    responseText := q.responseText ++ delta }).enqueue c r .textOut (.text delta q.sequence)

def sinkEvent (r : ℕ) (type : String) (payload : Text) : Adapter :=
  let q := s.requests r
  if !q.accepting || q.cancelled then s
  else (s.update r fun q => { q with
    firstOutputTimer := q.firstOutputTimer && type != "tool.started" }).enqueue c r .eventOut
      (.event type (.driver payload) q.sequence)

/-- `executeRequest` up to its route: the abort listener is attached after `response.started`. -/
def enter (r : ℕ) : Adapter :=
  (({ s with
    activeController := some r
    activeRequest := some r
    activeDriver := some s.driver
    driverBusy := true }.update r fun q => { q with
      phase := .executing
      driver := s.driver
      epoch := s.driverEpoch }).enqueue c r .eventOut
        (.event "response.started" .none (s.requests r).sequence)).update r fun q => { q with
          accepting := true
          firstOutputTimer := true
          requestTimer := true
          race := none }

def routes (r : ℕ) (route : Route) : Adapter :=
  match route with
  | .none => s.update r ({ · with run := .scheduled })
  | .selected payload =>
    (s.sinkEvent c r "route.selected" payload).update r ({ · with run := .scheduled })
  | .fails error =>
    s.update r fun q => { q with run := .settled, race := q.race.or (some (.rejected error)) }

/-- The tail of the chain has come to `r`. -/
def next (r : ℕ) : Bool :=
  (s.requests r).phase = .waiting && (r = 1 || (s.requests (r - 1)).phase = .returned)

def returns (r : ℕ) : Adapter :=
  { s with begun := r }.update r ({ · with phase := .returned })

def begin (r : ℕ) (created : Bool) (route : Route) : Option Adapter :=
  if s.next r then
    if (s.requests r).cancelled || s.closed then some (s.returns r)
    else
      let rotated := if s.driverBusy then s.rotateDriver created else (s, true)
      if rotated.2 then some ({ rotated.1 with begun := r }.enter c r |>.routes c r route)
      else some (rotated.1.returns r)
  else none

def settle (r : ℕ) (error : Option AgentError) : Option Adapter :=
  if (s.requests r).run = .running then
    some (s.update r fun q => { q with
      run := .settled
      race := q.race.or (some (error.elim .resolved .rejected)) })
  else none

/-- The `finally` handler of `driverRun`. -/
def cleanUp (r : ℕ) : Option Adapter :=
  let q := s.requests r
  if q.run = .settled then
    let s' := s.update r ({ · with run := .cleaned })
    if s.driver = q.driver ∧ s.driverEpoch = q.epoch then some { s' with driverBusy := false }
    else some s'
  else none

def failForTimeout (r : ℕ) (stage : Stage) (timeoutMs : ℕ) : Adapter :=
  let q := s.requests r
  if !q.accepting || q.aborted then s
  else
    { (s.update r fun q => { q with
        race := q.race.or (some (.rejected (timeoutError stage timeoutMs))) }).abort r with
      interrupted := some r }

def timer (r : ℕ) (stage : Stage) (timeoutMs : ℕ) : Option Adapter :=
  match stage with
  | .firstOutput =>
    if (s.requests r).firstOutputTimer then
      some ((s.update r ({ · with firstOutputTimer := false })).failForTimeout r stage timeoutMs)
    else none
  | .request =>
    if (s.requests r).requestTimer then
      some ((s.update r ({ · with requestTimer := false })).failForTimeout r stage timeoutMs)
    else none

/-- A failure is reported after the driver has been rotated, unless no new one could be made. -/
def fail (r : ℕ) (rotates created : Bool) (payload : Payload) (message : Text) : Adapter :=
  let rotated := if rotates then s.rotateDriver created else (s, true)
  let sequence := (s.requests r).sequence
  if rotated.2 then
    let failed := rotated.1.enqueue c r .eventOut (.event "response.failed" payload sequence)
    if message = [] then failed else failed.enqueue c r .textOut (.text message sequence)
  else rotated.1

/-- What `executeRequest` does when its race is settled, before its `finally` block. -/
def conclude (r : ℕ) (outcome : Outcome) (created : Bool) : Adapter :=
  let q := s.requests r
  match outcome with
  | .resolved =>
    if !q.aborted && !q.cancelled then
      s.enqueue c r .eventOut (.event "response.completed" (.text q.responseText) q.sequence)
    else s
  | .rejected error =>
    if error.timedOut && !q.cancelled then
      (s.update r ({ · with accepting := false })).fail c r true created
        (.timeout error.message ("timeout.".toList ++ error.stage)) c.timeoutMessage
    else if !q.aborted && !q.cancelled then
      (s.update r ({ · with accepting := false })).fail c r error.recoverDriver created
        (.failure error.message error.failureReason error.recoverDriver)
        (AgentError.either (AgentError.errorString error.userMessage) c.failureMessage)
    else s
  | .aborted => s

def finishRequest (r : ℕ) : Adapter :=
  let s' := s.update r fun q => { q with
    phase := .returned
    accepting := false
    firstOutputTimer := false
    requestTimer := false }
  if s.activeController = some r then
    { s' with activeController := none, activeDriver := none, activeRequest := none }
  else s'

def resume (r : ℕ) (created : Bool) : Option Adapter :=
  if (s.requests r).phase = .executing then
    match (s.requests r).race with
    | none => none
    | some outcome =>
      some { (s.conclude c r outcome created).finishRequest r with
        interrupted := if s.interrupted = some r then none else s.interrupted }
  else none

def drain : Adapter :=
  { s with
    emitted := s.emitted ++ s.queue.take c.maxResultsPerWakeup
    queue := s.queue.drop c.maxResultsPerWakeup }

/-- The host calls only when no timer's microtasks are left. -/
def host (s' : Adapter) : Option Adapter := if s.interrupted = none then some s' else none

def step : Action → Option Adapter
  | .start text sequence => s.host (s.start text sequence)
  | .onSignal reason sequence => s.host (s.cancel reason sequence)
  | .tick => s.host (s.drain c)
  | .onFinish => s.host ({ s with closed := true }.cancel "runtime.finished".toList 0)
  | .onAbort reason => s.host ({ s with closed := true }.cancel reason 0)
  | .begin r created route => s.begin c r created route
  | .runDriver r =>
    if (s.requests r).run = .scheduled then some (s.update r ({ · with run := .running })) else none
  | .sinkText r delta => some (s.sinkText c r delta)
  | .sinkEvent r type payload => some (s.sinkEvent c r type payload)
  | .settle r error => s.settle r error
  | .cleanUp r => s.cleanUp r
  | .timer r stage timeoutMs => s.timer r stage timeoutMs
  | .resume r created => s.resume c r created

end Adapter

def Adapter.new : Adapter where
  queue := []
  nextRequestId := 0
  activeController := none
  activeDriver := none
  activeRequest := none
  closed := false
  driver := 0
  driverBusy := false
  driverEpoch := 0
  requests := fun _ => .unsubmitted
  interrupted := none
  createdDrivers := 1
  begun := 0
  cancels := 0
  emitted := []

def adapterSystem (c : Config) : Transition.System Adapter Action where
  init s := s = .new
  step s a := s.step c a

end Muxiva.Agent
