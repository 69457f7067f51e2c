import Mathlib.Algebra.Group.Int.Defs
import Mathlib.Algebra.GroupWithZero.Nat
import Muxiva.Lib.SortedMap

/-! Data of a managed service session: options, results, the terminal state shared
by the parties of one request, and the messages that pass between the caller, the
session executor and the isolated request workers. -/
set_option linter.all false
namespace Muxiva.Stream

inductive DeliveryOrdering where
  | strict
  | relaxed
  deriving DecidableEq, Repr

structure ServiceError where
  code : String
  message : String
  deriving DecidableEq, Repr

namespace ServiceError

def timeout : ServiceError :=
  ⟨"managed_stream_timeout", "managed stream request deadline elapsed"⟩

def workerStart : ServiceError :=
  ⟨"managed_stream_worker_start", "managed stream could not start an isolated request worker"⟩

def adapterPanic : ServiceError :=
  ⟨"managed_stream_adapter_panic", "managed stream adapter panicked while handling a request"⟩

def responseLimit : ServiceError :=
  ⟨"managed_stream_response_limit",
    "managed stream response exceeded its configured frame or byte limit"⟩

end ServiceError

variable {φ : Type}

/-- Bounded resources of one session. `frameResponseBytes` is the logical payload size
of one frame, `none` when adding it up overflows `usize`. -/
structure ManagedStreamOptions (φ : Type) where
  sessionId : ℕ
  inputCapacity : ℕ
  resultCapacity : ℕ
  maxInFlight : ℕ
  maxResponseFrames : ℕ
  maxResponseBytes : ℕ
  ordering : DeliveryOrdering
  frameResponseBytes : φ → Option ℕ
  inputCapacity_pos : 0 < inputCapacity
  resultCapacity_pos : 0 < resultCapacity
  maxInFlight_pos : 0 < maxInFlight

inductive StreamResult (φ : Type) where
  | frames (fs : List φ)
  | retryable (e : ServiceError)
  | failed (e : ServiceError)
  deriving DecidableEq

/-- Result of one `connect` and `send` exchange: `connect` may fail, `send` may answer,
either may panic. -/
inductive AdapterOutcome (φ : Type) where
  | connectError (e : ServiceError)
  | frames (fs : List φ)
  | retryable (e : ServiceError)
  | failed (e : ServiceError)
  | panicked
  deriving DecidableEq

inductive AdapterResponse (φ : Type) where
  | frames (fs : List φ)
  | retryable (e : ServiceError)
  | failed (e : ServiceError)
  deriving DecidableEq

/-- What `catch_unwind` around the exchange hands to the attempt loop. -/
def AdapterOutcome.response : AdapterOutcome φ → AdapterResponse φ
  | .connectError e => .retryable e
  | .frames fs => .frames fs
  | .retryable e => .retryable e
  | .failed e => .failed e
  | .panicked => .failed .adapterPanic

/-- A submission. The admission lease travels with it and is not a value of its own. -/
structure AsyncRequest (φ : Type) where
  requestId : ℕ
  sessionId : ℕ
  input : φ
  deadline : ℕ
  attemptLimit : ℕ

/-- An accepted request. Its `sequence` is unique, so it also names the request's
shared `TerminalState`. -/
structure Envelope (φ : Type) where
  sequence : ℕ
  requestId : ℕ
  input : φ
  deadline : ℕ
  attemptLimit : ℕ
  deriving DecidableEq

/-- Which party's swap set the `terminal` flag. -/
inductive Winner where
  | cancel
  | worker
  | deadline
  deriving DecidableEq, Repr

/-- `TerminalState`. The atomic `terminal` flag is kept together with the party that set
it; `admission` says whether the lease is still stored. -/
structure TerminalState where
  cancelled : Bool
  winner : Option Winner
  admission : Bool
  deriving DecidableEq, Repr

def TerminalState.terminal (t : TerminalState) : Bool := t.winner.isSome

structure WorkerCompletion (φ : Type) where
  sequence : ℕ
  requestId : ℕ
  result : Option (StreamResult φ)
  deriving DecidableEq

structure OrderedResolution (φ : Type) where
  requestId : ℕ
  result : Option (StreamResult φ)
  deriving DecidableEq

structure ActiveRequest where
  requestId : ℕ
  deadline : ℕ
  deriving DecidableEq, Repr

/-- One delivered result; `sequence` records the request it answers. -/
structure StreamCompletion (φ : Type) where
  sequence : ℕ
  requestId : ℕ
  sessionId : ℕ
  result : StreamResult φ
  deriving DecidableEq

structure Metrics where
  submitted : ℕ := 0
  accepted : ℕ := 0
  mailboxFull : ℕ := 0
  started : ℕ := 0
  attempts : ℕ := 0
  retries : ℕ := 0
  reconnects : ℕ := 0
  completed : ℕ := 0
  succeeded : ℕ := 0
  retryExhausted : ℕ := 0
  failed : ℕ := 0
  timedOut : ℕ := 0
  cancelled : ℕ := 0
  responseLimitExceeded : ℕ := 0
  lateResultsDiscarded : ℕ := 0
  resultBackpressure : ℕ := 0
  resultsDelivered : ℕ := 0
  deriving DecidableEq, Repr

/-- `usize::checked_add`. -/
def checkedAdd (a b : ℕ) : Option ℕ := if a + b < 2 ^ 64 then some (a + b) else none

def validateResponseFrames (o : ManagedStreamOptions φ) (frames : List φ) :
    Except ServiceError Unit :=
  if o.maxResponseFrames < frames.length then .error .responseLimit
  else
    match frames.foldlM (fun total f => (o.frameResponseBytes f).bind (checkedAdd total)) 0 with
    | some bytes => if o.maxResponseBytes < bytes then .error .responseLimit else .ok ()
    | none => .error .responseLimit

/-- The counters a worker that won the terminal flag adds, by the class of its result. -/
def Metrics.recordTerminal (m : Metrics) : Option (StreamResult φ) → Metrics
  | some (.frames _) => { m with completed := m.completed + 1, succeeded := m.succeeded + 1 }
  | some (.retryable _) =>
    { m with completed := m.completed + 1, retryExhausted := m.retryExhausted + 1 }
  | some (.failed e) =>
    if e.code = "managed_stream_timeout" then
      { m with completed := m.completed + 1, timedOut := m.timedOut + 1 }
    else if e.code = "managed_stream_response_limit" then
      { m with
        completed := m.completed + 1
        responseLimitExceeded := m.responseLimitExceeded + 1
        failed := m.failed + 1 }
    else { m with completed := m.completed + 1, failed := m.failed + 1 }
  | none => { m with completed := m.completed + 1, failed := m.failed + 1 }

end Muxiva.Stream
