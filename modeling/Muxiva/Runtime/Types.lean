import Muxiva.Graph.Lifecycle
import Muxiva.Runtime.Control
import Muxiva.Runtime.Edge

/-! Threads of a concurrent run: where each node worker, edge dispatcher, stop call and the
coordinator stands, what travels between them, and the log of what user code observed. -/
set_option linter.all false
namespace Muxiva.Runtime

structure RuntimeOptions where
  shutdownMode : DrainMode
  failureMode : DrainMode
  emissionBudget : ℕ
  signalQueueCapacity : ℕ
  signalQueueCapacity_pos : 0 < signalQueueCapacity
  /-- the last representable `Instant` -/
  instantMax : ℕ

variable {β : Type}

structure NodeCallOutput (β : Type) where
  emissions : List (PortName × Frame β)
  signals : List (SignalFrame β)
  nextTick : Option ℕ
  deriving DecidableEq

inductive CallOutcome (τ : Type) where
  | ok (value : τ)
  | error (e : MuxivaError)
  | panicked (message : String)
  deriving DecidableEq

/-- One lifecycle call under `catch_unwind`; `overflowed` is the context's overflow flag. -/
structure NodeCall (τ : Type) where
  overflowed : Bool
  outcome : CallOutcome τ
  deriving DecidableEq

/-- How `call_prepare`, `call_process`, `call_signal` and `call_finish` read the call. -/
def NodeCall.result {τ : Type} (c : NodeCall τ) (n : NodeId) (budget : ℕ) (stage : AbortStage) :
    Except AbortReason τ :=
  if c.overflowed then .error (emissionLimitAbort n budget)
  else match c.outcome with
    | .ok value => .ok value
    | .error e => .error (nodeError e n stage)
    | .panicked m => .error (panicAbort m n stage [])

/-- A value with the callback of its producer that emitted it, counted from zero. -/
structure Stamped (α : Type) where
  callback : ℕ
  value : α
  deriving DecidableEq, Repr

inductive Dispatch (β : Type) where
  | frames (batch : List (Stamped (Frame β)))
  | signals (signals : List (Stamped (SignalFrame β)))
  deriving DecidableEq

/-- The `sync_channel(1)` from a worker to the dispatcher of one outgoing edge. -/
structure Channel (β : Type) where
  slot : Option (Dispatch β)
  sender : Bool
  receiver : Bool
  deriving DecidableEq

/-- What is left of the closing of the graph after `request_abort` was won, or of a dispatcher's
closing of its own queues. -/
inductive CloseTask where
  | cancel
  | closeQueue (e : EdgeDescriptor) (mode : DrainMode)
  | notifyQueue (e : EdgeDescriptor)
  | closeSignals (e : EdgeDescriptor) (mode : DrainMode)
  | notifySignals (e : EdgeDescriptor)
  deriving DecidableEq

/-- Batches on their way to the dispatchers of a callback's outgoing edges. -/
abbrev Batches (β : Type) := List (EdgeDescriptor × List (Stamped (Frame β)))

/-- Where a node worker is inside `NodeWorker::run`. -/
inductive WorkerPc (β : Type) where
  | prepare
  | arrive
  /-- waiting for the prepare gate -/
  | gate
  | checkCancelled
  | markRunning
  | enter
  /-- `run_source`: about to call `on_process` -/
  | source
  /-- `run_source`: in `stop.wait_timeout` until the deadline -/
  | sourceWait (deadline : ℕ)
  /-- `run_consumer`: about to sample the wake generation -/
  | top
  | pollSignals (observed offset : ℕ)
  | onSignal (e : EdgeDescriptor) (signal : Stamped (SignalFrame β))
  | checkTick (observed : ℕ)
  | onTick
  | pollFrames (observed offset : ℕ)
  | onFrame (e : EdgeDescriptor) (frame : Stamped (Frame β))
  /-- the data queue, then the signal queue of the first edge are to be checked -/
  | checkQueue (observed : ℕ) (rest : List EdgeDescriptor)
  | checkSignals (observed : ℕ) (e : EdgeDescriptor) (rest : List EdgeDescriptor)
  | checkStop (observed : ℕ)
  | park (observed : ℕ)
  /-- `route`: blocking sends of the signals to the remaining edges -/
  | sendSignals (signals : List (Stamped (SignalFrame β))) (rest : List EdgeDescriptor)
      (batches : Batches β)
  | awaitAcks (left : ℕ) (batches : Batches β)
  | checkReason (batches : Batches β)
  | trySend (batches pending : Batches β)
  | sendPending (pending : Batches β)
  | dispatchClosed
  /-- `fail_graph` entered -/
  | fail (reason : AbortReason)
  | closing (tasks : List CloseTask)
  /-- about to drop the senders -/
  | leave
  /-- about to send the `WorkerExit` -/
  | exit
  | exited
  /-- unwound outside `catch_unwind`: senders dropped, no exit sent -/
  | dead

structure Worker (β : Type) where
  pc : WorkerPc β
  prepared : Bool
  cursor : ℕ
  /-- a consumer's tick deadline -/
  nextTick : Option ℕ
  /-- a source's tick delay while its output is routed -/
  delay : Option ℕ

/-- Where an edge dispatcher is inside `run_dispatcher`; `signal` tells which arm failed. -/
inductive DispatcherPc (β : Type) where
  | recv
  | frames (rest : List (Stamped (Frame β)))
  /-- asleep on `not_full`, or woken -/
  | pushWait (frame : Stamped (Frame β)) (rest : List (Stamped (Frame β))) (notified : Bool)
  | notifyFrame (rest : List (Stamped (Frame β)))
  | signals (rest : List (Stamped (SignalFrame β)))
  | notifySignal (rest : List (Stamped (SignalFrame β)))
  | ack (failed : Bool)
  | fail (reason : AbortReason) (signal : Bool)
  | closing (tasks : List CloseTask) (signal : Bool)
  /-- left the loop, the receiver not yet dropped -/
  | hangUp
  | shutdown (tasks : List CloseTask)
  /-- about to send the `OutputEdge` -/
  | exit
  | exited

inductive RuntimeExit where
  | node (n : NodeId) (prepared : Bool)
  | edge (e : EdgeDescriptor)
  deriving DecidableEq

/-- One call of `GraphRuntime::stop`. -/
inductive StopPc where
  | request
  | closing (tasks : List CloseTask)
  | returned (first : Bool)
  deriving DecidableEq

/-- Where `coordinate` is. -/
inductive CoordinatorPc where
  | collect
  | checkReason
  | beginFinishing
  | finish (rest : List NodeId)
  | fail (reason : AbortReason)
  | closing (tasks : List CloseTask)
  | sealSuccess
  | publishSuccess
  | beginAborting
  | abort (reason : AbortReason) (rest : List NodeId)
  | done
  | panicked
  deriving DecidableEq

structure Coordinator where
  pc : CoordinatorPc
  /-- nodes whose exit was received -/
  nodes : List NodeId
  prepared : List NodeId
  deriving DecidableEq

/-- What user code did and saw, oldest first. -/
structure Log (β : Type) where
  /-- every lifecycle callback of every node -/
  trace : List Event
  /-- outputs of the successful `on_process` and `on_signal` calls of a node -/
  outputs : NodeId → List (NodeCallOutput β)
  /-- frames an edge's pipeline handled, with the policy's answers -/
  applied : EdgeDescriptor → List (Stamped (Frame β) × PolicyAnswers β)
  /-- frames passed to `on_process` of the target via the edge -/
  processed : EdgeDescriptor → List (Stamped (Frame β))
  /-- signals passed to `on_signal` of the target via the edge -/
  handled : EdgeDescriptor → List (Stamped (SignalFrame β))

structure State (β : Type) where
  control : ControlState
  /-- `StopToken` -/
  cancelled : Bool
  /-- `PrepareGate` -/
  remaining : ℕ
  released : Bool
  queues : EdgeDescriptor → EdgeQueue (Stamped (Frame β))
  signalQueues : EdgeDescriptor → SignalQueue (Stamped (SignalFrame β))
  /-- `QueueWake` of each node -/
  generation : NodeId → ℕ
  channels : EdgeDescriptor → Channel β
  /-- acknowledgements waiting for the worker in its current round of signals -/
  acks : NodeId → ℕ
  workers : NodeId → Worker β
  dispatchers : EdgeDescriptor → DispatcherPc β
  exits : List RuntimeExit
  stops : List StopPc
  coordinator : Coordinator
  clock : ℕ
  log : Log β

end Muxiva.Runtime
