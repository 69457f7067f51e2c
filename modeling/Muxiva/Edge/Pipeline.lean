import Muxiva.Runner.Model

/-! `apply_edge` of `GraphRunner` and of the concurrent runtime with all they write: the policy
instance, the metrics, the worklist and the queue. The policy is a state machine that does not look
at the metrics of its context. -/
set_option linter.all false
namespace Muxiva.Edge

open Muxiva.Runtime (ValidationDecision EdgeAction PolicyCall EdgeQueue saturatingAdd)
open Muxiva.Runner (DispatchItem)

variable {π β τ : Type}

/-- The hooks of an edge policy, as functions of its state. -/
structure EdgePolicy (π β : Type) where
  validate : π → Frame β → PolicyCall ValidationDecision × π
  transform : π → Frame β → PolicyCall (EdgeAction β) × π
  onSignal : π → SignalFrame β → PolicyCall Unit × π
  onDrop : π → String → PolicyCall Unit × π

inductive HookCall (β : Type) where
  | validate (frame : Frame β)
  | transform (frame : Frame β)
  | onSignal (signal : SignalFrame β)
  | onDrop (reason : String)
  deriving DecidableEq

/-- A policy instance and the hooks called on it, oldest first. -/
structure PolicyInstance (π β : Type) where
  state : π
  calls : List (HookCall β)

namespace PolicyInstance
variable (P : EdgePolicy π β) (p : PolicyInstance π β)

/-- A hook was called and left its answer and the state behind it. -/
def called (call : HookCall β) (answer : PolicyCall τ × π) :
    PolicyCall τ × PolicyInstance π β :=
  (answer.1, ⟨answer.2, p.calls ++ [call]⟩)

def validate (frame : Frame β) : PolicyCall ValidationDecision × PolicyInstance π β :=
  p.called (.validate frame) (P.validate p.state frame)

def transform (frame : Frame β) : PolicyCall (EdgeAction β) × PolicyInstance π β :=
  p.called (.transform frame) (P.transform p.state frame)

def onSignal (signal : SignalFrame β) : PolicyCall Unit × PolicyInstance π β :=
  p.called (.onSignal signal) (P.onSignal p.state signal)

def onDrop (reason : String) : PolicyCall Unit × PolicyInstance π β :=
  p.called (.onDrop reason) (P.onDrop p.state reason)

end PolicyInstance

/-- The counters of `EdgeMetricsSnapshot` that `GraphRunner` writes. -/
structure EdgeMetrics where
  enqueueTotal : ℕ
  dequeueTotal : ℕ
  dropTotal : ℕ
  signalTotal : ℕ
  latestErrorReason : Option String
  deriving DecidableEq

namespace EdgeMetrics

def setLatestReason (m : EdgeMetrics) (reason : String) : EdgeMetrics :=
  { m with latestErrorReason := some (bounded reason) }

def recordDelivery (m : EdgeMetrics) : EdgeMetrics :=
  { m with
    enqueueTotal := saturatingAdd m.enqueueTotal 1
    dequeueTotal := saturatingAdd m.dequeueTotal 1 }

def recordDrop (m : EdgeMetrics) (reason : String) : EdgeMetrics :=
  { m with dropTotal := saturatingAdd m.dropTotal 1 }.setLatestReason reason

def recordSignal (m : EdgeMetrics) : EdgeMetrics :=
  { m with signalTotal := saturatingAdd m.signalTotal 1 }

def recordError (m : EdgeMetrics) (reason : String) : EdgeMetrics := m.setLatestReason reason

end EdgeMetrics

/-- What `GraphRunner::apply_edge` reads and writes. -/
structure RunnerEdge (π β : Type) where
  policy : PolicyInstance π β
  metrics : EdgeMetrics
  observedSignals : List (EdgeId × Frame β)
  worklist : List (DispatchItem β)

namespace RunnerEdge
variable (P : EdgePolicy π β) (edge : EdgeDescriptor) (st : RunnerEdge π β)

abbrev Result (π β : Type) := Except AbortReason Unit × RunnerEdge π β

def recordError (reason : String) : RunnerEdge π β :=
  { st with metrics := st.metrics.recordError reason }

def edgeError (code message : String) : Result π β :=
  (.error (Runner.policyAbort edge code message "runtime"), st.recordError message)

def policyReturnedError (e : MuxivaError) (phase : String) : Result π β :=
  (.error ⟨e.abortCategory, some edge.fromNodeId, .runtime, e.code, bounded e.message,
    [.edgeId edge.edgeId, .policyPhase phase]⟩, st.recordError e.message)

def policyPanicked (message phase : String) : Result π β :=
  (.error (Runner.panicAbort message edge.fromNodeId .runtime
    [.edgeId edge.edgeId, .policyPhase phase]), st.recordError (bounded message))

/-- Goes on with the answer of a hook. -/
def answered (phase : String) (k : τ → RunnerEdge π β → Result π β)
    (answer : PolicyCall τ × PolicyInstance π β) : Result π β :=
  let st := { st with policy := answer.2 }
  match answer.1 with
  | .ok value => k value st
  | .error e => st.policyReturnedError edge e phase
  | .panicked m => st.policyPanicked edge m phase

def deliver (frame : Frame β) : Result π β :=
  if frame.frameType ≠ edge.frameType then
    st.edgeError edge "MUXIVA-RUN-DELIVERY-TYPE"
      "policy output type does not match the Edge destination"
  else
    (.ok (), { st with
      metrics := st.metrics.recordDelivery
      worklist := st.worklist ++ [⟨edge, frame⟩] })

def dropFrame (reason : String) : Result π β :=
  let st := { st with metrics := st.metrics.recordDrop reason }
  st.answered edge "on_drop" (fun _ st => (.ok (), st)) (st.policy.onDrop P reason)

def applySignal (frame : Frame β) : Result π β :=
  match frame.asSignal with
  | none => st.edgeError edge "MUXIVA-RUN-SIGNAL-TYPE" "EmitSignal requires a Signal frame"
  | some signal =>
    let st := { st with metrics := st.metrics.recordSignal }
    st.answered edge "on_signal"
      (fun _ st => (.ok (), { st with
        observedSignals := st.observedSignals ++ [(edge.edgeId, frame)] }))
      (st.policy.onSignal P signal)

variable [DecidableEq β]

def applyAction (original : Frame β) : EdgeAction β → Result π β
  | .forward frame =>
    if frame ≠ original ∨ frame.frameId ≠ original.frameId then
      st.edgeError edge "MUXIVA-RUN-FORWARD-MUTATION"
        "Forward must return the unchanged input frame; use Replace"
    else st.deliver edge frame
  | .replace replacement =>
    if replacement.frameId = original.frameId then
      st.edgeError edge "MUXIVA-RUN-REPLACE-ID" "Replace must return a frame with a fresh ID"
    else if replacement.frameType ≠ edge.frameType then
      st.edgeError edge "MUXIVA-RUN-REPLACE-TYPE"
        "replacement frame type does not match the Edge"
    else match original.attachReplacementLineage replacement edge.edgeId
        "edge policy replacement" with
      | .ok frame => st.deliver edge frame
      | .error e => (.error (Runner.nodeError e edge.fromNodeId .runtime), st)
  | .drop reason => st.dropFrame P edge reason
  | .abort reason =>
    (.error (Runner.policyAbort edge "MUXIVA-RUN-POLICY-ABORT" reason "transform"),
      st.recordError reason)
  | .emitSignal frame => st.applySignal P edge frame

/-- `apply_edge` after validation. -/
def transformFrame (original : Frame β) : Result π β :=
  match edge.transformPolicy with
  | .identity => st.applyAction P edge original (.forward original)
  | .named => st.answered edge "transform" (fun action st => st.applyAction P edge original action)
      (st.policy.transform P original)

/-- `apply_edge` after the decision of the validation. -/
def decided (original : Frame β) : ValidationDecision → Result π β
  | .reject reason =>
    match edge.validationPolicy with
    | .named .abort =>
      (.error (Runner.policyAbort edge "MUXIVA-RUN-VALIDATION" reason "validate"),
        st.recordError reason)
    | .named .drop | .typeGateOnly => st.dropFrame P edge reason
  | .accept => st.transformFrame P edge original

def applyEdge (original : Frame β) : Result π β :=
  if original.frameType ≠ edge.frameType then
    st.edgeError edge "MUXIVA-RUN-EDGE-TYPE" "frame failed the mandatory exact Edge type gate"
  else match edge.validationPolicy with
    | .typeGateOnly => st.decided P edge original .accept
    | .named _ => st.answered edge "validate" (fun decision st => st.decided P edge original decision)
        (st.policy.validate P original)

end RunnerEdge

/-- What the concurrent `apply_edge` reads and writes. -/
structure OutputEdge (π β : Type) where
  policy : PolicyInstance π β
  queue : EdgeQueue (Frame β)

namespace OutputEdge
variable (P : EdgePolicy π β) (edge : EdgeDescriptor) (out : OutputEdge π β)

/-- `none` while the producer sleeps on the full queue. -/
abbrev Result (π β : Type) := Option (Except AbortReason Unit) × OutputEdge π β

def recordError (reason : String) : OutputEdge π β :=
  { out with queue := out.queue.recordError reason }

def fail (reason : AbortReason) : Result π β := (some (.error reason), out)

/-- `policy_error` and `policy_panic`. -/
def policyFailed (phase : String) (f : MuxivaError ⊕ String) : Result π β :=
  let (reason, queue) := Runtime.policyFailure edge out.queue phase f
  ({ out with queue := queue } : OutputEdge π β).fail reason

def answered (phase : String) (k : τ → OutputEdge π β → Result π β)
    (answer : PolicyCall τ × PolicyInstance π β) : Result π β :=
  let out := { out with policy := answer.2 }
  match answer.1 with
  | .ok value => k value out
  | .error e => out.policyFailed edge phase (.inl e)
  | .panicked m => out.policyFailed edge phase (.inr m)

def recordPolicyDrop (reason : String) : Result π β :=
  let out := { out with queue := out.queue.recordDrop reason }
  out.answered edge "on_drop" (fun _ out => (some (.ok ()), out)) (out.policy.onDrop P reason)

/-- `queue.push` and how its outcome is reported. -/
def push (frame : Frame β) : Result π β :=
  let (r, queue) := out.queue.push frame
  let out := { out with queue := queue }
  match r with
  | .enqueued | .enqueuedAfterDroppingOldest | .dropped => (some (.ok ()), out)
  | .overflowAbort => out.fail (Runtime.queueAbort edge)
  | .closed => out.fail (Runtime.queueClosedAbort edge)
  | .wait => (none, out)

/-- The type check before the queue, and the push. -/
def enqueue (frame : Frame β) : Result π β :=
  if frame.frameType ≠ edge.frameType then
    out.fail (Runtime.edgeAbort edge "MUXIVA-CONCURRENT-QUEUE-TYPE"
      "policy output type does not match queue type" "queue")
  else out.push edge frame

def applySignal (frame : Frame β) : Result π β :=
  match frame.asSignal with
  | none => out.fail (Runtime.edgeAbort edge "MUXIVA-CONCURRENT-SIGNAL-TYPE"
      "EmitSignal requires a Signal frame" "transform")
  | some signal =>
    let out := { out with queue := out.queue.recordSignal }
    out.answered edge "on_signal" (fun _ out => (some (.ok ()), out))
      (out.policy.onSignal P signal)

variable [DecidableEq β]

def applyAction (original : Frame β) : EdgeAction β → Result π β
  | .forward frame =>
    if frame ≠ original ∨ frame.frameId ≠ original.frameId then
      out.fail (Runtime.edgeAbort edge "MUXIVA-CONCURRENT-FORWARD-MUTATION"
        "Forward must return the unchanged frame" "transform")
    else out.enqueue edge frame
  | .replace replacement =>
    if replacement.frameId = original.frameId ∨ replacement.frameType ≠ edge.frameType then
      out.fail (Runtime.edgeAbort edge "MUXIVA-CONCURRENT-REPLACE"
        "Replace requires a fresh ID and the exact Edge type" "transform")
    else match original.attachReplacementLineage replacement edge.edgeId
        "edge policy replacement" with
      | .ok frame => out.enqueue edge frame
      | .error e => out.fail (Runtime.nodeError e edge.fromNodeId .runtime)
  | .drop reason => out.recordPolicyDrop P edge reason
  | .abort reason => (out.recordError reason).fail
      (Runtime.edgeAbort edge "MUXIVA-CONCURRENT-POLICY-ABORT" reason "transform")
  | .emitSignal frame => out.applySignal P edge frame

def transformFrame (original : Frame β) : Result π β :=
  match edge.transformPolicy with
  | .identity => out.applyAction P edge original (.forward original)
  | .named => out.answered edge "transform"
      (fun action out => out.applyAction P edge original action) (out.policy.transform P original)

def decided (original : Frame β) : ValidationDecision → Result π β
  | .reject reason =>
    match edge.validationPolicy with
    | .named .abort => (out.recordError reason).fail
        (Runtime.edgeAbort edge "MUXIVA-CONCURRENT-VALIDATION" reason "validate")
    | _ => out.recordPolicyDrop P edge reason
  | .accept => out.transformFrame P edge original

def applyEdge (original : Frame β) : Result π β :=
  if original.frameType ≠ edge.frameType then
    (out.recordError "frame failed the mandatory exact Edge type gate").fail
      (Runtime.edgeAbort edge "MUXIVA-CONCURRENT-EDGE-TYPE"
        "frame failed the mandatory exact Edge type gate" "type_gate")
  else match edge.validationPolicy with
    | .typeGateOnly => out.decided P edge original .accept
    | .named _ => out.answered edge "validate"
        (fun decision out => out.decided P edge original decision) (out.policy.validate P original)

end OutputEdge

end Muxiva.Edge
