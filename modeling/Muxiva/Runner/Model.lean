import Muxiva.Graph.Lifecycle
import Muxiva.Runtime.Types

/-! `GraphRunner`: the deterministic, single-threaded executor. What nodes and policies answer is
a function of everything logged so far. Edge metrics, resources and the notification bus are left
out, and so are the panics of `on_abort`, which only reach the diagnostics. -/
set_option linter.all false
namespace Muxiva.Runner

open Muxiva.Runtime (ValidationDecision EdgeAction PolicyCall PolicyAnswers CallOutcome)

variable {β : Type}

inductive GraphRunnerState where
  | ready
  | preparing
  | running
  | finishing
  | aborting
  | finished
  | aborted
  deriving DecidableEq, Repr

/-- What user code did and saw, oldest first. -/
structure Log (β : Type) where
  trace : List Event
  /-- emissions of the successful `on_process` calls of a node -/
  outputs : NodeId → List (List (PortName × Frame β))
  /-- frames an edge's pipeline handled, with the policy's answers -/
  applied : EdgeDescriptor → List (Frame β × PolicyAnswers β)
  /-- frames passed to `on_process` of the target via the edge -/
  processed : EdgeDescriptor → List (Frame β)

/-- How nodes and policies behave. -/
structure Environment (β : Type) where
  prepare : Log β → NodeId → CallOutcome Unit
  process : Log β → NodeId → Option (Frame β) → Option PortName →
    CallOutcome (List (PortName × Frame β))
  finish : Log β → NodeId → CallOutcome Unit
  policy : Log β → EdgeDescriptor → Frame β → PolicyAnswers β

/-- A frame on its way to the target of the edge it was delivered on. -/
structure DispatchItem (β : Type) where
  edge : EdgeDescriptor
  frame : Frame β

structure RunnerState (β : Type) where
  state : GraphRunnerState
  prepared : List NodeId
  aborted : List NodeId
  observedSignals : List (EdgeId × Frame β)
  log : Log β

structure GraphRunSummary where
  observedSignalTotal : ℕ
  deriving DecidableEq, Repr

def RunnerState.new : RunnerState β :=
  ⟨.ready, [], [], [], ⟨[], fun _ => [], fun _ => [], fun _ => []⟩⟩

def RunnerState.record (st : RunnerState β) (ev : Event) : RunnerState β :=
  { st with log := { st.log with trace := st.log.trace ++ [ev] } }

def nodeError (e : MuxivaError) (nodeId : NodeId) (stage : AbortStage) : AbortReason :=
  ⟨e.abortCategory, some nodeId, stage, e.code, bounded e.message, []⟩

def runtimeAbort (code message : String) (nodeId : Option NodeId) (stage : AbortStage) :
    AbortReason :=
  ⟨.nodeError, nodeId, stage, code, message, []⟩

def runtimeAbortWithDetails (code message : String) (nodeId : Option NodeId) (stage : AbortStage)
    (context : List Detail) : AbortReason :=
  ⟨.nodeError, nodeId, stage, code, message, context⟩

def policyAbort (edge : EdgeDescriptor) (code message phase : String) : AbortReason :=
  ⟨.nodeError, some edge.fromNodeId, .runtime, code, bounded message,
    [.edgeId edge.edgeId, .policyPhase phase]⟩

def panicAbort (message : String) (nodeId : NodeId) (stage : AbortStage) (edge : List Detail) :
    AbortReason :=
  ⟨.rustPanic, some nodeId, stage, "MUXIVA-RUN-PANIC", bounded message, edge⟩

/-- How `call_prepare`, `call_process` and `call_finish` read a call. -/
def callResult {τ : Type} (c : CallOutcome τ) (n : NodeId) (stage : AbortStage) :
    Except AbortReason τ :=
  match c with
  | .ok value => .ok value
  | .error e => .error (nodeError e n stage)
  | .panicked m => .error (panicAbort m n stage [])

/-- What becomes of a frame on an edge. -/
inductive Disposition (β : Type) where
  | deliver (frame : Frame β)
  | dropped
  | observed (signal : Frame β)
  | fail (reason : AbortReason)

def edgeError (edge : EdgeDescriptor) (code message : String) : Disposition β :=
  .fail (policyAbort edge code message "runtime")

/-- Calls a hook and goes on with its answer. -/
def askPolicy {τ : Type} (c : PolicyCall τ) (edge : EdgeDescriptor) (phase : String)
    (k : τ → Disposition β) : Disposition β :=
  match c with
  | .ok value => k value
  | .error e => .fail ⟨e.abortCategory, some edge.fromNodeId, .runtime, e.code, bounded e.message,
      [.edgeId edge.edgeId, .policyPhase phase]⟩
  | .panicked m => .fail (panicAbort m edge.fromNodeId .runtime
      [.edgeId edge.edgeId, .policyPhase phase])

def deliver (edge : EdgeDescriptor) (frame : Frame β) : Disposition β :=
  if frame.frameType ≠ edge.frameType then
    edgeError edge "MUXIVA-RUN-DELIVERY-TYPE"
      "policy output type does not match the Edge destination"
  else .deliver frame

def dropFrame (edge : EdgeDescriptor) (answers : PolicyAnswers β) : Disposition β :=
  askPolicy answers.onDrop edge "on_drop" fun _ => .dropped

variable [DecidableEq β]

def applyAction (edge : EdgeDescriptor) (answers : PolicyAnswers β) (original : Frame β) :
    EdgeAction β → Disposition β
  | .forward frame =>
    if frame ≠ original ∨ frame.frameId ≠ original.frameId then
      edgeError edge "MUXIVA-RUN-FORWARD-MUTATION"
        "Forward must return the unchanged input frame; use Replace"
    else deliver edge frame
  | .replace replacement =>
    if replacement.frameId = original.frameId then
      edgeError edge "MUXIVA-RUN-REPLACE-ID" "Replace must return a frame with a fresh ID"
    else if replacement.frameType ≠ edge.frameType then
      edgeError edge "MUXIVA-RUN-REPLACE-TYPE" "replacement frame type does not match the Edge"
    else match original.attachReplacementLineage replacement edge.edgeId
        "edge policy replacement" with
      | .ok frame => deliver edge frame
      | .error e => .fail (nodeError e edge.fromNodeId .runtime)
  | .drop _ => dropFrame edge answers
  | .abort reason => .fail (policyAbort edge "MUXIVA-RUN-POLICY-ABORT" reason "transform")
  | .emitSignal frame =>
    if frame.frameType ≠ .signal then
      edgeError edge "MUXIVA-RUN-SIGNAL-TYPE" "EmitSignal requires a Signal frame"
    else askPolicy answers.onSignal edge "on_signal" fun _ => .observed frame

def applyEdge (edge : EdgeDescriptor) (answers : PolicyAnswers β) (original : Frame β) :
    Disposition β :=
  if original.frameType ≠ edge.frameType then
    edgeError edge "MUXIVA-RUN-EDGE-TYPE" "frame failed the mandatory exact Edge type gate"
  else
    let validation : PolicyCall ValidationDecision := match edge.validationPolicy with
      | .typeGateOnly => .ok .accept
      | .named _ => answers.validate
    askPolicy validation edge "validate" fun
      | .reject reason =>
        match edge.validationPolicy with
        | .named .abort => .fail (policyAbort edge "MUXIVA-RUN-VALIDATION" reason "validate")
        | _ => dropFrame edge answers
      | .accept =>
        let action : PolicyCall (EdgeAction β) := match edge.transformPolicy with
          | .identity => .ok (.forward original)
          | .named => answers.transform
        askPolicy action edge "transform" (applyAction edge answers original)

variable (g : GraphDefinition) (env : Environment β)

/-- The enabled edges from an output port, in edge order. -/
def routes (n : NodeId) (p : PortName) : List EdgeDescriptor :=
  g.edges.filter fun e => e.enabled ∧ e.fromNodeId = n ∧ e.fromOutputPort = p

/-- The state, the worklist and the failure, if any, after some edges were served. -/
abbrev Routed (β : Type) := RunnerState β × List (DispatchItem β) × Option AbortReason

/-- One frame through the edges of its port. -/
def routeEdges (st : RunnerState β) (worklist : List (DispatchItem β)) (frame : Frame β) :
    List EdgeDescriptor → Routed β
  | [] => (st, worklist, none)
  | e :: es =>
    let answers := env.policy st.log e frame
    let st := { st with log := { st.log with
      applied := Function.update st.log.applied e (st.log.applied e ++ [(frame, answers)]) } }
    match applyEdge e answers frame with
    | .deliver f => routeEdges st (worklist ++ [⟨e, f⟩]) frame es
    | .dropped => routeEdges st worklist frame es
    | .observed f =>
      routeEdges { st with observedSignals := st.observedSignals ++ [(e.edgeId, f)] } worklist
        frame es
    | .fail r => (st, worklist, some r)

def routeEmissions (n : NodeId) (st : RunnerState β) (worklist : List (DispatchItem β)) :
    List (PortName × Frame β) → Routed β
  | [] => (st, worklist, none)
  | (p, f) :: rest =>
    match g.outputPort n p with
    | none => (st, worklist, some (runtimeAbortWithDetails "MUXIVA-RUN-OUTPUT-PORT"
        "node emitted through an undeclared output port" (some n) .process [.outputPort p]))
    | some port =>
      if f.frameType ≠ port.frameType then
        (st, worklist, some (runtimeAbortWithDetails "MUXIVA-RUN-OUTPUT-TYPE"
          "node emitted a frame whose type does not match its output port" (some n) .process
          [.outputPort p, .expectedType port.frameType, .actualType f.frameType]))
      else
        match routeEdges env st worklist f (routes g n p) with
        | (st, worklist, some r) => (st, worklist, some r)
        | (st, worklist, none) => routeEmissions n st worklist rest

/-- `call_process` and, when it succeeds, `route_emissions`. -/
def serve (n : NodeId) (input : Option (DispatchItem β)) (st : RunnerState β)
    (worklist : List (DispatchItem β)) : Routed β :=
  let call := env.process st.log n (input.map (·.frame)) (input.map (·.edge.toInputPort))
  let log := { st.log with
    trace := st.log.trace ++ [.process n (input.map (·.edge))]
    processed := match input with
      | some item => Function.update st.log.processed item.edge
          (st.log.processed item.edge ++ [item.frame])
      | none => st.log.processed }
  match callResult call n .process with
  | .error r => ({ st with log := log }, worklist, some r)
  | .ok emissions =>
    routeEmissions g env n { st with log := { log with
      outputs := Function.update log.outputs n (log.outputs n ++ [emissions]) } } worklist emissions

/-- The `while` loop over the worklist; `none` when the fuel runs out. -/
def drain : ℕ → RunnerState β → List (DispatchItem β) →
    Option (RunnerState β × Option AbortReason)
  | _, st, [] => some (st, none)
  | 0, _, _ :: _ => none
  | fuel + 1, st, item :: worklist =>
    match serve g env item.edge.toNodeId (some item) st worklist with
    | (st, _, some r) => some (st, some r)
    | (st, worklist, none) => drain fuel st worklist

def runSources (fuel : ℕ) (st : RunnerState β) :
    List NodeId → Option (RunnerState β × Option AbortReason)
  | [] => some (st, none)
  | n :: rest =>
    if g.isSource n then
      match serve g env n none st [] with
      | (st, _, some r) => some (st, some r)
      | (st, worklist, none) =>
        match drain g env fuel st worklist with
        | some (st, none) => runSources fuel st rest
        | other => other
    else runSources fuel st rest

def prepareAll (st : RunnerState β) : List NodeId → RunnerState β × Option AbortReason
  | [] => (st, none)
  | n :: rest =>
    match callResult (env.prepare st.log n) n .prepare with
    | .ok _ =>
      let st := st.record (.prepare n true)
      prepareAll { st with prepared := st.prepared ++ [n] } rest
    | .error r => (st.record (.prepare n false), some r)

def finishAll (st : RunnerState β) : List NodeId → RunnerState β × Option AbortReason
  | [] => (st, none)
  | n :: rest =>
    match callResult (env.finish st.log n) n .finish with
    | .ok _ => finishAll (st.record (.finish n true)) rest
    | .error r => (st.record (.finish n false), some r)

def execute (fuel : ℕ) (st : RunnerState β) : Option (RunnerState β × Option AbortReason) :=
  match prepareAll env { st with state := .preparing } g.topologicalOrder with
  | (st, some r) => some (st, some r)
  | (st, none) =>
    match runSources g env fuel { st with state := .running } g.topologicalOrder with
    | some (st, none) => some (finishAll env { st with state := .finishing } g.topologicalOrder.reverse)
    | other => other

def abortAllPrepared (reason : AbortReason) (st : RunnerState β) : List NodeId → RunnerState β
  | [] => st
  | n :: rest =>
    if n ∉ st.prepared ∨ n ∈ st.aborted then abortAllPrepared reason st rest
    else
      let st := st.record (.abort n reason)
      abortAllPrepared reason { st with aborted := st.aborted ++ [n] } rest

def run (fuel : ℕ) (st : RunnerState β) :
    Option (RunnerState β × Except AbortReason GraphRunSummary) :=
  if st.state ≠ .ready then
    some (st, .error (runtimeAbort "MUXIVA-RUN-SINGLE-USE" "a GraphRunner can execute only once"
      none .runtime))
  else match execute g env fuel st with
    | none => none
    | some (st, none) => some ({ st with state := .finished }, .ok ⟨st.observedSignals.length⟩)
    | some (st, some r) =>
      some ({ abortAllPrepared r { st with state := .aborting } g.topologicalOrder.reverse with
        state := .aborted }, .error r)

end Muxiva.Runner
