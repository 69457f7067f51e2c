import Mathlib.Data.Finset.Max
import Muxiva.Build.Types
import Muxiva.Lib.System

/-! `GraphBuilder`: nodes and edges are validated as they are added, and `build` orders the nodes
by repeatedly taking the least one without unprocessed predecessors. -/
set_option linter.all false
namespace Muxiva.Build

/-- How a builder method ends without a value: with an error, or in a failed `expect`. -/
inductive Halt where
  | failed (error : GraphBuildError)
  | panicked (message : String)
  deriving DecidableEq

def expect {α : Type} (message : String) : Option α → Except Halt α
  | some a => .ok a
  | none => .error (.panicked message)

structure GraphDefinition where
  graphId : GraphId
  nodes : List NodeDefinition
  edges : List EdgeDescriptor
  topologicalOrder : List NodeId

structure GraphBuilder where
  graphId : GraphId
  nodes : SortedMap NodeId NodeDefinition
  edges : SortedMap EdgeId EdgeDescriptor

def edgeSource (edge : EdgeDescriptor) : EdgeEndpoint := ⟨edge.fromNodeId, edge.fromOutputPort⟩

def edgeTarget (edge : EdgeDescriptor) : EdgeEndpoint := ⟨edge.toNodeId, edge.toInputPort⟩

/-- One port of `validate_node_descriptor`; `seen` holds the ports before it. -/
def validatePort (d : NodeDescriptor) (seen : List (PortDirection × PortName))
    (port : PortDescriptor) : Except GraphBuildError (List (PortDirection × PortName)) :=
  if port.nodeId ≠ d.nodeId then .error (.portNodeMismatch d.nodeId port.nodeId port.name)
  else if (port.direction, port.name) ∈ seen then
    .error (.duplicatePort d.nodeId port.name port.direction)
  else if d.kind = .source ∧ port.direction = .input then
    .error (.invalidNodeKind d.nodeId d.kind "Source nodes cannot declare input ports")
  else if d.kind = .sink ∧ port.direction = .output then
    .error (.invalidNodeKind d.nodeId d.kind "Sink nodes cannot declare output ports")
  else .ok ((port.direction, port.name) :: seen)

def validateNodeDescriptor (d : NodeDescriptor) : Except GraphBuildError Unit := do
  if ¬ d.lifecycle.process then throw (.processCapabilityMissing d.nodeId)
  discard (d.ports.foldlM (validatePort d) [])

def findPort (node : NodeDefinition) (name : PortName) (expected : PortDirection)
    (edge : EdgeDescriptor) (role : EndpointRole) : Except GraphBuildError PortDescriptor :=
  match node.descriptor.ports.find? fun port => port.name = name ∧ port.direction = expected with
  | some port => .ok port
  | none =>
    let source := edgeSource edge
    let target := edgeTarget edge
    let endpoint := match role with
      | .source => source
      | .target => target
    match node.descriptor.ports.find? fun port => port.name = name with
    | some port =>
      .error (.directionMismatch edge.edgeId role endpoint expected port.direction source target)
    | none => .error (.missingPort edge.edgeId role endpoint expected source target)

/-- The `Debug` text of a frame type. -/
def frameTypeDebug : FrameType → String
  | .audio => "Audio"
  | .video => "Video"
  | .text => "Text"
  | .byte => "Byte"
  | .signal => "Signal"
  | .event => "Event"

def suggestedTransform (source target : FrameType) : String :=
  if source ≠ target then
    "insert an explicit TransformNode converting " ++ frameTypeDebug source ++ " to " ++
      frameTypeDebug target
  else "no transform is needed; declare this Edge as exactly " ++ frameTypeDebug source

/-- `nodes.get(id).ok_or_else(MissingNode)`. -/
def endpointNode (nodes : SortedMap NodeId NodeDefinition) (edge : EdgeDescriptor)
    (role : EndpointRole) (id : NodeId) : Except GraphBuildError NodeDefinition :=
  match nodes.get? id with
  | some node => .ok node
  | none => .error (.missingNode edge.edgeId role id (edgeSource edge) (edgeTarget edge))

def validateEdge (nodes : SortedMap NodeId NodeDefinition) (edge : EdgeDescriptor) :
    Except GraphBuildError Unit := do
  let sourceNode ← endpointNode nodes edge .source edge.fromNodeId
  let targetNode ← endpointNode nodes edge .target edge.toNodeId
  let sourcePort ← findPort sourceNode edge.fromOutputPort .output edge .source
  let targetPort ← findPort targetNode edge.toInputPort .input edge .target
  if sourcePort.frameType ≠ targetPort.frameType ∨ edge.frameType ≠ sourcePort.frameType ∨
      edge.frameType ≠ targetPort.frameType then
    throw (.typeMismatch edge.edgeId (edgeSource edge) (edgeTarget edge) sourcePort.frameType
      targetPort.frameType edge.frameType
      (suggestedTransform sourcePort.frameType targetPort.frameType))

/-- What `stable_topological_order` works on. -/
structure Sorting where
  indegree : SortedMap NodeId ℕ
  ready : Finset NodeId
  ordered : List NodeId

namespace Sorting

/-- One target of the node taken: its count of unprocessed arcs goes down. -/
def release (s : Sorting) (target : NodeId) : Except Halt Sorting := do
  let degree ← expect "validated Edge target must exist" (s.indegree.get? target)
  if degree = 0 then throw (.panicked "attempt to subtract with overflow")
  let s := { s with indegree := s.indegree.insert target (degree - 1) }
  return if degree - 1 = 0 then { s with ready := insert target s.ready } else s

/-- One turn of the loop for the node `ready.pop_first()` has returned. -/
def take (outgoing : SortedMap NodeId (List NodeId)) (s : Sorting) (nodeId : NodeId) :
    Except Halt Sorting := do
  let s := { s with ready := s.ready.erase nodeId, ordered := s.ordered ++ [nodeId] }
  let targets ← expect "all nodes have an outgoing collection" (outgoing.get? nodeId)
  targets.foldlM release s

/-- The loop, for at most `fuel` turns. -/
def drain (outgoing : SortedMap NodeId (List NodeId)) : ℕ → Sorting → Except Halt Sorting
  | 0, s => .ok s
  | fuel + 1, s =>
    match s.ready.min with
    | none => .ok s
    | some nodeId => do
      let s ← s.take outgoing nodeId
      drain outgoing fuel s

end Sorting

/-- One edge counted at its target and listed at its source. -/
def countEdge (counts : SortedMap NodeId ℕ × SortedMap NodeId (List NodeId))
    (edge : EdgeDescriptor) :
    Except Halt (SortedMap NodeId ℕ × SortedMap NodeId (List NodeId)) := do
  let degree ← expect "validated Edge target must exist" (counts.1.get? edge.toNodeId)
  let targets ← expect "validated Edge source must exist" (counts.2.get? edge.fromNodeId)
  return (counts.1.insert edge.toNodeId (degree + 1),
    counts.2.insert edge.fromNodeId (targets ++ [edge.toNodeId]))

/-- A node enters `ready` at most once, so the loop makes at most one turn for each node. -/
def stableTopologicalOrder (nodes : SortedMap NodeId NodeDefinition)
    (edges : SortedMap EdgeId EdgeDescriptor) : Except Halt (List NodeId) := do
  let (indegree, outgoing) ← (edges.entries.map Prod.snd).foldlM countEdge
    (nodes.mapValues fun _ => 0, nodes.mapValues fun _ => [])
  let ready := ((indegree.entries.filter fun p => p.2 = 0).map Prod.fst).toFinset
  let s ← Sorting.drain outgoing (nodes.size + 1) ⟨indegree, ready, []⟩
  if s.ordered.length ≠ nodes.size then
    throw (.failed (.cycle ((s.indegree.entries.filter fun p => p.2 ≠ 0).map Prod.fst)))
  return s.ordered

namespace GraphBuilder

def withGraphId (graphId : GraphId) : GraphBuilder := ⟨graphId, .empty, .empty⟩

def addNode (b : GraphBuilder) (d : NodeDescriptor) : Except GraphBuildError GraphBuilder := do
  validateNodeDescriptor d
  if b.nodes.contains d.nodeId then throw (.duplicateNode d.nodeId)
  return { b with nodes := b.nodes.insert d.nodeId ⟨d, .empty, none⟩ }

def connect (b : GraphBuilder) (edge : EdgeDescriptor) :
    Except GraphBuildError GraphBuilder := do
  if b.edges.contains edge.edgeId then
    throw (.duplicateEdge edge.edgeId (edgeSource edge) (edgeTarget edge))
  validateEdge b.nodes edge
  return { b with edges := b.edges.insert edge.edgeId edge }

def setConfig (b : GraphBuilder) (nodeId : NodeId) (config : ConfigMap) :
    Except GraphBuildError GraphBuilder :=
  match b.nodes.get? nodeId with
  | none => .error (.configNodeMissing nodeId)
  | some node => .ok { b with nodes := b.nodes.insert nodeId { node with config } }

def setFactory (b : GraphBuilder) (nodeId : NodeId) (factory : NodeFactorySelection) :
    Except GraphBuildError GraphBuilder :=
  match b.nodes.get? nodeId with
  | none => .error (.factoryNodeMissing nodeId)
  | some node => .ok { b with nodes := b.nodes.insert nodeId { node with factory := some factory } }

def build (b : GraphBuilder) : Except Halt GraphDefinition := do
  let topologicalOrder ← stableTopologicalOrder b.nodes b.edges
  return { graphId := b.graphId
           nodes := b.nodes.entries.map Prod.snd
           edges := b.edges.entries.map Prod.snd
           topologicalOrder }

end GraphBuilder

/-- A call on the builder. -/
inductive Call where
  | addNode (descriptor : NodeDescriptor)
  | connect (edge : EdgeDescriptor)
  | setConfig (nodeId : NodeId) (config : ConfigMap)
  | setFactory (nodeId : NodeId) (factory : NodeFactorySelection)

def Call.apply (b : GraphBuilder) : Call → Except GraphBuildError GraphBuilder
  | .addNode descriptor => b.addNode descriptor
  | .connect edge => b.connect edge
  | .setConfig nodeId config => b.setConfig nodeId config
  | .setFactory nodeId factory => b.setFactory nodeId factory

/-- The runs of a fresh builder all of whose calls succeed. -/
def building : Transition.System GraphBuilder Call where
  init b := ∃ graphId, b = .withGraphId graphId
  step b call := (call.apply b).toOption

end Muxiva.Build
