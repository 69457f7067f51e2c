import Mathlib.Data.List.Perm.Basic
import Mathlib.Data.List.Nodup
import Mathlib.Data.Nat.Notation

/-! Frames, descriptors and abort reasons: the pure data both runners work on. Identifiers
are compared only for equality and are numbers here. -/
set_option linter.all false
namespace Muxiva

abbrev NodeId := ℕ
abbrev EdgeId := ℕ
abbrev PortName := ℕ
abbrev FrameId := ℕ

inductive FrameType where
  | audio
  | video
  | text
  | byte
  | signal
  | event
  deriving DecidableEq, Repr

inductive ErrorCategory where
  | configuration
  | validation
  | lifecycle
  | cancelled
  | external
  | internal
  deriving DecidableEq, Repr

structure MuxivaError where
  category : ErrorCategory
  code : String
  message : String
  deriving DecidableEq, Repr

/-- `TransformOrigin` with the edge attribution the runners use. -/
structure LineageEntry where
  parentFrameId : FrameId
  originEdgeId : EdgeId
  reason : String
  deriving DecidableEq, Repr

variable {β : Type}

/-- A frame; `body` is the payload with the header fields no runner looks at. -/
structure Frame (β : Type) where
  frameId : FrameId
  frameType : FrameType
  lineage : List LineageEntry
  body : β
  deriving DecidableEq, Repr

/-- A frame whose payload is a signal. -/
abbrev SignalFrame (β : Type) := { f : Frame β // f.frameType = .signal }

def Frame.asSignal (f : Frame β) : Option (SignalFrame β) :=
  if h : f.frameType = .signal then some ⟨f, h⟩ else none

/-- `attach_replacement_lineage` with the edge as origin. -/
def Frame.attachReplacementLineage (f replacement : Frame β) (edge : EdgeId) (reason : String) :
    Except MuxivaError (Frame β) :=
  if f.frameId = replacement.frameId then
    .error ⟨.validation, "MUXIVA-FRM-REPLACEMENT-ID",
      "a replacement frame must use a different ID from its direct parent"⟩
  else
    let lineage := f.lineage ++ [⟨f.frameId, edge, reason⟩]
    if lineage.any (·.parentFrameId = replacement.frameId) then
      .error ⟨.validation, "MUXIVA-FRM-LINEAGE-CYCLE",
        "a frame cannot name itself as a lineage parent"⟩
    else .ok { replacement with lineage := lineage }

inductive AbortStage where
  | prepare
  | process
  | finish
  | runtime
  deriving DecidableEq, Repr

inductive AbortCategory where
  | cancelled
  | nodeError
  | rustPanic
  | foreignException
  | externalSdkError
  deriving DecidableEq, Repr

/-- One entry of the `details` map, by its key. -/
inductive Detail where
  | edgeId (e : EdgeId)
  | policyPhase (phase : String)
  | outputPort (p : PortName)
  | expectedType (t : FrameType)
  | actualType (t : FrameType)
  | emissionLimit (n : ℕ)
  deriving DecidableEq, Repr

structure AbortReason where
  category : AbortCategory
  nodeId : Option NodeId
  stage : AbortStage
  code : String
  message : String
  details : List Detail
  deriving DecidableEq, Repr

/-- The loop of `bounded`: control characters become blanks, at most `room` bytes are kept. -/
def boundedChars : List Char → ℕ → List Char
  | [], _ => []
  | c :: cs, room =>
    let c := if c.toNat < 32 ∨ c.toNat = 127 then ' ' else c
    if room < c.utf8Size then [] else c :: boundedChars cs (room - c.utf8Size)

def bounded (message : String) : String := String.ofList (boundedChars message.toList 256)

theorem boundedChars_boundedChars (cs : List Char) (room : ℕ) :
    boundedChars (boundedChars cs room) room = boundedChars cs room := by
  induction cs generalizing room with
  | nil => rfl
  | cons c cs ih =>
    -- a blank is no control character
    have hclean : ∀ d : Char, d = (if c.toNat < 32 ∨ c.toNat = 127 then ' ' else c) →
        ¬ (d.toNat < 32 ∨ d.toNat = 127) := by
      intro d hd
      split_ifs at hd with hcontrol
      · rw [hd]
        decide
      · rw [hd]
        exact hcontrol
    generalize hd : (if c.toNat < 32 ∨ c.toNat = 127 then ' ' else c) = d at hclean
    have hfirst : boundedChars (c :: cs) room =
        if room < d.utf8Size then [] else d :: boundedChars cs (room - d.utf8Size) := by
      simp only [boundedChars, hd]
    have hsecond (ds : List Char) : boundedChars (d :: ds) room =
        if room < d.utf8Size then [] else d :: boundedChars ds (room - d.utf8Size) := by
      simp only [boundedChars, if_neg (hclean d rfl)]
    rw [hfirst]
    split_ifs with hroom
    · rfl
    · rw [hsecond, if_neg hroom, ih]

/-- A text that has been bounded is not changed again. -/
@[simp]
theorem bounded_bounded (message : String) : bounded (bounded message) = bounded message := by
  unfold bounded
  rw [String.toList_ofList, boundedChars_boundedChars]

def MuxivaError.abortCategory (e : MuxivaError) : AbortCategory :=
  match e.category with
  | .cancelled => .cancelled
  | .external => .externalSdkError
  | _ => .nodeError

inductive NodeKind where
  | source
  | transform
  | sink
  deriving DecidableEq, Repr

inductive PortDirection where
  | input
  | output
  deriving DecidableEq, Repr

structure PortDescriptor where
  name : PortName
  direction : PortDirection
  frameType : FrameType
  deriving DecidableEq, Repr

structure NodeDescriptor where
  nodeId : NodeId
  kind : NodeKind
  ports : List PortDescriptor
  deriving DecidableEq, Repr

inductive QueueOverflowPolicy where
  | block
  | dropOldest
  | dropNewest
  | abort
  deriving DecidableEq, Repr

structure QueuePolicy where
  capacity : ℕ
  overflow : QueueOverflowPolicy
  capacity_pos : 0 < capacity
  deriving DecidableEq

inductive ValidationFailureAction where
  | drop
  | abort
  deriving DecidableEq, Repr

inductive ValidationPolicy where
  | typeGateOnly
  | named (onFailure : ValidationFailureAction)
  deriving DecidableEq, Repr

inductive TransformPolicy where
  | identity
  | named
  deriving DecidableEq, Repr

/-- An edge; `enabled` is its evaluated condition. -/
structure EdgeDescriptor where
  edgeId : EdgeId
  fromNodeId : NodeId
  fromOutputPort : PortName
  toNodeId : NodeId
  toInputPort : PortName
  frameType : FrameType
  queuePolicy : QueuePolicy
  validationPolicy : ValidationPolicy
  transformPolicy : TransformPolicy
  enabled : Bool
  deriving DecidableEq

def EdgeDescriptor.usesNamedPolicy (e : EdgeDescriptor) : Bool :=
  match e.validationPolicy, e.transformPolicy with
  | .typeGateOnly, .identity => false
  | _, _ => true

/-- The output port of a node under a name. -/
def NodeDescriptor.outputPort (n : NodeDescriptor) (p : PortName) : Option PortDescriptor :=
  n.ports.find? fun port => port.name = p ∧ port.direction = .output

/-- A built graph: unique nodes and edges, edges between declared ports of equal type, sources
without inputs, and an order of the nodes in which every edge goes forward. -/
structure GraphDefinition where
  nodes : List NodeDescriptor
  edges : List EdgeDescriptor
  topologicalOrder : List NodeId
  nodes_nodup : (nodes.map NodeDescriptor.nodeId).Nodup
  edges_nodup : (edges.map EdgeDescriptor.edgeId).Nodup
  order_perm : topologicalOrder.Perm (nodes.map NodeDescriptor.nodeId)
  endpoints : ∀ e ∈ edges, e.fromNodeId ∈ topologicalOrder ∧ e.toNodeId ∈ topologicalOrder
  forward : ∀ e ∈ edges,
    topologicalOrder.idxOf e.fromNodeId < topologicalOrder.idxOf e.toNodeId
  no_source_input : ∀ e ∈ edges, ∀ n ∈ nodes, n.nodeId = e.toNodeId → n.kind ≠ .source

namespace GraphDefinition
variable (g : GraphDefinition)

def node (n : NodeId) : Option NodeDescriptor := g.nodes.find? (·.nodeId = n)

def isSource (n : NodeId) : Bool := (g.node n).any (·.kind = .source)

/-- The declared output port of node `n` under a name. -/
def outputPort (n : NodeId) (p : PortName) : Option PortDescriptor :=
  (g.node n).bind (·.outputPort p)

/-- Enabled edges into a node, in edge order. -/
def incoming (n : NodeId) : List EdgeDescriptor :=
  g.edges.filter fun e => e.enabled ∧ e.toNodeId = n

/-- Enabled edges out of a node, in edge order. -/
def outgoing (n : NodeId) : List EdgeDescriptor :=
  g.edges.filter fun e => e.enabled ∧ e.fromNodeId = n

def enabledEdges : List EdgeDescriptor := g.edges.filter (·.enabled)

variable {g}

theorem mem_incoming {n : NodeId} {e : EdgeDescriptor} :
    e ∈ g.incoming n ↔ e ∈ g.enabledEdges ∧ e.toNodeId = n := by
  simp [incoming, enabledEdges, and_assoc]

theorem mem_outgoing {n : NodeId} {e : EdgeDescriptor} :
    e ∈ g.outgoing n ↔ e ∈ g.enabledEdges ∧ e.fromNodeId = n := by
  simp [outgoing, enabledEdges, and_assoc]

theorem mem_edges_of_enabled {e : EdgeDescriptor} (h : e ∈ g.enabledEdges) : e ∈ g.edges :=
  List.mem_of_mem_filter h

theorem order_nodup : g.topologicalOrder.Nodup := g.order_perm.nodup_iff.mpr g.nodes_nodup

theorem enabledEdges_nodup : g.enabledEdges.Nodup := (g.edges_nodup.of_map _).filter _

theorem incoming_nodup (n : NodeId) : (g.incoming n).Nodup := (g.edges_nodup.of_map _).filter _

theorem outgoing_nodup (n : NodeId) : (g.outgoing n).Nodup := (g.edges_nodup.of_map _).filter _

/-- A source has no incoming edge. -/
theorem incoming_source {n : NodeId} (h : g.isSource n = true) : g.incoming n = [] := by
  rw [List.eq_nil_iff_forall_not_mem]
  intro e he
  rw [mem_incoming] at he
  unfold isSource at h
  cases hd : g.node n with
  | none => simp [hd] at h
  | some d =>
    have hid : d.nodeId = n := by simpa using List.find?_some hd
    refine g.no_source_input e (mem_edges_of_enabled he.1) d (List.mem_of_find?_eq_some hd)
      (hid.trans he.2.symm) ?_
    simpa [hd] using h

end GraphDefinition
end Muxiva
