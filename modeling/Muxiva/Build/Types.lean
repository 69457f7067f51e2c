import Mathlib.Data.String.Basic
import Muxiva.Graph.Types
import Muxiva.Lib.SortedMap

/-! What the graph builder is given and what it reports. Identifiers are the validated strings
of the source here, in the order its maps keep them. -/
set_option linter.all false
namespace Muxiva.Build

/-- `char::is_whitespace`. -/
def isWhitespace (c : Char) : Bool :=
  let n := c.toNat
  (9 ≤ n && n ≤ 13) || n == 0x20 || n == 0x85 || n == 0xA0 || n == 0x1680 ||
    (0x2000 ≤ n && n ≤ 0x200A) || n == 0x2028 || n == 0x2029 || n == 0x202F || n == 0x205F ||
    n == 0x3000

def isAsciiControl (c : Char) : Bool := c.toNat < 32 || c.toNat == 127

/-- `value.trim() != value` on a non-empty text. -/
def hasOuterWhitespace (s : String) : Bool :=
  s.toList.head?.any isWhitespace || s.toList.getLast?.any isWhitespace

inductive NameError where
  | empty
  | tooLong
  | leadingOrTrailingWhitespace
  | containsControlCharacter
  deriving DecidableEq, Repr

/-- The texts of `IdentifierError` and of `DescriptorNameError` differ in their subject only. -/
def NameError.display (subject : String) : NameError → String
  | .empty => subject ++ " must not be empty"
  | .tooLong => subject ++ " must be at most 255 bytes"
  | .leadingOrTrailingWhitespace => subject ++ " must not have leading or trailing whitespace"
  | .containsControlCharacter => subject ++ " must not contain ASCII control characters"

/-- `validate_identifier`, `validate_descriptor_name`. -/
def validateName (s : String) : Option NameError :=
  if s.isEmpty then some .empty
  else if s.utf8ByteSize > 255 then some .tooLong
  else if hasOuterWhitespace s then some .leadingOrTrailingWhitespace
  else if s.toList.any isAsciiControl then some .containsControlCharacter
  else none

/-- A text that passed the check of its constructor. -/
abbrev Name := { s : String // validateName s = none }

def Name.new (s : String) : Except NameError Name :=
  match h : validateName s with
  | some e => .error e
  | none => .ok ⟨s, h⟩

abbrev GraphId := Name
abbrev NodeId := Name
abbrev EdgeId := Name
abbrev PortName := Name
abbrev NodeTypeName := Name
abbrev ConfigKey := Name
abbrev EdgePolicyName := Name
abbrev VisibilityLabel := Name

/-- `identifier.to_string()` of the reason one was refused. -/
def identifierText (e : NameError) : String := e.display "identifier"

def descriptorNameText (e : NameError) : String := e.display "descriptor name"

inductive NodeFactoryVersionError where
  | empty
  | tooLong
  | leadingOrTrailingWhitespace
  | invalidCharacter
  deriving DecidableEq, Repr

def NodeFactoryVersionError.display : NodeFactoryVersionError → String
  | .empty => "node factory version must not be empty"
  | .tooLong => "node factory version must be at most 64 bytes"
  | .leadingOrTrailingWhitespace =>
    "node factory version must not have leading or trailing whitespace"
  | .invalidCharacter =>
    "node factory version may contain only ASCII letters, digits, '.', '-', '+', and '_'"

def isVersionChar (c : Char) : Bool :=
  c.isAlphanum || c == '.' || c == '-' || c == '+' || c == '_'

def validateVersion (s : String) : Option NodeFactoryVersionError :=
  if s.isEmpty then some .empty
  else if s.utf8ByteSize > 64 then some .tooLong
  else if hasOuterWhitespace s then some .leadingOrTrailingWhitespace
  else if !s.toList.all isVersionChar then some .invalidCharacter
  else none

abbrev NodeFactoryVersion := { s : String // validateVersion s = none }

def NodeFactoryVersion.new (s : String) : Except NodeFactoryVersionError NodeFactoryVersion :=
  match h : validateVersion s with
  | some e => .error e
  | none => .ok ⟨s, h⟩

/-- `Value`; a finite float is its bits, a map its entries in key order. -/
inductive Value where
  | null
  | bool (b : Bool)
  | integer (i : ℤ)
  | float (bits : UInt64)
  | string (s : String)
  | bytes (data : List UInt8)
  | list (values : List Value)
  | map (entries : List (String × Value))

structure PortDescriptor where
  nodeId : NodeId
  name : PortName
  direction : PortDirection
  frameType : FrameType
  deriving DecidableEq

structure LifecycleCapabilities where
  prepare : Bool
  process : Bool
  finish : Bool
  abort : Bool
  deriving DecidableEq, Repr

structure NodeDescriptor where
  nodeId : NodeId
  nodeType : NodeTypeName
  kind : NodeKind
  ports : List PortDescriptor
  configSchema : Value
  lifecycle : LifecycleCapabilities

/-- `NodeDescriptor::for_node_id`: the registered shape under a graph-local owner. -/
def NodeDescriptor.forNodeId (d : NodeDescriptor) (nodeId : NodeId) : NodeDescriptor :=
  { d with nodeId, ports := d.ports.map fun port => { port with nodeId } }

inductive NodeLanguage where
  | rust
  | cpp
  | python
  | typescript
  deriving DecidableEq, Repr

def NodeLanguage.parse : String → Option NodeLanguage
  | "rust" => some .rust
  | "cpp" => some .cpp
  | "python" => some .python
  | "typescript" => some .typescript
  | _ => none

structure NodeFactorySelection where
  language : NodeLanguage
  version : NodeFactoryVersion
  deriving DecidableEq

/-- Entries in key order. -/
abbrev ConfigMap := SortedMap ConfigKey Value

structure NodeDefinition where
  descriptor : NodeDescriptor
  config : ConfigMap
  factory : Option NodeFactorySelection

inductive ValidationPolicy where
  | typeGateOnly
  | named (policy : EdgePolicyName) (onFailure : ValidationFailureAction)
  deriving DecidableEq

inductive TransformPolicy where
  | identity
  | named (policy : EdgePolicyName)
  deriving DecidableEq

inductive EnabledCondition where
  | always
  | never
  | configEquals (nodeId : NodeId) (key : ConfigKey) (expected : Value)

inductive VisibilityLevel where
  | publicLevel
  | privateLevel
  deriving DecidableEq, Repr

structure VisibilityDescriptor where
  level : VisibilityLevel
  labels : List VisibilityLabel
  deriving DecidableEq

structure EdgeDescriptor where
  edgeId : EdgeId
  fromNodeId : NodeId
  fromOutputPort : PortName
  toNodeId : NodeId
  toInputPort : PortName
  frameType : FrameType
  queuePolicy : QueuePolicy
  validationPolicy : ValidationPolicy
  transformPolicy : TransformPolicy
  enabled : EnabledCondition
  visibility : VisibilityDescriptor

structure EdgeEndpoint where
  nodeId : NodeId
  portName : PortName
  deriving DecidableEq

inductive EndpointRole where
  | source
  | target
  deriving DecidableEq, Repr

inductive GraphBuildError where
  | duplicateNode (nodeId : NodeId)
  | duplicateEdge (edgeId : EdgeId) (source target : EdgeEndpoint)
  | portNodeMismatch (nodeId portNodeId : NodeId) (portName : PortName)
  | duplicatePort (nodeId : NodeId) (portName : PortName) (direction : PortDirection)
  | invalidNodeKind (nodeId : NodeId) (kind : NodeKind) (message : String)
  | processCapabilityMissing (nodeId : NodeId)
  | missingNode (edgeId : EdgeId) (role : EndpointRole) (missingNodeId : NodeId)
      (source target : EdgeEndpoint)
  | missingPort (edgeId : EdgeId) (role : EndpointRole) (endpoint : EdgeEndpoint)
      (expectedDirection : PortDirection) (source target : EdgeEndpoint)
  | directionMismatch (edgeId : EdgeId) (role : EndpointRole) (endpoint : EdgeEndpoint)
      (expected actual : PortDirection) (source target : EdgeEndpoint)
  | typeMismatch (edgeId : EdgeId) (source target : EdgeEndpoint)
      (sourceType targetType edgeType : FrameType) (suggestedExplicitTransform : String)
  | configNodeMissing (nodeId : NodeId)
  | factoryNodeMissing (nodeId : NodeId)
  | cycle (nodeIds : List NodeId)
  deriving DecidableEq

end Muxiva.Build
