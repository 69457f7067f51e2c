import Muxiva.Build.Builder

/-! Graph v1 documents and their compilation against a registry of node factories. -/
set_option linter.all false
namespace Muxiva.Build

/-- `serde_json::Number`. -/
inductive JsonNumber where
  | posInt (n : UInt64)
  | negInt (i : Int64)
  | float (bits : UInt64)
  deriving DecidableEq

/-- `serde_json::Value`; an object is its entries in key order. -/
inductive Json where
  | null
  | bool (b : Bool)
  | number (n : JsonNumber)
  | string (s : String)
  | array (values : List Json)
  | object (entries : List (String × Json))

/-- Whether the bits of an `f64` are those of a finite number. -/
def isFiniteBits (bits : UInt64) : Bool := (bits.toNat / 2 ^ 52) % 2 ^ 11 ≠ 2 ^ 11 - 1

def numberFromJson : JsonNumber → Except String Value
  | .posInt n =>
    if n.toNat < 2 ^ 63 then .ok (.integer n.toNat)
    else .error "unsigned configuration integer exceeds the i64 protocol range"
  | .negInt i => .ok (.integer i.toInt)
  | .float bits =>
    if isFiniteBits bits then .ok (.float bits)
    else .error "[MUXIVA-FRM-VALUE-NUMBER] value must be a finite number"

/-- `validate_key` of a value map. -/
def isValueKey (key : String) : Bool :=
  !key.isEmpty && key.utf8ByteSize ≤ 255 && !key.toList.any isAsciiControl

def invalidKeyText : String := "[MUXIVA-FRM-VALUE-KEY] " ++
  "value map key must be non-empty, at most 255 bytes, and contain no ASCII controls"

/-- `collect_values`: the first entry with a bad or repeated key ends it. -/
def collectValues (entries : List (String × Value)) : Except String (SortedMap String Value) :=
  entries.foldlM (fun map entry =>
    if !isValueKey entry.1 || map.contains entry.1 then .error invalidKeyText
    else .ok (map.insert entry.1 entry.2)) .empty

mutual
def valueFromJson : Json → Except String Value
  | .null => .ok .null
  | .bool b => .ok (.bool b)
  | .number n => numberFromJson n
  | .string s => .ok (.string s)
  | .array values => do return .list (← valuesFromJson values)
  | .object entries => do return .map (← collectValues (← entriesFromJson entries)).entries
def valuesFromJson : List Json → Except String (List Value)
  | [] => .ok []
  | value :: values => do return (← valueFromJson value) :: (← valuesFromJson values)
def entriesFromJson : List (String × Json) → Except String (List (String × Value))
  | [] => .ok []
  | (key, value) :: entries => do
    let value ← valueFromJson value
    return (key, value) :: (← entriesFromJson entries)
end

/-- One entry of a configuration object; `converted` holds the ones before it. -/
def convertEntry (converted : List (ConfigKey × Value)) (entry : String × Json) :
    Except String (List (ConfigKey × Value)) := do
  let key ← (Name.new entry.1).mapError descriptorNameText
  return converted ++ [(key, ← valueFromJson entry.2)]

/-- `ConfigMap::try_from_iter`. -/
def configMapTryFromIter (entries : List (ConfigKey × Value)) : Except String ConfigMap :=
  entries.foldlM (fun map entry =>
    if map.contains entry.1 then
      .error ("duplicate configuration key `" ++ entry.1.1 ++ "`")
    else .ok (map.insert entry.1 entry.2)) .empty

def configMapFromJsonObject (values : List (String × Json)) : Except String ConfigMap := do
  configMapTryFromIter (← values.foldlM convertEntry [])

structure NodeDocument where
  id : String
  nodeType : String
  language : String
  factoryVersion : String
  nodeConfig : List (String × Json)

structure Endpoint where
  nodeId : String
  port : String
  deriving DecidableEq

structure QueueDocument where
  capacity : UInt32
  overflow : String
  deriving DecidableEq

structure EdgeDocument where
  id : String
  source : Endpoint
  target : Endpoint
  frameType : String
  queuePolicy : QueueDocument
  deriving DecidableEq

structure GraphDocument where
  version : String
  graphId : String
  nodes : List NodeDocument
  edges : List EdgeDocument

structure GraphDiagnostic where
  code : String
  message : String
  pointer : String
  deriving DecidableEq

section Texts

def endpointText (e : EdgeEndpoint) : String := e.nodeId.1 ++ "." ++ e.portName.1

def roleDebug : EndpointRole → String
  | .source => "Source"
  | .target => "Target"

def directionDebug : PortDirection → String
  | .input => "Input"
  | .output => "Output"

def kindDebug : NodeKind → String
  | .source => "Source"
  | .transform => "Transform"
  | .sink => "Sink"

def languageDebug : NodeLanguage → String
  | .rust => "Rust"
  | .cpp => "Cpp"
  | .python => "Python"
  | .typescript => "TypeScript"

def quoted (s : String) : String := "`" ++ s ++ "`"

/-- The start of every text about an edge. -/
def edgeText (id : EdgeId) (source target : EdgeEndpoint) : String :=
  "edge " ++ quoted id.1 ++ " from " ++ quoted (endpointText source) ++ " to " ++
    quoted (endpointText target)

/-- The `Display` text of an error. -/
def GraphBuildError.display : GraphBuildError → String
  | .duplicateNode id => "duplicate node " ++ quoted id.1
  | .duplicateEdge id source target =>
    "duplicate edge " ++ quoted id.1 ++ " connecting " ++ quoted (endpointText source) ++ " to " ++
      quoted (endpointText target)
  | .portNodeMismatch id owner port =>
    "node " ++ quoted id.1 ++ " contains port " ++ quoted port.1 ++ " owned by " ++ quoted owner.1
  | .duplicatePort id port direction =>
    "node " ++ quoted id.1 ++ " has duplicate " ++ directionDebug direction ++ " port " ++
      quoted port.1
  | .invalidNodeKind id kind message =>
    "invalid " ++ kindDebug kind ++ " node " ++ quoted id.1 ++ ": " ++ message
  | .processCapabilityMissing id =>
    "node " ++ quoted id.1 ++ " does not declare the mandatory process capability"
  | .missingNode id role missing source target =>
    edgeText id source target ++ " has missing " ++ roleDebug role ++ " node " ++ quoted missing.1
  | .missingPort id role endpoint expected source target =>
    edgeText id source target ++ " has missing " ++ roleDebug role ++ " " ++
      directionDebug expected ++ " port " ++ quoted (endpointText endpoint)
  | .directionMismatch id role endpoint expected actual source target =>
    edgeText id source target ++ " uses " ++ roleDebug role ++ " port " ++
      quoted (endpointText endpoint) ++ " as " ++ directionDebug expected ++ ", but it is " ++
      directionDebug actual
  | .typeMismatch id source target sourceType targetType edgeType suggestion =>
    "edge " ++ quoted id.1 ++ " from " ++ quoted (endpointText source) ++ " (" ++
      frameTypeDebug sourceType ++ ") to " ++ quoted (endpointText target) ++ " (" ++
      frameTypeDebug targetType ++ ") declares " ++ frameTypeDebug edgeType ++ "; " ++ suggestion
  | .configNodeMissing id => "configuration targets missing node " ++ quoted id.1
  | .factoryNodeMissing id => "Factory selection targets missing node " ++ quoted id.1
  | .cycle ids =>
    "graph contains a directed cycle involving " ++ ", ".intercalate (ids.map Subtype.val)

end Texts

/-- How a factory's `validate_config` ends; it is deterministic and without side effects. -/
inductive Validation where
  | accepted
  | refused (code message : String)
  | panicked
  deriving DecidableEq

structure NodeRegistration where
  descriptor : NodeDescriptor
  validateConfig : ConfigMap → Validation

/-- The registered factories, by type, language and version. -/
abbrev NodeRegistry :=
  NodeTypeName → NodeLanguage → NodeFactoryVersion → Option NodeRegistration

/-- The end of every text about a factory. -/
def factoryText (nodeType : NodeTypeName) (language : NodeLanguage)
    (version : NodeFactoryVersion) : String :=
  languageDebug language ++ " node factory " ++ quoted nodeType.1 ++ " version " ++
    quoted version.1

def unknownNodeText (nodeType : NodeTypeName) (language : NodeLanguage)
    (version : NodeFactoryVersion) : String :=
  "unknown " ++ factoryText nodeType language version

def NodeRegistry.descriptorFor (registry : NodeRegistry) (nodeType : NodeTypeName)
    (language : NodeLanguage) (version : NodeFactoryVersion) (nodeId : NodeId) :
    Except String NodeDescriptor :=
  match registry nodeType language version with
  | some registration => .ok (registration.descriptor.forNodeId nodeId)
  | none => .error (unknownNodeText nodeType language version)

def NodeRegistry.validateConfig (registry : NodeRegistry) (nodeType : NodeTypeName)
    (language : NodeLanguage) (version : NodeFactoryVersion) (nodeId : NodeId)
    (config : ConfigMap) : Except String Unit :=
  match registry nodeType language version with
  | none => .error (unknownNodeText nodeType language version)
  | some registration =>
    match registration.validateConfig config with
    | .accepted => .ok ()
    | .refused code message =>
      .error ("ValidateConfig failed for " ++ factoryText nodeType language version ++
        " at node " ++ quoted nodeId.1 ++ ": " ++ code ++ ": " ++ message)
    | .panicked =>
      .error ("ValidateConfig panicked for " ++ factoryText nodeType language version ++
        " at node " ++ quoted nodeId.1)

/-- `map_err(|error| diag(code, error, pointer))`. -/
def orDiag {α : Type} (code pointer : String) (r : Except String α) : Except GraphDiagnostic α :=
  r.mapError fun message => ⟨code, message, pointer⟩

/-- The part of `compile_node` before the builder is touched. -/
def resolveNode (registry : NodeRegistry) (node : NodeDocument) (index : ℕ) :
    Except GraphDiagnostic (NodeDescriptor × ConfigMap × NodeFactorySelection) := do
  let pointer := "/nodes/" ++ toString index
  let nodeId ← orDiag "MUXIVA-GRAPH-NODE-ID" (pointer ++ "/id")
    ((Name.new node.id).mapError identifierText)
  let nodeType ← orDiag "MUXIVA-GRAPH-NODE-TYPE" (pointer ++ "/node_type")
    ((Name.new node.nodeType).mapError descriptorNameText)
  let language ← orDiag "MUXIVA-GRAPH-NODE-LANGUAGE" (pointer ++ "/language")
    (match NodeLanguage.parse node.language with
      | some language => .ok language
      | none => .error "language must be one of rust, cpp, python, or typescript")
  let version ← orDiag "MUXIVA-GRAPH-FACTORY-VERSION" (pointer ++ "/factory_version")
    ((NodeFactoryVersion.new node.factoryVersion).mapError NodeFactoryVersionError.display)
  let config ← orDiag "MUXIVA-GRAPH-CONFIG-VALUE" (pointer ++ "/node_config")
    (configMapFromJsonObject node.nodeConfig)
  let descriptor ← orDiag "MUXIVA-GRAPH-REGISTRY" pointer
    (registry.descriptorFor nodeType language version nodeId)
  orDiag "MUXIVA-GRAPH-CONFIG" (pointer ++ "/node_config")
    (registry.validateConfig nodeType language version nodeId config)
  return (descriptor, config, ⟨language, version⟩)

/-- A compilation under way: the builder and the errors so far. -/
structure Compilation where
  builder : GraphBuilder
  errors : List GraphDiagnostic

namespace Compilation

def report (c : Compilation) (e : GraphDiagnostic) : Compilation :=
  { c with errors := c.errors ++ [e] }

/-- A builder call; when it fails the builder is as it was and the error is reported. -/
def call (c : Compilation) (code pointer : String)
    (r : Except GraphBuildError GraphBuilder) : Compilation × Bool :=
  match r with
  | .ok builder => ({ c with builder }, true)
  | .error e => (c.report ⟨code, e.display, pointer⟩, false)

/-- One turn of the loop over the nodes, with `compile_node` in it. -/
def compileNode (registry : NodeRegistry) (c : Compilation) (entry : NodeDocument × ℕ) :
    Compilation :=
  match resolveNode registry entry.1 entry.2 with
  | .error e => c.report e
  | .ok (descriptor, config, factory) =>
    let pointer := "/nodes/" ++ toString entry.2
    let (c, added) := c.call "MUXIVA-GRAPH-NODE" pointer (c.builder.addNode descriptor)
    if !added then c
    else
      let (c, configured) :=
        c.call "MUXIVA-GRAPH-NODE" pointer (c.builder.setConfig descriptor.nodeId config)
      if !configured then c
      else (c.call "MUXIVA-GRAPH-NODE" pointer
        (c.builder.setFactory descriptor.nodeId factory)).1

end Compilation

def parseFrameType : String → Option FrameType
  | "audio" => some .audio
  | "video" => some .video
  | "text" => some .text
  | "byte" => some .byte
  | "signal" => some .signal
  | "event" => some .event
  | _ => none

def parseOverflow : String → Option QueueOverflowPolicy
  | "block" => some .block
  | "drop_oldest" => some .dropOldest
  | "drop_newest" => some .dropNewest
  | "abort" => some .abort
  | _ => none

def okOr {α : Type} (message : String) : Option α → Except String α
  | some a => .ok a
  | none => .error message

def edgeDescriptor (edge : EdgeDocument) : Except String EdgeDescriptor := do
  let frameType ← okOr "unknown frame_type" (parseFrameType edge.frameType)
  let overflow ← okOr "unknown queue overflow" (parseOverflow edge.queuePolicy.overflow)
  let queuePolicy ← okOr "queue capacity must be nonzero"
    (if h : 0 < edge.queuePolicy.capacity.toNat then
      some (⟨edge.queuePolicy.capacity.toNat, overflow, h⟩ : QueuePolicy)
    else none)
  return {
    edgeId := ← (Name.new edge.id).mapError identifierText
    fromNodeId := ← (Name.new edge.source.nodeId).mapError identifierText
    fromOutputPort := ← (Name.new edge.source.port).mapError descriptorNameText
    toNodeId := ← (Name.new edge.target.nodeId).mapError identifierText
    toInputPort := ← (Name.new edge.target.port).mapError descriptorNameText
    frameType
    queuePolicy
    validationPolicy := .typeGateOnly
    transformPolicy := .identity
    enabled := .always
    visibility := ⟨.publicLevel, []⟩ }

/-- One turn of the loop over the edges. -/
def Compilation.compileEdge (c : Compilation) (entry : EdgeDocument × ℕ) : Compilation :=
  let pointer := "/edges/" ++ toString entry.2
  match edgeDescriptor entry.1 with
  | .error message => c.report ⟨"MUXIVA-GRAPH-EDGE", message, pointer⟩
  | .ok descriptor => (c.call "MUXIVA-GRAPH-EDGE" pointer (c.builder.connect descriptor)).1

/-- How a compilation ends without a graph. -/
inductive CompileHalt where
  | diagnostics (errors : List GraphDiagnostic)
  | panicked (message : String)
  deriving DecidableEq

def compileWithRegistry (document : GraphDocument) (registry : NodeRegistry) :
    Except CompileHalt GraphDefinition :=
  match Name.new document.graphId with
  | .error e => .error (.diagnostics [⟨"MUXIVA-GRAPH-ID", identifierText e, "/graph_id"⟩])
  | .ok graphId =>
    let c : Compilation := ⟨.withGraphId graphId, []⟩
    let c := document.nodes.zipIdx.foldl (Compilation.compileNode registry) c
    let c := document.edges.zipIdx.foldl Compilation.compileEdge c
    if c.errors.isEmpty then
      c.builder.build.mapError fun
        | .failed e => .diagnostics [⟨"MUXIVA-GRAPH-BUILD", e.display, ""⟩]
        | .panicked message => .panicked message
    else .error (.diagnostics c.errors)

/-- Every descriptor added, then every edge connected, then built; the first failure ends it. -/
def assemble (graphId : GraphId) (descriptors : List NodeDescriptor)
    (edges : List EdgeDescriptor) : Except Halt GraphDefinition := do
  let b ← (descriptors.foldlM GraphBuilder.addNode (.withGraphId graphId)).mapError .failed
  let b ← (edges.foldlM GraphBuilder.connect b).mapError .failed
  b.build

end Muxiva.Build
