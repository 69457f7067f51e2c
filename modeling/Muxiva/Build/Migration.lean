import Muxiva.Build.Document

/-! `parse` behind its JSON reader, and the migration of documents that older releases wrote. -/
set_option linter.all false
namespace Muxiva.Build

/-- The arms of `canonical_node_type` that rename. -/
def renamedNodeTypes : List (String × String) :=
  [("provider.agora.audio_source", "agora.audio_source"),
    ("provider.agora.audio_sink", "agora.audio_sink"),
    ("provider.qwen.audio_realtime", "qwen.audio_realtime"),
    ("provider.qwen.asr_realtime", "qwen.asr_realtime"),
    ("provider.qwen.llm_stream", "qwen.llm_stream"),
    ("provider.qwen.tts_realtime", "qwen.tts_realtime"),
    ("builtin.audio_resample", "builtin.audio_resampler")]

def canonicalNodeType (nodeType : String) : String :=
  (renamedNodeTypes.lookup nodeType).getD nodeType

def legacyAudioSource : String := "provider.agora.audio_source"

/-- One turn of the loop over the nodes. -/
def NodeDocument.migrate (node : NodeDocument) : NodeDocument :=
  if node.nodeType = legacyAudioSource then
    { node with nodeType := canonicalNodeType node.nodeType, factoryVersion := "1.1.0" }
  else { node with nodeType := canonicalNodeType node.nodeType }

namespace GraphDocument

variable (document : GraphDocument)

/-- The identifiers that the loop collects. -/
def migratedAgoraSources : List String :=
  (document.nodes.filter (·.nodeType = legacyAudioSource)).map (·.id)

/-- The edges that drove these sources are dropped. -/
def retainedEdges : List EdgeDocument :=
  document.edges.filter fun edge =>
    !(document.migratedAgoraSources.contains edge.target.nodeId && edge.target.port = "tick_in")

def referenced : List String :=
  document.retainedEdges.flatMap fun edge => [edge.source.nodeId, edge.target.nodeId]

def migrateLegacyNodeNames : GraphDocument :=
  let nodes := document.nodes.map NodeDocument.migrate
  if document.migratedAgoraSources.isEmpty then { document with nodes }
  else { document with
    edges := document.retainedEdges
    nodes := nodes.filter fun node =>
      node.nodeType ≠ "builtin.interval_tick" || document.referenced.contains node.id }

end GraphDocument

def maxDocumentBytes : ℕ := 2 ^ 20

/-- `parse`; `fromStr` is `serde_json::from_str`, with the text of its error. -/
def parse (fromStr : String → Except String GraphDocument) (input : String) :
    Except GraphDiagnostic GraphDocument :=
  if maxDocumentBytes < input.utf8ByteSize then
    .error ⟨"MUXIVA-GRAPH-SIZE", "graph document exceeds 1 MiB", ""⟩
  else
    match fromStr input with
    | .error message => .error ⟨"MUXIVA-GRAPH-JSON", message, ""⟩
    | .ok document =>
      let document := document.migrateLegacyNodeNames
      if document.version ≠ "muxiva.graph/v1" then
        .error ⟨"MUXIVA-GRAPH-VERSION", "expected muxiva.graph/v1", "/version"⟩
      else if 1024 < document.nodes.length ∨ 4096 < document.edges.length then
        .error ⟨"MUXIVA-GRAPH-LIMIT", "node or edge limit exceeded", ""⟩
      else .ok document

theorem mem_renamed {nodeType renamed : String} (h : renamedNodeTypes.lookup nodeType = some renamed) :
    (nodeType, renamed) ∈ renamedNodeTypes := by
  obtain ⟨before, behind, hsplit, -⟩ := List.lookup_eq_some_iff.mp h
  rw [hsplit]
  simp

/-- No new name is an old one. -/
theorem canonicalNodeType_canonical (nodeType : String) :
    canonicalNodeType (canonicalNodeType nodeType) = canonicalNodeType nodeType := by
  have hnew : ∀ entry ∈ renamedNodeTypes, renamedNodeTypes.lookup entry.2 = none := by decide
  unfold canonicalNodeType
  cases hlookup : renamedNodeTypes.lookup nodeType with
  | none => rw [Option.getD_none, hlookup, Option.getD_none]
  | some renamed =>
    rw [Option.getD_some, hnew _ (mem_renamed hlookup), Option.getD_none]

theorem canonicalNodeType_ne_legacy (nodeType : String) :
    canonicalNodeType nodeType ≠ legacyAudioSource := by
  intro heq
  have hstable := canonicalNodeType_canonical nodeType
  rw [heq] at hstable
  exact absurd hstable (by decide)

/-- Nothing is renamed to a tick. -/
theorem canonicalNodeType_eq_tick {nodeType : String} :
    canonicalNodeType nodeType = "builtin.interval_tick" ↔ nodeType = "builtin.interval_tick" := by
  have hnew : ∀ entry ∈ renamedNodeTypes, entry.2 ≠ "builtin.interval_tick" := by decide
  constructor
  · intro h
    unfold canonicalNodeType at h
    cases hlookup : renamedNodeTypes.lookup nodeType with
    | none => rwa [hlookup, Option.getD_none] at h
    | some renamed =>
      rw [hlookup, Option.getD_some] at h
      exact absurd h (hnew _ (mem_renamed hlookup))
  · rintro rfl
    decide

namespace NodeDocument

variable (node : NodeDocument)

@[simp]
theorem migrate_id : node.migrate.id = node.id := by
  unfold migrate
  split_ifs <;> rfl

@[simp]
theorem migrate_nodeType : node.migrate.nodeType = canonicalNodeType node.nodeType := by
  unfold migrate
  split_ifs <;> rfl

theorem migrate_current (h : node.nodeType ≠ legacyAudioSource) :
    node.migrate = { node with nodeType := canonicalNodeType node.nodeType } := if_neg h

theorem migrate_migrate : node.migrate.migrate = node.migrate := by
  have hne : node.migrate.nodeType ≠ legacyAudioSource := by
    rw [migrate_nodeType]
    exact canonicalNodeType_ne_legacy _
  have hsame : canonicalNodeType node.migrate.nodeType = node.migrate.nodeType := by
    rw [migrate_nodeType, canonicalNodeType_canonical]
  rw [migrate_current _ hne, hsame]

end NodeDocument

namespace GraphDocument

variable {document : GraphDocument}

theorem sources_eq_nil (h : ∀ node ∈ document.nodes, node.nodeType ≠ legacyAudioSource) :
    document.migratedAgoraSources = [] := by
  unfold migratedAgoraSources
  rw [List.map_eq_nil_iff, List.filter_eq_nil_iff]
  intro node hnode
  simpa using h node hnode

/-- Without a legacy source the nodes are renamed and no more. -/
theorem migrate_current (h : ∀ node ∈ document.nodes, node.nodeType ≠ legacyAudioSource) :
    document.migrateLegacyNodeNames =
      { document with
        nodes := document.nodes.map fun node =>
          { node with nodeType := canonicalNodeType node.nodeType } } := by
  have hnodes : document.nodes.map NodeDocument.migrate = document.nodes.map fun node =>
      { node with nodeType := canonicalNodeType node.nodeType } :=
    List.map_congr_left fun node hnode => node.migrate_current (h node hnode)
  unfold migrateLegacyNodeNames
  rw [sources_eq_nil h, ← hnodes]
  rfl

/-- The nodes that stay. -/
def keeps (document : GraphDocument) (node : NodeDocument) : Bool :=
  document.migratedAgoraSources.isEmpty || node.nodeType ≠ "builtin.interval_tick" ||
    document.referenced.contains node.id

theorem migrate_nodes : document.migrateLegacyNodeNames.nodes =
    (document.nodes.filter document.keeps).map NodeDocument.migrate := by
  unfold migrateLegacyNodeNames keeps
  dsimp only
  split_ifs with hempty
  · simp [hempty]
  · rw [List.filter_map]
    simp only [Function.comp_def, NodeDocument.migrate_nodeType, NodeDocument.migrate_id, hempty,
      ne_eq, canonicalNodeType_eq_tick, Bool.false_or]

theorem migrate_edges : document.migrateLegacyNodeNames.edges =
    if document.migratedAgoraSources.isEmpty then document.edges else document.retainedEdges := by
  unfold migrateLegacyNodeNames
  dsimp only
  split_ifs <;> rfl

theorem edges_sublist : document.migrateLegacyNodeNames.edges.Sublist document.edges := by
  rw [migrate_edges]
  split_ifs
  · exact List.Sublist.refl _
  · exact List.filter_sublist

/-- An end of an edge that is left keeps its node. -/
theorem keeps_endpoint {edge : EdgeDocument} (hedge : edge ∈ document.migrateLegacyNodeNames.edges)
    {id : String} (hid : id = edge.source.nodeId ∨ id = edge.target.nodeId)
    (hnode : id ∈ document.nodes.map (·.id)) :
    id ∈ document.migrateLegacyNodeNames.nodes.map (·.id) := by
  obtain ⟨node, hmem, rfl⟩ := List.mem_map.mp hnode
  have hkeeps : document.keeps node = true := by
    unfold keeps
    rw [migrate_edges] at hedge
    split_ifs at hedge with hempty
    · rw [hempty]
      rfl
    · have hreferenced : node.id ∈ document.referenced := by
        refine List.mem_flatMap.mpr ⟨edge, hedge, ?_⟩
        simpa using hid
      rw [List.contains_iff_mem.mpr hreferenced, Bool.or_true]
  rw [migrate_nodes]
  have hmigrated : node.migrate ∈ (document.nodes.filter document.keeps).map NodeDocument.migrate :=
    List.mem_map_of_mem (List.mem_filter.mpr ⟨hmem, hkeeps⟩)
  have hout := List.mem_map_of_mem (f := fun node : NodeDocument => node.id) hmigrated
  rwa [NodeDocument.migrate_id] at hout

theorem dropped_tick {node : NodeDocument} (h : document.keeps node = false) :
    node.nodeType = "builtin.interval_tick" ∧
      ∀ edge ∈ document.migrateLegacyNodeNames.edges,
        edge.source.nodeId ≠ node.id ∧ edge.target.nodeId ≠ node.id := by
  unfold keeps at h
  simp only [Bool.or_eq_false_iff, decide_eq_false_iff_not, ne_eq, not_not] at h
  obtain ⟨⟨hempty, htick⟩, hreferenced⟩ := h
  refine ⟨htick, fun edge hedge => ?_⟩
  rw [migrate_edges, hempty] at hedge
  have hnone : node.id ∉ document.referenced := by
    intro hmem
    rw [List.contains_iff_mem.mpr hmem] at hreferenced
    cases hreferenced
  have hends {id : String} (hid : id ∈ [edge.source.nodeId, edge.target.nodeId]) : id ≠ node.id := by
    rintro rfl
    exact hnone (List.mem_flatMap.mpr ⟨edge, hedge, hid⟩)
  exact ⟨hends (by simp), hends (by simp)⟩

theorem migrate_migrate :
    document.migrateLegacyNodeNames.migrateLegacyNodeNames = document.migrateLegacyNodeNames := by
  have hcurrent : ∀ node ∈ document.migrateLegacyNodeNames.nodes,
      node.nodeType ≠ legacyAudioSource := by
    intro node hnode
    rw [migrate_nodes] at hnode
    obtain ⟨before, -, rfl⟩ := List.mem_map.mp hnode
    rw [NodeDocument.migrate_nodeType]
    exact canonicalNodeType_ne_legacy _
  have hnodes : document.migrateLegacyNodeNames.nodes.map NodeDocument.migrate =
      document.migrateLegacyNodeNames.nodes := by
    rw [migrate_nodes, List.map_map]
    exact List.map_congr_left fun node _ => node.migrate_migrate
  generalize document.migrateLegacyNodeNames = migrated at hcurrent hnodes ⊢
  unfold migrateLegacyNodeNames
  rw [sources_eq_nil hcurrent, hnodes]
  rfl

end GraphDocument

/-- What is parsed is migrated. -/
theorem parse_migrated {fromStr : String → Except String GraphDocument} {input : String}
    {document : GraphDocument} (h : parse fromStr input = .ok document) :
    document.migrateLegacyNodeNames = document := by
  unfold parse at h
  split_ifs at h
  cases hread : fromStr input with
  | error message => simp [hread] at h
  | ok read =>
    rw [hread] at h
    dsimp only at h
    split_ifs at h
    obtain rfl := Except.ok.inj h
    exact GraphDocument.migrate_migrate

/-- Migration is idempotent, drops edges only, keeps the ends of those it leaves, drops no node but
ticks that nothing mentions, and renames only where there is no legacy source. -/
theorem migration_closed (document : GraphDocument) :
    document.migrateLegacyNodeNames.migrateLegacyNodeNames = document.migrateLegacyNodeNames ∧
      document.migrateLegacyNodeNames.edges.Sublist document.edges ∧
      (∀ edge ∈ document.migrateLegacyNodeNames.edges,
        edge.source.nodeId ∈ document.nodes.map (·.id) →
        edge.target.nodeId ∈ document.nodes.map (·.id) →
          edge.source.nodeId ∈ document.migrateLegacyNodeNames.nodes.map (·.id) ∧
            edge.target.nodeId ∈ document.migrateLegacyNodeNames.nodes.map (·.id)) ∧
      (∃ keeps : NodeDocument → Bool,
        document.migrateLegacyNodeNames.nodes =
            (document.nodes.filter keeps).map NodeDocument.migrate ∧
          ∀ node ∈ document.nodes, keeps node = false →
            node.nodeType = "builtin.interval_tick" ∧
              ∀ edge ∈ document.migrateLegacyNodeNames.edges,
                edge.source.nodeId ≠ node.id ∧ edge.target.nodeId ≠ node.id) ∧
      ((∀ node ∈ document.nodes, node.nodeType ≠ legacyAudioSource) →
        document.migrateLegacyNodeNames =
          { document with
            nodes := document.nodes.map fun node =>
              { node with nodeType := canonicalNodeType node.nodeType } }) := by
  refine ⟨GraphDocument.migrate_migrate, GraphDocument.edges_sublist, ?_, ?_,
    GraphDocument.migrate_current⟩
  · intro edge hedge hsource htarget
    exact ⟨GraphDocument.keeps_endpoint hedge (Or.inl rfl) hsource,
      GraphDocument.keeps_endpoint hedge (Or.inr rfl) htarget⟩
  · exact ⟨document.keeps, GraphDocument.migrate_nodes,
      fun node _ hdropped => GraphDocument.dropped_tick hdropped⟩

-- the tick that drove a legacy source goes with its edge
example : (GraphDocument.migrateLegacyNodeNames ⟨"muxiva.graph/v1", "g",
    [⟨"t", "builtin.interval_tick", "rust", "1.0.0", []⟩,
      ⟨"m", "provider.agora.audio_source", "rust", "1.0.0", []⟩],
    [⟨"e", ⟨"t", "tick_out"⟩, ⟨"m", "tick_in"⟩, "event", ⟨1, "block"⟩⟩]⟩).nodes.map
      (fun node => (node.nodeType, node.factoryVersion)) = [("agora.audio_source", "1.1.0")] := by
  decide

end Muxiva.Build
