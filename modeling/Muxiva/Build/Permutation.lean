import Muxiva.Build.Document
import Muxiva.Build.Order

/-! A graph does not depend on the order in which its nodes are listed, nor on that of its
edges. -/
set_option linter.all false
namespace Muxiva.Build

section Attempts
variable {σ α β ε δ : Type}

/-- A fallible step after steps that may have failed. -/
def attempt (f : σ → α → Option σ) (o : Option σ) (a : α) : Option σ := o.bind (f · a)

/-- A failed step stays failed. -/
theorem foldl_attempt_none {f : σ → α → Option σ} (xs : List α) :
    xs.foldl (attempt f) none = none := by
  induction xs with
  | nil => rfl
  | cons x xs ih => exact ih

/-- Steps that commute are taken in any order. -/
theorem foldl_attempt_perm {f : σ → α → Option σ} {xs ys : List α} (h : xs.Perm ys)
    (hcomm : ∀ s a b, (f s a).bind (f · b) = (f s b).bind (f · a)) (o : Option σ) :
    xs.foldl (attempt f) o = ys.foldl (attempt f) o := by
  apply h.foldl_eq'
  intro a _ b _ o
  cases o with
  | none => rfl
  | some s => exact hcomm s a b

theorem toOption_bind (x : Except ε α) (f : α → Except ε β) :
    (x >>= f).toOption = x.toOption.bind fun a => (f a).toOption := by
  cases x with
  | error e => rfl
  | ok a => rfl

theorem toOption_mapError (x : Except ε α) (f : ε → δ) : (x.mapError f).toOption = x.toOption := by
  cases x with
  | error e => rfl
  | ok a => rfl

theorem toOption_foldlM (f : σ → α → Except ε σ) (xs : List α) (s : σ) :
    (xs.foldlM f s).toOption = xs.foldl (attempt fun s a => (f s a).toOption) (some s) := by
  induction xs generalizing s with
  | nil => rfl
  | cons x xs ih =>
    rw [List.foldlM_cons, List.foldl_cons, toOption_bind]
    simp only [attempt, Option.bind_some]
    cases f s x with
    | ok t => exact ih t
    | error e => exact (foldl_attempt_none xs).symm

/-- Both succeed with one value, or both fail. -/
def SameOutcome (x y : Except ε α) : Prop :=
  (∃ a, x = .ok a ∧ y = .ok a) ∨ ∃ e e' : ε, x = .error e ∧ y = .error e'

theorem sameOutcome_of_toOption {x y : Except ε α} (h : x.toOption = y.toOption) :
    SameOutcome x y := by
  cases x with
  | error e =>
    cases y with
    | error e' => exact .inr ⟨e, e', rfl, rfl⟩
    | ok b => cases h
  | ok a =>
    cases y with
    | error e' => cases h
    | ok b =>
      cases h
      exact .inl ⟨a, rfl, rfl⟩

end Attempts

namespace GraphBuilder

/-- A node put in with its configuration and factory. -/
def enter (b : GraphBuilder) (n : NodeDefinition) : Option GraphBuilder :=
  if (validateNodeDescriptor n.descriptor).isOk ∧ b.nodes.get? n.descriptor.nodeId = none then
    some { b with nodes := b.nodes.insert n.descriptor.nodeId n }
  else none

variable {b : GraphBuilder}

theorem isOk_iff {ε : Type} {x : Except ε Unit} : x.isOk ↔ x = .ok () := by
  cases x with
  | error e => simp [Except.isOk, Except.toBool]
  | ok u => simp [Except.isOk, Except.toBool]

theorem toOption_addNode (d : NodeDescriptor) :
    (b.addNode d).toOption = b.enter ⟨d, .empty, none⟩ := by
  unfold enter
  split
  · rename_i h
    have hok : b.addNode d = .ok { b with nodes := b.nodes.insert d.nodeId ⟨d, .empty, none⟩ } :=
      addNode_eq_ok.mpr ⟨isOk_iff.mp h.1, h.2, rfl⟩
    rw [hok]
    rfl
  · rename_i h
    cases hadd : b.addNode d with
    | error e => rfl
    | ok c =>
      obtain ⟨hvalid, hnew, -⟩ := addNode_eq_ok.mp hadd
      exact absurd ⟨isOk_iff.mpr hvalid, hnew⟩ h

theorem enter_comm (m n : NodeDefinition) :
    (b.enter m).bind (enter · n) = (b.enter n).bind (enter · m) := by
  by_cases hid : m.descriptor.nodeId = n.descriptor.nodeId
  · have hsame (x y : NodeDefinition) (h : x.descriptor.nodeId = y.descriptor.nodeId) :
        (b.enter x).bind (enter · y) = none := by
      unfold enter
      split
      · simp [h]
      · rfl
    rw [hsame m n hid, hsame n m hid.symm]
  · have hid' : ¬ n.descriptor.nodeId = m.descriptor.nodeId := fun h => hid h.symm
    by_cases hm : (validateNodeDescriptor m.descriptor).isOk ∧
        b.nodes.get? m.descriptor.nodeId = none <;>
      by_cases hn : (validateNodeDescriptor n.descriptor).isOk ∧
        b.nodes.get? n.descriptor.nodeId = none <;>
      simp [enter, hm, hn, hid, hid', SortedMap.insert_insert_comm _ hid]

/-- An edge that passes its checks goes in under its id. -/
theorem toOption_connect (e : EdgeDescriptor) : (b.connect e).toOption =
    if b.edges.get? e.edgeId = none ∧ (validateEdge b.nodes e).isOk then
      some { b with edges := b.edges.insert e.edgeId e }
    else none := by
  split
  · rename_i h
    have hok : b.connect e = .ok { b with edges := b.edges.insert e.edgeId e } :=
      connect_eq_ok.mpr ⟨h.1, isOk_iff.mp h.2, rfl⟩
    rw [hok]
    rfl
  · rename_i h
    cases hconnect : b.connect e with
    | error x => rfl
    | ok c =>
      obtain ⟨hnew, hvalid, -⟩ := connect_eq_ok.mp hconnect
      exact absurd ⟨hnew, isOk_iff.mpr hvalid⟩ h

theorem connect_comm (d e : EdgeDescriptor) :
    ((b.connect d).toOption).bind (fun c => (c.connect e).toOption) =
      ((b.connect e).toOption).bind (fun c => (c.connect d).toOption) := by
  simp only [toOption_connect]
  by_cases hid : d.edgeId = e.edgeId
  · have hsame (x y : EdgeDescriptor) (h : x.edgeId = y.edgeId) :
        (if b.edges.get? x.edgeId = none ∧ (validateEdge b.nodes x).isOk then
          some { b with edges := b.edges.insert x.edgeId x } else none).bind
          (fun c => if c.edges.get? y.edgeId = none ∧ (validateEdge c.nodes y).isOk then
            some { c with edges := c.edges.insert y.edgeId y } else none) = none := by
      split
      · simp [h]
      · rfl
    rw [hsame d e hid, hsame e d hid.symm]
  · have hid' : ¬ e.edgeId = d.edgeId := fun h => hid h.symm
    by_cases hd : b.edges.get? d.edgeId = none ∧ (validateEdge b.nodes d).isOk <;>
      by_cases he : b.edges.get? e.edgeId = none ∧ (validateEdge b.nodes e).isOk <;>
      simp [hd, he, hid, hid', SortedMap.insert_insert_comm _ hid]

end GraphBuilder

open GraphBuilder

/-- The builder after every descriptor and every edge, if no call fails. -/
def assembled (graphId : GraphId) (descriptors : List NodeDescriptor)
    (edges : List EdgeDescriptor) : Option GraphBuilder :=
  edges.foldl (attempt fun b e => (connect b e).toOption)
    (descriptors.foldl (attempt fun b d => (addNode b d).toOption) (some (withGraphId graphId)))

theorem toOption_assemble (graphId : GraphId) (descriptors : List NodeDescriptor)
    (edges : List EdgeDescriptor) : (assemble graphId descriptors edges).toOption =
      (assembled graphId descriptors edges).bind fun b => b.build.toOption := by
  unfold assemble assembled
  simp only [toOption_bind, toOption_mapError, toOption_foldlM]
  cases descriptors.foldl (attempt fun b d => (addNode b d).toOption)
      (some (withGraphId graphId)) with
  | none => rw [foldl_attempt_none, Option.bind_none, Option.bind_none]
  | some b => rfl

theorem assembled_perm {graphId : GraphId} {ds ds' : List NodeDescriptor}
    {es es' : List EdgeDescriptor} (hd : ds.Perm ds') (he : es.Perm es') :
    assembled graphId ds es = assembled graphId ds' es' := by
  unfold assembled
  have hadd : ∀ (b : GraphBuilder) (c d : NodeDescriptor),
      ((b.addNode c).toOption).bind (fun b => (addNode b d).toOption) =
        ((b.addNode d).toOption).bind (fun b => (addNode b c).toOption) := by
    intro b c d
    simp only [toOption_addNode]
    exact enter_comm _ _
  rw [foldl_attempt_perm hd hadd, foldl_attempt_perm he fun b => connect_comm]

namespace Compilation
variable {registry : NodeRegistry}

/-- The builder of a compilation without errors. -/
def outcome (c : Compilation) : Option GraphBuilder :=
  if c.errors = [] then some c.builder else none

@[simp] theorem outcome_report (c : Compilation) (e : GraphDiagnostic) :
    (c.report e).outcome = none := by
  simp [outcome, report]

end Compilation

theorem toOption_orDiag {α : Type} (code pointer : String) (r : Except String α) :
    (orDiag code pointer r).toOption = r.toOption :=
  toOption_mapError r _

/-- What a node of a document stands for; its index only places the diagnostics. -/
theorem toOption_resolveNode (registry : NodeRegistry) (node : NodeDocument) (i j : ℕ) :
    (resolveNode registry node i).toOption = (resolveNode registry node j).toOption := by
  simp only [resolveNode, toOption_bind, toOption_orDiag]

/-- The definition a node of a document stands for. -/
def resolved (registry : NodeRegistry) (node : NodeDocument) : Option NodeDefinition :=
  (resolveNode registry node 0).toOption.map fun r => ⟨r.1, r.2.1, some r.2.2⟩

/-- A node of a document put into the builder. -/
def enterDocument (registry : NodeRegistry) (b : GraphBuilder) (node : NodeDocument) :
    Option GraphBuilder :=
  (resolved registry node).bind b.enter

/-- An edge of a document put into the builder. -/
def connectDocument (b : GraphBuilder) (edge : EdgeDocument) : Option GraphBuilder :=
  (edgeDescriptor edge).toOption.bind fun e => (b.connect e).toOption

/-- The calls of `compile_node` on the builder put one definition in. -/
theorem enter_configured {b c : GraphBuilder} {d : NodeDescriptor} (config : ConfigMap)
    (factory : NodeFactorySelection) (h : b.addNode d = .ok c) :
    ∃ c2 c3, c.setConfig d.nodeId config = .ok c2 ∧ c2.setFactory d.nodeId factory = .ok c3 ∧
      b.enter ⟨d, config, some factory⟩ = some c3 := by
  obtain ⟨hvalid, hnew, rfl⟩ := addNode_eq_ok.mp h
  refine ⟨{ b with nodes := b.nodes.insert d.nodeId ⟨d, config, none⟩ },
    { b with nodes := b.nodes.insert d.nodeId ⟨d, config, some factory⟩ }, ?_, ?_, ?_⟩
  · simp [setConfig, SortedMap.insert_insert_same]
  · simp [setFactory, SortedMap.insert_insert_same]
  · simp [enter, isOk_iff.mpr hvalid, hnew]

theorem enter_eq_none {b : GraphBuilder} {d : NodeDescriptor} {e : GraphBuildError}
    (config : ConfigMap) (factory : Option NodeFactorySelection) (h : b.addNode d = .error e) :
    b.enter ⟨d, config, factory⟩ = none := by
  have hnone : b.enter ⟨d, .empty, none⟩ = none := by
    rw [← toOption_addNode, h]
    rfl
  unfold enter at hnone ⊢
  split
  · rename_i hvalid
    rw [if_pos hvalid] at hnone
    cases hnone
  · rfl

namespace Compilation
variable {registry : NodeRegistry} {c : Compilation}

theorem errors_call_ne (h : c.errors ≠ []) (code pointer : String)
    (r : Except GraphBuildError GraphBuilder) : (c.call code pointer r).1.errors ≠ [] := by
  cases r with
  | ok b => exact h
  | error e => simp [call, report]

theorem errors_compileNode_ne (h : c.errors ≠ []) (entry : NodeDocument × ℕ) :
    (c.compileNode registry entry).errors ≠ [] := by
  unfold compileNode
  split
  · simp [report]
  · dsimp only
    split
    · exact errors_call_ne h _ _ _
    · split
      · exact errors_call_ne (errors_call_ne h _ _ _) _ _ _
      · exact errors_call_ne (errors_call_ne (errors_call_ne h _ _ _) _ _ _) _ _ _

theorem errors_compileEdge_ne (h : c.errors ≠ []) (entry : EdgeDocument × ℕ) :
    (c.compileEdge entry).errors ≠ [] := by
  unfold compileEdge
  dsimp only
  split
  · simp [report]
  · exact errors_call_ne h _ _ _

theorem outcome_of_errors (h : c.errors ≠ []) : c.outcome = none := if_neg h

theorem outcome_compileNode (c : Compilation) (entry : NodeDocument × ℕ) :
    (c.compileNode registry entry).outcome =
      c.outcome.bind (enterDocument registry · entry.1) := by
  by_cases herrors : c.errors = []
  · have hstart : c.outcome = some c.builder := if_pos herrors
    have hresolved : resolved registry entry.1 = (resolveNode registry entry.1 entry.2).toOption.map
        fun r => ⟨r.1, r.2.1, some r.2.2⟩ := by
      rw [resolved, toOption_resolveNode registry entry.1 0 entry.2]
    rw [hstart, Option.bind_some, enterDocument, hresolved]
    unfold compileNode
    cases hr : resolveNode registry entry.1 entry.2 with
    | error e => exact outcome_report c e
    | ok r =>
      obtain ⟨d, config, factory⟩ := r
      simp only [Except.toOption, Option.map_some, Option.bind_some]
      cases hadd : c.builder.addNode d with
      | error e =>
        rw [enter_eq_none config (some factory) hadd]
        exact outcome_report c _
      | ok b =>
        obtain ⟨b2, b3, hconfig, hfactory, henter⟩ := enter_configured config factory hadd
        rw [henter]
        simp [call, hconfig, hfactory, outcome, herrors]
  · rw [outcome_of_errors herrors, outcome_of_errors (errors_compileNode_ne herrors entry)]
    rfl

theorem outcome_compileEdge (c : Compilation) (entry : EdgeDocument × ℕ) :
    (c.compileEdge entry).outcome = c.outcome.bind (connectDocument · entry.1) := by
  by_cases herrors : c.errors = []
  · have hstart : c.outcome = some c.builder := if_pos herrors
    rw [hstart, Option.bind_some, connectDocument]
    unfold compileEdge
    cases hd : edgeDescriptor entry.1 with
    | error message => exact outcome_report c _
    | ok d =>
      simp only [Except.toOption, Option.bind_some]
      cases hconnect : c.builder.connect d with
      | error e => exact outcome_report c _
      | ok b => simp [call, outcome, herrors]
  · rw [outcome_of_errors herrors, outcome_of_errors (errors_compileEdge_ne herrors entry)]
    rfl

/-- A loop over an indexed list, seen through its outcome. -/
theorem outcome_foldl {α : Type} {step : Compilation → α × ℕ → Compilation}
    {f : GraphBuilder → α → Option GraphBuilder}
    (h : ∀ c entry, (step c entry).outcome = c.outcome.bind (f · entry.1)) (xs : List α) (i : ℕ)
    (c : Compilation) :
    ((xs.zipIdx i).foldl step c).outcome = xs.foldl (attempt f) c.outcome := by
  induction xs generalizing i c with
  | nil => rfl
  | cons x xs ih =>
    rw [List.zipIdx_cons, List.foldl_cons, List.foldl_cons, ih, h]
    rfl

end Compilation

/-- The builder after every node and every edge of a document, if nothing fails. -/
def compiled (registry : NodeRegistry) (graphId : GraphId) (nodes : List NodeDocument)
    (edges : List EdgeDocument) : Option GraphBuilder :=
  edges.foldl (attempt connectDocument)
    (nodes.foldl (attempt (enterDocument registry)) (some (withGraphId graphId)))

theorem toOption_compileWithRegistry (document : GraphDocument) (registry : NodeRegistry) :
    (compileWithRegistry document registry).toOption =
      (Name.new document.graphId).toOption.bind fun graphId =>
        (compiled registry graphId document.nodes document.edges).bind fun b =>
          b.build.toOption := by
  unfold compileWithRegistry
  cases Name.new document.graphId with
  | error e => rfl
  | ok graphId =>
    have hcompiled := Compilation.outcome_foldl Compilation.outcome_compileEdge document.edges 0
      (document.nodes.zipIdx.foldl (Compilation.compileNode registry) ⟨withGraphId graphId, []⟩)
    rw [Compilation.outcome_foldl Compilation.outcome_compileNode] at hcompiled
    have hstart : (⟨withGraphId graphId, []⟩ : Compilation).outcome =
        some (withGraphId graphId) := rfl
    have hok : (Except.ok graphId : Except NameError Name).toOption = some graphId := rfl
    rw [hok, Option.bind_some, compiled, ← hstart, ← hcompiled]
    dsimp only
    generalize document.edges.zipIdx.foldl Compilation.compileEdge
      (document.nodes.zipIdx.foldl (Compilation.compileNode registry)
        ⟨withGraphId graphId, []⟩) = c
    unfold Compilation.outcome
    by_cases herrors : c.errors = []
    · rw [if_pos herrors, if_pos (by simp [herrors]), Option.bind_some, toOption_mapError]
    · rw [if_neg herrors, if_neg (by simpa using herrors)]
      rfl

theorem compiled_perm {registry : NodeRegistry} {graphId : GraphId} {ns ns' : List NodeDocument}
    {es es' : List EdgeDocument} (hn : ns.Perm ns') (he : es.Perm es') :
    compiled registry graphId ns es = compiled registry graphId ns' es' := by
  unfold compiled
  have henter : ∀ b m n, (enterDocument registry b m).bind (enterDocument registry · n) =
      (enterDocument registry b n).bind (enterDocument registry · m) := by
    intro b m n
    unfold enterDocument
    cases resolved registry m with
    | none => cases resolved registry n <;> simp
    | some m =>
      cases resolved registry n with
      | none => simp
      | some n => exact enter_comm m n
  have hconnect : ∀ b d e, (connectDocument b d).bind (connectDocument · e) =
      (connectDocument b e).bind (connectDocument · d) := by
    intro b d e
    unfold connectDocument
    cases (edgeDescriptor d).toOption with
    | none => cases (edgeDescriptor e).toOption <;> simp
    | some d =>
      cases (edgeDescriptor e).toOption with
      | none => simp
      | some e => exact connect_comm d e
  rw [foldl_attempt_perm hn henter, foldl_attempt_perm he hconnect]

/-- Listing the nodes or the edges in another order gives the same graph, or fails as well:
for documents, and for the calls on a builder. -/
theorem compile_perm :
    (∀ (registry : NodeRegistry) (document : GraphDocument) (ns : List NodeDocument)
      (es : List EdgeDocument), document.nodes.Perm ns → document.edges.Perm es →
      SameOutcome (compileWithRegistry document registry)
        (compileWithRegistry { document with nodes := ns, edges := es } registry)) ∧
    ∀ (graphId : GraphId) (ds ds' : List NodeDescriptor) (es es' : List EdgeDescriptor),
      ds.Perm ds' → es.Perm es' →
      SameOutcome (assemble graphId ds es) (assemble graphId ds' es') := by
  constructor
  · intro registry document ns es hn he
    apply sameOutcome_of_toOption
    simp only [toOption_compileWithRegistry, compiled_perm hn he]
  · intro graphId ds ds' es es' hd he
    apply sameOutcome_of_toOption
    rw [toOption_assemble, toOption_assemble, assembled_perm hd he]

/-- One factory under every name. -/
def relayRegistry : NodeRegistry := fun _ _ _ => some ⟨relayNode nameA, fun _ => .accepted⟩

def relayDocument (id : String) : NodeDocument := ⟨id, "relay", "rust", "1.0.0", []⟩

def relayEdgeDocument (id source target : String) : EdgeDocument :=
  ⟨id, ⟨source, "b"⟩, ⟨target, "a"⟩, "text", ⟨8, "block"⟩⟩

def forkDocument : GraphDocument where
  version := "muxiva.graph/v1"
  graphId := "fork"
  nodes := [relayDocument "z", relayDocument "x", relayDocument "y"]
  edges := [relayEdgeDocument "f" "z" "x", relayEdgeDocument "e" "z" "y"]

theorem compile_perm_fork : (compileWithRegistry forkDocument relayRegistry).isOk ∧
    SameOutcome (compileWithRegistry forkDocument relayRegistry)
      (compileWithRegistry { forkDocument with
        nodes := forkDocument.nodes.reverse, edges := forkDocument.edges.reverse }
        relayRegistry) :=
  ⟨by decide +kernel, compile_perm.1 relayRegistry forkDocument _ _
    (List.reverse_perm _).symm (List.reverse_perm _).symm⟩

end Muxiva.Build
