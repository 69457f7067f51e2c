import Muxiva.Build.Order

/-! The builder under every sequence of calls, refused ones included: what it holds is well
typed, and a refused call has not touched it. -/
set_option linter.all false
namespace Muxiva.Build

namespace GraphBuilder

/-- A builder method: it works on the builder in place, and what it wrote before an error stays. -/
abbrev Method (α : Type) := ExceptT GraphBuildError (StateM GraphBuilder) α

/-- A method called on `b`: its answer and the builder afterwards. -/
def Method.runOn {α : Type} (m : Method α) (b : GraphBuilder) :
    Except GraphBuildError α × GraphBuilder :=
  m.run.run b

def check (r : Except GraphBuildError Unit) : Method Unit :=
  match r with
  | .ok u => pure u
  | .error e => throw e

/-- `GraphBuilder::add_node` on the builder it is called on. -/
def addNodeMut (d : NodeDescriptor) : Method Unit := do
  check (validateNodeDescriptor d)
  if (← get).nodes.contains d.nodeId then throw (.duplicateNode d.nodeId)
  modify fun b => { b with nodes := b.nodes.insert d.nodeId ⟨d, .empty, none⟩ }

def connectMut (edge : EdgeDescriptor) : Method Unit := do
  let source := edgeSource edge
  let target := edgeTarget edge
  if (← get).edges.contains edge.edgeId then throw (.duplicateEdge edge.edgeId source target)
  check (validateEdge (← get).nodes edge)
  modify fun b => { b with edges := b.edges.insert edge.edgeId edge }

/-- `nodes.get_mut(id)` with its error; the write through the reference replaces the entry. -/
def nodeMut (nodeId : NodeId) (missing : GraphBuildError) : Method NodeDefinition := do
  match (← get).nodes.get? nodeId with
  | none => throw missing
  | some node => return node

def setConfigMut (nodeId : NodeId) (config : ConfigMap) : Method Unit := do
  let node ← nodeMut nodeId (.configNodeMissing nodeId)
  modify fun b => { b with nodes := b.nodes.insert nodeId { node with config } }

def setFactoryMut (nodeId : NodeId) (factory : NodeFactorySelection) : Method Unit := do
  let node ← nodeMut nodeId (.factoryNodeMissing nodeId)
  modify fun b => { b with nodes := b.nodes.insert nodeId { node with factory := some factory } }

end GraphBuilder

def Call.method : Call → GraphBuilder.Method Unit
  | .addNode descriptor => GraphBuilder.addNodeMut descriptor
  | .connect edge => GraphBuilder.connectMut edge
  | .setConfig nodeId config => GraphBuilder.setConfigMut nodeId config
  | .setFactory nodeId factory => GraphBuilder.setFactoryMut nodeId factory

/-- A builder in use; `accepted` holds the calls that returned without an error. -/
structure Session where
  builder : GraphBuilder
  accepted : List Call

def Session.perform (s : Session) (call : Call) : Session :=
  let (answer, builder) := call.method.runOn s.builder
  ⟨builder, if answer.isOk then s.accepted ++ [call] else s.accepted⟩

def session (graphId : GraphId) (calls : List Call) : Session :=
  calls.foldl Session.perform ⟨.withGraphId graphId, []⟩

/-- The edge runs from an output port to an input port, all three of one frame type. -/
def Joined (nodes : SortedMap NodeId NodeDefinition) (edge : EdgeDescriptor) : Prop :=
  ∃ source target output input,
    nodes.get? edge.fromNodeId = some source ∧ nodes.get? edge.toNodeId = some target ∧
    (output ∈ source.descriptor.ports ∧ output.name = edge.fromOutputPort ∧
      output.direction = .output) ∧
    (input ∈ target.descriptor.ports ∧ input.name = edge.toInputPort ∧
      input.direction = .input) ∧
    output.frameType = input.frameType ∧ edge.frameType = output.frameType

/-- Configurations and factories are for nodes that are there. -/
def Call.Targets (nodes : SortedMap NodeId NodeDefinition) : Call → Prop
  | .setConfig nodeId _ => (nodes.get? nodeId).isSome
  | .setFactory nodeId _ => (nodes.get? nodeId).isSome
  | _ => True

namespace GraphBuilder

structure Integral (b : GraphBuilder) : Prop where
  joined : ∀ edgeId edge, b.edges.get? edgeId = some edge → Joined b.nodes edge
  nodeIds_nodup : (b.nodes.entries.map fun p => p.2.descriptor.nodeId).Nodup
  edgeIds_nodup : (b.edges.entries.map fun p => p.2.edgeId).Nodup

/-- No node is lost or gets another descriptor. -/
def Extends (b c : GraphBuilder) : Prop :=
  ∀ k n, b.nodes.get? k = some n → ∃ m, c.nodes.get? k = some m ∧ m.descriptor = n.descriptor

variable {b c : GraphBuilder}

theorem extends_insert {k : NodeId} {n : NodeDefinition}
    (h : ∀ old, b.nodes.get? k = some old → n.descriptor = old.descriptor) :
    Extends b { b with nodes := b.nodes.insert k n } := by
  intro k' m hm
  simp only [SortedMap.get?_insert]
  by_cases hk : k' = k
  · subst hk
    exact ⟨n, by simp, h m hm⟩
  · exact ⟨m, by simp [hk, hm], rfl⟩

theorem Extends.joined (h : Extends b c) {edge : EdgeDescriptor} (he : Joined b.nodes edge) :
    Joined c.nodes edge := by
  obtain ⟨source, target, output, input, hsource, htarget, houtput, hinput, htypes⟩ := he
  obtain ⟨source', hsource', hds⟩ := h _ _ hsource
  obtain ⟨target', htarget', hdt⟩ := h _ _ htarget
  refine ⟨source', target', output, input, hsource', htarget', ?_, ?_, htypes⟩
  · rw [hds]
    exact houtput
  · rw [hdt]
    exact hinput

theorem Extends.targets (h : Extends b c) {call : Call} (ht : call.Targets b.nodes) :
    call.Targets c.nodes := by
  have hsome : ∀ k, (b.nodes.get? k).isSome → (c.nodes.get? k).isSome := by
    intro k hk
    obtain ⟨n, hn⟩ := Option.isSome_iff_exists.mp hk
    obtain ⟨m, hm, -⟩ := h k n hn
    simp [hm]
  cases call with
  | setConfig nodeId config => exact hsome nodeId ht
  | setFactory nodeId factory => exact hsome nodeId ht
  | addNode d => trivial
  | connect edge => trivial

theorem findPort_ok {node : NodeDefinition} {name : PortName} {expected : PortDirection}
    {edge : EdgeDescriptor} {role : EndpointRole} {port : PortDescriptor}
    (h : findPort node name expected edge role = .ok port) :
    port ∈ node.descriptor.ports ∧ port.name = name ∧ port.direction = expected := by
  unfold findPort at h
  split at h
  · rename_i p hfind
    have hp : p = port := Except.ok.inj h
    subst hp
    have hprop := List.find?_some hfind
    simp only [decide_eq_true_eq] at hprop
    exact ⟨List.mem_of_find?_eq_some hfind, hprop⟩
  · dsimp only at h
    split at h <;> cases h

theorem validateEdge_joined {nodes : SortedMap NodeId NodeDefinition} {edge : EdgeDescriptor}
    (h : validateEdge nodes edge = .ok ()) : Joined nodes edge := by
  unfold validateEdge at h
  cases hsource : endpointNode nodes edge .source edge.fromNodeId with
  | error e => simp [hsource, bind, Except.bind] at h
  | ok source =>
    cases htarget : endpointNode nodes edge .target edge.toNodeId with
    | error e => simp [hsource, htarget, bind, Except.bind] at h
    | ok target =>
      cases houtput : findPort source edge.fromOutputPort .output edge .source with
      | error e => simp [hsource, htarget, houtput, bind, Except.bind] at h
      | ok output =>
        cases hinput : findPort target edge.toInputPort .input edge .target with
        | error e => simp [hsource, htarget, houtput, hinput, bind, Except.bind] at h
        | ok input =>
          simp only [hsource, htarget, houtput, hinput, bind, Except.bind] at h
          split_ifs at h with htypes
          push Not at htypes
          exact ⟨source, target, output, input, endpointNode_ok hsource, endpointNode_ok htarget,
            findPort_ok houtput, findPort_ok hinput, htypes.1, htypes.2.1⟩

/-- Everything an accepted call can do: it keeps the descriptors, and adds an edge only joined. -/
theorem apply_ok {call : Call} (h : call.apply b = .ok c) :
    Extends b c ∧ call.Targets c.nodes ∧
      ∀ edgeId edge, c.edges.get? edgeId = some edge →
        b.edges.get? edgeId = some edge ∨ Joined c.nodes edge := by
  cases call with
  | addNode d =>
    obtain ⟨-, hnew, rfl⟩ := addNode_eq_ok.mp h
    refine ⟨extends_insert fun old hold => ?_, trivial, fun _ _ => .inl⟩
    rw [hnew] at hold
    cases hold
  | connect edge =>
    obtain ⟨-, hedge, rfl⟩ := connect_eq_ok.mp h
    refine ⟨fun k n hn => ⟨n, hn, rfl⟩, trivial, fun edgeId e he => ?_⟩
    simp only [SortedMap.get?_insert] at he
    split at he
    · have heq : edge = e := Option.some.inj he
      exact .inr (heq ▸ validateEdge_joined hedge)
    · exact .inl he
  | setConfig nodeId config =>
    simp only [Call.apply, setConfig] at h
    split at h
    · cases h
    · rename_i n hn
      rw [← Except.ok.inj h]
      refine ⟨extends_insert fun old hold => ?_, by simp [Call.Targets], fun _ _ => .inl⟩
      rw [hn] at hold
      rw [← Option.some.inj hold]
  | setFactory nodeId factory =>
    simp only [Call.apply, setFactory] at h
    split at h
    · cases h
    · rename_i n hn
      rw [← Except.ok.inj h]
      refine ⟨extends_insert fun old hold => ?_, by simp [Call.Targets], fun _ _ => .inl⟩
      rw [hn] at hold
      rw [← Option.some.inj hold]

theorem Wired.nodeIds_nodup (h : b.Wired) :
    (b.nodes.entries.map fun p => p.2.descriptor.nodeId).Nodup := by
  have hkeys : b.nodeIds = b.nodes.keys := h.nodeIds_eq
  rw [nodeIds] at hkeys
  rw [hkeys]
  exact b.nodes.nodup_keys

theorem Wired.edgeIds_nodup (h : b.Wired) : (b.edges.entries.map fun p => p.2.edgeId).Nodup := by
  have hkeys : (b.edges.entries.map fun p => p.2.edgeId) = b.edges.keys := by
    apply List.map_congr_left
    rintro ⟨k, e⟩ hp
    exact h.edge_key k e ((SortedMap.mem_entries_iff _ _ _).mp hp)
  rw [hkeys]
  exact b.edges.nodup_keys

/-- `build` of a wired builder ends with a graph or an error, never in a failed lookup. -/
theorem Wired.not_panicked (h : b.Wired) (message : String) :
    b.build ≠ .error (.panicked message) := by
  obtain ⟨order, -, left, -, -, horder⟩ := h.stableTopologicalOrder
  unfold build
  rw [horder]
  split_ifs <;> simp [bind, Except.bind, pure, Except.pure]

end GraphBuilder

namespace GraphBuilder.Method
variable {α β : Type} {b : GraphBuilder}

@[simp] theorem runOn_bind (m : Method α) (f : α → Method β) : (m >>= f).runOn b =
    match m.runOn b with
    | (.ok a, c) => (f a).runOn c
    | (.error e, c) => (.error e, c) := by
  rcases h : m.runOn b with ⟨_ | a, c⟩ <;>
    simp only [runOn, ExceptT.run_bind, StateT.run_bind] at h ⊢ <;> rw [h] <;> rfl

@[simp] theorem runOn_pure (a : α) : (pure a : Method α).runOn b = (.ok a, b) := rfl

@[simp] theorem runOn_throw (e : GraphBuildError) :
    (throw e : Method α).runOn b = (.error e, b) := rfl

@[simp] theorem runOn_get : (get : Method GraphBuilder).runOn b = (.ok b, b) := rfl

@[simp] theorem runOn_modify (f : GraphBuilder → GraphBuilder) :
    (modify f : Method PUnit).runOn b = (.ok (), f b) := rfl

@[simp] theorem runOn_check (r : Except GraphBuildError Unit) :
    (check r).runOn b = (r, b) := by
  cases r <;> rfl

end GraphBuilder.Method

namespace Call
open GraphBuilder
variable {b : GraphBuilder}

theorem addNode_eq (d : NodeDescriptor) : b.addNode d =
    match validateNodeDescriptor d with
    | .error e => .error e
    | .ok _ =>
      if b.nodes.contains d.nodeId then .error (.duplicateNode d.nodeId)
      else .ok { b with nodes := b.nodes.insert d.nodeId ⟨d, .empty, none⟩ } := by
  unfold GraphBuilder.addNode
  cases validateNodeDescriptor d with
  | error e => rfl
  | ok u => cases hold : b.nodes.contains d.nodeId <;> rfl

theorem connect_eq (edge : EdgeDescriptor) : b.connect edge =
    if b.edges.contains edge.edgeId then
      .error (.duplicateEdge edge.edgeId (edgeSource edge) (edgeTarget edge))
    else
      match validateEdge b.nodes edge with
      | .error e => .error e
      | .ok _ => .ok { b with edges := b.edges.insert edge.edgeId edge } := by
  unfold GraphBuilder.connect
  cases hold : b.edges.contains edge.edgeId with
  | true => rfl
  | false => cases validateEdge b.nodes edge <;> rfl

/-- The methods in place do what the pure ones say: a refused call has written nothing. -/
theorem runOn_method (call : Call) : call.method.runOn b =
    match call.apply b with
    | .ok c => (.ok (), c)
    | .error e => (.error e, b) := by
  cases call with
  | addNode d =>
    rw [apply, addNode_eq]
    cases hd : validateNodeDescriptor d with
    | error e => simp [method, addNodeMut, hd]
    | ok u => cases hold : b.nodes.contains d.nodeId <;> simp [method, addNodeMut, hd, hold]
  | connect edge =>
    rw [apply, connect_eq]
    cases hold : b.edges.contains edge.edgeId with
    | true => simp [method, connectMut, hold]
    | false => cases hedge : validateEdge b.nodes edge <;> simp [method, connectMut, hold, hedge]
  | setConfig nodeId config =>
    rw [apply, GraphBuilder.setConfig]
    cases hn : b.nodes.get? nodeId <;> simp [method, setConfigMut, nodeMut, hn]
  | setFactory nodeId factory =>
    rw [apply, GraphBuilder.setFactory]
    cases hn : b.nodes.get? nodeId <;> simp [method, setFactoryMut, nodeMut, hn]

end Call

/-- What every sequence of calls keeps. -/
structure Session.Kept (s : Session) : Prop where
  wired : s.builder.Wired
  joined : ∀ edgeId edge, s.builder.edges.get? edgeId = some edge → Joined s.builder.nodes edge
  targets : ∀ call ∈ s.accepted, call.Targets s.builder.nodes

namespace Session

theorem perform_eq (s : Session) (call : Call) : s.perform call =
    match call.apply s.builder with
    | .ok c => ⟨c, s.accepted ++ [call]⟩
    | .error _ => s := by
  rw [perform, call.runOn_method]
  cases call.apply s.builder <;> rfl

theorem Kept.perform {s : Session} (h : s.Kept) (call : Call) : (s.perform call).Kept := by
  rw [perform_eq]
  cases hc : call.apply s.builder with
  | error e => exact h
  | ok c =>
    obtain ⟨hextends, htargets, hedges⟩ := GraphBuilder.apply_ok hc
    refine ⟨h.wired.apply hc, fun edgeId edge he => ?_, fun x hx => ?_⟩
    · rcases hedges edgeId edge he with hold | hjoined
      · exact hextends.joined (h.joined edgeId edge hold)
      · exact hjoined
    · rcases List.mem_append.mp hx with hx | hx
      · exact hextends.targets (h.targets x hx)
      · rw [List.mem_singleton.mp hx]
        exact htargets

theorem kept_fresh (graphId : GraphId) : (⟨.withGraphId graphId, []⟩ : Session).Kept where
  wired := GraphBuilder.wired_withGraphId graphId
  joined edgeId edge h := by simp [GraphBuilder.withGraphId] at h
  targets call h := by simp at h

theorem kept_foldl (calls : List Call) {s : Session} (h : s.Kept) :
    (calls.foldl perform s).Kept := by
  induction calls generalizing s with
  | nil => exact h
  | cons call calls ih => exact ih (h.perform call)

end Session

/-- After any calls the builder is integral, what was accepted is for nodes that are there, a
refused call changes nothing, and the topological pass of `build` meets no failing lookup. -/
theorem builder_integrity (graphId : GraphId) (calls : List Call) :
    (session graphId calls).builder.Integral ∧
    (∀ call ∈ (session graphId calls).accepted,
      call.Targets (session graphId calls).builder.nodes) ∧
    (∀ (call : Call) (error : GraphBuildError) (after : GraphBuilder),
      call.method.runOn (session graphId calls).builder = (.error error, after) →
        after = (session graphId calls).builder) ∧
    ∀ message, (session graphId calls).builder.build ≠ .error (.panicked message) := by
  have hkept : (session graphId calls).Kept :=
    Session.kept_foldl calls (Session.kept_fresh graphId)
  refine ⟨?_, hkept.targets, ?_, fun message => hkept.wired.not_panicked message⟩
  · exact ⟨hkept.joined, hkept.wired.nodeIds_nodup, hkept.wired.edgeIds_nodup⟩
  · intro call error after hrun
    rw [call.runOn_method] at hrun
    cases hc : call.apply (session graphId calls).builder with
    | ok c =>
      rw [hc] at hrun
      cases congrArg Prod.fst hrun
    | error e =>
      rw [hc] at hrun
      exact (congrArg Prod.snd hrun).symm

end Muxiva.Build
