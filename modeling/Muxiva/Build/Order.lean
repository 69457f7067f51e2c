import Muxiva.Build.Builder
import Muxiva.Lib.Topological

/-! The order `build` returns is the least topological one, and the nodes it reports otherwise
are those behind a cycle. -/
set_option linter.all false
namespace Muxiva.Build
open Topological

namespace GraphBuilder

/-- The ids of the nodes added. -/
def nodeIds (b : GraphBuilder) : List NodeId := b.nodes.entries.map fun p => p.2.descriptor.nodeId

/-- The arcs of the node graph, one for each edge. -/
def arcs (b : GraphBuilder) : List (NodeId × NodeId) :=
  b.edges.entries.map fun p => (p.2.fromNodeId, p.2.toNodeId)

/-- Nodes and edges are kept under their own ids, and edges join nodes that are there. -/
structure Wired (b : GraphBuilder) : Prop where
  node_key : ∀ k n, b.nodes.get? k = some n → n.descriptor.nodeId = k
  edge_key : ∀ k e, b.edges.get? k = some e → e.edgeId = k
  edge_from : ∀ k e, b.edges.get? k = some e → (b.nodes.get? e.fromNodeId).isSome
  edge_to : ∀ k e, b.edges.get? k = some e → (b.nodes.get? e.toNodeId).isSome

variable {b c : GraphBuilder}

theorem addNode_eq_ok {d : NodeDescriptor} : b.addNode d = .ok c ↔
    validateNodeDescriptor d = .ok () ∧ b.nodes.get? d.nodeId = none ∧
      c = { b with nodes := b.nodes.insert d.nodeId ⟨d, .empty, none⟩ } := by
  unfold addNode
  cases hd : validateNodeDescriptor d with
  | error e => simp [bind, Except.bind]
  | ok u =>
    cases hold : b.nodes.get? d.nodeId with
    | none => simp [SortedMap.contains, hold, bind, Except.bind, pure, Except.pure, eq_comm]
    | some n => simp [SortedMap.contains, hold, bind, Except.bind]

theorem connect_eq_ok {edge : EdgeDescriptor} : b.connect edge = .ok c ↔
    b.edges.get? edge.edgeId = none ∧ validateEdge b.nodes edge = .ok () ∧
      c = { b with edges := b.edges.insert edge.edgeId edge } := by
  unfold connect
  cases hold : b.edges.get? edge.edgeId with
  | some e => simp [SortedMap.contains, hold, bind, Except.bind]
  | none =>
    cases hedge : validateEdge b.nodes edge with
    | error e => simp [SortedMap.contains, hold, bind, Except.bind]
    | ok u => simp [SortedMap.contains, hold, bind, Except.bind, pure, Except.pure, eq_comm]

theorem endpointNode_ok {nodes : SortedMap NodeId NodeDefinition} {edge : EdgeDescriptor}
    {role : EndpointRole} {id : NodeId} {n : NodeDefinition}
    (h : endpointNode nodes edge role id = .ok n) : nodes.get? id = some n := by
  unfold endpointNode at h
  split at h
  · rename_i hget
    rw [hget, Except.ok.inj h]
  · cases h

theorem validateEdge_endpoints {nodes : SortedMap NodeId NodeDefinition} {edge : EdgeDescriptor}
    (h : validateEdge nodes edge = .ok ()) :
    (nodes.get? edge.fromNodeId).isSome ∧ (nodes.get? edge.toNodeId).isSome := by
  unfold validateEdge at h
  cases hsource : endpointNode nodes edge .source edge.fromNodeId with
  | error e => simp [hsource, bind, Except.bind] at h
  | ok n =>
    cases htarget : endpointNode nodes edge .target edge.toNodeId with
    | error e => simp [hsource, htarget, bind, Except.bind] at h
    | ok m => simp [endpointNode_ok hsource, endpointNode_ok htarget]

theorem wired_withGraphId (graphId : GraphId) : (withGraphId graphId).Wired where
  node_key k n h := by simp [withGraphId] at h
  edge_key k e h := by simp [withGraphId] at h
  edge_from k e h := by simp [withGraphId] at h
  edge_to k e h := by simp [withGraphId] at h

/-- A node put in under its own id keeps the edges joined. -/
theorem Wired.insert_node (h : b.Wired) {n : NodeDefinition} :
    ({ b with nodes := b.nodes.insert n.descriptor.nodeId n } : GraphBuilder).Wired where
  node_key k m hk := by
    simp only [SortedMap.get?_insert] at hk
    split at hk
    · rename_i heq
      rw [← Option.some.inj hk, heq]
    · exact h.node_key k m hk
  edge_key := h.edge_key
  edge_from k e hk := by
    have := h.edge_from k e hk
    simp only [SortedMap.get?_insert]
    split <;> simp_all
  edge_to k e hk := by
    have := h.edge_to k e hk
    simp only [SortedMap.get?_insert]
    split <;> simp_all

theorem Wired.insert_edge (h : b.Wired) {edge : EdgeDescriptor}
    (hedge : validateEdge b.nodes edge = .ok ()) :
    ({ b with edges := b.edges.insert edge.edgeId edge } : GraphBuilder).Wired := by
  obtain ⟨hfrom, hto⟩ := validateEdge_endpoints hedge
  refine ⟨h.node_key, fun k e hk => ?_, fun k e hk => ?_, fun k e hk => ?_⟩ <;>
    simp only [SortedMap.get?_insert] at hk <;> split at hk
  · rename_i heq
    rw [← Option.some.inj hk, heq]
  · exact h.edge_key k e hk
  · rw [← Option.some.inj hk]
    exact hfrom
  · exact h.edge_from k e hk
  · rw [← Option.some.inj hk]
    exact hto
  · exact h.edge_to k e hk

theorem Wired.apply (h : b.Wired) {call : Call} (hc : call.apply b = .ok c) : c.Wired := by
  cases call with
  | addNode d =>
    obtain ⟨-, -, rfl⟩ := addNode_eq_ok.mp hc
    exact h.insert_node (n := ⟨d, .empty, none⟩)
  | connect edge =>
    obtain ⟨-, hedge, rfl⟩ := connect_eq_ok.mp hc
    exact h.insert_edge hedge
  | setConfig nodeId config =>
    simp only [Call.apply, setConfig] at hc
    split at hc
    · cases hc
    · rename_i n hn
      rw [← Except.ok.inj hc, ← h.node_key nodeId n hn]
      exact h.insert_node (n := { n with config })
  | setFactory nodeId factory =>
    simp only [Call.apply, setFactory] at hc
    split at hc
    · cases hc
    · rename_i n hn
      rw [← Except.ok.inj hc, ← h.node_key nodeId n hn]
      exact h.insert_node (n := { n with factory := some factory })

theorem wired_reachable (h : building.Reachable b) : b.Wired := by
  refine h.invariant ?_ ?_
  · rintro _ ⟨graphId, rfl⟩
    exact wired_withGraphId graphId
  · intro b call c _ hb hs
    cases hc : call.apply b with
    | error e => simp [building, hc, Except.toOption] at hs
    | ok d =>
      simp only [building, hc, Except.toOption, Option.some.injEq] at hs
      rw [← hs]
      exact hb.apply hc

end GraphBuilder

section Loop
variable {nodes : List NodeId} {arcs : List (NodeId × NodeId)}

/-- The map holds `d` at the nodes and nothing else. -/
def Holds {β : Type} (m : SortedMap NodeId β) (nodes : List NodeId) (d : NodeId → β) : Prop :=
  ∀ v, m.get? v = if v ∈ nodes then some (d v) else none

theorem Holds.insert {β : Type} {m : SortedMap NodeId β} {d : NodeId → β} (h : Holds m nodes d)
    {w : NodeId} (hw : w ∈ nodes) (x : β) :
    Holds (m.insert w x) nodes fun v => if v = w then x else d v := by
  intro v
  rw [SortedMap.get?_insert]
  by_cases hvw : v = w
  · simp [hvw, hw]
  · simp only [hvw, if_false, h v]

/-- Counting the edges in: every target has its arcs counted, every source its targets listed. -/
theorem countEdge_fold (es : List EdgeDescriptor)
    (hes : ∀ e ∈ es, e.fromNodeId ∈ nodes ∧ e.toNodeId ∈ nodes)
    {indegree : SortedMap NodeId ℕ} {outgoing : SortedMap NodeId (List NodeId)}
    {d : NodeId → ℕ} {o : NodeId → List NodeId} (hd : Holds indegree nodes d)
    (ho : Holds outgoing nodes o) :
    ∃ indegree' outgoing', es.foldlM countEdge (indegree, outgoing) = .ok (indegree', outgoing') ∧
      Holds indegree' nodes (fun v => d v + es.countP (·.toNodeId = v)) ∧
      Holds outgoing' nodes
        (fun u => o u ++ (es.filter (·.fromNodeId = u)).map EdgeDescriptor.toNodeId) := by
  induction es generalizing indegree outgoing d o with
  | nil => exact ⟨indegree, outgoing, rfl, by simpa using hd, by simpa using ho⟩
  | cons e es ih =>
    obtain ⟨hfrom, hto⟩ := hes e List.mem_cons_self
    have hstep : countEdge (indegree, outgoing) e =
        .ok (indegree.insert e.toNodeId (d e.toNodeId + 1),
          outgoing.insert e.fromNodeId (o e.fromNodeId ++ [e.toNodeId])) := by
      simp [countEdge, hd e.toNodeId, ho e.fromNodeId, hfrom, hto, expect, bind, Except.bind,
        pure, Except.pure]
    obtain ⟨indegree', outgoing', hrun, hd', ho'⟩ :=
      ih (fun x hx => hes x (List.mem_cons_of_mem _ hx)) (hd.insert hto _) (ho.insert hfrom _)
    refine ⟨indegree', outgoing', ?_, fun v => ?_, fun u => ?_⟩
    · rw [List.foldlM_cons, hstep]
      exact hrun
    · rw [hd' v]
      by_cases hv : v = e.toNodeId
      · subst hv
        simp [Nat.add_assoc, Nat.add_comm]
      · have hne : ¬ e.toNodeId = v := fun h => hv h.symm
        simp [hv, hne]
    · rw [ho' u]
      by_cases hu : u = e.fromNodeId
      · subst hu
        simp
      · have hne : ¬ e.fromNodeId = u := fun h => hu h.symm
        simp [hu, hne]

/-- Releasing the targets of a node: each loses as many arcs as it is listed, and becomes ready
when none is left. -/
theorem release_fold (ts : List NodeId) (hts : ∀ t ∈ ts, t ∈ nodes) {s : Sorting}
    {d : NodeId → ℕ} (hd : Holds s.indegree nodes d) (hcount : ∀ v, ts.count v ≤ d v) :
    ∃ t, ts.foldlM Sorting.release s = .ok t ∧
      Holds t.indegree nodes (fun v => d v - ts.count v) ∧ t.ordered = s.ordered ∧
      ∀ v, v ∈ t.ready ↔ v ∈ s.ready ∨ v ∈ ts ∧ d v - ts.count v = 0 := by
  induction ts generalizing s d with
  | nil => exact ⟨s, rfl, by simpa using hd, rfl, by simp⟩
  | cons w ts ih =>
    have hw : w ∈ nodes := hts w List.mem_cons_self
    have hpos : d w ≠ 0 := by
      have := hcount w
      rw [List.count_cons_self] at this
      omega
    -- the state after the first target
    obtain ⟨s1, hstep, hd1, hordered, hready⟩ : ∃ s1, s.release w = .ok s1 ∧
        Holds s1.indegree nodes (fun v => if v = w then d w - 1 else d v) ∧
        s1.ordered = s.ordered ∧ ∀ v, v ∈ s1.ready ↔ v ∈ s.ready ∨ v = w ∧ d w - 1 = 0 := by
      by_cases hzero : d w - 1 = 0
      · refine ⟨{ s with indegree := s.indegree.insert w (d w - 1), ready := insert w s.ready },
          ?_, hd.insert hw _, rfl, fun v => ?_⟩
        · simp [Sorting.release, hd w, hw, hpos, hzero, expect, bind, Except.bind, pure,
            Except.pure]
        · simp [hzero, or_comm]
      · refine ⟨{ s with indegree := s.indegree.insert w (d w - 1) }, ?_, hd.insert hw _, rfl,
          fun v => ?_⟩
        · simp [Sorting.release, hd w, hw, hpos, hzero, expect, bind, Except.bind, pure,
            Except.pure]
        · simp [hzero]
    have hcount1 : ∀ v, ts.count v ≤ if v = w then d w - 1 else d v := by
      intro v
      have := hcount v
      by_cases hv : v = w
      · subst hv
        rw [List.count_cons_self] at this
        simp only [if_true]
        omega
      · rw [List.count_cons_of_ne (Ne.symm hv)] at this
        simpa [hv] using this
    obtain ⟨t, hrun, hdt, hot, hrt⟩ :=
      ih (fun x hx => hts x (List.mem_cons_of_mem _ hx)) hd1 hcount1
    have hcounts : ∀ v, (if v = w then d w - 1 else d v) - ts.count v =
        d v - (w :: ts).count v := by
      intro v
      by_cases hv : v = w
      · subst hv
        rw [List.count_cons_self]
        simp only [if_true]
        omega
      · rw [List.count_cons_of_ne (Ne.symm hv)]
        simp [hv]
    refine ⟨t, ?_, ?_, hot.trans hordered, fun v => ?_⟩
    · rw [List.foldlM_cons, hstep]
      exact hrun
    · intro v
      rw [hdt v]
      simp only [hcounts v]
    · rw [hrt v, hready v, hcounts v]
      constructor
      · rintro ((hold | ⟨rfl, hzero⟩) | ⟨hmem, hzero⟩)
        · exact .inl hold
        · refine .inr ⟨List.mem_cons_self, ?_⟩
          rw [List.count_cons_self]
          omega
        · exact .inr ⟨List.mem_cons_of_mem _ hmem, hzero⟩
      · rintro (hold | ⟨hmem, hzero⟩)
        · exact .inl (.inl hold)
        · by_cases hin : v ∈ ts
          · exact .inr ⟨hin, hzero⟩
          · have hv : v = w := (List.mem_cons.mp hmem).resolve_right hin
            subst hv
            refine .inl (.inr ⟨rfl, ?_⟩)
            rw [List.count_cons_self, List.count_eq_zero_of_not_mem hin] at hzero
            omega

/-- The arcs into `v` whose source is not ordered yet. -/
def pendingArcs (arcs : List (NodeId × NodeId)) (ordered : List NodeId) (v : NodeId) : ℕ :=
  arcs.countP fun a => a.2 = v ∧ a.1 ∉ ordered

/-- The targets of the arcs out of `u`, as often as there are arcs. -/
def targets (arcs : List (NodeId × NodeId)) (u : NodeId) : List NodeId :=
  (arcs.filter (·.1 = u)).map Prod.snd

theorem pendingArcs_eq_zero {ordered : List NodeId} {v : NodeId} :
    pendingArcs arcs ordered v = 0 ↔ ∀ u, Arc arcs u v → u ∈ ordered := by
  simp only [pendingArcs, List.countP_eq_zero, decide_eq_true_eq, not_and, not_not, Arc]
  constructor
  · intro h u hu
    exact h (u, v) hu rfl
  · rintro h ⟨u, w⟩ ha rfl
    exact h u ha

theorem mem_targets {u v : NodeId} : v ∈ targets arcs u ↔ Arc arcs u v := by
  simp [targets, Arc]

/-- Ordering one more node settles the arcs out of it. -/
theorem pendingArcs_snoc {ordered : List NodeId} {u : NodeId} (hu : u ∉ ordered) (v : NodeId) :
    pendingArcs arcs ordered v = pendingArcs arcs (ordered ++ [u]) v + (targets arcs u).count v := by
  induction arcs with
  | nil => rfl
  | cons a arcs ih =>
    obtain ⟨x, y⟩ := a
    simp only [pendingArcs, targets] at ih ⊢
    by_cases hy : y = v <;> by_cases hx : x = u <;> by_cases ho : x ∈ ordered <;>
      simp_all <;> omega

/-- What the loop keeps: counts of pending arcs, and the available nodes ready. -/
structure Sorts (nodes : List NodeId) (arcs : List (NodeId × NodeId)) (s : Sorting) : Prop where
  counts : Holds s.indegree nodes (pendingArcs arcs s.ordered)
  ready : ∀ v, v ∈ s.ready ↔ Available nodes arcs s.ordered v
  back : ∀ v ∈ s.ordered, ∀ u, Arc arcs u v → u ∈ s.ordered

variable {outgoing : SortedMap NodeId (List NodeId)}

theorem Sorts.take {s : Sorting} (h : Sorts nodes arcs s)
    (hclosed : ∀ u v, Arc arcs u v → u ∈ nodes ∧ v ∈ nodes)
    (hout : Holds outgoing nodes (targets arcs)) {u : NodeId} (hu : u ∈ s.ready) :
    ∃ t, s.take outgoing u = .ok t ∧ Sorts nodes arcs t ∧ t.ordered = s.ordered ++ [u] := by
  obtain ⟨hnode, hnew, hpreds⟩ := (h.ready u).mp hu
  obtain ⟨t, hrun, hcounts, hordered, hready⟩ := release_fold (targets arcs u)
    (fun v hv => (hclosed u v (mem_targets.mp hv)).2)
    (s := { s with ready := s.ready.erase u, ordered := s.ordered ++ [u] }) h.counts
    (fun v => by rw [pendingArcs_snoc hnew v]; omega)
  have hpending : ∀ v, pendingArcs arcs s.ordered v - (targets arcs u).count v =
      pendingArcs arcs (s.ordered ++ [u]) v := by
    intro v
    rw [pendingArcs_snoc hnew v]
    omega
  refine ⟨t, ?_, ⟨?_, fun v => ?_, ?_⟩, hordered⟩
  · simp only [Sorting.take, hout u, hnode, if_true, expect, bind, Except.bind]
    exact hrun
  · intro v
    rw [hcounts v]
    simp only [hpending v, hordered]
  · rw [hready v, hpending v, hordered, Finset.mem_erase, h.ready v, pendingArcs_eq_zero,
      mem_targets]
    constructor
    · rintro (⟨hne, hv, hvnew, hvpreds⟩ | ⟨harc, hvpreds⟩)
      · refine ⟨hv, ?_, fun x hx => List.mem_append_left _ (hvpreds x hx)⟩
        simp [hvnew, hne]
      · refine ⟨(hclosed u v harc).2, ?_, hvpreds⟩
        -- an ordered target would have had `u` ordered before
        intro hmem
        rcases List.mem_append.mp hmem with hmem | hmem
        · exact hnew (h.back v hmem u harc)
        · rw [List.mem_singleton.mp hmem] at harc
          exact hnew (hpreds u harc)
    · rintro ⟨hv, hvnew, hvpreds⟩
      simp only [List.mem_append, List.mem_singleton, not_or] at hvnew
      by_cases harc : Arc arcs u v
      · exact .inr ⟨harc, hvpreds⟩
      · refine .inl ⟨hvnew.2, hv, hvnew.1, fun x hx => ?_⟩
        rcases List.mem_append.mp (hvpreds x hx) with hx' | hx'
        · exact hx'
        · rw [List.mem_singleton.mp hx'] at hx
          exact absurd hx harc
  · intro v hv x hx
    rw [hordered] at hv ⊢
    rcases List.mem_append.mp hv with hv | hv
    · exact List.mem_append_left _ (h.back v hv x hx)
    · rw [List.mem_singleton.mp hv] at hx
      exact List.mem_append_left _ (hpreds x hx)

/-- With a turn for each node not ordered yet, the loop makes the greedy choices to the end. -/
theorem Sorts.drain (hclosed : ∀ u v, Arc arcs u v → u ∈ nodes ∧ v ∈ nodes)
    (hout : Holds outgoing nodes (targets arcs)) (fuel : ℕ) {s : Sorting}
    (h : Sorts nodes arcs s) (hfuel : (nodes.filter (· ∉ s.ordered)).length < fuel) :
    ∃ t rest, Sorting.drain outgoing fuel s = .ok t ∧ Sorts nodes arcs t ∧
      t.ordered = s.ordered ++ rest ∧ Greedy nodes arcs s.ordered rest := by
  induction fuel generalizing s with
  | zero => omega
  | succ fuel ih =>
    unfold Sorting.drain
    cases hmin : s.ready.min with
    | top =>
      have hempty : s.ready = ∅ := Finset.min_eq_top.mp hmin
      refine ⟨s, [], rfl, h, (List.append_nil _).symm, .stop fun v hv => ?_⟩
      rw [← h.ready v, hempty] at hv
      simp at hv
    | coe u =>
      have hu : u ∈ s.ready := Finset.mem_of_min hmin
      have hleast : IsLeast {w | Available nodes arcs s.ordered w} u := by
        refine ⟨(h.ready u).mp hu, fun w hw => ?_⟩
        exact Finset.min_le_of_eq ((h.ready w).mpr hw) hmin
      obtain ⟨t, htake, ht, hordered⟩ := h.take hclosed hout hu
      have hless : (nodes.filter (· ∉ t.ordered)).length < (nodes.filter (· ∉ s.ordered)).length := by
        rw [hordered]
        obtain ⟨hnode, hnew, -⟩ := hleast.1
        have hsub : (nodes.filter (· ∉ s.ordered ++ [u])).Sublist (nodes.filter (· ∉ s.ordered)) := by
          apply List.monotone_filter_right
          intro x hx
          simp_all
        refine lt_of_le_of_ne hsub.length_le fun heq => ?_
        have hsame := hsub.eq_of_length heq
        have hmem : u ∈ nodes.filter (· ∉ s.ordered) := by simp [hnode, hnew]
        rw [← hsame] at hmem
        simp at hmem
      obtain ⟨r, rest, hrun, hr, hro, hgreedy⟩ := ih ht (by omega)
      refine ⟨r, u :: rest, ?_, hr, ?_, .pick hleast (hordered ▸ hgreedy)⟩
      · simp only [htake, bind, Except.bind]
        exact hrun
      · rw [hro, hordered]
        simp

end Loop

namespace GraphBuilder
variable {b : GraphBuilder}

theorem Wired.nodeIds_eq (h : b.Wired) : b.nodeIds = b.nodes.keys := by
  apply List.map_congr_left
  rintro ⟨k, n⟩ hp
  exact h.node_key k n ((SortedMap.mem_entries_iff _ _ _).mp hp)

theorem mem_keys_of_isSome {k : NodeId} (h : (b.nodes.get? k).isSome) : k ∈ b.nodes.keys :=
  (SortedMap.mem_keys_iff _ _).mpr (Option.isSome_iff_exists.mp h)

theorem Wired.edge_endpoints (h : b.Wired) :
    ∀ e ∈ b.edges.entries.map Prod.snd, e.fromNodeId ∈ b.nodes.keys ∧ e.toNodeId ∈ b.nodes.keys := by
  intro e he
  obtain ⟨⟨k, e⟩, hp, rfl⟩ := List.mem_map.mp he
  have hget := (SortedMap.mem_entries_iff _ _ _).mp hp
  exact ⟨mem_keys_of_isSome (h.edge_from k e hget), mem_keys_of_isSome (h.edge_to k e hget)⟩

theorem arcs_eq : b.arcs =
    (b.edges.entries.map Prod.snd).map fun e => (e.fromNodeId, e.toNodeId) := by
  rw [arcs, List.map_map]
  rfl

theorem Wired.closed (h : b.Wired) {u v : NodeId} (harc : Arc b.arcs u v) :
    u ∈ b.nodes.keys ∧ v ∈ b.nodes.keys := by
  rw [Arc, arcs_eq] at harc
  obtain ⟨e, he, heq⟩ := List.mem_map.mp harc
  cases heq
  exact h.edge_endpoints e he

theorem holds_mapValues {β : Type} (x : β) :
    Holds (b.nodes.mapValues fun _ => x) b.nodes.keys fun _ => x := by
  intro v
  rw [SortedMap.get?_mapValues]
  by_cases hv : v ∈ b.nodes.keys
  · obtain ⟨n, hn⟩ := (SortedMap.mem_keys_iff _ _).mp hv
    simp [hn, hv]
  · have hnone : b.nodes.get? v = none := by
      by_contra hsome
      exact hv ((SortedMap.mem_keys_iff _ _).mpr (Option.ne_none_iff_exists'.mp hsome))
    simp [hnone, hv]

/-- `stable_topological_order` makes the greedy choices, and reports the nodes they leave out. -/
theorem Wired.stableTopologicalOrder (h : b.Wired) : ∃ order,
    Greedy b.nodes.keys b.arcs [] order ∧
    ∃ left : List NodeId, left.Pairwise (· < ·) ∧
      (∀ v, v ∈ left ↔ v ∈ b.nodes.keys ∧ v ∉ order) ∧
      Build.stableTopologicalOrder b.nodes b.edges =
        if order.length ≠ b.nodes.keys.length then .error (.failed (.cycle left))
        else .ok order := by
  obtain ⟨indegree, outgoing, hcounted, hindegree, houtgoing⟩ :=
    countEdge_fold (b.edges.entries.map Prod.snd) h.edge_endpoints
      (holds_mapValues 0) (holds_mapValues [])
  have htargets : Holds outgoing b.nodes.keys (targets b.arcs) := by
    intro u
    rw [houtgoing u]
    simp [targets, arcs, List.filter_map, Function.comp_def]
  have hpending : Holds indegree b.nodes.keys (pendingArcs b.arcs []) := by
    intro v
    rw [hindegree v]
    simp [pendingArcs, arcs, List.countP_map, Function.comp_def]
  have hinit : Sorts b.nodes.keys b.arcs
      ⟨indegree, ((indegree.entries.filter fun p => p.2 = 0).map Prod.fst).toFinset, []⟩ := by
    refine ⟨hpending, fun v => ?_, by simp⟩
    have hmem : v ∈ ((indegree.entries.filter fun p => p.2 = 0).map Prod.fst).toFinset ↔
        indegree.get? v = some 0 := by
      rw [← SortedMap.mem_entries_iff]
      simp
    rw [hmem, hpending v, Available, ← pendingArcs_eq_zero]
    by_cases hv : v ∈ b.nodes.keys <;> simp [hv]
  obtain ⟨t, order, hrun, ht, hordered, hgreedy⟩ := Sorts.drain (fun _ _ => h.closed) htargets
    (b.nodes.size + 1) hinit (by simp)
  rw [List.nil_append] at hordered
  refine ⟨order, hgreedy, (t.indegree.entries.filter fun p => p.2 ≠ 0).map Prod.fst, ?_, ?_, ?_⟩
  · exact List.pairwise_map.mpr (t.indegree.sorted.filter _)
  · intro v
    have hmem : v ∈ (t.indegree.entries.filter fun p => p.2 ≠ 0).map Prod.fst ↔
        ∃ n, t.indegree.get? v = some n ∧ n ≠ 0 := by
      simp [← SortedMap.mem_entries_iff]
    rw [hmem, ht.counts v, hordered]
    have hzero : v ∈ b.nodes.keys → (pendingArcs b.arcs order v = 0 ↔ v ∈ order) := by
      intro hv
      rw [pendingArcs_eq_zero]
      constructor
      · intro hpreds
        by_contra hout
        obtain ⟨u, hu, harc⟩ := hgreedy.left_out hv (by simpa using hout)
        exact hu (by simpa using hpreds u harc)
      · intro hmem u hu
        exact (hgreedy.arc_back hmem hu).1
    by_cases hv : v ∈ b.nodes.keys
    · simp [hv, hzero hv]
    · simp [hv]
  · unfold Build.stableTopologicalOrder
    rw [hcounted]
    simp only [bind, Except.bind, hrun, hordered, SortedMap.length_keys]
    split <;> rfl

/-- `build` returns the lexicographically least topological order of an acyclic graph, and
otherwise the nodes on a cycle or behind one. -/
theorem build_spec (h : building.Reachable b) :
    ((∃ g, b.build = .ok g) ↔ Acyclic b.arcs) ∧
    (∀ g, b.build = .ok g → IsOrder b.nodeIds b.arcs g.topologicalOrder ∧
      ∀ other, IsOrder b.nodeIds b.arcs other → LexLe g.topologicalOrder other) ∧
    (∀ halt, b.build = .error halt → ∃ ids, halt = .failed (.cycle ids) ∧
      ids.Pairwise (· < ·) ∧ ∀ v, v ∈ ids ↔ BehindCycle b.arcs v) := by
  have hwired := wired_reachable h
  obtain ⟨order, hgreedy, left, hsorted, hleft, hrun⟩ := hwired.stableTopologicalOrder
  have hclosed : ∀ u v, Arc b.arcs u v → u ∈ b.nodes.keys ∧ v ∈ b.nodes.keys :=
    fun _ _ => hwired.closed
  have hnodup : b.nodes.keys.Nodup := SortedMap.nodup_keys _
  have hlength := (hgreedy.length_eq_iff hnodup).trans (hgreedy.covers_iff hclosed)
  rw [hwired.nodeIds_eq]
  by_cases hfull : order.length = b.nodes.keys.length
  · have hbuild : b.build = .ok
        { graphId := b.graphId, nodes := b.nodes.entries.map Prod.snd
          edges := b.edges.entries.map Prod.snd, topologicalOrder := order } := by
      simp [build, hrun, hfull, bind, Except.bind, pure, Except.pure]
    have hall := (hgreedy.length_eq_iff hnodup).mp hfull
    refine ⟨⟨fun _ => hlength.mp hfull, fun _ => ⟨_, hbuild⟩⟩, ?_, ?_⟩
    · intro g hg
      rw [hbuild] at hg
      rw [← Except.ok.inj hg]
      exact ⟨hgreedy.isOrder hnodup hclosed hall, fun other ho => hgreedy.le_order hnodup ho⟩
    · intro halt hg
      rw [hbuild] at hg
      cases hg
  · rw [if_pos hfull] at hrun
    have hbuild : b.build = .error (.failed (.cycle left)) := by
      simp only [build, hrun, bind, Except.bind]
    refine ⟨⟨?_, fun hacyclic => absurd (hlength.mpr hacyclic) hfull⟩, ?_, ?_⟩
    · rintro ⟨g, hg⟩
      rw [hbuild] at hg
      cases hg
    · intro g hg
      rw [hbuild] at hg
      cases hg
    · intro halt hg
      rw [hbuild] at hg
      refine ⟨left, (Except.error.inj hg).symm, hsorted, fun v => ?_⟩
      rw [hleft v]
      constructor
      · rintro ⟨hv, hout⟩
        exact (hgreedy.notMem_iff hclosed hv).mp hout
      · intro hcycle
        have hv : v ∈ b.nodes.keys := by
          obtain ⟨u, hloop, hpath⟩ := hcycle
          rcases Relation.reflTransGen_iff_eq_or_transGen.mp hpath with rfl | hpath
          · obtain ⟨w, harc, -⟩ := Relation.TransGen.head'_iff.mp hloop
            exact (hclosed _ _ harc).1
          · obtain ⟨w, -, harc⟩ := Relation.TransGen.tail'_iff.mp hpath
            exact (hclosed _ _ harc).2
        exact ⟨hv, (hgreedy.notMem_iff hclosed hv).mpr hcycle⟩

end GraphBuilder

def nameA : Name := ⟨"a", by decide +kernel⟩
def nameB : Name := ⟨"b", by decide +kernel⟩
def nameC : Name := ⟨"c", by decide +kernel⟩

/-- A transform with one port each way. -/
def relayNode (id : NodeId) : NodeDescriptor where
  nodeId := id
  nodeType := nameA
  kind := .transform
  ports := [⟨id, nameA, .input, .text⟩, ⟨id, nameB, .output, .text⟩]
  configSchema := .map []
  lifecycle := ⟨false, true, false, false⟩

def relayEdge (id : EdgeId) (source target : NodeId) : EdgeDescriptor where
  edgeId := id
  fromNodeId := source
  fromOutputPort := nameB
  toNodeId := target
  toInputPort := nameA
  frameType := .text
  queuePolicy := ⟨1, .block, Nat.one_pos⟩
  validationPolicy := .typeGateOnly
  transformPolicy := .identity
  enabled := .always
  visibility := ⟨.publicLevel, []⟩

/-- Two parallel edges from `c` to `a`, and one from `c` to `b`. -/
def forkCalls : List Call :=
  [.addNode (relayNode nameA), .addNode (relayNode nameB), .addNode (relayNode nameC),
   .connect (relayEdge nameA nameC nameA), .connect (relayEdge nameB nameC nameA),
   .connect (relayEdge nameC nameC nameB)]

def ordersTo (order : List NodeId) (b : GraphBuilder) : Bool :=
  match b.build with
  | .ok g => g.topologicalOrder = order
  | .error _ => false

theorem build_spec_fork : ∃ b g, building.Reachable b ∧ b.build = .ok g ∧
    g.topologicalOrder = [nameC, nameA, nameB] ∧ Acyclic b.arcs ∧
    IsOrder b.nodeIds b.arcs g.topologicalOrder := by
  obtain ⟨b, hr, hp⟩ := Transition.System.exists_reachable_of_run (M := building)
    ⟨nameA, rfl⟩ forkCalls (ordersTo [nameC, nameA, nameB]) (by decide +kernel)
  unfold ordersTo at hp
  split at hp
  · rename_i g hg
    obtain ⟨hok, horder, -⟩ := GraphBuilder.build_spec hr
    exact ⟨b, g, hr, hg, by simpa using hp, hok.mp ⟨g, hg⟩, (horder g hg).1⟩
  · cases hp

end Muxiva.Build
