import Muxiva.Runner.Model
import Muxiva.Runtime.Lifecycle
import Mathlib.Data.Multiset.DershowitzManna

/-! `GraphRunner::run` returns, and its callbacks follow the grammar that those of a concurrent
run follow too. -/
set_option linter.all false
namespace Muxiva.Runner

open Muxiva.Runtime (CallOutcome)

variable {β : Type} {g : GraphDefinition} {env : Environment β} {st st' : RunnerState β}

/-- `st'` is `st` after some `on_process` calls. -/
structure Called (st st' : RunnerState β) : Prop where
  trace : ∃ evs, st'.log.trace = st.log.trace ++ evs ∧ ∀ ev ∈ evs, ev.isCall = true
  prepared : st'.prepared = st.prepared
  aborted : st'.aborted = st.aborted

theorem Called.refl (st : RunnerState β) : Called st st :=
  ⟨⟨[], (List.append_nil _).symm, by simp⟩, rfl, rfl⟩

theorem Called.trans {a b c : RunnerState β} (h : Called a b) (h' : Called b c) : Called a c := by
  obtain ⟨evs, heq, hcall⟩ := h.trace
  obtain ⟨evs', heq', hcall'⟩ := h'.trace
  refine ⟨⟨evs ++ evs', by rw [heq', heq, List.append_assoc], fun ev hev => ?_⟩,
    h'.prepared.trans h.prepared, h'.aborted.trans h.aborted⟩
  exact (List.mem_append.mp hev).elim (hcall ev) (hcall' ev)

/-- A state that differs from `st` in nothing a lifecycle callback leaves behind. -/
theorem Called.of_same (ht : st'.log.trace = st.log.trace) (hp : st'.prepared = st.prepared)
    (ha : st'.aborted = st.aborted) : Called st st' :=
  ⟨⟨[], by simp [ht], by simp⟩, hp, ha⟩

variable [DecidableEq β]

/-- Serving edges calls no node and appends items of those edges to the worklist. -/
theorem routeEdges_spec (env : Environment β) (st : RunnerState β)
    (worklist : List (DispatchItem β)) (frame : Frame β) (es : List EdgeDescriptor) : Called st (routeEdges env st worklist frame es).1 ∧
      ∃ items, (routeEdges env st worklist frame es).2.1 = worklist ++ items ∧
        ∀ item ∈ items, item.edge ∈ es := by
  induction es generalizing st worklist with
  | nil => exact ⟨.refl st, [], (List.append_nil _).symm, by simp⟩
  | cons e es ih =>
    have hnext : ∀ (st₁ : RunnerState β) (wl : List (DispatchItem β)),
        st₁.log.trace = st.log.trace → st₁.prepared = st.prepared → st₁.aborted = st.aborted →
        (wl = worklist ∨ ∃ f, wl = worklist ++ [⟨e, f⟩]) →
        Called st (routeEdges env st₁ wl frame es).1 ∧
          ∃ items, (routeEdges env st₁ wl frame es).2.1 = worklist ++ items ∧
            ∀ item ∈ items, item.edge ∈ e :: es := by
      intro st₁ wl ht hp ha hwl
      obtain ⟨hcalled, items, heq, hmem⟩ := ih st₁ wl
      refine ⟨(Called.of_same ht hp ha).trans hcalled, ?_⟩
      rcases hwl with rfl | ⟨f, rfl⟩
      · exact ⟨items, heq, fun item hi => List.mem_cons_of_mem _ (hmem item hi)⟩
      · refine ⟨⟨e, f⟩ :: items, by rw [heq, List.append_assoc]; rfl, fun item hi => ?_⟩
        rcases List.mem_cons.mp hi with rfl | hi
        · exact List.mem_cons_self
        · exact List.mem_cons_of_mem _ (hmem item hi)
    unfold routeEdges
    simp only
    split
    · exact hnext _ _ rfl rfl rfl (.inr ⟨_, rfl⟩)
    · exact hnext _ _ rfl rfl rfl (.inl rfl)
    · exact hnext _ _ rfl rfl rfl (.inl rfl)
    · exact ⟨.of_same rfl rfl rfl, [], (List.append_nil _).symm, by simp⟩

theorem routeEmissions_spec (g : GraphDefinition) (env : Environment β) (n : NodeId)
    (st : RunnerState β) (worklist : List (DispatchItem β)) (emissions : List (PortName × Frame β)) :
    Called st (routeEmissions g env n st worklist emissions).1 ∧
      ∃ items, (routeEmissions g env n st worklist emissions).2.1 = worklist ++ items ∧
        ∀ item ∈ items, item.edge ∈ g.outgoing n := by
  induction emissions generalizing st worklist with
  | nil => exact ⟨.refl st, [], (List.append_nil _).symm, by simp⟩
  | cons em rest ih =>
    obtain ⟨p, f⟩ := em
    simp only [routeEmissions]
    split
    · exact ⟨.refl st, [], (List.append_nil _).symm, by simp⟩
    · split_ifs
      · exact ⟨.refl st, [], (List.append_nil _).symm, by simp⟩
      · obtain ⟨hcalled, items, heq, hmem⟩ :=
          routeEdges_spec env st worklist f (routes g n p)
        have hout : ∀ item ∈ items, item.edge ∈ g.outgoing n := by
          intro item hi
          have := hmem item hi
          simp only [routes, GraphDefinition.outgoing, List.mem_filter, decide_eq_true_eq] at this ⊢
          exact ⟨this.1, this.2.1, this.2.2.1⟩
        split <;> rename_i hroute <;> rw [hroute] at hcalled heq
        · exact ⟨hcalled, items, heq, hout⟩
        · rename_i st₁ wl₁
          obtain ⟨hcalled', items', heq', hmem'⟩ := ih st₁ wl₁
          refine ⟨hcalled.trans hcalled', items ++ items', ?_, fun item hi => ?_⟩
          · change wl₁ = worklist ++ items at heq
            rw [heq', heq, List.append_assoc]
          · exact (List.mem_append.mp hi).elim (hout item) (hmem' item)

theorem serve_spec (g : GraphDefinition) (env : Environment β) (n : NodeId)
    (input : Option (DispatchItem β)) (st : RunnerState β) (worklist : List (DispatchItem β)) :
    Called st (serve g env n input st worklist).1 ∧
      ∃ items, (serve g env n input st worklist).2.1 = worklist ++ items ∧
        ∀ item ∈ items, item.edge ∈ g.outgoing n := by
  have hcall : ∀ st₁ : RunnerState β, st₁.log.trace =
      st.log.trace ++ [Event.process n (input.map (·.edge))] → st₁.prepared = st.prepared →
      st₁.aborted = st.aborted → Called st st₁ :=
    fun st₁ ht hp ha => ⟨⟨_, ht, by simp [Event.isCall]⟩, hp, ha⟩
  unfold serve
  simp only
  split
  · exact ⟨hcall _ rfl rfl rfl, [], (List.append_nil _).symm, by simp⟩
  · obtain ⟨hcalled, hitems⟩ := routeEmissions_spec g env n _ worklist _
    exact ⟨Called.trans (hcall _ (by rfl) (by rfl) (by rfl)) hcalled, hitems⟩

theorem drain_called (fuel : ℕ) (worklist : List (DispatchItem β)) {r : Option AbortReason}
    (h : drain g env fuel st worklist = some (st', r)) : Called st st' := by
  induction fuel generalizing st worklist with
  | zero =>
    cases worklist with
    | nil => cases h; exact .refl _
    | cons item worklist => cases h
  | succ fuel ih =>
    cases worklist with
    | nil => cases h; exact .refl _
    | cons item worklist =>
      have hs := (serve_spec g env item.edge.toNodeId (some item) st worklist).1
      simp only [drain] at h
      split at h <;> rename_i hserve <;> rw [hserve] at hs
      · cases h
        exact hs
      · exact hs.trans (ih _ h)

theorem runSources_called (fuel : ℕ) (order : List NodeId) {r : Option AbortReason}
    (h : runSources g env fuel st order = some (st', r)) : Called st st' := by
  induction order generalizing st with
  | nil => cases h; exact .refl _
  | cons n rest ih =>
    simp only [runSources] at h
    split_ifs at h
    · have hs := (serve_spec g env n none st []).1
      split at h <;> rename_i hserve <;> rw [hserve] at hs
      · cases h
        exact hs
      · rename_i st₁ worklist
        rcases hdrain : drain g env fuel st₁ worklist with _ | ⟨st₂, _ | r₂⟩ <;>
          simp only [hdrain] at h
        · cases h
        · exact hs.trans ((drain_called _ _ hdrain).trans (ih h))
        · cases h
          exact hs.trans (drain_called _ _ hdrain)
    · exact ih h

/-- More fuel does not change a result. -/
theorem drain_mono {fuel fuel' : ℕ} (hle : fuel ≤ fuel') {worklist : List (DispatchItem β)}
    {res : RunnerState β × Option AbortReason} (h : drain g env fuel st worklist = some res) :
    drain g env fuel' st worklist = some res := by
  induction fuel generalizing st worklist fuel' with
  | zero =>
    cases worklist with
    | nil => cases fuel' <;> exact h
    | cons item worklist => cases h
  | succ fuel ih =>
    obtain ⟨fuel', rfl⟩ : ∃ k, fuel' = k + 1 := ⟨fuel' - 1, by omega⟩
    cases worklist with
    | nil => exact h
    | cons item worklist =>
      simp only [drain] at h ⊢
      split at h
      · exact h
      · exact ih (by omega) h

/-- How far a worklist item is from the end of the topological order. -/
def DispatchItem.rank (g : GraphDefinition) (item : DispatchItem β) : ℕ :=
  g.topologicalOrder.length - g.topologicalOrder.idxOf item.edge.toNodeId

omit [DecidableEq β] in
/-- An item gives way to items closer to the end. -/
theorem rank_lt {item next : DispatchItem β} (h : next.edge ∈ g.outgoing item.edge.toNodeId) :
    next.rank g < item.rank g := by
  obtain ⟨hen, hfrom⟩ := GraphDefinition.mem_outgoing.mp h
  have hedge := GraphDefinition.mem_edges_of_enabled hen
  have hforward := g.forward _ hedge
  have hlt := List.idxOf_lt_length_of_mem (g.endpoints _ hedge).2
  rw [hfrom] at hforward
  unfold DispatchItem.rank
  omega

/-- The worklist loop ends, whatever nodes and policies answer. -/
theorem drain_terminates (g : GraphDefinition) (env : Environment β) (st : RunnerState β)
    (worklist : List (DispatchItem β)) :
    ∃ fuel, (drain g env fuel st worklist).isSome = true := by
  induction hm : (worklist.map (DispatchItem.rank g) : Multiset ℕ) using
    (Multiset.wellFounded_isDershowitzMannaLT (α := ℕ)).induction generalizing st worklist with
  | _ m ih =>
    cases worklist with
    | nil => exact ⟨0, rfl⟩
    | cons item worklist =>
      obtain ⟨-, items, heq, hmem⟩ :=
        serve_spec g env item.edge.toNodeId (some item) st worklist
      rcases hserve : serve g env item.edge.toNodeId (some item) st worklist with
        ⟨st₁, worklist₁, _ | r⟩
      · rw [hserve] at heq
        change worklist₁ = worklist ++ items at heq
        have hlt : Multiset.IsDershowitzMannaLT
            (worklist₁.map (DispatchItem.rank g) : Multiset ℕ) m := by
          refine ⟨(worklist.map (DispatchItem.rank g) : Multiset ℕ),
            (items.map (DispatchItem.rank g) : Multiset ℕ), {item.rank g}, by simp, ?_, ?_, ?_⟩
          · rw [heq, List.map_append, ← Multiset.coe_add]
          · rw [← hm, List.map_cons, ← Multiset.cons_coe, ← Multiset.singleton_add,
              Multiset.add_comm]
          · intro y hy
            obtain ⟨next, hnext, rfl⟩ := List.mem_map.mp (Multiset.mem_coe.mp hy)
            exact ⟨item.rank g, by simp, rank_lt (hmem next hnext)⟩
        obtain ⟨fuel, hfuel⟩ := ih _ hlt st₁ worklist₁ rfl
        exact ⟨fuel + 1, by simpa only [drain, hserve] using hfuel⟩
      · exact ⟨1, by simp [drain, hserve]⟩

theorem runSources_mono {fuel fuel' : ℕ} (hle : fuel ≤ fuel') {order : List NodeId}
    {res : RunnerState β × Option AbortReason} (h : runSources g env fuel st order = some res) :
    runSources g env fuel' st order = some res := by
  induction order generalizing st with
  | nil => exact h
  | cons n rest ih =>
    simp only [runSources] at h ⊢
    split_ifs at h ⊢
    · rcases hserve : serve g env n none st [] with ⟨st₁, worklist, _ | r⟩ <;>
        simp only [hserve] at h ⊢
      · rcases hdrain : drain g env fuel st₁ worklist with _ | ⟨st₂, _ | r₂⟩ <;>
          simp only [hdrain] at h
        · cases h
        · simp only [drain_mono hle hdrain]
          exact ih h
        · simp only [drain_mono hle hdrain]
          exact h
      · exact h
    · exact ih h

theorem runSources_terminates (g : GraphDefinition) (env : Environment β) (st : RunnerState β)
    (order : List NodeId) :
    ∃ fuel, (runSources g env fuel st order).isSome = true := by
  induction order generalizing st with
  | nil => exact ⟨0, rfl⟩
  | cons n rest ih =>
    by_cases hsrc : g.isSource n = true
    · rcases hserve : serve g env n none st [] with ⟨st₁, worklist, _ | r⟩
      · obtain ⟨k, hk⟩ := drain_terminates g env st₁ worklist
        obtain ⟨⟨st₂, r₂⟩, hdrain⟩ := Option.isSome_iff_exists.mp hk
        cases r₂ with
        | some r₂ => exact ⟨k, by simp [runSources, hsrc, hserve, hdrain]⟩
        | none =>
          obtain ⟨k', hk'⟩ := ih st₂
          obtain ⟨res, hres⟩ := Option.isSome_iff_exists.mp hk'
          refine ⟨max k k', ?_⟩
          simp only [runSources, if_pos hsrc, hserve, drain_mono (le_max_left k k') hdrain,
            runSources_mono (le_max_right k k') hres, Option.isSome_some]
      · exact ⟨0, by simp [runSources, hsrc, hserve]⟩
    · obtain ⟨k, hk⟩ := ih st
      exact ⟨k, by simpa only [runSources, if_neg hsrc] using hk⟩

/-- `run` returns. -/
theorem run_terminates (g : GraphDefinition) (env : Environment β) (st : RunnerState β) :
    ∃ fuel, (run g env fuel st).isSome = true := by
  by_cases hready : st.state = .ready
  · rcases hprep : prepareAll env { st with state := .preparing } g.topologicalOrder with
      ⟨st₁, _ | r⟩
    · obtain ⟨k, hk⟩ := runSources_terminates g env
        { st₁ with state := .running } g.topologicalOrder
      obtain ⟨⟨st₂, r₂⟩, hres⟩ := Option.isSome_iff_exists.mp hk
      refine ⟨k, ?_⟩
      cases r₂ with
      | some r₂ => simp [run, execute, hready, hprep, hres]
      | none =>
        rcases hfin : finishAll env { st₂ with state := .finishing } g.topologicalOrder.reverse
          with ⟨st₃, _ | r₃⟩ <;> simp [run, execute, hready, hprep, hres, hfin]
    · exact ⟨0, by simp [run, execute, hready, hprep]⟩
  · exact ⟨0, by simp [run, hready]⟩

omit [DecidableEq β] in
/-- `on_prepare` runs along the list up to the first failure. -/
theorem prepareAll_spec (env : Environment β) (st : RunnerState β) (order : List NodeId) :
    ∃ ok rest, order = ok ++ rest ∧ (prepareAll env st order).1.prepared = st.prepared ++ ok ∧
      (prepareAll env st order).1.aborted = st.aborted ∧
      (prepareAll env st order).1.log.trace = st.log.trace ++ ok.map (Event.prepare · true) ++
        rest.head?.toList.map (Event.prepare · false) ∧
      ((prepareAll env st order).2 = none ↔ rest = []) := by
  induction order generalizing st with
  | nil => exact ⟨[], [], rfl, by simp [prepareAll], rfl, by simp [prepareAll], by simp [prepareAll]⟩
  | cons n order ih =>
    simp only [prepareAll]
    split
    · obtain ⟨ok, rest, horder, hprep, habort, htrace, hnone⟩ :=
        ih { st.record (.prepare n true) with prepared := st.prepared ++ [n] }
      refine ⟨n :: ok, rest, by rw [horder]; rfl, ?_, habort, ?_, hnone⟩
      · exact hprep.trans (by simp)
      · exact htrace.trans (by simp [RunnerState.record])
    · exact ⟨[], n :: order, rfl, by simp [RunnerState.record], rfl, by simp [RunnerState.record],
        by simp⟩

omit [DecidableEq β] in
/-- `on_finish` runs along the list up to the first failure. -/
theorem finishAll_spec (env : Environment β) (st : RunnerState β) (order : List NodeId) :
    ∃ ok rest, order = ok ++ rest ∧ (finishAll env st order).1.prepared = st.prepared ∧
      (finishAll env st order).1.aborted = st.aborted ∧
      (finishAll env st order).1.log.trace = st.log.trace ++ (ok.map (Event.finish · true) ++
        rest.head?.toList.map (Event.finish · false)) ∧
      ((finishAll env st order).2 = none ↔ rest = []) := by
  induction order generalizing st with
  | nil => exact ⟨[], [], rfl, rfl, rfl, by simp [finishAll], by simp [finishAll]⟩
  | cons n order ih =>
    simp only [finishAll]
    split
    · obtain ⟨ok, rest, horder, hprep, habort, htrace, hnone⟩ := ih (st.record (.finish n true))
      refine ⟨n :: ok, rest, by rw [horder]; rfl, hprep, habort, ?_, hnone⟩
      exact htrace.trans (by simp [RunnerState.record])
    · exact ⟨[], n :: order, rfl, rfl, rfl, by simp [RunnerState.record], by simp⟩

omit [DecidableEq β] in
/-- `on_abort` runs once on every prepared node of the list, in its order. -/
theorem abortAllPrepared_trace (r : AbortReason) {order : List NodeId} (hnd : order.Nodup)
    (hfresh : ∀ n ∈ order, n ∉ st.aborted) :
    (abortAllPrepared r st order).log.trace =
      st.log.trace ++ (order.filter (· ∈ st.prepared)).map (Event.abort · r) := by
  induction order generalizing st with
  | nil => simp [abortAllPrepared]
  | cons n order ih =>
    rw [List.nodup_cons] at hnd
    have hn : n ∉ st.aborted := hfresh n List.mem_cons_self
    have hrest : ∀ m ∈ order, m ∉ st.aborted := fun m hm => hfresh m (List.mem_cons_of_mem _ hm)
    simp only [abortAllPrepared]
    by_cases hp : n ∈ st.prepared
    · rw [if_neg (by simp [hp, hn]), ih hnd.2 fun m hm => ?_]
      · rw [List.filter_cons_of_pos (by simpa using hp)]
        simp only [RunnerState.record, List.append_assoc, List.map_cons, List.singleton_append]
        rfl
      · simp only [List.mem_append, List.mem_singleton, not_or]
        exact ⟨hrest m hm, fun heq => hnd.1 (heq ▸ hm)⟩
    · rw [if_pos (.inl hp), ih hnd.2 hrest]
      simp [hp]

/-- The reason a run returns. -/
def reason (res : Except AbortReason GraphRunSummary) : Option AbortReason :=
  match res with
  | .ok _ => none
  | .error r => some r

/-- The nodes whose `on_prepare` is called: those it succeeds on, and the first it fails on. -/
def reached (ok rest : List NodeId) (n : NodeId) : Bool := decide (n ∈ ok ++ rest.head?.toList)

omit [DecidableEq β] in
/-- What the nodes see up to the end of the sources. -/
theorem workTrace_of_prepare {order ok rest : List NodeId} (hnd : order.Nodup)
    (horder : order = ok ++ rest) {evs : List Event} (hcall : ∀ ev ∈ evs, ev.isCall = true)
    (hevs : rest ≠ [] → evs = []) {n : NodeId} (hn : n ∈ order) :
    WorkTrace n (reached ok rest n) (decide (n ∈ ok)) (nodeTrace n
      (ok.map (Event.prepare · true) ++ rest.head?.toList.map (Event.prepare · false) ++ evs)) := by
  have hsplit := horder ▸ hnd
  rw [List.nodup_append] at hsplit
  have hhead : rest.head?.toList.Nodup := by
    cases rest <;> simp
  rw [TraceShape.nodeTrace_append, TraceShape.nodeTrace_append,
    TraceShape.filter_node hsplit.1 (Event.prepare · true) (fun _ => rfl),
    TraceShape.filter_node hhead (Event.prepare · false) (fun _ => rfl)]
  have hmem : ∀ m ∈ rest.head?.toList, m ∈ rest := by
    intro m hm
    cases rest with
    | nil => simp at hm
    | cons k rest =>
      simp only [List.head?_cons, Option.toList_some, List.mem_singleton] at hm
      rw [hm]
      exact List.mem_cons_self
  have hcalls : ∀ ev ∈ nodeTrace n evs, ev.isCall = true :=
    fun ev hev => hcall ev (List.mem_of_mem_filter hev)
  by_cases hok : n ∈ ok
  · have hnot : n ∉ rest.head?.toList := fun hm => hsplit.2.2 n hok n (hmem n hm) rfl
    refine ⟨fun hv => by simp [reached, hok] at hv, fun _ => ⟨nodeTrace n evs, ?_, hcalls, ?_⟩,
      fun _ => by simp [reached, hok]⟩
    · simp [hok, hnot]
    · simp [hok]
  · by_cases hhd : n ∈ rest.head?.toList
    · have hempty : evs = [] := hevs (List.ne_nil_of_mem (hmem n hhd))
      refine ⟨fun hv => ?_, fun _ => ⟨[], ?_, by simp, fun _ => rfl⟩, fun hp => ?_⟩
      · simp only [reached, decide_eq_false_iff_not] at hv
        exact absurd (List.mem_append_right _ hhd) hv
      · simp [hok, hhd, hempty, nodeTrace]
      · simp [hok] at hp
    · have hrest : n ∈ rest := (List.mem_append.mp (horder ▸ hn)).resolve_left hok
      have hempty : evs = [] := hevs (List.ne_nil_of_mem hrest)
      refine ⟨fun _ => by simp [hok, hhd, hempty, nodeTrace], fun hv => ?_, fun hp => ?_⟩
      · simp only [reached, decide_eq_true_eq, List.mem_append] at hv
        exact absurd hv (not_or.mpr ⟨hok, hhd⟩)
      · simp [hok] at hp

/-- The callbacks of one run of a new `GraphRunner`. -/
theorem run_shape {fuel : ℕ} {res : Except AbortReason GraphRunSummary}
    (h : run g env fuel .new = some (st', res)) :
    ∃ ok rest work done failed aborted r, g.topologicalOrder = ok ++ rest ∧
      TraceShape g.topologicalOrder (reached ok rest) (fun n => decide (n ∈ ok)) st'.log.trace work
        done failed aborted r ∧
      Completed g.topologicalOrder (fun n => decide (n ∈ ok)) done failed aborted r
        (reason res) := by
  have hnd := g.order_nodup
  -- a failure at any stage is followed by the aborts
  have hfail : ∀ (st₁ : RunnerState β) (ok rest : List NodeId) (work : List Event)
      (done : List NodeId) (failed : Option NodeId) (r : AbortReason),
      g.topologicalOrder = ok ++ rest → st₁.prepared = ok → st₁.aborted = [] →
      TraceShape g.topologicalOrder (reached ok rest) (fun n => decide (n ∈ ok)) st₁.log.trace work
        done failed [] r →
      TraceShape g.topologicalOrder (reached ok rest) (fun n => decide (n ∈ ok))
        (abortAllPrepared r st₁ g.topologicalOrder.reverse).log.trace work done failed
        (g.topologicalOrder.reverse.filter fun n => decide (n ∈ ok)) r := by
    intro st₁ ok rest work done failed r horder hprep habort hs
    refine ⟨?_, hs.isWork, hs.nodes, hs.finishing, hs.ready, List.prefix_rfl⟩
    rw [abortAllPrepared_trace r (List.nodup_reverse.mpr hnd) (by simp [habort]), hs.trace, hprep]
    simp
  obtain ⟨ok, rest, horder, hprep, habort, htrace, hnone⟩ :=
    prepareAll_spec env { (.new : RunnerState β) with state := .preparing }
      g.topologicalOrder
  rcases hprepare : prepareAll env { (.new : RunnerState β) with state := .preparing }
    g.topologicalOrder with ⟨st₁, r₁⟩
  rw [hprepare] at hprep habort htrace hnone
  simp only [RunnerState.new, List.nil_append] at hprep habort htrace
  have hnew : (RunnerState.new : RunnerState β).state = .ready := rfl
  simp only [run, hnew, ne_eq, not_true_eq_false, if_false, execute, hprepare] at h
  -- the shape after the `on_process` calls, before any terminal callback
  have hwork : ∀ (st₂ : RunnerState β) (evs : List Event) (r : AbortReason),
      st₂.log.trace = st₁.log.trace ++ evs → (∀ ev ∈ evs, ev.isCall = true) →
      (rest ≠ [] → evs = []) →
      TraceShape g.topologicalOrder (reached ok rest) (fun n => decide (n ∈ ok)) st₂.log.trace
        st₂.log.trace [] none [] r := by
    intro st₂ evs r heq hcall hevs
    have htr : st₂.log.trace = ok.map (Event.prepare · true) ++
        rest.head?.toList.map (Event.prepare · false) ++ evs := by rw [heq, htrace]
    refine ⟨by simp, fun ev hev => ?_, fun n hn => ?_, by simp, by simp, by simp⟩
    · rw [htr, List.mem_append, List.mem_append, List.mem_map, List.mem_map] at hev
      rcases hev with (⟨m, -, rfl⟩ | ⟨m, -, rfl⟩) | hev
      · rfl
      · rfl
      · have := hcall ev hev
        cases ev <;> first | rfl | cases this
    · rw [htr]
      exact workTrace_of_prepare hnd horder hcall hevs hn
  cases r₁ with
  | some r₁ =>
    simp only at h
    cases h
    have hs := hwork st₁ [] r₁ (by simp) (by simp) fun _ => rfl
    exact ⟨ok, rest, _, [], none, _, r₁, horder,
      hfail { st₁ with state := .aborting } ok rest _ [] none r₁ horder hprep habort hs,
      by simp [reason], fun r hr => ⟨by simpa [reason] using hr, rfl⟩⟩
  | none =>
    obtain rfl := hnone.mp rfl
    rw [List.append_nil] at horder
    rcases hsrc : runSources g env fuel { st₁ with state := .running } g.topologicalOrder with
      _ | ⟨st₂, r₂⟩
    · simp [hsrc] at h
    · obtain ⟨⟨evs, hevs, hcall⟩, hprep₂, habort₂⟩ := runSources_called fuel _ hsrc
      cases r₂ with
      | some r₂ =>
        simp only [hsrc] at h
        cases h
        have hs := hwork st₂ evs r₂ hevs hcall (by simp)
        exact ⟨ok, [], _, [], none, _, r₂, by simpa using horder,
          hfail { st₂ with state := .aborting } ok [] _ [] none r₂ (by simpa using horder)
            (hprep₂.trans hprep) (habort₂.trans habort) hs,
          by simp [reason], fun r hr => ⟨by simpa [reason] using hr, rfl⟩⟩
      | none =>
        obtain ⟨done, left, hdone, hprep₃, habort₃, htrace₃, hnone₃⟩ :=
          finishAll_spec env { st₂ with state := .finishing }
            g.topologicalOrder.reverse
        rcases hfin : finishAll env { st₂ with state := .finishing } g.topologicalOrder.reverse with
          ⟨st₃, r₃⟩
        rw [hfin] at hprep₃ habort₃ htrace₃ hnone₃
        simp only [hsrc, hfin] at h
        have hs : ∀ r, TraceShape g.topologicalOrder (reached ok []) (fun n => decide (n ∈ ok))
            st₃.log.trace st₂.log.trace done left.head? [] r := by
          intro r
          have hs := hwork st₂ evs r hevs hcall (by simp)
          refine ⟨htrace₃.trans (by simp), hs.isWork, hs.nodes, ?_, fun _ n hn => ?_, by simp⟩
          · rw [hdone]
            cases left with
            | nil => simp
            | cons k left => exact ⟨left, by simp⟩
          · simpa [horder] using hn
        cases r₃ with
        | some r₃ =>
          simp only at h
          cases h
          exact ⟨ok, [], _, done, left.head?, _, r₃, by simpa using horder,
            hfail { st₃ with state := .aborting } ok [] _ done _ r₃ (by simpa using horder)
              (hprep₃.trans (hprep₂.trans hprep)) (habort₃.trans (habort₂.trans habort)) (hs r₃),
            by simp [reason], fun r hr => ⟨by simpa [reason] using hr, rfl⟩⟩
        | none =>
          obtain rfl := hnone₃.mp rfl
          simp only at h
          cases h
          exact ⟨ok, [], _, done, none, [], Runtime.cancellationAbort, by simpa using horder,
            hs Runtime.cancellationAbort,
            fun _ => ⟨by simpa using hdone.symm, rfl, rfl⟩, by simp [reason]⟩

/-- Prepared nodes come first, then the one that failed, and nothing reaches the others. -/
theorem run_grammar (hne : g.topologicalOrder ≠ []) {fuel : ℕ}
    {res : Except AbortReason GraphRunSummary} (h : run g env fuel .new = some (st', res)) :
    ∃ ok rest, g.topologicalOrder = ok ++ rest ∧
      (∀ n ∈ ok, .prepare n true ∈ st'.log.trace) ∧
      (∀ n ∈ rest.head?, nodeTrace n st'.log.trace = [.prepare n false]) ∧
      LifecycleGrammar g.topologicalOrder (reached ok rest) st'.log.trace (reason res) := by
  obtain ⟨ok, rest, work, done, failed, aborted, r, horder, hs, hc⟩ := run_shape h
  have hnd := g.order_nodup
  have hmem : ∀ n ∈ ok ++ rest, n ∈ g.topologicalOrder := fun n hn => horder ▸ hn
  refine ⟨ok, rest, horder, fun n hn => ?_, fun n hn => ?_, .of_shape hnd hne hs hc⟩
  · exact (hs.prepared_iff (hmem n (List.mem_append_left _ hn))).mp (by simpa using hn)
  · have hrest : n ∈ rest := List.mem_of_mem_head? hn
    have horder' := hmem n (List.mem_append_right _ hrest)
    have hnot : n ∉ ok := by
      rw [horder, List.nodup_append] at hnd
      exact fun hok => hnd.2.2 n hok n hrest rfl
    obtain ⟨hv, -⟩ | ⟨-, hg | ⟨calls, fins, aborts, heq, -⟩⟩ := hs.nodeGrammar hnd horder'
    · simp only [reached, decide_eq_false_iff_not, List.mem_append, Option.mem_toList] at hv
      exact absurd (.inr hn) hv
    · exact hg
    · have hprep : Event.prepare n true ∈ st'.log.trace := by
        have : Event.prepare n true ∈ nodeTrace n st'.log.trace := by
          rw [heq]
          exact List.mem_cons_self
        exact List.mem_of_mem_filter this
      simpa [hnot] using (hs.prepared_iff horder').mpr hprep

end Muxiva.Runner

namespace Muxiva

open Muxiva.Runtime Muxiva.Runner

variable {β : Type} [DecidableEq β]

/-- The lifecycle grammar of both runners. A concurrent run keeps it in every state and completes
it when the result is published; `GraphRunner` calls no node past the first whose `on_prepare`
fails. -/
theorem lifecycle_grammar :
    (∀ (g : GraphDefinition) (o : RuntimeOptions) (s : State β),
      (system g o).ReachableBy (TicksFit g o) s →
        (∀ n ∈ g.topologicalOrder, nodeTrace n s.log.trace = [] ∨
          NodeGrammar n (nodeTrace n s.log.trace)) ∧
        (∃ work terminal, s.log.trace = work ++ terminal ∧
          (∀ ev ∈ work, ev.isWork = true) ∧ ∀ ev ∈ terminal, ev.isWork = false) ∧
        (s.coordinator.pc = .done → g.topologicalOrder ≠ [] →
          ∃ out, s.control.result = some out ∧
            LifecycleGrammar g.topologicalOrder (fun _ => true) s.log.trace out.reason)) ∧
    ∀ (g : GraphDefinition) (env : Environment β),
      (∃ fuel, (run g env fuel .new).isSome = true) ∧
      ∀ fuel st res, run g env fuel .new = some (st, res) → g.topologicalOrder ≠ [] →
        ∃ ok rest, g.topologicalOrder = ok ++ rest ∧
          (∀ n ∈ ok, .prepare n true ∈ st.log.trace) ∧
          (∀ n ∈ rest.head?, nodeTrace n st.log.trace = [.prepare n false]) ∧
          LifecycleGrammar g.topologicalOrder (reached ok rest) st.log.trace (reason res) := by
  refine ⟨fun g o s hr => ?_, fun g env => ⟨run_terminates g env .new, fun fuel st res h hne =>
    run_grammar hne h⟩⟩
  have hi := lifecycleInv hr
  have hx := exitInv hr
  obtain ⟨work, done, failed, aborted, r, hshape, hcoord⟩ := hi.shape
  refine ⟨fun n hn => ?_, hshape.phases, fun hd hne => ?_⟩
  · exact (hshape.nodeGrammar g.order_nodup hn).imp And.right And.right
  · have hdone := (controlInv hr).done (by rw [hd]; rfl)
    rw [hd] at hcoord
    refine ⟨_, hdone.2.1, ?_⟩
    have hgrammar := LifecycleGrammar.of_shape g.order_nodup hne hshape (hcoord _ hdone.2.1)
    refine ⟨fun n hn => ?_, hgrammar.phases, hgrammar.ok_iff, hgrammar.err_iff, hgrammar.reason⟩
    have hexit := (collected_exited hx (worker_alive hr) (by simp [hd]) hn).1
    have hvisited : s.visited n = true := by simp [State.visited, hexit, WorkerPc.visited]
    exact .inr ⟨rfl, (((hgrammar.nodes n hn).resolve_left (by simp [hvisited])).2)⟩

/-- An environment in which every callback succeeds and emits nothing, except that `on_prepare`
fails where `refuse` says so. -/
def quietEnvironment (refuse : NodeId → Bool) : Environment Unit where
  prepare _ n := if refuse n then .panicked "" else .ok ()
  process _ _ _ _ := .ok []
  finish _ _ := .ok ()
  policy _ _ _ := ⟨.ok .accept, .ok (.drop ""), .ok (), .ok ()⟩

/-- A concurrent run and a run of `GraphRunner`, both to success. -/
theorem lifecycle_grammar_finished :
    (∃ s : State Unit, sampleSystem.ReachableBy (TicksFit sampleGraph sampleOptions) s ∧
      s.control.result = some (.ok ⟨2⟩) ∧
      LifecycleGrammar [0, 1] (fun _ => true) s.log.trace none) ∧
    ∃ (st : RunnerState Unit) (res : _) (ok rest : List NodeId),
      run sampleGraph (quietEnvironment fun _ => false) 0 .new = some (st, res) ∧
      [0, 1] = ok ++ rest ∧ LifecycleGrammar [0, 1] (reached ok rest) st.log.trace none := by
  constructor
  · obtain ⟨s, hr, ht⟩ := sampleSystem.exists_reachableBy_of_runBy
      (C := TicksFit sampleGraph sampleOptions) rfl
      (Label.works 0 2 ++ Label.works 1 2 ++ Label.works 0 9 ++ Label.forwards 8 ++
        Label.works 1 16 ++ Label.coordinates 11)
      (fun s => s.coordinator.pc = .done ∧ s.control.result = some (.ok ⟨2⟩)) (by decide +kernel)
    simp only [decide_eq_true_eq] at ht
    obtain ⟨-, -, hdone⟩ := lifecycle_grammar.1 sampleGraph sampleOptions s hr
    obtain ⟨out, hout, hg⟩ := hdone ht.1 (by decide)
    rw [ht.2] at hout
    cases hout
    exact ⟨s, hr, ht.2, hg⟩
  · obtain ⟨-, hrun⟩ :=
      (lifecycle_grammar (β := Unit)).2 sampleGraph (quietEnvironment fun _ => false)
    have hres : ((run sampleGraph (quietEnvironment fun _ => false) 0 .new).map fun p =>
        reason p.2) = some none := by decide +kernel
    obtain ⟨⟨st, res⟩, heq, hok⟩ := Option.map_eq_some_iff.mp hres
    obtain ⟨ok, rest, horder, -, -, hg⟩ := hrun 0 st res heq (by decide)
    exact ⟨st, res, ok, rest, heq, horder, hok ▸ hg⟩

/-- A graph without nodes. -/
def emptyGraph : GraphDefinition where
  nodes := []
  edges := []
  topologicalOrder := []
  nodes_nodup := by decide
  edges_nodup := by decide
  order_perm := by decide
  endpoints := by decide
  forward := by decide
  no_source_input := by decide

/-- `GraphRunner` never calls `on_prepare` of a node behind one whose `on_prepare` failed; and a
stopped run without nodes is an error although no `on_finish` is missing and no `on_abort` ran. -/
theorem lifecycle_grammar_gaps :
    ((run sampleGraph (quietEnvironment (· = 0)) 0 .new).map fun p =>
      (nodeTrace 1 p.1.log.trace, decide (nodeTrace 0 p.1.log.trace = [.prepare 0 false]))) =
        some ([], true) ∧
    ∃ s : State Unit, (system emptyGraph sampleOptions).Reachable s ∧
      s.control.result = some (.err cancellationAbort) ∧ s.log.trace = [] := by
  refine ⟨by decide +kernel, ?_⟩
  obtain ⟨s, hr, ht⟩ := (system emptyGraph sampleOptions).exists_reachable_of_run rfl
    (Label.stopBegin :: .replicate 3 (.stop 0) ++ Label.coordinates 4)
    (fun s => s.control.result = some (.err cancellationAbort) ∧ s.log.trace = [])
    (by decide +kernel)
  exact ⟨s, hr, by simpa only [decide_eq_true_eq] using ht⟩

end Muxiva
