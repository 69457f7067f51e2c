import Muxiva.Kahn.Network
import Muxiva.Runner.Model

/-! What an execution of `GraphRunner` that returns `Ok` leaves in its log: the equations of the
network. -/
set_option linter.all false
namespace Muxiva.Kahn

open Muxiva.Edge (EdgePolicy)
open Muxiva.Runner (Disposition DispatchItem RunnerState)
open Muxiva.Runtime (CallOutcome PolicyCall PolicyAnswers EdgeAction EdgeOutcome EdgeQueue emittedOn)
open Transducer

variable {α ν π β : Type}

/-- The two runners make the same of a frame. -/
def Matches : Disposition β → EdgeOutcome β → Prop
  | .deliver f, .deliver f' => f = f'
  | .dropped, .settled => True
  | .observed _, .settled => True
  | .fail _, .fail _ => True
  | _, _ => False

theorem askPolicy_matches {τ : Type} (c : PolicyCall τ) (e : EdgeDescriptor) (q : EdgeQueue α)
    (phase : String) {k : τ → Disposition β} {k' : τ → EdgeOutcome β × EdgeQueue α}
    (h : ∀ value, c = .ok value → Matches (k value) (k' value).1) :
    Matches (Runner.askPolicy c e phase k) (c.andThen e q phase k').1 := by
  cases c with
  | ok value => exact h value rfl
  | error err => trivial
  | panicked m => trivial

variable [DecidableEq β]

theorem applyEdge_matches (e : EdgeDescriptor) (answers : PolicyAnswers β) (f : Frame β)
    (q : EdgeQueue α) :
    Matches (Runner.applyEdge e answers f) (Runtime.applyEdge e answers f q).1 := by
  have hdrop : ∀ reason, Matches (Runner.dropFrame e answers)
      (Runtime.recordPolicyDrop e q answers reason).1 :=
    fun reason => askPolicy_matches _ e _ _ fun _ _ => trivial
  unfold Runner.applyEdge Runtime.applyEdge
  split_ifs
  · trivial
  refine askPolicy_matches _ e q _ fun decision _ => ?_
  cases decision with
  | reject reason =>
    cases hv : e.validationPolicy with
    | typeGateOnly => exact hdrop reason
    | named onFailure =>
      cases onFailure with
      | drop => exact hdrop reason
      | abort => trivial
  | accept =>
    refine askPolicy_matches _ e q _ fun action _ => ?_
    cases action with
    | forward frame =>
      simp only [Runner.applyAction, Runtime.applyAction, Runner.deliver]
      by_cases hsame : frame ≠ f ∨ frame.frameId ≠ f.frameId
      · rw [if_pos hsame, if_pos hsame]
        trivial
      · rw [if_neg hsame, if_neg hsame]
        by_cases ht : frame.frameType ≠ e.frameType
        · simp only [if_pos ht]
          trivial
        · simp only [if_neg ht]
          rfl
    | replace replacement =>
      simp only [Runner.applyAction, Runtime.applyAction, Runner.deliver]
      by_cases hid : replacement.frameId = f.frameId
      · rw [if_pos hid, if_pos (.inl hid)]
        trivial
      by_cases htype : replacement.frameType ≠ e.frameType
      · rw [if_neg hid, if_pos htype, if_pos (.inr htype)]
        trivial
      rw [if_neg hid, if_neg htype, if_neg (not_or.mpr ⟨hid, htype⟩)]
      cases f.attachReplacementLineage replacement e.edgeId "edge policy replacement" with
      | error err => trivial
      | ok frame =>
        by_cases ht : frame.frameType ≠ e.frameType
        · simp only [if_pos ht]
          trivial
        · simp only [if_neg ht]
          rfl
    | drop reason =>
      simp only [Runner.applyAction, Runtime.applyAction, Runtime.recordPolicyDrop,
        Runner.dropFrame]
      cases answers.onDrop <;> trivial
    | abort reason => trivial
    | emitSignal frame =>
      simp only [Runner.applyAction, Runtime.applyAction]
      by_cases ht : frame.frameType ≠ .signal
      · rw [if_pos ht, if_pos ht]
        trivial
      · rw [if_neg ht, if_neg ht]
        cases answers.onSignal <;> trivial

/-- What the edge hands on of a frame, with the policy's answers. -/
def handedOn (e : EdgeDescriptor) (p : Frame β × PolicyAnswers β) : List (Frame β) :=
  match Runner.applyEdge e p.2 p.1 with
  | .deliver f => [f]
  | _ => []

def Passed (e : EdgeDescriptor) (p : Frame β × PolicyAnswers β) : Prop :=
  ∀ r, Runner.applyEdge e p.2 p.1 ≠ .fail r

omit [DecidableEq β] in
/-- The frames of `e` on the worklist. -/
def waitingOn (e : EdgeDescriptor) (worklist : List (DispatchItem β)) : List (Frame β) :=
  (worklist.filter (·.edge = e)).map (·.frame)

omit [DecidableEq β] in
theorem waitingOn_append (e : EdgeDescriptor) (wl wl' : List (DispatchItem β)) :
    waitingOn e (wl ++ wl') = waitingOn e wl ++ waitingOn e wl' := by
  simp [waitingOn]

omit [DecidableEq β] in
theorem waitingOn_items (e e' : EdgeDescriptor) (fs : List (Frame β)) :
    waitingOn e (fs.map (DispatchItem.mk e')) = if e' = e then fs else [] := by
  unfold waitingOn
  split_ifs with he
  · simp [List.filter_map, Function.comp_def, he]
  · simp [List.filter_map, Function.comp_def, he]

/-- The equations of the network in the midst of an execution: some frames wait on the worklist,
some are `pending` before the pipelines of their edges. -/
structure Serving (g : GraphDefinition) (net : Network ν π β) (calls : NodeId → ℕ)
    (log : Runner.Log β) (worklist : List (DispatchItem β))
    (pending : EdgeDescriptor → List (Frame β)) : Prop where
  sources : ∀ n, g.isSource n = true → (log.outputs n).length = calls n
  answers : ∀ n, responses (net.node n).answer (runnerInputs g n log) =
    (log.outputs n).map CallOutcome.ok
  routed : ∀ n, ∀ out ∈ log.outputs n, Runtime.routeError g n out = none
  sent : ∀ e ∈ g.enabledEdges, (log.applied e).map Prod.fst ++ pending e =
    (log.outputs e.fromNodeId).flatMap (emittedOn e)
  policy : ∀ e ∈ g.enabledEdges, (log.applied e).map Prod.snd =
    responses (net.policyAnswers e) ((log.applied e).map Prod.fst)
  passed : ∀ e ∈ g.enabledEdges, ∀ p ∈ log.applied e, Passed e p
  processed : ∀ e ∈ g.enabledEdges, log.processed e ++ waitingOn e worklist =
    (log.applied e).flatMap (handedOn e)
  worklist : ∀ item ∈ worklist, item.edge ∈ g.enabledEdges

variable {g : GraphDefinition} {net : Network ν π β} {calls : NodeId → ℕ} {log : Runner.Log β}
  {st st' : RunnerState β} {wl wl' : List (DispatchItem β)}
  {pending pending' : EdgeDescriptor → List (Frame β)}

/-- One frame goes through the pipeline of its edge. -/
theorem Serving.handle (hi : Serving g net calls log wl pending) {e : EdgeDescriptor}
    (he : e ∈ g.enabledEdges) {f : Frame β} {p : Frame β × PolicyAnswers β}
    (hp : p = (f, net.policyAnswers e ((log.applied e).map Prod.fst) f)) (hpass : Passed e p)
    (hpend : pending e = f :: pending' e) (hother : ∀ e' ∈ g.enabledEdges, e' ≠ e →
      pending e' = pending' e')
    (hwl : wl' = wl ++ (handedOn e p).map (DispatchItem.mk e)) :
    Serving g net calls
      { log with applied := Function.update log.applied e (log.applied e ++ [p]) } wl' pending' where
  sources := hi.sources
  answers := hi.answers
  routed := hi.routed
  sent e' he' := by
    have hsent := hi.sent e' he'
    by_cases hee : e' = e
    · subst hee
      rw [hpend] at hsent
      simpa [hp] using hsent
    · rw [hother e' he' hee] at hsent
      simpa [hee] using hsent
  policy e' he' := by
    have hpolicy := hi.policy e' he'
    by_cases hee : e' = e
    · subst hee
      simp [hp, hpolicy]
    · simpa [hee] using hpolicy
  passed e' he' := by
    intro q hq
    by_cases hee : e' = e
    · subst hee
      simp only [Function.update_self, List.mem_append, List.mem_singleton] at hq
      rcases hq with hq | rfl
      · exact hi.passed e' he' q hq
      · exact hpass
    · simp only [Function.update_of_ne hee] at hq
      exact hi.passed e' he' q hq
  processed e' he' := by
    have hproc := hi.processed e' he'
    rw [hwl, waitingOn_append, waitingOn_items]
    by_cases hee : e' = e
    · subst hee
      simp [← hproc]
    · simp [hee, Ne.symm hee, hproc]
  worklist item hmem := by
    rw [hwl, List.mem_append, List.mem_map] at hmem
    rcases hmem with hmem | ⟨f, -, rfl⟩
    · exact hi.worklist item hmem
    · exact he

theorem routeEdges_serving {f : Frame β} {es : List EdgeDescriptor} (hnd : es.Nodup)
    (hes : ∀ e ∈ es, e ∈ g.enabledEdges)
    (hp : ∀ e ∈ g.enabledEdges, pending e = if e ∈ es then f :: pending' e else pending' e)
    (hi : Serving g net calls st.log wl pending)
    (h : Runner.routeEdges (net.environment g) st wl f es = (st', wl', none)) :
    Serving g net calls st'.log wl' pending' := by
  induction es generalizing st wl pending with
  | nil =>
    cases h
    have hpend : ∀ e ∈ g.enabledEdges, pending e = pending' e := by simpa using hp
    exact ⟨hi.sources, hi.answers, hi.routed, fun e he => hpend e he ▸ hi.sent e he, hi.policy,
      hi.passed, hi.processed, hi.worklist⟩
  | cons e es ih =>
    rw [List.nodup_cons] at hnd
    have he := hes e List.mem_cons_self
    have hmem : ∀ e' ∈ es, e' ∈ g.enabledEdges := fun e' he' => hes e' (List.mem_cons_of_mem _ he')
    let rest : EdgeDescriptor → List (Frame β) := fun e' => if e' ∈ es then f :: pending' e' else pending' e'
    have hrest : ∀ e' ∈ g.enabledEdges, rest e' = if e' ∈ es then f :: pending' e' else pending' e' :=
      fun _ _ => rfl
    have hpend : pending e = f :: rest e := by
      rw [hp e he, if_pos List.mem_cons_self]
      simp [rest, hnd.1]
    have hother : ∀ e' ∈ g.enabledEdges, e' ≠ e → pending e' = rest e' := by
      intro e' he' hne
      rw [hp e' he']
      simp [rest, hne]
    unfold Runner.routeEdges at h
    simp only at h
    generalize hans : (net.environment g).policy st.log e f = answers at h
    have hp : (f, answers) = (f, net.policyAnswers e ((st.log.applied e).map Prod.fst) f) := by
      rw [← hans]
      rfl
    cases hd : Runner.applyEdge e answers f with
    | deliver f' =>
      simp only [hd] at h
      exact ih hnd.2 hmem hrest (hi.handle he hp (by simp [Passed, hd]) hpend hother
        (by simp [handedOn, hd])) h
    | dropped =>
      simp only [hd] at h
      exact ih hnd.2 hmem hrest (hi.handle he hp (by simp [Passed, hd]) hpend hother
        (by simp [handedOn, hd])) h
    | observed signal =>
      simp only [hd] at h
      exact ih hnd.2 hmem hrest (hi.handle he hp (by simp [Passed, hd]) hpend hother
        (by simp [handedOn, hd])) h
    | fail r =>
      simp only [hd] at h
      cases h

/-- `route_emissions` rejects what `route` of the concurrent runtime rejects. -/
theorem routeError_of_routed {n : NodeId} {emissions : List (PortName × Frame β)}
    (h : Runner.routeEmissions g (net.environment g) n st wl emissions = (st', wl', none)) :
    Runtime.routeError g n emissions = none := by
  induction emissions generalizing st wl with
  | nil => rfl
  | cons em rest ih =>
    obtain ⟨p, f⟩ := em
    simp only [Runner.routeEmissions] at h
    simp only [Runtime.routeError]
    cases hport : g.outputPort n p with
    | none =>
      simp only [hport] at h
      cases h
    | some port =>
      simp only [hport] at h ⊢
      by_cases htype : f.frameType ≠ port.frameType
      · rw [if_pos htype] at h
        cases h
      · rw [if_neg htype] at h ⊢
        rcases hroute : Runner.routeEdges (net.environment g) st wl f (Runner.routes g n p) with
          ⟨st₁, wl₁, _ | r⟩
        · simp only [hroute] at h
          exact ih h
        · simp only [hroute] at h
          cases h

theorem routeEmissions_serving {n : NodeId} {emissions : List (PortName × Frame β)}
    (hp : ∀ e ∈ g.enabledEdges, pending e = if e.fromNodeId = n then emittedOn e emissions else [])
    (hi : Serving g net calls st.log wl pending)
    (h : Runner.routeEmissions g (net.environment g) n st wl emissions = (st', wl', none)) :
    Serving g net calls st'.log wl' fun _ => [] := by
  induction emissions generalizing st wl pending with
  | nil =>
    cases h
    have hpend : ∀ e ∈ g.enabledEdges, pending e = [] := by simpa [emittedOn] using hp
    exact ⟨hi.sources, hi.answers, hi.routed, fun e he => hpend e he ▸ hi.sent e he, hi.policy,
      hi.passed, hi.processed, hi.worklist⟩
  | cons em rest ih =>
    obtain ⟨p, f⟩ := em
    have hrouted := routeError_of_routed h
    simp only [Runner.routeEmissions] at h
    simp only [Runtime.routeError] at hrouted
    cases hport : g.outputPort n p with
    | none =>
      simp only [hport] at hrouted
      cases hrouted
    | some port =>
      simp only [hport] at h
      split_ifs at h with htype
      · cases h
      rcases hroute : Runner.routeEdges (net.environment g) st wl f (Runner.routes g n p) with
        ⟨st₁, wl₁, _ | r⟩
      · simp only [hroute] at h
        refine ih (fun _ _ => rfl) (routeEdges_serving ((g.edges_nodup.of_map _).filter _)
          (fun e he => ?_) (fun e he => ?_) hi hroute) h
        · simp only [List.mem_filter, decide_eq_true_eq] at he
          exact List.mem_filter.mpr ⟨he.1, he.2.1⟩
        · obtain ⟨hedge, hen⟩ := List.mem_filter.mp he
          rw [hp e he]
          by_cases hn : e.fromNodeId = n
          · by_cases hport : p = e.fromOutputPort
            · simp [emittedOn, hedge, hen, hn, hport]
            · simp [emittedOn, hn, hport, Ne.symm hport]
          · simp [hn]
      · simp only [hroute] at h
        cases h

/-- A node is called with one more input. -/
theorem Serving.called {log' : Runner.Log β} {calls' : NodeId → ℕ} {n : NodeId} {i : Input β}
    {emissions : List (PortName × Frame β)} (hi : Serving g net calls log wl fun _ => [])
    (hn : runnerInputs g n log' = runnerInputs g n log ++ [i])
    (hm : ∀ m, m ≠ n → runnerInputs g m log' = runnerInputs g m log)
    (hans : (net.node n).answer (runnerInputs g n log) i = .ok emissions)
    (hroute : Runtime.routeError g n emissions = none)
    (ho : log'.outputs = Function.update log.outputs n (log.outputs n ++ [emissions]))
    (ha : log'.applied = log.applied)
    (hp : ∀ e ∈ g.enabledEdges,
      log'.processed e ++ waitingOn e wl' = log.processed e ++ waitingOn e wl)
    (hwl : ∀ item ∈ wl', item ∈ wl)
    (hc : ∀ m, g.isSource m = true → calls' m = if m = n then calls m + 1 else calls m) :
    Serving g net calls' log' wl' fun e => if e.fromNodeId = n then emittedOn e emissions else [] where
  sources m hs := by
    have hsources := hi.sources m hs
    rw [ho, hc m hs]
    by_cases hmn : m = n
    · subst hmn
      simp [hsources]
    · simp [hmn, hsources]
  answers m := by
    have hanswers := hi.answers m
    rw [ho]
    by_cases hmn : m = n
    · subst hmn
      simp [hn, hanswers, hans]
    · simp [hm m hmn, hmn, hanswers]
  routed m out hout := by
    rw [ho] at hout
    by_cases hmn : m = n
    · subst hmn
      simp only [Function.update_self, List.mem_append, List.mem_singleton] at hout
      rcases hout with hout | rfl
      · exact hi.routed m out hout
      · exact hroute
    · rw [Function.update_of_ne hmn] at hout
      exact hi.routed m out hout
  sent e he := by
    have hsent := hi.sent e he
    rw [ho, ha]
    by_cases hen : e.fromNodeId = n
    · subst hen
      simpa using hsent
    · simpa [hen] using hsent
  policy e he := by
    rw [ha]
    exact hi.policy e he
  passed e he := by
    rw [ha]
    exact hi.passed e he
  processed e he := by
    rw [ha, hp e he]
    exact hi.processed e he
  worklist item hmem := hi.worklist item (hwl item hmem)

omit [DecidableEq β] in
/-- The log after a successful `on_process` call. -/
def calledLog (log : Runner.Log β) (n : NodeId) (input : Option (DispatchItem β))
    (emissions : List (PortName × Frame β)) : Runner.Log β where
  trace := log.trace ++ [.process n (input.map (·.edge))]
  outputs := Function.update log.outputs n (log.outputs n ++ [emissions])
  applied := log.applied
  processed := match input with
    | some item => Function.update log.processed item.edge (log.processed item.edge ++ [item.frame])
    | none => log.processed

theorem serve_ok {n : NodeId} {input : Option (DispatchItem β)}
    (h : Runner.serve g (net.environment g) n input st wl = (st', wl', none)) :
    ∃ emissions, (net.environment g).process st.log n (input.map (·.frame))
        (input.map (·.edge.toInputPort)) = .ok emissions ∧
      Runner.routeEmissions g (net.environment g) n
        { st with log := calledLog st.log n input emissions } wl emissions = (st', wl', none) := by
  unfold Runner.serve at h
  simp only at h
  cases hcall : (net.environment g).process st.log n (input.map (·.frame))
      (input.map (·.edge.toInputPort)) with
  | ok emissions =>
    simp only [hcall, Runner.callResult] at h
    exact ⟨emissions, rfl, h⟩
  | error err =>
    simp only [hcall, Runner.callResult] at h
    cases h
  | panicked m =>
    simp only [hcall, Runner.callResult] at h
    cases h

theorem serve_item (hin : ∀ n, (g.incoming n).length ≤ 1) {item : DispatchItem β}
    (hi : Serving g net calls st.log (item :: wl) fun _ => [])
    (h : Runner.serve g (net.environment g) item.edge.toNodeId (some item) st wl =
      (st', wl', none)) : Serving g net calls st'.log wl' fun _ => [] := by
  obtain ⟨emissions, hcall, hroute⟩ := serve_ok h
  have he : item.edge ∈ g.enabledEdges := hi.worklist item List.mem_cons_self
  have hmem : item.edge ∈ g.incoming item.edge.toNodeId :=
    GraphDefinition.mem_incoming.mpr ⟨he, rfl⟩
  have hs : ¬ g.isSource item.edge.toNodeId = true := by
    intro hs
    rw [GraphDefinition.incoming_source hs] at hmem
    cases hmem
  have hcalled : Serving g net calls (calledLog st.log item.edge.toNodeId (some item) emissions) wl
      fun e => if e.fromNodeId = item.edge.toNodeId then emittedOn e emissions else [] := by
    refine hi.called ?_ ?_ hcall (routeError_of_routed hroute) rfl rfl ?_ ?_ ?_
    · rw [runnerInputs, runnerInputs, inputsOf_target (hin _) he, inputsOf_target (hin _) he]
      simp [calledLog]
    · intro m hm
      refine inputsOf_congr (fun _ => ?_) fun e hem => ?_
      · simp [calledLog, hm]
      · have hne : e ≠ item.edge := by
          rintro rfl
          exact hm (GraphDefinition.mem_incoming.mp hem).2.symm
        simp [calledLog, hne]
    · intro e _
      by_cases hee : e = item.edge
      · subst hee
        simp [calledLog, waitingOn]
      · simp [calledLog, waitingOn, hee, Ne.symm hee]
    · exact fun item' hmem' => List.mem_cons_of_mem _ hmem'
    · intro m hm
      rw [if_neg]
      rintro rfl
      exact hs hm
  exact routeEmissions_serving (fun _ _ => rfl) hcalled hroute

theorem serve_source {n : NodeId} (hs : g.isSource n = true)
    (hi : Serving g net calls st.log [] fun _ => [])
    (h : Runner.serve g (net.environment g) n none st [] = (st', wl', none)) :
    Serving g net (Function.update calls n (calls n + 1)) st'.log wl' fun _ => [] := by
  obtain ⟨emissions, hcall, hroute⟩ := serve_ok h
  have hcalled : Serving g net (Function.update calls n (calls n + 1))
      (calledLog st.log n none emissions) []
      fun e => if e.fromNodeId = n then emittedOn e emissions else [] := by
    refine hi.called ?_ ?_ hcall (routeError_of_routed hroute) rfl rfl ?_ ?_ ?_
    · rw [runnerInputs, runnerInputs, inputsOf_source hs, inputsOf_source hs]
      simp [calledLog, List.replicate_succ']
    · intro m hm
      refine inputsOf_congr (fun _ => ?_) fun e _ => ?_
      · simp [calledLog, hm]
      · simp [calledLog]
    · intro e _
      simp [calledLog]
    · exact fun item hmem => hmem
    · intro m _
      by_cases hm : m = n
      · subst hm
        simp
      · simp [hm]
  exact routeEmissions_serving (fun _ _ => rfl) hcalled hroute

theorem drain_serving (hin : ∀ n, (g.incoming n).length ≤ 1) {fuel : ℕ}
    (hi : Serving g net calls st.log wl fun _ => [])
    (h : Runner.drain g (net.environment g) fuel st wl = some (st', none)) :
    Serving g net calls st'.log [] fun _ => [] := by
  induction fuel generalizing st wl with
  | zero =>
    cases wl with
    | nil =>
      cases h
      exact hi
    | cons item wl => cases h
  | succ fuel ih =>
    cases wl with
    | nil =>
      cases h
      exact hi
    | cons item wl =>
      simp only [Runner.drain] at h
      rcases hserve : Runner.serve g (net.environment g) item.edge.toNodeId (some item) st wl with
        ⟨st₁, wl₁, _ | r⟩
      · simp only [hserve] at h
        exact ih (serve_item hin hi hserve) h
      · simp only [hserve] at h
        cases h

omit [DecidableEq β] in
theorem Serving.congr_calls [DecidableEq β] {calls' : NodeId → ℕ}
    (hi : Serving g net calls log wl pending)
    (h : ∀ n, g.isSource n = true → calls n = calls' n) : Serving g net calls' log wl pending :=
  ⟨fun n hs => (hi.sources n hs).trans (h n hs), hi.answers, hi.routed, hi.sent, hi.policy,
    hi.passed, hi.processed, hi.worklist⟩

/-- Every source of the list is called once more. -/
theorem runSources_serving (hin : ∀ n, (g.incoming n).length ≤ 1) {fuel : ℕ} {order : List NodeId}
    (hnd : order.Nodup) (hi : Serving g net calls st.log [] fun _ => [])
    (h : Runner.runSources g (net.environment g) fuel st order = some (st', none)) :
    Serving g net (fun n => if n ∈ order then calls n + 1 else calls n) st'.log [] fun _ => [] := by
  induction order generalizing st calls with
  | nil =>
    cases h
    simpa using hi
  | cons n rest ih =>
    rw [List.nodup_cons] at hnd
    simp only [Runner.runSources] at h
    by_cases hs : g.isSource n = true
    · rw [if_pos hs] at h
      rcases hserve : Runner.serve g (net.environment g) n none st [] with ⟨st₁, wl, _ | r⟩
      · simp only [hserve] at h
        rcases hdrain : Runner.drain g (net.environment g) fuel st₁ wl with _ | ⟨st₂, _ | r⟩
        · simp only [hdrain] at h
          cases h
        · simp only [hdrain] at h
          have hnext := ih hnd.2 (drain_serving hin (serve_source hs hi hserve) hdrain) h
          refine hnext.congr_calls fun m _ => ?_
          by_cases hm : m = n
          · subst hm
            simp [hnd.1]
          · simp [hm]
        · simp only [hdrain] at h
          cases h
      · simp only [hserve] at h
        cases h
    · rw [if_neg hs] at h
      refine (ih hnd.2 hi h).congr_calls fun m hm => ?_
      have hne : m ≠ n := by
        rintro rfl
        exact hs hm
      simp [hne]

omit [DecidableEq β] in
/-- `log'` has what `log` says about nodes and edges. -/
structure SameData (log log' : Runner.Log β) : Prop where
  outputs : log'.outputs = log.outputs
  applied : log'.applied = log.applied
  processed : log'.processed = log.processed

omit [DecidableEq β] in
theorem SameData.inputs {log' : Runner.Log β} (h : SameData log log') (n : NodeId) :
    runnerInputs g n log' = runnerInputs g n log := by
  rw [runnerInputs, runnerInputs, h.outputs, h.processed]

theorem Serving.of_sameData {log' : Runner.Log β} (hi : Serving g net calls log wl pending)
    (h : SameData log log') : Serving g net calls log' wl pending where
  sources := by rw [h.outputs]; exact hi.sources
  answers n := by rw [h.inputs, h.outputs]; exact hi.answers n
  routed := by rw [h.outputs]; exact hi.routed
  sent := by rw [h.outputs, h.applied]; exact hi.sent
  policy := by rw [h.applied]; exact hi.policy
  passed := by rw [h.applied]; exact hi.passed
  processed := by rw [h.processed, h.applied]; exact hi.processed
  worklist := hi.worklist

omit [DecidableEq β] in
theorem callResult_ok {c : CallOutcome Unit} {n : NodeId} {stage : AbortStage} {u : Unit}
    (h : Runner.callResult c n stage = .ok u) : c = .ok () := by
  cases c with
  | ok value => rfl
  | error e => cases h
  | panicked m => cases h

theorem prepareAll_ok {order : List NodeId}
    (h : Runner.prepareAll (net.environment g) st order = (st', none)) :
    (∀ n ∈ order, (net.node n).prepared = .ok ()) ∧ SameData st.log st'.log := by
  induction order generalizing st with
  | nil =>
    cases h
    exact ⟨by simp, rfl, rfl, rfl⟩
  | cons n rest ih =>
    simp only [Runner.prepareAll] at h
    cases hcall : Runner.callResult ((net.environment g).prepare st.log n) n .prepare with
    | ok value =>
      simp only [hcall] at h
      obtain ⟨hrest, hsame⟩ := ih h
      refine ⟨fun m hm => ?_, hsame.outputs, hsame.applied, hsame.processed⟩
      rcases List.mem_cons.mp hm with rfl | hm
      · exact callResult_ok hcall
      · exact hrest m hm
    | error r =>
      simp only [hcall] at h
      cases h

theorem finishAll_ok {order : List NodeId}
    (h : Runner.finishAll (net.environment g) st order = (st', none)) :
    (∀ n ∈ order, (net.node n).finished (runnerInputs g n st.log) = .ok ()) ∧
      SameData st.log st'.log := by
  induction order generalizing st with
  | nil =>
    cases h
    exact ⟨by simp, rfl, rfl, rfl⟩
  | cons n rest ih =>
    simp only [Runner.finishAll] at h
    cases hcall : Runner.callResult ((net.environment g).finish st.log n) n .finish with
    | ok value =>
      simp only [hcall] at h
      obtain ⟨hrest, hsame⟩ := ih h
      refine ⟨fun m hm => ?_, hsame.outputs, hsame.applied, hsame.processed⟩
      rcases List.mem_cons.mp hm with rfl | hm
      · exact callResult_ok hcall
      · exact hrest m hm
    | error r =>
      simp only [hcall] at h
      cases h

/-- The log of a whole execution: every node was prepared and finished, every source called once,
and outputs, edges and inputs solve the equations of the network. -/
structure Solution (g : GraphDefinition) (net : Network ν π β) (log : Runner.Log β) : Prop where
  prepared : ∀ n ∈ g.topologicalOrder, (net.node n).prepared = .ok ()
  flow : Serving g net (fun _ => 1) log [] fun _ => []
  finished : ∀ n ∈ g.topologicalOrder, (net.node n).finished (runnerInputs g n log) = .ok ()

omit [DecidableEq β] in
theorem mem_order_of_isSource {n : NodeId} (hs : g.isSource n = true) : n ∈ g.topologicalOrder := by
  unfold GraphDefinition.isSource at hs
  cases hd : g.node n with
  | none => simp [hd] at hs
  | some d =>
    have hid : d.nodeId = n := by simpa using List.find?_some hd
    rw [g.order_perm.mem_iff, ← hid]
    exact List.mem_map_of_mem (List.mem_of_find?_eq_some hd)

theorem solution_of_run (hin : ∀ n, (g.incoming n).length ≤ 1) {fuel : ℕ}
    {summary : Runner.GraphRunSummary}
    (h : Runner.run g (net.environment g) fuel .new = some (st, .ok summary)) :
    Solution g net st.log := by
  have hempty : Serving g net (fun _ => 0) (RunnerState.new (β := β)).log [] fun _ => [] := by
    refine ⟨fun _ _ => rfl, fun n => ?_, by simp [RunnerState.new], by simp [RunnerState.new],
      by simp [RunnerState.new], by simp [RunnerState.new], by simp [RunnerState.new, waitingOn],
      by simp⟩
    have hinputs : runnerInputs g n (RunnerState.new (β := β)).log = [] := by
      unfold runnerInputs inputsOf
      split_ifs <;> simp [RunnerState.new]
    rw [hinputs]
    rfl
  unfold Runner.run Runner.execute at h
  rw [if_neg (by simp [RunnerState.new])] at h
  rcases hprep : Runner.prepareAll (net.environment g)
    { (RunnerState.new : RunnerState β) with state := .preparing } g.topologicalOrder with
    ⟨st₁, _ | r⟩
  · obtain ⟨hprepared, hsame⟩ := prepareAll_ok hprep
    rcases hsources : Runner.runSources g (net.environment g) fuel
      { st₁ with state := .running } g.topologicalOrder with _ | ⟨st₂, _ | r⟩
    · simp [hprep, hsources] at h
    · rcases hfin : Runner.finishAll (net.environment g) { st₂ with state := .finishing }
        g.topologicalOrder.reverse with ⟨st₃, _ | r⟩
      · simp only [hprep, hsources, hfin, Option.some.injEq, Prod.mk.injEq] at h
        obtain ⟨rfl, -⟩ := h
        obtain ⟨hfinished, hsame'⟩ := finishAll_ok hfin
        have hstart : Serving g net (fun _ => 0) { st₁ with state := .running }.log []
            fun _ => [] := hempty.of_sameData hsame
        have hflow := runSources_serving hin g.order_nodup hstart hsources
        refine ⟨hprepared, ?_, fun n hn => ?_⟩
        · refine (hflow.of_sameData hsame').congr_calls fun n hs => ?_
          rw [if_pos (mem_order_of_isSource hs)]
        · rw [← hfinished n (List.mem_reverse.mpr hn)]
          exact congrArg _ (hsame'.inputs n)
      · simp [hprep, hsources, hfin] at h
    · simp [hprep, hsources] at h
  · simp [hprep] at h

end Muxiva.Kahn
