import Muxiva.Node.Context
import Muxiva.Runner.Lifecycle
import Muxiva.Runtime.Link

/-! Callbacks that ask for more emissions than their limit. The concurrent runtime reads the
overflow flag of the context after every call and aborts; `GraphRunner` never reads it, so there the
run goes on with what the context kept unless the callback itself fails. -/
set_option linter.all false
namespace Muxiva.Runner

open Muxiva.Runtime (PolicyAnswers)

variable {β : Type} (source : SignalFrame β → NodeId) (script : ℕ → Callback β)
  (policy : Log β → EdgeDescriptor → Frame β → PolicyAnswers β)

/-- The nodes of a run whose `k`-th callback is `script k`. -/
def environment : Environment β where
  prepare log _ := (script log.trace.length).answer ()
  process log n _ _ :=
    let cb := script log.trace.length
    cb.answer ((NodeContext.withRuntimeServices n).serveAll source cb.requests).emissions
  finish log _ := (script log.trace.length).answer ()
  policy := policy

/-- Every callback so far returned `Ok`. -/
def Served (st : RunnerState β) : Prop :=
  ∀ k < st.log.trace.length, (script k).outcome = .ok ()

variable {source script policy} {g : GraphDefinition} {st st' : RunnerState β}

/-- One more callback that returned `Ok`. -/
theorem served_call {τ : Type} {value v : τ} {n : NodeId} {stage : AbortStage} (ev : Event)
    (h : Served script st) (ht : st'.log.trace = st.log.trace ++ [ev])
    (hc : callResult ((script st.log.trace.length).answer value) n stage = .ok v) :
    Served script st' := by
  have hok : (script st.log.trace.length).outcome = .ok () := by
    unfold Callback.answer at hc
    split at hc
    · rename_i hout
      exact hout
    · cases hc
    · cases hc
  intro k hk
  rw [ht, List.length_append, List.length_singleton] at hk
  rcases Nat.lt_succ_iff_lt_or_eq.mp hk with hlt | rfl
  · exact h k hlt
  · exact hok

theorem Served.of_trace (h : Served script st) (ht : st'.log.trace = st.log.trace) :
    Served script st' := by
  intro k hk
  rw [ht] at hk
  exact h k hk

theorem prepareAll_served (order : List NodeId) (h : Served script st)
    (hp : prepareAll (environment source script policy) st order = (st', none)) :
    Served script st' := by
  induction order generalizing st with
  | nil => cases hp; exact h
  | cons n rest ih =>
    simp only [prepareAll, environment] at hp
    split at hp
    · rename_i hc
      exact ih (served_call (.prepare n true) h rfl hc) hp
    · cases hp

theorem finishAll_served (order : List NodeId) (h : Served script st)
    (hf : finishAll (environment source script policy) st order = (st', none)) :
    Served script st' := by
  induction order generalizing st with
  | nil => cases hf; exact h
  | cons n rest ih =>
    simp only [finishAll, environment] at hf
    split at hf
    · rename_i hc
      exact ih (served_call (.finish n true) h rfl hc) hf
    · cases hf

variable [DecidableEq β]

/-- Edges are served without a callback of a node. -/
theorem routeEdges_trace (env : Environment β) (st : RunnerState β)
    (worklist : List (DispatchItem β)) (frame : Frame β) (es : List EdgeDescriptor) :
    (routeEdges env st worklist frame es).1.log.trace = st.log.trace := by
  induction es generalizing st worklist with
  | nil => rfl
  | cons e es ih =>
    simp only [routeEdges]
    split <;> first | exact ih _ _ | rfl

theorem routeEmissions_trace (env : Environment β) (n : NodeId) (st : RunnerState β)
    (worklist : List (DispatchItem β)) (emissions : List (PortName × Frame β)) :
    (routeEmissions g env n st worklist emissions).1.log.trace = st.log.trace := by
  induction emissions generalizing st worklist with
  | nil => rfl
  | cons em rest ih =>
    simp only [routeEmissions]
    split
    · rfl
    · split_ifs
      · rfl
      · have hedges := routeEdges_trace env st worklist em.2 (routes g n em.1)
        split <;> rename_i hroute <;> rw [hroute] at hedges
        · exact hedges
        · rw [ih]
          exact hedges

theorem serve_served {n : NodeId} {input : Option (DispatchItem β)}
    {worklist worklist' : List (DispatchItem β)} (h : Served script st)
    (hs : serve g (environment source script policy) n input st worklist =
      (st', worklist', none)) : Served script st' := by
  simp only [serve, environment] at hs
  split at hs
  · cases hs
  · rename_i hc
    refine served_call (.process n (input.map (·.edge))) h ?_ hc
    rw [show st' = (st', worklist', (none : Option AbortReason)).1 from rfl, ← hs,
      routeEmissions_trace]

theorem drain_served (fuel : ℕ) (worklist : List (DispatchItem β)) (h : Served script st)
    (hd : drain g (environment source script policy) fuel st worklist = some (st', none)) :
    Served script st' := by
  induction fuel generalizing st worklist with
  | zero =>
    cases worklist with
    | nil => cases hd; exact h
    | cons item worklist => cases hd
  | succ fuel ih =>
    cases worklist with
    | nil => cases hd; exact h
    | cons item worklist =>
      simp only [drain] at hd
      split at hd
      · cases hd
      · rename_i hserve
        exact ih _ (serve_served h hserve) hd

theorem runSources_served (fuel : ℕ) (order : List NodeId) (h : Served script st)
    (hr : runSources g (environment source script policy) fuel st order = some (st', none)) :
    Served script st' := by
  induction order generalizing st with
  | nil => cases hr; exact h
  | cons n rest ih =>
    simp only [runSources] at hr
    split_ifs at hr
    · split at hr
      · cases hr
      · rename_i st₁ worklist hserve
        split at hr
        · rename_i st₂ hdrain
          exact ih (drain_served _ _ (serve_served h hserve) hdrain) hr
        · rename_i hother
          exact absurd hr (hother st')
    · exact ih h hr

/-- A run that returns `Ok` had only callbacks that returned `Ok`. -/
theorem run_served {fuel : ℕ} {summary : GraphRunSummary}
    (h : run g (environment source script policy) fuel .new = some (st, .ok summary)) :
    Served script st := by
  have h0 : Served script ({ (RunnerState.new : RunnerState β) with state := .preparing }) := by
    intro k hk
    cases hk
  simp only [run, RunnerState.new, execute, ne_eq, not_true_eq_false, if_false] at h
  split at h
  · cases h
  · rename_i st₁ hexec
    simp only [Option.some.injEq, Prod.mk.injEq] at h
    rw [← h.1]
    split at hexec
    · cases hexec
    · rename_i st₂ hprep
      have hserved := prepareAll_served _ h0 hprep
      split at hexec
      · rename_i st₃ hsources
        have hsrc := runSources_served fuel _ (hserved.of_trace (by rfl)) hsources
        have hfin := finishAll_served _ (hsrc.of_trace (by rfl)) (Option.some.inj hexec)
        exact hfin.of_trace rfl
      · rename_i hother
        exact absurd hexec (hother st₁)
  · simp at h

/-- The three phases of a run that returns `Ok`. -/
theorem run_eq_ok {env : Environment β} {fuel : ℕ} {st₀ st₁ st₂ : RunnerState β}
    (hprep : prepareAll env { RunnerState.new with state := .preparing } g.topologicalOrder =
      (st₀, none))
    (hsources : runSources g env fuel { st₀ with state := .running } g.topologicalOrder =
      some (st₁, none))
    (hfinish : finishAll env { st₁ with state := .finishing } g.topologicalOrder.reverse =
      (st₂, none)) :
    run g env fuel .new =
      some ({ st₂ with state := .finished }, .ok ⟨st₂.observedSignals.length⟩) := by
  have hexec : execute g env fuel .new = some (st₂, none) := by
    rw [execute, hprep]
    simp only [hsources, hfinish]
  rw [run, hexec]
  rfl

end Muxiva.Runner

namespace Muxiva.Runtime

variable {β : Type} {g : GraphDefinition} {o : RuntimeOptions} {s s' t : State β}

/-- `has_signal_routes` of the context of the call that a worker is at. -/
def signalRoutes (g : GraphDefinition) (n : NodeId) : WorkerPc β → Bool
  | .prepare => false
  | _ => !(g.outgoing n).isEmpty

/-- The step is a callback that asks its context for more than the budget. -/
inductive Overflow (g : GraphDefinition) (o : RuntimeOptions) (source : SignalFrame β → NodeId)
    (s : State β) : Label β → Prop where
  | worker (n : NodeId) (cb : Callback β)
      (hpc : (s.workers n).pc = .prepare ∨ (s.workers n).pc.inCall = true)
      (hx : cb.Exceeds source n o.emissionBudget (signalRoutes g n (s.workers n).pc)) :
      Overflow g o source s (.worker n
        (cb.nodeCall source n o.emissionBudget (signalRoutes g n (s.workers n).pc)))
  | finish (n : NodeId) (rest : List NodeId) (cb : Callback β)
      (hpc : s.coordinator.pc = .finish (n :: rest)) (hn : n ∈ s.coordinator.nodes)
      (hx : cb.Exceeds source n o.emissionBudget false) :
      Overflow g o source s (.coordinator (cb.finishCall source n o.emissionBudget))

/-- A failure is on its way that keeps the run from publishing `Ok`. -/
def Doomed (g : GraphDefinition) (s : State β) : Prop :=
  ¬ Clean g s ∨ ∃ r, s.coordinator.pc.phase = .failing r

/-- The request of a coordinator whose `on_finish` failed finds or leaves a reason. -/
theorem failing_step {summary : ConcurrentRunSummary} {x y : ControlState × CoordPhase}
    {r : AbortReason} (hopen : x.1.successSealed = false ∧ x.1.result = none)
    (hp : x.2 = .failing r) (h : ControlStep summary x y) : y.2 = .failing r ∨ y.1.reason ≠ none := by
  cases h with
  | requestAbort c p r' => exact .inl hp
  | markRunning c p => exact .inl hp
  | failing c r' =>
    obtain ⟨heq, hlost⟩ | ⟨-, -, -, -, st, heq⟩ := requestAbort_cases c r'
    · have hsome : c.reason ≠ none := by
        intro hn
        have hs : c.successSealed = false := hopen.1
        have hres : c.result = none := hopen.2
        simp [ControlState.requestAbort, hn, hs, hres] at hlost
      exact .inr (by rw [heq]; exact hsome)
    · exact .inr (by simp [heq])
  | _ => simp at hp

variable [DecidableEq β]

/-- The callback that overflows sends its thread to `fail_graph`. -/
theorem doomed_of_overflow {source : SignalFrame β → NodeId} {a : Label β}
    (ha : Overflow g o source s a) (h : s.step g o a = some s') : Doomed g s' := by
  cases ha with
  | worker n cb hpc hx =>
    have hover := (cb.overflowed_iff source n _ _).mpr hx
    simp only [State.step] at h
    split_ifs at h with hn
    have hfail : ∃ r, (s'.workers n).pc = .fail r := by
      cases hw : (s.workers n).pc <;> simp only [hw, WorkerPc.inCall, reduceCtorEq, or_self,
        Bool.false_eq_true] at hpc <;>
        simp only [State.workerStep, State.returned, hw, NodeCall.result, Callback.nodeCall] at h hover <;>
        simp only [hover, if_true, Option.some.injEq] at h <;> simp [← h]
    obtain ⟨r, hr⟩ := hfail
    refine .inl fun hclean => ?_
    simpa [hr, WorkerPc.failing] using hclean.workers n hn
  | finish n rest cb hpc hn hx =>
    have hover := (cb.overflowed_iff source n _ _).mpr hx
    simp only [State.step, State.coordinatorStep, hpc, if_pos hn, NodeCall.result,
      Callback.finishCall, hover, if_true, Option.some.injEq] at h
    rw [← h]
    exact .inr ⟨_, rfl⟩

theorem doomed_step {a : Label β} (hr : (system g o).Reachable s) (hd : Doomed g s)
    (h : s.step g o a = some s') : Doomed g s' := by
  rcases hd with hd | ⟨r, hp⟩
  · exact .inl fun hclean => hd (clean_of_step hr h hclean)
  · have hopen := control_open (controlInv hr) (by simp [hp]) (by simp [hp])
    rcases step_control h with hv | hv
    · have hphase : s'.coordinator.pc.phase = s.coordinator.pc.phase := congrArg Prod.snd hv
      exact .inr ⟨r, by rw [hphase, hp]⟩
    · rcases failing_step hopen hp hv with hp' | hreason
      · exact .inr ⟨r, hp'⟩
      · exact .inl fun hclean => hreason hclean.reason

/-- From there on the run can only publish an abort. -/
theorem aborted_of_doomed (hr : (system g o).Reachable s) (hd : Doomed g s) {res : RunResult}
    (h : s.control.result = some res) : ∃ r, res = .err r := by
  cases res with
  | err r => exact ⟨r, rfl⟩
  | ok summary =>
    rcases hd with hd | ⟨r, hp⟩
    · exact absurd (clean_of_published hr h).1 hd
    · have hnone := ((controlInv hr).unpublished (by simp [hp])).1
      rw [h] at hnone
      cases hnone

end Muxiva.Runtime

namespace Muxiva.Runner

open Muxiva.Runtime (PolicyAnswers RuntimeOptions State Label RunResult system Overflow Doomed
  sampleGraph sampleOptions sampleSystem sampleFrame sampleEdge)

variable {β : Type} [DecidableEq β]

/-- After a callback that asked for too much, a concurrent run publishes nothing but an abort. So
does a run of `GraphRunner`, as long as such callbacks fail themselves. -/
theorem overflow_aborts (g : GraphDefinition) (source : SignalFrame β → NodeId) :
    (∀ (o : RuntimeOptions) (s s' t : State β) (a : Label β), (system g o).Reachable s →
      Overflow g o source s a → s.step g o a = some s' → (system g o).Steps s' t →
      ∀ res, t.control.result = some res → ∃ r, res = .err r) ∧
    ∀ (script : ℕ → Callback β) (policy : Log β → EdgeDescriptor → Frame β → PolicyAnswers β),
      (∃ fuel, (run g (environment source script policy) fuel .new).isSome = true) ∧
      ∀ fuel st res, run g (environment source script policy) fuel .new = some (st, res) →
        (∀ k < st.log.trace.length,
          (∃ n, (script k).Exceeds source n NodeContext.runtimeEmissionLimit false) →
            (script k).outcome ≠ .ok ()) →
        (∃ k < st.log.trace.length,
          ∃ n, (script k).Exceeds source n NodeContext.runtimeEmissionLimit false) →
        ∃ r, res = .error r := by
  refine ⟨fun o s s' t a hr ha h hsteps res hres => ?_, fun script policy => ⟨?_, ?_⟩⟩
  · have hr' : (system g o).Reachable s' := .step hr trivial h
    obtain ⟨hrt, hd⟩ := Transition.System.Steps.invariant (I := Doomed g)
      (fun s a s' hr hd h => Runtime.doomed_step hr hd h) hr' (Runtime.doomed_of_overflow ha h) hsteps
    exact Runtime.aborted_of_doomed hrt hd hres
  · exact run_terminates g _ .new
  · rintro fuel st res hrun hfails ⟨k, hk, hx⟩
    cases res with
    | error r => exact ⟨r, rfl⟩
    | ok summary => exact absurd (run_served hrun k hk) (hfails k hk hx)

/-- Asks for `k` frames through the first port, whatever the answers, and ends with `outcome`. -/
def floods (k : ℕ) (outcome : Runtime.CallOutcome Unit) : Callback Unit :=
  ⟨List.replicate k (.emit 0 (sampleFrame 1)), outcome⟩

theorem floods_exceeds {k limit : ℕ} (h : limit < k) (outcome : Runtime.CallOutcome Unit)
    (source : SignalFrame Unit → NodeId) (n : NodeId) (routes : Bool) :
    (floods k outcome).Exceeds source n limit routes := by
  left
  rw [floods, List.filterMap_replicate]
  simpa [Request.emission] using h

def acceptAll : Log Unit → EdgeDescriptor → Frame Unit → PolicyAnswers Unit :=
  fun _ _ _ => ⟨.ok .accept, .ok (.drop ""), .ok (), .ok ()⟩

/-- `on_prepare` of the source asks for one frame too many: the concurrent run publishes an abort,
and `GraphRunner` returns one when the callback does not swallow the error. -/
theorem overflow_aborts_prepare :
    (∃ t : State Unit, ∃ r, sampleSystem.Reachable t ∧ t.control.result = some (.err r)) ∧
    ∃ st r, run sampleGraph (environment (fun _ => 0)
      (fun _ => floods 16385 (.error ⟨.validation, "", ""⟩)) acceptAll) 0 .new =
        some (st, .error r) := by
  obtain ⟨hruntime, hrunner⟩ := overflow_aborts (β := Unit) sampleGraph fun _ => 0
  constructor
  · let call := (floods 17 (.ok ())).nodeCall (fun _ => 0) 0 16 false
    have hover : Overflow sampleGraph sampleOptions (fun _ => 0)
        (State.initial sampleGraph sampleOptions) (.worker 0 call) :=
      .worker 0 (floods 17 (.ok ())) (.inl rfl) (floods_exceeds (by decide) _ _ _ _)
    have hend : (((State.initial sampleGraph sampleOptions).step sampleGraph sampleOptions
        (.worker 0 call)).bind fun s' => (sampleSystem.run s' (Label.works 0 8 ++ Label.works 1 2 ++
          Label.works 0 5 ++ Label.works 1 15 ++ Label.forwards 8 ++ Label.coordinates 9)).bind
            (·.control.result)).isSome = true := by
      decide +kernel
    obtain ⟨res, hend⟩ := Option.isSome_iff_exists.mp hend
    obtain ⟨s', hs', hend⟩ := Option.bind_eq_some_iff.mp hend
    obtain ⟨t, hrest, hres⟩ := Option.bind_eq_some_iff.mp hend
    have hsteps := Transition.System.steps_of_run hrest
    have hreach : sampleSystem.Reachable (State.initial sampleGraph sampleOptions) := .init rfl
    have hreach' : sampleSystem.Reachable s' := .step (a := .worker 0 call) hreach trivial hs'
    obtain ⟨r, hr⟩ := hruntime sampleOptions _ s' t _ hreach hover hs' hsteps res hres
    have ht := (Transition.System.Steps.invariant (I := fun _ => True) (fun _ _ _ _ _ _ => trivial)
      hreach' trivial hsteps).1
    exact ⟨t, r, ht, by rw [hres, hr]⟩
  · obtain ⟨-, haborts⟩ := hrunner (fun _ => floods 16385 (.error ⟨.validation, "", ""⟩)) acceptAll
    obtain ⟨⟨st, res⟩, hrun⟩ := Option.isSome_iff_exists.mp (show (run sampleGraph (environment
      (fun _ => 0) (fun _ => floods 16385 (.error ⟨.validation, "", ""⟩)) acceptAll) 0
        .new).isSome = true from rfl)
    have htrace : 0 < st.log.trace.length := by
      cases hrun
      decide
    obtain ⟨r, rfl⟩ := haborts 0 st res hrun (fun _ _ _ h => by cases h)
      ⟨0, htrace, 0, floods_exceeds (by decide) _ _ _ _⟩
    exact ⟨st, r, hrun⟩


/-- The source floods its output in its only `on_process`; every callback returns `Ok`. -/
def flooding (k : ℕ) : Callback Unit := if k = 2 then floods 16385 (.ok ()) else ⟨[], .ok ()⟩

theorem flooding_of_ne {k : ℕ} (h : k ≠ 2) : flooding k = ⟨[], .ok ()⟩ := if_neg h

theorem flooding_two : flooding 2 = floods 16385 (.ok ()) := if_pos rfl

section Flooding
variable (source : SignalFrame Unit → NodeId)

theorem routeEmissions_flood (env : Environment Unit) (k : ℕ) (st : RunnerState Unit)
    (worklist : List (DispatchItem Unit)) :
    ∃ st', routeEmissions sampleGraph env 0 st worklist (List.replicate k (0, sampleFrame 1)) =
      (st', worklist ++ List.replicate k ⟨sampleEdge, sampleFrame 1⟩, none) := by
  induction k generalizing st worklist with
  | zero => exact ⟨st, by simp [routeEmissions]⟩
  | succ k ih =>
    obtain ⟨st₁, hst₁⟩ : ∃ st₁, routeEdges env st worklist (sampleFrame 1)
        (routes sampleGraph 0 0) = (st₁, worklist ++ [⟨sampleEdge, sampleFrame 1⟩], none) :=
      ⟨_, rfl⟩
    obtain ⟨st', hst'⟩ := ih st₁ (worklist ++ [⟨sampleEdge, sampleFrame 1⟩])
    refine ⟨st', ?_⟩
    rw [List.replicate_succ, List.replicate_succ]
    simp only [routeEmissions, hst₁]
    rw [List.append_assoc] at hst'
    exact hst'

/-- The sink takes what the context kept. -/
theorem drain_flood {st : RunnerState Unit} (k : ℕ) (h : 2 < st.log.trace.length) :
    ∃ st', drain sampleGraph (environment source flooding acceptAll) k st
        (List.replicate k ⟨sampleEdge, sampleFrame 1⟩) = some (st', none) ∧
      2 < st'.log.trace.length := by
  induction k generalizing st with
  | zero => exact ⟨st, rfl, h⟩
  | succ k ih =>
    have hcall := flooding_of_ne (show st.log.trace.length ≠ 2 by omega)
    obtain ⟨st₁, hserve, hlen⟩ : ∃ st₁, serve sampleGraph (environment source flooding acceptAll)
        sampleEdge.toNodeId (some ⟨sampleEdge, sampleFrame 1⟩) st
          (List.replicate k ⟨sampleEdge, sampleFrame 1⟩) =
        (st₁, List.replicate k ⟨sampleEdge, sampleFrame 1⟩, none) ∧
        2 < st₁.log.trace.length := by
      simp only [serve, environment, hcall]
      refine ⟨_, rfl, ?_⟩
      simp only [List.length_append, List.length_singleton]
      omega
    rw [List.replicate_succ, drain]
    simp only [hserve]
    exact ih hlen

theorem finishAll_flood (st : RunnerState Unit) (order : List NodeId) (h : 2 < st.log.trace.length) :
    ∃ st', finishAll (environment source flooding acceptAll) st order = (st', none) ∧
      2 < st'.log.trace.length := by
  induction order generalizing st with
  | nil => exact ⟨st, rfl, h⟩
  | cons n rest ih =>
    have hcall := flooding_of_ne (show st.log.trace.length ≠ 2 by omega)
    obtain ⟨st', hst', hlen⟩ := ih (st.record (.finish n true)) (by
      simp only [RunnerState.record, List.length_append, List.length_singleton]
      omega)
    refine ⟨st', ?_, hlen⟩
    simp only [finishAll, environment, hcall]
    exact hst'

/-- What the context keeps of a flood. -/
theorem flooded_emissions (k : ℕ) (source : SignalFrame Unit → NodeId) :
    ∃ kept, ((NodeContext.withRuntimeServices 0).serveAll source
      (floods k (.ok ())).requests).emissions = List.replicate kept (0, sampleFrame 1) := by
  have h := (floods k (.ok ())).context_emissions source 0 NodeContext.runtimeEmissionLimit false
  rw [floods, List.filterMap_replicate] at h
  simp only [Request.emission, List.take_replicate] at h
  exact ⟨_, h⟩

/-- The only `on_process` of the source. -/
theorem serve_flood {st : RunnerState Unit} (h : st.log.trace.length = 2) :
    ∃ st' kept, serve sampleGraph (environment source flooding acceptAll) 0 none st [] =
        (st', List.replicate kept ⟨sampleEdge, sampleFrame 1⟩, none) ∧
      2 < st'.log.trace.length := by
  obtain ⟨kept, hkept⟩ := flooded_emissions 16385 source
  simp only [serve, environment, h, flooding_two, hkept]
  simp only [floods, Callback.answer, callResult]
  obtain ⟨st', hst'⟩ := routeEmissions_flood (environment source flooding acceptAll) kept _ []
  refine ⟨st', kept, hst', ?_⟩
  have htrace := congrArg (fun r => r.1.log.trace.length) hst'
  simp only [routeEmissions_trace, List.length_append, List.length_singleton] at htrace
  omega

theorem runSources_flood (st : RunnerState Unit) (h : st.log.trace.length = 2) :
    ∃ fuel st', runSources sampleGraph (environment source flooding acceptAll) fuel st
        sampleGraph.topologicalOrder = some (st', none) ∧ 2 < st'.log.trace.length := by
  obtain ⟨st₁, kept, hserve, hlen₁⟩ := serve_flood source h
  obtain ⟨st₂, hdrain, hlen₂⟩ := drain_flood source kept hlen₁
  refine ⟨kept, st₂, ?_, hlen₂⟩
  have hsource : sampleGraph.isSource 0 = true := rfl
  have hsink : sampleGraph.isSource 1 = false := rfl
  simp only [show sampleGraph.topologicalOrder = [0, 1] from rfl, runSources, hsource, hsink,
    if_true, hserve, hdrain, Bool.false_eq_true, if_false]

/-- The first `on_process` of the source asks for more than its context keeps, and `GraphRunner`
returns `Ok`. -/
theorem overflow_aborts_swallowed :
    ∃ fuel st summary,
      run sampleGraph (environment (fun _ => 0) flooding acceptAll) fuel .new =
        some (st, .ok summary) ∧ 2 < st.log.trace.length ∧
      (flooding 2).Exceeds (fun _ => 0) 0 NodeContext.runtimeEmissionLimit false := by
  obtain ⟨st₀, hprep, hlen₀⟩ : ∃ st₀, prepareAll (environment (fun _ => 0) flooding acceptAll)
      { (RunnerState.new : RunnerState Unit) with state := .preparing }
      sampleGraph.topologicalOrder = (st₀, none) ∧ st₀.log.trace.length = 2 := ⟨_, rfl, rfl⟩
  obtain ⟨fuel, st₁, hsources, hlen₁⟩ := runSources_flood (fun _ => 0)
    { st₀ with state := .running } hlen₀
  obtain ⟨st₂, hfinish, hlen₂⟩ := finishAll_flood (fun _ => 0) { st₁ with state := .finishing }
    sampleGraph.topologicalOrder.reverse hlen₁
  refine ⟨fuel, { st₂ with state := .finished }, ⟨st₂.observedSignals.length⟩,
    run_eq_ok hprep hsources hfinish, hlen₂, ?_⟩
  rw [flooding_two]
  exact floods_exceeds (by decide) _ _ _ _

end Flooding
end Muxiva.Runner
