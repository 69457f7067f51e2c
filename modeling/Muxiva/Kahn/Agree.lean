import Muxiva.Kahn.Prefix
import Muxiva.Runtime.Gate

/-! When all threads are gone the histories are those of `GraphRunner`, node by node along the
topological order. The coordinator then finds nothing failed and finishes every node as it does. -/
set_option linter.all false
namespace Muxiva.Kahn

open Muxiva.Runtime
open Transducer

variable {ν π β : Type} {g : GraphDefinition} {o : RuntimeOptions} {net : Network ν π β}
  {log : Runner.Log β} {s s' : State β}

/-- The histories of `n` and of its incoming edges are those in the log. -/
structure Agrees (g : GraphDefinition) (log : Runner.Log β) (s : State β) (n : NodeId) : Prop where
  processed : ∀ e ∈ g.incoming n, (s.log.processed e).map (·.value) = log.processed e
  outputs : (s.log.outputs n).map (·.emissions) = log.outputs n

theorem Agrees.inputs {n : NodeId} (h : Agrees g log s n) :
    runtimeInputs g n s = runnerInputs g n log := by
  refine inputsOf_congr (fun _ => ?_) h.processed
  rw [← h.outputs, List.length_map]

variable [DecidableEq β]

section Over

variable (hin : ∀ n, (g.incoming n).length ≤ 1)
  (hblock : ∀ e ∈ g.enabledEdges, e.queuePolicy.overflow = .block) (hsol : Solution g net log)
  (hr : (system g o).ReachableBy (net.Follows g) s) (ha : Along g log s)
  (hall : s.allFinished g = true)

include hin hblock hsol hr ha hall

omit hin in
/-- An edge whose source agrees delivered the frames in the log. -/
theorem processed_agrees {e : EdgeDescriptor} (he : e ∈ g.enabledEdges)
    (hfrom : (s.log.outputs e.fromNodeId).map (·.emissions) = log.outputs e.fromNodeId) :
    (s.log.processed e).map (·.value) = log.processed e := by
  have hfit := ticksFit_reachable hr
  obtain ⟨hsent, hproc, -⟩ := settled_delivery hfit ha.clean hall he (hblock e he)
  have hflow := hsol.flow.sent e he
  rw [List.append_nil] at hflow
  have hframes : ((s.log.applied e).map unstamped).map Prod.fst =
      (log.applied e).map Prod.fst := by
    calc ((s.log.applied e).map unstamped).map Prod.fst
        = ((s.log.applied e).map Prod.fst).map (·.value) := by simp [unstamped, Function.comp_def]
      _ = (s.log.outputs e.fromNodeId).flatMap (emittedOn e ·.emissions) := by
        rw [hsent, stampAll_values]
      _ = (log.outputs e.fromNodeId).flatMap (emittedOn e) := by
        rw [← hfrom, List.flatMap_map]
      _ = (log.applied e).map Prod.fst := hflow.symm
  have happ : (s.log.applied e).map unstamped = log.applied e := by
    refine (ha.applied e he).eq_of_length ?_
    have hlen := congrArg List.length hframes
    simpa using hlen
  have hdone := hsol.flow.processed e he
  rw [show waitingOn e ([] : List (Runner.DispatchItem β)) = [] from rfl, List.append_nil] at hdone
  rw [hproc, delivered_values, happ, hdone]

theorem agrees {n : NodeId} (hn : n ∈ g.topologicalOrder) : Agrees g log s n := by
  -- induction on the place of the node in the order
  induction hk : g.topologicalOrder.idxOf n using Nat.strong_induction_on generalizing n with
  | _ k ih =>
    have hproc : ∀ e ∈ g.incoming n, (s.log.processed e).map (·.value) = log.processed e := by
      intro e he
      obtain ⟨hen, hto⟩ := GraphDefinition.mem_incoming.mp he
      have hedge := g.mem_edges_of_enabled hen
      have hfwd := g.forward e hedge
      have hfrom := ih _ (by rw [hto] at hfwd; omega) (g.endpoints e hedge).1 rfl
      exact processed_agrees hblock hsol hr ha hall hen hfrom.outputs
    have hfit := ticksFit_reachable hr
    have hinputs : runtimeInputs g n s = runnerInputs g n log := by
      refine inputsOf_congr (fun hs => ?_) hproc
      have hcalls := (roleInv (fun _ _ => plainLabel_of_follows) hr ha.clean hn).calls hs
      rw [exited_of_allFinished hfit hall hn] at hcalls
      rw [hcalls, hsol.flow.sources n hs]
      rfl
    have hans : responses (net.node n).answer (runtimeInputs g n s) = _ :=
      answered hin hr ha.clean n
    rw [hinputs, hsol.flow.answers n] at hans
    refine ⟨hproc, ?_⟩
    have hinj : Function.Injective (CallOutcome.ok (τ := List (PortName × Frame β))) :=
      fun _ _ h => CallOutcome.ok.inj h
    refine List.map_injective_iff.mpr hinj ?_
    rw [hans, List.map_map]
    rfl

/-- `on_finish` of a node succeeds as it did under `GraphRunner`. -/
theorem finished_ok {n : NodeId} (hn : n ∈ g.topologicalOrder) :
    (net.node n).finished (runtimeInputs g n s) = .ok () := by
  rw [(agrees hin hblock hsol hr ha hall hn).inputs]
  exact hsol.finished n hn

end Over

section Coordinator

variable (hin : ∀ n, (g.incoming n).length ≤ 1)
  (hblock : ∀ e ∈ g.enabledEdges, e.queuePolicy.overflow = .block) (hsol : Solution g net log)
  (hr : (system g o).ReachableBy (net.Follows g) s) (ha : Along g log s)

include hin hblock hsol hr ha

/-- The node whose `on_finish` is called next finishes. -/
theorem finish_result {n : NodeId} {rest : List NodeId} {call : NodeCall Unit}
    (hpc : s.coordinator.pc = .finish (n :: rest))
    (hfollows : net.Follows g s (.coordinator call)) (hn : n ∈ s.coordinator.nodes) :
    call.result n o.emissionBudget .finish = .ok () := by
  have hexit := exitInv hr
  have hall := (hexit.collected (by simp [hpc])).2
  have horder : n ∈ g.topologicalOrder := by
    by_contra hnot
    have habsent := (gateInv hr).absent n hnot
    rw [hexit.received n hn] at habsent
    cases habsent
  simp only [Network.Follows, hpc] at hfollows
  rw [hfollows]
  exact result_ok rfl (finished_ok hin hblock hsol hr ha hall horder) n _ _

/-- The coordinator installs no reason. -/
theorem coordinator_succeeds {call : NodeCall Unit}
    (hfollows : net.Follows g s (.coordinator call))
    (h : s.coordinatorStep g o call = some s') :
    s'.control.reason = none ∧ s'.stops = s.stops ∧ ∀ r, s'.coordinator.pc ≠ .fail r := by
  have hreason := ha.clean.reason
  have hclosing := (closingInv hr).coordinator
  unfold State.coordinatorStep at h
  cases hpc : s.coordinator.pc with
  | collect =>
    simp only [hpc] at h
    split at h
    · cases h
      exact ⟨hreason, rfl, by simp⟩
    · cases h
      exact ⟨hreason, rfl, by simp [hpc]⟩
    · split_ifs at h
      cases h
      exact ⟨hreason, rfl, by simp⟩
  | checkReason =>
    simp only [hpc, hreason, if_true] at h
    cases h
    exact ⟨hreason, rfl, by simp⟩
  | beginFinishing =>
    have hkeep : s.control.beginFinishing.2.reason = none := by
      unfold ControlState.beginFinishing
      split_ifs <;> exact hreason
    rcases hbegin : s.control.beginFinishing with ⟨begun, c⟩
    rw [hbegin] at hkeep
    simp only [hpc, hbegin] at h
    cases begun <;> cases h <;> exact ⟨hkeep, rfl, by simp⟩
  | finish rest =>
    cases rest with
    | nil =>
      simp only [hpc] at h
      cases h
      exact ⟨hreason, rfl, by simp⟩
    | cons n rest =>
      simp only [hpc] at h
      split_ifs at h with hn
      · rw [finish_result hin hblock hsol hr ha hpc hfollows hn] at h
        cases h
        exact ⟨hreason, rfl, by simp⟩
      · cases h
        exact ⟨hreason, rfl, by simp⟩
  | fail r => exact absurd hpc (ha.finishing r)
  | closing ts =>
    have hsome := hclosing ts hpc
    simp [hreason] at hsome
  | sealSuccess =>
    have hkeep : s.control.sealSuccess.2.reason = none := by
      unfold ControlState.sealSuccess
      split_ifs <;> exact hreason
    rcases hseal : s.control.sealSuccess with ⟨done, c⟩
    rw [hseal] at hkeep
    simp only [hpc, hseal] at h
    cases done <;> cases h <;> exact ⟨hkeep, rfl, by simp⟩
  | publishSuccess =>
    simp only [hpc] at h
    cases h
    exact ⟨hreason, rfl, by simp⟩
  | beginAborting =>
    simp only [hpc, ControlState.beginAborting, hreason] at h
    cases h
    exact ⟨rfl, rfl, by simp⟩
  | abort r rest =>
    cases rest with
    | nil =>
      simp only [hpc] at h
      cases h
      exact ⟨hreason, rfl, by simp⟩
    | cons n rest =>
      simp only [hpc] at h
      split_ifs at h <;> cases h <;> exact ⟨hreason, rfl, by simp⟩
  | done | panicked =>
    simp only [hpc] at h
    cases h

omit [DecidableEq β] hin hblock hsol hr in
theorem Along.of_untouched (h : Untouched s s') (hreason : s'.control.reason = none)
    (hstops : s'.stops = s.stops) (hfinishing : ∀ r, s'.coordinator.pc ≠ .fail r) :
    Along g log s' := by
  refine ⟨⟨hreason, ?_, ?_⟩, hstops.trans ha.stops, hfinishing, ?_, ?_⟩
  · rw [h.workers]
    exact ha.clean.workers
  · rw [h.dispatchers]
    exact ha.clean.dispatchers
  · rw [h.outputs]
    exact ha.outputs
  · rw [h.applied]
    exact ha.applied

theorem along_step {a : Label β} (hfollows : net.Follows g s a) (h : s.step g o a = some s') :
    Along g log s' := by
  have huntouched : (∀ n call, a ≠ .worker n call) → (∀ e answers, a ≠ .dispatcher e answers) →
      Untouched s s' := by
    intro hw hd
    rcases clean_step hr ha.clean h with hu | ⟨n, call, rfl, -⟩ | ⟨e, answers, rfl, -⟩
    · exact hu
    · exact absurd rfl (hw n call)
    · exact absurd rfl (hd e answers)
  cases a with
  | worker n call =>
    simp only [State.step] at h
    split_ifs at h with hn
    exact along_worker hin hblock hsol hr ha hn hfollows (workerStep_move h)
  | dispatcher e answers =>
    simp only [State.step] at h
    split_ifs at h with he
    exact along_dispatcher hblock hsol hr ha he hfollows (dispatcherStep_move h)
  | coordinator call =>
    have hu := huntouched (by simp) (by simp)
    obtain ⟨hreason, hstops, hfinishing⟩ := coordinator_succeeds hin hblock hsol hr ha hfollows h
    exact ha.of_untouched hu hreason hstops hfinishing
  | stopBegin => exact hfollows.elim
  | stop i => simp [State.step, State.stopStep, ha.stops] at h
  | tick d =>
    have hu := huntouched (by simp) (by simp)
    cases h
    exact ha.of_untouched hu ha.clean.reason rfl ha.finishing

end Coordinator

/-- No run of the network fails. -/
theorem along (hin : ∀ n, (g.incoming n).length ≤ 1)
    (hblock : ∀ e ∈ g.enabledEdges, e.queuePolicy.overflow = .block) (hsol : Solution g net log)
    (hr : (system g o).ReachableBy (net.Follows g) s) : Along g log s := by
  refine hr.invariant (I := Along g log) (fun s h => ?_)
    fun s a s' hr ha hfollows h => along_step hin hblock hsol hr ha hfollows h
  rw [show s = State.initial g o from h]
  exact ⟨⟨rfl, fun _ _ => rfl, fun _ _ => rfl⟩, rfl, by simp [State.initial],
    by simp [State.initial], by simp [State.initial]⟩

/-- A published result is success, and every edge carried the frames of `GraphRunner`. -/
theorem published_agrees (hin : ∀ n, (g.incoming n).length ≤ 1)
    (hblock : ∀ e ∈ g.enabledEdges, e.queuePolicy.overflow = .block) (hsol : Solution g net log)
    (hr : (system g o).ReachableBy (net.Follows g) s) {out : RunResult}
    (hout : s.control.result = some out) :
    out = .ok ⟨g.nodes.length⟩ ∧
      ∀ e ∈ g.enabledEdges, (s.log.processed e).map (·.value) = log.processed e := by
  have ha := along hin hblock hsol hr
  have hcontrol := controlInv hr
  have hwins := hcontrol.wins
  rw [ha.clean.reason] at hwins
  have hdone : s.coordinator.pc.phase = .done := by
    by_contra hnot
    have hnone := (hcontrol.unpublished hnot).1
    rw [hout] at hnone
    cases hnone
  have hok : out = .ok ⟨g.nodes.length⟩ := by
    have hresult := (hcontrol.done hdone).2.1
    rw [hout, hwins] at hresult
    exact Option.some.inj hresult
  subst hok
  obtain ⟨-, hall⟩ := clean_of_published hr hout
  refine ⟨rfl, fun e he => ?_⟩
  have hto := (g.endpoints e (g.mem_edges_of_enabled he)).2
  exact (agrees hin hblock hsol hr ha hall hto).processed e
    (GraphDefinition.mem_incoming.mpr ⟨he, rfl⟩)

end Muxiva.Kahn
