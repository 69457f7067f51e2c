import Muxiva.Kahn.Histories
import Muxiva.Kahn.Runner

/-! Every history of a concurrent run is a beginning of the one in the log of `GraphRunner`, so that
nothing fails where nothing failed there; once all threads are gone the histories are equal. -/
set_option linter.all false
namespace Muxiva.Kahn

open Muxiva.Runtime
open Transducer

variable {ν π β : Type} {g : GraphDefinition} {o : RuntimeOptions} {net : Network ν π β}
  {log : Runner.Log β} {s s' : State β}

def unstamped (p : Stamped (Frame β) × PolicyAnswers β) : Frame β × PolicyAnswers β :=
  (p.1.value, p.2)

/-- The run has not failed, and its histories are beginnings of those in `log`. -/
structure Along (g : GraphDefinition) (log : Runner.Log β) (s : State β) : Prop where
  clean : Clean g s
  stops : s.stops = []
  finishing : ∀ r, s.coordinator.pc ≠ .fail r
  outputs : ∀ n ∈ g.topologicalOrder, (s.log.outputs n).map (·.emissions) <+: log.outputs n
  applied : ∀ e ∈ g.enabledEdges, (s.log.applied e).map unstamped <+: log.applied e

theorem stampAll_values {α : Type} (f : NodeCallOutput β → List α) (outs : List (NodeCallOutput β)) :
    (stampAll f outs).map (·.value) = outs.flatMap f := by
  induction outs using List.reverseRecOn with
  | nil => rfl
  | append_singleton outs out ih => simp [ih, Function.comp_def]

variable [DecidableEq β]

theorem deliveredBy_values (e : EdgeDescriptor) (p : Stamped (Frame β) × PolicyAnswers β) :
    (deliveredBy e p).map (·.value) = handedOn e (unstamped p) := by
  have hmatch := applyEdge_matches e p.2 p.1.value
    (EdgeQueue.new (α := Stamped (Frame β)) e.queuePolicy)
  unfold deliveredBy handedOn unstamped
  simp only
  generalize (applyEdge e p.2 p.1.value (EdgeQueue.new e.queuePolicy)).1 = out at hmatch ⊢
  cases hd : Runner.applyEdge e p.2 p.1.value <;> cases out <;> rw [hd] at hmatch <;>
    simp_all [Matches, EdgeOutcome.frames]

theorem delivered_values (e : EdgeDescriptor) (ps : List (Stamped (Frame β) × PolicyAnswers β)) :
    (ps.flatMap (deliveredBy e)).map (·.value) = (ps.map unstamped).flatMap (handedOn e) := by
  rw [List.map_flatMap, List.flatMap_map]
  exact List.flatMap_congr fun p _ => deliveredBy_values e p

section Beginnings

variable (hsol : Solution g net log) (ha : Along g log s)

include hsol ha

/-- What was put on an edge so far. -/
theorem sent_prefix {C : State β → Label β → Prop} (hr : (system g o).ReachableBy C s)
    {e : EdgeDescriptor} (he : e ∈ g.enabledEdges) :
    (s.sentFrames e).map (·.value) <+: (log.applied e).map Prod.fst := by
  have hsent := hsol.flow.sent e he
  rw [List.append_nil] at hsent
  rw [(linkInv hr ha.clean he).frames, stampAll_values, hsent]
  have hout := ha.outputs e.fromNodeId (g.endpoints e (g.mem_edges_of_enabled he)).1
  have hflat : ((s.log.outputs e.fromNodeId).map (·.emissions)).flatMap (emittedOn e) =
      (s.log.outputs e.fromNodeId).flatMap (emittedOn e ·.emissions) := by
    rw [List.flatMap_map]
  rw [← hflat]
  obtain ⟨rest, hrest⟩ := hout
  exact ⟨rest.flatMap (emittedOn e), by rw [← hrest, List.flatMap_append]⟩

/-- What the pipeline of an edge delivered so far. -/
theorem delivered_prefix {C : State β → Label β → Prop} (hr : (system g o).ReachableBy C s)
    {e : EdgeDescriptor} (he : e ∈ g.enabledEdges) (hb : e.queuePolicy.overflow = .block) :
    (s.deliveredFrames e).map (·.value) <+: log.processed e := by
  have hproc := hsol.flow.processed e he
  rw [show waitingOn e ([] : List (Runner.DispatchItem β)) = [] from rfl, List.append_nil] at hproc
  rw [(linkInv hr ha.clean he).delivered hb, delivered_values, hproc]
  obtain ⟨rest, hrest⟩ := ha.applied e he
  exact ⟨rest.flatMap (handedOn e), by rw [← hrest, List.flatMap_append]⟩

/-- The policy's answer to the next frame of an edge is the one in the log. -/
theorem next_applied {C : State β → Label β → Prop} (hr : (system g o).ReachableBy C s)
    {e : EdgeDescriptor} (he : e ∈ g.enabledEdges) {x : Stamped (Frame β)}
    {rest : List (Stamped (Frame β))} (hpc : s.dispatchers e = .frames (x :: rest))
    {answers : PolicyAnswers β} (hfollows : net.Follows g s (.dispatcher e answers)) :
    (s.log.applied e ++ [(x, answers)]).map unstamped <+: log.applied e := by
  have hsent := sent_prefix hsol ha hr he
  have hnext : ((s.log.applied e).map unstamped).map Prod.fst ++ [x.value] <+:
      (log.applied e).map Prod.fst := by
    refine List.IsPrefix.trans ?_ hsent
    rw [State.sentFrames, State.upFrames, hpc]
    simp [DispatcherPc.holding, unstamped, Function.comp_def]
  have hans : answers = net.policyAnswers e (((s.log.applied e).map unstamped).map Prod.fst)
      x.value := by
    simp only [Network.Follows, hpc] at hfollows
    rw [hfollows]
    simp [unstamped, Function.comp_def]
  have happ := answered_next _ (hsol.flow.policy e he) (ha.applied e he) hnext
  rw [List.map_append, List.map_singleton]
  rw [← hans] at happ
  exact happ

omit ha in
/-- The machine's answer to the next input of a node is the one in the log. -/
theorem next_output {n : NodeId} (hans : Answered g net s n)
    {i : Input β} (hi : runtimeInputs g n s ++ [i] <+: runnerInputs g n log) :
    ∃ out, (net.node n).answer (runtimeInputs g n s) i = .ok out ∧ routeError g n out = none ∧
      (s.log.outputs n).map (·.emissions) ++ [out] <+: log.outputs n := by
  have hnext := responses_next (net.node n).answer hi
  rw [hsol.flow.answers n, hans] at hnext
  have hcast : (s.log.outputs n).map (fun out => CallOutcome.ok out.emissions) =
      ((s.log.outputs n).map (·.emissions)).map CallOutcome.ok := by
    rw [List.map_map]
    rfl
  rw [hcast] at hnext
  obtain ⟨out, hout, hbegin⟩ := next_of_map (fun _ _ h => CallOutcome.ok.inj h) hnext
  refine ⟨out, hout, hsol.flow.routed n out (hbegin.subset ?_), hbegin⟩
  simp

/-- The next input of a node that is about to be called is its next input in the log. -/
theorem next_input (hin : ∀ n, (g.incoming n).length ≤ 1)
    (hblock : ∀ e ∈ g.enabledEdges, e.queuePolicy.overflow = .block)
    (hr : (system g o).ReachableBy (net.Follows g) s) {n : NodeId} (hn : n ∈ g.topologicalOrder) :
    ((s.workers n).pc = .source → runtimeInputs g n s ++ [none] <+: runnerInputs g n log) ∧
    ∀ e x, (s.workers n).pc = .onFrame e x →
      runtimeInputs g n s ++ [some (x.value, e.toInputPort)] <+: runnerInputs g n log := by
  refine ⟨fun hpc => ?_, fun e x hpc => ?_⟩
  · have hrole := roleInv (fun _ _ => plainLabel_of_follows) hr ha.clean hn
    have hs : g.isSource n = true := by
      by_contra hs
      exact hrole.consumer (by simpa using hs) hpc
    have hcalls := hrole.calls hs
    rw [hpc] at hcalls
    rw [runtimeInputs, runnerInputs, inputsOf_source hs, inputsOf_source hs, hcalls,
      hsol.flow.sources n hs]
    exact List.prefix_rfl
  · have hplaced := (placeInv hr).workers n
    rw [hpc] at hplaced
    obtain ⟨he, rfl⟩ := GraphDefinition.mem_incoming.mp hplaced
    have hdel := delivered_prefix hsol ha hr he (hblock e he)
    have hproc : (s.log.processed e ++ [x]).map (·.value) <+: log.processed e := by
      refine List.IsPrefix.trans ?_ hdel
      rw [State.deliveredFrames, State.downFrames, hpc]
      simp [WorkerPc.atFrame]
    rw [runtimeInputs, runnerInputs, inputsOf_target (hin _) he, inputsOf_target (hin _) he]
    have hinputs := hproc.map fun f => some (f, e.toInputPort)
    simpa using hinputs

end Beginnings

omit [DecidableEq β] in
theorem result_ok {τ : Type} {call : NodeCall τ} (ho : call.overflowed = false) {out : τ}
    (hout : call.outcome = .ok out) (n : NodeId) (budget : ℕ) (stage : AbortStage) :
    call.result n budget stage = .ok out := by
  simp [NodeCall.result, ho, hout]

omit [DecidableEq β] in
theorem outcomeMap_ok {σ τ : Type} {f : σ → τ} {c : CallOutcome σ} {y : τ}
    (h : outcomeMap f c = .ok y) : ∃ x, c = .ok x ∧ f x = y := by
  cases c with
  | ok x => exact ⟨x, rfl, CallOutcome.ok.inj h⟩
  | error e => cases h
  | panicked m => cases h

omit [DecidableEq β] in
/-- A worker fails when its callback does, or when nobody receives what it sends. -/
theorem workerMove_succeeds {n : NodeId} {w : Worker β} {call : NodeCall (NodeCallOutput β)}
    {pc : WorkerPc β} (h : WorkerMove g o s n w call pc s') (hp : plainWorker pc = true)
    (hprep : pc = .prepare → ∃ out, call.result n o.emissionBudget .prepare = .ok out)
    (hcall : pc.inCall = true → ∃ out, call.result n o.emissionBudget .process = .ok out ∧
      routeError g n out.emissions = none)
    (hrecv : pc.left = false → ∀ e ∈ g.outgoing n, (s.channels e).receiver = true)
    (hplaced : pc.Placed g n) :
    (s'.workers n).pc.failing = false ∧ s'.control.reason = s.control.reason := by
  cases h with
  | quiet pc w' hq =>
    refine ⟨?_, rfl⟩
    simp only [State.setWorker, Function.update_self]
    cases hq with
    | sent =>
      unfold State.routed
      split_ifs
      · cases w.delay <;> rfl
      · rfl
    | tryRefused e b bs pending hr =>
      rw [hrecv rfl e (hplaced.subset (by simp [Batches.edges]))] at hr
      cases hr
    | pendingRefused e b bs hr =>
      rw [hrecv rfl e (hplaced.subset (by simp [Batches.edges]))] at hr
      cases hr
    | waitOver | waitCancelled | signalsSent | signalsRefused | acked | ackLost | reasonSeen
    | noReason | lost | closed | dispatchClosed => cases hp
    | _ => rfl
  | notPrepared r h =>
    obtain ⟨out, hout⟩ := hprep rfl
    rw [hout] at h
    cases h
  | running =>
    refine ⟨by simp [WorkerPc.failing], ?_⟩
    simp only [ControlState.markRunning]
    split_ifs <;> rfl
  | callback pc s₀ s' hcons hr =>
    have hcontrol : s₀.control = s.control := by cases hcons <;> rfl
    obtain ⟨out, hout, hroute⟩ := hcall (by cases hcons <;> rfl)
    cases hr with
    | failed r h =>
      rw [hout] at h
      cases h
    | rejected out' tick delay r h ht hr =>
      rw [hout] at h
      cases h
      rw [hroute] at hr
      cases hr
    | _ => exact ⟨by simp [WorkerPc.failing], congrArg ControlState.reason hcontrol⟩
  | won | close => cases hp
  | _ => exact ⟨by simp [WorkerPc.failing], rfl⟩

/-- A frame that `GraphRunner` did not reject is not rejected. -/
theorem not_rejected {e : EdgeDescriptor} {x : Stamped (Frame β)} {answers : PolicyAnswers β}
    {q q' : EdgeQueue (Stamped (Frame β))} {r : AbortReason}
    (hpass : Passed e (x.value, answers)) : applyEdge e answers x.value q ≠ (.fail r, q') := by
  intro h
  have hmatch := applyEdge_matches e answers x.value q
  rw [h] at hmatch
  cases hd : Runner.applyEdge e answers x.value with
  | fail r' => exact hpass r' hd
  | _ =>
    rw [hd] at hmatch
    cases hmatch

omit [DecidableEq β] in
theorem pushed_succeeds {e : EdgeDescriptor} {x : Stamped (Frame β)}
    {rest : List (Stamped (Frame β))} (h : Pushed s e x rest s')
    (hopen : (s.queues e).closed = false) (hb : (s.queues e).overflow = .block) :
    (s'.dispatchers e).failing = false ∧ s'.control = s.control := by
  cases h with
  | closed hc hq =>
    rw [hopen] at hc
    cases hc
  | overflow hc ho hf hc' =>
    rw [hb] at ho
    cases ho
  | _ => exact ⟨by simp [DispatcherPc.failing], rfl⟩

/-- A dispatcher fails when a frame is rejected or the queue closed. -/
theorem dispatcherMove_succeeds {e : EdgeDescriptor} {answers : PolicyAnswers β}
    {pc : DispatcherPc β} (h : DispatcherMove g o s e answers pc s')
    (hclean : pc.failing = false) (hplain : plainDispatcher pc = true)
    (hpass : ∀ x rest, pc = .frames (x :: rest) → Passed e (x.value, answers))
    (hopen : pc.hungUp = false → (s.queues e).closed = false)
    (hb : (s.queues e).overflow = .block) :
    (s'.dispatchers e).failing = false ∧ s'.control = s.control := by
  cases h with
  | rejected x rest r q h => exact absurd h (not_rejected (hpass x rest rfl))
  | delivered x rest f q s' h hp =>
    have hq := SameFrames.of_applyEdge h
    have hopened : q.closed = false := hq.closed.trans (hopen rfl)
    have hblock : q.overflow = .block := hq.overflow.trans hb
    obtain ⟨hf, hc⟩ := pushed_succeeds hp (by simpa using hopened) (by simpa using hblock)
    exact ⟨hf, hc⟩
  | repush x rest s' hp => exact pushed_succeeds hp (hopen rfl) hb
  | signalRejected | signalRefused | ack => cases hplain
  | won | lost | close | closed => cases hclean
  | shutdown t ts => exact ⟨by simp [DispatcherPc.failing], (runTask_sameThreads s t).control⟩
  | _ => exact ⟨by simp [DispatcherPc.failing], rfl⟩

/-- A dispatcher notes the frame that it takes through the pipeline. -/
theorem dispatcherMove_applied {e : EdgeDescriptor} {answers : PolicyAnswers β}
    {pc : DispatcherPc β} (h : DispatcherMove g o s e answers pc s') (hclean : pc.failing = false) :
    s'.log.applied e = s.log.applied e ∨ ∃ x rest, pc = .frames (x :: rest) ∧
      s'.log.applied e = s.log.applied e ++ [(x, answers)] := by
  cases h with
  | rejected x rest r q h => exact .inr ⟨x, rest, rfl, by simp [State.applying]⟩
  | settled x rest q h => exact .inr ⟨x, rest, rfl, by simp [State.applying]⟩
  | delivered x rest f q s' h hp =>
    refine .inr ⟨x, rest, rfl, ?_⟩
    obtain ⟨-, -, -, hlog⟩ := pushed_same hp
    rw [hlog]
    simp [State.applying]
  | repush x rest s' hp =>
    obtain ⟨-, -, -, hlog⟩ := pushed_same hp
    exact .inl (by rw [hlog])
  | close t ts signal => cases hclean
  | shutdown t ts => exact .inl (by simp [(runTask_sameThreads s t).log])
  | _ => exact .inl rfl

section Steps

variable (hin : ∀ n, (g.incoming n).length ≤ 1)
  (hblock : ∀ e ∈ g.enabledEdges, e.queuePolicy.overflow = .block) (hsol : Solution g net log)
  (hr : (system g o).ReachableBy (net.Follows g) s) (ha : Along g log s)

include hin hblock hsol hr ha

/-- A callback succeeds, and its output is the next one in the log. -/
theorem callback_ok {n : NodeId} (hn : n ∈ g.topologicalOrder)
    {call : NodeCall (NodeCallOutput β)} (hfollows : net.Follows g s (.worker n call))
    (hcall : (s.workers n).pc.inCall = true) :
    ∃ out, call.outcome = .ok out ∧ routeError g n out.emissions = none ∧
      (s.log.outputs n).map (·.emissions) ++ [out.emissions] <+: log.outputs n := by
  obtain ⟨hsource, hframe⟩ := next_input hsol ha hin hblock hr hn
  have hans := answered hin hr ha.clean n
  have hplain := (plainInv (fun _ _ => plainLabel_of_follows) hr ha.clean).workers n
  obtain ⟨-, hfollows⟩ := hfollows
  have hnext : ∃ i, outcomeMap (·.emissions) call.outcome =
      (net.node n).answer (runtimeInputs g n s) i ∧
      runtimeInputs g n s ++ [i] <+: runnerInputs g n log := by
    cases hpc : (s.workers n).pc with
    | source =>
      rw [hpc] at hfollows
      exact ⟨none, hfollows, hsource hpc⟩
    | onFrame e x =>
      rw [hpc] at hfollows
      exact ⟨_, hfollows, hframe e x hpc⟩
    | onTick | onSignal =>
      rw [hpc] at hplain
      cases hplain
    | _ =>
      rw [hpc] at hcall
      cases hcall
  obtain ⟨i, hfollows, hi⟩ := hnext
  obtain ⟨ems, hok, hroute, hbegin⟩ := next_output hsol hans hi
  obtain ⟨out, hout, rfl⟩ := outcomeMap_ok (hfollows.trans hok)
  exact ⟨out, hout, hroute, hbegin⟩

theorem along_worker {n : NodeId} (hn : n ∈ g.topologicalOrder)
    {call : NodeCall (NodeCallOutput β)} (hfollows : net.Follows g s (.worker n call))
    (hm : WorkerMove g o s n (s.workers n) call (s.workers n).pc s') : Along g log s' := by
  have hinv := plainInv (fun _ _ => plainLabel_of_follows) hr ha.clean
  have hframe := workerMove_frame hm
  have hprep : (s.workers n).pc = .prepare →
      ∃ out, call.result n o.emissionBudget .prepare = .ok out := by
    intro hpc
    obtain ⟨hplain, hfollows⟩ := hfollows
    rw [hpc] at hfollows
    obtain ⟨out, hout, -⟩ := outcomeMap_ok (hfollows.trans (hsol.prepared n hn))
    exact ⟨out, result_ok hplain.overflowed hout n _ _⟩
  have hcall := callback_ok hin hblock hsol hr ha hn hfollows
  obtain ⟨hf, hreason⟩ := workerMove_succeeds hm (hinv.workers n) hprep
    (fun hc => by
      obtain ⟨out, hout, hroute, -⟩ := hcall hc
      exact ⟨out, result_ok hfollows.1.overflowed hout n _ _, hroute⟩)
    (fun hl e he => receiver_of_here hr ha.clean hl he) ((placeInv hr).workers n)
  refine ⟨⟨hreason.trans ha.clean.reason, fun m hmem => ?_, fun e he => ?_⟩,
    hframe.stops.trans ha.stops, fun r => ?_, fun m hmem => ?_, fun e he => ?_⟩
  · by_cases hmn : m = n
    · subst hmn
      exact hf
    · rw [hframe.workers m hmn]
      exact ha.clean.workers m hmem
  · rcases hframe.dispatchers e with hd | hd
    · rw [hd]
      exact ha.clean.dispatchers e he
    · rw [hd, woken_failing]
      exact ha.clean.dispatchers e he
  · rw [hframe.coordinator]
    exact ha.finishing r
  · by_cases hmn : m = n
    · subst hmn
      rcases workerMove_consumes hm (ha.clean.workers m hmem) with ⟨s₀, hcons, hret⟩ | ⟨ho, -⟩
      · obtain ⟨out, hout, -, -, rfl⟩ := returned_plain hfollows.1 hret (hinv.delay m) hf
        obtain ⟨hincall, hout₀, -⟩ := consumed_outputs hcons
        obtain ⟨out', hout', -, hbegin⟩ := hcall hincall
        rw [hout] at hout'
        cases hout'
        simpa [State.logged, hout₀] using hbegin
      · rw [ho]
        exact ha.outputs m hmem
    · rw [workerMove_outputs hm hmn]
      exact ha.outputs m hmem
  · rw [hframe.applied]
    exact ha.applied e he

omit hin in
theorem along_dispatcher {e : EdgeDescriptor} (he : e ∈ g.enabledEdges)
    {answers : PolicyAnswers β} (hfollows : net.Follows g s (.dispatcher e answers))
    (hm : DispatcherMove g o s e answers (s.dispatchers e) s') : Along g log s' := by
  have hinv := plainInv (fun _ _ => plainLabel_of_follows) hr ha.clean
  have hframe := dispatcherMove_frame hm
  have hnext : ∀ x rest, s.dispatchers e = .frames (x :: rest) →
      (s.log.applied e ++ [(x, answers)]).map unstamped <+: log.applied e :=
    fun x rest hpc => next_applied hsol ha hr he hpc hfollows
  have hpass : ∀ x rest, s.dispatchers e = .frames (x :: rest) → Passed e (x.value, answers) := by
    intro x rest hpc
    have hmem : (x.value, answers) ∈ log.applied e := (hnext x rest hpc).subset (by simp [unstamped])
    exact hsol.flow.passed e he _ hmem
  obtain ⟨hf, hcontrol⟩ := dispatcherMove_succeeds hm (ha.clean.dispatchers e he)
    (hinv.dispatchers e) hpass (open_of_here hr ha.clean he)
    ((boundsInv hr e).2.trans (hblock e he))
  refine ⟨⟨by rw [hcontrol]; exact ha.clean.reason, fun n hn => ?_, fun e' he' => ?_⟩,
    hframe.stops.trans ha.stops, fun r => ?_, fun n hn => ?_, fun e' he' => ?_⟩
  · rw [hframe.workers]
    exact ha.clean.workers n hn
  · by_cases hee : e' = e
    · subst hee
      exact hf
    · rcases hframe.dispatchers e' hee with hd | hd
      · rw [hd]
        exact ha.clean.dispatchers e' he'
      · rw [hd, woken_failing]
        exact ha.clean.dispatchers e' he'
  · rw [hframe.coordinator]
    exact ha.finishing r
  · rw [hframe.outputs]
    exact ha.outputs n hn
  · by_cases hee : e' = e
    · subst hee
      rcases dispatcherMove_applied hm (ha.clean.dispatchers e' he') with happ | ⟨x, rest, hpc, happ⟩
      · rw [happ]
        exact ha.applied e' he'
      · rw [happ]
        exact hnext x rest hpc
    · rw [(dispatcherMove_other ((placeInv hr).dispatchers e) (ha.clean.dispatchers e he) hm hee).2.2]
      exact ha.applied e' he'

end Steps

end Muxiva.Kahn
