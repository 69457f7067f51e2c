import Muxiva.Kahn.Plain

/-! What the nodes of a clean concurrent run have done so far is what their machines answer to the
inputs they were given. -/
set_option linter.all false
namespace Muxiva.Kahn

open Muxiva.Runtime
open Transducer

variable {ν π β : Type} {g : GraphDefinition} {o : RuntimeOptions} {net : Network ν π β}
  {s s' : State β}

/-- Behind the one callback of a source. -/
def calledSource : WorkerPc β → Bool
  | .trySend .. | .sendPending _ | .leave | .exit | .exited => true
  | _ => false

/-- Inside the loop of `run_consumer`, its routing apart. -/
def consuming : WorkerPc β → Bool
  | .top | .pollSignals .. | .checkTick _ | .pollFrames .. | .onFrame .. | .checkQueue ..
  | .checkSignals .. | .checkStop _ | .park _ => true
  | _ => false

/-- A source does not consume and is called once, a consumer is not called as a source. -/
structure RoleInv (g : GraphDefinition) (s : State β) (n : NodeId) : Prop where
  away : g.isSource n = true → consuming (s.workers n).pc = false
  calls : g.isSource n = true →
    (s.log.outputs n).length = if calledSource (s.workers n).pc then 1 else 0
  consumer : g.isSource n = false → (s.workers n).pc ≠ .source

theorem RoleInv.of_same {n : NodeId} (hi : RoleInv g s n) (hw : s'.workers n = s.workers n)
    (ho : s'.log.outputs n = s.log.outputs n) : RoleInv g s' n := by
  refine ⟨?_, ?_, ?_⟩
  · rw [hw]
    exact hi.away
  · rw [hw, ho]
    exact hi.calls
  · rw [hw]
    exact hi.consumer

theorem quiet_role {n : NodeId} {w w' : Worker β} (h : Quiet g s n w w.pc w')
    (haway : g.isSource n = true → consuming w.pc = false)
    (hprep : w.pc.visited = true → w.prepared = true) (hcan : s.cancelled = false)
    (hd : w.delay = none) (hp : plainWorker w.pc = true) (hf : w'.pc.failing = false) :
    (g.isSource n = true → consuming w'.pc = false ∧ calledSource w'.pc = calledSource w.pc) ∧
      (g.isSource n = false → w'.pc ≠ .source) := by
  have hnot : consuming w.pc = true → g.isSource n = false := by
    intro hcons
    by_contra hs
    rw [haway (by simpa using hs)] at hcons
    cases hcons
  generalize hpc : w.pc = pc at h hp haway hprep hnot
  cases h with
  | enterSource hprep hs hc => exact ⟨fun _ => ⟨rfl, rfl⟩, fun hn => by simp [hs] at hn⟩
  | enterConsumer hprep hs => exact ⟨fun hn => by simp [hs] at hn, fun _ => by simp⟩
  | skip h => simp [hprep rfl, hcan] at h
  | sent =>
    unfold State.routed
    split_ifs with hs
    · simp only [hd]
      exact ⟨fun _ => ⟨rfl, rfl⟩, fun hn => by simp [hs] at hn⟩
    · exact ⟨fun hn => absurd hn hs, fun _ => by simp⟩
  | released | cancelled | notCancelled | tried | full =>
    exact ⟨fun _ => ⟨rfl, rfl⟩, fun _ => by simp⟩
  | tryRefused | pendingRefused => cases hf
  | waitOver | waitCancelled | signalsSent | signalsRefused | acked | ackLost | reasonSeen
  | noReason | lost | closed | dispatchClosed => cases hp
  | _ => exact ⟨fun hs => by simp [hnot rfl] at hs, fun _ => by simp⟩

variable [DecidableEq β]

omit [DecidableEq β] in
theorem roleInv_worker {n : NodeId} {call : NodeCall (NodeCallOutput β)} (hi : RoleInv g s n)
    (hc : Plain call) (hp : PlainInv s)
    (hprep : (s.workers n).pc.visited = true → (s.workers n).prepared = true)
    (hcan : s.cancelled = false) (hf : (s'.workers n).pc.failing = false)
    (h : WorkerMove g o s n (s.workers n) call (s.workers n).pc s') : RoleInv g s' n := by
  have haway := hi.away
  have hcalls := hi.calls
  have hconsumer := hi.consumer
  have hplain := hp.workers n
  have hpart : s'.log.outputs n = s.log.outputs n → (s'.workers n).pc ≠ .source →
      (g.isSource n = true → consuming (s'.workers n).pc = false ∧
        calledSource (s'.workers n).pc = calledSource (s.workers n).pc) → RoleInv g s' n := by
    intro ho hne hkeep
    refine ⟨fun hs => (hkeep hs).1, fun hs => ?_, fun _ => hne⟩
    rw [ho, (hkeep hs).2]
    exact hcalls hs
  generalize hpc : (s.workers n).pc = pc at h hplain hprep haway hcalls hconsumer hpart
  cases h with
  | quiet pc w' hq =>
    rw [← hpc] at hq hplain hprep haway
    obtain ⟨hsource, hconsumer⟩ :=
      quiet_role hq haway hprep hcan (hp.delay n) hplain (by simpa using hf)
    refine ⟨fun hs => ?_, fun hs => ?_, fun hn => ?_⟩
    · simpa using (hsource hs).1
    · simp only [State.setWorker, Function.update_self, (hsource hs).2]
      rw [hpc]
      exact hcalls hs
    · simpa using hconsumer hn
  | notPrepared r h => simp [WorkerPc.failing] at hf
  | callback pc s₀ s' hcons hr =>
    obtain ⟨out, -, -, -, rfl⟩ := returned_plain hc hr (hp.delay n) hf
    obtain ⟨-, hout, -⟩ := consumed_outputs hcons
    refine ⟨fun _ => ?_, fun hs => ?_, fun _ => ?_⟩
    · simp [consuming]
    · have hlen := hcalls hs
      cases hcons with
      | source =>
        simp only [State.setWorker, State.logged, hout, Function.update_self, List.length_append,
          hlen]
        rfl
      | frame e x =>
        have hnot := haway hs
        cases hnot
      | tick | signal => cases hplain
    · simp
  | popFrame obs off e cursor x xs hpoll hq =>
    refine hpart rfl (by simp) fun hs => ?_
    have hnot := haway hs
    cases hnot
  | popSignal obs off e cursor x xs hpoll hq =>
    rw [hp.signalQueues e] at hq
    cases hq
  | putSignals | takeAck | won | close => cases hplain
  | _ => exact hpart rfl (by simp) fun _ => by simp [consuming, calledSource]

theorem roleInv {C : State β → Label β → Prop} (hC : ∀ s a, C s a → PlainLabel a)
    (hr : (system g o).ReachableBy C s) (hc : Clean g s) {n : NodeId} (hn : n ∈ g.topologicalOrder) :
    RoleInv g s n := by
  refine clean_invariant (I := fun s => RoleInv g s n) ?_ (fun s a s' hr hc hi ha h hc' => ?_) hr hc
  · exact ⟨fun _ => rfl, fun _ => rfl, fun _ => by simp [State.initial]⟩
  · rcases clean_step hr hc h with hu | ⟨m, call, rfl, hm, hmove⟩ | ⟨e, answers, -, -, hmove⟩
    · exact hi.of_same (by rw [hu.workers]) (by rw [hu.outputs])
    · by_cases hnm : n = m
      · subst hnm
        exact roleInv_worker hi (hC _ _ ha) (plainInv hC hr hc) (prepared_of_visited hr hc hn)
          (not_cancelled hr hc) (hc'.workers n hn) hmove
      · exact hi.of_same ((workerMove_frame hmove).workers n hnm) (workerMove_outputs hmove hnm)
    · have hf := dispatcherMove_frame hmove
      exact hi.of_same (by rw [hf.workers]) (by rw [hf.outputs])

/-- A node has answered as its machine does. -/
def Answered (g : GraphDefinition) (net : Network ν π β) (s : State β) (n : NodeId) : Prop :=
  responses (net.node n).answer (runtimeInputs g n s) =
    (s.log.outputs n).map fun out => CallOutcome.ok out.emissions

omit [DecidableEq β] in
theorem Answered.of_same {n : NodeId} (hi : Answered g net s n)
    (ho : s'.log.outputs n = s.log.outputs n)
    (hp : ∀ e ∈ g.incoming n, s'.log.processed e = s.log.processed e) : Answered g net s' n := by
  have hinputs : runtimeInputs g n s' = runtimeInputs g n s :=
    inputsOf_congr (fun _ => by rw [ho]) fun e he => by rw [hp e he]
  unfold Answered
  rw [hinputs, ho]
  exact hi

omit [DecidableEq β] in
theorem Answered.called {n : NodeId} {i : Input β} {out : NodeCallOutput β}
    (hi : Answered g net s n) (hinputs : runtimeInputs g n s' = runtimeInputs g n s ++ [i])
    (ho : s'.log.outputs n = s.log.outputs n ++ [out])
    (hans : (net.node n).answer (runtimeInputs g n s) i = .ok out.emissions) :
    Answered g net s' n := by
  unfold Answered at hi ⊢
  rw [hinputs, ho, responses_concat, hi, hans, List.map_append]
  rfl

omit [DecidableEq β] in
/-- Only a callback consumes an input. -/
theorem workerMove_consumes {n : NodeId} {w : Worker β} {call : NodeCall (NodeCallOutput β)}
    {pc : WorkerPc β} (h : WorkerMove g o s n w call pc s') (hf : pc.failing = false) :
    (∃ s₀, Consumed s n pc s₀ ∧ Returned g o s₀ n w call s') ∨
      s'.log.outputs = s.log.outputs ∧ s'.log.processed = s.log.processed := by
  cases h with
  | callback pc s₀ s' hc hr => exact .inl ⟨s₀, hc, hr⟩
  | close t ts => cases hf
  | _ => exact .inr ⟨rfl, rfl⟩

omit [DecidableEq β] in
theorem outcome_ok {call : NodeCall (NodeCallOutput β)} {out : NodeCallOutput β}
    {c : CallOutcome (List (PortName × Frame β))} (hout : call.outcome = .ok out)
    (h : outcomeMap (·.emissions) call.outcome = c) : c = .ok out.emissions := by
  rw [← h, hout]
  rfl

theorem answered_worker {n m : NodeId} {call : NodeCall (NodeCallOutput β)}
    (hin : ∀ n, (g.incoming n).length ≤ 1) (hi : Answered g net s n)
    (hfollows : net.Follows g s (.worker m call)) (hp : PlainInv s) (hrole : RoleInv g s m)
    (hplaced : (s.workers m).pc.Placed g m) (hclean : (s.workers m).pc.failing = false)
    (hf : (s'.workers m).pc.failing = false)
    (h : WorkerMove g o s m (s.workers m) call (s.workers m).pc s') : Answered g net s' n := by
  obtain ⟨hcall, hfollows⟩ := hfollows
  have hconsumer := hrole.consumer
  have hplain := hp.workers m
  rcases workerMove_consumes h hclean with ⟨s₀, hcons, hr⟩ | ⟨ho, hpr⟩
  · obtain ⟨out, hout, -, -, rfl⟩ := returned_plain hcall hr (hp.delay m) hf
    generalize (s.workers m).pc = pc at hcons hfollows hplaced hconsumer hplain
    cases hcons with
    | source =>
      have hs : g.isSource m = true := by
        by_contra hs
        exact hconsumer (by simpa using hs) rfl
      by_cases hnm : n = m
      · subst hnm
        refine hi.called ?_ (by simp [State.logged]) (outcome_ok hout hfollows)
        rw [runtimeInputs, runtimeInputs, inputsOf_source hs, inputsOf_source hs]
        simp [State.logged, List.replicate_succ']
      · refine hi.of_same ?_ fun e _ => rfl
        simp [State.logged, hnm]
    | frame e x =>
      obtain ⟨hen, hto⟩ := GraphDefinition.mem_incoming.mp hplaced
      by_cases hnm : n = m
      · subst hnm
        subst hto
        refine hi.called ?_ (by simp [State.logged]) (outcome_ok hout hfollows)
        rw [runtimeInputs, runtimeInputs, inputsOf_target (hin _) hen, inputsOf_target (hin _) hen]
        simp [State.logged]
      · refine hi.of_same ?_ fun e' he' => ?_
        · simp [State.logged, hnm]
        · have hne : e' ≠ e := by
            rintro rfl
            exact hnm ((GraphDefinition.mem_incoming.mp he').2.symm.trans hto)
          simp [State.logged, hne]
    | tick | signal => cases hplain
  · exact hi.of_same (by rw [ho]) fun e _ => by rw [hpr]

theorem plainLabel_of_follows {a : Label β} (h : net.Follows g s a) : PlainLabel a := by
  cases a with
  | worker n call => exact h.1
  | _ => trivial

theorem ticksFit_of_follows {a : Label β} (h : net.Follows g s a) : TicksFit g o s a := by
  cases a with
  | worker n call =>
    unfold TicksFit Label.ticksFit
    cases hres : call.result n o.emissionBudget .process with
    | ok out => simp [hres, (result_of_plain h.1 hres).2.2]
    | error r => simp [hres]
  | _ => rfl

theorem ticksFit_reachable (hr : (system g o).ReachableBy (net.Follows g) s) :
    (system g o).ReachableBy (TicksFit g o) s :=
  hr.mono fun _ _ => ticksFit_of_follows

theorem answered (hin : ∀ n, (g.incoming n).length ≤ 1)
    (hr : (system g o).ReachableBy (net.Follows g) s) (hc : Clean g s) (n : NodeId) :
    Answered g net s n := by
  refine clean_invariant (I := fun s => Answered g net s n) ?_
    (fun s a s' hr hc hi ha h hc' => ?_) hr hc
  · have hinputs : runtimeInputs g n (State.initial g o : State β) = [] := by
      unfold runtimeInputs inputsOf
      split_ifs <;> simp [State.initial]
    unfold Answered
    rw [hinputs]
    rfl
  · have hplain : ∀ s a, net.Follows g s a → PlainLabel a := fun _ _ => plainLabel_of_follows
    rcases clean_step hr hc h with hu | ⟨m, call, rfl, hm, hmove⟩ | ⟨e, answers, -, -, hmove⟩
    · exact hi.of_same (by rw [hu.outputs]) fun e _ => by rw [hu.processed]
    · exact answered_worker hin hi ha (plainInv hplain hr hc) (roleInv hplain hr hc hm)
        ((placeInv hr).workers m) (hc.workers m hm) (hc'.workers m hm) hmove
    · have hf := dispatcherMove_frame hmove
      exact hi.of_same (by rw [hf.outputs]) fun e _ => by rw [hf.processed]

end Muxiva.Kahn
