import Muxiva.Runtime.Delivery
import Muxiva.Runtime.Lifecycle

/-! A tick delay that cannot be added to the current `Instant` panics in the consumer's loop, outside
`catch_unwind`: the worker is gone without a word, and the coordinator finishes the others. -/
set_option linter.all false
namespace Muxiva.Runtime

variable {β : Type} [DecidableEq β] {g : GraphDefinition} {o : RuntimeOptions} {s s' : State β}

section Dying

omit [DecidableEq β] in
theorem returned_dead {n : NodeId} {w : Worker β} {call : NodeCall (NodeCallOutput β)}
    {out : NodeCallOutput β} {d : ℕ} (hsource : g.isSource n = false)
    (hcall : call.result n o.emissionBudget .process = .ok out) (htick : out.nextTick = some d)
    (hover : o.instantMax < s.clock + d) :
    ((s.returned g o n w call).workers n).pc = .dead := by
  unfold State.returned
  rw [hcall]
  simp only [hsource, htick, Bool.false_eq_true, if_false]
  rw [if_pos hover]
  simp

/-- A callback whose tick delay does not fit is the death of its worker. -/
theorem dead_of_not_ticksFit {a : Label β} (h : (system g o).step s a = some s')
    (hfit : ¬ TicksFit g o s a) :
    ∃ n, (s.workers n).pc ≠ .dead ∧ (s'.workers n).pc = .dead := by
  cases a with
  | worker n call =>
    simp only [TicksFit, Label.ticksFit, Bool.or_eq_true, not_or, Bool.not_eq_true,
      Bool.not_eq_false'] at hfit
    obtain ⟨⟨hcall, hsource⟩, htick⟩ := hfit
    cases hresult : call.result n o.emissionBudget .process with
    | error r => simp [hresult] at htick
    | ok out =>
      rw [hresult] at htick
      cases hnext : out.nextTick with
      | none => simp [hnext] at htick
      | some d =>
        have hover : o.instantMax < s.clock + d := by
          simpa [hnext] using htick
        simp only [system, State.step] at h
        split_ifs at h
        refine ⟨n, ?_, ?_⟩
        · intro hdead
          simp [hdead, WorkerPc.inCall] at hcall
        · unfold State.workerStep at h
          cases hpc : (s.workers n).pc with
          | source =>
            simp only [hpc, Option.some.injEq] at h
            subst h
            exact returned_dead hsource hresult hnext hover
          | onSignal e x =>
            simp only [hpc, Option.some.injEq] at h
            subst h
            exact returned_dead hsource hresult hnext hover
          | onTick =>
            simp only [hpc, Option.some.injEq] at h
            subst h
            exact returned_dead hsource hresult hnext hover
          | onFrame e x =>
            simp only [hpc, Option.some.injEq] at h
            subst h
            exact returned_dead hsource hresult hnext hover
          | _ => simp [hpc, WorkerPc.inCall] at hcall
  | _ => simp [TicksFit, Label.ticksFit] at hfit

/-- Workers die in no other way. -/
theorem not_ticksFit_of_dead {a : Label β} {n : NodeId} (h : (system g o).step s a = some s')
    (hlive : (s.workers n).pc ≠ .dead) (hdead : (s'.workers n).pc = .dead) :
    ¬ TicksFit g o s a := by
  rcases step_workers h with hw | ⟨m, call, rfl, -, hstep⟩
  · rw [hw] at hdead
    exact absurd hdead hlive
  · have hmove := workerStep_move hstep
    by_cases hn : n = m
    · subst hn
      obtain ⟨hcall, hsource, out, d, hresult, htick, hover⟩ := workerMove_dead hmove hdead
      simp only [TicksFit, Label.ticksFit, hcall, hsource, hresult, htick, Bool.not_true,
        Bool.or_self, Bool.false_or, Option.all_some, decide_eq_true_eq]
      omega
    · rw [(workerMove_frame hmove).workers n hn] at hdead
      exact absurd hdead hlive

end Dying

/-- Every node of a run that published success was finished once. -/
theorem finished_of_published (hr : (system g o).ReachableBy (TicksFit g o) s)
    {summary : ConcurrentRunSummary} (hok : s.control.result = some (.ok summary)) {n : NodeId}
    (hn : n ∈ g.topologicalOrder) :
    (nodeTrace n s.log.trace).filter Event.isFinish = [.finish n true] := by
  have hcontrol := controlInv hr
  have hphase : s.coordinator.pc.phase = .done := by
    by_contra hne
    rw [(hcontrol.unpublished hne).1] at hok
    cases hok
  have hdone : s.coordinator.pc = .done := by
    cases hpc : s.coordinator.pc <;> simp [hpc, CoordinatorPc.phase] at hphase
    rfl
  obtain ⟨work, done, failed, aborted, r, hshape, hcoord⟩ := (lifecycleInv hr).shape
  rw [hdone] at hcoord
  have hgrammar := LifecycleGrammar.of_shape g.order_nodup (List.ne_nil_of_mem hn) hshape
    (hcoord _ hok)
  exact (hgrammar.ok_iff.mp rfl).1 n hn

/-- While every tick delay fits the clock, no worker is lost, every worker that ended has sent its
exit, the coordinator goes on with all of them, and a success has finished every node. A delay that
does not fit loses its worker. -/
theorem tick_deadlines (g : GraphDefinition) (o : RuntimeOptions) :
    (∀ s : State β, (system g o).ReachableBy (TicksFit g o) s →
      (∀ n, (s.workers n).pc ≠ .dead) ∧
      (∀ n, (s.workers n).pc.finished = true →
        n ∈ s.coordinator.nodes ∨ ∃ prepared, .node n prepared ∈ s.exits) ∧
      (s.coordinator.pc ≠ .collect → ∀ n ∈ g.topologicalOrder, n ∈ s.coordinator.nodes) ∧
      ∀ summary, s.control.result = some (.ok summary) → ∀ n ∈ g.topologicalOrder,
        (nodeTrace n s.log.trace).filter Event.isFinish = [.finish n true]) ∧
    ∀ (s s' : State β) (a : Label β), (system g o).step s a = some s' →
      ((∃ n, (s.workers n).pc ≠ .dead ∧ (s'.workers n).pc = .dead) ↔ ¬ TicksFit g o s a) := by
  constructor
  · intro s hr
    have halive := worker_alive hr
    have hexits := exitInv hr
    refine ⟨halive, ?_, ?_, fun summary hok n hn => finished_of_published hr hok hn⟩
    · intro n hfinished
      apply hexits.sent n
      cases hpc : (s.workers n).pc with
      | exited => rfl
      | dead => exact absurd hpc (halive n)
      | _ => simp [hpc, WorkerPc.finished] at hfinished
    · exact fun hcollect n hn => (collected_exited hexits halive hcollect hn).2
  · intro s s' a h
    constructor
    · rintro ⟨n, hlive, hdead⟩
      exact not_ticksFit_of_dead h hlive hdead
    · exact dead_of_not_ticksFit h

/-- The sink asks for a tick, gets it while it has nothing else to do, and both nodes are finished. -/
theorem tick_deadlines_finished :
    ∃ s, sampleSystem.ReachableBy (TicksFit sampleGraph sampleOptions) s ∧
      s.control.result = some (.ok ⟨2⟩) ∧ .process 1 none ∈ s.log.trace ∧
      ∀ n ∈ sampleGraph.topologicalOrder,
        (nodeTrace n s.log.trace).filter Event.isFinish = [.finish n true] := by
  obtain ⟨s, hr, ht⟩ := sampleSystem.exists_reachableBy_of_runBy
    (C := TicksFit sampleGraph sampleOptions) rfl
    (Label.twoFrames ++ [Label.call 1 ⟨[], [], some 3⟩] ++ Label.forwards 11 ++ Label.works 1 20 ++
      [Label.tick 3] ++ Label.works 1 20 ++ Label.coordinates 11)
    (fun s => s.control.result = some (.ok ⟨2⟩) ∧ .process 1 none ∈ s.log.trace)
    (by decide +kernel)
  simp only [decide_eq_true_eq] at ht
  have hfinish := ((tick_deadlines sampleGraph sampleOptions).1 s hr).2.2.2 ⟨2⟩ ht.1
  exact ⟨s, hr, ht.1, ht.2, hfinish⟩

/-- The sink asks for a tick after the last `Instant`: the run succeeds without its exit, and it is
never finished. -/
theorem tick_deadlines_lost :
    ∃ s, sampleSystem.Reachable s ∧ s.control.result = some (.ok ⟨2⟩) ∧
      1 ∈ sampleGraph.topologicalOrder ∧ 1 ∉ s.coordinator.nodes ∧ s.exits = [] ∧
      ∀ ev ∈ nodeTrace 1 s.log.trace, ev.isFinish = false := by
  obtain ⟨s, hr, ht⟩ := sampleSystem.exists_reachable_of_run rfl
    (Label.twoFrames ++ [Label.call 1 ⟨[], [], some 1001⟩] ++ Label.forwards 11 ++
      Label.coordinates 10)
    (fun s => s.control.result = some (.ok ⟨2⟩) ∧ 1 ∈ sampleGraph.topologicalOrder ∧
      1 ∉ s.coordinator.nodes ∧ s.exits = [] ∧
      ∀ ev ∈ nodeTrace 1 s.log.trace, ev.isFinish = false) (by decide +kernel)
  simp only [decide_eq_true_eq] at ht
  exact ⟨s, hr, ht⟩

end Muxiva.Runtime
