import Muxiva.Runtime.Moves

/-! The outcome of a run. Every step of the runtime is one critical section of the control
state machine or leaves it alone, so a run has one terminal result, decided by the first
granted abort request or by the seal. -/
set_option linter.all false
namespace Muxiva.Runtime

variable {β : Type} {g : GraphDefinition} {o : RuntimeOptions} {s s' : State β}

/-- The part of the coordinator that the control state machine sees. -/
def CoordinatorPc.phase : CoordinatorPc → CoordPhase
  | .collect => .collect
  | .checkReason => .checkReason
  | .beginFinishing => .beginFinishing
  | .finish _ => .finishing
  | .fail r => .failing r
  | .closing _ | .sealSuccess => .sealing
  | .publishSuccess => .publishing
  | .beginAborting => .beginAborting
  | .abort r _ => .aborting r
  | .done => .done
  | .panicked => .panicked

def State.controlView (s : State β) : ControlState × CoordPhase :=
  (s.control, s.coordinator.pc.phase)

theorem runTask_controlView (s : State β) (t : CloseTask) :
    (s.runTask t).controlView = s.controlView := by
  cases t <;> rfl

/-- A worker asks for an abort, marks the run as running, or leaves the control state alone. -/
theorem workerStep_control {n : NodeId} {call : NodeCall (NodeCallOutput β)}
    (h : s.workerStep g o n call = some s') :
    s'.controlView = s.controlView ∨
      (∃ r, s'.controlView = ((s.control.requestAbort r).2, s.coordinator.pc.phase)) ∨
      s'.controlView = (s.control.markRunning, s.coordinator.pc.phase) := by
  have hm := workerStep_move h
  generalize (s.workers n).pc = pc at hm
  cases hm with
  | callback pc s₀ s' hc hr =>
    have hread : s₀.controlView = s.controlView := by cases hc <;> rfl
    have hwrote : s'.controlView = s₀.controlView := by cases hr <;> rfl
    exact .inl (hwrote.trans hread)
  | running => exact .inr (.inr rfl)
  | won r h => exact .inr (.inl ⟨r, rfl⟩)
  | close t ts => exact .inl (runTask_controlView _ _)
  | _ =>
    dsimp only [State.controlView, State.setWorker, State.setDispatcher, State.setQueue,
      State.setSignalQueue, State.setSlot, State.dropSenders, State.record]
    exact .inl rfl

theorem pushed_controlView {e : EdgeDescriptor} {x : Stamped (Frame β)}
    {rest : List (Stamped (Frame β))} (h : Pushed s e x rest s') :
    s'.controlView = s.controlView := by
  cases h <;> rfl

theorem dispatcherStep_control [DecidableEq β] {e : EdgeDescriptor} {answers : PolicyAnswers β}
    (h : s.dispatcherStep g o e answers = some s') :
    s'.controlView = s.controlView ∨
      ∃ r, s'.controlView = ((s.control.requestAbort r).2, s.coordinator.pc.phase) := by
  have hm := dispatcherStep_move h
  generalize s.dispatchers e = pc at hm
  cases hm with
  | delivered x rest f q s' h hp =>
    have hpushed := pushed_controlView hp
    exact .inl hpushed
  | repush x rest s' hp => exact .inl (pushed_controlView hp)
  | won r signal h => exact .inr ⟨r, rfl⟩
  | close t ts signal => exact .inl (runTask_controlView _ _)
  | shutdown t ts => exact .inl (runTask_controlView _ _)
  | _ =>
    dsimp only [State.controlView, State.setDispatcher, State.setQueue, State.setSignalQueue,
      State.setSlot, State.notify, State.applying]
    exact .inl rfl

theorem stopStep_control {i : ℕ} (h : s.stopStep g o i = some s') :
    s'.controlView = s.controlView ∨
      ∃ r, s'.controlView = ((s.control.requestAbort r).2, s.coordinator.pc.phase) := by
  unfold State.stopStep at h
  split at h <;> (try split at h) <;> (try cases h)
  · rename_i hreq
    exact .inr ⟨cancellationAbort, by rw [hreq]; rfl⟩
  · exact .inl rfl
  · exact .inl rfl
  · exact .inl (runTask_controlView _ _)

/-- The coordinator follows its own order. -/
theorem coordinatorStep_control {call : NodeCall Unit}
    (h : s.coordinatorStep g o call = some s') :
    s'.controlView = s.controlView ∨
      ControlStep ⟨g.nodes.length⟩ s.controlView s'.controlView := by
  have hview : ∀ {pc}, s.coordinator.pc = pc → s.controlView = (s.control, pc.phase) :=
    fun hp => by rw [State.controlView, hp]
  cases hpc : s.coordinator.pc with
  | collect =>
    simp only [State.coordinatorStep, hpc] at h
    rw [hview hpc]
    split at h
    · cases h
      exact .inl rfl
    · cases h
      exact .inl (hview hpc)
    · split_ifs at h
      cases h
      exact .inr (.collected _)
  | checkReason =>
    simp only [State.coordinatorStep, hpc] at h
    rw [hview hpc]
    have hstep : ControlStep ⟨g.nodes.length⟩ _ _ := .checkReason s.control
    cases h
    refine .inr ?_
    by_cases hr : s.control.reason = none
    · rw [if_pos hr] at hstep ⊢
      exact hstep
    · rw [if_neg hr] at hstep ⊢
      exact hstep
  | beginFinishing =>
    simp only [State.coordinatorStep, hpc] at h
    rw [hview hpc]
    have hstep : ControlStep ⟨g.nodes.length⟩ _ _ := .beginFinishing s.control
    split at h <;> rename_i hreq <;> rw [hreq] at hstep <;> cases h <;> exact .inr hstep
  | finish rest =>
    cases rest with
    | nil =>
      simp only [State.coordinatorStep, hpc] at h
      rw [hview hpc]
      cases h
      exact .inr (.finished _)
    | cons n rest =>
      simp only [State.coordinatorStep, hpc] at h
      rw [hview hpc]
      split_ifs at h
      · split at h
        · cases h
          exact .inl rfl
        · cases h
          exact .inr (.finishFailed _ _)
      · cases h
        exact .inl rfl
  | fail r =>
    simp only [State.coordinatorStep, hpc] at h
    rw [hview hpc]
    have hstep : ControlStep ⟨g.nodes.length⟩ _ _ := .failing s.control r
    split at h <;> rename_i hreq
    · rw [hreq] at hstep
      cases h
      exact .inr hstep
    · obtain ⟨heq, -⟩ | ⟨-, -, -, hwon, -⟩ := requestAbort_cases s.control r
      · rw [heq] at hstep
        cases h
        exact .inr hstep
      · simp [hreq] at hwon
  | closing ts =>
    cases ts with
    | nil =>
      simp only [State.coordinatorStep, hpc] at h
      cases h
      exact .inl (hview hpc).symm
    | cons t ts =>
      simp only [State.coordinatorStep, hpc] at h
      cases h
      rw [hview hpc]
      exact .inl (by cases t <;> rfl)
  | sealSuccess =>
    simp only [State.coordinatorStep, hpc] at h
    rw [hview hpc]
    have hstep : ControlStep ⟨g.nodes.length⟩ _ _ := .sealing s.control
    split at h <;> rename_i hreq <;> rw [hreq] at hstep <;> cases h <;> exact .inr hstep
  | publishSuccess =>
    simp only [State.coordinatorStep, hpc] at h
    rw [hview hpc]
    cases h
    exact .inr (.publishing _)
  | beginAborting =>
    simp only [State.coordinatorStep, hpc] at h
    rw [hview hpc]
    have hstep : ControlStep ⟨g.nodes.length⟩ _ _ := .beginAborting s.control
    split at h <;> rename_i hreq <;> rw [hreq] at hstep <;> cases h <;> exact .inr hstep
  | abort r rest =>
    cases rest with
    | nil =>
      simp only [State.coordinatorStep, hpc] at h
      rw [hview hpc]
      cases h
      exact .inr (.aborting _ r)
    | cons n rest =>
      simp only [State.coordinatorStep, hpc] at h
      rw [hview hpc]
      split_ifs at h <;> cases h <;> exact .inl rfl
  | done => simp [State.coordinatorStep, hpc] at h
  | panicked => simp [State.coordinatorStep, hpc] at h

variable [DecidableEq β]

/-- Every step of the runtime is a critical section of the control state machine or does not
touch it. -/
theorem step_control {a : Label β} (h : s.step g o a = some s') :
    s'.controlView = s.controlView ∨
      ControlStep ⟨g.nodes.length⟩ s.controlView s'.controlView := by
  have habort : ∀ r, s'.controlView = ((s.control.requestAbort r).2, s.coordinator.pc.phase) →
      ControlStep ⟨g.nodes.length⟩ s.controlView s'.controlView := fun r hr => by
    rw [hr]
    exact .requestAbort s.control s.coordinator.pc.phase r
  cases a with
  | worker n call =>
    simp only [State.step] at h
    split_ifs at h
    rcases workerStep_control h with hv | ⟨r, hr⟩ | hv
    · exact .inl hv
    · exact .inr (habort r hr)
    · rw [hv]
      exact .inr (.markRunning s.control s.coordinator.pc.phase)
  | dispatcher e answers =>
    simp only [State.step] at h
    split_ifs at h
    exact (dispatcherStep_control h).imp_right fun ⟨r, hr⟩ => habort r hr
  | stopBegin => cases h; exact .inl rfl
  | stop i => exact (stopStep_control h).imp_right fun ⟨r, hr⟩ => habort r hr
  | coordinator call => exact coordinatorStep_control h
  | tick d => cases h; exact .inl rfl

theorem step_reason {a : Label β} (h : s.step g o a = some s') {r : AbortReason}
    (hr : s.control.reason = some r) : s'.control.reason = some r := by
  rcases step_control h with hv | hv
  · rw [show s'.control = s.control from congrArg Prod.fst hv]
    exact hr
  · exact reason_stays hv hr

theorem controlInv {C : State β → Label β → Prop} (hr : (system g o).ReachableBy C s) :
    ControlInv ⟨g.nodes.length⟩ s.control s.coordinator.pc.phase := by
  refine hr.invariant (I := fun s => ControlInv ⟨g.nodes.length⟩ s.controlView.1 s.controlView.2)
    (fun s h => ?_) (fun s a s' _ hi _ h => ?_)
  · rw [show s = State.initial g o from h]
    exact controlInv_new
  · rcases step_control h with hv | hv
    · exact hv ▸ hi
    · exact controlInv_step hv hi

/-- Once it has collected the exits the coordinator never waits. -/
theorem coordinator_enabled (hc : s.coordinator.pc ≠ .collect) (hd : s.coordinator.pc ≠ .done)
    (hp : s.coordinator.pc ≠ .panicked) (call : NodeCall Unit) :
    (s.step g o (.coordinator call)).isSome = true := by
  simp only [State.step, State.coordinatorStep]
  split <;> (try split) <;> (try split) <;> simp_all

/-- One terminal outcome: at most one abort request is granted, the result is published once, it
is the granted reason or success, nothing is granted after the seal, nothing changes after the
publication, and the coordinator aborts only with a reason. -/
theorem unique_terminal_outcome (g : GraphDefinition) (o : RuntimeOptions) (s : State β)
    (hr : (system g o).Reachable s) :
    s.control.wins.length ≤ 1 ∧
    s.control.published.length ≤ 1 ∧
    (s.coordinator.pc = .done → s.control.published.length = 1) ∧
    s.control.result = s.control.published.head? ∧
    (∀ out, s.control.result = some out → out = outcomeOf ⟨g.nodes.length⟩ s.control.wins) ∧
    (s.coordinator.pc = .beginAborting → s.control.reason.isSome = true) ∧
    s.coordinator.pc ≠ .panicked ∧
    (s.coordinator.pc ≠ .collect → s.coordinator.pc ≠ .done →
      ∀ call, (s.step g o (.coordinator call)).isSome = true) ∧
    ∀ a s', s.step g o a = some s' →
      (s.control.successSealed = true → s'.control.wins = s.control.wins) ∧
      (s.control.result.isSome = true →
        s'.control.state = s.control.state ∧ s'.control.result = s.control.result) := by
  have hi := controlInv hr
  have hphase : s.coordinator.pc.phase = .done ↔ s.coordinator.pc = .done := by
    cases s.coordinator.pc <;> simp [CoordinatorPc.phase]
  have halive : s.coordinator.pc ≠ .panicked := fun hp => hi.alive (by rw [hp]; rfl)
  have hfrozen : ∀ a s', s.step g o a = some s' →
      (s.control.successSealed = true → s'.control.wins = s.control.wins) ∧
      (s.control.result.isSome = true →
        s'.control.state = s.control.state ∧ s'.control.result = s.control.result) := by
    intro a s' h
    rcases step_control h with hv | hv
    · rw [show s'.control = s.control from congrArg Prod.fst hv]
      exact ⟨fun _ => rfl, fun _ => ⟨rfl, rfl⟩⟩
    · exact control_frozen hv hi
  refine ⟨?_, ?_, ?_, ?_, ?_, fun hp => hi.reasoned (by rw [hp]; rfl), halive,
    fun hc hd call => coordinator_enabled hc hd halive call, hfrozen⟩
  · rw [hi.wins]
    cases s.control.reason <;> simp
  · by_cases hd : s.coordinator.pc.phase = .done
    · simp [(hi.done hd).1]
    · simp [(hi.unpublished hd).2]
  · exact fun hd => by simp [(hi.done (hphase.mpr hd)).1]
  · by_cases hd : s.coordinator.pc.phase = .done
    · simp [(hi.done hd).1, (hi.done hd).2.1]
    · simp [(hi.unpublished hd).2, (hi.unpublished hd).1]
  · intro out hout
    by_cases hd : s.coordinator.pc.phase = .done
    · rw [(hi.done hd).2.1] at hout
      exact (Option.some.inj hout).symm
    · simp [(hi.unpublished hd).1] at hout

/-- A stop during the prepare phase, up to the publication of its reason. -/
theorem unique_terminal_outcome_stopped :
    ∃ s, sampleSystem.Reachable s ∧ s.coordinator.pc = .done ∧
      s.control.published.length = 1 ∧ s.control.wins = [cancellationAbort] ∧
      ∀ out, s.control.result = some out → out = .err cancellationAbort := by
  obtain ⟨s, hr, ht⟩ := sampleSystem.exists_reachable_of_run rfl
    (Label.works 0 2 ++ Label.works 1 2 ++ Label.stopCall ++ Label.works 0 5 ++ Label.works 1 15 ++
      Label.forwards 8 ++ Label.coordinates 9)
    (fun s => s.coordinator.pc = .done ∧ s.control.wins = [cancellationAbort]) (by decide +kernel)
  simp only [decide_eq_true_eq] at ht
  obtain ⟨-, -, hpub, -, hout, -⟩ := unique_terminal_outcome sampleGraph sampleOptions s hr
  refine ⟨s, hr, ht.1, hpub ht.1, ht.2, fun out h => ?_⟩
  rw [hout out h, ht.2]
  rfl

end Muxiva.Runtime
