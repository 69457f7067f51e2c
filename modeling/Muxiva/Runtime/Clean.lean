import Muxiva.Runtime.Channels

/-! Runs without failure: no reason is installed and no thread is about to ask for an abort. A state
of this kind is reached through states of this kind only. -/
set_option linter.all false
namespace Muxiva.Runtime

variable {β : Type} {g : GraphDefinition} {o : RuntimeOptions} {s s' : State β}

/-- On the way to `fail_graph`, or inside it. -/
def WorkerPc.failing : WorkerPc β → Bool
  | .dispatchClosed | .fail _ | .closing _ => true
  | _ => false

def DispatcherPc.failing : DispatcherPc β → Bool
  | .fail _ _ | .closing _ _ => true
  | _ => false

@[simp] theorem woken_failing (pc : DispatcherPc β) : pc.woken.failing = pc.failing := by
  cases pc <;> rfl

structure Clean (g : GraphDefinition) (s : State β) : Prop where
  reason : s.control.reason = none
  workers : ∀ n ∈ g.topologicalOrder, (s.workers n).pc.failing = false
  dispatchers : ∀ e ∈ g.enabledEdges, (s.dispatchers e).failing = false

instance (g : GraphDefinition) (s : State β) : Decidable (Clean g s) :=
  decidable_of_iff (s.control.reason = none ∧
      (∀ n ∈ g.topologicalOrder, (s.workers n).pc.failing = false) ∧
      ∀ e ∈ g.enabledEdges, (s.dispatchers e).failing = false)
    ⟨fun h => ⟨h.1, h.2.1, h.2.2⟩, fun h => ⟨h.reason, h.workers, h.dispatchers⟩⟩

/-- A failing worker fails on or leaves a reason behind. -/
theorem workerMove_failing {n : NodeId} {call : NodeCall (NodeCallOutput β)} {pc : WorkerPc β}
    (hopen : s.control.successSealed = false ∧ s.control.result = none)
    (hreason : s.control.reason = none)
    (hc : ∀ ts, pc = .closing ts → s.control.reason.isSome = true)
    (h : WorkerMove g o s n (s.workers n) call pc s') (hf : pc.failing = true) :
    (s'.workers n).pc.failing = true ∨ s'.control.reason ≠ none := by
  cases h with
  | quiet pc w' h =>
    cases h with
    | dispatchClosed => exact .inl (by simp [WorkerPc.failing])
    | lost r h => simpa [hreason] using reason_of_lost hopen h
    | closed => simpa [hreason] using hc [] rfl
    | _ => cases hf
  | callback pc s₀ s' hcons hr => cases hcons <;> cases hf
  | won r h =>
    obtain ⟨-, hlost⟩ | ⟨-, -, -, -, st, heq⟩ := requestAbort_cases s.control r
    · simp [h] at hlost
    · exact .inr (by simp [heq])
  | close t ts => simpa [hreason] using hc _ rfl
  | _ => cases hf

theorem dispatcherMove_failing [DecidableEq β] {e : EdgeDescriptor} {answers : PolicyAnswers β}
    {pc : DispatcherPc β} (hopen : s.control.successSealed = false ∧ s.control.result = none)
    (hreason : s.control.reason = none)
    (hc : ∀ ts signal, pc = .closing ts signal → s.control.reason.isSome = true)
    (h : DispatcherMove g o s e answers pc s') (hf : pc.failing = true) :
    s'.control.reason ≠ none := by
  cases h with
  | won r signal h =>
    obtain ⟨-, hlost⟩ | ⟨-, -, -, -, st, heq⟩ := requestAbort_cases s.control r
    · simp [h] at hlost
    · simp [heq]
  | lost r signal h => simpa [hreason] using reason_of_lost hopen h
  | close t ts signal => simpa [hreason] using hc _ _ rfl
  | closed signal => simpa [hreason] using hc _ _ rfl
  | _ => cases hf

variable [DecidableEq β]

/-- A dispatcher steps only while the coordinator collects. -/
theorem collecting_of_dispatch {e : EdgeDescriptor} {answers : PolicyAnswers β}
    (he : e ∈ g.enabledEdges) (hx : ExitInv g s)
    (hm : DispatcherMove g o s e answers (s.dispatchers e) s') : s.coordinator.pc = .collect := by
  by_contra hc
  have hfin := allFinished_dispatcher (hx.collected hc).2 he
  rw [dispatcherMove_not_finished hm] at hfin
  cases hfin

omit [DecidableEq β] in
theorem open_of_collect (hc : ControlInv ⟨g.nodes.length⟩ s.control s.coordinator.pc.phase)
    (hcollect : s.coordinator.pc = .collect) :
    s.control.successSealed = false ∧ s.control.result = none :=
  control_open hc (by simp [hcollect, CoordinatorPc.phase]) (by simp [hcollect, CoordinatorPc.phase])

/-- A failure does not go away. -/
theorem clean_of_step {C : State β → Label β → Prop} {a : Label β}
    (hr : (system g o).ReachableBy C s) (h : s.step g o a = some s') (hclean : Clean g s') :
    Clean g s := by
  have hreason : s.control.reason = none := by
    by_contra hne
    obtain ⟨r, hr'⟩ := Option.ne_none_iff_exists'.mp hne
    exact absurd hclean.reason (by simp [step_reason h hr'])
  refine ⟨hreason, fun n hn => ?_, fun e he => ?_⟩
  · by_contra hf
    have hf : (s.workers n).pc.failing = true := by simpa using hf
    have hnf := hclean.workers n hn
    rcases step_workers h with hw | ⟨m, call, -, hm, hstep⟩
    · rw [hw, hf] at hnf
      cases hnf
    · have hmove := workerStep_move hstep
      by_cases hnm : n = m
      · subst hnm
        have hopen := open_of_collect (controlInv hr) (collecting_of_move hm (exitInv hr) hmove)
        rcases workerMove_failing hopen hreason ((closingInv hr).workers n) hmove hf with hf' | hr'
        · rw [hf'] at hnf
          cases hnf
        · exact hr' hclean.reason
      · rw [(workerMove_frame hmove).workers n hnm, hf] at hnf
        cases hnf
  · by_contra hf
    have hf : (s.dispatchers e).failing = true := by simpa using hf
    have hnf := hclean.dispatchers e he
    rcases step_dispatchers h e with (hd | hd) | ⟨answers, -, -, hstep⟩
    · rw [hd, hf] at hnf
      cases hnf
    · rw [hd, woken_failing, hf] at hnf
      cases hnf
    · have hmove := dispatcherStep_move hstep
      have hopen := open_of_collect (controlInv hr) (collecting_of_dispatch he (exitInv hr) hmove)
      exact dispatcherMove_failing hopen hreason ((closingInv hr).dispatchers e) hmove hf
        hclean.reason

/-- The invariant rule for clean states. -/
theorem clean_invariant {C : State β → Label β → Prop} {I : State β → Prop}
    (h0 : I (State.initial g o))
    (hstep : ∀ s a s', (system g o).ReachableBy C s → Clean g s → I s → C s a →
      s.step g o a = some s' → Clean g s' → I s')
    (hr : (system g o).ReachableBy C s) (hc : Clean g s) : I s := by
  refine hr.invariant (I := fun s => Clean g s → I s) (fun s h _ => ?_)
    (fun s a s' hr hi ha h hc' => ?_) hc
  · rw [show s = State.initial g o from h]
    exact h0
  · have hclean := clean_of_step hr h hc'
    exact hstep s a s' hr hclean (hi hclean) ha h hc'

/-- `s'` has the data of `s`: what the threads hold, and what user code produced and consumed. -/
structure Untouched (s s' : State β) : Prop where
  workers : s'.workers = s.workers
  dispatchers : s'.dispatchers = s.dispatchers
  queues : s'.queues = s.queues
  signalQueues : s'.signalQueues = s.signalQueues
  channels : s'.channels = s.channels
  acks : s'.acks = s.acks
  outputs : s'.log.outputs = s.log.outputs
  applied : s'.log.applied = s.log.applied
  processed : s'.log.processed = s.log.processed
  handled : s'.log.handled = s.log.handled

/-- In a clean run only workers and dispatchers touch the data. -/
theorem clean_step {C : State β → Label β → Prop} {a : Label β}
    (hr : (system g o).ReachableBy C s) (hc : Clean g s) (h : s.step g o a = some s') :
    Untouched s s' ∨
    (∃ n call, a = .worker n call ∧ n ∈ g.topologicalOrder ∧
      WorkerMove g o s n (s.workers n) call (s.workers n).pc s') ∨
    ∃ e answers, a = .dispatcher e answers ∧ e ∈ g.enabledEdges ∧
      DispatcherMove g o s e answers (s.dispatchers e) s' := by
  have hclosing := closingInv hr
  cases a with
  | worker n call =>
    simp only [State.step] at h
    split_ifs at h with hn
    exact .inr (.inl ⟨n, call, rfl, hn, workerStep_move h⟩)
  | dispatcher e answers =>
    simp only [State.step] at h
    split_ifs at h with he
    exact .inr (.inr ⟨e, answers, rfl, he, dispatcherStep_move h⟩)
  | stopBegin => cases h; exact .inl ⟨rfl, rfl, rfl, rfl, rfl, rfl, rfl, rfl, rfl, rfl⟩
  | stop i =>
    rcases stopStep_cases h with ⟨-, -, rfl⟩ | ⟨-, -, rfl⟩ | ⟨-, rfl⟩ | ⟨t, ts, hst, rfl⟩
    · exact .inl ⟨rfl, rfl, rfl, rfl, rfl, rfl, rfl, rfl, rfl, rfl⟩
    · exact .inl ⟨rfl, rfl, rfl, rfl, rfl, rfl, rfl, rfl, rfl, rfl⟩
    · exact .inl ⟨rfl, rfl, rfl, rfl, rfl, rfl, rfl, rfl, rfl, rfl⟩
    · have hreason := hclosing.stops _ (List.mem_of_getElem? hst)
      simp [hc.reason] at hreason
  | coordinator call =>
    rcases coordinatorStep_cases h with ⟨t, ts, hpc, rfl⟩ | ⟨k, c, exits, trace, rfl, -⟩
    · have hreason := hclosing.coordinator _ hpc
      simp [hc.reason] at hreason
    · exact .inl ⟨rfl, rfl, rfl, rfl, rfl, rfl, rfl, rfl, rfl, rfl⟩
  | tick d => cases h; exact .inl ⟨rfl, rfl, rfl, rfl, rfl, rfl, rfl, rfl, rfl, rfl⟩

end Muxiva.Runtime
