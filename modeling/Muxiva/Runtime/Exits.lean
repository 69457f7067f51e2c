import Muxiva.Runtime.Frame

/-! The coordinator receives one exit of every worker that returns, and goes on only when every
thread is gone. -/
set_option linter.all false
namespace Muxiva.Runtime

variable {β : Type} {g : GraphDefinition} {o : RuntimeOptions} {s s' : State β}

/-- What a step of the coordinator leaves alone once it has collected the exits. -/
structure CoordinatorFrame (s s' : State β) : Prop where
  workers : s'.workers = s.workers
  dispatchers : ∀ e, s'.dispatchers e = s.dispatchers e ∨
    s'.dispatchers e = (s.dispatchers e).woken
  exits : s'.exits = s.exits
  stops : s'.stops = s.stops
  nodes : s'.coordinator.nodes = s.coordinator.nodes
  prepared : s'.coordinator.prepared = s.coordinator.prepared
  moved : s'.coordinator.pc ≠ .collect
  outputs : s'.log.outputs = s.log.outputs
  applied : s'.log.applied = s.log.applied
  processed : s'.log.processed = s.log.processed
  handled : s'.log.handled = s.log.handled

theorem coordinatorStep_frame {call : NodeCall Unit} (hc : s.coordinator.pc ≠ .collect)
    (h : s.coordinatorStep g o call = some s') : CoordinatorFrame s s' := by
  unfold State.coordinatorStep at h
  simp only at h
  split at h
  case h_1 hpc => exact absurd hpc hc
  all_goals (try split at h) <;> (try split at h) <;> (try cases h)
  all_goals first
    | exact ⟨rfl, fun _ => .inl rfl, rfl, rfl, rfl, rfl, by simp, rfl, rfl, rfl, rfl⟩
    | skip
  · rename_i t ts hpc
    have ht := runTask_sameThreads s t
    exact ⟨ht.workers, ht.dispatchers, ht.exits, ht.stops, rfl, rfl, by simp, by simp [ht.log],
      by simp [ht.log], by simp [ht.log], by simp [ht.log]⟩

structure ExitInv (g : GraphDefinition) (s : State β) : Prop where
  pending : ∀ n p, .node n p ∈ s.exits →
    (s.workers n).pc = .exited ∧ p = (s.workers n).prepared
  received : ∀ n ∈ s.coordinator.nodes, (s.workers n).pc = .exited
  prepared : ∀ n, n ∈ s.coordinator.prepared ↔
    n ∈ s.coordinator.nodes ∧ (s.workers n).prepared = true
  sent : ∀ n, (s.workers n).pc = .exited →
    n ∈ s.coordinator.nodes ∨ ∃ p, .node n p ∈ s.exits
  collected : s.coordinator.pc ≠ .collect → s.exits = [] ∧ s.allFinished g = true

theorem allFinished_worker (h : s.allFinished g = true) {n : NodeId}
    (hn : n ∈ g.topologicalOrder) : (s.workers n).pc.finished = true := by
  simp only [State.allFinished, Bool.and_eq_true, List.all_eq_true] at h
  exact h.1 n hn

theorem allFinished_dispatcher (h : s.allFinished g = true) {e : EdgeDescriptor}
    (he : e ∈ g.enabledEdges) : (s.dispatchers e).finished = true := by
  simp only [State.allFinished, Bool.and_eq_true, List.all_eq_true] at h
  exact h.2 e he

theorem workerMove_not_finished {n : NodeId} {call : NodeCall (NodeCallOutput β)} {w : Worker β}
    {pc : WorkerPc β} (h : WorkerMove g o s n w call pc s') : pc.finished = false := by
  cases h with
  | quiet pc w' h => cases h <;> rfl
  | callback pc s₀ s' hc hr => cases hc <;> rfl
  | _ => rfl

theorem dispatcherMove_not_finished [DecidableEq β] {e : EdgeDescriptor}
    {answers : PolicyAnswers β} {pc : DispatcherPc β} (h : DispatcherMove g o s e answers pc s') :
    pc.finished = false := by
  cases h <;> rfl

theorem quiet_not_finished {n : NodeId} {pc : WorkerPc β} {w w' : Worker β}
    (h : Quiet g s n w pc w') : w'.pc.finished = false := by
  cases h with
  | sent =>
    unfold State.routed
    split_ifs
    · cases w.delay <;> rfl
    · rfl
  | lost r h | closed =>
    unfold Worker.failed
    split_ifs <;> rfl
  | _ => rfl

/-- A worker is gone only by sending its exit or by dying. -/
theorem workerMove_exited {n : NodeId} {call : NodeCall (NodeCallOutput β)} {w : Worker β}
    {pc : WorkerPc β} (h : WorkerMove g o s n w call pc s')
    (hx : (s'.workers n).pc = .exited) : pc = .exit := by
  cases h with
  | quiet pc w' h =>
    have hq := quiet_not_finished h
    simp only [State.setWorker, Function.update_self] at hx
    simp [hx, WorkerPc.finished] at hq
  | callback pc s₀ s' hc hr => cases hr <;> simp at hx
  | exit => rfl
  | _ => simp at hx

theorem woken_finished (pc : DispatcherPc β) : pc.woken.finished = pc.finished := by
  cases pc <;> rfl

/-- Waking producers does not bring a thread back. -/
theorem allFinished_of_frame (hw : s'.workers = s.workers)
    (hd : ∀ e, s'.dispatchers e = s.dispatchers e ∨ s'.dispatchers e = (s.dispatchers e).woken)
    (h : s.allFinished g = true) : s'.allFinished g = true := by
  simp only [State.allFinished, Bool.and_eq_true, List.all_eq_true] at h ⊢
  refine ⟨fun n hn => by rw [hw]; exact h.1 n hn, fun e he => ?_⟩
  rcases hd e with hd | hd
  · rw [hd]
    exact h.2 e he
  · rw [hd, woken_finished]
    exact h.2 e he

theorem exitInv_worker {n : NodeId} {call : NodeCall (NodeCallOutput β)}
    (hn : n ∈ g.topologicalOrder) (hi : ExitInv g s)
    (h : s.workerStep g o n call = some s') : ExitInv g s' := by
  have hm := workerStep_move h
  have hf := workerMove_frame hm
  have hnf := workerMove_not_finished hm
  have hcollect : s.coordinator.pc = .collect := by
    by_contra hc
    have := allFinished_worker (hi.collected hc).2 hn
    rw [hnf] at this
    cases this
  have hne : (s.workers n).pc ≠ .exited := fun he => by simp [he, WorkerPc.finished] at hnf
  have hold : ∀ m p, .node m p ∈ s.exits → m ≠ n := by
    rintro m p hmem rfl
    exact hne (hi.pending m p hmem).1
  have hprep : ∀ m ∈ s.coordinator.nodes, m ≠ n := by
    rintro m hmem rfl
    exact hne (hi.received m hmem)
  have hreceived : ∀ m ∈ s'.coordinator.nodes, (s'.workers m).pc = .exited := by
    intro m hmem
    rw [hf.coordinator] at hmem
    rw [hf.workers m (hprep m hmem)]
    exact hi.received m hmem
  have hprepared : ∀ m, m ∈ s'.coordinator.prepared ↔
      m ∈ s'.coordinator.nodes ∧ (s'.workers m).prepared = true := by
    intro m
    rw [hf.coordinator, hi.prepared m]
    refine and_congr_right fun hmem => ?_
    rw [hf.workers m (hprep m hmem)]
  have hcollected : s'.coordinator.pc ≠ .collect → s'.exits = [] ∧ s'.allFinished g = true :=
    fun hc => absurd (by rw [hf.coordinator]; exact hcollect) hc
  by_cases hx : (s.workers n).pc = .exit
  · rw [hx] at hm
    cases hm with
    | quiet pc w' hq => cases hq
    | callback pc s₀ s' hc hr => cases hc
    | exit =>
      refine ⟨fun m p hmem => ?_, hreceived, hprepared, fun m hpc => ?_, hcollected⟩
      · simp only [List.mem_append, List.mem_singleton, RuntimeExit.node.injEq] at hmem
        rcases hmem with hmem | ⟨rfl, rfl⟩
        · simp only [State.setWorker, Function.update_of_ne (hold m p hmem)]
          exact hi.pending m p hmem
        · simp
      · by_cases hmn : m = n
        · exact .inr ⟨(s.workers n).prepared, by simp [hmn]⟩
        · simp only [State.setWorker, Function.update_of_ne hmn] at hpc
          refine (hi.sent m hpc).imp_right fun ⟨p, hp⟩ => ⟨p, ?_⟩
          exact List.mem_append_left _ hp
  · refine ⟨fun m p hmem => ?_, hreceived, hprepared, fun m hpc => ?_, hcollected⟩
    · rw [hf.exits hx] at hmem
      rw [hf.workers m (hold m p hmem)]
      exact hi.pending m p hmem
    · rw [hf.exits hx, hf.coordinator]
      by_cases hmn : m = n
      · subst hmn
        exact absurd (workerMove_exited hm hpc) hx
      · rw [hf.workers m hmn] at hpc
        exact hi.sent m hpc

/-- Steps that touch neither workers nor received exits. -/
theorem ExitInv.of_frame (hi : ExitInv g s) (hw : s'.workers = s.workers)
    (hd : ∀ e, s'.dispatchers e = s.dispatchers e ∨ s'.dispatchers e = (s.dispatchers e).woken)
    (hx : s'.exits = s.exits) (hnodes : s'.coordinator.nodes = s.coordinator.nodes)
    (hprep : s'.coordinator.prepared = s.coordinator.prepared)
    (hpc : s'.coordinator.pc ≠ .collect → s.coordinator.pc ≠ .collect) : ExitInv g s' := by
  refine ⟨?_, ?_, ?_, ?_, fun hc => ?_⟩
  · rw [hx, hw]
    exact hi.pending
  · rw [hnodes, hw]
    exact hi.received
  · rw [hnodes, hprep, hw]
    exact hi.prepared
  · rw [hnodes, hx, hw]
    exact hi.sent
  · rw [hx]
    exact ⟨(hi.collected (hpc hc)).1, allFinished_of_frame hw hd (hi.collected (hpc hc)).2⟩

theorem exitInv_coordinator {call : NodeCall Unit} (hi : ExitInv g s)
    (h : s.coordinatorStep g o call = some s') : ExitInv g s' := by
  by_cases hc : s.coordinator.pc = .collect
  · simp only [State.coordinatorStep, hc] at h
    cases hx : s.exits with
    | nil =>
      simp only [hx] at h
      split_ifs at h with hall
      cases h
      have hsent : ∀ n, (s.workers n).pc = .exited → n ∈ s.coordinator.nodes := fun n hn => by
        simpa [hx] using hi.sent n hn
      exact ⟨by simp, hi.received, hi.prepared, fun n hn => .inl (hsent n hn),
        fun _ => ⟨rfl, hall⟩⟩
    | cons x rest =>
      have hrest : ∀ {y}, y ∈ rest → y ∈ s.exits := fun hy => by
        rw [hx]
        exact List.mem_cons_of_mem _ hy
      cases x with
      | edge e =>
        simp only [hx] at h
        cases h
        refine ⟨fun n p hm => hi.pending n p (hrest hm), hi.received, hi.prepared,
          fun n hn => (hi.sent n hn).imp_right fun ⟨p, hp⟩ => ⟨p, ?_⟩, fun hne => absurd hc hne⟩
        simpa [hx] using hp
      | node n p =>
        simp only [hx] at h
        cases h
        obtain ⟨hpc, hp⟩ := hi.pending n p (by simp [hx])
        refine ⟨fun m q hm => hi.pending m q (hrest hm), fun m hm => ?_, fun m => ?_,
          fun m hm => ?_, fun hne => absurd rfl hne⟩
        · simp only [List.mem_append, List.mem_singleton] at hm
          rcases hm with hm | rfl
          · exact hi.received m hm
          · exact hpc
        · by_cases hmn : m = n
          · subst hmn
            cases p with
            | true => simp [← hp]
            | false => simp [← hp, hi.prepared m]
          · cases p with
            | true => simp [hmn, hi.prepared m]
            | false => simp [hmn, hi.prepared m]
        · rcases hi.sent m hm with hm | ⟨q, hq⟩
          · exact .inl (List.mem_append_left _ hm)
          · rw [hx, List.mem_cons] at hq
            rcases hq with hq | hq
            · cases hq
              exact .inl (by simp)
            · exact .inr ⟨q, hq⟩
  · have hf := coordinatorStep_frame hc h
    exact hi.of_frame hf.workers hf.dispatchers hf.exits hf.nodes hf.prepared fun _ => hc

/-- What one action of a stop call does. -/
theorem stopStep_cases {i : ℕ} (h : s.stopStep g o i = some s') :
    (s.stops[i]? = some .request ∧ (s.control.requestAbort cancellationAbort).1 = true ∧
      s' = { s with
        control := (s.control.requestAbort cancellationAbort).2
        stops := s.stops.set i (.closing (closeTasks g o.shutdownMode)) }) ∨
    (s.stops[i]? = some .request ∧ (s.control.requestAbort cancellationAbort).1 = false ∧
      s' = { s with stops := s.stops.set i (.returned false) }) ∨
    (s.stops[i]? = some (.closing []) ∧ s' = { s with stops := s.stops.set i (.returned true) }) ∨
    ∃ t ts, s.stops[i]? = some (.closing (t :: ts)) ∧
      s' = { s.runTask t with stops := s.stops.set i (.closing ts) } := by
  unfold State.stopStep at h
  split at h
  · rename_i hs
    rcases hreq : s.control.requestAbort cancellationAbort with ⟨won, c⟩
    simp only [hreq] at h
    cases won with
    | true =>
      cases h
      exact .inl ⟨hs, rfl, rfl⟩
    | false =>
      cases h
      exact .inr (.inl ⟨hs, rfl, rfl⟩)
  · rename_i hs
    cases h
    exact .inr (.inr (.inl ⟨hs, rfl⟩))
  · rename_i t ts hs
    cases h
    exact .inr (.inr (.inr ⟨t, ts, hs, rfl⟩))
  · cases h

variable [DecidableEq β]

theorem exitInv_dispatcher {e : EdgeDescriptor} {answers : PolicyAnswers β}
    (he : e ∈ g.enabledEdges) (hi : ExitInv g s)
    (h : s.dispatcherStep g o e answers = some s') : ExitInv g s' := by
  have hm := dispatcherStep_move h
  have hf := dispatcherMove_frame hm
  have hnf := dispatcherMove_not_finished hm
  have hcollect : s.coordinator.pc = .collect := by
    by_contra hc
    have := allFinished_dispatcher (hi.collected hc).2 he
    rw [hnf] at this
    cases this
  have hcollected : s'.coordinator.pc ≠ .collect → s'.exits = [] ∧ s'.allFinished g = true :=
    fun hc => absurd (by rw [hf.coordinator]; exact hcollect) hc
  -- the exit of an edge carries nothing the accounting of nodes looks at
  have hexits : ∀ n p, .node n p ∈ s'.exits ↔ .node n p ∈ s.exits := by
    intro n p
    by_cases hx : s.dispatchers e = .exit
    · rw [hx] at hm
      cases hm
      simp
    · rw [hf.exits hx]
  refine ⟨fun n p hmem => ?_, ?_, ?_, fun n hn => ?_, hcollected⟩
  · rw [hf.workers]
    exact hi.pending n p ((hexits n p).mp hmem)
  · rw [hf.coordinator, hf.workers]
    exact hi.received
  · rw [hf.coordinator, hf.workers]
    exact hi.prepared
  · rw [hf.workers] at hn
    rw [hf.coordinator]
    exact (hi.sent n hn).imp_right fun ⟨p, hp⟩ => ⟨p, (hexits n p).mpr hp⟩

theorem exitInv_step {a : Label β} (hi : ExitInv g s) (h : s.step g o a = some s') :
    ExitInv g s' := by
  cases a with
  | worker n call =>
    simp only [State.step] at h
    split_ifs at h with hn
    exact exitInv_worker hn hi h
  | dispatcher e answers =>
    simp only [State.step] at h
    split_ifs at h with he
    exact exitInv_dispatcher he hi h
  | stopBegin => cases h; exact hi.of_frame rfl (fun _ => .inl rfl) rfl rfl rfl id
  | stop i =>
    rcases stopStep_cases h with ⟨-, -, rfl⟩ | ⟨-, -, rfl⟩ | ⟨-, rfl⟩ | ⟨t, ts, -, rfl⟩
    · exact hi.of_frame rfl (fun _ => .inl rfl) rfl rfl rfl id
    · exact hi.of_frame rfl (fun _ => .inl rfl) rfl rfl rfl id
    · exact hi.of_frame rfl (fun _ => .inl rfl) rfl rfl rfl id
    · have ht := runTask_sameThreads s t
      refine hi.of_frame ht.workers ht.dispatchers ht.exits ?_ ?_ ?_
      · simp [ht.coordinator]
      · simp [ht.coordinator]
      · simp [ht.coordinator]
  | coordinator call => exact exitInv_coordinator hi h
  | tick d => cases h; exact hi.of_frame rfl (fun _ => .inl rfl) rfl rfl rfl id

theorem exitInv {C : State β → Label β → Prop} (hr : (system g o).ReachableBy C s) :
    ExitInv g s := by
  refine hr.invariant (I := ExitInv g) (fun s h => ?_) fun s a s' _ hi _ h => exitInv_step hi h
  rw [show s = State.initial g o from h]
  exact ⟨by simp [State.initial], by simp [State.initial], by simp [State.initial],
    by simp [State.initial], by simp [State.initial]⟩

omit [DecidableEq β] in
theorem coordinatorStep_workers {call : NodeCall Unit}
    (h : s.coordinatorStep g o call = some s') : s'.workers = s.workers := by
  by_cases hc : s.coordinator.pc = .collect
  · simp only [State.coordinatorStep, hc] at h
    split at h
    · cases h
      rfl
    · cases h
      rfl
    · split_ifs at h
      cases h
      rfl
  · exact (coordinatorStep_frame hc h).workers

/-- Only workers write worker records. -/
theorem step_workers {a : Label β} (h : s.step g o a = some s') :
    s'.workers = s.workers ∨ ∃ n call, a = .worker n call ∧ n ∈ g.topologicalOrder ∧
      s.workerStep g o n call = some s' := by
  cases a with
  | worker n call =>
    simp only [State.step] at h
    split_ifs at h with hn
    exact .inr ⟨n, call, rfl, hn, h⟩
  | dispatcher e answers =>
    simp only [State.step] at h
    split_ifs at h
    exact .inl (dispatcherMove_frame (dispatcherStep_move h)).workers
  | stopBegin => cases h; exact .inl rfl
  | stop i =>
    rcases stopStep_cases h with ⟨-, -, rfl⟩ | ⟨-, -, rfl⟩ | ⟨-, rfl⟩ | ⟨t, ts, -, rfl⟩
    · exact .inl rfl
    · exact .inl rfl
    · exact .inl rfl
    · exact .inl (runTask_sameThreads s t).workers
  | coordinator call => exact .inl (coordinatorStep_workers h)
  | tick d => cases h; exact .inl rfl

/-- A worker at one of these calls `on_process` or `on_signal` next. -/
def WorkerPc.inCall : WorkerPc β → Bool
  | .source | .onSignal .. | .onTick | .onFrame .. => true
  | _ => false

/-- The tick delay that a consumer's callback asks for, if this is one, can be added to the
current `Instant`. -/
def Label.ticksFit (g : GraphDefinition) (o : RuntimeOptions) (s : State β) : Label β → Bool
  | .worker n call => !(s.workers n).pc.inCall || g.isSource n ||
      match call.result n o.emissionBudget .process with
      | .ok out => out.nextTick.all fun d => s.clock + d ≤ o.instantMax
      | .error _ => true
  | _ => true

/-- Every tick delay of the run fits. -/
def TicksFit (g : GraphDefinition) (o : RuntimeOptions) (s : State β) (a : Label β) : Prop :=
  a.ticksFit g o s = true

instance (g : GraphDefinition) (o : RuntimeOptions) (s : State β) (a : Label β) :
    Decidable (TicksFit g o s a) := inferInstanceAs (Decidable (_ = true))

omit [DecidableEq β] in
theorem workerMove_dead {n : NodeId} {call : NodeCall (NodeCallOutput β)}
    {pc : WorkerPc β} (h : WorkerMove g o s n (s.workers n) call pc s')
    (hd : (s'.workers n).pc = .dead) : pc.inCall = true ∧ g.isSource n = false ∧
      ∃ out d, call.result n o.emissionBudget .process = .ok out ∧ out.nextTick = some d ∧
        o.instantMax < s.clock + d := by
  cases h with
  | quiet pc w' h =>
    have hq := quiet_not_finished h
    simp only [State.setWorker, Function.update_self] at hd
    simp [hd, WorkerPc.finished] at hq
  | callback pc s₀ s' hc hr =>
    have hclock : s₀.clock = s.clock := by cases hc <;> rfl
    have hcall : pc.inCall = true := by cases hc <;> rfl
    cases hr with
    | died out d h hs ht ho => exact ⟨hcall, hs, out, d, h, ht, by rw [← hclock]; exact ho⟩
    | _ => simp at hd
  | _ => simp at hd

/-- No worker dies while the tick delays fit. -/
theorem worker_alive (hr : (system g o).ReachableBy (TicksFit g o) s) (n : NodeId) :
    (s.workers n).pc ≠ .dead := by
  refine hr.invariant (I := fun s => ∀ n, (s.workers n).pc ≠ .dead) (fun s h => ?_)
    (fun s a s' _ hi hc h => ?_) n
  · rw [show s = State.initial g o from h]
    simp [State.initial]
  · rcases step_workers h with hw | ⟨m, call, rfl, -, hstep⟩
    · rw [hw]
      exact hi
    · have hm := workerStep_move hstep
      intro n hd
      by_cases hn : n = m
      · subst hn
        obtain ⟨hcall, hsrc, out, d, hres, ht, hover⟩ := workerMove_dead hm hd
        simp only [TicksFit, Label.ticksFit, hcall, hsrc, hres, ht, Bool.not_true, Bool.or_self,
          Bool.false_or, Option.all_some, decide_eq_true_eq] at hc
        omega
      · rw [(workerMove_frame hm).workers n hn] at hd
        exact hi n hd

end Muxiva.Runtime
