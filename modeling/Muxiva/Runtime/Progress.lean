import Muxiva.Runtime.Gate
import Muxiva.Runtime.Wake

/-! Freedom from deadlock. A worker that cannot send is blocked by a dispatcher asleep on a full
queue, whose consumer is blocked further down the topological order; a parked consumer is blocked by
a producer that has not left, further up. -/
set_option linter.all false
namespace Muxiva.Runtime

variable {β : Type} {g : GraphDefinition} {o : RuntimeOptions} {s s' : State β}

/-- The worker of `n` has to wait for another thread or for time, or is gone. -/
def State.workerBlocked (g : GraphDefinition) (s : State β) (n : NodeId) : Bool :=
  match (s.workers n).pc with
  | .gate => !s.released
  | .sourceWait deadline => !s.cancelled && decide (s.clock < deadline)
  | .park observed =>
    decide (s.generation n = observed) && !(s.workers n).nextTick.any (· ≤ s.clock)
  | .sendSignals _ (e :: _) _ => (s.channels e).receiver && (s.channels e).slot.isSome
  | .awaitAcks (_ + 1) _ => decide (s.acks n = 0) && (g.outgoing n).any s.ackPending
  | .sendPending ((e, _) :: _) => (s.channels e).receiver && (s.channels e).slot.isSome
  | .exited | .dead => true
  | _ => false

/-- The dispatcher of `e` has to wait for another thread, or is gone. -/
def State.dispatcherBlocked (s : State β) (e : EdgeDescriptor) : Bool :=
  match s.dispatchers e with
  | .recv => (s.channels e).slot.isNone && (s.channels e).sender
  | .pushWait _ _ notified => !notified
  | .exited => true
  | _ => false

theorem workerStep_eq_none_iff (n : NodeId) (call : NodeCall (NodeCallOutput β)) :
    s.workerStep g o n call = none ↔ s.workerBlocked g n = true := by
  unfold State.workerStep State.workerBlocked
  simp only
  generalize (s.workers n).pc = pc
  cases pc with
  | gate => cases s.released <;> simp
  | prepare => cases call.result n o.emissionBudget .prepare <;> simp
  | enter =>
    simp only
    split_ifs <;> simp
  | sourceWait deadline =>
    simp only
    split_ifs with hc hd
    · simp [hc]
    · simp [hc, hd]
    · simpa [hc] using hd
  | pollSignals obs off =>
    cases hp : polled g n (s.workers n).cursor off with
    | none => simp [hp]
    | some p =>
      rcases hq : (s.signalQueues p.1).tryPop with ⟨x, q⟩
      cases x <;> simp [hp, hq]
  | checkTick obs =>
    simp only
    split_ifs <;> simp
  | pollFrames obs off =>
    cases hp : polled g n (s.workers n).cursor off with
    | none => simp [hp]
    | some p =>
      rcases hq : (s.queues p.1).tryPop with ⟨x, q⟩
      cases x <;> simp [hp, hq]
  | checkQueue obs rest => cases rest <;> simp
  | park obs =>
    simp only
    split_ifs with h
    · rcases h with h | h
      · simp [h]
      · simp only [h, Bool.not_true, Bool.and_false, Bool.false_eq_true]
    · simp only [not_or, not_not, Bool.not_eq_true] at h
      simp [h.1, h.2]
  | sendSignals sg rest bs =>
    cases rest with
    | nil => simp
    | cons e rest =>
      simp only
      split_ifs with hr hs
      · simp [hs]
      · simp [hr, Option.isSome_iff_ne_none, hs]
      · simp [hr]
  | awaitAcks left bs =>
    cases left with
    | zero => simp
    | succ left =>
      simp only
      split_ifs with h0 hp
      · simp [Nat.pos_iff_ne_zero.mp h0]
      · simp [Nat.eq_zero_of_not_pos h0, hp]
      · simp [hp]
  | checkReason bs => cases s.control.reason <;> simp
  | trySend bs pending =>
    cases bs with
    | nil => simp
    | cons b bs =>
      simp only
      split_ifs <;> simp
  | sendPending bs =>
    cases bs with
    | nil => simp
    | cons b bs =>
      simp only
      split_ifs with hr hs
      · simp [hs]
      · simp [hr, Option.isSome_iff_ne_none, hs]
      · simp [hr]
  | fail r =>
    rcases hreq : s.control.requestAbort r with ⟨won, c⟩
    cases won <;> simp [hreq]
  | closing ts => cases ts <;> simp
  | _ => simp

variable [DecidableEq β]

theorem dispatcherStep_eq_none_iff (e : EdgeDescriptor) (answers : PolicyAnswers β) :
    s.dispatcherStep g o e answers = none ↔ s.dispatcherBlocked e = true := by
  unfold State.dispatcherStep State.dispatcherBlocked
  simp only
  generalize s.dispatchers e = pc
  cases pc with
  | recv =>
    cases hs : (s.channels e).slot with
    | none => cases (s.channels e).sender <;> simp
    | some d => cases d <;> simp
  | frames rest =>
    cases rest with
    | nil => simp
    | cons x rest =>
      rcases ha : applyEdge e answers x.value (s.queues e) with ⟨out, q⟩
      cases out <;> simp [ha]
  | pushWait x rest notified => cases notified <;> simp
  | signals rest =>
    cases rest with
    | nil => simp
    | cons x rest =>
      rcases ho : observeSignal e answers.onSignal (s.queues e) with ⟨r, q⟩
      rcases hp : (s.signalQueues e).tryPush x with ⟨err, sq⟩
      cases r with
      | some r => simp
      | none => cases err <;> simp [hp]
  | fail r signal =>
    rcases hreq : s.control.requestAbort r with ⟨won, c⟩
    cases won <;> simp [hreq]
  | closing ts signal => cases ts <;> simp
  | shutdown ts => cases ts <;> simp
  | _ => simp

/-- A worker or a dispatcher can take a step. -/
def CanMove (g : GraphDefinition) (o : RuntimeOptions) (s : State β) : Prop :=
  (∃ n call, (s.step g o (.worker n call)).isSome = true) ∨
    ∃ e answers, (s.step g o (.dispatcher e answers)).isSome = true

/-- No worker and no dispatcher can take a step. -/
structure Stuck (g : GraphDefinition) (s : State β) : Prop where
  workers : ∀ n ∈ g.topologicalOrder, s.workerBlocked g n = true
  dispatchers : ∀ e ∈ g.enabledEdges, s.dispatcherBlocked e = true

instance (g : GraphDefinition) (s : State β) : Decidable (Stuck g s) :=
  decidable_of_iff ((∀ n ∈ g.topologicalOrder, s.workerBlocked g n = true) ∧
      ∀ e ∈ g.enabledEdges, s.dispatcherBlocked e = true)
    ⟨fun h => ⟨h.1, h.2⟩, fun h => ⟨h.workers, h.dispatchers⟩⟩

theorem not_canMove_iff : ¬ CanMove g o s ↔ Stuck g s := by
  constructor
  · intro h
    simp only [CanMove, not_or, not_exists, Bool.not_eq_true, Option.isSome_eq_false_iff,
      Option.isNone_iff_eq_none] at h
    refine ⟨fun n hn => ?_, fun e he => ?_⟩
    · have hstep := h.1 n ⟨false, .panicked ""⟩
      rw [State.step, if_pos hn] at hstep
      exact (workerStep_eq_none_iff n _).mp hstep
    · have hstep := h.2 e ⟨.ok .accept, .ok (.drop ""), .ok (), .ok ()⟩
      rw [State.step, if_pos he] at hstep
      exact (dispatcherStep_eq_none_iff e _).mp hstep
  · rintro h (⟨n, call, hs⟩ | ⟨e, answers, hs⟩)
    · simp only [State.step] at hs
      split_ifs at hs with hn
      · rw [(workerStep_eq_none_iff n call).mpr (h.workers n hn)] at hs
        cases hs
      · cases hs
    · simp only [State.step] at hs
      split_ifs at hs with he
      · rw [(dispatcherStep_eq_none_iff e answers).mpr (h.dispatchers e he)] at hs
        cases hs
      · cases hs

/-- The worker waits for a tick. -/
def Worker.awaitsTick (w : Worker β) : Bool :=
  match w.pc with
  | .sourceWait _ => true
  | .park _ => w.nextTick.isSome
  | _ => false

/-- The coordinator collects exits, every worker has passed the prepare gate, and none is in a
callback or waits for a tick. -/
structure Quiescent (g : GraphDefinition) (s : State β) : Prop where
  collecting : s.coordinator.pc = .collect
  passed : ∀ n ∈ g.topologicalOrder, (s.workers n).passed = true
  noCall : ∀ n ∈ g.topologicalOrder, (s.workers n).pc.inCall = false
  noTick : ∀ n ∈ g.topologicalOrder, (s.workers n).awaitsTick = false

instance (g : GraphDefinition) (s : State β) : Decidable (Quiescent g s) :=
  decidable_of_iff (s.coordinator.pc = .collect ∧
      (∀ n ∈ g.topologicalOrder, (s.workers n).passed = true) ∧
      (∀ n ∈ g.topologicalOrder, (s.workers n).pc.inCall = false) ∧
      ∀ n ∈ g.topologicalOrder, (s.workers n).awaitsTick = false)
    ⟨fun h => ⟨h.1, h.2.1, h.2.2.1, h.2.2.2⟩, fun h => ⟨h.collecting, h.passed, h.noCall, h.noTick⟩⟩

/-- Only the dispatchers of enabled edges run. -/
theorem dispatcher_absent {C : State β → Label β → Prop} (hr : (system g o).ReachableBy C s)
    {e : EdgeDescriptor} (he : e ∉ g.enabledEdges) : s.dispatchers e = .recv := by
  refine hr.invariant (I := fun s => s.dispatchers e = .recv) (fun s h => ?_)
    (fun s a s' _ hi _ h => ?_)
  · rw [show s = State.initial g o from h]
    rfl
  · rcases step_dispatchers h e with (hd | hd) | ⟨answers, -, hmem, -⟩
    · rw [hd, hi]
    · rw [hd, hi]
      rfl
    · exact absurd hmem he

/-- When nothing moves and no stop call is closing, nobody has a task before it. -/
theorem Stuck.no_pending {C : State β → Label β → Prop} (hr : (system g o).ReachableBy C s)
    (hs : Stuck g s) (hstops : ∀ p ∈ s.stops, p.tasks = []) (t : CloseTask) : ¬ Pending s t := by
  intro hp
  cases hp with
  | worker n h =>
    by_cases hn : n ∈ g.topologicalOrder
    · have hb := hs.workers n hn
      unfold State.workerBlocked at hb
      cases hpc : (s.workers n).pc with
      | closing ts => simp [hpc] at hb
      | _ => simp [hpc, WorkerPc.tasks] at h
    · rw [(gateInv hr).absent n hn] at h
      cases h
  | dispatcher e h =>
    by_cases he : e ∈ g.enabledEdges
    · have hb := hs.dispatchers e he
      unfold State.dispatcherBlocked at hb
      cases hpc : s.dispatchers e with
      | closing ts signal => simp [hpc] at hb
      | shutdown ts => simp [hpc] at hb
      | _ => simp [hpc, DispatcherPc.tasks] at h
    · rw [dispatcher_absent hr he] at h
      cases h
  | stop p hmem h =>
    rw [hstops p hmem] at h
    cases h

theorem Stuck.no_notify {C : State β → Label β → Prop} (hr : (system g o).ReachableBy C s)
    (hs : Stuck g s) (hstops : ∀ p ∈ s.stops, p.tasks = []) (n : NodeId) : ¬ NotifyDue s n := by
  have hmoves : ∀ {e : EdgeDescriptor} {pc : DispatcherPc β}, s.dispatchers e = pc →
      pc ≠ .recv → s.dispatcherBlocked e = true := by
    intro e pc hpc hne
    by_cases he : e ∈ g.enabledEdges
    · exact hs.dispatchers e he
    · exact absurd (hpc.symm.trans (dispatcher_absent hr he)) hne
  intro hd
  cases hd with
  | frame e rest he hpc =>
    have hb := hmoves hpc (by simp)
    simp [State.dispatcherBlocked, hpc] at hb
  | signal e rest he hpc =>
    have hb := hmoves hpc (by simp)
    simp [State.dispatcherBlocked, hpc] at hb
  | task t ht hp => exact hs.no_pending hr hstops t hp

/-- The dispatcher of `e` sleeps on a full queue. -/
def Choked (s : State β) (e : EdgeDescriptor) : Prop :=
  ∃ x rest, s.dispatchers e = .pushWait x rest false

omit [DecidableEq β] in
/-- Where a dispatcher can be blocked. -/
theorem dispatcherBlocked_cases {e : EdgeDescriptor} (h : s.dispatcherBlocked e = true) :
    (s.dispatchers e = .recv ∧ (s.channels e).slot = none ∧ (s.channels e).sender = true) ∨
    Choked s e ∨ s.dispatchers e = .exited := by
  unfold State.dispatcherBlocked at h
  cases hpc : s.dispatchers e with
  | recv => simp [hpc] at h; exact .inl ⟨rfl, h.1, h.2⟩
  | pushWait x rest notified =>
    simp only [hpc, Bool.not_eq_true'] at h
    exact .inr (.inl ⟨x, rest, by rw [hpc, h]⟩)
  | exited => exact .inr (.inr rfl)
  | _ => simp [hpc] at h

/-- A slot that is not taken belongs to a dispatcher asleep. -/
theorem choked_of_slot {C : State β → Label β → Prop} (hr : (system g o).ReachableBy C s)
    {e : EdgeDescriptor} (he : e ∈ g.enabledEdges) (hb : s.dispatcherBlocked e = true)
    (hslot : (s.channels e).slot ≠ none) : Choked s e := by
  rcases dispatcherBlocked_cases hb with ⟨-, hnone, -⟩ | hc | hx
  · exact absurd hnone hslot
  · exact hc
  · exact absurd ((channelInv hr he).slot (by rw [hx]; rfl)) hslot

omit [DecidableEq β] in
/-- A dispatcher that holds an acknowledgement goes on. -/
theorem not_holdsAck_of_blocked {e : EdgeDescriptor} (hb : s.dispatcherBlocked e = true) :
    (s.dispatchers e).holdsAck = false := by
  rcases dispatcherBlocked_cases hb with ⟨hpc, -⟩ | ⟨x, rest, hpc⟩ | hpc <;> rw [hpc] <;> rfl

/-- Where a worker past the gate can be blocked. -/
theorem workerBlocked_cases {C : State β → Label β → Prop} (hr : (system g o).ReachableBy C s)
    (hs : Stuck g s) {n : NodeId} (hn : n ∈ g.topologicalOrder)
    (hpass : (s.workers n).passed = true) (htick : (s.workers n).awaitsTick = false)
    (halive : (s.workers n).pc ≠ .dead) :
    (∃ obs, (s.workers n).pc = .park obs ∧ s.generation n = obs ∧ (s.workers n).nextTick = none) ∨
    (s.workers n).pc = .exited ∨ ∃ e ∈ g.outgoing n, Choked s e := by
  have hb := hs.workers n hn
  have hplaced := (placeInv hr).workers n
  have hchoked : ∀ e ∈ g.outgoing n, (s.channels e).slot ≠ none → Choked s e := by
    intro e he hslot
    have hmem := (GraphDefinition.mem_outgoing.mp he).1
    exact choked_of_slot hr hmem (hs.dispatchers e hmem) hslot
  unfold State.workerBlocked at hb
  cases hpc : (s.workers n).pc with
  | gate => simp [Worker.passed, hpc] at hpass
  | sourceWait deadline => simp [Worker.awaitsTick, hpc] at htick
  | park obs =>
    simp only [hpc, Bool.and_eq_true, decide_eq_true_eq] at hb
    refine .inl ⟨obs, rfl, hb.1, ?_⟩
    simpa [Worker.awaitsTick, hpc] using htick
  | sendSignals sg rest bs =>
    rw [hpc] at hplaced
    cases rest with
    | nil => simp [hpc] at hb
    | cons e rest =>
      simp only [hpc, Bool.and_eq_true] at hb
      have he : e ∈ g.outgoing n := hplaced.1.subset List.mem_cons_self
      exact .inr (.inr ⟨e, he, hchoked e he (Option.isSome_iff_ne_none.mp hb.2)⟩)
  | awaitAcks left bs =>
    cases left with
    | zero => simp [hpc] at hb
    | succ left =>
      simp only [hpc, Bool.and_eq_true, decide_eq_true_eq, List.any_eq_true] at hb
      obtain ⟨-, e, he, hp⟩ := hb
      have hmem := (GraphDefinition.mem_outgoing.mp he).1
      have hack := not_holdsAck_of_blocked (hs.dispatchers e hmem)
      refine .inr (.inr ⟨e, he, hchoked e he fun hnone => ?_⟩)
      simp [State.ackPending, hack, hnone] at hp
  | sendPending bs =>
    rw [hpc] at hplaced
    cases bs with
    | nil => simp [hpc] at hb
    | cons b bs =>
      simp only [hpc, Bool.and_eq_true] at hb
      have he : b.1 ∈ g.outgoing n := hplaced.subset List.mem_cons_self
      exact .inr (.inr ⟨b.1, he, hchoked b.1 he (Option.isSome_iff_ne_none.mp hb.2)⟩)
  | exited => exact .inr (.inl rfl)
  | dead => exact absurd hpc halive
  | _ => simp [hpc] at hb

theorem sender_dropped {C : State β → Label β → Prop} (hr : (system g o).ReachableBy C s)
    {e : EdgeDescriptor} (he : e ∈ g.enabledEdges)
    (hx : (s.workers e.fromNodeId).pc = .exited) : (s.channels e).sender = false := by
  rw [(channelInv hr he).sender, hx]
  rfl

section Deadlock

variable (hr : (system g o).ReachableBy (TicksFit g o) s) (hq : Quiescent g s) (hs : Stuck g s)
  (hstops : ∀ p ∈ s.stops, p.tasks = [])

include hr hq hs hstops

theorem full_of_choked {e : EdgeDescriptor} (hc : Choked s e) : FullQueue s e := by
  obtain ⟨x, rest, hpc⟩ := hc
  exact (sleepInv hr hq.collecting hpc).resolve_right (hs.no_pending hr hstops _)

/-- A worker that has left finds the queues of its incoming edges closed. -/
theorem closed_of_exited {n : NodeId} (hx : (s.workers n).pc = .exited) {e : EdgeDescriptor}
    (he : e ∈ g.incoming n) : (s.queues e).closed = true := by
  have hd := drainInv hr n
  rw [hx] at hd
  rcases hd with hreason | hdrained
  · obtain ⟨mode, hall⟩ := closerInv hr hq.collecting hreason
    have hmem : CloseTask.closeQueue e mode ∈ closeTasks g mode := by
      have hedge := g.mem_edges_of_enabled (GraphDefinition.mem_incoming.mp he).1
      simp only [closeTasks, List.mem_append, List.mem_cons, List.mem_flatMap]
      exact .inl (.inr ⟨e, hedge, by simp⟩)
    exact (hall _ hmem).resolve_right (hs.no_pending hr hstops _)
  · have hq := (hdrained e he).1
    simp only [EdgeQueue.isClosedAndEmpty, Bool.and_eq_true] at hq
    exact hq.1

/-- A parked consumer has empty queues, one of them open. -/
theorem parked_open {n : NodeId} {obs : ℕ} (hpc : (s.workers n).pc = .park obs)
    (hgen : s.generation n = obs) :
    (∀ e ∈ g.incoming n, (s.signalQueues e).queue = [] ∧ (s.queues e).frames = []) ∧
    ((s.workers n).nextTick ≠ none ∨ ∃ e ∈ g.incoming n,
      (s.queues e).closed = false ∨ (s.signalQueues e).closed = false) := by
  have hseen := ((wakeInv hr hq.collecting n obs (by rw [hpc]; rfl)).2 hgen).resolve_left
    (hs.no_notify hr hstops n)
  simpa only [Worker.Seen, hpc] using hseen

/-- The consumer behind a full queue is itself blocked by one. -/
theorem choked_next {e : EdgeDescriptor} (he : e ∈ g.enabledEdges) (hc : Choked s e) :
    ∃ e' ∈ g.outgoing e.toNodeId, Choked s e' := by
  have hfull := full_of_choked hr hq hs hstops hc
  have hin : e ∈ g.incoming e.toNodeId := GraphDefinition.mem_incoming.mpr ⟨he, rfl⟩
  have hn := (g.endpoints e (g.mem_edges_of_enabled he)).2
  have hne : (s.queues e).frames ≠ [] := by
    intro hnil
    have hcap := (boundsInv hr e).1
    have hpos := e.queuePolicy.capacity_pos
    have hlen := hfull.2
    rw [hnil, List.length_nil] at hlen
    omega
  rcases workerBlocked_cases hr hs hn (hq.passed _ hn) (hq.noTick _ hn) (worker_alive hr _) with
    ⟨obs, hpc, hgen, -⟩ | hx | hnext
  · exact absurd ((parked_open hr hq hs hstops hpc hgen).1 e hin).2 hne
  · have hclosed := closed_of_exited hr hq hs hstops hx hin
    rw [hfull.1] at hclosed
    cases hclosed
  · exact hnext

/-- No dispatcher sleeps: the last one in the order has a consumer that goes on. -/
theorem not_choked {e : EdgeDescriptor} (he : e ∈ g.enabledEdges) : ¬ Choked s e := by
  intro hc
  -- induction on how much of the order lies behind the target
  induction hk : g.topologicalOrder.length - g.topologicalOrder.idxOf e.toNodeId
    using Nat.strong_induction_on generalizing e with
  | _ k ih =>
    obtain ⟨e', he', hc'⟩ := choked_next hr hq hs hstops he hc
    obtain ⟨hmem, hfrom⟩ := GraphDefinition.mem_outgoing.mp he'
    have hfwd := g.forward e' (g.mem_edges_of_enabled hmem)
    have hlt := List.idxOf_lt_length_iff.mpr (g.endpoints e' (g.mem_edges_of_enabled hmem)).2
    rw [hfrom] at hfwd
    exact ih _ (by omega) hmem hc' rfl

/-- Every worker has exited: the first one that has not would be parked behind one that has. -/
theorem all_exited {n : NodeId} (hn : n ∈ g.topologicalOrder) : (s.workers n).pc = .exited := by
  induction hk : g.topologicalOrder.idxOf n using Nat.strong_induction_on generalizing n with
  | _ k ih =>
    rcases workerBlocked_cases hr hs hn (hq.passed _ hn) (hq.noTick _ hn) (worker_alive hr _) with
      ⟨obs, hpc, hgen, htick⟩ | hx | ⟨e, he, hc⟩
    · obtain ⟨hempty, htick' | ⟨e, he, hopen⟩⟩ := parked_open hr hq hs hstops hpc hgen
      · exact absurd htick htick'
      · obtain ⟨hmem, hto⟩ := GraphDefinition.mem_incoming.mp he
        have hedge := g.mem_edges_of_enabled hmem
        have hfwd := g.forward e hedge
        have hfrom : (s.workers e.fromNodeId).pc = .exited :=
          ih _ (by rw [hto] at hfwd; omega) (g.endpoints e hedge).1 rfl
        have hch := channelInv hr hmem
        rcases dispatcherBlocked_cases (hs.dispatchers e hmem) with ⟨-, -, hsend⟩ | hc | hx
        · rw [sender_dropped hr hmem hfrom] at hsend
          cases hsend
        · exact absurd hc (not_choked hr hq hs hstops hmem)
        · rcases hopen with hopen | hopen
          · simp [hch.closedData (by rw [hx]; rfl)] at hopen
          · simp [hch.closedSignals (by rw [hx]; rfl)] at hopen
    · exact hx
    · exact absurd hc (not_choked hr hq hs hstops (GraphDefinition.mem_outgoing.mp he).1)

theorem all_finished : s.allFinished g = true := by
  simp only [State.allFinished, Bool.and_eq_true, List.all_eq_true]
  refine ⟨fun n hn => ?_, fun e he => ?_⟩
  · rw [all_exited hr hq hs hstops hn]
    rfl
  · have hfrom := all_exited hr hq hs hstops (g.endpoints e (g.mem_edges_of_enabled he)).1
    rcases dispatcherBlocked_cases (hs.dispatchers e he) with ⟨-, -, hsend⟩ | hc | hx
    · rw [sender_dropped hr he hfrom] at hsend
      cases hsend
    · exact absurd hc (not_choked hr hq hs hstops he)
    · rw [hx]
      rfl

end Deadlock

omit [DecidableEq β] in
/-- The coordinator takes an exit, or ends its collection. -/
theorem coordinator_collects (hc : s.coordinator.pc = .collect) (hf : s.allFinished g = true)
    (call : NodeCall Unit) : (s.coordinatorStep g o call).isSome = true := by
  simp only [State.coordinatorStep, hc]
  cases s.exits with
  | nil => simp [hf]
  | cons x rest => cases x <;> rfl

/-- A stop call that won has a task of its closing before it. -/
def StopClosing (s : State β) : Prop := ∃ t ts, .closing (t :: ts) ∈ s.stops

omit [DecidableEq β] in
theorem no_tasks_of_not_stopClosing (h : ¬ StopClosing s) : ∀ p ∈ s.stops, p.tasks = [] := by
  intro p hp
  cases p with
  | closing ts =>
    cases ts with
    | nil => rfl
    | cons t ts => exact absurd ⟨t, ts, hp⟩ h
  | _ => rfl

/-- No state is stuck, and no consumer sleeps through what it waits for. -/
theorem no_stuck_state (g : GraphDefinition) (o : RuntimeOptions) (s : State β)
    (hr : (system g o).Reachable s) :
    ((system g o).ReachableBy (TicksFit g o) s → Quiescent g s →
      CanMove g o s ∨ StopClosing s ∨
        s.allFinished g = true ∧ ∀ call, (s.step g o (.coordinator call)).isSome = true) ∧
    ∀ n obs, (s.workers n).pc = .park obs → s.generation n = obs → ¬ NotifyDue s n →
      (∀ e ∈ g.incoming n, (s.queues e).frames = [] ∧ (s.signalQueues e).queue = []) ∧
      ((s.workers n).nextTick = none → ¬ ∀ e ∈ g.incoming n, Drained s e) := by
  refine ⟨fun hfit hq => ?_, fun n obs hpc hgen hdue => ?_⟩
  · by_cases hmove : CanMove g o s
    · exact .inl hmove
    by_cases hstop : StopClosing s
    · exact .inr (.inl hstop)
    have hfin := all_finished hfit hq (not_canMove_iff.mp hmove) (no_tasks_of_not_stopClosing hstop)
    exact .inr (.inr ⟨hfin, coordinator_collects hq.collecting hfin⟩)
  · have hn : n ∈ g.topologicalOrder := by
      by_contra hn
      rw [(gateInv hr).absent n hn] at hpc
      cases hpc
    -- a worker that is parked has not exited, so the coordinator still collects
    have hcollect : s.coordinator.pc = .collect := by
      by_contra hc
      have hfin := allFinished_worker ((exitInv hr).collected hc).2 hn
      rw [hpc] at hfin
      cases hfin
    have hseen := ((wakeInv hr hcollect n obs (by rw [hpc]; rfl)).2 hgen).resolve_left hdue
    simp only [Worker.Seen, hpc] at hseen
    refine ⟨fun e he => (hseen.1 e he).symm, fun htick hall => ?_⟩
    obtain ⟨e, he, hopen⟩ := hseen.2.resolve_left (fun hne => hne htick)
    have hd := hall e he
    simp only [Drained, EdgeQueue.isClosedAndEmpty, SignalQueue.isClosedAndEmpty,
      Bool.and_eq_true] at hd
    rcases hopen with hopen | hopen
    · simp [hd.1.1] at hopen
    · simp [hd.2.1] at hopen

/-- Both workers of the sample graph pass the gate; the source stands before its loop. -/
def Label.passGate : List (Label Unit) := works 0 2 ++ works 1 2 ++ works 0 3

/-- The sink is parked on an empty open queue, and the source goes on. -/
theorem no_stuck_state_parked :
    ∃ s, sampleSystem.ReachableBy (TicksFit sampleGraph sampleOptions) s ∧
      Quiescent sampleGraph s ∧ (s.workers 1).nextTick = none ∧
      CanMove sampleGraph sampleOptions s := by
  obtain ⟨s, hr, ht⟩ := sampleSystem.exists_reachableBy_of_runBy
    (C := TicksFit sampleGraph sampleOptions) rfl (Label.passGate ++ Label.works 1 11)
    (fun s => Quiescent sampleGraph s ∧ (s.workers 1).nextTick = none ∧ s.stops = [] ∧
      s.allFinished sampleGraph = false) (by decide +kernel)
  simp only [decide_eq_true_eq] at ht
  obtain ⟨hq, htick, hstops, hfin⟩ := ht
  have hmove := (no_stuck_state sampleGraph sampleOptions s hr.reachable).1 hr hq
  rcases hmove with hmove | ⟨t, ts, hmem⟩ | ⟨hall, -⟩
  · exact ⟨s, hr, hq, htick, hmove⟩
  · simp [hstops] at hmem
  · simp [hfin] at hall

/-- Two ways for workers and dispatchers to be at rest before the coordinator has every exit: all
of them have exited; or a stop call has emptied and closed the queue and not yet notified. -/
theorem no_stuck_state_resting :
    (∃ s, sampleSystem.ReachableBy (TicksFit sampleGraph sampleOptions) s ∧
      Quiescent sampleGraph s ∧ s.exits.length = 3 ∧ ¬ CanMove sampleGraph sampleOptions s) ∧
    ∃ s, sampleSystem.ReachableBy (TicksFit sampleGraph sampleOptions) s ∧
      Quiescent sampleGraph s ∧ s.allFinished sampleGraph = false ∧
      ¬ CanMove sampleGraph sampleOptions s := by
  refine ⟨?_, ?_⟩
  · obtain ⟨s, hr, ht⟩ := sampleSystem.exists_reachableBy_of_runBy
      (C := TicksFit sampleGraph sampleOptions) rfl
      (Label.passGate ++ Label.works 0 1 ++ [Label.call 0 ⟨[], [], none⟩] ++ Label.works 0 4 ++
        Label.forwards 8 ++ Label.works 1 16)
      (fun s => Quiescent sampleGraph s ∧ s.exits.length = 3 ∧ Stuck sampleGraph s)
      (by decide +kernel)
    simp only [decide_eq_true_eq] at ht
    exact ⟨s, hr, ht.1, ht.2.1, not_canMove_iff.mpr ht.2.2⟩
  · obtain ⟨s, hr, ht⟩ := sampleSystem.exists_reachableBy_of_runBy
      (C := TicksFit sampleGraph sampleOptions) rfl
      (Label.passGate ++ Label.works 0 1 ++
        [Label.call 0 ⟨[(0, sampleFrame 1), (0, sampleFrame 2)], [], none⟩] ++ Label.works 0 5 ++
        Label.forwards 4 ++ Label.stopCall.take 4 ++ Label.works 1 11)
      (fun s => Quiescent sampleGraph s ∧ s.allFinished sampleGraph = false ∧ Stuck sampleGraph s)
      (by decide +kernel)
    simp only [decide_eq_true_eq] at ht
    exact ⟨s, hr, ht.1, ht.2.1, not_canMove_iff.mpr ht.2.2⟩

end Muxiva.Runtime
