import Muxiva.Runtime.Moves

/-! What each thread leaves alone. A worker writes only its own record among the workers, a
dispatcher only its own among the dispatchers, apart from waking a sleeping producer. -/
set_option linter.all false
namespace Muxiva.Runtime

variable {β : Type} {g : GraphDefinition} {o : RuntimeOptions} {s s' : State β}

/-- `s'` has the threads of `s`, except that sleeping producers may have been woken. -/
structure SameThreads (s s' : State β) : Prop where
  workers : s'.workers = s.workers
  dispatchers : ∀ e, s'.dispatchers e = s.dispatchers e ∨
    s'.dispatchers e = (s.dispatchers e).woken
  exits : s'.exits = s.exits
  stops : s'.stops = s.stops
  coordinator : s'.coordinator = s.coordinator
  log : s'.log = s.log
  control : s'.control = s.control
  channels : s'.channels = s.channels
  acks : s'.acks = s.acks
  gate : s'.remaining = s.remaining ∧ s'.released = s.released
  clock : s'.clock = s.clock

theorem runTask_sameThreads (s : State β) (t : CloseTask) : SameThreads s (s.runTask t) := by
  cases t with
  | notifyQueue e =>
    refine ⟨rfl, fun e' => ?_, rfl, rfl, rfl, rfl, rfl, rfl, rfl, ⟨rfl, rfl⟩, rfl⟩
    by_cases he : e' = e
    · subst he
      exact .inr (by simp [State.runTask])
    · exact .inl (by simp [State.runTask, he])
  | cancel | closeQueue e m | closeSignals e m | notifySignals e =>
    exact ⟨rfl, fun _ => .inl rfl, rfl, rfl, rfl, rfl, rfl, rfl, rfl, ⟨rfl, rfl⟩, rfl⟩

/-- The callback a worker is about to make, as user code sees it. -/
def WorkerPc.events (n : NodeId) : WorkerPc β → List Event
  | .source | .onTick => [.process n none]
  | .onSignal .. => [.signal n]
  | .onFrame e _ => [.process n (some e)]
  | _ => []

/-- What a step of the worker of `n` at `pc` leaves alone, and what it adds to the trace. -/
structure WorkerFrame (n : NodeId) (pc : WorkerPc β) (s s' : State β) : Prop where
  workers : ∀ m, m ≠ n → s'.workers m = s.workers m
  dispatchers : ∀ e, s'.dispatchers e = s.dispatchers e ∨
    s'.dispatchers e = (s.dispatchers e).woken
  exits : pc ≠ .exit → s'.exits = s.exits
  stops : s'.stops = s.stops
  coordinator : s'.coordinator = s.coordinator
  clock : s'.clock = s.clock
  prepared : pc ≠ .prepare → (s'.workers n).prepared = (s.workers n).prepared
  trace : pc ≠ .prepare → s'.log.trace = s.log.trace ++ pc.events n
  applied : s'.log.applied = s.log.applied

/-- A step that sets the worker of `n` and whatever no other thread's record holds. -/
theorem WorkerFrame.of_setWorker {n : NodeId} {pc : WorkerPc β} {w' : Worker β}
    (hw : s'.workers = Function.update s.workers n w') (hd : s'.dispatchers = s.dispatchers)
    (hx : s'.exits = s.exits) (hst : s'.stops = s.stops) (hk : s'.coordinator = s.coordinator)
    (hcl : s'.clock = s.clock) (hp : pc ≠ .prepare → w'.prepared = (s.workers n).prepared)
    (ht : pc ≠ .prepare → s'.log.trace = s.log.trace ++ pc.events n)
    (ha : s'.log.applied = s.log.applied) : WorkerFrame n pc s s' :=
  ⟨fun m hm => by simp [hw, hm], fun e => .inl (by rw [hd]), fun _ => hx, hst, hk, hcl,
    fun h => by simp [hw, hp h], ht, ha⟩

theorem quiet_prepared {n : NodeId} {pc : WorkerPc β} {w w' : Worker β}
    (h : Quiet g s n w pc w') : w'.prepared = w.prepared := by
  cases h with
  | sent =>
    unfold State.routed
    split_ifs
    · cases w.delay <;> rfl
    · rfl
  | lost r h | closed =>
    unfold Worker.failed
    split_ifs <;> rfl
  | _ => rfl

theorem quiet_events {n : NodeId} {pc : WorkerPc β} {w w' : Worker β}
    (h : Quiet g s n w pc w') : pc.events n = [] := by
  cases h <;> rfl

theorem consumed_events {n : NodeId} {pc : WorkerPc β} (h : Consumed s n pc s') :
    s'.log.trace = s.log.trace ++ pc.events n := by
  cases h <;> rfl

/-- Consuming an input is noted in the log and touches no thread. -/
theorem consumed_threads {n : NodeId} {pc : WorkerPc β} (h : Consumed s n pc s') :
    s'.workers = s.workers ∧ s'.dispatchers = s.dispatchers ∧ s'.exits = s.exits ∧
      s'.stops = s.stops ∧ s'.coordinator = s.coordinator ∧ s'.clock = s.clock ∧
      s'.log.applied = s.log.applied := by
  cases h <;> exact ⟨rfl, rfl, rfl, rfl, rfl, rfl, rfl⟩

/-- The end of a callback moves its worker alone. -/
theorem returned_threads {n : NodeId} {w : Worker β} {call : NodeCall (NodeCallOutput β)}
    (h : Returned g o s n w call s') :
    ∃ w', s'.workers = Function.update s.workers n w' ∧ w'.prepared = w.prepared ∧
      s'.dispatchers = s.dispatchers ∧ s'.exits = s.exits ∧ s'.stops = s.stops ∧
      s'.coordinator = s.coordinator ∧ s'.clock = s.clock ∧ s'.log.trace = s.log.trace ∧
      s'.log.applied = s.log.applied := by
  cases h <;> dsimp only [State.setWorker, State.logged, State.dropSenders] <;>
    exact ⟨_, rfl, rfl, rfl, rfl, rfl, rfl, rfl, rfl, rfl⟩

theorem workerMove_frame {n : NodeId} {call : NodeCall (NodeCallOutput β)} {pc : WorkerPc β}
    (h : WorkerMove g o s n (s.workers n) call pc s') : WorkerFrame n pc s s' := by
  cases h with
  | quiet pc w' h =>
    exact .of_setWorker rfl rfl rfl rfl rfl rfl (fun _ => quiet_prepared h)
      (fun _ => by simp [quiet_events h]) rfl
  | callback pc s₀ s' hc hr =>
    have hev := consumed_events hc
    obtain ⟨hworkers, hdispatchers, hexits, hstops, hcoordinator, hclock, happlied⟩ :=
      consumed_threads hc
    obtain ⟨w', hworkers', hprepared, hdispatchers', hexits', hstops', hcoordinator', hclock',
      htrace', happlied'⟩ := returned_threads hr
    rw [hworkers] at hworkers'
    exact .of_setWorker hworkers' (hdispatchers'.trans hdispatchers) (hexits'.trans hexits)
      (hstops'.trans hstops) (hcoordinator'.trans hcoordinator) (hclock'.trans hclock)
      (fun _ => hprepared) (fun _ => htrace'.trans hev) (happlied'.trans happlied)
  | popFrame obs off e cursor x xs hp hq =>
    dsimp only [State.setWorker, State.setDispatcher, State.setQueue]
    refine ⟨fun m hm => by simp [hm], fun e' => ?_, fun _ => rfl, rfl, rfl, rfl, fun _ => by simp,
      fun _ => by simp [WorkerPc.events], rfl⟩
    by_cases he : e' = e
    · subst he
      exact .inr (by simp)
    · exact .inl (by simp [he])
  | close t ts =>
    have ht := runTask_sameThreads s t
    refine ⟨fun m hm => by simp [hm, ht.workers], ht.dispatchers, fun _ => ht.exits, ht.stops,
      ht.coordinator, ht.clock, fun _ => by simp, fun _ => ?_, ?_⟩
    · simp [ht.log, WorkerPc.events]
    · simp [ht.log]
  | exit =>
    exact ⟨fun m hm => by simp [hm], fun _ => .inl rfl, fun h => absurd rfl h, rfl, rfl, rfl,
      fun _ => by simp, fun _ => by simp [WorkerPc.events], rfl⟩
  | prepared out h | notPrepared r h =>
    dsimp only [State.setWorker, State.record]
    exact .of_setWorker rfl rfl rfl rfl rfl rfl (fun h => absurd rfl h) (fun h => absurd rfl h) rfl
  | _ =>
    dsimp only [State.setWorker, State.setSlot, State.setSignalQueue, State.dropSenders]
    exact .of_setWorker rfl rfl rfl rfl rfl rfl (fun _ => rfl)
      (fun _ => (List.append_nil _).symm) rfl

/-- What a step of the dispatcher of `e` at `pc` leaves alone. -/
structure DispatcherFrame (e : EdgeDescriptor) (pc : DispatcherPc β) (s s' : State β) : Prop where
  workers : s'.workers = s.workers
  dispatchers : ∀ e', e' ≠ e → s'.dispatchers e' = s.dispatchers e' ∨
    s'.dispatchers e' = (s.dispatchers e').woken
  exits : pc ≠ .exit → s'.exits = s.exits
  stops : s'.stops = s.stops
  coordinator : s'.coordinator = s.coordinator
  clock : s'.clock = s.clock
  trace : s'.log.trace = s.log.trace
  outputs : s'.log.outputs = s.log.outputs
  processed : s'.log.processed = s.log.processed
  handled : s'.log.handled = s.log.handled
  gate : s'.remaining = s.remaining ∧ s'.released = s.released

theorem DispatcherFrame.of_setDispatcher {e : EdgeDescriptor} {pc pc' : DispatcherPc β}
    (hw : s'.workers = s.workers) (hd : s'.dispatchers = Function.update s.dispatchers e pc')
    (hx : s'.exits = s.exits) (hst : s'.stops = s.stops) (hk : s'.coordinator = s.coordinator)
    (hcl : s'.clock = s.clock) (ht : s'.log.trace = s.log.trace)
    (ho : s'.log.outputs = s.log.outputs) (hp : s'.log.processed = s.log.processed)
    (hh : s'.log.handled = s.log.handled)
    (hg : s'.remaining = s.remaining ∧ s'.released = s.released) : DispatcherFrame e pc s s' :=
  ⟨hw, fun e' he => .inl (by simp [hd, he]), fun _ => hx, hst, hk, hcl, ht, ho, hp, hh, hg⟩

theorem DispatcherFrame.of_runTask {e : EdgeDescriptor} {pc : DispatcherPc β} (t : CloseTask)
    (pc' : DispatcherPc β) : DispatcherFrame e pc s ((s.runTask t).setDispatcher e pc') := by
  have ht := runTask_sameThreads s t
  refine ⟨ht.workers, fun e' he => ?_, fun _ => ht.exits, ht.stops, ht.coordinator, ht.clock,
    ?_, ?_, ?_, ?_, ht.gate⟩
  · simpa [he] using ht.dispatchers e'
  · simp [ht.log]
  · simp [ht.log]
  · simp [ht.log]
  · simp [ht.log]

theorem pushed_frame {e : EdgeDescriptor} {x : Stamped (Frame β)} {pc : DispatcherPc β}
    {rest : List (Stamped (Frame β))} (h : Pushed s e x rest s') : DispatcherFrame e pc s s' := by
  cases h <;> dsimp only [State.setDispatcher, State.setQueue] <;>
    exact .of_setDispatcher rfl rfl rfl rfl rfl rfl rfl rfl rfl rfl ⟨rfl, rfl⟩

theorem dispatcherMove_frame [DecidableEq β] {e : EdgeDescriptor} {answers : PolicyAnswers β}
    {pc : DispatcherPc β} (h : DispatcherMove g o s e answers pc s') :
    DispatcherFrame e pc s s' := by
  cases h with
  | delivered x rest f q s' h hp =>
    have hf : DispatcherFrame e (.frames (x :: rest)) _ s' := pushed_frame hp
    exact ⟨hf.workers, hf.dispatchers, hf.exits, hf.stops, hf.coordinator, hf.clock, hf.trace,
      hf.outputs, hf.processed, hf.handled, hf.gate⟩
  | repush x rest s' hp => exact pushed_frame hp
  | close t ts signal => exact .of_runTask t _
  | shutdown t ts => exact .of_runTask t _
  | exit =>
    exact ⟨rfl, fun e' he => .inl (by simp [he]), fun h => absurd rfl h, rfl, rfl, rfl, rfl, rfl,
      rfl, rfl, ⟨rfl, rfl⟩⟩
  | _ =>
    dsimp only [State.setDispatcher, State.setQueue, State.setSignalQueue, State.setSlot,
      State.notify, State.applying]
    exact .of_setDispatcher rfl rfl rfl rfl rfl rfl rfl rfl rfl rfl ⟨rfl, rfl⟩

end Muxiva.Runtime
