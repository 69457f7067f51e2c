import Muxiva.Runtime.Clean

/-! What the threads that close the graph, or a dispatcher its own queues, have still to do. A
close of a queue is followed by its notification, and while the coordinator collects an installed
reason is followed by the whole closing. -/
set_option linter.all false
namespace Muxiva.Runtime

variable {β : Type} {g : GraphDefinition} {o : RuntimeOptions} {s s' : State β}

def WorkerPc.tasks : WorkerPc β → List CloseTask
  | .closing ts => ts
  | _ => []

def DispatcherPc.tasks : DispatcherPc β → List CloseTask
  | .closing ts _ | .shutdown ts => ts
  | _ => []

def StopPc.tasks : StopPc → List CloseTask
  | .closing ts => ts
  | _ => []

@[simp] theorem woken_tasks (pc : DispatcherPc β) : pc.woken.tasks = pc.tasks := by
  cases pc <;> rfl

theorem worker_closing_of_tasks {pc : WorkerPc β} {t : CloseTask} {ts : List CloseTask}
    (h : pc.tasks = t :: ts) : pc = .closing (t :: ts) := by
  cases pc with
  | closing ts' => exact congrArg _ h
  | _ => cases h

/-- Some thread has the task before it. -/
inductive Pending (s : State β) (t : CloseTask) : Prop where
  | worker (n : NodeId) (h : t ∈ (s.workers n).pc.tasks)
  | dispatcher (e : EdgeDescriptor) (h : t ∈ (s.dispatchers e).tasks)
  | stop (p : StopPc) (hp : p ∈ s.stops) (h : t ∈ p.tasks)

/-- The notification that the close of a queue is followed by. -/
def CloseTask.follow : CloseTask → Option CloseTask
  | .closeQueue e _ => some (.notifyQueue e)
  | .closeSignals e _ => some (.notifySignals e)
  | _ => none

/-- Every close in the list is followed by its notification. -/
def Paired : List CloseTask → Prop
  | [] => True
  | t :: ts => (∀ t' ∈ t.follow, t' ∈ ts) ∧ Paired ts

theorem paired_closeTasks (mode : DrainMode) : Paired (closeTasks g mode) := by
  have hsignals : ∀ es : List EdgeDescriptor,
      Paired (es.flatMap fun e => [.closeSignals e mode, .notifySignals e]) := by
    intro es
    induction es with
    | nil => trivial
    | cons e es ih => exact ⟨by simp [CloseTask.follow], by simp [CloseTask.follow], ih⟩
  have hqueues : ∀ es : List EdgeDescriptor,
      Paired ((es.flatMap fun e => [CloseTask.closeQueue e mode, .notifyQueue e]) ++
        g.edges.flatMap fun e => [CloseTask.closeSignals e mode, .notifySignals e]) := by
    intro es
    induction es with
    | nil => exact hsignals g.edges
    | cons e es ih => exact ⟨by simp [CloseTask.follow], by simp [CloseTask.follow], ih⟩
  exact ⟨by simp [CloseTask.follow], hqueues g.edges⟩

theorem paired_shutdownTasks (e : EdgeDescriptor) : Paired (shutdownTasks e) := by
  simp [shutdownTasks, Paired, CloseTask.follow]

/-- What a worker does with its tasks: it runs the first one, or has none and may start a closing
of the graph. -/
theorem workerMove_tasks {n : NodeId} {call : NodeCall (NodeCallOutput β)} {pc : WorkerPc β}
    (h : WorkerMove g o s n (s.workers n) call pc s') :
    (∃ t ts, pc.tasks = t :: ts ∧
      s' = (s.runTask t).setWorker n { s.workers n with pc := .closing ts }) ∨
    pc.tasks = [] ∧ s'.cancelled = s.cancelled ∧ s'.generation = s.generation ∧
      ((s'.workers n).pc.tasks = [] ∧ s'.control.reason = s.control.reason ∨
        ∃ mode, (s'.workers n).pc.tasks = closeTasks g mode) := by
  cases h with
  | quiet pc w' h =>
    refine .inr ?_
    cases h with
    | sent =>
      refine ⟨rfl, rfl, rfl, .inl ⟨?_, rfl⟩⟩
      simp only [State.setWorker, Function.update_self, State.routed]
      split_ifs
      · cases (s.workers n).delay <;> rfl
      · rfl
    | lost r h | closed =>
      refine ⟨rfl, rfl, rfl, .inl ⟨?_, rfl⟩⟩
      simp only [State.setWorker, Function.update_self, Worker.failed]
      split_ifs <;> rfl
    | _ => exact ⟨rfl, rfl, rfl, .inl ⟨by simp [WorkerPc.tasks], rfl⟩⟩
  | callback pc s₀ s' hc hr =>
    refine .inr ⟨?_, ?_, ?_, .inl ⟨?_, ?_⟩⟩
    · cases hc <;> rfl
    · cases hr <;> cases hc <;>
        dsimp only [State.setWorker, State.logged, State.dropSenders] <;> rfl
    · cases hr <;> cases hc <;>
        dsimp only [State.setWorker, State.logged, State.dropSenders] <;> rfl
    · cases hr <;> simp [WorkerPc.tasks]
    · cases hr <;> cases hc <;>
        dsimp only [State.setWorker, State.logged, State.dropSenders] <;> rfl
  | running =>
    refine .inr ⟨rfl, rfl, rfl, .inl ⟨by simp [WorkerPc.tasks], ?_⟩⟩
    unfold ControlState.markRunning
    simp only
    split_ifs <;> rfl
  | won r h => exact .inr ⟨rfl, rfl, rfl, .inr ⟨o.failureMode, by simp [WorkerPc.tasks]⟩⟩
  | close t ts => exact .inl ⟨t, ts, rfl, rfl⟩
  | _ =>
    dsimp only [State.setWorker, State.setSlot, State.setQueue, State.setSignalQueue,
      State.setDispatcher, State.record, State.dropSenders]
    exact .inr ⟨rfl, rfl, rfl, .inl ⟨by simp [WorkerPc.tasks], rfl⟩⟩

theorem pushed_tasks {e : EdgeDescriptor} {x : Stamped (Frame β)}
    {rest : List (Stamped (Frame β))} (h : Pushed s e x rest s') :
    s'.cancelled = s.cancelled ∧ (s'.dispatchers e).tasks = [] ∧ s'.control = s.control := by
  cases h <;> exact ⟨rfl, by simp [DispatcherPc.tasks], rfl⟩

variable [DecidableEq β]

theorem dispatcherMove_tasks {e : EdgeDescriptor} {answers : PolicyAnswers β}
    {pc : DispatcherPc β} (h : DispatcherMove g o s e answers pc s') :
    (∃ t ts pc', pc.tasks = t :: ts ∧ pc'.tasks = ts ∧
      s' = (s.runTask t).setDispatcher e pc') ∨
    pc.tasks = [] ∧ s'.cancelled = s.cancelled ∧
      (((s'.dispatchers e).tasks = [] ∨ (s'.dispatchers e).tasks = shutdownTasks e) ∧
        s'.control.reason = s.control.reason ∨
        ∃ mode, (s'.dispatchers e).tasks = closeTasks g mode) := by
  cases h with
  | delivered x rest f q s' h hp =>
    obtain ⟨hc, ht, hk⟩ := pushed_tasks hp
    exact .inr ⟨rfl, hc, .inl ⟨.inl ht, congrArg _ hk⟩⟩
  | repush x rest s' hp =>
    obtain ⟨hc, ht, hk⟩ := pushed_tasks hp
    exact .inr ⟨rfl, hc, .inl ⟨.inl ht, congrArg _ hk⟩⟩
  | ack failed => cases failed <;> exact .inr ⟨rfl, rfl, .inl ⟨.inl (by simp [DispatcherPc.tasks]), rfl⟩⟩
  | won r signal h => exact .inr ⟨rfl, rfl, .inr ⟨o.failureMode, by simp [DispatcherPc.tasks]⟩⟩
  | lost r signal h | closed signal =>
    refine .inr ⟨rfl, rfl, .inl ⟨.inl ?_, rfl⟩⟩
    cases signal <;> simp [DispatcherPc.tasks, DispatcherPc.afterFail]
  | close t ts signal => exact .inl ⟨t, ts, .closing ts signal, rfl, rfl, rfl⟩
  | hangUp => exact .inr ⟨rfl, rfl, .inl ⟨.inr (by simp [DispatcherPc.tasks, shutdownTasks]), rfl⟩⟩
  | shutdown t ts => exact .inl ⟨t, ts, .shutdown ts, rfl, rfl, rfl⟩
  | _ =>
    dsimp only [State.setDispatcher, State.setSlot, State.setQueue, State.setSignalQueue,
      State.notify, State.applying]
    exact .inr ⟨rfl, rfl, .inl ⟨.inl (by simp [DispatcherPc.tasks]), rfl⟩⟩

/-- A thread ran the task `t`: its effect, and what is pending after it. -/
structure Ran (t : CloseTask) (s s' : State β) : Prop where
  cancelled : s'.cancelled = (s.runTask t).cancelled
  queues : s'.queues = (s.runTask t).queues
  signalQueues : s'.signalQueues = (s.runTask t).signalQueues
  generation : s'.generation = (s.runTask t).generation
  control : s'.control = s.control
  dispatchers : ∀ e, (s.dispatchers e).tasks = [] →
    s'.dispatchers e = (s.runTask t).dispatchers e
  pending : ∀ t', Pending s t' → t' = t ∨ Pending s' t'
  follow : ∀ t' ∈ t.follow, Pending s' t'

/-- The threads as they are, apart from a stop call that has no task before it. -/
structure Bystander (s s' : State β) : Prop where
  workers : s'.workers = s.workers
  dispatchers : s'.dispatchers = s.dispatchers
  stops : ∀ p ∈ s.stops, p.tasks ≠ [] → p ∈ s'.stops
  queues : s'.queues = s.queues
  signalQueues : s'.signalQueues = s.signalQueues
  generation : s'.generation = s.generation
  cancelled : s'.cancelled = s.cancelled

omit [DecidableEq β] in
theorem Pending.of_bystander {t : CloseTask} (h : Pending s t) (hb : Bystander s s') :
    Pending s' t := by
  cases h with
  | worker n h => exact .worker n (by rw [hb.workers]; exact h)
  | dispatcher e h => exact .dispatcher e (by rw [hb.dispatchers]; exact h)
  | stop p hp h => exact .stop p (hb.stops p hp (List.ne_nil_of_mem h)) h

omit [DecidableEq β] in
/-- What the other threads had before them is still before them. -/
theorem Pending.of_worker {n : NodeId} {t : CloseTask} {call : NodeCall (NodeCallOutput β)}
    (h : Pending s t) (hm : WorkerMove g o s n (s.workers n) call (s.workers n).pc s')
    (hn : t ∈ (s.workers n).pc.tasks → t ∈ (s'.workers n).pc.tasks) : Pending s' t := by
  have hf := workerMove_frame hm
  cases h with
  | worker m h =>
    apply Pending.worker m
    by_cases hmn : m = n
    · subst hmn
      exact hn h
    · rw [hf.workers m hmn]
      exact h
  | dispatcher e h =>
    apply Pending.dispatcher e
    rcases hf.dispatchers e with hd | hd
    · rw [hd]
      exact h
    · rw [hd, woken_tasks]
      exact h
  | stop p hp h => exact .stop p (by rw [hf.stops]; exact hp) h

theorem Pending.of_dispatcher {e : EdgeDescriptor} {t : CloseTask} {answers : PolicyAnswers β}
    (h : Pending s t) (hm : DispatcherMove g o s e answers (s.dispatchers e) s')
    (he : t ∈ (s.dispatchers e).tasks → t ∈ (s'.dispatchers e).tasks) : Pending s' t := by
  have hf := dispatcherMove_frame hm
  cases h with
  | worker n h => exact .worker n (by rw [hf.workers]; exact h)
  | dispatcher e' h =>
    apply Pending.dispatcher e'
    by_cases hee : e' = e
    · subst hee
      exact he h
    · rcases hf.dispatchers e' hee with hd | hd
      · rw [hd]
        exact h
      · rw [hd, woken_tasks]
        exact h
  | stop p hp h => exact .stop p (by rw [hf.stops]; exact hp) h

omit [DecidableEq β] in
/-- A stop call other than the `i`-th, or the `i`-th one itself. -/
theorem mem_set_stops {l : List StopPc} {i : ℕ} {p q : StopPc} (x : StopPc) (hi : l[i]? = some q)
    (hp : p ∈ l) : p = q ∨ p ∈ l.set i x := by
  obtain ⟨j, hj, hget⟩ := List.getElem_of_mem hp
  by_cases hij : i = j
  · subst hij
    rw [List.getElem?_eq_getElem hj, hget] at hi
    exact .inl (Option.some.inj hi)
  · refine .inr (List.mem_iff_getElem.mpr ⟨j, by simpa using hj, ?_⟩)
    rw [List.getElem_set_ne hij, hget]

structure PairedInv (s : State β) : Prop where
  workers : ∀ n, Paired (s.workers n).pc.tasks
  dispatchers : ∀ e, Paired (s.dispatchers e).tasks
  stops : ∀ p ∈ s.stops, Paired p.tasks

/-- One step while the coordinator collects: a thread runs the first of its tasks, a worker or a
dispatcher without tasks moves, or neither of them does. -/
inductive Turn (g : GraphDefinition) (o : RuntimeOptions) (s s' : State β) : Prop where
  | ran (t : CloseTask) (h : Ran t s s')
  | worker (n : NodeId) (call : NodeCall (NodeCallOutput β)) (hn : n ∈ g.topologicalOrder)
      (hm : WorkerMove g o s n (s.workers n) call (s.workers n).pc s')
      (ht : (s.workers n).pc.tasks = [])
  | dispatcher (e : EdgeDescriptor) (answers : PolicyAnswers β) (he : e ∈ g.enabledEdges)
      (hm : DispatcherMove g o s e answers (s.dispatchers e) s')
      (ht : (s.dispatchers e).tasks = [])
  | other (h : Bystander s s')

theorem pairedInv {C : State β → Label β → Prop} (hr : (system g o).ReachableBy C s) :
    PairedInv s := by
  refine hr.invariant (I := PairedInv) (fun s h => ?_) (fun s a s' _ hi _ h => ?_)
  · rw [show s = State.initial g o from h]
    exact ⟨fun _ => trivial, fun _ => trivial, by simp [State.initial]⟩
  have hworkers : ∀ n, Paired (s'.workers n).pc.tasks := by
    intro n
    have hn := hi.workers n
    rcases step_workers h with hw | ⟨m, call, -, -, hstep⟩
    · rw [hw]
      exact hn
    · have hm := workerStep_move hstep
      by_cases hnm : n = m
      · subst hnm
        rcases workerMove_tasks hm with ⟨t, ts, hts, rfl⟩ | ⟨-, -, -, ⟨ht, -⟩ | ⟨mode, ht⟩⟩
        · rw [hts] at hn
          simpa [WorkerPc.tasks] using hn.2
        · rw [ht]
          trivial
        · rw [ht]
          exact paired_closeTasks mode
      · rw [(workerMove_frame hm).workers n hnm]
        exact hn
  have hdispatchers : ∀ e, Paired (s'.dispatchers e).tasks := by
    intro e
    have he := hi.dispatchers e
    rcases step_dispatchers h e with (hd | hd) | ⟨answers, -, -, hstep⟩
    · rw [hd]
      exact he
    · rw [hd, woken_tasks]
      exact he
    · rcases dispatcherMove_tasks (dispatcherStep_move hstep) with
        ⟨t, ts, pc', hts, hpc', rfl⟩ | ⟨-, -, ⟨ht | ht, -⟩ | ⟨mode, ht⟩⟩
      · rw [hts] at he
        simpa [hpc'] using he.2
      · rw [ht]
        trivial
      · rw [ht]
        exact paired_shutdownTasks e
      · rw [ht]
        exact paired_closeTasks mode
  refine ⟨hworkers, hdispatchers, ?_⟩
  cases a with
  | worker n call =>
    simp only [system, State.step] at h
    split_ifs at h
    rw [(workerMove_frame (workerStep_move h)).stops]
    exact hi.stops
  | dispatcher e answers =>
    simp only [system, State.step] at h
    split_ifs at h
    rw [(dispatcherMove_frame (dispatcherStep_move h)).stops]
    exact hi.stops
  | stopBegin =>
    cases h
    intro p hp
    rcases List.mem_append.mp hp with hp | hp
    · exact hi.stops p hp
    · rw [List.mem_singleton.mp hp]
      trivial
  | stop i =>
    have hset : ∀ {x : StopPc}, Paired x.tasks → ∀ p ∈ s.stops.set i x, Paired p.tasks := by
      intro x hx p hp
      rcases List.mem_or_eq_of_mem_set hp with hp | rfl
      · exact hi.stops p hp
      · exact hx
    rcases stopStep_cases h with ⟨-, -, rfl⟩ | ⟨-, -, rfl⟩ | ⟨-, rfl⟩ | ⟨t, ts, hst, rfl⟩
    · exact hset (paired_closeTasks _)
    · exact hset trivial
    · exact hset trivial
    · have hp : Paired (t :: ts) := hi.stops _ (List.mem_of_getElem? hst)
      exact hset hp.2
  | coordinator call =>
    rcases coordinatorStep_cases h with ⟨t, ts, -, rfl⟩ | ⟨k, c, exits, trace, rfl, -⟩
    · rw [show ({ s.runTask t with coordinator := { s.coordinator with pc := .closing ts } } :
        State β).stops = s.stops from (runTask_sameThreads s t).stops]
      exact hi.stops
    · exact hi.stops
  | tick d => cases h; exact hi.stops

omit [DecidableEq β] in
/-- While the coordinator collects it touches nothing but its own record and the exits. -/
theorem coordinatorStep_collect {call : NodeCall Unit} (h : s.coordinatorStep g o call = some s')
    (hc : s'.coordinator.pc = .collect) :
    s.coordinator.pc = .collect ∧
      ∃ k exits, s' = { s with coordinator := k, exits := exits } := by
  have hpc : s.coordinator.pc = .collect := by
    by_contra hne
    exact (coordinatorStep_frame hne h).moved hc
  refine ⟨hpc, ?_⟩
  simp only [State.coordinatorStep, hpc] at h
  split at h
  · cases h
    exact ⟨_, _, rfl⟩
  · cases h
    exact ⟨_, _, rfl⟩
  · split_ifs at h
    cases h
    cases hc

theorem step_turn {C : State β → Label β → Prop} {a : Label β}
    (hr : (system g o).ReachableBy C s) (h : s.step g o a = some s')
    (hc : s'.coordinator.pc = .collect) : Turn g o s s' := by
  have hpaired := pairedInv hr
  cases a with
  | worker n call =>
    simp only [State.step] at h
    split_ifs at h with hn
    have hm := workerStep_move h
    rcases workerMove_tasks hm with ⟨t, ts, hts, hs'⟩ | ⟨hts, -⟩
    · have hnew : (s'.workers n).pc.tasks = ts := by simp [hs', WorkerPc.tasks]
      have hpair : Paired (t :: ts) := hts ▸ hpaired.workers n
      refine .ran t ⟨by rw [hs']; rfl, by rw [hs']; rfl, by rw [hs']; rfl, by rw [hs']; rfl, ?_,
        fun e _ => by rw [hs']; rfl, fun t' hp => ?_, fun t' ht' => ?_⟩
      · rw [hs']
        exact (runTask_sameThreads s t).control
      · by_cases htt : t' = t
        · exact .inl htt
        · refine .inr (hp.of_worker hm fun hmem => ?_)
          rw [hts] at hmem
          rw [hnew]
          exact (List.mem_cons.mp hmem).resolve_left htt
      · exact .worker n (by rw [hnew]; exact hpair.1 t' ht')
    · exact .worker n call hn hm hts
  | dispatcher e answers =>
    simp only [State.step] at h
    split_ifs at h with he
    have hm := dispatcherStep_move h
    rcases dispatcherMove_tasks hm with ⟨t, ts, pc', hts, hpc', hs'⟩ | ⟨hts, -⟩
    · have hnew : (s'.dispatchers e).tasks = ts := by simp [hs', hpc']
      have hpair : Paired (t :: ts) := hts ▸ hpaired.dispatchers e
      refine .ran t ⟨by rw [hs']; rfl, by rw [hs']; rfl, by rw [hs']; rfl, by rw [hs']; rfl, ?_,
        fun e' he' => ?_, fun t' hp => ?_, fun t' ht' => ?_⟩
      · rw [hs']
        exact (runTask_sameThreads s t).control
      · have hee : e' ≠ e := by
          rintro rfl
          rw [hts] at he'
          cases he'
        simp [hs', hee]
      · by_cases htt : t' = t
        · exact .inl htt
        · refine .inr (hp.of_dispatcher hm fun hmem => ?_)
          rw [hts] at hmem
          rw [hnew]
          exact (List.mem_cons.mp hmem).resolve_left htt
      · exact .dispatcher e (by rw [hnew]; exact hpair.1 t' ht')
    · exact .dispatcher e answers he hm hts
  | stopBegin =>
    cases h
    exact .other ⟨rfl, rfl, fun p hp _ => List.mem_append_left _ hp, rfl, rfl, rfl, rfl⟩
  | stop i =>
    -- a stop call that has a task before it is not the one that had none
    have hother : ∀ {q x : StopPc}, s.stops[i]? = some q → q.tasks = [] →
        ∀ p ∈ s.stops, p.tasks ≠ [] → p ∈ s.stops.set i x := by
      intro q x hq ht p hp hne
      refine (mem_set_stops x hq hp).resolve_left ?_
      rintro rfl
      exact hne ht
    rcases stopStep_cases h with ⟨hst, -, rfl⟩ | ⟨hst, -, rfl⟩ | ⟨hst, rfl⟩ | ⟨t, ts, hst, rfl⟩
    · exact .other ⟨rfl, rfl, hother hst rfl, rfl, rfl, rfl, rfl⟩
    · exact .other ⟨rfl, rfl, hother hst rfl, rfl, rfl, rfl, rfl⟩
    · exact .other ⟨rfl, rfl, hother hst rfl, rfl, rfl, rfl, rfl⟩
    · have hpair : Paired (t :: ts) := hpaired.stops _ (List.mem_of_getElem? hst)
      have hthreads := runTask_sameThreads s t
      have hnew : StopPc.closing ts ∈ s.stops.set i (.closing ts) :=
        List.mem_set (List.getElem?_eq_some_iff.mp hst).1 _
      refine .ran t ⟨rfl, rfl, rfl, rfl, hthreads.control, fun e _ => rfl, fun t' hp => ?_,
        fun t' ht' => .stop (.closing ts) hnew (hpair.1 t' ht')⟩
      cases hp with
      | worker n h => exact .inr (.worker n (by simpa [hthreads.workers] using h))
      | dispatcher e h =>
        refine .inr (.dispatcher e ?_)
        rcases hthreads.dispatchers e with hd | hd
        · simpa [hd] using h
        · simpa [hd] using h
      | stop p hp h =>
        rcases mem_set_stops (.closing ts) hst hp with rfl | hp
        · rcases List.mem_cons.mp h with rfl | h
          · exact .inl rfl
          · exact .inr (.stop (.closing ts) hnew h)
        · exact .inr (.stop p hp h)
  | coordinator call =>
    obtain ⟨-, k, exits, rfl⟩ := coordinatorStep_collect h hc
    exact .other ⟨rfl, rfl, fun p hp _ => hp, rfl, rfl, rfl, rfl⟩
  | tick d =>
    cases h
    exact .other ⟨rfl, rfl, fun p hp _ => hp, rfl, rfl, rfl, rfl⟩

/-- A pending task stays pending until it is run. -/
theorem Turn.pending {t : CloseTask} (h : Turn g o s s') (hp : Pending s t) :
    Ran t s s' ∨ Pending s' t := by
  cases h with
  | ran t' h =>
    rcases h.pending t hp with rfl | hp'
    · exact .inl h
    · exact .inr hp'
  | worker n call hn hm ht => exact .inr (hp.of_worker hm fun h => by simp [ht] at h)
  | dispatcher e answers he hm ht => exact .inr (hp.of_dispatcher hm fun h => by simp [ht] at h)
  | other h => exact .inr (hp.of_bystander h)

/-- Whoever installs a reason while the coordinator collects has the whole closing before it. -/
theorem step_installs {a : Label β} (h : s.step g o a = some s')
    (hc : s'.coordinator.pc = .collect) (hr : s'.control.reason.isSome = true) :
    s.control.reason.isSome = true ∨ ∃ mode, ∀ t ∈ closeTasks g mode, Pending s' t := by
  cases a with
  | worker n call =>
    simp only [State.step] at h
    split_ifs at h
    rcases workerMove_tasks (workerStep_move h) with
      ⟨t, ts, -, rfl⟩ | ⟨-, -, -, ⟨-, hreason⟩ | ⟨mode, ht⟩⟩
    · rw [State.setWorker, (runTask_sameThreads s t).control] at hr
      exact .inl hr
    · exact .inl (hreason ▸ hr)
    · exact .inr ⟨mode, fun t hmem => .worker n (ht ▸ hmem)⟩
  | dispatcher e answers =>
    simp only [State.step] at h
    split_ifs at h
    rcases dispatcherMove_tasks (dispatcherStep_move h) with
      ⟨t, ts, pc', -, -, rfl⟩ | ⟨-, -, ⟨-, hreason⟩ | ⟨mode, ht⟩⟩
    · rw [State.setDispatcher, (runTask_sameThreads s t).control] at hr
      exact .inl hr
    · exact .inl (hreason ▸ hr)
    · exact .inr ⟨mode, fun t hmem => .dispatcher e (ht ▸ hmem)⟩
  | stopBegin => cases h; exact .inl hr
  | stop i =>
    rcases stopStep_cases h with ⟨hst, -, rfl⟩ | ⟨-, -, rfl⟩ | ⟨-, rfl⟩ | ⟨t, ts, -, rfl⟩
    · refine .inr ⟨o.shutdownMode, fun t hmem => .stop (.closing _) ?_ hmem⟩
      exact List.mem_set (List.getElem?_eq_some_iff.mp hst).1 _
    · exact .inl hr
    · exact .inl hr
    · simp only [(runTask_sameThreads s t).control] at hr
      exact .inl hr
  | coordinator call =>
    obtain ⟨-, k, exits, rfl⟩ := coordinatorStep_collect h hc
    exact .inl hr
  | tick d => cases h; exact .inl hr

/-- The task has had its effect. -/
def CloseTask.Done (s : State β) : CloseTask → Prop
  | .cancel => s.cancelled = true
  | .closeQueue e _ => (s.queues e).closed = true
  | .closeSignals e _ => (s.signalQueues e).closed = true
  | .notifyQueue _ | .notifySignals _ => True

omit [DecidableEq β] in
theorem Ran.done {t : CloseTask} (h : Ran t s s') : t.Done s' := by
  cases t with
  | cancel => exact h.cancelled
  | closeQueue e m =>
    simp only [CloseTask.Done, h.queues]
    simp [State.runTask]
  | closeSignals e m =>
    simp only [CloseTask.Done, h.signalQueues]
    simp [State.runTask]
  | notifyQueue e => trivial
  | notifySignals e => trivial

theorem Turn.cancelled (h : Turn g o s s') (hc : s.cancelled = true) : s'.cancelled = true := by
  cases h with
  | ran t h =>
    rw [h.cancelled]
    cases t with
    | cancel => rfl
    | _ => exact hc
  | worker n call hn hm ht =>
    rcases workerMove_tasks hm with ⟨t, ts, hts, -⟩ | ⟨-, hkeep, -⟩
    · simp [ht] at hts
    · rw [hkeep]
      exact hc
  | dispatcher e answers he hm ht =>
    rcases dispatcherMove_tasks hm with ⟨t, ts, pc', hts, -⟩ | ⟨-, hkeep, -⟩
    · simp [ht] at hts
    · rw [hkeep]
      exact hc
  | other h =>
    rw [h.cancelled]
    exact hc

/-- While the coordinator collects, an installed reason is followed by the whole closing. -/
def CloserInv (g : GraphDefinition) (s : State β) : Prop :=
  s.coordinator.pc = .collect → s.control.reason.isSome = true →
    ∃ mode, ∀ t ∈ closeTasks g mode, t.Done s ∨ Pending s t

theorem step_collect {a : Label β} (h : s.step g o a = some s')
    (hc : s'.coordinator.pc = .collect) : s.coordinator.pc = .collect := by
  cases a with
  | worker n call =>
    simp only [State.step] at h
    split_ifs at h
    rw [← (workerMove_frame (workerStep_move h)).coordinator]
    exact hc
  | dispatcher e answers =>
    simp only [State.step] at h
    split_ifs at h
    rw [← (dispatcherMove_frame (dispatcherStep_move h)).coordinator]
    exact hc
  | stopBegin => cases h; exact hc
  | stop i =>
    rcases stopStep_cases h with ⟨-, -, rfl⟩ | ⟨-, -, rfl⟩ | ⟨-, rfl⟩ | ⟨t, ts, -, rfl⟩
    · exact hc
    · exact hc
    · exact hc
    · rw [← (runTask_sameThreads s t).coordinator]
      exact hc
  | coordinator call => exact (coordinatorStep_collect h hc).1
  | tick d => cases h; exact hc

theorem closerInv {C : State β → Label β → Prop} (hr : (system g o).ReachableBy C s) :
    CloserInv g s := by
  refine hr.invariant (I := CloserInv g) (fun s h => ?_) (fun s a s' hr hi _ h hc hreason => ?_)
  · rw [show s = State.initial g o from h]
    intro _ hreason
    simp [State.initial, ControlState.new] at hreason
  · rcases step_installs h hc hreason with hold | ⟨mode, hall⟩
    · obtain ⟨mode, hall⟩ := hi (step_collect h hc) hold
      have hturn := step_turn hr h hc
      have hclosed := closedStays_step h
      refine ⟨mode, fun t ht => ?_⟩
      rcases hall t ht with hd | hp
      · left
        cases t with
        | cancel => exact hturn.cancelled hd
        | closeQueue e m => exact (hclosed.queues e hd).1
        | closeSignals e m => exact (hclosed.signalQueues e hd).1
        | notifyQueue e => trivial
        | notifySignals e => trivial
      · exact (hturn.pending hp).imp_left Ran.done
    · exact ⟨mode, fun t ht => .inr (hall t ht)⟩

end Muxiva.Runtime
