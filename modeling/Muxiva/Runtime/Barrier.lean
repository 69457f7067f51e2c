import Muxiva.Runtime.Gate

/-! The prepare barrier. Until the gate opens no frame, signal or callback exists; if a node was
not prepared, that stays so for as long as every source that passes the gate sees the stop token
cancelled. -/
set_option linter.all false
namespace Muxiva.Runtime

variable {β : Type} {g : GraphDefinition} {o : RuntimeOptions} {s s' : State β}

/-- No `on_process` or `on_signal` was called by the worker, and none is about to be. -/
def Worker.idle (w : Worker β) : Bool :=
  match w.pc with
  | .prepare | .arrive | .gate | .checkCancelled | .markRunning | .enter | .top | .pollSignals _ _
  | .checkTick _ | .pollFrames _ _ | .checkQueue _ _ | .checkSignals _ _ _ | .checkStop _ | .park _
  | .leave | .exit | .exited => true
  | .fail _ | .closing _ => !w.prepared
  | _ => false

/-- The dispatcher received nothing. -/
def DispatcherPc.idle : DispatcherPc β → Bool
  | .recv | .hangUp | .shutdown _ | .exit | .exited => true
  | _ => false

theorem woken_idle (pc : DispatcherPc β) : pc.woken.idle = pc.idle := by
  cases pc <;> rfl

/-- Nothing was produced. -/
structure Idle (s : State β) : Prop where
  workers : ∀ n, (s.workers n).idle = true ∧ (s.workers n).nextTick = none
  dispatchers : ∀ e, (s.dispatchers e).idle = true
  frames : ∀ e, (s.queues e).frames = []
  signals : ∀ e, (s.signalQueues e).queue = []
  slots : ∀ e, (s.channels e).slot = none
  trace : ∀ ev ∈ s.log.trace, ev.isCall = false

theorem Idle.setWorker (hi : Idle s) (n : NodeId) {w : Worker β} (hw : w.idle = true)
    (ht : w.nextTick = none) : Idle (s.setWorker n w) := by
  refine ⟨fun m => ?_, hi.dispatchers, hi.frames, hi.signals, hi.slots, hi.trace⟩
  by_cases hm : m = n
  · subst hm
    simpa using ⟨hw, ht⟩
  · simpa [hm] using hi.workers m

theorem Idle.setDispatcher (hi : Idle s) (e : EdgeDescriptor) {pc : DispatcherPc β}
    (hpc : pc.idle = true) : Idle (s.setDispatcher e pc) := by
  refine ⟨hi.workers, fun e' => ?_, hi.frames, hi.signals, hi.slots, hi.trace⟩
  by_cases he : e' = e
  · subst he
    simpa using hpc
  · simpa [he] using hi.dispatchers e'

theorem Idle.record (hi : Idle s) {ev : Event} (hev : ev.isCall = false) : Idle (s.record ev) := by
  refine ⟨hi.workers, hi.dispatchers, hi.frames, hi.signals, hi.slots, fun ev' h => ?_⟩
  simp only [State.record, List.mem_append, List.mem_singleton] at h
  rcases h with h | rfl
  · exact hi.trace ev' h
  · exact hev

theorem Idle.setQueue (hi : Idle s) (e : EdgeDescriptor) {q : EdgeQueue (Stamped (Frame β))}
    (hq : q.frames = []) : Idle (s.setQueue e q) := by
  refine ⟨hi.workers, hi.dispatchers, fun e' => ?_, hi.signals, hi.slots, hi.trace⟩
  by_cases he : e' = e
  · subst he
    simpa using hq
  · simpa [he] using hi.frames e'

theorem Idle.setSignalQueue (hi : Idle s) (e : EdgeDescriptor)
    {q : SignalQueue (Stamped (SignalFrame β))} (hq : q.queue = []) :
    Idle (s.setSignalQueue e q) := by
  refine ⟨hi.workers, hi.dispatchers, hi.frames, fun e' => ?_, hi.slots, hi.trace⟩
  by_cases he : e' = e
  · subst he
    simpa using hq
  · simpa [he] using hi.signals e'

theorem runTask_idle (hi : Idle s) (t : CloseTask) : Idle (s.runTask t) := by
  cases t with
  | cancel => exact { hi with }
  | closeQueue e m =>
    apply hi.setQueue e
    have hsub := (s.queues e).close_frames_sublist m
    rw [hi.frames e] at hsub
    exact List.sublist_nil.mp hsub
  | notifyQueue e =>
    have hw : Idle (s.setDispatcher e (s.dispatchers e).woken) :=
      hi.setDispatcher e (by rw [woken_idle]; exact hi.dispatchers e)
    exact { hw with }
  | closeSignals e m =>
    apply hi.setSignalQueue e
    cases m with
    | drain => exact hi.signals e
    | discard => exact SignalQueue.close_discard_queue _
  | notifySignals e => exact { hi with }

/-- The worker of a prepared source is about to check the stop token; it goes on to `on_process`
unless it finds the token cancelled. -/
def State.entersSource (g : GraphDefinition) (s : State β) (n : NodeId) : Bool :=
  match (s.workers n).pc with
  | .enter => (s.workers n).prepared && g.isSource n
  | _ => false

theorem quiet_idle {n : NodeId} {w' : Worker β} (hi : Idle s)
    (hs : s.entersSource g n = true → s.cancelled = true)
    (h : Quiet g s n (s.workers n) (s.workers n).pc w') :
    w'.idle = true ∧ w'.nextTick = none := by
  obtain ⟨hidle, htick⟩ := hi.workers n
  unfold Worker.idle at hidle
  generalize hpc : (s.workers n).pc = pc at h hidle
  cases h with
  | enterSource hp hsrc hc =>
    rw [hs (by simp [State.entersSource, hpc, hp, hsrc])] at hc
    cases hc
  | tickDue observed ht => simp [htick] at ht
  | tickLeft observed ht hc => exact absurd htick ht
  | lost r h | closed =>
    have hp : (s.workers n).prepared = false := by simpa using hidle
    simp [Worker.failed, hp, Worker.idle, htick]
  | _ => first | exact ⟨rfl, htick⟩ | cases hidle

theorem workerMove_idle {n : NodeId} {call : NodeCall (NodeCallOutput β)} (hi : Idle s)
    (hs : s.entersSource g n = true → s.cancelled = true)
    (hu : (s.workers n).pc = .prepare → (s.workers n).prepared = false)
    (h : WorkerMove g o s n (s.workers n) call (s.workers n).pc s') : Idle s' := by
  obtain ⟨hidle, htick⟩ := hi.workers n
  have hquiet : ∀ {pc w'}, (s.workers n).pc = pc → Quiet g s n (s.workers n) pc w' →
      w'.idle = true ∧ w'.nextTick = none := by
    rintro pc w' rfl hq
    exact quiet_idle hi hs hq
  unfold Worker.idle at hidle
  generalize hpc : (s.workers n).pc = pc at h hidle
  cases h with
  | quiet pc w' hq => exact hi.setWorker n (hquiet hpc hq).1 (hquiet hpc hq).2
  | prepared out h => exact (hi.record rfl).setWorker n rfl htick
  | notPrepared r h =>
    have hp := hu hpc
    exact (hi.record rfl).setWorker n (by simp [Worker.idle, hp]) htick
  | arrived =>
    have hw : Idle (s.setWorker n { s.workers n with pc := .gate }) := hi.setWorker n rfl htick
    exact { hw with }
  | running =>
    have hw : Idle (s.setWorker n { s.workers n with pc := .enter }) := hi.setWorker n rfl htick
    exact { hw with }
  | callback pc s₀ s' hc hr => cases hc <;> cases hidle
  | popSignal observed offset e cursor x xs hp hq => simp [hi.signals e] at hq
  | popFrame observed offset e cursor x xs hp hq => simp [hi.frames e] at hq
  | won r h =>
    have hp : (s.workers n).prepared = false := by simpa using hidle
    have hw : Idle (s.setWorker n
        { s.workers n with pc := .closing (closeTasks g o.failureMode) }) :=
      hi.setWorker n (by simp [Worker.idle, hp]) htick
    exact { hw with }
  | close t ts =>
    have hp : (s.workers n).prepared = false := by simpa using hidle
    exact (runTask_idle hi t).setWorker n (by simp [Worker.idle, hp]) htick
  | leave =>
    have hd : Idle (s.dropSenders g n) := by
      refine { hi with slots := fun e => ?_ }
      simp only [State.dropSenders]
      split_ifs
      · exact hi.slots e
      · exact hi.slots e
    exact hd.setWorker n rfl htick
  | exit =>
    have hw : Idle (s.setWorker n { s.workers n with pc := .exited }) := hi.setWorker n rfl htick
    exact { hw with }
  | _ => cases hidle

theorem dispatcherMove_idle [DecidableEq β] {e : EdgeDescriptor} {answers : PolicyAnswers β}
    (hi : Idle s) (h : DispatcherMove g o s e answers (s.dispatchers e) s') : Idle s' := by
  have hidle := hi.dispatchers e
  generalize s.dispatchers e = pc at h hidle
  cases h with
  | recvFrames batch h => simp [hi.slots e] at h
  | recvSignals signals h => simp [hi.slots e] at h
  | hungUp hs h => exact hi.setDispatcher e rfl
  | hangUp =>
    have hd : Idle (s.setDispatcher e (.shutdown [.closeQueue e .drain, .notifyQueue e,
        .closeSignals e .drain, .notifySignals e])) := hi.setDispatcher e rfl
    refine { hd with slots := fun e' => ?_ }
    by_cases he : e' = e
    · subst he
      simp
    · simpa [he] using hi.slots e'
  | shutdown t ts => exact (runTask_idle hi t).setDispatcher e rfl
  | shutdownDone => exact hi.setDispatcher e rfl
  | exit =>
    have hd : Idle (s.setDispatcher e .exited) := hi.setDispatcher e rfl
    exact { hd with }
  | _ => cases hidle

variable [DecidableEq β]

/-- Some `on_prepare` of the run failed. -/
def State.prepareFailed (s : State β) : Bool :=
  s.log.trace.any fun
    | .prepare _ ok => !ok
    | _ => false

omit [DecidableEq β] in
theorem prepareFailed_iff : s.prepareFailed = true ↔ ∃ n, .prepare n false ∈ s.log.trace := by
  unfold State.prepareFailed
  rw [List.any_eq_true]
  constructor
  · rintro ⟨ev, hev, hfail⟩
    cases ev with
    | prepare n ok =>
      have hok : ok = false := by simpa using hfail
      exact ⟨n, hok ▸ hev⟩
    | _ => cases hfail
  · rintro ⟨n, hn⟩
    exact ⟨_, hn, rfl⟩

/-- The stop call won `request_abort` and has not yet cancelled the stop token. -/
def StopPc.cancels : StopPc → Bool
  | .closing ts => decide (.cancel ∈ ts)
  | _ => false

def Label.tokenSettled (g : GraphDefinition) (s : State β) : Label β → Bool
  | .worker n _ => !s.entersSource g n || !s.prepareFailed || !s.stops.any StopPc.cancels
  | _ => true

/-- After a failed `on_prepare`, no source checks the stop token while a stop call is between
winning `request_abort` and cancelling the token. -/
def TokenSettled (g : GraphDefinition) (s : State β) (a : Label β) : Prop :=
  a.tokenSettled g s = true

instance (g : GraphDefinition) (s : State β) (a : Label β) : Decidable (TokenSettled g s a) :=
  inferInstanceAs (Decidable (_ = true))

omit [DecidableEq β] in
/-- Behind the gate of an idle run the only closing left is that of a stop call. -/
theorem stop_of_pending (hg : GateInv g s) (hi : Idle s) (hr : s.released = true)
    (hp : CancelPending s) :
    s.stops.any StopPc.cancels = true := by
  cases hp with
  | worker m ts h hc =>
    have hidle := (hi.workers m).1
    have hm : m ∈ g.topologicalOrder := by
      by_contra hmem
      rw [hg.absent m hmem] at h
      cases h
    have harr := hg.all_arrived hr hm
    unfold Worker.idle at hidle
    unfold Worker.arrived at harr
    rw [h] at hidle harr
    simp only at hidle harr
    rw [harr] at hidle
    cases hidle
  | dispatcher e ts signal h hc =>
    have hidle := hi.dispatchers e
    rw [h] at hidle
    cases hidle
  | stop ts h hc => exact List.any_eq_true.mpr ⟨_, h, by simpa [StopPc.cancels] using hc⟩

omit [DecidableEq β] in
theorem passed_of_entersSource {n : NodeId} (hn : s.entersSource g n = true) :
    (s.workers n).passed = true := by
  unfold State.entersSource at hn
  unfold Worker.passed Worker.arrived
  cases hpc : (s.workers n).pc <;> rw [hpc] at hn <;> cases hn

/-- A source that comes to the stop token after a failed `on_prepare` finds it cancelled. -/
theorem cancelled_of_failed {C : State β → Label β → Prop} {n : NodeId}
    {call : NodeCall (NodeCallOutput β)} (hr : (system g o).ReachableBy C s) (hi : Idle s)
    (hc : TokenSettled g s (.worker n call)) (hk : s.coordinator.pc = .collect)
    (hf : s.prepareFailed = true) (hn : s.entersSource g n = true) : s.cancelled = true := by
  have hg := gateInv hr
  have hpass := passed_of_entersSource hn
  obtain ⟨m, hm⟩ := prepareFailed_iff.mp hf
  obtain ⟨hv, hp⟩ := (refusedInv hr).failed m hm
  have hmem : m ∈ g.topologicalOrder := by
    by_contra hmem
    rw [hg.absent m hmem] at hv
    cases hv
  have hnf : ∀ r, (s.workers m).pc ≠ .fail r := by
    intro r hpc
    have harr := hg.all_arrived (hg.passed n hpass) hmem
    unfold Worker.arrived at harr
    rw [hpc] at harr
    simp only at harr
    rw [hp] at harr
    cases harr
  rcases cancelInv hr hk ((refusedInv hr).reason m hp hv hnf) with hcan | hpend
  · exact hcan
  · have hstop := stop_of_pending hg hi (hg.passed n hpass) hpend
    simp [TokenSettled, Label.tokenSettled, hn, hf, hstop] at hc

/-- Before the gate opens, and for good once an `on_prepare` failed, nothing is produced. -/
def BarrierInv (s : State β) : Prop :=
  s.released = false ∨ s.prepareFailed = true → Idle s

omit [DecidableEq β] in
theorem workerMove_released {n : NodeId} {call : NodeCall (NodeCallOutput β)} (hg : GateInv g s)
    (h : WorkerMove g o s n (s.workers n) call (s.workers n).pc s') (hr : s.released = true) :
    s'.released = true := by
  by_cases ha : (s.workers n).pc = .arrive
  · rw [ha] at h
    rw [workerMove_arrive h]
    simp [hr]
  · rw [(workerMove_gate (hg.body n) (hg.fresh n) h ha).2.2.2]
    exact hr

/-- An `on_prepare` fails before the gate opens. -/
theorem barrier_before {a : Label β} (hg : GateInv g s) (h : s.step g o a = some s')
    (hs : s'.released = false ∨ s'.prepareFailed = true) :
    s.released = false ∨ s.prepareFailed = true := by
  rcases step_trace h with ⟨-, hrel, ht⟩ | ⟨n, call, rfl, hn, hm⟩
  · rw [hrel] at hs
    refine hs.imp_right fun hf => ?_
    obtain ⟨m, hm⟩ := prepareFailed_iff.mp hf
    refine prepareFailed_iff.mpr ⟨m, (ht.mem hm).resolve_right ?_⟩
    simp [Event.isWork, Event.isFinish, Event.isAbort]
  · cases hrel : s.released with
    | false => exact .inl rfl
    | true =>
      rw [workerMove_released hg hm hrel] at hs
      have hf := hs.resolve_left (by simp)
      obtain ⟨m, hmem⟩ := prepareFailed_iff.mp hf
      rcases workerMove_failed hm hmem with hmem | ⟨-, hpc, -⟩
      · exact .inr (prepareFailed_iff.mpr ⟨m, hmem⟩)
      · have harr := hg.all_arrived hrel hn
        unfold Worker.arrived at harr
        rw [hpc] at harr
        cases harr

/-- The threads other than workers produce nothing by themselves. -/
theorem idle_step {a : Label β} (hi : Idle s) (h : s.step g o a = some s')
    (ha : ∀ n call, a ≠ .worker n call) : Idle s' := by
  cases a with
  | worker n call => exact absurd rfl (ha n call)
  | dispatcher e answers =>
    simp only [State.step] at h
    split_ifs at h
    exact dispatcherMove_idle hi (dispatcherStep_move h)
  | stopBegin => cases h; exact { hi with }
  | stop i =>
    rcases stopStep_cases h with ⟨-, -, rfl⟩ | ⟨-, -, rfl⟩ | ⟨-, rfl⟩ | ⟨t, ts, -, rfl⟩
    · exact { hi with }
    · exact { hi with }
    · exact { hi with }
    · have ht := runTask_idle hi t
      exact { ht with }
  | coordinator call =>
    have htrace := coordinatorStep_trace h
    rcases coordinatorStep_cases h with ⟨t, ts, -, rfl⟩ | ⟨k, c, exits, trace, rfl, -⟩
    · have ht := runTask_idle hi t
      exact { ht with }
    · refine { hi with trace := fun ev hev => ?_ }
      rcases htrace.mem hev with hev | hwork
      · exact hi.trace ev hev
      · cases ev <;> first | rfl | cases hwork
  | tick d => cases h; exact { hi with }

theorem barrierInv (hr : (system g o).ReachableBy (TokenSettled g) s) : BarrierInv s := by
  refine hr.invariant (I := BarrierInv) (fun s h _ => ?_) (fun s a s' hr hi hc h hs => ?_)
  · rw [show s = State.initial g o from h]
    refine ⟨fun n => ⟨rfl, rfl⟩, fun e => rfl, fun e => ?_, fun e => ?_, fun e => rfl,
      fun ev hev => by cases hev⟩
    · simp only [State.initial]
      split_ifs <;> rfl
    · simp only [State.initial]
      split_ifs <;> rfl
  · have hg := gateInv hr
    have hbefore := barrier_before hg h hs
    have hidle := hi hbefore
    by_cases ha : ∃ n call, a = .worker n call
    · obtain ⟨n, call, rfl⟩ := ha
      simp only [system, State.step] at h
      split_ifs at h with hn
      have hm := workerStep_move h
      refine workerMove_idle hidle (fun hent => ?_) (hg.fresh n) hm
      have hrel := hg.passed n (passed_of_entersSource hent)
      have hf := hbefore.resolve_left (by simp [hrel])
      exact cancelled_of_failed hr hidle hc (collecting_of_move hn (exitInv hr) hm) hf hent
    · exact idle_step hidle h fun n call hne => ha ⟨n, call, hne⟩

/-- No `on_process` or `on_signal` of a run whose `on_prepare` failed somewhere, as long as no source
overtakes a stop call between its winning and its cancelling of the stop token. -/
theorem prepare_barrier (g : GraphDefinition) (o : RuntimeOptions) (s : State β)
    (hr : (system g o).ReachableBy (TokenSettled g) s) (n : NodeId)
    (hf : .prepare n false ∈ s.log.trace) : ∀ ev ∈ s.log.trace, ev.isCall = false :=
  (barrierInv hr (.inr (prepareFailed_iff.mpr ⟨n, hf⟩))).trace

/-- The sink's `on_prepare` panics and the source finds the stop token cancelled. -/
theorem prepare_barrier_panicked :
    ∃ s, sampleSystem.ReachableBy (TokenSettled sampleGraph) s ∧
      .prepare 1 false ∈ s.log.trace ∧ s.coordinator.pc = .done ∧
      ∀ ev ∈ s.log.trace, ev.isCall = false := by
  obtain ⟨s, hr, ht⟩ := sampleSystem.exists_reachableBy_of_runBy
    (C := TokenSettled sampleGraph) rfl
    ([Label.worker 1 ⟨false, .panicked "out of memory"⟩] ++ Label.works 1 8 ++ Label.works 0 7 ++
      Label.works 1 5 ++ Label.forwards 8 ++ Label.coordinates 9)
    (fun s => .prepare 1 false ∈ s.log.trace ∧ s.coordinator.pc = .done) (by decide +kernel)
  simp only [decide_eq_true_eq] at ht
  exact ⟨s, hr, ht.1, ht.2, prepare_barrier sampleGraph sampleOptions s hr 1 ht.1⟩

/-- A stop call wins, the sink's `on_prepare` panics and loses, and the source calls `on_process`
before the stop call cancels the token. -/
theorem prepare_barrier_overtaken :
    ∃ s, sampleSystem.Reachable s ∧ .prepare 1 false ∈ s.log.trace ∧
      .process 0 none ∈ s.log.trace := by
  obtain ⟨s, hr, ht⟩ := sampleSystem.exists_reachable_of_run rfl
    ([Label.stopBegin, .stop 0, .worker 1 ⟨false, .panicked "out of memory"⟩] ++ Label.works 1 2 ++
      Label.works 0 7)
    (fun s => .prepare 1 false ∈ s.log.trace ∧ .process 0 none ∈ s.log.trace) (by decide +kernel)
  simp only [decide_eq_true_eq] at ht
  exact ⟨s, hr, ht.1, ht.2⟩

end Muxiva.Runtime
