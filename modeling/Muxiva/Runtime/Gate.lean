import Muxiva.Runtime.Tasks
import Mathlib.Data.Finset.Card

/-! The prepare gate and the way from a failed `on_prepare` to the cancelled stop token: the gate
opens when every worker has arrived, a worker that could not prepare arrives with a reason
installed, and an installed reason is followed by the cancelling of the token. -/
set_option linter.all false
namespace Muxiva.Runtime

variable {β : Type} {g : GraphDefinition} {o : RuntimeOptions} {s s' : State β}

/-- The worker has been counted by the prepare gate. -/
def Worker.arrived (w : Worker β) : Bool :=
  match w.pc with
  | .prepare | .arrive => false
  | .fail _ | .closing _ => w.prepared
  | _ => true

/-- The worker has left the prepare gate. -/
def Worker.passed (w : Worker β) : Bool :=
  match w.pc with
  | .gate => false
  | _ => w.arrived

/-- The workers that the prepare gate still waits for. -/
def State.awaited (g : GraphDefinition) (s : State β) : Finset NodeId :=
  g.topologicalOrder.toFinset.filter fun n => (s.workers n).arrived = false

/-- The gate counts the workers and opens for all of them; a worker inside `run_source` or
`run_consumer` is prepared. -/
structure GateInv (g : GraphDefinition) (s : State β) : Prop where
  remaining : s.remaining = (s.awaited g).card
  released : s.released = true → s.remaining = 0
  passed : ∀ n, (s.workers n).passed = true → s.released = true
  body : ∀ n, (s.workers n).pc.inBody = true → (s.workers n).prepared = true
  fresh : ∀ n, (s.workers n).pc = .prepare → (s.workers n).prepared = false
  absent : ∀ n, n ∉ g.topologicalOrder → (s.workers n).pc = .prepare

/-- A worker that does not arrive is counted as before, and passes an open gate only. -/
theorem quiet_gate {n : NodeId} {w' : Worker β}
    (hb : (s.workers n).pc.inBody = true → (s.workers n).prepared = true)
    (h : Quiet g s n (s.workers n) (s.workers n).pc w') :
    w'.arrived = (s.workers n).arrived ∧
      (w'.passed = true → (s.workers n).passed = true ∨ s.released = true) := by
  unfold Worker.passed Worker.arrived
  generalize (s.workers n).pc = pc at h hb
  cases h with
  | released h => exact ⟨rfl, fun _ => .inr h⟩
  | sent =>
    refine ⟨?_, fun _ => .inl rfl⟩
    unfold State.routed
    split_ifs
    · cases (s.workers n).delay <;> rfl
    · rfl
  | lost r h | closed =>
    unfold Worker.failed
    cases hp : (s.workers n).prepared with
    | true => exact ⟨rfl, fun _ => .inl rfl⟩
    | false => exact ⟨rfl, fun h => by cases h⟩
  | reasonSeen bs r h => exact ⟨hb rfl, fun _ => .inl rfl⟩
  | dispatchClosed => exact ⟨hb rfl, fun _ => .inl rfl⟩
  | _ => exact ⟨rfl, fun h => .inl h⟩

theorem workerMove_gate {n : NodeId} {call : NodeCall (NodeCallOutput β)}
    (hb : (s.workers n).pc.inBody = true → (s.workers n).prepared = true)
    (hu : (s.workers n).pc = .prepare → (s.workers n).prepared = false)
    (h : WorkerMove g o s n (s.workers n) call (s.workers n).pc s')
    (ha : (s.workers n).pc ≠ .arrive) :
    (s'.workers n).arrived = (s.workers n).arrived ∧
      ((s'.workers n).passed = true → (s.workers n).passed = true ∨ s.released = true) ∧
      s'.remaining = s.remaining ∧ s'.released = s.released := by
  have hquiet : ∀ {pc w'}, (s.workers n).pc = pc → Quiet g s n (s.workers n) pc w' →
      w'.arrived = (s.workers n).arrived ∧
        (w'.passed = true → (s.workers n).passed = true ∨ s.released = true) := by
    rintro pc w' rfl hq
    exact quiet_gate hb hq
  generalize hpc : (s.workers n).pc = pc at h
  cases h with
  | quiet pc w' hq => simpa using hquiet hpc hq
  | arrived => exact absurd hpc ha
  | prepared out h => simp [Worker.passed, Worker.arrived, hpc]
  | notPrepared r h => simp [Worker.passed, Worker.arrived, hpc, hu hpc]
  | callback pc s₀ s' hc hr =>
    have hp : (s.workers n).prepared = true := hb (by cases hc <;> rw [hpc] <;> rfl)
    have hin : (s.workers n).arrived = true ∧ (s.workers n).passed = true := by
      unfold Worker.passed Worker.arrived
      cases hc <;> rw [hpc] <;> exact ⟨rfl, rfl⟩
    rw [hin.1, hin.2]
    cases hr <;> cases hc <;> simp [Worker.passed, Worker.arrived, hp, State.dropSenders,
      State.logged]
  | close t ts =>
    have ht := runTask_sameThreads s t
    simp +contextual [Worker.passed, Worker.arrived, hpc, ht.gate]
  | won r h => simp +contextual [Worker.passed, Worker.arrived, hpc]
  | leave => simp [Worker.passed, Worker.arrived, hpc, State.dropSenders]
  | _ => simp [Worker.passed, Worker.arrived, hpc]

theorem workerMove_arrive {n : NodeId} {call : NodeCall (NodeCallOutput β)}
    (h : WorkerMove g o s n (s.workers n) call .arrive s') :
    s' = { (s.setWorker n { s.workers n with pc := .gate }) with
      remaining := s.remaining - 1
      released := s.released || decide (s.remaining - 1 = 0) } := by
  cases h with
  | quiet pc w' hq => cases hq
  | callback pc s₀ s' hc hr => cases hc
  | arrived => rfl

theorem workerMove_prepared {n : NodeId} {call : NodeCall (NodeCallOutput β)}
    (hb : (s.workers n).pc.inBody = true → (s.workers n).prepared = true)
    (h : WorkerMove g o s n (s.workers n) call (s.workers n).pc s')
    (hin : (s'.workers n).pc.inBody = true) : (s'.workers n).prepared = true := by
  have hp := (workerMove_inBody h hin).elim hb id
  by_cases hpc : (s.workers n).pc = .prepare
  · rw [hpc] at h
    cases h with
    | quiet pc w' hq => cases hq
    | callback pc s₀ s' hc hr => cases hc
    | prepared out h => simp
    | notPrepared r h => simp [hp]
  · rw [(workerMove_frame h).prepared hpc]
    exact hp

/-- The gate as other threads leave it. -/
theorem GateInv.of_frame (hi : GateInv g s) (hw : s'.workers = s.workers)
    (hg : s'.remaining = s.remaining ∧ s'.released = s.released) : GateInv g s' := by
  have ha : s'.awaited g = s.awaited g := by
    unfold State.awaited
    rw [hw]
  refine ⟨?_, ?_, ?_, ?_, ?_, ?_⟩
  · rw [hg.1, ha]
    exact hi.remaining
  · rw [hg.1, hg.2]
    exact hi.released
  · rw [hg.2, hw]
    exact hi.passed
  · rw [hw]
    exact hi.body
  · rw [hw]
    exact hi.fresh
  · rw [hw]
    exact hi.absent

theorem gateInv_worker {n : NodeId} {call : NodeCall (NodeCallOutput β)}
    (hn : n ∈ g.topologicalOrder) (hi : GateInv g s)
    (h : WorkerMove g o s n (s.workers n) call (s.workers n).pc s') : GateInv g s' := by
  have hf := workerMove_frame h
  have hbody : ∀ m, (s'.workers m).pc.inBody = true → (s'.workers m).prepared = true := by
    intro m hin
    by_cases hm : m = n
    · subst hm
      exact workerMove_prepared (hi.body m) h hin
    · rw [hf.workers m hm] at hin ⊢
      exact hi.body m hin
  have hfresh : ∀ m, (s'.workers m).pc = .prepare → (s'.workers m).prepared = false := by
    intro m hpc
    by_cases hm : m = n
    · subst hm
      have hv := workerMove_visited h
      rw [hpc] at hv
      cases hv
    · rw [hf.workers m hm] at hpc ⊢
      exact hi.fresh m hpc
  have habsent : ∀ m, m ∉ g.topologicalOrder → (s'.workers m).pc = .prepare := by
    intro m hmem
    have hm : m ≠ n := by
      rintro rfl
      exact hmem hn
    rw [hf.workers m hm]
    exact hi.absent m hmem
  by_cases ha : (s.workers n).pc = .arrive
  · rw [ha] at h
    have hs' := workerMove_arrive h
    have hcount : s'.awaited g = (s.awaited g).erase n := by
      ext m
      simp only [State.awaited, Finset.mem_erase, Finset.mem_filter]
      by_cases hm : m = n
      · simp [hs', hm, Worker.arrived]
      · rw [hf.workers m hm]
        simp [hm]
    have hmem : n ∈ s.awaited g := by
      apply Finset.mem_filter.mpr
      refine ⟨List.mem_toFinset.mpr hn, ?_⟩
      unfold Worker.arrived
      rw [ha]
    have hrem : s'.remaining = s.remaining - 1 := by rw [hs']
    have hrel : s'.released = (s.released || decide (s.remaining - 1 = 0)) := by rw [hs']
    refine ⟨?_, fun hr => ?_, fun m hp => ?_, hbody, hfresh, habsent⟩
    · rw [hrem, hcount, Finset.card_erase_of_mem hmem, hi.remaining]
    · rw [hrel, Bool.or_eq_true, decide_eq_true_eq] at hr
      rcases hr with hr | hr
      · have := hi.released hr
        omega
      · omega
    · by_cases hm : m = n
      · subst hm
        simp [hs', Worker.passed] at hp
      · rw [hf.workers m hm] at hp
        simp [hrel, hi.passed m hp]
  · obtain ⟨harr, hpass, hrem, hrel⟩ := workerMove_gate (hi.body n) (hi.fresh n) h ha
    have hcount : s'.awaited g = s.awaited g := by
      unfold State.awaited
      refine Finset.filter_congr fun m _ => ?_
      by_cases hm : m = n
      · subst hm
        rw [harr]
      · rw [hf.workers m hm]
    refine ⟨?_, ?_, fun m hp => ?_, hbody, hfresh, habsent⟩
    · rw [hrem, hcount]
      exact hi.remaining
    · rw [hrem, hrel]
      exact hi.released
    · rw [hrel]
      by_cases hm : m = n
      · subst hm
        exact (hpass hp).elim (hi.passed m) id
      · rw [hf.workers m hm] at hp
        exact hi.passed m hp

variable [DecidableEq β]

theorem gateInv {C : State β → Label β → Prop} (hr : (system g o).ReachableBy C s) :
    GateInv g s := by
  refine hr.invariant (I := GateInv g) (fun s h => ?_) (fun s a s' _ hi _ h => ?_)
  · rw [show s = State.initial g o from h]
    have hcard : (g.topologicalOrder.toFinset).card = g.nodes.length := by
      rw [List.toFinset_card_of_nodup g.order_nodup, g.order_perm.length_eq, List.length_map]
    refine ⟨?_, fun h => ?_, by simp [State.initial, Worker.passed, Worker.arrived],
      by simp [State.initial, WorkerPc.inBody], by simp [State.initial], by simp [State.initial]⟩
    · simp [State.awaited, State.initial, Worker.arrived, hcard]
    · simpa [State.initial] using h
  · cases a with
    | worker n call =>
      simp only [system, State.step] at h
      split_ifs at h with hn
      exact gateInv_worker hn hi (workerStep_move h)
    | dispatcher e answers =>
      simp only [system, State.step] at h
      split_ifs at h
      have hf := dispatcherMove_frame (dispatcherStep_move h)
      exact hi.of_frame hf.workers hf.gate
    | stopBegin => cases h; exact hi.of_frame rfl ⟨rfl, rfl⟩
    | stop i =>
      rcases stopStep_cases h with ⟨-, -, rfl⟩ | ⟨-, -, rfl⟩ | ⟨-, rfl⟩ | ⟨t, ts, -, rfl⟩
      · exact hi.of_frame rfl ⟨rfl, rfl⟩
      · exact hi.of_frame rfl ⟨rfl, rfl⟩
      · exact hi.of_frame rfl ⟨rfl, rfl⟩
      · have ht := runTask_sameThreads s t
        exact hi.of_frame ht.workers ht.gate
    | coordinator call =>
      rcases coordinatorStep_cases h with ⟨t, ts, hpc, rfl⟩ | ⟨k, c, exits, trace, rfl, hk⟩
      · have ht := runTask_sameThreads s t
        exact hi.of_frame ht.workers ht.gate
      · exact hi.of_frame rfl ⟨rfl, rfl⟩
    | tick d => cases h; exact hi.of_frame rfl ⟨rfl, rfl⟩

omit [DecidableEq β] in
/-- When the gate is open every worker of the graph has arrived. -/
theorem GateInv.all_arrived (hi : GateInv g s) (hr : s.released = true) {n : NodeId}
    (hn : n ∈ g.topologicalOrder) : (s.workers n).arrived = true := by
  have hcard : (s.awaited g).card = 0 := by
    rw [← hi.remaining]
    exact hi.released hr
  by_contra ha
  have hmem : n ∈ s.awaited g := by
    simpa [State.awaited, hn] using ha
  rw [Finset.card_eq_zero] at hcard
  simp [hcard] at hmem

/-- `s'` has the trace of `s`, followed by calls of `on_finish` and `on_abort` only. -/
def AddsEnds (s s' : State β) : Prop :=
  ∃ evs, s'.log.trace = s.log.trace ++ evs ∧ ∀ ev ∈ evs, ev.isWork = false

omit [DecidableEq β] in
theorem AddsEnds.of_eq (h : s'.log.trace = s.log.trace) : AddsEnds s s' :=
  ⟨[], by simp [h], by simp⟩

omit [DecidableEq β] in
theorem AddsEnds.mem (h : AddsEnds s s') {ev : Event} (hev : ev ∈ s'.log.trace) :
    ev ∈ s.log.trace ∨ ev.isWork = false := by
  obtain ⟨evs, htrace, hends⟩ := h
  rw [htrace, List.mem_append] at hev
  exact hev.imp_right (hends ev)

omit [DecidableEq β] in
/-- The coordinator adds `on_finish` and `on_abort` to the trace only. -/
theorem coordinatorStep_trace {call : NodeCall Unit} (h : s.coordinatorStep g o call = some s') :
    AddsEnds s s' := by
  unfold State.coordinatorStep at h
  simp only at h
  split at h <;> (try split at h) <;> (try split at h) <;> (try cases h)
  case h_8 t ts hpc => exact .of_eq (by rw [(runTask_sameThreads s t).log])
  all_goals
    first
      | exact .of_eq rfl
      | refine ⟨[_], rfl, fun ev hev => ?_⟩
        rw [List.mem_singleton.mp hev]
        rfl

/-- Only workers open the gate and make the callbacks that come before `on_finish` and
`on_abort`. -/
theorem step_trace {a : Label β} (h : s.step g o a = some s') :
    (s'.workers = s.workers ∧ s'.released = s.released ∧ AddsEnds s s') ∨
      ∃ n call, a = .worker n call ∧ n ∈ g.topologicalOrder ∧
        WorkerMove g o s n (s.workers n) call (s.workers n).pc s' := by
  cases a with
  | worker n call =>
    simp only [State.step] at h
    split_ifs at h with hn
    exact .inr ⟨n, call, rfl, hn, workerStep_move h⟩
  | dispatcher e answers =>
    simp only [State.step] at h
    split_ifs at h
    have hf := dispatcherMove_frame (dispatcherStep_move h)
    exact .inl ⟨hf.workers, hf.gate.2, .of_eq hf.trace⟩
  | stopBegin => cases h; exact .inl ⟨rfl, rfl, .of_eq rfl⟩
  | stop i =>
    rcases stopStep_cases h with ⟨-, -, rfl⟩ | ⟨-, -, rfl⟩ | ⟨-, rfl⟩ | ⟨t, ts, -, rfl⟩
    · exact .inl ⟨rfl, rfl, .of_eq rfl⟩
    · exact .inl ⟨rfl, rfl, .of_eq rfl⟩
    · exact .inl ⟨rfl, rfl, .of_eq rfl⟩
    · have ht := runTask_sameThreads s t
      exact .inl ⟨ht.workers, ht.gate.2, .of_eq (by rw [ht.log])⟩
  | coordinator call =>
    refine .inl ⟨coordinatorStep_workers h, ?_, coordinatorStep_trace h⟩
    rcases coordinatorStep_cases h with ⟨t, ts, -, rfl⟩ | ⟨k, c, exits, trace, rfl, -⟩
    · exact (runTask_sameThreads s t).gate.2
    · rfl
  | tick d => cases h; exact .inl ⟨rfl, rfl, .of_eq rfl⟩

/-- A failed `on_prepare` leaves its worker unprepared, and a reason once it is past
`fail_graph`. -/
structure RefusedInv (s : State β) : Prop where
  failed : ∀ n, .prepare n false ∈ s.log.trace →
    (s.workers n).pc.visited = true ∧ (s.workers n).prepared = false
  reason : ∀ n, (s.workers n).prepared = false → (s.workers n).pc.visited = true →
    (∀ r, (s.workers n).pc ≠ .fail r) → s.control.reason.isSome = true

omit [DecidableEq β] in
/-- `on_prepare` fails in the trace when it fails in its worker. -/
theorem workerMove_failed {n m : NodeId} {call : NodeCall (NodeCallOutput β)}
    (h : WorkerMove g o s n (s.workers n) call (s.workers n).pc s')
    (hm : .prepare m false ∈ s'.log.trace) :
    .prepare m false ∈ s.log.trace ∨ m = n ∧ (s.workers n).pc = .prepare ∧
      (s'.workers n).prepared = (s.workers n).prepared := by
  by_cases hpc : (s.workers n).pc = .prepare
  · rw [hpc] at h
    cases h with
    | quiet pc w' hq => cases hq
    | callback pc s₀ s' hc hr => cases hc
    | prepared out h => exact .inl (by simpa using hm)
    | notPrepared r h =>
      simp only [State.setWorker, State.record, List.mem_append, List.mem_singleton,
        Event.prepare.injEq, and_true] at hm
      exact hm.imp_right fun hmn => ⟨hmn, hpc, by simp⟩
  · rw [(workerMove_frame h).trace hpc, List.mem_append] at hm
    refine .inl (hm.resolve_right fun hev => ?_)
    cases hpc' : (s.workers n).pc <;> rw [hpc'] at hev <;> simp [WorkerPc.events] at hev

theorem refusedInv_step {C : State β → Label β → Prop} {a : Label β}
    (hr : (system g o).ReachableBy C s) (hi : RefusedInv s) (h : s.step g o a = some s') :
    RefusedInv s' := by
  have hsome : s.control.reason.isSome = true → s'.control.reason.isSome = true := by
    intro hs
    obtain ⟨r, hr'⟩ := Option.isSome_iff_exists.mp hs
    rw [step_reason h hr']
    rfl
  rcases step_trace h with ⟨hw, -, ht⟩ | ⟨n, call, rfl, hn, hm⟩
  · refine ⟨fun k hk => ?_, fun k hp hv hnf => ?_⟩
    · rw [hw]
      apply hi.failed k
      exact (ht.mem hk).resolve_right (by simp [Event.isWork, Event.isFinish, Event.isAbort])
    · rw [hw] at hp hv hnf
      exact hsome (hi.reason k hp hv hnf)
  · have hf := workerMove_frame hm
    have hopen := open_of_collect (controlInv hr) (collecting_of_move hn (exitInv hr) hm)
    refine ⟨fun k hk => ?_, fun k hp hv hnf => ?_⟩
    · rcases workerMove_failed hm hk with hk | ⟨rfl, hpc, hp⟩
      · by_cases hkn : k = n
        · subst hkn
          obtain ⟨hv, hp⟩ := hi.failed k hk
          have hpc : (s.workers k).pc ≠ .prepare := fun hpc => by simp [hpc, WorkerPc.visited] at hv
          rw [hf.prepared hpc]
          exact ⟨workerMove_visited hm, hp⟩
        · rw [hf.workers k hkn]
          exact hi.failed k hk
      · rw [hp]
        exact ⟨workerMove_visited hm, (gateInv hr).fresh k hpc⟩
    · by_cases hkn : k = n
      · subst hkn
        exact workerMove_refused (fun r => step_reason h) hopen hm (hi.reason k) hp hnf
      · rw [hf.workers k hkn] at hp hv hnf
        exact hsome (hi.reason k hp hv hnf)

theorem refusedInv {C : State β → Label β → Prop} (hr : (system g o).ReachableBy C s) :
    RefusedInv s := by
  refine hr.invariant (I := RefusedInv) (fun s h => ?_) fun s a s' hr hi _ h =>
    refusedInv_step hr hi h
  rw [show s = State.initial g o from h]
  exact ⟨by simp [State.initial], by simp [State.initial, WorkerPc.visited]⟩

/-- Some thread won `request_abort` and has not yet cancelled the stop token. -/
inductive CancelPending (s : State β) : Prop where
  | worker (n : NodeId) (ts : List CloseTask) (h : (s.workers n).pc = .closing ts)
      (hc : .cancel ∈ ts)
  | dispatcher (e : EdgeDescriptor) (ts : List CloseTask) (signal : Bool)
      (h : s.dispatchers e = .closing ts signal) (hc : .cancel ∈ ts)
  | stop (ts : List CloseTask) (h : .closing ts ∈ s.stops) (hc : .cancel ∈ ts)

/-- While the coordinator collects, an installed reason is followed by the cancelling of the stop
token. -/
def CancelInv (s : State β) : Prop :=
  s.coordinator.pc = .collect → s.control.reason.isSome = true →
    s.cancelled = true ∨ CancelPending s

omit [DecidableEq β] in
/-- A dispatcher on its way out does not cancel, so the one that does closes the graph. -/
theorem CancelPending.of_pending (hp : PlaceInv g s) (h : Pending s .cancel) :
    CancelPending s := by
  cases h with
  | worker n h =>
    cases hpc : (s.workers n).pc with
    | closing ts =>
      rw [hpc] at h
      exact .worker n ts hpc h
    | _ => simp [hpc, WorkerPc.tasks] at h
  | dispatcher e h =>
    have hplaced := hp.dispatchers e
    cases hpc : s.dispatchers e with
    | closing ts signal =>
      rw [hpc] at h
      exact .dispatcher e ts signal hpc h
    | shutdown ts =>
      rw [hpc] at h hplaced
      have hmem := hplaced.subset h
      simp [shutdownTasks] at hmem
    | _ => simp [hpc, DispatcherPc.tasks] at h
  | stop p hp h =>
    cases p with
    | closing ts => exact .stop ts hp h
    | _ => simp [StopPc.tasks] at h

theorem cancelInv {C : State β → Label β → Prop} (hr : (system g o).ReachableBy C s) :
    CancelInv s := by
  intro hcollect hreason
  obtain ⟨mode, hall⟩ := closerInv hr hcollect hreason
  have hcancel := hall .cancel (by simp [closeTasks])
  exact hcancel.imp_right fun hp => .of_pending (placeInv hr) hp

end Muxiva.Runtime
