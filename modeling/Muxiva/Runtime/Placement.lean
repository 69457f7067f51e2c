import Muxiva.Runtime.Exits
import Muxiva.Runtime.Outcome
import Mathlib.Data.List.Infix

/-! What holds of every thread in every run, whether the graph fails or not: which edges a thread
works on, who still holds which end of a channel, and when a queue is closed. -/
set_option linter.all false
namespace Muxiva.Runtime

variable {β : Type} {g : GraphDefinition} {o : RuntimeOptions} {s s' : State β}

theorem polled_mem {n : NodeId} {cursor offset cursor' : ℕ} {e : EdgeDescriptor}
    (h : polled g n cursor offset = some (e, cursor')) : e ∈ g.incoming n := by
  unfold polled at h
  simp only at h
  split_ifs at h
  obtain ⟨e', he', heq⟩ := Option.map_eq_some_iff.mp h
  cases heq
  exact List.mem_of_getElem? he'

/-- The edges of some batches. -/
def Batches.edges (bs : Batches β) : List EdgeDescriptor := bs.map Prod.fst

theorem batches_edges_sublist (n : NodeId) (k : ℕ) (emissions : List (PortName × Frame β)) :
    (batches g n k emissions).edges.Sublist (g.outgoing n) := by
  unfold batches Batches.edges
  refine (List.filter_sublist.map _).trans ?_
  rw [List.map_map]
  exact (List.map_id (g.outgoing n)).symm ▸ List.Sublist.refl _

/-- A worker works on edges of its own node, on each at most once. -/
def WorkerPc.Placed (g : GraphDefinition) (n : NodeId) : WorkerPc β → Prop
  | .onSignal e _ | .onFrame e _ => e ∈ g.incoming n
  | .checkQueue _ rest => rest <:+ g.incoming n
  | .checkSignals _ e rest => e :: rest <:+ g.incoming n
  | .sendSignals _ rest bs => rest <:+ g.outgoing n ∧ bs.edges.Sublist (g.outgoing n)
  | .awaitAcks _ bs | .checkReason bs => bs.edges.Sublist (g.outgoing n)
  | .trySend bs pending => (pending.edges ++ bs.edges).Sublist (g.outgoing n)
  | .sendPending pending => pending.edges.Sublist (g.outgoing n)
  | _ => True

theorem quiet_placed {n : NodeId} {pc : WorkerPc β} {w w' : Worker β} (h : Quiet g s n w pc w')
    (hp : pc.Placed g n) : w'.pc.Placed g n := by
  cases h with
  | framesPolled obs off h => exact List.suffix_rfl
  | queueDone obs e rest h => exact hp
  | signalsDone obs e rest h => exact (List.suffix_cons e rest).trans hp
  | signalsSent sg bs => exact hp.2
  | acked bs => exact hp
  | noReason bs h => exact hp
  | tried pending => simpa [WorkerPc.Placed, Batches.edges] using hp
  | full e b bs pending hr hs => simpa [WorkerPc.Placed, Batches.edges] using hp
  | sent =>
    unfold State.routed
    split_ifs
    · cases w.delay <;> trivial
    · trivial
  | lost r h | closed =>
    unfold Worker.failed
    split_ifs <;> trivial
  | _ => trivial

theorem workerMove_placed {n : NodeId} {call : NodeCall (NodeCallOutput β)} {pc : WorkerPc β}
    (h : WorkerMove g o s n (s.workers n) call pc s') (hp : pc.Placed g n) :
    (s'.workers n).pc.Placed g n := by
  cases h with
  | quiet pc w' h => simpa using quiet_placed h hp
  | callback pc s₀ s' hc hr =>
    cases hr with
    | frames out tick delay h ht hr hs =>
      simpa [WorkerPc.Placed, Batches.edges] using batches_edges_sublist n _ out.emissions
    | signals out tick delay h ht hr hs =>
      simpa [WorkerPc.Placed] using batches_edges_sublist n _ out.emissions
    | _ => simp [WorkerPc.Placed]
  | popSignal obs off e cursor x xs hpoll hq => simpa [WorkerPc.Placed] using polled_mem hpoll
  | popFrame obs off e cursor x xs hpoll hq => simpa [WorkerPc.Placed] using polled_mem hpoll
  | putSignals sg e rest bs hr hs =>
    simpa [WorkerPc.Placed] using ⟨(List.suffix_cons e rest).trans hp.1, hp.2⟩
  | takeAck left bs h => simpa [WorkerPc.Placed] using hp
  | tryPut e b bs pending hr hs =>
    have hsub : (pending.edges ++ Batches.edges bs).Sublist (pending.edges ++ Batches.edges ((e, b) :: bs)) :=
      (List.Sublist.refl _).append (List.sublist_cons_self _ _)
    simpa [WorkerPc.Placed] using hsub.trans hp
  | putPending e b bs hr hs =>
    have hsub : (Batches.edges bs).Sublist (Batches.edges ((e, b) :: bs)) :=
      List.sublist_cons_self _ _
    simpa [WorkerPc.Placed] using hsub.trans hp
  | _ => simp [WorkerPc.Placed]

/-- The closing that a dispatcher does on its way out. -/
def shutdownTasks (e : EdgeDescriptor) : List CloseTask :=
  [.closeQueue e .drain, .notifyQueue e, .closeSignals e .drain, .notifySignals e]

/-- A dispatcher on its way out works through its own closing. -/
def DispatcherPc.Placed (e : EdgeDescriptor) : DispatcherPc β → Prop
  | .shutdown ts => ts <:+ shutdownTasks e
  | _ => True

theorem woken_placed {e : EdgeDescriptor} {pc : DispatcherPc β} (h : pc.Placed e) :
    pc.woken.Placed e := by
  cases pc <;> exact h

theorem dispatcherMove_placed [DecidableEq β] {e : EdgeDescriptor} {answers : PolicyAnswers β}
    {pc : DispatcherPc β} (h : DispatcherMove g o s e answers pc s') (hp : pc.Placed e) :
    (s'.dispatchers e).Placed e := by
  cases h with
  | delivered x rest f q s' h hp => cases hp <;> simp [DispatcherPc.Placed]
  | repush x rest s' hp => cases hp <;> simp [DispatcherPc.Placed]
  | ack failed => cases failed <;> simp [DispatcherPc.Placed]
  | lost r signal h => cases signal <;> simp [DispatcherPc.Placed, DispatcherPc.afterFail]
  | closed signal => cases signal <;> simp [DispatcherPc.Placed, DispatcherPc.afterFail]
  | hangUp => simp [DispatcherPc.Placed, shutdownTasks]
  | shutdown t ts => simpa [DispatcherPc.Placed] using (List.suffix_cons t ts).trans hp
  | _ => simp [DispatcherPc.Placed]

variable [DecidableEq β]

/-- Only its dispatcher writes an edge's record, apart from waking it. -/
theorem step_dispatchers {a : Label β} (h : s.step g o a = some s') (e : EdgeDescriptor) :
    (s'.dispatchers e = s.dispatchers e ∨ s'.dispatchers e = (s.dispatchers e).woken) ∨
      ∃ answers, a = .dispatcher e answers ∧ e ∈ g.enabledEdges ∧
        s.dispatcherStep g o e answers = some s' := by
  cases a with
  | worker n call =>
    simp only [State.step] at h
    split_ifs at h
    exact .inl ((workerMove_frame (workerStep_move h)).dispatchers e)
  | dispatcher e' answers =>
    simp only [State.step] at h
    split_ifs at h with he
    by_cases hee : e = e'
    · subst hee
      exact .inr ⟨answers, rfl, he, h⟩
    · exact .inl ((dispatcherMove_frame (dispatcherStep_move h)).dispatchers e hee)
  | stopBegin => cases h; exact .inl (.inl rfl)
  | stop i =>
    rcases stopStep_cases h with ⟨-, -, rfl⟩ | ⟨-, -, rfl⟩ | ⟨-, rfl⟩ | ⟨t, ts, -, rfl⟩
    · exact .inl (.inl rfl)
    · exact .inl (.inl rfl)
    · exact .inl (.inl rfl)
    · exact .inl ((runTask_sameThreads s t).dispatchers e)
  | coordinator call =>
    by_cases hc : s.coordinator.pc = .collect
    · simp only [State.step, State.coordinatorStep, hc] at h
      split at h
      · cases h
        exact .inl (.inl rfl)
      · cases h
        exact .inl (.inl rfl)
      · split_ifs at h
        cases h
        exact .inl (.inl rfl)
    · exact .inl ((coordinatorStep_frame hc h).dispatchers e)
  | tick d => cases h; exact .inl (.inl rfl)

structure PlaceInv (g : GraphDefinition) (s : State β) : Prop where
  workers : ∀ n, (s.workers n).pc.Placed g n
  dispatchers : ∀ e, (s.dispatchers e).Placed e

theorem placeInv {C : State β → Label β → Prop} (hr : (system g o).ReachableBy C s) :
    PlaceInv g s := by
  refine hr.invariant (I := PlaceInv g) (fun s h => ?_) (fun s a s' _ hi _ h => ⟨?_, fun e => ?_⟩)
  · rw [show s = State.initial g o from h]
    exact ⟨fun _ => trivial, fun _ => trivial⟩
  · rcases step_workers h with hw | ⟨n, call, -, -, hstep⟩
    · rw [hw]
      exact hi.workers
    · intro m
      have hm := workerStep_move hstep
      by_cases hmn : m = n
      · subst hmn
        exact workerMove_placed hm (hi.workers m)
      · rw [(workerMove_frame hm).workers m hmn]
        exact hi.workers m
  · rcases step_dispatchers h e with (hd | hd) | ⟨answers, -, -, hstep⟩
    · rw [hd]
      exact hi.dispatchers e
    · rw [hd]
      exact woken_placed (hi.dispatchers e)
    · exact dispatcherMove_placed (dispatcherStep_move hstep) (hi.dispatchers e)

omit [DecidableEq β] in
theorem quiet_not_closing {n : NodeId} {pc : WorkerPc β} {w w' : Worker β}
    (h : Quiet g s n w pc w') (ts : List CloseTask) : w'.pc ≠ .closing ts := by
  cases h with
  | sent =>
    unfold State.routed
    split_ifs
    · cases w.delay <;> simp
    · simp
  | lost r h | closed =>
    unfold Worker.failed
    split_ifs <;> simp
  | _ => simp

omit [DecidableEq β] in
/-- A worker closes the graph because it just won, or goes on with a closing. -/
theorem workerMove_closing {n : NodeId} {call : NodeCall (NodeCallOutput β)} {pc : WorkerPc β}
    (h : WorkerMove g o s n (s.workers n) call pc s') {ts : List CloseTask}
    (hts : (s'.workers n).pc = .closing ts) :
    (∃ t, pc = .closing (t :: ts)) ∨ s'.control.reason.isSome = true := by
  cases h with
  | quiet pc w' h => exact absurd (by simpa using hts) (quiet_not_closing h ts)
  | callback pc s₀ s' hc hr => cases hr <;> simp at hts
  | won r h =>
    obtain ⟨-, hlost⟩ | ⟨-, -, -, -, st, heq⟩ := requestAbort_cases s.control r
    · simp [h] at hlost
    · exact .inr (by simp [heq])
  | close t ts' =>
    simp only [State.setWorker, Function.update_self, WorkerPc.closing.injEq] at hts
    exact .inl ⟨t, by rw [hts]⟩
  | _ => simp at hts

theorem dispatcherMove_closing {e : EdgeDescriptor} {answers : PolicyAnswers β}
    {pc : DispatcherPc β} (h : DispatcherMove g o s e answers pc s') {ts : List CloseTask}
    {signal : Bool} (hts : s'.dispatchers e = .closing ts signal) :
    (∃ t, pc = .closing (t :: ts) signal) ∨ s'.control.reason.isSome = true := by
  cases h with
  | delivered x rest f q s' h hp => cases hp <;> simp at hts
  | repush x rest s' hp => cases hp <;> simp at hts
  | ack failed => cases failed <;> simp at hts
  | lost r signal h => cases signal <;> simp [DispatcherPc.afterFail] at hts
  | closed signal => cases signal <;> simp [DispatcherPc.afterFail] at hts
  | won r signal h =>
    obtain ⟨-, hlost⟩ | ⟨-, -, -, -, st, heq⟩ := requestAbort_cases s.control r
    · simp [h] at hlost
    · exact .inr (by simp [heq])
  | close t ts' signal' =>
    simp only [State.setDispatcher, Function.update_self, DispatcherPc.closing.injEq] at hts
    exact .inl ⟨t, by rw [hts.1, hts.2]⟩
  | _ => simp at hts

/-- A closing in progress and a cancelled stop token come after a granted request. -/
structure ClosingInv (s : State β) : Prop where
  workers : ∀ n ts, (s.workers n).pc = .closing ts → s.control.reason.isSome = true
  dispatchers : ∀ e ts signal, s.dispatchers e = .closing ts signal →
    s.control.reason.isSome = true
  stops : ∀ ts, .closing ts ∈ s.stops → s.control.reason.isSome = true
  coordinator : ∀ ts, s.coordinator.pc = .closing ts → s.control.reason.isSome = true
  cancelled : s.cancelled = true → s.control.reason.isSome = true

omit [DecidableEq β] in
theorem runTask_cancelled {t : CloseTask} (h : (s.runTask t).cancelled = true) :
    t = .cancel ∨ s.cancelled = true := by
  cases t with
  | cancel => exact .inl rfl
  | _ => exact .inr h

omit [DecidableEq β] in
theorem workerMove_cancelled {n : NodeId} {call : NodeCall (NodeCallOutput β)} {pc : WorkerPc β}
    (h : WorkerMove g o s n (s.workers n) call pc s') (hc : s'.cancelled = true) :
    s.cancelled = true ∨ ∃ ts, pc = .closing ts := by
  cases h with
  | callback pc s₀ s' hc' hr =>
    left
    cases hr <;> cases hc' <;> simpa [State.logged, State.dropSenders] using hc
  | close t ts => exact .inr ⟨_, rfl⟩
  | _ =>
    dsimp only [State.setWorker, State.setDispatcher, State.setQueue, State.setSignalQueue,
      State.setSlot, State.dropSenders, State.record] at hc
    exact .inl hc

theorem dispatcherMove_cancelled {e : EdgeDescriptor} {answers : PolicyAnswers β}
    {pc : DispatcherPc β} (h : DispatcherMove g o s e answers pc s') (hp : pc.Placed e)
    (hc : s'.cancelled = true) : s.cancelled = true ∨ ∃ ts signal, pc = .closing ts signal := by
  cases h with
  | delivered x rest f q s' h hp =>
    left
    cases hp <;> simpa [State.applying] using hc
  | repush x rest s' hp =>
    left
    cases hp <;> simpa [State.applying] using hc
  | close t ts signal => exact .inr ⟨_, _, rfl⟩
  | shutdown t ts =>
    rcases runTask_cancelled hc with rfl | hc
    · have := hp.subset List.mem_cons_self
      simp [shutdownTasks] at this
    · exact .inl hc
  | _ =>
    dsimp only [State.setDispatcher, State.setQueue, State.setSignalQueue, State.setSlot,
      State.notify, State.applying] at hc
    exact .inl hc

omit [DecidableEq β] in
/-- The coordinator runs a close task, or writes nothing but its own record, the exits, the control
state and the trace; it starts to close when it wins. -/
theorem coordinatorStep_cases {call : NodeCall Unit} (h : s.coordinatorStep g o call = some s') :
    (∃ t ts, s.coordinator.pc = .closing (t :: ts) ∧
      s' = { s.runTask t with coordinator := { s.coordinator with pc := .closing ts } }) ∨
    ∃ k c exits trace, s' = { s with
        coordinator := k, control := c, exits := exits, log := { s.log with trace := trace } } ∧
      ∀ ts, k.pc = .closing ts → c.reason.isSome = true := by
  unfold State.coordinatorStep at h
  simp only at h
  split at h
  case h_6 r hpc =>
    split at h <;> rename_i hreq <;> cases h
    · refine .inr ⟨_, _, _, _, rfl, fun ts _ => ?_⟩
      obtain ⟨-, hlost⟩ | ⟨-, -, -, -, st, heq⟩ := requestAbort_cases s.control r
      · simp [hreq] at hlost
      · have hreason := congrArg ControlState.reason heq
        rw [hreq] at hreason
        exact Option.isSome_iff_exists.mpr ⟨r, hreason⟩
    · exact .inr ⟨_, _, _, _, rfl, by simp⟩
  case h_8 t ts hpc =>
    cases h
    exact .inl ⟨t, ts, hpc, rfl⟩
  case h_1 hpc =>
    split at h
    · cases h
      exact .inr ⟨_, _, _, _, rfl, by simp [hpc]⟩
    · cases h
      exact .inr ⟨_, _, _, _, rfl, by simp [hpc]⟩
    · split_ifs at h
      cases h
      exact .inr ⟨_, _, _, _, rfl, by simp⟩
  all_goals (try split at h) <;> (try split at h) <;> (try cases h)
  all_goals exact .inr ⟨_, _, _, _, rfl, by simp⟩

theorem closingInv_step {a : Label β} (hp : PlaceInv g s) (hi : ClosingInv s)
    (h : s.step g o a = some s') : ClosingInv s' := by
  have hsome : s.control.reason.isSome = true → s'.control.reason.isSome = true := by
    intro hs
    obtain ⟨r, hr⟩ := Option.isSome_iff_exists.mp hs
    rw [step_reason h hr]
    rfl
  have hwoken : ∀ {e ts signal}, (s.dispatchers e).woken = .closing ts signal →
      s.dispatchers e = .closing ts signal := by
    intro e ts signal hw
    cases hpc : s.dispatchers e <;> simp_all [DispatcherPc.woken]
  have hworkers : ∀ n ts, (s'.workers n).pc = .closing ts → s'.control.reason.isSome = true := by
    intro n ts hts
    rcases step_workers h with hw | ⟨m, call, -, -, hstep⟩
    · exact hsome (hi.workers n ts (by rw [← hw]; exact hts))
    · have hm := workerStep_move hstep
      by_cases hnm : n = m
      · subst hnm
        rcases workerMove_closing hm hts with ⟨t, ht⟩ | hr
        · exact hsome (hi.workers n _ ht)
        · exact hr
      · exact hsome (hi.workers n ts (by rw [← (workerMove_frame hm).workers n hnm]; exact hts))
  have hdispatchers : ∀ e ts signal, s'.dispatchers e = .closing ts signal →
      s'.control.reason.isSome = true := by
    intro e ts signal hts
    rcases step_dispatchers h e with (hd | hd) | ⟨answers, -, -, hstep⟩
    · exact hsome (hi.dispatchers e ts signal (by rw [← hd]; exact hts))
    · exact hsome (hi.dispatchers e ts signal (hwoken (by rw [← hd]; exact hts)))
    · rcases dispatcherMove_closing (dispatcherStep_move hstep) hts with ⟨t, ht⟩ | hr
      · exact hsome (hi.dispatchers e _ _ ht)
      · exact hr
  -- what is left is about the threads that are not workers or dispatchers
  have hrest : s'.stops = s.stops → s'.coordinator = s.coordinator →
      (s'.cancelled = true → s'.control.reason.isSome = true) → ClosingInv s' := by
    intro hst hk hc
    exact ⟨hworkers, hdispatchers, fun ts hts => hsome (hi.stops ts (hst ▸ hts)),
      fun ts hts => hsome (hi.coordinator ts (hk ▸ hts)), hc⟩
  cases a with
  | worker n call =>
    simp only [State.step] at h
    split_ifs at h
    have hm := workerStep_move h
    have hf := workerMove_frame hm
    refine hrest hf.stops hf.coordinator fun hc => hsome ?_
    rcases workerMove_cancelled hm hc with hc | ⟨ts, hts⟩
    · exact hi.cancelled hc
    · exact hi.workers n ts hts
  | dispatcher e answers =>
    simp only [State.step] at h
    split_ifs at h
    have hm := dispatcherStep_move h
    have hf := dispatcherMove_frame hm
    refine hrest hf.stops hf.coordinator fun hc => hsome ?_
    rcases dispatcherMove_cancelled hm (hp.dispatchers e) hc with hc | ⟨ts, signal, hts⟩
    · exact hi.cancelled hc
    · exact hi.dispatchers e ts signal hts
  | stopBegin =>
    cases h
    refine ⟨hworkers, hdispatchers, fun ts hts => hi.stops ts ?_, hi.coordinator, hi.cancelled⟩
    simpa using hts
  | stop i =>
    have hset : ∀ {x : StopPc} {ts : List CloseTask}, StopPc.closing ts ∈ s.stops.set i x →
        x = .closing ts ∨ s.control.reason.isSome = true := by
      intro x ts hts
      rcases List.mem_or_eq_of_mem_set hts with hts | hts
      · exact .inr (hi.stops ts hts)
      · exact .inl hts.symm
    rcases stopStep_cases h with ⟨-, hwon, rfl⟩ | ⟨-, -, rfl⟩ | ⟨-, rfl⟩ | ⟨t, ts, hst, rfl⟩
    · have hreason : (s.control.requestAbort cancellationAbort).2.reason.isSome = true := by
        obtain ⟨-, hlost⟩ | ⟨-, -, -, -, st, heq⟩ := requestAbort_cases s.control cancellationAbort
        · simp [hwon] at hlost
        · simp [heq]
      exact ⟨hworkers, hdispatchers, fun _ _ => hreason, fun _ _ => hreason, fun _ => hreason⟩
    · refine ⟨hworkers, hdispatchers, fun ts hts => ?_, hi.coordinator, hi.cancelled⟩
      exact (hset hts).resolve_left (by simp)
    · refine ⟨hworkers, hdispatchers, fun ts hts => ?_, hi.coordinator, hi.cancelled⟩
      exact (hset hts).resolve_left (by simp)
    · have hreason := hsome (hi.stops _ (List.mem_of_getElem? hst))
      exact ⟨hworkers, hdispatchers, fun _ _ => hreason, fun _ _ => hreason, fun _ => hreason⟩
  | coordinator call =>
    rcases coordinatorStep_cases h with ⟨t, ts, hpc, rfl⟩ | ⟨k, c, exits, trace, rfl, hk⟩
    · have hreason := hsome (hi.coordinator _ hpc)
      exact ⟨hworkers, hdispatchers, fun _ _ => hreason, fun _ _ => hreason, fun _ => hreason⟩
    · exact ⟨hworkers, hdispatchers, fun ts hts => hsome (hi.stops ts hts), hk,
        fun hc => hsome (hi.cancelled hc)⟩
  | tick d => cases h; exact hrest rfl rfl hi.cancelled

theorem closingInv {C : State β → Label β → Prop} (hr : (system g o).ReachableBy C s) :
    ClosingInv s := by
  refine hr.invariant (I := ClosingInv) (fun s h => ?_) fun s a s' hr hi _ h =>
    closingInv_step (placeInv hr) hi h
  rw [show s = State.initial g o from h]
  exact ⟨by simp [State.initial], by simp [State.initial], by simp [State.initial],
    by simp [State.initial], by simp [State.initial]⟩

end Muxiva.Runtime
