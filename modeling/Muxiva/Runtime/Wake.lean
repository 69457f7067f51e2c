import Muxiva.Runtime.Tasks

/-! The wake-up protocol. A consumer samples the generation of its `QueueWake`, polls its queues and
parks; whoever changes one of these queues afterwards goes on to notify it. A producer asleep on a
full queue is woken by the pop or the close that makes its push go on. -/
set_option linter.all false
namespace Muxiva.Runtime

variable {β : Type} {g : GraphDefinition} {o : RuntimeOptions} {s s' : State β}

/-- The node whose `QueueWake` the task notifies. -/
def CloseTask.notifies : CloseTask → Option NodeId
  | .notifyQueue e | .notifySignals e => some e.toNodeId
  | _ => none

/-- A notification of the `QueueWake` of `n` is still to come. -/
inductive NotifyDue (s : State β) (n : NodeId) : Prop where
  | frame (e : EdgeDescriptor) (rest : List (Stamped (Frame β))) (he : e.toNodeId = n)
      (h : s.dispatchers e = .notifyFrame rest)
  | signal (e : EdgeDescriptor) (rest : List (Stamped (SignalFrame β))) (he : e.toNodeId = n)
      (h : s.dispatchers e = .notifySignal rest)
  | task (t : CloseTask) (ht : t.notifies = some n) (h : Pending s t)

/-- What a step does to the queues that lead to `n`: nothing that its consumer waits for, unless a
notification follows; and a notification that was to come still is, or has come. -/
structure Heard (s s' : State β) (n : NodeId) : Prop where
  generation : s.generation n ≤ s'.generation n
  due : NotifyDue s n → NotifyDue s' n ∨ s.generation n < s'.generation n
  frames : ∀ e, e.toNodeId = n → (s.queues e).frames = [] →
    (s'.queues e).frames = [] ∨ NotifyDue s' n
  signals : ∀ e, e.toNodeId = n → (s.signalQueues e).queue = [] →
    (s'.signalQueues e).queue = [] ∨ NotifyDue s' n
  closed : ∀ e, e.toNodeId = n → (s.queues e).closed = false →
    (s'.queues e).closed = false ∨ NotifyDue s' n
  closedSignals : ∀ e, e.toNodeId = n → (s.signalQueues e).closed = false →
    (s'.signalQueues e).closed = false ∨ NotifyDue s' n

/-- A dispatcher about to notify, seen after a step of another thread. -/
theorem notifyFrame_stays {e : EdgeDescriptor} {rest : List (Stamped (Frame β))}
    (h : s.dispatchers e = .notifyFrame rest)
    (hd : s'.dispatchers e = s.dispatchers e ∨ s'.dispatchers e = (s.dispatchers e).woken) :
    s'.dispatchers e = .notifyFrame rest := by
  rcases hd with hd | hd
  · rw [hd, h]
  · rw [hd, h]
    rfl

theorem notifySignal_stays {e : EdgeDescriptor} {rest : List (Stamped (SignalFrame β))}
    (h : s.dispatchers e = .notifySignal rest)
    (hd : s'.dispatchers e = s.dispatchers e ∨ s'.dispatchers e = (s.dispatchers e).woken) :
    s'.dispatchers e = .notifySignal rest := by
  rcases hd with hd | hd
  · rw [hd, h]
  · rw [hd, h]
    rfl

theorem runTask_generation (s : State β) (t : CloseTask) (n : NodeId) :
    (s.runTask t).generation n =
      if t.notifies = some n then s.generation n + 1 else s.generation n := by
  cases t with
  | notifyQueue e | notifySignals e =>
    by_cases hn : e.toNodeId = n
    · subst hn
      simp [State.runTask, CloseTask.notifies]
    · have hne : n ≠ e.toNodeId := Ne.symm hn
      simp [State.runTask, CloseTask.notifies, hn, hne]
  | _ => simp [State.runTask, CloseTask.notifies]

/-- A task empties queues and closes one queue at most. -/
theorem runTask_queues (s : State β) (t : CloseTask) (e : EdgeDescriptor) :
    ((s.queues e).frames = [] → ((s.runTask t).queues e).frames = []) ∧
    ((s.signalQueues e).queue = [] → ((s.runTask t).signalQueues e).queue = []) ∧
    (((s.runTask t).queues e).closed = (s.queues e).closed ∨
      t.follow = some (.notifyQueue e)) ∧
    (((s.runTask t).signalQueues e).closed = (s.signalQueues e).closed ∨
      t.follow = some (.notifySignals e)) := by
  cases t with
  | closeQueue e' m =>
    by_cases he : e = e'
    · subst he
      refine ⟨fun hf => ?_, id, .inr rfl, .inl rfl⟩
      have hsub := (s.queues e).close_frames_sublist m
      rw [hf] at hsub
      simpa [State.runTask] using hsub
    · simp [State.runTask, he]
  | closeSignals e' m =>
    by_cases he : e = e'
    · subst he
      refine ⟨id, fun hf => ?_, .inl rfl, .inr rfl⟩
      cases m <;> simp [State.runTask, SignalQueue.close, hf]
    · simp [State.runTask, he]
  | _ => exact ⟨id, id, .inl rfl, .inl rfl⟩

theorem Ran.heard {t : CloseTask} (h : Ran t s s') (n : NodeId) : Heard s s' n := by
  have hgen : s'.generation n = if t.notifies = some n then s.generation n + 1
      else s.generation n := by
    rw [h.generation]
    exact runTask_generation s t n
  have hstays : ∀ e, (s.dispatchers e).tasks = [] →
      s'.dispatchers e = s.dispatchers e ∨ s'.dispatchers e = (s.dispatchers e).woken := by
    intro e ht
    rw [h.dispatchers e ht]
    exact (runTask_sameThreads s t).dispatchers e
  have hfollow : ∀ t' : CloseTask, t.follow = some t' → t'.notifies = some n → NotifyDue s' n :=
    fun t' hf hn => .task t' hn (h.follow t' hf)
  refine ⟨?_, fun hd => ?_, fun e he hf => .inl ?_, fun e he hf => .inl ?_, fun e he hc => ?_,
    fun e he hc => ?_⟩
  · rw [hgen]
    split_ifs <;> omega
  · cases hd with
    | frame e rest he hpc =>
      exact .inl (.frame e rest he (notifyFrame_stays hpc (hstays e (by rw [hpc]; rfl))))
    | signal e rest he hpc =>
      exact .inl (.signal e rest he (notifySignal_stays hpc (hstays e (by rw [hpc]; rfl))))
    | task t' ht' hp =>
      rcases h.pending t' hp with rfl | hp'
      · right
        rw [hgen, if_pos ht']
        omega
      · exact .inl (.task t' ht' hp')
  · rw [h.queues]
    exact (runTask_queues s t e).1 hf
  · rw [h.signalQueues]
    exact (runTask_queues s t e).2.1 hf
  · rw [h.queues]
    rcases (runTask_queues s t e).2.2.1 with hk | hf
    · exact .inl (hk.trans hc)
    · exact .inr (hfollow _ hf (by simp [CloseTask.notifies, he]))
  · rw [h.signalQueues]
    rcases (runTask_queues s t e).2.2.2 with hk | hf
    · exact .inl (hk.trans hc)
    · exact .inr (hfollow _ hf (by simp [CloseTask.notifies, he]))

/-- A worker without tasks only takes from queues. -/
theorem workerMove_queues {n : NodeId} {call : NodeCall (NodeCallOutput β)}
    {pc : WorkerPc β} (h : WorkerMove g o s n (s.workers n) call pc s') (ht : pc.tasks = [])
    (e : EdgeDescriptor) :
    ((s.queues e).frames = [] → (s'.queues e).frames = []) ∧
    ((s.signalQueues e).queue = [] → (s'.signalQueues e).queue = []) ∧
    (s'.queues e).closed = (s.queues e).closed ∧
    (s'.signalQueues e).closed = (s.signalQueues e).closed := by
  cases h with
  | callback pc s₀ s' hc hr => cases hr <;> cases hc <;> exact ⟨id, id, rfl, rfl⟩
  | popSignal obs off e' cursor x xs hp hq =>
    by_cases he : e = e'
    · subst he
      simp [SignalQueue.tryPop, hq]
    · simp [he]
  | popFrame obs off e' cursor x xs hp hq =>
    by_cases he : e = e'
    · subst he
      simp [EdgeQueue.tryPop, hq]
    · simp [he]
  | close t ts => simp [WorkerPc.tasks] at ht
  | _ => exact ⟨id, id, rfl, rfl⟩

theorem workerMove_heard {n m : NodeId} {call : NodeCall (NodeCallOutput β)}
    (h : WorkerMove g o s m (s.workers m) call (s.workers m).pc s')
    (ht : (s.workers m).pc.tasks = []) : Heard s s' n := by
  have hf := workerMove_frame h
  have hq := workerMove_queues h ht
  have hgen : s'.generation = s.generation := by
    rcases workerMove_tasks h with ⟨t, ts, hts, -⟩ | ⟨-, -, hgen, -⟩
    · simp [ht] at hts
    · exact hgen
  refine ⟨by rw [hgen], fun hd => .inl ?_, fun e _ he => .inl ((hq e).1 he),
    fun e _ he => .inl ((hq e).2.1 he), fun e _ hc => .inl ((hq e).2.2.1.trans hc),
    fun e _ hc => .inl ((hq e).2.2.2.trans hc)⟩
  cases hd with
  | frame e rest he hpc => exact .frame e rest he (notifyFrame_stays hpc (hf.dispatchers e))
  | signal e rest he hpc => exact .signal e rest he (notifySignal_stays hpc (hf.dispatchers e))
  | task t ht' hp => exact .task t ht' (hp.of_worker h fun hmem => by simp [ht] at hmem)

theorem pushed_queues {e : EdgeDescriptor} {x : Stamped (Frame β)}
    {rest : List (Stamped (Frame β))} (h : Pushed s e x rest s') :
    s'.signalQueues = s.signalQueues ∧ s'.generation = s.generation ∧
    (∀ e', e' ≠ e → s'.queues e' = s.queues e') ∧
    (s'.queues e).closed = (s.queues e).closed ∧
    ((s'.queues e).frames = (s.queues e).frames ∨ s'.dispatchers e = .notifyFrame rest) := by
  have hother : ∀ {q : EdgeQueue (Stamped (Frame β))} {e'}, e' ≠ e →
      Function.update s.queues e q e' = s.queues e' := fun he => Function.update_of_ne he _ _
  cases h with
  | enqueued hc hl hf hc' => exact ⟨rfl, rfl, fun _ => hother, by simp [hc, hc'], .inr (by simp)⟩
  | droppedOldest hc ho hf hc' => exact ⟨rfl, rfl, fun _ => hother, by simp [hc, hc'], .inr (by simp)⟩
  | droppedNewest hc ho hf hc' =>
    exact ⟨rfl, rfl, fun _ => hother, by simp [hc, hc'], .inl (by simp [hf])⟩
  | wait hc ho hl hf hc' =>
    exact ⟨rfl, rfl, fun _ => hother, by simp [hc, hc'], .inl (by simp [hf])⟩
  | closed hc hq => exact ⟨rfl, rfl, fun _ => hother, by simp [hq], .inl (by simp [hq])⟩
  | overflow hc ho hf hc' =>
    exact ⟨rfl, rfl, fun _ => hother, by simp [hc, hc'], .inl (by simp [hf])⟩

variable [DecidableEq β]

/-- What a dispatcher without tasks does to the queues: it may put into those of its own edge, and
then notifies. -/
structure Dispatched (e : EdgeDescriptor) (pc : DispatcherPc β) (s s' : State β) : Prop where
  queues : ∀ e', e' ≠ e → s'.queues e' = s.queues e' ∧ s'.signalQueues e' = s.signalQueues e'
  closed : (s'.queues e).closed = (s.queues e).closed ∧
    (s'.signalQueues e).closed = (s.signalQueues e).closed
  frames : (s'.queues e).frames = (s.queues e).frames ∨
    ∃ rest, s'.dispatchers e = .notifyFrame rest
  signals : (s'.signalQueues e).queue = (s.signalQueues e).queue ∨
    ∃ rest, s'.dispatchers e = .notifySignal rest
  generation : (∀ n, s.generation n ≤ s'.generation n) ∧
    ((∃ rest, pc = .notifyFrame rest) ∨ (∃ rest, pc = .notifySignal rest) →
      s.generation e.toNodeId < s'.generation e.toNodeId)

omit [DecidableEq β] in
/-- The dispatcher keeps the queues as far as the consumer can see. -/
theorem Dispatched.of_same {e : EdgeDescriptor} {pc : DispatcherPc β}
    {q : EdgeQueue (Stamped (Frame β))} (hq : s'.queues = Function.update s.queues e q)
    (hs : s'.signalQueues = s.signalQueues) (hsame : SameFrames (s.queues e) q)
    (hg : s'.generation = s.generation)
    (hpc : (∀ rest, pc ≠ .notifyFrame rest) ∧ ∀ rest, pc ≠ .notifySignal rest) :
    Dispatched e pc s s' := by
  refine ⟨fun e' he => by simp [hq, hs, he], by simp [hq, hs, hsame.closed],
    .inl (by simp [hq, hsame.frames]), .inl (by rw [hs]), fun n => by rw [hg], ?_⟩
  rintro (⟨rest, hr⟩ | ⟨rest, hr⟩)
  · exact absurd hr (hpc.1 rest)
  · exact absurd hr (hpc.2 rest)

theorem dispatcherMove_dispatched {e : EdgeDescriptor} {answers : PolicyAnswers β}
    {pc : DispatcherPc β} (h : DispatcherMove g o s e answers pc s') (ht : pc.tasks = []) :
    Dispatched e pc s s' := by
  have hkeep : s'.queues = s.queues → s'.signalQueues = s.signalQueues →
      s'.generation = s.generation → ((∀ rest, pc ≠ .notifyFrame rest) ∧
        ∀ rest, pc ≠ .notifySignal rest) → Dispatched e pc s s' := by
    intro hq hs hg hpc
    have hq' : s'.queues = Function.update s.queues e (s.queues e) := by
      rw [hq, Function.update_eq_self]
    exact .of_same hq' hs (.refl _) hg hpc
  cases h with
  | rejected x rest r q h | settled x rest q h =>
    dsimp only [State.setDispatcher, State.setQueue, State.applying]
    exact .of_same rfl rfl (.of_applyEdge h) rfl (by simp)
  | delivered x rest f q s' h hp =>
    have hq : SameFrames (s.queues e) q := .of_applyEdge h
    obtain ⟨hs, hg, hother, hclosed, hframes⟩ := pushed_queues hp
    refine ⟨fun e' he => ⟨?_, by rw [hs]; rfl⟩, ⟨?_, by rw [hs]; rfl⟩, ?_, .inl (by rw [hs]; rfl),
      fun n => by rw [hg]; exact le_rfl, by simp⟩
    · rw [hother e' he]
      simp [he, State.applying]
    · rw [hclosed]
      simp [hq.closed]
    · refine hframes.imp (fun hf => ?_) fun hd => ⟨rest, hd⟩
      rw [hf]
      simp [hq.frames]
  | repush x rest s' hp =>
    obtain ⟨hs, hg, hother, hclosed, hframes⟩ := pushed_queues hp
    exact ⟨fun e' he => ⟨hother e' he, by rw [hs]⟩, ⟨hclosed, by rw [hs]⟩,
      hframes.imp_right fun hd => ⟨rest, hd⟩, .inl (by rw [hs]), fun n => by rw [hg], by simp⟩
  | notifyFrame rest | notifySignal rest =>
    refine ⟨fun e' he => ⟨rfl, rfl⟩, ⟨rfl, rfl⟩, .inl rfl, .inl rfl, fun n => ?_, fun _ => ?_⟩
    · by_cases hn : n = e.toNodeId
      · subst hn
        simp
      · simp [hn]
    · simp
  | signalRejected x rest r q h => exact .of_same rfl rfl (.of_observeSignal h) rfl (by simp)
  | signalRefused x rest err q h hq hc =>
    have hsf : SameFrames (s.queues e) q := .of_observeSignal h
    exact ⟨fun e' he => by simp [he], by simp [hsf.closed, hc], .inl (by simp [hsf.frames]),
      .inl (by simp [hq]), fun n => le_rfl, by simp⟩
  | signalPushed x rest q h hc hq hc' =>
    have hsf : SameFrames (s.queues e) q := .of_observeSignal h
    exact ⟨fun e' he => by simp [he], by simp [hsf.closed, hc, hc'], .inl (by simp [hsf.frames]),
      .inr ⟨rest, by simp⟩, fun n => le_rfl, by simp⟩
  | close t ts signal => simp [DispatcherPc.tasks] at ht
  | shutdown t ts => simp [DispatcherPc.tasks] at ht
  | _ => exact hkeep rfl rfl rfl (by simp)

theorem dispatcherMove_heard {n : NodeId} {e : EdgeDescriptor} {answers : PolicyAnswers β}
    (h : DispatcherMove g o s e answers (s.dispatchers e) s')
    (ht : (s.dispatchers e).tasks = []) : Heard s s' n := by
  have hf := dispatcherMove_frame h
  have hd := dispatcherMove_dispatched h ht
  refine ⟨hd.generation.1 n, fun hdue => ?_, fun e' he' hq => ?_, fun e' he' hq => ?_,
    fun e' he' hc => .inl ?_, fun e' he' hc => .inl ?_⟩
  · cases hdue with
    | frame e' rest he' hpc =>
      by_cases hee : e' = e
      · subst hee
        right
        rw [← he']
        exact hd.generation.2 (.inl ⟨rest, hpc⟩)
      · exact .inl (.frame e' rest he' (notifyFrame_stays hpc (hf.dispatchers e' hee)))
    | signal e' rest he' hpc =>
      by_cases hee : e' = e
      · subst hee
        right
        rw [← he']
        exact hd.generation.2 (.inr ⟨rest, hpc⟩)
      · exact .inl (.signal e' rest he' (notifySignal_stays hpc (hf.dispatchers e' hee)))
    | task t ht' hp =>
      exact .inl (.task t ht' (hp.of_dispatcher h fun hmem => by simp [ht] at hmem))
  · by_cases hee : e' = e
    · subst hee
      rcases hd.frames with hs | ⟨rest, hpc⟩
      · exact .inl (hs.trans hq)
      · exact .inr (.frame e' rest he' hpc)
    · left
      rw [(hd.queues e' hee).1]
      exact hq
  · by_cases hee : e' = e
    · subst hee
      rcases hd.signals with hs | ⟨rest, hpc⟩
      · exact .inl (hs.trans hq)
      · exact .inr (.signal e' rest he' hpc)
    · left
      rw [(hd.queues e' hee).2]
      exact hq
  · by_cases hee : e' = e
    · subst hee
      exact hd.closed.1.trans hc
    · rw [(hd.queues e' hee).1]
      exact hc
  · by_cases hee : e' = e
    · subst hee
      exact hd.closed.2.trans hc
    · rw [(hd.queues e' hee).2]
      exact hc

theorem Turn.heard (h : Turn g o s s') (n : NodeId) : Heard s s' n := by
  cases h with
  | ran t h => exact h.heard n
  | worker m call hm hmove ht => exact workerMove_heard hmove ht
  | dispatcher e answers he hmove ht => exact dispatcherMove_heard hmove ht
  | other h =>
    refine ⟨by rw [h.generation], fun hd => .inl ?_, fun e _ hq => .inl (by rw [h.queues]; exact hq),
      fun e _ hq => .inl (by rw [h.signalQueues]; exact hq),
      fun e _ hc => .inl (by rw [h.queues]; exact hc),
      fun e _ hc => .inl (by rw [h.signalQueues]; exact hc)⟩
    cases hd with
    | frame e rest he hpc => exact .frame e rest he (by rw [h.dispatchers]; exact hpc)
    | signal e rest he hpc => exact .signal e rest he (by rw [h.dispatchers]; exact hpc)
    | task t ht hp => exact .task t ht (hp.of_bystander h)

omit [DecidableEq β] in
/-- A round of polls visits every incoming edge. -/
theorem polled_all {n : NodeId} {cursor offset : ℕ} {P : EdgeDescriptor → Prop}
    (h : polled g n cursor offset = none)
    (hall : ∀ k < offset, ∀ e c, polled g n cursor k = some (e, c) → P e) :
    ∀ e ∈ g.incoming n, P e := by
  intro e he
  obtain ⟨i, hi, hget⟩ := List.getElem_of_mem he
  have hpos : 0 < (g.incoming n).length := by omega
  have hoff : (g.incoming n).length ≤ offset := by
    by_contra hlt
    have hidx : (cursor + offset) % (g.incoming n).length < (g.incoming n).length :=
      Nat.mod_lt _ hpos
    simp [polled, not_le.mp hlt, List.getElem?_eq_getElem hidx] at h
  have hk : (i + (g.incoming n).length - cursor % (g.incoming n).length) %
      (g.incoming n).length < (g.incoming n).length := Nat.mod_lt _ hpos
  have hcur : cursor % (g.incoming n).length < (g.incoming n).length := Nat.mod_lt _ hpos
  have hindex : (cursor + (i + (g.incoming n).length - cursor % (g.incoming n).length) %
      (g.incoming n).length) % (g.incoming n).length = i := by
    have hsum : cursor % (g.incoming n).length +
        (i + (g.incoming n).length - cursor % (g.incoming n).length) =
        i + (g.incoming n).length := by omega
    rw [Nat.add_mod_mod, ← Nat.mod_add_mod, hsum, Nat.add_mod_right, Nat.mod_eq_of_lt hi]
  refine hall _ (lt_of_lt_of_le hk hoff) e ((i + 1) % (g.incoming n).length) ?_
  simp only [polled, hindex, if_pos hk, List.getElem?_eq_getElem hi, hget, Option.map_some]

/-- The generation a consumer has sampled. -/
def WorkerPc.observed : WorkerPc β → Option ℕ
  | .pollSignals observed _ | .checkTick observed | .pollFrames observed _
  | .checkQueue observed _ | .checkSignals observed _ _ | .checkStop observed
  | .park observed => some observed
  | _ => none

/-- What a consumer has seen since it sampled the generation. -/
def Worker.Seen (g : GraphDefinition) (s : State β) (n : NodeId) (w : Worker β) : Prop :=
  match w.pc with
  | .pollSignals _ offset => ∀ k < offset, ∀ e c, polled g n w.cursor k = some (e, c) →
      (s.signalQueues e).queue = []
  | .checkTick _ => ∀ e ∈ g.incoming n, (s.signalQueues e).queue = []
  | .pollFrames _ offset => (∀ e ∈ g.incoming n, (s.signalQueues e).queue = []) ∧
      ∀ k < offset, ∀ e c, polled g n w.cursor k = some (e, c) → (s.queues e).frames = []
  | .checkQueue _ _ | .checkSignals _ _ _ | .checkStop _ => ∀ e ∈ g.incoming n,
      (s.signalQueues e).queue = [] ∧ (s.queues e).frames = []
  | .park _ => (∀ e ∈ g.incoming n, (s.signalQueues e).queue = [] ∧ (s.queues e).frames = []) ∧
      (w.nextTick ≠ none ∨ ∃ e ∈ g.incoming n,
        (s.queues e).closed = false ∨ (s.signalQueues e).closed = false)
  | _ => True

omit [DecidableEq β] in
theorem toNodeId_of_incoming {n : NodeId} {e : EdgeDescriptor} (he : e ∈ g.incoming n) :
    e.toNodeId = n := (GraphDefinition.mem_incoming.mp he).2

omit [DecidableEq β] in
/-- What was seen is still so, unless a notification is to come. -/
theorem Worker.Seen.heard {n : NodeId} {w : Worker β} (hs : w.Seen g s n) (h : Heard s s' n) :
    NotifyDue s' n ∨ w.Seen g s' n := by
  by_cases hd : NotifyDue s' n
  · exact .inl hd
  right
  have hsig : ∀ {e}, e ∈ g.incoming n → (s.signalQueues e).queue = [] →
      (s'.signalQueues e).queue = [] := fun he hq =>
    (h.signals _ (toNodeId_of_incoming he) hq).resolve_right hd
  have hfr : ∀ {e}, e ∈ g.incoming n → (s.queues e).frames = [] →
      (s'.queues e).frames = [] := fun he hq =>
    (h.frames _ (toNodeId_of_incoming he) hq).resolve_right hd
  unfold Worker.Seen at hs ⊢
  cases hpc : w.pc with
  | pollSignals obs off =>
    simp only [hpc] at hs ⊢
    exact fun k hk e c hp => hsig (polled_mem hp) (hs k hk e c hp)
  | checkTick obs =>
    simp only [hpc] at hs ⊢
    exact fun e he => hsig he (hs e he)
  | pollFrames obs off =>
    simp only [hpc] at hs ⊢
    exact ⟨fun e he => hsig he (hs.1 e he),
      fun k hk e c hp => hfr (polled_mem hp) (hs.2 k hk e c hp)⟩
  | checkQueue obs rest | checkSignals obs e' rest | checkStop obs =>
    simp only [hpc] at hs ⊢
    exact fun e he => ⟨hsig he (hs e he).1, hfr he (hs e he).2⟩
  | park obs =>
    simp only [hpc] at hs ⊢
    refine ⟨fun e he => ⟨hsig he (hs.1 e he).1, hfr he (hs.1 e he).2⟩, hs.2.imp_right ?_⟩
    rintro ⟨e, he, hc | hc⟩
    · exact ⟨e, he, .inl ((h.closed e (toNodeId_of_incoming he) hc).resolve_right hd)⟩
    · exact ⟨e, he, .inr ((h.closedSignals e (toNodeId_of_incoming he) hc).resolve_right hd)⟩
  | _ => trivial

omit [DecidableEq β] in
/-- A consumer that goes on from a sampled generation has seen one thing more. -/
theorem quiet_seen {n : NodeId} {w w' : Worker β} (h : Quiet g s n w w.pc w')
    (hp : w.pc.Placed g n) {obs : ℕ} (ho : w'.pc.observed = some obs) :
    obs = s.generation n ∧ w'.Seen g s n ∨
      w.pc.observed = some obs ∧ (w.Seen g s n → w'.Seen g s n) := by
  unfold Worker.Seen
  generalize hpc : w.pc = pc at h hp
  -- a queue seen empty is not drained only because it is open
  have hopen : ∀ {e : EdgeDescriptor}, (s.queues e).frames = [] →
      (s.queues e).isClosedAndEmpty = false → (s.queues e).closed = false := by
    intro e hf hc
    simpa [EdgeQueue.isClosedAndEmpty, hf] using hc
  have hopenSignals : ∀ {e : EdgeDescriptor}, (s.signalQueues e).queue = [] →
      (s.signalQueues e).isClosedAndEmpty = false → (s.signalQueues e).closed = false := by
    intro e hf hc
    simpa [SignalQueue.isClosedAndEmpty, hf] using hc
  have hround : ∀ {off : ℕ} {P : EdgeDescriptor → Prop} {e : EdgeDescriptor} {c : ℕ},
      polled g n w.cursor off = some (e, c) → P e →
      (∀ k < off, ∀ e c, polled g n w.cursor k = some (e, c) → P e) →
      ∀ k < off + 1, ∀ e c, polled g n w.cursor k = some (e, c) → P e := by
    intro off P e c hpoll hP hall k hk e' c' hp'
    rcases Nat.lt_succ_iff_lt_or_eq.mp hk with hk | rfl
    · exact hall k hk e' c' hp'
    · rw [hpoll] at hp'
      cases hp'
      exact hP
  cases h with
  | sample =>
    cases ho
    exact .inl ⟨rfl, fun k hk => absurd hk (Nat.not_lt_zero k)⟩
  | signalsPolled obs' off h =>
    cases ho
    exact .inr ⟨rfl, polled_all h⟩
  | noSignal obs' off e c h hq =>
    cases ho
    exact .inr ⟨rfl, hround (P := fun e => (s.signalQueues e).queue = []) h hq⟩
  | noTick obs' h =>
    cases ho
    exact .inr ⟨rfl, fun hs => ⟨hs, fun k hk => absurd hk (Nat.not_lt_zero k)⟩⟩
  | framesPolled obs' off h =>
    cases ho
    exact .inr ⟨rfl, fun hs e he => ⟨hs.1 e he,
      polled_all (P := fun e => (s.queues e).frames = []) h hs.2 e he⟩⟩
  | noFrame obs' off e c h hq =>
    cases ho
    exact .inr ⟨rfl, fun hs =>
      ⟨hs.1, hround (P := fun e => (s.queues e).frames = []) h hq hs.2⟩⟩
  | checked obs' => cases ho; exact .inr ⟨rfl, id⟩
  | queueDone obs' e rest h => cases ho; exact .inr ⟨rfl, id⟩
  | queueOpen obs' e rest h =>
    cases ho
    have he : e ∈ g.incoming n := hp.subset List.mem_cons_self
    exact .inr ⟨rfl, fun hs => ⟨hs, .inr ⟨e, he, .inl (hopen (hs e he).2 h)⟩⟩⟩
  | signalsDone obs' e rest h => cases ho; exact .inr ⟨rfl, id⟩
  | signalsOpen obs' e rest h =>
    cases ho
    have he : e ∈ g.incoming n := hp.subset List.mem_cons_self
    exact .inr ⟨rfl, fun hs => ⟨hs, .inr ⟨e, he, .inr (hopenSignals (hs e he).1 h)⟩⟩⟩
  | tickLeft obs' ht hc => cases ho; exact .inr ⟨rfl, fun hs => ⟨hs, .inl ht⟩⟩
  | sent =>
    unfold State.routed at ho
    split_ifs at ho
    · cases hdelay : w.delay <;> simp [hdelay, WorkerPc.observed] at ho
    · cases ho
  | lost r h | closed =>
    unfold Worker.failed at ho
    split_ifs at ho <;> cases ho
  | _ => cases ho

/-- A consumer that has sampled the current generation has seen its queues as they are, unless a
notification is to come. -/
def WakeInv (g : GraphDefinition) (s : State β) (n : NodeId) : Prop :=
  ∀ obs, (s.workers n).pc.observed = some obs → obs ≤ s.generation n ∧
    (s.generation n = obs → NotifyDue s n ∨ (s.workers n).Seen g s n)

omit [DecidableEq β] in
/-- A worker that does more than go on by itself has no generation in hand. -/
theorem workerMove_observed {n : NodeId} {call : NodeCall (NodeCallOutput β)} {pc : WorkerPc β}
    (h : WorkerMove g o s n (s.workers n) call pc s') :
    (s'.workers n).pc.observed = none ∨ ∃ w', Quiet g s n (s.workers n) pc w' ∧
      s' = s.setWorker n w' := by
  cases h with
  | quiet pc w' h => exact .inr ⟨w', h, rfl⟩
  | callback pc s₀ s' hc hr => cases hr <;> exact .inl (by simp [WorkerPc.observed])
  | _ => exact .inl (by simp [WorkerPc.observed])

theorem wakeInv {C : State β → Label β → Prop} (hr : (system g o).ReachableBy C s)
    (hc : s.coordinator.pc = .collect) (n : NodeId) : WakeInv g s n := by
  refine hr.invariant (I := fun s => s.coordinator.pc = .collect → WakeInv g s n)
    (fun s h _ => ?_) (fun s a s' hr hi _ h hc' => ?_) hc
  · rw [show s = State.initial g o from h]
    intro obs hobs
    simp [State.initial, WorkerPc.observed] at hobs
  have hinv := hi (step_collect h hc')
  have hheard := (step_turn hr h hc').heard n
  -- the consumer keeps its record, or goes on from what it has seen
  have hgoes : ∀ {obs : ℕ}, (s'.workers n).pc.observed = some obs →
      obs ≤ s.generation n ∧ (s.generation n = obs → NotifyDue s n ∨ (s'.workers n).Seen g s n) := by
    intro obs hobs
    rcases step_workers h with hw | ⟨m, call, -, -, hstep⟩
    · rw [hw] at hobs ⊢
      exact hinv obs hobs
    · have hm := workerStep_move hstep
      by_cases hnm : n = m
      · subst hnm
        rcases workerMove_observed hm with hnone | ⟨w', hq, hs'⟩
        · rw [hnone] at hobs
          cases hobs
        · have hw' : s'.workers n = w' := by simp [hs']
          rw [hw'] at hobs ⊢
          rcases quiet_seen hq ((placeInv hr).workers n) hobs with ⟨heq, hseen⟩ | ⟨hold, hseen⟩
          · exact ⟨heq.le, fun _ => .inr hseen⟩
          · obtain ⟨hle, hsame⟩ := hinv obs hold
            exact ⟨hle, fun heq => (hsame heq).imp_right hseen⟩
      · rw [(workerMove_frame hm).workers n hnm] at hobs ⊢
        exact hinv obs hobs
  intro obs hobs
  obtain ⟨hle, hsame⟩ := hgoes hobs
  refine ⟨hle.trans hheard.generation, fun heq => ?_⟩
  have hgen : s.generation n = obs := le_antisymm (heq ▸ hheard.generation) hle
  rcases hsame hgen with hd | hseen
  · rcases hheard.due hd with hd' | hlt
    · exact .inl hd'
    · omega
  · exact hseen.heard hheard

/-- An open queue at its capacity. -/
def FullQueue (s : State β) (e : EdgeDescriptor) : Prop :=
  (s.queues e).closed = false ∧ (s.queues e).frames.length = (s.queues e).capacity

omit [DecidableEq β] in
theorem pushed_sleep {e : EdgeDescriptor} {x y : Stamped (Frame β)}
    {rest rest' : List (Stamped (Frame β))} (h : Pushed s e x rest s')
    (hd : s'.dispatchers e = .pushWait y rest' false) : FullQueue s' e := by
  cases h with
  | wait hc ho hl hf hc' =>
    have hcap := ((s.queues e).push_bounds x).1
    unfold FullQueue
    simp [hc', hf, hl, hcap]
  | _ => simp at hd

/-- A dispatcher goes to sleep on a full queue only. -/
theorem dispatcherMove_sleep {e : EdgeDescriptor} {answers : PolicyAnswers β}
    {pc : DispatcherPc β} (h : DispatcherMove g o s e answers pc s') {x : Stamped (Frame β)}
    {rest : List (Stamped (Frame β))} (hd : s'.dispatchers e = .pushWait x rest false) :
    FullQueue s' e := by
  cases h with
  | delivered x' rest' f q s' h hp => exact pushed_sleep hp hd
  | repush x' rest' s' hp => exact pushed_sleep hp hd
  | ack failed => cases failed <;> simp at hd
  | lost r signal h | closed signal => cases signal <;> simp [DispatcherPc.afterFail] at hd
  | _ => simp at hd

omit [DecidableEq β] in
/-- A worker that takes from a queue wakes the producer asleep on it. -/
theorem workerMove_wakes {n : NodeId} {call : NodeCall (NodeCallOutput β)} {pc : WorkerPc β}
    (h : WorkerMove g o s n (s.workers n) call pc s') (ht : pc.tasks = []) (e : EdgeDescriptor) :
    s'.queues e = s.queues e ∨ s'.dispatchers e = (s.dispatchers e).woken := by
  cases h with
  | callback pc s₀ s' hc hr => cases hr <;> cases hc <;> exact .inl rfl
  | popFrame obs off e' cursor x xs hp hq =>
    by_cases he : e = e'
    · subst he
      exact .inr (by simp)
    · exact .inl (by simp [he])
  | close t ts => simp [WorkerPc.tasks] at ht
  | _ => exact .inl rfl

omit [DecidableEq β] in
theorem woken_awake (pc : DispatcherPc β) (x : Stamped (Frame β))
    (rest : List (Stamped (Frame β))) : pc.woken ≠ .pushWait x rest false := by
  cases pc <;> simp [DispatcherPc.woken]

/-- A producer asleep finds its queue full, unless its notification is to come. -/
theorem sleepInv {C : State β → Label β → Prop} (hr : (system g o).ReachableBy C s)
    (hc : s.coordinator.pc = .collect) {e : EdgeDescriptor} {x : Stamped (Frame β)}
    {rest : List (Stamped (Frame β))} (hd : s.dispatchers e = .pushWait x rest false) :
    FullQueue s e ∨ Pending s (.notifyQueue e) := by
  refine hr.invariant (I := fun s => s.coordinator.pc = .collect → ∀ x rest,
    s.dispatchers e = .pushWait x rest false → FullQueue s e ∨ Pending s (.notifyQueue e))
    (fun s h _ x rest hd => ?_) (fun s a s' hr hi _ h hc' x rest hd => ?_) hc x rest hd
  · rw [show s = State.initial g o from h] at hd
    simp [State.initial] at hd
  have hold : FullQueue s' e ∨ s.dispatchers e = .pushWait x rest false := by
    rcases step_dispatchers h e with (hs | hs) | ⟨answers, -, -, hstep⟩
    · exact .inr (by rw [← hs, hd])
    · rw [hs] at hd
      exact absurd hd (woken_awake _ x rest)
    · exact .inl (dispatcherMove_sleep (dispatcherStep_move hstep) hd)
  rcases hold with hfull | hold
  · exact .inl hfull
  have hinv := hi (step_collect h hc') x rest hold
  have hturn := step_turn hr h hc'
  have hkeep : s'.queues e = s.queues e → Pending s' (.notifyQueue e) ∨
      FullQueue s e → FullQueue s' e ∨ Pending s' (.notifyQueue e) := by
    intro hq hor
    unfold FullQueue at hor ⊢
    rw [hq]
    exact hor.symm
  have htasks : (s.dispatchers e).tasks = [] := by rw [hold]; rfl
  -- its notification would have woken it
  have hpend : Pending s (.notifyQueue e) → Pending s' (.notifyQueue e) := by
    intro hp
    refine (hturn.pending hp).resolve_left fun hran => ?_
    have hwoken : s'.dispatchers e = (s.dispatchers e).woken := by
      rw [hran.dispatchers e htasks]
      simp [State.runTask]
    rw [hwoken] at hd
    exact woken_awake _ x rest hd
  cases hturn with
  | ran t h =>
    by_cases hf : t.follow = some (.notifyQueue e)
    · exact .inr (h.follow _ hf)
    · have hq : s'.queues e = s.queues e := by
        rw [h.queues]
        cases t with
        | closeQueue e' m =>
          have hee : e ≠ e' := by
            rintro rfl
            exact hf rfl
          simp [State.runTask, hee]
        | _ => rfl
      exact hkeep hq (hinv.symm.imp_left hpend)
  | worker m call hm hmove ht =>
    rcases workerMove_wakes hmove ht e with hq | hwoken
    · exact hkeep hq (hinv.symm.imp_left hpend)
    · rw [hwoken] at hd
      exact absurd hd (woken_awake _ x rest)
  | dispatcher e' answers he' hmove ht =>
    have hee : e ≠ e' := by
      rintro rfl
      rw [hold] at hmove
      cases hmove
    exact hkeep ((dispatcherMove_dispatched hmove ht).queues e hee).1 (hinv.symm.imp_left hpend)
  | other h => exact hkeep (congrFun h.queues e) (hinv.symm.imp_left hpend)

end Muxiva.Runtime
