import Muxiva.Runtime.Lifecycle
import Muxiva.Runtime.Placement

/-! The two ends of each dispatch channel and the closing of each queue, in every run; and that a
worker leaves only a failed graph or drained queues. -/
set_option linter.all false
namespace Muxiva.Runtime

variable {β : Type} {g : GraphDefinition} {o : RuntimeOptions} {s s' : State β}

/-- The worker has dropped its senders. -/
def WorkerPc.left : WorkerPc β → Bool
  | .exit | .exited | .dead => true
  | _ => false

/-- The dispatcher has dropped its receiver. -/
def DispatcherPc.hungUp : DispatcherPc β → Bool
  | .shutdown _ | .exit | .exited => true
  | _ => false

/-- The dispatcher has closed its data queue. -/
def DispatcherPc.closedData (e : EdgeDescriptor) : DispatcherPc β → Bool
  | .shutdown ts => .closeQueue e .drain ∉ ts
  | .exit | .exited => true
  | _ => false

/-- The dispatcher has closed its signal queue. -/
def DispatcherPc.closedSignals (e : EdgeDescriptor) : DispatcherPc β → Bool
  | .shutdown ts => .closeSignals e .drain ∉ ts
  | .exit | .exited => true
  | _ => false

@[simp] theorem woken_hungUp (pc : DispatcherPc β) : pc.woken.hungUp = pc.hungUp := by
  cases pc <;> rfl

@[simp] theorem woken_closedData (e : EdgeDescriptor) (pc : DispatcherPc β) :
    pc.woken.closedData e = pc.closedData e := by
  cases pc <;> rfl

@[simp] theorem woken_closedSignals (e : EdgeDescriptor) (pc : DispatcherPc β) :
    pc.woken.closedSignals e = pc.closedSignals e := by
  cases pc <;> rfl

structure ChannelInv (s : State β) (e : EdgeDescriptor) : Prop where
  sender : (s.channels e).sender = !(s.workers e.fromNodeId).pc.left
  receiver : (s.channels e).receiver = !(s.dispatchers e).hungUp
  slot : (s.dispatchers e).hungUp = true → (s.channels e).slot = none
  closedData : (s.dispatchers e).closedData e = true → (s.queues e).closed = true
  closedSignals : (s.dispatchers e).closedSignals e = true → (s.signalQueues e).closed = true

theorem quiet_left {n : NodeId} {pc : WorkerPc β} {w w' : Worker β} (h : Quiet g s n w pc w') :
    pc.left = false ∧ w'.pc.left = false := by
  cases h with
  | sent =>
    refine ⟨rfl, ?_⟩
    unfold State.routed
    split_ifs
    · cases w.delay <;> rfl
    · rfl
  | lost r h | closed =>
    refine ⟨rfl, ?_⟩
    unfold Worker.failed
    split_ifs <;> rfl
  | _ => exact ⟨rfl, rfl⟩

/-- A closed queue stays closed, and once it is empty it stays empty. -/
structure ClosedStays (s s' : State β) : Prop where
  queues : ∀ e, (s.queues e).closed = true → (s'.queues e).closed = true ∧
    ((s.queues e).frames = [] → (s'.queues e).frames = [])
  signalQueues : ∀ e, (s.signalQueues e).closed = true → (s'.signalQueues e).closed = true ∧
    ((s.signalQueues e).queue = [] → (s'.signalQueues e).queue = [])

theorem ClosedStays.of_same (hq : s'.queues = s.queues) (hs : s'.signalQueues = s.signalQueues) :
    ClosedStays s s' :=
  ⟨fun e h => by rw [hq]; exact ⟨h, id⟩, fun e h => by rw [hs]; exact ⟨h, id⟩⟩

/-- One queue was replaced. -/
theorem ClosedStays.of_setQueue {e : EdgeDescriptor} {q : EdgeQueue (Stamped (Frame β))}
    (hq : s'.queues = Function.update s.queues e q) (hs : s'.signalQueues = s.signalQueues)
    (h : (s.queues e).closed = true → q.closed = true ∧ ((s.queues e).frames = [] → q.frames = [])) :
    ClosedStays s s' := by
  refine ⟨fun e' hc => ?_, fun e' hc => by rw [hs]; exact ⟨hc, id⟩⟩
  rw [hq]
  by_cases he : e' = e
  · subst he
    rw [Function.update_self]
    exact h hc
  · rw [Function.update_of_ne he]
    exact ⟨hc, id⟩

/-- One signal queue was replaced. -/
theorem ClosedStays.of_setSignalQueue {e : EdgeDescriptor}
    {q : SignalQueue (Stamped (SignalFrame β))} (hq : s'.queues = s.queues)
    (hs : s'.signalQueues = Function.update s.signalQueues e q)
    (h : (s.signalQueues e).closed = true →
      q.closed = true ∧ ((s.signalQueues e).queue = [] → q.queue = [])) : ClosedStays s s' := by
  refine ⟨fun e' hc => by rw [hq]; exact ⟨hc, id⟩, fun e' hc => ?_⟩
  rw [hs]
  by_cases he : e' = e
  · subst he
    rw [Function.update_self]
    exact h hc
  · rw [Function.update_of_ne he]
    exact ⟨hc, id⟩

theorem ClosedStays.trans {s₁ : State β} (h : ClosedStays s s₁) (h' : ClosedStays s₁ s') :
    ClosedStays s s' := by
  refine ⟨fun e hc => ?_, fun e hc => ?_⟩
  · obtain ⟨hc₁, hf₁⟩ := h.queues e hc
    obtain ⟨hc₂, hf₂⟩ := h'.queues e hc₁
    exact ⟨hc₂, hf₂ ∘ hf₁⟩
  · obtain ⟨hc₁, hf₁⟩ := h.signalQueues e hc
    obtain ⟨hc₂, hf₂⟩ := h'.signalQueues e hc₁
    exact ⟨hc₂, hf₂ ∘ hf₁⟩

theorem runTask_closedStays (s : State β) (t : CloseTask) : ClosedStays s (s.runTask t) := by
  cases t with
  | closeQueue e m =>
    refine .of_setQueue rfl rfl fun _ => ⟨EdgeQueue.close_closed _ m, fun hf => ?_⟩
    have := (s.queues e).close_frames_sublist m
    rw [hf] at this
    exact List.sublist_nil.mp this
  | closeSignals e m =>
    refine .of_setSignalQueue rfl rfl fun _ => ⟨SignalQueue.close_closed _ m, fun hf => ?_⟩
    cases m with
    | drain => exact hf
    | discard => rfl
  | _ => exact .of_same rfl rfl

theorem workerMove_closedStays {n : NodeId} {call : NodeCall (NodeCallOutput β)} {pc : WorkerPc β}
    {w : Worker β} (h : WorkerMove g o s n w call pc s') : ClosedStays s s' := by
  cases h with
  | callback pc s₀ s' hc hr =>
    cases hr <;> cases hc <;> dsimp only [State.setWorker, State.logged, State.dropSenders] <;>
      exact .of_same rfl rfl
  | popSignal obs off e cursor x xs hp hq =>
    refine .of_setSignalQueue rfl rfl fun hc => ?_
    rcases (s.signalQueues e).tryPop_cases with ⟨hf, -⟩ | ⟨y, ys, -, -, -, hc'⟩
    · simp [hq] at hf
    · exact ⟨hc'.trans hc, fun hf => by simp [hq] at hf⟩
  | popFrame obs off e cursor x xs hp hq =>
    refine .of_setQueue rfl rfl fun hc => ?_
    rcases (s.queues e).tryPop_cases with ⟨hf, -⟩ | ⟨y, ys, -, -, -, hc', -⟩
    · simp [hq] at hf
    · exact ⟨hc'.trans hc, fun hf => by simp [hq] at hf⟩
  | close t ts => exact (runTask_closedStays s t).trans (.of_same rfl rfl)
  | _ =>
    dsimp only [State.setWorker, State.setSlot, State.dropSenders, State.record]
    exact .of_same rfl rfl

/-- A worker uses the channels of its own outgoing edges only. -/
theorem workerMove_channels {n : NodeId} {call : NodeCall (NodeCallOutput β)} {pc : WorkerPc β}
    {w : Worker β} (h : WorkerMove g o s n w call pc s') (hp : pc.Placed g n) {e : EdgeDescriptor}
    (he : e ∉ g.outgoing n) : s'.channels e = s.channels e := by
  have hdrop : ∀ s : State β, (s.dropSenders g n).channels e = s.channels e := fun s => by
    simp [State.dropSenders, he]
  cases h with
  | callback pc s₀ s' hc hr =>
    cases hr with
    | died out d h hs ht ho => cases hc <;> exact hdrop _
    | _ => cases hc <;> rfl
  | putSignals sg e' rest bs hr hs =>
    have hne : e ≠ e' := by
      rintro rfl
      exact he (hp.1.subset List.mem_cons_self)
    simp [hne]
  | tryPut e' b bs pending hr hs =>
    have hne : e ≠ e' := by
      rintro rfl
      exact he (hp.subset (by simp [Batches.edges]))
    simp [hne]
  | putPending e' b bs hr hs =>
    have hne : e ≠ e' := by
      rintro rfl
      exact he (hp.subset (by simp [Batches.edges]))
    simp [hne]
  | close t ts => exact congrFun (runTask_sameThreads s t).channels e
  | leave => exact hdrop _
  | _ => rfl

/-- The channel of an outgoing edge: the worker may fill an empty slot whose receiver is there, and
drops the sender when it leaves. -/
theorem workerMove_channel {n : NodeId} {call : NodeCall (NodeCallOutput β)} {pc : WorkerPc β}
    (h : WorkerMove g o s n (s.workers n) call pc s') {e : EdgeDescriptor}
    (he : e ∈ g.outgoing n) :
    (s'.channels e).receiver = (s.channels e).receiver ∧
    ((s'.channels e).slot = (s.channels e).slot ∨
      (s.channels e).receiver = true ∧ (s.channels e).slot = none) ∧
    ((s.channels e).sender = !pc.left → (s'.channels e).sender = !(s'.workers n).pc.left) := by
  have hdrop : ∀ s : State β, (s.dropSenders g n).channels e =
      { s.channels e with sender := false } := fun s => by simp [State.dropSenders, he]
  have hput : ∀ (e' : EdgeDescriptor) (d : Dispatch β) (pc' : WorkerPc β),
      (s.channels e').receiver = true → (s.channels e').slot = none → pc.left = false →
      pc'.left = false →
      ((s.setSlot e' (some d)).channels e).receiver = (s.channels e).receiver ∧
      (((s.setSlot e' (some d)).channels e).slot = (s.channels e).slot ∨
        (s.channels e).receiver = true ∧ (s.channels e).slot = none) ∧
      ((s.channels e).sender = !pc.left →
        ((s.setSlot e' (some d)).channels e).sender = !pc'.left) := by
    intro e' d pc' hr hs hl hl'
    by_cases hee : e = e'
    · subst hee
      exact ⟨by simp, .inr ⟨hr, hs⟩, fun hsend => by simp [hsend, hl, hl']⟩
    · exact ⟨by simp [hee], .inl (by simp [hee]), fun hsend => by simp [hee, hsend, hl, hl']⟩
  cases h with
  | quiet pc w' h =>
    obtain ⟨hl, hl'⟩ := quiet_left h
    exact ⟨rfl, .inl rfl, fun hsend => by simp [hsend, hl, hl']⟩
  | callback pc s₀ s' hc hr =>
    have hl : pc.left = false := by cases hc <;> rfl
    cases hr with
    | died out d h hs ht ho =>
      have hch : (((s₀.logged n out).dropSenders g n).setWorker n
          { s.workers n with pc := .dead }).channels e = { s.channels e with sender := false } := by
        rw [show s.channels e = s₀.channels e by cases hc <;> rfl]
        exact hdrop _
      rw [hch]
      exact ⟨rfl, .inl rfl, fun _ => by simp [WorkerPc.left]⟩
    | _ =>
      have hch : s₀.channels e = s.channels e := by cases hc <;> rfl
      refine ⟨?_, .inl ?_, fun hsend => ?_⟩
      · exact congrArg Channel.receiver hch
      · exact congrArg Channel.slot hch
      · rw [hl] at hsend
        simpa [WorkerPc.left, State.logged, hch] using hsend
  | putSignals sg e' rest bs hr hs =>
    simpa using hput e' (.signals sg) (.sendSignals sg rest bs) hr hs rfl rfl
  | tryPut e' b bs pending hr hs =>
    simpa using hput e' (.frames b) (.trySend bs pending) hr hs rfl rfl
  | putPending e' b bs hr hs =>
    simpa using hput e' (.frames b) (.sendPending bs) hr hs rfl rfl
  | close t ts =>
    have hch := congrFun (runTask_sameThreads s t).channels e
    refine ⟨congrArg Channel.receiver hch, .inl (congrArg Channel.slot hch), fun hsend => ?_⟩
    simpa [WorkerPc.left, hch] using hsend
  | leave =>
    refine ⟨?_, .inl ?_, fun _ => ?_⟩
    · simp [hdrop]
    · simp [hdrop]
    · simp [hdrop, WorkerPc.left]
  | _ => exact ⟨rfl, .inl rfl, fun hsend => by simpa [WorkerPc.left] using hsend⟩

theorem channelInv_worker {n : NodeId} {call : NodeCall (NodeCallOutput β)} {e : EdgeDescriptor}
    (he : e ∈ g.enabledEdges) (hp : (s.workers n).pc.Placed g n) (hi : ChannelInv s e)
    (h : WorkerMove g o s n (s.workers n) call (s.workers n).pc s') : ChannelInv s' e := by
  have hf := workerMove_frame h
  have hcs := workerMove_closedStays h
  have hd : ∀ f : DispatcherPc β → Bool, (∀ pc, f pc.woken = f pc) →
      f (s'.dispatchers e) = f (s.dispatchers e) := by
    intro f hw
    rcases hf.dispatchers e with hd | hd
    · rw [hd]
    · rw [hd, hw]
  have hhung := hd DispatcherPc.hungUp woken_hungUp
  have hclosed : ((s'.dispatchers e).closedData e = true → (s'.queues e).closed = true) ∧
      ((s'.dispatchers e).closedSignals e = true → (s'.signalQueues e).closed = true) := by
    rw [hd _ (woken_closedData e), hd _ (woken_closedSignals e)]
    exact ⟨fun hc => (hcs.queues e (hi.closedData hc)).1,
      fun hc => (hcs.signalQueues e (hi.closedSignals hc)).1⟩
  by_cases hout : e ∈ g.outgoing n
  · obtain ⟨hrecv, hslot, hsend⟩ := workerMove_channel h hout
    have hn : e.fromNodeId = n := (GraphDefinition.mem_outgoing.mp hout).2
    refine ⟨?_, by rw [hrecv, hhung]; exact hi.receiver, fun hu => ?_, hclosed.1, hclosed.2⟩
    · rw [hn]
      exact hsend (by rw [← hn]; exact hi.sender)
    · rw [hhung] at hu
      rcases hslot with hslot | ⟨hr, -⟩
      · rw [hslot]
        exact hi.slot hu
      · rw [hi.receiver, hu] at hr
        cases hr
  · have hch := workerMove_channels h hp hout
    have hn : e.fromNodeId ≠ n := fun hn => hout (GraphDefinition.mem_outgoing.mpr ⟨he, hn⟩)
    refine ⟨?_, by rw [hch, hhung]; exact hi.receiver, fun hu => ?_, hclosed.1, hclosed.2⟩
    · rw [hch, hf.workers _ hn]
      exact hi.sender
    · rw [hch]
      exact hi.slot (hhung ▸ hu)

theorem pushed_open {e : EdgeDescriptor} {x : Stamped (Frame β)}
    {rest : List (Stamped (Frame β))} (h : Pushed s e x rest s') :
    (s'.dispatchers e).hungUp = false ∧ s'.channels = s.channels := by
  cases h <;> exact ⟨by simp [DispatcherPc.hungUp], rfl⟩

theorem pushed_closedStays {e : EdgeDescriptor} {x : Stamped (Frame β)}
    {rest : List (Stamped (Frame β))} (h : Pushed s e x rest s') : ClosedStays s s' := by
  cases h with
  | closed hc hq => exact .of_setQueue rfl rfl fun hc => by rw [hq]; exact ⟨hc, id⟩
  | enqueued hc _ _ _ | droppedOldest hc _ _ _ | droppedNewest hc _ _ _ | wait hc _ _ _ _
  | overflow hc _ _ _ => exact .of_setQueue rfl rfl fun hc' => by simp [hc] at hc'

variable [DecidableEq β]

theorem dispatcherMove_closedStays {e : EdgeDescriptor} {answers : PolicyAnswers β}
    {pc : DispatcherPc β} (h : DispatcherMove g o s e answers pc s') : ClosedStays s s' := by
  have hsame : ∀ {q : EdgeQueue (Stamped (Frame β))}, SameFrames (s.queues e) q →
      (s.queues e).closed = true → q.closed = true ∧ ((s.queues e).frames = [] → q.frames = []) :=
    fun hq hc => ⟨hq.closed.trans hc, fun hf => hq.frames.trans hf⟩
  have hobserved : ∀ {r q}, observeSignal e answers.onSignal (s.queues e) = (r, q) →
      ClosedStays s (s.setQueue e q) := fun hq => .of_setQueue rfl rfl (hsame (.of_observeSignal hq))
  cases h with
  | rejected x rest r q h | settled x rest q h =>
    dsimp only [State.setDispatcher, State.setQueue, State.applying]
    exact .of_setQueue rfl rfl (hsame (.of_applyEdge h))
  | delivered x rest f q s' h hp =>
    have hq : ClosedStays s ((s.applying e x answers).setQueue e q) :=
      .of_setQueue rfl rfl (hsame (.of_applyEdge h))
    exact hq.trans (pushed_closedStays hp)
  | repush x rest s' hp => exact pushed_closedStays hp
  | signalRejected x rest r q h => exact (hobserved h).trans (.of_same rfl rfl)
  | signalRefused x rest err q h hq hc =>
    exact (hobserved h).trans (.of_setSignalQueue rfl rfl fun hc' =>
      ⟨hc.trans hc', fun hf => hq.trans hf⟩)
  | signalPushed x rest q h hc hq hc' =>
    exact (hobserved h).trans (.of_setSignalQueue rfl rfl fun hc'' => by simp [hc] at hc'')
  | close t ts signal => exact (runTask_closedStays s t).trans (.of_same rfl rfl)
  | shutdown t ts => exact (runTask_closedStays s t).trans (.of_same rfl rfl)
  | _ =>
    dsimp only [State.setDispatcher, State.setSlot, State.notify]
    exact .of_same rfl rfl

/-- Only an edge's own dispatcher takes from its channel. -/
theorem dispatcherMove_channels {e e' : EdgeDescriptor} {answers : PolicyAnswers β}
    {pc : DispatcherPc β} (h : DispatcherMove g o s e answers pc s') (he : e' ≠ e) :
    s'.channels e' = s.channels e' := by
  cases h with
  | delivered x rest f q s' h hp => cases hp <;> rfl
  | repush x rest s' hp => cases hp <;> rfl
  | recvFrames batch h => simp [he]
  | recvSignals signals h => simp [he]
  | close t ts signal => exact congrFun (runTask_sameThreads s t).channels e'
  | hangUp => simp [he]
  | shutdown t ts => exact congrFun (runTask_sameThreads s t).channels e'
  | _ => rfl

theorem channelInv_dispatcher {e : EdgeDescriptor} {answers : PolicyAnswers β}
    (hi : ChannelInv s e) (h : DispatcherMove g o s e answers (s.dispatchers e) s') :
    ChannelInv s' e := by
  have hf := dispatcherMove_frame h
  have hcs := dispatcherMove_closedStays h
  -- a dispatcher that has not hung up owes nothing about slot and queues
  have hopen : (s'.dispatchers e).hungUp = false → (s.dispatchers e).hungUp = false →
      (s'.channels e).sender = (s.channels e).sender →
      (s'.channels e).receiver = (s.channels e).receiver → ChannelInv s' e := by
    intro hu' hu hsend hrecv
    have hdata : (s'.dispatchers e).closedData e = false := by
      cases hpc : s'.dispatchers e <;> simp_all [DispatcherPc.hungUp, DispatcherPc.closedData]
    have hsig : (s'.dispatchers e).closedSignals e = false := by
      cases hpc : s'.dispatchers e <;> simp_all [DispatcherPc.hungUp, DispatcherPc.closedSignals]
    refine ⟨?_, ?_, fun hc => by simp [hu'] at hc, fun hc => by simp [hdata] at hc,
      fun hc => by simp [hsig] at hc⟩
    · rw [hsend, hf.workers]
      exact hi.sender
    · rw [hrecv, hi.receiver, hu, hu']
  generalize hpc : s.dispatchers e = pc at h
  have hsend := hi.sender
  cases h with
  | delivered x rest f q s' h hp =>
    obtain ⟨hu, hch⟩ := pushed_open hp
    have hch' : s'.channels e = s.channels e := congrFun hch e
    exact hopen hu (by rw [hpc]; rfl) (by rw [hch']) (by rw [hch'])
  | repush x rest s' hp =>
    obtain ⟨hu, hch⟩ := pushed_open hp
    exact hopen hu (by rw [hpc]; rfl) (by rw [hch]) (by rw [hch])
  | recvFrames batch h =>
    exact hopen (by simp [DispatcherPc.hungUp]) (by rw [hpc]; rfl) (by simp) (by simp)
  | recvSignals signals h =>
    exact hopen (by simp [DispatcherPc.hungUp]) (by rw [hpc]; rfl) (by simp) (by simp)
  | ack failed =>
    refine hopen ?_ (by rw [hpc]; rfl) rfl rfl
    cases failed <;> simp [DispatcherPc.hungUp]
  | lost r signal h =>
    refine hopen ?_ (by rw [hpc]; rfl) rfl rfl
    cases signal <;> simp [DispatcherPc.hungUp, DispatcherPc.afterFail]
  | closed signal =>
    refine hopen ?_ (by rw [hpc]; rfl) rfl rfl
    cases signal <;> simp [DispatcherPc.hungUp, DispatcherPc.afterFail]
  | close t ts signal =>
    have ht := congrFun (runTask_sameThreads s t).channels e
    exact hopen (by simp [DispatcherPc.hungUp]) (by rw [hpc]; rfl) (congrArg Channel.sender ht)
      (congrArg Channel.receiver ht)
  | hangUp =>
    refine ⟨by simpa using hsend, by simp [DispatcherPc.hungUp], fun _ => by simp, fun hc => ?_,
      fun hc => ?_⟩
    · simp [DispatcherPc.closedData] at hc
    · simp [DispatcherPc.closedSignals] at hc
  | shutdown t ts =>
    have ht := runTask_sameThreads s t
    have hch := congrFun ht.channels e
    refine ⟨?_, ?_, fun _ => ?_, fun hc => ?_, fun hc => ?_⟩
    · simpa [hch, ht.workers] using hsend
    · simpa [hch, hpc, DispatcherPc.hungUp] using hi.receiver
    · simpa [hch] using hi.slot (by rw [hpc]; rfl)
    · simp only [State.setDispatcher, Function.update_self, DispatcherPc.closedData,
        decide_eq_true_eq] at hc
      by_cases htask : t = .closeQueue e .drain
      · subst htask
        simp [State.runTask]
      · refine ((runTask_closedStays s t).queues e (hi.closedData ?_)).1
        simp [hpc, DispatcherPc.closedData, hc, Ne.symm htask]
    · simp only [State.setDispatcher, Function.update_self, DispatcherPc.closedSignals,
        decide_eq_true_eq] at hc
      by_cases htask : t = .closeSignals e .drain
      · subst htask
        simp [State.runTask]
      · refine ((runTask_closedStays s t).signalQueues e (hi.closedSignals ?_)).1
        simp [hpc, DispatcherPc.closedSignals, hc, Ne.symm htask]
  | shutdownDone =>
    exact ⟨hsend, by simpa [hpc, DispatcherPc.hungUp] using hi.receiver,
      fun _ => hi.slot (by rw [hpc]; rfl),
      fun _ => hi.closedData (by simp [hpc, DispatcherPc.closedData]),
      fun _ => hi.closedSignals (by simp [hpc, DispatcherPc.closedSignals])⟩
  | exit =>
    exact ⟨hsend, by simpa [hpc, DispatcherPc.hungUp] using hi.receiver,
      fun _ => hi.slot (by rw [hpc]; rfl),
      fun _ => hi.closedData (by simp [hpc, DispatcherPc.closedData]),
      fun _ => hi.closedSignals (by simp [hpc, DispatcherPc.closedSignals])⟩
  | _ => exact hopen (by simp [DispatcherPc.hungUp]) (by rw [hpc]; rfl) rfl rfl

omit [DecidableEq β] in
/-- Steps of other threads on the channel and queues of `e`. -/
theorem ChannelInv.of_frame {e : EdgeDescriptor} (hi : ChannelInv s e)
    (hw : s'.workers = s.workers) (hch : s'.channels e = s.channels e)
    (hd : s'.dispatchers e = s.dispatchers e ∨ s'.dispatchers e = (s.dispatchers e).woken)
    (hcs : ClosedStays s s') : ChannelInv s' e := by
  have hpc : (s'.dispatchers e).hungUp = (s.dispatchers e).hungUp ∧
      (s'.dispatchers e).closedData e = (s.dispatchers e).closedData e ∧
      (s'.dispatchers e).closedSignals e = (s.dispatchers e).closedSignals e := by
    rcases hd with hd | hd <;> simp [hd]
  refine ⟨by rw [hch, hw]; exact hi.sender, by rw [hch, hpc.1]; exact hi.receiver, ?_, ?_, ?_⟩
  · rw [hpc.1, hch]
    exact hi.slot
  · rw [hpc.2.1]
    exact fun hc => (hcs.queues e (hi.closedData hc)).1
  · rw [hpc.2.2]
    exact fun hc => (hcs.signalQueues e (hi.closedSignals hc)).1

theorem closedStays_step {a : Label β} (h : s.step g o a = some s') : ClosedStays s s' := by
  cases a with
  | worker n call =>
    simp only [State.step] at h
    split_ifs at h
    exact workerMove_closedStays (workerStep_move h)
  | dispatcher e answers =>
    simp only [State.step] at h
    split_ifs at h
    exact dispatcherMove_closedStays (dispatcherStep_move h)
  | stopBegin => cases h; exact .of_same rfl rfl
  | stop i =>
    rcases stopStep_cases h with ⟨-, -, rfl⟩ | ⟨-, -, rfl⟩ | ⟨-, rfl⟩ | ⟨t, ts, -, rfl⟩
    · exact .of_same rfl rfl
    · exact .of_same rfl rfl
    · exact .of_same rfl rfl
    · exact (runTask_closedStays s t).trans (.of_same rfl rfl)
  | coordinator call =>
    rcases coordinatorStep_cases h with ⟨t, ts, -, rfl⟩ | ⟨k, c, exits, trace, rfl, -⟩
    · exact (runTask_closedStays s t).trans (.of_same rfl rfl)
    · exact .of_same rfl rfl
  | tick d => cases h; exact .of_same rfl rfl

theorem channelInv {C : State β → Label β → Prop} (hr : (system g o).ReachableBy C s)
    {e : EdgeDescriptor} (he : e ∈ g.enabledEdges) : ChannelInv s e := by
  refine hr.invariant (I := fun s => ChannelInv s e) (fun s h => ?_) (fun s a s' hr hi _ h => ?_)
  · rw [show s = State.initial g o from h]
    exact ⟨rfl, rfl, by simp [State.initial, DispatcherPc.hungUp],
      by simp [State.initial, DispatcherPc.closedData],
      by simp [State.initial, DispatcherPc.closedSignals]⟩
  · have hcs := closedStays_step h
    cases a with
    | worker n call =>
      simp only [system, State.step] at h
      split_ifs at h
      exact channelInv_worker he ((placeInv hr).workers n) hi (workerStep_move h)
    | dispatcher e' answers =>
      simp only [system, State.step] at h
      split_ifs at h
      have hm := dispatcherStep_move h
      by_cases hee : e = e'
      · subst hee
        exact channelInv_dispatcher hi hm
      · have hf := dispatcherMove_frame hm
        exact hi.of_frame hf.workers (dispatcherMove_channels hm hee) (hf.dispatchers e hee) hcs
    | stopBegin => cases h; exact hi.of_frame rfl rfl (.inl rfl) hcs
    | stop i =>
      rcases stopStep_cases h with ⟨-, -, rfl⟩ | ⟨-, -, rfl⟩ | ⟨-, rfl⟩ | ⟨t, ts, -, rfl⟩
      · exact hi.of_frame rfl rfl (.inl rfl) hcs
      · exact hi.of_frame rfl rfl (.inl rfl) hcs
      · exact hi.of_frame rfl rfl (.inl rfl) hcs
      · have ht := runTask_sameThreads s t
        exact hi.of_frame ht.workers (congrFun ht.channels e) (ht.dispatchers e) hcs
    | coordinator call =>
      rcases coordinatorStep_cases h with ⟨t, ts, -, rfl⟩ | ⟨k, c, exits, trace, rfl, -⟩
      · have ht := runTask_sameThreads s t
        exact hi.of_frame ht.workers (congrFun ht.channels e) (ht.dispatchers e) hcs
      · exact hi.of_frame rfl rfl (.inl rfl) hcs
    | tick d => cases h; exact hi.of_frame rfl rfl (.inl rfl) hcs

omit [DecidableEq β] in
theorem runTask_bounds (s : State β) (t : CloseTask) (e : EdgeDescriptor) :
    ((s.runTask t).queues e).capacity = (s.queues e).capacity ∧
      ((s.runTask t).queues e).overflow = (s.queues e).overflow := by
  cases t with
  | closeQueue e' m =>
    by_cases he : e = e'
    · subst he
      simp [State.runTask]
    · simp [State.runTask, he]
  | _ => exact ⟨rfl, rfl⟩

omit [DecidableEq β] in
theorem pushed_bounds {e : EdgeDescriptor} {x : Stamped (Frame β)}
    {rest : List (Stamped (Frame β))} (h : Pushed s e x rest s') (e' : EdgeDescriptor) :
    (s'.queues e').capacity = (s.queues e').capacity ∧
      (s'.queues e').overflow = (s.queues e').overflow := by
  have hpush := (s.queues e).push_bounds x
  by_cases he : e' = e
  · subst he
    cases h <;> simpa using hpush
  · cases h <;> simp [he]

omit [DecidableEq β] in
theorem workerMove_bounds {n : NodeId} {call : NodeCall (NodeCallOutput β)} {pc : WorkerPc β}
    {w : Worker β} (h : WorkerMove g o s n w call pc s') (e : EdgeDescriptor) :
    (s'.queues e).capacity = (s.queues e).capacity ∧
      (s'.queues e).overflow = (s.queues e).overflow := by
  cases h with
  | callback pc s₀ s' hc hr => cases hr <;> cases hc <;> exact ⟨rfl, rfl⟩
  | popFrame obs off e' cursor x xs hp hq =>
    by_cases he : e = e'
    · subst he
      simp [EdgeQueue.tryPop, hq]
    · simp [he]
  | close t ts => exact runTask_bounds s t e
  | _ => exact ⟨rfl, rfl⟩

theorem dispatcherMove_bounds {e : EdgeDescriptor} {answers : PolicyAnswers β}
    {pc : DispatcherPc β} (h : DispatcherMove g o s e answers pc s') (e' : EdgeDescriptor) :
    (s'.queues e').capacity = (s.queues e').capacity ∧
      (s'.queues e').overflow = (s.queues e').overflow := by
  have hset : ∀ {q : EdgeQueue (Stamped (Frame β))}, SameFrames (s.queues e) q →
      (Function.update s.queues e q e').capacity = (s.queues e').capacity ∧
        (Function.update s.queues e q e').overflow = (s.queues e').overflow := by
    intro q hq
    by_cases he : e' = e
    · subst he
      simpa using ⟨hq.capacity, hq.overflow⟩
    · simp [he]
  cases h with
  | rejected x rest r q h => exact hset (.of_applyEdge h)
  | settled x rest q h => exact hset (.of_applyEdge h)
  | delivered x rest f q s' h hp =>
    have hpush := pushed_bounds hp e'
    have hq := hset (.of_applyEdge h)
    exact ⟨hpush.1.trans hq.1, hpush.2.trans hq.2⟩
  | repush x rest s' hp => exact pushed_bounds hp e'
  | signalRejected x rest r q h => exact hset (.of_observeSignal h)
  | signalRefused x rest err q h hq hc => exact hset (.of_observeSignal h)
  | signalPushed x rest q h hc hq hc' => exact hset (.of_observeSignal h)
  | close t ts signal => exact runTask_bounds s t e'
  | shutdown t ts => exact runTask_bounds s t e'
  | _ => exact ⟨rfl, rfl⟩

/-- A queue keeps the capacity and the overflow policy of its edge. -/
theorem boundsInv {C : State β → Label β → Prop} (hr : (system g o).ReachableBy C s)
    (e : EdgeDescriptor) : (s.queues e).capacity = e.queuePolicy.capacity ∧
      (s.queues e).overflow = e.queuePolicy.overflow := by
  refine hr.invariant (I := fun s => (s.queues e).capacity = e.queuePolicy.capacity ∧
    (s.queues e).overflow = e.queuePolicy.overflow) (fun s h => ?_) (fun s a s' _ hi _ h => ?_)
  · rw [show s = State.initial g o from h]
    simp only [State.initial]
    split_ifs <;> exact ⟨rfl, rfl⟩
  · have hkeep : (s'.queues e).capacity = (s.queues e).capacity ∧
        (s'.queues e).overflow = (s.queues e).overflow → (s'.queues e).capacity =
        e.queuePolicy.capacity ∧ (s'.queues e).overflow = e.queuePolicy.overflow :=
      fun hk => ⟨hk.1.trans hi.1, hk.2.trans hi.2⟩
    cases a with
    | worker n call =>
      simp only [system, State.step] at h
      split_ifs at h
      exact hkeep (workerMove_bounds (workerStep_move h) e)
    | dispatcher e' answers =>
      simp only [system, State.step] at h
      split_ifs at h
      exact hkeep (dispatcherMove_bounds (dispatcherStep_move h) e)
    | stopBegin => cases h; exact hi
    | stop i =>
      rcases stopStep_cases h with ⟨-, -, rfl⟩ | ⟨-, -, rfl⟩ | ⟨-, rfl⟩ | ⟨t, ts, -, rfl⟩
      · exact hi
      · exact hi
      · exact hi
      · exact hkeep (runTask_bounds s t e)
    | coordinator call =>
      rcases coordinatorStep_cases h with ⟨t, ts, -, rfl⟩ | ⟨k, c, exits, trace, rfl, -⟩
      · exact hkeep (runTask_bounds s t e)
      · exact hi
    | tick d => cases h; exact hi

/-- Both queues of an edge are closed and empty. -/
def Drained (s : State β) (e : EdgeDescriptor) : Prop :=
  (s.queues e).isClosedAndEmpty = true ∧ (s.signalQueues e).isClosedAndEmpty = true

omit [DecidableEq β] in
theorem ClosedStays.queue_drained (h : ClosedStays s s') {e : EdgeDescriptor}
    (hd : (s.queues e).isClosedAndEmpty = true) : (s'.queues e).isClosedAndEmpty = true := by
  simp only [EdgeQueue.isClosedAndEmpty, Bool.and_eq_true, List.isEmpty_iff] at hd ⊢
  obtain ⟨hc, hf⟩ := h.queues e hd.1
  exact ⟨hc, hf hd.2⟩

omit [DecidableEq β] in
theorem ClosedStays.signals_drained (h : ClosedStays s s') {e : EdgeDescriptor}
    (hd : (s.signalQueues e).isClosedAndEmpty = true) :
    (s'.signalQueues e).isClosedAndEmpty = true := by
  simp only [SignalQueue.isClosedAndEmpty, Bool.and_eq_true, List.isEmpty_iff] at hd ⊢
  obtain ⟨hc, hf⟩ := h.signalQueues e hd.1
  exact ⟨hc, hf hd.2⟩

omit [DecidableEq β] in
theorem ClosedStays.drained (h : ClosedStays s s') {e : EdgeDescriptor} (hd : Drained s e) :
    Drained s' e := ⟨h.queue_drained hd.1, h.signals_drained hd.2⟩

/-- What a consumer on its way out has seen. -/
def DrainedAt (g : GraphDefinition) (s : State β) (n : NodeId) : WorkerPc β → Prop
  | .checkQueue _ rest => ∀ e ∈ g.incoming n, e ∉ rest → Drained s e
  | .checkSignals _ e rest => (s.queues e).isClosedAndEmpty = true ∧
      ∀ e' ∈ g.incoming n, e' ∉ e :: rest → Drained s e'
  | .checkStop _ => ∀ e ∈ g.incoming n, Drained s e
  | .leave | .exit | .exited => s.control.reason.isSome = true ∨ ∀ e ∈ g.incoming n, Drained s e
  | _ => True

omit [DecidableEq β] in
theorem DrainedAt.mono {n : NodeId} {pc : WorkerPc β} (h : DrainedAt g s n pc)
    (hcs : ClosedStays s s')
    (hr : s.control.reason.isSome = true → s'.control.reason.isSome = true) :
    DrainedAt g s' n pc := by
  have hall : (∀ e ∈ g.incoming n, Drained s e) → ∀ e ∈ g.incoming n, Drained s' e :=
    fun h e he => hcs.drained (h e he)
  cases pc with
  | checkQueue obs rest => exact fun e he hn => hcs.drained (h e he hn)
  | checkSignals obs e rest =>
    exact ⟨hcs.queue_drained h.1, fun e' he' hn => hcs.drained (h.2 e' he' hn)⟩
  | checkStop obs => exact hall h
  | leave => exact h.imp hr hall
  | exit => exact h.imp hr hall
  | exited => exact h.imp hr hall
  | _ => trivial

omit [DecidableEq β] in
/-- `fail_graph` returns with a reason installed while the coordinator collects. -/
theorem reason_of_lost (hopen : s.control.successSealed = false ∧ s.control.result = none)
    {r : AbortReason} (h : (s.control.requestAbort r).1 = false) :
    s.control.reason.isSome = true := by
  by_contra hn
  simp only [Bool.not_eq_true, Option.isSome_eq_false_iff, Option.isNone_iff_eq_none] at hn
  simp [ControlState.requestAbort, hn, hopen.1, hopen.2] at h

omit [DecidableEq β] in
theorem control_open {p : CoordPhase} {summary : ConcurrentRunSummary}
    (hc : ControlInv summary s.control p) (hp : p ≠ .publishing) (hd : p ≠ .done) :
    s.control.successSealed = false ∧ s.control.result = none := by
  refine ⟨?_, (hc.unpublished hd).1⟩
  by_contra hs
  rcases (hc.sealed (by simpa using hs)).2 with rfl | rfl
  · exact hp rfl
  · exact hd rfl

omit [DecidableEq β] in
theorem quiet_drainedAt {n : NodeId} {w w' : Worker β} (h : Quiet g s n w w.pc w')
    (hopen : s.control.successSealed = false ∧ s.control.result = none)
    (hc : ClosingInv s) (hw : s.workers n = w) (hl : LifecycleInv g s)
    (hd : DrainedAt g s n w.pc) : DrainedAt g s n w'.pc := by
  generalize hpc : w.pc = pc at h hd
  have hcancel : s.cancelled = true → s.control.reason.isSome = true := hc.cancelled
  cases h with
  | skip h =>
    left
    rcases h with hp | ⟨-, hcan⟩
    · exact hl.refused n (by rw [hw]; exact hp) (by rw [hw, hpc]; rfl) (by rw [hw, hpc]; simp)
    · exact hcancel hcan
  | waitCancelled deadline h => exact .inl (hcancel h)
  | framesPolled obs off h => exact fun e he hn => absurd he hn
  | checked obs => exact fun e he => hd e he (by simp)
  | queueDone obs e rest h => exact ⟨h, hd⟩
  | signalsDone obs e rest h =>
    intro e' he' hn
    by_cases hee : e' = e
    · subst hee
      exact ⟨hd.1, h⟩
    · exact hd.2 e' he' (by simp [hee, hn])
  | drained obs h => exact .inr hd
  | sent =>
    unfold State.routed
    split_ifs with hsrc
    · cases w.delay with
      | none => exact .inr (by simp [GraphDefinition.incoming_source hsrc])
      | some d => trivial
    · trivial
  | lost r h =>
    unfold Worker.failed
    split_ifs
    · exact .inl (reason_of_lost hopen h)
    · trivial
  | closed =>
    unfold Worker.failed
    split_ifs
    · exact .inl (hc.workers n [] (by rw [hw, hpc]))
    · trivial
  | _ => trivial

/-- A worker that leaves has drained its incoming edges, unless the graph failed. -/
theorem drainInv (hr : (system g o).ReachableBy (TicksFit g o) s) (n : NodeId) :
    DrainedAt g s n (s.workers n).pc := by
  refine hr.invariant (I := fun s => ∀ n, DrainedAt g s n (s.workers n).pc) (fun s h => ?_)
    (fun s a s' hr hi _ h => ?_) n
  · rw [show s = State.initial g o from h]
    exact fun _ => trivial
  · have hcs := closedStays_step h
    have hmono : s.control.reason.isSome = true → s'.control.reason.isSome = true := by
      intro hs
      obtain ⟨r, hr'⟩ := Option.isSome_iff_exists.mp hs
      rw [step_reason h hr']
      rfl
    rcases step_workers h with hw | ⟨m, call, -, hm, hstep⟩
    · rw [hw]
      exact fun n => (hi n).mono hcs hmono
    · intro n
      have hmove := workerStep_move hstep
      by_cases hnm : n = m
      · subst hnm
        have hcollect := collecting_of_move hm (exitInv hr) hmove
        have hopen : s.control.successSealed = false ∧ s.control.result = none :=
          control_open (controlInv hr) (by simp [hcollect, CoordinatorPc.phase])
            (by simp [hcollect, CoordinatorPc.phase])
        have hd := hi n
        generalize hpc : (s.workers n).pc = pc at hmove hd
        cases hmove with
        | quiet pc w' hq =>
          rw [← hpc] at hq hd
          have := quiet_drainedAt hq hopen (closingInv hr) rfl (lifecycleInv hr) hd
          simpa using this.mono hcs hmono
        | callback pc s₀ s' hc hret => cases hret <;> simp [DrainedAt]
        | leave => simpa [DrainedAt] using (show DrainedAt g s n .exit from hd).mono hcs hmono
        | exit => simpa [DrainedAt] using (show DrainedAt g s n .exited from hd).mono hcs hmono
        | _ => simp [DrainedAt]
      · rw [(workerMove_frame hmove).workers n hnm]
        exact (hi n).mono hcs hmono

end Muxiva.Runtime
