import Muxiva.Kahn.Network
import Muxiva.Runtime.Delivery

/-! Clean runs of the concurrent runtime whose nodes emit no signals and ask for no ticks: the
threads never come to handle either, a worker that starts its loop is prepared, a dispatcher hangs
up only on a worker that has left, and queues are open until then. -/
set_option linter.all false
namespace Muxiva.Kahn

open Muxiva.Runtime

variable {ν π β : Type} {g : GraphDefinition} {o : RuntimeOptions} {s s' : State β}

/-- A worker that neither fails nor handles signals or ticks. -/
def plainWorker : WorkerPc β → Bool
  | .sourceWait _ | .onSignal .. | .onTick | .sendSignals .. | .awaitAcks .. | .checkReason _
  | .dead => false
  | pc => !pc.failing

/-- A dispatcher that handles no signals. -/
def plainDispatcher : DispatcherPc β → Bool
  | .signals _ | .notifySignal _ | .ack _ => false
  | _ => true

@[simp] theorem woken_plain (pc : DispatcherPc β) : plainDispatcher pc.woken = plainDispatcher pc := by
  cases pc <;> rfl

structure PlainInv (s : State β) : Prop where
  workers : ∀ n, plainWorker (s.workers n).pc = true
  nextTick : ∀ n, (s.workers n).nextTick = none
  delay : ∀ n, (s.workers n).delay = none
  dispatchers : ∀ e, plainDispatcher (s.dispatchers e) = true
  slots : ∀ e signals, (s.channels e).slot ≠ some (.signals signals)
  signalQueues : ∀ e, (s.signalQueues e).queue = []
  outputs : ∀ n, ∀ out ∈ s.log.outputs n, out.signals = []

/-- The callbacks of a label are plain. -/
def PlainLabel : Label β → Prop
  | .worker _ call => Plain call
  | _ => True

theorem result_of_plain {call : NodeCall (NodeCallOutput β)} (hc : Plain call) {n : NodeId}
    {budget : ℕ} {stage : AbortStage} {out : NodeCallOutput β}
    (h : call.result n budget stage = .ok out) :
    call.outcome = .ok out ∧ out.signals = [] ∧ out.nextTick = none := by
  unfold NodeCall.result at h
  rw [if_neg (by simp [hc.overflowed])] at h
  cases hout : call.outcome with
  | ok value =>
    rw [hout] at h
    cases h
    exact ⟨rfl, hc.signals _ hout, hc.nextTick _ hout⟩
  | error e =>
    rw [hout] at h
    cases h
  | panicked m =>
    rw [hout] at h
    cases h

theorem quiet_plain {n : NodeId} {w w' : Worker β} (h : Quiet g s n w w.pc w')
    (hp : plainWorker w.pc = true) (ht : w.nextTick = none) (hd : w.delay = none)
    (hf : w'.pc.failing = false) :
    plainWorker w'.pc = true ∧ w'.nextTick = none ∧ w'.delay = none := by
  generalize hpc : w.pc = pc at h hp
  cases h with
  | tickDue obs h => simp [ht] at h
  | sent =>
    unfold State.routed
    split_ifs
    · simp [hd, ht, plainWorker, WorkerPc.failing]
    · exact ⟨rfl, ht, hd⟩
  | tryRefused | pendingRefused => cases hf
  | lost | closed | dispatchClosed | waitOver | waitCancelled | signalsSent | signalsRefused | acked
  | ackLost | reasonSeen | noReason => cases hp
  | _ => exact ⟨rfl, ht, hd⟩

/-- What a plain callback that does not fail leaves: its batches are to be sent. -/
theorem returned_plain {n : NodeId} {w : Worker β} {call : NodeCall (NodeCallOutput β)}
    (hc : Plain call) (h : Returned g o s n w call s') (hd : w.delay = none) (hf : (s'.workers n).pc.failing = false) :
    ∃ out, call.outcome = .ok out ∧ out.signals = [] ∧
      routeError g n out.emissions = none ∧
      s' = (s.logged n out).setWorker n { w with
        pc := .trySend (batches g n (s.log.outputs n).length out.emissions) [] } := by
  have hnoted : ∀ {out tick delay}, out.nextTick = none → Noted g s n w out tick delay →
      tick = w.nextTick ∧ delay = w.delay := by
    intro out tick delay hnone hn
    cases hs : g.isSource n with
    | true =>
      obtain ⟨htick, hdelay⟩ := hn.source hs
      exact ⟨htick, by rw [hdelay, hnone, hd]⟩
    | false =>
      obtain ⟨hdelay, htick⟩ := hn.consumer hs
      exact ⟨by rw [htick, hnone]; rfl, hdelay⟩
  cases h with
  | failed r h => simp [WorkerPc.failing] at hf
  | died out d h hs htick ho =>
    obtain ⟨-, -, hnone⟩ := result_of_plain hc h
    rw [hnone] at htick
    cases htick
  | rejected out tick delay r h ht hr => simp [WorkerPc.failing] at hf
  | frames out tick delay h hn hr hs =>
    obtain ⟨hout, hsig, hnone⟩ := result_of_plain hc h
    obtain ⟨rfl, rfl⟩ := hnoted hnone hn
    exact ⟨out, hout, hsig, hr, rfl⟩
  | signals out tick delay h hn hr hs =>
    obtain ⟨-, hsig, -⟩ := result_of_plain hc h
    exact absurd hsig hs

/-- Consuming an input leaves the outputs and what is between the threads alone. -/
theorem consumed_outputs {n : NodeId} {pc : WorkerPc β} (h : Consumed s n pc s') :
    pc.inCall = true ∧ s'.log.outputs = s.log.outputs ∧ s'.signalQueues = s.signalQueues ∧
      s'.channels = s.channels ∧ s'.queues = s.queues ∧ s'.generation = s.generation := by
  cases h <;> exact ⟨rfl, rfl, rfl, rfl, rfl, rfl⟩

theorem plainInv_worker {n : NodeId} {call : NodeCall (NodeCallOutput β)} (hc : Plain call)
    (hi : PlainInv s) (h : WorkerMove g o s n (s.workers n) call (s.workers n).pc s')
    (hf : (s'.workers n).pc.failing = false) : PlainInv s' := by
  have hframe := workerMove_frame h
  have hdispatchers : ∀ e, plainDispatcher (s'.dispatchers e) = true := by
    intro e
    rcases hframe.dispatchers e with hd | hd
    · rw [hd]
      exact hi.dispatchers e
    · rw [hd, woken_plain]
      exact hi.dispatchers e
  have hpart : ∀ {w' : Worker β}, s'.workers = Function.update s.workers n w' →
      plainWorker w'.pc = true ∧ w'.nextTick = none ∧ w'.delay = none →
      s'.signalQueues = s.signalQueues →
      (∀ e signals, (s'.channels e).slot ≠ some (.signals signals)) →
      (∀ m, ∀ out ∈ s'.log.outputs m, out.signals = []) → PlainInv s' := by
    intro w' hw hplain hsq hslots hout
    have hall : ∀ m, plainWorker (s'.workers m).pc = true ∧ (s'.workers m).nextTick = none ∧
        (s'.workers m).delay = none := by
      intro m
      by_cases hm : m = n
      · subst hm
        simpa [hw] using hplain
      · rw [hframe.workers m hm]
        exact ⟨hi.workers m, hi.nextTick m, hi.delay m⟩
    exact ⟨fun m => (hall m).1, fun m => (hall m).2.1, fun m => (hall m).2.2, hdispatchers, hslots,
      by rw [hsq]; exact hi.signalQueues, hout⟩
  have hput : ∀ e b, ∀ e' signals,
      ((s.setSlot e (some (.frames b))).channels e').slot ≠ some (.signals signals) := by
    intro e b e' signals
    by_cases he : e' = e
    · subst he
      simp
    · simpa [he] using hi.slots e' signals
  have hplain := hi.workers n
  have htick := hi.nextTick n
  have hdelay := hi.delay n
  generalize hpc : (s.workers n).pc = pc at h hplain
  cases h with
  | quiet pc w' hq =>
    rw [← hpc] at hq hplain
    exact hpart rfl (quiet_plain hq hplain htick hdelay (by simpa using hf)) rfl hi.slots hi.outputs
  | prepared out h | arrived | running | exit =>
    exact hpart rfl ⟨rfl, htick, hdelay⟩ rfl hi.slots hi.outputs
  | notPrepared r h => simp [WorkerPc.failing] at hf
  | callback pc s₀ s' hcons hr =>
    obtain ⟨hworkers, -⟩ := consumed_threads hcons
    obtain ⟨out, -, hsig, -, rfl⟩ := returned_plain hc hr hdelay hf
    obtain ⟨-, hout, hsq, hch, -⟩ := consumed_outputs hcons
    refine hpart (congrArg (Function.update · n _) hworkers) ⟨rfl, htick, hdelay⟩ hsq ?_ ?_
    · simpa [State.logged, hch] using hi.slots
    · intro m x hx
      by_cases hm : m = n
      · subst hm
        simp only [State.setWorker, State.logged, hout, Function.update_self, List.mem_append,
          List.mem_singleton] at hx
        rcases hx with hx | rfl
        · exact hi.outputs m x hx
        · exact hsig
      · simp only [State.setWorker, State.logged, hout, Function.update_of_ne hm] at hx
        exact hi.outputs m x hx
  | popSignal obs off e cursor x xs hp hq =>
    rw [hi.signalQueues e] at hq
    cases hq
  | popFrame obs off e cursor x xs hp hq =>
    exact hpart rfl ⟨rfl, htick, hdelay⟩ rfl hi.slots hi.outputs
  | putSignals | takeAck | won | close => cases hplain
  | tryPut e b bs pending hr hs =>
    exact hpart rfl ⟨rfl, htick, hdelay⟩ rfl (hput e b) hi.outputs
  | putPending e b bs hr hs =>
    exact hpart rfl ⟨rfl, htick, hdelay⟩ rfl (hput e b) hi.outputs
  | leave =>
    refine hpart rfl ⟨rfl, htick, hdelay⟩ rfl (fun e signals => ?_) hi.outputs
    have hslot := hi.slots e signals
    simp only [State.setWorker, State.dropSenders]
    split_ifs <;> exact hslot

variable [DecidableEq β]

theorem plainInv_dispatcher {e : EdgeDescriptor} {answers : PolicyAnswers β} (hi : PlainInv s)
    (hp : (s.dispatchers e).Placed e) (hclean : (s.dispatchers e).failing = false)
    (h : DispatcherMove g o s e answers (s.dispatchers e) s') : PlainInv s' := by
  have hframe := dispatcherMove_frame h
  have hplain := hi.dispatchers e
  have hpart : plainDispatcher (s'.dispatchers e) = true →
      (∀ e' signals, (s'.channels e').slot ≠ some (.signals signals)) →
      (∀ e', (s'.signalQueues e').queue = []) → PlainInv s' := by
    intro hplain' hslots hsq
    refine ⟨by rw [hframe.workers]; exact hi.workers, by rw [hframe.workers]; exact hi.nextTick,
      by rw [hframe.workers]; exact hi.delay, fun e' => ?_, hslots, hsq,
      by rw [hframe.outputs]; exact hi.outputs⟩
    by_cases he : e' = e
    · subst he
      exact hplain'
    · rcases hframe.dispatchers e' he with hd | hd
      · rw [hd]
        exact hi.dispatchers e'
      · rw [hd, woken_plain]
        exact hi.dispatchers e'
  have hempty : ∀ e' signals,
      ((s.setSlot e none).channels e').slot ≠ some (.signals signals) := by
    intro e' signals
    by_cases he : e' = e
    · subst he
      simp
    · simpa [he] using hi.slots e' signals
  generalize hpc : s.dispatchers e = pc at h hplain hp hclean
  cases h with
  | recvFrames batch h => exact hpart (by simp [plainDispatcher]) hempty hi.signalQueues
  | recvSignals signals h => exact absurd h (hi.slots e signals)
  | delivered x rest f q s' h hpush =>
    cases hpush <;> exact hpart (by simp [plainDispatcher]) hi.slots hi.signalQueues
  | repush x rest s' hpush =>
    cases hpush <;> exact hpart (by simp [plainDispatcher]) hi.slots hi.signalQueues
  | signalsDone | signalRejected | signalRefused | signalPushed | notifySignal | ack => cases hplain
  | won | lost | close | closed => cases hclean
  | hangUp =>
    refine hpart (by simp [plainDispatcher]) (fun e' signals => ?_) hi.signalQueues
    by_cases he : e' = e
    · subst he
      simp
    · simpa [he] using hi.slots e' signals
  | shutdown t ts =>
    have ht := runTask_sameThreads s t
    refine hpart (by simp [plainDispatcher]) (by simpa [ht.channels] using hi.slots) fun e' => ?_
    have hmem := hp.subset List.mem_cons_self
    simp only [shutdownTasks, List.mem_cons, List.not_mem_nil, or_false] at hmem
    rcases hmem with rfl | rfl | rfl | rfl
    · exact hi.signalQueues e'
    · exact hi.signalQueues e'
    · by_cases he : e' = e
      · subst he
        simpa [State.runTask] using hi.signalQueues e'
      · simpa [State.runTask, he] using hi.signalQueues e'
    · exact hi.signalQueues e'
  | _ => exact hpart (by simp [plainDispatcher]) hi.slots hi.signalQueues

omit [DecidableEq β] in
theorem PlainInv.of_untouched (hi : PlainInv s) (h : Untouched s s') : PlainInv s' := by
  refine ⟨?_, ?_, ?_, ?_, ?_, ?_, ?_⟩
  · rw [h.workers]
    exact hi.workers
  · rw [h.workers]
    exact hi.nextTick
  · rw [h.workers]
    exact hi.delay
  · rw [h.dispatchers]
    exact hi.dispatchers
  · rw [h.channels]
    exact hi.slots
  · rw [h.signalQueues]
    exact hi.signalQueues
  · rw [h.outputs]
    exact hi.outputs

theorem plainInv {C : State β → Label β → Prop} (hC : ∀ s a, C s a → PlainLabel a)
    (hr : (system g o).ReachableBy C s) (hc : Clean g s) : PlainInv s := by
  refine clean_invariant (I := PlainInv) ?_ (fun s a s' hr hc hi ha h hc' => ?_) hr hc
  · refine ⟨fun _ => rfl, fun _ => rfl, fun _ => rfl, fun _ => rfl, by simp [State.initial],
      fun e => ?_, by simp [State.initial]⟩
    simp only [State.initial]
    split_ifs <;> rfl
  · rcases clean_step hr hc h with hu | ⟨n, call, rfl, hn, hm⟩ | ⟨e, answers, rfl, he, hm⟩
    · exact hi.of_untouched hu
    · exact plainInv_worker (hC _ _ ha) hi hm (hc'.workers n hn)
    · exact plainInv_dispatcher hi ((placeInv hr).dispatchers e) (hc.dispatchers e he) hm

section Clean

variable {C : State β → Label β → Prop} (hr : (system g o).ReachableBy C s) (hc : Clean g s)

include hr hc

/-- A dispatcher of a clean run hangs up on a worker that has dropped its senders. -/
theorem sender_of_hungUp {e : EdgeDescriptor} (he : e ∈ g.enabledEdges)
    (hu : (s.dispatchers e).hungUp = true) : (s.channels e).sender = false := by
  revert hu
  refine clean_invariant (I := fun s => (s.dispatchers e).hungUp = true →
    (s.channels e).sender = false) (fun h => by cases h) (fun s a s' hr hc hi _ hstep _ hu => ?_) hr hc
  rcases clean_step hr hc hstep with hun | ⟨n, call, -, hn, hm⟩ | ⟨e', answers, -, he', hm⟩
  · rw [hun.channels]
    exact hi (by rwa [hun.dispatchers] at hu)
  · have hu' : (s.dispatchers e).hungUp = true := by
      rcases (workerMove_frame hm).dispatchers e with hd | hd
      · rwa [hd] at hu
      · rwa [hd, woken_hungUp] at hu
    by_cases hout : e ∈ g.outgoing n
    · have hleft : (s.workers n).pc.left = true := by
        have hsend := (channelInv hr he).sender
        rw [hi hu', (GraphDefinition.mem_outgoing.mp hout).2] at hsend
        simpa using hsend.symm
      rw [workerMove_left hm hleft]
      exact hi hu'
    · rw [workerMove_channels hm ((placeInv hr).workers n) hout]
      exact hi hu'
  · by_cases hee : e = e'
    · subst hee
      have hdrained := (hangInv hr hc he).drained
      generalize s.dispatchers e = pc at hm hi hdrained
      cases hm with
      | hangUp => simpa using (hdrained rfl).2
      | shutdown t ts =>
        rw [State.setDispatcher, (runTask_sameThreads s t).channels]
        exact hi rfl
      | shutdownDone => exact hi rfl
      | exit => exact hi rfl
      | delivered x rest f q s' h hpush => cases hpush <;> simp [DispatcherPc.hungUp] at hu
      | repush x rest s' hpush => cases hpush <;> simp [DispatcherPc.hungUp] at hu
      | ack failed => cases failed <;> simp [DispatcherPc.hungUp] at hu
      | lost r signal h => cases signal <;> simp [DispatcherPc.hungUp, DispatcherPc.afterFail] at hu
      | closed signal => cases signal <;> simp [DispatcherPc.hungUp, DispatcherPc.afterFail] at hu
      | _ => simp [DispatcherPc.hungUp] at hu
    · rw [dispatcherMove_channels hm hee]
      refine hi ?_
      rcases (dispatcherMove_frame hm).dispatchers e hee with hd | hd
      · rwa [hd] at hu
      · rwa [hd, woken_hungUp] at hu

/-- While a worker of a clean run has not left, the receivers of its channels are there. -/
theorem receiver_of_here {n : NodeId} (hn : (s.workers n).pc.left = false) {e : EdgeDescriptor}
    (he : e ∈ g.outgoing n) : (s.channels e).receiver = true := by
  obtain ⟨hen, hfrom⟩ := GraphDefinition.mem_outgoing.mp he
  have hch := channelInv hr hen
  rw [hch.receiver, Bool.not_eq_true', ← Bool.not_eq_true]
  intro hu
  have hsend := sender_of_hungUp hr hc hen hu
  rw [hch.sender, hfrom, hn] at hsend
  cases hsend

/-- A queue of a clean run is open until its dispatcher has hung up. -/
theorem open_of_here {e : EdgeDescriptor} (he : e ∈ g.enabledEdges)
    (hu : (s.dispatchers e).hungUp = false) : (s.queues e).closed = false := by
  revert hu
  refine clean_invariant (I := fun s => (s.dispatchers e).hungUp = false →
    (s.queues e).closed = false) (fun _ => ?_) (fun s a s' hr hc hi _ hstep _ hu => ?_) hr hc
  · have hen : e.enabled = true := by
      simpa [GraphDefinition.enabledEdges] using (List.mem_filter.mp he).2
    simp [State.initial, hen, EdgeQueue.new]
  rcases clean_step hr hc hstep with hun | ⟨n, call, -, hn, hm⟩ | ⟨e', answers, -, he', hm⟩
  · rw [hun.queues]
    exact hi (by rwa [hun.dispatchers] at hu)
  · have hopen : (s.queues e).closed = false := by
      refine hi ?_
      rcases (workerMove_frame hm).dispatchers e with hd | hd
      · rwa [hd] at hu
      · rwa [hd, woken_hungUp] at hu
    have hf := hc.workers n hn
    generalize (s.workers n).pc = pc at hm hf
    cases hm with
    | popFrame obs off e' cursor x xs hp hq =>
      by_cases hee : e = e'
      · subst hee
        rcases (s.queues e).tryPop_cases with ⟨hnil, -⟩ | ⟨y, ys, -, -, -, hclosed, -⟩
        · simp [hnil] at hq
        · simpa [hclosed] using hopen
      · simpa [hee] using hopen
    | callback pc s₀ s' hcons hret =>
      have hq := (returned_down hret).2.1
      obtain ⟨-, -, -, -, hq₀, -⟩ := consumed_outputs hcons
      rw [hq, hq₀]
      exact hopen
    | close t ts => cases hf
    | _ => exact hopen
  · by_cases hee : e = e'
    · subst hee
      have hopen : (s.dispatchers e).hungUp = false → (s.queues e).closed = false := hi
      have hf := hc.dispatchers e he
      generalize s.dispatchers e = pc at hm hopen hf
      have hpush : ∀ {t : State β} {x rest}, Pushed t e x rest s' → (t.queues e).closed = false →
          (s'.queues e).closed = false := by
        intro t x rest hp ht
        cases hp with
        | closed hc hq => simp [ht] at hc
        | _ => simpa
      cases hm with
      | rejected x rest r q h => simpa [(SameFrames.of_applyEdge h).closed] using hopen rfl
      | settled x rest q h => simpa [(SameFrames.of_applyEdge h).closed] using hopen rfl
      | delivered x rest f q s' h hp =>
        refine hpush hp ?_
        simpa [(SameFrames.of_applyEdge h).closed] using hopen rfl
      | repush x rest s' hp => exact hpush hp (hopen rfl)
      | signalRejected x rest r q h => simpa [(SameFrames.of_observeSignal h).closed] using hopen rfl
      | signalRefused x rest err q h => simpa [(SameFrames.of_observeSignal h).closed] using hopen rfl
      | signalPushed x rest q h => simpa [(SameFrames.of_observeSignal h).closed] using hopen rfl
      | close t ts signal => cases hf
      | closed signal => cases hf
      | won r signal h => cases hf
      | lost r signal h => cases hf
      | hangUp => simp [DispatcherPc.hungUp] at hu
      | shutdown t ts => simp [DispatcherPc.hungUp] at hu
      | shutdownDone => simp [DispatcherPc.hungUp] at hu
      | exit => simp [DispatcherPc.hungUp] at hu
      | _ => exact hopen rfl
    · obtain ⟨hq, -, -⟩ := dispatcherMove_other ((placeInv hr).dispatchers e')
        (hc.dispatchers e' he') hm hee
      rw [hq]
      refine hi ?_
      rcases (dispatcherMove_frame hm).dispatchers e hee with hd | hd
      · rwa [hd] at hu
      · rwa [hd, woken_hungUp] at hu

theorem not_cancelled : s.cancelled = false := by
  by_contra hcan
  have hreason := (closingInv hr).cancelled (by simpa using hcan)
  simp [hc.reason] at hreason

/-- In a clean run nobody failed to prepare. -/
theorem prepared_of_visited {n : NodeId} (hn : n ∈ g.topologicalOrder)
    (hv : (s.workers n).pc.visited = true) : (s.workers n).prepared = true := by
  revert hv
  refine clean_invariant (I := fun s => (s.workers n).pc.visited = true →
    (s.workers n).prepared = true) (fun h => by cases h) (fun s a s' hr hc hi _ hstep hc' hv => ?_) hr hc
  rcases clean_step hr hc hstep with hun | ⟨m, call, -, hm, hmove⟩ | ⟨e, answers, -, -, hmove⟩
  · rw [hun.workers] at hv ⊢
    exact hi hv
  · by_cases hnm : n = m
    · subst hnm
      have hf := hc'.workers n hn
      cases hpc : (s.workers n).pc with
      | prepare =>
        rw [hpc] at hmove
        cases hmove with
        | quiet pc w' hq => cases hq
        | callback pc s₀ s' hcons hret => cases hcons
        | prepared out h => simp
        | notPrepared r h => simp [WorkerPc.failing] at hf
      | _ =>
        rw [(workerMove_frame hmove).prepared (by simp [hpc])]
        exact hi (by simp [hpc, WorkerPc.visited])
    · rw [(workerMove_frame hmove).workers n hnm] at hv ⊢
      exact hi hv
  · rw [(dispatcherMove_frame hmove).workers] at hv ⊢
    exact hi hv

end Clean

end Muxiva.Kahn
