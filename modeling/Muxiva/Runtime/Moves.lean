import Muxiva.Runtime.Model

/-! What one action of a worker or a dispatcher can do, said once: the branches of the step
functions as relations, with the guard each branch was taken under. -/
set_option linter.all false
namespace Muxiva.Runtime

variable {β : Type} (g : GraphDefinition) (o : RuntimeOptions)

/-- The state with a successful callback's output in the log. -/
def State.logged (s : State β) (n : NodeId) (out : NodeCallOutput β) : State β :=
  { s with log := { s.log with
    outputs := Function.update s.log.outputs n (s.log.outputs n ++ [out]) } }

/-- Actions that change the worker's own record only. -/
inductive Quiet (s : State β) (n : NodeId) (w : Worker β) : WorkerPc β → Worker β → Prop where
  | released (h : s.released = true) : Quiet s n w .gate { w with pc := .checkCancelled }
  | cancelled (h : s.cancelled = true) : Quiet s n w .checkCancelled { w with pc := .enter }
  | notCancelled (h : s.cancelled = false) :
      Quiet s n w .checkCancelled { w with pc := .markRunning }
  | enterSource (hp : w.prepared = true) (hs : g.isSource n = true) (hc : s.cancelled = false) :
      Quiet s n w .enter { w with pc := .source }
  | enterConsumer (hp : w.prepared = true) (hs : g.isSource n = false) :
      Quiet s n w .enter { w with pc := .top }
  | skip (h : w.prepared = false ∨ g.isSource n = true ∧ s.cancelled = true) :
      Quiet s n w .enter { w with pc := .leave }
  | waitCancelled (deadline : ℕ) (h : s.cancelled = true) :
      Quiet s n w (.sourceWait deadline) { w with pc := .leave }
  | waitOver (deadline : ℕ) (hc : s.cancelled = false) (hd : deadline ≤ s.clock) :
      Quiet s n w (.sourceWait deadline) { w with pc := .source }
  | sample : Quiet s n w .top { w with pc := .pollSignals (s.generation n) 0 }
  | signalsPolled (observed offset : ℕ) (h : polled g n w.cursor offset = none) :
      Quiet s n w (.pollSignals observed offset) { w with pc := .checkTick observed }
  | noSignal (observed offset : ℕ) (e : EdgeDescriptor) (cursor : ℕ)
      (h : polled g n w.cursor offset = some (e, cursor)) (hq : (s.signalQueues e).queue = []) :
      Quiet s n w (.pollSignals observed offset) { w with pc := .pollSignals observed (offset + 1) }
  | tickDue (observed : ℕ) (h : w.nextTick.any (· ≤ s.clock) = true) :
      Quiet s n w (.checkTick observed) { w with pc := .onTick, nextTick := none }
  | noTick (observed : ℕ) (h : w.nextTick.any (· ≤ s.clock) = false) :
      Quiet s n w (.checkTick observed) { w with pc := .pollFrames observed 0 }
  | framesPolled (observed offset : ℕ) (h : polled g n w.cursor offset = none) :
      Quiet s n w (.pollFrames observed offset)
        { w with pc := .checkQueue observed (g.incoming n) }
  | noFrame (observed offset : ℕ) (e : EdgeDescriptor) (cursor : ℕ)
      (h : polled g n w.cursor offset = some (e, cursor)) (hq : (s.queues e).frames = []) :
      Quiet s n w (.pollFrames observed offset) { w with pc := .pollFrames observed (offset + 1) }
  | checked (observed : ℕ) :
      Quiet s n w (.checkQueue observed []) { w with pc := .checkStop observed }
  | queueDone (observed : ℕ) (e : EdgeDescriptor) (rest : List EdgeDescriptor)
      (h : (s.queues e).isClosedAndEmpty = true) :
      Quiet s n w (.checkQueue observed (e :: rest)) { w with pc := .checkSignals observed e rest }
  | queueOpen (observed : ℕ) (e : EdgeDescriptor) (rest : List EdgeDescriptor)
      (h : (s.queues e).isClosedAndEmpty = false) :
      Quiet s n w (.checkQueue observed (e :: rest)) { w with pc := .park observed }
  | signalsDone (observed : ℕ) (e : EdgeDescriptor) (rest : List EdgeDescriptor)
      (h : (s.signalQueues e).isClosedAndEmpty = true) :
      Quiet s n w (.checkSignals observed e rest) { w with pc := .checkQueue observed rest }
  | signalsOpen (observed : ℕ) (e : EdgeDescriptor) (rest : List EdgeDescriptor)
      (h : (s.signalQueues e).isClosedAndEmpty = false) :
      Quiet s n w (.checkSignals observed e rest) { w with pc := .park observed }
  | drained (observed : ℕ) (h : w.nextTick = none ∨ s.cancelled = true) :
      Quiet s n w (.checkStop observed) { w with pc := .leave }
  | tickLeft (observed : ℕ) (ht : w.nextTick ≠ none) (hc : s.cancelled = false) :
      Quiet s n w (.checkStop observed) { w with pc := .park observed }
  | woken (observed : ℕ)
      (h : s.generation n ≠ observed ∨ w.nextTick.any (· ≤ s.clock) = true) :
      Quiet s n w (.park observed) { w with pc := .top }
  | signalsSent (signals : List (Stamped (SignalFrame β))) (bs : Batches β) :
      Quiet s n w (.sendSignals signals [] bs)
        { w with pc := .awaitAcks (g.outgoing n).length bs }
  | signalsRefused (signals : List (Stamped (SignalFrame β))) (e : EdgeDescriptor)
      (rest : List EdgeDescriptor) (bs : Batches β) (h : (s.channels e).receiver = false) :
      Quiet s n w (.sendSignals signals (e :: rest) bs) { w with pc := .dispatchClosed }
  | acked (bs : Batches β) : Quiet s n w (.awaitAcks 0 bs) { w with pc := .checkReason bs }
  | ackLost (left : ℕ) (bs : Batches β) (h0 : s.acks n = 0)
      (h : (g.outgoing n).any s.ackPending = false) :
      Quiet s n w (.awaitAcks (left + 1) bs) { w with pc := .dispatchClosed }
  | reasonSeen (bs : Batches β) (r : AbortReason) (h : s.control.reason = some r) :
      Quiet s n w (.checkReason bs) { w with pc := .fail r }
  | noReason (bs : Batches β) (h : s.control.reason = none) :
      Quiet s n w (.checkReason bs) { w with pc := .trySend bs [] }
  | tried (pending : Batches β) :
      Quiet s n w (.trySend [] pending) { w with pc := .sendPending pending }
  | full (e : EdgeDescriptor) (b : List (Stamped (Frame β))) (bs pending : Batches β)
      (hr : (s.channels e).receiver = true) (hs : (s.channels e).slot ≠ none) :
      Quiet s n w (.trySend ((e, b) :: bs) pending)
        { w with pc := .trySend bs (pending ++ [(e, b)]) }
  | tryRefused (e : EdgeDescriptor) (b : List (Stamped (Frame β))) (bs pending : Batches β)
      (h : (s.channels e).receiver = false) :
      Quiet s n w (.trySend ((e, b) :: bs) pending) { w with pc := .dispatchClosed }
  | sent : Quiet s n w (.sendPending []) (s.routed g n w)
  | pendingRefused (e : EdgeDescriptor) (b : List (Stamped (Frame β))) (bs : Batches β)
      (h : (s.channels e).receiver = false) :
      Quiet s n w (.sendPending ((e, b) :: bs)) { w with pc := .dispatchClosed }
  | dispatchClosed : Quiet s n w .dispatchClosed
      { w with pc := .fail (s.control.reason.getD (dispatchClosedAbort n)) }
  | lost (r : AbortReason) (h : (s.control.requestAbort r).1 = false) :
      Quiet s n w (.fail r) w.failed
  | closed : Quiet s n w (.closing []) w.failed

/-- The input of a callback is consumed and logged. -/
inductive Consumed (s : State β) (n : NodeId) : WorkerPc β → State β → Prop where
  | source : Consumed s n .source (s.record (.process n none))
  | tick : Consumed s n .onTick (s.record (.process n none))
  | signal (e : EdgeDescriptor) (x : Stamped (SignalFrame β)) :
      Consumed s n (.onSignal e x) { s with log := { s.log with
        trace := s.log.trace ++ [.signal n]
        handled := Function.update s.log.handled e (s.log.handled e ++ [x]) } }
  | frame (e : EdgeDescriptor) (x : Stamped (Frame β)) :
      Consumed s n (.onFrame e x) { s with log := { s.log with
        trace := s.log.trace ++ [.process n (some e)]
        processed := Function.update s.log.processed e (s.log.processed e ++ [x]) } }

/-- How the worker notes the tick its callback asked for. -/
structure Noted (s : State β) (n : NodeId) (w : Worker β) (out : NodeCallOutput β)
    (tick delay : Option ℕ) : Prop where
  source : g.isSource n = true → tick = w.nextTick ∧ delay = out.nextTick
  consumer : g.isSource n = false → delay = w.delay ∧
    tick = out.nextTick.elim w.nextTick fun d => some (s.clock + d)

/-- How a callback ends: it fails, its worker dies of the tick delay, or its output is routed as
far as the first send. -/
inductive Returned (s : State β) (n : NodeId) (w : Worker β) (call : NodeCall (NodeCallOutput β)) :
    State β → Prop where
  | failed (r : AbortReason) (h : call.result n o.emissionBudget .process = .error r) :
      Returned s n w call (s.setWorker n { w with pc := .fail r })
  | died (out : NodeCallOutput β) (d : ℕ)
      (h : call.result n o.emissionBudget .process = .ok out) (hs : g.isSource n = false)
      (ht : out.nextTick = some d) (ho : o.instantMax < s.clock + d) :
      Returned s n w call (((s.logged n out).dropSenders g n).setWorker n { w with pc := .dead })
  | rejected (out : NodeCallOutput β) (tick delay : Option ℕ) (r : AbortReason)
      (h : call.result n o.emissionBudget .process = .ok out)
      (ht : Noted g s n w out tick delay) (hr : routeError g n out.emissions = some r) :
      Returned s n w call ((s.logged n out).setWorker n
        { w with pc := .fail r, nextTick := tick, delay := delay })
  | frames (out : NodeCallOutput β) (tick delay : Option ℕ)
      (h : call.result n o.emissionBudget .process = .ok out)
      (ht : Noted g s n w out tick delay) (hr : routeError g n out.emissions = none)
      (hs : out.signals = []) :
      Returned s n w call ((s.logged n out).setWorker n
        { w with
          pc := .trySend (batches g n (s.log.outputs n).length out.emissions) []
          nextTick := tick
          delay := delay })
  | signals (out : NodeCallOutput β) (tick delay : Option ℕ)
      (h : call.result n o.emissionBudget .process = .ok out)
      (ht : Noted g s n w out tick delay) (hr : routeError g n out.emissions = none)
      (hs : out.signals ≠ []) :
      Returned s n w call { ((s.logged n out).setWorker n
        { w with
          pc := .sendSignals (out.signals.map (Stamped.mk (s.log.outputs n).length))
            (g.outgoing n) (batches g n (s.log.outputs n).length out.emissions)
          nextTick := tick
          delay := delay }) with
        acks := Function.update s.acks n 0 }

/-- One action of a worker at `pc`. -/
inductive WorkerMove (s : State β) (n : NodeId) (w : Worker β)
    (call : NodeCall (NodeCallOutput β)) : WorkerPc β → State β → Prop where
  | quiet (pc : WorkerPc β) (w' : Worker β) (h : Quiet g s n w pc w') :
      WorkerMove s n w call pc (s.setWorker n w')
  | prepared (out : NodeCallOutput β)
      (h : call.result n o.emissionBudget .prepare = .ok out) :
      WorkerMove s n w call .prepare
        ((s.record (.prepare n true)).setWorker n { w with pc := .arrive, prepared := true })
  | notPrepared (r : AbortReason) (h : call.result n o.emissionBudget .prepare = .error r) :
      WorkerMove s n w call .prepare
        ((s.record (.prepare n false)).setWorker n { w with pc := .fail r })
  | arrived : WorkerMove s n w call .arrive { (s.setWorker n { w with pc := .gate }) with
      remaining := s.remaining - 1
      released := s.released || decide (s.remaining - 1 = 0) }
  | running : WorkerMove s n w call .markRunning { (s.setWorker n { w with pc := .enter }) with
      control := s.control.markRunning }
  | callback (pc : WorkerPc β) (s₀ s' : State β) (hc : Consumed s n pc s₀)
      (hr : Returned g o s₀ n w call s') : WorkerMove s n w call pc s'
  | popSignal (observed offset : ℕ) (e : EdgeDescriptor) (cursor : ℕ)
      (x : Stamped (SignalFrame β)) (xs : List (Stamped (SignalFrame β)))
      (hp : polled g n w.cursor offset = some (e, cursor))
      (hq : (s.signalQueues e).queue = x :: xs) :
      WorkerMove s n w call (.pollSignals observed offset)
        ((s.setSignalQueue e (s.signalQueues e).tryPop.2).setWorker n
          { w with pc := .onSignal e x, cursor := cursor })
  | popFrame (observed offset : ℕ) (e : EdgeDescriptor) (cursor : ℕ)
      (x : Stamped (Frame β)) (xs : List (Stamped (Frame β)))
      (hp : polled g n w.cursor offset = some (e, cursor))
      (hq : (s.queues e).frames = x :: xs) :
      WorkerMove s n w call (.pollFrames observed offset)
        (((s.setQueue e (s.queues e).tryPop.2).setDispatcher e (s.dispatchers e).woken).setWorker n
          { w with pc := .onFrame e x, cursor := cursor })
  | putSignals (signals : List (Stamped (SignalFrame β))) (e : EdgeDescriptor)
      (rest : List EdgeDescriptor) (bs : Batches β) (hr : (s.channels e).receiver = true)
      (hs : (s.channels e).slot = none) :
      WorkerMove s n w call (.sendSignals signals (e :: rest) bs)
        ((s.setSlot e (some (.signals signals))).setWorker n
          { w with pc := .sendSignals signals rest bs })
  | takeAck (left : ℕ) (bs : Batches β) (h : 0 < s.acks n) :
      WorkerMove s n w call (.awaitAcks (left + 1) bs)
        { (s.setWorker n { w with pc := .awaitAcks left bs }) with
          acks := Function.update s.acks n (s.acks n - 1) }
  | tryPut (e : EdgeDescriptor) (b : List (Stamped (Frame β))) (bs pending : Batches β)
      (hr : (s.channels e).receiver = true) (hs : (s.channels e).slot = none) :
      WorkerMove s n w call (.trySend ((e, b) :: bs) pending)
        ((s.setSlot e (some (.frames b))).setWorker n { w with pc := .trySend bs pending })
  | putPending (e : EdgeDescriptor) (b : List (Stamped (Frame β))) (bs : Batches β)
      (hr : (s.channels e).receiver = true) (hs : (s.channels e).slot = none) :
      WorkerMove s n w call (.sendPending ((e, b) :: bs))
        ((s.setSlot e (some (.frames b))).setWorker n { w with pc := .sendPending bs })
  | won (r : AbortReason) (h : (s.control.requestAbort r).1 = true) :
      WorkerMove s n w call (.fail r)
        { (s.setWorker n { w with pc := .closing (closeTasks g o.failureMode) }) with
          control := (s.control.requestAbort r).2 }
  | close (t : CloseTask) (ts : List CloseTask) : WorkerMove s n w call (.closing (t :: ts))
      ((s.runTask t).setWorker n { w with pc := .closing ts })
  | leave : WorkerMove s n w call .leave ((s.dropSenders g n).setWorker n { w with pc := .exit })
  | exit : WorkerMove s n w call .exit { (s.setWorker n { w with pc := .exited }) with
      exits := s.exits ++ [.node n w.prepared] }

/-- The state with the policy's handling of a frame in the log. -/
def State.applying (s : State β) (e : EdgeDescriptor) (x : Stamped (Frame β))
    (answers : PolicyAnswers β) : State β :=
  { s with log := { s.log with
    applied := Function.update s.log.applied e (s.log.applied e ++ [(x, answers)]) } }

/-- How one lock section of `push` ends for the dispatcher. -/
inductive Pushed (s : State β) (e : EdgeDescriptor) (x : Stamped (Frame β))
    (rest : List (Stamped (Frame β))) : State β → Prop where
  | enqueued (hc : (s.queues e).closed = false)
      (hl : (s.queues e).frames.length ≠ (s.queues e).capacity)
      (hf : ((s.queues e).push x).2.frames = (s.queues e).frames ++ [x])
      (hc' : ((s.queues e).push x).2.closed = false) :
      Pushed s e x rest
        ((s.setQueue e ((s.queues e).push x).2).setDispatcher e (.notifyFrame rest))
  | droppedOldest (hc : (s.queues e).closed = false) (ho : (s.queues e).overflow = .dropOldest)
      (hf : ((s.queues e).push x).2.frames = (s.queues e).frames.tail ++ [x])
      (hc' : ((s.queues e).push x).2.closed = false) :
      Pushed s e x rest
        ((s.setQueue e ((s.queues e).push x).2).setDispatcher e (.notifyFrame rest))
  | droppedNewest (hc : (s.queues e).closed = false) (ho : (s.queues e).overflow = .dropNewest)
      (hf : ((s.queues e).push x).2.frames = (s.queues e).frames)
      (hc' : ((s.queues e).push x).2.closed = false) :
      Pushed s e x rest ((s.setQueue e ((s.queues e).push x).2).setDispatcher e (.frames rest))
  | wait (hc : (s.queues e).closed = false) (ho : (s.queues e).overflow = .block)
      (hl : (s.queues e).frames.length = (s.queues e).capacity)
      (hf : ((s.queues e).push x).2.frames = (s.queues e).frames)
      (hc' : ((s.queues e).push x).2.closed = false) :
      Pushed s e x rest
        ((s.setQueue e ((s.queues e).push x).2).setDispatcher e (.pushWait x rest false))
  | closed (hc : (s.queues e).closed = true) (hq : ((s.queues e).push x).2 = s.queues e) :
      Pushed s e x rest ((s.setQueue e ((s.queues e).push x).2).setDispatcher e
        (.fail (queueClosedAbort e) false))
  | overflow (hc : (s.queues e).closed = false) (ho : (s.queues e).overflow = .abort)
      (hf : ((s.queues e).push x).2.frames = (s.queues e).frames)
      (hc' : ((s.queues e).push x).2.closed = false) :
      Pushed s e x rest
        ((s.setQueue e ((s.queues e).push x).2).setDispatcher e (.fail (queueAbort e) false))

/-- One action of the dispatcher of `e` at `pc`. -/
inductive DispatcherMove [DecidableEq β] (s : State β) (e : EdgeDescriptor)
    (answers : PolicyAnswers β) : DispatcherPc β → State β → Prop where
  | recvFrames (batch : List (Stamped (Frame β)))
      (h : (s.channels e).slot = some (.frames batch)) :
      DispatcherMove s e answers .recv ((s.setSlot e none).setDispatcher e (.frames batch))
  | recvSignals (signals : List (Stamped (SignalFrame β)))
      (h : (s.channels e).slot = some (.signals signals)) :
      DispatcherMove s e answers .recv ((s.setSlot e none).setDispatcher e (.signals signals))
  | hungUp (hs : (s.channels e).slot = none) (h : (s.channels e).sender = false) :
      DispatcherMove s e answers .recv (s.setDispatcher e .hangUp)
  | batchDone : DispatcherMove s e answers (.frames []) (s.setDispatcher e .recv)
  | rejected (x : Stamped (Frame β)) (rest : List (Stamped (Frame β))) (r : AbortReason)
      (q : EdgeQueue (Stamped (Frame β)))
      (h : applyEdge e answers x.value (s.queues e) = (.fail r, q)) :
      DispatcherMove s e answers (.frames (x :: rest))
        (((s.applying e x answers).setQueue e q).setDispatcher e (.fail r false))
  | settled (x : Stamped (Frame β)) (rest : List (Stamped (Frame β)))
      (q : EdgeQueue (Stamped (Frame β)))
      (h : applyEdge e answers x.value (s.queues e) = (.settled, q)) :
      DispatcherMove s e answers (.frames (x :: rest))
        (((s.applying e x answers).setQueue e q).setDispatcher e (.frames rest))
  | delivered (x : Stamped (Frame β)) (rest : List (Stamped (Frame β))) (f : Frame β)
      (q : EdgeQueue (Stamped (Frame β))) (s' : State β)
      (h : applyEdge e answers x.value (s.queues e) = (.deliver f, q))
      (hp : Pushed ((s.applying e x answers).setQueue e q) e ⟨x.callback, f⟩ rest s') :
      DispatcherMove s e answers (.frames (x :: rest)) s'
  | repush (x : Stamped (Frame β)) (rest : List (Stamped (Frame β))) (s' : State β)
      (hp : Pushed s e x rest s') : DispatcherMove s e answers (.pushWait x rest true) s'
  | notifyFrame (rest : List (Stamped (Frame β))) : DispatcherMove s e answers (.notifyFrame rest)
      ((s.notify e.toNodeId).setDispatcher e (.frames rest))
  | signalsDone : DispatcherMove s e answers (.signals []) (s.setDispatcher e (.ack false))
  | signalRejected (x : Stamped (SignalFrame β)) (rest : List (Stamped (SignalFrame β)))
      (r : AbortReason) (q : EdgeQueue (Stamped (Frame β)))
      (h : observeSignal e answers.onSignal (s.queues e) = (some r, q)) :
      DispatcherMove s e answers (.signals (x :: rest))
        ((s.setQueue e q).setDispatcher e (.fail r true))
  | signalRefused (x : Stamped (SignalFrame β)) (rest : List (Stamped (SignalFrame β)))
      (err : SignalQueuePushError) (q : EdgeQueue (Stamped (Frame β)))
      (h : observeSignal e answers.onSignal (s.queues e) = (none, q))
      (hq : ((s.signalQueues e).tryPush x).2.queue = (s.signalQueues e).queue)
      (hc : ((s.signalQueues e).tryPush x).2.closed = (s.signalQueues e).closed) :
      DispatcherMove s e answers (.signals (x :: rest))
        (((s.setQueue e q).setSignalQueue e ((s.signalQueues e).tryPush x).2).setDispatcher e
          (.fail (err.abort e) true))
  | signalPushed (x : Stamped (SignalFrame β)) (rest : List (Stamped (SignalFrame β)))
      (q : EdgeQueue (Stamped (Frame β)))
      (h : observeSignal e answers.onSignal (s.queues e) = (none, q))
      (hc : (s.signalQueues e).closed = false)
      (hq : ((s.signalQueues e).tryPush x).2.queue = (s.signalQueues e).queue ++ [x])
      (hc' : ((s.signalQueues e).tryPush x).2.closed = false) :
      DispatcherMove s e answers (.signals (x :: rest))
        (((s.setQueue e q).setSignalQueue e ((s.signalQueues e).tryPush x).2).setDispatcher e
          (.notifySignal rest))
  | notifySignal (rest : List (Stamped (SignalFrame β))) :
      DispatcherMove s e answers (.notifySignal rest)
        ((s.notify e.toNodeId).setDispatcher e (.signals rest))
  | ack (failed : Bool) : DispatcherMove s e answers (.ack failed)
      { (s.setDispatcher e (if failed then .hangUp else .recv)) with
        acks := Function.update s.acks e.fromNodeId (s.acks e.fromNodeId + 1) }
  | won (r : AbortReason) (signal : Bool) (h : (s.control.requestAbort r).1 = true) :
      DispatcherMove s e answers (.fail r signal)
        { (s.setDispatcher e (.closing (closeTasks g o.failureMode) signal)) with
          control := (s.control.requestAbort r).2 }
  | lost (r : AbortReason) (signal : Bool) (h : (s.control.requestAbort r).1 = false) :
      DispatcherMove s e answers (.fail r signal) (s.setDispatcher e (.afterFail signal))
  | close (t : CloseTask) (ts : List CloseTask) (signal : Bool) :
      DispatcherMove s e answers (.closing (t :: ts) signal)
        ((s.runTask t).setDispatcher e (.closing ts signal))
  | closed (signal : Bool) : DispatcherMove s e answers (.closing [] signal)
      (s.setDispatcher e (.afterFail signal))
  | hangUp : DispatcherMove s e answers .hangUp
      { (s.setDispatcher e (.shutdown [.closeQueue e .drain, .notifyQueue e,
          .closeSignals e .drain, .notifySignals e])) with
        channels := Function.update s.channels e
          { s.channels e with slot := none, receiver := false } }
  | shutdown (t : CloseTask) (ts : List CloseTask) :
      DispatcherMove s e answers (.shutdown (t :: ts))
        ((s.runTask t).setDispatcher e (.shutdown ts))
  | shutdownDone : DispatcherMove s e answers (.shutdown []) (s.setDispatcher e .exit)
  | exit : DispatcherMove s e answers .exit { (s.setDispatcher e .exited) with
      exits := s.exits ++ [.edge e] }

variable {g o} {s s' : State β}

theorem returned_of_route (s : State β) (n : NodeId) (w : Worker β)
    (call : NodeCall (NodeCallOutput β)) (out : NodeCallOutput β) (tick delay : Option ℕ)
    (h : call.result n o.emissionBudget .process = .ok out) (ht : Noted g s n w out tick delay) :
    Returned g o s n w call ((s.logged n out).route g n
      { w with nextTick := tick, delay := delay } (s.log.outputs n).length out) := by
  unfold State.route
  cases hr : routeError g n out.emissions with
  | some r => exact .rejected out tick delay r h ht hr
  | none =>
    simp only [List.isEmpty_iff]
    by_cases hs : out.signals = []
    · rw [if_pos hs]
      exact .frames out tick delay h ht hr hs
    · rw [if_neg hs]
      exact .signals out tick delay h ht hr hs

theorem returned_move (s : State β) (n : NodeId) (w : Worker β)
    (call : NodeCall (NodeCallOutput β)) : Returned g o s n w call (s.returned g o n w call) := by
  unfold State.returned
  cases hres : call.result n o.emissionBudget .process with
  | error r => exact .failed r hres
  | ok out =>
    cases hsrc : g.isSource n with
    | true => exact returned_of_route s n w call out w.nextTick out.nextTick hres ⟨by simp, by simp [hsrc]⟩
    | false =>
      cases htick : out.nextTick with
      | none =>
        simp only [htick, Bool.false_eq_true, if_false]
        exact returned_of_route s n w call out w.nextTick w.delay hres
          ⟨by simp [hsrc], by simp [htick]⟩
      | some d =>
        by_cases hmax : o.instantMax < s.clock + d
        · simp only [htick, if_pos hmax, Bool.false_eq_true, if_false]
          exact .died out d hres hsrc htick hmax
        · simp only [htick, if_neg hmax, Bool.false_eq_true, if_false]
          exact returned_of_route s n w call out (some (s.clock + d)) w.delay hres
            ⟨by simp [hsrc], by simp [htick]⟩

/-- A worker's step is one of its moves. -/
theorem workerStep_move {n : NodeId} {call : NodeCall (NodeCallOutput β)}
    (h : s.workerStep g o n call = some s') :
    WorkerMove g o s n (s.workers n) call (s.workers n).pc s' := by
  unfold State.workerStep at h
  simp only at h
  generalize (s.workers n).pc = pc at h ⊢
  generalize s.workers n = w at h ⊢
  cases pc with
  | prepare =>
    cases hr : call.result n o.emissionBudget .prepare <;> simp only [hr] at h <;> cases h
    · exact .notPrepared _ hr
    · exact .prepared _ hr
  | arrive => cases h; exact .arrived
  | gate =>
    simp only at h
    split_ifs at h with hr
    cases h
    exact .quiet _ _ (.released hr)
  | checkCancelled =>
    cases h
    split_ifs with hc
    · exact .quiet _ _ (.cancelled hc)
    · exact .quiet _ _ (.notCancelled (by simpa using hc))
  | markRunning => cases h; exact .running
  | enter =>
    simp only at h
    split_ifs at h with hp hs
    · cases h
      exact .quiet _ _ (.enterSource hp.1 hs (by simpa [hs] using hp.2))
    · cases h
      exact .quiet _ _ (.enterConsumer hp.1 (by simpa using hs))
    · cases h
      refine .quiet _ _ (.skip ?_)
      by_cases hprep : w.prepared = true
      · simpa [hprep] using hp
      · exact .inl (by simpa using hprep)
  | source => cases h; exact .callback _ _ _ .source (returned_move _ _ _ _)
  | sourceWait deadline =>
    simp only at h
    split_ifs at h with hc hd
    · cases h
      exact .quiet _ _ (.waitCancelled _ hc)
    · cases h
      exact .quiet _ _ (.waitOver _ (by simpa using hc) hd)
  | top => cases h; exact .quiet _ _ .sample
  | pollSignals observed offset =>
    simp only at h
    cases hp : polled g n w.cursor offset with
    | none =>
      simp only [hp] at h
      cases h
      exact .quiet _ _ (.signalsPolled _ _ hp)
    | some ec =>
      simp only [hp] at h
      obtain ⟨hq, heq⟩ | ⟨x, xs, hq, hx, -⟩ := (s.signalQueues ec.1).tryPop_cases
      · simp only [heq] at h
        cases h
        exact .quiet _ _ (.noSignal _ _ _ _ hp hq)
      · rw [show (s.signalQueues ec.1).tryPop = (some x, (s.signalQueues ec.1).tryPop.2) from
          Prod.ext hx rfl] at h
        cases h
        exact .popSignal _ _ _ _ _ _ hp hq
  | onSignal e x => cases h; exact .callback _ _ _ (.signal e x) (returned_move _ _ _ _)
  | checkTick observed =>
    simp only at h
    split_ifs at h with ht
    · cases h
      exact .quiet _ _ (.tickDue _ ht)
    · cases h
      exact .quiet _ _ (.noTick _ (by simpa using ht))
  | onTick => cases h; exact .callback _ _ _ .tick (returned_move _ _ _ _)
  | pollFrames observed offset =>
    simp only at h
    cases hp : polled g n w.cursor offset with
    | none =>
      simp only [hp] at h
      cases h
      exact .quiet _ _ (.framesPolled _ _ hp)
    | some ec =>
      simp only [hp] at h
      obtain ⟨hq, heq⟩ | ⟨x, xs, hq, hx, -⟩ := (s.queues ec.1).tryPop_cases
      · simp only [heq] at h
        cases h
        exact .quiet _ _ (.noFrame _ _ _ _ hp hq)
      · rw [show (s.queues ec.1).tryPop = (some x, (s.queues ec.1).tryPop.2) from
          Prod.ext hx rfl] at h
        cases h
        exact .popFrame _ _ _ _ _ _ hp hq
  | onFrame e x => cases h; exact .callback _ _ _ (.frame e x) (returned_move _ _ _ _)
  | checkQueue observed rest =>
    cases rest with
    | nil => cases h; exact .quiet _ _ (.checked _)
    | cons e rest =>
      cases h
      split_ifs with hc
      · exact .quiet _ _ (.queueDone _ _ _ hc)
      · exact .quiet _ _ (.queueOpen _ _ _ (by simpa using hc))
  | checkSignals observed e rest =>
    cases h
    split_ifs with hc
    · exact .quiet _ _ (.signalsDone _ _ _ hc)
    · exact .quiet _ _ (.signalsOpen _ _ _ (by simpa using hc))
  | checkStop observed =>
    cases h
    split_ifs with hc
    · exact .quiet _ _ (.drained _ hc)
    · rw [not_or] at hc
      exact .quiet _ _ (.tickLeft _ hc.1 (by simpa using hc.2))
  | park observed =>
    simp only at h
    split_ifs at h with hw
    cases h
    exact .quiet _ _ (.woken _ hw)
  | sendSignals signals rest bs =>
    cases rest with
    | nil => cases h; exact .quiet _ _ (.signalsSent _ _)
    | cons e rest =>
      simp only at h
      split_ifs at h with hr hs
      · cases h
        exact .putSignals _ _ _ _ hr hs
      · cases h
        exact .quiet _ _ (.signalsRefused _ _ _ _ (by simpa using hr))
  | awaitAcks left bs =>
    cases left with
    | zero => cases h; exact .quiet _ _ (.acked _)
    | succ left =>
      simp only at h
      split_ifs at h with ha hp
      · cases h
        exact .takeAck _ _ ha
      · cases h
        exact .quiet _ _ (.ackLost _ _ (by omega) (by simpa using hp))
  | checkReason bs =>
    cases hr : s.control.reason <;> simp only [hr] at h <;> cases h
    · exact .quiet _ _ (.noReason _ hr)
    · exact .quiet _ _ (.reasonSeen _ _ hr)
  | trySend bs pending =>
    cases bs with
    | nil => cases h; exact .quiet _ _ (.tried _)
    | cons b bs =>
      simp only at h
      split_ifs at h with hr hs
      · cases h
        exact .tryPut _ _ _ _ hr hs
      · cases h
        exact .quiet _ _ (.full _ _ _ _ hr hs)
      · cases h
        exact .quiet _ _ (.tryRefused _ _ _ _ (by simpa using hr))
  | sendPending bs =>
    cases bs with
    | nil => cases h; exact .quiet _ _ .sent
    | cons b bs =>
      simp only at h
      split_ifs at h with hr hs
      · cases h
        exact .putPending _ _ _ hr hs
      · cases h
        exact .quiet _ _ (.pendingRefused _ _ _ (by simpa using hr))
  | dispatchClosed => cases h; exact .quiet _ _ .dispatchClosed
  | fail r =>
    rcases hreq : s.control.requestAbort r with ⟨won, c⟩
    simp only [hreq] at h
    cases won with
    | true =>
      cases h
      have hc : c = (s.control.requestAbort r).2 := by rw [hreq]
      rw [hc]
      exact .won _ (by rw [hreq])
    | false =>
      cases h
      exact .quiet _ _ (.lost _ (by rw [hreq]))
  | closing ts =>
    cases ts with
    | nil => cases h; exact .quiet _ _ .closed
    | cons t ts => cases h; exact .close _ _
  | leave => cases h; exact .leave
  | exit => cases h; exact .exit
  | exited => cases h
  | dead => cases h

theorem pushFrame_move (s : State β) (e : EdgeDescriptor) (x : Stamped (Frame β))
    (rest : List (Stamped (Frame β))) : Pushed s e x rest (s.pushFrame e x rest) := by
  unfold State.pushFrame
  rcases (s.queues e).push_cases x with ⟨hc, h⟩ | ⟨hc, hl, ho, h, hf, hc'⟩ |
    ⟨hc, hl, ho, h, hf, hc'⟩ | ⟨hc, hl, ho, h, hf, hc'⟩ | ⟨hc, hl, ho, h, hf, hc'⟩ |
    ⟨hc, hl, h, hf, hc'⟩ <;> simp only [h]
  · have hp : Pushed s e x rest _ := .closed hc (by rw [h])
    simpa only [h] using hp
  · exact .wait hc ho hl hf hc'
  · exact .droppedOldest hc ho hf hc'
  · exact .droppedNewest hc ho hf hc'
  · exact .overflow hc ho hf hc'
  · exact .enqueued hc hl hf hc'

/-- A dispatcher's step is one of its moves. -/
theorem dispatcherStep_move [DecidableEq β] {e : EdgeDescriptor} {answers : PolicyAnswers β}
    (h : s.dispatcherStep g o e answers = some s') :
    DispatcherMove g o s e answers (s.dispatchers e) s' := by
  unfold State.dispatcherStep at h
  simp only at h
  generalize s.dispatchers e = pc at h ⊢
  cases pc with
  | recv =>
    simp only at h
    cases hs : (s.channels e).slot with
    | none =>
      simp only [hs] at h
      split_ifs at h with hsend
      cases h
      exact .hungUp hs (by simpa using hsend)
    | some d =>
      cases d with
      | frames batch => simp only [hs] at h; cases h; exact .recvFrames _ hs
      | signals signals => simp only [hs] at h; cases h; exact .recvSignals _ hs
  | frames rest =>
    cases rest with
    | nil => cases h; exact .batchDone
    | cons x rest =>
      simp only at h
      rcases ha : applyEdge e answers x.value (s.queues e) with ⟨out, q⟩
      cases out with
      | deliver f =>
        simp only [ha] at h
        cases h
        exact .delivered _ _ _ _ _ ha (pushFrame_move _ _ _ _)
      | settled => simp only [ha] at h; cases h; exact .settled _ _ _ ha
      | fail r => simp only [ha] at h; cases h; exact .rejected _ _ _ _ ha
  | pushWait x rest notified =>
    simp only at h
    split_ifs at h with hn
    cases h
    rw [hn]
    exact .repush _ _ _ (pushFrame_move _ _ _ _)
  | notifyFrame rest => cases h; exact .notifyFrame _
  | signals rest =>
    cases rest with
    | nil => cases h; exact .signalsDone
    | cons x rest =>
      simp only at h
      rcases ho : observeSignal e answers.onSignal (s.queues e) with ⟨r, q⟩
      cases r with
      | some r => simp only [ho] at h; cases h; exact .signalRejected _ _ _ _ ho
      | none =>
        simp only [ho] at h
        obtain ⟨err, he, hq, hc⟩ | ⟨hc, he, hq, hc'⟩ := (s.signalQueues e).tryPush_cases x
        · rw [show (s.signalQueues e).tryPush x = (some err, ((s.signalQueues e).tryPush x).2) from
            Prod.ext he rfl] at h
          cases h
          exact .signalRefused _ _ _ _ ho hq hc
        · rw [show (s.signalQueues e).tryPush x = (none, ((s.signalQueues e).tryPush x).2) from
            Prod.ext he rfl] at h
          cases h
          exact .signalPushed _ _ _ ho hc hq hc'
  | notifySignal rest => cases h; exact .notifySignal _
  | ack failed => cases h; exact .ack _
  | fail r signal =>
    rcases hreq : s.control.requestAbort r with ⟨won, c⟩
    simp only [hreq] at h
    cases won with
    | true =>
      cases h
      have hc : c = (s.control.requestAbort r).2 := by rw [hreq]
      rw [hc]
      exact .won _ _ (by rw [hreq])
    | false =>
      cases h
      exact .lost _ _ (by rw [hreq])
  | closing ts signal =>
    cases ts with
    | nil => cases h; exact .closed _
    | cons t ts => cases h; exact .close _ _ _
  | hangUp => cases h; exact .hangUp
  | shutdown ts =>
    cases ts with
    | nil => cases h; exact .shutdownDone
    | cons t ts => cases h; exact .shutdown _ _
  | exit => cases h; exact .exit
  | exited => cases h

end Muxiva.Runtime
