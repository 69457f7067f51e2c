import Muxiva.Kahn.Agree
import Muxiva.Runtime.Progress

/-! The concurrent runtime refines `GraphRunner` on a network of deterministic nodes: no
interleaving fails, none stops before its result is published, and every edge carries the same
frames. -/
set_option linter.all false
namespace Muxiva.Kahn

open Muxiva.Runtime

variable {ν π β : Type} {g : GraphDefinition} {o : RuntimeOptions} {net : Network ν π β}
  {log : Runner.Log β} {s s' : State β}

/-- The threads of a run. -/
inductive Thread where
  | worker (n : NodeId)
  | dispatcher (e : EdgeDescriptor)
  | coordinator

namespace Network
variable (net : Network ν π β) (g : GraphDefinition) (s : State β)

/-- What a callback of `n` that is called now returns. -/
def call (n : NodeId) : NodeCall (NodeCallOutput β) :=
  let reply := outcomeMap fun emissions => ⟨emissions, [], none⟩
  match (s.workers n).pc with
  | .prepare => ⟨false, outcomeMap (fun _ => ⟨[], [], none⟩) (net.node n).prepared⟩
  | .source => ⟨false, reply ((net.node n).answer (runtimeInputs g n s) none)⟩
  | .onFrame e x =>
    ⟨false, reply ((net.node n).answer (runtimeInputs g n s) (some (x.value, e.toInputPort)))⟩
  | _ => ⟨false, .ok ⟨[], [], none⟩⟩

/-- The action a thread takes next. -/
def label [DecidableEq β] : Thread → Label β
  | .worker n => .worker n (net.call g s n)
  | .dispatcher e =>
    .dispatcher e (match s.dispatchers e with
      | .frames (x :: _) =>
        net.policyAnswers e ((s.log.applied e).map fun p => p.1.value) x.value
      | _ => ⟨.ok .accept, .ok (.drop ""), .ok (), .ok ()⟩)
  | .coordinator =>
    .coordinator (match s.coordinator.pc with
      | .finish (n :: _) => ⟨false, (net.node n).finished (runtimeInputs g n s)⟩
      | _ => ⟨false, .ok ()⟩)

/-- The runtime with the network, where only the schedule is left open. -/
def scheduled [DecidableEq β] (o : RuntimeOptions) : Transition.System (State β) Thread where
  init s := s = State.initial g o
  step s t := s.step g o (net.label g s t)

end Network

theorem plain_reply {σ : Type} (c : CallOutcome σ) (f : σ → List (PortName × Frame β)) :
    Plain (⟨false, outcomeMap (fun v => ⟨f v, [], none⟩) c⟩ : NodeCall (NodeCallOutput β)) := by
  refine ⟨rfl, fun out h => ?_, fun out h => ?_⟩ <;>
  · cases c with
    | ok v =>
      have hout := CallOutcome.ok.inj h
      rw [← hout]
    | error err => cases h
    | panicked m => cases h

theorem outcomeMap_comp {σ τ υ : Type} (c : CallOutcome σ) (f : σ → τ) (k : τ → υ) :
    outcomeMap k (outcomeMap f c) = outcomeMap (fun v => k (f v)) c := by
  cases c <;> rfl

theorem outcomeMap_id {σ : Type} (c : CallOutcome σ) : outcomeMap (fun v => v) c = c := by
  cases c <;> rfl

variable [DecidableEq β]

theorem follows_worker (n : NodeId) : net.Follows g s (.worker n (net.call g s n)) := by
  have hquiet : Plain (⟨false, .ok ⟨[], [], none⟩⟩ : NodeCall (NodeCallOutput β)) :=
    plain_reply (.ok ()) fun _ => []
  simp only [Network.Follows]
  cases hpc : (s.workers n).pc with
  | prepare =>
    simp only [Network.call, hpc, outcomeMap_comp]
    exact ⟨plain_reply _ _, outcomeMap_id _⟩
  | source =>
    simp only [Network.call, hpc, outcomeMap_comp]
    exact ⟨plain_reply _ _, outcomeMap_id _⟩
  | onFrame e x =>
    simp only [Network.call, hpc, outcomeMap_comp]
    exact ⟨plain_reply _ _, outcomeMap_id _⟩
  | _ =>
    simp only [Network.call, hpc]
    exact ⟨hquiet, trivial⟩

theorem follows_label (t : Thread) : net.Follows g s (net.label g s t) := by
  cases t with
  | worker n => exact follows_worker n
  | dispatcher e =>
    simp only [Network.label, Network.Follows]
    split
    · next hpc => simp only [hpc]
    · trivial
  | coordinator =>
    simp only [Network.label, Network.Follows]
    split
    · next hpc => simp only [hpc]
    · trivial

theorem reachable_of_scheduled (hr : (net.scheduled g o).Reachable s) :
    (system g o).ReachableBy (net.Follows g) s := by
  apply hr.invariant (I := (system g o).ReachableBy (net.Follows g))
  · exact fun s h => .init h
  · exact fun s t s' _ hi h => .step hi (follows_label t) h

/-- A thread that is not blocked can go on as the network says. -/
theorem stuck_of_none (h : ∀ t : Thread, s.step g o (net.label g s t) = none) : Stuck g s := by
  refine ⟨fun n hn => ?_, fun e he => ?_⟩
  · have hstep := h (.worker n)
    rw [Network.label, State.step, if_pos hn] at hstep
    exact (workerStep_eq_none_iff n _).mp hstep
  · have hstep := h (.dispatcher e)
    rw [Network.label, State.step, if_pos he] at hstep
    exact (dispatcherStep_eq_none_iff e _).mp hstep

/-- The last worker to arrive opens the gate. -/
theorem gate_opened {C : State β → Label β → Prop} (hr : (system g o).ReachableBy C s) :
    s.remaining = 0 → s.released = true := by
  have hkeep : ∀ {s s' : State β}, (s.remaining = 0 → s.released = true) →
      s'.remaining = s.remaining ∧ s'.released = s.released →
      s'.remaining = 0 → s'.released = true := by
    intro s s' hi hg
    rw [hg.1, hg.2]
    exact hi
  refine hr.invariant (I := fun s => s.remaining = 0 → s.released = true) (fun s h => ?_)
    fun s a s' hr hi _ h => ?_
  · rw [show s = State.initial g o from h]
    exact fun hzero => decide_eq_true hzero
  cases a with
  | worker n call =>
    simp only [system, State.step] at h
    split_ifs at h with hn
    have hmove := workerStep_move h
    by_cases ha : (s.workers n).pc = .arrive
    · rw [ha] at hmove
      rw [workerMove_arrive hmove]
      intro hzero
      have hleft : s.remaining - 1 = 0 := hzero
      simp [hleft]
    · have hgate := gateInv hr
      exact hkeep hi (workerMove_gate (hgate.body n) (hgate.fresh n) hmove ha).2.2
  | dispatcher e answers =>
    simp only [system, State.step] at h
    split_ifs at h
    exact hkeep hi (dispatcherMove_frame (dispatcherStep_move h)).gate
  | stopBegin =>
    cases h
    exact hi
  | stop i =>
    rcases stopStep_cases h with ⟨-, -, rfl⟩ | ⟨-, -, rfl⟩ | ⟨-, rfl⟩ | ⟨t, ts, -, rfl⟩
    · exact hi
    · exact hi
    · exact hi
    · exact hkeep hi (runTask_sameThreads s t).gate
  | coordinator call =>
    rcases coordinatorStep_cases h with ⟨t, ts, hpc, rfl⟩ | ⟨k, c, exits, trace, rfl, hk⟩
    · exact hkeep hi (runTask_sameThreads s t).gate
    · exact hi
  | tick d =>
    cases h
    exact hi

/-- When all threads are blocked, no worker is left at the gate. -/
theorem Stuck.passed {C : State β → Label β → Prop} (hr : (system g o).ReachableBy C s)
    (hs : Stuck g s) {n : NodeId} (hn : n ∈ g.topologicalOrder) :
    (s.workers n).passed = true := by
  have harrived : ∀ m ∈ g.topologicalOrder, (s.workers m).arrived = true := by
    intro m hm
    have hb := hs.workers m hm
    unfold State.workerBlocked at hb
    unfold Worker.arrived
    cases hpc : (s.workers m).pc <;> first
      | rfl
      | (rw [hpc] at hb; cases hb)
  have hnone : s.awaited g = ∅ := by
    apply Finset.filter_eq_empty_iff.mpr
    intro m hm
    simp [harrived m (List.mem_toFinset.mp hm)]
  have hopen : s.released = true := by
    apply gate_opened hr
    rw [(gateInv hr).remaining, hnone, Finset.card_empty]
  have hb := hs.workers n hn
  have harr := harrived n hn
  unfold Worker.passed
  cases hpc : (s.workers n).pc with
  | gate => simp [State.workerBlocked, hpc, hopen] at hb
  | _ => exact harr

/-- A blocked worker is in no callback. -/
theorem not_inCall_of_blocked {n : NodeId} (h : s.workerBlocked g n = true) :
    (s.workers n).pc.inCall = false := by
  unfold State.workerBlocked at h
  cases hpc : (s.workers n).pc <;> first
    | rfl
    | (rw [hpc] at h; cases h)

theorem PlainInv.awaitsTick (h : PlainInv s) (n : NodeId) :
    (s.workers n).awaitsTick = false := by
  have hp := h.workers n
  unfold Worker.awaitsTick
  cases hpc : (s.workers n).pc <;> first
    | rfl
    | exact congrArg Option.isSome (h.nextTick n)
    | (rw [hpc] at hp; cases hp)

/-- A run of the network that has not published its result has a thread that can go on. -/
theorem goes_on (hin : ∀ n, (g.incoming n).length ≤ 1)
    (hblock : ∀ e ∈ g.enabledEdges, e.queuePolicy.overflow = .block) (hsol : Solution g net log)
    (hr : (system g o).ReachableBy (net.Follows g) s) (hopen : s.control.result = none) :
    ∃ t : Thread, (s.step g o (net.label g s t)).isSome = true := by
  by_contra hnot
  have hnone : ∀ t : Thread, s.step g o (net.label g s t) = none := by
    intro t
    by_contra hsome
    exact hnot ⟨t, Option.isSome_iff_ne_none.mpr hsome⟩
  have ha := along hin hblock hsol hr
  have hfit := ticksFit_reachable hr
  have hcontrol := controlInv hr
  by_cases hcollect : s.coordinator.pc = .collect
  · have hstuck := stuck_of_none hnone
    have hplain := plainInv (fun _ _ => plainLabel_of_follows) hr ha.clean
    have hquiescent : Quiescent g s :=
      ⟨hcollect, fun n hn => Stuck.passed hr hstuck hn,
        fun n hn => not_inCall_of_blocked (hstuck.workers n hn), fun n _ => hplain.awaitsTick n⟩
    have hfin := all_finished hfit hquiescent hstuck (by simp [ha.stops])
    have hsome := coordinator_collects (o := o) hcollect hfin
    have hstep := hnone .coordinator
    rw [Network.label, State.step] at hstep
    obtain ⟨s', hs'⟩ := Option.isSome_iff_exists.mp (hsome _)
    rw [hs'] at hstep
    cases hstep
  · have hdone : s.coordinator.pc ≠ .done := by
      intro hd
      have hresult := (hcontrol.done (by rw [hd]; rfl)).2.1
      rw [hopen] at hresult
      cases hresult
    have halive : s.coordinator.pc ≠ .panicked := fun hp => hcontrol.alive (by rw [hp]; rfl)
    have hsome := coordinator_enabled (g := g) (o := o) hcollect hdone halive
    have hstep := hnone .coordinator
    rw [Network.label] at hstep
    obtain ⟨s', hs'⟩ := Option.isSome_iff_exists.mp (hsome _)
    rw [hs'] at hstep
    cases hstep

/-- Emits one frame when it is called as a source and nothing for an input. -/
def sampleNetwork : Network Unit Unit Unit where
  node _ :=
    { start := ()
      prepare := fun v => (.ok (), v)
      process := fun v i => (.ok (if i.isNone then [(0, sampleFrame 7)] else []), v)
      finish := fun _ => .ok () }
  policy _ := ⟨fun p _ => (.ok .accept, p), fun p f => (.ok (.forward f), p), fun p _ => (.ok (), p),
    fun p _ => (.ok (), p)⟩
  policyStart _ := ()

/-- A schedule of the sample graph up to its publication. -/
def sampleSchedule : List Thread :=
  [(.worker 0, 2), (.worker 1, 2), (.worker 0, 10), (.worker 1, 11), (.dispatcher sampleEdge, 3),
    (.worker 1, 16), (.dispatcher sampleEdge, 5), (.worker 1, 9), (.dispatcher sampleEdge, 2),
    (.worker 1, 13), (.dispatcher sampleEdge, 2), (.coordinator, 11)].flatMap
    fun (t, k) => List.replicate k t

end Muxiva.Kahn
