import Muxiva.Lib.Rotation
import Muxiva.Runtime.Gate

/-! One cursor rotates over the incoming edges of a consumer, for signals and for frames. A waiting
edge is passed at most once by each other edge's frames, as long as no signal that the worker takes
puts more edges before it. -/
set_option linter.all false
namespace Muxiva.Runtime

open Rotation

variable {β : Type} {g : GraphDefinition} {o : RuntimeOptions} {s s' : State β} {n : NodeId}
  {e : EdgeDescriptor}

/-- How many incoming edges of `n` a scan from `cursor` visits before `e`. -/
def turn (g : GraphDefinition) (n : NodeId) (e : EdgeDescriptor) (cursor : ℕ) : ℕ :=
  ahead (g.incoming n).length ((g.incoming n).idxOf e) cursor

/-- A frame of another edge than `e` is passed to `on_process` of `n`. -/
def isPassing (n : NodeId) (e : EdgeDescriptor) : Event → Bool
  | .process m (some f) => m = n ∧ f ≠ e
  | _ => false

/-- Frames of other edges than `e` that `n` has processed. -/
def State.passing (s : State β) (n : NodeId) (e : EdgeDescriptor) : ℕ :=
  s.log.trace.countP (isPassing n e)

/-- Frames of `e` that `n` has processed. -/
def State.servings (s : State β) (n : NodeId) (e : EdgeDescriptor) : ℕ :=
  s.log.trace.count (.process n (some e))

/-- The signal that the worker of `n` takes, if this is its signal poll, does not put more edges
before `e`. -/
def Label.keepsTurn (g : GraphDefinition) (n : NodeId) (e : EdgeDescriptor) (s : State β) :
    Label β → Bool
  | .worker m _ => m ≠ n ||
      match (s.workers n).pc with
      | .pollSignals _ offset =>
        match polled g n (s.workers n).cursor offset with
        | some (f, cursor) => (s.signalQueues f).queue.isEmpty ||
            turn g n e cursor ≤ turn g n e (s.workers n).cursor
        | none => true
      | _ => true
  | _ => true

/-- The data queue of `e` is not empty, and the step keeps the turn of `e`. -/
def Waits (g : GraphDefinition) (n : NodeId) (e : EdgeDescriptor) (s : State β) (a : Label β) :
    Prop :=
  (s.queues e).frames ≠ [] ∧ a.keepsTurn g n e s = true

instance [DecidableEq β] (s : State β) (a : Label β) : Decidable (Waits g n e s a) :=
  inferInstanceAs (Decidable (_ ∧ _))

section Polling

/-- What the round-robin loop finds at an offset. -/
theorem polled_some {cursor offset cursor' : ℕ} {f : EdgeDescriptor}
    (h : polled g n cursor offset = some (f, cursor')) :
    offset < (g.incoming n).length ∧ f ∈ g.incoming n ∧
      (g.incoming n).idxOf f = (cursor + offset) % (g.incoming n).length ∧
      cursor' = served (g.incoming n).length cursor offset := by
  have hmem := polled_mem h
  unfold polled at h
  simp only at h
  split_ifs at h with ho
  obtain ⟨f', hf', heq⟩ := Option.map_eq_some_iff.mp h
  cases heq
  obtain ⟨hlt, hget⟩ := List.getElem?_eq_some_iff.mp hf'
  refine ⟨ho, hmem, ?_, rfl⟩
  rw [← hget]
  exact (g.incoming_nodup n).idxOf_getElem _ _

theorem polled_none {cursor offset : ℕ} (h : polled g n cursor offset = none) :
    (g.incoming n).length ≤ offset := by
  unfold polled at h
  simp only at h
  split_ifs at h with ho
  · have hlt : (cursor + offset) % (g.incoming n).length < (g.incoming n).length :=
      Nat.mod_lt _ (by omega)
    simp [List.getElem?_eq_getElem hlt] at h
  · omega

variable (he : e ∈ g.incoming n)
include he

theorem turn_lt (cursor : ℕ) : turn g n e cursor < (g.incoming n).length :=
  ahead_lt (List.idxOf_lt_length_iff.mpr he) cursor

/-- The scan comes to `e` at its turn and at no other offset. -/
theorem polled_eq_iff {cursor offset cursor' : ℕ} {f : EdgeDescriptor}
    (h : polled g n cursor offset = some (f, cursor')) : f = e ↔ offset = turn g n e cursor := by
  obtain ⟨ho, hf, hidx, -⟩ := polled_some h
  have hi : (g.incoming n).idxOf e < (g.incoming n).length := List.idxOf_lt_length_iff.mpr he
  have hvisit := visit_iff hi cursor ho
  rw [← hidx] at hvisit
  constructor
  · intro hfe
    exact hvisit.mp (by rw [hfe])
  · intro hoff
    exact (List.idxOf_inj hf).mp (hvisit.mpr hoff)

theorem turn_before {cursor offset cursor' : ℕ} {f : EdgeDescriptor}
    (h : polled g n cursor offset = some (f, cursor')) (hlt : offset < turn g n e cursor) :
    turn g n e cursor' + (offset + 1) = turn g n e cursor := by
  obtain ⟨-, -, -, rfl⟩ := polled_some h
  exact ahead_served_before (List.idxOf_lt_length_iff.mpr he) hlt

theorem turn_after {cursor offset cursor' : ℕ} {f : EdgeDescriptor}
    (h : polled g n cursor offset = some (f, cursor')) (hle : turn g n e cursor ≤ offset) :
    turn g n e cursor' + (offset + 1) = turn g n e cursor + (g.incoming n).length := by
  obtain ⟨ho, -, -, rfl⟩ := polled_some h
  exact ahead_served_after (List.idxOf_lt_length_iff.mpr he) hle ho

end Polling

section Moving

/-- How many frames of other edges the worker can still take before it takes one of `e`, if no
signal puts more edges before `e`. -/
def allowance (g : GraphDefinition) (n : NodeId) (e : EdgeDescriptor) (w : Worker β) : ℕ :=
  match w.pc with
  | .pollFrames _ offset =>
    if offset ≤ turn g n e w.cursor then turn g n e w.cursor
    else turn g n e w.cursor + ((g.incoming n).length - offset)
  | .onFrame f _ => if f = e then 0 else turn g n e w.cursor + 1
  | _ => turn g n e w.cursor

variable (he : e ∈ g.incoming n)
include he

theorem quiet_allowance {w w' : Worker β} (h : Quiet g s n w w.pc w')
    (hwait : (s.queues e).frames ≠ []) : allowance g n e w' ≤ allowance g n e w := by
  generalize hpc : w.pc = pc at h
  cases h with
  | noFrame observed offset f cursor hp hq =>
    have hne : f ≠ e := by
      rintro rfl
      exact hwait hq
    have hoff : offset ≠ turn g n e w.cursor := fun h => hne ((polled_eq_iff he hp).mpr h)
    simp only [allowance, hpc]
    split_ifs <;> omega
  | framesPolled observed offset hp =>
    have hlen := polled_none hp
    have hlt := turn_lt he w.cursor
    simp only [allowance, hpc]
    split_ifs <;> omega
  | sent =>
    unfold State.routed
    split_ifs
    · cases w.delay <;> simp [allowance, hpc]
    · simp [allowance, hpc]
  | lost r h | closed =>
    unfold Worker.failed
    split_ifs <;> simp [allowance, hpc]
  | _ => simp [allowance, hpc]

omit he in
theorem returned_allowance {w : Worker β} {call : NodeCall (NodeCallOutput β)}
    (h : Returned g o s n w call s') : allowance g n e (s'.workers n) = turn g n e w.cursor := by
  cases h <;> simp [allowance]

/-- A frame of another edge is paid for from the allowance when it is taken. -/
theorem workerMove_allowance {call : NodeCall (NodeCallOutput β)}
    (h : WorkerMove g o s n (s.workers n) call (s.workers n).pc s')
    (hwait : Waits g n e s (.worker n call)) (hserve : ∀ x, (s.workers n).pc ≠ .onFrame e x) :
    allowance g n e (s'.workers n) + ((s.workers n).pc.events n).countP (isPassing n e) ≤
      allowance g n e (s.workers n) := by
  obtain ⟨hqueue, hkeep⟩ := hwait
  generalize hpc : (s.workers n).pc = pc at h hserve
  cases h with
  | quiet pc w' h =>
    rw [quiet_events h]
    subst hpc
    simpa using quiet_allowance he h hqueue
  | callback pc s₀ s' hc hr =>
    rw [returned_allowance hr]
    cases hc with
    | frame f x =>
      have hne : f ≠ e := by
        rintro rfl
        exact hserve x rfl
      simp [allowance, hpc, WorkerPc.events, isPassing, hne]
    | _ => simp [allowance, hpc, WorkerPc.events, isPassing]
  | popSignal observed offset f cursor x xs hp hq =>
    have hturn : turn g n e cursor ≤ turn g n e (s.workers n).cursor := by
      simpa [Label.keepsTurn, hpc, hp, hq] using hkeep
    simpa [allowance, hpc, WorkerPc.events] using hturn
  | popFrame observed offset f cursor x xs hp hq =>
    have hlen := (polled_some hp).1
    by_cases hfe : f = e
    · simp [allowance, hfe, WorkerPc.events]
    · have hoff : offset ≠ turn g n e (s.workers n).cursor :=
        fun h => hfe ((polled_eq_iff he hp).mpr h)
      rcases Nat.lt_or_gt_of_ne hoff with hlt | hgt
      · have hturn := turn_before he hp hlt
        simp only [allowance, hpc, hfe, WorkerPc.events, State.setWorker, Function.update_self,
          if_false, List.countP_nil]
        split_ifs <;> omega
      · have hturn := turn_after he hp hgt.le
        simp only [allowance, hpc, hfe, WorkerPc.events, State.setWorker, Function.update_self,
          if_false, List.countP_nil]
        split_ifs <;> omega
  | _ => simp [allowance, hpc, WorkerPc.events]

end Moving

section Running

theorem workerMove_calls {m : NodeId} {call : NodeCall (NodeCallOutput β)}
    (h : WorkerMove g o s m (s.workers m) call (s.workers m).pc s') {p : Event → Bool}
    (hp : ∀ ok, p (.prepare m ok) = false) :
    s'.log.trace.countP p = s.log.trace.countP p + ((s.workers m).pc.events m).countP p := by
  by_cases hpc : (s.workers m).pc = .prepare
  · rw [hpc] at h
    cases h with
    | quiet pc w' hq => cases hq
    | callback pc s₀ s' hc hr => cases hc
    | prepared out h => simp [State.record, hpc, WorkerPc.events, hp]
    | notPrepared r h => simp [State.record, hpc, WorkerPc.events, hp]
  · rw [(workerMove_frame h).trace hpc, List.countP_append]

variable [DecidableEq β]

/-- Only its own worker passes frames to `n`. -/
theorem step_calls {a : Label β} (h : s.step g o a = some s') {p : Event → Bool}
    (hp : ∀ ev, p ev = true → ∃ f, ev = .process n (some f)) :
    (s'.workers n = s.workers n ∧ s'.log.trace.countP p = s.log.trace.countP p) ∨
      ∃ call, a = .worker n call ∧
        WorkerMove g o s n (s.workers n) call (s.workers n).pc s' ∧
        s'.log.trace.countP p = s.log.trace.countP p + ((s.workers n).pc.events n).countP p := by
  have hnone : ∀ evs : List Event, (∀ ev ∈ evs, ∀ f, ev ≠ .process n (some f)) →
      evs.countP p = 0 := by
    intro evs hevs
    rw [List.countP_eq_zero]
    intro ev hev hpev
    obtain ⟨f, hf⟩ := hp ev hpev
    exact hevs ev hev f hf
  rcases step_trace h with ⟨hw, -, evs, htrace, hends⟩ | ⟨m, call, rfl, -, hm⟩
  · refine .inl ⟨by rw [hw], ?_⟩
    rw [htrace, List.countP_append, hnone evs, Nat.add_zero]
    rintro ev hev f rfl
    cases hends _ hev
  · have hcalls := workerMove_calls hm (p := p) fun ok => by
      by_contra hne
      obtain ⟨f, hf⟩ := hp (.prepare m ok) (by simpa using hne)
      cases hf
    by_cases hmn : m = n
    · subst hmn
      exact .inr ⟨call, rfl, hm, hcalls⟩
    · refine .inl ⟨(workerMove_frame hm).workers n (Ne.symm hmn), ?_⟩
      rw [hcalls, hnone ((s.workers m).pc.events m), Nat.add_zero]
      rintro ev hev f rfl
      cases hpc : (s.workers m).pc <;> simp [hpc, WorkerPc.events] at hev
      exact hmn hev.1.symm

omit [DecidableEq β] in
theorem isPassing_process (ev : Event) (h : isPassing n e ev = true) :
    ∃ f, ev = .process n (some f) := by
  unfold isPassing at h
  split at h
  · rename_i m f
    simp only [decide_eq_true_eq] at h
    exact ⟨f, by rw [h.1]⟩
  · cases h

/-- No step takes back a processed frame. -/
theorem servings_step {a : Label β} (h : s.step g o a = some s') :
    s.servings n e ≤ s'.servings n e := by
  have hown : ∀ ev, (ev == Event.process n (some e)) = true → ∃ f, ev = .process n (some f) :=
    fun ev hev => ⟨e, beq_iff_eq.mp hev⟩
  unfold State.servings List.count
  rcases step_calls h hown with ⟨-, hc⟩ | ⟨call, -, -, hc⟩ <;> omega

/-- While `e` waits, each frame of another edge uses up some of the allowance. -/
theorem passing_step (he : e ∈ g.incoming n) {a : Label β} (h : s.step g o a = some s')
    (hwait : Waits g n e s a) (hserve : s'.servings n e = s.servings n e) :
    s'.passing n e + allowance g n e (s'.workers n) ≤
      s.passing n e + allowance g n e (s.workers n) := by
  rcases step_calls h (isPassing_process (n := n) (e := e)) with ⟨hw, hc⟩ | ⟨call, rfl, hm, hc⟩
  · unfold State.passing
    rw [hw, hc]
  · have hnot : ∀ x, (s.workers n).pc ≠ .onFrame e x := by
      intro x hpc
      have hcount := workerMove_calls hm (p := (· == .process n (some e))) (fun ok => by simp)
      rw [hpc] at hcount
      simp only [WorkerPc.events, List.countP_singleton, beq_self_eq_true, if_true] at hcount
      unfold State.servings List.count at hserve
      omega
    have hpay := workerMove_allowance he hm hwait hnot
    unfold State.passing
    omega

/-- A frame leaves the cursor one past its edge until it is processed. -/
def CursorInv (g : GraphDefinition) (s : State β) : Prop :=
  ∀ n f x, (s.workers n).pc = .onFrame f x → f ∈ g.incoming n ∧
    (s.workers n).cursor = ((g.incoming n).idxOf f + 1) % (g.incoming n).length

omit [DecidableEq β] in
theorem quiet_not_onFrame {w w' : Worker β} {pc : WorkerPc β} (h : Quiet g s n w pc w')
    (f : EdgeDescriptor) (x : Stamped (Frame β)) : w'.pc ≠ .onFrame f x := by
  cases h with
  | sent =>
    unfold State.routed
    split_ifs
    · cases w.delay <;> simp
    · simp
  | lost r h | closed =>
    unfold Worker.failed
    split_ifs <;> simp
  | _ => simp

theorem cursorInv {C : State β → Label β → Prop} (hr : (system g o).ReachableBy C s) :
    CursorInv g s := by
  refine hr.invariant (I := CursorInv g) (fun s h => ?_) fun s a s' _ hi _ h => ?_
  · rw [show s = State.initial g o from h]
    intro n f x hpc
    simp [State.initial] at hpc
  · intro n f x hpc
    rcases step_workers h with hw | ⟨m, call, rfl, -, hstep⟩
    · rw [hw] at hpc ⊢
      exact hi n f x hpc
    have hm := workerStep_move hstep
    by_cases hnm : n = m
    · subst hnm
      generalize (s.workers n).pc = pc at hm
      cases hm with
      | quiet pc w' hq => exact absurd (by simpa using hpc) (quiet_not_onFrame hq f x)
      | callback pc s₀ s' hc hr => cases hr <;> simp at hpc
      | popFrame observed offset f' cursor x' xs hp hq =>
        simp only [State.setWorker, Function.update_self, WorkerPc.onFrame.injEq] at hpc
        obtain ⟨rfl, -⟩ := hpc
        obtain ⟨-, hmem, hidx, hcursor⟩ := polled_some hp
        refine ⟨hmem, ?_⟩
        simp only [State.setWorker, Function.update_self]
        rw [hidx, hcursor]
        rfl
      | _ => simp at hpc
    · rw [(workerMove_frame hm).workers n hnm] at hpc ⊢
      exact hi n f x hpc

omit [DecidableEq β] in
/-- The allowance is less than the number of incoming edges. -/
theorem allowance_lt (he : e ∈ g.incoming n) (hi : CursorInv g s) :
    allowance g n e (s.workers n) < (g.incoming n).length := by
  have hlt := turn_lt he (s.workers n).cursor
  have hidx := List.idxOf_lt_length_iff.mpr he
  cases hpc : (s.workers n).pc with
  | pollFrames observed offset =>
    simp only [allowance, hpc]
    split_ifs <;> omega
  | onFrame f x =>
    obtain ⟨hf, hcursor⟩ := hi n f x hpc
    simp only [allowance, hpc]
    split_ifs with hfe
    · omega
    · unfold turn
      rw [hcursor]
      exact ahead_succ_lt hidx (List.idxOf_lt_length_iff.mpr hf)
        fun h => hfe ((List.idxOf_inj hf).mp h.symm)
  | _ =>
    simp only [allowance, hpc]
    exact hlt

theorem passing_run (he : e ∈ g.incoming n) {t : State β}
    (h : (system g o).StepsBy (Waits g n e) s t) :
    s.servings n e ≤ t.servings n e ∧ (t.servings n e = s.servings n e →
      t.passing n e + allowance g n e (t.workers n) ≤
        s.passing n e + allowance g n e (s.workers n)) := by
  induction h with
  | refl => exact ⟨le_rfl, fun _ => le_rfl⟩
  | @tail u t _ hs ih =>
    obtain ⟨a, hwait, ha⟩ := hs
    have hmono := servings_step (n := n) (e := e) ha
    refine ⟨ih.1.trans hmono, fun heq => ?_⟩
    have hserve : u.servings n e = s.servings n e := le_antisymm (heq ▸ hmono) ih.1
    have hstep := passing_step he ha hwait (heq.trans hserve.symm)
    exact hstep.trans (ih.2 hserve)

end Running

/-- While an edge of a consumer with `n` incoming edges has frames waiting, and none of them is
processed, at most `n - 1` frames of its other edges are. -/
theorem bounded_fairness [DecidableEq β] {s t : State β} (hr : (system g o).Reachable s)
    (he : e ∈ g.incoming n) (hrun : (system g o).StepsBy (Waits g n e) s t)
    (hunserved : t.servings n e = s.servings n e) :
    t.passing n e ≤ s.passing n e + ((g.incoming n).length - 1) := by
  have hspent := (passing_run he hrun).2 hunserved
  have hlt := allowance_lt he (cursorInv hr)
  omega

/-- Two sources and a sink that takes the frames and signals of both. -/
def fanInEdge (source : NodeId) : EdgeDescriptor :=
  ⟨source, source, 0, 2, source, .text, ⟨4, .block, sampleOptions.signalQueueCapacity_pos⟩,
    .typeGateOnly, .identity, true⟩

def fanInGraph : GraphDefinition where
  nodes := [⟨0, .source, [⟨0, .output, .text⟩]⟩, ⟨1, .source, [⟨0, .output, .text⟩]⟩,
    ⟨2, .sink, [⟨0, .input, .text⟩, ⟨1, .input, .text⟩]⟩]
  edges := [fanInEdge 0, fanInEdge 1]
  topologicalOrder := [0, 1, 2]
  nodes_nodup := by decide
  edges_nodup := by decide
  order_perm := by decide
  endpoints := by decide
  forward := by decide
  no_source_input := by decide

abbrev fanInSystem : Transition.System (State Unit) (Label Unit) :=
  system fanInGraph sampleOptions

namespace Label

/-- `k` actions of the dispatcher of a source's edge. -/
def fans (source : NodeId) (k : ℕ) : List (Label Unit) :=
  .replicate k (.dispatcher (fanInEdge source) ⟨.ok .accept, .ok (.drop ""), .ok (), .ok ()⟩)

/-- Source 0 sends a signal and a frame, source 1 two frames, and the sink takes the signal. -/
def fanIn : List (Label Unit) :=
  works 0 2 ++ works 1 2 ++ works 2 2 ++ works 0 4 ++ works 1 4 ++ works 2 4 ++
    [call 0 ⟨[(0, sampleFrame 1)], [sampleSignal 2], some 0⟩,
      call 1 ⟨[(0, sampleFrame 3), (0, sampleFrame 4)], [], none⟩] ++
    works 0 2 ++ fans 0 5 ++ works 0 6 ++ fans 0 3 ++ works 1 2 ++ fans 1 6 ++ works 2 5

/-- Source 0 sends another signal. -/
def anotherSignal : List (Label Unit) :=
  works 0 1 ++ [call 0 ⟨[], [sampleSignal 5], none⟩] ++ works 0 2 ++ fans 0 4

end Label

/-- After the signal of edge 0 one frame of edge 1 is processed while edge 0 waits. -/
theorem bounded_fairness_attained :
    ∃ s t, fanInSystem.Reachable s ∧ fanInSystem.StepsBy (Waits fanInGraph 2 (fanInEdge 0)) s t ∧
      t.passing 2 (fanInEdge 0) = s.passing 2 (fanInEdge 0) + 1 ∧
      t.passing 2 (fanInEdge 0) ≤
        s.passing 2 (fanInEdge 0) + ((fanInGraph.incoming 2).length - 1) := by
  obtain ⟨s, hr, hs⟩ := fanInSystem.exists_reachable_of_run rfl Label.fanIn
    (fun s => (fanInSystem.runBy (Waits fanInGraph 2 (fanInEdge 0)) s (Label.works 2 13)).any
      fun t => t.servings 2 (fanInEdge 0) = s.servings 2 (fanInEdge 0) ∧
        t.passing 2 (fanInEdge 0) = s.passing 2 (fanInEdge 0) + 1) (by decide +kernel)
  obtain ⟨t, ht, hcounts⟩ := (Option.any_eq_true _ _).mp hs
  have hrun := Transition.System.stepsBy_of_runBy ht
  simp only [decide_eq_true_eq] at hcounts
  exact ⟨s, t, hr, hrun, hcounts.2, bounded_fairness hr (by decide) hrun hcounts.1⟩

/-- When another signal of edge 0 arrives between the frames of edge 1, edge 0 is passed twice. -/
theorem signals_starve :
    ∃ s t, fanInSystem.Reachable s ∧
      fanInSystem.StepsBy (fun s _ => (s.queues (fanInEdge 0)).frames ≠ []) s t ∧
      t.servings 2 (fanInEdge 0) = s.servings 2 (fanInEdge 0) ∧
      s.passing 2 (fanInEdge 0) + ((fanInGraph.incoming 2).length - 1) <
        t.passing 2 (fanInEdge 0) := by
  obtain ⟨s, hr, hs⟩ := fanInSystem.exists_reachable_of_run rfl Label.fanIn
    (fun s => (fanInSystem.runBy (fun s _ => (s.queues (fanInEdge 0)).frames ≠ []) s
      (Label.works 2 5 ++ Label.anotherSignal ++ Label.works 2 17)).any
      fun t => t.servings 2 (fanInEdge 0) = s.servings 2 (fanInEdge 0) ∧
        s.passing 2 (fanInEdge 0) + ((fanInGraph.incoming 2).length - 1) <
          t.passing 2 (fanInEdge 0)) (by decide +kernel)
  obtain ⟨t, ht, hcounts⟩ := (Option.any_eq_true _ _).mp hs
  simp only [decide_eq_true_eq] at hcounts
  exact ⟨s, t, hr, Transition.System.stepsBy_of_runBy ht, hcounts⟩

end Muxiva.Runtime
