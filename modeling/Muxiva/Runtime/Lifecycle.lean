import Muxiva.Runtime.Exits
import Muxiva.Runtime.Outcome

/-! The lifecycle callbacks of a concurrent run: what each worker has called so far, and how the
coordinator goes on once the workers are gone. -/
set_option linter.all false
namespace Muxiva.Runtime

variable {β : Type} {g : GraphDefinition} {o : RuntimeOptions} {s s' : State β}

/-- `on_prepare` was called. -/
def WorkerPc.visited : WorkerPc β → Bool
  | .prepare => false
  | _ => true

/-- Inside `run_source` or `run_consumer`. -/
def WorkerPc.inBody : WorkerPc β → Bool
  | .prepare | .arrive | .gate | .checkCancelled | .markRunning | .enter | .fail _ | .closing _
  | .leave | .exit | .exited => false
  | _ => true

theorem quiet_inBody {n : NodeId} {pc : WorkerPc β} {w w' : Worker β} (h : Quiet g s n w pc w')
    (hb : w'.pc.inBody = true) : pc.inBody = true ∨ w.prepared = true := by
  cases h with
  | enterSource hp hs hc => exact .inr hp
  | enterConsumer hp hs => exact .inr hp
  | lost r h | closed =>
    unfold Worker.failed at hb
    split_ifs at hb <;> cases hb
  | sent => exact .inl rfl
  | _ => first | exact .inl rfl | cases hb

theorem workerMove_inBody {n : NodeId} {call : NodeCall (NodeCallOutput β)} {pc : WorkerPc β}
    (h : WorkerMove g o s n (s.workers n) call pc s') (hb : (s'.workers n).pc.inBody = true) :
    pc.inBody = true ∨ (s.workers n).prepared = true := by
  cases h with
  | quiet pc w' h => exact quiet_inBody h (by simpa using hb)
  | callback pc s₀ s' hc hr => exact .inl (by cases hc <;> rfl)
  | _ => first | exact .inl rfl | simp [WorkerPc.inBody] at hb

theorem quiet_visited {n : NodeId} {pc : WorkerPc β} {w w' : Worker β} (h : Quiet g s n w pc w') :
    pc.visited = true ∧ w'.pc.visited = true := by
  cases h with
  | sent =>
    refine ⟨rfl, ?_⟩
    unfold State.routed
    split_ifs
    · cases w.delay <;> rfl
    · rfl
  | lost r h | closed =>
    refine ⟨rfl, ?_⟩
    unfold Worker.failed
    split_ifs <;> rfl
  | _ => exact ⟨rfl, rfl⟩

/-- Every move leaves a visited worker; only the first one finds it unvisited. -/
theorem workerMove_visited {n : NodeId} {call : NodeCall (NodeCallOutput β)} {pc : WorkerPc β}
    (h : WorkerMove g o s n (s.workers n) call pc s') : (s'.workers n).pc.visited = true := by
  cases h with
  | quiet pc w' h => simpa using (quiet_visited h).2
  | callback pc s₀ s' hc hr => cases hr <;> simp [WorkerPc.visited]
  | _ => simp [WorkerPc.visited]

theorem visited_eq_false {pc : WorkerPc β} : pc.visited = false ↔ pc = .prepare := by
  cases pc <;> simp [WorkerPc.visited]

/-- A refused `on_prepare` leaves a reason behind once its worker has passed `fail_graph`. -/
theorem workerMove_refused {n : NodeId} {call : NodeCall (NodeCallOutput β)}
    (hmono : ∀ r, s.control.reason = some r → s'.control.reason = some r)
    (hopen : s.control.successSealed = false ∧ s.control.result = none)
    (h : WorkerMove g o s n (s.workers n) call (s.workers n).pc s')
    (hold : (s.workers n).prepared = false → (s.workers n).pc.visited = true →
      (∀ r, (s.workers n).pc ≠ .fail r) → s.control.reason.isSome = true)
    (hp : (s'.workers n).prepared = false) (hf : ∀ r, (s'.workers n).pc ≠ .fail r) :
    s'.control.reason.isSome = true := by
  have hframe := workerMove_frame h
  by_cases hprep : (s.workers n).pc = .prepare
  · rw [hprep] at h
    cases h with
    | quiet pc w' hq => cases hq
    | callback pc s₀ s' hc hr => cases hc
    | prepared out h => simp at hp
    | notPrepared r h => exact absurd (by simp) (hf r)
  · rw [hframe.prepared hprep] at hp
    by_cases hfail : ∃ r, (s.workers n).pc = .fail r
    · obtain ⟨r, hr⟩ := hfail
      rw [hr] at h
      cases h with
      | quiet pc w' hq =>
        cases hq with
        | lost r hlost =>
          obtain ⟨heq, -⟩ | ⟨-, -, -, hwon, -⟩ := requestAbort_cases s.control r
          · by_contra hnone
            simp only [State.setWorker, Bool.not_eq_true, Option.isSome_eq_false_iff,
              Option.isNone_iff_eq_none] at hnone
            simp [ControlState.requestAbort, hnone, hopen.1, hopen.2] at hlost
          · rw [hlost] at hwon
            cases hwon
      | callback pc s₀ s' hc hr => cases hc
      | won r hwon =>
        obtain ⟨-, hlost⟩ | ⟨-, -, -, -, st, heq⟩ := requestAbort_cases s.control r
        · rw [hlost] at hwon
          cases hwon
        · simp [heq]
    · have hvis : (s.workers n).pc.visited = true := by
        by_contra hv
        exact hprep (visited_eq_false.mp (by simpa using hv))
      obtain ⟨r, hr⟩ := Option.isSome_iff_exists.mp (hold hp hvis fun r hr => hfail ⟨r, hr⟩)
      rw [hmono r hr]
      rfl

def State.visited (s : State β) (n : NodeId) : Bool := (s.workers n).pc.visited

def State.prepared (s : State β) (n : NodeId) : Bool := (s.workers n).prepared

/-- The reason a published result carries. -/
def RunResult.reason : RunResult → Option AbortReason
  | .ok _ => none
  | .err r => some r

/-- How far the terminal callbacks are when the coordinator is at `pc`. -/
def CoordShape (order : List NodeId) (prepared : NodeId → Bool) (c : ControlState)
    (done : List NodeId) (failed : Option NodeId) (aborted : List NodeId) (reason : AbortReason) :
    CoordinatorPc → Prop
  | .collect | .checkReason | .beginFinishing => done = [] ∧ failed = none ∧ aborted = []
  | .finish rest => order.reverse = done ++ rest ∧ failed = none ∧ aborted = [] ∧
      ∀ n ∈ order, prepared n = true
  | .fail _ => failed.isSome = true ∧ aborted = []
  | .closing _ => aborted = [] ∧ c.reason.isSome = true
  | .sealSuccess => aborted = [] ∧ (done = order.reverse ∧ failed = none ∨ c.reason.isSome = true)
  | .publishSuccess => done = order.reverse ∧ failed = none ∧ aborted = []
  | .beginAborting => aborted = []
  | .abort r rest => reason = r ∧ ∃ past, order.reverse = past ++ rest ∧
      aborted = past.filter prepared
  | .done => ∀ out, c.result = some out →
      Completed order prepared done failed aborted reason out.reason
  | .panicked => True

/-- The coordinator's part survives what other threads do to the control state. -/
theorem CoordShape.mono {order : List NodeId} {prepared : NodeId → Bool} {c c' : ControlState}
    {done : List NodeId} {failed : Option NodeId} {aborted : List NodeId} {reason : AbortReason}
    {pc : CoordinatorPc} (h : CoordShape order prepared c done failed aborted reason pc)
    (hr : ∀ r, c.reason = some r → c'.reason = some r) (hres : c'.result = c.result) :
    CoordShape order prepared c' done failed aborted reason pc := by
  have hsome : c.reason.isSome = true → c'.reason.isSome = true := by
    intro hs
    obtain ⟨r, hcr⟩ := Option.isSome_iff_exists.mp hs
    rw [hr r hcr]
    rfl
  cases pc with
  | closing ts => exact ⟨h.1, hsome h.2⟩
  | sealSuccess => exact ⟨h.1, h.2.imp_right hsome⟩
  | done =>
    intro out ho
    exact h out (by rw [← hres]; exact ho)
  | _ => exact h

structure LifecycleInv (g : GraphDefinition) (s : State β) : Prop where
  body : ∀ n, (s.workers n).pc.inBody = true → (s.workers n).prepared = true
  refused : ∀ n, (s.workers n).prepared = false → (s.workers n).pc.visited = true →
    (∀ r, (s.workers n).pc ≠ .fail r) → s.control.reason.isSome = true
  shape : ∃ work done failed aborted r,
    TraceShape g.topologicalOrder s.visited s.prepared s.log.trace work done failed aborted r ∧
      CoordShape g.topologicalOrder s.prepared s.control done failed aborted r s.coordinator.pc

/-- Steps that leave workers, trace and coordinator alone. -/
theorem LifecycleInv.of_frame (hi : LifecycleInv g s) (hw : s'.workers = s.workers)
    (ht : s'.log.trace = s.log.trace) (hk : s'.coordinator = s.coordinator)
    (hr : ∀ r, s.control.reason = some r → s'.control.reason = some r)
    (hres : s'.control.result = s.control.result) : LifecycleInv g s' := by
  obtain ⟨work, done, failed, aborted, r, hshape, hcoord⟩ := hi.shape
  have hv : s'.visited = s.visited := by
    funext n
    simp [State.visited, hw]
  have hp : s'.prepared = s.prepared := by
    funext n
    simp [State.prepared, hw]
  refine ⟨by rw [hw]; exact hi.body, fun n hn hvis hf => ?_, work, done, failed, aborted, r, ?_, ?_⟩
  · rw [hw] at hn hvis hf
    obtain ⟨r', hr'⟩ := Option.isSome_iff_exists.mp (hi.refused n hn hvis hf)
    rw [hr r' hr']
    rfl
  · rw [hv, hp, ht]
    exact hshape
  · rw [hp, hk]
    exact hcoord.mono hr hres

/-- Only the coordinator publishes. -/
theorem requestAbort_result (c : ControlState) (r : AbortReason) :
    (c.requestAbort r).2.result = c.result := by
  obtain ⟨heq, -⟩ | ⟨-, -, -, -, st, heq⟩ := requestAbort_cases c r <;> rw [heq]

theorem markRunning_result (c : ControlState) : c.markRunning.result = c.result := by
  unfold ControlState.markRunning
  split_ifs <;> rfl

/-- A worker adds a work event of its own node to the trace, or none. -/
theorem workTrace_step {n : NodeId} {call : NodeCall (NodeCallOutput β)} {work : List Event}
    (hm : WorkerMove g o s n (s.workers n) call (s.workers n).pc s')
    (hbody : (s.workers n).pc.inBody = true → (s.workers n).prepared = true)
    (hw : WorkTrace n (s.visited n) (s.prepared n) (nodeTrace n work)) :
    ∃ evs, s'.log.trace = s.log.trace ++ evs ∧ (∀ ev ∈ evs, ev.isWork = true ∧ ev.node = n) ∧
      WorkTrace n (s'.visited n) (s'.prepared n) (nodeTrace n (work ++ evs)) := by
  have hframe := workerMove_frame hm
  have hvis := workerMove_visited hm
  by_cases hprep : (s.workers n).pc = .prepare
  · have hempty : nodeTrace n work = [] := hw.absent (by simp [State.visited, hprep, WorkerPc.visited])
    -- the first callback of the node
    have hnew : ∀ ok, (s'.workers n).prepared = ok → WorkTrace n (s'.visited n) (s'.prepared n)
        (nodeTrace n (work ++ [Event.prepare n ok])) := by
      intro ok hok
      refine ⟨fun hv => ?_, fun _ => ⟨[], ?_, by simp, fun _ => rfl⟩, fun _ => hvis⟩
      · simp [State.visited, hvis] at hv
      · rw [TraceShape.nodeTrace_append, hempty]
        simp [nodeTrace, Event.node, State.prepared, hok]
    rw [hprep] at hm
    have hunprep : (s.workers n).prepared = false := by
      by_contra hne
      have := hw.entered (by simpa [State.prepared] using hne)
      simp [State.visited, hprep, WorkerPc.visited] at this
    cases hm with
    | quiet pc w' hq => cases hq
    | callback pc s₀ s' hc hr => cases hc
    | prepared out h =>
      exact ⟨[.prepare n true], rfl, by simp [Event.isWork, Event.isFinish, Event.isAbort,
        Event.node], hnew true (by simp)⟩
    | notPrepared r h =>
      exact ⟨[.prepare n false], rfl, by simp [Event.isWork, Event.isFinish, Event.isAbort,
        Event.node], hnew false (by simp [hunprep])⟩
  · have hvisited : s.visited n = true := by
      by_contra hv
      exact hprep (visited_eq_false.mp (by simpa [State.visited] using hv))
    have hpeq : s'.prepared n = s.prepared n := hframe.prepared hprep
    have hevents : ∀ ev ∈ (s.workers n).pc.events n, ev.isWork = true ∧ ev.node = n ∧
        ev.isCall = true ∧ (s.workers n).prepared = true := by
      intro ev hev
      cases hpc : (s.workers n).pc <;> rw [hpc] at hev hbody <;>
        simp only [WorkerPc.events, List.mem_singleton, List.not_mem_nil] at hev
      all_goals
        subst hev
        exact ⟨rfl, rfl, rfl, hbody rfl⟩
    refine ⟨_, hframe.trace hprep, fun ev hev => ⟨(hevents ev hev).1, (hevents ev hev).2.1⟩, ?_⟩
    obtain ⟨calls, hcalls, hiscall, hnone⟩ := hw.first hvisited
    refine ⟨fun hv => ?_, fun _ => ⟨calls ++ (s.workers n).pc.events n, ?_, ?_, ?_⟩, fun _ => hvis⟩
    · simp [State.visited, hvis] at hv
    · have hself : nodeTrace n ((s.workers n).pc.events n) = (s.workers n).pc.events n :=
        List.filter_eq_self.mpr fun ev hev => by simp [(hevents ev hev).2.1]
      rw [TraceShape.nodeTrace_append, hcalls, hpeq, hself]
      rfl
    · intro ev hev
      rcases List.mem_append.mp hev with hev | hev
      · exact hiscall ev hev
      · exact (hevents ev hev).2.2.1
    · intro hp
      rw [hpeq] at hp
      have hev : (s.workers n).pc.events n = [] := by
        rw [List.eq_nil_iff_forall_not_mem]
        intro ev hev
        have := (hevents ev hev).2.2.2
        simp [State.prepared, this] at hp
      rw [hnone hp, hev]
      rfl

/-- A worker steps only while the coordinator collects. -/
theorem collecting_of_move {n : NodeId} {call : NodeCall (NodeCallOutput β)}
    (hn : n ∈ g.topologicalOrder) (hx : ExitInv g s)
    (hm : WorkerMove g o s n (s.workers n) call (s.workers n).pc s') :
    s.coordinator.pc = .collect := by
  by_contra hc
  have hfin := allFinished_worker (hx.collected hc).2 hn
  rw [workerMove_not_finished hm] at hfin
  cases hfin

theorem lifecycleInv_worker {n : NodeId} {call : NodeCall (NodeCallOutput β)}
    (hn : n ∈ g.topologicalOrder) (hx : ExitInv g s)
    (hc : ControlInv ⟨g.nodes.length⟩ s.control s.coordinator.pc.phase)
    (hr : ∀ r, s.control.reason = some r → s'.control.reason = some r)
    (hi : LifecycleInv g s) (h : s.workerStep g o n call = some s') : LifecycleInv g s' := by
  have hm := workerStep_move h
  have hf := workerMove_frame hm
  have hcollect := collecting_of_move hn hx hm
  have hopen : s.control.successSealed = false ∧ s.control.result = none := by
    rw [hcollect] at hc
    refine ⟨?_, (hc.unpublished (by simp [CoordinatorPc.phase])).1⟩
    by_contra hs
    simpa [CoordinatorPc.phase] using (hc.sealed (by simpa using hs)).2
  obtain ⟨work, done, failed, aborted, r, hshape, hcoord⟩ := hi.shape
  rw [hcollect] at hcoord
  obtain ⟨rfl, rfl, rfl⟩ := hcoord
  have hwork : s.log.trace = work := by simpa using hshape.trace
  obtain ⟨evs, hevs, hmine, htrace⟩ := workTrace_step hm (hi.body n) (hshape.nodes n hn)
  refine ⟨fun m hb => ?_, fun m hp hv hnf => ?_, work ++ evs, [], none, [], r,
    ⟨by rw [hevs, hwork]; simp, fun ev hev => ?_, fun m hmem => ?_, by simp, by simp, by simp⟩, ?_⟩
  · by_cases hmn : m = n
    · subst hmn
      have hprep : (s.workers m).prepared = true :=
        (workerMove_inBody hm hb).elim (hi.body m) id
      by_cases hpc : (s.workers m).pc = .prepare
      · rw [hpc] at hm
        cases hm with
        | quiet pc w' hq => cases hq
        | callback pc s₀ s' hc hr => cases hc
        | prepared out h => simp
        | notPrepared r h => simp [hprep]
      · rw [hf.prepared hpc]
        exact hprep
    · rw [hf.workers m hmn] at hb ⊢
      exact hi.body m hb
  · by_cases hmn : m = n
    · subst hmn
      exact workerMove_refused hr hopen hm (hi.refused m) hp hnf
    · rw [hf.workers m hmn] at hp hv hnf
      obtain ⟨r', hr'⟩ := Option.isSome_iff_exists.mp (hi.refused m hp hv hnf)
      rw [hr r' hr']
      rfl
  · rcases List.mem_append.mp hev with hev | hev
    · exact hshape.isWork ev hev
    · exact (hmine ev hev).1
  · by_cases hmn : m = n
    · subst hmn
      exact htrace
    · have hother : nodeTrace m evs = [] := by
        unfold nodeTrace
        rw [List.filter_eq_nil_iff]
        intro ev hev
        simp [(hmine ev hev).2, Ne.symm hmn]
      rw [TraceShape.nodeTrace_append, hother, List.append_nil,
        show s'.visited m = s.visited m by simp [State.visited, hf.workers m hmn],
        show s'.prepared m = s.prepared m by simp [State.prepared, hf.workers m hmn]]
      exact hshape.nodes m hmem
  · rw [hf.coordinator, hcollect]
    exact ⟨rfl, rfl, rfl⟩

/-- Once every exit is in, every worker is gone and its exit received. -/
theorem collected_exited (hx : ExitInv g s) (hlive : ∀ n, (s.workers n).pc ≠ .dead)
    (hc : s.coordinator.pc ≠ .collect) {n : NodeId} (hn : n ∈ g.topologicalOrder) :
    (s.workers n).pc = .exited ∧ n ∈ s.coordinator.nodes := by
  have hfin := allFinished_worker (hx.collected hc).2 hn
  have hpc : (s.workers n).pc = .exited := by
    cases hpc : (s.workers n).pc with
    | exited => rfl
    | dead => exact absurd hpc (hlive n)
    | _ => simp [hpc, WorkerPc.finished] at hfin
  rcases hx.sent n hpc with hmem | ⟨p, hp⟩
  · exact ⟨hpc, hmem⟩
  · simp [(hx.collected hc).1] at hp

/-- The coordinator's own step, from the shape of the trace after it. -/
theorem LifecycleInv.of_coordinator (hi : LifecycleInv g s) (hw : s'.workers = s.workers)
    (hr : ∀ r, s.control.reason = some r → s'.control.reason = some r)
    (hshape : ∃ work done failed aborted r,
      TraceShape g.topologicalOrder s.visited s.prepared s'.log.trace work done failed aborted r ∧
      CoordShape g.topologicalOrder s.prepared s'.control done failed aborted r
        s'.coordinator.pc) : LifecycleInv g s' := by
  have hv : s'.visited = s.visited := by
    funext n
    simp [State.visited, hw]
  have hp : s'.prepared = s.prepared := by
    funext n
    simp [State.prepared, hw]
  refine ⟨by rw [hw]; exact hi.body, fun n hn hvis hf => ?_, by rw [hv, hp]; exact hshape⟩
  rw [hw] at hn hvis hf
  obtain ⟨r, hr'⟩ := Option.isSome_iff_exists.mp (hi.refused n hn hvis hf)
  rw [hr r hr']
  rfl

theorem lifecycleInv_coordinator {call : NodeCall Unit} (hx : ExitInv g s)
    (hlive : ∀ n, (s.workers n).pc ≠ .dead)
    (hc : ControlInv ⟨g.nodes.length⟩ s.control s.coordinator.pc.phase)
    (hr : ∀ r, s.control.reason = some r → s'.control.reason = some r)
    (hi : LifecycleInv g s) (h : s.coordinatorStep g o call = some s') : LifecycleInv g s' := by
  refine hi.of_coordinator (coordinatorStep_workers h) hr ?_
  obtain ⟨work, done, failed, aborted, r, hshape, hcoord⟩ := hi.shape
  have hgone : s.coordinator.pc ≠ .collect → ∀ n ∈ g.topologicalOrder,
      (s.workers n).pc = .exited ∧ n ∈ s.coordinator.nodes :=
    fun hne n hn => collected_exited hx hlive hne hn
  cases hpc : s.coordinator.pc with
  | collect =>
    rw [hpc] at hcoord
    simp only [State.coordinatorStep, hpc] at h
    split at h
    · cases h
      exact ⟨work, done, failed, aborted, r, hshape, hcoord⟩
    · cases h
      exact ⟨work, done, failed, aborted, r, hshape, by rw [hpc]; exact hcoord⟩
    · split_ifs at h
      cases h
      exact ⟨work, done, failed, aborted, r, hshape, hcoord⟩
  | checkReason =>
    rw [hpc] at hcoord
    simp only [State.coordinatorStep, hpc] at h
    cases h
    refine ⟨work, done, failed, aborted, r, hshape, ?_⟩
    split_ifs
    · exact hcoord
    · exact hcoord.2.2
  | beginFinishing =>
    rw [hpc] at hcoord
    obtain ⟨rfl, rfl, rfl⟩ := hcoord
    simp only [State.coordinatorStep, hpc] at h
    split at h <;> rename_i hbegin <;> cases h
    · refine ⟨work, [], none, [], r, hshape, by simp, rfl, rfl, fun n hn => ?_⟩
      have hnone : s.control.reason = none := by
        by_contra hne
        simp [ControlState.beginFinishing, Option.isSome_iff_ne_none.mpr hne] at hbegin
      by_contra hp
      have hexit := (hgone (by simp [hpc]) n hn).1
      have := hi.refused n (by simpa [State.prepared] using hp)
        (by simp [hexit, WorkerPc.visited]) (by simp [hexit])
      simp [hnone] at this
    · exact ⟨work, [], none, [], r, hshape, rfl⟩
  | finish rest =>
    rw [hpc] at hcoord
    obtain ⟨hrest, hfail, habort, hall⟩ := hcoord
    cases rest with
    | nil =>
      simp only [State.coordinatorStep, hpc] at h
      cases h
      exact ⟨work, done, failed, aborted, r, hshape, habort, .inl ⟨by simpa using hrest.symm, hfail⟩⟩
    | cons n rest =>
      have hmem : n ∈ s.coordinator.nodes :=
        (hgone (by simp [hpc]) n (List.mem_reverse.mp (by simp [hrest]))).2
      simp only [State.coordinatorStep, hpc, if_pos hmem] at h
      split at h <;> cases h
      · exact ⟨work, done ++ [n], failed, aborted, r, hshape.finish_ok hrest hfail habort hall,
          by simp [hrest], hfail, habort, hall⟩
      · exact ⟨work, done, some n, aborted, r, hshape.finish_failed hrest hfail habort hall, rfl,
          habort⟩
  | fail r' =>
    rw [hpc] at hcoord hc
    simp only [State.coordinatorStep, hpc] at h
    refine ⟨work, done, failed, aborted, r, ?_⟩
    split at h <;> rename_i hreq <;> cases h
    · refine ⟨hshape, hcoord.2, ?_⟩
      obtain ⟨-, hlost⟩ | ⟨-, -, -, -, st, heq⟩ := requestAbort_cases s.control r'
      · simp [hreq] at hlost
      · have hreason := congrArg ControlState.reason heq
        rw [hreq] at hreason
        exact Option.isSome_iff_exists.mpr ⟨r', hreason⟩
    · refine ⟨hshape, hcoord.2, .inr ?_⟩
      obtain ⟨hres, -⟩ := hc.unpublished (by simp [CoordinatorPc.phase])
      have hsealed : s.control.successSealed = false := by
        by_contra hs
        simpa [CoordinatorPc.phase] using (hc.sealed (by simpa using hs)).2
      by_contra hnone
      simp only [Bool.not_eq_true, Option.isSome_eq_false_iff, Option.isNone_iff_eq_none] at hnone
      simp [ControlState.requestAbort, hnone, hsealed, hres] at hreq
  | closing ts =>
    rw [hpc] at hcoord
    cases ts with
    | nil =>
      simp only [State.coordinatorStep, hpc] at h
      cases h
      exact ⟨work, done, failed, aborted, r, hshape, hcoord.1, .inr hcoord.2⟩
    | cons t ts =>
      simp only [State.coordinatorStep, hpc] at h
      cases h
      have ht := runTask_sameThreads s t
      refine ⟨work, done, failed, aborted, r, ?_, hcoord.1, ?_⟩
      · rw [show (s.runTask t).log = s.log from ht.log]
        exact hshape
      · rw [show (s.runTask t).control = s.control from ht.control]
        exact hcoord.2
  | sealSuccess =>
    rw [hpc] at hcoord
    simp only [State.coordinatorStep, hpc] at h
    refine ⟨work, done, failed, aborted, r, ?_⟩
    split at h <;> rename_i hseal <;> cases h
    · have hnone : s.control.reason = none := by
        by_contra hne
        simp [ControlState.sealSuccess, hne] at hseal
      obtain ⟨hd, hf⟩ := hcoord.2.resolve_right (by simp [hnone])
      exact ⟨hshape, hd, hf, hcoord.1⟩
    · exact ⟨hshape, hcoord.1⟩
  | publishSuccess =>
    rw [hpc] at hcoord
    simp only [State.coordinatorStep, hpc] at h
    cases h
    refine ⟨work, done, failed, aborted, r, hshape, fun out ho => ⟨fun _ => hcoord, fun r' hr' => ?_⟩⟩
    simp only [ControlState.publishSuccess, Option.some.injEq] at ho
    subst ho
    simp [RunResult.reason] at hr'
  | beginAborting =>
    rw [hpc] at hcoord
    change aborted = [] at hcoord
    simp only [State.coordinatorStep, hpc] at h
    split at h <;> rename_i hbegin <;> cases h
    · rename_i r' _
      exact ⟨work, done, failed, aborted, r', hshape.with_reason hcoord r', rfl, [], rfl,
        by simp [hcoord]⟩
    · exact ⟨work, done, failed, aborted, r, hshape, trivial⟩
  | abort r' rest =>
    rw [hpc] at hcoord
    obtain ⟨rfl, past, hpast, habort⟩ := hcoord
    cases rest with
    | nil =>
      simp only [State.coordinatorStep, hpc] at h
      cases h
      refine ⟨work, done, failed, aborted, r, hshape, fun out ho => ?_⟩
      simp only [ControlState.publishAbort, Option.some.injEq] at ho
      subst ho
      refine ⟨by simp [RunResult.reason], fun r' hr' => ⟨by simpa [RunResult.reason] using hr', ?_⟩⟩
      rw [hpast, List.append_nil]
      exact habort
    | cons n rest =>
      have hmem := (hgone (by simp [hpc]) n (List.mem_reverse.mp (by simp [hpast]))).2
      simp only [State.coordinatorStep, hpc] at h
      split_ifs at h with hcond <;> cases h
      · have hp : s.prepared n = true := ((hx.prepared n).mp hcond.1).2
        exact ⟨work, done, failed, aborted ++ [n], r, hshape.abort_next hpast habort hp, rfl,
          past ++ [n], by simp [hpast], by simp [habort, hp]⟩
      · have hp : s.prepared n = false := by
          by_contra hne
          exact hcond ⟨(hx.prepared n).mpr ⟨hmem, by simpa [State.prepared] using hne⟩, hmem⟩
        exact ⟨work, done, failed, aborted, r, hshape, rfl, past ++ [n], by simp [hpast],
          by simp [habort, hp]⟩
  | done => simp [State.coordinatorStep, hpc] at h
  | panicked => simp [State.coordinatorStep, hpc] at h

variable [DecidableEq β]

theorem lifecycleInv (hr : (system g o).ReachableBy (TicksFit g o) s) : LifecycleInv g s := by
  refine hr.invariant (I := LifecycleInv g) (fun s h => ?_) (fun s a s' hr hi _ h => ?_)
  · rw [show s = State.initial g o from h]
    refine ⟨by simp [State.initial, WorkerPc.inBody], by simp [State.initial, WorkerPc.visited],
      [], [], none, [], cancellationAbort, ⟨rfl, by simp, fun n _ => ?_, by simp, by simp,
      by simp⟩, rfl, rfl, rfl⟩
    exact ⟨fun _ => rfl, by simp [State.visited, State.initial, WorkerPc.visited],
      by simp [State.prepared, State.initial]⟩
  · have hmono : ∀ r, s.control.reason = some r → s'.control.reason = some r :=
      fun r => step_reason h
    cases a with
    | worker n call =>
      simp only [system, State.step] at h
      split_ifs at h with hn
      exact lifecycleInv_worker hn (exitInv hr) (controlInv hr) hmono hi h
    | dispatcher e answers =>
      simp only [system, State.step] at h
      split_ifs at h with he
      have hf := dispatcherMove_frame (dispatcherStep_move h)
      refine hi.of_frame hf.workers hf.trace hf.coordinator hmono ?_
      rcases dispatcherStep_control h with hv | ⟨r, hv⟩
      · rw [show s'.control = s.control from congrArg Prod.fst hv]
      · rw [show s'.control = _ from congrArg Prod.fst hv]
        exact requestAbort_result _ _
    | stopBegin => cases h; exact hi.of_frame rfl rfl rfl hmono rfl
    | stop i =>
      rcases stopStep_cases h with ⟨-, -, rfl⟩ | ⟨-, -, rfl⟩ | ⟨-, rfl⟩ | ⟨t, ts, -, rfl⟩
      · exact hi.of_frame rfl rfl rfl hmono (requestAbort_result _ _)
      · exact hi.of_frame rfl rfl rfl hmono rfl
      · exact hi.of_frame rfl rfl rfl hmono rfl
      · have ht := runTask_sameThreads s t
        exact hi.of_frame ht.workers (by simp [ht.log]) ht.coordinator hmono (by simp [ht.control])
    | coordinator call =>
      exact lifecycleInv_coordinator (exitInv hr) (worker_alive hr) (controlInv hr) hmono hi h
    | tick d => cases h; exact hi.of_frame rfl rfl rfl hmono rfl

end Muxiva.Runtime
