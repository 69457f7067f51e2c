import Muxiva.Agent.Moves

/-! Who runs on which driver. A driver is used again only after the `finally` handler of its last run
has cleared `driverBusy`, and that handler checks that the driver is still the one it ran on. -/
set_option linter.all false
namespace Muxiva.Agent

open Transition.System

/-- The run may still call its driver, or its `finally` handler is to come. -/
def Run.pending : Run → Bool
  | .scheduled | .running | .settled => true
  | .none | .cleaned => false

namespace Adapter

variable {c : Config} {s s' : Adapter} {r : ℕ}

structure Exclusive (s : Adapter) : Prop where
  current : s.driver < s.createdDrivers
  created : ∀ r, (s.requests r).run.pending → (s.requests r).driver < s.createdDrivers
  busy : ∀ r, (s.requests r).run.pending → (s.requests r).driver = s.driver → s.driverBusy
  alone : ∀ r r', (s.requests r).run.pending → (s.requests r').run.pending →
    (s.requests r).driver = (s.requests r').driver → r = r'

theorem exclusive_new : Exclusive .new := by
  constructor
  · exact Nat.one_pos
  · intro r h
    cases h
  · intro r h
    cases h
  · intro r r' h
    cases h

/-- No run is added, and the drivers stay. -/
theorem Exclusive.frame (h : Exclusive s) (hdriver : s'.driver = s.driver)
    (hbusy : s.driverBusy → s'.driverBusy) (hcreated : s'.createdDrivers = s.createdDrivers)
    (hruns : ∀ r, (s'.requests r).run.pending →
      (s.requests r).run.pending ∧ (s'.requests r).driver = (s.requests r).driver) :
    Exclusive s' := by
  constructor
  · rw [hdriver, hcreated]
    exact h.current
  · intro r hr
    rw [(hruns r hr).2, hcreated]
    exact h.created r (hruns r hr).1
  · intro r hr
    rw [(hruns r hr).2, hdriver]
    exact fun heq => hbusy (h.busy r (hruns r hr).1 heq)
  · intro r r' hr hr'
    rw [(hruns r hr).2, (hruns r' hr').2]
    exact h.alone r r' (hruns r hr).1 (hruns r' hr').1

theorem Exclusive.keeps (h : Exclusive s) (hk : Keeps s s') : Exclusive s' := by
  apply h.frame hk.driver (fun hbusy => hk.driverBusy.trans hbusy) hk.createdDrivers
  intro r hr
  rw [(hk.requests r).run] at hr
  exact ⟨hr, (hk.requests r).driver⟩

theorem Exclusive.update (h : Exclusive s) {f : Request → Request}
    (hrun : (f (s.requests r)).run.pending → (s.requests r).run.pending)
    (hdriver : (f (s.requests r)).driver = (s.requests r).driver) : Exclusive (s.update r f) := by
  refine h.frame rfl id rfl ?_
  intro r' hr'
  by_cases hne : r' = r
  · subst hne
    rw [requests_update_self] at hr' ⊢
    exact ⟨hrun hr', hdriver⟩
  · rw [requests_update_of_ne hne] at hr' ⊢
    exact ⟨hr', rfl⟩

/-- A new driver has no runs. -/
theorem Exclusive.rotateDriver (h : Exclusive s) (created : Bool) :
    Exclusive (s.rotateDriver created).1 := by
  unfold Adapter.rotateDriver
  split_ifs
  · constructor
    · exact Nat.lt_succ_self _
    · intro r hr
      exact (h.created r hr).trans (Nat.lt_succ_self _)
    · intro r hr heq
      exact absurd heq (h.created r hr).ne
    · exact h.alone
  · exact ⟨h.current, h.created, h.busy, h.alone⟩

/-- A run begins on a driver that nothing runs on. -/
theorem Exclusive.begins (h : Exclusive s) (hfree : s.driverBusy = false)
    (hdriver : s'.driver = s.driver) (hbusy : s'.driverBusy)
    (hcreated : s'.createdDrivers = s.createdDrivers) (hon : (s'.requests r).driver = s.driver)
    (hothers : ∀ r', r' ≠ r → (s'.requests r').run = (s.requests r').run ∧
      (s'.requests r').driver = (s.requests r').driver) : Exclusive s' := by
  have hnone : ∀ r', r' ≠ r → (s'.requests r').run.pending → (s'.requests r').driver ≠ s.driver := by
    intro r' hne hr' heq
    rw [(hothers r' hne).1] at hr'
    rw [(hothers r' hne).2] at heq
    have hbusy := h.busy r' hr' heq
    rw [hfree] at hbusy
    cases hbusy
  constructor
  · rw [hdriver, hcreated]
    exact h.current
  · intro r' hr'
    rw [hcreated]
    by_cases hne : r' = r
    · subst hne
      rw [hon]
      exact h.current
    · rw [(hothers r' hne).2]
      rw [(hothers r' hne).1] at hr'
      exact h.created r' hr'
  · intro _ _ _
    exact hbusy
  · intro r₁ r₂ h₁ h₂ heq
    by_cases hr₁ : r₁ = r
    · by_cases hr₂ : r₂ = r
      · exact hr₁.trans hr₂.symm
      · subst hr₁
        rw [hon] at heq
        exact absurd heq.symm (hnone r₂ hr₂ h₂)
    · by_cases hr₂ : r₂ = r
      · subst hr₂
        rw [hon] at heq
        exact absurd heq (hnone r₁ hr₁ h₁)
      · rw [(hothers r₁ hr₁).1] at h₁
        rw [(hothers r₂ hr₂).1] at h₂
        rw [(hothers r₁ hr₁).2, (hothers r₂ hr₂).2] at heq
        exact h.alone r₁ r₂ h₁ h₂ heq

/-- What `executeRequest` has done to the drivers when it waits for its race. -/
theorem enter_routes_driver (route : Route) :
    let s' := (s.enter c r).routes c r route
    (s'.driver = s.driver ∧ s'.driverBusy = true ∧ s'.createdDrivers = s.createdDrivers) ∧
    (s'.requests r).driver = s.driver ∧
    ∀ r', r' ≠ r → (s'.requests r').run = (s.requests r').run ∧
      (s'.requests r').driver = (s.requests r').driver := by
  have henter : ((s.enter c r).driver = s.driver ∧ (s.enter c r).driverBusy = true ∧
      (s.enter c r).createdDrivers = s.createdDrivers) ∧
      ((s.enter c r).requests r).driver = s.driver ∧
      ∀ r', r' ≠ r → ((s.enter c r).requests r').run = (s.requests r').run ∧
        ((s.enter c r).requests r').driver = (s.requests r').driver := by
    unfold enter
    have hk := keeps_enqueue (c := c) (s := { s with
      activeController := some r
      activeRequest := some r
      activeDriver := some s.driver
      driverBusy := true }.update r fun q => { q with
        phase := .executing
        driver := s.driver
        epoch := s.driverEpoch }) r .eventOut (.event "response.started" .none (s.requests r).sequence)
    refine ⟨⟨hk.driver, hk.driverBusy, hk.createdDrivers⟩, ?_, ?_⟩
    · rw [requests_update_self]
      exact ((hk.requests r).driver).trans (by rw [requests_update_self])
    · intro r' hne
      rw [requests_update_of_ne hne]
      have hsame := hk.requests r'
      rw [requests_update_of_ne hne] at hsame
      exact ⟨hsame.run, hsame.driver⟩
  obtain ⟨⟨hdriver, hbusy, hcreated⟩, hon, hothers⟩ := henter
  have hk : ∃ t : Adapter, Keeps (s.enter c r) t ∧ ∃ f : Request → Request,
      (s.enter c r).routes c r route = t.update r f ∧ ∀ q, (f q).driver = q.driver := by
    unfold routes
    cases route with
    | none => exact ⟨_, .refl _, _, rfl, fun _ => rfl⟩
    | selected payload =>
      exact ⟨_, keeps_sinkEvent r "route.selected" payload, _, rfl, fun _ => rfl⟩
    | fails error => exact ⟨_, .refl _, _, rfl, fun _ => rfl⟩
  obtain ⟨t, hk, f, heq, hf⟩ := hk
  intro s'
  have hs' : s' = t.update r f := heq
  rw [hs']
  refine ⟨⟨hk.driver.trans hdriver, hk.driverBusy.trans hbusy, hk.createdDrivers.trans hcreated⟩,
    ?_, ?_⟩
  · rw [requests_update_self, hf]
    exact (hk.requests r).driver.trans hon
  · intro r' hne
    rw [requests_update_of_ne hne, (hk.requests r').run, (hk.requests r').driver]
    exact hothers r' hne

theorem Exclusive.enter (h : Exclusive s) (hfree : s.driverBusy = false) (route : Route) :
    Exclusive ({ s with begun := r }.enter c r |>.routes c r route) := by
  obtain ⟨⟨hdriver, hbusy, hcreated⟩, hon, hothers⟩ :=
    enter_routes_driver (c := c) (s := { s with begun := r }) (r := r) route
  exact h.begins hfree hdriver hbusy hcreated hon hothers

theorem Exclusive.returns (h : Exclusive s) (r : ℕ) : Exclusive (s.returns r) := by
  have hbegun : Exclusive { s with begun := r } := h.frame rfl id rfl fun r hr => ⟨hr, rfl⟩
  unfold Adapter.returns
  exact hbegun.update id rfl

theorem Exclusive.begin (h : Exclusive s) {created : Bool} {route : Route}
    (hs : s.begin c r created route = some s') : Exclusive s' := by
  unfold Adapter.begin at hs
  split_ifs at hs with hnext hoff hbusy
  · cases hs
    exact h.returns r
  · have hrotated := h.rotateDriver created
    dsimp only at hs
    split_ifs at hs with hcreated
    · cases hs
      apply hrotated.enter
      unfold Adapter.rotateDriver at hcreated ⊢
      split_ifs at hcreated ⊢
      · rfl
    · cases hs
      exact hrotated.returns r
  · dsimp only at hs
    rw [if_pos rfl] at hs
    cases hs
    exact h.enter (by simpa using hbusy) route

/-- The handler clears `driverBusy` for the only run of the driver. -/
theorem Exclusive.cleanUp (h : Exclusive s) (hs : s.cleanUp r = some s') : Exclusive s' := by
  unfold Adapter.cleanUp at hs
  dsimp only at hs
  have hcleaned : Exclusive (s.update r ({ · with run := .cleaned })) :=
    h.update (fun hr => absurd hr Bool.false_ne_true) rfl
  split_ifs at hs with hsettled hcurrent
  · cases hs
    have hpending : (s.requests r).run.pending := by
      rw [hsettled]
      rfl
    refine ⟨hcleaned.current, hcleaned.created, ?_, hcleaned.alone⟩
    intro r' hr' heq
    exfalso
    by_cases hne : r' = r
    · subst hne
      dsimp only at hr'
      rw [requests_update_self] at hr'
      cases hr'
    · dsimp only at hr' heq
      rw [requests_update_of_ne hne] at hr' heq
      exact hne (h.alone r' r hr' hpending (heq.trans hcurrent.1))
  · cases hs
    exact hcleaned

theorem Exclusive.resume (h : Exclusive s) {created : Bool} (hs : s.resume c r created = some s') :
    Exclusive s' := by
  have hfail : ∀ {t : Adapter} {rotates : Bool} {payload : Payload} {message : Text},
      Exclusive t → Exclusive (t.fail c r rotates created payload message) := by
    intro t rotates payload message ht
    unfold Adapter.fail
    have hrotated : Exclusive (if rotates then t.rotateDriver created else (t, true)).1 := by
      split_ifs
      · exact ht.rotateDriver created
      · exact ht
    generalize (if rotates then t.rotateDriver created else (t, true)) = rotated at *
    dsimp only
    split_ifs
    · exact hrotated.keeps (keeps_enqueue _ _ _)
    · exact hrotated.keeps ((keeps_enqueue _ _ _).trans (keeps_enqueue _ _ _))
    · exact hrotated
  have hconclude : ∀ outcome, Exclusive (s.conclude c r outcome created) := by
    intro outcome
    unfold Adapter.conclude
    have hstops : Exclusive (s.update r ({ · with accepting := false })) := h.update id rfl
    cases outcome with
    | resolved =>
      dsimp only
      split_ifs
      · exact h.keeps (keeps_enqueue _ _ _)
      · exact h
    | rejected error =>
      dsimp only
      split_ifs
      · exact hfail hstops
      · exact hfail hstops
      · exact h
    | aborted => exact h
  unfold Adapter.resume at hs
  rw [Option.ite_none_right_eq_some] at hs
  obtain ⟨-, hs⟩ := hs
  split at hs
  · cases hs
  · rename_i outcome _
    cases hs
    have hfinished : Exclusive ((s.conclude c r outcome created).finishRequest r) := by
      unfold Adapter.finishRequest
      have hreturned := (hconclude outcome).update (r := r) (f := fun q => { q with
        phase := .returned
        accepting := false
        firstOutputTimer := false
        requestTimer := false }) id rfl
      split_ifs
      · exact hreturned.frame rfl id rfl fun r hr => ⟨hr, rfl⟩
      · exact hreturned
    exact hfinished.frame rfl id rfl fun r hr => ⟨hr, rfl⟩

theorem Exclusive.cancel (h : Exclusive s) (reason : Text) (sequence : ℕ) :
    Exclusive (s.cancel reason sequence) := by
  have hk : Keeps s (if s.hadActiveRequest then s.cancelActive else s) := by
    split_ifs
    · exact keeps_cancelActive
    · exact .refl s
  exact (h.keeps hk).frame rfl id rfl fun r hr => ⟨hr, rfl⟩

theorem Exclusive.timer (h : Exclusive s) {stage : Stage} {timeoutMs : ℕ}
    (hs : s.timer r stage timeoutMs = some s') : Exclusive s' := by
  have hfail : ∀ {t : Adapter}, Exclusive t → Exclusive (t.failForTimeout r stage timeoutMs) := by
    intro t ht
    unfold Adapter.failForTimeout
    dsimp only
    split_ifs
    · exact ht
    · have hk : Keeps t ((t.update r fun q => { q with
          race := q.race.or (some (.rejected (timeoutError stage timeoutMs))) }).abort r) :=
        (keeps_update ⟨rfl, rfl, rfl, rfl, rfl, id, id, id⟩).trans (keeps_abort r)
      exact (ht.keeps hk).frame rfl id rfl fun r hr => ⟨hr, rfl⟩
  unfold Adapter.timer at hs
  cases stage with
  | firstOutput | request =>
    dsimp only at hs
    split_ifs at hs
    cases hs
    exact hfail (h.update id rfl)

theorem Exclusive.step (h : Exclusive s) {a : Action} (hs : s.step c a = some s') :
    Exclusive s' := by
  have hclosed : Exclusive { s with closed := true } := h.frame rfl id rfl fun r hr => ⟨hr, rfl⟩
  cases a with
  | start text sequence =>
    obtain ⟨-, rfl⟩ := host_eq_some.mp hs
    unfold Adapter.start
    dsimp only
    split_ifs
    · exact h
    · refine h.frame rfl id rfl ?_
      intro r hr
      by_cases hne : r = s.nextRequestId + 1
      · subst hne
        rw [requests_update_self] at hr
        cases hr
      · rw [requests_update_of_ne hne] at hr ⊢
        exact ⟨hr, rfl⟩
  | onSignal reason sequence =>
    obtain ⟨-, rfl⟩ := host_eq_some.mp hs
    exact h.cancel reason sequence
  | tick =>
    obtain ⟨-, rfl⟩ := host_eq_some.mp hs
    exact h.frame rfl id rfl fun r hr => ⟨hr, rfl⟩
  | onFinish | onAbort reason =>
    obtain ⟨-, rfl⟩ := host_eq_some.mp hs
    exact hclosed.cancel _ _
  | begin r created route => exact h.begin hs
  | runDriver r =>
    simp only [Adapter.step, Option.ite_none_right_eq_some, Option.some.injEq] at hs
    obtain ⟨hrun, rfl⟩ := hs
    exact h.update (fun _ => by rw [hrun]; rfl) rfl
  | sinkText r delta =>
    cases hs
    exact h.keeps (keeps_sinkText r delta)
  | sinkEvent r type payload =>
    cases hs
    exact h.keeps (keeps_sinkEvent r type payload)
  | settle r error =>
    simp only [Adapter.step, Adapter.settle, Option.ite_none_right_eq_some, Option.some.injEq] at hs
    obtain ⟨hrun, rfl⟩ := hs
    exact h.update (fun _ => by rw [hrun]; rfl) rfl
  | cleanUp r => exact h.cleanUp hs
  | timer r stage timeoutMs => exact h.timer hs
  | resume r created => exact h.resume hs

theorem Exclusive.of_reachable (hr : (adapterSystem c).Reachable s) : Exclusive s := by
  apply hr.invariant
  · rintro s rfl
    exact exclusive_new
  · intro s a s' _ h hs
    exact h.step hs

/-! ### The queue -/

theorem queue_abort (r : ℕ) : (s.abort r).queue = s.queue := by
  unfold abort
  split_ifs
  · rfl
  · rfl

theorem enqueue_bounded (h : s.queue.length ≤ c.maxQueueSize) (r : ℕ) (port : Port)
    (frame : Frame) : (s.enqueue c r port frame).queue.length ≤ c.maxQueueSize := by
  have hpos := c.queue_pos
  unfold enqueue
  split_ifs with hoff hfull
  · exact h
  · exact hpos
  · rw [List.length_append, List.length_singleton]
    omega

theorem fail_bounded (h : s.queue.length ≤ c.maxQueueSize) (r : ℕ) (rotates created : Bool)
    (payload : Payload) (message : Text) :
    (s.fail c r rotates created payload message).queue.length ≤ c.maxQueueSize := by
  unfold fail
  have hrotated : (if rotates then s.rotateDriver created else (s, true)).1.queue.length ≤
      c.maxQueueSize := by
    unfold rotateDriver
    split_ifs
    · exact h
    · exact h
    · exact h
  generalize (if rotates then s.rotateDriver created else (s, true)) = rotated at *
  dsimp only
  split_ifs
  · exact enqueue_bounded hrotated _ _ _
  · exact enqueue_bounded (enqueue_bounded hrotated _ _ _) _ _ _
  · exact hrotated

theorem sinkEvent_bounded (h : s.queue.length ≤ c.maxQueueSize) (r : ℕ) (type : String)
    (payload : Text) : (s.sinkEvent c r type payload).queue.length ≤ c.maxQueueSize := by
  unfold sinkEvent
  dsimp only
  split_ifs
  · exact h
  · exact enqueue_bounded (s := s.update r _) h _ _ _

theorem begin_bounded (h : s.queue.length ≤ c.maxQueueSize) {created : Bool} {route : Route}
    (hs : s.begin c r created route = some s') : s'.queue.length ≤ c.maxQueueSize := by
  have henter : ∀ {t : Adapter}, t.queue.length ≤ c.maxQueueSize →
      ((t.enter c r).routes c r route).queue.length ≤ c.maxQueueSize := by
    intro t ht
    have hentered : (t.enter c r).queue.length ≤ c.maxQueueSize := by
      unfold enter
      refine enqueue_bounded (s := Adapter.update { t with
        activeController := some r
        activeRequest := some r
        activeDriver := some t.driver
        driverBusy := true } r _) ?_ _ _ _
      exact ht
    unfold routes
    cases route with
    | none => exact hentered
    | selected payload => exact sinkEvent_bounded hentered _ _ _
    | fails error => exact hentered
  have hrotated : (s.rotateDriver created).1.queue.length ≤ c.maxQueueSize := by
    unfold rotateDriver
    split_ifs
    · exact h
    · exact h
  unfold begin at hs
  dsimp only at hs
  split_ifs at hs
  · cases hs
    exact h
  · cases hs
    exact henter hrotated
  · cases hs
    exact hrotated
  · cases hs
    exact henter h
  · cases hs
    exact h

theorem resume_bounded (h : s.queue.length ≤ c.maxQueueSize) {created : Bool}
    (hs : s.resume c r created = some s') : s'.queue.length ≤ c.maxQueueSize := by
  have hfinish : ∀ t : Adapter, (t.finishRequest r).queue = t.queue := by
    intro t
    unfold finishRequest
    split_ifs
    · rfl
    · rfl
  have hconclude : ∀ outcome,
      (s.conclude c r outcome created).queue.length ≤ c.maxQueueSize := by
    intro outcome
    unfold conclude
    cases outcome with
    | resolved =>
      dsimp only
      split_ifs
      · exact enqueue_bounded h _ _ _
      · exact h
    | rejected error =>
      dsimp only
      split_ifs
      · exact fail_bounded (s := s.update r _) h _ _ _ _ _
      · exact fail_bounded (s := s.update r _) h _ _ _ _ _
      · exact h
    | aborted => exact h
  unfold resume at hs
  rw [Option.ite_none_right_eq_some] at hs
  obtain ⟨-, hs⟩ := hs
  split at hs
  · cases hs
  · rename_i outcome _
    cases hs
    dsimp only
    rw [hfinish]
    exact hconclude outcome

theorem cancel_bounded (reason : Text) (sequence : ℕ) :
    (s.cancel reason sequence).queue.length ≤ c.maxQueueSize := by
  have hpos := c.queue_pos
  unfold cancel
  dsimp only
  split_ifs
  · exact hpos
  · exact Nat.zero_le _

theorem step_bounded (h : s.queue.length ≤ c.maxQueueSize) {a : Action}
    (hs : s.step c a = some s') : s'.queue.length ≤ c.maxQueueSize := by
  cases a with
  | start text sequence =>
    obtain ⟨-, rfl⟩ := host_eq_some.mp hs
    unfold start
    dsimp only
    split_ifs
    · exact h
    · exact h
  | onSignal reason sequence =>
    obtain ⟨-, rfl⟩ := host_eq_some.mp hs
    exact cancel_bounded reason sequence
  | tick =>
    obtain ⟨-, rfl⟩ := host_eq_some.mp hs
    unfold drain
    rw [List.length_drop]
    omega
  | onFinish | onAbort reason =>
    obtain ⟨-, rfl⟩ := host_eq_some.mp hs
    exact cancel_bounded _ _
  | begin r created route => exact begin_bounded h hs
  | runDriver r =>
    simp only [Adapter.step, Option.ite_none_right_eq_some, Option.some.injEq] at hs
    obtain ⟨-, rfl⟩ := hs
    exact h
  | sinkText r delta =>
    cases hs
    unfold sinkText
    dsimp only
    split_ifs
    · exact h
    · exact h
    · exact enqueue_bounded (s := s.update r _) h _ _ _
  | sinkEvent r type payload =>
    cases hs
    exact sinkEvent_bounded h r type payload
  | settle r error =>
    simp only [Adapter.step, settle, Option.ite_none_right_eq_some, Option.some.injEq] at hs
    obtain ⟨-, rfl⟩ := hs
    exact h
  | cleanUp r =>
    simp only [Adapter.step, cleanUp, Option.ite_none_right_eq_some] at hs
    obtain ⟨-, hs⟩ := hs
    split_ifs at hs
    · cases hs
      exact h
    · cases hs
      exact h
  | timer r stage timeoutMs =>
    have hfail : ∀ t : Adapter, (t.failForTimeout r stage timeoutMs).queue = t.queue := by
      intro t
      unfold failForTimeout
      dsimp only
      split_ifs
      · rfl
      · exact queue_abort r
    simp only [Adapter.step, timer] at hs
    split at hs
    all_goals
      rw [Option.ite_none_right_eq_some, Option.some.injEq] at hs
      obtain ⟨-, rfl⟩ := hs
      rw [hfail]
      exact h
  | resume r created => exact resume_bounded h hs

theorem bounded_of_reachable (hr : (adapterSystem c).Reachable s) :
    s.queue.length ≤ c.maxQueueSize := by
  apply hr.invariant
  · rintro s rfl
    exact Nat.zero_le _
  · intro s a s' _ h hs
    exact step_bounded h hs

end Adapter

open Adapter

/-- A called run that has not settled. -/
def Request.unsettled (q : Request) : Prop := q.run = .running

theorem driver_exclusive (c : Config) (s : Adapter) (hr : (adapterSystem c).Reachable s) :
    (∀ r r', (s.requests r).unsettled → (s.requests r').unsettled →
      (s.requests r).driver = (s.requests r').driver → r = r') ∧
    (∀ r, (s.requests r).unsettled → (s.requests r).driver = s.driver → s.driverBusy) ∧
    (∀ r s', (adapterSystem c).step s (.cleanUp r) = some s' →
      (s.requests r).driver ≠ s.driver → s'.driverBusy = s.driverBusy) ∧
    (∀ r r', (s.requests r).phase = .executing → (s.requests r').phase = .executing → r = r') ∧
    s.queue.length ≤ c.maxQueueSize := by
  have h := Exclusive.of_reachable hr
  have hpending : ∀ {r}, (s.requests r).unsettled → (s.requests r).run.pending := by
    intro r hrun
    rw [hrun]
    rfl
  refine ⟨?_, ?_, ?_, ?_, bounded_of_reachable hr⟩
  · intro r r' hr hr'
    exact h.alone r r' (hpending hr) (hpending hr')
  · intro r hr
    exact h.busy r (hpending hr)
  · intro r s' hs hretired
    simp only [adapterSystem, Adapter.step, cleanUp, Option.ite_none_right_eq_some] at hs
    obtain ⟨-, hs⟩ := hs
    rw [if_neg fun hcurrent => hretired hcurrent.1.symm] at hs
    cases hs
    rfl
  · intro r r'
    exact (Chained.of_reachable hr).unique

def sampleConfig : Config := Settings.config ⟨.missing, .missing, .missing, .missing, .missing⟩

/-- A request runs while the run of a cancelled one has not settled. -/
theorem driver_exclusive_rotated : ∃ s, (adapterSystem sampleConfig).Reachable s ∧
    (s.requests 1).unsettled ∧ (s.requests 2).unsettled ∧
    (s.requests 1).driver ≠ (s.requests 2).driver := by
  obtain ⟨s, hr, hs⟩ := exists_reachable_of_run (M := adapterSystem sampleConfig) (s := .new) rfl
    [.start ['a'] 1, .begin 1 true .none, .runDriver 1, .onSignal [] 2, .resume 1 true,
      .start ['b'] 3, .begin 2 true .none, .runDriver 2]
    (fun s => (s.requests 1).run == .running && (s.requests 2).run == .running) (by decide +kernel)
  simp only [Bool.and_eq_true, beq_iff_eq] at hs
  refine ⟨s, hr, hs.1, hs.2, ?_⟩
  intro heq
  have hsame := (driver_exclusive sampleConfig s hr).1 1 2 hs.1 hs.2 heq
  exact absurd hsame (by decide)

end Muxiva.Agent
