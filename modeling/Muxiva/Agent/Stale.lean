import Muxiva.Agent.Driver

/-! What a `cancel` keeps out of the output: the requests that had begun. Only the active request is
flagged; the ones that wait behind it are not, and have their turn. -/
set_option linter.all false
namespace Muxiva.Agent

open Transition.System

def Frame.isCancelled : Frame → Bool
  | .event type _ _ => type = "response.cancelled"
  | .text _ _ => false

def Action.cancels : Action → Bool
  | .onSignal _ _ | .onFinish | .onAbort _ => true
  | _ => false

namespace Adapter

variable {c : Config} {s s' : Adapter} {r F K n : ℕ}

/-- The `K`th `cancel` has come after the first `F` requests had begun and the first `n` items had
been emitted. -/
structure Suppressed (F K n : ℕ) (s : Adapter) : Prop where
  cancels : K ≤ s.cancels
  length : n ≤ s.emitted.length
  covered : ∀ r, 0 < r → r ≤ F → (s.requests r).cancelled ∨ (s.requests r).phase = .returned
  items : ∀ item ∈ s.emitted.drop n ++ s.queue, item.request ≤ F →
    item.cancel = some K ∧ item.frame.isCancelled
  single : (s.emitted.drop n ++ s.queue).countP (·.cancel = some K) ≤ 1

theorem Suppressed.frame (h : Suppressed F K n s) (hcancels : s.cancels ≤ s'.cancels)
    (hemitted : s'.emitted = s.emitted) (hqueue : s'.queue = s.queue)
    (hrequests : ∀ r, 0 < r → r ≤ F →
      ((s.requests r).cancelled → (s'.requests r).cancelled) ∧
      ((s.requests r).phase = .returned → (s'.requests r).phase = .returned)) :
    Suppressed F K n s' := by
  refine ⟨h.cancels.trans hcancels, hemitted ▸ h.length, ?_, ?_, ?_⟩
  · intro r hpos hle
    exact (h.covered r hpos hle).imp (hrequests r hpos hle).1 (hrequests r hpos hle).2
  · rw [hemitted, hqueue]
    exact h.items
  · rw [hemitted, hqueue]
    exact h.single

theorem Suppressed.keeps (h : Suppressed F K n s) (hk : Leaves s s') (hqueue : s'.queue = s.queue) :
    Suppressed F K n s' := by
  apply h.frame hk.cancels.ge hk.emitted hqueue
  intro r _ _
  refine ⟨(hk.requests r).cancelled, ?_⟩
  rw [(hk.requests r).phase]
  exact id

/-- The queue is cleared for one later item, or gets one more. -/
theorem Suppressed.queued (h : Suppressed F K n s) (hk : Leaves s s') (item : Item)
    (hlater : F < item.request ∧ item.cancel ≠ some K) (hqueue : s'.queue = [item] ∨ s'.queue = s.queue ++ [item]) :
    Suppressed F K n s' := by
  have hnot : ¬decide (item.cancel = some K) = true := by simpa using hlater.2
  refine ⟨hk.cancels ▸ h.cancels, hk.emitted ▸ h.length, ?_, ?_, ?_⟩
  · intro r hpos hle
    rw [(hk.requests r).phase]
    exact (h.covered r hpos hle).imp_left (hk.requests r).cancelled
  · intro item' hitem' hle
    rw [hk.emitted] at hitem'
    rcases List.mem_append.mp hitem' with hold | hnew
    · exact h.items item' (List.mem_append_left _ hold) hle
    · rcases hqueue with hqueue | hqueue
      · rw [hqueue, List.mem_singleton] at hnew
        subst hnew
        exact absurd hlater.1 (Nat.not_lt.mpr hle)
      · rw [hqueue] at hnew
        rcases List.mem_append.mp hnew with hnew | hnew
        · exact h.items item' (List.mem_append_right _ hnew) hle
        · obtain rfl := List.mem_singleton.mp hnew
          exact absurd hlater.1 (Nat.not_lt.mpr hle)
  · have hsingle := h.single
    rw [List.countP_append] at hsingle
    rw [hk.emitted, List.countP_append]
    rcases hqueue with hqueue | hqueue
    · rw [hqueue, List.countP_singleton, if_neg hnot]
      omega
    · rw [hqueue, List.countP_append, List.countP_singleton, if_neg hnot]
      omega

theorem Suppressed.lt (h : Suppressed F K n s) (hpos : 0 < r)
    (hr : (s.requests r).phase = .executing) (hlive : ¬(s.requests r).cancelled) : F < r := by
  by_contra hle
  rcases h.covered r hpos (Nat.not_lt.mp hle) with hcancelled | hreturned
  · exact hlive hcancelled
  · rw [hr] at hreturned
    cases hreturned

theorem Suppressed.enqueue (h : Suppressed F K n s) (hpos : 0 < r)
    (hr : (s.requests r).phase = .executing) (port : Port) (frame : Frame) :
    Suppressed F K n (s.enqueue c r port frame) := by
  have hk := (keeps_enqueue (c := c) (s := s) r port frame).toLeaves
  unfold Adapter.enqueue at hk ⊢
  split_ifs at hk ⊢ with hoff hfull
  · exact h
  · simp only [Bool.or_eq_true, not_or] at hoff
    exact h.queued hk (overflowItem c r frame) ⟨h.lt hpos hr hoff.1, nofun⟩ (.inl rfl)
  · simp only [Bool.or_eq_true, not_or] at hoff
    exact h.queued hk ⟨port, frame, r, none⟩ ⟨h.lt hpos hr hoff.1, nofun⟩ (.inr rfl)

theorem Suppressed.update (h : Suppressed F K n s) {f : Request → Request}
    (hcancelled : (s.requests r).cancelled → (f (s.requests r)).cancelled)
    (hphase : (s.requests r).phase = .returned → (f (s.requests r)).phase = .returned) :
    Suppressed F K n (s.update r f) := by
  refine h.frame (le_refl _) rfl rfl ?_
  intro r' _ _
  by_cases hne : r' = r
  · subst hne
    rw [requests_update_self]
    exact ⟨hcancelled, hphase⟩
  · rw [requests_update_of_ne hne]
    exact ⟨id, id⟩

theorem Suppressed.sinkText (h : Suppressed F K n s) (hchain : Chained s) (r : ℕ) (delta : Text) :
    Suppressed F K n (s.sinkText c r delta) := by
  unfold Adapter.sinkText
  dsimp only
  split_ifs with hoff hempty
  · exact h
  · exact h
  · simp only [Bool.or_eq_true, Bool.not_eq_true', not_or, Bool.not_eq_false] at hoff
    have hr := hchain.accepting r hoff.1
    apply Suppressed.enqueue
    · exact h.update id id
    · exact ((hchain.begun r).mp (by rw [hr]; trivial)).1
    · rw [requests_update_self]
      exact hr

theorem Suppressed.sinkEvent (h : Suppressed F K n s) (hchain : Chained s) (r : ℕ) (type : String)
    (payload : Text) : Suppressed F K n (s.sinkEvent c r type payload) := by
  unfold Adapter.sinkEvent
  dsimp only
  split_ifs with hoff
  · exact h
  · simp only [Bool.or_eq_true, Bool.not_eq_true', not_or, Bool.not_eq_false] at hoff
    have hr := hchain.accepting r hoff.1
    apply Suppressed.enqueue
    · exact h.update id id
    · exact ((hchain.begun r).mp (by rw [hr]; trivial)).1
    · rw [requests_update_self]
      exact hr

/-- The request that a later `cancel` finds active had not begun. -/
theorem Suppressed.cancel (h : Suppressed F K n s) (hchain : Chained s) (reason : Text)
    (sequence : ℕ) : Suppressed F K n (s.cancel reason sequence) := by
  have hk : Leaves s (if s.hadActiveRequest then s.cancelActive else s) := by
    split_ifs
    · exact keeps_cancelActive.toLeaves
    · exact .refl s
  have hqueue : (s.cancel reason sequence).queue = [] ∨ ∃ item : Item,
      (s.cancel reason sequence).queue = [item] ∧ F < item.request ∧
        item.cancel = some (s.cancels + 1) := by
    unfold Adapter.cancel
    dsimp only
    split_ifs with hhad
    · right
      obtain ⟨a, ha, hlive⟩ := (Option.any_eq_true _ _).mp hhad
      obtain ⟨hexecuting, hrequest⟩ := hchain.active a ha
      refine ⟨_, rfl, ?_, rfl⟩
      rw [hrequest, Option.getD_some]
      apply h.lt ((hchain.begun a).mp (by rw [hexecuting]; trivial)).1 hexecuting
      intro hcancelled
      rw [hchain.flagged a ha hcancelled] at hlive
      cases hlive
    · exact .inl rfl
  have hcancels : (s.cancel reason sequence).cancels = s.cancels + 1 := rfl
  have hemitted : (s.cancel reason sequence).emitted = s.emitted := by
    change (if s.hadActiveRequest then s.cancelActive else s).emitted = s.emitted
    exact hk.emitted
  have hle := h.cancels
  refine ⟨by omega, hemitted ▸ h.length, ?_, ?_, ?_⟩
  · intro r hpos hle
    change ((if s.hadActiveRequest then s.cancelActive else s).requests r).cancelled ∨
      ((if s.hadActiveRequest then s.cancelActive else s).requests r).phase = .returned
    rw [(hk.requests r).phase]
    exact (h.covered r hpos hle).imp_left (hk.requests r).cancelled
  · intro item hitem hle
    rw [hemitted] at hitem
    rcases List.mem_append.mp hitem with hold | hnew
    · exact h.items item (List.mem_append_left _ hold) hle
    · rcases hqueue with hqueue | ⟨item', hqueue, hlater, -⟩
      · rw [hqueue] at hnew
        cases hnew
      · rw [hqueue, List.mem_singleton] at hnew
        subst hnew
        omega
  · have hsingle := h.single
    rw [List.countP_append] at hsingle
    rw [hemitted, List.countP_append]
    rcases hqueue with hqueue | ⟨item', hqueue, -, hnumber⟩
    · rw [hqueue, List.countP_nil]
      omega
    · have hnot : ¬decide (item'.cancel = some K) = true := by
        rw [hnumber]
        simp only [Option.some.injEq, decide_eq_true_eq]
        omega
      rw [hqueue, List.countP_singleton, if_neg hnot]
      omega

theorem Suppressed.drain (h : Suppressed F K n s) : Suppressed F K n (s.drain c) := by
  have hmoved : (s.drain c).emitted.drop n ++ (s.drain c).queue = s.emitted.drop n ++ s.queue := by
    unfold Adapter.drain
    dsimp only
    rw [List.drop_append_of_le_length h.length, List.append_assoc, List.take_append_drop]
  refine ⟨h.cancels, ?_, h.covered, ?_, ?_⟩
  · unfold Adapter.drain
    rw [List.length_append]
    exact h.length.trans (Nat.le_add_right _ _)
  · rw [hmoved]
    exact h.items
  · rw [hmoved]
    exact h.single

theorem queue_rotateDriver (created : Bool) : (s.rotateDriver created).1.queue = s.queue := by
  unfold rotateDriver
  split_ifs
  · rfl
  · rfl

theorem Suppressed.enter (h : Suppressed F K n s) (hlater : F < r) :
    Suppressed F K n ({ s with begun := r }.enter c r) := by
  have hpos : 0 < r := by omega
  unfold Adapter.enter
  apply Suppressed.update
  · apply Suppressed.enqueue
    · refine h.frame (le_refl _) rfl rfl ?_
      intro r' _ hle
      rw [requests_update_of_ne (by omega)]
      exact ⟨id, id⟩
    · exact hpos
    · rw [requests_update_self]
  · exact id
  · exact id

theorem Suppressed.begin (h : Suppressed F K n s) (hchain : Chained s) (hF : F ≤ s.begun)
    {created : Bool} {route : Route} (hs : s.begin c r created route = some s') :
    Suppressed F K n s' := by
  have hroutes : ∀ {t : Adapter}, Suppressed F K n t → Chained t →
      Suppressed F K n (t.routes c r route) := by
    intro t ht hchain
    unfold Adapter.routes
    cases route with
    | none => exact ht.update id id
    | selected payload => exact (ht.sinkEvent hchain r "route.selected" payload).update id id
    | fails error => exact ht.update id id
  have hreturns : ∀ {t : Adapter}, Suppressed F K n t → Suppressed F K n (t.returns r) := by
    intro t ht
    unfold Adapter.returns
    have hbegun : Suppressed F K n { t with begun := r } :=
      ht.frame (le_refl _) rfl rfl fun _ _ _ => ⟨id, id⟩
    exact hbegun.update id fun _ => rfl
  unfold Adapter.begin at hs
  split_ifs at hs with hnext hoff hbusy
  · cases hs
    exact hreturns h
  · have hlater : F < r := by
      have hr := hchain.eq_succ_begun hnext
      omega
    have hrotated := h.keeps (leaves_rotateDriver created) (queue_rotateDriver created)
    have hnext' : (s.rotateDriver created).1.next r := by
      unfold Adapter.next
      rw [rotateDriver_requests]
      exact hnext
    dsimp only at hs
    split_ifs at hs
    · cases hs
      exact hroutes (hrotated.enter hlater) ((hchain.rotateDriver created).enter hnext')
    · cases hs
      exact hreturns hrotated
  · have hlater : F < r := by
      have hr := hchain.eq_succ_begun hnext
      omega
    dsimp only at hs
    rw [if_pos rfl] at hs
    cases hs
    exact hroutes (h.enter hlater) (hchain.enter hnext)

theorem Suppressed.resume (h : Suppressed F K n s) (hchain : Chained s) {created : Bool}
    (hs : s.resume c r created = some s') : Suppressed F K n s' := by
  unfold Adapter.resume at hs
  rw [Option.ite_none_right_eq_some] at hs
  obtain ⟨hr, hs⟩ := hs
  have hpos := ((hchain.begun r).mp (by rw [hr]; trivial)).1
  have hfail : ∀ {t : Adapter} {rotates : Bool} {payload : Payload} {message : Text},
      Suppressed F K n t → (t.requests r).phase = .executing →
      Suppressed F K n (t.fail c r rotates created payload message) := by
    intro t rotates payload message ht hphase
    unfold Adapter.fail
    have hrotated : Suppressed F K n (if rotates then t.rotateDriver created else (t, true)).1 ∧
        ((if rotates then t.rotateDriver created else (t, true)).1.requests r).phase =
          .executing := by
      split_ifs
      · rw [rotateDriver_requests]
        exact ⟨ht.keeps (leaves_rotateDriver created) (queue_rotateDriver created), hphase⟩
      · exact ⟨ht, hphase⟩
    obtain ⟨hrotated, hphase⟩ := hrotated
    generalize (if rotates then t.rotateDriver created else (t, true)) = rotated at *
    dsimp only
    split_ifs
    · exact hrotated.enqueue hpos hphase _ _
    · apply (hrotated.enqueue hpos hphase _ _).enqueue hpos
      rw [phase_enqueue]
      exact hphase
    · exact hrotated
  have hconclude : ∀ outcome, Suppressed F K n (s.conclude c r outcome created) := by
    intro outcome
    unfold Adapter.conclude
    have hstops : Suppressed F K n (s.update r ({ · with accepting := false })) := h.update id id
    have hphase : ((s.update r ({ · with accepting := false })).requests r).phase =
        .executing := by
      rw [requests_update_self]
      exact hr
    cases outcome with
    | resolved =>
      dsimp only
      split_ifs
      · exact h.enqueue hpos hr _ _
      · exact h
    | rejected error =>
      dsimp only
      split_ifs
      · exact hfail hstops hphase
      · exact hfail hstops hphase
      · exact h
    | aborted => exact h
  split at hs
  · cases hs
  · rename_i outcome _
    cases hs
    have hreturned := (hconclude outcome).update (r := r) (f := fun q => { q with
      phase := .returned
      accepting := false
      firstOutputTimer := false
      requestTimer := false }) id fun _ => rfl
    unfold Adapter.finishRequest
    split_ifs
    · exact hreturned.frame (le_refl _) rfl rfl fun _ _ _ => ⟨id, id⟩
    · exact hreturned.frame (le_refl _) rfl rfl fun _ _ _ => ⟨id, id⟩
    · exact hreturned.frame (le_refl _) rfl rfl fun _ _ _ => ⟨id, id⟩
    · exact hreturned.frame (le_refl _) rfl rfl fun _ _ _ => ⟨id, id⟩

theorem Suppressed.timer (h : Suppressed F K n s) {stage : Stage} {timeoutMs : ℕ}
    (hs : s.timer r stage timeoutMs = some s') : Suppressed F K n s' := by
  have hfail : ∀ {t : Adapter}, Suppressed F K n t →
      Suppressed F K n (t.failForTimeout r stage timeoutMs) := by
    intro t ht
    unfold Adapter.failForTimeout
    dsimp only
    split_ifs
    · exact ht
    · have hk : Keeps t ((t.update r fun q => { q with
          race := q.race.or (some (.rejected (timeoutError stage timeoutMs))) }).abort r) :=
        (keeps_update ⟨rfl, rfl, rfl, rfl, rfl, id, id, id⟩).trans (keeps_abort r)
      have haborted := ht.keeps hk.toLeaves ((queue_abort r).trans rfl)
      exact haborted.frame (le_refl _) rfl rfl fun _ _ _ => ⟨id, id⟩
  unfold Adapter.timer at hs
  cases stage with
  | firstOutput | request =>
    dsimp only at hs
    split_ifs at hs
    cases hs
    exact hfail (h.update id id)

theorem Suppressed.start (h : Suppressed F K n s) (hchain : Chained s) (hF : F ≤ s.begun)
    (text : Text) (sequence : ℕ) : Suppressed F K n (s.start text sequence) := by
  unfold Adapter.start
  dsimp only
  split_ifs
  · exact h
  · refine h.frame (le_refl _) rfl rfl ?_
    intro r hpos hle
    have hne : r ≠ s.nextRequestId + 1 := by
      rintro rfl
      have hbegun := (hchain.begun (s.nextRequestId + 1)).mpr ⟨hpos, hle.trans hF⟩
      rw [(hchain.submitted (s.nextRequestId + 1)).mpr (.inr (Nat.lt_succ_self _))] at hbegun
      exact hbegun
    rw [requests_update_of_ne hne]
    exact ⟨id, id⟩

theorem Suppressed.step (h : Suppressed F K n s) (hchain : Chained s) (hF : F ≤ s.begun)
    {a : Action} (hs : s.step c a = some s') : Suppressed F K n s' := by
  have hclosed : Suppressed F K n { s with closed := true } :=
    h.frame (le_refl _) rfl rfl fun _ _ _ => ⟨id, id⟩
  have hchained : Chained { s with closed := true } := hchain.frame rfl rfl rfl rfl rfl rfl
  cases a with
  | start text sequence =>
    obtain ⟨-, rfl⟩ := host_eq_some.mp hs
    exact h.start hchain hF text sequence
  | onSignal reason sequence =>
    obtain ⟨-, rfl⟩ := host_eq_some.mp hs
    exact h.cancel hchain reason sequence
  | tick =>
    obtain ⟨-, rfl⟩ := host_eq_some.mp hs
    exact h.drain
  | onFinish | onAbort reason =>
    obtain ⟨-, rfl⟩ := host_eq_some.mp hs
    exact hclosed.cancel hchained _ _
  | begin r created route => exact h.begin hchain hF hs
  | runDriver r =>
    simp only [Adapter.step, Option.ite_none_right_eq_some, Option.some.injEq] at hs
    obtain ⟨-, rfl⟩ := hs
    exact h.update id id
  | sinkText r delta =>
    cases hs
    exact h.sinkText hchain r delta
  | sinkEvent r type payload =>
    cases hs
    exact h.sinkEvent hchain r type payload
  | settle r error =>
    simp only [Adapter.step, Adapter.settle, Option.ite_none_right_eq_some, Option.some.injEq] at hs
    obtain ⟨-, rfl⟩ := hs
    exact h.update id id
  | cleanUp r =>
    have hcleaned : Suppressed F K n (s.update r ({ · with run := .cleaned })) := h.update id id
    simp only [Adapter.step, Adapter.cleanUp, Option.ite_none_right_eq_some] at hs
    obtain ⟨-, hs⟩ := hs
    split_ifs at hs
    · cases hs
      exact hcleaned.frame (le_refl _) rfl rfl fun _ _ _ => ⟨id, id⟩
    · cases hs
      exact hcleaned
  | timer r stage timeoutMs => exact h.timer hs
  | resume r created => exact h.resume hchain hs

theorem begun_routes (route : Route) : (s.routes c r route).begun = s.begun := by
  unfold routes
  cases route with
  | none => rfl
  | selected payload => exact (keeps_sinkEvent r "route.selected" payload).begun
  | fails error => rfl

/-- Requests do not unbegin. -/
theorem Chained.begun_le (h : Chained s) {a : Action} (hs : s.step c a = some s') :
    s.begun ≤ s'.begun := by
  have hcancel : ∀ (t : Adapter) (reason : Text) (sequence : ℕ),
      (t.cancel reason sequence).begun = t.begun := by
    intro t reason sequence
    change (if t.hadActiveRequest then t.cancelActive else t).begun = t.begun
    split_ifs
    · exact keeps_cancelActive.begun
    · rfl
  cases a with
  | start text sequence =>
    obtain ⟨-, rfl⟩ := host_eq_some.mp hs
    unfold Adapter.start
    dsimp only
    split_ifs
    · exact le_refl _
    · exact le_refl _
  | onSignal reason sequence =>
    obtain ⟨-, rfl⟩ := host_eq_some.mp hs
    exact (hcancel s reason sequence).ge
  | tick =>
    obtain ⟨-, rfl⟩ := host_eq_some.mp hs
    exact le_refl _
  | onFinish | onAbort reason =>
    obtain ⟨-, rfl⟩ := host_eq_some.mp hs
    exact (hcancel { s with closed := true } _ _).ge
  | begin r created route =>
    have henter : ∀ t : Adapter, ({ t with begun := r }.enter c r).begun = r := by
      intro t
      unfold Adapter.enter
      exact (keeps_enqueue _ _ _).begun
    simp only [Adapter.step, Adapter.begin] at hs
    split_ifs at hs with hnext
    all_goals
      have hr := h.eq_succ_begun hnext
      cases hs
      try rw [begun_routes, henter]
      try unfold Adapter.returns
      try change s.begun ≤ r
      omega
  | runDriver r =>
    simp only [Adapter.step, Option.ite_none_right_eq_some, Option.some.injEq] at hs
    obtain ⟨-, rfl⟩ := hs
    exact le_refl _
  | sinkText r delta =>
    cases hs
    exact (keeps_sinkText r delta).begun.ge
  | sinkEvent r type payload =>
    cases hs
    exact (keeps_sinkEvent r type payload).begun.ge
  | settle r error =>
    simp only [Adapter.step, Adapter.settle, Option.ite_none_right_eq_some, Option.some.injEq] at hs
    obtain ⟨-, rfl⟩ := hs
    exact le_refl _
  | cleanUp r =>
    simp only [Adapter.step, Adapter.cleanUp, Option.ite_none_right_eq_some] at hs
    obtain ⟨-, hs⟩ := hs
    split_ifs at hs
    · cases hs
      exact le_refl _
    · cases hs
      exact le_refl _
  | timer r stage timeoutMs =>
    have hfail : ∀ t : Adapter, (t.failForTimeout r stage timeoutMs).begun = t.begun := by
      intro t
      unfold Adapter.failForTimeout
      dsimp only
      split_ifs
      · rfl
      · exact (keeps_abort r).begun
    simp only [Adapter.step, Adapter.timer] at hs
    split at hs
    all_goals
      rw [Option.ite_none_right_eq_some, Option.some.injEq] at hs
      obtain ⟨-, rfl⟩ := hs
      rw [hfail]
      exact le_refl _
  | resume r created =>
    simp only [Adapter.step, Adapter.resume, Option.ite_none_right_eq_some] at hs
    obtain ⟨-, hs⟩ := hs
    split at hs
    · cases hs
    · cases hs
      unfold Adapter.finishRequest
      split_ifs
      all_goals exact (leaves_conclude _ created).begun.ge

/-- At the return of a `cancel`. -/
theorem Chained.suppressed (h : Chained s) (hhost : s.interrupted = none) (reason : Text)
    (sequence : ℕ) : let t := s.cancel reason sequence
    Suppressed s.begun t.cancels t.emitted.length t ∧ t.begun = s.begun := by
  intro t
  have ht : Chained t := h.cancel hhost reason sequence
  have hbegun : t.begun = s.begun := by
    change (if s.hadActiveRequest then s.cancelActive else s).begun = s.begun
    split_ifs
    · exact keeps_cancelActive.begun
    · rfl
  have hqueue : t.queue = [] ∨ ∃ item : Item, t.queue = [item] ∧
      item.cancel = some t.cancels ∧ item.frame.isCancelled := by
    change (if s.hadActiveRequest then _ else _) = _ ∨ ∃ item : Item,
      (if s.hadActiveRequest then _ else _) = _ ∧ _
    split_ifs
    · exact .inr ⟨_, rfl, rfl, rfl⟩
    · exact .inl rfl
  refine ⟨⟨le_refl _, le_refl _, ?_, ?_, ?_⟩, hbegun⟩
  · intro r hpos hle
    have hphase := (ht.begun r).mpr ⟨hpos, hbegun.symm ▸ hle⟩
    cases hr : (t.requests r).phase with
    | executing =>
      left
      by_contra hlive
      have hactive := (ht.unflagged r hr hlive).1
      cases hactive
    | returned => exact .inr rfl
    | unsubmitted | waiting =>
      rw [hr] at hphase
      exact hphase.elim
  · rw [List.drop_length, List.nil_append]
    intro item hitem _
    rcases hqueue with hqueue | ⟨item', hqueue, hcancel⟩
    · rw [hqueue] at hitem
      cases hitem
    · rw [hqueue, List.mem_singleton] at hitem
      subst hitem
      exact hcancel
  · rw [List.drop_length, List.nil_append]
    rcases hqueue with hqueue | ⟨item', hqueue, -⟩
    · rw [hqueue]
      exact Nat.zero_le _
    · rw [hqueue]
      exact List.countP_le_length

end Adapter

open Adapter

end Muxiva.Agent
