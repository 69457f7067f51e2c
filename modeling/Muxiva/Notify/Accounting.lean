import Muxiva.Notify.Soundness

/-! What is put into a subscriber's mailbox reaches its handler once and in publish order, and is
counted. Only its worker takes messages out of a mailbox, and only a registered subscriber is sent
new ones. -/
set_option linter.all false
namespace Muxiva.Notify

variable {P : Type}

namespace NotificationBus

variable {s s' : NotificationBus P}

section Changes

variable {capacity : ℕ} {a : Action P} {id : ℕ}

/-- What a step does to the subscriber `id`. -/
inductive Change (s : NotificationBus P) (capacity : ℕ) (a : Action P) (id : ℕ) :
    Option (Subscriber P) → Option (Subscriber P) → Prop where
  | same (x : Option (Subscriber P)) : Change s capacity a id x x
  | started (topic : String) : Change s capacity a id none (some (.new topic))
  | closed (w : Subscriber P) : Change s capacity a id (some w) (some w.close)
  | sent (w : Subscriber P) (m : Notification P) (h : id ∈ s.active) :
      Change s capacity a id (some w) (some (w.trySend capacity m).1)
  | worked (w w' : Subscriber P) (outcome : HandlerOutcome) (ha : a = .worker id outcome)
      (h : w.work outcome = some w') : Change s capacity a id (some w) (some w')

theorem closeAll_change (ids : List ℕ) (id : ℕ) :
    Change s capacity a id (s.subscribers id) ((s.closeAll ids).subscribers id) := by
  simp only [closeAll]
  split_ifs
  · cases s.subscribers id with
    | none => exact .same none
    | some w => exact .closed w
  · exact .same _

theorem setSubscriber_change {id id' : ℕ} {w : Subscriber P}
    (h : id' = id → Change s capacity a id (s.subscribers id) (some w)) :
    Change s capacity a id' (s.subscribers id') ((s.setSubscriber id w).subscribers id') := by
  by_cases hid : id' = id
  · subst hid
    simpa [setSubscriber] using h rfl
  · simpa [setSubscriber, hid] using Change.same (s.subscribers id')

theorem start_change (h : s.Sound) {n : ℕ} {operation : Operation P}
    (hs : s.start n operation = some s') (id : ℕ) :
    Change s capacity a id (s.subscribers id) (s'.subscribers id) := by
  cases operation with
  | subscribe topic spawns =>
    simp only [start] at hs
    split_ifs at hs
    · cases hs
      refine setSubscriber_change (s := s) fun _ => ?_
      cases hw : s.subscribers s.nextId with
      | none => exact .started topic
      | some w => exact absurd (h.started _ w hw) (lt_irrefl _)
    · cases hs
      exact .same _
  | unsubscribe id' =>
    simp only [start] at hs
    split_ifs at hs
    cases hs
    exact .same _
  | _ => cases hs; exact .same _

theorem publishNext_change {n : ℕ} {notification : Notification P} {remaining : List ℕ}
    {report : PublishReport} (hp : s.Publishing n notification remaining report) (id : ℕ) :
    Change s capacity a id (s.subscribers id)
      ((s.publishNext capacity n notification remaining report).subscribers id) := by
  unfold publishNext
  split
  · exact .same _
  · rename_i id' rest
    cases hw : s.subscribers id' with
    | none => exact .same _
    | some w =>
      dsimp only
      split_ifs
      · exact .same _
      · exact .same _
      · refine setSubscriber_change (s := s) fun _ => ?_
        rw [hw]
        exact .sent w notification (hp.registered id' List.mem_cons_self)

theorem step_change (h : s.Sound) (hs : s.step capacity a = some s') (id : ℕ) :
    Change s capacity a id (s.subscribers id) (s'.subscribers id) := by
  cases a with
  | call n operation =>
    simp only [step] at hs
    split at hs
    · exact start_change h hs id
    · exact start_change h hs id
    · cases hs
  | caller n =>
    simp only [step, advance] at hs
    split at hs
    · rename_i hpc
      cases hs
      have hknows := h.callers n
      rw [hpc] at hknows
      exact publishNext_change hknows id
    · cases hs
    · cases hs
    · split_ifs at hs
      cases hs
      unfold subscribe
      split_ifs
      · exact closeAll_change _ id
      · exact .same _
    · split_ifs at hs
      cases hs
      unfold publish
      split_ifs <;> exact .same _
    · split_ifs at hs
      cases hs
      unfold unsubscribe
      split_ifs
      · exact closeAll_change _ id
      · exact .same _
    · split_ifs at hs
      cases hs
      exact closeAll_change _ id
    · split_ifs at hs
      cases hs
      exact closeAll_change _ id
  | worker id' outcome =>
    obtain ⟨w, hw, hmap⟩ := Option.bind_eq_some_iff.mp hs
    obtain ⟨w', hwork, rfl⟩ := Option.map_eq_some_iff.mp hmap
    refine setSubscriber_change (s := s) fun hid => ?_
    rw [hw]
    exact .worked w w' outcome rfl hwork

/-- Only a worker takes messages out of its mailbox. -/
theorem Change.mailbox {x y : Option (Subscriber P)} (h : Change s capacity a id x y)
    (ha : ∀ outcome, a ≠ .worker id outcome) :
    x.elim [] (·.mailbox) <+: y.elim [] (·.mailbox) := by
  cases h with
  | same => exact List.prefix_rfl
  | started topic => exact List.nil_prefix
  | closed w => exact List.prefix_rfl
  | sent w m hid =>
    simp only [Option.elim_some, Subscriber.trySend]
    split_ifs
    · exact List.prefix_rfl
    · exact List.prefix_rfl
    · exact List.prefix_append _ _
  | worked w w' outcome ha' hwork => exact absurd ha' (ha outcome)

/-- A subscriber that is not registered is sent nothing. -/
theorem step_enqueued (h : s.Sound) (hs : s.step capacity a = some s') (hid : id ∉ s.active) :
    s'.enqueued id = s.enqueued id := by
  have hchange := step_change h hs id
  unfold enqueued
  generalize hx : s.subscribers id = x at hchange
  generalize s'.subscribers id = y at hchange
  cases hchange with
  | same => rfl
  | started topic => rfl
  | closed w => rfl
  | sent w m hmem => exact absurd hmem hid
  | worked w w' outcome ha hwork => exact ((h.subscribers id w hx).work hwork).2.2

/-- A step registers a subscriber that was not registered before, and undoes no stop. -/
theorem step_registry (h : s.Sound) (hs : s.step capacity a = some s') :
    (∀ i ∈ s.observations, i ∈ s'.observations) ∧
      (∀ i ∈ s'.active, i ∈ s.active ∨ i ∉ s.observations) ∧
      (s.stopped = true → s'.stopped = true) := by
  have hsame : ∀ t : NotificationBus P, t.observations = s.observations → t.active = s.active →
      t.stopped = s.stopped → (∀ i ∈ s.observations, i ∈ t.observations) ∧
        (∀ i ∈ t.active, i ∈ s.active ∨ i ∉ s.observations) ∧
        (s.stopped = true → t.stopped = true) := by
    intro t hobs hactive hstopped
    rw [hobs, hactive, hstopped]
    exact ⟨fun _ hi => hi, fun _ hi => .inl hi, id⟩
  cases a with
  | call n operation =>
    have hstart : ∀ {operation : Operation P}, s.start n operation = some s' →
        s'.observations = s.observations ∧ s'.active = s.active ∧ s'.stopped = s.stopped := by
      intro operation hs
      cases operation <;> simp only [start] at hs <;> (try split_ifs at hs) <;> cases hs <;>
        exact ⟨rfl, rfl, rfl⟩
    simp only [step] at hs
    split at hs
    · exact hsame s' (hstart hs).1 (hstart hs).2.1 (hstart hs).2.2
    · exact hsame s' (hstart hs).1 (hstart hs).2.1 (hstart hs).2.2
    · cases hs
  | caller n =>
    simp only [step, advance] at hs
    split at hs
    · cases hs
      unfold publishNext
      split
      · exact hsame _ rfl rfl rfl
      · split
        · exact hsame _ rfl rfl rfl
        · split_ifs <;> exact hsame _ rfl rfl rfl
    · cases hs
    · cases hs
    · rename_i id hpc
      split_ifs at hs
      cases hs
      have hknows := h.callers n
      rw [hpc] at hknows
      unfold subscribe
      split_ifs
      · exact hsame _ rfl rfl rfl
      · refine ⟨fun i hi => List.mem_append_left _ hi, fun i hi => ?_, fun hs => hs⟩
        rcases (List.mem_orderedInsert _).mp hi with rfl | hi
        · exact .inr hknows.2.1
        · exact .inl hi
    · split_ifs at hs
      cases hs
      unfold publish
      split_ifs <;> exact hsame _ rfl rfl rfl
    · split_ifs at hs
      cases hs
      unfold unsubscribe
      split_ifs
      · exact ⟨fun i hi => hi, fun i hi => .inl (List.mem_of_mem_erase hi), fun hs => hs⟩
      · exact hsame _ rfl rfl rfl
    · split_ifs at hs
      cases hs
      refine ⟨fun i hi => hi, fun i hi => ?_, fun _ => rfl⟩
      exact absurd hi List.not_mem_nil
    · split_ifs at hs
      cases hs
      exact hsame _ rfl rfl rfl
  | worker id outcome =>
    obtain ⟨w, hw, hmap⟩ := Option.bind_eq_some_iff.mp hs
    obtain ⟨w', hwork, rfl⟩ := Option.map_eq_some_iff.mp hmap
    exact hsame _ rfl rfl rfl

/-- The subscriber is gone for good: it was unsubscribed, or the bus was stopped. -/
def Withdrawn (s : NotificationBus P) (id : ℕ) : Prop :=
  s.stopped = true ∨ id ∈ s.observations ∧ id ∉ s.active

theorem Withdrawn.step (hw : s.Withdrawn id) (h : s.Sound)
    (hs : s.step capacity a = some s') :
    s'.Withdrawn id ∧ s'.enqueued id = s.enqueued id := by
  obtain ⟨hobs, hactive, hstopped⟩ := step_registry h hs
  rcases hw with hstop | ⟨hid, hnot⟩
  · refine ⟨.inl (hstopped hstop), step_enqueued h hs ?_⟩
    simp [h.stopped hstop]
  · refine ⟨.inr ⟨hobs id hid, fun hmem => ?_⟩, step_enqueued h hs hnot⟩
    exact (hactive id hmem).elim hnot fun hne => hne hid

theorem Withdrawn.steps {t : NotificationBus P} (hw : s.Withdrawn id)
    (hr : (busSystem P capacity).Reachable s) (hrun : (busSystem P capacity).Steps s t) :
    t.enqueued id = s.enqueued id := by
  have hlast := Transition.System.Steps.invariant
    (I := fun u => u.Withdrawn id ∧ u.enqueued id = s.enqueued id)
    (fun u a u' hr hi hs => ?_) hr ⟨hw, rfl⟩ hrun
  · exact hlast.2.2
  · obtain ⟨hwithdrawn, heq⟩ := hi.1.step (sound hr) hs
    exact ⟨hwithdrawn, heq.trans hi.2⟩

end Changes

end NotificationBus

open NotificationBus

/-- The accounting of a publication and of a subscriber's mailbox at all times: what is put into it
is handled once and in publish order, nobody else takes anything out, and nothing more is put in
once `unsubscribe` or `request_stop` has returned. -/
theorem notification_accounting {capacity : ℕ} {s : NotificationBus P}
    (hr : (busSystem P capacity).Reachable s) :
    (∀ n report, s.callers n = .returned (.published report) →
      report.matched = report.enqueued + report.droppedFull) ∧
    (∀ id ∈ s.active, ∃ w, s.subscribers id = some w ∧ w.sender = true ∧ w.done = false) ∧
    (∀ id w, s.subscribers id = some w →
      w.enqueuedLog.length = w.delivered + w.handlerErrors + w.handlerPanics + w.mailbox.length +
        w.handling.toList.length ∧
      w.enqueuedLog = w.handledLog ++ w.handling.toList ++ w.mailbox ∧
      (w.enqueuedLog.map (·.number)).Pairwise (· < ·) ∧
      (w.done = true → w.handledLog = w.enqueuedLog)) ∧
    (∀ a t, s.step capacity a = some t → ∀ id, (∀ outcome, a ≠ .worker id outcome) →
      s.mailbox id <+: t.mailbox id) ∧
    ∀ n t, (busSystem P capacity).Steps s t →
      (∀ id removed, s.callers n = .returned (.unsubscribed id removed) →
        t.enqueued id = s.enqueued id) ∧
      (∀ first, s.callers n = .returned (.stopRequested first) →
        ∀ id, t.enqueued id = s.enqueued id) ∧
      ∀ first total, s.callers n = .returned (.stopEnded first total) →
        ∀ id, t.enqueued id = s.enqueued id := by
  have h := sound hr
  have hhonest : ∀ n answer, s.callers n = .returned answer → s.Honest answer := by
    intro n answer hpc
    have hknows := h.callers n
    rwa [hpc] at hknows
  refine ⟨fun n report hpc => hhonest n _ hpc, fun id hid => ?_, fun id w hw => ?_, ?_, ?_⟩
  · obtain ⟨w, hw, hopen⟩ := (h.active id hid).2
    exact ⟨w, hw, hopen, (h.subscribers id w hw).live hopen⟩
  · have hsound := h.subscribers id w hw
    refine ⟨hsound.length, hsound.log, hsound.ordered, fun hdone => ?_⟩
    obtain ⟨-, hmailbox, hhandling⟩ := hsound.done hdone
    simp [hsound.log, hmailbox, hhandling]
  · intro a t hs id ha
    exact (step_change h hs id).mailbox ha
  · intro n t hrun
    refine ⟨fun id removed hpc => ?_, fun first hpc id => ?_, fun first total hpc id => ?_⟩
    · exact Withdrawn.steps (.inr (hhonest n _ hpc)) hr hrun
    · exact Withdrawn.steps (.inl (hhonest n _ hpc)) hr hrun
    · exact Withdrawn.steps (.inl (hhonest n _ hpc)) hr hrun

namespace Action

/-- Caller 0 publishes to the one subscriber there is. -/
def publishes : List (Action Unit) :=
  [.call 0 (.publish ⟨"t", ()⟩), .caller 0, .caller 0, .caller 0]

/-- Three publications to a subscriber with a mailbox of one message; its handler panics at the
first. -/
def threePublications : List (Action Unit) :=
  [call 0 (.subscribe "t" true), .caller 0] ++ publishes ++ [worker 1 .success] ++ publishes ++
    publishes ++ [worker 1 .panic]

end Action

/-- The third message finds the mailbox full, and the second is still in it. -/
theorem notification_accounting_full :
    ∃ s : NotificationBus Unit, (busSystem Unit 1).Reachable s ∧
      s.callers 0 = .returned (.published ⟨1, 0, 1⟩) ∧
      ∃ w, s.subscribers 1 = some w ∧ w.handlerPanics = 1 ∧ w.mailbox.length = 1 ∧
        w.enqueuedLog.length = w.delivered + w.handlerErrors + w.handlerPanics +
          w.mailbox.length + w.handling.toList.length := by
  obtain ⟨s, hr, hs⟩ := (busSystem Unit 1).exists_reachable_of_run rfl Action.threePublications
    (fun s => s.callers 0 = .returned (.published ⟨1, 0, 1⟩) ∧
      (s.subscribers 1).any fun w => w.handlerPanics = 1 ∧ w.mailbox.length = 1)
    (by decide +kernel)
  simp only [decide_eq_true_eq] at hs
  obtain ⟨hreport, hw⟩ := hs
  obtain ⟨w, hw, hcounts⟩ := (Option.any_eq_true _ _).mp hw
  simp only [decide_eq_true_eq] at hcounts
  have haccount := (notification_accounting hr).2.2.1 1 w hw
  exact ⟨s, hr, hreport, w, hw, hcounts.1, hcounts.2, haccount.1⟩

end Muxiva.Notify
