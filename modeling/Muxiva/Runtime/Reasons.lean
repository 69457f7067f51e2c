import Muxiva.Runtime.Moves

/-! What an edge keeps of its failures. Most exits of `apply_edge` and `apply_signal` leave a reason
on the queue before the graph is failed; an action that is refused, a closed queue and a signal queue
without room leave none. -/
set_option linter.all false
namespace Muxiva.Runtime

variable {α β τ : Type}

/-- A failure leaves its message on the queue. -/
def Recorded (x : EdgeOutcome β × EdgeQueue α) : Prop :=
  ∀ r, x.1 = .fail r → x.2.latestErrorReason = some r.message

theorem recorded_edgeAbort (edge : EdgeDescriptor) (q : EdgeQueue α) (code message phase : String) :
    Recorded ((.fail (edgeAbort edge code message phase), q.recordError message) :
      EdgeOutcome β × EdgeQueue α) := by
  intro r h
  cases h
  rfl

theorem policyFailure_reason (edge : EdgeDescriptor) (q : EdgeQueue α) (phase : String)
    (f : MuxivaError ⊕ String) : (policyFailure edge q phase f).2.latestErrorReason =
      some (policyFailure edge q phase f).1.message := by
  cases f with
  | inl e => rfl
  | inr m => exact congrArg some (bounded_bounded m)

theorem recorded_andThen {c : PolicyCall τ} {edge : EdgeDescriptor} {q : EdgeQueue α}
    {phase : String} {k : τ → EdgeOutcome β × EdgeQueue α} (hk : ∀ v, c = .ok v → Recorded (k v)) :
    Recorded (c.andThen edge q phase k) := by
  intro r h
  cases c with
  | ok v => exact hk v rfl r h
  | error e =>
    cases h
    exact policyFailure_reason edge q phase (.inl e)
  | panicked m =>
    cases h
    exact policyFailure_reason edge q phase (.inr m)

theorem andThen_not_deliver {c : PolicyCall τ} {edge : EdgeDescriptor} {q : EdgeQueue α}
    {phase : String} {k : τ → EdgeOutcome β × EdgeQueue α}
    (hk : ∀ v, c = .ok v → ∀ f, (k v).1 ≠ .deliver f) (f : Frame β) :
    (c.andThen edge q phase k).1 ≠ .deliver f := by
  cases c with
  | ok v => exact hk v rfl f
  | error e => exact nofun
  | panicked m => exact nofun

/-- Ends without a frame for the queue, and with a reason if it fails. -/
def Explained (x : EdgeOutcome β × EdgeQueue α) : Prop := Recorded x ∧ ∀ f, x.1 ≠ .deliver f

theorem explained_edgeAbort (edge : EdgeDescriptor) (q : EdgeQueue α)
    (code message phase : String) :
    Explained ((.fail (edgeAbort edge code message phase), q.recordError message) :
      EdgeOutcome β × EdgeQueue α) := by
  refine ⟨recorded_edgeAbort edge q code message phase, fun f hf => ?_⟩
  cases hf

theorem explained_andThen {c : PolicyCall τ} {edge : EdgeDescriptor} {q : EdgeQueue α}
    {phase : String} {k : τ → EdgeOutcome β × EdgeQueue α}
    (hk : ∀ v, c = .ok v → Explained (k v)) : Explained (c.andThen edge q phase k) :=
  ⟨recorded_andThen fun v hv => (hk v hv).1, andThen_not_deliver fun v hv => (hk v hv).2⟩

theorem explained_recordPolicyDrop (edge : EdgeDescriptor) (q : EdgeQueue α)
    (answers : PolicyAnswers β) (reason : String) :
    Explained (recordPolicyDrop edge q answers reason) := by
  apply explained_andThen
  intro v _
  exact ⟨fun _ h => (nomatch h), nofun⟩

section Actions
variable (edge : EdgeDescriptor) (original : Frame β)

/-- The action is refused by `apply_edge`. -/
def EdgeAction.Refused : EdgeAction β → Prop
  | .forward frame => frame ≠ original ∨ frame.frameId ≠ original.frameId
  | .replace replacement =>
    replacement.frameId = original.frameId ∨ replacement.frameType ≠ edge.frameType ∨
      ∃ entry ∈ original.lineage, entry.parentFrameId = replacement.frameId
  | .emitSignal frame => frame.frameType ≠ .signal
  | .drop _ | .abort _ => False

/-- The action has a frame for the queue. -/
def EdgeAction.Passes : EdgeAction β → Prop
  | .forward _ | .replace _ => True
  | .drop _ | .abort _ | .emitSignal _ => False

/-- The action that a frame gets to which passes the type gate and the validation. -/
def Accepted (answers : PolicyAnswers β) (action : EdgeAction β) : Prop :=
  original.frameType = edge.frameType ∧
    (edge.validationPolicy = .typeGateOnly ∨ answers.validate = .ok .accept) ∧
    (edge.transformPolicy = .identity ∧ action = .forward original ∨
      edge.transformPolicy = .named ∧ answers.transform = .ok action)

variable {edge original}

theorem Accepted.unique {answers : PolicyAnswers β} {a b : EdgeAction β}
    (ha : Accepted edge original answers a) (hb : Accepted edge original answers b) : a = b := by
  obtain ⟨-, -, ⟨hta, rfl⟩ | ⟨hta, ha⟩⟩ := ha
  · obtain ⟨-, -, ⟨-, rfl⟩ | ⟨htb, -⟩⟩ := hb
    · rfl
    · cases hta.symm.trans htb
  · obtain ⟨-, -, ⟨htb, -⟩ | ⟨-, hb⟩⟩ := hb
    · cases hta.symm.trans htb
    · cases ha.symm.trans hb
      rfl

theorem attachReplacementLineage_eq {replacement : Frame β} (e : EdgeId) (reason : String)
    (hid : replacement.frameId ≠ original.frameId) :
    (∃ err, original.attachReplacementLineage replacement e reason = .error err ∧
      ∃ entry ∈ original.lineage, entry.parentFrameId = replacement.frameId) ∨
    (∃ frame, original.attachReplacementLineage replacement e reason = .ok frame ∧
      frame.frameType = replacement.frameType ∧
      ¬ ∃ entry ∈ original.lineage, entry.parentFrameId = replacement.frameId) := by
  unfold Frame.attachReplacementLineage
  rw [if_neg hid.symm]
  simp only [List.any_append, List.any_cons, List.any_nil, Bool.or_false, Bool.or_eq_true,
    List.any_eq_true, decide_eq_true_eq, hid.symm, or_false]
  split_ifs with h
  · exact .inl ⟨_, rfl, h⟩
  · exact .inr ⟨_, rfl, rfl, h⟩

variable [DecidableEq β]

/-- What an action leads to: a refusal leaves the queue as it is. -/
theorem applyAction_cases (answers : PolicyAnswers β) (q : EdgeQueue α)
    (ht : original.frameType = edge.frameType) (action : EdgeAction β) :
    (action.Refused edge original ∧
      ∃ r, applyAction edge answers original q action = (.fail r, q)) ∨
    (¬ action.Refused edge original ∧ action.Passes ∧ ∃ frame, frame.frameType = edge.frameType ∧
      applyAction edge answers original q action = (.deliver frame, q)) ∨
    (¬ action.Refused edge original ∧ ¬ action.Passes ∧
      Explained (applyAction edge answers original q action)) := by
  cases action with
  | forward frame =>
    dsimp only [applyAction, EdgeAction.Refused, EdgeAction.Passes]
    by_cases h : frame ≠ original ∨ frame.frameId ≠ original.frameId
    · rw [if_pos h]
      exact .inl ⟨h, _, rfl⟩
    · rw [if_neg h]
      have hsame : frame = original := not_not.mp fun hne => h (.inl hne)
      exact .inr (.inl ⟨h, trivial, frame, hsame ▸ ht, rfl⟩)
  | replace replacement =>
    dsimp only [applyAction, EdgeAction.Refused, EdgeAction.Passes]
    by_cases h : replacement.frameId = original.frameId ∨ replacement.frameType ≠ edge.frameType
    · rw [if_pos h]
      exact .inl ⟨h.imp_right .inl, _, rfl⟩
    rw [if_neg h]
    rw [not_or, not_not] at h
    rcases attachReplacementLineage_eq edge.edgeId "edge policy replacement" h.1 with
      ⟨e, he, hlineage⟩ | ⟨frame, hframe, htype, hlineage⟩
    · rw [he]
      exact .inl ⟨.inr (.inr hlineage), _, rfl⟩
    · rw [hframe]
      refine .inr (.inl ⟨?_, trivial, frame, htype.trans h.2, rfl⟩)
      rintro (hid | hne | hentry)
      · exact h.1 hid
      · exact hne h.2
      · exact hlineage hentry
  | drop reason => exact .inr (.inr ⟨nofun, nofun, explained_recordPolicyDrop edge q answers reason⟩)
  | abort reason =>
    exact .inr (.inr ⟨nofun, nofun, explained_edgeAbort edge q _ reason _⟩)
  | emitSignal frame =>
    dsimp only [applyAction, EdgeAction.Refused]
    by_cases h : frame.frameType ≠ .signal
    · rw [if_pos h]
      exact .inl ⟨h, _, rfl⟩
    · rw [if_neg h]
      refine .inr (.inr ⟨h, nofun, explained_andThen fun v _ =>
        ⟨fun _ h => (nomatch h), nofun⟩⟩)

/-- Once its action is accepted nothing is left to check: a delivered frame has the edge's type. -/
theorem applyEdge_accepted {answers : PolicyAnswers β} {action : EdgeAction β}
    (hacc : Accepted edge original answers action) (q : EdgeQueue α) :
    applyEdge edge answers original q = applyAction edge answers original q action := by
  obtain ⟨ht, hv, ha⟩ := hacc
  have hcases := applyAction_cases answers q ht action
  rcases hx : applyAction edge answers original q action with ⟨outcome, q'⟩
  rw [hx] at hcases
  have htype : ∀ frame, outcome = .deliver frame → frame.frameType = edge.frameType := by
    rintro frame rfl
    rcases hcases with ⟨-, r, heq⟩ | ⟨-, -, other, hother, heq⟩ | ⟨-, -, hexp⟩
    · cases heq
    · cases heq
      exact hother
    · exact absurd rfl (hexp.2 frame)
  unfold applyEdge
  rw [if_neg (not_not.mpr ht)]
  have hvalid : edge.validationPolicy = .typeGateOnly ∨
      ∃ onFailure, edge.validationPolicy = .named onFailure ∧ answers.validate = .ok .accept := by
    cases hvp : edge.validationPolicy with
    | typeGateOnly => exact .inl rfl
    | named onFailure =>
      rw [hvp] at hv
      exact .inr ⟨onFailure, rfl, hv.resolve_left (by simp)⟩
  rcases hvalid with hvp | ⟨onFailure, hvp, haccept⟩ <;> rcases ha with ⟨htp, rfl⟩ | ⟨htp, hok⟩ <;>
    simp only [*, PolicyCall.andThen] <;> cases outcome <;> simp [htype]

/-- What becomes of a frame before the queue. -/
theorem applyEdge_cases (answers : PolicyAnswers β) (q : EdgeQueue α) :
    (∃ action, Accepted edge original answers action ∧ action.Refused edge original ∧
      ∃ r, applyEdge edge answers original q = (.fail r, q)) ∨
    (∃ action, Accepted edge original answers action ∧ ¬ action.Refused edge original ∧
      action.Passes ∧ ∃ frame, applyEdge edge answers original q = (.deliver frame, q)) ∨
    ((∀ action, Accepted edge original answers action →
        ¬ action.Refused edge original ∧ ¬ action.Passes) ∧
      Explained (applyEdge edge answers original q)) := by
  by_cases h : ∃ action, Accepted edge original answers action
  · obtain ⟨action, hacc⟩ := h
    rw [applyEdge_accepted hacc q]
    rcases applyAction_cases answers q hacc.1 action with
      ⟨hrefused, r, heq⟩ | ⟨hrefused, hpasses, frame, -, heq⟩ | ⟨hrefused, hpasses, hexp⟩
    · exact .inl ⟨action, hacc, hrefused, r, heq⟩
    · exact .inr (.inl ⟨action, hacc, hrefused, hpasses, frame, heq⟩)
    · refine .inr (.inr ⟨fun b hb => ?_, hexp⟩)
      cases hacc.unique hb
      exact ⟨hrefused, hpasses⟩
  · refine .inr (.inr ⟨fun action hacc => absurd ⟨action, hacc⟩ h, ?_⟩)
    unfold applyEdge
    by_cases ht : original.frameType ≠ edge.frameType
    · rw [if_pos ht]
      exact explained_edgeAbort edge q _ _ _
    rw [if_neg ht]
    apply explained_andThen
    intro decision hdecision
    cases decision with
    | reject reason =>
      simp only
      split
      · exact explained_edgeAbort edge q _ reason _
      · exact explained_recordPolicyDrop edge q answers reason
    | accept =>
      have hv : edge.validationPolicy = .typeGateOnly ∨ answers.validate = .ok .accept := by
        cases hp : edge.validationPolicy with
        | typeGateOnly => exact .inl rfl
        | named onFailure =>
          rw [hp] at hdecision
          exact .inr hdecision
      apply explained_andThen
      intro action haction
      refine absurd ⟨action, not_not.mp ht, hv, ?_⟩ h
      cases hp : edge.transformPolicy with
      | identity =>
        rw [hp] at haction
        cases haction
        exact .inl ⟨rfl, rfl⟩
      | named =>
        rw [hp] at haction
        exact .inr ⟨rfl, haction⟩

end Actions

section Step
variable (g : GraphDefinition) (o : RuntimeOptions) {s : State β} {e : EdgeDescriptor}
  {answers : PolicyAnswers β} {x : Stamped (Frame β)} {rest : List (Stamped (Frame β))}

/-- The same state with another reason on the queue of `e`. -/
def State.withReason (s : State β) (e : EdgeDescriptor) (prior : Option String) : State β :=
  s.setQueue e { s.queues e with latestErrorReason := prior }

theorem State.withReason_queue (s : State β) (e : EdgeDescriptor) (prior : Option String) :
    ((s.withReason e prior).queues e).closed = (s.queues e).closed ∧
      ((s.withReason e prior).queues e).latestErrorReason = prior := by
  unfold State.withReason State.setQueue
  simp only [Function.update_self, and_self]

/-- What the queue says of its overflow policy. -/
def overflowReason : String := bounded "queue full: overflow policy abort"

/-- The text is the message of the failure, or what the queue says of its overflow policy. -/
def Tells (r : AbortReason) (text : String) : Prop :=
  text = r.message ∨ r.code = "MUXIVA-CONCURRENT-QUEUE-ABORT" ∧ text = overflowReason

variable [DecidableEq β] in
/-- Whatever reason the edge had before: when `apply_edge` or `apply_signal` fails in this step, so
that `fail_graph` is next, the edge has a reason of that failure. -/
def State.Records (s : State β) (e : EdgeDescriptor) (answers : PolicyAnswers β) : Prop :=
  ∀ prior s' r signal, (s.withReason e prior).dispatcherStep g o e answers = some s' →
    s'.dispatchers e = .fail r signal →
    ∃ text, (s'.queues e).latestErrorReason = some text ∧ Tells r text

/-- The action is refused, or its frame finds the queue closed; a producer wakes up at a closed
queue; a signal finds its queue closed or full. -/
def State.Unexplained (s : State β) (e : EdgeDescriptor) (answers : PolicyAnswers β) : Prop :=
  match s.dispatchers e with
  | .frames (x :: _) => ∃ action, Accepted e x.value answers action ∧
      (action.Refused e x.value ∨ action.Passes ∧ (s.queues e).closed = true)
  | .pushWait _ _ notified => notified = true ∧ (s.queues e).closed = true
  | .signals (_ :: _) => (e.usesNamedPolicy = true → answers.onSignal = .ok ()) ∧
      ((s.signalQueues e).closed = true ∨
        (s.signalQueues e).queue.length = (s.signalQueues e).capacity)
  | _ => False

theorem pushFrame_closed (hclosed : (s.queues e).closed = true) :
    (s.pushFrame e x rest).dispatchers e = .fail (queueClosedAbort e) false ∧
      (s.pushFrame e x rest).queues e = s.queues e := by
  have hpush : (s.queues e).push x = (.closed, s.queues e) := if_pos hclosed
  unfold State.pushFrame
  rw [hpush]
  simp

theorem pushFrame_open (hopen : (s.queues e).closed = false) {r : AbortReason} {signal : Bool}
    (h : (s.pushFrame e x rest).dispatchers e = .fail r signal) :
    ((s.pushFrame e x rest).queues e).latestErrorReason = some overflowReason ∧
      r = queueAbort e := by
  unfold State.pushFrame EdgeQueue.push at h ⊢
  rw [if_neg (by simp [hopen])] at h ⊢
  by_cases hfull : (s.queues e).frames.length = (s.queues e).capacity
  · rw [if_pos hfull] at h ⊢
    cases hover : (s.queues e).overflow with
    | abort =>
      simp only [hover] at h ⊢
      simp only [State.setDispatcher, Function.update_self] at h
      cases h
      simp [EdgeQueue.setReason, overflowReason]
    | block => simp [hover] at h
    | dropOldest => simp [hover] at h
    | dropNewest => simp [hover] at h
  · rw [if_neg hfull] at h
    simp at h

/-- The first frame of a batch passes through `apply_edge`. -/
theorem step_frames [DecidableEq β] {t : State β} (hd : t.dispatchers e = .frames (x :: rest)) :
    ∃ u : State β, t.dispatcherStep g o e answers =
      match applyEdge e answers x.value (t.queues e) with
      | (.fail r, q) => some ((u.setQueue e q).setDispatcher e (.fail r false))
      | (.settled, q) => some ((u.setQueue e q).setDispatcher e (.frames rest))
      | (.deliver f, q) => some ((u.setQueue e q).pushFrame e ⟨x.callback, f⟩ rest) := by
  refine ⟨{ t with log := { t.log with
    applied := Function.update t.log.applied e (t.log.applied e ++ [(x, answers)]) } }, ?_⟩
  unfold State.dispatcherStep
  rw [hd]
  all_goals rfl

theorem records_frames [DecidableEq β] (hd : s.dispatchers e = .frames (x :: rest)) :
    s.Records g o e answers ↔ ¬ ∃ action, Accepted e x.value answers action ∧
      (action.Refused e x.value ∨ action.Passes ∧ (s.queues e).closed = true) := by
  constructor
  · rintro h ⟨action, hacc, hsilent⟩
    -- the step leaves the queue without a reason where it had none
    obtain ⟨hclosed, hnone⟩ := s.withReason_queue e none
    obtain ⟨u, hu⟩ := @step_frames _ g o e answers x rest _ (s.withReason e none) hd
    rcases @applyEdge_cases _ _ e x.value _ answers ((s.withReason e none).queues e) with
      ⟨-, -, -, r, heq⟩ | ⟨b, hb, hrefused, -, frame, heq⟩ | ⟨hmissing, -⟩
    · rw [heq] at hu
      obtain ⟨text, htext, -⟩ := h none _ r false hu (Function.update_self ..)
      simp [hnone] at htext
    · rw [heq] at hu
      cases hacc.unique hb
      obtain ⟨hfail, hqueue⟩ := @pushFrame_closed _
        (u.setQueue e ((s.withReason e none).queues e)) e ⟨x.callback, frame⟩ rest
        (by simp [hclosed, (hsilent.resolve_left hrefused).2])
      obtain ⟨text, htext, -⟩ := h none _ _ _ hu hfail
      rw [hqueue] at htext
      simp [hnone] at htext
    · obtain ⟨hrefused, hpasses⟩ := hmissing action hacc
      rcases hsilent with hr | ⟨hp, -⟩
      · exact hrefused hr
      · exact hpasses hp
  · intro h prior s' r signal hstep hfail
    obtain ⟨hclosed, -⟩ := s.withReason_queue e prior
    obtain ⟨u, hu⟩ := @step_frames _ g o e answers x rest _ (s.withReason e prior) hd
    rw [hu] at hstep
    rcases @applyEdge_cases _ _ e x.value _ answers ((s.withReason e prior).queues e) with
      ⟨action, hacc, hrefused, -⟩ | ⟨action, hacc, -, hpasses, frame, heq⟩ | ⟨-, hrecorded, hdeliver⟩
    · exact absurd ⟨action, hacc, .inl hrefused⟩ h
    · rw [heq, Option.some.injEq] at hstep
      subst hstep
      have hopen : (s.queues e).closed = false := by
        by_contra hc
        exact h ⟨action, hacc, .inr ⟨hpasses, by simpa using hc⟩⟩
      obtain ⟨hreason, rfl⟩ := pushFrame_open (by simp [hclosed, hopen]) hfail
      exact ⟨_, hreason, .inr ⟨rfl, rfl⟩⟩
    · rcases hx : applyEdge e answers x.value ((s.withReason e prior).queues e) with ⟨outcome, q⟩
      rw [hx] at hstep hrecorded hdeliver
      cases outcome with
      | deliver f => exact absurd rfl (hdeliver f)
      | settled =>
        rw [Option.some.injEq] at hstep
        subst hstep
        simp at hfail
      | fail r' =>
        rw [Option.some.injEq] at hstep
        subst hstep
        simp only [State.setDispatcher, Function.update_self, DispatcherPc.fail.injEq] at hfail
        obtain ⟨rfl, -⟩ := hfail
        exact ⟨_, by simpa using hrecorded r' rfl, .inl rfl⟩

theorem records_pushWait [DecidableEq β] {notified : Bool}
    (hd : s.dispatchers e = .pushWait x rest notified) :
    s.Records g o e answers ↔ ¬ (notified = true ∧ (s.queues e).closed = true) := by
  have hstep (prior : Option String) : (s.withReason e prior).dispatcherStep g o e answers =
      if notified then some ((s.withReason e prior).pushFrame e x rest) else none := by
    have hd' : (s.withReason e prior).dispatchers e = .pushWait x rest notified := hd
    unfold State.dispatcherStep
    rw [hd']
  constructor
  · rintro h ⟨rfl, hc⟩
    obtain ⟨hclosed, hnone⟩ := s.withReason_queue e none
    obtain ⟨hfail, hqueue⟩ := @pushFrame_closed _ (s.withReason e none) e x rest (hclosed.trans hc)
    obtain ⟨text, htext, -⟩ := h none _ _ _ (hstep none) hfail
    rw [hqueue, hnone] at htext
    cases htext
  · intro h prior s' r signal hs hfail
    obtain ⟨hclosed, -⟩ := s.withReason_queue e prior
    rw [hstep prior] at hs
    split_ifs at hs with hnotified
    cases hs
    have hopen : (s.queues e).closed = false := by
      by_contra hc
      exact h ⟨hnotified, by simpa using hc⟩
    obtain ⟨hreason, rfl⟩ := pushFrame_open (hclosed.trans hopen) hfail
    exact ⟨_, hreason, .inr ⟨rfl, rfl⟩⟩

theorem observeSignal_cases (e : EdgeDescriptor) (onSignal : PolicyCall Unit) (q : EdgeQueue α) :
    (∃ r, (observeSignal e onSignal q).1 = some r ∧
      (observeSignal e onSignal q).2.latestErrorReason = some r.message ∧
      ¬ (e.usesNamedPolicy = true → onSignal = .ok ())) ∨
    ((observeSignal e onSignal q).1 = none ∧
      (observeSignal e onSignal q).2.latestErrorReason = q.latestErrorReason ∧
      (e.usesNamedPolicy = true → onSignal = .ok ())) := by
  unfold observeSignal
  by_cases hpolicy : e.usesNamedPolicy = true
  · rw [if_pos hpolicy]
    cases onSignal with
    | ok u => exact .inr ⟨rfl, rfl, fun _ => rfl⟩
    | error err =>
      refine .inl ⟨_, rfl, policyFailure_reason e q.recordSignal "on_signal" (.inl err), ?_⟩
      exact fun h => nomatch h hpolicy
    | panicked m =>
      refine .inl ⟨_, rfl, policyFailure_reason e q.recordSignal "on_signal" (.inr m), ?_⟩
      exact fun h => nomatch h hpolicy
  · rw [if_neg hpolicy]
    exact .inr ⟨rfl, rfl, fun h => absurd h hpolicy⟩

theorem tryPush_room_cases (q : SignalQueue α) (y : α) :
    ((q.closed = true ∨ q.queue.length = q.capacity) ∧ ∃ err, (q.tryPush y).1 = some err) ∨
    (¬ (q.closed = true ∨ q.queue.length = q.capacity) ∧ (q.tryPush y).1 = none) := by
  unfold SignalQueue.tryPush
  by_cases hclosed : q.closed = true
  · rw [if_pos hclosed]
    exact .inl ⟨.inl hclosed, _, rfl⟩
  rw [if_neg hclosed]
  by_cases hfull : q.queue.length = q.capacity
  · rw [if_pos hfull]
    exact .inl ⟨.inr hfull, _, rfl⟩
  · rw [if_neg hfull]
    exact .inr ⟨fun h => h.elim hclosed hfull, rfl⟩

theorem records_signals [DecidableEq β] {y : Stamped (SignalFrame β)}
    {rest : List (Stamped (SignalFrame β))} (hd : s.dispatchers e = .signals (y :: rest)) :
    s.Records g o e answers ↔ ¬ ((e.usesNamedPolicy = true → answers.onSignal = .ok ()) ∧
      ((s.signalQueues e).closed = true ∨
        (s.signalQueues e).queue.length = (s.signalQueues e).capacity)) := by
  have hpush := tryPush_room_cases (s.signalQueues e) y
  constructor
  · rintro h ⟨hhook, hroom⟩
    obtain ⟨-, hnone⟩ := s.withReason_queue e none
    have hd' : (s.withReason e none).dispatchers e = .signals (y :: rest) := hd
    have hobserve := observeSignal_cases e answers.onSignal ((s.withReason e none).queues e)
    rcases hx : observeSignal e answers.onSignal ((s.withReason e none).queues e) with ⟨r, q⟩
    rw [hx] at hobserve
    obtain ⟨r', -, -, hbad⟩ | ⟨hr, hreason, -⟩ := hobserve
    · exact hbad hhook
    obtain ⟨-, err, herr⟩ | ⟨hfree, -⟩ := hpush
    swap
    · exact hfree hroom
    have hqueue : (s.withReason e none).signalQueues e = s.signalQueues e := rfl
    rcases hy : (s.signalQueues e).tryPush y with ⟨result, sq⟩
    rw [hy] at herr
    dsimp only at hr herr hreason
    subst hr herr
    have hs : (s.withReason e none).dispatcherStep g o e answers =
        some ((((s.withReason e none).setQueue e q).setSignalQueue e sq).setDispatcher e
          (.fail (err.abort e) true)) := by
      unfold State.dispatcherStep
      simp only [hd', hx, hqueue, hy]
    obtain ⟨text, htext, -⟩ := h none _ _ _ hs (Function.update_self ..)
    simp [hreason, hnone] at htext
  · intro h prior s' r signal hs hfail
    have hd' : (s.withReason e prior).dispatchers e = .signals (y :: rest) := hd
    unfold State.dispatcherStep at hs
    rw [hd'] at hs
    have hobserve := observeSignal_cases e answers.onSignal ((s.withReason e prior).queues e)
    rcases hx : observeSignal e answers.onSignal ((s.withReason e prior).queues e) with ⟨r', q⟩
    rw [hx] at hs hobserve
    obtain ⟨r₁, hr, hreason, -⟩ | ⟨hr, -, hhook⟩ := hobserve
    · dsimp only at hr hreason
      subst hr
      cases hs
      simp only [State.setDispatcher, Function.update_self, DispatcherPc.fail.injEq] at hfail
      obtain ⟨rfl, -⟩ := hfail
      exact ⟨_, by simpa using hreason, .inl rfl⟩
    · obtain ⟨hroom, -⟩ | ⟨-, hnone⟩ := hpush
      · exact absurd ⟨hhook, hroom⟩ h
      have hqueue : (s.withReason e prior).signalQueues e = s.signalQueues e := rfl
      rcases hy : (s.signalQueues e).tryPush y with ⟨result, sq⟩
      rw [hy] at hnone
      dsimp only at hr hnone
      subst hr hnone
      simp only [hqueue, hy, Option.some.injEq] at hs
      subst hs
      simp at hfail

/-- Only `apply_edge` and `apply_signal` lead to `fail_graph`. -/
theorem edge_failing_step [DecidableEq β] {t s' : State β} {r : AbortReason} {signal : Bool}
    (hs : t.dispatcherStep g o e answers = some s') (hfail : s'.dispatchers e = .fail r signal) :
    (∃ x rest, t.dispatchers e = .frames (x :: rest)) ∨
      (∃ x rest notified, t.dispatchers e = .pushWait x rest notified) ∨
      ∃ y rest, t.dispatchers e = .signals (y :: rest) := by
  have hmove := dispatcherStep_move hs
  generalize t.dispatchers e = pc at hmove ⊢
  cases hmove with
  | rejected x rest => exact .inl ⟨x, rest, rfl⟩
  | settled x rest => exact .inl ⟨x, rest, rfl⟩
  | delivered x rest => exact .inl ⟨x, rest, rfl⟩
  | repush x rest => exact .inr (.inl ⟨x, rest, true, rfl⟩)
  | signalRejected y rest => exact .inr (.inr ⟨y, rest, rfl⟩)
  | signalRefused y rest => exact .inr (.inr ⟨y, rest, rfl⟩)
  | signalPushed y rest => exact .inr (.inr ⟨y, rest, rfl⟩)
  | ack failed => cases failed <;> simp at hfail
  | lost r' signal' => cases signal' <;> simp [DispatcherPc.afterFail] at hfail
  | closed signal' => cases signal' <;> simp [DispatcherPc.afterFail] at hfail
  | recvFrames batch => simp at hfail
  | recvSignals signals => simp at hfail
  | hungUp => simp at hfail
  | batchDone => simp at hfail
  | notifyFrame rest => simp at hfail
  | signalsDone => simp at hfail
  | notifySignal rest => simp at hfail
  | won r' signal' => simp at hfail
  | close task tasks => simp at hfail
  | hangUp => simp at hfail
  | shutdown task tasks => simp at hfail
  | shutdownDone => simp at hfail
  | exit => simp at hfail

/-- A failure of `apply_edge` or `apply_signal` leaves a reason on its edge exactly where it is none
of those that leave nothing. -/
theorem failure_recorded [DecidableEq β] (s : State β) (e : EdgeDescriptor)
    (answers : PolicyAnswers β) :
    s.Records g o e answers ↔ ¬ s.Unexplained e answers := by
  by_cases hframes : ∃ x rest, s.dispatchers e = .frames (x :: rest)
  · obtain ⟨x, rest, hd⟩ := hframes
    rw [records_frames g o hd]
    unfold State.Unexplained
    rw [hd]
  by_cases hwait : ∃ x rest notified, s.dispatchers e = .pushWait x rest notified
  · obtain ⟨x, rest, notified, hd⟩ := hwait
    rw [records_pushWait g o hd]
    unfold State.Unexplained
    rw [hd]
  by_cases hsignals : ∃ y rest, s.dispatchers e = .signals (y :: rest)
  · obtain ⟨y, rest, hd⟩ := hsignals
    rw [records_signals g o hd]
    unfold State.Unexplained
    rw [hd]
  -- no other step fails the graph
  have hnever : ¬ s.Unexplained e answers := by
    unfold State.Unexplained
    split
    · exact fun _ => hframes ⟨_, _, by assumption⟩
    · exact fun _ => hwait ⟨_, _, _, by assumption⟩
    · exact fun _ => hsignals ⟨_, _, by assumption⟩
    · exact not_false
  refine iff_of_true ?_ hnever
  intro prior s' r signal hs hfail
  rcases edge_failing_step g o hs hfail with h | h | h
  · exact absurd h hframes
  · exact absurd h hwait
  · exact absurd h hsignals

end Step

/-- The sample edge with a transform policy. -/
def policyEdge : EdgeDescriptor := { sampleEdge with transformPolicy := .named }

def policyGraph : GraphDefinition where
  nodes := sampleGraph.nodes
  edges := [policyEdge]
  topologicalOrder := [0, 1]
  nodes_nodup := by decide
  edges_nodup := by decide
  order_perm := by decide
  endpoints := by decide
  forward := by decide
  no_source_input := by decide

/-- The source emits a frame, and the policy answers `Forward` with another one: the dispatcher is
about to fail the graph, and the edge has no reason. -/
theorem failure_unrecorded :
    ∃ (s : State Unit) (r : AbortReason), (system policyGraph sampleOptions).Reachable s ∧
      s.dispatchers policyEdge = .fail r false ∧
      r.code = "MUXIVA-CONCURRENT-FORWARD-MUTATION" ∧
      (s.queues policyEdge).latestErrorReason = none := by
  obtain ⟨s, hr, ht⟩ := (system policyGraph sampleOptions).exists_reachable_of_run
    (s := State.initial policyGraph sampleOptions) rfl
    (Label.works 0 2 ++ Label.works 1 2 ++ Label.works 0 4 ++
      [Label.call 0 ⟨[(0, sampleFrame 1)], [], none⟩] ++ Label.works 0 1 ++
      List.replicate 2 (.dispatcher policyEdge
        ⟨.ok .accept, .ok (.forward (sampleFrame 2)), .ok (), .ok ()⟩))
    (fun s => match s.dispatchers policyEdge with
      | .fail r false => decide (r.code = "MUXIVA-CONCURRENT-FORWARD-MUTATION" ∧
          (s.queues policyEdge).latestErrorReason = none)
      | _ => false) (by decide +kernel)
  split at ht
  · rename_i r hd
    simp only [decide_eq_true_eq] at ht
    exact ⟨s, r, hr, hd, ht⟩
  · cases ht

end Muxiva.Runtime
