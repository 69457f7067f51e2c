import Muxiva.Edge.Agreement

/-! The pipelines over fixed answers, which the whole-run models use, are these pipelines with the
answers the policy gives. -/
set_option linter.all false
namespace Muxiva.Edge

open Muxiva.Runtime (ValidationDecision EdgeAction PolicyCall PolicyAnswers EdgeQueue EdgeOutcome)
open Muxiva.Runner (Disposition)

variable {π β τ : Type}

variable (P : EdgePolicy π β) (edge : EdgeDescriptor) (s : π) (original : Frame β)

/-- The state of the policy after the validation. -/
def validatedState : π :=
  match edge.validationPolicy with
  | .typeGateOnly => s
  | .named _ => (P.validate s original).2

/-- The state of the policy after the transform. -/
def transformedState : π :=
  match edge.transformPolicy with
  | .identity => validatedState P edge s original
  | .named => (P.transform (validatedState P edge s original) original).2

/-- What the hooks of a policy in state `s` answer while a frame passes. -/
def answersOf : PolicyAnswers β where
  validate := (P.validate s original).1
  transform := (P.transform (validatedState P edge s original) original).1
  onSignal :=
    match (P.transform (validatedState P edge s original) original).1 with
    | .ok (.emitSignal frame) =>
      match frame.asSignal with
      | some signal => (P.onSignal (transformedState P edge s original) signal).1
      | none => .ok ()
    | _ => .ok ()
  onDrop :=
    match edge.validationPolicy, (P.validate s original).1 with
    | .named _, .ok (.reject reason) => (P.onDrop (validatedState P edge s original) reason).1
    | _, _ =>
      match (P.transform (validatedState P edge s original) original).1 with
      | .ok (.drop reason) => (P.onDrop (transformedState P edge s original) reason).1
      | _ => .ok ()


/-- The answers of the hooks that an action leads to. -/
structure AnswersTo (answers : PolicyAnswers β) (action : EdgeAction β) : Prop where
  onSignal : ∀ frame signal, action = .emitSignal frame → frame.asSignal = some signal →
    answers.onSignal = (P.onSignal s signal).1
  onDrop : ∀ reason, action = .drop reason → answers.onDrop = (P.onDrop s reason).1

variable {P s}

theorem dropFrame_disposition (answers : PolicyAnswers β) (st : RunnerEdge π β) (reason : String)
    (h : answers.onDrop = (P.onDrop st.policy.state reason).1) :
    RunnerDisposition edge st (st.dropFrame P edge reason) (Runner.dropFrame edge answers) := by
  unfold RunnerEdge.dropFrame Runner.dropFrame RunnerEdge.answered Runner.askPolicy
  rw [h]
  have hcalls : (st.policy.onDrop P reason).2.calls.getLast? = some (.onDrop reason) := by
    simp [PolicyInstance.onDrop, PolicyInstance.called]
  have hanswer : (st.policy.onDrop P reason).1 = (P.onDrop st.policy.state reason).1 := rfl
  simp only [hanswer]
  cases (P.onDrop st.policy.state reason).1 with
  | ok value => exact .dropped _ reason hcalls rfl rfl
  | error e => exact .aborted _ _ rfl rfl
  | panicked m => exact .aborted _ _ rfl rfl

theorem deliver_disposition (st : RunnerEdge π β) (frame : Frame β) :
    RunnerDisposition edge st (st.deliver edge frame) (Runner.deliver edge frame) := by
  unfold RunnerEdge.deliver Runner.deliver
  split_ifs
  · exact .aborted _ _ rfl rfl
  · exact .delivered _ _ rfl rfl

variable [DecidableEq β]

theorem applyAction_disposition (answers : PolicyAnswers β) (st : RunnerEdge π β)
    (action : EdgeAction β) (h : AnswersTo P st.policy.state answers action) :
    RunnerDisposition edge st (st.applyAction P edge original action)
      (Runner.applyAction edge answers original action) := by
  cases action with
  | forward frame =>
    simp only [RunnerEdge.applyAction, Runner.applyAction]
    split_ifs
    · exact .aborted _ _ rfl rfl
    · exact deliver_disposition edge st frame
  | replace replacement =>
    simp only [RunnerEdge.applyAction, Runner.applyAction]
    split_ifs
    · exact .aborted _ _ rfl rfl
    · exact .aborted _ _ rfl rfl
    · cases original.attachReplacementLineage replacement edge.edgeId "edge policy replacement" with
      | ok frame => exact deliver_disposition edge st frame
      | error e => exact .aborted _ _ rfl rfl
  | drop reason => exact dropFrame_disposition edge answers st reason (h.onDrop reason rfl)
  | abort reason => exact .aborted _ _ rfl rfl
  | emitSignal frame =>
    simp only [RunnerEdge.applyAction, Runner.applyAction, RunnerEdge.applySignal]
    cases hs : frame.asSignal with
    | none =>
      have ht : frame.frameType ≠ .signal := by
        intro ht
        simp [Frame.asSignal, ht] at hs
      rw [if_pos ht]
      exact .aborted _ _ rfl rfl
    | some signal =>
      have ht : frame.frameType = .signal := by
        by_contra ht
        simp [Frame.asSignal, ht] at hs
      have hframe : signal.1 = frame := by
        simp only [Frame.asSignal, ht, dite_true, Option.some.injEq] at hs
        rw [← hs]
      rw [if_neg (not_not.mpr ht), h.onSignal frame signal rfl hs]
      have hcalls : (st.policy.onSignal P signal).2.calls.getLast? = some (.onSignal signal) := by
        simp [PolicyInstance.onSignal, PolicyInstance.called]
      have hanswer : (st.policy.onSignal P signal).1 = (P.onSignal st.policy.state signal).1 := rfl
      simp only [RunnerEdge.answered, Runner.askPolicy, hanswer]
      cases (P.onSignal st.policy.state signal).1 with
      | ok value =>
        rw [← hframe]
        exact .observed _ signal hcalls rfl rfl
      | error e => exact .aborted _ _ rfl rfl
      | panicked m => exact .aborted _ _ rfl rfl

theorem transformFrame_disposition (answers : PolicyAnswers β) (st : RunnerEdge π β)
    (ht : answers.transform = (P.transform st.policy.state original).1)
    (h : ∀ action, edge.transformPolicy = .named →
      (P.transform st.policy.state original).1 = .ok action →
      AnswersTo P (P.transform st.policy.state original).2 answers action) :
    RunnerDisposition edge st (st.transformFrame P edge original)
      (Runner.askPolicy (match edge.transformPolicy with
        | .identity => .ok (.forward original)
        | .named => answers.transform) edge "transform"
        (Runner.applyAction edge answers original)) := by
  unfold RunnerEdge.transformFrame
  cases htp : edge.transformPolicy with
  | identity => exact applyAction_disposition edge original answers st _ ⟨by simp, by simp⟩
  | named =>
    have hanswer : (st.policy.transform P original).1 = (P.transform st.policy.state original).1 :=
      rfl
    simp only [ht, RunnerEdge.answered, Runner.askPolicy, hanswer]
    cases ha : (P.transform st.policy.state original).1 with
    | ok action =>
      exact RunnerDisposition.of_policy (applyAction_disposition edge original answers
        { st with policy := (st.policy.transform P original).2 } action (h action htp ha))
    | error e => exact .aborted _ _ rfl rfl
    | panicked m => exact .aborted _ _ rfl rfl

omit [DecidableEq β] in
/-- The hooks that follow an accepted frame answer as fixed. -/
theorem answersOf_accepted (P : EdgePolicy π β) (s : π)
    (hv : edge.validationPolicy = .typeGateOnly ∨ (P.validate s original).1 = .ok .accept)
    (action : EdgeAction β) (htp : edge.transformPolicy = .named)
    (ha : (P.transform (validatedState P edge s original) original).1 = .ok action) :
    AnswersTo P (P.transform (validatedState P edge s original) original).2
      (answersOf P edge s original) action := by
  have hstate : transformedState P edge s original =
      (P.transform (validatedState P edge s original) original).2 := by
    simp [transformedState, htp]
  constructor
  · rintro frame signal rfl hs
    simp [answersOf, ha, hs, hstate]
  · rintro reason rfl
    rcases hv with hv | hv
    · simp [answersOf, ha, hv, hstate]
    · cases edge.validationPolicy <;> simp [answersOf, ha, hv, hstate]

/-- The runner's pipeline over fixed answers says what becomes of the frame. -/
theorem applyEdge_disposition (P : EdgePolicy π β) (st : RunnerEdge π β) :
    RunnerDisposition edge st (st.applyEdge P edge original)
      (Runner.applyEdge edge (answersOf P edge st.policy.state original) original) := by
  have haccepted := answersOf_accepted edge original P st.policy.state
  unfold RunnerEdge.applyEdge Runner.applyEdge
  by_cases htype : original.frameType ≠ edge.frameType
  · rw [if_pos htype, if_pos htype]
    exact .aborted _ _ rfl rfl
  rw [if_neg htype, if_neg htype]
  cases hv : edge.validationPolicy with
  | typeGateOnly =>
    have hstate : validatedState P edge st.policy.state original = st.policy.state := by
      simp [validatedState, hv]
    rw [hstate] at haccepted
    exact transformFrame_disposition edge original _ st (by simp [answersOf, hstate])
      (haccepted (.inl hv))
  | named onFailure =>
    have hstate : validatedState P edge st.policy.state original =
        (P.validate st.policy.state original).2 := by simp [validatedState, hv]
    have hanswer : (st.policy.validate P original).1 = (P.validate st.policy.state original).1 :=
      rfl
    have hvalidate : (answersOf P edge st.policy.state original).validate =
        (P.validate st.policy.state original).1 := rfl
    simp only [RunnerEdge.answered, Runner.askPolicy, hanswer, hvalidate]
    cases ha : (P.validate st.policy.state original).1 with
    | error e => exact .aborted _ _ rfl rfl
    | panicked m => exact .aborted _ _ rfl rfl
    | ok decision =>
      cases decision with
      | reject reason =>
        simp only [RunnerEdge.decided, hv]
        cases onFailure with
        | abort => exact .aborted _ _ rfl rfl
        | drop =>
          refine RunnerDisposition.of_policy (dropFrame_disposition edge _
            { st with policy := (st.policy.validate P original).2 } reason ?_)
          simp [answersOf, hv, ha, hstate, PolicyInstance.validate, PolicyInstance.called]
      | accept =>
        rw [hstate] at haccepted
        exact RunnerDisposition.of_policy (transformFrame_disposition edge original _
          { st with policy := (st.policy.validate P original).2 }
          (by simp [answersOf, hstate, PolicyInstance.validate, PolicyInstance.called])
          (haccepted (.inr ha)))

/-- What the concurrent `apply_edge` returns and how it leaves the queue, from what becomes of the
frame before the queue. -/
def settle : EdgeOutcome β × EdgeQueue (Frame β) → Option (Except AbortReason Unit) ×
    EdgeQueue (Frame β)
  | (.fail r, q) => (some (.error r), q)
  | (.settled, q) => (some (.ok ()), q)
  | (.deliver frame, q) =>
    let (r, q) := q.push frame
    match r with
    | .enqueued | .enqueuedAfterDroppingOldest | .dropped => (some (.ok ()), q)
    | .overflowAbort => (some (.error (Runtime.queueAbort edge)), q)
    | .closed => (some (.error (Runtime.queueClosedAbort edge)), q)
    | .wait => (none, q)

/-- The result without the policy. -/
def written (y : OutputEdge.Result π β) : Option (Except AbortReason Unit) × EdgeQueue (Frame β) :=
  (y.1, y.2.queue)

omit [DecidableEq β] in
theorem push_settle (out : OutputEdge π β) (frame : Frame β) :
    written (out.push edge frame) = settle edge (.deliver frame, out.queue) := by
  rcases hp : out.queue.push frame with ⟨r, q⟩
  cases r <;> simp [OutputEdge.push, OutputEdge.fail, settle, written, hp]

omit [DecidableEq β] in
theorem answered_settle (out : OutputEdge π β) (phase : String)
    (k : τ → OutputEdge π β → OutputEdge.Result π β)
    (k' : τ → EdgeOutcome β × EdgeQueue (Frame β)) (answer : PolicyCall τ × PolicyInstance π β)
    (h : ∀ value, answer.1 = .ok value →
      written (k value { out with policy := answer.2 }) = settle edge (k' value)) :
    written (out.answered edge phase k answer) =
      settle edge (answer.1.andThen edge out.queue phase k') := by
  unfold OutputEdge.answered PolicyCall.andThen
  cases ha : answer.1 with
  | ok value => exact h value ha
  | error e => rfl
  | panicked m => rfl

omit [DecidableEq β] in
theorem recordPolicyDrop_settle (answers : PolicyAnswers β) (out : OutputEdge π β)
    (reason : String) (h : answers.onDrop = (P.onDrop out.policy.state reason).1) :
    written (out.recordPolicyDrop P edge reason) =
      settle edge (Runtime.recordPolicyDrop edge out.queue answers reason) := by
  unfold OutputEdge.recordPolicyDrop Runtime.recordPolicyDrop
  rw [h]
  exact answered_settle edge { out with queue := out.queue.recordDrop reason } "on_drop" _ _
    (out.policy.onDrop P reason) fun _ _ => rfl

/-- The type check between the action and the queue. -/
def checkType : EdgeOutcome β × EdgeQueue (Frame β) → EdgeOutcome β × EdgeQueue (Frame β)
  | (.deliver frame, q) =>
    if frame.frameType ≠ edge.frameType then
      (.fail (Runtime.edgeAbort edge "MUXIVA-CONCURRENT-QUEUE-TYPE"
        "policy output type does not match queue type" "queue"), q)
    else (.deliver frame, q)
  | other => other

omit [DecidableEq β] in
/-- A hook call ends without a frame for the queue. -/
theorem checkType_andThen (c : PolicyCall Unit) (q : EdgeQueue (Frame β)) (phase : String) :
    checkType edge (c.andThen edge q phase fun _ => (.settled, q)) =
      c.andThen edge q phase fun _ => (.settled, q) := by
  cases c <;> rfl

omit [DecidableEq β] in
theorem enqueue_settle (out : OutputEdge π β) (frame : Frame β) :
    written (out.enqueue edge frame) = settle edge (checkType edge (.deliver frame, out.queue)) := by
  unfold OutputEdge.enqueue checkType
  simp only
  split_ifs
  · rfl
  · exact push_settle edge out frame

theorem applyAction_settle (answers : PolicyAnswers β) (out : OutputEdge π β)
    (action : EdgeAction β) (h : AnswersTo P out.policy.state answers action) :
    written (out.applyAction P edge original action) =
      settle edge (checkType edge (Runtime.applyAction edge answers original out.queue action)) := by
  cases action with
  | forward frame =>
    simp only [OutputEdge.applyAction, Runtime.applyAction]
    split_ifs
    · rfl
    · exact enqueue_settle edge out frame
  | replace replacement =>
    simp only [OutputEdge.applyAction, Runtime.applyAction]
    split_ifs
    · rfl
    · cases original.attachReplacementLineage replacement edge.edgeId "edge policy replacement" with
      | ok frame => exact enqueue_settle edge out frame
      | error e => rfl
  | drop reason =>
    simp only [OutputEdge.applyAction, Runtime.applyAction]
    rw [recordPolicyDrop_settle edge answers out reason (h.onDrop reason rfl)]
    exact congrArg (settle edge) (checkType_andThen edge answers.onDrop _ _).symm
  | abort reason => rfl
  | emitSignal frame =>
    simp only [OutputEdge.applyAction, Runtime.applyAction, OutputEdge.applySignal]
    cases hs : frame.asSignal with
    | none =>
      have ht : frame.frameType ≠ .signal := by
        intro ht
        simp [Frame.asSignal, ht] at hs
      rw [if_pos ht]
      rfl
    | some signal =>
      have ht : frame.frameType = .signal := by
        by_contra ht
        simp [Frame.asSignal, ht] at hs
      rw [if_neg (not_not.mpr ht), h.onSignal frame signal rfl hs, checkType_andThen]
      exact answered_settle edge { out with queue := out.queue.recordSignal } "on_signal" _ _
        (out.policy.onSignal P signal) fun _ _ => rfl

theorem transformFrame_settle (answers : PolicyAnswers β) (out : OutputEdge π β)
    (ht : answers.transform = (P.transform out.policy.state original).1)
    (h : ∀ action, edge.transformPolicy = .named →
      (P.transform out.policy.state original).1 = .ok action →
      AnswersTo P (P.transform out.policy.state original).2 answers action) :
    written (out.transformFrame P edge original) =
      settle edge (PolicyCall.andThen (match edge.transformPolicy with
        | .identity => .ok (.forward original)
        | .named => answers.transform) edge out.queue "transform"
        fun action => checkType edge (Runtime.applyAction edge answers original out.queue action)) := by
  unfold OutputEdge.transformFrame
  cases htp : edge.transformPolicy with
  | identity => exact applyAction_settle edge original answers out _ ⟨by simp, by simp⟩
  | named =>
    simp only [ht]
    exact answered_settle edge out "transform" _ _ (out.policy.transform P original)
      fun action ha => applyAction_settle edge original answers
        { out with policy := (out.policy.transform P original).2 } action (h action htp ha)

theorem applyEdge_eq (answers : PolicyAnswers β) (q : EdgeQueue (Frame β)) :
    Runtime.applyEdge edge answers original q =
      if original.frameType ≠ edge.frameType then
        (.fail (Runtime.edgeAbort edge "MUXIVA-CONCURRENT-EDGE-TYPE"
          "frame failed the mandatory exact Edge type gate" "type_gate"),
          q.recordError "frame failed the mandatory exact Edge type gate")
      else PolicyCall.andThen (match edge.validationPolicy with
          | .typeGateOnly => .ok .accept
          | .named _ => answers.validate) edge q "validate" fun
        | .reject reason =>
          match edge.validationPolicy with
          | .named .abort =>
            (.fail (Runtime.edgeAbort edge "MUXIVA-CONCURRENT-VALIDATION" reason "validate"),
              q.recordError reason)
          | _ => Runtime.recordPolicyDrop edge q answers reason
        | .accept => PolicyCall.andThen (match edge.transformPolicy with
            | .identity => .ok (.forward original)
            | .named => answers.transform) edge q "transform"
            fun action => checkType edge (Runtime.applyAction edge answers original q action) := by
  unfold Runtime.applyEdge
  split_ifs
  · rfl
  simp only
  congr 1
  funext decision
  cases decision with
  | reject reason => rfl
  | accept =>
    simp only
    congr 1
    funext action
    rcases Runtime.applyAction edge answers original q action with ⟨outcome, q'⟩
    cases outcome <;> rfl

/-- The runtime's pipeline over fixed answers says what becomes of the frame, and of the queue. -/
theorem applyEdge_settle (P : EdgePolicy π β) (out : OutputEdge π β) :
    written (out.applyEdge P edge original) =
      settle edge (Runtime.applyEdge edge (answersOf P edge out.policy.state original) original
        out.queue) := by
  have haccepted := answersOf_accepted edge original P out.policy.state
  rw [applyEdge_eq]
  unfold OutputEdge.applyEdge
  by_cases htype : original.frameType ≠ edge.frameType
  · rw [if_pos htype, if_pos htype]
    rfl
  rw [if_neg htype, if_neg htype]
  cases hv : edge.validationPolicy with
  | typeGateOnly =>
    have hstate : validatedState P edge out.policy.state original = out.policy.state := by
      simp [validatedState, hv]
    rw [hstate] at haccepted
    exact transformFrame_settle edge original _ out (by simp [answersOf, hstate])
      (haccepted (.inl hv))
  | named onFailure =>
    have hstate : validatedState P edge out.policy.state original =
        (P.validate out.policy.state original).2 := by simp [validatedState, hv]
    refine answered_settle edge out "validate" _ _ (out.policy.validate P original)
      fun decision ha => ?_
    have ha' : (P.validate out.policy.state original).1 = .ok decision := ha
    cases decision with
    | reject reason =>
      simp only [OutputEdge.decided, hv]
      cases onFailure with
      | abort => rfl
      | drop =>
        refine recordPolicyDrop_settle edge _
          { out with policy := (out.policy.validate P original).2 } reason ?_
        simp [answersOf, hv, ha', hstate, PolicyInstance.validate, PolicyInstance.called]
    | accept =>
      rw [hstate] at haccepted
      exact transformFrame_settle edge original _
        { out with policy := (out.policy.validate P original).2 }
        (by simp [answersOf, hstate, PolicyInstance.validate, PolicyInstance.called])
        (haccepted (.inr ha'))

end Muxiva.Edge
