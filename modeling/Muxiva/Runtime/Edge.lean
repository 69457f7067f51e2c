import Muxiva.Runtime.Queue

/-! The edge pipeline of the concurrent runtime up to the queue: type gate, validation,
transform, and what each disposition of the policy leads to. The answers of the policy hooks
are arguments. -/
set_option linter.all false
namespace Muxiva.Runtime

variable {α β : Type}

inductive ValidationDecision where
  | accept
  | reject (reason : String)
  deriving DecidableEq, Repr

inductive EdgeAction (β : Type) where
  | forward (frame : Frame β)
  | replace (frame : Frame β)
  | drop (reason : String)
  | abort (reason : String)
  | emitSignal (frame : Frame β)
  deriving DecidableEq

/-- A hook call under `catch_unwind`. -/
inductive PolicyCall (τ : Type) where
  | ok (value : τ)
  | error (e : MuxivaError)
  | panicked (message : String)
  deriving DecidableEq

/-- What the hooks of one edge policy answer while one frame passes. -/
structure PolicyAnswers (β : Type) where
  validate : PolicyCall ValidationDecision
  transform : PolicyCall (EdgeAction β)
  onSignal : PolicyCall Unit
  onDrop : PolicyCall Unit
  deriving DecidableEq

def edgeAbort (edge : EdgeDescriptor) (code message phase : String) : AbortReason where
  category := .nodeError
  nodeId := some edge.fromNodeId
  stage := .runtime
  code := code
  message := bounded message
  details := [.edgeId edge.edgeId, .policyPhase phase]

def runtimeAbort (code message : String) (nodeId : Option NodeId) (category : AbortCategory)
    (stage : AbortStage) : AbortReason :=
  ⟨category, nodeId, stage, code, bounded message, []⟩

def runtimeAbortDetails (code message : String) (nodeId : NodeId) (details : List Detail) :
    AbortReason :=
  ⟨.nodeError, some nodeId, .process, code, bounded message, details⟩

def nodeError (e : MuxivaError) (nodeId : NodeId) (stage : AbortStage) : AbortReason :=
  runtimeAbort e.code e.message (some nodeId) e.abortCategory stage

def panicAbort (message : String) (nodeId : NodeId) (stage : AbortStage) (details : List Detail) :
    AbortReason :=
  ⟨.rustPanic, some nodeId, stage, "MUXIVA-CONCURRENT-PANIC", bounded message, details⟩

def cancellationAbort : AbortReason :=
  runtimeAbort "MUXIVA-CONCURRENT-CANCELLED" "graph Stop was requested" none .cancelled .runtime

def emissionLimitAbort (nodeId : NodeId) (limit : ℕ) : AbortReason :=
  runtimeAbortDetails "MUXIVA-CONCURRENT-EMISSION-LIMIT"
    "node lifecycle call exceeded its bounded emission budget" nodeId [.emissionLimit limit]

/-- `policy_error` and `policy_panic`: the hook's failure, recorded on the queue. -/
def policyFailure (edge : EdgeDescriptor) (q : EdgeQueue α) (phase : String) :
    MuxivaError ⊕ String → AbortReason × EdgeQueue α
  | .inl e => (⟨e.abortCategory, some edge.fromNodeId, .runtime, e.code, bounded e.message,
      [.edgeId edge.edgeId, .policyPhase phase]⟩, q.recordError e.message)
  | .inr m => (panicAbort m edge.fromNodeId .runtime [.edgeId edge.edgeId, .policyPhase phase],
      q.recordError (bounded m))

/-- What becomes of a frame before the queue. -/
inductive EdgeOutcome (β : Type) where
  | deliver (frame : Frame β)
  | settled
  | fail (reason : AbortReason)
  deriving DecidableEq

/-- Calls a hook and goes on with its answer. -/
def PolicyCall.andThen {τ : Type} (c : PolicyCall τ) (edge : EdgeDescriptor) (q : EdgeQueue α)
    (phase : String) (k : τ → EdgeOutcome β × EdgeQueue α) : EdgeOutcome β × EdgeQueue α :=
  match c with
  | .ok value => k value
  | .error e =>
    let (reason, q) := policyFailure edge q phase (.inl e)
    (.fail reason, q)
  | .panicked m =>
    let (reason, q) := policyFailure edge q phase (.inr m)
    (.fail reason, q)

def recordPolicyDrop (edge : EdgeDescriptor) (q : EdgeQueue α) (answers : PolicyAnswers β)
    (reason : String) : EdgeOutcome β × EdgeQueue α :=
  let q := q.recordDrop reason
  answers.onDrop.andThen edge q "on_drop" fun _ => (.settled, q)

variable [DecidableEq β]

/-- The disposition of an accepted frame. -/
def applyAction (edge : EdgeDescriptor) (answers : PolicyAnswers β) (original : Frame β)
    (q : EdgeQueue α) : EdgeAction β → EdgeOutcome β × EdgeQueue α
  | .forward frame =>
    if frame ≠ original ∨ frame.frameId ≠ original.frameId then
      (.fail (edgeAbort edge "MUXIVA-CONCURRENT-FORWARD-MUTATION"
        "Forward must return the unchanged frame" "transform"), q)
    else (.deliver frame, q)
  | .replace replacement =>
    if replacement.frameId = original.frameId ∨ replacement.frameType ≠ edge.frameType then
      (.fail (edgeAbort edge "MUXIVA-CONCURRENT-REPLACE"
        "Replace requires a fresh ID and the exact Edge type" "transform"), q)
    else match original.attachReplacementLineage replacement edge.edgeId
        "edge policy replacement" with
      | .ok frame => (.deliver frame, q)
      | .error e => (.fail (nodeError e edge.fromNodeId .runtime), q)
  | .drop reason => recordPolicyDrop edge q answers reason
  | .abort reason =>
    (.fail (edgeAbort edge "MUXIVA-CONCURRENT-POLICY-ABORT" reason "transform"),
      q.recordError reason)
  | .emitSignal frame =>
    if frame.frameType ≠ .signal then
      (.fail (edgeAbort edge "MUXIVA-CONCURRENT-SIGNAL-TYPE"
        "EmitSignal requires a Signal frame" "transform"), q)
    else
      let q := q.recordSignal
      answers.onSignal.andThen edge q "on_signal" fun _ => (.settled, q)

/-- `apply_edge` up to `queue.push`. -/
def applyEdge (edge : EdgeDescriptor) (answers : PolicyAnswers β) (original : Frame β)
    (q : EdgeQueue α) : EdgeOutcome β × EdgeQueue α :=
  if original.frameType ≠ edge.frameType then
    (.fail (edgeAbort edge "MUXIVA-CONCURRENT-EDGE-TYPE"
      "frame failed the mandatory exact Edge type gate" "type_gate"),
      q.recordError "frame failed the mandatory exact Edge type gate")
  else
    let validation : PolicyCall ValidationDecision := match edge.validationPolicy with
      | .typeGateOnly => .ok .accept
      | .named _ => answers.validate
    validation.andThen edge q "validate" fun
      | .reject reason =>
        match edge.validationPolicy with
        | .named .abort =>
          (.fail (edgeAbort edge "MUXIVA-CONCURRENT-VALIDATION" reason "validate"),
            q.recordError reason)
        | _ => recordPolicyDrop edge q answers reason
      | .accept =>
        let action : PolicyCall (EdgeAction β) := match edge.transformPolicy with
          | .identity => .ok (.forward original)
          | .named => answers.transform
        action.andThen edge q "transform" fun action =>
          match applyAction edge answers original q action with
          | (.deliver frame, q) =>
            if frame.frameType ≠ edge.frameType then
              (.fail (edgeAbort edge "MUXIVA-CONCURRENT-QUEUE-TYPE"
                "policy output type does not match queue type" "queue"), q)
            else (.deliver frame, q)
          | other => other

/-- `OverflowAbort` and `Closed` of `queue.push`, as `apply_edge` reports them. -/
def queueAbort (edge : EdgeDescriptor) : AbortReason :=
  edgeAbort edge "MUXIVA-CONCURRENT-QUEUE-ABORT" "queue overflow policy aborted" "queue"

def queueClosedAbort (edge : EdgeDescriptor) : AbortReason :=
  edgeAbort edge "MUXIVA-CONCURRENT-QUEUE-CLOSED" "queue closed while routing a frame" "queue"

def SignalQueuePushError.abort (edge : EdgeDescriptor) : SignalQueuePushError → AbortReason
  | .full => edgeAbort edge "MUXIVA-SIGNAL-QUEUE-FULL" "bounded adjacent Signal queue is full"
      "signal_queue"
  | .closed => edgeAbort edge "MUXIVA-SIGNAL-QUEUE-CLOSED" "adjacent Signal queue is closed"
      "signal_queue"

/-- The policy part of `apply_signal`: the hook is called where the edge has a policy. -/
def observeSignal (edge : EdgeDescriptor) (onSignal : PolicyCall Unit) (q : EdgeQueue α) :
    Option AbortReason × EdgeQueue α :=
  let q := q.recordSignal
  if edge.usesNamedPolicy then
    match onSignal with
    | .ok _ => (none, q)
    | .error e =>
      let (reason, q) := policyFailure edge q "on_signal" (.inl e)
      (some reason, q)
    | .panicked m =>
      let (reason, q) := policyFailure edge q "on_signal" (.inr m)
      (some reason, q)
  else (none, q)

/-- The same queue up to its metrics. -/
structure SameFrames (q q' : EdgeQueue α) : Prop where
  frames : q'.frames = q.frames
  closed : q'.closed = q.closed
  capacity : q'.capacity = q.capacity
  overflow : q'.overflow = q.overflow

theorem SameFrames.refl (q : EdgeQueue α) : SameFrames q q := ⟨rfl, rfl, rfl, rfl⟩

theorem policyFailure_sameFrames (edge : EdgeDescriptor) (q : EdgeQueue α) (phase : String)
    (f : MuxivaError ⊕ String) : SameFrames q (policyFailure edge q phase f).2 := by
  cases f <;> exact ⟨rfl, rfl, rfl, rfl⟩

omit [DecidableEq β] in
theorem andThen_sameFrames {τ : Type} (c : PolicyCall τ) (edge : EdgeDescriptor)
    (q q₀ : EdgeQueue α) (phase : String) (k : τ → EdgeOutcome β × EdgeQueue α)
    (h₀ : SameFrames q₀ q) (hk : ∀ v, SameFrames q₀ (k v).2) :
    SameFrames q₀ (c.andThen edge q phase k).2 := by
  cases c with
  | ok v => exact hk v
  | error e => exact ⟨h₀.frames, h₀.closed, h₀.capacity, h₀.overflow⟩
  | panicked m => exact ⟨h₀.frames, h₀.closed, h₀.capacity, h₀.overflow⟩

omit [DecidableEq β] in
theorem recordPolicyDrop_sameFrames (edge : EdgeDescriptor) (q : EdgeQueue α)
    (answers : PolicyAnswers β) (reason : String) :
    SameFrames q (recordPolicyDrop edge q answers reason).2 :=
  andThen_sameFrames _ _ _ _ _ _ ⟨rfl, rfl, rfl, rfl⟩ fun _ => ⟨rfl, rfl, rfl, rfl⟩

theorem applyAction_sameFrames (edge : EdgeDescriptor) (answers : PolicyAnswers β)
    (original : Frame β) (q : EdgeQueue α) (action : EdgeAction β) :
    SameFrames q (applyAction edge answers original q action).2 := by
  cases action with
  | forward frame =>
    simp only [applyAction]
    split_ifs <;> exact .refl q
  | replace replacement =>
    simp only [applyAction]
    split_ifs
    · exact .refl q
    · split <;> exact .refl q
  | drop reason => exact recordPolicyDrop_sameFrames edge q answers reason
  | abort reason => exact ⟨rfl, rfl, rfl, rfl⟩
  | emitSignal frame =>
    simp only [applyAction]
    split_ifs
    · exact .refl q
    · exact andThen_sameFrames _ _ _ _ _ _ ⟨rfl, rfl, rfl, rfl⟩ fun _ => ⟨rfl, rfl, rfl, rfl⟩

/-- The pipeline only writes metrics. -/
theorem applyEdge_sameFrames (edge : EdgeDescriptor) (answers : PolicyAnswers β)
    (original : Frame β) (q : EdgeQueue α) :
    SameFrames q (applyEdge edge answers original q).2 := by
  unfold applyEdge
  split_ifs
  · exact ⟨rfl, rfl, rfl, rfl⟩
  · refine andThen_sameFrames _ _ _ _ _ _ (.refl q) fun decision => ?_
    cases decision with
    | reject reason =>
      simp only
      split
      · exact ⟨rfl, rfl, rfl, rfl⟩
      · exact recordPolicyDrop_sameFrames edge q answers reason
    | accept =>
      refine andThen_sameFrames _ _ _ _ _ _ (.refl q) fun action => ?_
      have h := applyAction_sameFrames edge answers original q action
      split
      · rename_i frame q' heq
        rw [heq] at h
        split_ifs <;> exact h
      · exact h

theorem SameFrames.of_applyEdge {edge : EdgeDescriptor} {answers : PolicyAnswers β}
    {original : Frame β} {q q' : EdgeQueue α} {out : EdgeOutcome β}
    (h : applyEdge edge answers original q = (out, q')) : SameFrames q q' := by
  have hsame := applyEdge_sameFrames edge answers original q
  rwa [h] at hsame

theorem observeSignal_sameFrames (edge : EdgeDescriptor) (onSignal : PolicyCall Unit)
    (q : EdgeQueue α) : SameFrames q (observeSignal edge onSignal q).2 := by
  unfold observeSignal
  split_ifs
  · cases onSignal <;> exact ⟨rfl, rfl, rfl, rfl⟩
  · exact ⟨rfl, rfl, rfl, rfl⟩

theorem SameFrames.of_observeSignal {edge : EdgeDescriptor} {onSignal : PolicyCall Unit}
    {q q' : EdgeQueue α} {r : Option AbortReason} (h : observeSignal edge onSignal q = (r, q')) :
    SameFrames q q' := by
  have hsame := observeSignal_sameFrames edge onSignal q
  rwa [h] at hsame

omit [DecidableEq β] in
theorem andThen_outcome {τ : Type} (c : PolicyCall τ) (edge : EdgeDescriptor) (q q' : EdgeQueue α)
    (phase : String) (k k' : τ → EdgeOutcome β × EdgeQueue α) (hk : ∀ v, (k v).1 = (k' v).1) :
    (c.andThen edge q phase k).1 = (c.andThen edge q' phase k').1 := by
  cases c with
  | ok v => exact hk v
  | error e => rfl
  | panicked m => rfl

theorem applyAction_outcome (edge : EdgeDescriptor) (answers : PolicyAnswers β)
    (original : Frame β) (q q' : EdgeQueue α) (action : EdgeAction β) :
    (applyAction edge answers original q action).1 =
      (applyAction edge answers original q' action).1 := by
  cases action with
  | forward frame =>
    simp only [applyAction]
    split_ifs <;> rfl
  | replace replacement =>
    simp only [applyAction]
    split_ifs
    · rfl
    · split <;> rfl
  | drop reason => exact andThen_outcome _ _ _ _ _ _ _ fun _ => rfl
  | abort reason => rfl
  | emitSignal frame =>
    simp only [applyAction]
    split_ifs
    · rfl
    · exact andThen_outcome _ _ _ _ _ _ _ fun _ => rfl

/-- The outcome does not depend on the queue. -/
theorem applyEdge_outcome (edge : EdgeDescriptor) (answers : PolicyAnswers β)
    (original : Frame β) (q q' : EdgeQueue α) :
    (applyEdge edge answers original q).1 = (applyEdge edge answers original q').1 := by
  unfold applyEdge
  split_ifs
  · rfl
  · refine andThen_outcome _ _ _ _ _ _ _ fun decision => ?_
    cases decision with
    | reject reason =>
      simp only
      split
      · rfl
      · exact andThen_outcome _ _ _ _ _ _ _ fun _ => rfl
    | accept =>
      refine andThen_outcome _ _ _ _ _ _ _ fun action => ?_
      have h := applyAction_outcome edge answers original q q' action
      rcases hl : applyAction edge answers original q action with ⟨out, p⟩
      rcases hr : applyAction edge answers original q' action with ⟨out', p'⟩
      rw [hl, hr] at h
      change out = out' at h
      subst h
      cases out with
      | deliver frame =>
        simp only
        split_ifs <;> rfl
      | settled => rfl
      | fail reason => rfl

end Muxiva.Runtime
