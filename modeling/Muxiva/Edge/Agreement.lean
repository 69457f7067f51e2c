import Muxiva.Edge.Pipeline

/-! The two `apply_edge` do the same with a frame: the same disposition, the same hooks, the same
counts, where the concurrent queue has room. -/
set_option linter.all false
namespace Muxiva.Edge

open Muxiva.Runtime (ValidationDecision EdgeAction PolicyCall EdgeQueue saturatingAdd)
open Muxiva.Runner (Disposition)

variable {π β τ : Type}

/-- What became of the frame, read off what `GraphRunner::apply_edge` returned and wrote. -/
inductive RunnerDisposition (edge : EdgeDescriptor) (st : RunnerEdge π β) :
    RunnerEdge.Result π β → Disposition β → Prop where
  | delivered (st' : RunnerEdge π β) (frame : Frame β)
      (hw : st'.worklist = st.worklist ++ [⟨edge, frame⟩])
      (ho : st'.observedSignals = st.observedSignals) :
      RunnerDisposition edge st (.ok (), st') (.deliver frame)
  | dropped (st' : RunnerEdge π β) (reason : String)
      (hc : st'.policy.calls.getLast? = some (.onDrop reason))
      (hw : st'.worklist = st.worklist) (ho : st'.observedSignals = st.observedSignals) :
      RunnerDisposition edge st (.ok (), st') .dropped
  | observed (st' : RunnerEdge π β) (signal : SignalFrame β)
      (hc : st'.policy.calls.getLast? = some (.onSignal signal))
      (hw : st'.worklist = st.worklist)
      (ho : st'.observedSignals = st.observedSignals ++ [(edge.edgeId, signal.1)]) :
      RunnerDisposition edge st (.ok (), st') (.observed signal.1)
  | aborted (st' : RunnerEdge π β) (reason : AbortReason) (hw : st'.worklist = st.worklist)
      (ho : st'.observedSignals = st.observedSignals) :
      RunnerDisposition edge st (.error reason, st') (.fail reason)

/-- What became of the frame, read off what the concurrent `apply_edge` returned and wrote. -/
inductive RuntimeDisposition (out : OutputEdge π β) :
    OutputEdge.Result π β → Disposition β → Prop where
  | delivered (out' : OutputEdge π β) (frame : Frame β)
      (hq : out'.queue.frames = out.queue.frames ++ [frame]) :
      RuntimeDisposition out (some (.ok ()), out') (.deliver frame)
  | dropped (out' : OutputEdge π β) (reason : String)
      (hc : out'.policy.calls.getLast? = some (.onDrop reason))
      (hq : out'.queue.frames = out.queue.frames) :
      RuntimeDisposition out (some (.ok ()), out') .dropped
  | observed (out' : OutputEdge π β) (signal : SignalFrame β)
      (hc : out'.policy.calls.getLast? = some (.onSignal signal))
      (hq : out'.queue.frames = out.queue.frames) :
      RuntimeDisposition out (some (.ok ()), out') (.observed signal.1)
  | aborted (out' : OutputEdge π β) (reason : AbortReason)
      (hq : out'.queue.frames = out.queue.frames) :
      RuntimeDisposition out (some (.error reason), out') (.fail reason)

/-- Equal dispositions; aborts agree in category, node and stage. -/
def SameDisposition : Disposition β → Disposition β → Prop
  | .deliver f, .deliver f' => f = f'
  | .dropped, .dropped => True
  | .observed f, .observed f' => f = f'
  | .fail r, .fail r' => r.category = r'.category ∧ r.nodeId = r'.nodeId ∧ r.stage = r'.stage
  | _, _ => False

/-- A saturating counter after an event was or was not recorded. -/
def recorded (event : Bool) (total : ℕ) : ℕ := if event then saturatingAdd total 1 else total

/-- Both recorded the drop, if there was one, and both the signal. -/
structure SameCounts (st st' : RunnerEdge π β) (out out' : OutputEdge π β) (drop signal : Bool) :
    Prop where
  runnerDrops : st'.metrics.dropTotal = recorded drop st.metrics.dropTotal
  runnerSignals : st'.metrics.signalTotal = recorded signal st.metrics.signalTotal
  drops : out'.queue.dropTotal = recorded drop out.queue.dropTotal
  signals : out'.queue.signalTotal = recorded signal out.queue.signalTotal

/-- The two ends of one edge started from `st` and `out` did the same. -/
structure Agrees (edge : EdgeDescriptor) (st : RunnerEdge π β) (out : OutputEdge π β)
    (x : RunnerEdge.Result π β) (y : OutputEdge.Result π β) : Prop where
  policy : x.2.policy = y.2.policy
  counts : ∃ drop signal, SameCounts st x.2 out y.2 drop signal
  disposition : ∃ d d', RunnerDisposition edge st x d ∧ RuntimeDisposition out y d' ∧
    SameDisposition d d'

/-- Both abort, with nothing delivered. -/
theorem Agrees.of_abort {edge : EdgeDescriptor} {st st' : RunnerEdge π β}
    {out out' : OutputEdge π β} {r r' : AbortReason} {drop signal : Bool}
    (hp : st'.policy = out'.policy) (hcounts : SameCounts st st' out out' drop signal)
    (hw : st'.worklist = st.worklist) (ho : st'.observedSignals = st.observedSignals)
    (hq : out'.queue.frames = out.queue.frames)
    (hr : r.category = r'.category ∧ r.nodeId = r'.nodeId ∧ r.stage = r'.stage) :
    Agrees edge st out (.error r, st') (some (.error r'), out') :=
  ⟨hp, ⟨drop, signal, hcounts⟩, .fail r, .fail r', .aborted st' r hw ho, .aborted out' r' hq, hr⟩

/-- A hook that fails fails both; one that answers is followed by what agrees. -/
theorem Agrees.of_answered {edge : EdgeDescriptor} {st st₁ : RunnerEdge π β}
    {out out₁ : OutputEdge π β} {drop signal : Bool} {phase : String}
    {k : τ → RunnerEdge π β → RunnerEdge.Result π β}
    {k' : τ → OutputEdge π β → OutputEdge.Result π β}
    {answer : PolicyCall τ × PolicyInstance π β}
    (hcounts : SameCounts st st₁ out out₁ drop signal) (hw : st₁.worklist = st.worklist)
    (ho : st₁.observedSignals = st.observedSignals)
    (hq : out₁.queue.frames = out.queue.frames)
    (hk : ∀ value, answer.1 = .ok value → Agrees edge st out
      (k value { st₁ with policy := answer.2 }) (k' value { out₁ with policy := answer.2 })) :
    Agrees edge st out (st₁.answered edge phase k answer) (out₁.answered edge phase k' answer) := by
  unfold RunnerEdge.answered OutputEdge.answered
  cases ha : answer.1 with
  | ok value => exact hk value ha
  | error e =>
    exact .of_abort rfl ⟨hcounts.runnerDrops, hcounts.runnerSignals, hcounts.drops,
      hcounts.signals⟩ hw ho hq ⟨rfl, rfl, rfl⟩
  | panicked m =>
    exact .of_abort rfl ⟨hcounts.runnerDrops, hcounts.runnerSignals, hcounts.drops,
      hcounts.signals⟩ hw ho hq ⟨rfl, rfl, rfl⟩

/-- The hooks called before do not matter for what is compared. -/
theorem RunnerDisposition.of_policy {edge : EdgeDescriptor} {st : RunnerEdge π β}
    {p : PolicyInstance π β} {x : RunnerEdge.Result π β} {d : Disposition β}
    (h : RunnerDisposition edge { st with policy := p } x d) : RunnerDisposition edge st x d := by
  cases h with
  | delivered st' frame hw ho => exact .delivered st' frame hw ho
  | dropped st' reason hcall hw ho => exact .dropped st' reason hcall hw ho
  | observed st' signal hcall hw ho => exact .observed st' signal hcall hw ho
  | aborted st' reason hw ho => exact .aborted st' reason hw ho

theorem RuntimeDisposition.of_policy {out : OutputEdge π β} {p : PolicyInstance π β}
    {y : OutputEdge.Result π β} {d : Disposition β}
    (h : RuntimeDisposition { out with policy := p } y d) : RuntimeDisposition out y d := by
  cases h with
  | delivered out' frame hq => exact .delivered out' frame hq
  | dropped out' reason hcall hq => exact .dropped out' reason hcall hq
  | observed out' signal hcall hq => exact .observed out' signal hcall hq
  | aborted out' reason hq => exact .aborted out' reason hq

theorem Agrees.of_policy {edge : EdgeDescriptor} {st : RunnerEdge π β} {out : OutputEdge π β}
    {p p' : PolicyInstance π β} {x : RunnerEdge.Result π β} {y : OutputEdge.Result π β}
    (h : Agrees edge { st with policy := p } { out with policy := p' } x y) :
    Agrees edge st out x y := by
  obtain ⟨hp, ⟨drop, signal, hcounts⟩, d, d', hd, hd', hsame⟩ := h
  exact ⟨hp, ⟨drop, signal, ⟨hcounts.runnerDrops, hcounts.runnerSignals, hcounts.drops,
    hcounts.signals⟩⟩, d, d', hd.of_policy, hd'.of_policy, hsame⟩

/-- Nothing was counted yet. -/
theorem SameCounts.none (st st' : RunnerEdge π β) (out out' : OutputEdge π β)
    (hm : st'.metrics.dropTotal = st.metrics.dropTotal ∧
      st'.metrics.signalTotal = st.metrics.signalTotal)
    (hq : out'.queue.dropTotal = out.queue.dropTotal ∧
      out'.queue.signalTotal = out.queue.signalTotal) :
    SameCounts st st' out out' false false :=
  ⟨hm.1, hm.2, hq.1, hq.2⟩

theorem dropFrame_agrees (P : EdgePolicy π β) (edge : EdgeDescriptor) (st : RunnerEdge π β)
    (out : OutputEdge π β) (hp : st.policy = out.policy) (reason : String) :
    Agrees edge st out (st.dropFrame P edge reason) (out.recordPolicyDrop P edge reason) := by
  have hcounts : SameCounts st { st with policy := out.policy, metrics := st.metrics.recordDrop reason }
      out { out with queue := out.queue.recordDrop reason } true false := ⟨rfl, rfl, rfl, rfl⟩
  unfold RunnerEdge.dropFrame OutputEdge.recordPolicyDrop
  simp only [hp]
  refine .of_answered hcounts rfl rfl rfl fun _ _ => ?_
  have hlast : ((out.policy.onDrop P reason).2).calls.getLast? = some (.onDrop reason) := by
    simp [PolicyInstance.onDrop, PolicyInstance.called]
  exact ⟨rfl, ⟨true, false, ⟨rfl, rfl, rfl, rfl⟩⟩, .dropped, .dropped,
    .dropped _ reason hlast rfl rfl, .dropped _ reason hlast rfl, trivial⟩

theorem applySignal_agrees (P : EdgePolicy π β) (edge : EdgeDescriptor) (st : RunnerEdge π β)
    (out : OutputEdge π β) (hp : st.policy = out.policy) (frame : Frame β) :
    Agrees edge st out (st.applySignal P edge frame) (out.applySignal P edge frame) := by
  unfold RunnerEdge.applySignal OutputEdge.applySignal
  cases hs : frame.asSignal with
  | none => exact .of_abort hp (.none _ _ _ _ ⟨rfl, rfl⟩ ⟨rfl, rfl⟩) rfl rfl rfl ⟨rfl, rfl, rfl⟩
  | some signal =>
    have hframe : frame = signal.1 := by
      unfold Frame.asSignal at hs
      split_ifs at hs
      cases hs
      rfl
    have hcounts : SameCounts st { st with policy := out.policy, metrics := st.metrics.recordSignal }
        out { out with queue := out.queue.recordSignal } false true := ⟨rfl, rfl, rfl, rfl⟩
    simp only [hp]
    refine .of_answered hcounts rfl rfl rfl fun _ _ => ?_
    have hlast : ((out.policy.onSignal P signal).2).calls.getLast? = some (.onSignal signal) := by
      simp [PolicyInstance.onSignal, PolicyInstance.called]
    exact ⟨rfl, ⟨false, true, ⟨rfl, rfl, rfl, rfl⟩⟩, .observed signal.1, .observed signal.1,
      .observed _ signal hlast rfl (by rw [hframe]), .observed _ signal hlast rfl, rfl⟩

/-- The queue is open and not full. -/
def OutputEdge.HasRoom (out : OutputEdge π β) : Prop :=
  out.queue.closed = false ∧ out.queue.frames.length < out.queue.capacity

theorem deliver_agrees (edge : EdgeDescriptor) (st : RunnerEdge π β) (out : OutputEdge π β)
    (hp : st.policy = out.policy) (hroom : out.HasRoom) (frame : Frame β) :
    Agrees edge st out (st.deliver edge frame) (out.enqueue edge frame) := by
  unfold RunnerEdge.deliver OutputEdge.enqueue
  by_cases ht : frame.frameType ≠ edge.frameType
  · rw [if_pos ht, if_pos ht]
    exact .of_abort hp (.none _ _ _ _ ⟨rfl, rfl⟩ ⟨rfl, rfl⟩) rfl rfl rfl ⟨rfl, rfl, rfl⟩
  · rw [if_neg ht, if_neg ht]
    have hpush : out.queue.push frame = (.enqueued, out.queue.enqueue frame) := by
      unfold EdgeQueue.push
      rw [if_neg (by simp [hroom.1]), if_neg (Nat.ne_of_lt hroom.2)]
    simp only [OutputEdge.push, hpush]
    exact ⟨hp, ⟨false, false, ⟨rfl, rfl, rfl, rfl⟩⟩, .deliver frame, .deliver frame,
      .delivered _ frame rfl rfl, .delivered _ frame rfl, rfl⟩

section Reasons

/-- A failure of `GraphRunner` leaves its message on the edge, unless the lineage does not take the
replacement. -/
def Told (x : RunnerEdge.Result π β) : Prop :=
  ∀ r, x.1 = .error r →
    x.2.metrics.latestErrorReason = some r.message ∨ r.code = "MUXIVA-FRM-LINEAGE-CYCLE"

theorem told_ok (st : RunnerEdge π β) : Told (.ok (), st) := by
  intro r h
  cases h

theorem told_edgeError (edge : EdgeDescriptor) (st : RunnerEdge π β) (code message : String) :
    Told (st.edgeError edge code message) := by
  intro r h
  cases h
  exact .inl rfl

theorem told_answered {edge : EdgeDescriptor} {st : RunnerEdge π β} {phase : String}
    {k : τ → RunnerEdge π β → RunnerEdge.Result π β} (hk : ∀ value st, Told (k value st))
    (answer : PolicyCall τ × PolicyInstance π β) : Told (st.answered edge phase k answer) := by
  rcases answer with ⟨c, p⟩
  cases c with
  | ok value => exact hk value _
  | error e =>
    intro r h
    cases h
    exact .inl rfl
  | panicked m =>
    intro r h
    cases h
    exact .inl (congrArg some (bounded_bounded m))

theorem told_dropFrame (P : EdgePolicy π β) (edge : EdgeDescriptor) (st : RunnerEdge π β)
    (reason : String) : Told (st.dropFrame P edge reason) :=
  told_answered (fun _ st => told_ok st) _

theorem told_deliver (edge : EdgeDescriptor) (st : RunnerEdge π β) (frame : Frame β) :
    Told (st.deliver edge frame) := by
  unfold RunnerEdge.deliver
  split_ifs
  · exact told_edgeError edge st _ _
  · exact told_ok _

variable [DecidableEq β]

theorem told_applyAction (P : EdgePolicy π β) (edge : EdgeDescriptor) (st : RunnerEdge π β)
    (original : Frame β) (action : EdgeAction β) :
    Told (st.applyAction P edge original action) := by
  cases action with
  | forward frame =>
    dsimp only [RunnerEdge.applyAction]
    split_ifs
    · exact told_edgeError edge st _ _
    · exact told_deliver edge st frame
  | replace replacement =>
    dsimp only [RunnerEdge.applyAction]
    by_cases hid : replacement.frameId = original.frameId
    · rw [if_pos hid]
      exact told_edgeError edge st _ _
    rw [if_neg hid]
    split_ifs
    · exact told_edgeError edge st _ _
    unfold Frame.attachReplacementLineage
    rw [if_neg (Ne.symm hid)]
    dsimp only
    split_ifs
    · intro r h
      cases h
      exact .inr rfl
    · exact told_deliver edge st _
  | drop reason => exact told_dropFrame P edge st reason
  | abort reason =>
    intro r h
    cases h
    exact .inl rfl
  | emitSignal frame =>
    dsimp only [RunnerEdge.applyAction, RunnerEdge.applySignal]
    cases frame.asSignal with
    | none => exact told_edgeError edge st _ _
    | some signal => exact told_answered (fun _ _ => told_ok _) _

theorem told_transformFrame (P : EdgePolicy π β) (edge : EdgeDescriptor) (st : RunnerEdge π β)
    (original : Frame β) : Told (st.transformFrame P edge original) := by
  unfold RunnerEdge.transformFrame
  cases edge.transformPolicy with
  | identity => exact told_applyAction P edge st original _
  | named => exact told_answered (fun action st => told_applyAction P edge st original action) _

theorem told_decided (P : EdgePolicy π β) (edge : EdgeDescriptor) (st : RunnerEdge π β)
    (original : Frame β) (decision : ValidationDecision) :
    Told (st.decided P edge original decision) := by
  cases decision with
  | accept => exact told_transformFrame P edge st original
  | reject reason =>
    unfold RunnerEdge.decided
    cases edge.validationPolicy with
    | typeGateOnly => exact told_dropFrame P edge st reason
    | named onFailure =>
      cases onFailure with
      | drop => exact told_dropFrame P edge st reason
      | abort =>
        intro r h
        cases h
        exact .inl rfl

/-- The synchronous runner has a reason on the edge where the concurrent one may have none. -/
theorem runner_failure_told (P : EdgePolicy π β) (edge : EdgeDescriptor) (st : RunnerEdge π β)
    (original : Frame β) : Told (st.applyEdge P edge original) := by
  unfold RunnerEdge.applyEdge
  split_ifs
  · exact told_edgeError edge st _ _
  · cases edge.validationPolicy with
    | typeGateOnly => exact told_decided P edge st original .accept
    | named onFailure =>
      exact told_answered (fun decision st => told_decided P edge st original decision) _

end Reasons

variable [DecidableEq β]

theorem applyAction_agrees (P : EdgePolicy π β) (edge : EdgeDescriptor) (st : RunnerEdge π β)
    (out : OutputEdge π β) (hp : st.policy = out.policy) (hroom : out.HasRoom)
    (original : Frame β) (action : EdgeAction β) :
    Agrees edge st out (st.applyAction P edge original action)
      (out.applyAction P edge original action) := by
  have habort : ∀ {code message code' message' phase'},
      Agrees edge st out (st.edgeError edge code message)
        (out.fail (Runtime.edgeAbort edge code' message' phase')) := by
    intros
    exact .of_abort hp (.none _ _ _ _ ⟨rfl, rfl⟩ ⟨rfl, rfl⟩) rfl rfl rfl ⟨rfl, rfl, rfl⟩
  cases action with
  | forward frame =>
    simp only [RunnerEdge.applyAction, OutputEdge.applyAction]
    split_ifs
    · exact habort
    · exact deliver_agrees edge st out hp hroom frame
  | replace replacement =>
    simp only [RunnerEdge.applyAction, OutputEdge.applyAction]
    by_cases hid : replacement.frameId = original.frameId
    · rw [if_pos hid, if_pos (.inl hid)]
      exact habort
    by_cases ht : replacement.frameType ≠ edge.frameType
    · rw [if_neg hid, if_pos ht, if_pos (.inr ht)]
      exact habort
    rw [if_neg hid, if_neg ht, if_neg (not_or.mpr ⟨hid, ht⟩)]
    cases original.attachReplacementLineage replacement edge.edgeId "edge policy replacement" with
    | ok frame => exact deliver_agrees edge st out hp hroom frame
    | error e =>
      exact .of_abort hp (.none _ _ _ _ ⟨rfl, rfl⟩ ⟨rfl, rfl⟩) rfl rfl rfl ⟨rfl, rfl, rfl⟩
  | drop reason => exact dropFrame_agrees P edge st out hp reason
  | abort reason =>
    exact .of_abort hp (.none _ _ _ _ ⟨rfl, rfl⟩ ⟨rfl, rfl⟩) rfl rfl rfl ⟨rfl, rfl, rfl⟩
  | emitSignal frame => exact applySignal_agrees P edge st out hp frame

theorem transformFrame_agrees (P : EdgePolicy π β) (edge : EdgeDescriptor) (st : RunnerEdge π β)
    (out : OutputEdge π β) (hp : st.policy = out.policy) (hroom : out.HasRoom)
    (original : Frame β) :
    Agrees edge st out (st.transformFrame P edge original)
      (out.transformFrame P edge original) := by
  unfold RunnerEdge.transformFrame OutputEdge.transformFrame
  cases edge.transformPolicy with
  | identity => exact applyAction_agrees P edge st out hp hroom original _
  | named =>
    simp only [hp]
    refine .of_answered (.none _ _ _ _ ⟨rfl, rfl⟩ ⟨rfl, rfl⟩) rfl rfl rfl fun action _ => ?_
    exact Agrees.of_policy (applyAction_agrees P edge
      { st with policy := (out.policy.transform P original).2 }
      { out with policy := (out.policy.transform P original).2 } rfl hroom original action)

theorem decided_agrees (P : EdgePolicy π β) (edge : EdgeDescriptor) (st : RunnerEdge π β)
    (out : OutputEdge π β) (hp : st.policy = out.policy) (hroom : out.HasRoom)
    (original : Frame β) (decision : ValidationDecision) :
    Agrees edge st out (st.decided P edge original decision)
      (out.decided P edge original decision) := by
  cases decision with
  | accept => exact transformFrame_agrees P edge st out hp hroom original
  | reject reason =>
    unfold RunnerEdge.decided OutputEdge.decided
    cases edge.validationPolicy with
    | typeGateOnly => exact dropFrame_agrees P edge st out hp reason
    | named onFailure =>
      cases onFailure with
      | drop => exact dropFrame_agrees P edge st out hp reason
      | abort =>
        exact .of_abort hp (.none _ _ _ _ ⟨rfl, rfl⟩ ⟨rfl, rfl⟩) rfl rfl rfl ⟨rfl, rfl, rfl⟩

/-- Both runners do the same with a frame on an edge. -/
theorem apply_edge_agreement (P : EdgePolicy π β) (edge : EdgeDescriptor) (original : Frame β)
    (st : RunnerEdge π β) (out : OutputEdge π β) (hp : st.policy = out.policy)
    (hroom : out.HasRoom) :
    Agrees edge st out (st.applyEdge P edge original) (out.applyEdge P edge original) := by
  unfold RunnerEdge.applyEdge OutputEdge.applyEdge
  by_cases ht : original.frameType ≠ edge.frameType
  · rw [if_pos ht, if_pos ht]
    exact .of_abort hp (.none _ _ _ _ ⟨rfl, rfl⟩ ⟨rfl, rfl⟩) rfl rfl rfl ⟨rfl, rfl, rfl⟩
  rw [if_neg ht, if_neg ht]
  cases edge.validationPolicy with
  | typeGateOnly => exact decided_agrees P edge st out hp hroom original .accept
  | named onFailure =>
    simp only [hp]
    refine .of_answered (.none _ _ _ _ ⟨rfl, rfl⟩ ⟨rfl, rfl⟩) rfl rfl rfl fun decision _ => ?_
    exact Agrees.of_policy (decided_agrees P edge
      { st with policy := (out.policy.validate P original).2 }
      { out with policy := (out.policy.validate P original).2 } rfl hroom original decision)

/-- Rejects every other frame and replaces the rest. -/
def samplePolicy : EdgePolicy Bool Unit where
  validate s _ := (.ok (if s then .accept else .reject "every other frame"), !s)
  transform s f := (.ok (.replace { f with frameId := f.frameId + 1 }), s)
  onSignal s _ := (.ok (), s)
  onDrop s _ := (.ok (), s)

def sampleEdge : EdgeDescriptor :=
  ⟨0, 0, 0, 1, 0, .text, ⟨1, .block, Nat.one_pos⟩, .named .drop, .named, true⟩

def sampleRunnerEdge (s : Bool) : RunnerEdge Bool Unit := ⟨⟨s, []⟩, ⟨0, 0, 0, 0, none⟩, [], []⟩

def sampleOutputEdge (s : Bool) : OutputEdge Bool Unit := ⟨⟨s, []⟩, .new sampleEdge.queuePolicy⟩

/-- One frame is dropped with its `on_drop`, the next one is replaced and delivered with its
lineage. -/
theorem apply_edge_agreement_sample :
    (∀ s, Agrees sampleEdge (sampleRunnerEdge s) (sampleOutputEdge s)
      ((sampleRunnerEdge s).applyEdge samplePolicy sampleEdge ⟨1, .text, [], ()⟩)
      ((sampleOutputEdge s).applyEdge samplePolicy sampleEdge ⟨1, .text, [], ()⟩)) ∧
    ((sampleOutputEdge false).applyEdge samplePolicy sampleEdge ⟨1, .text, [], ()⟩).2.policy.calls =
      [.validate ⟨1, .text, [], ()⟩, .onDrop "every other frame"] ∧
    ((sampleOutputEdge true).applyEdge samplePolicy sampleEdge ⟨1, .text, [], ()⟩).2.queue.frames =
      [⟨2, .text, [⟨1, 0, "edge policy replacement"⟩], ()⟩] := by
  refine ⟨fun s => ?_, by decide, by decide⟩
  exact apply_edge_agreement samplePolicy sampleEdge _ _ _ rfl ⟨rfl, Nat.zero_lt_one⟩

end Muxiva.Edge
