import Muxiva.Llm.Suppression

/-! What the node emits: frames of the latest accepted text that nothing has cancelled, the front of
what its worker sent, with the completion after the last delta; and no reply is left without a
tick. -/
set_option linter.all false
namespace Muxiva.Llm

open LlmOpenAiCompatible Transition.System

variable {c : Config} {s s' : LlmOpenAiCompatible}

/-- A frame is of the latest text accepted before it that nothing has cancelled. -/
def Current (before : List Entry) (entry : Entry) : Prop :=
  ∀ emission, entry = .emitted emission → latestAccepted before = some emission.generation

def Output.isCompleted : Output → Prop
  | .delta _ => False
  | .completed _ => True

/-- The deltas of a worker are emitted in its order with none left out, and its completion is
emitted after all of them. -/
structure InOrder (w : Worker) (log : List Entry) : Prop where
  front : deltas w.generation log <+: sentDeltas w.sent
  completed : ∀ before emission after, log = before ++ Entry.emitted emission :: after →
    emission.generation = w.generation → emission.output.isCompleted →
    deltas w.generation before = sentDeltas w.sent

/-- The worker of the node's generation runs, or one of its results is in the channel. -/
def PendingWork (s : LlmOpenAiCompatible) : Prop :=
  ∃ i < s.spawned, (s.workers i).generation = s.generation ∧
    ((s.workers i).place ≠ .finished ∨ ∃ result ∈ s.results, result.generation = s.generation)

theorem Move.current (h : Move c s s') (hg : Generations s) (hd : Delivered s) :
    s'.log = s.log ∨ ∃ entry, s'.log = s.log ++ [entry] ∧ Current s.log entry := by
  cases h with
  | @cancels after scheduled hphase =>
    right
    refine ⟨_, rfl, ?_⟩
    intro emission hentry
    cases after <;> cases hentry
  | @emits left result emission history phase hphase hcurrent hemission hnext =>
    right
    refine ⟨_, rfl, ?_⟩
    intro emission' hentry
    cases hentry
    have hmem : result ∈ s.phase.inHand := by simp [hphase, Phase.inHand]
    obtain ⟨i, hi, hown⟩ := hd.origin result (Delivered.mem_inHand hmem)
    have hworker := hg.own i hi (hown.trans hcurrent)
    rw [emission_generation hemission, hcurrent]
    exact hg.accepted (.inl (by simp [hworker]))
  | _ =>
    left
    rfl

theorem reachable_current (hr : (llmSystem c).ReachableBy (Within c) s) :
    EachEntry Current s.log := by
  refine hr.eachEntry (fun s => s.log) ?_ ?_
  · rintro _ rfl
    rfl
  · intro s a s' hr _ hstep
    exact (step_moves hstep).current (reachable_generations hr) (reachable_delivered hr)

theorem frames_append (generation : UInt64) (log log' : List Entry) :
    frames generation (log ++ log') = frames generation log ++ frames generation log' :=
  List.filterMap_append ..

/-- The frames of a worker's generation are the front of what it sent. -/
theorem Delivered.frames_prefix (h : Delivered s) {i : ℕ} (hi : i < s.spawned) :
    frames (s.workers i).generation s.log <+:
      (s.workers i).sent.filterMap LlmResult.emission := by
  have hhandled : ofGeneration (s.workers i).generation s.handled <+: (s.workers i).sent := by
    rw [← h.sent i hi]
    unfold flow
    simp only [ofGeneration_append, List.append_assoc]
    exact List.prefix_append _ _
  exact (h.emitted _).trans (hhandled.filterMap _)

theorem emission_delta? (sent : List LlmResult) :
    (sent.filterMap LlmResult.emission).filterMap (fun emission => emission.output.delta?) =
      sentDeltas sent := by
  rw [List.filterMap_filterMap]
  unfold sentDeltas
  congr 1
  funext result
  cases result with
  | delta => rfl
  | done generation sequence user answer =>
    unfold LlmResult.emission
    by_cases h : answer = [] <;> simp [h, Output.delta?]
  | error => rfl

theorem not_completed_of_isDelta {result : LlmResult} {emission : Emission}
    (h : result.isDelta) (hemission : result.emission = some emission) :
    ¬emission.output.isCompleted := by
  cases result with
  | delta =>
    cases hemission
    exact id
  | done => cases h
  | error => cases h

theorem delta?_of_isCompleted {emission : Emission} (h : emission.output.isCompleted) :
    emission.output.delta? = none := by
  obtain ⟨generation, sequence, output⟩ := emission
  cases output with
  | delta => exact h.elim
  | completed => rfl

/-- An entry that is none of the list's entries but the last is the last. -/
theorem eq_of_append_cons {α : Type*} {before after init last : List α} {entry : α}
    (h : before ++ entry :: after = init ++ last) (hinit : entry ∉ init) (hlast : last.length ≤ 1) :
    before = init ∧ last = [entry] := by
  rcases List.append_eq_append_iff.mp h with ⟨middle, rfl, hmiddle⟩ | ⟨middle, rfl, rfl⟩
  · cases middle with
    | nil =>
      simp only [List.nil_append] at hmiddle
      subst hmiddle
      have hafter : after = [] := by
        apply List.eq_nil_of_length_eq_zero
        simp only [List.length_cons] at hlast
        omega
      rw [hafter]
      simp
    | cons head middle =>
      simp only [List.cons_append, List.cons.injEq] at hmiddle
      rw [hmiddle.1] at hinit
      simp at hinit
  · have hmiddle : middle = [] ∧ after = [] := by
      simp only [List.length_append, List.length_cons] at hlast
      constructor <;> apply List.eq_nil_of_length_eq_zero <;> omega
    rw [hmiddle.1, hmiddle.2]
    simp

theorem Delivered.inOrder (h : Delivered s) {i : ℕ} (hi : i < s.spawned)
    (hscript : Worker.Script (s.workers i)) : InOrder (s.workers i) s.log := by
  have hfront := h.frames_prefix hi
  constructor
  · rw [← emission_delta?]
    exact hfront.filterMap _
  · intro before emission after hlog hgeneration hcompleted
    have hframes : frames (s.workers i).generation s.log =
        frames (s.workers i).generation before ++ emission ::
          frames (s.workers i).generation after := by
      rw [hlog, frames_append]
      congr 1
      simp [frames, hgeneration]
    obtain ⟨rest, hrest⟩ := hfront
    rw [hframes, List.append_assoc, List.cons_append] at hrest
    have hdeltas : ∀ frame ∈ (s.workers i).sent.dropLast.filterMap LlmResult.emission,
        ¬frame.output.isCompleted := by
      intro frame hmem
      obtain ⟨result, hresult, hframe⟩ := List.mem_filterMap.mp hmem
      exact not_completed_of_isDelta (hscript.last result hresult) hframe
    rcases (s.workers i).sent.eq_nil_or_concat with hnil | ⟨init, last, hsent⟩
    · rw [hnil] at hrest
      simp at hrest
    · rw [List.concat_eq_append] at hsent
      rw [hsent, List.dropLast_concat] at hdeltas
      rw [hsent, List.filterMap_append] at hrest
      have hlength : ([last].filterMap LlmResult.emission).length ≤ 1 :=
        List.length_filterMap_le _ _
      obtain ⟨hbefore, hlast⟩ := eq_of_append_cons hrest
        (fun hmem => hdeltas emission hmem hcompleted) hlength
      have hnone : sentDeltas [last] = [] := by
        rw [← emission_delta?, hlast]
        simp [delta?_of_isCompleted hcompleted]
      have hall : sentDeltas (init ++ [last]) = sentDeltas init ++ sentDeltas [last] :=
        List.filterMap_append ..
      rw [hsent, hall, hnone, List.append_nil, ← emission_delta?, ← hbefore]
      rfl

theorem mem_frames {emission : Emission} {log : List Entry} (h : .emitted emission ∈ log) :
    emission ∈ frames emission.generation log := by
  unfold frames
  rw [List.mem_filterMap]
  exact ⟨_, h, by simp⟩

/-- Every frame is one worker's. -/
theorem Delivered.exists_worker (h : Delivered s) {emission : Emission}
    (hlog : .emitted emission ∈ s.log) :
    ∃ i < s.spawned, (s.workers i).generation = emission.generation := by
  have hmem := (h.emitted emission.generation).subset (mem_frames hlog)
  obtain ⟨result, hresult, hemission⟩ := List.mem_filterMap.mp hmem
  have hhandled : result ∈ s.handled := List.mem_of_mem_filter hresult
  obtain ⟨i, hi, hown⟩ := h.origin result (Delivered.mem_handled hhandled)
  exact ⟨i, hi, hown.trans (emission_generation hemission).symm⟩

theorem Checked.scheduled (h : Checked s) (hg : Generations s) (hphase : s.phase = .rest)
    (hwork : PendingWork s) : s.scheduled := by
  obtain ⟨i, hi, hown, hwork⟩ := hwork
  rcases h.rest hphase with hscheduled | hsilent
  · exact hscheduled
  · obtain ⟨hfinished, hgone⟩ := hsilent i (hg.own i hi hown)
    rcases hwork with hrun | ⟨result, hmem, heq⟩
    · exact absurd hfinished hrun
    · exact absurd heq (hgone result hmem)

/-- A result in the node's hand is still counted. -/
theorem Accounted.pos (h : Accounted s) (hs : s.phase.inHand ≠ []) : 0 < s.pending := by
  have hlength : 0 < s.phase.inHand.length := List.length_pos_iff.mpr hs
  unfold Accounted at h
  omega

/-- With fewer than 2^64 generations. -/
theorem stale_suppressed (hr : (llmSystem c).Reachable s) (hs : Bounded s) :
    EachEntry Current s.log ∧
    (∀ emission, .emitted emission ∈ s.log →
      ∃! i, i < s.spawned ∧ (s.workers i).generation = emission.generation) ∧
    (∀ i < s.spawned, InOrder (s.workers i) s.log) ∧
    s.pending = (s.results.length + s.unsent + s.phase.inHand.length : ℕ) ∧
    (s.phase.inHand ≠ [] → 0 < s.pending) ∧
    (s.phase = .rest → PendingWork s → s.scheduled) := by
  have hrun := reachable_within hr hs
  have hg := reachable_generations hrun
  have hd := reachable_delivered hrun
  refine ⟨reachable_current hrun, ?_, ?_, reachable_accounted hr,
    (reachable_accounted hr).pos, ?_⟩
  · intro emission hlog
    obtain ⟨i, hi, hown⟩ := hd.exists_worker hlog
    refine ⟨i, ⟨hi, hown⟩, ?_⟩
    rintro j ⟨hj, heq⟩
    exact hg.injective hj hi (heq.trans hown.symm)
  · intro i hi
    exact hd.inOrder hi (reachable_script hrun i)
  · exact (reachable_checked hrun).scheduled hg

def sampleConfig : Config where
  systemPrompt := []
  maxResultsPerWakeup := 32
  historyTurns := 6
  stream := true
  deltaContent := some
  messageContent := some

/-- A text, its worker up to the first delta sent, and a tick. -/
def sampleRun : List Action :=
  [.text (some ['a']) 1, .node true, .node true, .node true, .thread 0 .answered,
    .thread 0 .answered, .thread 0 (.line (some "data: b".toList)), .thread 0 .answered, .tick,
    .node true]

/-- The delta of the first text is emitted, and the next text is accepted. -/
theorem stale_suppressed_run : ∃ s, (llmSystem sampleConfig).Reachable s ∧
    s.log = [.accepted 1, .emitted ⟨1, 1, .delta ['b']⟩, .accepted 2] ∧
    EachEntry Current s.log ∧ ∀ i < s.spawned, InOrder (s.workers i) s.log := by
  obtain ⟨s, hr, hs⟩ := exists_reachable_of_run (M := llmSystem sampleConfig) (s := .new) rfl
    (sampleRun ++ [Action.node true, .node true, .node true, .text (some ['c']) 2])
    (fun s => s.log == [.accepted 1, .emitted ⟨1, 1, .delta ['b']⟩, .accepted 2] &&
      decide (s.cancellations < 3)) (by decide +kernel)
  simp only [Bool.and_eq_true, beq_iff_eq, decide_eq_true_eq] at hs
  have hbound : Bounded s := by
    have := hs.2
    unfold Bounded
    omega
  obtain ⟨hcurrent, -, horder, -⟩ := stale_suppressed hr hbound
  exact ⟨s, hr, hs.1, hcurrent, horder⟩

/-- The node has taken the delta and has not yet subtracted it. -/
theorem pending_lags : ¬∀ c s, (llmSystem c).Reachable s → Bounded s →
    s.pending = (s.results.length + s.unsent : ℕ) := by
  intro h
  obtain ⟨s, hr, hs⟩ := exists_reachable_of_run (M := llmSystem sampleConfig) (s := .new) rfl
    sampleRun (fun s => decide (s.cancellations < 3) && decide (s.pending = 1) &&
      s.results.isEmpty && decide (s.unsent = 0)) (by decide +kernel)
  simp only [Bool.and_eq_true, decide_eq_true_eq, List.isEmpty_iff] at hs
  obtain ⟨⟨⟨hbound, hpending⟩, hresults⟩, hunsent⟩ := hs
  have heq := h sampleConfig s hr (by unfold Bounded; omega)
  rw [hpending, hresults, hunsent] at heq
  simp at heq

end Muxiva.Llm
