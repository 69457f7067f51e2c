import Muxiva.Llm.Pending

/-! The results in the channel are what the workers have sent, each in its own order, and what is
emitted of a generation is the front of them. -/
set_option linter.all false
namespace Muxiva.Llm

open LlmOpenAiCompatible Transition.System

def ofGeneration (generation : UInt64) (results : List LlmResult) : List LlmResult :=
  results.filter fun result => result.generation = generation

/-- The frames emitted of a generation. -/
def frames (generation : UInt64) (log : List Entry) : List Emission :=
  log.filterMap fun entry =>
    match entry with
    | .emitted emission => if emission.generation = generation then some emission else none
    | .accepted _ => none
    | .cancelled => none

def Output.delta? : Output → Option Text
  | .delta text => some text
  | .completed _ => none

/-- The deltas emitted of a generation. -/
def deltas (generation : UInt64) (log : List Entry) : List Text :=
  (frames generation log).filterMap fun emission => emission.output.delta?

/-- The deltas among the results a worker sent. -/
def sentDeltas (sent : List LlmResult) : List Text :=
  sent.filterMap fun result =>
    match result with
    | .delta _ _ text => some text
    | .done _ _ _ _ => none
    | .error _ _ => none

variable {c : Config} {s s' : LlmOpenAiCompatible}

/-- What was sent, in the order of the channel. -/
def LlmOpenAiCompatible.flow (s : LlmOpenAiCompatible) : List LlmResult :=
  s.handled ++ s.phase.inHand ++ s.results

theorem flow_taken {result : LlmResult} (hs : s.phase.inHand = [])
    (hresults : s.results = result :: s'.results) (hhandled : s'.handled = s.handled)
    (hhand : s'.phase.inHand = [result]) : s'.flow = s.flow := by
  unfold flow
  rw [hs, hresults, hhandled, hhand]
  simp

theorem flow_handled {result : LlmResult} (hs : s.phase.inHand = [result])
    (hresults : s'.results = s.results) (hhandled : s'.handled = s.handled ++ [result])
    (hhand : s'.phase.inHand = []) : s'.flow = s.flow := by
  unfold flow
  rw [hs, hresults, hhandled, hhand]
  simp

@[simp] theorem ofGeneration_append (generation : UInt64) (results results' : List LlmResult) :
    ofGeneration generation (results ++ results') =
      ofGeneration generation results ++ ofGeneration generation results' :=
  List.filter_append ..

theorem ofGeneration_single (result : LlmResult) :
    ofGeneration result.generation [result] = [result] := by
  simp [ofGeneration]

theorem ofGeneration_single_of_ne {generation : UInt64} {result : LlmResult}
    (h : result.generation ≠ generation) : ofGeneration generation [result] = [] := by
  simp [ofGeneration, h]

theorem ofGeneration_eq_nil {generation : UInt64} {results : List LlmResult}
    (h : ∀ result ∈ results, result.generation ≠ generation) :
    ofGeneration generation results = [] := by
  unfold ofGeneration
  rw [List.filter_eq_nil_iff]
  intro result hmem
  simpa using h result hmem

theorem frames_entry (after : After) (generation : UInt64) (log : List Entry) :
    frames generation (log ++ [s.entry after]) = frames generation log := by
  unfold frames
  cases after <;> simp [entry]

theorem frames_emitted (log : List Entry) (emission : Emission) :
    frames emission.generation (log ++ [Entry.emitted emission]) =
      frames emission.generation log ++ [emission] := by
  simp [frames]

theorem frames_emitted_of_ne {generation : UInt64} {emission : Emission} (log : List Entry)
    (h : emission.generation ≠ generation) :
    frames generation (log ++ [Entry.emitted emission]) = frames generation log := by
  simp [frames, h]

theorem emission_generation {result : LlmResult} {emission : Emission}
    (h : result.emission = some emission) : emission.generation = result.generation := by
  cases result with
  | delta generation sequence text =>
    cases h
    rfl
  | done generation sequence user answer =>
    simp only [LlmResult.emission] at h
    split_ifs at h
    cases h
    rfl
  | error generation message => cases h

/-- The channel carries each worker's results in their order, and of what the node has handled the
current generation's frames are all emitted. -/
structure Delivered (s : LlmOpenAiCompatible) : Prop where
  sent : ∀ i < s.spawned, ofGeneration (s.workers i).generation s.flow = (s.workers i).sent
  origin : ∀ result ∈ s.flow, ∃ i < s.spawned, (s.workers i).generation = result.generation
  emitted : ∀ generation, frames generation s.log <+:
    (ofGeneration generation s.handled).filterMap LlmResult.emission
  current : (∀ error, s.phase ≠ .failed error) →
    frames s.generation s.log = (ofGeneration s.generation s.handled).filterMap LlmResult.emission

theorem Delivered.init : Delivered .new := by
  constructor <;> simp [LlmOpenAiCompatible.new, flow, Phase.inHand, frames, ofGeneration]

/-- Nothing sent has the node's generation while the node has no worker. -/
theorem Delivered.fresh (h : Delivered s) (hg : Generations s) (hnone : s.worker = none)
    {result : LlmResult} (hmem : result ∈ s.flow) : result.generation ≠ s.generation := by
  intro heq
  obtain ⟨i, hi, hown⟩ := h.origin result hmem
  have hworker := hg.own i hi (hown.trans heq)
  rw [hnone] at hworker
  cases hworker

theorem Delivered.mem_handled {result : LlmResult} (h : result ∈ s.handled) : result ∈ s.flow :=
  List.mem_append_left _ (List.mem_append_left _ h)

theorem Delivered.mem_inHand {result : LlmResult} (h : result ∈ s.phase.inHand) :
    result ∈ s.flow :=
  List.mem_append_left _ (List.mem_append_right _ h)

/-- The node's own places and the channel, with what is in the hand, stay one flow. -/
theorem Delivered.congr (h : Delivered s) (hflow : s'.flow = s.flow)
    (hspawned : s'.spawned = s.spawned)
    (hworkers : ∀ i, (s'.workers i).generation = (s.workers i).generation ∧
      (s'.workers i).sent = (s.workers i).sent)
    (hemitted : ∀ generation, frames generation s'.log <+:
      (ofGeneration generation s'.handled).filterMap LlmResult.emission)
    (hcurrent : (∀ error, s'.phase ≠ .failed error) → frames s'.generation s'.log =
      (ofGeneration s'.generation s'.handled).filterMap LlmResult.emission) : Delivered s' := by
  constructor
  · intro i hi
    rw [hspawned] at hi
    rw [(hworkers i).1, (hworkers i).2, hflow]
    exact h.sent i hi
  · intro result hmem
    rw [hflow] at hmem
    obtain ⟨i, hi, hown⟩ := h.origin result hmem
    refine ⟨i, hspawned ▸ hi, ?_⟩
    rw [(hworkers i).1]
    exact hown
  · exact hemitted
  · exact hcurrent

/-- A result is handled and nothing is emitted of it. -/
theorem Delivered.unemitted (h : Delivered s) (result : LlmResult) (generation : UInt64) :
    frames generation s.log <+:
      (ofGeneration generation (s.handled ++ [result])).filterMap LlmResult.emission := by
  rw [ofGeneration_append, List.filterMap_append]
  exact (h.emitted generation).trans (List.prefix_append _ _)

theorem Delivered.unemitted_current (h : Delivered s) {result : LlmResult}
    (hs : ∀ error, s.phase ≠ .failed error)
    (hresult : result.generation ≠ s.generation ∨ result.emission = none) :
    frames s.generation s.log =
      (ofGeneration s.generation (s.handled ++ [result])).filterMap LlmResult.emission := by
  have hnone : (ofGeneration s.generation [result]).filterMap LlmResult.emission = [] := by
    rcases hresult with hne | hnone
    · rw [ofGeneration_single_of_ne hne]
      rfl
    · unfold ofGeneration
      by_cases heq : result.generation = s.generation <;> simp [heq, hnone]
  rw [ofGeneration_append, List.filterMap_append, hnone, List.append_nil]
  exact h.current hs

theorem Goes.not_failed {phase : Phase} {scheduled : Bool} (h : Goes s phase scheduled)
    (error : LlmError) : s.phase ≠ .failed error := by
  cases h <;> simp [*]

theorem Delivered.cancel (h : Delivered s) (after : After)
    (hphase : s.phase.inHand = []) (hg' : Generations (s.cancelCurrent after)) :
    Delivered (s.cancelCurrent after) := by
  have hflow : (s.cancelCurrent after).flow = s.flow := by
    unfold flow
    rw [hphase]
    rfl
  have hworkers : ∀ i, ((s.cancelCurrent after).workers i).generation = (s.workers i).generation ∧
      ((s.cancelCurrent after).workers i).sent = (s.workers i).sent := fun i =>
    ⟨(storeCancel_same i).generation, (storeCancel_same i).sent⟩
  have hemitted : ∀ generation, frames generation (s.cancelCurrent after).log <+:
      (ofGeneration generation s.handled).filterMap LlmResult.emission := by
    intro generation
    unfold cancelCurrent
    rw [frames_entry]
    exact h.emitted generation
  refine h.congr hflow rfl hworkers hemitted ?_
  intro _
  have hnew : ofGeneration (s.generation + 1) s.handled = [] := by
    apply ofGeneration_eq_nil
    intro result hmem heq
    obtain ⟨i, hi, hown⟩ := h.origin result (Delivered.mem_handled hmem)
    have hworker := hg'.own i hi (((hworkers i).1.trans hown).trans heq)
    cases hworker
  have hle := hemitted (s.generation + 1)
  rw [hnew] at hle
  show frames (s.generation + 1) (s.cancelCurrent after).log =
    (ofGeneration (s.generation + 1) s.handled).filterMap LlmResult.emission
  rw [hnew]
  exact List.prefix_nil.mp hle

theorem Delivered.spawn (h : Delivered s) (hg : Generations s) {user : Text} {sequence : ℕ}
    (hs : s.phase = .spawns user sequence) : Delivered (s.spawn c user sequence) := by
  have hnone : s.worker = none := hg.cancelling (by rw [hs]; trivial)
  have hflow : (s.spawn c user sequence).flow = s.flow := by
    unfold flow
    rw [hs]
    rfl
  have hold : ∀ i < s.spawned, (s.spawn c user sequence).workers i = s.workers i := by
    intro i hi
    have hne : i ≠ s.spawned := by omega
    simp [LlmOpenAiCompatible.spawn, hne]
  constructor
  · intro i hi
    rw [hflow]
    by_cases hlt : i < s.spawned
    · rw [hold i hlt]
      exact h.sent i hlt
    · have heq : i = s.spawned := by
        have hle : i < s.spawned + 1 := hi
        omega
      subst heq
      simp only [LlmOpenAiCompatible.spawn, Function.update_self]
      exact ofGeneration_eq_nil fun result hmem => h.fresh hg hnone hmem
  · intro result hmem
    rw [hflow] at hmem
    obtain ⟨i, hi, hown⟩ := h.origin result hmem
    refine ⟨i, Nat.lt_succ_of_lt hi, ?_⟩
    rw [hold i hi]
    exact hown
  · exact h.emitted
  · intro _
    exact h.current (by simp [hs])

theorem Delivered.emits (h : Delivered s) {left : ℕ} {result : LlmResult} {emission : Emission}
    {history : List (Text × Text)} {phase : Phase} (hs : s.phase = .handles left result)
    (hcurrent : result.generation = s.generation) (hemission : result.emission = some emission)
    (hphase : phase.inHand = []) : Delivered { s with
      pending := s.pending - 1
      handled := s.handled ++ [result]
      history
      log := s.log ++ [.emitted emission]
      phase } := by
  have hgeneration : emission.generation = s.generation :=
    (emission_generation hemission).trans hcurrent
  have hnow : frames s.generation (s.log ++ [Entry.emitted emission]) =
      (ofGeneration s.generation (s.handled ++ [result])).filterMap LlmResult.emission := by
    rw [← hgeneration, frames_emitted, ofGeneration_append, List.filterMap_append, hgeneration,
      h.current (by simp [hs]), ← hcurrent, ofGeneration_single]
    simp [hemission]
  have hhand : s.phase.inHand = [result] := by rw [hs]; rfl
  refine h.congr (flow_handled hhand rfl rfl hphase) rfl (fun _ => ⟨rfl, rfl⟩) ?_ (fun _ => hnow)
  intro generation
  show frames generation (s.log ++ [Entry.emitted emission]) <+: _
  by_cases heq : generation = s.generation
  · subst heq
    rw [hnow]
  · rw [frames_emitted_of_ne _ (fun h => heq (h.symm.trans hgeneration))]
    exact h.unemitted result generation

theorem Delivered.send (h : Delivered s) (hg : Generations s) {i : ℕ} {result : LlmResult}
    (hi : i < s.spawned) (hresult : result.generation = (s.workers i).generation) :
    Delivered (s.send c i (s.workers i) result) := by
  have hflow : (s.send c i (s.workers i) result).flow = s.flow ++ [result] := by
    unfold flow LlmOpenAiCompatible.send setWorker
    simp
  have hgeneration : ∀ j, ((s.send c i (s.workers i) result).workers j).generation =
      (s.workers j).generation := by
    intro j
    unfold LlmOpenAiCompatible.send
    rw [workers_setWorker]
    split_ifs with hj
    · rw [hj]
    · rfl
  constructor
  · intro j hj
    rw [hgeneration, hflow, ofGeneration_append, h.sent j hj]
    unfold LlmOpenAiCompatible.send
    rw [workers_setWorker]
    split_ifs with heq
    · subst heq
      rw [← hresult, ofGeneration_single]
    · rw [ofGeneration_single_of_ne]
      · exact List.append_nil _
      · intro hsame
        exact heq (hg.injective hj hi (hsame.symm.trans hresult))
  · intro result' hmem
    rw [hflow] at hmem
    rcases List.mem_append.mp hmem with hmem | hmem
    · obtain ⟨j, hj, hown⟩ := h.origin result' hmem
      exact ⟨j, hj, (hgeneration j).trans hown⟩
    · rw [List.mem_singleton.mp hmem]
      exact ⟨i, hi, (hgeneration i).trans hresult.symm⟩
  · exact h.emitted
  · exact h.current

theorem Move.delivered (h : Move c s s') (hs : Delivered s) (hg : Generations s)
    (hg' : Generations s') (hscript : ∀ i, Worker.Script (s.workers i)) : Delivered s' := by
  cases h with
  | goes h =>
    refine hs.congr ?_ rfl (fun _ => ⟨rfl, rfl⟩) hs.emitted (fun _ => hs.current h.not_failed)
    unfold flow
    rw [h.inHand.1, h.inHand.2]
  | @cancels after scheduled hphase =>
    have hs' : Delivered { s with scheduled } :=
      hs.congr rfl rfl (fun _ => ⟨rfl, rfl⟩) hs.emitted hs.current
    exact hs'.cancel after hphase hg'
  | @takesStale after result results hphase hresults =>
    have hhand : s.phase.inHand = [] := by rw [hphase]; rfl
    exact hs.congr (flow_taken hhand hresults rfl rfl) rfl (fun _ => ⟨rfl, rfl⟩) hs.emitted
      (fun _ => hs.current (by simp [hphase]))
  | @discards after result hphase =>
    have hnone : s.worker = none := hg.cancelling (by rw [hphase]; trivial)
    have hhand : s.phase.inHand = [result] := by rw [hphase]; rfl
    have hstale : result.generation ≠ s.generation :=
      hs.fresh hg hnone (Delivered.mem_inHand (by simp [hhand]))
    exact hs.congr (flow_handled hhand rfl rfl rfl) rfl (fun _ => ⟨rfl, rfl⟩)
      (hs.unemitted result) (fun _ => hs.unemitted_current (by simp [hphase]) (.inl hstale))
  | spawns hphase => exact hs.spawn hg hphase
  | @takes left result results hphase hresults =>
    have hhand : s.phase.inHand = [] := by rw [hphase]; rfl
    exact hs.congr (flow_taken hhand hresults rfl rfl) rfl (fun _ => ⟨rfl, rfl⟩) hs.emitted
      (fun _ => hs.current (by simp [hphase]))
  | @drops left result history phase hphase hnext =>
    have hempty : phase.inHand = [] := by
      rcases hnext with ⟨rfl, _⟩ | ⟨rfl, _⟩ | ⟨error, rfl⟩ <;> rfl
    have hhand : s.phase.inHand = [result] := by rw [hphase]; rfl
    refine hs.congr (flow_handled hhand rfl rfl hempty) rfl (fun _ => ⟨rfl, rfl⟩)
      (hs.unemitted result) ?_
    intro hrun
    apply hs.unemitted_current (by simp [hphase])
    rcases hnext with ⟨_, hstale⟩ | ⟨_, hnone⟩ | ⟨error, rfl⟩
    · exact .inl hstale
    · exact .inr hnone
    · exact absurd rfl (hrun error)
  | emits hphase hcurrent hemission hnext =>
    apply hs.emits hphase hcurrent hemission
    rcases hnext with rfl | rfl <;> rfl
  | @walks i place =>
    refine hs.congr rfl rfl ?_ hs.emitted hs.current
    intro j
    rw [workers_setWorker]
    split_ifs with h
    · rw [h]
      exact ⟨rfl, rfl⟩
    · exact ⟨rfl, rfl⟩
  | @counts i result answer =>
    refine hs.congr rfl rfl ?_ hs.emitted hs.current
    intro j
    unfold count
    rw [workers_setWorker]
    split_ifs with h
    · rw [h]
      exact ⟨rfl, rfl⟩
    · exact ⟨rfl, rfl⟩
  | @sends i result hi hfrom => exact hs.send hg hi ((hscript i).next result hfrom)

theorem reachable_delivered (hr : (llmSystem c).ReachableBy (Within c) s) : Delivered s := by
  refine hr.invariant (I := Delivered) ?_ ?_
  · rintro _ rfl
    exact .init
  · intro s a s' hr hi hwithin hstep
    exact (step_moves hstep).delivered hi (reachable_generations hr)
      (reachable_generations (.step hr hwithin hstep)) (reachable_script hr)

end Muxiva.Llm
