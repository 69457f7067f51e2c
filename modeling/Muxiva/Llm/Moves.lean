import Muxiva.Llm.Node

/-! What one step of the node or of a worker can do, and what it leaves alone. -/
set_option linter.all false
namespace Muxiva.Llm

open LlmOpenAiCompatible

/-- The frame a result of the current generation is emitted as. -/
def LlmResult.emission : LlmResult → Option Emission
  | .delta generation sequence text => some ⟨generation, sequence, .delta text⟩
  | .done generation sequence _ answer =>
    if answer = [] then none else some ⟨generation, sequence, .completed answer⟩
  | .error _ _ => none

def LlmResult.isDelta : LlmResult → Bool
  | .delta _ _ _ => true
  | .done _ _ _ _ => false
  | .error _ _ => false

/-- The result in the node's hand. -/
def Phase.inHand : Phase → List LlmResult
  | .uncounts _ result => [result]
  | .handles _ result => [result]
  | _ => []

/-- Inside `cancel_current`, or between it and the new worker. -/
def Phase.cancelling : Phase → Prop
  | .empties _ => True
  | .uncounts _ _ => True
  | .spawns _ _ => True
  | _ => False

/-- On the way to a new worker. -/
def Phase.starting : Phase → Prop
  | .empties (.starts _ _) => True
  | .uncounts (.starts _ _) _ => True
  | .spawns _ _ => True
  | _ => False

/-- The worker has a result that is counted in `pending` and not yet sent. -/
def Worker.counted (w : Worker) : Bool :=
  match w.place with
  | .sends _ => true
  | _ => false

/-- The worker sends nothing any more. -/
def Place.quit : Place → Prop
  | .returned => True
  | .finished => True
  | _ => False

/-- A step inside a callback that touches nothing but the node's own place and its tick. -/
inductive Goes (s : LlmOpenAiCompatible) : Phase → Bool → Prop where
  | refuses (hs : s.phase = .rest) : Goes s (.failed .input) false
  | ignores (hs : s.phase = .rest) : Goes s .checksWorker false
  | ticks (hs : s.phase = .rest) (left : ℕ) : Goes s (.drains left) false
  | emptied {after : After} (hs : s.phase = .empties after) :
    Goes s (afterCancel after) s.scheduled
  | drained {left : ℕ} (hs : s.phase = .drains left) : Goes s .checksWorker s.scheduled
  | running (hs : s.phase = .checksWorker) : Goes s .rest true
  | stopped (hs : s.phase = .checksWorker) (hw : s.workerRuns = false) :
    Goes s .checksPending s.scheduled
  | checked (hs : s.phase = .checksPending) :
    Goes s .rest (s.scheduled || decide (0 < s.pending))

/-- One step. -/
inductive Move (c : Config) (s : LlmOpenAiCompatible) : LlmOpenAiCompatible → Prop where
  | goes {phase : Phase} {scheduled : Bool} (h : Goes s phase scheduled) :
    Move c s { s with phase, scheduled }
  | cancels {after : After} {scheduled : Bool} (hs : s.phase.inHand = []) :
    Move c s ({ s with scheduled }.cancelCurrent after)
  | takesStale {after : After} {result : LlmResult} {results : List LlmResult}
    (hs : s.phase = .empties after) (hresults : s.results = result :: results) :
    Move c s { s with results, phase := .uncounts after result }
  | discards {after : After} {result : LlmResult} (hs : s.phase = .uncounts after result) :
    Move c s { s with
      pending := s.pending - 1
      handled := s.handled ++ [result]
      phase := .empties after }
  | spawns {user : Text} {sequence : ℕ} (hs : s.phase = .spawns user sequence) :
    Move c s (s.spawn c user sequence)
  | takes {left : ℕ} {result : LlmResult} {results : List LlmResult}
    (hs : s.phase = .drains (left + 1)) (hresults : s.results = result :: results) :
    Move c s { s with results, phase := .handles left result }
  | drops {left : ℕ} {result : LlmResult} {history : List (Text × Text)} {phase : Phase}
    (hs : s.phase = .handles left result)
    (hphase : phase = .drains left ∧ result.generation ≠ s.generation ∨
      phase = .checksWorker ∧ result.emission = none ∨ ∃ error, phase = .failed error) :
    Move c s { s with
      pending := s.pending - 1
      handled := s.handled ++ [result]
      history
      phase }
  | emits {left : ℕ} {result : LlmResult} {emission : Emission} {history : List (Text × Text)}
    {phase : Phase} (hs : s.phase = .handles left result)
    (hcurrent : result.generation = s.generation) (hemission : result.emission = some emission)
    (hphase : phase = .drains left ∨ phase = .checksWorker) :
    Move c s { s with
      pending := s.pending - 1
      handled := s.handled ++ [result]
      history
      log := s.log ++ [.emitted emission]
      phase }
  | walks {i : ℕ} {place : Place} (hi : i < s.spawned) (hfrom : (s.workers i).counted = false)
    (hplace : ∀ result, place ≠ .sends result) (hrun : (s.workers i).place ≠ .finished)
    (hquit : (s.workers i).place.quit → place.quit) :
    Move c s (s.setWorker i { s.workers i with place })
  | counts {i : ℕ} {result : LlmResult} {answer : Text} (hi : i < s.spawned)
    (hfrom : (s.workers i).counted = false) (hrun : ¬(s.workers i).place.quit)
    (hresult : result.generation = (s.workers i).generation) :
    Move c s (s.count i { s.workers i with answer } result)
  | sends {i : ℕ} {result : LlmResult} (hi : i < s.spawned)
    (hfrom : (s.workers i).place = .sends result) : Move c s (s.send c i (s.workers i) result)

variable {c : Config} {s s' : LlmOpenAiCompatible}

theorem handle_moves {emits : Bool} {left : ℕ} {result : LlmResult}
    (hs : s.phase = .handles left result) : Move c s (s.handle c emits left result) := by
  unfold handle
  simp only
  split_ifs with hcurrent
  · cases result with
    | delta generation sequence text =>
      cases emits with
      | true => exact .emits hs hcurrent rfl (.inl rfl)
      | false => exact .drops hs (.inr (.inr ⟨_, rfl⟩))
    | done generation sequence user answer =>
      by_cases hanswer : answer = []
      · have hnone : (LlmResult.done generation sequence user answer).emission = none := by
          simp [LlmResult.emission, hanswer]
        simp only [complete, hanswer, if_true]
        rw [hanswer] at hs hnone
        exact .drops hs (.inr (.inl ⟨rfl, hnone⟩))
      · simp only [complete, hanswer, if_false]
        cases emits with
        | true => exact .emits hs hcurrent (by simp [LlmResult.emission, hanswer]) (.inr rfl)
        | false => exact .drops hs (.inr (.inr ⟨_, rfl⟩))
    | error generation message => exact .drops hs (.inr (.inr ⟨_, rfl⟩))
  · exact .drops hs (.inl ⟨rfl, hcurrent⟩)

theorem stepNode_moves {emits : Bool} (h : s.stepNode c emits = some s') : Move c s s' := by
  unfold stepNode at h
  split at h
  case h_1 => cases h
  case h_2 after hs =>
    split at h
    · cases h
      exact .goes (.emptied hs)
    · rename_i hresults
      cases h
      exact .takesStale hs hresults
  case h_3 after result hs =>
    cases h
    exact .discards hs
  case h_4 user sequence hs =>
    cases h
    exact .spawns hs
  case h_5 hs =>
    cases h
    exact .goes (.drained hs)
  case h_6 left hs =>
    split at h
    · cases h
      exact .goes (.drained hs)
    · rename_i hresults
      cases h
      exact .takes hs hresults
  case h_7 left result hs =>
    cases h
    exact handle_moves hs
  case h_8 hs =>
    split_ifs at h with hw
    · cases h
      exact .goes (.running hs)
    · cases h
      exact .goes (.stopped hs (by simpa using hw))
  case h_9 hs =>
    cases h
    exact .goes (.checked hs)
  case h_10 => cases h
  case h_11 => cases h

theorem receive_moves {i : ℕ} {content : Text} {next : Place} (hi : i < s.spawned)
    (hfrom : (s.workers i).counted = false) (hrun : ¬(s.workers i).place.quit)
    (hnext : ∀ result, next ≠ .sends result) :
    Move c s (s.receive i (s.workers i) content next) := by
  unfold receive
  split_ifs with hcontent
  · apply Move.walks hi hfrom hnext
    · intro hfinished
      rw [hfinished] at hrun
      exact hrun trivial
    · exact fun hquit => absurd hquit hrun
  · exact .counts hi hfrom hrun rfl

theorem runLlmRequest_moves {i : ℕ} {io : Io} (hi : i < s.spawned)
    (h : s.runLlmRequest c i io = some s') : Move c s s' := by
  unfold runLlmRequest at h
  have walks : ∀ place, (s.workers i).counted = false → (∀ result, place ≠ Place.sends result) →
      ¬(s.workers i).place.quit → Move c s (s.setWorker i { s.workers i with place }) := by
    intro place hfrom hplace hrun
    apply Move.walks hi hfrom hplace
    · intro hfinished
      rw [hfinished] at hrun
      exact hrun trivial
    · exact fun hquit => absurd hquit hrun
  have counts : ∀ result, (s.workers i).counted = false → ¬(s.workers i).place.quit →
      result.generation = (s.workers i).generation → Move c s (s.count i (s.workers i) result) := by
    intro result hfrom hrun hresult
    exact @Move.counts c s i result (s.workers i).answer hi hfrom hrun hresult
  have hcounted : ∀ {place}, (s.workers i).place = place → (∀ result, place ≠ Place.sends result) →
      (s.workers i).counted = false := by
    intro place hplace hsends
    unfold Worker.counted
    split
    · rename_i result hresult
      exact absurd (hplace.symm.trans hresult) (hsends result)
    · rfl
  simp only at h
  split at h
  case h_1 =>
    rename_i hp
    cases h
    exact counts _ (hcounted hp (by simp)) (by simp [hp, Place.quit]) rfl
  case h_2 =>
    rename_i hp
    cases h
    apply walks _ (hcounted hp (by simp)) _ (by simp [hp, Place.quit])
    split_ifs <;> simp
  case h_3 =>
    rename_i hp
    cases h
    apply walks _ (hcounted hp (by simp)) _ (by simp [hp, Place.quit])
    split_ifs <;> simp
  case h_4 =>
    rename_i hp
    cases h
    exact walks _ (hcounted hp (by simp)) (by simp) (by simp [hp, Place.quit])
  case h_5 =>
    rename_i hp
    split at h
    · cases h
      exact walks _ (hcounted hp (by simp)) (by simp) (by simp [hp, Place.quit])
    · cases h
      exact receive_moves hi (hcounted hp (by simp)) (by simp [hp, Place.quit]) (by simp)
    · cases h
      exact walks _ (hcounted hp (by simp)) (by simp) (by simp [hp, Place.quit])
  case h_6 =>
    rename_i hp
    split at h
    · cases h
      exact receive_moves hi (hcounted hp (by simp)) (by simp [hp, Place.quit]) (by simp)
    · cases h
      exact walks _ (hcounted hp (by simp)) (by simp) (by simp [hp, Place.quit])
  case h_7 =>
    rename_i hp
    cases h
    exact .sends hi hp
  case h_8 =>
    rename_i hp
    cases h
    exact counts _ (hcounted hp (by simp)) (by simp [hp, Place.quit]) rfl
  case h_9 =>
    rename_i hp
    cases h
    apply Move.walks hi (hcounted hp (by simp)) (by simp) (by simp [hp])
    exact fun _ => trivial
  case h_10 => cases h

theorem inHand_rest (hs : s.phase = .rest) : s.phase.inHand = [] := by
  rw [hs]
  rfl

theorem step_moves {a : Action} (h : s.step c a = some s') : Move c s s' := by
  unfold step at h
  cases a with
  | text text sequence =>
    simp only at h
    split_ifs at h with hs
    cases text with
    | none =>
      cases h
      exact .goes (.refuses hs)
    | some text =>
      cases h
      unfold startGeneration
      split_ifs with htext
      · exact .goes (.ignores hs)
      · exact .cancels (inHand_rest hs)
  | tick =>
    simp only at h
    split_ifs at h with hs
    cases h
    exact .goes (.ticks hs _)
  | signal =>
    simp only at h
    split_ifs at h with hs
    cases h
    exact .cancels (inHand_rest hs)
  | finish =>
    simp only at h
    split_ifs at h with hs
    cases h
    exact .cancels (inHand_rest hs)
  | abort =>
    simp only at h
    split at h
    · rename_i hs
      cases h
      exact .cancels (inHand_rest hs)
    · rename_i hs
      cases h
      exact .cancels (by rw [hs]; rfl)
    · cases h
  | node emits => exact stepNode_moves h
  | thread i io =>
    simp only at h
    split_ifs at h with hi
    exact runLlmRequest_moves hi h

end Muxiva.Llm
