import Muxiva.Tts.Node

/-! What one step of a callback or of the worker can do. -/
set_option linter.all false
namespace Muxiva.Tts

open QwenTtsRealtimeNode

def Value.isTerminal : Value → Bool
  | .audio _ => false
  | .done _ => true
  | .error _ => true

/-- The job the worker still owes a last result. -/
def Place.job : Place → Option Job
  | .took job => some job
  | .opens job _ _ => some job
  | .registers job _ _ _ => some job
  | .sends job _ => some job
  | .polls job _ _ => some job
  | .judges job _ _ _ => some job
  | .completes job => some job
  | .retries job => some job
  | .rechecks job => some job
  | .rechecksClosing job => some job
  | .fails job _ _ => some job
  | .failsClosing job _ _ => some job
  | .puts job _ => some job
  | .putsChecks job _ => some job
  | .offers job _ => some job
  | _ => none

/-- The job a callback is putting into the queue. -/
def Phase.job : Phase → Option Job
  | .putsJob job => some job
  | _ => none

/-- After the locked part of `_invalidate`. -/
def Phase.clearing : Phase → Prop
  | .clearsJobs _ => True
  | .clearsResults _ => True
  | .putsNone => True
  | .clearsAgain => True
  | _ => False

/-- No job was pending when the callback looked. -/
def Phase.judged : Phase → Prop
  | .judgesResults _ => True
  | .emitsDrained _ _ _ => True
  | _ => False

/-- The frames counted are the frames emitted. -/
def Phase.counting : Phase → Prop
  | .emitsDrained _ _ _ => False
  | .failed _ => False
  | .invalidates _ _ => False
  | _ => True

/-- Inside `on_finish`. -/
def Phase.finishing : Phase → Prop
  | .invalidates _ true => True
  | .clearsJobs true => True
  | .clearsResults true => True
  | .putsNone => True
  | .clearsAgain => True
  | .ended => True
  | _ => False

/-- A callback goes on without touching jobs, results or frames. -/
structure Idles (s : QwenTtsRealtimeNode) (phase : Phase) : Prop where
  job : s.phase.job = none
  job' : phase.job = none
  clearing : phase.clearing → s.phase.clearing
  judged : phase.judged → s.pendingJobs = 0
  counting : phase.counting → s.phase.counting
  finishing : s.phase.finishing → phase.finishing
  emits : ∀ generation sequence audioFrames, phase ≠ .emitsDrained generation sequence audioFrames

/-- A step of the worker that touches neither queue. -/
structure Walks (s : QwenTtsRealtimeNode) (place : Place) : Prop where
  job : place.job = s.place.job ∨
    place.job = none ∧ ∀ job, s.place.job = some job →
      job.generation ≠ s.generation ∨ s.closing = true

/-- One step. -/
inductive Move (s : QwenTtsRealtimeNode) : QwenTtsRealtimeNode → Prop where
  | idles {phase : Phase} {scheduled : Bool} {cancelledThroughSequence : ℤ}
    {terminalSequence : Option ℤ} {terminalGeneration : Option ℕ} {drainNotBefore : ℤ}
    (h : Idles s phase) :
    Move s { s with
      phase
      scheduled
      cancelledThroughSequence
      terminalSequence
      terminalGeneration
      drainNotBefore }
  | admits {scheduled : Bool} {drainNotBefore : ℤ} {text : Text} {sequence : ℤ}
    (hs : s.phase = .rest) :
    Move s { s with
      scheduled
      pendingJobs := s.pendingJobs + 1
      drainNotBefore
      phase := .putsJob ⟨s.generation, text, sequence, s.nextJob⟩
      nextJob := s.nextJob + 1
      log := s.log ++ [.admitted s.nextJob] }
  | putsJob {job : Job} (hs : s.phase = .putsJob job) :
    Move s { s with jobs := s.jobs ++ [some job], scheduled := true, phase := .rest }
  | refuses {job : Job} (hs : s.phase = .putsJob job) :
    Move s { s with
      pendingJobs := s.pendingJobs - 1
      phase := .failed .full
      log := s.log ++ [.refused job.id] }
  | dropsResult {left : ℕ} {result : Result} {results : List Result}
    (hs : s.phase = .drains (left + 1)) (hresults : s.results = result :: results)
    (hstale : result.generation ≠ s.generation) :
    Move s { s with results, phase := .drains left }
  | emitsAudio {left : ℕ} {result : Result} {results : List Result} {pcm : List UInt8}
    (hs : s.phase = .drains (left + 1)) (hresults : s.results = result :: results)
    (hcurrent : result.generation = s.generation) (hvalue : result.value = .audio pcm) :
    Move s { s with
      results
      emittedAudioFrames := Function.update s.emittedAudioFrames result.sequence
        (s.emittedAudioFrames result.sequence + 1)
      phase := .drains left
      log := s.log ++ [.audio result.job result.sequence pcm] }
  | failsAudio {left : ℕ} {result : Result} {results : List Result} {pcm : List UInt8}
    {emittedAudioFrames : ℤ → ℕ} (hs : s.phase = .drains (left + 1))
    (hresults : s.results = result :: results) (hvalue : result.value = .audio pcm) :
    Move s { s with results, emittedAudioFrames, phase := .failed .emission }
  | completes {left : ℕ} {result : Result} {results : List Result}
    (hs : s.phase = .drains (left + 1)) (hresults : s.results = result :: results)
    (hcurrent : result.generation = s.generation) (hvalue : result.value.isTerminal) :
    Move s { s with
      results
      pendingJobs := s.pendingJobs - 1
      phase := .drains left
      log := s.log ++ [.completed result.job] }
  | settles {now : ℤ} {sequence : ℤ} {terminalSequence : Option ℤ}
    {terminalGeneration : Option ℕ} {drainNotBefore : ℤ} (hs : s.phase = .judgesResults now) :
    Move s { s with
      terminalSequence
      terminalGeneration
      drainNotBefore
      emittedAudioFrames := Function.update s.emittedAudioFrames sequence 0
      phase := .emitsDrained s.generation sequence (s.emittedAudioFrames sequence) }
  | drained {generation : ℕ} {sequence : ℤ} {audioFrames : ℕ}
    (hs : s.phase = .emitsDrained generation sequence audioFrames) :
    Move s { s with
      phase := .checksWork
      log := s.log ++ [.drained generation sequence audioFrames] }
  | finishes (hs : s.phase.job = none) :
    Move s { s with closing := true, phase := .invalidates true true }
  | invalidates {closeTransport finishes : Bool} (hs : s.phase = .invalidates closeTransport finishes) :
    Move s (s.invalidate closeTransport finishes)
  | clears {jobs : List (Option Job)} {results : List Result} (hs : s.phase.clearing)
    (hjobs : jobs <:+ s.jobs) (hresults : results <:+ s.results) : Move s { s with jobs, results }
  | stops {jobs : List (Option Job)} (hs : s.phase.clearing)
    (hjobs : ∀ job, some job ∈ jobs → some job ∈ s.jobs) : Move s { s with jobs, phase := .ended }
  | walks {place : Place} {activeTransport transport : Option ℕ} {opened : ℕ}
    (h : Walks s place) : Move s { s with place, activeTransport, transport, opened }
  | takesJob {job : Job} {jobs : List (Option Job)} (hs : s.place.job = none)
    (hjobs : s.jobs = some job :: jobs) : Move s { s with jobs, place := .took job }
  | takesNone {jobs : List (Option Job)} (hs : s.place.job = none)
    (hjobs : s.jobs = none :: jobs) : Move s { s with jobs, place := .stops }
  | offers {job : Job} {put : Put} (hs : s.place = .offers job put) :
    Move s { s with results := s.results ++ [job.result put.value], place := put.after job }

variable {c : Config} {s s' : QwenTtsRealtimeNode}

theorem drainResult_moves {emits : Bool} {left : ℕ} {result : Result} {results : List Result}
    (hs : s.phase = .drains (left + 1)) (hresults : s.results = result :: results) :
    Move s ({ s with results }.drainResult emits left result) := by
  unfold drainResult
  by_cases hcurrent : result.generation = s.generation
  · rw [if_pos hcurrent]
    cases hvalue : result.value with
    | audio pcm =>
      cases emits with
      | true => exact .emitsAudio hs hresults hcurrent hvalue
      | false =>
        exact @Move.failsAudio s left result results pcm
          (Function.update s.emittedAudioFrames result.sequence
            (s.emittedAudioFrames result.sequence + 1)) hs hresults hvalue
    | done chars => exact .completes hs hresults hcurrent (by rw [hvalue]; rfl)
    | error message => exact .completes hs hresults hcurrent (by rw [hvalue]; rfl)
  · rw [if_neg hcurrent]
    exact .dropsResult hs hresults hcurrent

theorem stepNode_moves {now : ℤ} {emits : Bool} (h : s.stepNode now emits = some s') :
    Move s s' := by
  have idles : ∀ {phase : Phase}, Idles s phase → Move s { s with phase } :=
    fun {phase} h => @Move.idles s phase s.scheduled s.cancelledThroughSequence s.terminalSequence
      s.terminalGeneration s.drainNotBefore h
  have clearsJob : ∀ {job : Option Job} {jobs : List (Option Job)}, s.phase.clearing →
      s.jobs = job :: jobs → Move s { s with jobs } := by
    intro job jobs hs hjobs
    refine @Move.clears s jobs s.results hs ?_ (List.suffix_refl _)
    rw [hjobs]
    exact List.suffix_cons _ _
  unfold stepNode at h
  split at h
  case h_1 => cases h
  case h_2 job hs =>
    cases h
    unfold putJob
    split_ifs
    · exact .putsJob hs
    · exact .refuses hs
  case h_3 hs =>
    cases h
    apply idles
    constructor <;> simp [hs, Phase.job, Phase.clearing, Phase.judged, Phase.counting,
        Phase.finishing]
  case h_4 left hs =>
    split at h
    · cases h
      apply idles
      constructor <;> simp [hs, Phase.job, Phase.clearing, Phase.judged, Phase.counting,
        Phase.finishing]
    · rename_i hresults
      cases h
      exact drainResult_moves hs hresults
  case h_5 hs =>
    cases h
    unfold judgeDrained
    split_ifs with hwait
    · apply idles
      constructor <;> simp [hs, Phase.job, Phase.clearing, Phase.judged, Phase.counting,
        Phase.finishing]
    · apply idles
      have hpending : s.pendingJobs = 0 := by
        simp only [Bool.or_eq_true, not_or, decide_eq_true_eq] at hwait
        omega
      constructor <;> simp [hs, hpending, Phase.job, Phase.clearing, Phase.counting, Phase.finishing]
  case h_6 now hs =>
    cases h
    unfold judgeResults
    split
    · apply idles
      constructor <;> simp [hs, Phase.job, Phase.clearing, Phase.judged, Phase.counting,
        Phase.finishing]
    · split_ifs
      · apply idles
        constructor <;> simp [hs, Phase.job, Phase.clearing, Phase.judged, Phase.counting,
        Phase.finishing]
      · exact .settles hs
  case h_7 generation sequence audioFrames hs =>
    cases h
    unfold emitDrained
    split_ifs
    · exact .drained hs
    · apply idles
      constructor <;> simp [hs, Phase.job, Phase.clearing, Phase.judged, Phase.counting,
        Phase.finishing]
  case h_8 hs =>
    cases h
    refine @Move.idles s .rest _ s.cancelledThroughSequence s.terminalSequence
      s.terminalGeneration s.drainNotBefore ?_
    constructor <;> simp [hs, Phase.job, Phase.clearing, Phase.judged, Phase.counting,
        Phase.finishing]
  case h_9 closeTransport finishes hs =>
    cases h
    exact .invalidates hs
  case h_10 finishes hs =>
    split at h
    · cases h
      apply idles
      cases finishes <;>
        (constructor <;> simp [hs, Phase.job, Phase.clearing, Phase.judged, Phase.counting,
          Phase.finishing])
    · rename_i hjobs
      cases h
      exact clearsJob (by rw [hs]; trivial) hjobs
  case h_11 finishes hs =>
    split at h
    · cases h
      apply idles
      cases finishes <;>
        (constructor <;> simp [hs, Phase.job, Phase.clearing, Phase.judged, Phase.counting,
        Phase.finishing])
    · rename_i hresults
      cases h
      refine @Move.clears s s.jobs _ (by rw [hs]; trivial) (List.suffix_refl _) ?_
      rw [hresults]
      exact List.suffix_cons _ _
  case h_12 hs =>
    split_ifs at h
    · cases h
      exact .stops (by rw [hs]; trivial) (by simp)
    · cases h
      apply idles
      constructor <;> simp [hs, Phase.job, Phase.clearing, Phase.judged, Phase.counting,
        Phase.finishing]
  case h_13 hs =>
    split at h
    · cases h
      exact .stops (by rw [hs]; trivial) (by simp)
    · rename_i hjobs
      cases h
      exact clearsJob (by rw [hs]; trivial) hjobs
  case h_14 => cases h
  case h_15 => cases h

theorem Put.job_after (job : Job) (put : Put) :
    (put.after job).job = if put.value.isTerminal then none else some job := by
  cases put with
  | audio => rfl
  | done => rfl
  | error message closes => cases closes <;> rfl

theorem Walks.keeps {place : Place} (h : place.job = s.place.job) : Walks s place := ⟨.inl h⟩

theorem Walks.drops {place : Place} {job : Job} (h : s.place.job = some job)
    (hplace : place.job = none) (hstale : job.generation ≠ s.generation ∨ s.closing = true) :
    Walks s place := by
  constructor
  right
  refine ⟨hplace, ?_⟩
  intro job' hjob'
  rw [h] at hjob'
  cases hjob'
  exact hstale

/-- A result that is not put leaves the job to the polls or drops it. -/
theorem Walks.after {job : Job} (put : Put) (h : s.place.job = some job)
    (hstale : job.generation ≠ s.generation ∨ s.closing = true) : Walks s (put.after job) := by
  have hafter := Put.job_after job put
  split_ifs at hafter with hterminal
  · exact .drops h hafter hstale
  · exact .keeps (hafter.trans h.symm)

theorem connectFails_moves {job : Job} {retried : Bool} {attempt : ℕ} {error : Text}
    (h : s.place.job = some job) : Move s (s.connectFails c job retried attempt error) := by
  unfold connectFails
  split_ifs
  · exact @Move.walks s _ s.activeTransport s.transport s.opened (.keeps h.symm)
  · exact @Move.walks s _ s.activeTransport s.transport s.opened (.keeps h.symm)

theorem synthesisFails_moves {job : Job} {retried emitted provider : Bool} {error : Text}
    (h : s.place.job = some job) :
    Move s (s.synthesisFails job retried emitted provider error) := by
  unfold synthesisFails
  split_ifs
  · exact @Move.walks s _ s.activeTransport s.transport s.opened (.keeps h.symm)
  · exact @Move.walks s _ s.activeTransport s.transport s.opened (.keeps h.symm)

theorem judgeEvent_moves {job : Job} {retried emitted : Bool} {event : Event}
    (h : s.place.job = some job) : Move s (s.judgeEvent job retried emitted event) := by
  unfold judgeEvent
  split
  · exact synthesisFails_moves h
  · split_ifs
    · exact synthesisFails_moves h
    · exact @Move.walks s _ s.activeTransport s.transport s.opened (.keeps h.symm)
  · exact synthesisFails_moves h
  · exact @Move.walks s _ s.activeTransport s.transport s.opened (.keeps h.symm)

theorem forgetTransport_moves {place : Place} (h : place.job = s.place.job) :
    Move s (s.forgetTransport place) :=
  @Move.walks s _ _ _ s.opened (.keeps h)

theorem run_moves {io : Io} (h : s.run c io = some s') : Move s s' := by
  have walks : ∀ {place : Place}, Walks s place → Move s { s with place } :=
    fun h => @Move.walks s _ s.activeTransport s.transport s.opened h
  unfold run at h
  split at h
  case h_1 hp =>
    cases h
    apply walks (.keeps _)
    rw [hp]
    split_ifs <;> rfl
  case h_2 hp =>
    split at h
    · cases h
      exact walks (.keeps (by rw [hp]; rfl))
    · rename_i hjobs
      cases h
      exact .takesJob (by rw [hp]; rfl) hjobs
    · rename_i hjobs
      cases h
      exact .takesNone (by rw [hp]; rfl) hjobs
  case h_3 job hp =>
    have hjob : s.place.job = some job := by rw [hp]; rfl
    split_ifs at h with hstale
    · cases h
      exact walks (.drops hjob rfl (.inl hstale))
    · cases h
      exact walks (.keeps hjob.symm)
    · cases h
      exact walks (.keeps hjob.symm)
  case h_4 job retried attempt hp =>
    have hjob : s.place.job = some job := by rw [hp]; rfl
    cases h
    exact @Move.walks s _ s.activeTransport s.transport _ (.keeps hjob.symm)
  case h_5 job retried attempt error hp =>
    cases h
    exact connectFails_moves (by rw [hp]; rfl)
  case h_6 job retried attempt transport hp =>
    have hjob : s.place.job = some job := by rw [hp]; rfl
    split_ifs at h
    · cases h
      exact connectFails_moves hjob
    · cases h
      exact @Move.walks s _ _ _ s.opened (.keeps hjob.symm)
  case h_7 job retried hp =>
    cases h
    exact walks (.keeps (by rw [hp]; rfl))
  case h_8 job retried error hp =>
    cases h
    exact synthesisFails_moves (by rw [hp]; rfl)
  case h_9 job retried emitted event hp =>
    cases h
    exact walks (.keeps (by rw [hp]; rfl))
  case h_10 job retried emitted hp =>
    cases h
    exact walks (.keeps (by rw [hp]; rfl))
  case h_11 job retried emitted error hp =>
    cases h
    exact synthesisFails_moves (by rw [hp]; rfl)
  case h_12 job retried emitted event hp =>
    have hjob : s.place.job = some job := by rw [hp]; rfl
    split_ifs at h with hstale
    · cases h
      exact walks (.drops hjob rfl (.inl hstale))
    · cases h
      exact judgeEvent_moves hjob
  case h_13 job hp =>
    have hjob : s.place.job = some job := by rw [hp]; rfl
    split_ifs at h with hcurrent
    · cases h
      exact walks (.keeps hjob.symm)
    · cases h
      exact walks (.drops hjob rfl (.inl hcurrent))
  case h_14 job hp =>
    cases h
    exact forgetTransport_moves (by rw [hp]; rfl)
  case h_15 job hp =>
    have hjob : s.place.job = some job := by rw [hp]; rfl
    split_ifs at h with hstale
    · cases h
      exact walks (.drops hjob rfl (.inl hstale))
    · cases h
      exact walks (.keeps hjob.symm)
  case h_16 job hp =>
    have hjob : s.place.job = some job := by rw [hp]; rfl
    cases h
    apply walks
    split_ifs with hclosing
    · exact .drops hjob rfl (.inr hclosing)
    · exact .keeps hjob.symm
  case h_17 job message closes hp =>
    have hjob : s.place.job = some job := by rw [hp]; rfl
    split_ifs at h with hcurrent
    · cases h
      exact walks (.keeps hjob.symm)
    · cases h
      exact walks (.after _ hjob (.inl hcurrent))
  case h_18 job message closes hp =>
    have hjob : s.place.job = some job := by rw [hp]; rfl
    split_ifs at h with hclosing
    · cases h
      exact walks (.after _ hjob (.inr hclosing))
    · cases h
      exact walks (.keeps hjob.symm)
  case h_19 job put hp =>
    have hjob : s.place.job = some job := by rw [hp]; rfl
    cases h
    apply walks
    split_ifs with hclosing
    · exact .after _ hjob (.inr hclosing)
    · exact .keeps hjob.symm
  case h_20 job put hp =>
    have hjob : s.place.job = some job := by rw [hp]; rfl
    cases h
    apply walks
    split_ifs with hcurrent
    · exact .keeps hjob.symm
    · exact .after _ hjob (.inl hcurrent)
  case h_21 job put hp =>
    have hjob : s.place.job = some job := by rw [hp]; rfl
    split_ifs at h
    · cases h
      exact .offers hp
    · cases h
      exact walks (.keeps hjob.symm)
  case h_22 generation hp =>
    cases h
    exact forgetTransport_moves (by rw [hp]; rfl)
  case h_23 generation hp =>
    cases h
    apply walks (.keeps _)
    rw [hp]
    split_ifs <;> rfl
  case h_24 hp =>
    cases h
    exact forgetTransport_moves (by rw [hp]; rfl)
  case h_25 hp =>
    cases h
    exact @Move.walks s _ _ _ s.opened (.keeps (by rw [hp]; rfl))
  case h_26 => cases h

theorem step_moves {a : Action} (h : s.step c a = some s') : Move s s' := by
  cases a with
  | event topic sequence now =>
    simp only [step] at h
    split_ifs at h with hs
    cases h
    unfold onEvent
    split_ifs <;> refine .idles ?_ <;> constructor <;>
      simp [hs, Phase.job, Phase.clearing, Phase.judged, Phase.counting,
        Phase.finishing]
  | text text sequence now =>
    simp only [step] at h
    split_ifs at h with hs
    cases h
    unfold onText
    simp only
    split_ifs
    · refine .idles ?_
      constructor <;> simp [hs, Phase.job, Phase.clearing, Phase.judged, Phase.counting,
        Phase.finishing]
    · refine .idles ?_
      constructor <;> simp [hs, Phase.job, Phase.clearing, Phase.judged, Phase.counting,
        Phase.finishing]
    · exact .admits hs
    · exact .admits hs
  | tick =>
    simp only [step] at h
    split_ifs at h with hs
    cases h
    refine .idles ?_
    constructor <;> simp [hs, Phase.job, Phase.clearing, Phase.judged, Phase.counting,
        Phase.finishing]
  | otherPort =>
    simp only [step] at h
    split_ifs at h with hs
    cases h
    refine .idles ?_
    constructor <;> simp [hs, Phase.job, Phase.clearing, Phase.judged, Phase.counting,
        Phase.finishing]
  | onSignal name sequence =>
    simp only [step] at h
    split_ifs at h with hs
    cases h
    unfold onSignal
    split_ifs <;> refine .idles ?_ <;> constructor <;>
      simp [hs, Phase.job, Phase.clearing, Phase.judged, Phase.counting,
        Phase.finishing]
  | onFinish =>
    simp only [step] at h
    split_ifs at h with hs
    cases h
    exact .finishes (by rw [hs]; rfl)
  | onAbort =>
    simp only [step] at h
    split at h
    · rename_i hs
      cases h
      exact .finishes (by rw [hs]; rfl)
    · rename_i hs
      cases h
      exact .finishes (by rw [hs]; rfl)
    · cases h
  | node now emits => exact stepNode_moves h
  | worker io =>
    simp only [step] at h
    split_ifs at h
    exact run_moves h

end Muxiva.Tts
