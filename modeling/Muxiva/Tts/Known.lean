import Muxiva.Tts.Moves

/-! What the log tells: the texts admitted and not drained, and the audio frames of a sequence. What
is of the node's generation was admitted since the last cancellation. -/
set_option linter.all false
namespace Muxiva.Tts

open QwenTtsRealtimeNode Transition.System

/-- The texts admitted since the last cancellation whose last result has not been drained. -/
def undrained (log : List Entry) : List ℕ :=
  log.foldl (fun jobs entry =>
    match entry with
    | .admitted job => jobs ++ [job]
    | .refused job => jobs.erase job
    | .completed job => jobs.erase job
    | .cancelled => []
    | .audio _ _ _ => jobs
    | .drained _ _ _ => jobs) []

/-- The texts admitted since the last cancellation. -/
def admittedSince (log : List Entry) : List ℕ :=
  log.foldl (fun jobs entry =>
    match entry with
    | .admitted job => jobs ++ [job]
    | .cancelled => []
    | .refused _ => jobs
    | .completed _ => jobs
    | .audio _ _ _ => jobs
    | .drained _ _ _ => jobs) []

/-- The audio frames emitted for a sequence since the later of the last cancellation and the last
drained event of the sequence. -/
def framesSince (sequence : ℤ) (log : List Entry) : ℕ :=
  log.foldl (fun frames entry =>
    match entry with
    | .audio _ sequence' _ => if sequence' = sequence then frames + 1 else frames
    | .drained _ sequence' _ => if sequence' = sequence then 0 else frames
    | .cancelled => 0
    | .admitted _ => frames
    | .refused _ => frames
    | .completed _ => frames) 0

section Log
variable (log : List Entry) (job : ℕ) (sequence sequence' : ℤ) (pcm : List UInt8)
  (generation audioFrames : ℕ)

@[simp] theorem undrained_admitted :
    undrained (log ++ [Entry.admitted job]) = undrained log ++ [job] := by simp [undrained]

@[simp] theorem undrained_refused :
    undrained (log ++ [Entry.refused job]) = (undrained log).erase job := by simp [undrained]

@[simp] theorem undrained_completed :
    undrained (log ++ [Entry.completed job]) = (undrained log).erase job := by simp [undrained]

@[simp] theorem undrained_cancelled : undrained (log ++ [Entry.cancelled]) = [] := by
  simp [undrained]

@[simp] theorem undrained_audio :
    undrained (log ++ [Entry.audio job sequence pcm]) = undrained log := by simp [undrained]

@[simp] theorem undrained_drained :
    undrained (log ++ [Entry.drained generation sequence audioFrames]) = undrained log := by
  simp [undrained]

@[simp] theorem admittedSince_admitted :
    admittedSince (log ++ [Entry.admitted job]) = admittedSince log ++ [job] := by
  simp [admittedSince]

@[simp] theorem admittedSince_refused :
    admittedSince (log ++ [Entry.refused job]) = admittedSince log := by simp [admittedSince]

@[simp] theorem admittedSince_completed :
    admittedSince (log ++ [Entry.completed job]) = admittedSince log := by simp [admittedSince]

@[simp] theorem admittedSince_audio :
    admittedSince (log ++ [Entry.audio job sequence pcm]) = admittedSince log := by
  simp [admittedSince]

@[simp] theorem admittedSince_drained :
    admittedSince (log ++ [Entry.drained generation sequence audioFrames]) = admittedSince log := by
  simp [admittedSince]

@[simp] theorem framesSince_admitted :
    framesSince sequence (log ++ [Entry.admitted job]) = framesSince sequence log := by
  simp [framesSince]

@[simp] theorem framesSince_refused :
    framesSince sequence (log ++ [Entry.refused job]) = framesSince sequence log := by
  simp [framesSince]

@[simp] theorem framesSince_completed :
    framesSince sequence (log ++ [Entry.completed job]) = framesSince sequence log := by
  simp [framesSince]

@[simp] theorem framesSince_cancelled : framesSince sequence (log ++ [Entry.cancelled]) = 0 := by
  simp [framesSince]

@[simp] theorem framesSince_audio :
    framesSince sequence (log ++ [Entry.audio job sequence' pcm]) =
      if sequence' = sequence then framesSince sequence log + 1 else framesSince sequence log := by
  simp [framesSince]

@[simp] theorem framesSince_drained :
    framesSince sequence (log ++ [Entry.drained generation sequence' audioFrames]) =
      if sequence' = sequence then 0 else framesSince sequence log := by
  simp [framesSince]

end Log

variable {c : Config} {s s' : QwenTtsRealtimeNode}

/-- Nothing is of a later generation than the node's, and what is of the node's was admitted since
the last cancellation. -/
structure Since (s : QwenTtsRealtimeNode) (generation job : ℕ) : Prop where
  le : generation ≤ s.generation
  admitted : generation = s.generation → job ∈ admittedSince s.log

structure Known (s : QwenTtsRealtimeNode) : Prop where
  results : ∀ result ∈ s.results, Since s result.generation result.job
  place : ∀ job, s.place.job = some job → Since s job.generation job.id
  jobs : ∀ job, some job ∈ s.jobs → Since s job.generation job.id
  phase : ∀ job, s.phase.job = some job → Since s job.generation job.id
  current : ∀ job, s.phase.job = some job → job.generation = s.generation

theorem Since.mono {generation job : ℕ} (h : Since s generation job)
    (hgeneration : s'.generation = s.generation)
    (hlog : ∀ job ∈ admittedSince s.log, job ∈ admittedSince s'.log) : Since s' generation job := by
  constructor
  · rw [hgeneration]
    exact h.le
  · intro heq
    rw [hgeneration] at heq
    exact hlog job (h.admitted heq)

/-- The queues and the worker lose what they like and gain what is known. -/
theorem Known.mono (h : Known s) (hgeneration : s'.generation = s.generation)
    (hlog : ∀ job ∈ admittedSince s.log, job ∈ admittedSince s'.log)
    (hresults : ∀ result ∈ s'.results, result ∈ s.results ∨ Since s result.generation result.job)
    (hplace : ∀ job, s'.place.job = some job →
      s.place.job = some job ∨ Since s job.generation job.id)
    (hjobs : ∀ job, some job ∈ s'.jobs → some job ∈ s.jobs ∨ Since s job.generation job.id)
    (hphase : ∀ job, s'.phase.job = some job → s.phase.job = some job) : Known s' := by
  constructor
  · intro result hmem
    rcases hresults result hmem with hold | hnew
    · exact (h.results result hold).mono hgeneration hlog
    · exact hnew.mono hgeneration hlog
  · intro job hjob
    rcases hplace job hjob with hold | hnew
    · exact (h.place job hold).mono hgeneration hlog
    · exact hnew.mono hgeneration hlog
  · intro job hmem
    rcases hjobs job hmem with hold | hnew
    · exact (h.jobs job hold).mono hgeneration hlog
    · exact hnew.mono hgeneration hlog
  · intro job hjob
    exact (h.phase job (hphase job hjob)).mono hgeneration hlog
  · intro job hjob
    rw [hgeneration]
    exact h.current job (hphase job hjob)

theorem Known.invalidate (h : Known s) (closeTransport finishes : Bool) :
    Known (s.invalidate closeTransport finishes) := by
  have later : ∀ {generation job : ℕ}, Since s generation job →
      Since (s.invalidate closeTransport finishes) generation job := by
    intro generation job hsince
    have hle := hsince.le
    constructor
    · show generation ≤ s.generation + 1
      omega
    · intro heq
      have heq' : generation = s.generation + 1 := heq
      omega
  constructor
  · exact fun result hmem => later (h.results result hmem)
  · exact fun job hjob => later (h.place job hjob)
  · exact fun job hmem => later (h.jobs job hmem)
  · intro job hjob
    cases hjob
  · intro job hjob
    cases hjob

theorem Move.known (h : Move s s') (hs : Known s) : Known s' := by
  have taken : ∀ {result : Result} {results : List Result}, s.results = result :: results →
      ∀ result' ∈ results, result' ∈ s.results := by
    intro result results hresults result' hmem
    rw [hresults]
    exact List.mem_cons_of_mem _ hmem
  cases h with
  | idles h =>
    refine hs.mono rfl (fun _ => id) (fun _ => .inl) (fun _ => .inl) (fun _ => .inl) ?_
    intro job hjob
    rw [show _ = _ from h.job'] at hjob
    cases hjob
  | admits hphase =>
    have hlog : ∀ job ∈ admittedSince s.log,
        job ∈ admittedSince (s.log ++ [Entry.admitted s.nextJob]) := by
      intro job hmem
      rw [admittedSince_admitted]
      exact List.mem_append_left _ hmem
    constructor
    · exact fun result hmem => (hs.results result hmem).mono rfl hlog
    · exact fun job hjob => (hs.place job hjob).mono rfl hlog
    · exact fun job hmem => (hs.jobs job hmem).mono rfl hlog
    · intro job hjob
      cases hjob
      exact ⟨Nat.le_refl _, fun _ => by simp⟩
    · intro job hjob
      cases hjob
      rfl
  | @putsJob job hphase =>
    refine hs.mono rfl (fun _ => id) (fun _ => .inl) (fun _ => .inl) ?_ (fun _ h => by cases h)
    intro job' hmem
    rcases List.mem_append.mp hmem with hmem | hmem
    · exact .inl hmem
    · cases List.mem_singleton.mp hmem
      exact .inr (hs.phase job (by rw [hphase]; rfl))
  | refuses hphase =>
    exact hs.mono rfl (by simp) (fun _ => .inl) (fun _ => .inl) (fun _ => .inl)
      (fun _ h => by cases h)
  | dropsResult hphase hresults =>
    exact hs.mono rfl (fun _ => id) (fun _ h => .inl (taken hresults _ h)) (fun _ => .inl)
      (fun _ => .inl) (fun _ h => by cases h)
  | emitsAudio hphase hresults =>
    exact hs.mono rfl (by simp) (fun _ h => .inl (taken hresults _ h)) (fun _ => .inl)
      (fun _ => .inl) (fun _ h => by cases h)
  | failsAudio hphase hresults =>
    exact hs.mono rfl (fun _ => id) (fun _ h => .inl (taken hresults _ h)) (fun _ => .inl)
      (fun _ => .inl) (fun _ h => by cases h)
  | completes hphase hresults =>
    exact hs.mono rfl (by simp) (fun _ h => .inl (taken hresults _ h)) (fun _ => .inl)
      (fun _ => .inl) (fun _ h => by cases h)
  | settles hphase =>
    exact hs.mono rfl (fun _ => id) (fun _ => .inl) (fun _ => .inl) (fun _ => .inl)
      (fun _ h => by cases h)
  | drained hphase =>
    exact hs.mono rfl (by simp) (fun _ => .inl) (fun _ => .inl) (fun _ => .inl)
      (fun _ h => by cases h)
  | finishes hphase =>
    exact hs.mono rfl (fun _ => id) (fun _ => .inl) (fun _ => .inl) (fun _ => .inl)
      (fun _ h => by cases h)
  | invalidates hphase => exact hs.invalidate _ _
  | clears _ hjobs hresults =>
    exact hs.mono rfl (fun _ => id) (fun _ h => .inl (hresults.subset h)) (fun _ => .inl)
      (fun _ h => .inl (hjobs.subset h)) (fun _ => id)
  | stops _ hjobs =>
    exact hs.mono rfl (fun _ => id) (fun _ => .inl) (fun _ => .inl)
      (fun job h => .inl (hjobs job h)) (fun _ h => by cases h)
  | walks h =>
    refine hs.mono rfl (fun _ => id) (fun _ => .inl) ?_ (fun _ => .inl) (fun _ => id)
    intro job hjob
    rcases h.job with heq | ⟨hnone, _⟩
    · exact .inl (heq.symm.trans hjob)
    · cases hnone.symm.trans hjob
  | @takesJob job jobs hplace hjobs =>
    refine hs.mono rfl (fun _ => id) (fun _ => .inl) ?_ ?_ (fun _ => id)
    · intro job' hjob
      cases hjob
      exact .inr (hs.jobs job (by simp [hjobs]))
    · intro job' hmem
      exact .inl (by simp [hjobs, show some job' ∈ jobs from hmem])
  | @takesNone jobs hplace hjobs =>
    refine hs.mono rfl (fun _ => id) (fun _ => .inl) (fun _ h => by cases h) ?_ (fun _ => id)
    intro job' hmem
    exact .inl (by simp [hjobs, show some job' ∈ jobs from hmem])
  | @offers job put hplace =>
    have hjob : Since s job.generation job.id := hs.place job (by rw [hplace]; rfl)
    refine hs.mono rfl (fun _ => id) ?_ ?_ (fun _ => .inl) (fun _ => id)
    · intro result hmem
      rcases List.mem_append.mp hmem with hmem | hmem
      · exact .inl hmem
      · rw [List.mem_singleton.mp hmem]
        exact .inr hjob
    · intro job' hjob'
      have hafter : (put.after job).job = some job' := hjob'
      rw [Put.job_after] at hafter
      split_ifs at hafter
      cases hafter
      exact .inr hjob

theorem reachable_known (hr : (ttsSystem c).Reachable s) : Known s := by
  refine hr.invariant (I := Known) ?_ ?_
  · rintro _ rfl
    constructor <;> simp [QwenTtsRealtimeNode.new, Place.job, Phase.job]
  · intro s a s' _ hi hstep
    exact (step_moves hstep).known hi

end Muxiva.Tts
