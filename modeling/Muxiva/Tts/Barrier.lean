import Muxiva.Lib.History
import Muxiva.Tts.Known

/-! The drain barrier. The texts of the current generation that have not been drained are, oldest
first, those whose last result is in the queue, the worker's, those in the queue of jobs and the one
about to be put there. -/
set_option linter.all false
namespace Muxiva.Tts

open QwenTtsRealtimeNode Transition.System

def Job.live (generation : ℕ) (job : Job) : List ℕ :=
  if job.generation = generation then [job.id] else []

def Result.live (generation : ℕ) (result : Result) : List ℕ :=
  if result.generation = generation && result.value.isTerminal then [result.job] else []

def held (generation : ℕ) (job : Option Job) : List ℕ := job.toList.flatMap (Job.live generation)

/-- The jobs of a queue. -/
def queued (generation : ℕ) (jobs : List (Option Job)) : List ℕ :=
  jobs.flatMap (held generation)

def QwenTtsRealtimeNode.live (s : QwenTtsRealtimeNode) : List ℕ :=
  s.results.flatMap (Result.live s.generation) ++ held s.generation s.place.job ++
    queued s.generation s.jobs ++ held s.generation s.phase.job

variable {c : Config} {s s' : QwenTtsRealtimeNode}

@[simp] theorem held_none (generation : ℕ) : held generation none = [] := rfl

@[simp] theorem held_some (generation : ℕ) (job : Job) :
    held generation (some job) = job.live generation := by
  simp [held]

theorem queued_cons (generation : ℕ) (job : Option Job) (jobs : List (Option Job)) :
    queued generation (job :: jobs) = held generation job ++ queued generation jobs := rfl

theorem held_of_stale {generation : ℕ} {job : Option Job}
    (h : ∀ job', job = some job' → job'.generation ≠ generation) : held generation job = [] := by
  cases job with
  | none => rfl
  | some job =>
    rw [held_some]
    exact if_neg (h job rfl)

theorem queued_of_stale {generation : ℕ} {jobs : List (Option Job)}
    (h : ∀ job, some job ∈ jobs → job.generation ≠ generation) : queued generation jobs = [] := by
  unfold queued
  rw [List.flatMap_eq_nil_iff]
  intro job hmem
  apply held_of_stale
  rintro job' rfl
  exact h job' hmem

theorem results_of_stale {generation : ℕ} {results : List Result}
    (h : ∀ result ∈ results, result.generation ≠ generation) :
    results.flatMap (Result.live generation) = [] := by
  rw [List.flatMap_eq_nil_iff]
  intro result hmem
  simp [Result.live, h result hmem]

theorem Result.live_of_stale {generation : ℕ} {result : Result}
    (h : result.generation ≠ generation) : result.live generation = [] := by
  simp [Result.live, h]

theorem Result.live_of_audio {generation : ℕ} {result : Result} {pcm : List UInt8}
    (h : result.value = .audio pcm) : result.live generation = [] := by
  simp [Result.live, h, Value.isTerminal]

/-- What is put of a job carries the job's debt once it is the last result. -/
theorem Job.live_result (generation : ℕ) (job : Job) (put : Put) :
    (job.result put.value).live generation ++ held generation (put.after job).job =
      job.live generation := by
  rw [Put.job_after]
  unfold Result.live Job.result Job.live
  cases put.value.isTerminal <;> simp [Job.live]

/-- The counter, until `on_finish`. -/
structure Balanced (s : QwenTtsRealtimeNode) : Prop where
  live : undrained s.log = s.live
  pending : s.pendingJobs = (undrained s.log).length
  clearing : s.phase.clearing → undrained s.log = []
  judged : s.phase.judged → s.pendingJobs = 0
  fresh : ∀ job ∈ undrained s.log, job < s.nextJob
  nodup : (undrained s.log).Nodup

theorem Balanced.init : Balanced .new := by
  constructor <;> simp [QwenTtsRealtimeNode.new, undrained, QwenTtsRealtimeNode.live, queued,
    Place.job, Phase.job, Phase.clearing, Phase.judged]

/-- A step that touches neither the log nor the counter. -/
theorem Balanced.congr (h : Balanced s) (hlog : undrained s'.log = undrained s.log)
    (hlive : s'.live = s.live) (hpending : s'.pendingJobs = s.pendingJobs)
    (hnext : s'.nextJob = s.nextJob) (hclearing : s'.phase.clearing → s.phase.clearing)
    (hjudged : s'.phase.judged → s.pendingJobs = 0) : Balanced s' := by
  constructor
  · rw [hlog, hlive]
    exact h.live
  · rw [hpending, hlog]
    exact h.pending
  · intro hphase
    rw [hlog]
    exact h.clearing (hclearing hphase)
  · intro hphase
    rw [hpending]
    exact hjudged hphase
  · rw [hlog, hnext]
    exact h.fresh
  · rw [hlog]
    exact h.nodup

theorem Balanced.admits (h : Balanced s) (hs : s.phase = .rest) {scheduled : Bool}
    {drainNotBefore : ℤ} {text : Text} {sequence : ℤ} : Balanced { s with
      scheduled
      pendingJobs := s.pendingJobs + 1
      drainNotBefore
      phase := .putsJob ⟨s.generation, text, sequence, s.nextJob⟩
      nextJob := s.nextJob + 1
      log := s.log ++ [.admitted s.nextJob] } := by
  have hlive := h.live
  unfold QwenTtsRealtimeNode.live at hlive
  rw [hs] at hlive
  have hfresh : s.nextJob ∉ undrained s.log := fun hmem => Nat.lt_irrefl _ (h.fresh _ hmem)
  constructor
  · simp only [undrained_admitted, QwenTtsRealtimeNode.live]
    rw [hlive]
    simp [Phase.job, Job.live]
  · simp only [undrained_admitted, List.length_append, List.length_singleton]
    have := h.pending
    omega
  · exact False.elim
  · exact False.elim
  · intro job hmem
    simp only [undrained_admitted, List.mem_append, List.mem_singleton] at hmem
    show job < s.nextJob + 1
    rcases hmem with hmem | rfl
    · have := h.fresh job hmem
      omega
    · omega
  · simp only [undrained_admitted]
    rw [List.nodup_append]
    refine ⟨h.nodup, by simp, ?_⟩
    intro job hmem job' hmem'
    rw [List.mem_singleton.mp hmem']
    rintro rfl
    exact hfresh hmem

/-- An entry takes one text out. -/
theorem Balanced.erases (h : Balanced s) {job : ℕ} {entry : Entry}
    (hlog : undrained (s.log ++ [entry]) = (undrained s.log).erase job)
    (hmem : job ∈ undrained s.log) (hentry : s'.log = s.log ++ [entry])
    (hlive : s'.live = (undrained s.log).erase job) (hpending : s'.pendingJobs = s.pendingJobs - 1)
    (hnext : s'.nextJob = s.nextJob) (hclearing : ¬s'.phase.clearing)
    (hjudged : ¬s'.phase.judged) : Balanced s' := by
  rw [← hentry] at hlog
  constructor
  · rw [hlog, hlive]
  · rw [hpending, hlog, List.length_erase_of_mem hmem, h.pending]
  · exact fun hphase => absurd hphase hclearing
  · exact fun hphase => absurd hphase hjudged
  · intro job' hmem'
    rw [hlog] at hmem'
    rw [hnext]
    exact h.fresh job' (List.mem_of_mem_erase hmem')
  · rw [hlog]
    exact h.nodup.erase job

theorem Balanced.refuses (h : Balanced s) (hk : Known s) {job : Job} (hs : s.phase = .putsJob job) :
    Balanced { s with
      pendingJobs := s.pendingJobs - 1
      phase := .failed .full
      log := s.log ++ [.refused job.id] } := by
  have hcurrent : job.generation = s.generation := hk.current job (by rw [hs]; rfl)
  have hlive := h.live
  unfold QwenTtsRealtimeNode.live at hlive
  rw [hs] at hlive
  simp only [Phase.job, held_some, Job.live, if_pos hcurrent] at hlive
  have hnodup := h.nodup
  rw [hlive, List.nodup_append] at hnodup
  have hfresh : job.id ∉ s.results.flatMap (Result.live s.generation) ++
      held s.generation s.place.job ++ queued s.generation s.jobs :=
    fun hmem => hnodup.2.2 job.id hmem job.id (by simp) rfl
  refine h.erases (undrained_refused _ _) ?_ rfl ?_ rfl rfl id id
  · rw [hlive]
    simp
  · rw [hlive, List.erase_append_right _ hfresh]
    simp [QwenTtsRealtimeNode.live, Phase.job]

theorem Balanced.completes (h : Balanced s) {left : ℕ} {result : Result} {results : List Result}
    (hs : s.phase = .drains (left + 1)) (hresults : s.results = result :: results)
    (hcurrent : result.generation = s.generation) (hvalue : result.value.isTerminal) :
    Balanced { s with
      results
      pendingJobs := s.pendingJobs - 1
      phase := .drains left
      log := s.log ++ [.completed result.job] } := by
  have hlive := h.live
  unfold QwenTtsRealtimeNode.live at hlive
  rw [hresults, hs] at hlive
  simp only [List.flatMap_cons, Result.live, hcurrent, hvalue, decide_true, Bool.and_self, if_true,
    List.append_assoc, List.cons_append, List.nil_append] at hlive
  refine h.erases (undrained_completed _ _) ?_ rfl ?_ rfl rfl id id
  · rw [hlive]
    simp
  · rw [hlive, List.erase_cons_head]
    simp [QwenTtsRealtimeNode.live, Phase.job]

theorem Balanced.invalidate (hk : Known s) (closeTransport finishes : Bool) :
    Balanced (s.invalidate closeTransport finishes) := by
  have stale : ∀ {generation job : ℕ}, Since s generation job → generation ≠ s.generation + 1 := by
    intro generation job hsince
    have := hsince.le
    omega
  have hresults : s.results.flatMap (Result.live (s.generation + 1)) = [] :=
    results_of_stale fun result hmem => stale (hk.results result hmem)
  have hplace : held (s.generation + 1) s.place.job = [] :=
    held_of_stale fun job hjob => stale (hk.place job hjob)
  have hjobs : queued (s.generation + 1) s.jobs = [] :=
    queued_of_stale fun job hmem => stale (hk.jobs job hmem)
  unfold QwenTtsRealtimeNode.invalidate
  constructor
  · simp [QwenTtsRealtimeNode.live, hresults, hplace, hjobs, Phase.job]
  · simp
  · simp
  · simp
  · simp
  · simp

/-- What is left of two queues without live jobs has none. -/
theorem Balanced.clears (h : Balanced s) (hs : s.phase.clearing) {jobs : List (Option Job)}
    {results : List Result} {phase : Phase} (hjobs : ∀ job, some job ∈ jobs → some job ∈ s.jobs)
    (hresults : ∀ result ∈ results, result ∈ s.results) (hphase : phase.job = none)
    (hjudged : ¬phase.judged) : Balanced { s with jobs, results, phase } := by
  have hnil := h.clearing hs
  have hlive := h.live
  rw [hnil] at hlive
  unfold QwenTtsRealtimeNode.live at hlive
  have hparts := List.append_eq_nil_iff.mp hlive.symm
  have hparts' := List.append_eq_nil_iff.mp hparts.1
  have hparts'' := List.append_eq_nil_iff.mp hparts'.1
  have hresults' : results.flatMap (Result.live s.generation) = [] := by
    rw [List.flatMap_eq_nil_iff]
    intro result hmem
    exact List.flatMap_eq_nil_iff.mp hparts''.1 result (hresults result hmem)
  have hjobs' : queued s.generation jobs = [] := by
    unfold queued
    rw [List.flatMap_eq_nil_iff]
    intro job hmem
    cases job with
    | none => rfl
    | some job => exact List.flatMap_eq_nil_iff.mp hparts'.2 (some job) (hjobs job hmem)
  constructor
  · rw [hnil]
    simp [QwenTtsRealtimeNode.live, hresults', hjobs', hparts''.2, hphase]
  · exact h.pending
  · exact fun _ => hnil
  · exact fun hphase => absurd hphase hjudged
  · exact h.fresh
  · exact h.nodup

theorem Move.balanced (h : Move s s') (hs : Balanced s) (hk : Known s)
    (hclosing : s'.closing = false) : Balanced s' := by
  cases h with
  | idles h =>
    refine hs.congr rfl ?_ rfl rfl h.clearing h.judged
    unfold QwenTtsRealtimeNode.live
    simp only
    rw [h.job, h.job']
  | admits hphase => exact hs.admits hphase
  | @putsJob job hphase =>
    refine hs.congr rfl ?_ rfl rfl False.elim False.elim
    unfold QwenTtsRealtimeNode.live
    simp [hphase, Phase.job, queued]
  | refuses hphase => exact hs.refuses hk hphase
  | dropsResult hphase hresults hstale =>
    refine hs.congr rfl ?_ rfl rfl False.elim False.elim
    unfold QwenTtsRealtimeNode.live
    simp [hphase, hresults, Result.live_of_stale hstale, Phase.job]
  | emitsAudio hphase hresults hcurrent hvalue =>
    refine hs.congr (by simp) ?_ rfl rfl False.elim False.elim
    unfold QwenTtsRealtimeNode.live
    simp [hphase, hresults, Result.live_of_audio hvalue, Phase.job]
  | failsAudio hphase hresults hvalue =>
    refine hs.congr rfl ?_ rfl rfl False.elim False.elim
    unfold QwenTtsRealtimeNode.live
    simp [hphase, hresults, Result.live_of_audio hvalue, Phase.job]
  | completes hphase hresults hcurrent hvalue =>
    exact hs.completes hphase hresults hcurrent hvalue
  | settles hphase =>
    refine hs.congr rfl ?_ rfl rfl False.elim (fun _ => hs.judged (by rw [hphase]; trivial))
    unfold QwenTtsRealtimeNode.live
    simp [hphase, Phase.job]
  | drained hphase =>
    refine hs.congr (by simp) ?_ rfl rfl False.elim False.elim
    unfold QwenTtsRealtimeNode.live
    simp [hphase, Phase.job]
  | finishes hphase => cases hclosing
  | invalidates hphase => exact .invalidate hk _ _
  | @clears jobs results hphase hjobs hresults =>
    have hjob : s.phase.job = none := by
      cases hp : s.phase <;> simp [hp, Phase.clearing, Phase.job] at hphase ⊢
    have hjudged : ¬s.phase.judged := by
      cases hp : s.phase <;> simp [hp, Phase.clearing, Phase.judged] at hphase ⊢
    exact hs.clears hphase (fun job h => hjobs.subset h) (fun result h => hresults.subset h) hjob
      hjudged
  | @stops jobs hphase hjobs =>
    exact hs.clears hphase hjobs (fun result h => h) rfl id
  | walks h =>
    refine hs.congr rfl ?_ rfl rfl id hs.judged
    unfold QwenTtsRealtimeNode.live
    simp only
    rcases h.job with heq | ⟨hnone, hstale⟩
    · rw [heq]
    · have hheld : held s.generation s.place.job = [] := by
        apply held_of_stale
        intro job hjob
        rcases hstale job hjob with hstale | hclosed
        · exact hstale
        · cases hclosing.symm.trans hclosed
      rw [hnone, hheld, held_none]
  | @takesJob job jobs hplace hjobs =>
    refine hs.congr rfl ?_ rfl rfl id hs.judged
    unfold QwenTtsRealtimeNode.live
    rw [hplace, hjobs, queued_cons]
    simp [Place.job, held]
  | @takesNone jobs hplace hjobs =>
    refine hs.congr rfl ?_ rfl rfl id hs.judged
    unfold QwenTtsRealtimeNode.live
    rw [hplace, hjobs, queued_cons]
    simp [Place.job]
  | @offers job put hplace =>
    refine hs.congr rfl ?_ rfl rfl id hs.judged
    unfold QwenTtsRealtimeNode.live
    have hjob : s.place.job = some job := by rw [hplace]; rfl
    simp only [List.flatMap_append, List.flatMap_cons, List.flatMap_nil, List.append_nil]
    rw [hjob, held_some, ← Job.live_result s.generation job put]
    simp [List.append_assoc]

theorem reachable_balanced (hr : (ttsSystem c).Reachable s) (hclosing : s.closing = false) :
    Balanced s := by
  refine hr.invariant (I := fun s => s.closing = false → Balanced s) ?_ ?_ hclosing
  · rintro _ rfl _
    exact .init
  · intro s a s' hr hi hstep hclosing
    have hmove := step_moves hstep
    have hopen : s.closing = false := by
      cases hmove with
      | finishes => cases hclosing
      | _ => exact hclosing
    exact hmove.balanced (hi hopen) (reachable_known hr) hclosing

end Muxiva.Tts
