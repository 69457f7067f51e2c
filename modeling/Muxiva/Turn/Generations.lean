import Muxiva.Lib.History
import Muxiva.Turn.Moves

/-! Generations of admitted turns. They increase from turn to turn; but a generation that a preview
took early is older than the interrupts that come before its transcript. -/
set_option linter.all false
namespace Muxiva.Turn

open Transition.System VoiceTurnController

def Output.cancellation : Output → Option Decision
  | .signal decision => some decision
  | _ => none

/-- The generation in a started or committed event. -/
def Output.turnGeneration : Output → Option ℤ
  | .event .turnStarted decision => some decision.generation
  | .event .turnUtteranceCommitted decision => some decision.generation
  | _ => none

def Entry.cancellations (e : Entry) : List Decision := e.outputs.filterMap Output.cancellation

def Entry.turnGenerations (e : Entry) : List ℤ := e.outputs.filterMap Output.turnGeneration

/-- The cancellation signals of a run, in order. -/
def cancellations (log : List Entry) : List Decision := log.flatMap Entry.cancellations

def lastCancelled (log : List Entry) : Option ℤ := (cancellations log).getLast?.map (·.generation)

theorem cancellations_append_singleton (log : List Entry) (e : Entry) :
    cancellations (log ++ [e]) = cancellations log ++ e.cancellations := by
  simp [cancellations]

theorem lastCancelled_append_singleton (log : List Entry) (e : Entry) :
    lastCancelled (log ++ [e]) =
      (e.cancellations.getLast?.map (·.generation)).or (lastCancelled log) := by
  unfold lastCancelled
  rw [cancellations_append_singleton, List.getLast?_append]
  cases e.cancellations.getLast? with
  | none => rfl
  | some d => rfl

theorem admittedOutputs_cancellation (generation turnId : ℕ) (text : Text) :
    (admittedOutputs generation turnId text).filterMap Output.cancellation = [] := rfl

theorem admittedOutputs_turnGeneration (generation turnId : ℕ) (text : Text) :
    (admittedOutputs generation turnId text).filterMap Output.turnGeneration =
      [clampI64 generation, clampI64 generation] := rfl

theorem clampI64_of_lt {n : ℕ} (h : n < 2 ^ 63) : clampI64 n = n := if_pos h

section Step

variable {toLowercase : Char → Text} {s s' : State} {a : Callback × Context}

/-- A step writes one entry, which is a move. -/
theorem step_entry (h : (controllerSystem toLowercase).step s a = some s') :
    ∃ outputs, s'.log = s.log ++ [⟨s.controller, a.1, outputs⟩] ∧
      Move s.controller.turns a.1 s'.controller.turns outputs := by
  unfold controllerSystem at h
  simp only at h
  split at h
  · cases h
  · rename_i controller outputs hcall
    cases h
    exact ⟨outputs, rfl, call_move hcall⟩

end Step

/-- How the generations of a run relate to the state it ends in. -/
structure Tracks (t : Turns) (log : List Entry) : Prop where
  count : t.generation = (cancellations log).length
  last : lastCancelled log = if t.generation = 0 then none else some (t.generation : ℤ)
  earlyTaken : ∀ k, t.early = some k → 1 ≤ k ∧ k ≤ t.generation
  admitted : ∀ e ∈ log, ∀ g ∈ e.turnGenerations,
    g ≤ t.generation ∧ ∀ k, t.early = some k → g < k
  increasing : log.Pairwise fun e e' => ∀ g ∈ e.turnGenerations, ∀ g' ∈ e'.turnGenerations, g < g'

/-- An entry without turns. -/
theorem Tracks.append {t t' : Turns} {log : List Entry} {e : Entry} (h : Tracks t log)
    (hcount : t'.generation = t.generation + e.cancellations.length)
    (hlast : ∀ d, e.cancellations.getLast? = some d → d.generation = (t'.generation : ℤ))
    (hearly : ∀ k, t'.early = some k → t.early = some k ∨ k = t.generation + 1 ∧ k ≤ t'.generation)
    (hturns : ∀ g ∈ e.turnGenerations, g ≤ t'.generation ∧ t'.early = none ∧
      ((t.generation : ℤ) < g ∨ ∃ k, t.early = some k ∧ g = k)) : Tracks t' (log ++ [e]) := by
  have hle : t.generation ≤ t'.generation := by omega
  constructor
  · rw [cancellations_append_singleton, List.length_append, ← h.count]
    exact hcount
  · rw [lastCancelled_append_singleton, h.last]
    cases hd : e.cancellations.getLast? with
    | none =>
      rw [List.getLast?_eq_none_iff.mp hd, List.length_nil, Nat.add_zero] at hcount
      rw [hcount]
      rfl
    | some d =>
      have hpos : e.cancellations.length ≠ 0 := by
        intro hzero
        rw [List.length_eq_zero_iff.mp hzero] at hd
        cases hd
      rw [Option.map_some, Option.some_or, hlast d hd, if_neg (by omega)]
  · intro k hk
    rcases hearly k hk with hold | ⟨rfl, hnew⟩
    · obtain ⟨hone, hmax⟩ := h.earlyTaken k hold
      exact ⟨hone, by omega⟩
    · exact ⟨by omega, hnew⟩
  · intro e' he' g hg
    rcases List.mem_append.mp he' with he' | he'
    · obtain ⟨hmax, hlt⟩ := h.admitted e' he' g hg
      refine ⟨by omega, ?_⟩
      intro k hk
      rcases hearly k hk with hold | ⟨rfl, -⟩
      · exact hlt k hold
      · omega
    · obtain rfl := List.mem_singleton.mp he'
      obtain ⟨hmax, hnone, -⟩ := hturns g hg
      refine ⟨hmax, ?_⟩
      intro k hk
      rw [hnone] at hk
      cases hk
  · rw [List.pairwise_append]
    refine ⟨h.increasing, List.pairwise_singleton _ _, ?_⟩
    intro e' he' e'' he'' g hg g' hg'
    obtain rfl := List.mem_singleton.mp he''
    obtain ⟨hmax, hlt⟩ := h.admitted e' he' g hg
    obtain ⟨-, -, hnew | ⟨k, hk, rfl⟩⟩ := hturns g' hg'
    · omega
    · exact hlt k hk

theorem Turns.next_of_lt {t : Turns} (h : t.generation + 1 < 2 ^ 63) :
    t.next = t.generation + 1 := by
  unfold Turns.next u64Max
  omega

/-- A move of a run with fewer than 2^63 cancellations. -/
theorem Tracks.move {t t' : Turns} {log : List Entry} {e : Entry} (h : Tracks t log)
    (hmove : Move t e.callback t' e.outputs)
    (hbound : (cancellations (log ++ [e])).length < 2 ^ 63) : Tracks t' (log ++ [e]) := by
  rw [cancellations_append_singleton, List.length_append, ← h.count] at hbound
  obtain ⟨before, callback, outputs⟩ := e
  unfold Entry.cancellations at hbound
  simp only at hmove hbound
  cases hmove with
  | activity input hstart =>
    exact h.append rfl nofun (fun k hk => .inl hk) nofun
  | activityStart input hstart =>
    exact h.append rfl nofun nofun nofun
  | preview input =>
    exact h.append rfl nofun (fun k hk => .inl hk) nofun
  | ignored input turnId reason =>
    exact h.append rfl nofun nofun nofun
  | earlyCancel input turnId hopen hearly =>
    have hlt : t.generation + 1 < 2 ^ 63 := hbound
    have hnext := Turns.next_of_lt hlt
    refine h.append hnext ?_ ?_ nofun
    · intro d hd
      cases hd
      exact clampI64_of_lt (by omega)
    · intro k hk
      cases hk
      exact .inr ⟨hnext, Nat.le_refl _⟩
  | interrupt turnId =>
    have hlt : t.generation + 1 < 2 ^ 63 := hbound
    have hnext := Turns.next_of_lt hlt
    refine h.append hnext ?_ (fun k hk => .inl hk) nofun
    intro d hd
    cases hd
    exact clampI64_of_lt (by omega)
  | admittedEarly input turnId generation text hearly =>
    obtain ⟨hone, hmax⟩ := h.earlyTaken generation hearly
    have hlt : t.generation < 2 ^ 63 := hbound
    refine h.append rfl nofun nofun ?_
    intro g hg
    have hclamp : clampI64 generation = generation := clampI64_of_lt (by omega)
    obtain rfl : g = generation := by
      simpa [Entry.turnGenerations, admittedOutputs_turnGeneration, hclamp] using hg
    refine ⟨?_, rfl, .inr ⟨generation, hearly, rfl⟩⟩
    change (generation : ℤ) ≤ t.generation
    omega
  | admittedNew input turnId text hearly =>
    have hlt : t.generation + 1 < 2 ^ 63 := hbound
    have hnext := Turns.next_of_lt hlt
    refine h.append hnext ?_ nofun ?_
    · intro d hd
      cases hd
      exact clampI64_of_lt (by omega)
    · intro g hg
      have hclamp : clampI64 t.next = t.next := clampI64_of_lt (by omega)
      replace hg : g ∈ [clampI64 t.next, clampI64 t.next] := hg
      obtain rfl : g = t.next := by simpa [hclamp] using hg
      exact ⟨Int.le_refl _, rfl, .inl (by omega)⟩

section Run

variable {toLowercase : Char → Text} {s : State}

theorem Tracks.init {t : Turns} (hgeneration : t.generation = 0) (hearly : t.early = none) :
    Tracks t [] := by
  constructor
  · exact hgeneration
  · rw [hgeneration]
    rfl
  · intro k hk
    rw [hearly] at hk
    cases hk
  · exact List.forall_mem_nil _
  · exact List.Pairwise.nil

/-- The run lemma: the generations of a run with fewer than 2^63 cancellations. -/
theorem reachable_tracks (hr : (controllerSystem toLowercase).Reachable s)
    (hbound : (cancellations s.log).length < 2 ^ 63) : Tracks s.controller.turns s.log := by
  revert hbound
  refine hr.invariant (I := fun s => (cancellations s.log).length < 2 ^ 63 →
    Tracks s.controller.turns s.log) ?_ ?_
  · rintro s ⟨⟨hgeneration, -, -, -, hearly⟩, hlog⟩ -
    rw [hlog]
    exact Tracks.init hgeneration hearly
  · intro s a s' _ ih hstep hbound
    obtain ⟨outputs, hlog, hmove⟩ := step_entry hstep
    rw [hlog] at hbound ⊢
    have hcount := hbound
    rw [cancellations_append_singleton, List.length_append] at hcount
    exact (ih (by omega)).move hmove hbound

/-- An admitted turn has the latest generation, unless an interrupt has taken one after the preview
that took the turn's. -/
theorem Tracks.admitted_iff {t t' : Turns} {log : List Entry} {e : Entry} (h : Tracks t log)
    (hmove : Move t e.callback t' e.outputs)
    (hbound : (cancellations (log ++ [e])).length < 2 ^ 63) {g : ℤ} (hg : g ∈ e.turnGenerations) :
    lastCancelled (log ++ [e]) = some g ↔ t.early = none ∨ t.early = some t.generation := by
  rw [cancellations_append_singleton, List.length_append, ← h.count] at hbound
  obtain ⟨before, callback, outputs⟩ := e
  unfold Entry.cancellations at hbound
  rw [lastCancelled_append_singleton, h.last]
  simp only at hmove hbound
  cases hmove with
  | activity input hstart => cases hg
  | activityStart input hstart => cases hg
  | preview input => cases hg
  | ignored input turnId reason => cases hg
  | earlyCancel input turnId hopen hearly => cases hg
  | interrupt turnId => cases hg
  | admittedEarly input turnId generation text hearly =>
    obtain ⟨hone, hmax⟩ := h.earlyTaken generation hearly
    have hlt : t.generation < 2 ^ 63 := hbound
    have hclamp : clampI64 generation = generation := clampI64_of_lt (by omega)
    obtain rfl : g = generation := by
      simpa [Entry.turnGenerations, admittedOutputs_turnGeneration, hclamp] using hg
    rw [if_neg (by omega), hearly]
    simp only [Entry.cancellations, admittedOutputs_cancellation, List.getLast?_nil, Option.map_none,
      Option.none_or, Option.some.injEq, Int.natCast_inj, reduceCtorEq, false_or]
    exact eq_comm
  | admittedNew input turnId text hearly =>
    have hlt : t.generation + 1 < 2 ^ 63 := hbound
    have hnext := Turns.next_of_lt hlt
    have hclamp : clampI64 t.next = t.next := clampI64_of_lt (by omega)
    replace hg : g ∈ [clampI64 t.next, clampI64 t.next] := hg
    obtain rfl : g = t.next := by simpa [hclamp] using hg
    simp [Entry.cancellations, Output.cancellation, admittedOutputs_cancellation, decisionPayload,
      hclamp, hearly]

/-- In every run with fewer than 2^63 cancellations the generations of admitted turns increase; and
a turn's generation is the latest cancelled one exactly when no interrupt came after the preview
that took it. -/
theorem turn_generations (hr : (controllerSystem toLowercase).Reachable s)
    (hbound : (cancellations s.log).length < 2 ^ 63) :
    s.log.Pairwise (fun e e' =>
        ∀ g ∈ e.turnGenerations, ∀ g' ∈ e'.turnGenerations, g < g') ∧
      EachEntry (fun before e => ∀ g ∈ e.turnGenerations,
        (lastCancelled (before ++ [e]) = some g ↔
          e.before.earlyCancelGeneration = none ∨
            e.before.earlyCancelGeneration = some e.before.generation)) s.log := by
  refine ⟨(reachable_tracks hr hbound).increasing, ?_⟩
  have heach := hr.eachEntry State.log
    (P := fun before e => (cancellations (before ++ [e])).length < 2 ^ 63 →
      ∀ g ∈ e.turnGenerations, (lastCancelled (before ++ [e]) = some g ↔
        e.before.earlyCancelGeneration = none ∨
          e.before.earlyCancelGeneration = some e.before.generation))
    (fun s (h : (controllerSystem toLowercase).init s) => h.2) (by
      intro s a s' hs hstep
      obtain ⟨outputs, hlog, hmove⟩ := step_entry hstep
      refine .inr ⟨_, hlog, ?_⟩
      intro hbound g hg
      have hcount := hbound
      rw [cancellations_append_singleton, List.length_append] at hcount
      exact (reachable_tracks hs (by omega)).admitted_iff hmove hbound hg)
  intro before e after hlog
  apply heach before e after hlog
  rw [hlog, show before ++ e :: after = (before ++ [e]) ++ after by simp] at hbound
  unfold cancellations at hbound ⊢
  rw [List.flatMap_append, List.length_append] at hbound
  omega

/-- With early cancellation on the first preview. -/
def eager : VoiceTurnController where
  ignoreFillers := true
  minimumCharacters := 1
  earlyCancelPreviewHits := 1
  allowlist := []
  ignored := []
  generation := 0
  previewWindowOpen := false
  previewCandidate := none
  previewHits := 0
  earlyCancelGeneration := none

def permissive : Context := fun _ _ => none

def asciiLowercase (c : Char) : Text := [c.toLower]

def utterance (interrupts : List ℕ) : List (Callback × Context) :=
  (Callback.process .activityIn (some ⟨1, .event true⟩), permissive) ::
    (Callback.process .previewIn (some ⟨2, .text ['h', 'i']⟩), permissive) ::
    interrupts.map (fun turnId => (Callback.signal turnId, permissive)) ++
    [(Callback.process .transcriptIn (some ⟨3, .text ['h', 'i']⟩), permissive)]

theorem turn_generations_utterance : ∃ s, (controllerSystem asciiLowercase).Reachable s ∧
    s.log.Pairwise (fun e e' =>
      ∀ g ∈ e.turnGenerations, ∀ g' ∈ e'.turnGenerations, g < g') ∧
    lastCancelled s.log = some 1 := by
  obtain ⟨s, hs, htest⟩ := exists_reachable_of_run (M := controllerSystem asciiLowercase)
    (s := ⟨eager, []⟩) ⟨⟨rfl, rfl, rfl, rfl, rfl⟩, rfl⟩ (utterance [])
    (fun s => (cancellations s.log).length < 2 && lastCancelled s.log = some 1) (by decide +kernel)
  simp only [Bool.and_eq_true, decide_eq_true_eq] at htest
  exact ⟨s, hs, (turn_generations hs (by omega)).1, htest.2⟩

/-- An interrupt between the preview and its transcript: the admitted turn is older than the last
cancellation. -/
theorem turn_generations_interrupted : ∃ s, (controllerSystem asciiLowercase).Reachable s ∧
    ((cancellations s.log).length = 2 ∧ lastCancelled s.log = some 2 ∧
      (s.log.getLast?.map Entry.turnGenerations = some [1, 1])) := by
  obtain ⟨s, hs, htest⟩ := exists_reachable_of_run (M := controllerSystem asciiLowercase)
    (s := ⟨eager, []⟩) ⟨⟨rfl, rfl, rfl, rfl, rfl⟩, rfl⟩ (utterance [7])
    (fun s => (cancellations s.log).length = 2 && (lastCancelled s.log = some 2 &&
      s.log.getLast?.map Entry.turnGenerations = some [1, 1])) (by decide +kernel)
  simp only [Bool.and_eq_true, decide_eq_true_eq] at htest
  exact ⟨s, hs, htest⟩

end Run

end Muxiva.Turn
