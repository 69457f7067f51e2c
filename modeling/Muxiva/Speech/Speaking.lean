import Muxiva.Speech.Format
import Muxiva.Speech.Race

/-! `SpeechFormatter` with what `format_chunk` makes of its chunks: the texts it emits. -/
set_option linter.all false
namespace Muxiva.Speech

structure SpokenFormatter where
  formatter : SpeechFormatter
  config : FormatterConfig
  format : Format Char

/-- The chunks among the entries of a log. -/
def handed (log : Log) : List Text :=
  log.filterMap fun entry =>
    match entry.2 with
    | .handed text => some text
    | .trimmed _ | .cleared _ => none

/-- What a response is cut into, from pending text on: each fragment is drained, and the completion
flushes. -/
def ChunkLimits.cutFrom (limits : ChunkLimits) (pending : Text) : List Text → List Text
  | [] => (limits.drain true pending).1
  | fragment :: fragments =>
    let (chunks, rest) := limits.drain false (pending ++ fragment)
    chunks ++ limits.cutFrom rest fragments

def ChunkLimits.cut (limits : ChunkLimits) (fragments : List Text) : List Text :=
  limits.cutFrom [] fragments

namespace SpokenFormatter

variable (self : SpokenFormatter)

def emit (format : Format Char) (step : SpeechFormatter × Log) : SpokenFormatter × List Text :=
  let (format, emitted) := emitChunks self.config format (handed step.2)
  ({ self with formatter := step.1, format }, emitted)

/-- The format as the next input meets it: text of another sequence begins with a fresh one. -/
def formatFor (port : InputPort) (input : Option Input) : Format Char :=
  if port = .textIn && input.any fun input => self.formatter.activeSequence ≠ some input.sequenceId
  then .fresh else self.format

def onProcess (port : InputPort) (input : Option Input) :
    Except MuxivaError (SpokenFormatter × List Text) :=
  match self.formatter.onProcess port input with
  | .error e => .error e
  | .ok step => .ok (self.emit (self.formatFor port input) step)

/-- A cancellation. -/
def onSignal : SpokenFormatter :=
  { self with formatter := self.formatter.onSignal.1, format := .fresh }

/-- Inputs one after another, and the texts emitted. -/
def run (self : SpokenFormatter) :
    List (InputPort × Input) → Except MuxivaError (SpokenFormatter × List Text)
  | [] => .ok (self, [])
  | (port, input) :: rest =>
    match self.onProcess port (some input) with
    | .error e => .error e
    | .ok (self, emitted) =>
      match run self rest with
      | .error e => .error e
      | .ok (self, behind) => .ok (self, emitted ++ behind)

end SpokenFormatter

/-- The text frames of a sequence and its completion. -/
def response (sequence : ℕ) (fragments : List Text) : List (InputPort × Input) :=
  fragments.map (fun text => (InputPort.textIn, ⟨sequence, .text text⟩)) ++
    [(InputPort.eventIn, ⟨sequence, .event .responseCompleted⟩)]

theorem emitChunks_append {α : Type} [Letter α] (config : FormatterConfig) (s : Format α)
    (a b : List (List α)) :
    emitChunks config s (a ++ b) =
      ((emitChunks config (emitChunks config s a).1 b).1,
        (emitChunks config s a).2 ++ (emitChunks config (emitChunks config s a).1 b).2) := by
  induction a generalizing s with
  | nil => rfl
  | cons chunk chunks ih =>
    simp only [List.cons_append, emitChunks, ih]
    split_ifs <;> rfl

theorem handed_chunks (sequence : ℕ) (chunks : List Text) :
    handed (chunks.map fun chunk => (sequence, .handed chunk)) = chunks := by
  simp [handed, List.filterMap_map]

theorem handed_append (a b : Log) : handed (a ++ b) = handed a ++ handed b := List.filterMap_append

theorem handed_clearedLog (self : SpeechFormatter) : handed self.clearedLog = [] := by
  unfold SpeechFormatter.clearedLog
  cases self.activeSequence <;> rfl

section Cut

variable (limits : ChunkLimits)

theorem ChunkLimits.cutFrom_spec (fragments : List Text) (pending : Text) :
    (∃ dropped, Blank dropped ∧
      (limits.cutFrom pending fragments).flatten ++ dropped = pending ++ fragments.flatten) ∧
      ∀ chunk ∈ limits.cutFrom pending fragments, chunk ≠ [] := by
  induction fragments generalizing pending with
  | nil =>
    obtain ⟨⟨dropped, hblank, -, htext⟩, hbounded, -, hflushed⟩ := limits.drained true pending
    rw [hflushed rfl, List.append_nil] at htext
    refine ⟨⟨dropped, hblank, ?_⟩, fun chunk hchunk => (hbounded chunk hchunk).1⟩
    rw [cutFrom, htext]
    simp
  | cons fragment fragments ih =>
    obtain ⟨⟨kept, -, hkept, htext⟩, hbounded, -, -⟩ := limits.drained false (pending ++ fragment)
    obtain ⟨⟨dropped, hblank, hrest⟩, hcut⟩ := ih (limits.drain false (pending ++ fragment)).2
    rw [hkept rfl, List.append_nil] at htext
    unfold cutFrom
    dsimp only
    refine ⟨⟨dropped, hblank, ?_⟩, fun chunk hchunk => ?_⟩
    · rw [List.flatten_append, List.append_assoc, hrest, ← List.append_assoc, htext,
        List.flatten_cons, List.append_assoc]
    · rcases List.mem_append.mp hchunk with hchunk | hchunk
      · exact (hbounded chunk hchunk).1
      · exact hcut chunk hchunk

theorem ChunkLimits.cut_nil : limits.cut [] = [] := by
  obtain ⟨⟨dropped, -, htext⟩, hne⟩ := limits.cutFrom_spec [] []
  have hflat : (limits.cut []).flatten = [] := (List.append_eq_nil_iff.mp htext).1
  rw [List.flatten_eq_nil_iff] at hflat
  exact List.eq_nil_iff_forall_not_mem.mpr fun chunk hchunk => hne chunk hchunk (hflat chunk hchunk)

end Cut

namespace SpokenFormatter

variable {self : SpokenFormatter} {sequence : ℕ}

/-- The node after the chunks cut off its pending text. -/
def spoke (self : SpokenFormatter) (chunks : List Text) (rest : Text) : SpokenFormatter :=
  { self with
    formatter := { self.formatter with pendingText := rest }
    format := (emitChunks self.config self.format chunks).1 }

/-- A text of the active sequence. -/
theorem onProcess_text (h : self.formatter.activeSequence = some sequence) (text : Text) :
    self.onProcess .textIn (some ⟨sequence, .text text⟩) =
      .ok (self.spoke
          (self.formatter.limits.drain false (self.formatter.pendingText ++ text)).1
          (self.formatter.limits.drain false (self.formatter.pendingText ++ text)).2,
        (emitChunks self.config self.format
          (self.formatter.limits.drain false (self.formatter.pendingText ++ text)).1).2) := by
  have hformat : self.formatFor .textIn (some ⟨sequence, .text text⟩) = self.format := by
    simp [formatFor, h]
  simp only [onProcess, SpeechFormatter.onProcess, hformat, emit,
    self.formatter.processText_active h, handed_chunks]
  rfl

theorem onProcess_completed (h : self.formatter.activeSequence = some sequence) :
    ∃ next, self.onProcess .eventIn (some ⟨sequence, .event .responseCompleted⟩) =
      .ok (next, (emitChunks self.config self.format
        (self.formatter.limits.drain true self.formatter.pendingText).1).2) := by
  have hformat : self.formatFor .eventIn (some ⟨sequence, .event .responseCompleted⟩) =
      self.format := by simp [formatFor]
  simp only [onProcess, SpeechFormatter.onProcess, hformat, emit,
    self.formatter.processEvent_completed h, handed_append, handed_chunks]
  have hnone (text : Text) : handed [(sequence, Piece.trimmed text)] = [] := rfl
  rw [hnone, List.append_nil]
  exact ⟨_, rfl⟩

/-- The node with a fresh format and nothing pending. -/
def begun (self : SpokenFormatter) (sequence : ℕ) : SpokenFormatter :=
  { self with
    formatter := { self.formatter with activeSequence := some sequence, pendingText := [] }
    format := .fresh }

/-- The first text of a sequence is processed as by a node that has begun it. -/
theorem onProcess_begin (h : self.formatter.activeSequence ≠ some sequence) (text : Text) :
    self.onProcess .textIn (some ⟨sequence, .text text⟩) =
      (self.begun sequence).onProcess .textIn (some ⟨sequence, .text text⟩) := by
  have hactive : (self.begun sequence).formatter.activeSequence = some sequence := rfl
  have hformat : self.formatFor .textIn (some ⟨sequence, .text text⟩) = .fresh := by
    simp [formatFor, h]
  rw [onProcess_text hactive]
  simp only [onProcess, SpeechFormatter.onProcess, hformat, emit,
    self.formatter.processText_begin h, handed_append, handed_clearedLog, handed_chunks]
  rfl

theorem run_active (h : self.formatter.activeSequence = some sequence) (fragments : List Text) :
    ∃ next, self.run (response sequence fragments) =
      .ok (next, (emitChunks self.config self.format
        (self.formatter.limits.cutFrom self.formatter.pendingText fragments)).2) := by
  induction fragments generalizing self with
  | nil =>
    obtain ⟨next, hnext⟩ := onProcess_completed h
    refine ⟨next, ?_⟩
    unfold response run
    rw [List.map_nil, List.nil_append]
    dsimp only
    rw [hnext]
    simp [run, ChunkLimits.cutFrom]
  | cons text fragments ih =>
    have hspoke : (self.spoke
        (self.formatter.limits.drain false (self.formatter.pendingText ++ text)).1
        (self.formatter.limits.drain false (self.formatter.pendingText ++ text)).2
      ).formatter.activeSequence = some sequence := h
    obtain ⟨next, hnext⟩ := ih hspoke
    refine ⟨next, ?_⟩
    have hsplit : response sequence (text :: fragments) =
        (.textIn, ⟨sequence, .text text⟩) :: response sequence fragments := rfl
    rw [hsplit, run, onProcess_text h]
    dsimp only
    rw [hnext, ChunkLimits.cutFrom, emitChunks_append]
    rfl

/-- The texts of a new sequence and its completion: what is emitted is what `format_chunk` makes of
the chunks from a fresh format on. -/
theorem run_response (h : self.formatter.activeSequence ≠ some sequence) (fragments : List Text) :
    ∃ next, self.run (response sequence fragments) =
      .ok (next, (emitChunks self.config .fresh (self.formatter.limits.cut fragments)).2) := by
  cases fragments with
  | nil =>
    have hformat : self.formatFor .eventIn (some ⟨sequence, .event .responseCompleted⟩) =
        self.format := by simp [formatFor]
    have hignored : self.formatter.processEvent sequence .responseCompleted =
        (self.formatter, []) := self.formatter.processEvent_ignored nofun (Or.inl h)
    have hevent : self.onProcess .eventIn (some ⟨sequence, .event .responseCompleted⟩) =
        .ok (self, []) := by
      simp only [onProcess, SpeechFormatter.onProcess, hformat, emit, hignored]
      rfl
    refine ⟨self, ?_⟩
    rw [ChunkLimits.cut_nil]
    change self.run [(.eventIn, ⟨sequence, .event .responseCompleted⟩)] = .ok (self, [])
    rw [run, hevent]
    rfl
  | cons text fragments =>
    have hactive : (self.begun sequence).formatter.activeSequence = some sequence := rfl
    obtain ⟨next, hnext⟩ := run_active hactive (text :: fragments)
    refine ⟨next, ?_⟩
    have hsplit : response sequence (text :: fragments) =
        (.textIn, ⟨sequence, .text text⟩) :: response sequence fragments := rfl
    rw [hsplit, run] at hnext ⊢
    rw [onProcess_begin h, hnext]
    rfl

end SpokenFormatter

end Muxiva.Speech
