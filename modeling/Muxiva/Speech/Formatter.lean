import Muxiva.Graph.Types
import Muxiva.Lib.System
import Muxiva.Speech.Segmentation

/-! `SpeechFormatter` between its two inputs, text on one edge and the events of the same responses
on another. What `format_chunk` makes of a chunk does not come back here; the log has the chunks it
is handed and the text that never gets there. -/
set_option linter.all false
namespace Muxiva.Speech

/-- The chunk limits as the configuration is checked. -/
structure ChunkLimits where
  minimum : ℕ
  maximum : ℕ
  ordered : 1 ≤ minimum ∧ minimum ≤ maximum

def shortLimits : ChunkLimits := ⟨1, 80, by decide⟩

theorem ChunkLimits.isSome_drain (limits : ChunkLimits) (flush : Bool) (buffer : Text) :
    (drainPresentableText limits.minimum limits.maximum flush buffer).isSome = true := by
  obtain ⟨chunks, rest, hdrain, -⟩ := drainPresentableText_spec limits.minimum
    (limits.ordered.1.trans limits.ordered.2) flush buffer
  rw [hdrain]
  rfl

/-- The chunks cut off a buffer and what stays in it. -/
def ChunkLimits.drain (limits : ChunkLimits) (flush : Bool) (buffer : Text) : List Text × Text :=
  (drainPresentableText limits.minimum limits.maximum flush buffer).get
    (limits.isSome_drain flush buffer)

theorem ChunkLimits.drained (limits : ChunkLimits) (flush : Bool) (buffer : Text) :
    Drained limits.maximum flush buffer (limits.drain flush buffer).1
      (limits.drain flush buffer).2 := by
  obtain ⟨chunks, rest, hdrain, hspec⟩ := drainPresentableText_spec limits.minimum
    (limits.ordered.1.trans limits.ordered.2) flush buffer
  have heq : limits.drain flush buffer = (chunks, rest) := by
    unfold ChunkLimits.drain
    rw [Option.get_of_eq_some _ hdrain]
  rw [heq]
  exact hspec

structure SpeechFormatter where
  limits : ChunkLimits
  activeSequence : Option ℕ
  pendingText : Text

/-- What becomes of text: it is handed to `format_chunk`, trimmed off by a flush, or cleared. -/
inductive Piece where
  | handed (text : Text)
  | trimmed (text : Text)
  | cleared (text : Text)
  deriving DecidableEq

def Piece.text : Piece → Text
  | .handed text => text
  | .trimmed text => text
  | .cleared text => text

/-- Pieces with their sequences. -/
abbrev Log := List (ℕ × Piece)

/-- The completed and the failed topics, each of which has three names. -/
inductive Topic where
  | responseCompleted
  | responseFailed
  | other
  deriving DecidableEq, Repr

inductive Payload where
  | text (text : Text)
  | event (topic : Topic)
  | other
  deriving DecidableEq

structure Input where
  sequenceId : ℕ
  payload : Payload
  deriving DecidableEq

inductive InputPort where
  | textIn
  | eventIn
  | unknown
  deriving DecidableEq, Repr

namespace SpeechFormatter

variable (self : SpeechFormatter)

def clearPending : SpeechFormatter := { self with pendingText := [] }

/-- The entry for pending text that is cleared. -/
def clearedLog : Log := self.activeSequence.elim [] fun active => [(active, .cleared self.pendingText)]

def beginSequence (sequence : ℕ) : SpeechFormatter × Log :=
  if self.activeSequence = some sequence then (self, [])
  else ({ self.clearPending with activeSequence := some sequence }, self.clearedLog)

def processText (sequence : ℕ) (text : Text) : SpeechFormatter × Log :=
  let (self, cleared) := self.beginSequence sequence
  let (chunks, rest) := self.limits.drain false (self.pendingText ++ text)
  ({ self with pendingText := rest }, cleared ++ chunks.map fun chunk => (sequence, .handed chunk))

def processEvent (sequence : ℕ) (topic : Topic) : SpeechFormatter × Log :=
  let sameSequence : Bool := self.activeSequence = some sequence
  if sameSequence && topic = .responseCompleted then
    let (chunks, rest) := self.limits.drain true self.pendingText
    ({ self with pendingText := rest },
      chunks.map (fun chunk => (sequence, .handed chunk)) ++
        [(sequence, .trimmed (self.pendingText.drop chunks.flatten.length))])
  else if sameSequence && topic = .responseFailed then (self.clearPending, self.clearedLog)
  else (self, [])

def onProcess (port : InputPort) (input : Option Input) :
    Except MuxivaError (SpeechFormatter × Log) :=
  let typeMismatch : MuxivaError :=
    ⟨.validation, "MUXIVA-FRM-TYPE-MISMATCH", "frame header, payload, or expected type differs"⟩
  match input with
  | none =>
    .error ⟨.internal, "MUXIVA-SPEECH-FORMATTER-INPUT", "speech formatter requires input"⟩
  | some input =>
    match port with
    | .textIn =>
      match input.payload with
      | .text text => .ok (self.processText input.sequenceId text)
      | _ => .error typeMismatch
    | .eventIn =>
      match input.payload with
      | .event topic => .ok (self.processEvent input.sequenceId topic)
      | _ => .error typeMismatch
    | .unknown =>
      .error ⟨.internal, "MUXIVA-SPEECH-FORMATTER-PORT",
        "speech formatter received an unknown input port"⟩

/-- A cancellation. -/
def onSignal : SpeechFormatter × Log :=
  ({ self.clearPending with activeSequence := none }, self.clearedLog)

end SpeechFormatter

/-- What the producer emits for one sequence: its texts, and on the other edge other events and
then the completion. -/
structure Response where
  sequence : ℕ
  texts : List Text
  otherEvents : ℕ

/-- The two edges, each in order, and the formatter. -/
structure Race where
  formatter : SpeechFormatter
  texts : List (ℕ × Text)
  events : List (ℕ × Topic)
  log : Log

def textEdge (plan : List Response) : List (ℕ × Text) :=
  plan.flatMap fun r => r.texts.map (r.sequence, ·)

def eventEdge (plan : List Response) : List (ℕ × Topic) :=
  plan.flatMap fun r =>
    List.replicate r.otherEvents (r.sequence, Topic.other) ++
      [(r.sequence, Topic.responseCompleted)]

/-- The edge whose head is processed next. -/
inductive Turn where
  | text
  | event
  deriving DecidableEq, Repr

def Race.step (s : Race) : Turn → Option Race
  | .text =>
    match s.texts with
    | [] => none
    | (sequence, text) :: texts =>
      match s.formatter.onProcess .textIn (some ⟨sequence, .text text⟩) with
      | .error _ => none
      | .ok (formatter, log) => some { s with formatter, texts, log := s.log ++ log }
  | .event =>
    match s.events with
    | [] => none
    | (sequence, topic) :: events =>
      match s.formatter.onProcess .eventIn (some ⟨sequence, .event topic⟩) with
      | .error _ => none
      | .ok (formatter, log) => some { s with formatter, events, log := s.log ++ log }

/-- The producer's plan on a fresh formatter. -/
def Race.start (limits : ChunkLimits) (plan : List Response) : Race :=
  ⟨⟨limits, none, []⟩, textEdge plan, eventEdge plan, []⟩

def raceSystem (limits : ChunkLimits) (plan : List Response) : Transition.System Race Turn where
  init s := s = Race.start limits plan
  step := Race.step

end Muxiva.Speech
