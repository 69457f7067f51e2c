import Mathlib.Algebra.GroupWithZero.Nat
import Mathlib.Data.Finset.Basic
import Mathlib.Data.List.Range
import Muxiva.Lib.Text

/-! `TraceSession`: the entries of a run, split into turns. A new turn takes the end of the turn
before it along, so the entries of all turns in their order are the entries in the order they came. -/
set_option linter.all false
namespace Muxiva.Studio

def maxEntries : ℕ := 10000
def maxSessionPayloadBytes : ℕ := 4 * 1024 * 1024

/-- `payload` is the payload as it is serialised. -/
structure TraceEntry where
  ordinal : ℕ
  elapsedMs : ℕ
  name : Text
  payload : List UInt8
  sequence : ℕ
  traceId : Text
  deriving DecidableEq, Repr

/-- A turn, with the marker that opened or relabelled it, which nothing reads. -/
structure TurnTrace where
  id : String
  ordinal : ℕ
  label : String
  startedMs : ℕ
  entries : List TraceEntry
  marker : Option Text
  deriving DecidableEq, Repr

/-- Only `droppedEntries` is not bounded by the limits. -/
structure TraceSession where
  nextEntry : ℕ
  nextTurn : ℕ
  payloadBytes : ℕ
  droppedEntries : ℕ
  truncated : Bool
  turnMarkers : Finset Text
  turns : List TurnTrace

def turnLabel (name : Text) : String :=
  if ".speech.started".toList.isSuffixOf name then "Speech turn" else "Turn"

/-- The position of the last element with `p`. -/
def rposition {α : Type*} (p : α → Bool) (xs : List α) : Option ℕ :=
  (xs.reverse.findIdx? p).map fun i => xs.length - 1 - i

namespace TraceSession

def new : TraceSession where
  nextEntry := 0
  nextTurn := 0
  payloadBytes := 0
  droppedEntries := 0
  truncated := false
  turnMarkers := ∅
  turns := []

variable (s : TraceSession) (entry : TraceEntry)

/-- Where the entries of `previous` begin that go to the turn `entry` starts. -/
def splitAt (entry : TraceEntry) (previous : TurnTrace) : ℕ :=
  match rposition (fun candidate : TraceEntry =>
      candidate.sequence != entry.sequence && candidate.traceId != entry.traceId)
      previous.entries with
  | none => 0
  | some index => index + 1

/-- The turns with the last one cut, and what was cut off. -/
def carry : List TurnTrace × List TraceEntry :=
  match s.turns.getLast? with
  | none => ([], [])
  | some previous =>
    let at_ := splitAt entry previous
    (s.turns.dropLast ++ [{ previous with entries := previous.entries.take at_ }],
      previous.entries.drop at_)

def openTurn (marker : Text) : TraceSession :=
  let (turns, carried) := s.carry entry
  { s with
    nextTurn := s.nextTurn + 1
    turns := turns ++ [{
      id := "turn-" ++ toString (s.nextTurn + 1)
      ordinal := s.nextTurn + 1
      label := turnLabel entry.name
      startedMs := (carried.head?.map (·.elapsedMs)).getD entry.elapsedMs
      entries := carried
      marker := some marker }] }

/-- What a marker that was not seen before does. -/
def mark (marker : Text) : TraceSession :=
  match s.turns with
  | [turn] =>
    if turn.label = "Session flow" then
      { s with turns := [{ turn with label := turnLabel entry.name, marker := some marker }] }
    else s.openTurn entry marker
  | _ => s.openTurn entry marker

def startTurn (turnStart : Option Text) : TraceSession :=
  match turnStart with
  | none => s
  | some marker =>
    if marker ∈ s.turnMarkers then s
    else { s with turnMarkers := insert marker s.turnMarkers }.mark entry marker

def ensureTurn : TraceSession :=
  if s.turns = [] then
    { s with
      nextTurn := 1
      turns := [⟨"turn-1", 1, "Session flow", entry.elapsedMs, [], none⟩] }
  else s

/-- Pushes onto the last turn. -/
def push : TraceSession :=
  match s.turns.getLast? with
  | none => s
  | some turn =>
    { s with
      nextEntry := s.nextEntry + 1
      payloadBytes := s.payloadBytes + entry.payload.length
      turns := s.turns.dropLast ++
        [{ turn with entries := turn.entries ++ [{ entry with ordinal := s.nextEntry + 1 }] }] }

def append (turnStart : Option Text) : TraceSession :=
  if maxEntries ≤ s.nextEntry ∨ maxSessionPayloadBytes ≤ s.payloadBytes then
    { s with droppedEntries := s.droppedEntries + 1, truncated := true }
  else ((s.startTurn entry turnStart).ensureTurn entry).push entry

def entries : List TraceEntry := s.turns.flatMap (·.entries)

/-- The markers that opened a turn. -/
def markers : List Text := s.turns.filterMap (·.marker)

end TraceSession

open TraceSession

variable {s : TraceSession}

theorem turnLabel_ne (name : Text) : turnLabel name ≠ "Session flow" := by
  unfold turnLabel
  split_ifs <;> decide

/-- What holds of a session after `n` calls of `append`. -/
structure TraceSession.Sound (n : ℕ) (s : TraceSession) : Prop where
  ordinals : s.entries.map (·.ordinal) = List.range' 1 s.nextEntry
  bounded : s.nextEntry ≤ maxEntries
  appends : s.nextEntry + s.droppedEntries = n
  payload : s.payloadBytes = (s.entries.map (·.payload.length)).sum
  turns : s.turns.map (·.ordinal) = List.range' 1 s.nextTurn
  known : ∀ marker ∈ s.markers, marker ∈ s.turnMarkers
  nodup : s.markers.Nodup
  unmarked : ∀ turn ∈ s.turns, turn.label = "Session flow" → turn.marker = none

theorem Sound.init : TraceSession.Sound 0 .new := by
  constructor <;> simp [TraceSession.new, TraceSession.entries, TraceSession.markers]

/-- A turn that carries its entries over leaves their order as it is. -/
theorem carry_entries (entry : TraceEntry) :
    (s.carry entry).1.flatMap (·.entries) ++ (s.carry entry).2 = s.entries := by
  unfold carry TraceSession.entries
  rcases s.turns.eq_nil_or_concat with hnil | ⟨init, previous, hturns⟩
  · simp [hnil]
  · simp [hturns]

theorem carry_ordinals (entry : TraceEntry) :
    (s.carry entry).1.map (·.ordinal) = s.turns.map (·.ordinal) := by
  unfold carry
  rcases s.turns.eq_nil_or_concat with hnil | ⟨init, previous, hturns⟩
  · simp [hnil]
  · simp [hturns]

theorem carry_markers (entry : TraceEntry) :
    (s.carry entry).1.filterMap (·.marker) = s.markers := by
  unfold carry TraceSession.markers
  rcases s.turns.eq_nil_or_concat with hnil | ⟨init, previous, hturns⟩
  · simp [hnil]
  · simp [hturns, List.filterMap_append, List.filterMap_cons]

/-- Cutting a turn leaves its label and its marker. -/
theorem carry_turns (entry : TraceEntry) {turn : TurnTrace} (hturn : turn ∈ (s.carry entry).1) :
    ∃ old ∈ s.turns, turn.label = old.label ∧ turn.marker = old.marker := by
  unfold carry at hturn
  rcases s.turns.eq_nil_or_concat with hnil | ⟨init, previous, hturns⟩
  · simp [hnil] at hturn
  · simp only [hturns, List.concat_eq_append, List.getLast?_concat, List.dropLast_concat,
      List.mem_append, List.mem_singleton] at hturn
    rcases hturn with hinit | hcut
    · exact ⟨turn, by simp [hturns, hinit], rfl, rfl⟩
    · subst hcut
      exact ⟨previous, by simp [hturns], rfl, rfl⟩

/-- Once there is a turn, `nextTurn` counts the turns. -/
theorem TraceSession.Sound.nextTurn_eq {n : ℕ} (h : s.Sound n) : s.nextTurn = s.turns.length := by
  have hlength := congrArg List.length h.turns
  simp at hlength
  omega

variable {n : ℕ} {entry : TraceEntry} {marker : Text}

theorem openTurn_entries : (s.openTurn entry marker).entries = s.entries := by
  have hcarry := carry_entries (s := s) entry
  simpa [openTurn, TraceSession.entries] using hcarry

theorem openTurn_markers : (s.openTurn entry marker).markers = s.markers ++ [marker] := by
  have hcarry := carry_markers (s := s) entry
  simp only [openTurn, TraceSession.markers, List.filterMap_append] at hcarry ⊢
  simp [hcarry]

/-- A marker that no turn has yet opens one. -/
theorem openTurn_sound (h : s.Sound n) (hknown : marker ∈ s.turnMarkers)
    (hfresh : marker ∉ s.markers) : (s.openTurn entry marker).Sound n where
  ordinals := by rw [openTurn_entries]; exact h.ordinals
  bounded := h.bounded
  appends := h.appends
  payload := by rw [openTurn_entries]; exact h.payload
  turns := by
    have hcarry := carry_ordinals (s := s) entry
    simp only [openTurn, List.map_append, hcarry, h.turns, List.map_cons, List.map_nil]
    rw [List.range'_concat]
    simp [Nat.add_comm]
  known := by
    intro other hother
    rw [openTurn_markers, List.mem_append, List.mem_singleton] at hother
    rcases hother with hold | hnew
    · exact h.known other hold
    · subst hnew
      exact hknown
  nodup := by
    rw [openTurn_markers]
    exact List.nodup_append.mpr ⟨h.nodup, List.nodup_singleton marker, by
      intro a ha b hb
      have hb : b = marker := List.mem_singleton.mp hb
      subst hb
      exact fun hab => hfresh (hab ▸ ha)⟩
  unmarked := by
    intro turn hturn hlabel
    simp only [openTurn, List.mem_append, List.mem_singleton] at hturn
    rcases hturn with hold | hnew
    · obtain ⟨old, hmem, hsame, hmarker⟩ := carry_turns entry hold
      rw [hmarker]
      exact h.unmarked old hmem (hsame ▸ hlabel)
    · subst hnew
      exact absurd hlabel (turnLabel_ne entry.name)

/-- The first turn had no marker, so it can take this one. -/
theorem mark_sound (h : s.Sound n) (hknown : marker ∈ s.turnMarkers)
    (hfresh : marker ∉ s.markers) : (s.mark entry marker).Sound n := by
  unfold mark
  split
  · rename_i turn hturns
    split_ifs with hlabel
    · have hnone : turn.marker = none := h.unmarked turn (by simp [hturns]) hlabel
      have hordinals := h.ordinals
      have hpayload := h.payload
      have hordinal := h.turns
      simp only [TraceSession.entries, hturns, List.flatMap_cons, List.flatMap_nil,
        List.append_nil, List.map_cons, List.map_nil] at hordinals hpayload hordinal
      constructor
      · simpa [TraceSession.entries] using hordinals
      · exact h.bounded
      · exact h.appends
      · simpa [TraceSession.entries] using hpayload
      · simpa using hordinal
      · simpa [TraceSession.markers] using hknown
      · simp [TraceSession.markers]
      · intro other hother hsession
        have hother : other = _ := List.mem_singleton.mp hother
        subst hother
        exact absurd hsession (turnLabel_ne entry.name)
    · exact openTurn_sound h hknown hfresh
  · exact openTurn_sound h hknown hfresh

theorem startTurn_sound (h : s.Sound n) (turnStart : Option Text) :
    (s.startTurn entry turnStart).Sound n := by
  unfold startTurn
  cases turnStart with
  | none => exact h
  | some marker =>
    dsimp only
    split_ifs with hseen
    · exact h
    · have hinsert : TraceSession.Sound n { s with turnMarkers := insert marker s.turnMarkers } :=
        { h with
          known := fun other hother => Finset.mem_insert_of_mem (h.known other hother) }
      refine mark_sound hinsert (Finset.mem_insert_self marker _) ?_
      exact fun hmem => hseen (h.known marker hmem)

theorem ensureTurn_sound (h : s.Sound n) : (s.ensureTurn entry).Sound n := by
  unfold ensureTurn
  split_ifs with hnil
  · have hordinals := h.ordinals
    have hpayload := h.payload
    simp only [TraceSession.entries, hnil, List.flatMap_nil, List.map_nil] at hordinals hpayload
    constructor
    · simpa [TraceSession.entries] using hordinals
    · exact h.bounded
    · exact h.appends
    · simpa [TraceSession.entries] using hpayload
    · simp
    · simp [TraceSession.markers]
    · simp [TraceSession.markers]
    · simp
  · exact h

theorem ensureTurn_turns : (s.ensureTurn entry).turns ≠ [] := by
  unfold ensureTurn
  split_ifs with hnil
  · simp
  · exact hnil

@[simp] theorem mark_nextEntry : (s.mark entry marker).nextEntry = s.nextEntry := by
  unfold mark openTurn
  split
  · split_ifs <;> rfl
  · rfl

/-- Turns are opened without an entry being recorded. -/
theorem turned_nextEntry (turnStart : Option Text) :
    ((s.startTurn entry turnStart).ensureTurn entry).nextEntry = s.nextEntry := by
  have hensure (t : TraceSession) : (t.ensureTurn entry).nextEntry = t.nextEntry := by
    unfold ensureTurn
    split_ifs <;> rfl
  rw [hensure]
  unfold startTurn
  cases turnStart with
  | none => rfl
  | some marker =>
    dsimp only
    split_ifs
    · rfl
    · rw [mark_nextEntry]

theorem push_sound (h : s.Sound n) (hturns : s.turns ≠ []) (hroom : s.nextEntry < maxEntries) :
    (s.push entry).Sound (n + 1) := by
  obtain hnil | ⟨init, turn, hlast⟩ := s.turns.eq_nil_or_concat
  · exact absurd hnil hturns
  have hordinals := h.ordinals
  have hpayload := h.payload
  have hordinal := h.turns
  have hknown := h.known
  have hnodup := h.nodup
  have hunmarked := h.unmarked
  have happends := h.appends
  simp only [TraceSession.entries, TraceSession.markers, hlast, List.concat_eq_append,
    List.flatMap_append, List.flatMap_cons, List.flatMap_nil, List.append_nil, List.map_append,
    List.filterMap_append, List.map_cons, List.map_nil] at hordinals hpayload hordinal hknown hnodup
  unfold push
  simp only [hlast, List.concat_eq_append, List.getLast?_concat, List.dropLast_concat]
  constructor
  · simp only [TraceSession.entries, List.flatMap_append, List.flatMap_cons, List.flatMap_nil,
      List.append_nil, List.map_append, List.map_cons, List.map_nil]
    rw [← List.append_assoc, hordinals, List.range'_concat]
    simp [Nat.add_comm]
  · exact hroom
  · show s.nextEntry + 1 + s.droppedEntries = n + 1
    omega
  · simp only [TraceSession.entries, List.flatMap_append, List.flatMap_cons, List.flatMap_nil,
      List.append_nil, List.map_append, List.map_cons, List.map_nil, List.sum_append,
      List.sum_cons, List.sum_nil] at hpayload ⊢
    omega
  · simpa using hordinal
  · simpa [TraceSession.markers, List.filterMap_cons] using hknown
  · simpa [TraceSession.markers, List.filterMap_cons] using hnodup
  · intro other hother hlabel
    simp only [List.mem_append, List.mem_singleton] at hother
    rcases hother with hold | hnew
    · exact hunmarked other (by simp [hlast, hold]) hlabel
    · subst hnew
      exact hunmarked turn (by simp [hlast]) hlabel

theorem append_sound (h : s.Sound n) (turnStart : Option Text) :
    (s.append entry turnStart).Sound (n + 1) := by
  have hbounded := h.bounded
  unfold append
  split_ifs with hfull
  · exact { h with appends := by have happends := h.appends; simp only; omega }
  · refine push_sound (ensureTurn_sound (startTurn_sound h turnStart)) ensureTurn_turns ?_
    rw [turned_nextEntry]
    omega

/-- What the appends of a list leave. -/
def TraceSession.appendAll (s : TraceSession) (calls : List (TraceEntry × Option Text)) :
    TraceSession :=
  calls.foldl (fun s call => s.append call.1 call.2) s

theorem appendAll_sound (calls : List (TraceEntry × Option Text)) (h : s.Sound n) :
    (s.appendAll calls).Sound (n + calls.length) := by
  induction calls generalizing s n with
  | nil => exact h
  | cons call calls ih =>
    have hstep := @append_sound _ _ call.1 h call.2
    have hrest := ih hstep
    rw [List.length_cons, show n + (calls.length + 1) = n + 1 + calls.length by omega]
    exact hrest

theorem splitting_lossless (calls : List (TraceEntry × Option Text)) :
    let s := TraceSession.new.appendAll calls
    (s.turns.flatMap (·.entries)).map (·.ordinal) = List.range' 1 s.nextEntry ∧
      s.nextEntry ≤ maxEntries ∧
      s.nextEntry + s.droppedEntries = calls.length ∧
      s.payloadBytes = ((s.turns.flatMap (·.entries)).map (·.payload.length)).sum ∧
      s.turns.map (·.ordinal) = List.range' 1 s.turns.length ∧
      (s.turns.filterMap (·.marker)).Nodup := by
  have h := appendAll_sound calls Sound.init
  have hturns := h.nextTurn_eq ▸ h.turns
  have happends := h.appends
  exact ⟨h.ordinals, h.bounded, by omega, h.payload, hturns, h.nodup⟩

end Muxiva.Studio
