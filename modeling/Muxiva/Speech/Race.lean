import Muxiva.Speech.Formatter

/-! The race between text and completion. Every character is handed over, trimmed as white space,
cleared or still pending; nothing but white space is lost exactly when no completion overtakes text
that needs it and no sequence begins over the tail of another. -/
set_option linter.all false
namespace Muxiva.Speech

open Transition.System

/-- What the log says about the text of a sequence. -/
def piecesOf (q : ℕ) (log : Log) : Text := (log.filter (·.1 = q)).flatMap (·.2.text)

def textsOf (q : ℕ) (edge : List (ℕ × Text)) : List Text := (edge.filter (·.1 = q)).map (·.2)

def SpeechFormatter.pendingOf (self : SpeechFormatter) (q : ℕ) : Text :=
  if self.activeSequence = some q then self.pendingText else []

@[simp]
theorem piecesOf_append (q : ℕ) (log log' : Log) :
    piecesOf q (log ++ log') = piecesOf q log ++ piecesOf q log' := by
  simp [piecesOf]

theorem piecesOf_handed (q : ℕ) (chunks : List Text) :
    piecesOf q (chunks.map fun chunk => (q, Piece.handed chunk)) = chunks.flatten := by
  induction chunks with
  | nil => rfl
  | cons chunk chunks ih =>
    rw [List.map_cons, ← List.singleton_append, piecesOf_append, ih, List.flatten_cons]
    simp [piecesOf, Piece.text]

theorem piecesOf_other {q q' : ℕ} (h : q' ≠ q) (pieces : List Piece) :
    piecesOf q (pieces.map fun piece => (q', piece)) = [] := by
  simp [piecesOf, h]

theorem textsOf_cons (q q' : ℕ) (text : Text) (edge : List (ℕ × Text)) :
    textsOf q ((q', text) :: edge) = if q' = q then text :: textsOf q edge else textsOf q edge := by
  unfold textsOf
  split_ifs with h
  · simp [h]
  · simp [h]

theorem blank_nil : Blank [] := by simp [Blank]

section Steps

variable {s s' : Race}

/-- What a text does. -/
theorem step_text (h : s.step .text = some s') :
    ∃ sequence text texts, s.texts = (sequence, text) :: texts ∧
      s' = { s with
        formatter := (s.formatter.processText sequence text).1
        texts
        log := s.log ++ (s.formatter.processText sequence text).2 } := by
  obtain ⟨formatter, texts, events, log⟩ := s
  cases texts with
  | nil => cases h
  | cons head texts =>
    obtain ⟨sequence, text⟩ := head
    cases h
    exact ⟨sequence, text, texts, rfl, rfl⟩

theorem step_event (h : s.step .event = some s') :
    ∃ sequence topic events, s.events = (sequence, topic) :: events ∧
      s' = { s with
        formatter := (s.formatter.processEvent sequence topic).1
        events
        log := s.log ++ (s.formatter.processEvent sequence topic).2 } := by
  obtain ⟨formatter, texts, events, log⟩ := s
  cases events with
  | nil => cases h
  | cons head events =>
    obtain ⟨sequence, topic⟩ := head
    cases h
    exact ⟨sequence, topic, events, rfl, rfl⟩

end Steps

namespace SpeechFormatter

variable (self : SpeechFormatter)

/-- A text of the active sequence. -/
theorem processText_active {sequence : ℕ} (h : self.activeSequence = some sequence) (text : Text) :
    self.processText sequence text =
      ({ self with pendingText := (self.limits.drain false (self.pendingText ++ text)).2 },
        (self.limits.drain false (self.pendingText ++ text)).1.map
          fun chunk => (sequence, Piece.handed chunk)) := by
  simp [processText, beginSequence, h]

/-- The first text of a sequence. -/
theorem processText_begin {sequence : ℕ} (h : self.activeSequence ≠ some sequence) (text : Text) :
    self.processText sequence text =
      ({ self with
          activeSequence := some sequence
          pendingText := (self.limits.drain false text).2 },
        self.clearedLog ++
          (self.limits.drain false text).1.map fun chunk => (sequence, Piece.handed chunk)) := by
  simp [processText, beginSequence, h, clearPending]

theorem processEvent_completed {sequence : ℕ} (h : self.activeSequence = some sequence) :
    self.processEvent sequence .responseCompleted =
      ({ self with pendingText := [] },
        (self.limits.drain true self.pendingText).1.map
          (fun chunk => (sequence, Piece.handed chunk)) ++
          [(sequence, Piece.trimmed
            (self.pendingText.drop (self.limits.drain true self.pendingText).1.flatten.length))]) := by
  have hrest := (self.limits.drained true self.pendingText).flushed rfl
  simp [processEvent, h, hrest]

theorem processEvent_ignored {sequence : ℕ} {topic : Topic} (hfailed : topic ≠ .responseFailed)
    (h : self.activeSequence ≠ some sequence ∨ topic ≠ .responseCompleted) :
    self.processEvent sequence topic = (self, []) := by
  unfold processEvent
  rcases h with h | h
  · simp [h]
  · simp [h, hfailed]

end SpeechFormatter

theorem ChunkLimits.drain_false (limits : ChunkLimits) (buffer : Text) :
    (limits.drain false buffer).1.flatten ++ (limits.drain false buffer).2 = buffer := by
  obtain ⟨dropped, -, hnil, htext⟩ := (limits.drained false buffer).lossless
  rw [hnil rfl, List.append_nil] at htext
  exact htext

/-- What a flush does not hand over is white space. -/
theorem ChunkLimits.drain_true (limits : ChunkLimits) (buffer : Text) :
    (limits.drain true buffer).1.flatten ++
        buffer.drop (limits.drain true buffer).1.flatten.length = buffer ∧
      Blank (buffer.drop (limits.drain true buffer).1.flatten.length) := by
  have hspec := limits.drained true buffer
  obtain ⟨dropped, hblank, -, htext⟩ := hspec.lossless
  rw [hspec.flushed rfl, List.append_nil] at htext
  generalize (limits.drain true buffer).1.flatten = handed at htext ⊢
  have hdrop : buffer.drop handed.length = dropped := by rw [← htext, List.drop_left]
  rw [hdrop]
  exact ⟨htext, hblank⟩

namespace SpeechFormatter

variable (self : SpeechFormatter)

theorem piecesOf_clearedLog (q : ℕ) : piecesOf q self.clearedLog = self.pendingOf q := by
  unfold clearedLog pendingOf
  cases self.activeSequence with
  | none => rfl
  | some active =>
    by_cases h : active = q
    · simp [piecesOf, h, Piece.text]
    · simp [piecesOf, h]

/-- Pending text and what comes in is handed over, cleared or pending. -/
theorem processText_account (sequence : ℕ) (text : Text) (q : ℕ) :
    self.pendingOf q ++ (if sequence = q then text else []) =
      piecesOf q (self.processText sequence text).2 ++
        (self.processText sequence text).1.pendingOf q := by
  by_cases hsame : self.activeSequence = some sequence
  · rw [self.processText_active hsame]
    unfold pendingOf
    by_cases hq : sequence = q
    · subst hq
      simp only [hsame, if_true]
      rw [piecesOf_handed, self.limits.drain_false]
    · simp [hsame, hq, piecesOf]
  · rw [self.processText_begin hsame, piecesOf_append, piecesOf_clearedLog]
    unfold pendingOf
    by_cases hq : sequence = q
    · subst hq
      simp only [hsame, if_true, if_false, List.nil_append]
      rw [piecesOf_handed, self.limits.drain_false]
    · simp [hq, piecesOf]

theorem processText_trimmed (sequence : ℕ) (text : Text) (q : ℕ) (t : Text) :
    (q, Piece.trimmed t) ∉ (self.processText sequence text).2 := by
  by_cases hsame : self.activeSequence = some sequence
  · simp [self.processText_active hsame]
  · rw [self.processText_begin hsame]
    unfold clearedLog
    cases self.activeSequence with
    | none => simp
    | some active => simp

theorem processEvent_account (sequence : ℕ) (topic : Topic) (q : ℕ) :
    self.pendingOf q = piecesOf q (self.processEvent sequence topic).2 ++
      (self.processEvent sequence topic).1.pendingOf q := by
  by_cases hsame : self.activeSequence = some sequence
  · cases topic with
    | responseCompleted =>
      rw [self.processEvent_completed hsame]
      unfold pendingOf
      by_cases hq : sequence = q
      · subst hq
        simp only [hsame, if_true, List.append_nil]
        rw [piecesOf_append, piecesOf_handed]
        simp only [piecesOf, List.filter_cons, List.filter_nil, decide_true, if_true,
          List.flatMap_cons, List.flatMap_nil, List.append_nil, Piece.text]
        exact (self.limits.drain_true self.pendingText).1.symm
      · simp [hsame, hq, piecesOf]
    | responseFailed =>
      have hfailed : self.processEvent sequence .responseFailed =
          (self.clearPending, self.clearedLog) := by
        simp [processEvent, hsame]
      have hnone : self.clearPending.pendingOf q = [] := by
        unfold clearPending pendingOf
        split_ifs <;> rfl
      rw [hfailed, piecesOf_clearedLog, hnone, List.append_nil]
    | other =>
      have hignored : self.processEvent sequence .other = (self, []) :=
        self.processEvent_ignored (by decide) (.inr (by decide))
      rw [hignored]
      rfl
  · have hignored : self.processEvent sequence topic = (self, []) := by
      simp [processEvent, hsame]
    rw [hignored]
    rfl

theorem processEvent_trimmed {self : SpeechFormatter} {sequence : ℕ} {topic : Topic} {q : ℕ}
    {t : Text} (h : (q, Piece.trimmed t) ∈ (self.processEvent sequence topic).2) : Blank t := by
  by_cases hsame : self.activeSequence = some sequence
  · cases topic with
    | responseCompleted =>
      rw [self.processEvent_completed hsame] at h
      have ht : t =
          self.pendingText.drop (self.limits.drain true self.pendingText).1.flatten.length := by
        simp at h
        simpa using h.2
      rw [ht]
      exact (self.limits.drain_true self.pendingText).2
    | responseFailed => simp [processEvent, clearedLog, hsame] at h
    | other => simp [processEvent] at h
  · simp [processEvent, hsame] at h

end SpeechFormatter

/-- The edges as the producer fills them, and a formatter that is behind them. -/
structure Ordered (s : Race) : Prop where
  sorted : s.texts.Pairwise fun a b => a.1 ≤ b.1
  behind : ∀ q, s.formatter.activeSequence = some q → ∀ x ∈ s.texts, q ≤ x.1
  idle : s.formatter.activeSequence = none → s.formatter.pendingText = []
  completions : ((s.events.filter (·.2 = .responseCompleted)).map (·.1)).Nodup
  noFailures : ∀ x ∈ s.events, x.2 ≠ .responseFailed

/-- Text is where it belongs: handed over, trimmed, cleared, pending or on its way. -/
structure Accounts (plan : List Response) (s : Race) : Prop where
  texts : ∀ q, piecesOf q s.log ++ s.formatter.pendingOf q ++ (textsOf q s.texts).flatten =
    (textsOf q (textEdge plan)).flatten
  trimmed : ∀ q text, (q, Piece.trimmed text) ∈ s.log → Blank text

section Invariants

variable {s s' : Race}

theorem Ordered.step (h : Ordered s) {a : Turn} (hstep : s.step a = some s') : Ordered s' := by
  cases a with
  | text =>
    obtain ⟨sequence, text, texts, htexts, rfl⟩ := step_text hstep
    have hsorted := h.sorted
    rw [htexts, List.pairwise_cons] at hsorted
    have hactive : (s.formatter.processText sequence text).1.activeSequence = some sequence := by
      by_cases hsame : s.formatter.activeSequence = some sequence
      · rw [s.formatter.processText_active hsame]
        exact hsame
      · rw [s.formatter.processText_begin hsame]
    constructor
    · exact hsorted.2
    · intro q hq x hx
      rw [hactive] at hq
      cases hq
      exact hsorted.1 x hx
    · intro hnone
      rw [hactive] at hnone
      cases hnone
    · exact h.completions
    · exact h.noFailures
  | event =>
    obtain ⟨sequence, topic, events, hevents, rfl⟩ := step_event hstep
    have hcompletions := h.completions
    have hfailures := h.noFailures
    rw [hevents] at hcompletions hfailures
    have htail : ((events.filter (·.2 = .responseCompleted)).map (·.1)).Nodup :=
      hcompletions.sublist (((List.sublist_cons_self _ events).filter _).map _)
    have hrest := fun x hx => hfailures x (List.mem_cons_of_mem _ hx)
    by_cases hsame : s.formatter.activeSequence = some sequence ∧ topic = .responseCompleted
    · obtain ⟨hsame, rfl⟩ := hsame
      rw [s.formatter.processEvent_completed hsame]
      exact ⟨h.sorted, h.behind, fun _ => rfl, htail, hrest⟩
    · rw [s.formatter.processEvent_ignored (hfailures _ List.mem_cons_self)
        (not_and_or.mp hsame)]
      exact ⟨h.sorted, h.behind, h.idle, htail, hrest⟩

theorem Accounts.step {plan : List Response} (h : Accounts plan s) {a : Turn}
    (hstep : s.step a = some s') : Accounts plan s' := by
  cases a with
  | text =>
    obtain ⟨sequence, text, texts, htexts, rfl⟩ := step_text hstep
    constructor
    · intro q
      have hq := h.texts q
      have hmove := s.formatter.processText_account sequence text q
      rw [htexts, textsOf_cons] at hq
      rw [piecesOf_append, List.append_assoc (piecesOf q s.log), ← hmove, ← hq]
      split_ifs
      · simp only [List.flatten_cons, List.append_assoc]
      · rw [List.append_nil]
    · intro q t hmem
      rcases List.mem_append.mp hmem with hmem | hmem
      · exact h.trimmed q t hmem
      · exact absurd hmem (s.formatter.processText_trimmed sequence text q t)
  | event =>
    obtain ⟨sequence, topic, events, hevents, rfl⟩ := step_event hstep
    constructor
    · intro q
      rw [piecesOf_append, List.append_assoc (piecesOf q s.log),
        ← s.formatter.processEvent_account sequence topic q]
      exact h.texts q
    · intro q t hmem
      rcases List.mem_append.mp hmem with hmem | hmem
      · exact h.trimmed q t hmem
      · exact s.formatter.processEvent_trimmed hmem

end Invariants

/-- What stays pending after further texts. -/
def ChunkLimits.residual (limits : ChunkLimits) (pending : Text) (texts : List Text) : Text :=
  texts.foldl (fun pending text => (limits.drain false (pending ++ text)).2) pending

/-- The tail of a sequence once all its texts are processed. -/
def Race.tail (s : Race) (q : ℕ) : Text :=
  s.formatter.limits.residual (s.formatter.pendingOf q) (textsOf q s.texts)

/-- A text may begin its sequence only over white space; a completion may come only when the texts
of its sequence that are still on their way leave nothing but white space behind. -/
def Race.Timely (s : Race) : Turn → Prop
  | .text => ∀ x ∈ s.texts.head?,
    s.formatter.activeSequence = some x.1 ∨ Blank s.formatter.pendingText
  | .event => ∀ x ∈ s.events.head?, x.2 = .responseCompleted →
    Blank (s.formatter.limits.residual [] (textsOf x.1 s.texts))

instance (s : Race) : (a : Turn) → Decidable (s.Timely a)
  | .text => inferInstanceAs (Decidable (∀ x ∈ s.texts.head?, _ ∨ _))
  | .event => inferInstanceAs (Decidable (∀ x ∈ s.events.head?, _ → _))

/-- Only white space has been cleared, and only white space will be left of the sequences that are
completed. -/
structure Race.Safe (s : Race) : Prop where
  cleared : ∀ q text, (q, Piece.cleared text) ∈ s.log → Blank text
  settled : ∀ q, (q, Topic.responseCompleted) ∉ s.events → Blank (s.tail q)

section Safety

variable {s s' : Race}

theorem SpeechFormatter.mem_clearedLog {self : SpeechFormatter} {q : ℕ} {piece : Piece} :
    (q, piece) ∈ self.clearedLog ↔
      self.activeSequence = some q ∧ piece = .cleared self.pendingText := by
  unfold SpeechFormatter.clearedLog
  cases self.activeSequence with
  | none => simp
  | some active => simp [eq_comm]

/-- The texts of a sequence are over once a later sequence is at the head of the edge. -/
theorem Ordered.textsOf_active (h : Ordered s) {sequence q : ℕ} {text : Text}
    {texts : List (ℕ × Text)} (htexts : s.texts = (sequence, text) :: texts)
    (hactive : s.formatter.activeSequence = some q) (hne : q ≠ sequence) :
    textsOf q s.texts = [] := by
  have hsorted := h.sorted
  have hbehind := h.behind q hactive
  rw [htexts] at hsorted hbehind ⊢
  have hq := hbehind _ List.mem_cons_self
  unfold textsOf
  rw [List.map_eq_nil_iff, List.filter_eq_nil_iff]
  intro x hx hxq
  simp only [decide_eq_true_eq] at hxq
  rcases List.mem_cons.mp hx with rfl | hx
  · exact hne hxq.symm
  · have := (List.pairwise_cons.mp hsorted).1 x hx
    simp only at hq this
    omega

/-- A text leaves the tails as they are, but for the tail it clears. -/
theorem tail_step_text (h : Ordered s) {sequence : ℕ} {text : Text} {texts : List (ℕ × Text)}
    (htexts : s.texts = (sequence, text) :: texts) (hstep : s.step .text = some s') (q : ℕ) :
    s'.tail q = s.tail q ∨ s.formatter.activeSequence = some q ∧ q ≠ sequence ∧
      s.tail q = s.formatter.pendingText ∧ s'.tail q = [] := by
  obtain ⟨sequence', text', texts', htexts', rfl⟩ := step_text hstep
  rw [htexts] at htexts'
  cases htexts'
  unfold Race.tail
  by_cases hsame : s.formatter.activeSequence = some sequence
  · rw [s.formatter.processText_active hsame, htexts, textsOf_cons]
    unfold SpeechFormatter.pendingOf
    by_cases hq : sequence = q
    · subst hq
      simp only [hsame, if_true]
      exact .inl rfl
    · simp [hsame, hq]
  · rw [s.formatter.processText_begin hsame]
    by_cases hq : sequence = q
    · subst hq
      rw [htexts, textsOf_cons]
      unfold SpeechFormatter.pendingOf
      simp only [hsame, if_true, if_false]
      exact .inl rfl
    · by_cases hactive : s.formatter.activeSequence = some q
      · have hnone := h.textsOf_active htexts hactive (Ne.symm hq)
        have hrest : textsOf q texts = [] := by
          rw [htexts, textsOf_cons, if_neg hq] at hnone
          exact hnone
        refine .inr ⟨hactive, Ne.symm hq, ?_, ?_⟩
        · rw [hnone]
          simp [SpeechFormatter.pendingOf, hactive, ChunkLimits.residual]
        · rw [hrest]
          simp [SpeechFormatter.pendingOf, hq, ChunkLimits.residual]
      · rw [htexts, textsOf_cons, if_neg hq]
        simp [SpeechFormatter.pendingOf, hq, hactive]

theorem safe_step_text (h : Ordered s) (hstep : s.step .text = some s') :
    s'.Safe ↔ s.Safe ∧ s.Timely .text := by
  obtain ⟨sequence, text, texts, htexts, hs'⟩ := step_text hstep
  have htail := tail_step_text h htexts hstep
  have hevents : s'.events = s.events := by rw [hs']
  have hlog : s'.log = s.log ++ (s.formatter.processText sequence text).2 := by rw [hs']
  have htimely : s.Timely .text ↔
      s.formatter.activeSequence = some sequence ∨ Blank s.formatter.pendingText := by
    simp [Race.Timely, htexts]
  rw [htimely]
  -- what is cleared is the pending text of another sequence
  have hcleared (q : ℕ) (t : Text) : (q, Piece.cleared t) ∈ s'.log ↔
      (q, Piece.cleared t) ∈ s.log ∨ s.formatter.activeSequence = some q ∧ q ≠ sequence ∧
        t = s.formatter.pendingText := by
    rw [hlog, List.mem_append]
    by_cases hsame : s.formatter.activeSequence = some sequence
    · rw [s.formatter.processText_active hsame]
      simp only [List.mem_map, Prod.mk.injEq, reduceCtorEq, and_false, exists_false, or_false,
        hsame, Option.some.injEq, iff_self_or]
      rintro ⟨hq, hne, -⟩
      exact absurd hq.symm hne
    · rw [s.formatter.processText_begin hsame, List.mem_append, SpeechFormatter.mem_clearedLog]
      have hne (hq : s.formatter.activeSequence = some q) : q ≠ sequence := by
        rintro rfl
        exact hsame hq
      simp only [List.mem_map, Prod.mk.injEq, reduceCtorEq, and_false, exists_false, or_false,
        Piece.cleared.injEq]
      constructor
      · rintro (hold | ⟨hq, ht⟩)
        · exact .inl hold
        · exact .inr ⟨hq, hne hq, ht⟩
      · rintro (hold | ⟨hq, -, ht⟩)
        · exact .inl hold
        · exact .inr ⟨hq, ht⟩
  constructor
  · rintro ⟨hblank, hsettled⟩
    have hbegin : s.formatter.activeSequence = some sequence ∨ Blank s.formatter.pendingText := by
      by_cases hsame : s.formatter.activeSequence = some sequence
      · exact .inl hsame
      · right
        cases hactive : s.formatter.activeSequence with
        | none =>
          rw [h.idle hactive]
          exact blank_nil
        | some q =>
          refine hblank q _ ((hcleared q _).mpr (.inr ⟨hactive, ?_, rfl⟩))
          rintro rfl
          exact hsame hactive
    refine ⟨⟨fun q t hmem => hblank q t ((hcleared q t).mpr (.inl hmem)), ?_⟩, hbegin⟩
    intro q hq
    rcases htail q with heq | ⟨hactive, hne, heq, -⟩
    · rw [← heq]
      exact hsettled q (hevents ▸ hq)
    · rw [heq]
      rcases hbegin with hsame | hpending
      · rw [hactive, Option.some.injEq] at hsame
        exact absurd hsame hne
      · exact hpending
  · rintro ⟨⟨hblank, hsettled⟩, hbegin⟩
    constructor
    · intro q t hmem
      rcases (hcleared q t).mp hmem with hold | ⟨hactive, hne, rfl⟩
      · exact hblank q t hold
      · rcases hbegin with hsame | hpending
        · rw [hactive, Option.some.injEq] at hsame
          exact absurd hsame hne
        · exact hpending
    · intro q hq
      rcases htail q with heq | ⟨-, -, -, heq⟩
      · rw [heq]
        exact hsettled q (hevents ▸ hq)
      · rw [heq]
        exact blank_nil

theorem safe_step_event (h : Ordered s) (hstep : s.step .event = some s') :
    s'.Safe ↔ s.Safe ∧ s.Timely .event := by
  obtain ⟨sequence, topic, events, hevents, hs'⟩ := step_event hstep
  have htopic : topic ≠ .responseFailed := h.noFailures _ (hevents ▸ List.mem_cons_self)
  have htimely : s.Timely .event ↔ (topic = .responseCompleted →
      Blank (s.formatter.limits.residual [] (textsOf sequence s.texts))) := by
    simp [Race.Timely, hevents]
  rw [htimely]
  have hcleared (q : ℕ) (t : Text) :
      (q, Piece.cleared t) ∈ s'.log ↔ (q, Piece.cleared t) ∈ s.log := by
    rw [hs', List.mem_append, or_iff_left]
    by_cases hsame : s.formatter.activeSequence = some sequence ∧ topic = .responseCompleted
    · obtain ⟨hsame, rfl⟩ := hsame
      simp [s.formatter.processEvent_completed hsame]
    · simp [s.formatter.processEvent_ignored htopic (not_and_or.mp hsame)]
  by_cases hcompleted : topic = .responseCompleted
  · subst hcompleted
    have hfresh : (sequence, Topic.responseCompleted) ∉ events := by
      have hnodup := h.completions
      rw [hevents, List.filter_cons_of_pos (by simp), List.map_cons, List.nodup_cons] at hnodup
      intro hmem
      exact hnodup.1 (List.mem_map.mpr ⟨_, List.mem_filter.mpr ⟨hmem, by simp⟩, rfl⟩)
    -- the completed sequence has nothing pending, the others are as before
    have htail (q : ℕ) : s'.tail q =
        if q = sequence then s.formatter.limits.residual [] (textsOf sequence s.texts)
        else s.tail q := by
      rw [hs']
      unfold Race.tail
      by_cases hsame : s.formatter.activeSequence = some sequence
      · rw [s.formatter.processEvent_completed hsame]
        by_cases hq : q = sequence
        · subst hq
          simp [SpeechFormatter.pendingOf]
        · have hq' : ¬ sequence = q := fun heq => hq heq.symm
          simp [SpeechFormatter.pendingOf, hsame, hq, hq']
      · rw [s.formatter.processEvent_ignored htopic (.inl hsame)]
        by_cases hq : q = sequence
        · subst hq
          simp [SpeechFormatter.pendingOf, hsame]
        · simp [hq]
    have hmem (q : ℕ) : (q, Topic.responseCompleted) ∉ s.events ↔
        q ≠ sequence ∧ (q, Topic.responseCompleted) ∉ s'.events := by
      rw [hevents, hs', List.mem_cons, not_or]
      simp
    constructor
    · rintro ⟨hblank, hsettled⟩
      refine ⟨⟨fun q t ht => hblank q t ((hcleared q t).mpr ht), ?_⟩, ?_⟩
      · intro q hq
        obtain ⟨hne, hq'⟩ := (hmem q).mp hq
        have := hsettled q hq'
        rwa [htail, if_neg hne] at this
      · intro
        have := hsettled sequence (by rw [hs']; exact hfresh)
        rwa [htail, if_pos rfl] at this
    · rintro ⟨⟨hblank, hsettled⟩, hlate⟩
      refine ⟨fun q t ht => hblank q t ((hcleared q t).mp ht), ?_⟩
      intro q hq
      rw [htail]
      split_ifs with hqs
      · exact hlate rfl
      · exact hsettled q ((hmem q).mpr ⟨hqs, hq⟩)
  · have hsame : s'.formatter = s.formatter ∧ s'.texts = s.texts := by
      rw [hs', s.formatter.processEvent_ignored htopic (.inr hcompleted)]
      exact ⟨rfl, rfl⟩
    have htail (q : ℕ) : s'.tail q = s.tail q := by
      unfold Race.tail
      rw [hsame.1, hsame.2]
    have hmem (q : ℕ) : (q, Topic.responseCompleted) ∈ s'.events ↔
        (q, Topic.responseCompleted) ∈ s.events := by
      rw [hevents, hs', List.mem_cons, or_iff_right]
      rintro heq
      cases heq
      exact hcompleted rfl
    constructor
    · rintro ⟨hblank, hsettled⟩
      refine ⟨⟨fun q t ht => hblank q t ((hcleared q t).mpr ht), ?_⟩, fun hc => absurd hc hcompleted⟩
      intro q hq
      rw [← htail]
      exact hsettled q (mt (hmem q).mp hq)
    · rintro ⟨⟨hblank, hsettled⟩, -⟩
      refine ⟨fun q t ht => hblank q t ((hcleared q t).mp ht), ?_⟩
      intro q hq
      rw [htail]
      exact hsettled q (mt (hmem q).mpr hq)

/-- The step lemma: a step keeps what is said safe exactly when it is timely. -/
theorem safe_step (h : Ordered s) {a : Turn} (hstep : s.step a = some s') :
    s'.Safe ↔ s.Safe ∧ s.Timely a := by
  cases a with
  | text => exact safe_step_text h hstep
  | event => exact safe_step_event h hstep

end Safety

section Run

variable {limits : ChunkLimits} {plan : List Response}

theorem completions_eventEdge (plan : List Response) :
    ((eventEdge plan).filter (·.2 = .responseCompleted)).map (·.1) = plan.map (·.sequence) := by
  induction plan with
  | nil => rfl
  | cons r plan ih =>
    have hedge : eventEdge (r :: plan) =
        List.replicate r.otherEvents (r.sequence, Topic.other) ++
          (r.sequence, .responseCompleted) :: eventEdge plan := by
      simp [eventEdge]
    rw [hedge, List.filter_append, List.filter_cons_of_pos (by simp), List.map_append, List.map_cons,
      ih, List.map_cons]
    simp

theorem ordered_start (hplan : (plan.map (·.sequence)).Pairwise (· < ·)) :
    Ordered (Race.start limits plan) := by
  rw [List.pairwise_map] at hplan
  constructor
  · unfold Race.start textEdge
    rw [List.pairwise_flatMap]
    constructor
    · intro r _
      rw [List.pairwise_map]
      exact List.pairwise_of_forall fun _ _ => le_rfl
    · refine hplan.imp ?_
      intro r r' hlt x hx y hy
      obtain ⟨_, -, rfl⟩ := List.mem_map.mp hx
      obtain ⟨_, -, rfl⟩ := List.mem_map.mp hy
      exact hlt.le
  · exact nofun
  · exact fun _ => rfl
  · change (((eventEdge plan).filter (·.2 = .responseCompleted)).map (·.1)).Nodup
    rw [completions_eventEdge, List.Nodup, List.pairwise_map]
    exact hplan.imp fun hlt => hlt.ne
  · intro x hx
    obtain ⟨r, -, hx⟩ := List.mem_flatMap.mp hx
    rcases List.mem_append.mp hx with hx | hx
    · obtain rfl := List.eq_of_mem_replicate hx
      exact nofun
    · obtain rfl := List.mem_singleton.mp hx
      exact nofun

theorem accounts_start : Accounts plan (Race.start limits plan) := by
  constructor
  · intro q
    simp [Race.start, piecesOf, SpeechFormatter.pendingOf]
  · exact nofun

theorem safe_start : (Race.start limits plan).Safe := by
  refine ⟨nofun, ?_⟩
  intro q hq
  -- a sequence without a completion is not in the plan
  have hnone : textsOf q (textEdge plan) = [] := by
    unfold textsOf
    rw [List.map_eq_nil_iff, List.filter_eq_nil_iff]
    intro x hx hxq
    obtain ⟨r, hr, hx⟩ := List.mem_flatMap.mp hx
    obtain ⟨_, -, rfl⟩ := List.mem_map.mp hx
    simp only [decide_eq_true_eq] at hxq
    exact hq (List.mem_flatMap.mpr ⟨r, hr, by simp [hxq]⟩)
  unfold Race.tail
  rw [show (Race.start limits plan).texts = textEdge plan from rfl, hnone]
  exact blank_nil

/-- The run lemma: all steps of a run are timely exactly when it ends safe. -/
theorem run_safe {as : List Turn} : ∀ {s s' : Race}, Ordered s → Accounts plan s →
    (raceSystem limits plan).run s as = some s' →
    Ordered s' ∧ Accounts plan s' ∧
      (s'.Safe ↔ s.Safe ∧ (raceSystem limits plan).runBy Race.Timely s as = some s') := by
  induction as with
  | nil =>
    intro s s' ho ha h
    cases h
    exact ⟨ho, ha, by simp [runBy]⟩
  | cons a as ih =>
    intro s s' ho ha h
    obtain ⟨t, ht, hrest⟩ := Option.bind_eq_some_iff.mp h
    obtain ⟨ho', ha', hsafe⟩ := ih (ho.step ht) (ha.step ht) hrest
    refine ⟨ho', ha', ?_⟩
    have hcons : (raceSystem limits plan).runBy Race.Timely s (a :: as) =
        if s.Timely a then (s.step a).bind ((raceSystem limits plan).runBy Race.Timely · as)
        else none := rfl
    rw [hsafe, safe_step ho ht, hcons]
    by_cases htimely : s.Timely a
    · rw [if_pos htimely, show s.step a = some t from ht, Option.bind_some]
      simp [htimely]
    · rw [if_neg htimely]
      simp [htimely]

theorem Ordered.safe_iff_of_done {s : Race} (h : Ordered s) (htexts : s.texts = [])
    (hevents : s.events = []) :
    s.Safe ↔ (∀ q text, (q, Piece.cleared text) ∈ s.log → Blank text) ∧
      Blank s.formatter.pendingText := by
  have htail (q : ℕ) : s.tail q = s.formatter.pendingOf q := by
    unfold Race.tail
    rw [htexts]
    rfl
  constructor
  · rintro ⟨hcleared, hsettled⟩
    refine ⟨hcleared, ?_⟩
    cases hactive : s.formatter.activeSequence with
    | none =>
      rw [h.idle hactive]
      exact blank_nil
    | some q =>
      have hq := hsettled q (by simp [hevents])
      rwa [htail, SpeechFormatter.pendingOf, if_pos hactive] at hq
  · rintro ⟨hcleared, hpending⟩
    refine ⟨hcleared, ?_⟩
    intro q _
    rw [htail]
    unfold SpeechFormatter.pendingOf
    split_ifs
    · exact hpending
    · exact blank_nil

/-- Once both edges are empty, each sequence's text is handed over in order, but for what was
trimmed, cleared or is still pending; and that is only white space exactly when every step was
timely. -/
theorem formatter_race (hplan : (plan.map (·.sequence)).Pairwise (· < ·)) {as : List Turn} {s : Race}
    (hrun : (raceSystem limits plan).run (Race.start limits plan) as = some s)
    (hdone : s.texts = [] ∧ s.events = []) :
    (∀ q, piecesOf q s.log ++ s.formatter.pendingOf q = (textsOf q (textEdge plan)).flatten) ∧
      (∀ q text, (q, Piece.trimmed text) ∈ s.log → Blank text) ∧
      ((∀ q text, (q, Piece.cleared text) ∈ s.log → Blank text) ∧ Blank s.formatter.pendingText ↔
        (raceSystem limits plan).runBy Race.Timely (Race.start limits plan) as = some s) := by
  obtain ⟨ho, ha, hsafe⟩ := run_safe (ordered_start hplan) accounts_start hrun
  refine ⟨?_, ha.trimmed, ?_⟩
  · intro q
    have hq := ha.texts q
    rw [hdone.1] at hq
    simpa [textsOf] using hq
  · rw [← ho.safe_iff_of_done hdone.1 hdone.2, hsafe]
    simp [safe_start]

/-- Two short replies. -/
def twoReplies : List Response := [⟨1, [['h', 'i']], 0⟩, ⟨2, [['y', 'o', '.']], 1⟩]

theorem formatter_race_in_order : ∃ s,
    (raceSystem shortLimits twoReplies).run (Race.start shortLimits twoReplies)
      [.text, .event, .text, .event, .event] = some s ∧
    piecesOf 1 s.log ++ s.formatter.pendingOf 1 = ['h', 'i'] ∧
    ((∀ q text, (q, Piece.cleared text) ∈ s.log → Blank text) ∧ Blank s.formatter.pendingText ↔
      (raceSystem shortLimits twoReplies).runBy Race.Timely (Race.start shortLimits twoReplies)
        [.text, .event, .text, .event, .event] = some s) := by
  have htest : ((raceSystem shortLimits twoReplies).run (Race.start shortLimits twoReplies)
      [.text, .event, .text, .event, .event]).any
        (fun s => s.texts = [] && s.events = []) = true := by decide +kernel
  cases hrun : (raceSystem shortLimits twoReplies).run (Race.start shortLimits twoReplies)
      [.text, .event, .text, .event, .event] with
  | none =>
    rw [hrun] at htest
    cases htest
  | some s =>
    rw [hrun] at htest
    simp only [Option.any_some, Bool.and_eq_true, decide_eq_true_eq] at htest
    obtain ⟨hpieces, -, hsafe⟩ := formatter_race (by decide) hrun htest
    exact ⟨s, rfl, hpieces 1, hsafe⟩

/-- The second reply's text comes before the first one's completion. -/
theorem formatter_race_cleared :
    ((raceSystem shortLimits twoReplies).run (Race.start shortLimits twoReplies)
      [.text, .text, .event, .event, .event]).any (fun s =>
        s.texts = [] && s.events = [] && (1, Piece.cleared ['h', 'i']) ∈ s.log) = true := by
  decide +kernel

end Run

end Muxiva.Speech
