import Muxiva.Foreign.Mailbox

/-! In which order completions are handed out, and that no submission is answered twice. -/
set_option linter.all false
namespace Muxiva.Foreign
open Muxiva.Runtime (saturatingAdd)

/-- Operations of the driver itself, not of a holder of its token. -/
def Op.ofDriver : Op → Prop
  | .cancelToken => False
  | _ => True

variable {d : ForeignNodeDriver}

theorem Move.stopping_of_token {s s' : State} {op : Op} {reply : Reply}
    (m : Move d s (op, reply) s') (hop : op.ofDriver)
    (h : s.tokenCancelled = true → s.stopping = true) :
    s'.tokenCancelled = true → s'.stopping = true := by
  cases m with
  | quiet => exact h
  | token => cases hop
  | submit => exact h
  | overflow => exact h
  | control => exact h
  | receive => exact h
  | late => exact h
  | fail => simp
  | accept =>
    rw [accept_tokenCancelled, accept_stopping]
    exact h
  | take =>
    split_ifs
    · rw [promoteStrict_tokenCancelled, promoteStrict_stopping]
      exact h
    · exact h
  | expire => simp
  | stop => simp
  | graceful => simp
  | acknowledge => exact h

/-- Without an outside cancellation no completion clashes. -/
theorem reachable_of_driver {h : History}
    (hr : (driver d).ReachableBy (fun _ op => op.ofDriver) h) :
    (h.state.tokenCancelled = true → h.state.stopping = true) ∧
      (driver d).ReachableBy (fun h op => ¬ Clashes h.state op) h := by
  refine driver_invariant (I := fun h => (h.state.tokenCancelled = true → h.state.stopping = true) ∧
    (driver d).ReachableBy (fun h op => ¬ Clashes h.state op) h) ?_ ?_ hr
  · exact ⟨by simp [State.new], .init rfl⟩
  · rintro h op - ⟨htoken, hgood⟩ hop
    refine ⟨(apply_move h.state op).stopping_of_token hop htoken, hgood.step ?_ rfl⟩
    intro hc
    cases op with
    | tryComplete completion =>
      obtain ⟨hrunning, hcancelled, -⟩ := hc
      rw [htoken hcancelled] at hrunning
      cases hrunning
    | _ => cases hc

/-- A live call was live before, or has just been accepted. -/
theorem Move.live_origin {s s' : State} {e : Op × Reply} (m : Move d s e s') {x : ℕ}
    (h : ∃ l, s'.live.get? x = some l) :
    (∃ l, s.live.get? x = some l) ∨ accepted e = some x := by
  have hrelease : ∀ (t : State) (y : ℕ), (∃ l, (t.release y).live.get? x = some l) →
      ∃ l, t.live.get? x = some l := by
    rintro t y ⟨l, hl⟩
    simp only [State.release, SortedMap.get?_erase] at hl
    split_ifs at hl
    exact ⟨l, hl⟩
  have hfail : ∀ (t : State) (r : AbortReason), (∃ l, (t.failLocked r).live.get? x = some l) →
      ∃ l, t.live.get? x = some l := by
    rintro t r ⟨l, hl⟩
    rw [failLocked_live] at hl
    obtain ⟨l', hl', -⟩ := Option.bind_eq_some_iff.mp hl
    exact ⟨l', hl'⟩
  cases m with
  | quiet => exact .inl h
  | token => exact .inl h
  | submit command now last =>
    obtain ⟨l, hl⟩ := h
    simp only [State.admitted, State.withLast, SortedMap.get?_insert] at hl
    split_ifs at hl with hx
    · exact .inr (congrArg some hx.symm)
    · exact .inl ⟨l, hl⟩
  | overflow => exact .inl h
  | control => exact .inl h
  | receive queued commands =>
    left
    obtain ⟨l, hl⟩ := h
    dsimp only at hl
    split at hl
    · next k hk =>
      rw [SortedMap.get?_insert] at hl
      split_ifs at hl with hx
      · exact ⟨k, hx ▸ hk⟩
      · exact ⟨l, hl⟩
    · exact ⟨l, hl⟩
  | late completion l total => exact .inl (hrelease (s.withLate total) _ h)
  | fail completion l reason => exact .inl (hrelease _ _ (hfail _ _ h))
  | accept completion l live =>
    left
    obtain ⟨k, hk⟩ := h
    rw [accept_live, SortedMap.get?_insert] at hk
    split_ifs at hk with hx
    · exact ⟨l, hx ▸ live⟩
    · exact ⟨k, hk⟩
  | take queued ready =>
    left
    split_ifs at h
    · rw [promoteStrict_live] at h
      exact hrelease { s with ready := ready, readyBytes := s.readyBytes - queued.bytes } _ h
    · exact hrelease { s with ready := ready, readyBytes := s.readyBytes - queued.bytes } _ h
  | expire => exact .inl (hfail s deadlineAbort h)
  | stop => exact .inl (hfail _ _ h)
  | graceful => exact .inl h
  | acknowledge sequence => exact .inl (hrelease _ _ h)

/-- What is handed out was ready, and its call is not live any more. -/
theorem Move.taken_spec {s s' : State} {e : Op × Reply} (m : Move d s e s')
    {completion : ForeignCompletion} (h : taken e = some completion) :
    (∃ queued ∈ s.ready, queued.completion = completion) ∧
      s'.live.get? completion.sequence = none := by
  cases m with
  | quiet silent =>
    rw [silent.taken] at h
    cases h
  | take queued ready front =>
    cases h
    refine ⟨⟨queued, front ▸ List.mem_cons_self, rfl⟩, ?_⟩
    split_ifs
    · rw [promoteStrict_live]
      simp [State.release]
    · simp [State.release]
  | _ => cases h

/-- Under strict ordering at most the oldest live call is ready. -/
def State.Front (s : State) : Prop :=
  ∀ queued ready, s.ready = queued :: ready →
    ready = [] ∧ ∃ rest, s.strictOrder = queued.completion.sequence :: rest

theorem State.Front.promoteStrict {s : State} (hh : Held d s) (h : s.Front) :
    s.promoteStrict.Front := by
  obtain ⟨heq, -⟩ | ⟨x, rest, queued, hord, hget, heq⟩ := promoteStrict_cases s
  · rwa [heq]
  have hempty : s.ready = [] := by
    cases hready : s.ready with
    | nil => rfl
    | cons q ready =>
      obtain ⟨-, rest', hord'⟩ := h q ready hready
      have hnone := hh.disjoint q (hready ▸ List.mem_cons_self)
      rw [hord] at hord'
      injection hord' with hx
      rw [← hx, hget] at hnone
      cases hnone
  intro q ready hq
  rw [heq] at hq ⊢
  simp only [State.promoted, hempty, List.nil_append, List.cons.injEq] at hq
  obtain ⟨rfl, rfl⟩ := hq
  exact ⟨rfl, rest, by rw [(hh.orderedLive x queued hget).1]; exact hord⟩

/-- Strict release: while the driver runs, what was accepted is what was handed out, then what
is live. -/
structure InOrder (s : State) (submitted returned : List ℕ) : Prop where
  parts : s.stopping = false → submitted = returned ++ s.strictOrder
  front : s.stopping = false → s.Front
  begun : returned <+: submitted

theorem InOrder.of_stopping {s s' : State} {submitted returned : List ℕ}
    (h : InOrder s submitted returned) (hstop : s'.stopping = true) :
    InOrder s' submitted returned where
  parts := by simp [hstop]
  front := by simp [hstop]
  begun := h.begun

theorem InOrder.of_same {s s' : State} {submitted returned : List ℕ}
    (h : InOrder s submitted returned) (hstop : s'.stopping = s.stopping)
    (hord : s'.strictOrder = s.strictOrder) (hready : s'.ready = s.ready) :
    InOrder s' submitted returned where
  parts := by
    rw [hstop, hord]
    exact h.parts
  front := by
    unfold State.Front
    rw [hstop, hord, hready]
    exact h.front
  begun := h.begun

/-- A driver that reacts to nothing but its own operations is closed only when it stops. -/
theorem stopping_of_closed {s : State} (hb : Bounds d s)
    (htoken : s.tokenCancelled = true → s.stopping = true) {x : ℕ} {l : LiveCommand}
    (live : s.live.get? x = some l)
    (closed : l.cancelled = true ∨ s.stopping = true ∨ s.tokenCancelled = true) :
    s.stopping = true := by
  rcases closed with hc | hs | ht
  · exact hb.cancelledStops x l live hc
  · exact hs
  · exact htoken ht

theorem running_of_ready {s : State} (hh : Held d s) {queued : QueuedCompletion}
    {ready : List QueuedCompletion} (front : s.ready = queued :: ready) :
    s.stopping = false := by
  cases hstop : s.stopping with
  | false => rfl
  | true =>
    rw [(hh.drained hstop).1] at front
    cases front

theorem Move.inOrder {s s' : State} {e : Op × Reply} (m : Move d s e s')
    (hstrict : d.config.ordering = .strict) (hb : Bounds d s) (hh : Held d s)
    (htoken : s.tokenCancelled = true → s.stopping = true)
    {submitted returned : List ℕ} (h : InOrder s submitted returned) :
    InOrder s' (submitted ++ (accepted e).toList)
      (returned ++ ((taken e).map (·.sequence)).toList) := by
  cases m with
  | quiet silent =>
    simpa [silent.accepted, silent.taken] using h.of_same (by rfl) (by rfl) (by rfl)
  | token => simpa [accepted, taken] using h.of_same (by rfl) (by rfl) (by rfl)
  | submit command now last running =>
    have hparts := h.parts running
    simp only [accepted, taken, Option.toList_some, Option.map_none, Option.toList_none,
      List.append_nil]
    refine ⟨fun _ => ?_, fun _ => ?_, h.begun.trans (List.prefix_append _ _)⟩
    · simp only [State.admitted, State.withLast, if_pos hstrict]
      rw [hparts, List.append_assoc]
    · intro queued ready hready
      obtain ⟨hone, rest, hord⟩ := h.front running queued ready hready
      refine ⟨hone, rest ++ [command.sequence], ?_⟩
      simp [State.admitted, State.withLast, hstrict, hord]
  | overflow => simpa [accepted, taken] using h.of_same (by rfl) (by rfl) (by rfl)
  | control => simpa [accepted, taken] using h.of_same (by rfl) (by rfl) (by rfl)
  | receive => simpa [accepted, taken] using h.of_same (by rfl) (by rfl) (by rfl)
  | late completion l total live closed =>
    have hstop := stopping_of_closed hb htoken live closed
    have hstop' : ((s.withLate total).release completion.sequence).stopping = true := hstop
    simpa [accepted, taken] using h.of_stopping hstop'
  | fail => simpa [accepted, taken] using h.of_stopping (failLocked_stopping _ _)
  | accept completion l live active running open_ waiting success room =>
    simp only [accepted, taken, Option.map_none, Option.toList_none, List.append_nil]
    have hnew : ¬ s.Answered completion.sequence := by
      rintro ⟨l', hl', hdone⟩
      rw [live] at hl'
      cases hl'
      rw [waiting] at hdone
      cases hdone
    refine ⟨fun _ => ?_, fun _ => ?_, h.begun⟩
    · rw [accept_strictOrder]
      exact h.parts running
    · unfold State.accept
      dsimp only
      rw [hstrict]
      exact State.Front.promoteStrict (hh.order hstrict running hnew success room) (h.front running)
  | take queued ready front =>
    have running := running_of_ready hh front
    obtain ⟨hone, rest, hord⟩ := h.front running queued ready front
    have hparts := h.parts running
    simp only [accepted, taken, Option.map_some, Option.toList_some, Option.toList_none,
      List.append_nil, if_pos hstrict]
    have hbegun : returned ++ [queued.completion.sequence] <+: submitted := by
      rw [hparts, hord]
      exact ⟨rest, by simp⟩
    refine ⟨fun _ => ?_, fun _ => ?_, hbegun⟩
    · rw [promoteStrict_strictOrder, hparts]
      simp [State.release, removeSequence, hord]
    · refine State.Front.promoteStrict (hh.take front) ?_
      intro q ready' hready
      simp only [State.release, hone] at hready
      cases hready
  | expire =>
    simp only [accepted, taken, Option.map_none, Option.toList_none, List.append_nil]
    exact h.of_stopping (failLocked_stopping s deadlineAbort)
  | stop => simpa [accepted, taken] using h.of_stopping (failLocked_stopping _ _)
  | graceful => simpa [accepted, taken] using h.of_stopping rfl
  | acknowledge sequence l live cancelled =>
    have hstop : (s.release sequence).stopping = true := hb.cancelledStops _ l live cancelled
    simpa [accepted, taken] using h.of_stopping hstop

/-- Unordered release: while the driver runs, the accepted completions are those handed out,
then those ready. -/
structure AsAccepted (s : State) (completed returned : List ForeignCompletion) : Prop where
  parts : s.stopping = false → completed = returned ++ s.ready.map (·.completion)
  begun : returned <+: completed

theorem AsAccepted.of_stopping {s s' : State} {completed returned : List ForeignCompletion}
    (h : AsAccepted s completed returned) (hstop : s'.stopping = true)
    (more : List ForeignCompletion) : AsAccepted s' (completed ++ more) returned where
  parts := by simp [hstop]
  begun := h.begun.trans (List.prefix_append _ _)

theorem AsAccepted.of_same {s s' : State} {completed returned : List ForeignCompletion}
    (h : AsAccepted s completed returned) (hstop : s'.stopping = s.stopping)
    (hready : s'.ready = s.ready) : AsAccepted s' completed returned where
  parts := by
    rw [hstop, hready]
    exact h.parts
  begun := h.begun

theorem Move.asAccepted {s s' : State} {e : Op × Reply} (m : Move d s e s')
    (hun : d.config.ordering = .unordered) (hb : Bounds d s) (hh : Held d s)
    (htoken : s.tokenCancelled = true → s.stopping = true)
    {done returned : List ForeignCompletion} (h : AsAccepted s done returned) :
    AsAccepted s' (done ++ (completed e).toList) (returned ++ (taken e).toList) := by
  have hstrict : d.config.ordering ≠ .strict := by simp [hun]
  cases m with
  | quiet silent => simpa [silent.completed, silent.taken] using h.of_same (by rfl) (by rfl)
  | token => simpa [completed, taken] using h.of_same (by rfl) (by rfl)
  | submit => simpa [completed, taken] using h.of_same (by rfl) (by rfl)
  | overflow => simpa [completed, taken] using h.of_same (by rfl) (by rfl)
  | control => simpa [completed, taken] using h.of_same (by rfl) (by rfl)
  | receive => simpa [completed, taken] using h.of_same (by rfl) (by rfl)
  | late completion l total live closed =>
    have hstop := stopping_of_closed hb htoken live closed
    have hstop' : ((s.withLate total).release completion.sequence).stopping = true := hstop
    simpa [completed, taken] using h.of_stopping hstop' []
  | fail completion =>
    simpa [completed, taken] using h.of_stopping (failLocked_stopping _ _) [completion]
  | accept completion l live active running =>
    simp only [completed, taken, Option.toList_some, Option.toList_none, List.append_nil]
    refine ⟨fun _ => ?_, h.begun.trans (List.prefix_append _ _)⟩
    simp [State.accept, hun, h.parts running]
  | take queued ready front =>
    have hparts := h.parts (running_of_ready hh front)
    simp only [completed, taken, Option.toList_some, Option.toList_none, List.append_nil,
      if_neg hstrict]
    rw [front] at hparts
    refine ⟨fun _ => ?_, ?_⟩
    · simp [hparts, State.release]
    · exact ⟨ready.map (·.completion), by simp [hparts]⟩
  | expire =>
    simp only [completed, taken, Option.toList_none, List.append_nil]
    refine ⟨by simp, h.begun⟩
  | stop => simpa [completed, taken] using h.of_stopping (failLocked_stopping _ _) []
  | graceful => simpa [completed, taken] using h.of_stopping rfl []
  | acknowledge sequence l live cancelled =>
    have hstop : (s.release sequence).stopping = true := hb.cancelledStops _ l live cancelled
    simpa [completed, taken] using h.of_stopping hstop []

/-- Which submission of its sequence a handed-out completion answers, counted from one among
the submissions accepted before. -/
def answers (before : List (Op × Reply)) (e : Op × Reply) : Option (ℕ × ℕ) :=
  (taken e).map fun completion =>
    (completion.sequence, (before.filterMap accepted).count completion.sequence)

def answersFrom (before : List (Op × Reply)) : List (Op × Reply) → List (ℕ × ℕ)
  | [] => []
  | e :: es => (answers before e).toList ++ answersFrom (before ++ [e]) es

/-- The submissions answered in a run, in order. -/
def History.answered (h : History) : List (ℕ × ℕ) := answersFrom [] h.log

theorem answersFrom_concat (before es : List (Op × Reply)) (e : Op × Reply) :
    answersFrom before (es ++ [e]) = answersFrom before es ++ (answers (before ++ es) e).toList := by
  induction es generalizing before with
  | nil => simp [answersFrom]
  | cons e' es ih => simp [answersFrom, ih, List.append_assoc]

/-- Answers name accepted submissions, and for a live call only earlier ones. -/
structure AnsweredOnce (s : State) (submitted : List ℕ) (answered : List (ℕ × ℕ)) : Prop where
  nodup : answered.Nodup
  known : ∀ p ∈ answered, 1 ≤ p.2 ∧ p.2 ≤ submitted.count p.1
  earlier : ∀ p ∈ answered, (∃ l, s.live.get? p.1 = some l) → p.2 < submitted.count p.1
  submitted : ∀ x, (∃ l, s.live.get? x = some l) → 1 ≤ submitted.count x

theorem Move.answeredOnce {s s' : State} {e : Op × Reply} (m : Move d s e s') (hh : Held d s)
    {log : List (Op × Reply)} {answered : List (ℕ × ℕ)}
    (h : AnsweredOnce s (log.filterMap accepted) answered) :
    AnsweredOnce s' (log.filterMap accepted ++ (accepted e).toList)
      (answered ++ (answers log e).toList) := by
  have hmono : ∀ x, (log.filterMap accepted).count x ≤
      (log.filterMap accepted ++ (accepted e).toList).count x := by
    intro x
    rw [List.count_append]
    omega
  have hfresh : ∀ x, accepted e = some x → (log.filterMap accepted).count x <
      (log.filterMap accepted ++ (accepted e).toList).count x := by
    intro x hx
    simp [hx]
  have hnew : ∀ p, answers log e = some p → p ∉ answered ∧ (1 ≤ p.2 ∧
      p.2 ≤ (log.filterMap accepted ++ (accepted e).toList).count p.1) ∧
      s'.live.get? p.1 = none := by
    intro p hp
    obtain ⟨completion, htaken, rfl⟩ := Option.map_eq_some_iff.mp hp
    obtain ⟨⟨queued, hq, rfl⟩, hgone⟩ := m.taken_spec htaken
    obtain ⟨l, hl, -⟩ := hh.readyLive queued hq
    refine ⟨fun hmem => ?_, ⟨h.submitted _ ⟨l, hl⟩, hmono _⟩, hgone⟩
    exact absurd (h.earlier _ hmem ⟨l, hl⟩) (lt_irrefl _)
  constructor
  case nodup =>
    refine h.nodup.append (by cases answers log e <;> simp) ?_
    intro p hp hp'
    exact (hnew p (by simpa using hp')).1 hp
  case known =>
    intro p hp
    rcases List.mem_append.mp hp with hp | hp
    · exact ⟨(h.known p hp).1, (h.known p hp).2.trans (hmono _)⟩
    · exact (hnew p (by simpa using hp)).2.1
  case earlier =>
    intro p hp hlive
    rcases List.mem_append.mp hp with hp | hp
    · rcases m.live_origin hlive with hold | hacc
      · exact (h.earlier p hp hold).trans_le (hmono _)
      · exact (h.known p hp).2.trans_lt (hfresh _ hacc)
    · obtain ⟨l, hl⟩ := hlive
      rw [(hnew p (by simpa using hp)).2.2] at hl
      cases hl
  case submitted =>
    intro x hlive
    rcases m.live_origin hlive with hold | hacc
    · exact (h.submitted x hold).trans (hmono _)
    · exact Nat.one_le_of_lt (hfresh x hacc)

theorem inOrder_reachable (hstrict : d.config.ordering = .strict) {h : History}
    (hr : (driver d).ReachableBy (fun _ op => op.ofDriver) h) :
    InOrder h.state h.accepted (h.returned.map (·.sequence)) := by
  refine driver_invariant (I := fun h => InOrder h.state h.accepted
    (h.returned.map (·.sequence))) ⟨fun _ => rfl, by simp [State.new, State.Front], List.prefix_refl _⟩ ?_ hr
  intro h op hr hi _
  obtain ⟨htoken, hgood⟩ := reachable_of_driver hr
  have hstep := (apply_move h.state op).inOrder hstrict (bounds_reachable hr).1
    (held_reachable hgood) htoken hi
  rw [History.next_accepted, History.next_returned, List.map_append, ← Option.toList_map]
  exact hstep

theorem asAccepted_reachable (hun : d.config.ordering = .unordered) {h : History}
    (hr : (driver d).ReachableBy (fun _ op => op.ofDriver) h) :
    AsAccepted h.state h.completed h.returned := by
  refine driver_invariant (I := fun h => AsAccepted h.state h.completed h.returned)
    ⟨fun _ => rfl, List.prefix_refl _⟩ ?_ hr
  intro h op hr hi _
  obtain ⟨htoken, hgood⟩ := reachable_of_driver hr
  have hstep := (apply_move h.state op).asAccepted hun (bounds_reachable hr).1
    (held_reachable hgood) htoken hi
  rw [History.next_completed, History.next_returned]
  exact hstep

theorem answeredOnce_reachable {h : History}
    (hr : (driver d).ReachableBy (fun _ op => op.ofDriver) h) :
    AnsweredOnce h.state h.accepted h.answered ∧
      h.answered.map Prod.fst = h.returned.map (·.sequence) := by
  refine driver_invariant (I := fun h => AnsweredOnce h.state h.accepted h.answered ∧
    h.answered.map Prod.fst = h.returned.map (·.sequence)) ?_ ?_ hr
  · exact ⟨⟨.nil, by simp [History.answered, answersFrom], by simp [History.answered, answersFrom],
      by simp [State.new]⟩, rfl⟩
  · rintro h op hr ⟨hi, hseq⟩ -
    have hgood := (reachable_of_driver hr).2
    have hanswered : (h.next d op).answered =
        h.answered ++ (answers h.log (op, (h.state.apply d op).1)).toList :=
      answersFrom_concat [] h.log _
    constructor
    · rw [History.next_accepted, hanswered]
      exact (apply_move h.state op).answeredOnce (held_reachable hgood) hi
    · rw [hanswered, History.next_returned, List.map_append, List.map_append, hseq]
      cases htaken : taken (op, (h.state.apply d op).1) <;> simp [answers, htaken]

/-- Completion order of the driver: strict release hands out a prefix of the accepted
submissions, unordered release a prefix of the accepted completions, no accepted submission is
answered twice, and a stopping driver hands out nothing. -/
theorem completion_order {h : History}
    (hr : (driver d).ReachableBy (fun _ op => op.ofDriver) h) :
    (d.config.ordering = .strict → h.returned.map (·.sequence) <+: h.accepted) ∧
    (d.config.ordering = .unordered → h.returned <+: h.completed) ∧
    (h.answered.Nodup ∧ h.answered.map Prod.fst = h.returned.map (·.sequence) ∧
      ∀ p ∈ h.answered, 1 ≤ p.2 ∧ p.2 ≤ h.accepted.count p.1) ∧
    (h.state.stopping = true → (h.state.tryTakeCompletion d).1 = none ∧
      ∀ op, (h.next d op).state.stopping = true) := by
  obtain ⟨honce, hseq⟩ := answeredOnce_reachable hr
  refine ⟨fun hstrict => (inOrder_reachable hstrict hr).begun,
    fun hun => (asAccepted_reachable hun hr).begun, ⟨honce.nodup, hseq, honce.known⟩, ?_⟩
  intro hstop
  have hready := ((held_reachable (reachable_of_driver hr).2).drained hstop).1
  refine ⟨by simp [State.tryTakeCompletion, hready], fun op => ?_⟩
  exact (apply_move h.state op).stopping_stays hstop

/-- The operations that complete the second of two calls first. -/
def overtaking : List Op :=
  [.trySubmit ⟨10, .prepare⟩ 0, .tryReceive, .trySubmit ⟨11, .prepare⟩ 0, .tryReceive,
    .tryComplete (emptySuccess 11), .tryComplete (emptySuccess 10), .tryTakeCompletion,
    .tryTakeCompletion]

theorem overtaking_order :
    ((History.run (smallDriver .strict) overtaking).returned.map (·.sequence) = [10, 11] ∧
      [10, 11] <+: (History.run (smallDriver .strict) overtaking).accepted) ∧
    ((History.run (smallDriver .unordered) overtaking).returned.map (·.sequence) = [11, 10] ∧
      (History.run (smallDriver .unordered) overtaking).returned <+:
        (History.run (smallDriver .unordered) overtaking).completed) := by
  have hops : ∀ op ∈ overtaking, op.ofDriver := by simp [overtaking, Op.ofDriver]
  have hstrict : (History.run (smallDriver .strict) overtaking).returned.map (·.sequence)
      = [10, 11] := by decide +kernel
  refine ⟨⟨hstrict, ?_⟩, by decide +kernel, ?_⟩
  · rw [← hstrict]
    exact (completion_order (run_reachable hops)).1 rfl
  · exact (completion_order (run_reachable hops)).2.1 rfl

end Muxiva.Foreign
