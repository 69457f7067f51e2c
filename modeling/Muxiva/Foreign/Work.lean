import Muxiva.Foreign.Mailbox

/-! Whether the commands in the queue are still wanted: each belongs to a live call that nobody
has received or answered, until a call is answered before it was received. -/
set_option linter.all false
namespace Muxiva.Foreign
open Muxiva.Runtime (saturatingAdd)

variable {d : ForeignNodeDriver}

/-- While the token is open nothing can have clashed. -/
theorem held_of_open {C : History → Op → Prop} {h : History} (hr : (driver d).ReachableBy C h)
    (hopen : h.state.tokenCancelled = false) : Held d h.state := by
  have hgood : h.state.tokenCancelled = false →
      (driver d).ReachableBy (fun h op => ¬ Clashes h.state op) h := by
    refine driver_invariant (I := fun h => h.state.tokenCancelled = false →
      (driver d).ReachableBy (fun h op => ¬ Clashes h.state op) h) (fun _ => .init rfl) ?_ hr
    intro h op _ hi _ hopen
    have hbefore : h.state.tokenCancelled = false := by
      cases htoken : h.state.tokenCancelled with
      | false => rfl
      | true =>
        have hstays := (apply_move (d := d) h.state op).token_stays htoken
        exact Bool.noConfusion (hopen.symm.trans hstays)
    refine (hi hbefore).step (fun hc => ?_) rfl
    cases op with
    | tryComplete completion => simp [Clashes, hbefore] at hc
    | _ => cases hc
  exact held_reachable (hgood hopen)

/-- The state holds a completion of the sequence. -/
def State.Holds (s : State) (x : ℕ) : Prop :=
  (∃ queued ∈ s.ready, queued.completion.sequence = x) ∨
    ∃ y queued, s.ordered.get? y = some queued ∧ queued.completion.sequence = x

theorem holds_promoteStrict {s : State} {x : ℕ} (h : s.promoteStrict.Holds x) : s.Holds x := by
  obtain ⟨heq, -⟩ | ⟨y, rest, queued, -, hget, heq⟩ := promoteStrict_cases s
  · rwa [heq] at h
  rw [heq] at h
  rcases h with ⟨q, hq, hx⟩ | ⟨z, q, hq, hx⟩
  · rcases List.mem_append.mp hq with hq | hq
    · exact .inl ⟨q, hq, hx⟩
    · exact .inr ⟨y, queued, hget, List.mem_singleton.mp hq ▸ hx⟩
  · simp only [State.promoted, SortedMap.get?_erase] at hq
    split_ifs at hq
    exact .inr ⟨z, q, hq, hx⟩

theorem holds_accept {s : State} {completion : ForeignCompletion} {l : LiveCommand} {x : ℕ}
    (h : (s.accept d completion l).Holds x) : x = completion.sequence ∨ s.Holds x := by
  unfold State.accept at h
  dsimp only at h
  split at h
  · rcases h with ⟨q, hq, hx⟩ | hord
    · rcases List.mem_append.mp hq with hq | hq
      · exact .inr (.inl ⟨q, hq, hx⟩)
      · rw [List.mem_singleton.mp hq] at hx
        exact .inl hx.symm
    · exact .inr (.inr hord)
  · rcases holds_promoteStrict h with hready | ⟨y, q, hq, hx⟩
    · exact .inr (.inl hready)
    · dsimp only at hq
      rw [SortedMap.get?_insert] at hq
      split_ifs at hq
      · cases hq
        exact .inl hx.symm
      · exact .inr (.inr ⟨y, q, hq, hx⟩)

/-- Work in the queue is live, undispatched and unanswered, and nothing undispatched is missing
from the queue. -/
structure WorkInv (s : State) : Prop where
  queued : ∀ q ∈ s.commands, ∃ l, s.live.get? q.command.sequence = some l ∧
    l.dispatched = false ∧ l.completionReceived = false
  waiting : ∀ x l, s.live.get? x = some l → l.dispatched = false →
    ∃ q ∈ s.commands, q.command.sequence = x
  nodup : (s.commands.map (·.command.sequence)).Nodup
  stopped : s.stopping = true → s.commands = []
  apart : ∀ x, s.Holds x → ∀ q ∈ s.commands, q.command.sequence ≠ x

variable (d)

/-- A submission whose deadline overflows, or an answer to a call whose command is still in the
queue that is not turned away for lack of room. -/
def Premature (s : State) : Op → Prop
  | .trySubmit command now =>
    s.stopping = false ∧ s.tokenCancelled = false ∧ s.accepting = true ∧
      s.live.get? command.sequence = none ∧
      (d.config.ordering = .strict → s.strictGap command = false) ∧
      s.submitFull d command = false ∧ d.instantMax < now + d.config.perCallDeadline
  | .tryComplete completion =>
    ∃ l, s.live.get? completion.sequence = some l ∧ l.dispatched = false ∧
      (s.tokenCancelled = true ∨ (∃ reason, completion.kind = .failure reason) ∨
        s.completionFull d completion = false)
  | _ => False

variable {d}

namespace WorkInv
variable {s : State}

/-- A dispatched call has no command in the queue. -/
theorem not_queued (h : WorkInv s) {x : ℕ} {l : LiveCommand} (hl : s.live.get? x = some l)
    (hdisp : l.dispatched = true) : ∀ q ∈ s.commands, q.command.sequence ≠ x := by
  rintro q hq rfl
  obtain ⟨l', hl', hdisp', -⟩ := h.queued q hq
  rw [hl] at hl'
  cases hl'
  rw [hdisp] at hdisp'
  cases hdisp'

/-- Removing a call whose command has left the queue. -/
theorem release (h : WorkInv s) {x : ℕ} (hx : ∀ q ∈ s.commands, q.command.sequence ≠ x) :
    WorkInv (s.release x) where
  queued := by
    intro q hq
    simp only [State.release, SortedMap.get?_erase, if_neg (hx q hq)]
    exact h.queued q hq
  waiting := by
    intro y l hl hdisp
    simp only [State.release, SortedMap.get?_erase] at hl
    split_ifs at hl
    exact h.waiting y l hl hdisp
  nodup := h.nodup
  stopped := h.stopped
  apart := h.apart

theorem failLocked (h : WorkInv s) (reason : AbortReason) : WorkInv (s.failLocked reason) := by
  have hcommands : (s.failLocked reason).commands = [] := by
    rw [failLocked_commands, List.filter_eq_nil_iff]
    intro q hq
    obtain ⟨l, hl, hdisp, -⟩ := h.queued q hq
    simpa [mem_undispatched_iff] using ⟨l, hl, hdisp⟩
  constructor <;> simp only [hcommands]
  case waiting =>
    intro x l hl hdisp
    rw [failLocked_live] at hl
    obtain ⟨l', -, hl'⟩ := Option.bind_eq_some_iff.mp hl
    split_ifs at hl' with hd
    cases hl'
    rw [hd] at hdisp
    cases hdisp
  all_goals simp

/-- Only commands, live calls and what is held matter. -/
theorem of_same {s' : State} (h : WorkInv s) (hcommands : s'.commands = s.commands)
    (hlive : s'.live = s.live) (hstop : s'.stopping = s.stopping)
    (hholds : ∀ x, s'.Holds x → s.Holds x) : WorkInv s' := by
  constructor <;> simp only [hcommands, hlive, hstop]
  exacts [h.queued, h.waiting, h.nodup, h.stopped, fun x hx => h.apart x (hholds x hx)]

theorem admitted (h : WorkInv s) {command : ForeignCommand} (now : ℕ) (last : Option ℕ)
    (running : s.stopping = false) (fresh : s.live.get? command.sequence = none)
    (hnew : ¬ s.Holds command.sequence) :
    WorkInv ((s.withLast last).admitted d command now) := by
  have hother : ∀ q ∈ s.commands, q.command.sequence ≠ command.sequence := by
    intro q hq heq
    obtain ⟨l, hl, -⟩ := h.queued q hq
    rw [heq, fresh] at hl
    cases hl
  constructor <;> simp only [State.admitted, State.withLast, State.enqueue]
  case queued =>
    intro q hq
    rw [SortedMap.get?_insert]
    rcases List.mem_append.mp hq with hq | hq
    · rw [if_neg (hother q hq)]
      exact h.queued q hq
    · rw [List.mem_singleton.mp hq, if_pos rfl]
      exact ⟨_, rfl, rfl, rfl⟩
  case waiting =>
    intro x l hl hdisp
    rw [SortedMap.get?_insert] at hl
    split_ifs at hl with hx
    · exact ⟨_, List.mem_append_right _ (List.mem_singleton_self _), hx.symm⟩
    · obtain ⟨q, hq, hqx⟩ := h.waiting x l hl hdisp
      exact ⟨q, List.mem_append_left _ hq, hqx⟩
  case nodup =>
    rw [List.map_append]
    refine h.nodup.append (by simp) ?_
    intro y hy hy'
    obtain ⟨q, hq, rfl⟩ := List.mem_map.mp hy
    exact hother q hq (by simpa using hy')
  case stopped => simp [running]
  case apart =>
    intro x hx q hq
    have hx' : s.Holds x := hx
    rcases List.mem_append.mp hq with hq | hq
    · exact h.apart x hx' q hq
    · rw [List.mem_singleton.mp hq]
      rintro rfl
      exact hnew hx'

theorem receive (h : WorkInv s) {queued : QueuedCommand} {commands : List QueuedCommand}
    (front : s.commands = queued :: commands) :
    WorkInv { s with
      commands := commands
      commandBytes := s.commandBytes - queued.bytes
      live := match s.live.get? queued.command.sequence with
        | some l => s.live.insert queued.command.sequence { l with dispatched := true }
        | none => s.live } := by
  obtain ⟨l, hl, hdisp, -⟩ := h.queued queued (front ▸ List.mem_cons_self)
  have hmem : ∀ q ∈ commands, q ∈ s.commands := fun q hq => front ▸ List.mem_cons_of_mem _ hq
  have hnodup := h.nodup
  simp only [front, List.map_cons, List.nodup_cons] at hnodup
  have hother : ∀ q ∈ commands, q.command.sequence ≠ queued.command.sequence :=
    fun q hq heq => hnodup.1 (List.mem_map.mpr ⟨q, hq, heq⟩)
  constructor <;> simp only [hl]
  case queued =>
    intro q hq
    rw [SortedMap.get?_insert, if_neg (hother q hq)]
    exact h.queued q (hmem q hq)
  case waiting =>
    intro x k hk hkd
    rw [SortedMap.get?_insert] at hk
    split_ifs at hk with hx
    · cases hk
      cases hkd
    · obtain ⟨q, hq, hqx⟩ := h.waiting x k hk hkd
      rw [front] at hq
      rcases List.mem_cons.mp hq with rfl | hq
      · exact absurd hqx.symm hx
      · exact ⟨q, hq, hqx⟩
  case nodup => exact hnodup.2
  case stopped =>
    intro hstop
    have hempty := h.stopped hstop
    rw [front] at hempty
    cases hempty
  case apart => exact fun x hx q hq => h.apart x hx q (hmem q hq)

theorem accept (h : WorkInv s) {completion : ForeignCompletion} {l : LiveCommand}
    (live : s.live.get? completion.sequence = some l) (hdisp : l.dispatched = true) :
    WorkInv (s.accept d completion l) := by
  have hother := h.not_queued live hdisp
  constructor <;> simp only [accept_commands, accept_live, accept_stopping]
  case queued =>
    intro q hq
    rw [SortedMap.get?_insert, if_neg (hother q hq)]
    exact h.queued q hq
  case waiting =>
    intro x k hk hkd
    rw [SortedMap.get?_insert] at hk
    split_ifs at hk
    · cases hk
      exact absurd hdisp (by simpa using hkd)
    · exact h.waiting x k hk hkd
  case nodup => exact h.nodup
  case stopped => exact h.stopped
  case apart =>
    intro x hx q hq
    rcases holds_accept hx with rfl | hx
    · exact hother q hq
    · exact h.apart x hx q hq

end WorkInv

theorem Move.work {s s' : State} {op : Op} {reply : Reply} (m : Move d s (op, reply) s')
    (hb : Bounds d s) (hh : s.tokenCancelled = false → Held d s) (h : WorkInv s)
    (hc : ¬ Premature d s op) : WorkInv s' := by
  cases m with
  | quiet => exact h.of_same rfl rfl rfl fun _ hx => hx
  | token => exact h.of_same rfl rfl rfl fun _ hx => hx
  | submit command now last running open_ fresh room fit =>
    refine h.admitted now last running fresh ?_
    have hnot : ¬ s.Answered command.sequence := by simp [State.Answered, fresh]
    obtain ⟨hready, hordered⟩ := (hh open_).absent hnot
    rintro (⟨q, hq, hx⟩ | ⟨y, q, hq, hx⟩)
    · exact hready q hq hx
    · rw [((hh open_).orderedLive y q hq).1] at hx
      rw [← hx, hq] at hordered
      cases hordered
  | overflow command now last running open_ accepting fresh inLine room beyond =>
    exact absurd ⟨running, open_, accepting, fresh, inLine, room, beyond⟩ hc
  | control => exact h.of_same rfl rfl rfl fun _ hx => hx
  | receive queued commands idle front => exact h.receive front
  | late completion l total live closed =>
    have hlate : WorkInv (s.withLate total) := h.of_same rfl rfl rfl fun _ hx => hx
    refine hlate.release ?_
    cases hstop : s.stopping with
    | true =>
      have hempty : (s.withLate total).commands = [] := h.stopped hstop
      simp [hempty]
    | false =>
      have htoken : s.tokenCancelled = true := by
        rcases closed with hcancel | hstop' | htoken
        · exact hb.stoppingToken (hb.cancelledStops _ l live hcancel)
        · exact hb.stoppingToken hstop'
        · exact htoken
      cases hdisp : l.dispatched with
      | true => exact h.not_queued live hdisp
      | false => exact absurd ⟨l, live, hdisp, .inl htoken⟩ hc
  | fail completion l reason live active running open_ waiting kind =>
    cases hdisp : l.dispatched with
    | true => exact (h.release (h.not_queued live hdisp)).failLocked reason
    | false => exact absurd ⟨l, live, hdisp, .inr (.inl ⟨reason, kind⟩)⟩ hc
  | accept completion l live active running open_ waiting success room =>
    cases hdisp : l.dispatched with
    | true => exact h.accept live hdisp
    | false => exact absurd ⟨l, live, hdisp, .inr (.inr room)⟩ hc
  | take queued ready front =>
    have hholds : s.Holds queued.completion.sequence :=
      .inl ⟨queued, front ▸ List.mem_cons_self, rfl⟩
    have hpopped : WorkInv
        { s with ready := ready, readyBytes := s.readyBytes - queued.bytes } := by
      refine h.of_same rfl rfl rfl fun x hx => ?_
      rcases hx with ⟨q, hq, hqx⟩ | hord
      · exact .inl ⟨q, front ▸ List.mem_cons_of_mem _ hq, hqx⟩
      · exact .inr hord
    have hreleased := hpopped.release (h.apart _ hholds)
    split_ifs
    · exact hreleased.of_same (promoteStrict_commands _) (promoteStrict_live _)
        (promoteStrict_stopping _) fun _ => holds_promoteStrict
    · exact hreleased
  | expire =>
    dsimp only
    exact (h.failLocked deadlineAbort).of_same rfl rfl rfl fun _ hx => hx
  | stop reason => exact h.failLocked reason
  | graceful running idle =>
    have hempty : s.commands = [] := by
      refine List.eq_nil_iff_forall_not_mem.mpr fun q hq => ?_
      obtain ⟨l, hl, -⟩ := h.queued q hq
      have hmem := (SortedMap.mem_entries_iff _ _ _).mpr hl
      rw [idle] at hmem
      cases hmem
    exact { h with stopped := fun _ => hempty }
  | acknowledge sequence l live cancelled =>
    refine h.release ?_
    rw [h.stopped (hb.cancelledStops _ l live cancelled)]
    simp

theorem work_reachable {h : History}
    (hr : (driver d).ReachableBy (fun h op => ¬ Premature d h.state op) h) :
    WorkInv h.state := by
  refine driver_invariant (I := fun h => WorkInv h.state) ?_ ?_ hr
  · exact ⟨by simp [State.new], by simp [State.new], .nil, fun _ => rfl, by simp [State.new]⟩
  · intro h op hr hi hc
    exact (apply_move h.state op).work (bounds_reachable hr).1 (held_of_open hr) hi hc

/-- A `Cancel`, `Abort` or `Stop`. -/
def ForeignCommandKind.isControl : ForeignCommandKind → Bool
  | .cancel => true
  | .abort _ => true
  | .stop => true
  | _ => false

theorem Move.controls_kind {s s' : State} {e : Op × Reply} (m : Move d s e s')
    (h : ∀ control ∈ s.controls, control.kind.isControl = true) :
    ∀ control ∈ s'.controls, control.kind.isControl = true := by
  have hfail : ∀ (t : State) (reason : AbortReason), t.controls = s.controls →
      ∀ control ∈ (t.failLocked reason).controls, control.kind.isControl = true := by
    intro t reason ht control hmem
    simp only [failLocked_controls, ht, List.mem_append, List.mem_map, List.mem_cons,
      List.not_mem_nil, or_false] at hmem
    rcases hmem with hold | ⟨x, -, rfl⟩ | rfl | rfl
    · exact h control hold
    all_goals rfl
  cases m with
  | control control controls front =>
    exact fun c hc => h c (front ▸ List.mem_cons_of_mem _ hc)
  | fail => exact hfail _ _ rfl
  | expire => exact hfail s deadlineAbort rfl
  | stop => exact hfail _ _ rfl
  | graceful =>
    intro c hc
    rcases List.mem_append.mp hc with hc | hc
    · exact h c hc
    · rw [List.mem_singleton.mp hc]
      rfl
  | accept => rwa [accept_controls]
  | take =>
    split_ifs
    · rwa [promoteStrict_controls]
    · exact h
  | _ => exact h

theorem controls_reachable {C : History → Op → Prop} {h : History}
    (hr : (driver d).ReachableBy C h) :
    ∀ control ∈ h.state.controls, control.kind.isControl = true := by
  refine driver_invariant (I := fun h => ∀ control ∈ h.state.controls,
    control.kind.isControl = true) (by simp [State.new]) ?_ hr
  intro h op _ hi _
  exact (apply_move h.state op).controls_kind hi

/-- Queued work is live, neither dispatched nor answered, and a stopping driver hands out its
controls only. -/
structure QueuedWork (s : State) : Prop where
  live : ∀ queued ∈ s.commands, ∃ l, s.live.get? queued.command.sequence = some l ∧
    l.dispatched = false ∧ l.completionReceived = false
  stopping : s.stopping = true → ∀ command, s.tryReceive.1 = some command →
    command ∈ s.controls ∧ command.kind.isControl = true

theorem QueuedWork.of_inv {s : State} (h : WorkInv s)
    (hk : ∀ control ∈ s.controls, control.kind.isControl = true) : QueuedWork s where
  live := h.queued
  stopping := by
    intro hstop command hreceived
    unfold State.tryReceive at hreceived
    rw [h.stopped hstop] at hreceived
    split at hreceived
    · next head controls hcontrols =>
      cases hreceived
      have hmem : command ∈ s.controls := hcontrols ▸ List.mem_cons_self
      exact ⟨hmem, hk command hmem⟩
    · cases hreceived

/-- An overflowing submission leaves its command in the queue of no live call. -/
theorem trySubmit_overflow {s : State} {command : ForeignCommand} {now : ℕ}
    (h : Premature d s (.trySubmit command now)) :
    ∃ last, (s.trySubmit d command now).2 = (s.withLast last).enqueue command := by
  obtain ⟨hrunning, hopen, haccepting, hfresh, hgap, hroom, hover⟩ := h
  have henter : ∀ last, ((s.withLast last).enter d command now).2
      = (s.withLast last).enqueue command := by
    intro last
    have hroom' : (s.withLast last).submitFull d command = false := hroom
    simp [State.enter, hroom', hover]
  have hnot : s.live.contains command.sequence = false := by
    simp [SortedMap.contains, hfresh]
  by_cases hstrict : d.config.ordering = .strict
  · exact ⟨some command.sequence, by simp [State.trySubmit, hrunning, hopen, haccepting, hnot,
      hstrict, hgap hstrict, henter]⟩
  · refine ⟨s.lastStrictSequence, ?_⟩
    simp only [State.trySubmit, hrunning, hopen, haccepting, hnot, hstrict, Bool.not_true,
      Bool.false_eq_true, if_false]
    exact henter s.lastStrictSequence

/-- What goes wrong at once: the queue keeps a command of no live call, or of one already
answered. -/
theorem not_queuedWork_of_premature {s : State} {op : Op} (hb : Bounds d s) (h : WorkInv s)
    (hc : Premature d s op) : ¬ QueuedWork (s.apply d op).2 := by
  intro hwork
  cases op with
  | trySubmit command now =>
    obtain ⟨last, hstate⟩ := trySubmit_overflow hc
    have hwork' : QueuedWork ((s.withLast last).enqueue command) := hstate ▸ hwork
    obtain ⟨l, hl, -⟩ := hwork'.live ⟨command, command.commandBytes⟩
      (List.mem_append_right _ (List.mem_singleton_self _))
    exact absurd (hc.2.2.2.1.symm.trans hl) (by simp)
  | tryComplete completion =>
    obtain ⟨l, hl, hdisp, hentry⟩ := hc
    obtain ⟨q, hq, hseq⟩ := h.waiting _ l hl hdisp
    obtain ⟨l', hl', -, hdone⟩ := h.queued q hq
    obtain rfl : l = l' := Option.some.inj (hl.symm.trans (hseq ▸ hl'))
    have hrunning : s.stopping = false := by
      cases hstop : s.stopping with
      | false => rfl
      | true =>
        rw [h.stopped hstop] at hq
        cases hq
    have hactive : l.cancelled = false := by
      cases hcancel : l.cancelled with
      | false => rfl
      | true => exact Bool.noConfusion (hrunning.symm.trans (hb.cancelledStops _ l hl hcancel))
    -- in each case the command `q` survives in the queue
    cases htoken : s.tokenCancelled with
    | true =>
      have hstate : (s.tryComplete d completion).2 =
          (s.withLate (saturatingAdd s.lateCompletionTotal 1)).release completion.sequence := by
        simp [State.tryComplete, hl, htoken, State.withLate]
      have hwork' := hstate ▸ (show QueuedWork (s.tryComplete d completion).2 from hwork)
      obtain ⟨k, hk, -⟩ := hwork'.live q hq
      simp [State.release, hseq] at hk
    | false =>
      cases hkind : completion.kind with
      | failure reason =>
        have hstate : (s.tryComplete d completion).2 =
            (s.release completion.sequence).failLocked reason := by
          simp [State.tryComplete, hl, htoken, hactive, hrunning, hdone, hkind]
        have hwork' := hstate ▸ (show QueuedWork (s.tryComplete d completion).2 from hwork)
        have hkept : q ∈ ((s.release completion.sequence).failLocked reason).commands := by
          rw [failLocked_commands]
          refine List.mem_filter.mpr ⟨hq, ?_⟩
          simp [mem_undispatched_iff, State.release, hseq]
        obtain ⟨k, hk, -⟩ := hwork'.live q hkept
        simp [failLocked_live, State.release, hseq] at hk
      | success frames emissions signals events =>
        have hroom : s.completionFull d completion = false := by
          simpa [htoken, hkind] using hentry
        have hstate : (s.tryComplete d completion).2 = s.accept d completion l := by
          rw [tryComplete_success hl hactive hrunning htoken hdone (by simp [hkind]), hroom]
          rfl
        have hwork' := hstate ▸ (show QueuedWork (s.tryComplete d completion).2 from hwork)
        obtain ⟨k, hk, -, hkdone⟩ := hwork'.live q (by rw [accept_commands]; exact hq)
        rw [accept_live, hseq, SortedMap.get?_insert, if_pos rfl] at hk
        cases hk
        cases hkdone
  | _ => cases hc

/-- Queued work stays wanted along every run in which no call is answered while its command is
in the queue and no deadline overflows, and every such operation leaves unwanted work queued. -/
theorem queuedWork_iff {h : History}
    (hr : (driver d).ReachableBy (fun h op => ¬ Premature d h.state op) h) :
    QueuedWork h.state ∧
      ∀ op, QueuedWork (h.next d op).state ↔ ¬ Premature d h.state op := by
  have hwork := work_reachable hr
  refine ⟨.of_inv hwork (controls_reachable hr), fun op => ⟨fun hq hc =>
    not_queuedWork_of_premature (bounds_reachable hr).1 hwork hc hq, fun hc => ?_⟩⟩
  have hr' := hr.step hc (show (driver d).step h op = some (h.next d op) from rfl)
  exact .of_inv (work_reachable hr') (controls_reachable hr')

/-- The run that answers a call nobody received, takes the answer and stops gracefully. -/
def unreceived : List Op :=
  [.trySubmit ⟨1, .prepare⟩ 0, .tryComplete (emptySuccess 1), .tryTakeCompletion,
    .beginGracefulStop, .tryReceive]

theorem queuedWork_fails : ¬ ∀ (d : ForeignNodeDriver) (h : History),
    (driver d).Reachable h → QueuedWork h.state := by
  intro hall
  obtain ⟨h, hr, hp⟩ := Transition.System.exists_reachable_of_run
    (M := driver (smallDriver .strict)) rfl unreceived
    (fun h => h.state.stopping && h.state.controls.isEmpty && h.state.tryReceive.1.isSome)
    (by decide +kernel)
  simp only [Bool.and_eq_true, List.isEmpty_iff, Option.isSome_iff_exists] at hp
  obtain ⟨⟨hstop, hempty⟩, command, hreceived⟩ := hp
  have hmem := ((hall _ h hr).stopping hstop command hreceived).1
  rw [hempty] at hmem
  cases hmem

theorem queuedWork_after_submit :
    QueuedWork (History.next (smallDriver .strict) ⟨.new, [], []⟩
      (.trySubmit ⟨1, .prepare⟩ 0)).state := by
  refine (queuedWork_iff (.step (.init rfl) ?_ rfl)).1
  simp [Premature, smallDriver]

end Muxiva.Foreign
