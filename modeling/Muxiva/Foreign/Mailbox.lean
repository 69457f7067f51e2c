import Mathlib.Algebra.Order.BigOperators.Group.List
import Mathlib.Algebra.Order.Ring.Nat
import Muxiva.Foreign.Moves

/-! The budgets of the two mailboxes and what ties them to the live calls. -/
set_option linter.all false
namespace Muxiva.Foreign
open Muxiva.Runtime (saturatingAdd)

variable (d : ForeignNodeDriver)

/-- The command side of the representation: what holds in every state. -/
structure Bounds (s : State) : Prop where
  commandCount : s.commands.length ≤ d.config.commandCapacity
  commandSum : s.commandBytes = (s.commands.map (·.bytes)).sum
  commandBound : s.commandBytes ≤ d.config.commandByteCapacity
  inFlight : s.live.size ≤ d.config.maxInFlight
  strictNodup : s.strictOrder.Nodup
  strictLive : d.config.ordering = .strict →
    ∀ x, x ∈ s.strictOrder ↔ ∃ l, s.live.get? x = some l
  cancelledStops : ∀ x l, s.live.get? x = some l → l.cancelled = true → s.stopping = true
  stoppingToken : s.stopping = true → s.tokenCancelled = true

variable {d}

theorem saturatingAdd_eq {a b : ℕ} (h : a + b ≤ maxMailboxBytes) : saturatingAdd a b = a + b := by
  have hlimit : maxMailboxBytes < 2 ^ 64 := by decide
  unfold saturatingAdd
  omega

theorem submitFull_false {s : State} {command : ForeignCommand}
    (h : s.submitFull d command = false) :
    s.live.size ≠ d.config.maxInFlight ∧ s.commands.length ≠ d.config.commandCapacity ∧
      s.commandBytes + command.commandBytes ≤ d.config.commandByteCapacity := by
  have hbound := (d.config.validate_bounds d.valid).2.1
  simpa [State.submitFull, fits_iff hbound, and_assoc] using h

namespace Bounds
variable {s : State}

theorem release (h : Bounds d s) (x : ℕ) : Bounds d (s.release x) where
  commandCount := h.commandCount
  commandSum := h.commandSum
  commandBound := h.commandBound
  inFlight := (SortedMap.size_erase_le _ _).trans h.inFlight
  strictNodup := h.strictNodup.erase x
  strictLive := by
    intro hstrict y
    simp only [State.release, removeSequence, h.strictNodup.mem_erase_iff, h.strictLive hstrict,
      SortedMap.get?_erase]
    by_cases hy : y = x <;> simp [hy]
  cancelledStops := by
    intro y l hl hc
    simp only [State.release, SortedMap.get?_erase] at hl
    split_ifs at hl
    exact h.cancelledStops y l hl hc
  stoppingToken := h.stoppingToken

theorem enqueue (h : Bounds d s) {command : ForeignCommand}
    (room : s.submitFull d command = false) (last : Option ℕ) :
    Bounds d ((s.withLast last).enqueue command) := by
  obtain ⟨-, hcount, hfits⟩ := submitFull_false room
  have hlimit := (d.config.validate_bounds d.valid).2.1
  have hsum : saturatingAdd s.commandBytes command.commandBytes
      = s.commandBytes + command.commandBytes := saturatingAdd_eq (by omega)
  have hold := h.commandCount
  refine { h with commandCount := ?_, commandSum := ?_, commandBound := ?_ }
  · simp only [State.enqueue, State.withLast, List.length_append, List.length_singleton]
    omega
  · simp only [State.enqueue, State.withLast, hsum, List.map_append, List.sum_append,
      ← h.commandSum, List.map_cons, List.map_nil, List.sum_singleton]
  · simp only [State.enqueue, State.withLast, hsum]
    exact hfits

theorem admitted (h : Bounds d s) {command : ForeignCommand} (now : ℕ)
    (fresh : s.live.get? command.sequence = none)
    (room : s.submitFull d command = false) (last : Option ℕ) :
    Bounds d ((s.withLast last).admitted d command now) := by
  have henq := h.enqueue room last
  obtain ⟨hsize, -, -⟩ := submitFull_false room
  have hbound := h.inFlight
  refine { henq with inFlight := ?_, strictNodup := ?_, strictLive := ?_, cancelledStops := ?_ }
  · simp only [State.admitted, State.withLast, SortedMap.size_insert fresh]
    omega
  · simp only [State.admitted, State.withLast]
    split_ifs with hstrict
    · have hnew : command.sequence ∉ s.strictOrder := by
        simp [h.strictLive hstrict, fresh]
      exact h.strictNodup.append (by simp) (by simpa using hnew)
    · exact h.strictNodup
  · intro hstrict y
    simp only [State.admitted, State.withLast, if_pos hstrict, List.mem_append,
      List.mem_singleton, h.strictLive hstrict, SortedMap.get?_insert]
    by_cases hy : y = command.sequence <;> simp [hy]
  · intro y l hl hc
    simp only [State.admitted, State.withLast, SortedMap.get?_insert] at hl
    split_ifs at hl
    · cases hl
      cases hc
    · exact h.cancelledStops y l hl hc

theorem failLocked (h : Bounds d s) (reason : AbortReason) : Bounds d (s.failLocked reason) where
  commandCount := by
    rw [failLocked_commands]
    exact (List.length_filter_le _ _).trans h.commandCount
  commandSum := by simp
  commandBound := by
    rw [failLocked_commandBytes, failLocked_commands]
    have hsub := (List.filter_sublist (l := s.commands)
      (p := fun queued => queued.command.sequence ∉ s.undispatched)).map QueuedCommand.bytes
    exact (hsub.sum_le_sum fun _ _ => Nat.zero_le _).trans (h.commandSum ▸ h.commandBound)
  inFlight := (failLocked_live_size s reason).trans h.inFlight
  strictNodup := by
    rw [failLocked_strictOrder]
    exact h.strictNodup.diff
  strictLive := by
    intro hstrict y
    rw [failLocked_strictOrder, h.strictNodup.mem_sdiff_iff, h.strictLive hstrict,
      mem_undispatched_iff, failLocked_live]
    cases hget : s.live.get? y with
    | none => simp
    | some l => cases hdisp : l.dispatched <;> simp [hdisp]
  cancelledStops := by simp
  stoppingToken := by simp

/-- Replacing one live entry by another that is cancelled only if the old one was. -/
theorem relive (h : Bounds d s) {x : ℕ} {l l' : LiveCommand} (hl : s.live.get? x = some l)
    (hc : l'.cancelled = true → l.cancelled = true) :
    Bounds d { s with live := s.live.insert x l' } := by
  have hlive : ∀ y, (∃ k, (s.live.insert x l').get? y = some k) ↔ ∃ k, s.live.get? y = some k := by
    intro y
    by_cases hy : y = x <;> simp [hy, hl]
  refine { h with inFlight := ?_, strictLive := ?_, cancelledStops := ?_ }
  · exact (SortedMap.size_insert_of_get? hl).trans_le h.inFlight
  · intro hstrict y
    rw [h.strictLive hstrict, hlive]
  · intro y k hk hkc
    simp only [SortedMap.get?_insert] at hk
    split_ifs at hk
    · cases hk
      exact h.cancelledStops x l hl (hc hkc)
    · exact h.cancelledStops y k hk hkc

theorem promoteStrict (h : Bounds d s) : Bounds d s.promoteStrict := by
  obtain ⟨heq, -⟩ | ⟨x, rest, queued, -, -, heq⟩ := promoteStrict_cases s
  · rwa [heq]
  · rw [heq]
    exact { h with }

theorem accept (h : Bounds d s) {completion : ForeignCompletion} {l : LiveCommand}
    (hl : s.live.get? completion.sequence = some l) : Bounds d (s.accept d completion l) := by
  have hmarked : Bounds d { s with
      live := s.live.insert completion.sequence { l with completionReceived := true } } :=
    h.relive hl id
  unfold State.accept
  dsimp only
  split
  · exact { hmarked with }
  · exact promoteStrict { hmarked with }

end Bounds

theorem bounds_new : Bounds d .new where
  commandCount := Nat.zero_le _
  commandSum := rfl
  commandBound := Nat.zero_le _
  inFlight := Nat.zero_le _
  strictNodup := .nil
  strictLive := by simp [State.new]
  cancelledStops := by simp [State.new]
  stoppingToken := by simp [State.new]

theorem Move.bounds {s s' : State} {e : Op × Reply} (m : Move d s e s') (h : Bounds d s) :
    Bounds d s' := by
  cases m with
  | quiet => exact { h with }
  | token => exact { h with stoppingToken := fun _ => rfl }
  | submit command now last running open_ fresh room fit => exact h.admitted now fresh room last
  | overflow command now last running open_ accepting fresh inLine room beyond =>
    exact h.enqueue room last
  | control => exact { h with }
  | receive queued commands idle front =>
    have hcount := h.commandCount
    have hsum := h.commandSum
    have hbound := h.commandBound
    simp only [front, List.length_cons, List.map_cons, List.sum_cons] at hcount hsum
    have hpopped : Bounds d { s with
        commands := commands, commandBytes := s.commandBytes - queued.bytes } := by
      refine { h with commandCount := ?_, commandSum := ?_, commandBound := ?_ }
      · exact Nat.le_of_succ_le hcount
      · dsimp only
        omega
      · exact (Nat.sub_le _ _).trans hbound
    cases hl : s.live.get? queued.command.sequence with
    | none => exact hpopped
    | some l => exact hpopped.relive hl id
  | late completion l total =>
    have hlate : Bounds d (s.withLate total) := { h with }
    exact hlate.release _
  | fail completion l reason => exact (h.release _).failLocked reason
  | accept completion l live => exact h.accept live
  | take queued ready front =>
    have hpopped : Bounds d
        { s with ready := ready, readyBytes := s.readyBytes - queued.bytes } := { h with }
    split_ifs
    · exact (hpopped.release _).promoteStrict
    · exact hpopped.release _
  | expire now due => exact { h.failLocked deadlineAbort with }
  | stop reason running => exact h.failLocked reason
  | graceful running idle =>
    exact { h with cancelledStops := fun _ _ _ _ => rfl, stoppingToken := fun _ => rfl }
  | acknowledge sequence l live cancelled => exact h.release sequence

/-- A call that has been answered. -/
def State.Answered (s : State) (x : ℕ) : Prop :=
  ∃ l, s.live.get? x = some l ∧ l.completionReceived = true

/-- A success entered with its measured size. -/
def QueuedCompletion.Sized (queued : QueuedCompletion) : Prop :=
  queued.bytes = queued.completion.completionBytes ∧
    ∀ reason, queued.completion.kind ≠ .failure reason

variable (d)

/-- The completion side of the representation. -/
structure Held (s : State) : Prop where
  count : s.ready.length + s.ordered.size ≤ d.config.completionCapacity
  readySum : s.readyBytes = (s.ready.map (·.bytes)).sum
  orderedSum : s.orderedBytes = (s.ordered.entries.map (·.2.bytes)).sum
  bound : s.readyBytes + s.orderedBytes ≤ d.config.completionByteCapacity
  readyLive : ∀ queued ∈ s.ready, s.Answered queued.completion.sequence
  orderedLive : ∀ x queued, s.ordered.get? x = some queued →
    queued.completion.sequence = x ∧ s.Answered x
  readyNodup : (s.ready.map (·.completion.sequence)).Nodup
  disjoint : ∀ queued ∈ s.ready, s.ordered.get? queued.completion.sequence = none
  received : s.stopping = false → ∀ x, s.Answered x →
    (∃ queued ∈ s.ready, queued.completion.sequence = x) ∨ ∃ queued, s.ordered.get? x = some queued
  drained : s.stopping = true → s.ready = [] ∧ s.ordered = .empty
  sorted : d.config.ordering = .unordered → s.ordered = .empty
  readySized : ∀ queued ∈ s.ready, queued.Sized
  orderedSized : ∀ x queued, s.ordered.get? x = some queued → queued.Sized

/-- A second completion of an answered call, after the token was cancelled from outside and
before the driver stops. -/
def Clashes (s : State) : Op → Prop
  | .tryComplete completion =>
    s.stopping = false ∧ s.tokenCancelled = true ∧ s.Answered completion.sequence
  | _ => False

variable {d}

theorem completionFull_false {s : State} (hs : Held d s) {completion : ForeignCompletion}
    (h : s.completionFull d completion = false) :
    s.ready.length + s.ordered.size ≠ d.config.completionCapacity ∧
      s.readyBytes + s.orderedBytes + completion.completionBytes
        ≤ d.config.completionByteCapacity := by
  have hlimit := (d.config.validate_bounds d.valid).2.2
  have hsum := saturatingAdd_eq (hs.bound.trans hlimit)
  simpa [State.completionFull, fits_iff hlimit, hsum] using h

namespace Held
variable {s : State}

/-- Only the answered calls, the two mailboxes and the stop flag matter. -/
theorem of_answered {s' : State} (h : Held d s) (hready : s'.ready = s.ready)
    (hreadyBytes : s'.readyBytes = s.readyBytes) (hordered : s'.ordered = s.ordered)
    (horderedBytes : s'.orderedBytes = s.orderedBytes) (hstopping : s'.stopping = s.stopping)
    (hanswered : ∀ x, s'.Answered x ↔ s.Answered x) : Held d s' := by
  constructor <;> simp only [hready, hreadyBytes, hordered, horderedBytes, hstopping, hanswered]
  exacts [h.count, h.readySum, h.orderedSum, h.bound, h.readyLive, h.orderedLive, h.readyNodup,
    h.disjoint, h.received, h.drained, h.sorted, h.readySized, h.orderedSized]

/-- Nothing is held. -/
theorem of_empty (hready : s.ready = []) (hreadyBytes : s.readyBytes = 0)
    (hordered : s.ordered = .empty) (horderedBytes : s.orderedBytes = 0)
    (hreceived : s.stopping = false → ∀ x, ¬ s.Answered x) : Held d s := by
  constructor <;> simp only [hready, hreadyBytes, hordered, horderedBytes]
  case received =>
    intro hrunning x hx
    exact absurd hx (hreceived hrunning x)
  all_goals simp

theorem failLocked (reason : AbortReason) : Held d (s.failLocked reason) :=
  of_empty rfl rfl rfl rfl (by simp)

theorem promoteStrict (h : Held d s) : Held d s.promoteStrict := by
  obtain ⟨heq, -⟩ | ⟨x, rest, queued, -, hget, heq⟩ := promoteStrict_cases s
  · rwa [heq]
  rw [heq]
  have hsize := SortedMap.size_erase hget
  have hperm := (SortedMap.entries_erase_perm hget).map (·.2.bytes) |>.sum_eq
  simp only [List.map_cons, List.sum_cons] at hperm
  have hbound := h.bound
  have hlimit := (d.config.validate_bounds d.valid).2.2
  have horderedSum := h.orderedSum
  have hsum : saturatingAdd s.readyBytes queued.bytes = s.readyBytes + queued.bytes :=
    saturatingAdd_eq (by omega)
  have hcount := h.count
  obtain ⟨hseq, hanswered⟩ := h.orderedLive x queued hget
  have hstill : ∀ y, (s.promoted x queued).Answered y ↔ s.Answered y := fun _ => Iff.rfl
  constructor <;> simp only [State.promoted]
  case count =>
    rw [List.length_append, List.length_singleton]
    omega
  case readySum =>
    simp only [hsum, List.map_append, List.sum_append, List.map_cons, List.map_nil,
      List.sum_singleton, ← h.readySum]
  case orderedSum => omega
  case bound => omega
  case readyLive =>
    intro q hq
    rcases List.mem_append.mp hq with hq | hq
    · exact h.readyLive q hq
    · rw [List.mem_singleton.mp hq, hseq]
      exact hanswered
  case orderedLive =>
    intro y q hq
    rw [SortedMap.get?_erase] at hq
    split_ifs at hq
    exact h.orderedLive y q hq
  case readyNodup =>
    rw [List.map_append]
    refine h.readyNodup.append (by simp) ?_
    intro y hy hy'
    obtain ⟨q, hq, rfl⟩ := List.mem_map.mp hy
    simp only [List.map_cons, List.map_nil, List.mem_singleton] at hy'
    have hnone := h.disjoint q hq
    rw [hy', hseq, hget] at hnone
    cases hnone
  case disjoint =>
    intro q hq
    rw [SortedMap.get?_erase]
    split_ifs with hx
    · rfl
    rcases List.mem_append.mp hq with hq | hq
    · exact h.disjoint q hq
    · rw [List.mem_singleton.mp hq] at hx
      exact absurd hseq hx
  case received =>
    intro hrunning y hy
    by_cases hyx : y = x
    · exact .inl ⟨queued, by simp, hseq.trans hyx.symm⟩
    rcases h.received hrunning y hy with ⟨q, hq, hqy⟩ | ⟨q, hq⟩
    · exact .inl ⟨q, List.mem_append_left _ hq, hqy⟩
    · refine .inr ⟨q, ?_⟩
      rw [SortedMap.get?_erase, if_neg hyx]
      exact hq
  case drained =>
    intro hstop
    rw [(h.drained hstop).2] at hget
    cases hget
  case sorted =>
    intro hun
    rw [h.sorted hun] at hget
    cases hget
  case readySized =>
    intro q hq
    rcases List.mem_append.mp hq with hq | hq
    · exact h.readySized q hq
    · rw [List.mem_singleton.mp hq]
      exact h.orderedSized x queued hget
  case orderedSized =>
    intro y q hq
    rw [SortedMap.get?_erase] at hq
    split_ifs at hq
    exact h.orderedSized y q hq

section Accept
variable {completion : ForeignCompletion} {l : LiveCommand}

theorem answered_mark (x : ℕ) :
    (State.Answered { s with
      live := s.live.insert completion.sequence { l with completionReceived := true } } x) ↔
      x = completion.sequence ∨ s.Answered x := by
  simp only [State.Answered, SortedMap.get?_insert]
  by_cases hx : x = completion.sequence <;> simp [hx]

/-- An unanswered call is in neither mailbox. -/
theorem absent (h : Held d s) {x : ℕ} (hx : ¬ s.Answered x) :
    (∀ queued ∈ s.ready, queued.completion.sequence ≠ x) ∧ s.ordered.get? x = none := by
  constructor
  · intro queued hq heq
    exact hx (heq ▸ h.readyLive queued hq)
  · cases hget : s.ordered.get? x with
    | none => rfl
    | some queued => exact absurd (h.orderedLive x queued hget).2 hx

theorem ready (h : Held d s) (hun : d.config.ordering = .unordered)
    (hrunning : s.stopping = false) (hnew : ¬ s.Answered completion.sequence)
    (success : ∀ reason, completion.kind ≠ .failure reason)
    (room : s.completionFull d completion = false) :
    Held d { s with
      live := s.live.insert completion.sequence { l with completionReceived := true }
      readyBytes := saturatingAdd s.readyBytes completion.completionBytes
      ready := s.ready ++ [⟨completion, completion.completionBytes⟩] } := by
  obtain ⟨hcount, hbound⟩ := completionFull_false h room
  have hlimit := (d.config.validate_bounds d.valid).2.2
  have hold := h.count
  have hsum : saturatingAdd s.readyBytes completion.completionBytes
      = s.readyBytes + completion.completionBytes := saturatingAdd_eq (by omega)
  obtain ⟨habsent, -⟩ := h.absent hnew
  have hempty := h.sorted hun
  constructor
  case count =>
    dsimp only
    rw [List.length_append, List.length_singleton]
    omega
  case readySum =>
    simp only [hsum, List.map_append, List.sum_append, List.map_cons, List.map_nil,
      List.sum_singleton, ← h.readySum]
  case orderedSum => exact h.orderedSum
  case bound =>
    dsimp only
    omega
  case readyLive =>
    intro q hq
    refine (answered_mark _).mpr ?_
    rcases List.mem_append.mp hq with hq | hq
    · exact .inr (h.readyLive q hq)
    · rw [List.mem_singleton.mp hq]
      exact .inl rfl
  case orderedLive =>
    intro y q hq
    simp [hempty] at hq
  case readyNodup =>
    dsimp only
    rw [List.map_append]
    refine h.readyNodup.append (by simp) ?_
    intro y hy hy'
    obtain ⟨q, hq, rfl⟩ := List.mem_map.mp hy
    exact habsent q hq (by simpa using hy')
  case disjoint => simp [hempty]
  case received =>
    intro _ y hy
    refine .inl ?_
    rcases (answered_mark y).mp hy with hy | hy
    · exact ⟨_, List.mem_append_right _ (List.mem_singleton_self _), hy.symm⟩
    · rcases h.received hrunning y hy with ⟨q, hq, hqy⟩ | ⟨q, hq⟩
      · exact ⟨q, List.mem_append_left _ hq, hqy⟩
      · simp [hempty] at hq
  case drained => simp [hrunning]
  case sorted => exact h.sorted
  case readySized =>
    intro q hq
    rcases List.mem_append.mp hq with hq | hq
    · exact h.readySized q hq
    · rw [List.mem_singleton.mp hq]
      exact ⟨rfl, success⟩
  case orderedSized => exact h.orderedSized

theorem order (h : Held d s) (hstrict : d.config.ordering = .strict)
    (hrunning : s.stopping = false) (hnew : ¬ s.Answered completion.sequence)
    (success : ∀ reason, completion.kind ≠ .failure reason)
    (room : s.completionFull d completion = false) :
    Held d { s with
      live := s.live.insert completion.sequence { l with completionReceived := true }
      orderedBytes := saturatingAdd s.orderedBytes completion.completionBytes
      ordered := s.ordered.insert completion.sequence
        ⟨completion, completion.completionBytes⟩ } := by
  obtain ⟨hcount, hbound⟩ := completionFull_false h room
  have hlimit := (d.config.validate_bounds d.valid).2.2
  have hold := h.count
  have hsum : saturatingAdd s.orderedBytes completion.completionBytes
      = s.orderedBytes + completion.completionBytes := saturatingAdd_eq (by omega)
  obtain ⟨habsent, hnone⟩ := h.absent hnew
  have hperm := (SortedMap.entries_insert_perm (v := (⟨completion, completion.completionBytes⟩ :
    QueuedCompletion)) hnone).map (·.2.bytes) |>.sum_eq
  simp only [List.map_cons, List.sum_cons, ← h.orderedSum] at hperm
  constructor
  case count =>
    dsimp only
    rw [SortedMap.size_insert hnone]
    omega
  case readySum => exact h.readySum
  case orderedSum =>
    dsimp only
    omega
  case bound =>
    dsimp only
    omega
  case readyLive =>
    intro q hq
    exact (answered_mark _).mpr (.inr (h.readyLive q hq))
  case orderedLive =>
    intro y q hq
    dsimp only at hq
    rw [SortedMap.get?_insert] at hq
    split_ifs at hq with hy
    · cases hq
      exact ⟨hy.symm, (answered_mark y).mpr (.inl hy)⟩
    · obtain ⟨hseq, hans⟩ := h.orderedLive y q hq
      exact ⟨hseq, (answered_mark y).mpr (.inr hans)⟩
  case readyNodup => exact h.readyNodup
  case disjoint =>
    intro q hq
    dsimp only
    rw [SortedMap.get?_insert, if_neg (habsent q hq)]
    exact h.disjoint q hq
  case received =>
    intro _ y hy
    by_cases hyx : y = completion.sequence
    · exact .inr ⟨_, by rw [SortedMap.get?_insert, if_pos hyx]⟩
    have hans := ((answered_mark y).mp hy).resolve_left hyx
    rcases h.received hrunning y hans with hq | ⟨q, hq⟩
    · exact .inl hq
    · refine .inr ⟨q, ?_⟩
      rw [SortedMap.get?_insert, if_neg hyx]
      exact hq
  case drained => simp [hrunning]
  case sorted => simp [hstrict]
  case readySized => exact h.readySized
  case orderedSized =>
    intro y q hq
    dsimp only at hq
    rw [SortedMap.get?_insert] at hq
    split_ifs at hq
    · cases hq
      exact ⟨rfl, success⟩
    · exact h.orderedSized y q hq

theorem accept (h : Held d s) (hrunning : s.stopping = false)
    (hnew : ¬ s.Answered completion.sequence)
    (success : ∀ reason, completion.kind ≠ .failure reason)
    (room : s.completionFull d completion = false) : Held d (s.accept d completion l) := by
  unfold State.accept
  dsimp only
  cases hord : d.config.ordering with
  | unordered => exact h.ready hord hrunning hnew success room
  | strict => exact (h.order hord hrunning hnew success room).promoteStrict

end Accept

theorem answered_release (x y : ℕ) : (s.release x).Answered y ↔ y ≠ x ∧ s.Answered y := by
  simp only [State.Answered, State.release, SortedMap.get?_erase]
  by_cases hy : y = x <;> simp [hy]

theorem release (h : Held d s) {x : ℕ} (hx : ¬ s.Answered x) : Held d (s.release x) := by
  refine h.of_answered rfl rfl rfl rfl rfl fun y => ?_
  rw [answered_release]
  exact and_iff_right_of_imp fun hy hyx => hx (hyx ▸ hy)

theorem take (h : Held d s) {queued : QueuedCompletion} {ready : List QueuedCompletion}
    (front : s.ready = queued :: ready) :
    Held d (State.release { s with ready := ready, readyBytes := s.readyBytes - queued.bytes }
      queued.completion.sequence) := by
  have hcount := h.count
  have hsum := h.readySum
  have hbound := h.bound
  have hnodup := h.readyNodup
  have hmem : ∀ q ∈ ready, q ∈ s.ready := fun q hq => front ▸ List.mem_cons_of_mem _ hq
  simp only [front, List.length_cons, List.map_cons, List.sum_cons, List.nodup_cons] at hcount hsum hnodup
  have hother : ∀ q ∈ ready, q.completion.sequence ≠ queued.completion.sequence :=
    fun q hq heq => hnodup.1 (List.mem_map.mpr ⟨q, hq, heq⟩)
  have hnone := h.disjoint queued (front ▸ List.mem_cons_self)
  have hans := answered_release
    (s := { s with ready := ready, readyBytes := s.readyBytes - queued.bytes })
    queued.completion.sequence
  constructor
  case count =>
    dsimp only [State.release]
    omega
  case readySum =>
    dsimp only [State.release]
    omega
  case orderedSum => exact h.orderedSum
  case bound =>
    dsimp only [State.release]
    omega
  case readyLive => exact fun q hq => (hans _).mpr ⟨hother q hq, h.readyLive q (hmem q hq)⟩
  case orderedLive =>
    intro y q hq
    obtain ⟨hseq, hy⟩ := h.orderedLive y q hq
    refine ⟨hseq, (hans y).mpr ⟨?_, hy⟩⟩
    rintro rfl
    rw [State.release] at hq
    simp [hnone] at hq
  case readyNodup => exact hnodup.2
  case disjoint => exact fun q hq => h.disjoint q (hmem q hq)
  case received =>
    intro hrunning y hy
    obtain ⟨hne, hy⟩ := (hans y).mp hy
    rcases h.received hrunning y hy with ⟨q, hq, hqy⟩ | hq
    · rw [front] at hq
      rcases List.mem_cons.mp hq with rfl | hq
      · exact absurd hqy.symm hne
      · exact .inl ⟨q, hq, hqy⟩
    · exact .inr hq
  case drained =>
    intro hstop
    have hempty := (h.drained hstop).1
    rw [front] at hempty
    cases hempty
  case sorted => exact h.sorted
  case readySized => exact fun q hq => h.readySized q (hmem q hq)
  case orderedSized => exact h.orderedSized

theorem new : Held d .new :=
  of_empty rfl rfl rfl rfl (by simp [State.Answered, State.new])

end Held

theorem Move.held {s s' : State} {op : Op} {reply : Reply} (m : Move d s (op, reply) s')
    (hb : Bounds d s) (h : Held d s) (hc : ¬ Clashes s op) : Held d s' := by
  cases m with
  | quiet => exact h.of_answered rfl rfl rfl rfl rfl fun _ => Iff.rfl
  | token => exact h.of_answered rfl rfl rfl rfl rfl fun _ => Iff.rfl
  | submit command now last running open_ fresh room fit =>
    refine h.of_answered rfl rfl rfl rfl rfl fun x => ?_
    simp only [State.Answered, State.admitted, State.withLast, SortedMap.get?_insert]
    by_cases hx : x = command.sequence <;> simp [hx, fresh]
  | overflow => exact h.of_answered rfl rfl rfl rfl rfl fun _ => Iff.rfl
  | control => exact h.of_answered rfl rfl rfl rfl rfl fun _ => Iff.rfl
  | receive queued commands idle front =>
    refine h.of_answered rfl rfl rfl rfl rfl fun x => ?_
    simp only [State.Answered]
    cases hl : s.live.get? queued.command.sequence with
    | none => rfl
    | some l => by_cases hx : x = queued.command.sequence <;> simp [hx, hl]
  | late completion l total live closed =>
    have hlate : Held d (s.withLate total) := h.of_answered rfl rfl rfl rfl rfl fun _ => Iff.rfl
    cases hstop : s.stopping with
    | true =>
      obtain ⟨hready, hordered⟩ := h.drained hstop
      refine Held.of_empty hready ?_ hordered ?_ (by simp [State.release, State.withLate, hstop])
      · simp [State.release, State.withLate, h.readySum, hready]
      · simp [State.release, State.withLate, h.orderedSum, hordered]
    | false =>
      refine hlate.release fun hans => hc ⟨hstop, ?_, hans⟩
      rcases closed with hcancel | hstop' | htoken
      · rw [hb.cancelledStops _ l live hcancel] at hstop
        cases hstop
      · rw [hstop'] at hstop
        cases hstop
      · exact htoken
  | fail => exact Held.failLocked _
  | accept completion l live active running open_ waiting success room =>
    refine h.accept running ?_ success room
    rintro ⟨l', hl', hdone⟩
    rw [live] at hl'
    cases hl'
    rw [waiting] at hdone
    cases hdone
  | take queued ready front =>
    split_ifs
    · exact (h.take front).promoteStrict
    · exact h.take front
  | expire =>
    dsimp only
    exact (Held.failLocked (s := s) deadlineAbort).of_answered rfl rfl rfl rfl rfl
      fun _ => Iff.rfl
  | stop => exact Held.failLocked _
  | graceful running idle =>
    have hnone : ∀ x, ¬ s.Answered x := by
      rintro x ⟨l, hl, -⟩
      have := (SortedMap.mem_entries_iff _ _ _).mpr hl
      rw [idle] at this
      cases this
    have hready : s.ready = [] := List.eq_nil_iff_forall_not_mem.mpr
      fun q hq => hnone _ (h.readyLive q hq)
    have hordered : s.ordered.entries = [] := List.eq_nil_iff_forall_not_mem.mpr
      fun e he => hnone _ (h.orderedLive e.1 e.2 ((SortedMap.mem_entries_iff _ _ _).mp he)).2
    refine Held.of_empty hready ?_ ?_ ?_ fun _ => hnone
    · simp [h.readySum, hready]
    · exact SortedMap.ext_entries hordered
    · simp [h.orderedSum, hordered]
  | acknowledge sequence l live cancelled =>
    have hstop := hb.cancelledStops _ l live cancelled
    obtain ⟨hready, hordered⟩ := h.drained hstop
    refine Held.of_empty hready ?_ hordered ?_ (by simp [State.release, hstop])
    · simp [State.release, h.readySum, hready]
    · simp [State.release, h.orderedSum, hordered]

/-- The order of the live calls is the one of their submission. -/
theorem Move.strictOrder_sublist {s s' : State} {e : Op × Reply} (m : Move d s e s')
    {submitted : List ℕ} (h : s.strictOrder.Sublist submitted) :
    s'.strictOrder.Sublist (submitted ++ (accepted e).toList) := by
  have hstay := h.trans (List.sublist_append_left submitted (accepted e).toList)
  cases m with
  | quiet => exact hstay
  | token => exact hstay
  | submit command now last =>
    simp only [State.admitted, State.withLast, accepted, Option.toList_some]
    split_ifs
    · exact h.append (.refl _)
    · exact h.trans (List.sublist_append_left _ _)
  | overflow => exact hstay
  | control => exact hstay
  | receive => exact hstay
  | late completion => exact List.erase_sublist.trans hstay
  | fail completion l reason =>
    rw [failLocked_strictOrder]
    exact ((List.diff_sublist _ _).trans List.erase_sublist).trans hstay
  | accept completion l =>
    rw [accept_strictOrder]
    exact hstay
  | take queued ready front =>
    split_ifs
    · rw [promoteStrict_strictOrder]
      exact List.erase_sublist.trans hstay
    · exact List.erase_sublist.trans hstay
  | expire =>
    refine List.Sublist.trans ?_ hstay
    exact (failLocked_strictOrder s deadlineAbort) ▸ List.diff_sublist _ _
  | stop reason =>
    rw [failLocked_strictOrder]
    exact (List.diff_sublist _ _).trans hstay
  | graceful => exact hstay
  | acknowledge => exact List.erase_sublist.trans hstay

variable (d)

/-- The representation invariant of the driver: every budget is what it counts and within its
limit, the strict order is the live calls as submitted, and what is held is live and answered. -/
structure Representation (h : History) : Prop where
  commandCount : h.state.commands.length ≤ d.config.commandCapacity
  commandSum : h.state.commandBytes = (h.state.commands.map (·.bytes)).sum
  commandBound : h.state.commandBytes ≤ d.config.commandByteCapacity
  completionCount : h.state.ready.length + h.state.ordered.size ≤ d.config.completionCapacity
  readySum : h.state.readyBytes = (h.state.ready.map (·.bytes)).sum
  orderedSum : h.state.orderedBytes = (h.state.ordered.entries.map (·.2.bytes)).sum
  completionBound :
    h.state.readyBytes + h.state.orderedBytes ≤ d.config.completionByteCapacity
  inFlight : h.state.live.size ≤ d.config.maxInFlight
  strictOrder : d.config.ordering = .strict → h.state.strictOrder.Nodup ∧
    (∀ x, x ∈ h.state.strictOrder ↔ ∃ l, h.state.live.get? x = some l) ∧
    h.state.strictOrder.Sublist h.accepted
  readyLive : ∀ queued ∈ h.state.ready, h.state.Answered queued.completion.sequence
  orderedLive : ∀ x queued, h.state.ordered.get? x = some queued →
    queued.completion.sequence = x ∧ h.state.Answered x

variable {d}

/-- The budgets and the order hold in every run. -/
theorem bounds_reachable {C : History → Op → Prop} {h : History}
    (hr : (driver d).ReachableBy C h) :
    Bounds d h.state ∧ h.state.strictOrder.Sublist h.accepted := by
  refine driver_invariant (I := fun h => Bounds d h.state ∧
    h.state.strictOrder.Sublist h.accepted) ⟨bounds_new, .slnil⟩ ?_ hr
  · rintro h op - ⟨hb, hs⟩ -
    have hmove := apply_move (d := d) h.state op
    rw [History.next_accepted]
    exact ⟨hmove.bounds hb, hmove.strictOrder_sublist hs⟩

theorem held_reachable {h : History}
    (hr : (driver d).ReachableBy (fun h op => ¬ Clashes h.state op) h) : Held d h.state := by
  refine driver_invariant (I := fun h => Held d h.state) Held.new ?_ hr
  intro h op hr hh hc
  exact (apply_move h.state op).held (bounds_reachable hr).1 hh hc

theorem Representation.of_parts {h : History} (hb : Bounds d h.state) (hh : Held d h.state)
    (hs : h.state.strictOrder.Sublist h.accepted) : Representation d h where
  commandCount := hb.commandCount
  commandSum := hb.commandSum
  commandBound := hb.commandBound
  completionCount := hh.count
  readySum := hh.readySum
  orderedSum := hh.orderedSum
  completionBound := hh.bound
  inFlight := hb.inFlight
  strictOrder := fun hstrict => ⟨hb.strictNodup, hb.strictLive hstrict, hs⟩
  readyLive := hh.readyLive
  orderedLive := hh.orderedLive

/-- A clashing completion removes the live entry of a call whose completion stays held. -/
theorem not_representation_of_clashes {h : History} {op : Op} (hh : Held d h.state)
    (hc : Clashes h.state op) : ¬ Representation d (h.next d op) := by
  cases op with
  | tryComplete completion =>
    obtain ⟨hrunning, htoken, l, hl, hdone⟩ := hc
    have hstate : (h.next d (.tryComplete completion)).state =
        (h.state.withLate (saturatingAdd h.state.lateCompletionTotal 1)).release
          completion.sequence := by
      simp [History.next, State.apply, State.tryComplete, hl, htoken, State.withLate]
    have hgone : ¬ (h.next d (.tryComplete completion)).state.Answered completion.sequence := by
      rw [hstate, Held.answered_release]
      simp
    intro hrep
    rcases hh.received hrunning _ ⟨l, hl, hdone⟩ with ⟨q, hq, hseq⟩ | ⟨q, hq⟩
    · have hready := hrep.readyLive q (by rw [hstate]; exact hq)
      rw [hseq] at hready
      exact hgone hready
    · exact hgone (hrep.orderedLive _ q (by rw [hstate]; exact hq)).2
  | _ => cases hc

/-- The representation invariant holds along every run in which no answered call is completed
again between an outside cancellation of the token and the stop, and such a completion breaks
it. -/
theorem representation_iff {h : History}
    (hr : (driver d).ReachableBy (fun h op => ¬ Clashes h.state op) h) :
    Representation d h ∧
      ∀ op, Representation d (h.next d op) ↔ ¬ Clashes h.state op := by
  obtain ⟨hb, hs⟩ := bounds_reachable hr
  have hh := held_reachable hr
  refine ⟨.of_parts hb hh hs, fun op => ⟨fun hrep hc =>
    not_representation_of_clashes hh hc hrep, fun hc => ?_⟩⟩
  have hr' := hr.step hc (show (driver d).step h op = some (h.next d op) from rfl)
  obtain ⟨hb', hs'⟩ := bounds_reachable hr'
  exact .of_parts hb' (held_reachable hr') hs'

/-- The run that answers a call, cancels the token from outside and answers the call again. -/
def clashingRun : List Op :=
  [.trySubmit ⟨1, .prepare⟩ 0, .tryReceive, .tryComplete (emptySuccess 1), .cancelToken,
    .tryComplete (emptySuccess 1)]

theorem representation_fails : ¬ ∀ (d : ForeignNodeDriver) (h : History),
    (driver d).Reachable h → Representation d h := by
  intro hall
  obtain ⟨h, hr, hp⟩ := Transition.System.exists_reachable_of_run
    (M := driver (smallDriver .unordered)) rfl clashingRun
    (fun h => h.state.ready.any fun q => !h.state.live.contains q.completion.sequence)
    (by decide +kernel)
  obtain ⟨q, hq, hgone⟩ := List.any_eq_true.mp hp
  obtain ⟨l, hl, -⟩ := (hall _ h hr).readyLive q hq
  simp [SortedMap.contains, hl] at hgone

theorem representation_after_submit :
    Representation (smallDriver .strict)
      (History.next (smallDriver .strict) ⟨.new, [], []⟩ (.trySubmit ⟨1, .prepare⟩ 0)) :=
  (representation_iff (.step (.init rfl) id rfl)).1

end Muxiva.Foreign
