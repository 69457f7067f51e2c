import Muxiva.Foreign.Order

/-! When draining the driver makes room for a refused completion. Under strict release the
completions held out of order take the room of the oldest call, and only that call can free it. -/
set_option linter.all false
namespace Muxiva.Foreign
open Muxiva.Runtime (saturatingAdd)

/-- The four mailbox operations. -/
def Op.ofMailbox : Op → Prop
  | .trySubmit .. => True
  | .tryReceive => True
  | .tryComplete _ => True
  | .tryTakeCompletion => True
  | _ => False

variable (d : ForeignNodeDriver)

/-- A refused success of an unanswered call that would fit an empty mailbox finds a completion to
take. -/
def Drains : Prop :=
  ∀ h, (driver d).ReachableBy (fun _ op => op.ofMailbox) h → h.state.stopping = false →
    ∀ completion l, (∀ reason, completion.kind ≠ .failure reason) →
      h.state.live.get? completion.sequence = some l → l.completionReceived = false →
      completion.completionBytes ≤ d.config.completionByteCapacity →
      (h.state.tryComplete d completion).1 = .full → (h.state.tryTakeCompletion d).1.isSome = true

/-- No completion can be held back, or all calls in flight fit the completion mailbox at once
because only empty successes fit it. -/
def ForeignDriverConfig.RoomForAll (c : ForeignDriverConfig) : Prop :=
  c.ordering = .unordered ∨ c.maxInFlight = 1 ∨
    (c.maxInFlight ≤ c.completionCapacity ∧ c.maxInFlight ≤ c.completionByteCapacity ∧
      c.completionByteCapacity < 65)

variable {d}

theorem held_of_mailbox {h : History}
    (hr : (driver d).ReachableBy (fun _ op => op.ofMailbox) h) : Held d h.state := by
  have hdriver : (driver d).ReachableBy (fun _ op => op.ofDriver) h := by
    refine hr.mono fun _ op hop => ?_
    cases op <;> trivial
  exact held_reachable (reachable_of_driver hdriver).2

theorem completionFull_of_full {s : State} {completion : ForeignCompletion}
    (h : (s.tryComplete d completion).1 = .full) : s.completionFull d completion = true := by
  unfold State.tryComplete at h
  repeat' split at h
  all_goals first | assumption | cases h

/-- The calls held out of order and one unanswered call are all live. -/
theorem ordered_size_lt {s : State} (hb : Bounds d s) (hh : Held d s) {x : ℕ} {l : LiveCommand}
    (hl : s.live.get? x = some l) (hwait : l.completionReceived = false) :
    s.ordered.size + 1 ≤ d.config.maxInFlight := by
  have hx : x ∉ s.ordered.keys := by
    rw [SortedMap.mem_keys_iff]
    rintro ⟨q, hq⟩
    obtain ⟨-, l', hl', hdone⟩ := hh.orderedLive x q hq
    rw [hl] at hl'
    cases hl'
    rw [hwait] at hdone
    cases hdone
  have hsub : x :: s.ordered.keys ⊆ s.live.keys := by
    intro y hy
    rw [SortedMap.mem_keys_iff]
    rcases List.mem_cons.mp hy with rfl | hy
    · exact ⟨l, hl⟩
    · obtain ⟨q, hq⟩ := (SortedMap.mem_keys_iff _ _).mp hy
      obtain ⟨-, l', hl', -⟩ := hh.orderedLive y q hq
      exact ⟨l', hl'⟩
  have hle := (List.subperm_of_subset (List.nodup_cons.mpr ⟨hx, s.ordered.nodup_keys⟩)
    hsub).length_le
  simp only [List.length_cons, SortedMap.length_keys] at hle
  exact hle.trans hb.inFlight

/-- A success of less than 65 bytes carries nothing. -/
theorem success_eq_one {completion : ForeignCompletion}
    (hsuccess : ∀ reason, completion.kind ≠ .failure reason)
    (hle : completion.completionBytes < 65) : completion.completionBytes = 1 := by
  cases hkind : completion.kind with
  | failure reason => exact absurd hkind (hsuccess reason)
  | success frames emissions signals events =>
    rcases ForeignCompletion.completionBytes_success hkind with h1 | h65 <;> omega

/-- With nothing ready, the held completions alone decide. -/
theorem not_full_of_ready_nil {s : State} (hh : Held d s) {completion : ForeignCompletion}
    (hready : s.ready = []) (hcount : s.ordered.size ≠ d.config.completionCapacity)
    (hbytes : s.orderedBytes + completion.completionBytes ≤ d.config.completionByteCapacity) :
    s.completionFull d completion = false := by
  have hlimit := (d.config.validate_bounds d.valid).2.2
  have hzero : s.readyBytes = 0 := by simp [hh.readySum, hready]
  have hsum : saturatingAdd s.readyBytes s.orderedBytes = s.orderedBytes := by
    rw [saturatingAdd_eq (hh.bound.trans hlimit), hzero, Nat.zero_add]
  simp [State.completionFull, hready, hcount, hsum, fits_iff hlimit, hbytes]

theorem orderedBytes_of_size_zero {s : State} (hh : Held d s) (h : s.ordered.size = 0) :
    s.orderedBytes = 0 := by
  rw [hh.orderedSum, List.eq_nil_of_length_eq_zero h]
  rfl

/-- Where only empty successes fit, what is held takes one byte each. -/
theorem orderedBytes_eq_size {s : State} (hh : Held d s)
    (hsmall : d.config.completionByteCapacity < 65) : s.orderedBytes = s.ordered.size := by
  have hone : ∀ b ∈ s.ordered.entries.map (·.2.bytes), b = 1 := by
    intro b hb
    obtain ⟨e, he, rfl⟩ := List.mem_map.mp hb
    have hle : e.2.bytes ≤ s.orderedBytes := hh.orderedSum ▸ List.single_le_sum (by simp) _ hb
    have hbound := hh.bound
    have hget := (SortedMap.mem_entries_iff s.ordered e.1 e.2).mp he
    obtain ⟨hbytes, hsuccess⟩ := hh.orderedSized e.1 e.2 hget
    rw [hbytes]
    exact success_eq_one hsuccess (by omega)
  rw [hh.orderedSum, List.eq_replicate_of_mem hone]
  simp [SortedMap.size]

/-- A driver with room for all drains. -/
theorem drains_of_roomForAll (hroom : d.config.RoomForAll) : Drains d := by
  intro h hr hrunning completion l hsuccess hl hwait hfit hfull
  obtain ⟨hb, -⟩ := bounds_reachable hr
  have hh := held_of_mailbox hr
  cases hready : h.state.ready with
  | cons queued ready => simp [State.tryTakeCompletion, hready]
  | nil =>
    have hsize := ordered_size_lt hb hh hl hwait
    have hcap := d.config.completionCapacity_pos
    have hnot : h.state.completionFull d completion = false := by
      rcases hroom with hun | hone | ⟨hitems, hbytes, hsmall⟩
      · have hzero : h.state.ordered.size = 0 := by rw [hh.sorted hun]; rfl
        have hempty := orderedBytes_of_size_zero hh hzero
        exact not_full_of_ready_nil hh hready (by omega) (by omega)
      · have hempty := orderedBytes_of_size_zero hh (by omega)
        exact not_full_of_ready_nil hh hready (by omega) (by omega)
      · have hheld := orderedBytes_eq_size hh hsmall
        have hown := success_eq_one hsuccess (by omega)
        exact not_full_of_ready_nil hh hready (by omega) (by omega)
    exact absurd (completionFull_of_full hfull) (by simp [hnot])

/-- The strict driver with the calls `0, …, n - 1` received and none answered. -/
structure Loaded (n : ℕ) (s : State) : Prop where
  running : s.stopping = false
  open_ : s.tokenCancelled = false
  accepting : s.accepting = true
  commands : s.commands = []
  commandBytes : s.commandBytes = 0
  controls : s.controls = []
  last : s.lastStrictSequence = if n = 0 then none else some (n - 1)
  ready : s.ready = []
  readyBytes : s.readyBytes = 0
  ordered : s.ordered = .empty
  orderedBytes : s.orderedBytes = 0
  size : s.live.size = n
  live : ∀ x, x < n → ∃ l, s.live.get? x = some l ∧ l.cancelled = false ∧
    l.completionReceived = false
  fresh : ∀ x, n ≤ x → s.live.get? x = none
  order : s.strictOrder = List.range n

theorem loaded_succ (hstrict : d.config.ordering = .strict) {n : ℕ} {h : History}
    (hr : (driver d).ReachableBy (fun _ op => op.ofMailbox) h) (hl : Loaded n h.state)
    (hn : n < d.config.maxInFlight) (hlimit : n < 2 ^ 64) :
    ∃ h', (driver d).ReachableBy (fun _ op => op.ofMailbox) h' ∧ Loaded (n + 1) h'.state := by
  have hcommands := d.config.commandCapacity_pos
  have hbytes := d.config.commandByteCapacity_pos
  have hdeadline := (d.config.perCallDeadline_le d.valid).trans d.instantMax_ge
  have hroom : h.state.submitFull d ⟨n, .prepare⟩ = false := by
    have hbound := (d.config.validate_bounds d.valid).2.1
    simp only [State.submitFull, hl.size, hl.commands, hl.commandBytes, List.length_nil,
      ForeignCommand.commandBytes, Bool.or_eq_false_iff, decide_eq_false_iff_not,
      Bool.not_eq_false', fits_iff hbound]
    omega
  have hgap : h.state.strictGap ⟨n, .prepare⟩ = false := by
    unfold State.strictGap
    rw [hl.last]
    cases n with
    | zero => simp
    | succ m => simp [nextSequence]; omega
  have hsubmit : (h.state.trySubmit d ⟨n, .prepare⟩ 0).2 =
      (h.state.withLast (some n)).admitted d ⟨n, .prepare⟩ 0 := by
    have hroom' : (h.state.withLast (some n)).submitFull d ⟨n, .prepare⟩ = false := hroom
    have hnot : h.state.live.contains n = false := by
      simp [SortedMap.contains, hl.fresh n (le_refl n)]
    have henter := enter_accepted hroom' (show 0 + d.config.perCallDeadline ≤ _ by omega)
    simp [State.trySubmit, hl.running, hl.open_, hl.accepting, hnot, hstrict, hgap, henter]
  have hreceive : ((h.state.withLast (some n)).admitted d ⟨n, .prepare⟩ 0).tryReceive.2 =
      { (h.state.withLast (some n)).admitted d ⟨n, .prepare⟩ 0 with
        commands := []
        commandBytes := saturatingAdd 0 1 - 1
        live := (h.state.live.insert n ⟨0 + d.config.perCallDeadline, false, false, false⟩).insert n
          ⟨0 + d.config.perCallDeadline, true, false, false⟩ } := by
    simp [State.tryReceive, State.admitted, State.withLast, State.enqueue, hl.controls,
      hl.commands, hl.commandBytes, ForeignCommand.commandBytes]
  have hr1 : (driver d).ReachableBy (fun _ op => op.ofMailbox)
      (h.next d (.trySubmit ⟨n, .prepare⟩ 0)) := reachable_next hr trivial
  refine ⟨(h.next d (.trySubmit ⟨n, .prepare⟩ 0)).next d .tryReceive,
    reachable_next hr1 trivial, ?_⟩
  have hstate : ((h.next d (.trySubmit ⟨n, .prepare⟩ 0)).next d .tryReceive).state =
      { (h.state.withLast (some n)).admitted d ⟨n, .prepare⟩ 0 with
        commands := []
        commandBytes := saturatingAdd 0 1 - 1
        live := (h.state.live.insert n ⟨0 + d.config.perCallDeadline, false, false, false⟩).insert n
          ⟨0 + d.config.perCallDeadline, true, false, false⟩ } := by
    rw [← hreceive, ← hsubmit]
    rfl
  rw [hstate]
  constructor <;> simp only [State.admitted, State.withLast, State.enqueue]
  case running => exact hl.running
  case open_ => exact hl.open_
  case accepting => exact hl.accepting
  case commandBytes => rfl
  case controls => exact hl.controls
  case last => simp
  case ready => exact hl.ready
  case readyBytes => exact hl.readyBytes
  case ordered => exact hl.ordered
  case orderedBytes => exact hl.orderedBytes
  case size =>
    have hthere := SortedMap.get?_insert h.state.live n n
      (⟨0 + d.config.perCallDeadline, false, false, false⟩ : LiveCommand)
    rw [if_pos rfl] at hthere
    rw [SortedMap.size_insert_of_get? hthere, SortedMap.size_insert (hl.fresh n (le_refl n)),
      hl.size]
  case live =>
    intro x hx
    by_cases hxn : x = n
    · exact ⟨⟨0 + d.config.perCallDeadline, true, false, false⟩, by simp [hxn], rfl, rfl⟩
    · obtain ⟨l, hlive, hrest⟩ := hl.live x (by omega)
      exact ⟨l, by simpa [hxn] using hlive, hrest⟩
  case fresh =>
    intro x hx
    have hxn : x ≠ n := by omega
    simpa [hxn] using hl.fresh x (by omega)
  case order => rw [if_pos hstrict, hl.order, List.range_succ]

theorem loaded_reachable (hstrict : d.config.ordering = .strict) :
    ∀ n, n ≤ d.config.maxInFlight →
      ∃ h, (driver d).ReachableBy (fun _ op => op.ofMailbox) h ∧ Loaded n h.state := by
  intro n
  induction n with
  | zero =>
    intro _
    refine ⟨⟨.new, [], []⟩, .init rfl, ?_⟩
    constructor <;> simp [State.new]
  | succ n ih =>
    intro hn
    obtain ⟨h, hr, hl⟩ := ih (by omega)
    have hlimit := (d.config.validate_bounds d.valid).1
    have hsmall : maxInFlightLimit = 4096 := rfl
    exact loaded_succ hstrict hr hl (by omega) (by omega)

/-- The calls `1, …, m` of `0, …, n - 1` are answered and held back by the oldest call. -/
structure Blocked (n m : ℕ) (s : State) : Prop where
  running : s.stopping = false
  open_ : s.tokenCancelled = false
  ready : s.ready = []
  readyBytes : s.readyBytes = 0
  size : s.ordered.size = m
  orderedBytes : s.orderedBytes = m
  head : s.ordered.get? 0 = none
  tail : ∀ x, m < x → s.ordered.get? x = none
  live : ∀ x, x < n → x = 0 ∨ m < x → ∃ l, s.live.get? x = some l ∧ l.cancelled = false ∧
    l.completionReceived = false
  order : ∃ rest, s.strictOrder = 0 :: rest

theorem Loaded.blocked {n : ℕ} {s : State} (h : Loaded n s) (hn : 0 < n) : Blocked n 0 s where
  running := h.running
  open_ := h.open_
  ready := h.ready
  readyBytes := h.readyBytes
  size := by rw [h.ordered]; rfl
  orderedBytes := h.orderedBytes
  head := by rw [h.ordered]; rfl
  tail := fun x _ => by rw [h.ordered]; rfl
  live := fun x hx _ => h.live x hx
  order := by
    obtain ⟨m, rfl⟩ : ∃ m, n = m + 1 := ⟨n - 1, by omega⟩
    exact ⟨_, by rw [h.order, List.range_succ_eq_map]⟩

theorem Blocked.completionFull_iff {n m : ℕ} {s : State} (h : Blocked n m s)
    (hm : m ≤ maxInFlightLimit) (completion : ForeignCompletion) :
    s.completionFull d completion = true ↔ m = d.config.completionCapacity ∨
      d.config.completionByteCapacity < m + completion.completionBytes := by
  have hlimit := (d.config.validate_bounds d.valid).2.2
  have hsum : saturatingAdd s.readyBytes s.orderedBytes = m := by
    rw [h.readyBytes, h.orderedBytes, saturatingAdd_eq (by rw [Nat.zero_add]; exact hm.trans (by decide)),
      Nat.zero_add]
  rw [State.completionFull, hsum, h.ready, h.size, List.length_nil, Nat.zero_add, Bool.or_eq_true,
    decide_eq_true_eq, Bool.not_eq_true', ← Bool.not_eq_true, fits_iff hlimit, not_le]

theorem blocked_succ (hstrict : d.config.ordering = .strict) {n m : ℕ} {h : History}
    (hr : (driver d).ReachableBy (fun _ op => op.ofMailbox) h) (hb : Blocked n m h.state)
    (hn : m + 1 < n) (hlimit : m ≤ maxInFlightLimit)
    (hcap : m ≠ d.config.completionCapacity) (hbytes : m < d.config.completionByteCapacity) :
    ∃ h', (driver d).ReachableBy (fun _ op => op.ofMailbox) h' ∧ Blocked n (m + 1) h'.state := by
  obtain ⟨l, hl, hactive, hwait⟩ := hb.live (m + 1) hn (.inr (by omega))
  have hone : (emptySuccess (m + 1)).completionBytes = 1 := rfl
  have hroom : h.state.completionFull d (emptySuccess (m + 1)) = false := by
    rw [← Bool.not_eq_true, hb.completionFull_iff hlimit, hone]
    omega
  have hstate : (h.next d (.tryComplete (emptySuccess (m + 1)))).state =
      h.state.accept d (emptySuccess (m + 1)) l := by
    have hl' : h.state.live.get? (emptySuccess (m + 1)).sequence = some l := hl
    have haccept := tryComplete_success (d := d) hl' hactive hb.running hb.open_ hwait
      (by simp [emptySuccess])
    rw [hroom] at haccept
    exact congrArg Prod.snd haccept
  refine ⟨h.next d (.tryComplete (emptySuccess (m + 1))), reachable_next hr trivial, ?_⟩
  rw [hstate]
  obtain ⟨rest, hord⟩ := hb.order
  -- the oldest call is not answered, so nothing is promoted
  have hheld : h.state.accept d (emptySuccess (m + 1)) l = { h.state with
      live := h.state.live.insert (m + 1) { l with completionReceived := true }
      orderedBytes := saturatingAdd h.state.orderedBytes 1
      ordered := h.state.ordered.insert (m + 1) ⟨emptySuccess (m + 1), 1⟩ } := by
    unfold State.accept
    rw [hstrict]
    dsimp only
    obtain ⟨heq, -⟩ | ⟨x, rest', queued, hord', hget, -⟩ := promoteStrict_cases { h.state with
      live := h.state.live.insert (m + 1) { l with completionReceived := true }
      orderedBytes := saturatingAdd h.state.orderedBytes 1
      ordered := h.state.ordered.insert (m + 1) ⟨emptySuccess (m + 1), 1⟩ }
    · exact heq
    · dsimp only at hord' hget
      obtain rfl : 0 = x := (List.cons.inj (hord.symm.trans hord')).1
      rw [SortedMap.get?_insert, if_neg (by omega), hb.head] at hget
      cases hget
  have hnone := hb.tail (m + 1) (by omega)
  rw [hheld]
  constructor <;> dsimp only
  case running => exact hb.running
  case open_ => exact hb.open_
  case ready => exact hb.ready
  case readyBytes => exact hb.readyBytes
  case size => rw [SortedMap.size_insert hnone, hb.size]
  case orderedBytes =>
    rw [hb.orderedBytes]
    refine saturatingAdd_eq ?_
    have hmax : maxInFlightLimit + 1 ≤ maxMailboxBytes := by decide
    omega
  case head => rw [SortedMap.get?_insert, if_neg (by omega), hb.head]
  case tail =>
    intro x hx
    rw [SortedMap.get?_insert, if_neg (by omega)]
    exact hb.tail x (by omega)
  case live =>
    intro x hx hcase
    rw [SortedMap.get?_insert, if_neg (by omega)]
    exact hb.live x hx (hcase.imp_right fun h => by omega)
  case order => exact ⟨rest, hord⟩

theorem blocked_reachable (hstrict : d.config.ordering = .strict) {n : ℕ}
    (hn : n ≤ d.config.maxInFlight) :
    ∀ m, m < n → m ≤ d.config.completionCapacity → m ≤ d.config.completionByteCapacity →
      ∃ h, (driver d).ReachableBy (fun _ op => op.ofMailbox) h ∧ Blocked n m h.state := by
  intro m
  induction m with
  | zero =>
    intro hpos _ _
    obtain ⟨h, hr, hl⟩ := loaded_reachable hstrict n hn
    exact ⟨h, hr, hl.blocked hpos⟩
  | succ m ih =>
    intro hm hcap hbytes
    obtain ⟨h, hr, hb⟩ := ih (by omega) (by omega) (by omega)
    have hlimit := (d.config.validate_bounds d.valid).1
    exact blocked_succ hstrict hr hb hm (by omega) (by omega) (by omega)

/-- A success of exactly `n` bytes. -/
def sizedSuccess (sequence n : ℕ) : ForeignCompletion :=
  if n < 65 then emptySuccess sequence
  else ⟨sequence, .success [⟨.byte (List.replicate (n - 65) 0), [], []⟩] [] [] []⟩

theorem sizedSuccess_sequence (sequence n : ℕ) :
    (sizedSuccess sequence n).sequence = sequence := by
  unfold sizedSuccess
  split <;> rfl

theorem sizedSuccess_success (sequence n : ℕ) (reason : AbortReason) :
    (sizedSuccess sequence n).kind ≠ .failure reason := by
  unfold sizedSuccess
  split <;> simp [emptySuccess]

theorem sizedSuccess_bytes (sequence : ℕ) {n : ℕ} (h : 65 ≤ n) (hn : n ≤ maxMailboxBytes) :
    (sizedSuccess sequence n).completionBytes = n := by
  have hlimit : maxMailboxBytes < 2 ^ 64 - 1 := by decide
  have hnot : ¬ n < 65 := by omega
  simp only [sizedSuccess, hnot, if_false, ForeignCompletion.completionBytes, List.map_cons,
    List.map_nil, List.append_nil, List.foldl_cons, List.foldl_nil, frameBytes,
    FramePayload.bytes, List.length_replicate, saturatingAdd]
  omega

/-- A refused head with nothing ready. -/
theorem not_drains_of_blocked {n m : ℕ} {h : History}
    (hr : (driver d).ReachableBy (fun _ op => op.ofMailbox) h) (hb : Blocked n m h.state)
    (hn : 0 < n) (hm : m ≤ maxInFlightLimit) {completion : ForeignCompletion}
    (hseq : completion.sequence = 0) (hsuccess : ∀ reason, completion.kind ≠ .failure reason)
    (hfit : completion.completionBytes ≤ d.config.completionByteCapacity)
    (hfull : m = d.config.completionCapacity ∨
      d.config.completionByteCapacity < m + completion.completionBytes) : ¬ Drains d := by
  intro hdrains
  obtain ⟨l, hl, hactive, hwait⟩ := hb.live 0 hn (.inl rfl)
  rw [← hseq] at hl
  have hfull' : (h.state.tryComplete d completion).1 = .full := by
    rw [tryComplete_success hl hactive hb.running hb.open_ hwait hsuccess,
      (hb.completionFull_iff hm completion).mpr hfull]
    rfl
  have hsome := hdrains h hr hb.running completion l hsuccess hl hwait hfit hfull'
  simp [State.tryTakeCompletion, hb.ready] at hsome

/-- Draining always makes room for a refused completion exactly under the settings that leave
room for every call in flight. -/
theorem drains_iff (d : ForeignNodeDriver) : Drains d ↔ d.config.RoomForAll := by
  refine ⟨fun hdrains => ?_, drains_of_roomForAll⟩
  by_contra hnot
  simp only [ForeignDriverConfig.RoomForAll, not_or, not_and, not_lt] at hnot
  obtain ⟨hordered, hmany, hroom⟩ := hnot
  have hstrict : d.config.ordering = .strict := by
    cases hord : d.config.ordering with
    | strict => rfl
    | unordered => exact absurd hord hordered
  have hpos := d.config.maxInFlight_pos
  have hcap := d.config.completionCapacity_pos
  have hbytes := d.config.completionByteCapacity_pos
  obtain ⟨hlimit, -, hbound⟩ := d.config.validate_bounds d.valid
  have hsmall : maxInFlightLimit = 4096 := rfl
  by_cases hbig : 65 ≤ d.config.completionByteCapacity
  · -- one byte held back is enough for a head that needs the whole mailbox
    obtain ⟨h, hr, hb⟩ := blocked_reachable hstrict (n := 2) (by omega) 1 (by omega) (by omega)
      (by omega)
    have hsize := sizedSuccess_bytes 0 hbig hbound
    exact not_drains_of_blocked hr hb (by omega) (by omega) (sizedSuccess_sequence 0 _)
      (sizedSuccess_success 0 _) hsize.le (.inr (by omega)) hdrains
  · -- empty successes held back fill the mailbox before the head
    obtain ⟨h, hr, hb⟩ := blocked_reachable hstrict (n := d.config.maxInFlight) (le_refl _)
      (min d.config.completionCapacity d.config.completionByteCapacity) (by omega) (by omega)
      (by omega)
    have hone : (emptySuccess 0).completionBytes = 1 := rfl
    have hsuccess : ∀ reason, (emptySuccess 0).kind ≠ .failure reason := by simp [emptySuccess]
    exact not_drains_of_blocked hr hb hpos (by omega) rfl hsuccess (by omega) (by omega) hdrains

/-- Two calls in flight and room for one completion. -/
def oneSlotDriver : ForeignNodeDriver :=
  { smallDriver .strict with
    config := { (smallDriver .strict).config with
      completionCapacity := 1
      completionCapacity_pos := Nat.one_pos }
    valid := rfl }

/-- The later of two calls is answered first. -/
def heldBack : List Op :=
  [.trySubmit ⟨0, .prepare⟩ 0, .tryReceive, .trySubmit ⟨1, .prepare⟩ 0, .tryReceive,
    .tryComplete (emptySuccess 1)]

theorem drains_fails : ¬ ∀ d, Drains d := by
  intro hall
  have hops : ∀ op ∈ heldBack, op.ofMailbox := by simp [heldBack, Op.ofMailbox]
  have htake := hall oneSlotDriver (History.run oneSlotDriver heldBack) (run_reachable hops)
    (by decide +kernel) (emptySuccess 0) ⟨10, true, false, false⟩ (by simp [emptySuccess])
    (by decide +kernel) rfl (by decide) (by decide +kernel)
  exact absurd htake (by decide +kernel)

end Muxiva.Foreign
