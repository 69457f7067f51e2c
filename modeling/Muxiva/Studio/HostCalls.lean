import Muxiva.Studio.HostOrder

/-! The two processes over whole runs: every effect is handed on during the call whose callback
asked for it, in order, and a call that succeeds has handed on everything. -/
set_option linter.all false
namespace Muxiva.Studio

open Transition Transition.System

universe u
variable {J : Type u}

/-- The end of a call's lines: nothing before the callback is over, then the answer. -/
def Concludes (op : HostOp) (performed : List (ContextCall J)) :
    Option Bool → List (HostLine J) → Prop
  | none, last => last = []
  | some false, last => last = [.error]
  | some true, last => ∃ r tick, last = [.ok r] ∧ r.hostNextTick = some tick ∧
      streamed op performed ++ (r.actions ++ tick.toList.map .tick) = delivered op performed

/-- The lines in the pipe are what a callback has done and the runtime has not been handed yet, and
the answer if the callback is over. -/
def InFlight (op : HostOp) (performed : List (ContextCall J)) (returned : Option Bool)
    (applied : List (Effect J)) (lines : List (HostLine J)) : Prop :=
  ∃ sent : List (Kind × J), ∃ last : List (HostLine J),
    lines = sent.map (fun a => HostLine.action a.1 a.2) ++ last ∧
    applied ++ sent.map (fun a => Effect.act a.1 a.2) = streamed op performed ∧
    Concludes op performed returned last

/-- What holds of a call for good. -/
structure Settled (op : HostOp) (performed : List (ContextCall J)) (returned : Option Bool)
    (applied : List (Effect J)) (answer : Option Bool) : Prop where
  handed : applied <+: streamed op performed ∨
    returned = some true ∧ applied <+: delivered op performed
  answered : answer = some true → op ≠ .abort →
    returned = some true ∧ applied = delivered op performed

variable {op : HostOp} {performed : List (ContextCall J)} {returned answer : Option Bool}
  {applied : List (Effect J)} {lines : List (HostLine J)}

theorem InFlight.perform (h : InFlight op performed none applied lines) {c : ContextCall J}
    {sent : List (Kind × J)} (hsent : sent.map (fun a => Effect.act a.1 a.2) = streamed op [c]) :
    InFlight op (performed ++ [c]) none applied
      (lines ++ sent.map (fun a => HostLine.action a.1 a.2)) := by
  obtain ⟨earlier, last, rfl, happlied, rfl⟩ := h
  refine ⟨earlier ++ sent, [], ?_, ?_, rfl⟩
  · simp only [List.map_append, List.append_nil]
  · rw [List.map_append, ← List.append_assoc, happlied, hsent, streamed_append]

theorem InFlight.conclude (h : InFlight op performed none applied lines) {ok : Bool}
    {line : HostLine J} (hline : Concludes op performed (some ok) [line]) :
    InFlight op performed (some ok) applied (lines ++ [line]) := by
  obtain ⟨sent, last, rfl, happlied, rfl⟩ := h
  refine ⟨sent, [line], ?_, happlied, hline⟩
  rw [List.append_nil]

theorem InFlight.handed (h : InFlight op performed returned applied lines) :
    applied <+: streamed op performed := by
  obtain ⟨sent, last, -, happlied, -⟩ := h
  exact ⟨_, happlied⟩

/-- The first line in the pipe is an action to hand on, or it is the last. -/
theorem InFlight.head {line : HostLine J} (h : InFlight op performed returned applied (line :: lines)) :
    (∃ kind body, line = .action kind body ∧ op = .process ∧
      InFlight op performed returned (applied ++ [Effect.act kind body]) lines) ∨
    lines = [] ∧ applied = streamed op performed ∧ Concludes op performed returned [line] := by
  obtain ⟨sent, last, hlines, happlied, hlast⟩ := h
  cases sent with
  | nil =>
    rw [List.map_nil, List.append_nil] at happlied
    rw [List.map_nil, List.nil_append] at hlines
    subst hlines
    refine .inr ⟨?_, happlied, ?_⟩
    · cases returned with
      | none => cases hlast
      | some ok =>
        cases ok with
        | false => exact (List.cons.inj hlast).2
        | true =>
          obtain ⟨r, tick, hr, -⟩ := hlast
          exact (List.cons.inj hr).2
    · cases returned with
      | none => cases hlast
      | some ok =>
        cases ok with
        | false =>
          cases hlast
          rfl
        | true =>
          obtain ⟨r, tick, hr, hrest⟩ := hlast
          cases hr
          exact ⟨r, tick, rfl, hrest⟩
  | cons a sent =>
    obtain ⟨kind, body⟩ := a
    rw [List.map_cons, List.cons_append] at hlines
    obtain ⟨rfl, rfl⟩ := List.cons.inj hlines
    refine .inl ⟨kind, body, rfl, ?_, sent, last, rfl, ?_, hlast⟩
    · by_contra hop
      rw [streamed, if_neg hop] at happlied
      have hnil := (List.append_eq_nil_iff.mp happlied).2
      cases hnil
    · rw [List.append_assoc]
      exact happlied

theorem Settled.extend (h : Settled op performed none applied answer) (c : List (ContextCall J))
    (returned : Option Bool) : Settled op (performed ++ c) returned applied answer := by
  constructor
  · rcases h.handed with hpre | ⟨hnone, -⟩
    · rw [streamed_append]
      exact .inl (hpre.trans (List.prefix_append _ _))
    · cases hnone
  · intro hanswer hop
    have hnone := (h.answered hanswer hop).1
    cases hnone

namespace HostSession

/-- Where the two sides can be while nothing has failed and the call number `k` is read for. -/
structure Reading (s : HostSession J) (k : ℕ) (op : HostOp) : Prop where
  last : k + 1 = s.calls.length
  command : (s.calls[k]?).map HostCommand.op = some op
  open' : s.answers k = none
  pipe : s.heard = k ∧ s.toAdapter = [] ∧ s.applied k = [] ∧ (s.host = .waits ∨ s.host = .dead) ∨
    s.heard = k + 1 ∧ InFlight op (s.performed k) (s.returned k) (s.applied k) s.toAdapter ∧
      (s.returned k = none → (∃ command ctx, s.host = .runs k command ctx) ∨ s.host = .dead) ∧
      s.host ≠ .imports

structure Ordered (s : HostSession J) : Prop where
  queue : s.toHost = s.calls.drop s.heard
  heard : s.heard ≤ s.calls.length
  unheard : ∀ k, s.heard ≤ k → s.performed k = [] ∧ s.returned k = none
  uncalled : ∀ k, s.calls.length ≤ k → s.applied k = [] ∧ s.answers k = none
  running : ∀ k command ctx, s.host = .runs k command ctx → k + 1 = s.heard ∧
    s.calls[k]? = some command ∧ ctx.Holds command.op (s.performed k) ∧ s.returned k = none
  settled : ∀ k command, s.calls[k]? = some command →
    Settled command.op (s.performed k) (s.returned k) (s.applied k) (s.answers k)
  spawning : s.adapter = .spawns → s.stage = .created ∧ s.calls = [] ∧
    (s.toAdapter = [] ∧ (s.host = .imports ∨ s.host = .dead) ∨
      s.toAdapter = [.ready] ∧ (s.host = .waits ∨ s.host = .dead))
  created : s.stage = .created → s.adapter = .spawns
  idle : s.stage = .live → s.adapter = .idle →
    s.heard = s.calls.length ∧ s.toAdapter = [] ∧ (s.host = .waits ∨ s.host = .dead)
  reading : s.stage = .live → ∀ k op, s.adapter = .reads k op → s.Reading k op
  aborting : s.stage ≠ .live → ∀ k op, s.adapter = .reads k op →
    op = .abort ∧ (s.calls[k]?).map HostCommand.op = some op

variable {s s' : HostSession J} {k : ℕ} {command : HostCommand J} {ctx : HostContext J}

theorem ordered_new : (new : HostSession J).Ordered where
  queue := rfl
  heard := Nat.le_refl 0
  unheard _ _ := ⟨rfl, rfl⟩
  uncalled _ _ := ⟨rfl, rfl⟩
  running := nofun
  settled := nofun
  spawning _ := ⟨rfl, rfl, .inl ⟨rfl, .inl rfl⟩⟩
  created _ := rfl
  idle := nofun
  reading := nofun
  aborting := nofun

/-- While the host runs a callback, the call read for is the one it runs. -/
theorem Ordered.reads_running (h : s.Ordered) (hhost : s.host = .runs k command ctx)
    (hlive : s.stage = .live) {j : ℕ} (hreads : s.adapter = .reads j op) :
    j = k ∧ op = command.op ∧ InFlight op (s.performed k) none (s.applied k) s.toAdapter := by
  obtain ⟨hk, hcommand, -, hnone⟩ := h.running k command ctx hhost
  have hreading := h.reading hlive j op hreads
  rcases hreading.pipe with ⟨-, -, -, hwaits | hdead⟩ | ⟨hj, hflight, -, -⟩
  · rw [hhost] at hwaits
    cases hwaits
  · rw [hhost] at hdead
    cases hdead
  · obtain rfl : j = k := by omega
    have hop := hreading.command
    rw [hcommand] at hop
    rw [hnone] at hflight
    exact ⟨rfl, (Option.some.inj hop).symm, hflight⟩

theorem Ordered.not_idle (h : s.Ordered) (hhost : s.host = .runs k command ctx)
    (hlive : s.stage = .live) : s.adapter ≠ .idle := by
  intro hidle
  obtain ⟨-, -, hwaits | hdead⟩ := h.idle hlive hidle
  · rw [hhost] at hwaits
    cases hwaits
  · rw [hhost] at hdead
    cases hdead

theorem Ordered.not_spawns (h : s.Ordered) (hhost : s.host = .runs k command ctx) :
    s.adapter ≠ .spawns := by
  intro hspawns
  obtain ⟨-, -, ⟨-, hpc | hpc⟩ | ⟨-, hpc | hpc⟩⟩ := h.spawning hspawns
  all_goals
    rw [hhost] at hpc
    cases hpc

theorem Ordered.perform (h : s.Ordered) (hhost : s.host = .runs k command ctx)
    (c : ContextCall J) : (s.perform k command ctx c).Ordered := by
  obtain ⟨hk, hcommand, hctx, hnone⟩ := h.running k command ctx hhost
  obtain ⟨sent, hlines, hsent⟩ := HostContext.call_lines hctx c
  have hself : (s.perform k command ctx c).performed k = s.performed k ++ [c] :=
    Function.update_self ..
  have hother : ∀ j, j ≠ k → (s.perform k command ctx c).performed j = s.performed j :=
    fun j hj => Function.update_of_ne hj ..
  constructor
  · exact h.queue
  · exact h.heard
  · intro j hj
    have hj : s.heard ≤ j := hj
    rw [hother j (by omega)]
    exact h.unheard j hj
  · exact h.uncalled
  · intro j command' ctx' heq
    cases heq
    refine ⟨hk, hcommand, ?_, hnone⟩
    rw [hself]
    exact hctx.call c
  · intro j command' hcommand'
    have hsettled := h.settled j command' hcommand'
    by_cases hj : j = k
    · subst hj
      rw [hnone] at hsettled
      rw [hself]
      exact hsettled.extend [c] _
    · rw [hother j hj]
      exact hsettled
  · intro hspawns
    exact absurd hspawns (h.not_spawns hhost)
  · exact h.created
  · intro hlive hidle
    exact absurd hidle (h.not_idle hhost hlive)
  · intro hlive j op hreads
    have hreading := h.reading hlive j op hreads
    obtain ⟨rfl, rfl, hflight⟩ := h.reads_running hhost hlive hreads
    refine ⟨hreading.last, hreading.command, hreading.open', .inr ⟨hk.symm, ?_, ?_, nofun⟩⟩
    · have hlines' : (s.perform j command ctx c).toAdapter =
          s.toAdapter ++ sent.map (fun a => HostLine.action a.1 a.2) :=
        congrArg (s.toAdapter ++ ·) hlines
      rw [hlines', hself]
      have hreturned : (s.perform j command ctx c).returned j = none := hnone
      rw [hreturned]
      exact hflight.perform hsent
    · intro _
      exact .inl ⟨command, _, rfl⟩
  · exact h.aborting

theorem Ordered.respond (h : s.Ordered) (hhost : s.host = .runs k command ctx) {ok : Bool}
    {line : HostLine J} (hline : Concludes command.op (s.performed k) (some ok) [line]) :
    (s.respond k ok line).Ordered := by
  obtain ⟨hk, hcommand, hctx, hnone⟩ := h.running k command ctx hhost
  have hself : (s.respond k ok line).returned k = some ok := Function.update_self ..
  have hother : ∀ j, j ≠ k → (s.respond k ok line).returned j = s.returned j :=
    fun j hj => Function.update_of_ne hj ..
  constructor
  · exact h.queue
  · exact h.heard
  · intro j hj
    have hj : s.heard ≤ j := hj
    rw [hother j (by omega)]
    exact h.unheard j hj
  · exact h.uncalled
  · exact nofun
  · intro j command' hcommand'
    have hsettled := h.settled j command' hcommand'
    by_cases hj : j = k
    · subst hj
      rw [hnone] at hsettled
      have hextended := hsettled.extend [] ((s.respond j ok line).returned j)
      rw [List.append_nil] at hextended
      exact hextended
    · rw [hother j hj]
      exact hsettled
  · intro hspawns
    exact absurd hspawns (h.not_spawns hhost)
  · exact h.created
  · intro hlive hidle
    exact absurd hidle (h.not_idle hhost hlive)
  · intro hlive j op hreads
    have hreading := h.reading hlive j op hreads
    obtain ⟨rfl, rfl, hflight⟩ := h.reads_running hhost hlive hreads
    refine ⟨hreading.last, hreading.command, hreading.open', .inr ⟨hk.symm, ?_, ?_, nofun⟩⟩
    · rw [hself]
      exact hflight.conclude hline
    · intro hreturned
      rw [hself] at hreturned
      cases hreturned
  · exact h.aborting

theorem Ordered.emitResult (h : s.Ordered) (hhost : s.host = .runs k command ctx)
    (emitted : List J) : (s.emitResult k command ctx emitted).1.Ordered ∧
      (s.emitResult k command ctx emitted).1.host =
        .runs k command (s.emitResult k command ctx emitted).2 := by
  unfold HostSession.emitResult
  split
  · induction emitted generalizing s ctx with
    | nil => exact ⟨h, hhost⟩
    | cons body emitted ih => exact ih (h.perform hhost (.act .emission body)) rfl
  · exact ⟨h, hhost⟩

theorem Ordered.returns (h : s.Ordered) (hhost : s.host = .runs k command ctx)
    (emitted : List J) (encodes : Bool) : (s.returns k command ctx emitted encodes).Ordered := by
  obtain ⟨hordered, hruns⟩ := h.emitResult hhost emitted
  simp only [HostSession.returns]
  split
  · obtain ⟨-, -, hctx, -⟩ := hordered.running _ _ _ hruns
    obtain ⟨tick, htick, hrest⟩ := hctx.respond
    exact hordered.respond hruns ⟨_, tick, rfl, htick, hrest⟩
  · exact hordered.respond hruns rfl

theorem Ordered.dies (h : s.Ordered) : { s with host := .dead }.Ordered := by
  obtain ⟨hqueue, hheard, hunheard, huncalled, hrunning, hsettled, hspawning, hcreated, hidle,
    hreading, haborting⟩ := h
  refine ⟨hqueue, hheard, hunheard, huncalled, nofun, hsettled, ?_, hcreated, ?_, ?_, haborting⟩
  · intro hspawns
    obtain ⟨hstage, hcalls, ⟨hlines, -⟩ | ⟨hlines, -⟩⟩ := hspawning hspawns
    · exact ⟨hstage, hcalls, .inl ⟨hlines, .inr rfl⟩⟩
    · exact ⟨hstage, hcalls, .inr ⟨hlines, .inr rfl⟩⟩
  · intro hlive hat
    obtain ⟨hall, hlines, -⟩ := hidle hlive hat
    exact ⟨hall, hlines, .inr rfl⟩
  · intro hlive j op hreads
    obtain ⟨hlast, hcommand, hopen, hpipe⟩ := hreading hlive j op hreads
    refine ⟨hlast, hcommand, hopen, ?_⟩
    rcases hpipe with ⟨hj, hlines, happlied, -⟩ | ⟨hj, hflight, -, -⟩
    · exact .inl ⟨hj, hlines, happlied, .inr rfl⟩
    · exact .inr ⟨hj, hflight, fun _ => .inr rfl, nofun⟩

theorem Ordered.starts (h : s.Ordered) (hhost : s.host = .imports) :
    { s.write [.ready] with host := .waits }.Ordered := by
  obtain ⟨hqueue, hheard, hunheard, huncalled, hrunning, hsettled, hspawning, hcreated, hidle,
    hreading, haborting⟩ := h
  refine ⟨hqueue, hheard, hunheard, huncalled, nofun, hsettled, ?_, hcreated, ?_, ?_, haborting⟩
  · intro hspawns
    obtain ⟨hstage, hcalls, ⟨hlines, -⟩ | ⟨-, hpc | hpc⟩⟩ := hspawning hspawns
    · refine ⟨hstage, hcalls, .inr ⟨?_, .inl rfl⟩⟩
      rw [show (s.write [.ready]).toAdapter = s.toAdapter ++ [.ready] from rfl, hlines]
      rfl
    all_goals
      rw [hhost] at hpc
      cases hpc
  · intro hlive hat
    obtain ⟨-, -, hpc | hpc⟩ := hidle hlive hat
    all_goals
      rw [hhost] at hpc
      cases hpc
  · intro hlive j op hreads
    rcases (hreading hlive j op hreads).pipe with ⟨-, -, -, hpc | hpc⟩ | ⟨-, -, -, hne⟩
    · rw [hhost] at hpc
      cases hpc
    · rw [hhost] at hpc
      cases hpc
    · exact absurd hhost hne

theorem Ordered.receives (h : s.Ordered) {commands : List (HostCommand J)}
    (htoHost : s.toHost = command :: commands) :
    { s with
      toHost := commands
      host := .runs s.heard command (.new command.op)
      heard := s.heard + 1 }.Ordered := by
  have hdrop : s.calls.drop s.heard = command :: commands := by rw [← h.queue, htoHost]
  have hlt : s.heard < s.calls.length := by
    by_contra hge
    rw [List.drop_eq_nil_of_le (by omega)] at hdrop
    cases hdrop
  have hcommand : s.calls[s.heard]? = some command := by
    rw [← List.head?_drop, hdrop]
    rfl
  obtain ⟨hperformed, hreturned⟩ := h.unheard s.heard (Nat.le_refl _)
  constructor
  · rw [← List.tail_drop, hdrop]
    rfl
  · exact hlt
  · intro j hj
    have hj : s.heard + 1 ≤ j := hj
    exact h.unheard j (by omega)
  · exact h.uncalled
  · intro j command' ctx' heq
    cases heq
    refine ⟨rfl, hcommand, ?_, hreturned⟩
    change (HostContext.new command.op).Holds command.op (s.performed s.heard)
    rw [hperformed]
    exact HostContext.holds_new command.op
  · exact h.settled
  · intro hspawns
    obtain ⟨-, hcalls, -⟩ := h.spawning hspawns
    rw [hcalls] at hlt
    cases hlt
  · exact h.created
  · intro hlive hat
    obtain ⟨hall, -, -⟩ := h.idle hlive hat
    omega
  · intro hlive j op hreads
    obtain ⟨hlast, hcommand', hopen, hpipe⟩ := h.reading hlive j op hreads
    refine ⟨hlast, hcommand', hopen, ?_⟩
    rcases hpipe with ⟨rfl, hlines, happlied, -⟩ | ⟨hj, -, -, -⟩
    · refine .inr ⟨rfl, ⟨[], [], ?_, ?_, ?_⟩, fun _ => .inl ⟨_, _, rfl⟩, nofun⟩
      · exact hlines
      · change s.applied s.heard ++ [] = streamed op (s.performed s.heard)
        rw [happlied, hperformed]
        unfold streamed
        split <;> rfl
      · change Concludes op (s.performed s.heard) (s.returned s.heard) []
        rw [hreturned]
        rfl
    · omega
  · exact h.aborting

theorem Ordered.hostStep (h : s.Ordered) {move : HostMove J} (hs : s.hostStep move = some s') :
    s'.Ordered := by
  unfold HostSession.hostStep at hs
  split at hs
  next hhost =>
    cases hs
    exact h.starts hhost
  next =>
    split at hs
    next htoHost =>
      cases hs
      exact h.receives htoHost
    next => cases hs
  next hhost =>
    cases hs
    exact h.perform hhost _
  next hhost =>
    cases hs
    exact h.returns hhost _ _
  next hhost =>
    cases hs
    exact h.respond hhost rfl
  next =>
    cases hs
    exact h.dies
  next =>
    cases hs
    exact h.dies
  next =>
    cases hs
    exact h.dies
  next => cases hs

theorem hand_nil (s : HostSession J) (k : ℕ) : s.hand k [] = s := by
  simp [hand]

theorem stageAfter_ne_created (op : HostOp) (ok : Bool) : stageAfter op ok ≠ .created := by
  cases op <;> cases ok <;> exact nofun

theorem stageAfter_false (op : HostOp) : stageAfter op false ≠ .live := by
  cases op <;> exact nofun

/-- A call returns, after it has handed on the effects. -/
theorem Ordered.replies (h : s.Ordered) (hreads : s.adapter = .reads k op)
    (hcommand : (s.calls[k]?).map HostCommand.op = some op) (lines : List (HostLine J))
    (effects : List (Effect J)) (ok : Bool)
    (hsettled : Settled op (s.performed k) (s.returned k) (s.applied k ++ effects) (some ok))
    (hidle : stageAfter op ok = .live →
      s.heard = s.calls.length ∧ lines = [] ∧ (s.host = .waits ∨ s.host = .dead)) :
    (({ s with toAdapter := lines }.hand k effects).answer k op ok).Ordered := by
  obtain ⟨command, hk, rfl⟩ := Option.map_eq_some_iff.mp hcommand
  have hlt : k < s.calls.length := (List.getElem?_eq_some_iff.mp hk).1
  constructor
  · exact h.queue
  · exact h.heard
  · exact h.unheard
  · intro j hj
    have hne : j ≠ k := by
      have hj : s.calls.length ≤ j := hj
      omega
    obtain ⟨happlied, hanswer⟩ := h.uncalled j hj
    exact ⟨(Function.update_of_ne hne ..).trans happlied,
      (Function.update_of_ne hne ..).trans hanswer⟩
  · exact h.running
  · intro j command' hcommand'
    change Settled command'.op (s.performed j) (s.returned j)
      (Function.update s.applied k (s.applied k ++ effects) j)
      (Function.update s.answers k (some ok) j)
    by_cases hj : j = k
    · subst hj
      have hcommand' : s.calls[j]? = some command' := hcommand'
      rw [hk] at hcommand'
      cases hcommand'
      rw [Function.update_self, Function.update_self]
      exact hsettled
    · rw [Function.update_of_ne hj, Function.update_of_ne hj]
      exact h.settled j command' hcommand'
  · exact nofun
  · intro hcreated
    exact absurd hcreated (stageAfter_ne_created command.op ok)
  · intro hlive _
    exact hidle hlive
  · exact fun _ => nofun
  · exact fun _ => nofun

theorem Ordered.fail (h : s.Ordered) (hreads : s.adapter = .reads k op)
    (hcommand : (s.calls[k]?).map HostCommand.op = some op) (lines : List (HostLine J)) :
    ({ s with toAdapter := lines }.answer k op false).Ordered := by
  obtain ⟨command, hk, rfl⟩ := Option.map_eq_some_iff.mp hcommand
  have hanswer := h.replies hreads hcommand lines [] false
  rw [hand_nil, List.append_nil] at hanswer
  apply hanswer
  · exact ⟨(h.settled k command hk).handed, nofun⟩
  · intro hlive
    exact absurd hlive (stageAfter_false command.op)

theorem Ordered.readsOp (h : s.Ordered) (hreads : s.adapter = .reads k op) :
    (s.calls[k]?).map HostCommand.op = some op := by
  by_cases hlive : s.stage = .live
  · exact (h.reading hlive k op hreads).command
  · exact (h.aborting hlive k op hreads).2

theorem Ordered.readAction (h : s.Ordered) (hreads : s.adapter = .reads k .process)
    (hlive : s.stage = .live) {kind : Kind} {body : J} {lines : List (HostLine J)}
    (hlines : s.toAdapter = .action kind body :: lines)
    (hflight : InFlight .process (s.performed k) (s.returned k)
      (s.applied k ++ [Effect.act kind body]) lines) :
    ({ s with toAdapter := lines }.hand k [.act kind body]).Ordered := by
  have hreading := h.reading hlive k _ hreads
  obtain ⟨command, hk, hop⟩ := Option.map_eq_some_iff.mp hreading.command
  have hlast := hreading.last
  constructor
  · exact h.queue
  · exact h.heard
  · exact h.unheard
  · intro j hj
    have hne : j ≠ k := by
      have hj : s.calls.length ≤ j := hj
      omega
    obtain ⟨happlied, hanswer⟩ := h.uncalled j hj
    exact ⟨(Function.update_of_ne hne ..).trans happlied, hanswer⟩
  · exact h.running
  · intro j command' hcommand'
    change Settled command'.op (s.performed j) (s.returned j)
      (Function.update s.applied k (s.applied k ++ [Effect.act kind body]) j) (s.answers j)
    by_cases hj : j = k
    · subst hj
      have hcommand' : s.calls[j]? = some command' := hcommand'
      rw [hk] at hcommand'
      cases hcommand'
      rw [Function.update_self, hreading.open', hop]
      exact ⟨.inl hflight.handed, nofun⟩
    · rw [Function.update_of_ne hj]
      exact h.settled j command' hcommand'
  · intro hspawns
    have hspawns : s.adapter = .spawns := hspawns
    rw [hreads] at hspawns
    cases hspawns
  · exact h.created
  · intro _ hat
    have hat : s.adapter = .idle := hat
    rw [hreads] at hat
    cases hat
  · intro _ j op' hreads'
    have hreads' : s.adapter = .reads j op' := hreads'
    rw [hreads] at hreads'
    cases hreads'
    refine ⟨hlast, hreading.command, hreading.open', ?_⟩
    rcases hreading.pipe with ⟨-, hnil, -, -⟩ | ⟨hheard, -, hruns, hne⟩
    · rw [hlines] at hnil
      cases hnil
    · refine .inr ⟨hheard, ?_, hruns, hne⟩
      change InFlight .process (s.performed k) (s.returned k)
        (Function.update s.applied k (s.applied k ++ [Effect.act kind body]) k) lines
      rw [Function.update_self]
      exact hflight
  · intro hfailed
    exact absurd hlive hfailed

/-- The answer of a call that nothing has gone wrong with. -/
theorem Ordered.readOk (h : s.Ordered) (hreads : s.adapter = .reads k op)
    (hlive : s.stage = .live) {r : HostResponse J} (tick : Option ℕ)
    (hlines : s.toAdapter = [.ok r])
    (happlied : s.applied k = streamed op (s.performed k)) (hreturned : s.returned k = some true)
    (effects : List (Effect J)) (ok : Bool)
    (hpre : effects <+: r.actions ++ tick.toList.map .tick)
    (hall : ok = true → s.applied k ++ effects = delivered op (s.performed k))
    (hrest : streamed op (s.performed k) ++ (r.actions ++ tick.toList.map .tick) =
      delivered op (s.performed k)) :
    (({ s with toAdapter := [] }.hand k effects).answer k op ok).Ordered := by
  have hreading := h.reading hlive k op hreads
  apply h.replies hreads hreading.command
  · constructor
    · right
      refine ⟨hreturned, ?_⟩
      rw [← hrest, happlied]
      exact (List.prefix_append_right_inj _).mpr hpre
    · intro hok _
      exact ⟨hreturned, hall (Option.some.inj hok)⟩
  · intro _
    rcases hreading.pipe with ⟨-, hnil, -, -⟩ | ⟨hheard, -, -, hne⟩
    · rw [hlines] at hnil
      cases hnil
    · refine ⟨hheard.trans hreading.last, rfl, ?_⟩
      cases hhost : s.host with
      | imports => exact absurd hhost hne
      | waits => exact .inl rfl
      | dead => exact .inr rfl
      | runs j command ctx =>
        obtain ⟨hj, -, -, hnone⟩ := h.running j command ctx hhost
        obtain rfl : j = k := by omega
        rw [hreturned] at hnone
        cases hnone

theorem Ordered.readLine (h : s.Ordered) (hreads : s.adapter = .reads k op) (taken : ℕ)
    {line : HostLine J} {lines : List (HostLine J)} (hlines : s.toAdapter = line :: lines) :
    ({ s with toAdapter := lines }.readLine k op taken line).Ordered := by
  have hcommand := h.readsOp hreads
  by_cases hlive : s.stage = .live
  · rcases (h.reading hlive k op hreads).pipe with ⟨-, hnil, -, -⟩ | ⟨-, hflight, -, -⟩
    · rw [hlines] at hnil
      cases hnil
    rw [hlines] at hflight
    rcases hflight.head with ⟨kind, body, rfl, rfl, hrest⟩ | ⟨rfl, happlied, hlast⟩
    · simp only [HostSession.readLine, readProcess]
      split
      · exact h.fail hreads hcommand lines
      · exact h.readAction hreads hlive hlines hrest
    · cases hreturned : s.returned k with
      | none =>
        rw [hreturned] at hlast
        cases hlast
      | some returned =>
        rw [hreturned] at hlast
        cases returned with
        | false =>
          cases hlast
          cases op <;> exact h.fail hreads hcommand []
        | true =>
          obtain ⟨r, tick, hr, htick, hrest⟩ := hlast
          cases hr
          have hnothing := h.readOk hreads hlive tick hlines happlied hreturned [] true List.nil_prefix
          have happly := h.readOk hreads hlive tick hlines happlied hreturned _ _
            (r.apply_prefix htick taken) (fun hok => by
              rw [r.apply_all htick hok, happlied]
              exact hrest) hrest
          rw [hand_nil, List.append_nil] at hnothing
          cases op with
          | process => exact happly
          | signal => exact happly
          | prepare => exact hnothing (fun _ => happlied) hrest
          | finish => exact hnothing (fun _ => happlied) hrest
          | abort => exact hnothing (fun _ => happlied) hrest
  · -- after a failure only the answer to `on_abort` is read for
    obtain ⟨rfl, -⟩ := h.aborting hlive k op hreads
    obtain ⟨command, hk, hop⟩ := Option.map_eq_some_iff.mp hcommand
    have hsettled := h.settled k command hk
    rw [hop] at hsettled
    have hreply : ∀ ok, ({ s with toAdapter := lines }.answer k .abort ok).Ordered := by
      intro ok
      have hreplies := h.replies hreads hcommand lines [] ok
      rw [hand_nil, List.append_nil] at hreplies
      apply hreplies
      · exact ⟨hsettled.handed, fun _ hne => absurd rfl hne⟩
      · intro hlive'
        cases ok <;> cases hlive'
    cases line with
    | ok r => exact hreply true
    | _ => exact hreply false

theorem Ordered.spawned (h : s.Ordered) (hspawns : s.adapter = .spawns) (stage : Stage)
    (hstage : stage = .live → s.toAdapter = [.ready]) (hne : stage ≠ .created) :
    { s with toAdapter := s.toAdapter.tail, adapter := .idle, stage }.Ordered := by
  obtain ⟨-, hcalls, hpipe⟩ := h.spawning hspawns
  refine ⟨h.queue, h.heard, h.unheard, h.uncalled, h.running, h.settled, nofun,
    fun heq => absurd heq hne, ?_, fun _ => nofun, fun _ => nofun⟩
  intro hlive _
  have hready := hstage hlive
  have hheard := h.heard
  rw [hcalls] at hheard
  refine ⟨?_, ?_, ?_⟩
  · change s.heard = s.calls.length
    rw [hcalls]
    exact Nat.le_zero.mp hheard
  · change s.toAdapter.tail = []
    rw [hready]
    rfl
  · rcases hpipe with ⟨hnil, -⟩ | ⟨-, hhost⟩
    · rw [hready] at hnil
      cases hnil
    · exact hhost

theorem Ordered.read (h : s.Ordered) {fits : Bool} {taken : ℕ} (hs : s.read fits taken = some s') :
    s'.Ordered := by
  unfold HostSession.read at hs
  split at hs
  next => cases hs
  next hadapter =>
    obtain ⟨-, -, ⟨hlines, -⟩ | ⟨hlines, -⟩⟩ := h.spawning hadapter
    · have hspawned := h.spawned hadapter .ended nofun nofun
      simp only [hlines] at hs
      split_ifs at hs
      cases hs
      rw [hlines] at hspawned
      exact hspawned
    · have hspawned := h.spawned hadapter (if fits then .live else .ended) (fun _ => hlines)
        (by split <;> exact nofun)
      simp only [hlines] at hs
      cases hs
      rw [hlines] at hspawned
      exact hspawned
  next k op hadapter =>
    split at hs
    next line lines hlines =>
      cases hs
      split
      · exact h.readLine hadapter taken hlines
      · exact h.fail hadapter (h.readsOp hadapter) lines
    next hlines =>
      split_ifs at hs
      cases hs
      have hfail := h.fail hadapter (h.readsOp hadapter) []
      rw [← hlines] at hfail
      exact hfail

theorem Ordered.called (h : s.Ordered) (hidle : s.adapter = .idle) (hmay : mayCall s.stage op)
    (input : J) : { s with
      adapter := .reads s.calls.length op
      toHost := s.toHost ++ [HostCommand.mk op input]
      calls := s.calls ++ [HostCommand.mk op input] }.Ordered := by
  have hheard := h.heard
  have hself : (s.calls ++ [HostCommand.mk op input])[s.calls.length]? = some (HostCommand.mk op input) := by
    rw [List.getElem?_append_right (Nat.le_refl _), Nat.sub_self]
    rfl
  have hold : ∀ (k : ℕ) (command : HostCommand J), s.calls[k]? = some command →
      (s.calls ++ [HostCommand.mk op input])[k]? = some command := by
    intro k command hk
    rw [List.getElem?_append_left (List.getElem?_eq_some_iff.mp hk).1]
    exact hk
  have hnew := h.uncalled s.calls.length (Nat.le_refl _)
  constructor
  · change s.toHost ++ [HostCommand.mk op input] = (s.calls ++ [HostCommand.mk op input]).drop s.heard
    rw [List.drop_append_of_le_length hheard, h.queue]
  · simp only [List.length_append, List.length_singleton]
    omega
  · exact h.unheard
  · intro j hj
    simp only [List.length_append, List.length_singleton] at hj
    exact h.uncalled j (by omega)
  · intro k command ctx hhost
    obtain ⟨hk, hcommand, hrest⟩ := h.running k command ctx hhost
    exact ⟨hk, hold k command hcommand, hrest⟩
  · intro j command hj
    rcases Nat.lt_or_ge j s.calls.length with hlt | hge
    · have hj : (s.calls ++ [HostCommand.mk op input])[j]? = some command := hj
      rw [List.getElem?_append_left hlt] at hj
      exact h.settled j command hj
    · obtain ⟨happlied, hanswer⟩ := h.uncalled j hge
      change Settled command.op (s.performed j) (s.returned j) (s.applied j) (s.answers j)
      rw [happlied, hanswer]
      exact ⟨.inl List.nil_prefix, nofun⟩
  · exact nofun
  · intro hcreated
    have hcreated : s.stage = .created := hcreated
    rw [hcreated] at hmay
    exact absurd hmay (by cases op <;> exact id)
  · exact fun _ => nofun
  · intro hlive j op' hreads
    cases hreads
    obtain ⟨hall, hlines, hhost⟩ := h.idle hlive hidle
    refine ⟨?_, ?_, hnew.2, .inl ⟨hall, hlines, hnew.1, hhost⟩⟩
    · simp only [List.length_append, List.length_singleton]
    · rw [hself]
      rfl
  · intro hfailed j op' hreads
    cases hreads
    refine ⟨?_, ?_⟩
    · have hfailed : s.stage ≠ .live := hfailed
      cases hstage : s.stage with
      | live => exact absurd hstage hfailed
      | failed =>
        rw [hstage] at hmay
        cases op with
        | abort => rfl
        | _ => exact absurd hmay id
      | created =>
        rw [hstage] at hmay
        exact absurd hmay (by cases op <;> exact id)
      | ended =>
        rw [hstage] at hmay
        exact absurd hmay (by cases op <;> exact id)
    · rw [hself]
      rfl

/-- The runtime turns away from a session at rest. -/
theorem Ordered.leaves (h : s.Ordered) (hidle : s.adapter = .idle) {stage : Stage}
    (hlive : stage ≠ .live) (hcreated : stage ≠ .created) : { s with stage }.Ordered := by
  refine ⟨h.queue, h.heard, h.unheard, h.uncalled, h.running, h.settled, ?_,
    fun heq => absurd heq hcreated, fun heq => absurd heq hlive, fun heq => absurd heq hlive, ?_⟩
  · intro hspawns
    have hspawns : s.adapter = .spawns := hspawns
    rw [hidle] at hspawns
    cases hspawns
  · intro _ k op hreads
    have hreads : s.adapter = .reads k op := hreads
    rw [hidle] at hreads
    cases hreads

theorem Ordered.step (h : s.Ordered) {a : SessionAction J} (hs : HostSession.step s a = some s') :
    s'.Ordered := by
  cases a with
  | host move => exact h.hostStep hs
  | read fits taken => exact h.read hs
  | drop =>
    simp only [HostSession.step, HostSession.drop] at hs
    split_ifs at hs with hidle
    cases hs
    have hended : { s with stage := .ended }.Ordered := h.leaves hidle nofun nofun
    exact hended.dies
  | call op input written =>
    simp only [HostSession.step, HostSession.call] at hs
    split_ifs at hs with hmay hwritten
    · cases hs
      exact h.called hmay.1 hmay.2 input
    · cases hs
      exact h.leaves hmay.1 (stageAfter_false op) (stageAfter_ne_created op false)

end HostSession

theorem ordered_of_reachable {s : HostSession J} (hr : (projectHost J).Reachable s) : s.Ordered := by
  apply hr.invariant
  · rintro s rfl
    exact HostSession.ordered_new
  · intro s a s' _ h hs
    exact h.step hs

/-- A callback that emits, asks for a tick, signals, and returns a frame. -/
def hostRun : List (SessionAction ℕ) :=
  [.host .starts, .read true 1, .call .process 7 true, .host .receives,
    .host (.performs (.act .emission 1)), .host (.performs (.scheduleNextTick 5)), .read true 1,
    .host (.performs (.act .signal 2)), .host (.returns [3] true), .read true 1, .read true 1,
    .read true 0]

end Muxiva.Studio
