import Mathlib.Data.List.Basic
import Muxiva.Studio.ProjectHost

/-! What reaches the runtime from a project node's process. As long as nothing fails, the lines in
the pipe belong to the call that reads them; after a failure the runtime reads on only for the
answer to `on_abort`, which it drops. -/
set_option linter.all false
namespace Muxiva.Studio

universe u
variable {J : Type u}

def ContextCall.effect : ContextCall J → Option (Effect J)
  | .act kind body => some (.act kind body)
  | .scheduleNextTick _ => none

/-- What a callback hands to its context, in the order in which it does. -/
def acts (calls : List (ContextCall J)) : List (Effect J) := calls.filterMap ContextCall.effect

def Effect.isOf (kind : Kind) : Effect J → Bool
  | .act k _ => k = kind
  | .tick _ => false

/-- The last delay in range that a callback asks for. -/
def lastTick (calls : List (ContextCall J)) : Option ℕ :=
  calls.foldl (fun tick call =>
    match call with
    | .act _ _ => tick
    | .scheduleNextTick delayMs =>
      if delayMs < 1 ∨ 60000 < delayMs then tick else some delayMs.toNat) none

/-- What is handed on while the callback runs. -/
def streamed (op : HostOp) (calls : List (ContextCall J)) : List (Effect J) :=
  if op = .process then acts calls else []

/-- What is handed on in the end: from `on_process` everything in order, from `on_signal` everything
by kind, from the other callbacks nothing. -/
def delivered (op : HostOp) (calls : List (ContextCall J)) : List (Effect J) :=
  match op with
  | .process => acts calls ++ (lastTick calls).toList.map .tick
  | .signal =>
    [Kind.emission, .event, .signal, .metric].flatMap (fun kind => (acts calls).filter (Effect.isOf kind)) ++
      (lastTick calls).toList.map .tick
  | .prepare | .finish | .abort => []

theorem acts_append (calls more : List (ContextCall J)) :
    acts (calls ++ more) = acts calls ++ acts more := List.filterMap_append

theorem streamed_append (op : HostOp) (calls more : List (ContextCall J)) :
    streamed op (calls ++ more) = streamed op calls ++ streamed op more := by
  unfold streamed
  split
  · exact acts_append calls more
  · rfl

theorem streamed_take (op : HostOp) (calls : List (ContextCall J)) :
    streamed op calls <+: delivered op calls := by
  cases op with
  | process => exact List.prefix_append _ _
  | _ => exact List.nil_prefix

theorem lastTick_append (calls : List (ContextCall J)) (c : ContextCall J) :
    lastTick (calls ++ [c]) =
      match c with
      | .act _ _ => lastTick calls
      | .scheduleNextTick delayMs =>
        if delayMs < 1 ∨ 60000 < delayMs then lastTick calls else some delayMs.toNat := by
  unfold lastTick
  rw [List.foldl_append]
  cases c <;> rfl

namespace HostContext

def list (ctx : HostContext J) : Kind → List J
  | .emission => ctx.emissions
  | .event => ctx.events
  | .signal => ctx.signals
  | .metric => ctx.metrics

/-- The context of a callback that has made the calls. -/
structure Holds (op : HostOp) (calls : List (ContextCall J)) (ctx : HostContext J) : Prop where
  streaming : ctx.streaming = decide (op = .process)
  tick : ctx.nextTickMs = lastTick calls
  range : ∀ ms, lastTick calls = some ms → 1 ≤ ms ∧ ms ≤ 60000
  empty : op = .process → ∀ kind, ctx.list kind = []
  held : op ≠ .process →
    ∀ kind, (ctx.list kind).map (Effect.act kind) = (acts calls).filter (Effect.isOf kind)

variable {op : HostOp} {calls : List (ContextCall J)} {ctx : HostContext J}

theorem holds_new (op : HostOp) : (new op : HostContext J).Holds op [] := by
  constructor
  · rfl
  · rfl
  · exact nofun
  · intro _ kind
    cases kind <;> rfl
  · intro _ kind
    cases kind <;> rfl

theorem list_push (ctx : HostContext J) (kind kind' : Kind) (body : J) :
    (ctx.push kind body).list kind' = ctx.list kind' ++ if kind = kind' then [body] else [] := by
  cases kind <;> cases kind' <;> simp [push, list]

theorem push_other (ctx : HostContext J) (kind : Kind) (body : J) :
    (ctx.push kind body).streaming = ctx.streaming ∧
      (ctx.push kind body).nextTickMs = ctx.nextTickMs := by
  cases kind <;> exact ⟨rfl, rfl⟩

theorem Holds.call (h : ctx.Holds op calls) (c : ContextCall J) :
    (ctx.call c).1.Holds op (calls ++ [c]) := by
  cases c with
  | act kind body =>
    have htick : lastTick (calls ++ [ContextCall.act kind body]) = lastTick calls :=
      lastTick_append _ _
    by_cases hop : op = .process
    · have hstream : ctx.streaming = true := by rw [h.streaming, hop]; rfl
      have hcall : (ctx.call (.act kind body)).1 = ctx := by
        rw [HostContext.call, if_pos hstream]
      rw [hcall]
      exact ⟨h.streaming, h.tick.trans htick.symm, by rw [htick]; exact h.range, h.empty,
        fun hne => absurd hop hne⟩
    · have hstream : ctx.streaming = false := by rw [h.streaming]; exact decide_eq_false hop
      have hcall : (ctx.call (.act kind body)).1 = ctx.push kind body := by
        rw [HostContext.call, hstream, if_neg Bool.false_ne_true]
      obtain ⟨hs, ht⟩ := ctx.push_other kind body
      rw [hcall]
      refine ⟨hs.trans h.streaming, ht.trans (h.tick.trans htick.symm), ?_,
        fun heq => absurd heq hop, ?_⟩
      · rw [htick]
        exact h.range
      · intro _ kind'
        rw [list_push, List.map_append, h.held hop kind', acts_append, List.filter_append]
        congr 1
        by_cases hkind : kind = kind'
        · subst hkind
          simp [acts, ContextCall.effect, Effect.isOf]
        · simp [acts, ContextCall.effect, Effect.isOf, hkind]
  | scheduleNextTick delayMs =>
    have hacts : acts (calls ++ [ContextCall.scheduleNextTick delayMs]) = acts calls := by
      rw [acts_append]
      exact List.append_nil _
    have htick := lastTick_append calls (.scheduleNextTick delayMs)
    simp only at htick
    by_cases hrange : delayMs < 1 ∨ 60000 < delayMs
    · rw [if_pos hrange] at htick
      rw [HostContext.call, if_pos hrange]
      exact ⟨h.streaming, h.tick.trans htick.symm, by rw [htick]; exact h.range, h.empty,
        by rw [hacts]; exact h.held⟩
    · rw [if_neg hrange] at htick
      rw [HostContext.call, if_neg hrange]
      refine ⟨h.streaming, htick.symm, ?_, ?_, ?_⟩
      · rw [htick]
        intro ms hms
        have hms : delayMs.toNat = ms := Option.some.inj hms
        omega
      · intro heq kind
        have hempty := h.empty heq kind
        cases kind <;> exact hempty
      · intro hne kind
        have hheld := h.held hne kind
        rw [hacts]
        cases kind <;> exact hheld

theorem call_lines (h : ctx.Holds op calls) (c : ContextCall J) :
    ∃ sent : List (Kind × J), (ctx.call c).2 = sent.map (fun a => .action a.1 a.2) ∧
      sent.map (fun a => Effect.act a.1 a.2) = streamed op [c] := by
  cases c with
  | act kind body =>
    by_cases hop : op = .process
    · have hstream : ctx.streaming = true := by rw [h.streaming, hop]; rfl
      refine ⟨[(kind, body)], ?_, ?_⟩
      · rw [HostContext.call, if_pos hstream]
        rfl
      · rw [streamed, if_pos hop]
        rfl
    · have hstream : ctx.streaming = false := by rw [h.streaming]; exact decide_eq_false hop
      refine ⟨[], ?_, ?_⟩
      · rw [HostContext.call, hstream, if_neg Bool.false_ne_true]
        rfl
      · rw [streamed, if_neg hop]
        rfl
  | scheduleNextTick delayMs =>
    refine ⟨[], ?_, ?_⟩
    · simp only [HostContext.call]
      split <;> rfl
    · unfold streamed
      split <;> rfl

end HostContext

namespace HostResponse

variable {r : HostResponse J} {tick : Option ℕ}

theorem apply_prefix (htick : r.hostNextTick = some tick) (taken : ℕ) :
    (r.apply taken).1 <+: r.actions ++ tick.toList.map .tick := by
  unfold apply
  split
  · simp only [htick]
    exact List.prefix_refl _
  · exact (List.take_prefix _ _).trans (List.prefix_append _ _)

theorem apply_all (htick : r.hostNextTick = some tick) {taken : ℕ}
    (h : (r.apply taken).2 = true) : (r.apply taken).1 = r.actions ++ tick.toList.map .tick := by
  unfold apply at h ⊢
  split_ifs at h ⊢
  rw [htick]

end HostResponse

/-- What the response of a callback that returned adds to what was streamed. -/
theorem HostContext.Holds.respond {op : HostOp} {calls : List (ContextCall J)}
    {ctx : HostContext J} (h : ctx.Holds op calls) :
    ∃ tick, (ctx.respond op).hostNextTick = some tick ∧
      streamed op calls ++ ((ctx.respond op).actions ++ tick.toList.map .tick) =
        delivered op calls := by
  have hvalid : ∀ r : HostResponse J, r.nextTickMs = lastTick calls →
      r.hostNextTick = some (lastTick calls) := by
    intro r hr
    cases hlast : lastTick calls with
    | none => simp only [HostResponse.hostNextTick, hr, hlast]
    | some ms => simp only [HostResponse.hostNextTick, hr, hlast, h.range ms hlast, and_self, if_true]
  cases op with
  | process =>
    refine ⟨_, hvalid _ h.tick, ?_⟩
    have hempty := h.empty rfl
    have hevents : ctx.events = [] := hempty .event
    have hsignals : ctx.signals = [] := hempty .signal
    have hmetrics : ctx.metrics = [] := hempty .metric
    simp [HostContext.respond, HostResponse.actions, hevents, hsignals, hmetrics, streamed, delivered]
  | signal =>
    refine ⟨_, hvalid _ h.tick, ?_⟩
    have hheld := h.held (fun heq => by cases heq)
    have hemissions : ctx.emissions.map (Effect.act .emission) = _ := hheld .emission
    have hevents : ctx.events.map (Effect.act .event) = _ := hheld .event
    have hsignals : ctx.signals.map (Effect.act .signal) = _ := hheld .signal
    have hmetrics : ctx.metrics.map (Effect.act .metric) = _ := hheld .metric
    simp [HostContext.respond, HostResponse.actions, hemissions, hevents, hsignals, hmetrics,
      streamed, delivered]
  | prepare => exact ⟨none, rfl, rfl⟩
  | finish => exact ⟨none, rfl, rfl⟩
  | abort => exact ⟨none, rfl, rfl⟩

end Muxiva.Studio
