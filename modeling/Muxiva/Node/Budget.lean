import Muxiva.Node.Context

/-! The emission limit of one callback against everything its context retains: frames and signals
are counted against the same limit, each by itself. -/
set_option linter.all false
namespace Muxiva

variable {β : Type} (source : SignalFrame β → NodeId)

namespace NodeContext

/-- The context answers a request with the error that names the limit. -/
def refuses (c : NodeContext β) : Request β → Bool
  | .emit p f => match (c.emit p f).1 with
    | .error _ => true
    | .ok () => false
  | .emitSignal x => match (c.emitSignal source x).1 with
    | .error (.limit _) => true
    | _ => false
  | .scheduleNextTick _ => false

/-- Some request of the list is refused for the budget when its turn comes. -/
def refusesAny : NodeContext β → List (Request β) → Bool
  | _, [] => false
  | c, r :: rest => c.refuses source r || refusesAny (c.serve source r) rest

/-- Everything a context keeps for its callback. -/
def retained (c : NodeContext β) : ℕ := c.emissions.length + c.signals.length

variable {source}

theorem overflowed_serve (c : NodeContext β) (r : Request β) :
    (c.serve source r).emissionOverflowed = (c.emissionOverflowed || c.refuses source r) := by
  cases r with
  | emit p f =>
    unfold serve refuses emit
    split_ifs <;> simp
  | emitSignal x =>
    unfold serve refuses emitSignal
    by_cases hsource : source x = c.nodeId
    · simp only [hsource, ne_eq, not_true_eq_false, if_false]
      split_ifs <;> simp
    · simp only [hsource, ne_eq, not_false_eq_true, if_true]
      split_ifs <;> simp
  | scheduleNextTick d => simp [serve, refuses, scheduleNextTick]

theorem overflowed_serveAll (c : NodeContext β) (requests : List (Request β)) :
    (c.serveAll source requests).emissionOverflowed =
      (c.emissionOverflowed || c.refusesAny source requests) := by
  induction requests generalizing c with
  | nil => simp [serveAll, refusesAny]
  | cons r rest ih =>
    change ((c.serve source r).serveAll source rest).emissionOverflowed = _
    rw [ih, overflowed_serve, refusesAny, Bool.or_assoc]

/-- Without a route for signals, none is kept. -/
theorem signals_serve {c : NodeContext β} (hroutes : c.hasSignalRoutes = false) (r : Request β) :
    (c.serve source r).signals = c.signals ∧ (c.serve source r).hasSignalRoutes = false := by
  cases r with
  | emit p f =>
    unfold serve emit
    split_ifs <;> exact ⟨rfl, hroutes⟩
  | emitSignal x =>
    have hsame : c.serve source (.emitSignal x) = c := by simp [serve, emitSignal, hroutes]
    rw [hsame]
    exact ⟨rfl, hroutes⟩
  | scheduleNextTick d => exact ⟨rfl, hroutes⟩

theorem signals_serveAll {c : NodeContext β} (hroutes : c.hasSignalRoutes = false)
    (requests : List (Request β)) : (c.serveAll source requests).signals = c.signals := by
  induction requests generalizing c with
  | nil => rfl
  | cons r rest ih =>
    have hstep : (c.serve source r).signals = c.signals ∧
        (c.serve source r).hasSignalRoutes = false := signals_serve hroutes r
    obtain ⟨hsignals, hroutes'⟩ := hstep
    exact (ih hroutes').trans hsignals

end NodeContext

namespace Callback
variable (n : NodeId) (limit : ℕ) (routes : Bool) (cb : Callback β)

/-- The callback asks for frames and for signals its context would take, and for more than the
limit altogether. -/
def Oversubscribes : Prop :=
  routes = true ∧ 0 < limit ∧ 0 < (cb.requests.filterMap Request.emission).length ∧
    0 < (cb.requests.filterMap (Request.signalOf source n)).length ∧
    limit < (cb.requests.filterMap Request.emission).length +
      (cb.requests.filterMap (Request.signalOf source n)).length

/-- The budget of one callback: what is retained stays within the limit, and the flag tells
whether a request was refused for it. -/
structure Budgeted : Prop where
  bounded : (cb.context source n limit routes).retained ≤ limit
  flagged : (cb.context source n limit routes).emissionOverflowed = true ↔
    (NodeContext.withRoutingLimits n limit routes).refusesAny source cb.requests = true

/-- Frames and signals are each cut off at the limit. -/
theorem context_retained : (cb.context source n limit routes).retained =
    min limit (cb.requests.filterMap Request.emission).length +
      if routes then min limit (cb.requests.filterMap (Request.signalOf source n)).length
      else 0 := by
  have htook := cb.context_took source n limit routes
  unfold NodeContext.retained
  rw [htook.emissions, List.length_take]
  cases hroutes : routes with
  | false =>
    have hnone : (cb.context source n limit false).signals = [] :=
      NodeContext.signals_serveAll rfl cb.requests
    simp [hnone]
  | true =>
    subst hroutes
    rw [htook.signals rfl, List.length_take, if_pos rfl]

theorem context_flagged : (cb.context source n limit routes).emissionOverflowed = true ↔
    (NodeContext.withRoutingLimits n limit routes).refusesAny source cb.requests = true := by
  unfold Callback.context
  rw [NodeContext.overflowed_serveAll]
  simp [NodeContext.withRoutingLimits]

/-- A callback stays within its budget exactly unless it asks for frames and signals together
beyond the limit; the flag tells refusals either way. -/
theorem shared_budget : cb.Budgeted source n limit routes ↔
    ¬ cb.Oversubscribes source n limit routes := by
  have hretained := cb.context_retained source n limit routes
  constructor
  · rintro ⟨hbounded, -⟩ ⟨hroutes, hlimit, hframes, hsignals, hmore⟩
    rw [hretained, hroutes, if_pos rfl] at hbounded
    omega
  · intro hwithin
    refine ⟨?_, cb.context_flagged source n limit routes⟩
    rw [hretained]
    unfold Oversubscribes at hwithin
    split_ifs with hroutes
    · simp only [hroutes, true_and] at hwithin
      omega
    · omega

end Callback

/-- One frame and one signal under a limit of one. -/
theorem shared_budget_exceeded : ¬ ∀ (source : SignalFrame Unit → NodeId) (n : NodeId) (limit : ℕ)
    (routes : Bool) (cb : Callback Unit), cb.Budgeted source n limit routes := by
  intro hall
  let f : Frame Unit := ⟨1, .text, [], ()⟩
  let x : SignalFrame Unit := ⟨⟨2, .signal, [], ()⟩, rfl⟩
  have hbounded := (hall (fun _ => 0) 0 1 true ⟨[.emit 0 f, .emitSignal x], .ok ()⟩).bounded
  exact absurd hbounded (by decide)

end Muxiva
