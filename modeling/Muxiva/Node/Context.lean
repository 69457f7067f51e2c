import Muxiva.Runtime.Types
import Mathlib.Data.List.Basic

/-! `NodeContext`: what a lifecycle callback emits, up to the limit of the call. A callback is known
by what it asked of its context, whatever it made of the answers, and by how it ended. -/
set_option linter.all false
namespace Muxiva

open Muxiva.Runtime (CallOutcome NodeCall NodeCallOutput)

variable {β τ : Type}

structure NodeEmissionError where
  limit : ℕ
  deriving DecidableEq, Repr

inductive SignalEmissionError where
  | noConnectedDownstream (nodeId : NodeId)
  | sourceMismatch (contextNode signalSource : NodeId)
  | limit (limit : ℕ)
  deriving DecidableEq, Repr

structure NodeContext (β : Type) where
  nodeId : NodeId
  emissions : List (PortName × Frame β)
  signals : List (SignalFrame β)
  emissionLimit : ℕ
  emissionOverflowed : Bool
  hasSignalRoutes : Bool
  nextTick : Option ℕ

namespace NodeContext

def withRoutingLimits (nodeId : NodeId) (emissionLimit : ℕ) (hasSignalRoutes : Bool) :
    NodeContext β :=
  ⟨nodeId, [], [], emissionLimit, false, hasSignalRoutes, none⟩

/-- The limit `GraphRunner` gives every call. -/
def runtimeEmissionLimit : ℕ := 16384

def withRuntimeServices (nodeId : NodeId) : NodeContext β :=
  withRoutingLimits nodeId runtimeEmissionLimit false

def emit (c : NodeContext β) (outputPort : PortName) (frame : Frame β) :
    Except NodeEmissionError Unit × NodeContext β :=
  if c.emissionLimit ≤ c.emissions.length then
    (.error ⟨c.emissionLimit⟩, { c with emissionOverflowed := true })
  else (.ok (), { c with emissions := c.emissions ++ [(outputPort, frame)] })

/-- `source` reads the source node of a signal. -/
def emitSignal (source : SignalFrame β → NodeId) (c : NodeContext β) (signal : SignalFrame β) :
    Except SignalEmissionError Unit × NodeContext β :=
  if c.hasSignalRoutes = false then (.error (.noConnectedDownstream c.nodeId), c)
  else if source signal ≠ c.nodeId then
    (.error (.sourceMismatch c.nodeId (source signal)), c)
  else if c.emissionLimit ≤ c.signals.length then
    (.error (.limit c.emissionLimit), { c with emissionOverflowed := true })
  else (.ok (), { c with signals := c.signals ++ [signal] })

def scheduleNextTick (c : NodeContext β) (delay : ℕ) : NodeContext β :=
  { c with nextTick := some delay }

end NodeContext

/-- One request of a callback to its context. -/
inductive Request (β : Type) where
  | emit (outputPort : PortName) (frame : Frame β)
  | emitSignal (signal : SignalFrame β)
  | scheduleNextTick (delay : ℕ)

namespace Request

def emission : Request β → Option (PortName × Frame β)
  | .emit p f => some (p, f)
  | _ => none

/-- The signal, when the context of `n` would take it but for the limit. -/
def signalOf (source : SignalFrame β → NodeId) (n : NodeId) : Request β → Option (SignalFrame β)
  | .emitSignal x => if source x = n then some x else none
  | _ => none

end Request

/-- One lifecycle callback of user code under `catch_unwind`. -/
structure Callback (β : Type) where
  requests : List (Request β)
  outcome : CallOutcome Unit

def NodeContext.serve (source : SignalFrame β → NodeId) (c : NodeContext β) :
    Request β → NodeContext β
  | .emit p f => (c.emit p f).2
  | .emitSignal x => (c.emitSignal source x).2
  | .scheduleNextTick d => c.scheduleNextTick d

def NodeContext.serveAll (source : SignalFrame β → NodeId) (c : NodeContext β)
    (requests : List (Request β)) : NodeContext β :=
  requests.foldl (NodeContext.serve source) c

namespace Callback
variable (source : SignalFrame β → NodeId)

/-- Asks for more frames, or more signals that its context would take, than the limit allows. -/
def Exceeds (n : NodeId) (limit : ℕ) (routes : Bool) (cb : Callback β) : Prop :=
  limit < (cb.requests.filterMap Request.emission).length ∨
    routes = true ∧ limit < (cb.requests.filterMap (Request.signalOf source n)).length

instance (n : NodeId) (limit : ℕ) (routes : Bool) (cb : Callback β) :
    Decidable (cb.Exceeds source n limit routes) := inferInstanceAs (Decidable (_ ∨ _))

/-- The context a callback leaves behind. -/
def context (n : NodeId) (limit : ℕ) (routes : Bool) (cb : Callback β) : NodeContext β :=
  (NodeContext.withRoutingLimits n limit routes).serveAll source cb.requests

/-- What is returned when the callback is read by its end alone. -/
def answer (cb : Callback β) (value : τ) : CallOutcome τ :=
  match cb.outcome with
  | .ok _ => .ok value
  | .error e => .error e
  | .panicked m => .panicked m

/-- A callback of the concurrent runtime. -/
def nodeCall (n : NodeId) (limit : ℕ) (routes : Bool) (cb : Callback β) :
    NodeCall (NodeCallOutput β) :=
  let c := cb.context source n limit routes
  ⟨c.emissionOverflowed, cb.answer ⟨c.emissions, c.signals, c.nextTick⟩⟩

/-- `on_finish` under the concurrent runtime, whose emissions are dropped with the context. -/
def finishCall (n : NodeId) (limit : ℕ) (cb : Callback β) : NodeCall Unit :=
  ⟨(cb.context source n limit false).emissionOverflowed, cb.outcome⟩

end Callback

namespace NodeContext
variable (source : SignalFrame β → NodeId)

/-- A context whose callback asked for the frames `fs` and the signals `xs` so far. -/
structure Took (n : NodeId) (limit : ℕ) (routes : Bool) (fs : List (PortName × Frame β))
    (xs : List (SignalFrame β)) (c : NodeContext β) : Prop where
  nodeId : c.nodeId = n
  emissionLimit : c.emissionLimit = limit
  hasSignalRoutes : c.hasSignalRoutes = routes
  emissions : c.emissions = fs.take limit
  signals : routes = true → c.signals = xs.take limit
  overflowed : c.emissionOverflowed = true ↔
    limit < fs.length ∨ routes = true ∧ limit < xs.length

variable {n : NodeId} {limit : ℕ} {routes : Bool} {fs : List (PortName × Frame β)}
  {xs : List (SignalFrame β)} {c : NodeContext β}

theorem took_new : Took n limit routes [] [] (withRoutingLimits n limit routes : NodeContext β) :=
  ⟨rfl, rfl, rfl, by simp [withRoutingLimits], by simp [withRoutingLimits],
    by simp [withRoutingLimits]⟩

/-- One more value against the limit: it is lost when the limit is reached, kept otherwise. -/
theorem take_append_singleton {α : Type} (l : List α) (x : α) (k : ℕ) :
    (l ++ [x]).take k = if k ≤ (l.take k).length then l.take k else l.take k ++ [x] := by
  rw [List.length_take]
  split_ifs with h
  · have hle : k ≤ l.length := by omega
    rw [List.take_append_of_le_length hle]
  · have hlt : l.length < k := by omega
    rw [List.take_of_length_le (by simp; omega), List.take_of_length_le hlt.le]

theorem took_emit (h : Took n limit routes fs xs c) (p : PortName) (f : Frame β) :
    Took n limit routes (fs ++ [(p, f)]) xs (c.emit p f).2 := by
  obtain ⟨rfl, rfl, rfl, hfs, hxs, hov⟩ := h
  have htake := take_append_singleton fs (p, f) c.emissionLimit
  have hlen := List.length_take (i := c.emissionLimit) (l := fs)
  unfold emit
  rw [← hfs] at htake hlen
  split_ifs at htake ⊢ with hfull
  · refine ⟨rfl, rfl, rfl, htake.symm, hxs, ?_⟩
    simp only [true_iff, List.length_append, List.length_singleton]
    omega
  · refine ⟨rfl, rfl, rfl, htake.symm, hxs, ?_⟩
    rw [hov, List.length_append, List.length_singleton]
    constructor <;> rintro (hf | hs) <;> first | omega | exact .inr hs

theorem took_emitSignal (h : Took n limit routes fs xs c) (x : SignalFrame β) :
    Took n limit routes fs (xs ++ (Request.signalOf source n (.emitSignal x)).toList)
      (c.emitSignal source x).2 := by
  obtain ⟨rfl, rfl, rfl, hfs, hxs, hov⟩ := h
  unfold emitSignal Request.signalOf
  cases hroutes : c.hasSignalRoutes with
  | false => exact ⟨rfl, rfl, hroutes, hfs, by simp, by simpa [hroutes] using hov⟩
  | true =>
    have hxs := hxs hroutes
    simp only [Bool.true_eq_false, if_false]
    by_cases hsource : source x = c.nodeId
    · have htake := take_append_singleton xs x c.emissionLimit
      have hlen := List.length_take (i := c.emissionLimit) (l := xs)
      simp only [hsource, ne_eq, not_true_eq_false, if_false, if_true, Option.toList_some]
      rw [← hxs] at htake hlen
      split_ifs at htake ⊢ with hfull
      · refine ⟨rfl, rfl, rfl, hfs, fun _ => htake.symm, ?_⟩
        simp only [true_iff, List.length_append, List.length_singleton, true_and]
        omega
      · refine ⟨rfl, rfl, rfl, hfs, fun _ => htake.symm, ?_⟩
        rw [hov, List.length_append, List.length_singleton, hroutes]
        constructor <;> rintro (hf | hs) <;> omega
    · simp only [hsource, ne_eq, not_false_eq_true, if_true, if_false, Option.toList_none,
        List.append_nil]
      exact ⟨rfl, rfl, hroutes, hfs, fun _ => hxs, by simpa [hroutes] using hov⟩

theorem took_serveAll (requests : List (Request β)) (h : Took n limit routes fs xs c) :
    Took n limit routes (fs ++ requests.filterMap Request.emission)
      (xs ++ requests.filterMap (Request.signalOf source n)) (c.serveAll source requests) := by
  induction requests generalizing fs xs c with
  | nil =>
    simp only [List.filterMap_nil, List.append_nil]
    exact h
  | cons r rest ih =>
    have hnext : Took n limit routes (fs ++ r.emission.toList)
        (xs ++ (r.signalOf source n).toList) (c.serve source r) := by
      cases r with
      | emit p f => simpa [Request.emission, Request.signalOf, serve] using took_emit h p f
      | emitSignal x => simpa [Request.emission, serve] using took_emitSignal source h x
      | scheduleNextTick d =>
        simp only [Request.emission, Request.signalOf, Option.toList_none, List.append_nil]
        exact ⟨h.nodeId, h.emissionLimit, h.hasSignalRoutes, h.emissions, h.signals, h.overflowed⟩
    have hcons : ∀ {α : Type} (f : Request β → Option α) (l : List α),
        l ++ (r :: rest).filterMap f = l ++ (f r).toList ++ rest.filterMap f := by
      intro α f l
      rw [List.filterMap_cons]
      cases f r <;> simp
    rw [hcons, hcons]
    exact ih hnext

end NodeContext

namespace Callback
variable (source : SignalFrame β → NodeId) (n : NodeId) (limit : ℕ) (routes : Bool)
  (cb : Callback β)

theorem context_took : NodeContext.Took n limit routes (cb.requests.filterMap Request.emission)
    (cb.requests.filterMap (Request.signalOf source n)) (cb.context source n limit routes) :=
  NodeContext.took_serveAll source cb.requests NodeContext.took_new

/-- The flag says exactly whether the callback asked for too much. -/
theorem overflowed_iff : (cb.context source n limit routes).emissionOverflowed = true ↔
    cb.Exceeds source n limit routes :=
  (cb.context_took source n limit routes).overflowed

/-- The context keeps the first emissions up to the limit and loses the rest. -/
theorem context_emissions : (cb.context source n limit routes).emissions =
    (cb.requests.filterMap Request.emission).take limit :=
  (cb.context_took source n limit routes).emissions

end Callback
end Muxiva
