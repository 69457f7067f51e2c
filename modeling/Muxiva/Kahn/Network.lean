import Muxiva.Edge.Answers
import Muxiva.Lib.Transducer
import Muxiva.Runtime.Link

/-! Nodes and edge policies as deterministic state machines, run by `GraphRunner` and by the
concurrent runtime. A node has no more than one enabled incoming edge, so the order of its inputs
is that of the frames of this edge. -/
set_option linter.all false
namespace Muxiva.Kahn

open Muxiva.Edge (EdgePolicy PolicyInstance RunnerEdge OutputEdge answersOf)
open Muxiva.Runtime (CallOutcome NodeCall NodeCallOutput PolicyAnswers Label)

variable {ν π β : Type}

/-- The input and its port of one `on_process` call; a source is called without input. -/
abbrev Input (β : Type) := Option (Frame β × PortName)

/-- A node that emits no signals, asks for no ticks and sees nothing but its inputs. -/
structure NodeMachine (ν β : Type) where
  start : ν
  prepare : ν → CallOutcome Unit × ν
  process : ν → Input β → CallOutcome (List (PortName × Frame β)) × ν
  finish : ν → CallOutcome Unit

namespace NodeMachine
variable (m : NodeMachine ν β)

/-- The state of the prepared node after some inputs. -/
def after (inputs : List (Input β)) : ν :=
  inputs.foldl (fun v i => (m.process v i).2) (m.prepare m.start).2

def prepared : CallOutcome Unit := (m.prepare m.start).1

def answer (inputs : List (Input β)) (i : Input β) : CallOutcome (List (PortName × Frame β)) :=
  (m.process (m.after inputs) i).1

def finished (inputs : List (Input β)) : CallOutcome Unit := m.finish (m.after inputs)

end NodeMachine

/-- The nodes and the edge policies of a graph. -/
structure Network (ν π β : Type) where
  node : NodeId → NodeMachine ν β
  policy : EdgeDescriptor → EdgePolicy π β
  policyStart : EdgeDescriptor → π

variable (g : GraphDefinition) (n : NodeId)

/-- The inputs of `n`, of the number of its calls and the frames processed on every edge. -/
def inputsOf (calls : ℕ) (processed : EdgeDescriptor → List (Frame β)) : List (Input β) :=
  if g.isSource n then List.replicate calls none
  else (g.incoming n).flatMap fun e => (processed e).map fun f => some (f, e.toInputPort)

def runnerInputs (log : Runner.Log β) : List (Input β) :=
  inputsOf g n (log.outputs n).length log.processed

def runtimeInputs (s : Runtime.State β) : List (Input β) :=
  inputsOf g n (s.log.outputs n).length fun e => (s.log.processed e).map (·.value)

section Inputs

variable {g : GraphDefinition} {n : NodeId}

/-- The inputs of a node depend on the frames of its own edges only. -/
theorem inputsOf_congr {k k' : ℕ} {processed processed' : EdgeDescriptor → List (Frame β)}
    (hk : g.isSource n = true → k = k') (hp : ∀ e ∈ g.incoming n, processed e = processed' e) :
    inputsOf g n k processed = inputsOf g n k' processed' := by
  unfold inputsOf
  split_ifs with hs
  · rw [hk hs]
  · exact List.flatMap_congr fun e he => by rw [hp e he]

theorem inputsOf_source (hs : g.isSource n = true) (k : ℕ)
    (processed : EdgeDescriptor → List (Frame β)) :
    inputsOf g n k processed = List.replicate k none := by
  unfold inputsOf
  rw [if_pos hs]

/-- A node with an incoming edge has no other and is no source. -/
theorem inputsOf_target {e : EdgeDescriptor} (hin : (g.incoming e.toNodeId).length ≤ 1)
    (he : e ∈ g.enabledEdges) (k : ℕ) (processed : EdgeDescriptor → List (Frame β)) :
    inputsOf g e.toNodeId k processed = (processed e).map fun f => some (f, e.toInputPort) := by
  have hmem : e ∈ g.incoming e.toNodeId := GraphDefinition.mem_incoming.mpr ⟨he, rfl⟩
  have hs : ¬ g.isSource e.toNodeId = true := by
    intro hs
    rw [GraphDefinition.incoming_source hs] at hmem
    cases hmem
  have hone : g.incoming e.toNodeId = [e] := by
    cases hl : g.incoming e.toNodeId with
    | nil =>
      rw [hl] at hmem
      cases hmem
    | cons a as =>
      rw [hl] at hin hmem
      have has : as = [] := List.length_eq_zero_iff.mp (by simpa using hin)
      subst has
      rw [List.mem_singleton.mp hmem]
  unfold inputsOf
  rw [if_neg hs, hone]
  simp

end Inputs

def outcomeMap {σ τ : Type} (f : σ → τ) : CallOutcome σ → CallOutcome τ
  | .ok value => .ok (f value)
  | .error e => .error e
  | .panicked m => .panicked m

/-- A call that stays within the emission budget and has no effect but emissions. -/
structure Plain (call : NodeCall (NodeCallOutput β)) : Prop where
  overflowed : call.overflowed = false
  signals : ∀ out, call.outcome = .ok out → out.signals = []
  nextTick : ∀ out, call.outcome = .ok out → out.nextTick = none

variable [DecidableEq β]

/-- The policy instance after one more frame. -/
def handled (P : EdgePolicy π β) (e : EdgeDescriptor) (p : PolicyInstance π β) (f : Frame β) :
    PolicyInstance π β :=
  ((⟨p, ⟨0, 0, 0, 0, none⟩, [], []⟩ : RunnerEdge π β).applyEdge P e f).2.policy

/-- Where the queue has room, the concurrent pipeline leaves the same instance. -/
theorem handled_concurrent (P : EdgePolicy π β) (e : EdgeDescriptor) (out : OutputEdge π β)
    (hroom : out.HasRoom) (f : Frame β) :
    (out.applyEdge P e f).2.policy = handled P e out.policy f := by
  have hdecided := fun p decision => Edge.decided_agrees P e
    (⟨p, ⟨0, 0, 0, 0, none⟩, [], []⟩ : RunnerEdge π β) { out with policy := p } rfl hroom f decision
  unfold handled RunnerEdge.applyEdge OutputEdge.applyEdge
  by_cases ht : f.frameType ≠ e.frameType
  · rw [if_pos ht, if_pos ht]
    rfl
  rw [if_neg ht, if_neg ht]
  cases e.validationPolicy with
  | typeGateOnly => exact (hdecided out.policy .accept).policy.symm
  | named onFailure =>
    simp only
    unfold RunnerEdge.answered OutputEdge.answered
    cases hvalidate : (out.policy.validate P f).1 with
    | ok decision => exact (hdecided (out.policy.validate P f).2 decision).policy.symm
    | error err => rfl
    | panicked m => rfl

namespace Network
variable (net : Network ν π β)

def policyAfter (e : EdgeDescriptor) (frames : List (Frame β)) : PolicyInstance π β :=
  frames.foldl (handled (net.policy e) e) ⟨net.policyStart e, []⟩

/-- What the hooks of the policy of `e` answer about `f` after some frames. -/
def policyAnswers (e : EdgeDescriptor) (frames : List (Frame β)) (f : Frame β) : PolicyAnswers β :=
  answersOf (net.policy e) e (net.policyAfter e frames).state f

/-- The network under `GraphRunner`. -/
def environment : Runner.Environment β where
  prepare _ n := (net.node n).prepared
  process log n frame port := (net.node n).answer (runnerInputs g n log)
    (frame.bind fun f => port.map fun p => (f, p))
  finish log n := (net.node n).finished (runnerInputs g n log)
  policy log e f := net.policyAnswers e ((log.applied e).map Prod.fst) f

/-- The actions of the network under the concurrent runtime, without an external stop. -/
def Follows (s : Runtime.State β) : Label β → Prop
  | .worker n call => Plain call ∧
    match (s.workers n).pc with
    | .prepare => outcomeMap (fun _ => ()) call.outcome = (net.node n).prepared
    | .source => outcomeMap (·.emissions) call.outcome =
        (net.node n).answer (runtimeInputs g n s) none
    | .onFrame e x => outcomeMap (·.emissions) call.outcome =
        (net.node n).answer (runtimeInputs g n s) (some (x.value, e.toInputPort))
    | _ => True
  | .dispatcher e answers =>
    match s.dispatchers e with
    | .frames (x :: _) =>
      answers = net.policyAnswers e ((s.log.applied e).map fun p => p.1.value) x.value
    | _ => True
  | .stopBegin => False
  | .coordinator call =>
    match s.coordinator.pc with
    | .finish (n :: _) => call = ⟨false, (net.node n).finished (runtimeInputs g n s)⟩
    | _ => True
  | .stop _ | .tick _ => True

end Network

end Muxiva.Kahn
