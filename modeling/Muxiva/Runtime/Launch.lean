import Muxiva.Runtime.Model

/-! `start_with_spawner`: the threads of a graph are created one after another and wait at the
`LaunchGate`. If a thread cannot be created the gate is cancelled and those that wait are joined. -/
namespace Muxiva.Runtime

open Transition Transition.System

/-- A thread of the runtime; its role and its name are in a `RuntimeStartError`. -/
inductive RuntimeThread where
  | edge (e : EdgeId)
  | node (n : NodeId)
  | coordinator
  deriving DecidableEq, Repr

/-- The threads that wait at the gate, in the order of their spawns: dispatchers are popped. -/
def launchOrder (g : GraphDefinition) : List RuntimeThread :=
  (g.enabledEdges.reverse.map fun e => RuntimeThread.edge e.edgeId) ++ g.topologicalOrder.map .node

/-- Where a thread stands whose task begins with `LaunchGate::wait`. -/
inductive LaunchPc where
  | unborn
  | looks
  | asleep
  | body
  | exited (ran : Bool)
  deriving DecidableEq, Repr

def LaunchPc.isExited : LaunchPc → Bool
  | .exited _ => true
  | _ => false

/-- The coordinator does not wait at the gate but for the exits of the other threads. -/
inductive CoordinatorThread where
  | unborn
  | collects
  | coordinates
  deriving DecidableEq, Repr

/-- Where `start_with_spawner` stands, and then `cleanup_failed_start` when spawn `k` has failed. -/
inductive Starter where
  | spawns (k : ℕ)
  | releases
  | cancels (k : ℕ)
  | notifies (failed : Option ℕ)
  | closes (k : ℕ)
  | joins (k j : ℕ)
  | returned (failed : Option ℕ)
  deriving DecidableEq, Repr

structure Launch where
  /-- `LaunchGate` -/
  gate : Option Bool
  starter : Starter
  threads : ℕ → LaunchPc
  coordinator : CoordinatorThread
  /-- the `StopToken` is cancelled and the queues are closed -/
  stopped : Bool

/-- `ends` is the end of a body, `wakes` a spurious wake-up. -/
inductive LaunchAction where
  | spawn (fails : Bool)
  | starter
  | thread (i : ℕ)
  | ends (i : ℕ)
  | wakes (i : ℕ)
  | coordinator
  deriving DecidableEq, Repr

namespace Launch

def new : Launch := ⟨none, .spawns 0, fun _ => .unborn, .unborn, false⟩

variable (g : GraphDefinition) (s : Launch)

def setThread (i : ℕ) (pc : LaunchPc) : Launch :=
  { s with threads := Function.update s.threads i pc }

/-- One call of `spawn`; the last one is that of the coordinator. -/
def spawn (k : ℕ) (fails : Bool) : Launch :=
  if fails then { s with starter := .cancels k }
  else if k < (launchOrder g).length then { s.setThread k .looks with starter := .spawns (k + 1) }
  else { s with starter := .releases, coordinator := .collects }

/-- `notify_all` -/
def notifyAll : ℕ → LaunchPc := fun i => if s.threads i = .asleep then .looks else s.threads i

def stepStarter : Option Launch :=
  match s.starter with
  | .spawns _ => none
  | .releases => some { s with gate := some true, starter := .notifies none }
  | .cancels k => some { s with gate := some false, starter := .notifies (some k) }
  | .notifies none => some { s with threads := s.notifyAll, starter := .returned none }
  | .notifies (some k) => some { s with threads := s.notifyAll, starter := .closes k }
  | .closes k => some { s with stopped := true, starter := .joins k 0 }
  | .joins k j =>
    if j < k then
      if (s.threads j).isExited then some { s with starter := .joins k (j + 1) } else none
    else some { s with starter := .returned (some k) }
  | .returned _ => none

/-- One turn of the loop of `LaunchGate::wait`, and what the task does with its answer. -/
def stepThread (i : ℕ) : Option Launch :=
  match s.threads i with
  | .looks =>
    match s.gate with
    | none => some (s.setThread i .asleep)
    | some true => some (s.setThread i .body)
    | some false => some (s.setThread i (.exited false))
  | _ => none

/-- The channel of exits closes with the last thread that waited at the gate. -/
def stepCoordinator : Option Launch :=
  if s.coordinator = .collects ∧
      ∀ i ∈ List.range (launchOrder g).length, (s.threads i).isExited = true then
    some { s with coordinator := .coordinates }
  else none

def step : LaunchAction → Option Launch
  | .spawn fails =>
    match s.starter with
    | .spawns k => some (s.spawn g k fails)
    | _ => none
  | .starter => s.stepStarter
  | .thread i => s.stepThread i
  | .ends i => if s.threads i = .body then some (s.setThread i (.exited true)) else none
  | .wakes i => if s.threads i = .asleep then some (s.setThread i .looks) else none
  | .coordinator => s.stepCoordinator g

/-- What `start` has returned. -/
def result : Option (Except RuntimeThread Unit) :=
  match s.starter with
  | .returned none => some (.ok ())
  | .returned (some k) => some (.error ((launchOrder g)[k]?.getD .coordinator))
  | _ => none

end Launch

def launching (g : GraphDefinition) : System Launch LaunchAction where
  init s := s = .new
  step := Launch.step g

end Muxiva.Runtime
