import PluginChain.Engine
import PluginChain.Workflow.Chain

/-!
# Steps that run side by side

Every step of a parallel task has a worker of its own, and all work on the same input.  A gate lets
only so many workers in at a time; a worker looks its plugin up after it was let in, leaves the gate
when it has an outcome, and then enters the outcome under the name of its step.

`FanOut.move` is one such move of one worker, and is possible in some states only.  In which order the
workers move is open, and so is what happens to the registry between two moves.  `FanOut.run` lets the
workers move in the order of their steps, each to its end.
-/

set_option autoImplicit false

namespace PluginChain

/-- How far the worker of a step is. -/
inductive Worker
  /-- Before the gate. -/
  | waiting
  /-- Inside the gate, with no plugin yet. -/
  | inside
  | running (plugin : CompiledPlugin)
  /-- Outside again, with what the step came to. -/
  | done (r : Except StepFailure Data)
  | recorded (r : Except StepFailure Data)
  deriving Inhabited

/-- A move of the worker of the step at an index. -/
inductive Move
  | enter (index : Nat)
  | start (index : Nat)
  | finish (index : Nat)
  | record (index : Nat)
  deriving Repr, DecidableEq, Inhabited

structure Gate where
  /-- How many more workers it lets in. -/
  free : Nat
  /-- A gate that is closed turns every worker away. -/
  closed : Bool := false
  deriving Repr, DecidableEq, Inhabited

namespace Gate

/-- The gate with one worker more inside. -/
def takeIn (g : Gate) : Gate := { g with free := g.free - 1 }

/-- The gate with one worker less inside. -/
def letOut (g : Gate) : Gate := { g with free := g.free + 1 }

/-- What a step comes to whose worker was turned away. -/
def refusal : StepFailure := .runtime "admission gate closed"

end Gate

structure FanOut where
  engine : Engine
  gate : Gate
  workers : List Worker
  results : Results := []

namespace FanOut

def begin_ (e : Engine) (steps : List Step) : FanOut where
  engine := e
  gate := ⟨e.maxParallel, false⟩
  workers := steps.map fun _ => .waiting

def setWorker (s : FanOut) (index : Nat) (w : Worker) : FanOut :=
  { s with workers := s.workers.set index w }

/-- A worker leaves the gate with what its step came to. -/
def leave (s : FanOut) (index : Nat) (r : Except StepFailure Data) : FanOut :=
  { s.setWorker index (.done r) with gate := s.gate.letOut }

/-- The state after a move, if the move is possible.  `eval index` runs the plugin of the step at an
index. -/
def move (eval : Nat → Evaluator) (steps : List Step) (input : Data) (s : FanOut) :
    Move → Option FanOut
  | .enter i =>
    match s.workers[i]? with
    | some .waiting =>
      if s.gate.closed then some (s.setWorker i (.done (.error Gate.refusal)))
      else if s.gate.free = 0 then none
      else some { s.setWorker i .inside with gate := s.gate.takeIn }
    | _ => none
  | .start i =>
    match s.workers[i]?, steps[i]? with
    | some .inside, some step =>
      match step.pluginName i with
      | .error f => some (s.leave i (.error f))
      | .ok name =>
        match s.engine.start name with
        | .error f => some (s.leave i (.error f))
        | .ok (p, e) => some { s.setWorker i (.running p) with engine := e }
    | _, _ => none
  | .finish i =>
    match s.workers[i]?, steps[i]? with
    | some (.running p), some step =>
      let r := (eval i p input step.paramsData).mapError ExecutionError.toFailure
      some ({ s with engine := s.engine.finish }.leave i r)
    | _, _ => none
  | .record i =>
    match s.workers[i]?, steps[i]? with
    | some (.done r), some step =>
      some { s.setWorker i (.recorded r) with results := s.results.record i step r }
    | _, _ => none

/-- A move, or nothing where it is not possible. -/
def tryMove (eval : Nat → Evaluator) (steps : List Step) (input : Data) (s : FanOut) (m : Move) :
    FanOut :=
  (s.move eval steps input m).getD s

/-- The moves of a worker from the gate to its outcome. -/
def movesOf (index : Nat) : List Move := [.enter index, .start index, .finish index, .record index]

/-- Runs the steps in their order.  A step without a plugin has no execution to finish. -/
def run (e : Engine) (eval : Nat → Evaluator) (steps : List Step) (input : Data) : FanOut :=
  ((List.range steps.length).flatMap movesOf).foldl (tryMove eval steps input) (begin_ e steps)

end FanOut

end PluginChain
