import PluginChain.Workflow.FanOut

/-!
# Running tasks

`Engine.runTask` runs the steps of a task as a chain or side by side, and gives a `Report`: the
outcomes of the steps, and the state of the run that follows from them.  Steps that fail are part of a
report; a task that is not valid has none.
-/

set_option autoImplicit false

namespace PluginChain

/-- What is known about a run at its end. -/
structure Report where
  results : Results
  status : RunStatus
  deriving Inhabited

namespace Report

def ofResults (results : Results) : Report := ⟨results, .ofResults results⟩

def toData (r : Report) : Data :=
  .table [("results", Results.codec.encode r.results), ("status", RunStatus.codec.encode r.status)]

def codec : Codec Report where
  shape := .record "WorkflowReport" [
    ("results", Results.codec.shape, none),
    ("status", RunStatus.codec.shape, none)]
  encode := toData
  decode?
    | .table es => do
      return {
        results := ← Data.field? "results" Results.codec.decode? es
        status := ← Data.field? "status" RunStatus.codec.decode? es }
    | _ => none

def outcome? (r : Report) (step : String) : Option Outcome := Entries.get? step r.results

end Report

/-- Why there is no report of a run. -/
inductive RunFault
  | invalid (why : TaskError)
  /-- The gate for steps that run side by side cannot be made that wide. -/
  | gate (places : Nat)
  deriving Repr, DecidableEq, Inhabited

/-- Runs a task that is valid, by what runs one of its steps in a chain, and what runs all of them side
by side. -/
def Task.run {m : Type → Type} [Monad m] (execute : StepRun m)
    (sideBySide : List Step → Data → m (Except RunFault Results)) (task : Task) (input : Data) :
    m (Except RunFault Report) :=
  match task.validate with
  | .error why => return .error (.invalid why)
  | .ok () =>
    if task.parallel then
      return (← sideBySide task.steps input).map .ofResults
    else
      return .ok (.ofResults (← chain execute 0 task.steps input []))

namespace Engine

/-- The most places a gate can have. -/
def gateLimit : Nat := 2 ^ 61 - 1

/-- Runs a step of a task.  `eval index` runs the plugin of the step at an index. -/
def runStep (eval : Nat → Evaluator) : StepRun (StateM Engine) := fun index step input =>
  match step.pluginName index with
  | .error f => return .error f
  | .ok name => modifyGet fun e => e.runPlugin (eval index) name input step.paramsData

/-- Runs steps side by side, if there can be a gate for them. -/
def runFanOut (eval : Nat → Evaluator) (steps : List Step) (input : Data) :
    StateM Engine (Except RunFault Results) := fun e =>
  if gateLimit < e.maxParallel then (.error (.gate e.maxParallel), e)
  else
    let s := FanOut.run e eval steps input
    (.ok s.results, s.engine)

/-- Runs a task on an input. -/
def runTask (e : Engine) (task : Task) (input : Data) : Except RunFault Report × Engine :=
  let eval := fun _ => e.evaluator none
  (task.run (runStep eval) (runFanOut eval) input).run e

end Engine

/-- The error that a request ends in where its run gives no report. -/
def ChainError.ofRunFault : RunFault → ChainError
  | .invalid why => .structural (.invalid why)
  | .gate places => .gate places

end PluginChain
