import PluginChain.Gauge
import PluginChain.Registry

/-!
# The engine

An `Engine` holds what it takes to run plugins: the registry they are looked up in, the sandbox they
run in, how many steps of a task may run at once, and the gauge that counts what is under way.

A plugin is looked up at the moment it is to run (`Engine.start`).  The gauge counts an execution from
there to its end (`Engine.finish`), and a plugin that is not there is never counted.
-/

set_option autoImplicit false

namespace PluginChain

structure Engine where
  registry : Registry
  sandbox : Sandbox
  maxParallel : Nat
  gauge : Gauge := {}
  deriving Inhabited

/-- What a plugin does to an input under parameters. -/
abbrev Evaluator := CompiledPlugin → Data → Data → Except ExecutionError Data

namespace Engine

/-- At least one step can always run. -/
def ofSettings (s : Settings) (limits : Limits) : Engine where
  registry := { limits }
  sandbox := ⟨limits, s.timeout⟩
  maxParallel := max 1 s.maxParallel

/-- How the sandbox runs plugins, in the time given or else in its own. -/
def evaluator (e : Engine) (time : Option Duration) : Evaluator := fun p input params =>
  (e.sandbox.run p.program input params (time.getD e.sandbox.timeout)).answer

/-- The plugin of a name, with whose execution the engine begins. -/
def start (e : Engine) (name : String) : Except StepFailure (CompiledPlugin × Engine) :=
  match e.registry.get? name with
  | some p => .ok (p, { e with gauge := e.gauge.enter })
  | none => .error (.pluginNotFound (Text.trim name))

/-- The engine at the end of an execution. -/
def finish (e : Engine) : Engine := { e with gauge := e.gauge.leave }

/-- Runs a plugin.  What goes wrong is a failure of the step it is run for. -/
def runPlugin (e : Engine) (eval : Evaluator) (name : String) (input params : Data) :
    Except StepFailure Data × Engine :=
  match e.start name with
  | .error f => (.error f, e)
  | .ok (p, e) => ((eval p input params).mapError ExecutionError.toFailure, e.finish)

/-- Runs a plugin for its own sake. -/
def executePlugin (e : Engine) (name : String) (input params : Data) (time : Option Duration) :
    Except ChainError Data × Engine :=
  let (r, e) := e.runPlugin (e.evaluator time) name input params
  (r.mapError ChainError.ofFailure, e)

/-- An execution leaves nothing under way. -/
theorem current_runPlugin (e : Engine) (eval : Evaluator) (name : String) (input params : Data) :
    (e.runPlugin eval name input params).2.gauge.current = e.gauge.current := by
  unfold runPlugin start
  cases e.registry.get? name with
  | none => rfl
  | some p => exact Gauge.current_leave_enter e.gauge

/-- An execution changes nothing of the registry. -/
theorem registry_runPlugin (e : Engine) (eval : Evaluator) (name : String) (input params : Data) :
    (e.runPlugin eval name input params).2.registry = e.registry := by
  unfold runPlugin start
  cases e.registry.get? name <;> rfl

end Engine

end PluginChain
