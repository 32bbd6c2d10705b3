import PluginChain.Script.Eval
import PluginChain.Script.Grammar
import PluginChain.Script.Simplify

/-!
# Compiling and running a script

`Program.compile` reads a script and simplifies it.  `Program.run` runs it from an empty state but for
some constants, and gives how it ended and what it printed; nothing of a run is left for the next one.
-/

set_option autoImplicit false

namespace PluginChain.Script

/-- How the run of a script ends. -/
inductive Ending
  | value (v : Value)
  | failure (f : Failure)
  /-- The work the script may do was used up. -/
  | late

/-- A run that came to its end. -/
structure Finished where
  ending : Ending
  /-- What was printed, the earliest first. -/
  log : List LogEntry

namespace Program

def compile (limits : Limits) (source : String) : Except SyntaxError Program :=
  (Program.parse? limits source).map (·.simplify limits.textSize)

/-- The depth to which a script is evaluated, which the limits on nesting and calls keep it from. -/
def depth : Nat := 2 ^ 62

/-- A `return` ends the script as well as its last statement does. -/
def ending : Stop → Ending
  | .failure f => .failure f
  | .result v | .exit v => .value v
  | .leaveLoop _ | .nextRound => .value .unit
  | .late => .late

/-- Runs a script.  The constants cannot be seen inside its functions. -/
def run (p : Program) (limits : Limits) (workLimit : Nat) (constants : List (String × Data)) :
    Finished :=
  let scope := constants.map fun (name, d) =>
    ({ name, value := Value.ofData d, access := Access.sealed } : Binding)
  let machine : Machine := { scope := scope.toArray }
  match Run.statements (evaluate depth) p.body .unit ⟨p.functions, limits, workLimit, 0, true⟩ machine with
  | .ok v m => ⟨.value v, m.log.reverse⟩
  | .error s m => ⟨ending s, m.log.reverse⟩

end Program

end PluginChain.Script
