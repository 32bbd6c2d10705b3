import PluginChain.Error
import PluginChain.Script.Run

/-!
# The sandbox

A script is run on an input and parameters, within limits and for a time.  The time a script has is
told to its caller as it was given; what stops the script is a bound on its work that no script which
comes to an end gets near.
-/

set_option autoImplicit false

namespace PluginChain

structure Sandbox where
  limits : Limits := .standard
  /-- The time a script has where its caller does not say. -/
  timeout : Duration := .ofMillis 5000
  deriving Repr, DecidableEq, Inhabited

/-- What became of a script that was run, and what it printed. -/
structure Execution where
  answer : Except ExecutionError Data
  log : List Script.LogEntry

namespace Sandbox

/-- The operations a script may take in a time, before it counts as one without an end. -/
def workLimit (time : Duration) : Nat := min 16000000 (1000000 + 4000 * time.millis)

/-- The data a script ends with, or the error it ends in. -/
def answerOf (time : Duration) : Script.Ending → Except ExecutionError Data
  | .late => .error (.timeout time)
  | .failure f => .error (.runtime f.message)
  | .value v =>
    match v.toData? with
    | .ok d => .ok d
    | .error part => .error (.runtime <|
      "script result is not JSON-representable: Output type incorrect: " ++ part.outputTypeName ++
        " (expecting serde_json::value::Value)")

/-- Runs a script on an input and parameters, which it cannot change. -/
def run (box : Sandbox) (program : Script.Program) (input params : Data) (time : Duration) : Execution :=
  let done := program.run box.limits (workLimit time) [("input", input), ("params", params)]
  ⟨answerOf time done.ending, done.log⟩

end Sandbox

end PluginChain
