import PluginChain.Codec
import PluginChain.Duration

/-!
# Outcomes of steps and states of runs

A step ends in an `Outcome`: the data it gave, or the `StepFailure` it met.  The outcomes of a run are
collected in `Results` under the names of the steps, and a `RunStatus` sums them up: a run completed
with errors just when one of its outcomes is a failure.
-/

set_option autoImplicit false

namespace PluginChain

/-- Why a step gave no data. -/
inductive StepFailure
  | pluginNotFound (plugin : String)
  | invalidStep (step : String) (reason : String)
  | timeout (millis : UInt64)
  | runtime (message : String)
  deriving Repr, DecidableEq, Inhabited

namespace StepFailure

def message : StepFailure → String
  | .pluginNotFound plugin => s!"plugin '{plugin}' not found"
  | .invalidStep step reason => s!"invalid step definition '{step}': {reason}"
  | .timeout millis => s!"execution timed out after {millis}ms"
  | .runtime message => message

def codec : Codec StepFailure where
  shape := .keyed "StepFailure" "kind" [
    ("plugin_not_found", [("plugin", .text)]),
    ("invalid_step_definition", [("step", .text), ("reason", .text)]),
    ("timeout", [("timeout_ms", .natural "u64")]),
    ("runtime", [("message", .text)])]
  encode
    | .pluginNotFound plugin =>
      .table [("kind", .text "plugin_not_found"), ("plugin", .text plugin)]
    | .invalidStep step reason =>
      .table [("kind", .text "invalid_step_definition"), ("step", .text step), ("reason", .text reason)]
    | .timeout millis =>
      .table [("kind", .text "timeout"), ("timeout_ms", .int millis.toNat)]
    | .runtime message =>
      .table [("kind", .text "runtime"), ("message", .text message)]
  decode?
    | .table es => do
      match ← Data.field? "kind" Data.text? es with
      | "plugin_not_found" => return .pluginNotFound (← Data.field? "plugin" Data.text? es)
      | "invalid_step_definition" =>
        return .invalidStep (← Data.field? "step" Data.text? es) (← Data.field? "reason" Data.text? es)
      | "timeout" =>
        let n ← Data.field? "timeout_ms" Data.natural? es
        if n < 2 ^ 64 then some (.timeout n.toUInt64) else none
      | "runtime" => return .runtime (← Data.field? "message" Data.text? es)
      | _ => none
    | _ => none

end StepFailure

/-- How a step ended. -/
inductive Outcome
  | ok (value : Data)
  | failed (why : StepFailure)
  deriving Inhabited

namespace Outcome

def isOk : Outcome → Bool
  | .ok _ => true
  | .failed _ => false

def value? : Outcome → Option Data
  | .ok d => some d
  | .failed _ => none

def failure? : Outcome → Option StepFailure
  | .ok _ => none
  | .failed f => some f

def ofExcept : Except StepFailure Data → Outcome
  | .ok d => .ok d
  | .error f => .failed f

def codec : Codec Outcome where
  shape := .tagged "StepOutcome" [("ok", .any), ("err", StepFailure.codec.shape)]
  encode
    | .ok d => .table [("ok", d)]
    | .failed f => .table [("err", StepFailure.codec.encode f)]
  decode?
    | .table [("ok", d)] => some (.ok d)
    | .table [("err", d)] => (StepFailure.codec.decode? d).map .failed
    | _ => none

end Outcome

/-- The outcomes of a run, in the order of the names of its steps. -/
abbrev Results := List (String × Outcome)

def Results.codec : Codec Results := Outcome.codec.table

/-- How far a run got. -/
inductive RunStatus
  | pending
  | running
  | completed
  | completedWithErrors
  | failed
  deriving Repr, DecidableEq, Inhabited

namespace RunStatus

/-- The word for a state in documents. -/
def word : RunStatus → String
  | .pending => "pending"
  | .running => "running"
  | .completed => "completed"
  | .completedWithErrors => "completed_with_errors"
  | .failed => "failed"

/-- The name of a state in messages. -/
def label : RunStatus → String
  | .pending => "Pending"
  | .running => "Running"
  | .completed => "Completed"
  | .completedWithErrors => "CompletedWithErrors"
  | .failed => "Failed"

def all : List RunStatus := [.pending, .running, .completed, .completedWithErrors, .failed]

def ofWord? (w : String) : Option RunStatus := all.find? (·.word = w)

theorem ofWord?_word (s : RunStatus) : ofWord? s.word = some s := by
  cases s <;> decide

def codec : Codec RunStatus where
  shape := .choice "RunStatus" (all.map word)
  encode s := .text s.word
  decode? d := d.text?.bind ofWord?

/-- The state of a run that ended with these outcomes. -/
def ofResults (results : Results) : RunStatus :=
  if results.all (·.2.isOk) then .completed else .completedWithErrors

theorem ofResults_eq_completed_iff (results : Results) :
    ofResults results = .completed ↔ ∀ e ∈ results, e.2.isOk = true := by
  unfold ofResults
  split
  · next h => simpa using List.all_eq_true.1 h
  · next h =>
    constructor
    · intro hc
      cases hc
    · intro hall
      exact absurd (List.all_eq_true.2 hall) h

end RunStatus

end PluginChain
