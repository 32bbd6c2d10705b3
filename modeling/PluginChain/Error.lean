import PluginChain.Settings
import PluginChain.Store.Error
import PluginChain.Task

/-!
# Errors of the engine

A `StepFailure` is collected among the outcomes of a run, and its neighbours go on.  A `ChainError`
ends the whole request.  `ExecutionError` is what running one script can end in; it becomes a failure
of the step (`ExecutionError.toFailure`), and a failure becomes an error where a single plugin was
asked for (`ChainError.ofFailure`).
-/

set_option autoImplicit false

namespace PluginChain

/-- Why a script gave no data. -/
inductive ExecutionError
  | timeout (limit : Duration)
  | runtime (message : String)
  deriving Repr, DecidableEq, Inhabited

namespace ExecutionError

def message : ExecutionError → String
  | .timeout limit => s!"Execution timed out after {limit.toText}"
  | .runtime message => s!"Script error: {message}"

/-- A failure tells a limit in milliseconds, as a 64-bit number. -/
def toFailure : ExecutionError → StepFailure
  | .timeout limit => .timeout limit.millis64.toUInt64
  | .runtime message => .runtime message

end ExecutionError

/-- Why a task cannot be run, or its input not be found. -/
inductive StructuralError
  | unreadableYaml (why : Yaml.Fault)
  | unreadableJson (why : Json.Fault)
  | invalid (why : TaskError)
  | noJob (why : StoreError)
  | noReferencedJob (why : StoreError)
  | noOutput (job : Uuid) (step : String)
  | badReference (given : String)

def StructuralError.message : StructuralError → String
  | .unreadableYaml why => s!"Failed to parse task YAML: {why.message}"
  | .unreadableJson why => s!"Failed to parse task JSON: {why.message}"
  | .invalid why => why.message
  | .noJob why => s!"job not found: {why.message}"
  | .noReferencedJob why => s!"referenced job not found: {why.message}"
  | .noOutput job step =>
    s!"referenced job {job.toText} has no successful output for step '{step}'"
  | .badReference given => s!"invalid job ID in input reference: {given}"

inductive ChainError
  | compile (plugin : String) (why : String)
  | invalidName (given : String)
  | pluginNotFound (plugin : String)
  | invalidStep (step : String) (reason : String)
  | execution (why : ExecutionError)
  | structural (why : StructuralError)
  | store (why : StoreError)
  | settings (why : SettingsError)
  /-- More steps were to run side by side than there can be places for. -/
  | gate (places : Nat)

namespace ChainError

def message : ChainError → String
  | .compile plugin why => s!"Failed to compile plugin '{plugin}': {why}"
  | .invalidName given => s!"Invalid plugin name: {Text.quoted given}"
  | .pluginNotFound plugin => s!"Plugin '{plugin}' not found"
  | .invalidStep step reason => s!"Invalid step definition '{step}': {reason}"
  | .execution why => why.message
  | .structural why => s!"Structural error: {why.message}"
  | .store why => why.message
  | .settings why => s!"Invalid configuration: {why.message}"
  | .gate places => s!"no room for {places} steps side by side"

/-- The message of the error behind this one. -/
def cause? : ChainError → Option String
  | .store why => why.cause?
  | _ => none

def ofFailure : StepFailure → ChainError
  | .pluginNotFound plugin => .pluginNotFound plugin
  | .invalidStep step reason => .invalidStep step reason
  | .timeout millis => .execution (.timeout (.ofMillis millis.toNat))
  | .runtime message => .execution (.runtime message)

end ChainError

end PluginChain
