import PluginChain.Outcome
import PluginChain.Text.Blank

/-!
# Tasks

A task is a list of steps, each of which runs one plugin with parameters.  The steps run one after the
other, each on what the one before it gave, or all of them on the input of the task.

* `Step.displayName` is the name under which the outcome of a step is collected, `Step.pluginName` the
  plugin it runs.
* `InputRef` says where the input of a task comes from.  Only the reference of the first step counts;
  `Task.ignoredInputs` names the later steps that carry one.
-/

set_option autoImplicit false

namespace PluginChain

/-- Where the input of a task comes from. -/
inductive InputRef
  /-- What a step of an earlier job gave. -/
  | output (jobId : String) (step : String)
  /-- The input of an earlier job. -/
  | job (jobId : String)
  | inline (value : Data)
  deriving Inhabited

namespace InputRef

def codec : Codec InputRef where
  shape := .oneOf "InputRef" [
    [("job_id", .text), ("step", .text)],
    [("job_id", .text)],
    [("value", .any)]]
  encode
    | .output jobId step => .table [("job_id", .text jobId), ("step", .text step)]
    | .job jobId => .table [("job_id", .text jobId)]
    | .inline value => .table [("value", value)]
  decode?
    | .table [("job_id", .text jobId), ("step", .text step)] => some (.output jobId step)
    | .table [("job_id", .text jobId)] => some (.job jobId)
    | .table [("value", value)] => some (.inline value)
    | _ => none

end InputRef

structure Step where
  name : Option String := none
  plugin : Option String := none
  params : List (String × Data) := []
  input : Option InputRef := none
  deriving Inhabited

namespace Step

/-- The name under which the outcome of the step at an index is collected. -/
def displayName (step : Step) (index : Nat) : String :=
  match step.name.bind Text.nonBlank? with
  | some name => name
  | none => s!"step_{index}"

/-- The plugin that the step at an index runs, or why it cannot run. -/
def pluginName (step : Step) (index : Nat) : Except StepFailure String :=
  match step.plugin.bind Text.nonBlank? with
  | some plugin => .ok plugin
  | none => .error (.invalidStep (step.displayName index) "plugin name not specified in step")

def paramsData (step : Step) : Data := .table step.params

/-- A step that runs a plugin. -/
def running (plugin : String) : Step := { plugin := some plugin }

def named (step : Step) (name : String) : Step := { step with name := some name }

def withParam (step : Step) (key : String) (value : Data) : Step :=
  { step with params := Entries.put key value step.params }

def withInput (step : Step) (input : InputRef) : Step := { step with input := some input }

def codec : Codec Step where
  shape := .record "Step" [
    ("name", .maybe .text, some .null),
    ("plugin", .maybe .text, some .null),
    ("params", .table .any, some (.table [])),
    ("input", .maybe InputRef.codec.shape, some .null)]
  encode s := .table (
    Data.optional "name" Data.text s.name ++
    Data.optional "plugin" Data.text s.plugin ++
    [("params", .table s.params)] ++
    Data.optional "input" InputRef.codec.encode s.input)
  decode?
    | .table es => do
      return {
        name := ← Data.optionalField? "name" Data.text? es
        plugin := ← Data.optionalField? "plugin" Data.text? es
        params := ← Data.field? "params" Data.table? es
        input := ← Data.optionalField? "input" InputRef.codec.decode? es }
    | _ => none

end Step

structure Task where
  name : String
  description : String := ""
  steps : List Step
  parallel : Bool
  deriving Inhabited

/-- What is wrong with a task as a whole. -/
inductive TaskError
  | emptyName
  | noSteps
  deriving Repr, DecidableEq, Inhabited

def TaskError.message : TaskError → String
  | .emptyName => "Task name cannot be empty"
  | .noSteps => "Task must have at least one step"

namespace Task

/-- A task needs a name that is not blank, and a step. -/
def validate (task : Task) : Except TaskError Unit :=
  if (Text.nonBlank? task.name).isNone then .error .emptyName
  else if task.steps.isEmpty then .error .noSteps
  else .ok ()

/-- The reference that gives the task its input. -/
def initialInput? (task : Task) : Option InputRef := task.steps.head?.bind (·.input)

/-- The names of the steps after the first that carry a reference. -/
def ignoredInputs (task : Task) : List String :=
  (task.steps.zipIdx.drop 1).filterMap fun (step, index) =>
    if step.input.isSome then some (step.displayName index) else none

def codec : Codec Task where
  shape := .record "TaskDefinition" [
    ("name", .text, none),
    ("description", .text, some (.text "")),
    ("steps", .list Step.codec.shape, none),
    ("parallel", .flag, some (.flag false))]
  encode t := .table [
    ("name", .text t.name),
    ("description", .text t.description),
    ("steps", .list (t.steps.map Step.codec.encode)),
    ("parallel", .flag t.parallel)]
  decode?
    | .table es => do
      return {
        name := ← Data.field? "name" Data.text? es
        description := ← Data.field? "description" Data.text? es
        steps := ← Data.field? "steps" Step.codec.list.decode? es
        parallel := ← Data.field? "parallel" Data.flag? es }
    | _ => none

end Task

end PluginChain
