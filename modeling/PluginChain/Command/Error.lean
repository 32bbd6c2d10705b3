import PluginChain.Configuration
import PluginChain.Error

/-!
# Errors of commands

A command that fails tells what it could not do, and below that the errors which were the cause.
`CommandError.report` is that text.
-/

set_option autoImplicit false

namespace PluginChain

/-- What a file that a command was given is for. -/
inductive FileUse
  | script
  | input
  | task
  deriving Repr, DecidableEq, Inhabited

def FileUse.word : FileUse → String
  | .script => "script"
  | .input => "input"
  | .task => "task"

inductive CommandError
  | config (why : ConfigError)
  | noStore (home : String) (why : FileError)
  | settings (why : SettingsError)
  | noFile (use : FileUse) (path : String) (why : FileError)
  | noInput (why : FileError)
  | emptyInput
  | badInput (why : Json.Fault)
  /-- The value of an option is no JSON. -/
  | badOption (name : String) (why : Json.Fault)
  | badPlugins (why : Json.Fault)
  | badId (given : String) (why : UuidError)
  | chain (why : ChainError)

namespace CommandError

def message : CommandError → String
  | .config why => why.message
  | .noStore home _ => s!"Failed to open store at {home}"
  | .settings why => (ChainError.settings why).message
  | .noFile use path _ => s!"Failed to read {use.word} file: {path}"
  | .noInput _ => "Failed to read from stdin"
  | .emptyInput => "Input is empty"
  | .badInput _ => "Input is not valid JSON"
  | .badOption name _ => s!"{name} is not valid JSON"
  | .badPlugins _ => "--plugins must be a JSON array of \x7bname, params\x7d"
  | .badId given _ => s!"Invalid job ID: {given}"
  | .chain why => why.message

/-- The messages of the errors behind this one.  A configuration keeps its own cause to itself. -/
def causes : CommandError → List String
  | .config _ | .settings _ | .emptyInput => []
  | .noStore _ why => [(StoreError.file why).message, why.message]
  | .noFile _ _ why | .noInput why => [why.message]
  | .badInput why | .badOption _ why | .badPlugins why => [why.message]
  | .badId _ why => [why.message]
  | .chain why => why.cause?.toList

/-- A text whose first line stands behind a mark, and the others below the first. -/
def indented (mark text : String) : String :=
  mark ++ ("\n" ++ String.ofList (List.replicate mark.length ' ')).intercalate (text.splitOn "\n")

/-- The causes, with numbers if there is more than one. -/
def causeLines : List String → List String
  | [] => []
  | [cause] => ["", "Caused by:", indented "    " cause]
  | causes => ["", "Caused by:"] ++ causes.zipIdx.map fun (cause, i) =>
      let number := toString i
      indented (String.ofList (List.replicate (5 - number.length) ' ') ++ number ++ ": ") cause

def report (e : CommandError) : String :=
  "\n".intercalate (("Error: " ++ e.message) :: causeLines e.causes) ++ "\n"

end CommandError

end PluginChain
