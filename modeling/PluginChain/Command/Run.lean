import PluginChain.Command.Basic
import PluginChain.Command.Error
import PluginChain.Service
import PluginChain.Task.Document

/-!
# Running commands

`Request.perform` does what is asked for on the command line: from the files and the situation of the
program it makes the files as they are afterwards, what is printed, and the exit code.

A command about the store opens it, starts a service on it and loads the plugins, and tells about
those that do not compile.  What is wrong with the command itself is found before or after that, in
the order in which the command needs its parts.
-/

set_option autoImplicit false

namespace PluginChain

/-- What a program is started in, apart from the files. -/
structure Situation where
  current : Place
  env : Environment
  stdin : Except FileError String
  now : Instant
  /-- Ids that nothing has yet. -/
  taskId : Uuid
  jobId : Uuid
  deriving Inhabited

/-- What a command changes. -/
structure Console where
  files : FileTree
  out : String := ""
  err : String := ""
  deriving Inhabited

abbrev CommandM := ReaderT Situation (EStateM CommandError Console)

namespace CommandM

variable {α : Type}

def print (line : String) : CommandM Unit :=
  modify fun c => { c with out := c.out ++ line ++ "\n" }

/-- Prints a line beside the output. -/
def tell (line : String) : CommandM Unit :=
  modify fun c => { c with err := c.err ++ line ++ "\n" }

/-- The text of a file that the command was given. -/
def readFile (use : FileUse) (path : String) : CommandM String := do
  let files := (← get).files
  ofExcept <| ((files.locate (← read).current path).bind files.read).mapError (.noFile use path)

/-! ## Input -/

def ofJson (c : Codec α) (text : String) (wrap : Json.Fault → CommandError) : CommandM α :=
  ofExcept ((c.ofJson text).mapError wrap)

/-- The data in a file, or in the standard input. -/
def readInput (file : Option String) : CommandM Data := do
  let text ← match file with
    | some path => readFile .input path
    | none => ofExcept ((← read).stdin.mapError .noInput)
  if (Text.nonBlank? text).isNone then throw .emptyInput
  ofJson Codec.data text .badInput

def jobId (given : String) : CommandM Uuid :=
  ofExcept ((Uuid.parse (Text.trim given)).mapError (.badId given))

/-! ## The service -/

def configuration : CommandM Configuration := do
  let s ← read
  ofExcept ((Configuration.load (← get).files s.current s.env).mapError .config)

/-- Carries an operation of a service out on the files. -/
def perform (act : ServiceM α) (s : Service) : CommandM (α × Service) := fun _ c =>
  match act { s with files := c.files } with
  | .ok a s => .ok (a, s) { c with files := s.files }
  | .error e s => .error (.chain e) { c with files := s.files }

/-- The store of the configuration. -/
def openStore (home : String) : CommandM Store := fun s c =>
  match Store.openAt s.current home c.files with
  | .ok store files => .ok store { c with files }
  | .error e files => .error (.noStore home e) { c with files }

/-- A service on the store of the configuration, with its plugins loaded. -/
def openService : CommandM Service := do
  let config ← configuration
  let store ← openStore config.home
  let files := (← get).files
  let s ← ofExcept ((Service.ofSettings config.settings config.limits store files).mapError .settings)
  let (report, s) ← perform (Service.load (← read).now) s
  if report.skipped ≠ [] then
    let names := ", ".intercalate report.skipped
    tell s!"[warning: {report.skipped.length} stored plugin(s) failed to compile: {names}]"
  return s

/-- Carries one operation out on a service that is opened for it. -/
def withService (act : ServiceM α) : CommandM α := do
  let s ← openService
  return (← perform act s).1

/-! ## Output -/

/-- A text filled up with blanks to a width. -/
def padded (width : Nat) (text : String) : String :=
  text ++ String.ofList (List.replicate (width - text.length) ' ')

def pluginLine (p : PluginInfo) : String := padded 24 p.name ++ " " ++ p.description

def jobLine (id status created name : String) : String :=
  id ++ " " ++ padded 12 status ++ " " ++ padded 24 created ++ " " ++ name

def jobHead : String := jobLine (padded 38 "ID") "STATUS" "CREATED" "NAME"

def lineOf (job : Job) : String :=
  jobLine job.id.toText job.status.word (job.createdAt.dateTimeText " ") job.name

def statusLine : RunStatus → String
  | .completed => "[Completed]"
  | .completedWithErrors => "[Completed with errors]"
  | s => s!"[Run in state: {s.label}]"

def printData (d : Data) : CommandM Unit := print (Json.pretty d)

def configLines (c : Configuration) : List String := [
  "Config file: " ++ c.file.getD "(none - using defaults)",
  "Home (store):      " ++ c.home,
  "Execution timeout: " ++ c.settings.timeout.toText,
  "Max parallel:      " ++ toString c.settings.maxParallel,
  "Sandbox limits:    " ++ c.limits.summary]

end CommandM

open CommandM in
def Command.run : Command → CommandM Unit
  | .addPlugin name file description => do
    let s ← openService
    let source ← readFile .script file
    let (info, _) ← perform (Service.register (← read).now name description source) s
    let digest := info.sourceHash.getD ""
    tell s!"[Plugin '{info.name}' registered ({digest})]"
  | .listPlugins => do
    let plugins ← withService Service.listPlugins
    if plugins.isEmpty then print "No plugins registered."
    plugins.forM fun p => print (pluginLine p)
  | .showPlugin name => do print (← withService (Service.pluginSource name))
  | .removePlugin name => do
    withService (Service.remove name)
    let shown := Text.trim name
    tell s!"[Plugin '{shown}' deleted]"
  | .executePlugin name file data params => do
    let s ← openService
    let input ← match data with
      | some text => ofJson Codec.data text (.badOption "--data")
      | none => readInput file
    let params ← ofJson Codec.data params (.badOption "--params")
    printData (← perform (Service.execute name input params) s).1
  | .upload file => do
    let s ← openService
    let input ← readInput file
    let situation ← read
    let (made, _) ← perform (Service.upload situation.now situation.jobId input) s
    print made.id.toText
    tell s!"[Data uploaded as {made.name}]"
  | .process given plugins => do
    let id ← jobId given
    let calls ← ofJson Invocation.codec.list plugins .badPlugins
    let report ← withService (Service.process (← read).now id calls)
    printData (Results.codec.encode report.results)
    tell (statusLine report.status)
  | .task file input => do
    let text ← readFile .task file
    let parsed ← ofExcept ((Task.ofFile file text).mapError fun e => .chain (.structural e))
    let given ← input.mapM fun path => readInput (some path)
    let s ← read
    let submission ← withService (Service.submit s.now s.taskId s.jobId parsed given)
    printData (Results.codec.encode submission.report.results)
    tell s!"[Job {submission.jobId.toText}]"
    tell (statusLine submission.report.status)
  | .jobs most => do
    let all ← withService Service.listJobs
    if all.isEmpty then print "No jobs found."
    else
      print jobHead
      (all.take most).forM fun j => print (lineOf j)
  | .job given => do
    let id ← jobId given
    printData (Job.codec.encode (← withService (Service.getJob id)))
  | .config => do (configLines (← configuration)).forM print

/-! ## Requests -/

/-- What a program leaves behind. -/
structure Finish where
  console : Console
  code : UInt8
  deriving Inhabited

def Request.nameAndVersion : String := "scriptflow 0.1.0"

def Request.usage : String := "\n".intercalate [
  "Usage: scriptflow <COMMAND>",
  "",
  "Commands:",
  "  plugin add <NAME> --file <FILE> [--description <DESCRIPTION>]",
  "  plugin list",
  "  plugin show <NAME>",
  "  plugin rm <NAME>",
  "  plugin exec <NAME> [--input <INPUT> | --data <DATA>] [--params <PARAMS>]",
  "  upload [--input <INPUT>]",
  "  process <JOB_ID> --plugins <PLUGINS>",
  "  task <FILE> [--input <INPUT>]",
  "  jobs [--limit <LIMIT>]",
  "  job <JOB_ID>",
  "  config",
  "  help",
  "",
  "Options:",
  "  -h, --help",
  "  -V, --version"]

/-- Does what is asked for, and tells in the exit code whether that went well. -/
def Request.perform (r : Request) (s : Situation) (files : FileTree) : Finish :=
  match r with
  | .version => ⟨{ files, out := nameAndVersion ++ "\n" }, 0⟩
  | .help => ⟨{ files, out := usage ++ "\n" }, 0⟩
  | .misuse => ⟨{ files, err := usage ++ "\n" }, 2⟩
  | .run c =>
    match c.run s { files } with
    | .ok () console => ⟨console, 0⟩
    | .error e console => ⟨{ console with err := console.err ++ e.report }, 1⟩

end PluginChain
