import PluginChain.Command.Arguments

/-!
# Commands

A `Command` is one thing that can be asked for on the command line, and `Request.ofArguments` reads
what is asked for there.
-/

set_option autoImplicit false

namespace PluginChain

inductive Command
  | addPlugin (name file description : String)
  | listPlugins
  | showPlugin (name : String)
  | removePlugin (name : String)
  /-- Runs one plugin on data from the command line, from a file, or from the standard input. -/
  | executePlugin (name : String) (file data : Option String) (params : String)
  | upload (file : Option String)
  | process (job : String) (plugins : String)
  | task (file : String) (input : Option String)
  | jobs (most : Nat)
  | job (id : String)
  | config
  deriving Repr, DecidableEq, Inhabited

namespace Command

/-- The files that a command is given. -/
def files : Command → List String
  | .addPlugin _ file _ => [file]
  | .executePlugin _ file _ _ => file.toList
  | .upload file => file.toList
  | .task file input => file :: input.toList
  | _ => []

/-- Whether a command takes its data from the standard input. -/
def readsInput : Command → Bool
  | .executePlugin _ none none _ | .upload none => true
  | _ => false

/-- Whether a command is about the store. -/
def opensStore (c : Command) : Bool := c ≠ .config

end Command

/-- What a command line asks for. -/
inductive Request
  | run (c : Command)
  | version
  | help
  | misuse
  deriving Repr, DecidableEq, Inhabited

namespace Request

open Arguments

def inputChoice : Choice := ⟨"input", some 'i', .path, false⟩

/-- The command that arguments in a form stand for. -/
def ofForm (form : Form) (args : List String) (f : Given → Option Command) : Request :=
  match form.read args with
  | .error .help => .help
  | .error .misuse => .misuse
  | .ok given =>
    match f given with
    | some c => .run c
    | none => .misuse

/-- A command with one value and nothing else. -/
def ofValue (f : String → Command) (args : List String) : Request :=
  ofForm { places := [.text] } args fun g => g.values.head?.map f

def ofNothing (c : Command) (args : List String) : Request := ofForm {} args fun _ => some c

/-- The command about plugins that a word is the name of. -/
def pluginCommand? : String → Option (List String → Request)
  | "add" => some fun args =>
    ofForm ⟨[.text], [⟨"file", some 'f', .path, true⟩, ⟨"description", some 'd', .text, false⟩]⟩ args
      fun g => do
        let description := (g.choices.lookup "description").getD ""
        return .addPlugin (← g.values.head?) (← g.choices.lookup "file") description
  | "list" => some (ofNothing .listPlugins)
  | "show" => some (ofValue .showPlugin)
  | "rm" => some (ofValue .removePlugin)
  | "exec" => some fun args =>
    ofForm ⟨[.text], [inputChoice, ⟨"data", none, .text, false⟩, ⟨"params", some 'p', .text, false⟩]⟩ args
      fun g => do
        let (file, data) := (g.choices.lookup "input", g.choices.lookup "data")
        if file.isSome && data.isSome then none
        else
          let params := (g.choices.lookup "params").getD "\x7b\x7d"
          return .executePlugin (← g.values.head?) file data params
  | _ => none

/-- The command that a word is the name of, given those about plugins. -/
def command? (plugin : List String → Request) : String → Option (List String → Request)
  | "plugin" => some plugin
  | "upload" => some fun args =>
    ofForm ⟨[], [inputChoice]⟩ args fun g => some (.upload (g.choices.lookup "input"))
  | "process" => some fun args =>
    ofForm ⟨[.text], [⟨"plugins", some 'p', .text, true⟩]⟩ args
      fun g => do return .process (← g.values.head?) (← g.choices.lookup "plugins")
  | "task" => some fun args =>
    ofForm ⟨[.path], [inputChoice]⟩ args
      fun g => do return .task (← g.values.head?) (g.choices.lookup "input")
  | "jobs" => some fun args =>
    ofForm ⟨[], [⟨"limit", some 'l', .natural, false⟩]⟩ args
      fun g => some (.jobs (((g.choices.lookup "limit").bind Text.natural?).getD 10))
  | "job" => some (ofValue .job)
  | "config" => some (ofNothing .config)
  | _ => none

/-- Help about the commands that words name one inside the other. -/
def helpAbout (known : String → Bool) (inner : String → String → Bool) : List String → Request
  | [] => .help
  | [word] => if known word || word = "help" then .help else .misuse
  | [outer, word] => if inner outer word then .help else .misuse
  | _ => .misuse

def isPluginWord (word : String) : Bool := (pluginCommand? word).isSome || word = "help"

/-- What the arguments behind `plugin` ask for. -/
def ofPluginArguments : List String → Request
  | [] => .misuse
  | "help" :: rest => helpAbout isPluginWord (fun _ _ => false) rest
  | word :: rest =>
    if word = "--help" || word.startsWith "-h" then .help
    else match pluginCommand? word with
      | some read => read rest
      | none => .misuse

/-- What the arguments of the program ask for. -/
def ofArguments : List String → Request
  | [] => .misuse
  | "help" :: rest =>
    let known (word : String) : Bool := (command? ofPluginArguments word).isSome
    helpAbout known (fun outer word => outer = "plugin" && isPluginWord word) rest
  | word :: rest =>
    if word = "--help" || word.startsWith "-h" then .help
    else if word = "--version" || word.startsWith "-V" then .version
    else match command? ofPluginArguments word with
      | some read => read rest
      | none => .misuse

end Request

end PluginChain
