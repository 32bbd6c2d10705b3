import PluginChain.Text.Natural

/-!
# Reading arguments

The arguments of a command are values in their places and options, which may stand anywhere between
them.  An option has a value: the rest of its own argument or the next one, which must not look like an
option itself.  Behind `--` every argument is a value.

Arguments are read from left to right, so that a wish for help counts if nothing before it is wrong.
-/

set_option autoImplicit false

namespace PluginChain.Arguments

/-- What the value of an argument has to be. -/
inductive Kind
  | text
  /-- A text that is not empty. -/
  | path
  | natural
  deriving Repr, DecidableEq, Inhabited

def Kind.accepts : Kind → String → Bool
  | .text, _ => true
  | .path, value => !value.isEmpty
  | .natural, value => (Text.natural? value).isSome

/-- An option of a command. -/
structure Choice where
  long : String
  short : Option Char
  kind : Kind
  isRequired : Bool := false
  deriving Repr, DecidableEq, Inhabited

/-- The arguments that a command takes; each value in a place is required. -/
structure Form where
  places : List Kind := []
  choices : List Choice := []
  deriving Repr, Inhabited

/-- The arguments that were given. -/
structure Given where
  values : List String := []
  choices : List (String × String) := []
  deriving Repr, DecidableEq, Inhabited

/-- Why arguments are not those of a command. -/
inductive Refusal
  | misuse
  | help
  deriving Repr, DecidableEq, Inhabited

namespace Form

/-- A value in the next place. -/
def addValue (form : Form) (given : Given) (value : String) : Except Refusal Given :=
  match form.places[given.values.length]? with
  | some kind =>
    if kind.accepts value then .ok { given with values := given.values ++ [value] } else .error .misuse
  | none => .error .misuse

/-- The value of an option, which must not be given twice. -/
def addChoice (c : Choice) (given : Given) (value : String) : Except Refusal Given :=
  if (given.choices.lookup c.long).isSome || !c.kind.accepts value then .error .misuse
  else .ok { given with choices := given.choices ++ [(c.long, value)] }

/-- An argument that begins with a dash, and is more than that. -/
def looksLikeOption (arg : String) : Bool := arg.startsWith "-" && arg ≠ "-"

/-- The option that an argument names, with the value that is part of the argument. -/
def choice? (form : Form) (arg : String) : Except Refusal (Choice × Option String) :=
  match arg.toList with
  | '-' :: '-' :: name =>
    let (name, value) := (name.takeWhile (· ≠ '='), name.dropWhile (· ≠ '='))
    if String.ofList name = "help" && value.isEmpty then .error .help
    else match form.choices.find? (·.long = String.ofList name) with
      | some c => .ok (c, if value.isEmpty then none else some (String.ofList (value.drop 1)))
      | none => .error .misuse
  | '-' :: letter :: value =>
    if letter = 'h' then .error .help
    else match form.choices.find? (·.short = some letter), value with
      | none, _ => .error .misuse
      | some c, [] => .ok (c, none)
      | some c, '=' :: value => .ok (c, some (String.ofList value))
      | some c, value => .ok (c, some (String.ofList value))
  | _ => .error .misuse

/-- Takes arguments one after the other. -/
def take (form : Form) : List String → Given → Except Refusal Given
  | [], given => .ok given
  | arg :: rest, given =>
    if arg = "--" then rest.foldlM (addValue form) given
    else if looksLikeOption arg then
      match choice? form arg, rest with
      | .error e, _ => .error e
      | .ok (c, some value), rest =>
        match addChoice c given value with
        | .ok given => take form rest given
        | .error e => .error e
      | .ok (_, none), [] => .error .misuse
      | .ok (c, none), value :: rest =>
        if looksLikeOption value then .error .misuse
        else match addChoice c given value with
          | .ok given => take form rest given
          | .error e => .error e
    else
      match addValue form given arg with
      | .ok given => take form rest given
      | .error e => .error e

/-- The arguments of a command, all of those that are required among them. -/
def read (form : Form) (args : List String) : Except Refusal Given :=
  match form.take args {} with
  | .error e => .error e
  | .ok given =>
    let isThere (c : Choice) : Bool := !c.isRequired || (given.choices.lookup c.long).isSome
    if given.values.length = form.places.length && form.choices.all isThere then .ok given
    else .error .misuse

end Form

end PluginChain.Arguments
