import PluginChain.FileTree
import PluginChain.Limits
import PluginChain.Settings
import PluginChain.Text.Blank
import PluginChain.Text.Natural

/-!
# Configuration

Where the store is, how the engine is set and what scripts may do comes from three sources: the
environment, a file, and what holds where neither says anything.  The file is `.scriptflow/config.yaml`
in the current directory or else in the nearest directory around it that has one.

A value of the file that makes no sense is an error; one of the environment is passed over.
-/

set_option autoImplicit false

namespace PluginChain

/-! ## The file -/

/-- What a configuration file can say. -/
structure ConfigFile where
  home : Option String := none
  timeoutMillis : Option Nat := none
  maxParallel : Option Nat := none
  limits : Option Limits := none
  deriving Repr, DecidableEq, Inhabited

namespace ConfigFile

def engineShape : Shape := .record "EngineConfig" [
  ("execution_timeout_ms", .maybe (.natural "u64"), some .null),
  ("max_parallel", .maybe (.natural "usize"), some .null)]

def codec : Codec ConfigFile where
  shape := .record "ConfigFile" [
    ("home", .maybe .text, some .null),
    ("engine", .maybe engineShape, some .null),
    ("sandbox", .maybe Limits.codec.shape, some .null)]
  encode f := .table (
    Data.optional "home" Data.text f.home ++
    [("engine", .table (
      Data.optional "execution_timeout_ms" (fun n : Nat => .int n) f.timeoutMillis ++
      Data.optional "max_parallel" (fun n : Nat => .int n) f.maxParallel))] ++
    Data.optional "sandbox" Limits.codec.encode f.limits)
  decode?
    | .table es => do
      let engine := (← Data.optionalField? "engine" Data.table? es).getD []
      return {
        home := ← Data.optionalField? "home" Data.text? es
        timeoutMillis := ← Data.optionalField? "execution_timeout_ms" Data.natural? engine
        maxParallel := ← Data.optionalField? "max_parallel" Data.natural? engine
        limits := ← Data.optionalField? "sandbox" Limits.codec.decode? es }
    | _ => none

/-- The settings with the values of the file in their place. -/
def settings (f : ConfigFile) (s : Settings) : Settings where
  timeout := (f.timeoutMillis.map Duration.ofMillis).getD s.timeout
  maxParallel := f.maxParallel.getD s.maxParallel

end ConfigFile

/-! ## The environment -/

/-- The variables of the environment, and the home of the user where `HOME` does not tell it. -/
structure Environment where
  values : List (String × String)
  userHome : Option String := none
  deriving Repr, Inhabited

namespace Environment

def get? (e : Environment) (name : String) : Option String := e.values.lookup name

def home? (e : Environment) : Option String :=
  match e.get? "HOME" with
  | some "" | none => e.userHome
  | some home => some home

/-- A positive number, perhaps between blanks. -/
def positive? (text : String) : Option Nat := (Text.natural? (Text.trim text)).filter (0 < ·)

/-- The settings with the values of the environment in their place. -/
def settings (e : Environment) (s : Settings) : Settings where
  timeout := (((e.get? "SCRIPTFLOW_TIMEOUT_MS").bind positive?).map Duration.ofMillis).getD s.timeout
  maxParallel := ((e.get? "SCRIPTFLOW_MAX_PARALLEL").bind positive?).getD s.maxParallel

theorem pos_of_positive? {text : String} {n : Nat} (h : positive? text = some n) : 0 < n := by
  simpa using (Option.filter_eq_some_iff.1 h).2

/-- What the environment says keeps settings valid. -/
theorem validate_settings (e : Environment) {s : Settings} (h : s.validate = .ok ()) :
    (e.settings s).validate = .ok () := by
  rw [Settings.validate_eq_ok_iff] at h ⊢
  refine ⟨?_, ?_⟩
  · unfold settings
    cases hv : (e.get? "SCRIPTFLOW_TIMEOUT_MS").bind positive? with
    | none => exact h.1
    | some n =>
      obtain ⟨t, -, ht⟩ := Option.bind_eq_some_iff.1 hv
      have := pos_of_positive? ht
      simp only [Option.map_some, Option.getD_some, Duration.ofMillis]
      omega
  · unfold settings
    cases hv : (e.get? "SCRIPTFLOW_MAX_PARALLEL").bind positive? with
    | none => exact h.2
    | some n =>
      obtain ⟨t, -, ht⟩ := Option.bind_eq_some_iff.1 hv
      exact pos_of_positive? ht

end Environment

/-! ## All sources together -/

inductive ConfigError
  | unreadable (path : String) (why : FileError)
  | misshapen (path : String) (why : Yaml.Fault)
  | noHome
  | settings (why : SettingsError)

namespace ConfigError

def message : ConfigError → String
  | .unreadable path _ => s!"Failed to read config file: {path}"
  | .misshapen path _ => s!"Failed to parse config file: {path}"
  | .noHome => "Failed to determine home directory"
  | .settings why => s!"Invalid configuration: {why.message}"

/-- The message of the error behind this one. -/
def cause? : ConfigError → Option String
  | .unreadable _ why => some why.message
  | .misshapen _ why => some why.message
  | .noHome | .settings _ => none

end ConfigError

structure Configuration where
  /-- The directory of the store. -/
  home : String
  /-- The configuration file, if there is one. -/
  file : Option String
  settings : Settings
  limits : Limits
  deriving Repr, DecidableEq, Inhabited

namespace Configuration

/-- The configuration file of a directory. -/
def fileIn (directory : String) : String :=
  FileTree.join (FileTree.join directory ".scriptflow") "config.yaml"

/-- The configuration file that is nearest to a directory. -/
def findFile (t : FileTree) (current : Place) : Option String :=
  let around := (List.range (current.length + 1)).map fun n => current.take (current.length - n)
  (around.map fun p => fileIn (FileTree.pathOf p)).find? fun path => t.isThereAt [] path

def readFile (t : FileTree) (path : String) : Except ConfigError ConfigFile :=
  match (t.locate [] path).bind t.read with
  | .error why => .error (.unreadable path why)
  | .ok text => (ConfigFile.codec.ofYaml text).mapError (.misshapen path)

/-- A path of the configuration file, which may be relative to the directory of that file.  One that
is there is given without detours. -/
def resolvePath (t : FileTree) (base path : String) : String :=
  let joined := FileTree.join base path
  if FileTree.isAbsolute path then path
  else
    match t.locate [] joined with
    | .ok p => if t.isThere p then FileTree.pathOf p else joined
    | .error _ => joined

/-- The directory of the store. -/
def resolveHome (t : FileTree) (file : Option (String × ConfigFile)) (e : Environment) :
    Except ConfigError String :=
  match e.get? "SCRIPTFLOW_HOME", file.bind fun (path, f) => f.home.map (path, ·) with
  | some home, _ => .ok home
  | none, some (path, home) => .ok (resolvePath t (FileTree.parentOf path) home)
  | none, none =>
    match e.home? with
    | some home => .ok (FileTree.join home ".scriptflow")
    | none => .error .noHome

/-- The configuration that a file, if there is one, and the environment make together. -/
def resolve (t : FileTree) (file : Option (String × ConfigFile)) (e : Environment) :
    Except ConfigError Configuration :=
  let said := (file.map Prod.snd).getD {}
  let settings := said.settings {}
  match resolveHome t file e, settings.validate with
  | .error why, _ => .error why
  | .ok _, .error why => .error (.settings why)
  | .ok home, .ok () => .ok {
      home
      file := file.map Prod.fst
      settings := e.settings settings
      limits := said.limits.getD .standard }

/-- The configuration in a directory. -/
def load (t : FileTree) (current : Place) (e : Environment) : Except ConfigError Configuration :=
  match findFile t current with
  | none => resolve t none e
  | some path =>
    match readFile t path with
    | .error why => .error why
    | .ok f => resolve t (some (path, f)) e

/-- Settings that come out of a configuration are valid. -/
theorem validate_of_resolve {t : FileTree} {file : Option (String × ConfigFile)} {e : Environment}
    {c : Configuration} (h : resolve t file e = .ok c) : c.settings.validate = .ok () := by
  simp only [resolve] at h
  split at h
  · cases h
  · cases h
  · next hv =>
    cases h
    exact e.validate_settings hv

end Configuration

end PluginChain
