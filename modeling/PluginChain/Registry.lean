import PluginChain.Plugin
import PluginChain.Sandbox
import PluginChain.Text.Blank

/-!
# The registry of plugins

A `Registry` holds the plugins that are ready to run, each under its trimmed name.  `Registry.compile`
touches nothing, and `Registry.install` is a single step: registering a plugin that does not compile
leaves the one that was there before.

* `Registry.get?_install` says what every name stands for after an installation, and
  `Registry.get?_remove` after a removal.
-/

set_option autoImplicit false

namespace PluginChain

/-- A script that compiles, with the digest of its source. -/
structure CompiledSource where
  program : Script.Program
  digest : String
  deriving Inhabited

/-- A plugin that is ready to run. -/
structure CompiledPlugin extends CompiledSource where
  name : String
  description : String
  compiledAt : Instant
  deriving Inhabited

def CompiledPlugin.info (p : CompiledPlugin) : PluginInfo :=
  ⟨p.name, p.description, some p.digest, some p.compiledAt⟩

structure Registry where
  limits : Limits := .standard
  /-- The plugins in the order of their names. -/
  plugins : List (String × CompiledPlugin) := []
  deriving Inhabited

namespace Registry

/-- The name that a plugin is installed under. -/
def nameOf (given : String) : Except ChainError String :=
  match Text.nonBlank? given with
  | some name => .ok name
  | none => .error (.invalidName given)

def compile (r : Registry) (name source : String) : Except ChainError CompiledSource :=
  match Script.Program.compile r.limits source with
  | .ok program => .ok ⟨program, Digest.ofText source⟩
  | .error e => .error (.compile name e.message)

/-- Puts a plugin in place of the one that had its name. -/
def insert (r : Registry) (p : CompiledPlugin) : Registry :=
  { r with plugins := Entries.put p.name p r.plugins }

def install (r : Registry) (now : Instant) (given description : String) (c : CompiledSource) :
    Except ChainError (CompiledPlugin × Registry) := do
  let name ← nameOf given
  let p : CompiledPlugin := { c with name, description, compiledAt := now }
  return (p, r.insert p)

/-- Compiles a plugin, and installs it if it does compile. -/
def register (r : Registry) (now : Instant) (given description source : String) :
    Except ChainError (CompiledPlugin × Registry) := do
  let name ← nameOf given
  let c ← r.compile name source
  r.install now name description c

/-- The plugin of a name. -/
def get? (r : Registry) (given : String) : Option CompiledPlugin :=
  Entries.get? (Text.trim given) r.plugins

def lookup (r : Registry) (given : String) : Except ChainError CompiledPlugin :=
  match r.get? given with
  | some p => .ok p
  | none => .error (.pluginNotFound (Text.trim given))

def contains (r : Registry) (given : String) : Bool := (r.get? given).isSome

def remove (r : Registry) (given : String) : Except ChainError Registry :=
  if r.contains given then
    .ok { r with plugins := Entries.erase (Text.trim given) r.plugins }
  else .error (.pluginNotFound (Text.trim given))

def list (r : Registry) : List PluginInfo := r.plugins.map (·.2.info)

def size (r : Registry) : Nat := r.plugins.length

theorem get?_insert (r : Registry) (p : CompiledPlugin) (given : String) :
    (r.insert p).get? given = if p.name = Text.trim given then some p else r.get? given := by
  simp only [get?, insert, Entries.get?_put]

theorem get?_install {r s : Registry} {now : Instant} {given description : String}
    {c : CompiledSource} {p : CompiledPlugin}
    (h : r.install now given description c = .ok (p, s)) (other : String) :
    s.get? other = if p.name = Text.trim other then some p else r.get? other := by
  unfold install at h
  cases hn : nameOf given with
  | error e => rw [hn] at h; cases h
  | ok name =>
    rw [hn] at h
    cases h
    exact get?_insert _ _ _

theorem get?_remove {r s : Registry} {given : String} (h : r.remove given = .ok s)
    (other : String) :
    s.get? other = if Text.trim given = Text.trim other then none else r.get? other := by
  unfold remove at h
  split at h
  · cases h
    simp only [get?, Entries.get?_erase]
  · cases h

end Registry

end PluginChain
