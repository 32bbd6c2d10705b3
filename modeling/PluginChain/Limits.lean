import PluginChain.Codec

/-!
# Limits of the sandbox

How much a script may do, and how large what it makes may grow.  Zero lifts a limit, except that no
script function can be called where no level of calls is allowed.
-/

set_option autoImplicit false

namespace PluginChain

structure Limits where
  operations : Nat := 0
  callLevels : Nat := 64
  depth : Nat := 64
  functionDepth : Nat := 32
  textSize : Nat := 10 * 1024 * 1024
  listSize : Nat := 1000000
  tableSize : Nat := 100000
  deriving Repr, DecidableEq, Inhabited

namespace Limits

/-- The limits where none are given. -/
def standard : Limits := {}

/-- The names of the limits in documents, each with its word for a number and its value. -/
def fields (l : Limits) : List (String × String × Nat) := [
  ("max_operations", "u64", l.operations),
  ("max_call_levels", "usize", l.callLevels),
  ("max_expr_depth", "usize", l.depth),
  ("max_function_expr_depth", "usize", l.functionDepth),
  ("max_string_size", "usize", l.textSize),
  ("max_array_size", "usize", l.listSize),
  ("max_map_size", "usize", l.tableSize)]

def codec : Codec Limits where
  shape := .record "SandboxLimits"
    (standard.fields.map fun (name, word, value) => (name, .natural word, some (.int value)))
  encode l := .table (l.fields.map fun (name, _, value) => (name, .int value))
  decode?
    | .table es => do
      return {
        operations := ← Data.field? "max_operations" Data.natural? es
        callLevels := ← Data.field? "max_call_levels" Data.natural? es
        depth := ← Data.field? "max_expr_depth" Data.natural? es
        functionDepth := ← Data.field? "max_function_expr_depth" Data.natural? es
        textSize := ← Data.field? "max_string_size" Data.natural? es
        listSize := ← Data.field? "max_array_size" Data.natural? es
        tableSize := ← Data.field? "max_map_size" Data.natural? es }
    | _ => none

/-- The limits on one line, as the settings are shown. -/
def summary (l : Limits) : String :=
  "SandboxLimits \x7b " ++
    ", ".intercalate (l.fields.map fun (name, _, value) => s!"{name}: {value}") ++ " \x7d"

end Limits

end PluginChain
