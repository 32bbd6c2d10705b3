import PluginChain.FileTree
import PluginChain.Json.Reader

/-!
# Errors of the store
-/

set_option autoImplicit false

namespace PluginChain

/-- What is kept in a store under an identity of its own. -/
inductive RecordKind
  | plugin
  | job
  deriving Repr, DecidableEq, Inhabited

def RecordKind.word : RecordKind → String
  | .plugin => "plugin"
  | .job => "job"

inductive StoreError
  | notFound (kind : RecordKind) (id : String)
  | file (why : FileError)
  | unreadable (why : Json.Fault)

namespace StoreError

def message : StoreError → String
  | .notFound kind id => s!"{kind.word} not found: {id}"
  | .file why => s!"IO error: {why.message}"
  | .unreadable why => s!"Serialization error: {why.message}"

/-- The message of the error behind this one. -/
def cause? : StoreError → Option String
  | .notFound _ _ => none
  | .file why => some why.message
  | .unreadable why => some why.message

def isNotFound : StoreError → Bool
  | .notFound _ _ => true
  | _ => false

end StoreError

end PluginChain
