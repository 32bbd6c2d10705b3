import PluginChain.Script.Library.Answer

/-!
# The library on tables
-/

set_option autoImplicit false

namespace PluginChain.Script.Library

mutual

/-- The text of a table as a document.  Values that are no tables are shown as in a list. -/
def documentOf : Value → String
  | .table entries => "\x7b" ++ ",".intercalate (documentEntries entries) ++ "\x7d"
  | .unit => "null"
  | v => v.detail true

def documentEntries : List (String × Value) → List String
  | [] => []
  | (k, v) :: rest => (Text.quoted k ++ ":" ++ documentOf v) :: documentEntries rest

end

/-- The first table with the entries of the second whose names it lacks. -/
def filled (xs ys : List (String × Value)) : List (String × Value) :=
  ys.foldl (fun acc (k, v) => if (Entries.get? k acc).isSome then acc else Entries.put k v acc) xs

def onTable (name : String) (es : List (String × Value)) (args : List Value) : LibraryReply :=
  let kept (es : List (String × Value)) : LibraryReply := becomes (.table es)
  match name, args with
  | "len", [] => looks (.int es.length)
  | "is_empty", [] => looks (.flag es.isEmpty)
  | "contains", [.text k] => looks (.flag (Entries.get? k es).isSome)
  | "keys", [] => looks (.list (es.map fun e => .text e.1))
  | "values", [] => looks (.list (es.map (·.2)))
  | "to_json", [] => looks (.text (documentOf (.table es)))
  | "get", [.text k] => becomesAnd (.table es) ((Entries.get? k es).getD .unit)
  | "set", [.text k, v] => kept (Entries.put k v es)
  | "remove", [.text k] =>
    becomesAnd (.table (Entries.erase k es)) ((Entries.get? k es).getD .unit)
  | "clear", [] => kept []
  | "mixin", [.table fs] | "+=", [.table fs] => kept (Operator.merge es fs)
  | "fill_with", [.table fs] => kept (filled es fs)
  | _, _ => none

end PluginChain.Script.Library
