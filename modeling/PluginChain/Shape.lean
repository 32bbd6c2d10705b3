import PluginChain.Data
import PluginChain.Text.Quoted

/-!
# Shapes of documents

A document is read *as* something: as a job, as a task, as a number.  `Shape` says what is read, and
reading by a shape puts the document into one normal form (a `Data`), in which every field of a record
is present and in order, a record given as a bare list has its names, and an unknown field is gone.

* `Mismatch` is the reason why a document does not have its shape.  The same reasons arise in every
  notation; only their place in the text is told by the notation.
* `Leaf.accept` reads the fields of the shapes that are told apart by their own contents (`keyed`,
  `oneOf`): such a shape is first read whole (`Whole`), and looked at afterwards.
-/

set_option autoImplicit false

namespace PluginChain

/-- What was found where something else was expected. -/
inductive Found
  | nothing (word : String)
  | flag (b : Bool)
  | int (n : Int)
  | float (shown : String)
  | text (s : String)
  | list
  | table
  | unitVariant
  | newtypeVariant
  | other (word : String)
  deriving Repr, DecidableEq, Inhabited

/-- The words for what was found. -/
def Found.words : Found → String
  | .nothing word => word
  | .flag b => s!"boolean `{b}`"
  | .int n => s!"integer `{n}`"
  | .float shown => s!"floating point `{shown}`"
  | .text s => "string " ++ Text.quoted s
  | .list => "sequence"
  | .table => "map"
  | .unitVariant => "unit variant"
  | .newtypeVariant => "newtype variant"
  | .other word => word

/-- Why a document does not have its shape. -/
inductive Mismatch
  | type (found : Found) (expected : String)
  | value (found : Found) (expected : String)
  | length (count : Nat) (expected : String)
  | missing (field : String)
  | duplicate (field : String)
  | variant (given : String) (known : List String)
  | noForm (name : String)
  | other (reason : String)
  deriving Repr, DecidableEq, Inhabited

/-- The names of the alternatives, in words. -/
def oneOfWords : List String → String
  | [] => "there are no variants"
  | [a] => s!"expected `{a}`"
  | [a, b] => s!"expected `{a}` or `{b}`"
  | many => "expected one of " ++ ", ".intercalate (many.map fun a => s!"`{a}`")

def Mismatch.words : Mismatch → String
  | .type found expected => s!"invalid type: {found.words}, expected {expected}"
  | .value found expected => s!"invalid value: {found.words}, expected {expected}"
  | .length count expected => s!"invalid length {count}, expected {expected}"
  | .missing field => s!"missing field `{field}`"
  | .duplicate field => s!"duplicate field `{field}`"
  | .variant given known => s!"unknown variant `{given}`, {oneOfWords known}"
  | .noForm name => s!"data did not match any variant of untagged enum {name}"
  | .other reason => reason

/-- The values that a shape can ask for without looking at their parts. -/
inductive Leaf
  | any
  | text
  /-- A natural number below 2 ^ 64; the name is the one in the message. -/
  | natural (name : String)
  deriving Repr, DecidableEq, Inhabited

/-- The greatest natural number of a document. -/
def maxNatural : Nat := 2 ^ 64 - 1

/-- What a document is read as. -/
inductive Shape
  | any
  | text
  | flag
  | natural (name : String)
  | uuid
  | instant
  /-- Nothing, or a value. -/
  | maybe (inner : Shape)
  | list (item : Shape)
  /-- A table with names of its own. -/
  | table (item : Shape)
  /-- A table of known fields, each with the value that stands for it when it is missing. -/
  | record (name : String) (fields : List (String × Shape × Option Data))
  /-- One of several words. -/
  | choice (name : String) (words : List String)
  /-- A table of one entry, whose name says what its value is. -/
  | tagged (name : String) (cases : List (String × Shape))
  /-- A table one field of which says what the other fields are. -/
  | keyed (name : String) (tag : String) (cases : List (String × List (String × Leaf)))
  /-- A table whose set of names says what it is. -/
  | oneOf (name : String) (forms : List (List (String × Leaf)))
  deriving Inhabited

/-- A tree that was read whole, with the entries of every table in the order of their names.  The
last entry of a name stands for all of them. -/
def Data.settle : Data → Data
  | .list xs => .list (settleList xs)
  | .table es => .table (Entries.ofList (settleEntries es))
  | d => d
where
  settleList : List Data → List Data
    | [] => []
    | x :: xs => x.settle :: settleList xs
  settleEntries : List (String × Data) → List (String × Data)
    | [] => []
    | (n, x) :: es => (n, x.settle) :: settleEntries es

/-- A value that was read whole; it is no data if a table in it has a name that is no text. -/
abbrev Whole := Except Mismatch Data

/-- The name of an entry in a table that was read whole. -/
inductive EntryName
  | text (s : String)
  /-- A number stands for the known field at its place. -/
  | place (n : Nat)
  | other (found : Found)
  deriving Repr, DecidableEq, Inhabited

namespace Leaf

/-- The value of a leaf in a tree that was read whole.  Nothing is converted. -/
def accept (found : Data → Found) (leaf : Leaf) (w : Whole) : Except Mismatch Data := do
  let d ← w
  match leaf, d with
  | .any, d => return d.settle
  | .text, .text s => return .text s
  | .text, d => throw (.type (found d) "a string")
  | .natural name, .int n =>
    if 0 ≤ n ∧ n ≤ maxNatural then return .int n else throw (.value (.int n) name)
  | .natural name, d => throw (.type (found d) name)

end Leaf

namespace Shape

/-- The fields of a record in order, each with what was found for it or what stands for it. -/
def complete {α : Type} (got : List (String × Data)) :
    List (String × α × Option Data) → Except Mismatch (List (String × Data))
  | [] => .ok []
  | (name, _, fallback) :: rest =>
    match Entries.get? name got, fallback with
    | some d, _ | none, some d =>
      match complete got rest with
      | .ok es => .ok ((name, d) :: es)
      | .error e => .error e
    | none, none => .error (.missing name)

/-! ## Shapes told apart by their contents -/

/-- The name of the known field that an entry is for, if it is for one. -/
def knownField (fields : List (String × Leaf)) : EntryName → Except Mismatch (Option (String × Leaf))
  | .text name => .ok (fields.find? (·.1 = name))
  | .place n => .ok fields[n]?
  | .other found => .error (.type found "field identifier")

/-- The values of known fields in the entries of a table that was read whole.  Unknown names are
passed over, a name that comes twice is refused. -/
def fieldsOf (found : Data → Found) (fields : List (String × Leaf)) :
    List (EntryName × Whole) → List (String × Data) → Except Mismatch (List (String × Data))
  | [], got =>
    fields.mapM fun (name, _) =>
      match Entries.get? name got with
      | some d => .ok (name, d)
      | none => .error (.missing name)
  | (entry, w) :: rest, got => do
    match ← knownField fields entry with
    | none => fieldsOf found fields rest got
    | some (name, leaf) =>
      if (Entries.get? name got).isSome then throw (.duplicate name)
      let v ← leaf.accept found w
      fieldsOf found fields rest ((name, v) :: got)

/-- The values of known fields in the items of a list, one for each field in order. -/
def fieldsInOrder (found : Data → Found) (expected : String) (fields : List (String × Leaf))
    (items : List Whole) : Except Mismatch (List (String × Data)) :=
  let inList := s!"{fields.length} element" ++ (if fields.length = 1 then "" else "s") ++ " in sequence"
  let rec go : Nat → List (String × Leaf) → List Whole → Except Mismatch (List (String × Data))
    | _, [], [] => .ok []
    | n, [], rest@(_ :: _) => .error (.length (n + rest.length) inList)
    | n, _ :: _, [] => .error (.length n expected)
    | n, (name, leaf) :: fields, w :: rest => do
      let v ← leaf.accept found w
      return (name, v) :: (← go (n + 1) fields rest)
  go 0 fields items

/-- A table whose set of names is exactly that of one of the forms, each value as the form asks. -/
def formOf? (found : Data → Found) (entries : List (EntryName × Whole)) (form : List (String × Leaf)) :
    Option Data :=
  let isKnown (e : EntryName × Whole) : Bool := match knownField form e.1 with
    | .ok field => field.isSome
    | .error _ => false
  if entries.all isKnown then
    match fieldsOf found form entries [] with
    | .ok es => some (.table es)
    | .error _ => none
  else none

/-- The first form that the entries of a table have. -/
def formsOf (found : Data → Found) (name : String) (forms : List (List (String × Leaf)))
    (entries : List (EntryName × Whole)) : Except Mismatch Data :=
  match forms.findSome? (formOf? found entries) with
  | some d => .ok d
  | none => .error (.noForm name)

/-- The case that a tag names, or why there is none. -/
def caseOf (cases : List (String × List (String × Leaf))) (given : String) :
    Except Mismatch (String × List (String × Leaf)) :=
  match Entries.get? given cases with
  | some fields => .ok (given, fields)
  | none => .error (.variant given (Entries.names cases))

end Shape

end PluginChain
