import PluginChain.Json.Cursor
import PluginChain.Instant
import PluginChain.Uuid

/-!
# Reading JSON by a shape

`read shape text` is the value of a document, or the first fault that a reader meets who goes through
the text from left to right and looks at each value with its shape in mind: a value of the wrong kind
is reported before a syntax fault behind it, and the value of an unknown field is only passed over.

* `listOf`, `tableOf` and `recordOf` read the three kinds of brackets.  What went wrong inside has
  precedence over what is wrong with the closing bracket, and takes its place from behind it.
* A record may also be written as the list of its fields in order.
-/

set_option autoImplicit false

namespace PluginChain.Json

/-- What was found, in the words of this notation. -/
def foundOf : Data → Found
  | .null => .nothing "null"
  | .flag b => .flag b
  | .int n => .int n
  | .float x => .float (layout.render x)
  | .text s => .text s
  | .list _ => .list
  | .table _ => .table

/-- Reads the value that comes next as evidence that it is not what was expected.  Of brackets only
the opening one is looked at. -/
def refuse {α : Type} (expected : String) : Reader α := do
  let wrong (f : Found) : Reader α := failHere (.mismatch (.type f expected))
  match ← peek? with
  | some 'n' =>
    skip
    word ['u', 'l', 'l']
    wrong (.nothing "null")
  | some 't' =>
    skip
    word ['r', 'u', 'e']
    wrong (.flag true)
  | some 'f' =>
    skip
    word ['a', 'l', 's', 'e']
    wrong (.flag false)
  | some '-' =>
    skip
    wrong (← number true).found
  | some '\"' =>
    skip
    wrong (.text (← stringRest))
  | some '[' => wrong .list
  | some '\x7b' => wrong .table
  | some c => if isDigit c then wrong (← number false).found else failNext .expectedValue
  | none => failNext .expectedValue

/-- Looks for a value. -/
def peekValue : Reader Char := do
  match ← peekToken? with
  | some c => return c
  | none => failNext .endInValue

/-! ## Brackets -/

/-- Enters a bracket, if the levels of nesting suffice, and leaves it by `close`. -/
def bracketed {α : Type} (close : Reader Unit) (inside : Reader α) : Reader α := do
  let budget := (← get).budget
  if budget ≤ 1 then failNext .recursionLimit
  modify ({ · with budget := budget - 1 })
  skip
  let result ← tryCatch (Except.ok <$> inside) fun f => pure (Except.error f)
  modify ({ · with budget })
  match result with
  | .ok a =>
    close
    return a
  | .error f =>
    tryCatch close fun _ => pure ()
    placed (throw f)

def closeList : Reader Unit := do
  match ← peekToken? with
  | some ']' => skip
  | some ',' =>
    skip
    match ← peekToken? with
    | some ']' => failNext .trailingComma
    | _ => failNext .trailingCharacters
  | some _ => failNext .trailingCharacters
  | none => failNext .endInList

def closeTable : Reader Unit := do
  match ← peekToken? with
  | some '\x7d' => skip
  | some ',' => failNext .trailingComma
  | some _ => failNext .trailingCharacters
  | none => failNext .endInObject

/-- Whether another item comes, behind a comma unless it is the first. -/
def anotherItem (first : Bool) : Reader Bool := do
  match ← peekToken? with
  | some ']' => return false
  | none => failNext .endInList
  | some ',' =>
    if first then return true
    skip
    match ← peekToken? with
    | some ']' => failNext .trailingComma
    | some _ => return true
    | none => failNext .endInValue
  | some _ => if first then return true else failNext .expectedListEnd

/-- The name of another entry, if one comes. -/
def anotherName (first : Bool) : Reader (Option String) := do
  match ← peekToken? with
  | some '\x7d' => return none
  | none => failNext .endInObject
  | some ',' =>
    if first then failNext .keyMustBeText
    skip
    match ← peekToken? with
    | some '\"' => open?
    | some '\x7d' => failNext .trailingComma
    | some _ => failNext .keyMustBeText
    | none => failNext .endInValue
  | some c =>
    if !first then failNext .expectedObjectEnd
    else if c = '\"' then open?
    else failNext .keyMustBeText
where
  open? : Reader (Option String) := do
    skip
    return some (← stringRest)

/-- The colon between a name and its value. -/
def colon : Reader Unit := do
  match ← peekToken? with
  | some ':' => skip
  | some _ => failNext .expectedColon
  | none => failNext .endInObject

/-- Folds over the items of a list.  The number bounds the steps. -/
def items {α : Type} (item : α → Reader α) : Nat → Bool → α → Reader α
  | 0, _, acc => pure acc
  | steps + 1, first, acc => do
    if ← anotherItem first then items item steps false (← item acc) else return acc

/-- Folds over the entries of a table. -/
def entries {α : Type} (entry : String → α → Reader α) : Nat → Bool → α → Reader α
  | 0, _, acc => pure acc
  | steps + 1, first, acc => do
    match ← anotherName first with
    | none => return acc
    | some name => entries entry steps false (← entry name acc)

/-- More steps than a text has brackets, items and entries. -/
def stepsLeft : Reader Nat := return (← get).rest.length + 1

def itemsOf {α : Type} (item : Reader α) : Reader (List α) := do
  let xs ← items (fun acc => return (← item) :: acc) (← stepsLeft) true []
  return xs.reverse

def entriesOf {α : Type} (value : Reader α) : Reader (List (String × α)) := do
  let es ← entries (fun name acc => do
    colon
    return (name, ← value) :: acc) (← stepsLeft) true []
  return es.reverse

/-! ## Passing over a value

Nesting is not limited here: the open brackets are kept on a list. -/

/-- Passes over a value that is not bracketed, or over the opening bracket of one that is. -/
def skipScalar : Reader (Option Char) := do
  match ← peekValue with
  | 'n' =>
    skip
    word ['u', 'l', 'l']
    return none
  | 't' =>
    skip
    word ['r', 'u', 'e']
    return none
  | 'f' =>
    skip
    word ['a', 'l', 's', 'e']
    return none
  | '-' =>
    skip
    skipNumber
    return none
  | '\"' =>
    skip
    skipString
    return none
  | '[' =>
    skip
    return some '['
  | '\x7b' =>
    skip
    return some '\x7b'
  | c =>
    if isDigit c then
      skipNumber
      return none
    else failNext .expectedValue

/-- Closes brackets as long as closing ones come; stops behind a comma, or at the first value of a
bracket just opened.  The result is the list of the brackets that stay open. -/
def closeBrackets : Nat → Bool → List Char → Reader (List Char)
  | 0, _, stack => pure stack
  | _, _, [] => pure []
  | steps + 1, afterValue, frame :: stack => do
    match ← peekToken? with
    | some ',' =>
      if afterValue then
        skip
        return frame :: stack
      else return frame :: stack
    | some c =>
      if (c = ']' ∧ frame = '[') ∨ (c = '\x7d' ∧ frame = '\x7b') then
        skip
        closeBrackets steps true stack
      else if afterValue then
        failNext (if frame = '[' then .expectedListEnd else .expectedObjectEnd)
      else return frame :: stack
    | none => failNext (if frame = '[' then .endInList else .endInObject)

/-- The name and the colon before the next value of a table. -/
def skipName : Reader Unit := do
  match ← peekToken? with
  | some '\"' => skip
  | some _ => failNext .keyMustBeText
  | none => failNext .endInObject
  skipString
  colon

/-- Passes over the values inside the open brackets. -/
def skipOpen : Nat → List Char → Reader Unit
  | 0, _ => pure ()
  | steps + 1, stack => do
    let opened ← skipScalar
    let stack' := match opened with
      | some frame => frame :: stack
      | none => stack
    let left ← closeBrackets (← stepsLeft) opened.isNone stack'
    match left with
    | [] => pure ()
    | frame :: _ =>
      if frame = '\x7b' then skipName
      skipOpen steps left

/-- Passes over a value. -/
def skipValue : Reader Unit := do skipOpen (← stepsLeft) []

/-! ## Values -/

/-- Reads any value.  Entries of tables keep their order and may come twice. -/
def whole : Nat → Reader Data
  | 0 => failNext .recursionLimit
  | levels + 1 => do
    match ← peekValue with
    | 'n' =>
      skip
      word ['u', 'l', 'l']
      return .null
    | 't' =>
      skip
      word ['r', 'u', 'e']
      return .flag true
    | 'f' =>
      skip
      word ['a', 'l', 's', 'e']
      return .flag false
    | '-' =>
      skip
      return (← number true).data
    | '\"' =>
      skip
      return .text (← stringRest)
    | '[' => return .list (← bracketed closeList (itemsOf (whole levels)))
    | '\x7b' => return .table (← bracketed closeTable (entriesOf (whole levels)))
    | c => if isDigit c then return (← number false).data else failNext .expectedValue

/-- Any value, in as many levels as are left. -/
def anyValue : Reader Data := do whole ((← get).budget + 1)

def textOf (expected : String) : Reader String := do
  match ← peekValue with
  | '\"' =>
    skip
    stringRest
  | _ => refuse expected

/-- A text that something is read from. -/
def textAs {ε : Type} (expected : String) (parse : String → Except ε String) (words : ε → String) :
    Reader Data := do
  match parse (← textOf expected) with
  | .ok s => return .text s
  | .error e => failHere (.mismatch (.other (words e)))

def flagOf : Reader Data := do
  match ← peekValue with
  | 't' =>
    skip
    word ['r', 'u', 'e']
    return .flag true
  | 'f' =>
    skip
    word ['a', 'l', 's', 'e']
    return .flag false
  | _ => refuse "a boolean"

def naturalOf (name : String) : Reader Data := do
  let checked (n : Number) : Reader Data :=
    match n with
    | .int k =>
      if 0 ≤ k then return .int k else failHere (.mismatch (.value (.int k) name))
    | .float _ => failHere (.mismatch (.type n.found name))
  match ← peekValue with
  | '-' =>
    skip
    checked (← number true)
  | c => if isDigit c then checked (← number false) else refuse name

def listOf (item : Reader Data) : Reader Data := do
  match ← peekValue with
  | '[' => return .list (← bracketed closeList (itemsOf item))
  | _ => refuse "a sequence"

def tableOf (item : Reader Data) : Reader Data := do
  match ← peekValue with
  | '\x7b' => return .table (Entries.ofList (← bracketed closeTable (entriesOf item)))
  | _ => refuse "a map"

/-- A field of a record: how it is read, and what stands for it when it is missing. -/
abbrev FieldReader := String × Reader Data × Option Data

/-- The fields of a record written as a list: those that are missing at the end are an error unless
all of them have something to stand for them. -/
def fieldsInList (count : Nat) (expected : String) :
    Nat → List FieldReader → Reader (List (String × Data))
  | _, [] => pure []
  | n, (name, value, fallback) :: rest => do
    if ← anotherItem (n = 0) then
      let d ← value
      return (name, d) :: (← fieldsInList count expected (n + 1) rest)
    else
      match fallback with
      | some d => return (name, d) :: (← fieldsInList count expected (n + 1) rest)
      | none =>
        failPlaceless (.length n (expected ++ s!" with {count} element" ++ if count = 1 then "" else "s"))

/-- Reads the value of an entry of a record.  Unknown entries are passed over, and a field that comes
twice is refused. -/
def fieldEntry (fields : List FieldReader) (field : String) (found : List (String × Data)) :
    Reader (List (String × Data)) := do
  match Entries.get? field fields with
  | none =>
    colon
    skipValue
    return found
  | some (value, _) =>
    if (Entries.get? field found).isSome then failPlaceless (.duplicate field)
    colon
    return (field, ← value) :: found

/-- Reads the entries of a record, and completes them by what stands for missing ones. -/
def fieldsInTable (fields : List FieldReader) : Reader Data := do
  let found ← entries (fieldEntry fields) (← stepsLeft) true []
  match Shape.complete found fields with
  | .ok es => return .table es
  | .error e => failPlaceless e

def recordOf (name : String) (fields : List FieldReader) : Reader Data := do
  let expected := "struct " ++ name
  match ← peekValue with
  | '[' =>
    return .table (← bracketed closeList (fieldsInList fields.length expected 0 fields))
  | '\x7b' => bracketed closeTable (fieldsInTable fields)
  | _ => refuse expected

/-- Reads a word out of several. -/
def knownWord (words : List String) : Reader String := do
  let s ← textOf "variant identifier"
  if words.contains s then return s else failHere (.mismatch (.variant s words))

/-- A word out of several, alone or as the name of an entry without a value. -/
def choiceOf (words : List String) : Reader Data := do
  match ← peekToken? with
  | none => failNext .endInValue
  | some '\"' => return .text (← knownWord words)
  | some '\x7b' =>
    let budget := (← get).budget
    if budget ≤ 1 then failNext .recursionLimit
    skip
    let _ ← peekValue
    let s ← knownWord words
    colon
    match ← peekValue with
    | 'n' =>
      skip
      word ['u', 'l', 'l']
    | _ => refuse "unit"
    closeCase
    return .text s
  | some _ => failNext .expectedValue
where
  closeCase : Reader Unit := do
    match ← peekToken? with
    | some '\x7d' => skip
    | some _ => failHere .expectedValue
    | none => failHere .endInObject

/-- Reads a name out of several, each of which says how a value is read. -/
def caseName (cases : List (String × Reader Data)) : Reader (String × Reader Data) := do
  let s ← textOf "variant identifier"
  match Entries.get? s cases with
  | some r => return (s, r)
  | none => failHere (.mismatch (.variant s (Entries.names cases)))

/-- Reads the single entry of a table, from the opening bracket of the table up to its closing one. -/
def caseEntry (cases : List (String × Reader Data)) : Reader (String × Data) := do
  skip
  let _ ← peekValue
  let (s, r) ← caseName cases
  colon
  let d ← r
  choiceOf.closeCase
  return (s, d)

/-- An entry whose name is one of several, read as that name asks. -/
def taggedOf (cases : List (String × Reader Data)) : Reader Data := do
  match ← peekToken? with
  | none => failNext .endInValue
  | some '\"' =>
    let _ ← caseName cases
    failPlaceless (.type .unitVariant "newtype variant")
  | some '\x7b' =>
    let budget := (← get).budget
    if budget ≤ 1 then failNext .recursionLimit
    modify ({ · with budget := budget - 1 })
    let e ← caseEntry cases
    modify ({ · with budget })
    return .table [e]
  | some _ => failNext .expectedValue

/-- The entries of a table that was read whole, all of which have texts for names. -/
def wholeEntries (es : List (String × Data)) : List (EntryName × Whole) :=
  es.map fun (name, d) => (.text name, .ok d)

/-- Reads the value of a tag: the case it names. -/
def tagValue (cases : List (String × List (String × Leaf))) : Reader (String × List (String × Leaf)) := do
  let _ ← peekValue
  let s ← textOf "variant identifier"
  match Shape.caseOf cases s with
  | .ok c => return c
  | .error e => failHere (.mismatch e)

/-- The value of the case that a tag named, with these fields. -/
def ofCase (tag given : String) (fields : Except Mismatch (List (String × Data))) : Reader Data :=
  match fields with
  | .ok es => return .table ((tag, .text given) :: es)
  | .error e => failPlaceless e

/-- What is known of a table with a tag: the case, once the tag was met, and the other entries. -/
abbrev KeyedSoFar := Option (String × List (String × Leaf)) × List (String × Data)

/-- Reads the value of an entry of a table with a tag. -/
def keyedEntry (tag : String) (cases : List (String × List (String × Leaf))) (field : String)
    (sofar : KeyedSoFar) : Reader KeyedSoFar := do
  if field = tag then
    if sofar.1.isSome then failPlaceless (.duplicate tag)
    colon
    return (some (← tagValue cases), sofar.2)
  else
    colon
    return (sofar.1, (field, ← anyValue) :: sofar.2)

/-- Reads the entries of a table with a tag, and then looks at them as the case asks. -/
def keyedInTable (tag : String) (cases : List (String × List (String × Leaf))) : Reader Data := do
  match ← entries (keyedEntry tag cases) (← stepsLeft) true (none, []) with
  | (none, _) => failPlaceless (.missing tag)
  | (some (given, fields), rest) =>
    ofCase tag given (Shape.fieldsOf foundOf fields (wholeEntries rest.reverse) [])

/-- A table with a tag among its entries, or a list that starts with the tag. -/
def keyedOf (name tag : String) (cases : List (String × List (String × Leaf))) : Reader Data := do
  match ← peekValue with
  | '[' =>
    bracketed closeList do
      if ← anotherItem true then
        let (given, fields) ← tagValue cases
        let rest ← items (fun acc => return (← anyValue) :: acc) (← stepsLeft) false []
        ofCase tag given (Shape.fieldsInOrder foundOf
          (s!"struct variant {name} with {fields.length} element" ++
            if fields.length = 1 then "" else "s") fields (rest.reverse.map .ok))
      else failPlaceless (.missing tag)
  | '\x7b' => bracketed closeTable (keyedInTable tag cases)
  | _ => refuse ("internally tagged enum " ++ name)

/-- A value read whole and then matched against several forms. -/
def formsOf (name : String) (forms : List (List (String × Leaf))) : Reader Data := do
  match ← anyValue with
  | .table es =>
    match Shape.formsOf foundOf name forms (wholeEntries es) with
    | .ok d => return d
    | .error e => failPlaceless e
  | _ => failPlaceless (.noForm name)

mutual

/-- How a shape is read. -/
def readerOf : Shape → Reader Data
  | .any => Data.settle <$> anyValue
  | .text => .text <$> textOf "a string"
  | .flag => flagOf
  | .natural name => naturalOf name
  | .uuid =>
    textAs "a UUID string" (fun s => Uuid.toText <$> Uuid.parse s)
      fun e => "UUID parsing failed: " ++ e.message
  | .instant =>
    textAs "an RFC 3339 formatted date and time string" (fun s => Instant.toText <$> Instant.parse s)
      InstantError.message
  | .maybe inner => do
    match ← peekToken? with
    | some 'n' =>
      skip
      word ['u', 'l', 'l']
      return .null
    | _ => readerOf inner
  | .list item => listOf (readerOf item)
  | .table item => tableOf (readerOf item)
  | .record name fields => recordOf name (fieldReaders fields)
  | .choice _ words => choiceOf words
  | .tagged _ cases => taggedOf (caseReaders cases)
  | .keyed name tag cases => keyedOf name tag cases
  | .oneOf name forms => formsOf name forms

def fieldReaders : List (String × Shape × Option Data) → List FieldReader
  | [] => []
  | (name, shape, fallback) :: rest => (name, readerOf shape, fallback) :: fieldReaders rest

def caseReaders : List (String × Shape) → List (String × Reader Data)
  | [] => []
  | (name, shape) :: rest => (name, readerOf shape) :: caseReaders rest

end

/-- Reads a document of a given shape, behind which nothing may stand. -/
def document (shape : Shape) : Reader Data := do
  let d ← readerOf shape
  match ← peekToken? with
  | some _ => failNext .trailingCharacters
  | none => return d

/-- The value of a document of a given shape. -/
def read (shape : Shape) (text : String) : Except Fault Data :=
  match (document shape).run { rest := text.toList } with
  | .ok d _ => .ok d
  | .error f _ => .error f

end PluginChain.Json
