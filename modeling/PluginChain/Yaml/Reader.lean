import PluginChain.Yaml.Meaning
import PluginChain.Instant
import PluginChain.Uuid

/-!
# Reading YAML by a shape

`read shape text` is the value of the one document of a text.  The events are read with the shape in
mind, so that a value of the wrong kind is reported before a fault of the text behind it.

* A text may be any scalar, whatever it would mean on its own; a number or a flag must be plain.
* An empty plain scalar stands for nothing, for an empty list, and for an empty table or record.
* A mismatch is placed at the innermost value that is read at a node of its own (`node`).
* An alias stands for the value at its anchor (`jump`).  Nesting is bounded, and so is the number of
  aliases followed, so every document is read in the end.
-/

set_option autoImplicit false

namespace PluginChain.Yaml

/-- The event that is read next, and how many aliases were followed. -/
structure Position where
  next : Nat := 0
  jumps : Nat := 0

abbrev Reader := ReaderT Document (EStateM Fault Position)

/-- How deep collections may be nested. -/
def maxLevels : Nat := 128

/-- The next event, which stays unread. -/
def peek : Reader (Node × Mark) := do
  let d ← read
  match d.nodes[(← get).next]? with
  | some n => return n
  | none =>
    match d.ending with
    | .broken f => throw f
    | _ => throw .endOfInput

def skip : Reader Unit := modify fun p => { p with next := p.next + 1 }

/-- Reads one event. -/
def next : Reader (Node × Mark) := do
  let n ← peek
  skip
  return n

/-- A fault whose place is filled in by what it is part of. -/
def failPlaceless {α : Type} (m : Mismatch) : Reader α := throw (.mismatch m none)

/-- Gives a fault without a place this one. -/
def placed {α : Type} (path : Path) (mark : Mark) (r : Reader α) : Reader α :=
  tryCatch r fun f => throw (f.placedAt path mark)

/-- The result of something told by values. -/
def ofExcept {α : Type} : Except Mismatch α → Reader α
  | .ok a => pure a
  | .error m => failPlaceless m

/-- Reads at the anchor of an alias, and goes on behind the alias. -/
def jump {α : Type} (anchor : Nat) (r : Reader α) : Reader α := do
  let d ← read
  let p ← get
  if d.nodes.size * 100 ≤ p.jumps then throw .repetitionLimit
  match d.anchors.find? (·.1 = anchor) with
  | none => throw .endOfInput
  | some (_, start) =>
    set ({ next := start, jumps := p.jumps + 1 } : Position)
    let a ← r
    modify ({ · with next := p.next })
    return a

/-- Reads the value that comes next, behind its alias if it is one, and places its mismatches. -/
def node {α : Type} (path : Path) (r : Node → Mark → Reader α) : Reader α := do
  let (n, mark) ← next
  placed path mark do
    match n with
    | .alias anchor =>
      jump anchor do
        let (n, mark) ← next
        placed path mark (r n mark)
    | n => r n mark

/-- Why an event is not what was expected. -/
def refuse {α : Type} (expected : String) : Node → Reader α
  | .scalar tag style s => do failPlaceless (.type (← ofExcept (Meaning.ofScalar tag style s)).found expected)
  | .sequenceStart _ => failPlaceless (.type .list expected)
  | .mappingStart _ => failPlaceless (.type .table expected)
  | _ => throw .endOfInput

/-- Whether an event stands for an empty collection. -/
def isEmpty : Node → Bool
  | .absent => true
  | .scalar _ .plain "" => true
  | _ => false

/-! ## Collections -/

/-- Reads inside a collection, if the levels suffice. -/
def deeper {α : Type} (levels : Nat) (mark : Mark) (r : Nat → Reader α) : Reader α :=
  match levels with
  | 0 => throw (.recursionLimit mark)
  | levels + 1 => r levels

/-- Whether a collection ends here. -/
def atEnd : Reader Bool := do
  match ← peek with
  | (.sequenceEnd, _) | (.mappingEnd, _) | (.absent, _) => return true
  | _ => return false

/-- More steps than a collection has parts. -/
def stepsLeft : Reader Nat := return (← read).nodes.size + 1

/-- Folds over the items of a sequence, each with its index. -/
def items {α : Type} (item : Nat → α → Reader α) : Nat → Nat → α → Reader α
  | 0, _, acc => pure acc
  | steps + 1, index, acc => do
    if ← atEnd then
      skip
      return acc
    items item steps (index + 1) (← item index acc)

/-- Folds over the entries of a mapping; each is told the path of its value. -/
def entries {α : Type} (path : Path) (entry : Path → α → Reader α) : Nat → α → Reader α
  | 0, acc => pure acc
  | steps + 1, acc => do
    if ← atEnd then
      skip
      return acc
    let key := match ← peek with
      | (.scalar _ _ s, _) => some s
      | _ => none
    entries path entry steps (← entry (path.entry key) acc)

def itemsOf {α : Type} (path : Path) (item : Path → Reader α) : Reader (List α) := do
  let xs ← items (fun index acc => return (← item (path.item index)) :: acc) (← stepsLeft) 0 []
  return xs.reverse

def entriesOf {α β : Type} (path : Path) (name : Reader α) (value : Path → Reader β) :
    Reader (List (α × β)) := do
  let es ← entries path (fun path acc => do
    let n ← name
    return (n, ← value path) :: acc) (← stepsLeft) []
  return es.reverse

/-- Passes over a value. -/
def skipValue : Nat → Nat → Reader Unit
  | 0, _ => pure ()
  | steps + 1, isOpen => do
    let (n, _) ← next
    let isOpen := match n with
      | .sequenceStart _ | .mappingStart _ => isOpen + 1
      | .sequenceEnd | .mappingEnd => isOpen - 1
      | _ => isOpen
    if isOpen = 0 then return () else skipValue steps isOpen

/-! ## Values -/

/-- Any scalar as a text. -/
def textOf (path : Path) (expected : String) : Reader String :=
  node path fun n _ => match n with
    | .scalar _ _ s => pure s
    | n => refuse expected n

/-- A text that something is read from. -/
def textAs {ε : Type} (path : Path) (expected : String) (parse : String → Except ε String)
    (words : ε → String) : Reader Data :=
  node path fun n _ => match n with
    | .scalar _ _ s =>
      match parse s with
      | .ok t => pure (.text t)
      | .error e => failPlaceless (.other (words e))
    | n => refuse expected n

/-- Whether a scalar can be a flag or a number. -/
def isLiteral (wanted : String) (tag : Option String) (style : Style) : Bool :=
  style = .plain || (style = .literal && tag = some wanted)

def flagOf (path : Path) : Reader Data :=
  node path fun n _ => match n with
    | .scalar tag style s =>
      match (if isLiteral flagTag tag style then flag? s else none) with
      | some b => pure (.flag b)
      | none => refuse "a boolean" n
    | n => refuse "a boolean" n

def naturalOf (path : Path) (name : String) : Reader Data :=
  node path fun n _ => match n with
    | .scalar tag style s =>
      match (if isLiteral intTag tag style then natural? s else none) with
      | some k => pure (.int k)
      | none => refuse name n
    | n => refuse name n

/-- How free-form values are read: at once, or whole before they are looked at. -/
inductive Mode
  | direct
  | buffered
  deriving DecidableEq

/-- What is expected of a free-form value. -/
def Mode.expected : Mode → String
  | .direct => "any valid JSON value"
  | .buffered => "any value"

/-- The data of a scalar.  What is not finite is nothing. -/
def scalarData (mode : Mode) : Meaning → Reader Data
  | .null => pure .null
  | .flag b => pure (.flag b)
  | .int n =>
    if fits64 n then pure (.int n)
    else failPlaceless (match mode with
      | .direct => .other "JSON number out of range"
      | .buffered => .type (foundInt n) mode.expected)
  | .float x => pure (if x.isNaN || x.isInf then .null else .float x)
  | .text s => pure (.text s)

/-- A value with a tag of one's own is no free-form data. -/
def refuseVariant {α : Type} (mode : Mode) : Reader α :=
  failPlaceless (match mode with
    | .direct => .type (.other "enum") mode.expected
    | .buffered => .other "untagged and internally tagged enums do not support enum input")

/-- The name of an entry of a table that is read whole. -/
def entryName : Whole → EntryName
  | .ok (.text s) => .text s
  | .ok (.int n) => if 0 ≤ n then .place n.toNat else .other (foundInt n)
  | .ok d => .other (foundOf d)
  | .error _ => .other .table

/-- A table that was read whole, if its names are texts and its values data. -/
def wholeTable (es : List (EntryName × Whole)) : Whole := do
  let es ← es.mapM fun (name, w) => do
    match name with
    | .text s => return (s, ← w)
    | .place n => throw (.type (.int n) "a string key")
    | .other found => throw (.type found "a string key")
  return .table es

/-- Any value that starts with an event.  Where `isChosen` holds, its tag was already taken for the
name of a case. -/
def valueFrom (mode : Mode) (levels : Nat) (isChosen : Bool) (path : Path) (n : Node) (mark : Mark) :
    Reader Whole :=
  match n, levels with
  | .scalar tag style s, _ =>
    if (variant? tag).isSome && !isChosen then refuseVariant mode
    else do
      let meaning ← ofExcept (Meaning.ofScalar (if isChosen then none else tag) style s)
      .ok <$> scalarData mode meaning
  | .sequenceStart tag, levels + 1 =>
    if (variant? tag).isSome && !isChosen then refuseVariant mode
    else do
      let xs ← itemsOf path fun path => node path (valueFrom mode levels false path)
      return .list <$> xs.mapM id
  | .mappingStart tag, levels + 1 =>
    if (variant? tag).isSome && !isChosen then refuseVariant mode
    else do
      let es ← entries path (fun inner es => do
        let name ← match mode with
          | .direct => .text <$> textOf path (if es.isEmpty then "a string key" else "a string")
          | .buffered => entryName <$> node path (valueFrom .buffered levels false path)
        return (name, ← node inner (valueFrom mode levels false inner)) :: es) (← stepsLeft) []
      return wholeTable es.reverse
  | .sequenceStart tag, 0 | .mappingStart tag, 0 =>
    if (variant? tag).isSome && !isChosen then refuseVariant mode
    else throw (.recursionLimit mark)
  | _, _ => pure (.ok .null)

/-- Any value. -/
def value (mode : Mode) (levels : Nat) (isChosen : Bool) (path : Path) : Reader Whole :=
  node path (valueFrom mode levels isChosen path)

/-- A free-form value, its tables in the order of their names. -/
def anyValue (levels : Nat) (isChosen : Bool) (path : Path) : Reader Data := do
  return (← ofExcept (← value .direct levels isChosen path)).settle

def listOf (levels : Nat) (path : Path) (item : Nat → Path → Reader Data) : Reader Data :=
  node path fun n mark => match n with
    | .sequenceStart _ => deeper levels mark fun levels => .list <$> itemsOf path (item levels)
    | n => if isEmpty n then pure (.list []) else refuse "a sequence" n

def tableOf (levels : Nat) (path : Path) (item : Nat → Path → Reader Data) : Reader Data :=
  node path fun n mark => match n with
    | .mappingStart _ =>
      deeper levels mark fun levels => do
        return .table (Entries.ofList (← entriesOf path (textOf path "a string") (item levels)))
    | n => if isEmpty n then pure (.table []) else refuse "a map" n

/-- A field of a record: how it is read, and what stands for it when it is missing. -/
abbrev FieldReader := String × (Nat → Path → Reader Data) × Option Data

def recordOf (levels : Nat) (path : Path) (name : String) (fields : List FieldReader) : Reader Data :=
  node path fun n mark => match n with
    | .mappingStart _ =>
      deeper levels mark fun levels => do
        let got ← entries path (fun inner got => do
          let field ← textOf path "field identifier"
          match Entries.get? field fields with
          | none =>
            skipValue (← stepsLeft) 0
            return got
          | some (value, _) =>
            if (Entries.get? field got).isSome then failPlaceless (.duplicate field)
            return (field, ← value levels inner) :: got) (← stepsLeft) []
        .table <$> ofExcept (Shape.complete got fields)
    | n =>
      if isEmpty n then .table <$> ofExcept (Shape.complete [] fields)
      else refuse ("struct " ++ name) n

/-- A case without a value: a word, or a tag in front of nothing. -/
def choiceOf (path : Path) (words : List String) : Reader Data :=
  let known (s : String) : Reader Data :=
    if words.contains s then pure (.text s) else failPlaceless (.variant s words)
  node path fun n _ => match n with
    | .scalar tag style s =>
      match variant? tag with
      | some word => do
        let d ← known word
        if style = .plain && (s.isEmpty || isNull s) then return d
        failPlaceless (.value (.text s) "null")
      | none => known s
    | n => do
      let (_ : Data) ← known ((variantOf? n).getD "")
      refuse "unit" n
where
  variantOf? : Node → Option String
    | .sequenceStart tag | .mappingStart tag => variant? tag
    | _ => none

/-- A case with a value, which its tag names. -/
def taggedOf (path : Path) (cases : List (String × (Path → Reader Data))) : Reader Data := do
  let chosen (tag : Option String) : Reader Data := do
    match variant? tag with
    | some word =>
      match Entries.get? word cases with
      | some r => return .table [(word, ← r path)]
      | none => failPlaceless (.variant word (Entries.names cases))
    | none => failPlaceless (.type .table "a YAML tag starting with '!'")
  let direct : Reader Data := do
    let (n, mark) ← peek
    placed path mark do
      match n with
      | .scalar tag _ s =>
        if (variant? tag).isSome then chosen tag
        else if (Entries.get? s cases).isSome then
          failPlaceless (.type .unitVariant "newtype variant")
        else failPlaceless (.variant s (Entries.names cases))
      | .sequenceStart tag | .mappingStart tag => chosen tag
      | _ => throw .endOfInput
  match ← peek with
  | (.alias anchor, _) =>
    skip
    jump anchor direct
  | _ => direct

/-- A table with a tag among its entries, or a list that starts with the tag. -/
def keyedOf (levels : Nat) (isChosen : Bool) (path : Path) (name tag : String)
    (cases : List (String × List (String × Leaf))) : Reader Data :=
  let expected := "internally tagged enum " ++ name
  let tagValue (path : Path) : Reader (String × List (String × Leaf)) := do
    ofExcept (Shape.caseOf cases (← textOf path "variant identifier"))
  let finish (given : String) (fields : Except Mismatch (List (String × Data))) : Reader Data := do
    return .table ((tag, .text given) :: (← ofExcept fields))
  let isOwn (own : Option String) : Bool := (variant? own).isSome && !isChosen
  node path fun n mark => match n with
    | .sequenceStart own =>
      if isOwn own then refuseVariant .direct
      else
        deeper levels mark fun levels => do
          if ← atEnd then failPlaceless (.missing tag)
          let (given, fields) ← tagValue (path.item 0)
          let rest ← items (fun index acc =>
            return (← value .buffered levels false (path.item index)) :: acc) (← stepsLeft) 1 []
          finish given (Shape.fieldsInOrder foundOf expected fields rest.reverse)
    | .mappingStart own =>
      if isOwn own then refuseVariant .direct
      else
        deeper levels mark fun levels => do
          let (chosen, rest) ← entries path (fun inner (chosen, rest) => do
            let entry := entryName (← value .buffered levels false path)
            if entry = .text tag then
              if chosen.isSome then failPlaceless (.duplicate tag)
              return (some (← tagValue inner), rest)
            else
              return (chosen, (entry, ← value .buffered levels false inner) :: rest))
            (← stepsLeft) (none, [])
          match chosen with
          | none => failPlaceless (.missing tag)
          | some (given, fields) => finish given (Shape.fieldsOf foundOf fields rest.reverse [])
    | n => refuse expected n

/-- A value that is read whole and then matched against several forms. -/
def formsOf (levels : Nat) (path : Path) (name : String) (forms : List (List (String × Leaf))) :
    Reader Data := do
  let entries? ← node path fun n mark => match n with
    | .mappingStart none =>
      deeper levels mark fun levels =>
        some <$> entriesOf path (entryName <$> value .buffered levels false path)
          (value .buffered levels false)
    | n => do
      let _ ← valueFrom .buffered levels false path n mark
      return none
  match entries? with
  | some es => ofExcept (Shape.formsOf foundOf name forms es)
  | none => failPlaceless (.noForm name)

/-- Nothing, or a value. -/
def maybeOf (r : Reader Data) : Reader Data := do
  let direct : Reader Data := do
    match ← peek with
    | (.absent, _) =>
      skip
      return .null
    | (.scalar tag .plain s, _) =>
      if tag = some nullTag && !isNull s then failPlaceless (.value (.text s) "null")
      let isNothing := match tag with
        | none => s.isEmpty || isNull s
        | some t => t = nullTag
      if isNothing then
        skip
        return .null
      else r
    | _ => r
  match ← peek with
  | (.alias anchor, _) =>
    skip
    jump anchor direct
  | _ => direct

mutual

/-- How a shape is read. -/
def readerOf : Shape → Nat → Bool → Path → Reader Data
  | .any, levels, isChosen, path => anyValue levels isChosen path
  | .text, _, _, path => .text <$> textOf path "a string"
  | .flag, _, _, path => flagOf path
  | .natural name, _, _, path => naturalOf path name
  | .uuid, _, _, path =>
    textAs path "a UUID string" (fun s => Uuid.toText <$> Uuid.parse s)
      fun e => "UUID parsing failed: " ++ e.message
  | .instant, _, _, path =>
    textAs path "an RFC 3339 formatted date and time string" (fun s => Instant.toText <$> Instant.parse s)
      InstantError.message
  | .maybe inner, levels, isChosen, path => maybeOf (readerOf inner levels isChosen path)
  | .list item, levels, _, path => listOf levels path fun levels => readerOf item levels false
  | .table item, levels, _, path => tableOf levels path fun levels => readerOf item levels false
  | .record name fields, levels, _, path => recordOf levels path name (fieldReaders fields)
  | .choice _ words, _, _, path => choiceOf path words
  | .tagged _ cases, levels, _, path => taggedOf path (caseReaders cases levels)
  | .keyed name tag cases, levels, isChosen, path => keyedOf levels isChosen path name tag cases
  | .oneOf name forms, levels, _, path => formsOf levels path name forms

def fieldReaders : List (String × Shape × Option Data) → List FieldReader
  | [] => []
  | (name, shape, fallback) :: rest =>
    (name, (fun levels => readerOf shape levels false), fallback) :: fieldReaders rest

def caseReaders : List (String × Shape) → Nat → List (String × (Path → Reader Data))
  | [], _ => []
  | (name, shape) :: rest, levels => (name, readerOf shape levels true) :: caseReaders rest levels

end

/-- The value of the one document of a text. -/
def read (shape : Shape) (text : String) : Except Fault Data :=
  let d := Document.ofText text
  match (readerOf shape maxLevels false none d).run {} with
  | .error f _ => .error f
  | .ok v _ =>
    match d.ending with
    | .complete => .ok v
    | .broken f => .error f
    | .more => .error .manyDocuments

end PluginChain.Yaml
