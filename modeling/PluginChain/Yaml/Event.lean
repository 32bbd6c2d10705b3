import PluginChain.Yaml.Token

/-!
# Events of a YAML document

`Document.ofText` is the first document of a text as a list of events, each at the mark where it starts:
scalars, aliases, and the starts and ends of collections, where an alias is already known by the anchor
it names.  The list goes as far as the text is well formed, and `Document.ending` says how it ends, so
that a reader meets what is wrong with the values before what is wrong with the text behind them.

The grammar is a machine with a stack of `Expect`ations; `Parse.step` produces one event.
-/

set_option autoImplicit false

namespace PluginChain.Yaml

inductive EventKind
  | documentStart
  | documentEnd
  | streamEnd
  | alias (name : String)
  | scalar (anchor tag : Option String) (style : Style) (text : String)
  | sequenceStart (anchor tag : Option String)
  | sequenceEnd
  | mappingStart (anchor tag : Option String)
  | mappingEnd
  deriving Repr, DecidableEq, Inhabited

/-- What the grammar expects next. -/
inductive Expect
  | implicitDocument
  | document
  | documentContent
  | documentEnd
  | blockNode
  /-- An item of a block sequence; the mark is that of the sequence. -/
  | blockItem (since : Mark)
  | firstBlockItem
  | indentlessItem
  | blockKey (since : Mark)
  | firstBlockKey
  | blockValue (since : Mark)
  | flowItem (since : Mark)
  | firstFlowItem
  | pairKey
  | pairValue
  | pairEnd
  | flowKey (since : Mark)
  | firstFlowKey
  | flowValue (since : Mark)
  | noFlowValue (since : Mark)
  | nothing
  deriving Repr, DecidableEq, Inhabited

/-- How far the tokens of a text were parsed. -/
structure Parse where
  tokens : List Token
  /-- The fault behind the last token. -/
  fault : SyntaxFault
  next : Expect := .implicitDocument
  stack : List Expect := []
  handles : List (String × String) := []

abbrev Event := EventKind × Mark

namespace Parse

abbrev Parser := EStateM SyntaxFault Parse

/-- The next token, which stays unread. -/
def peek : Parser Token := do
  let p ← get
  match p.tokens with
  | t :: _ => return t
  | [] => throw p.fault

/-- Passes over the next token. -/
def skip : Parser Unit := modify fun p => { p with tokens := p.tokens.tail }

def expect (e : Expect) : Parser Unit := modify ({ · with next := e })

/-- Puts off an expectation until the node that comes first is read. -/
def later (e : Expect) : Parser Unit := modify fun p => { p with stack := e :: p.stack }

/-- Goes on with the latest expectation that was put off. -/
def resume : Parser Unit := modify fun p =>
  match p.stack with
  | e :: rest => { p with next := e, stack := rest }
  | [] => { p with next := .nothing }

def fail {α : Type} (problem : Problem) (mark : Mark) (during : Option (Activity × Mark)) : Parser α :=
  throw { problem, mark, during }

/-- A value that is left out. -/
def empty (mark : Mark) : Parser Event := return (.scalar none none .plain "", mark)

/-! ## Nodes -/

/-- An anchor and a tag in either order. -/
structure Properties where
  anchor : Option String := none
  tag : Option (String × String × Mark) := none

def anchorOf (p : Properties) : Parser Properties := do
  match (← peek).kind with
  | .anchor name =>
    skip
    return { p with anchor := some name }
  | _ => return p

def tagOf (p : Properties) : Parser Properties := do
  let t ← peek
  match t.kind with
  | .tag handle suffix =>
    skip
    return { p with tag := some (handle, suffix, t.first) }
  | _ => return p

def properties : Parser Properties := do
  match (← peek).kind with
  | .anchor _ => tagOf (← anchorOf {})
  | .tag _ _ => anchorOf (← tagOf {})
  | _ => return {}

/-- The full tag of a node. -/
def resolveTag (since : Mark) : Option (String × String × Mark) → Parser (Option String)
  | none => pure none
  | some (handle, suffix, mark) => do
    if handle.isEmpty then return some suffix
    match (← get).handles.find? (·.1 = handle) with
    | some (_, uri) => return some (uri ++ suffix)
    | none => fail .undefinedHandle mark (some (.node, since))

/-- A node.  Where `indentless` holds, dashes may start a sequence at the column of the mapping. -/
def node (isBlock indentless : Bool) : Parser Event := do
  let first ← peek
  match first.kind with
  | .alias name =>
    resume
    skip
    return (.alias name, first.first)
  | _ =>
    let since := first.first
    let ps ← properties
    let tag ← resolveTag since ps.tag
    let t ← peek
    match t.kind with
    | .blockEntry =>
      if indentless then
        expect .indentlessItem
        return (.sequenceStart ps.anchor tag, since)
      else bare ps tag since t
    | .scalar style text =>
      resume
      skip
      return (.scalar ps.anchor tag style text, since)
    | .flowSequenceStart =>
      expect .firstFlowItem
      return (.sequenceStart ps.anchor tag, since)
    | .flowMappingStart =>
      expect .firstFlowKey
      return (.mappingStart ps.anchor tag, since)
    | .blockSequenceStart =>
      if isBlock then
        expect .firstBlockItem
        return (.sequenceStart ps.anchor tag, since)
      else bare ps tag since t
    | .blockMappingStart =>
      if isBlock then
        expect .firstBlockKey
        return (.mappingStart ps.anchor tag, since)
      else bare ps tag since t
    | _ => bare ps tag since t
where
  /-- Properties without a value stand for an empty scalar. -/
  bare (ps : Properties) (tag : Option String) (since : Mark) (t : Token) : Parser Event := do
    if ps.anchor.isSome || tag.isSome then
      resume
      return (.scalar ps.anchor tag .plain "", since)
    else fail .noNode t.first (some (if isBlock then .blockNode else .flowNode, since))

/-! ## Documents -/

/-- The handles that every document knows. -/
def standardHandles : List (String × String) := [("!", "!"), ("!!", "tag:yaml.org,2002:")]

/-- The lines with a percent sign in front of a document.  The number bounds their count. -/
def directives : Nat → Bool → List (String × String) → Parser (List (String × String))
  | 0, _, handles => pure handles
  | steps + 1, hasVersion, handles => do
    let t ← peek
    match t.kind with
    | .version major minor =>
      if hasVersion then fail .versionTwice t.first none
      if major != 1 || (minor != 1 && minor != 2) then fail .wrongVersion t.first none
      skip
      directives steps true handles
    | .tagHandle handle uri =>
      if handles.any (·.1 = handle) then fail .handleTwice t.first none
      skip
      directives steps hasVersion (handles ++ [(handle, uri)])
    | _ => return handles

def dropDocumentEnds (ts : List Token) : List Token := ts.dropWhile (·.kind = .documentEnd)

def document (isFirst : Bool) : Parser Event := do
  if !isFirst then modify fun p => { p with tokens := dropDocumentEnds p.tokens }
  let t ← peek
  let isExplicit := match t.kind with
    | .version _ _ | .tagHandle _ _ | .documentStart => true
    | _ => false
  if t.kind = .streamEnd then
    expect .nothing
    skip
    return (.streamEnd, t.first)
  else if isFirst && !isExplicit then
    modify ({ · with handles := standardHandles })
    later .documentEnd
    expect .blockNode
    return (.documentStart, t.first)
  else
    let own ← directives ((← get).tokens.length + 1) false []
    let start ← peek
    if start.kind != .documentStart then fail .noDocumentStart start.first none
    modify ({ · with
      handles := own ++ standardHandles.filter fun h => !own.any (·.1 = h.1) })
    later .documentEnd
    expect .documentContent
    skip
    return (.documentStart, t.first)

def documentContent : Parser Event := do
  let t ← peek
  match t.kind with
  | .version _ _ | .tagHandle _ _ | .documentStart | .documentEnd | .streamEnd =>
    resume
    empty t.first
  | _ => node true false

def documentEnd : Parser Event := do
  let t ← peek
  if t.kind = .documentEnd then skip
  expect .document
  return (.documentEnd, t.first)

/-! ## Collections -/

/-- Reads a node behind an indicator and goes on with `after`; before one of the `closing` tokens the
node is left out. -/
def nodeUnless (closing : List TokenKind) (isBlock indentless : Bool) (after : Expect) (left : Token → Mark) :
    Parser Event := do
  let t ← peek
  if closing.contains t.kind then
    expect after
    empty (left t)
  else
    later after
    node isBlock indentless

def blockItem (since : Mark) : Parser Event := do
  let t ← peek
  match t.kind with
  | .blockEntry =>
    skip
    nodeUnless [.blockEntry, .blockEnd] true false (.blockItem since) fun _ => t.last
  | .blockEnd =>
    resume
    skip
    return (.sequenceEnd, t.first)
  | _ => fail .noDash t.first (some (.blockCollection, since))

def indentlessItem : Parser Event := do
  let t ← peek
  match t.kind with
  | .blockEntry =>
    skip
    nodeUnless [.blockEntry, .key, .value, .blockEnd] true false .indentlessItem fun _ => t.last
  | _ =>
    resume
    return (.sequenceEnd, t.first)

def blockKey (since : Mark) : Parser Event := do
  let t ← peek
  match t.kind with
  | .key =>
    skip
    nodeUnless [.key, .value, .blockEnd] true true (.blockValue since) fun _ => t.last
  | .blockEnd =>
    resume
    skip
    return (.mappingEnd, t.first)
  | _ => fail .noKey t.first (some (.blockMapping, since))

def blockValue (since : Mark) : Parser Event := do
  let t ← peek
  match t.kind with
  | .value =>
    skip
    nodeUnless [.key, .value, .blockEnd] true true (.blockKey since) fun _ => t.last
  | _ =>
    expect (.blockKey since)
    empty t.first

/-- The comma between the parts of a bracket. -/
def separator (problem : Problem) (activity : Activity) (since : Mark) (closing : TokenKind) :
    Parser Unit := do
  let t ← peek
  if t.kind = .flowEntry then skip
  else if t.kind != closing then fail problem t.first (some (activity, since))

def flowItem (isFirst : Bool) (since : Mark) : Parser Event := do
  if !isFirst then separator .noSequenceSeparator .flowSequence since .flowSequenceEnd
  let t ← peek
  match t.kind with
  | .flowSequenceEnd =>
    resume
    skip
    return (.sequenceEnd, t.first)
  | .key =>
    later (.flowItem since)
    expect .pairKey
    skip
    return (.mappingStart none none, t.first)
  | _ =>
    later (.flowItem since)
    node false false

def pairKey : Parser Event := do
  let t ← peek
  match t.kind with
  | .value | .flowEntry | .flowSequenceEnd =>
    skip
    expect .pairValue
    empty t.last
  | _ =>
    later .pairValue
    node false false

def pairValue : Parser Event := do
  let t ← peek
  match t.kind with
  | .value =>
    skip
    nodeUnless [.flowEntry, .flowSequenceEnd] false false .pairEnd (·.first)
  | _ =>
    expect .pairEnd
    empty t.first

def pairEnd : Parser Event := do
  let t ← peek
  resume
  return (.mappingEnd, t.first)

def flowKey (isFirst : Bool) (since : Mark) : Parser Event := do
  if !isFirst then separator .noMappingSeparator .flowMapping since .flowMappingEnd
  let t ← peek
  match t.kind with
  | .flowMappingEnd =>
    resume
    skip
    return (.mappingEnd, t.first)
  | .key =>
    skip
    nodeUnless [.value, .flowEntry, .flowMappingEnd] false false (.flowValue since) (·.first)
  | _ =>
    later (.noFlowValue since)
    node false false

def flowValue (since : Mark) : Parser Event := do
  let t ← peek
  match t.kind with
  | .value =>
    skip
    nodeUnless [.flowEntry, .flowMappingEnd] false false (.flowKey since) (·.first)
  | _ =>
    expect (.flowKey since)
    empty t.first

/-- The mark of the token that opens a collection, which is passed over. -/
def opening : Parser Mark := do
  let t ← peek
  skip
  return t.first

/-- The next event. -/
def step : Parser Event := do
  match (← get).next with
  | .implicitDocument => document true
  | .document => document false
  | .documentContent => documentContent
  | .documentEnd => documentEnd
  | .blockNode => node true false
  | .blockItem since => blockItem since
  | .firstBlockItem => blockItem (← opening)
  | .indentlessItem => indentlessItem
  | .blockKey since => blockKey since
  | .firstBlockKey => blockKey (← opening)
  | .blockValue since => blockValue since
  | .flowItem since => flowItem false since
  | .firstFlowItem => flowItem true (← opening)
  | .pairKey => pairKey
  | .pairValue => pairValue
  | .pairEnd => pairEnd
  | .flowKey since => flowKey false since
  | .firstFlowKey => flowKey true (← opening)
  | .flowValue since => flowValue since
  | .noFlowValue since => do
    let t ← peek
    expect (.flowKey since)
    empty t.first
  | .nothing => throw (← get).fault

end Parse

/-! ## The first document -/

/-- An event of a document; an alias is known by the number of its anchor. -/
inductive Node
  | alias (anchor : Nat)
  | scalar (tag : Option String) (style : Style) (text : String)
  | sequenceStart (tag : Option String)
  | sequenceEnd
  | mappingStart (tag : Option String)
  | mappingEnd
  /-- What a text without a document holds. -/
  | absent
  deriving Repr, DecidableEq, Inhabited

/-- How the events of the first document end. -/
inductive Ending
  | complete
  /-- Something follows the document that is not the end of the text. -/
  | more
  | broken (f : Fault)
  deriving Repr, DecidableEq, Inhabited

structure Document where
  nodes : Array (Node × Mark) := #[]
  /-- Where the value of an anchor starts, by the number of the anchor. -/
  anchors : List (Nat × Nat) := []
  ending : Ending := .complete

/-- A document as far as its events were gathered, with the numbers of the anchors in force. -/
structure Gathering where
  document : Document := {}
  names : List (String × Nat) := []

namespace Gathering

/-- Adds an event that may carry an anchor.  The number of an anchor is the count of names known
before it. -/
def add (g : Gathering) (anchor : Option String) (node : Node) (mark : Mark) : Gathering :=
  let d := g.document
  let noded := { d with nodes := d.nodes.push (node, mark) }
  match anchor with
  | none => { g with document := noded }
  | some name =>
    let id := g.names.length
    { names := (name, id) :: g.names.filter (·.1 != name)
      document := { noded with anchors := (id, d.nodes.size) :: d.anchors.filter (·.1 != id) } }

/-- Takes in one event, or says how the document ends. -/
def take (g : Gathering) : Event → Except (Document × Bool) Gathering
  | (.documentStart, _) => .ok g
  | (.documentEnd, _) => .error (g.document, true)
  | (.streamEnd, mark) =>
    .error ({ g.document with
      nodes := if g.document.nodes.isEmpty then #[(.absent, mark)] else g.document.nodes }, false)
  | (.alias name, mark) =>
    match g.names.find? (·.1 = name) with
    | some (_, id) => .ok (g.add none (.alias id) mark)
    | none => .error ({ g.document with ending := .broken (.unknownAnchor mark) }, false)
  | (.scalar anchor tag style text, mark) => .ok (g.add anchor (.scalar tag style text) mark)
  | (.sequenceStart anchor tag, mark) => .ok (g.add anchor (.sequenceStart tag) mark)
  | (.sequenceEnd, mark) => .ok (g.add none .sequenceEnd mark)
  | (.mappingStart anchor tag, mark) => .ok (g.add anchor (.mappingStart tag) mark)
  | (.mappingEnd, mark) => .ok (g.add none .mappingEnd mark)

end Gathering

/-- Whether the text ends behind a document. -/
def endsAfter (p : Parse) : Bool :=
  match Parse.step.run p with
  | .ok (.streamEnd, _) _ => true
  | _ => false

/-- Gathers the events of the first document.  The number bounds their count. -/
def Document.gather : Nat → Parse → Gathering → Document
  | 0, _, g => g.document
  | steps + 1, p, g =>
    match Parse.step.run p with
    | .error f _ => { g.document with ending := .broken (.text f) }
    | .ok event p' =>
      match g.take event with
      | .ok g' => gather steps p' g'
      | .error (d, isWhole) => if isWhole && !endsAfter p' then { d with ending := .more } else d

/-- The first document of a text.  No token gives rise to more than four events. -/
def Document.ofText (text : String) : Document :=
  let (tokens, fault) := Token.scan text
  Document.gather (4 * tokens.length + 8)
    { tokens, fault := fault.getD { problem := .endOfStream } } {}

end PluginChain.Yaml
