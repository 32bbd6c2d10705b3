import PluginChain.Shape

/-!
# Faults of YAML documents

A document is at fault as a text (`SyntaxFault`: a `Problem`, where it was met, and what was being read
then), or it is well formed and does not have the shape it is read as.  A `Mark` counts from zero, a
message from one; a place at the very start of the text is left out of messages.
-/

set_option autoImplicit false

namespace PluginChain.Yaml

/-- A place in a text: characters from its start, lines, and characters of the line. -/
structure Mark where
  index : Nat := 0
  line : Nat := 0
  column : Nat := 0
  deriving Repr, DecidableEq, Inhabited

/-- Whether a mark is told in messages. -/
def Mark.isTold (m : Mark) : Bool := m.line != 0 || m.column != 0

def Mark.words (m : Mark) : String := s!"line {m.line + 1} column {m.column + 1}"

/-- Why a text cannot be read on. -/
inductive Problem
  | controlCharacter
  | valueNotAllowed
  | entryNotAllowed
  | keyNotAllowed
  | noColon
  | noToken
  | documentIndicator
  | endOfStream
  | unknownEscape
  | noHexNumber
  | noCharacterOfEscape
  | zeroIndent
  | noCommentOrBreak
  | tabForIndent
  | unexpectedColon
  | tabAgainstIndent
  | noAnchorName
  | unknownDirective
  | noDirectiveName
  | notALetter
  | noVersionPoint
  | longVersion
  | noVersionNumber
  | noBlank
  | noBlankOrBreak
  | noTagEnd
  | noTagMark
  | noTagUri
  | noOctet
  | wrongFirstOctet
  | wrongNextOctet
  | noDocumentStart
  | noNode
  | noDash
  | noKey
  | noSequenceSeparator
  | noMappingSeparator
  | undefinedHandle
  | versionTwice
  | wrongVersion
  | handleTwice
  deriving Repr, DecidableEq, Inhabited

def Problem.words : Problem → String
  | .controlCharacter => "control characters are not allowed"
  | .valueNotAllowed => "mapping values are not allowed in this context"
  | .entryNotAllowed => "block sequence entries are not allowed in this context"
  | .keyNotAllowed => "mapping keys are not allowed in this context"
  | .noColon => "could not find expected ':'"
  | .noToken => "found character that cannot start any token"
  | .documentIndicator => "found unexpected document indicator"
  | .endOfStream => "found unexpected end of stream"
  | .unknownEscape => "found unknown escape character"
  | .noHexNumber => "did not find expected hexadecimal number"
  | .noCharacterOfEscape => "found invalid Unicode character escape code"
  | .zeroIndent => "found an indentation indicator equal to 0"
  | .noCommentOrBreak => "did not find expected comment or line break"
  | .tabForIndent => "found a tab character where an indentation space is expected"
  | .unexpectedColon => "found unexpected ':'"
  | .tabAgainstIndent => "found a tab character that violates indentation"
  | .noAnchorName => "did not find expected alphabetic or numeric character"
  | .unknownDirective => "found unknown directive name"
  | .noDirectiveName => "could not find expected directive name"
  | .notALetter => "found unexpected non-alphabetical character"
  | .noVersionPoint => "did not find expected digit or '.' character"
  | .longVersion => "found extremely long version number"
  | .noVersionNumber => "did not find expected version number"
  | .noBlank => "did not find expected whitespace"
  | .noBlankOrBreak => "did not find expected whitespace or line break"
  | .noTagEnd => "did not find the expected '>'"
  | .noTagMark => "did not find expected '!'"
  | .noTagUri => "did not find expected tag URI"
  | .noOctet => "did not find URI escaped octet"
  | .wrongFirstOctet => "found an incorrect leading UTF-8 octet"
  | .wrongNextOctet => "found an incorrect trailing UTF-8 octet"
  | .noDocumentStart => "did not find expected <document start>"
  | .noNode => "did not find expected node content"
  | .noDash => "did not find expected '-' indicator"
  | .noKey => "did not find expected key"
  | .noSequenceSeparator => "did not find expected ',' or ']'"
  | .noMappingSeparator => "did not find expected ',' or '\x7d'"
  | .undefinedHandle => "found undefined tag handle"
  | .versionTwice => "found duplicate %YAML directive"
  | .wrongVersion => "found incompatible YAML document"
  | .handleTwice => "found duplicate %TAG directive"

/-- What was being read when a problem was met. -/
inductive Activity
  | simpleKey
  | nextToken
  | quotedScalar
  | escape
  | blockScalar
  | plainScalar
  | anchor
  | alias
  | directive
  | versionDirective
  | tagDirective
  | tagDirectiveHandle
  | tagDirectiveMark
  | tagDirectiveUri
  | tag
  | tagUri
  | node
  | blockNode
  | flowNode
  | blockCollection
  | blockMapping
  | flowSequence
  | flowMapping
  deriving Repr, DecidableEq, Inhabited

def Activity.words : Activity → String
  | .simpleKey => "while scanning a simple key"
  | .nextToken => "while scanning for the next token"
  | .quotedScalar => "while scanning a quoted scalar"
  | .escape => "while parsing a quoted scalar"
  | .blockScalar => "while scanning a block scalar"
  | .plainScalar => "while scanning a plain scalar"
  | .anchor => "while scanning an anchor"
  | .alias => "while scanning an alias"
  | .directive => "while scanning a directive"
  | .versionDirective => "while scanning a %YAML directive"
  | .tagDirective => "while scanning a %TAG directive"
  | .tagDirectiveHandle => "while scanning a tag directive"
  | .tagDirectiveMark => "while parsing a tag directive"
  | .tagDirectiveUri => "while parsing a %TAG directive"
  | .tag => "while scanning a tag"
  | .tagUri => "while parsing a tag"
  | .node => "while parsing a node"
  | .blockNode => "while parsing a block node"
  | .flowNode => "while parsing a flow node"
  | .blockCollection => "while parsing a block collection"
  | .blockMapping => "while parsing a block mapping"
  | .flowSequence => "while parsing a flow sequence"
  | .flowMapping => "while parsing a flow mapping"

/-- A problem, where it was met, and what was being read from where on. -/
structure SyntaxFault where
  problem : Problem
  mark : Mark := {}
  /-- The byte of a character that no text may hold. -/
  offset : Nat := 0
  during : Option (Activity × Mark) := none
  deriving Repr, DecidableEq, Inhabited

def SyntaxFault.message (f : SyntaxFault) : String :=
  let place :=
    if f.mark.isTold then s!" at {f.mark.words}"
    else if f.offset != 0 then s!" at position {f.offset}"
    else ""
  let context := match f.during with
    | none => ""
    | some (activity, since) =>
      let elsewhere := since.line != f.mark.line || since.column != f.mark.column
      s!", {activity.words}" ++ if since.isTold && elsewhere then s!" at {since.words}" else ""
  f.problem.words ++ place ++ context

/-- The way from the root of a document to a value; nothing at the root itself. -/
abbrev Path := Option String

namespace Path

def item (p : Path) (index : Nat) : Path := some (p.getD "." ++ s!"[{index}]")

/-- The way to the value under a name; a name that is no scalar is shown as `?`. -/
def entry (p : Path) (name : Option String) : Path :=
  let name := name.getD "?"
  match p with
  | none => some name
  | some s => some s!"{s}.{name}"

end Path

/-- Why a text is not the YAML document of a value of some shape. -/
inductive Fault
  | text (f : SyntaxFault)
  /-- A mismatch; the place is filled in by the innermost value that has one. -/
  | mismatch (m : Mismatch) (place : Option (Path × Mark))
  | endOfInput
  | recursionLimit (mark : Mark)
  | repetitionLimit
  | unknownAnchor (mark : Mark)
  | manyDocuments
  deriving Repr, DecidableEq, Inhabited

namespace Fault

def placeWords (mark : Mark) : String := if mark.isTold then s!" at {mark.words}" else ""

def message : Fault → String
  | .text f => f.message
  | .mismatch m none => m.words
  | .mismatch m (some (path, mark)) =>
    (match path with
      | none => ""
      | some p => p ++ ": ") ++ m.words ++ placeWords mark
  | .endOfInput => "EOF while parsing a value"
  | .recursionLimit mark => "recursion limit exceeded" ++ placeWords mark
  | .repetitionLimit => "repetition limit exceeded"
  | .unknownAnchor mark => "unknown anchor" ++ placeWords mark
  | .manyDocuments => "deserializing from YAML containing more than one document is not supported"

/-- Gives a mismatch without a place this one. -/
def placedAt (path : Path) (mark : Mark) : Fault → Fault
  | .mismatch m none => .mismatch m (some (path, mark))
  | f => f

end Fault

end PluginChain.Yaml
