import PluginChain.Yaml.Scalar

/-!
# Tokens of a YAML text

`Token.scan` cuts a text into tokens.  Indentation becomes tokens of its own: a collection of lines
starts with a start token and ends with `blockEnd`.

A scalar, an alias or a bracket may turn out to be the key of a mapping only when a colon follows it on
the same line.  Until then it is a *simple key* (`SimpleKey`): the colon puts the `key` token, and
perhaps the start of a mapping, in front of it.  So where scanning breaks off, the tokens from the first
key that is still open are not settled, and are cut off.
-/

set_option autoImplicit false

namespace PluginChain.Yaml

inductive TokenKind
  | streamEnd
  | version (major minor : Nat)
  | tagHandle (handle uri : String)
  | documentStart
  | documentEnd
  | blockSequenceStart
  | blockMappingStart
  | blockEnd
  | flowSequenceStart
  | flowSequenceEnd
  | flowMappingStart
  | flowMappingEnd
  | blockEntry
  | flowEntry
  | key
  | value
  | alias (name : String)
  | anchor (name : String)
  | tag (handle suffix : String)
  | scalar (style : Style) (text : String)
  deriving Repr, DecidableEq, Inhabited

structure Token where
  kind : TokenKind
  first : Mark
  /-- The mark behind the token; for tokens that can stand before an empty value. -/
  last : Mark
  deriving Repr, DecidableEq, Inhabited

/-- A place where a key may turn out to have started. -/
structure SimpleKey where
  /-- The number of the token that would be the key. -/
  token : Nat
  mark : Mark
  /-- Whether a key must start there, because the place lies at the indentation of a mapping. -/
  isRequired : Bool
  deriving Repr, DecidableEq, Inhabited

/-- How far a text was scanned. -/
structure Scan where
  cursor : Cursor
  tokens : Array Token := #[]
  indent : Int := -1
  outerIndents : List Int := []
  /-- Whether a key may start here. -/
  keyAllowed : Bool := true
  key : Option SimpleKey := none
  /-- The keys outside the open brackets, one for each. -/
  outerKeys : List (Option SimpleKey) := []

namespace Scan

def inFlow (s : Scan) : Bool := !s.outerKeys.isEmpty

def mark (s : Scan) : Mark := s.cursor.mark

def push (s : Scan) (kind : TokenKind) (first last : Mark) : Scan :=
  { s with tokens := s.tokens.push ⟨kind, first, last⟩ }

/-- A fault at the cursor. -/
def fail {α : Type} (s : Scan) (problem : Problem) (during : Option (Activity × Mark)) :
    Except SyntaxFault α :=
  .error { problem, mark := s.mark, during }

/-- Reads characters. -/
def read {α : Type} (s : Scan) (r : Scanner α) : Except SyntaxFault (α × Scan) :=
  match r.run s.cursor with
  | .ok a cursor => .ok (a, { s with cursor })
  | .error f _ => .error f

/-! ## Keys -/

/-- Gives up the current key. -/
def dropKey (s : Scan) : Except SyntaxFault Scan :=
  match s.key with
  | some k =>
    if k.isRequired then s.fail .noColon (some (.simpleKey, k.mark)) else .ok { s with key := none }
  | none => .ok s

/-- Notes that a key may start here. -/
def saveKey (s : Scan) : Except SyntaxFault Scan :=
  if s.keyAllowed then do
    let isRequired := !s.inFlow && s.indent = s.mark.column
    let t ← s.dropKey
    return { t with key := some ⟨s.tokens.size, s.mark, isRequired⟩ }
  else .ok s

/-- Whether a key is no longer possible: it ends on its line, within 1024 characters. -/
def isStale (s : Scan) (k : SimpleKey) : Bool :=
  k.mark.line < s.mark.line || k.mark.index + 1024 < s.mark.index

/-- Gives up the keys that are no longer possible.  Only an outermost one can be required. -/
def dropStaleKeys (s : Scan) : Except SyntaxFault Scan := do
  let settle (k : Option SimpleKey) : Except SyntaxFault (Option SimpleKey) :=
    match k with
    | some k =>
      if s.isStale k then
        if k.isRequired then s.fail .noColon (some (.simpleKey, k.mark)) else .ok none
      else .ok (some k)
    | none => .ok none
  return { s with key := ← settle s.key, outerKeys := ← s.outerKeys.mapM settle }

/-! ## Indentation -/

/-- Opens a collection at a column, unless one is open there.  Its token stands before the token of a
number, or comes last. -/
def openBlock (s : Scan) (column : Nat) (kind : TokenKind) (mark : Mark) (before : Option Nat) : Scan :=
  if s.inFlow || (column : Int) ≤ s.indent then s
  else
    let token : Token := ⟨kind, mark, mark⟩
    { s with
      outerIndents := s.indent :: s.outerIndents
      indent := column
      tokens := s.tokens.insertIdxIfInBounds (before.getD s.tokens.size) token }

/-- Closes the collections that lie further in than a column. -/
def closeBlocks (s : Scan) (column : Int) : Scan :=
  if s.inFlow then s else go s s.indent s.outerIndents
where
  go (s : Scan) (indent : Int) : List Int → Scan
    | [] => { s with indent, outerIndents := [] }
    | outer :: rest =>
      if column < indent then go (s.push .blockEnd s.mark s.mark) outer rest
      else { s with indent, outerIndents := outer :: rest }

/-! ## One token -/

/-- Passes over blanks, comments and line ends.  A tab counts as a blank only where no key can start. -/
def skipToToken : Nat → Scan → Scan
  | 0, s => s
  | steps + 1, s =>
    let c := s.cursor
    let c := if c.mark.index == 0 && c.has 0 '\ufeff' then c.advance else c
    let c := c.skipWhile fun ch => ch = ' ' || ((s.inFlow || !s.keyAllowed) && ch = '\t')
    let c := if c.has 0 '#' then c.skipWhile (!isBreak ·) else c
    if c.head?.any isBreak then
      skipToToken steps
        { s with cursor := c.advanceLine, keyAllowed := s.keyAllowed || !s.inFlow }
    else { s with cursor := c }

/-- A token of one or more characters that stand for themselves. -/
def pushMark (s : Scan) (kind : TokenKind) (length : Nat) : Scan :=
  let cursor := (List.replicate length ()).foldl (fun c _ => c.advance) s.cursor
  { s.push kind s.mark cursor.mark with cursor }

def streamEnd (s : Scan) : Except SyntaxFault Scan := do
  let m := s.mark
  let m : Mark := if m.column = 0 then m else ⟨m.index, m.line + 1, 0⟩
  let s := { s with cursor := { s.cursor with mark := m } }
  let s ← (s.closeBlocks (-1)).dropKey
  return ({ s with keyAllowed := false }).push .streamEnd m m

def documentMark (s : Scan) (kind : TokenKind) : Except SyntaxFault Scan := do
  let s ← (s.closeBlocks (-1)).dropKey
  return ({ s with keyAllowed := false }).pushMark kind 3

def openBracket (s : Scan) (kind : TokenKind) : Except SyntaxFault Scan := do
  let s ← s.saveKey
  return ({ s with outerKeys := s.key :: s.outerKeys, key := none, keyAllowed := true }).pushMark kind 1

def closeBracket (s : Scan) (kind : TokenKind) : Except SyntaxFault Scan := do
  let s ← s.dropKey
  let s := match s.outerKeys with
    | k :: ks => { s with key := k, outerKeys := ks }
    | [] => s
  return ({ s with keyAllowed := false }).pushMark kind 1

def flowEntry (s : Scan) : Except SyntaxFault Scan := do
  let s ← s.dropKey
  return ({ s with keyAllowed := true }).pushMark .flowEntry 1

def blockEntry (s : Scan) : Except SyntaxFault Scan := do
  if !s.inFlow && !s.keyAllowed then s.fail .entryNotAllowed none
  let s := s.openBlock s.mark.column .blockSequenceStart s.mark none
  let s ← s.dropKey
  return ({ s with keyAllowed := true }).pushMark .blockEntry 1

def explicitKey (s : Scan) : Except SyntaxFault Scan := do
  if !s.inFlow && !s.keyAllowed then s.fail .keyNotAllowed none
  let s := s.openBlock s.mark.column .blockMappingStart s.mark none
  let s ← s.dropKey
  return ({ s with keyAllowed := !s.inFlow }).pushMark .key 1

def value (s : Scan) : Except SyntaxFault Scan := do
  match s.key with
  | some k =>
    let s := { s with tokens := s.tokens.insertIdxIfInBounds k.token ⟨.key, k.mark, k.mark⟩ }
    let s := s.openBlock k.mark.column .blockMappingStart k.mark (some k.token)
    return ({ s with key := none, keyAllowed := false }).pushMark .value 1
  | none =>
    if !s.inFlow && !s.keyAllowed then s.fail .valueNotAllowed none
    let s := s.openBlock s.mark.column .blockMappingStart s.mark none
    return ({ s with keyAllowed := !s.inFlow }).pushMark .value 1

/-- A token that may be a key. -/
def keyToken (s : Scan) (r : Scanner TokenKind) : Except SyntaxFault Scan := do
  let s ← s.saveKey
  let (kind, t) ← ({ s with keyAllowed := false }).read r
  return t.push kind s.mark t.mark

def plain (s : Scan) : Except SyntaxFault Scan := do
  let s ← s.saveKey
  let ((text, endsLine), t) ← s.read (Scanner.plainScalar s.inFlow s.indent)
  return ({ t with keyAllowed := endsLine }).push (.scalar .plain text) s.mark t.mark

def block (s : Scan) (literal : Bool) : Except SyntaxFault Scan := do
  let s ← s.dropKey
  let (text, t) ← s.read (Scanner.blockScalar literal s.indent)
  return ({ t with keyAllowed := true }).push
    (.scalar (if literal then .literal else .folded) text) s.mark t.mark

end Scan

/-! ## Names, tags and directives -/

namespace Scanner

/-- The name behind `&` or `*`. -/
def anchorName (activity : Activity) : Scanner String := do
  let since ← mark
  advance
  let name ← takeWhile isWordChar
  let c ← get
  let ends := c.isGap 0 || c.head?.any (['?', ':', ',', ']', '\x7d', '%', '@', '\x60'].contains ·)
  if name.isEmpty || !ends then fail .noAnchorName activity since
  return String.ofList name

/-- One character written as the octets of its code, each behind a percent sign. -/
def uriEscape (activity : Activity) (since : Mark) : Scanner Char := do
  let octet : Scanner Nat := do
    let c ← get
    match c.has 0 '%', (c.at? 1).bind hexValue?, (c.at? 2).bind hexValue? with
    | true, some high, some low =>
      modify (·.advance.advance.advance)
      return 16 * high + low
    | _, _, _ => fail .noOctet activity since
  let next (n : Nat) : Scanner Nat := do
    let before ← get
    let o ← octet
    if o / 64 != 2 then
      set before
      fail .wrongNextOctet activity since
    return 64 * n + o % 64
  let before ← get
  let o ← octet
  if o < 0x80 then return Char.ofNat o
  else if o / 32 = 6 then return Char.ofNat (← next (o % 32))
  else if o / 16 = 14 then return Char.ofNat (← next (← next (o % 16)))
  else if o / 8 = 30 then return Char.ofNat (← next (← next (← next (o % 8))))
  else
    set before
    fail .wrongFirstOctet activity since

/-- The characters of a tag, behind those already known. -/
def uriChars (inBrackets : Bool) (activity : Activity) (since : Mark) : Nat → List Char → Scanner (List Char)
  | 0, acc => pure acc
  | steps + 1, acc => do
    match (← get).head? with
    | some '%' => uriChars inBrackets activity since steps ((← uriEscape activity since) :: acc)
    | some c =>
      if isUriChar c || (inBrackets && [',', '[', ']'].contains c) then
        advance
        uriChars inBrackets activity since steps (c :: acc)
      else return acc
    | none => return acc

/-- A tag, or the rest of one; it is empty only where something was read before it. -/
def uri (inBrackets : Bool) (activity : Activity) (since : Mark) (before : List Char) : Scanner String := do
  let cs ← uriChars inBrackets activity since (← stepsLeft) []
  if before.isEmpty && cs.isEmpty then fail .noTagUri activity since
  return String.ofList (before.drop 1 ++ cs.reverse)

/-- A handle: an exclamation mark, perhaps with a word and another one. -/
def handle (inDirective : Bool) (since : Mark) : Scanner (List Char) := do
  if !(← get).has 0 '!' then
    fail .noTagMark (if inDirective then .tagDirectiveHandle else .tag) since
  advance
  let name ← takeWhile isWordChar
  if (← get).has 0 '!' then
    advance
    return '!' :: (name ++ ['!'])
  else if inDirective && !name.isEmpty then fail .noTagMark .tagDirectiveMark since
  else return '!' :: name

/-- A tag: in angle brackets, with a handle, or alone. -/
def tag (inFlow : Bool) : Scanner TokenKind := do
  let since ← mark
  let kind ←
    if (← get).has 1 '<' then
      advance
      advance
      let suffix ← uri true .tagUri since []
      if !(← get).has 0 '>' then fail .noTagEnd .tag since
      advance
      pure (TokenKind.tag "" suffix)
    else
      let h ← handle false since
      if 1 < h.length && h.getLast? = some '!' then
        let suffix ← uri false .tagUri since []
        pure (.tag (String.ofList h) suffix)
      else
        let suffix ← uri false .tagUri since h
        pure (if suffix.isEmpty then .tag "" "!" else .tag "!" suffix)
  let c ← get
  if !(c.isGap 0 || (inFlow && c.has 0 ',')) then fail .noBlankOrBreak .tag since
  return kind

/-- A part of a version. -/
def versionNumber (since : Mark) : Scanner Nat := do
  let ds := (← get).rest.takeWhile isDigit
  if ds.isEmpty then fail .noVersionNumber .versionDirective since
  if 9 < ds.length then
    modify fun c => (List.replicate 9 ()).foldl (fun c _ => c.advance) c
    fail .longVersion .versionDirective since
  modify (·.skipWhile isDigit)
  return ds.foldl (fun n d => 10 * n + (d.toNat - 48)) 0

/-- A line that starts with a percent sign. -/
def directive : Scanner (TokenKind × Mark) := do
  let since ← mark
  advance
  let name ← takeWhile isWordChar
  if name.isEmpty then fail .noDirectiveName .directive since
  if !(← get).isGap 0 then fail .notALetter .directive since
  let kind ←
    if name = ['Y', 'A', 'M', 'L'] then
      skipBlanks
      let major ← versionNumber since
      if !(← get).has 0 '.' then fail .noVersionPoint .versionDirective since
      advance
      let minor ← versionNumber since
      pure (TokenKind.version major minor)
    else if name = ['T', 'A', 'G'] then
      skipBlanks
      let h ← handle true since
      if !(← get).head?.any isBlank then fail .noBlank .tagDirective since
      skipBlanks
      let u ← uri true .tagDirectiveUri since []
      if !(← get).isGap 0 then fail .noBlankOrBreak .tagDirective since
      pure (.tagHandle (String.ofList h) u)
    else fail .unknownDirective .directive since
  let last ← mark
  skipComment
  if !(← get).isLineEnd then fail .noCommentOrBreak .directive since
  modify Cursor.advanceLine
  return (kind, last)

end Scanner

namespace Scan

def directive (s : Scan) : Except SyntaxFault Scan := do
  let s ← (s.closeBlocks (-1)).dropKey
  let ((kind, last), t) ← s.read Scanner.directive
  return ({ t with keyAllowed := false }).push kind s.mark last

/-- Whether a plain scalar starts at the cursor, with a character that is no indicator or one that
does not stand alone. -/
def startsPlain (s : Scan) : Bool :=
  let c := s.cursor
  match c.head? with
  | none => false
  | some ch =>
    (!isBlank ch && !isBreak ch && !(['-', '?', ':', ',', '[', ']', '\x7b', '\x7d', '#', '&', '*',
      '!', '|', '>', '\'', '\"', '%', '@', '\x60'].contains ch)) ||
    (ch = '-' && !(c.at? 1).any isBlank) ||
    (!s.inFlow && (ch = '?' || ch = ':') && !c.isGap 1)

/-- Reads the tokens up to the next one, that one included. -/
def step (s : Scan) : Except SyntaxFault Scan := do
  let s ← (skipToToken (s.cursor.rest.length + 1) s).dropStaleKeys
  let s := s.closeBlocks s.mark.column
  let c := s.cursor
  let alone := s.inFlow || c.isGap 1
  match c.head? with
  | none => s.streamEnd
  | some ch =>
    if c.mark.column = 0 && ch = '%' then s.directive
    else if c.isDocumentMark then
      s.documentMark (if ch = '-' then .documentStart else .documentEnd)
    else if ch = '[' then s.openBracket .flowSequenceStart
    else if ch = '\x7b' then s.openBracket .flowMappingStart
    else if ch = ']' then s.closeBracket .flowSequenceEnd
    else if ch = '\x7d' then s.closeBracket .flowMappingEnd
    else if ch = ',' then s.flowEntry
    else if ch = '-' && c.isGap 1 then s.blockEntry
    else if ch = '?' && alone then s.explicitKey
    else if ch = ':' && alone then s.value
    else if ch = '*' then s.keyToken (.alias <$> Scanner.anchorName .alias)
    else if ch = '&' then s.keyToken (.anchor <$> Scanner.anchorName .anchor)
    else if ch = '!' then s.keyToken (Scanner.tag s.inFlow)
    else if ch = '|' && !s.inFlow then s.block true
    else if ch = '>' && !s.inFlow then s.block false
    else if ch = '\'' then s.keyToken (.scalar .single <$> Scanner.quotedScalar true)
    else if ch = '\"' then s.keyToken (.scalar .double <$> Scanner.quotedScalar false)
    else if s.startsPlain then s.plain
    else s.fail .noToken (some (.nextToken, s.mark))

/-- The number of the first token that is not settled. -/
def settled (s : Scan) : Nat :=
  (s.key :: s.outerKeys).foldl (fun n k => match k with
    | some k => min n k.token
    | none => n) s.tokens.size

/-- The tokens of a text, and the fault at which they end.  Each step reads a character. -/
def run : Nat → Scan → List Token × Option SyntaxFault
  | 0, s => (s.tokens.toList, none)
  | steps + 1, s =>
    match s.step with
    | .error f => (s.tokens.toList.take s.settled, some f)
    | .ok t =>
      if t.tokens.back?.any (·.kind = .streamEnd) then (t.tokens.toList, none) else run steps t

end Scan

/-- The tokens of a text, up to its end or to a fault. -/
def Token.scan (text : String) : List Token × Option SyntaxFault :=
  let cs := text.toList
  match strayByte? cs with
  | some offset => ([], some { problem := .controlCharacter, offset })
  | none => Scan.run (cs.length + 2) { cursor := { rest := cs } }

end PluginChain.Yaml
