import PluginChain.Yaml.Cursor

/-!
# Scalars of a YAML text

The four ways to write a scalar: plain, between single or double quotes, and as a block of lines that
are kept (`|`) or joined (`>`).

* A `Gap` is what stands between two words of a scalar: blanks alone stay as they are, a single line
  break is a space, and of several breaks the first one goes.
* Every loop carries a number of steps; the length of the rest of the text is always enough.
-/

set_option autoImplicit false

namespace PluginChain.Yaml

/-- How a scalar is written. -/
inductive Style
  | plain
  | single
  | double
  | literal
  | folded
  deriving Repr, DecidableEq, Inhabited

/-! ## Gaps -/

/-- Blanks, or line breaks with blanks around them.  Both lists hold the latest first. -/
structure Gap where
  blanks : List Char := []
  breaks : List Char := []
  isBroken : Bool := false
  /-- Whether the first line ended in a backslash, so that its break counts for nothing. -/
  isEscaped : Bool := false

/-- The text of a gap, given the latest character last. -/
def joinBreaks : List Char → List Char
  | ['\n'] => [' ']
  | '\n' :: later => later
  | breaks => breaks

def Gap.chars (g : Gap) : List Char :=
  if !g.isBroken then g.blanks.reverse
  else if g.isEscaped then g.breaks.reverse
  else joinBreaks g.breaks.reverse

namespace Scanner

/-- More steps than the rest of the text has characters. -/
def stepsLeft : Scanner Nat := return (← get).rest.length + 1

/-- Reads the blanks and line breaks that come next.  Behind a break no tab may stand before the
column `indent`. -/
def takeGap (indent : Int) (since : Mark) : Nat → Gap → Scanner Gap
  | 0, g => pure g
  | steps + 1, g => do
    let c ← get
    match c.head? with
    | none => return g
    | some ch =>
      if isBlank ch then
        if g.isBroken && ch = '\t' && c.mark.column < indent then
          fail .tabAgainstIndent .plainScalar since
        advance
        takeGap indent since steps (if g.isBroken then g else { g with blanks := ch :: g.blanks })
      else if isBreak ch then
        let b ← takeBreak
        takeGap indent since steps { g with breaks := b ++ g.breaks, isBroken := true }
      else return g

/-! ## Plain scalars -/

/-- Whether a plain scalar ends before the next character, which is neither blank nor a break. -/
def endsPlain (inFlow : Bool) (c : Cursor) : Bool :=
  match c.head? with
  | none => true
  | some ch =>
    (ch = ':' && c.isGap 1) || (inFlow && [',', '[', ']', '\x7b', '\x7d'].contains ch)

/-- The characters of a word of a plain scalar, the latest first. -/
def plainWord (inFlow : Bool) (since : Mark) : Nat → List Char → Scanner (List Char)
  | 0, acc => pure acc
  | steps + 1, acc => do
    let c ← get
    match c.head? with
    | none => return acc
    | some ch =>
      if isBlank ch || isBreak ch then return acc
      if inFlow && ch = ':' &&
          (c.at? 1).any ([',', '?', '[', ']', '\x7b', '\x7d'].contains ·) then
        fail .unexpectedColon .plainScalar since
      if endsPlain inFlow c then return acc
      advance
      plainWord inFlow since steps (ch :: acc)

/-- A plain scalar as far as it was read: its characters, the latest first, and whether the gap behind
its last word holds a line break. -/
structure Plain where
  chars : List Char := []
  endsLine : Bool := false

/-- The words of a plain scalar with the gaps between them. -/
def plainWords (inFlow : Bool) (indent : Int) (since : Mark) : Nat → Gap → Plain → Scanner Plain
  | 0, _, p => pure p
  | steps + 1, gap, p => do
    let c ← get
    if c.isDocumentMark || c.has 0 '#' then return p
    let w ← plainWord inFlow since (← stepsLeft) []
    let chars := if w.isEmpty then p.chars else w ++ gap.chars.reverse ++ p.chars
    -- A gap that no word followed stays open.
    let gap' := if w.isEmpty then gap else {}
    match (← get).head? with
    | none => return { p with chars, endsLine := gap'.isBroken }
    | some ch =>
      if !(isBlank ch || isBreak ch) then return { p with chars, endsLine := gap'.isBroken }
      let next ← takeGap indent since (← stepsLeft) gap'
      let here ← mark
      if !inFlow && (here.column : Int) < indent then return { p with chars, endsLine := next.isBroken }
      plainWords inFlow indent since steps next { chars, endsLine := next.isBroken }

/-- The text of a plain scalar, and whether a line ended behind it. -/
def plainScalar (inFlow : Bool) (indent : Int) : Scanner (String × Bool) := do
  let p ← plainWords inFlow (indent + 1) (← mark) (← stepsLeft) {} {}
  return (String.ofList p.chars.reverse, p.endsLine)

/-! ## Quoted scalars -/

/-- The character of an escape other than a number. -/
def simpleEscape? : Char → Option Char
  | '0' => some '\x00'
  | 'a' => some '\x07'
  | 'b' => some '\x08'
  | 't' | '\t' => some '\t'
  | 'n' => some '\n'
  | 'v' => some '\x0b'
  | 'f' => some '\x0c'
  | 'r' => some '\r'
  | 'e' => some '\x1b'
  | ' ' => some ' '
  | '\"' => some '\"'
  | '/' => some '/'
  | '\\' => some '\\'
  | 'N' => some '\u0085'
  | '_' => some '\u00a0'
  | 'L' => some '\u2028'
  | 'P' => some '\u2029'
  | _ => none

/-- How many digits the number of an escape has. -/
def escapeDigits? : Char → Option Nat
  | 'x' => some 2
  | 'u' => some 4
  | 'U' => some 8
  | _ => none

/-- The character of an escape that starts at the cursor. -/
def escape (since : Mark) : Scanner Char := do
  match (← get).at? 1 with
  | none => fail .unknownEscape .escape since
  | some letter =>
    match simpleEscape? letter, escapeDigits? letter with
    | some ch, _ =>
      advance
      advance
      return ch
    | none, some count =>
      advance
      advance
      let ds := (← get).rest.take count
      match ds.foldlM (fun n d => (hexValue? d).map (16 * n + ·)) 0, decide (ds.length = count) with
      | some n, true =>
        if (0xD800 ≤ n ∧ n ≤ 0xDFFF) ∨ 0x10FFFF < n then
          fail .noCharacterOfEscape .escape since
        modify fun c => ds.foldl (fun c _ => c.advance) c
        return Char.ofNat n
      | _, _ => fail .noHexNumber .escape since
    | none, none => fail .unknownEscape .escape since

/-- The characters of a word of a quoted scalar, the latest first, and whether it ends in an escaped
line break. -/
def quotedWord (single : Bool) (since : Mark) : Nat → List Char → Scanner (List Char × Bool)
  | 0, acc => pure (acc, false)
  | steps + 1, acc => do
    let c ← get
    match c.head? with
    | none => return (acc, false)
    | some ch =>
      if isBlank ch || isBreak ch then return (acc, false)
      if single && ch = '\'' && c.has 1 '\'' then
        advance
        advance
        quotedWord single since steps ('\'' :: acc)
      else if ch = (if single then '\'' else '\"') then return (acc, false)
      else if !single && ch = '\\' then
        if (c.at? 1).any isBreak then
          advance
          let _ ← takeBreak
          return (acc, true)
        quotedWord single since steps ((← escape since) :: acc)
      else
        advance
        quotedWord single since steps (ch :: acc)

/-- The characters of a quoted scalar up to its closing quote, the latest first. -/
def quotedWords (single : Bool) (since : Mark) : Nat → List Char → Scanner (List Char)
  | 0, acc => pure acc
  | steps + 1, acc => do
    let c ← get
    if c.isDocumentMark then fail .documentIndicator .quotedScalar since
    if c.rest.isEmpty then fail .endOfStream .quotedScalar since
    let (w, isEscaped) ← quotedWord single since (← stepsLeft) []
    let acc := w ++ acc
    if (← get).has 0 (if single then '\'' else '\"') then return acc
    let gap ← takeGap 0 since (← stepsLeft) { isBroken := isEscaped, isEscaped }
    quotedWords single since steps (gap.chars.reverse ++ acc)

/-- The text of a quoted scalar. -/
def quotedScalar (single : Bool) : Scanner String := do
  let since ← mark
  advance
  let cs ← quotedWords single since (← stepsLeft) []
  advance
  return String.ofList cs.reverse

/-! ## Block scalars -/

/-- What becomes of the line breaks at the end of a block. -/
inductive Chomping
  | strip
  | clip
  | keep
  deriving Repr, DecidableEq, Inhabited

/-- Reads empty lines up to the first that holds something, and finds the indentation of the block if
it is not known.  Gives the indentation and the breaks. -/
def blockBreaks (parentIndent : Int) (since : Mark) :
    Nat → Nat → Nat → List Char → Scanner (Nat × List Char)
  | 0, indent, _, acc => pure (indent, acc)
  | steps + 1, indent, widest, acc => do
    let c ← get
    let spaces := (c.rest.takeWhile (· = ' ')).length
    let n := if indent = 0 then spaces else min spaces (indent - c.mark.column)
    modify fun c => (List.replicate n ()).foldl (fun c _ => c.advance) c
    let c ← get
    let widest := max widest c.mark.column
    if (indent = 0 || c.mark.column < indent) && c.has 0 '\t' then
      fail .tabForIndent .blockScalar since
    if c.head?.any isBreak then
      let b ← takeBreak
      blockBreaks parentIndent since steps indent widest (acc ++ b)
    else
      let least : Int := max 1 (parentIndent + 1)
      return (if indent = 0 then max widest least.toNat else indent, acc)

/-- The lines of a block: its characters so far, the latest first, the break behind its last line and
the empty lines behind that. -/
structure Block where
  chars : List Char := []
  lineBreak : List Char := []
  emptyLines : List Char := []
  /-- Whether the last line began with a blank; such lines are not joined. -/
  isIndented : Bool := false

/-- The text of a line break between two lines of a block. -/
def Block.gap (b : Block) (literal nextIsIndented : Bool) : List Char :=
  if !literal && b.lineBreak.head? = some '\n' && !b.isIndented && !nextIsIndented then
    (if b.emptyLines.isEmpty then [' '] else []) ++ b.emptyLines
  else b.lineBreak ++ b.emptyLines

/-- Reads the lines of a block whose indentation is known. -/
def blockLines (literal : Bool) (indent : Nat) (since : Mark) : Nat → Block → Scanner Block
  | 0, b => pure b
  | steps + 1, b => do
    let c ← get
    if c.mark.column != indent || c.rest.isEmpty then return b
    let isIndented := c.head?.any isBlank
    let line ← takeWhile (!isBreak ·)
    let chars := line.reverse ++ (b.gap literal isIndented).reverse ++ b.chars
    let lineBreak ← takeBreak
    let (_, emptyLines) ← blockBreaks 0 since (← stepsLeft) indent 0 []
    blockLines literal indent since steps { chars, lineBreak, emptyLines, isIndented }

/-- The indicators behind `|` and `>`: what becomes of the end, and how far the block is indented. -/
def blockHeader (since : Mark) : Scanner (Chomping × Nat) := do
  let chomping? (c : Cursor) : Option Chomping :=
    if c.has 0 '+' then some .keep else if c.has 0 '-' then some .strip else none
  let digit : Scanner Nat := do
    match (← get).head? with
    | some d =>
      if isDigit d then
        if d = '0' then fail .zeroIndent .blockScalar since
        advance
        return d.toNat - 48
      else return 0
    | none => return 0
  match chomping? (← get) with
  | some chomping =>
    advance
    return (chomping, ← digit)
  | none =>
    let increment ← digit
    let c ← get
    match (if increment = 0 then none else chomping? c) with
    | some chomping =>
      advance
      return (chomping, increment)
    | none => return (.clip, increment)

/-- The text of a block scalar in a collection of a given indentation. -/
def blockScalar (literal : Bool) (parentIndent : Int) : Scanner String := do
  let since ← mark
  advance
  let (chomping, increment) ← blockHeader since
  skipComment
  if !(← get).isLineEnd then fail .noCommentOrBreak .blockScalar since
  modify Cursor.advanceLine
  let given : Nat := if increment = 0 then 0 else (max parentIndent 0).toNat + increment
  let (indent, emptyLines) ← blockBreaks parentIndent since (← stepsLeft) given 0 []
  let b ← blockLines literal indent since (← stepsLeft) { emptyLines }
  let tail := match chomping with
    | .strip => []
    | .clip => b.lineBreak
    | .keep => b.lineBreak ++ b.emptyLines
  return String.ofList (b.chars.reverse ++ tail)

end Scanner

end PluginChain.Yaml
