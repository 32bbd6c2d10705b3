import PluginChain.Yaml.Fault

/-!
# The characters of a YAML text

A `Cursor` is the unread rest of a text and the mark where it starts.  Lines end with a line feed, a
carriage return, both, or one of three wider marks; the text of a scalar holds the first three, and the
mark for the next line, as a line feed (`Scanner.takeBreak`).
-/

set_option autoImplicit false

namespace PluginChain.Yaml

/-- The unread rest of a text, and where it starts. -/
structure Cursor where
  rest : List Char
  mark : Mark := {}

/-- A function that reads from the text, or faults. -/
abbrev Scanner := EStateM SyntaxFault Cursor

/-! ## Classes of characters -/

def isBlank (c : Char) : Bool := c = ' ' || c = '\t'

def isBreak (c : Char) : Bool :=
  c = '\n' || c = '\r' || c = '\u0085' || c = '\u2028' || c = '\u2029'

def isDigit (c : Char) : Bool := '0' ≤ c && c ≤ '9'

/-- The characters of anchors, handles and names of directives. -/
def isWordChar (c : Char) : Bool :=
  isDigit c || ('a' ≤ c && c ≤ 'z') || ('A' ≤ c && c ≤ 'Z') || c = '_' || c = '-'

/-- The characters that stand for themselves in a tag. -/
def isUriChar (c : Char) : Bool :=
  isWordChar c || [';', '/', '?', ':', '@', '&', '=', '+', '$', '.', '!', '~', '*', '\'', '(', ')'].contains c

/-- The characters that a text may hold. -/
def isAllowed (c : Char) : Bool :=
  let n := c.toNat
  n == 0x09 || n == 0x0A || n == 0x0D || (0x20 ≤ n && n ≤ 0x7E) || n == 0x85 ||
    (0xA0 ≤ n && n ≤ 0xFFFD) || (0x10000 ≤ n && n ≤ 0x10FFFF)

/-- The byte at which the first character stands that a text may not hold. -/
def strayByte? (cs : List Char) : Option Nat :=
  go 0 cs
where
  go (offset : Nat) : List Char → Option Nat
    | [] => none
    | c :: cs => if isAllowed c then go (offset + c.utf8Size) cs else some offset

/-- The value of a hexadecimal digit. -/
def hexValue? (c : Char) : Option Nat :=
  if '0' ≤ c ∧ c ≤ '9' then some (c.toNat - 48)
  else if 'a' ≤ c ∧ c ≤ 'f' then some (c.toNat - 87)
  else if 'A' ≤ c ∧ c ≤ 'F' then some (c.toNat - 55)
  else none

namespace Cursor

def head? (c : Cursor) : Option Char := c.rest.head?

/-- The character so many places on. -/
def at? (c : Cursor) (n : Nat) : Option Char := c.rest[n]?

/-- Whether the character so many places on is the one given. -/
def has (c : Cursor) (n : Nat) (wanted : Char) : Bool := c.at? n = some wanted

/-- Whether a blank, a line break or the end of the text stands so many places on. -/
def isGap (c : Cursor) (n : Nat) : Bool := (c.at? n).all fun ch => isBlank ch || isBreak ch

/-- Whether a line break or the end of the text comes next. -/
def isLineEnd (c : Cursor) : Bool := c.head?.all isBreak

/-- The cursor behind one character of a line. -/
def advance (c : Cursor) : Cursor :=
  ⟨c.rest.tail, { c.mark with index := c.mark.index + 1, column := c.mark.column + 1 }⟩

/-- The cursor at the start of the next line; nothing is passed over where no line ends. -/
def advanceLine (c : Cursor) : Cursor :=
  match c.rest with
  | '\r' :: '\n' :: rest => ⟨rest, ⟨c.mark.index + 2, c.mark.line + 1, 0⟩⟩
  | ch :: rest => if isBreak ch then ⟨rest, ⟨c.mark.index + 1, c.mark.line + 1, 0⟩⟩ else c
  | [] => c

/-- The cursor behind the characters of a class that come next on the line. -/
def skipWhile (p : Char → Bool) (c : Cursor) : Cursor :=
  let n := (c.rest.takeWhile p).length
  ⟨c.rest.drop n, { c.mark with index := c.mark.index + n, column := c.mark.column + n }⟩

/-- Whether one of the two marks between documents stands at the cursor. -/
def isDocumentMark (c : Cursor) : Bool :=
  c.mark.column == 0 && c.isGap 3 &&
    (['-', '-', '-'].isPrefixOf c.rest || ['.', '.', '.'].isPrefixOf c.rest)

end Cursor

namespace Scanner

def mark : Scanner Mark := return (← get).mark

def advance : Scanner Unit := modify Cursor.advance

/-- A fault where the cursor stands, in something read from a mark on. -/
def fail {α : Type} (problem : Problem) (activity : Activity) (since : Mark) : Scanner α := do
  throw { problem, mark := ← mark, during := some (activity, since) }

/-- The characters of a class that come next. -/
def takeWhile (p : Char → Bool) : Scanner (List Char) := do
  let c ← get
  set (c.skipWhile p)
  return c.rest.takeWhile p

def skipBlanks : Scanner Unit := modify (·.skipWhile isBlank)

/-- Passes over blanks and a comment up to the end of the line. -/
def skipComment : Scanner Unit := do
  skipBlanks
  if (← get).has 0 '#' then modify (·.skipWhile (!isBreak ·))

/-- Passes over the end of a line, and gives it as it stands in the text of a scalar. -/
def takeBreak : Scanner (List Char) := do
  let c ← get
  set c.advanceLine
  return match c.rest with
    | '\u2028' :: _ => ['\u2028']
    | '\u2029' :: _ => ['\u2029']
    | ch :: _ => if isBreak ch then ['\n'] else []
    | [] => []

end Scanner

end PluginChain.Yaml
