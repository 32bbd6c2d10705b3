import PluginChain.Shape

/-!
# Reading JSON text: the cursor, strings and numbers

A `Cursor` is the unread rest of a text with the place where it starts, counted in lines from one and
in bytes of the line from zero.  A `Fault` is a `Cause` and, once it is known, the place of the fault.

Numbers become doubles by *scaling*: the digits are gathered into a natural number below 2 ^ 64 (later
digits only count), which is then multiplied or divided by a power of ten (`scaled?`).
-/

set_option autoImplicit false

namespace PluginChain.Json

/-- Why a text is not the JSON text of a value of some shape. -/
inductive Cause
  | endInList
  | endInObject
  | endInString
  | endInValue
  | expectedColon
  | expectedListEnd
  | expectedObjectEnd
  | expectedWord
  | expectedValue
  | invalidEscape
  | invalidNumber
  | numberOutOfRange
  | controlCharacter
  | keyMustBeText
  | loneSurrogate
  | endOfHexEscape
  | trailingComma
  | trailingCharacters
  | recursionLimit
  | mismatch (m : Mismatch)
  deriving Repr, DecidableEq, Inhabited

def Cause.words : Cause → String
  | .endInList => "EOF while parsing a list"
  | .endInObject => "EOF while parsing an object"
  | .endInString => "EOF while parsing a string"
  | .endInValue => "EOF while parsing a value"
  | .expectedColon => "expected `:`"
  | .expectedListEnd => "expected `,` or `]`"
  | .expectedObjectEnd => "expected `,` or `\x7d`"
  | .expectedWord => "expected ident"
  | .expectedValue => "expected value"
  | .invalidEscape => "invalid escape"
  | .invalidNumber => "invalid number"
  | .numberOutOfRange => "number out of range"
  | .controlCharacter => "control character (\\u0000-\\u001F) found while parsing a string"
  | .keyMustBeText => "key must be a string"
  | .loneSurrogate => "lone leading surrogate in hex escape"
  | .endOfHexEscape => "unexpected end of hex escape"
  | .trailingComma => "trailing comma"
  | .trailingCharacters => "trailing characters"
  | .recursionLimit => "recursion limit exceeded"
  | .mismatch m => m.words

/-- A place in a text. -/
structure Place where
  line : Nat
  column : Nat
  deriving Repr, DecidableEq, Inhabited

/-- A cause, at a place if one is known. -/
structure Fault where
  cause : Cause
  place : Option Place
  deriving Repr, DecidableEq, Inhabited

def Fault.message (f : Fault) : String :=
  match f.place with
  | some p => s!"{f.cause.words} at line {p.line} column {p.column}"
  | none => f.cause.words

/-- The unread rest of a text, where it starts, and how many levels of nesting are left. -/
structure Cursor where
  rest : List Char
  line : Nat := 1
  column : Nat := 0
  budget : Nat := 128

def Cursor.place (c : Cursor) : Place := ⟨c.line, c.column⟩

/-- The cursor behind one character. -/
def Cursor.past (c : Cursor) (ch : Char) (rest : List Char) : Cursor :=
  if ch = '\n' then { c with rest, line := c.line + 1, column := 0 }
  else { c with rest, column := c.column + ch.utf8Size }

/-- The place one byte further on. -/
def Cursor.nextPlace (c : Cursor) : Place :=
  match c.rest with
  | [] => c.place
  | '\n' :: _ => ⟨c.line + 1, 0⟩
  | _ => ⟨c.line, c.column + 1⟩

abbrev Reader := EStateM Fault Cursor

/-- A fault where the cursor stands. -/
def failHere {α : Type} (cause : Cause) : Reader α := do
  throw ⟨cause, some (← get).place⟩

/-- A fault at the character that comes next. -/
def failNext {α : Type} (cause : Cause) : Reader α := do
  throw ⟨cause, some (← get).nextPlace⟩

/-- A fault whose place is filled in by what it is part of. -/
def failPlaceless {α : Type} (m : Mismatch) : Reader α :=
  throw ⟨.mismatch m, none⟩

/-- Gives a fault without a place the place where the cursor stands. -/
def placed {α : Type} (r : Reader α) : Reader α :=
  tryCatch r fun f => do
    match f.place with
    | some _ => throw f
    | none => throw { f with place := some (← get).place }

/-- The next character, which stays unread. -/
def peek? : Reader (Option Char) := return (← get).rest.head?

/-- Passes over one character. -/
def skip : Reader Unit :=
  modify fun c => match c.rest with
    | [] => c
    | ch :: rest => c.past ch rest

/-- Reads one character. -/
def next? : Reader (Option Char) := do
  let c ← peek?
  skip
  return c

def isSpace (c : Char) : Bool := c = ' ' || c = '\n' || c = '\t' || c = '\r'

/-- The cursor behind the characters of a class that come next. -/
def Cursor.skipWhile (p : Char → Bool) (c : Cursor) : Cursor :=
  go c c.rest
where
  go (c : Cursor) : List Char → Cursor
    | [] => c
    | ch :: rest => if p ch then go (c.past ch rest) rest else c

/-- The next character behind white space. -/
def peekToken? : Reader (Option Char) := do
  modify (·.skipWhile isSpace)
  peek?

/-- Reads the rest of a word. -/
def word : List Char → Reader Unit
  | [] => pure ()
  | w :: ws => do
    match ← peek? with
    | none => failHere .endInValue
    | some c =>
      if c = w then
        skip
        word ws
      else failNext .expectedWord

/-! ## Strings -/

/-- The value of a hexadecimal digit. -/
def hexValue? (c : Char) : Option Nat :=
  if '0' ≤ c ∧ c ≤ '9' then some (c.toNat - 48)
  else if 'a' ≤ c ∧ c ≤ 'f' then some (c.toNat - 87)
  else if 'A' ≤ c ∧ c ≤ 'F' then some (c.toNat - 55)
  else none

/-- The number written by hexadecimal digits. -/
def hexNumber? (cs : List Char) : Option Nat :=
  cs.foldlM (fun n c => (hexValue? c).map (16 * n + ·)) 0

/-- The four digits of an escape. -/
def hexEscape : Reader Nat := do
  let c ← get
  let four := c.rest.take 4
  let bytes : Nat := four.foldl (fun n ch => n + ch.utf8Size) 0
  if bytes < 4 then
    set (four.foldl (fun c ch => c.past ch (c.rest.drop 1)) c)
    failHere .endInString
  else
    match hexNumber? four with
    | some n =>
      set { c with rest := c.rest.drop 4, column := c.column + 4 }
      return n
    | none => throw ⟨.invalidEscape, some ⟨c.line, c.column + 4⟩⟩

/-- Two escapes whose numbers are the halves of one character, or one escape. -/
def unicodeEscape : Reader Char := do
  let n ← hexEscape
  if 0xDC00 ≤ n ∧ n ≤ 0xDFFF then failHere .loneSurrogate
  else if n < 0xD800 ∨ 0xDBFF < n then return Char.ofNat n
  else
    demand '\\'
    demand 'u'
    let low ← hexEscape
    if low < 0xDC00 ∨ 0xDFFF < low then failHere .loneSurrogate
    else return Char.ofNat ((n - 0xD800) * 1024 + (low - 0xDC00) + 0x10000)
where
  demand (wanted : Char) : Reader Unit := do
    match ← peek? with
    | none => failHere .endInString
    | some c => if c = wanted then skip else failNext .endOfHexEscape

/-- The character of an escape other than a number. -/
def simpleEscape? : Char → Option Char
  | '\"' => some '\"'
  | '\\' => some '\\'
  | '/' => some '/'
  | 'b' => some '\x08'
  | 'f' => some '\x0c'
  | 'n' => some '\n'
  | 'r' => some '\r'
  | 't' => some '\t'
  | _ => none

/-- The characters of a string up to its closing quote, in reverse.  `escape` reads what stands behind
`\u`.  The number bounds the steps; the length of the text is always enough. -/
def stringTail (escape : Reader Char) : Nat → List Char → Reader (List Char)
  | 0, _ => failHere .endInString
  | steps + 1, acc => do
    match ← peek? with
    | none => failHere .endInString
    | some '\"' =>
      skip
      return acc
    | some '\\' =>
      skip
      match ← next? with
      | none => failHere .endInString
      | some 'u' =>
        let c ← escape
        stringTail escape steps (c :: acc)
      | some c =>
        match simpleEscape? c with
        | some e => stringTail escape steps (e :: acc)
        | none => failHere .invalidEscape
    | some c =>
      if c.toNat < 0x20 then failNext .controlCharacter
      else
        skip
        stringTail escape steps (c :: acc)

/-- A string behind its opening quote. -/
def stringRest : Reader String := do
  let cs ← stringTail unicodeEscape ((← get).rest.length + 1) []
  return String.ofList cs.reverse

/-- Passes over a string behind its opening quote.  Escaped numbers need not form characters. -/
def skipString : Reader Unit := do
  let _ ← stringTail (do let _ ← hexEscape; return ' ') ((← get).rest.length + 1) []

/-! ## Numbers -/

/-- A number of a document. -/
inductive Number
  | int (n : Int)
  | float (x : Float)

/-- A power of ten as a double. -/
def tenTo (n : Nat) : Float := Float.ofScientific 1 false n

/-- Scales a double by a power of ten, in steps that have a power of ten below the greatest double.
`none` is a result beyond the doubles. -/
def scaled? (x : Float) (exponent : Int) : Option Float :=
  if exponent.natAbs ≤ 308 then
    if 0 ≤ exponent then
      let y := x * tenTo exponent.toNat
      if y.isInf then none else some y
    else some (x / tenTo exponent.natAbs)
  else if x == 0.0 then some x
  else if 0 ≤ exponent then none
  else go x exponent (exponent.natAbs / 308 + 1)
where
  go (x : Float) (exponent : Int) : Nat → Option Float
    | 0 => some x
    | steps + 1 =>
      if exponent.natAbs ≤ 308 then some (x / tenTo exponent.natAbs)
      else if x == 0.0 then some x
      else go (x / tenTo 308) (exponent + 308) steps

def isDigit (c : Char) : Bool := '0' ≤ c && c ≤ '9'

/-- Reads the digits that come next. -/
def digits : Reader (List Char) := do
  let c ← get
  let ds := c.rest.takeWhile isDigit
  set { c with rest := c.rest.drop ds.length, column := c.column + ds.length }
  return ds

/-- Gathers digits into a number below 2 ^ 64: the number, how many digits it holds, how many more
there were. -/
def gather (start : Nat) (ds : List Char) : Nat × Nat × Nat :=
  go start 0 ds
where
  go (n used : Nat) : List Char → Nat × Nat × Nat
    | [] => (n, used, 0)
    | d :: ds =>
      let n' := 10 * n + (d.toNat - 48)
      if n' < 2 ^ 64 then go n' (used + 1) ds else (n, used, ds.length + 1)

/-- The double of gathered digits and an exponent. -/
def toDouble (negative : Bool) (n : Nat) (exponent : Int) : Reader Number := do
  match scaled? (Float.ofNat n) exponent with
  | some x => return .float (if negative then -x else x)
  | none => failHere .numberOutOfRange

/-- What stands behind the letter of an exponent. -/
def exponentTail (negative : Bool) (n : Nat) (start : Int) : Reader Number := do
  skip
  let down ← match ← peek? with
    | some '+' => skip; pure false
    | some '-' => skip; pure true
    | _ => pure false
  match ← next? with
  | none => failHere .endInValue
  | some d =>
    if isDigit d then
      let c ← get
      let ds := d :: c.rest.takeWhile isDigit
      let tooGreat := (List.range ds.length).find? fun k =>
        2 ^ 31 - 1 < (ds.take (k + 1)).foldl (fun m d => 10 * m + (d.toNat - 48)) 0
      match tooGreat with
      | some k =>
        if n ≠ 0 ∧ !down then
          set { c with rest := c.rest.drop k, column := c.column + k }
          failHere .numberOutOfRange
        else
          let _ ← digits
          return .float (if negative then -0.0 else 0.0)
      | none =>
        let _ ← digits
        let e : Int := ds.foldl (fun m d => 10 * m + (d.toNat - 48)) (0 : Nat)
        toDouble negative n (if down then start - e else start + e)
    else failHere .invalidNumber

/-- What stands behind the digits of a number that has a point or an exponent, or too many digits. -/
def fractionTail (negative : Bool) (n : Nat) (dropped : Nat) : Reader Number := do
  match ← peek? with
  | some '.' =>
    skip
    let ds ← digits
    if ds.isEmpty then
      match ← peek? with
      | some _ => failNext .invalidNumber
      | none => failNext .endInValue
    else
      let (n', used, _) := gather n ds
      let exponent : Int := (dropped : Int) - used
      match ← peek? with
      | some 'e' | some 'E' => exponentTail negative n' exponent
      | _ => toDouble negative n' exponent
  | some 'e' | some 'E' => exponentTail negative n dropped
  | _ => toDouble negative n dropped

/-- A number behind its minus sign, if it has one.  `-0` is a double, and so is a whole number that
64 bits do not hold. -/
def number (negative : Bool) : Reader Number := do
  match ← peek? with
  | none => failHere .endInValue
  | some '0' =>
    skip
    match ← peek? with
    | some c => if isDigit c then failNext .invalidNumber else finish 0 0
    | none => finish 0 0
  | some c =>
    if isDigit c then
      let (n, _, dropped) := gather 0 (← digits)
      finish n dropped
    else failNext .invalidNumber
where
  finish (n dropped : Nat) : Reader Number := do
    match ← peek? with
    | some '.' | some 'e' | some 'E' => fractionTail negative n dropped
    | _ =>
      if 0 < dropped then fractionTail negative n dropped
      else if negative then
        if n = 0 ∨ 2 ^ 63 < n then return .float (-(Float.ofNat n)) else return .int (-(n : Int))
      else return .int n

/-- Passes over a number of any size. -/
def skipNumber : Reader Unit := do
  match ← peek? with
  | some '0' =>
    skip
    match ← peek? with
    | some c => if isDigit c then failNext .invalidNumber else fraction
    | none => fraction
  | some c =>
    if isDigit c then
      let _ ← digits
      fraction
    else failNext .invalidNumber
  | none => failHere .invalidNumber
where
  fraction : Reader Unit := do
    match ← peek? with
    | some '.' =>
      skip
      if (← digits).isEmpty then failNext .invalidNumber
      match ← peek? with
      | some 'e' | some 'E' => exponent
      | _ => pure ()
    | some 'e' | some 'E' => exponent
    | _ => pure ()
  exponent : Reader Unit := do
    skip
    match ← peek? with
    | some '+' | some '-' => skip
    | _ => pure ()
    if (← digits).isEmpty then
      skip
      failHere .invalidNumber

/-- How a document shows a double: around a point from 1e-5 up to 1e16, else with an exponent of at
least two digits and its sign. -/
def layout : Decimal.Layout := ⟨some (-5), some 16, true, true, 2, "inf", "NaN"⟩

def Number.found : Number → Found
  | .int n => .int n
  | .float x => .float (layout.render x)

def Number.data : Number → Data
  | .int n => .int n
  | .float x => .float x

end PluginChain.Json
