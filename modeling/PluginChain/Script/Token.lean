import PluginChain.Decimal.Layout
import PluginChain.Script.Position
import PluginChain.Text.Blank

/-!
# Tokens of a script

`Token.scan` cuts a script into tokens, each with the position of its first character.  The last one
is `ending`, or `bad` where the text cannot be read on.

A text between grave accents may hold blocks of code.  It comes as a `template` for each part that a
block follows, then the tokens of the block, and a `text` for the last part.  The scanner finds the
end of a block by counting braces (`Scan.open_`).
-/

set_option autoImplicit false

namespace PluginChain.Script

/-- What is wrong with a piece of text. -/
inductive TokenFault
  | unexpected (s : String)
  | unterminated
  | tooLong (most : Nat)
  | badEscape (s : String)
  | badNumber (s : String)
  | badChar (s : String)
  | badName (s : String)
  | improper (reason : String)
  deriving Repr, DecidableEq, Inhabited

def TokenFault.message : TokenFault → String
  | .unexpected s => s!"Unexpected '{s}'"
  | .unterminated => "Open string is not terminated"
  | .tooLong most => s!"Length of string exceeds the maximum limit ({most})"
  | .badEscape s => s!"Invalid escape sequence: '{s}'"
  | .badNumber s => s!"Invalid number: '{s}'"
  | .badChar s => s!"Invalid character: '{s}'"
  | .badName s => s!"Variable name is not proper: '{s}'"
  | .improper reason => reason

inductive Token
  | int (n : Int)
  | float (x : Float)
  | char (c : Char)
  | text (s : String)
  /-- A text that a block of code follows. -/
  | template (s : String)
  | name (s : String)
  /-- A keyword or a symbol of the language. -/
  | sym (s : String)
  /-- A word or symbol that the language keeps back. -/
  | reserved (s : String)
  | bad (why : TokenFault)
  | ending
  deriving Repr, BEq, Inhabited

/-! ## Words -/

def isDigit (c : Char) : Bool := '0' ≤ c && c ≤ '9'

def isLetter (c : Char) : Bool := ('a' ≤ c && c ≤ 'z') || ('A' ≤ c && c ≤ 'Z')

def isNameChar (c : Char) : Bool := isLetter c || isDigit c || c = '_'

/-- A name has a letter, and only underscores before the first one. -/
def isName (s : String) : Bool :=
  match s.toList.dropWhile (· = '_') with
  | c :: rest => isLetter c && rest.all isNameChar
  | [] => false

def keywords : List String :=
  ["true", "false", "_", "let", "const", "if", "else", "switch", "do", "while", "until", "loop", "for",
    "in", "continue", "break", "return", "throw", "try", "catch", "import", "export", "as", "fn",
    "private"]

/-- Words that only name a function of the language. -/
def callableWords : List String :=
  ["print", "debug", "type_of", "eval", "Fn", "call", "curry", "is_def_fn", "is_def_var", "is_shared"]

/-- Words that may be called behind a point. -/
def methodWords : List String := ["type_of", "call", "curry", "is_shared"]

def reservedWords : List String :=
  callableWords ++
  ["this", "public", "protected", "super", "new", "use", "module", "package", "var", "static",
    "shared", "with", "is", "goto", "match", "case", "default", "void", "null", "nil", "spawn",
    "thread", "go", "sync", "async", "await", "yield"]

/-! ## Symbols -/

def symbols : List String :=
  ["**=", "<<=", ">>=", "..=",
    "()", "#\x7b", "+=", "-=", "*=", "/=", "%=", "&=", "|=", "^=", "**", "<<", ">>", "..", "==", "!=",
    "<=", ">=", "=>", "::", "||", "&&", "?.", "??", "?[",
    "\x7b", "\x7d", "(", ")", "[", "]", "+", "-", "*", "/", "%", "&", "|", "^", "<", ">", "=", "!",
    ".", ",", ";", ":"]

def reservedSymbols : List String :=
  ["===", "!==", "...", "::<", "->", "<-", ":=", ":;", "++", "--", "(*", "*)", "#!", "!.", "|>", "<|",
    "#", "@", "$", "~", "?"]

/-- Symbols that other languages have, with what is said about them. -/
def foreignSymbols : List (String × String) := [
  ("===", "'===' is not a valid operator. This is not JavaScript! Should it be '=='?"),
  ("!==", "'!==' is not a valid operator. This is not JavaScript! Should it be '!='?"),
  ("->", "'->' is not a valid symbol. This is not C or C++!"),
  ("<-", "'<-' is not a valid symbol. This is not Go! Should it be '<='?"),
  (":=", "':=' is not a valid assignment operator. This is not Go or Pascal! Should it be simply '='?"),
  (":;", "':;' is not a valid symbol. Should it be '::'?"),
  ("::<", "'::<>' is not a valid symbol. This is not Rust! Should it be '::'?"),
  ("(*", "'(* .. *)' is not a valid comment format. This is not Pascal! Should it be '/* .. */'?"),
  ("*)", "'(* .. *)' is not a valid comment format. This is not Pascal! Should it be '/* .. */'?")]

/-- After these a minus sign belongs to the number that follows. -/
def opensOperand : Token → Bool
  | .sym s =>
    ["if", "while", "until", "in", "!in", "return", "throw", "switch", "=>"].contains s ||
      (symbols.contains s &&
        !(["()", "\x7d", ")", "]", ".", "?.", "::", "#\x7b"].contains s))
  | _ => false

/-- Whether the language has a use of its own for a word or symbol, or keeps it back. -/
def isKept (s : String) : Bool :=
  keywords.contains s || reservedWords.contains s || symbols.contains s
    || reservedSymbols.contains s

/-- Whether a function can have this name. -/
def isFunctionName (s : String) : Bool := isName s && !isKept s

/-! ## The scanner -/

/-- The text that is left, with the position of its first character. -/
structure Cursor where
  rest : List Char
  pos : Position
  deriving Repr, Inhabited

namespace Cursor

def advance (c : Cursor) : Cursor :=
  match c.rest with
  | [] => c
  | x :: rest => ⟨rest, c.pos.after x⟩

def skip : Nat → Cursor → Cursor
  | 0, c => c
  | n + 1, c => skip n c.advance

/-- The longest run of characters of a kind, and what follows it. -/
def span (p : Char → Bool) (c : Cursor) : List Char × Cursor :=
  let run := c.rest.takeWhile p
  (run, ⟨c.rest.drop run.length, ⟨c.pos.line, c.pos.column + run.length⟩⟩)

def startsWith (c : Cursor) (s : String) : Bool := s.toList.isPrefixOf c.rest

end Cursor

/-- The text behind a comment that runs to the end of its line. -/
def skipLine (c : Cursor) : List Char → Cursor
  | [] => ⟨[], c.pos⟩
  | '\r' :: '\n' :: rest => ⟨rest, ⟨c.pos.line + 1, 1⟩⟩
  | '\r' :: rest | '\n' :: rest => ⟨rest, ⟨c.pos.line + 1, 1⟩⟩
  | _ :: rest => skipLine ⟨rest, ⟨c.pos.line, c.pos.column + 1⟩⟩ rest

/-- The text behind a comment between marks, which may hold others of its kind. -/
def skipNested : Nat → Position → List Char → Cursor
  | _, p, [] => ⟨[], p⟩
  | level, p, '/' :: '*' :: rest => skipNested (level + 1) ⟨p.line, p.column + 2⟩ rest
  | level, p, '*' :: '/' :: rest =>
    let p := ⟨p.line, p.column + 2⟩
    match level with
    | 0 | 1 => ⟨rest, p⟩
    | n + 2 => skipNested (n + 1) p rest
  | level, p, c :: rest => skipNested level (p.after c) rest

/-! ### Numbers -/

def digitValue? (base : Nat) (c : Char) : Option Nat :=
  let n : Option Nat :=
    if isDigit c then some (c.toNat - 48)
    else if 'a' ≤ c && c ≤ 'f' then some (c.toNat - 87)
    else if 'A' ≤ c && c ≤ 'F' then some (c.toNat - 55)
    else none
  n.filter (· < base)

def valueOf (base : Nat) (cs : List Char) : Nat :=
  cs.foldl (fun n c => base * n + (digitValue? base c).getD 0) 0

/-- The 64-bit integer that a number wraps to. -/
def wrap64 (n : Int) : Int := Int.bmod n (2 ^ 64)

def fitsInt (n : Int) : Bool := -(2 ^ 63) ≤ n && n < 2 ^ 63

/-- The double of digits with a point somewhere in them, times a power of ten. -/
def floatOf (whole part : List Char) (exponent : Int) : Float :=
  let e := exponent - part.length
  let n := valueOf 10 (whole ++ part)
  if 400 + (whole.length : Int) < e then (if n = 0 then 0.0 else 1.0 / 0.0)
  else if e < 0 then
    if 800 + ((whole ++ part).length : Int) < -e then 0.0 else Float.ofScientific n true (-e).toNat
  else Float.ofScientific n false e.toNat

/-- Digits, in which underscores do not count. -/
def digitRun (base : Nat) (c : Cursor) : List Char × Cursor :=
  let (run, c) := c.span fun x => (digitValue? base x).isSome || x = '_'
  (run.filter (· ≠ '_'), c)

/-- What may follow the point of a number that has no digits behind it. -/
def endsAtPoint : List Char → Bool
  | [] => false
  | x :: _ => !(isLetter x || x = '_' || x = '.')

/-- The number at the cursor, which has a digit there.  In base eight or two, digits of base ten that
are too large make it a bad one. -/
def number (negative : Bool) (c : Cursor) : Token × Cursor :=
  let sign (n : Int) : Int := if negative then -n else n
  let based (base : Nat) : Token × Cursor :=
    let (digits, rest) := digitRun (max base 10) (c.skip 2)
    let isGood := !digits.isEmpty && digits.all fun x => (digitValue? base x).isSome
    if !isGood || negative || 2 ^ 64 ≤ valueOf base digits then
      let shown := String.ofList (if negative then (c.rest.drop 1).take 1 ++ digits else digits)
      (.bad (.badNumber shown), rest)
    else (.int (wrap64 (valueOf base digits)), rest)
  match c.rest with
  | '0' :: 'x' :: _ | '0' :: 'X' :: _ => based 16
  | '0' :: 'o' :: _ | '0' :: 'O' :: _ => based 8
  | '0' :: 'b' :: _ | '0' :: 'B' :: _ => based 2
  | _ =>
    let (whole, c) := digitRun 10 c
    let (part, c, hasPoint) := match c.rest with
      | '.' :: rest@(d :: _) =>
        if isDigit d then
          let (part, c) := digitRun 10 c.advance
          (part, c, true)
        else if endsAtPoint rest then ([], c.advance, true)
        else ([], c, false)
      | _ => ([], c, false)
    let (exponent, c, hasExponent) : Except Char Int × Cursor × Bool := match c.rest with
      | 'e' :: d :: _ =>
        if isDigit d then
          let (ds, c) := digitRun 10 c.advance
          (.ok (valueOf 10 ds), c, true)
        else if d = '+' || d = '-' then
          let (ds, c) := digitRun 10 (c.skip 2)
          (if ds.isEmpty then .error d
            else .ok (if d = '-' then -(valueOf 10 ds : Int) else valueOf 10 ds), c, true)
        else (.ok 0, c, false)
      | _ => (.ok 0, c, false)
    match exponent with
    | .error d =>
      let fraction := if hasPoint then '.' :: (if part.isEmpty then ['0'] else part) else []
      let shown := (if negative then ['-'] else []) ++ whole ++ fraction ++ ['e', d]
      (.bad (.badNumber (String.ofList shown)), c)
    | .ok e =>
      let n := sign (valueOf 10 whole)
      if !hasPoint && !hasExponent && fitsInt n then (.int n, c)
      else
        let x := floatOf whole part e
        (.float (if negative then -x else x), c)

/-! ### Texts -/

/-- How a text in quotes is read. -/
structure Quoting where
  mark : Char
  /-- No escapes, and line breaks stand for themselves. -/
  isVerbatim : Bool
  /-- A backslash at the end of a line joins it to the next. -/
  joinsLines : Bool
  /-- Blocks of code may stand in the text. -/
  hasBlocks : Bool

/-- What a text ended with. -/
inductive TextEnd
  | closed
  | block
  /-- The script ended before the text did. -/
  | open_
  deriving Repr, DecidableEq, Inhabited

structure TextRun where
  /-- The characters, the last one first. -/
  back : List Char := []
  size : Nat := 0
  /-- The position of the first character of the text. -/
  first : Option Position := none
  /-- Blanks in columns before this one are passed over. -/
  blanksBefore : Nat := 0

def TextRun.push (r : TextRun) (c : Char) : TextRun :=
  { r with back := c :: r.back, size := r.size + c.utf8Size, blanksBefore := 0 }

def TextRun.text (r : TextRun) : String := String.ofList r.back.reverse

/-- The character for the hexadecimal digits of an escape, or what is wrong and where. -/
def hexEscape (seq : List Char) : Nat → Nat → Cursor → Except (TokenFault × Position) (Char × Cursor)
  | 0, value, c =>
    if h : value.isValidChar then .ok (Char.ofNatAux value h, c)
    else .error (.badEscape (String.ofList seq), ⟨c.pos.line, c.pos.column - 1⟩)
  | n + 1, value, c =>
    match c.rest with
    | [] => .error (.badEscape (String.ofList seq), ⟨c.pos.line, c.pos.column - 1⟩)
    | x :: _ =>
      match digitValue? 16 x with
      | none => .error (.badEscape (String.ofList (seq ++ [x])), c.pos)
      | some d => hexEscape (seq ++ [x]) n (16 * value + d) c.advance

/-- The text up to its end.  The cursor is behind the opening mark. -/
def textBody (q : Quoting) (most : Nat) (start : Position) :
    Nat → TextRun → Cursor → Except (TokenFault × Position) (TextRun × TextEnd × Cursor)
  | 0, r, c => .ok (r, .open_, c)
  | fuel + 1, r, c =>
    let go := textBody q most start fuel
    let tooLong := most ≠ 0 && most < r.size
    match c.rest with
    | [] =>
      if q.isVerbatim then
        if tooLong then .error (.tooLong most, start) else .ok (r, .open_, c)
      else .error (.unterminated, start)
    | x :: rest =>
      if q.hasBlocks && x = '$' && rest.head? = some '{' then
        if tooLong then .error (.tooLong most, start) else .ok (r, .block, c.advance)
      else if tooLong then .error (.tooLong most, start)
      else if x = q.mark && rest.head? ≠ some q.mark then .ok (r, .closed, c.advance)
      else
        let seen := { r with first := some (r.first.getD c.pos) }
        if x = q.mark then go (seen.push x) (c.skip 2)
        else if x = '\r' && rest.head? = some '\n' then go seen c.advance
        else if x = '\\' && !q.isVerbatim then
          let c := c.advance
          match c.rest with
          | [] => .error (.unterminated, start)
          | '\\' :: _ => go (seen.push '\\') c.advance
          | 't' :: _ => go (seen.push '\t') c.advance
          | 'n' :: _ => go (seen.push '\n') c.advance
          | 'r' :: _ => go (seen.push '\r') c.advance
          | 'x' :: _ => escape seen c 'x' 2 go
          | 'u' :: _ => escape seen c 'u' 4 go
          | 'U' :: _ => escape seen c 'U' 8 go
          | y :: _ =>
            if y = '\n' && q.joinsLines then
              go { seen with blanksBefore := start.column + 1 } c.advance
            else if y = '\n' then .error (.unterminated, start)
            else if y = q.mark then go (seen.push y) c.advance
            else .error (.badEscape (String.ofList ['\\', y]), c.pos)
        else if x = '\n' && !q.isVerbatim then .error (.unterminated, start)
        else if c.pos.column < r.blanksBefore && Text.isBlank x then go seen c.advance
        else go (seen.push x) c.advance
where
  escape (seen : TextRun) (c : Cursor) (letter : Char) (digits : Nat)
      (go : TextRun → Cursor → Except (TokenFault × Position) (TextRun × TextEnd × Cursor)) :
      Except (TokenFault × Position) (TextRun × TextEnd × Cursor) :=
    match hexEscape ['\\', letter] digits 0 c.advance with
    | .error e => .error e
    | .ok (x, c) => go (seen.push x) c

/-! ### Tokens -/

structure Scan where
  cursor : Cursor
  /-- For each text around the cursor, how many braces of its block are open. -/
  open_ : List Nat := []
  /-- A minus sign belongs to the number that follows. -/
  wantsOperand : Bool := true
  /-- Whether the text around the cursor goes on here. -/
  inText : Bool := false

/-- The token for a symbol, and the number of characters it takes. -/
def symbol (c : Cursor) : Option (Token × Nat) :=
  let longest (ss : List String) : Option String := ss.find? c.startsWith
  let kept := (longest reservedSymbols).map fun s =>
    match foreignSymbols.find? (·.1 = s) with
    | some (_, reason) => (Token.bad (.improper reason), s.length)
    | none => (.reserved s, s.length)
  let own := (longest symbols).map fun s => (Token.sym s, s.length)
  match c.rest with
  | '!' :: 'i' :: 'n' :: rest =>
    if rest.head?.all (!isNameChar ·) then some (.sym "!in", 3) else some (.sym "!", 1)
  | '#' :: ' ' :: '{' :: _ =>
    some (.bad (.improper "'#' is not a valid symbol. Should it be '#\x7b'?"), 3)
  | '#' :: ' ' :: _ => some (.reserved "#", 2)
  | _ =>
    match own, kept with
    | some (t, n), some (u, m) => some (if n < m then (u, m) else (t, n))
    | some r, none | none, some r => some r
    | none, none => none

def wordToken (s : String) : Token :=
  if keywords.contains s then .sym s
  else if s = "eval" then .bad (.improper "reserved keyword 'eval' is disabled")
  else if reservedWords.contains s then .reserved s
  else if isName s then .name s
  else .bad (.badName s)

/-- The token of a text in quotes. -/
def quoted (q : Quoting) (most : Nat) (s : Scan) (start : Position) (c : Cursor) (isFirst : Bool) :
    (Token × Position) × Scan :=
  match textBody q most start (c.rest.length + 1) {} c with
  | .error (e, p) => ((.bad e, p), { s with cursor := c })
  | .ok (r, ending, c) =>
    let p := if isFirst then start else r.first.getD Position.none
    let after : Scan := { s with cursor := c, wantsOperand := false, inText := false }
    match ending with
    | .block => ((.template r.text, p), { after with open_ := 0 :: after.open_ })
    | .closed => ((.text r.text, p), after)
    | .open_ => ((.bad .unterminated, p), after)

/-- The next token.  Blanks and comments before it are passed over. -/
def nextToken (most : Nat) : Nat → Scan → (Token × Position) × Scan
  | 0, s => ((.ending, s.cursor.pos), s)
  | fuel + 1, s =>
    let c := s.cursor
    let start := c.pos
    let template : Quoting := ⟨'\x60', true, false, true⟩
    if s.inText then quoted template most s start c false
    else
      match c.rest with
      | [] => ((.ending, start), s)
      | '"' :: _ => quoted ⟨'"', false, true, false⟩ most s start c.advance true
      | '\x60' :: rest =>
        let c := c.advance
        let c : Cursor := match rest with
          | '\r' :: '\n' :: rest => ⟨rest, ⟨start.line + 1, 1⟩⟩
          | '\r' :: rest | '\n' :: rest => ⟨rest, ⟨start.line + 1, 1⟩⟩
          | _ => c
        quoted template most s start c true
      | '\'' :: '\'' :: _ => ((.bad (.badChar ""), start), s)
      | '\'' :: _ =>
        match quoted ⟨'\'', false, false, false⟩ 0 s start c.advance true with
        | ((.text t, p), s) =>
          match t.toList with
          | [x] => ((.char x, p), s)
          | _ => ((.bad (.badChar t), p), s)
        | r => r
      | '/' :: '/' :: rest =>
        nextToken most fuel { s with cursor := skipLine ⟨rest, ⟨start.line, start.column + 2⟩⟩ rest }
      | '/' :: '*' :: rest =>
        nextToken most fuel { s with cursor := skipNested 1 ⟨start.line, start.column + 2⟩ rest }
      | x :: rest =>
        let found (t : Token) (c : Cursor) : (Token × Position) × Scan :=
          ((t, start), { s with cursor := c, wantsOperand := opensOperand t })
        if isDigit x then
          let (t, c) := number false c
          found t c
        else if x = '-' && s.wantsOperand && rest.head?.any isDigit then
          let (t, c) := number true c.advance
          found t c
        else if isLetter x || x = '_' then
          let (run, c) := c.span isNameChar
          found (wordToken (String.ofList run)) c
        else if Text.isBlank x then nextToken most fuel { s with cursor := c.advance }
        else
          match symbol c with
          | none => found (.bad (.unexpected x.toString)) c
          | some (t, n) =>
            let (r, s) := found t (c.skip n)
            match t, s.open_ with
            | .sym "\x7b", k :: ks | .sym "#\x7b", k :: ks => (r, { s with open_ := (k + 1) :: ks })
            | .sym "\x7d", k :: ks =>
              if k ≤ 1 then (r, { s with open_ := ks, inText := true })
              else (r, { s with open_ := (k - 1) :: ks })
            | _, _ => (r, s)

/-- All tokens up to the ending or the first one that is bad. -/
def tokens (most : Nat) : Nat → Scan → List (Token × Position)
  | 0, s => [(.ending, s.cursor.pos)]
  | fuel + 1, s =>
    let (r, s) := nextToken most (s.cursor.rest.length + 1) s
    match r.1 with
    | .ending => [r]
    | .bad _ => [r, (.ending, s.cursor.pos)]
    | _ => r :: tokens most fuel s

/-- The tokens of a script, in which no text may be longer than the limit, if there is one. -/
def Token.scan (most : Nat) (source : String) : List (Token × Position) :=
  tokens most (source.length + 2) ⟨⟨source.toList, Position.start⟩, [], true, false⟩

end PluginChain.Script
