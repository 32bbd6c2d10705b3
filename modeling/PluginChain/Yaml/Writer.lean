import PluginChain.Yaml.Meaning

/-!
# Writing YAML

Data as a YAML document, an entry a line and two spaces for each level; the items of a list stand at the
column of the name in front of them.  A text is written plain where that reads back as the same text,
between single quotes where it does not, as a block of lines where it has several, and between double
quotes where it holds what the other forms cannot show.

* `Traits` are the properties of a text that decide between these forms (`styleOf`).
* Every piece of output starts on a line that is already indented; `onto` goes on to the next line.
-/

set_option autoImplicit false

namespace PluginChain.Yaml

/-! ## Which form a text takes -/

/-- The characters that a text shows as they are. -/
def isShown (c : Char) : Bool :=
  let n := c.toNat
  n == 0x0A || (0x20 ≤ n && n ≤ 0x7E) || (0xA0 ≤ n && n ≤ 0xFFFD && n != 0xFEFF) || 0x10000 ≤ n

def isGapChar (c : Char) : Bool := isBlank c || isBreak c

/-- Whether a character at its place would be read as more than text, given whether it stands first and
whether blanks stand around it. -/
def isIndicator (c : Char) (isFirst afterGap beforeGap : Bool) : Bool :=
  if isFirst then
    ['#', ',', '[', ']', '\x7b', '\x7d', '&', '*', '!', '|', '>', '\'', '\"', '%', '@', '\x60'].contains c ||
      (['?', ':', '-'].contains c && beforeGap)
  else (c = ':' && beforeGap) || (c = '#' && afterGap)

/-- What decides the form of a text. -/
structure Traits where
  isMultiline : Bool
  plainAllowed : Bool
  singleAllowed : Bool
  blockAllowed : Bool

/-- Each character with the one before it and the one behind it. -/
def withNeighbours : Option Char → List Char → List (Option Char × Char × Option Char)
  | _, [] => []
  | before, c :: rest => (before, c, rest.head?) :: withNeighbours (some c) rest

def Traits.of (s : String) : Traits :=
  let cs := s.toList
  let ns := withNeighbours none cs
  let isSpace (c : Option Char) : Bool := c = some ' '
  let isBrk (c : Option Char) : Bool := c.any isBreak
  let isEdge (p : Option Char → Bool) : Bool := p cs.head? || p cs.getLast?
  let indicator := ns.any fun (before, c, after) =>
    isIndicator c before.isNone (before.all isGapChar) (after.all isGapChar)
  let documentMark := ['-', '-', '-'].isPrefixOf cs || ['.', '.', '.'].isPrefixOf cs
  let isMultiline := cs.any isBreak
  let breakSpace := ns.any fun (before, c, _) => isBrk before && c = ' '
  let spaceBreak := ns.any fun (before, c, _) => isSpace before && isBreak c
  let special := cs.any (!isShown ·)
  { isMultiline
    plainAllowed := !(indicator || documentMark || isMultiline || special || isEdge isSpace)
    singleAllowed := !(breakSpace || spaceBreak || special)
    blockAllowed := !(spaceBreak || special || isSpace cs.getLast?) }

/-- Whether a plain text would be read as something else than a text. -/
def isAmbiguous (s : String) : Bool :=
  match Meaning.ofPlain s with
  | .text _ => isZeroPadded s.toList
  | _ => true

/-- The form of a text; the name of an entry stands on one line unless it is marked by a `?`. -/
def styleOf (s : String) (isSimpleKey : Bool) : Style :=
  let t := Traits.of s
  if s.toList.contains '\n' then
    if t.blockAllowed && !isSimpleKey then .literal else .double
  else if !isAmbiguous s && t.plainAllowed then .plain
  else if t.singleAllowed then .single
  else .double

/-! ## The forms -/

def spaces (n : Nat) : List Char := List.replicate n ' '

/-- A character of a double-quoted text. -/
def escapedChar (c : Char) : List Char :=
  let n := c.toNat
  let digit (k : Nat) : Char := if k < 10 then Char.ofNat (48 + k) else Char.ofNat (55 + k)
  let hex (letter : Char) (width : Nat) : List Char :=
    '\\' :: letter :: (List.range width).map fun i => digit (n / Nat.pow 16 (width - 1 - i) % 16)
  if isShown c && !isBreak c && c != '\"' && c != '\\' then [c]
  else
    match c with
    | '\x00' => ['\\', '0']
    | '\x07' => ['\\', 'a']
    | '\x08' => ['\\', 'b']
    | '\t' => ['\\', 't']
    | '\n' => ['\\', 'n']
    | '\x0b' => ['\\', 'v']
    | '\x0c' => ['\\', 'f']
    | '\r' => ['\\', 'r']
    | '\x1b' => ['\\', 'e']
    | '\"' => ['\\', '\"']
    | '\\' => ['\\', '\\']
    | '\u0085' => ['\\', 'N']
    | '\u2028' => ['\\', 'L']
    | '\u2029' => ['\\', 'P']
    | _ => if n ≤ 0xFF then hex 'x' 2 else if n ≤ 0xFFFF then hex 'u' 4 else hex 'U' 8

/-- Lines at an indentation, where the first one starts at the left edge. -/
def indented (indent : Nat) : Bool → List Char → List Char
  | _, [] => []
  | atEdge, c :: rest =>
    if isBreak c then c :: indented indent true rest
    else (if atEdge then spaces indent else []) ++ c :: indented indent false rest

/-- How a block of lines starts: whether its indentation must be told, and what becomes of its end. -/
def blockHints (cs : List Char) : List Char :=
  let lead := if cs.head?.any (fun c => c = ' ' || isBreak c) then ['2'] else []
  let tail := match cs.reverse with
    | [] => ['-']
    | last :: before =>
      if !isBreak last then ['-']
      else if before.head?.all isBreak then ['+']
      else []
  lead ++ tail

/-- A text in a form; the lines behind the first are indented. -/
def formOf (indent : Nat) (style : Style) (s : String) : List Char :=
  let cs := s.toList
  match style with
  | .plain => cs
  | .single =>
    let doubled := cs.flatMap fun c => if c = '\'' then ['\'', '\''] else [c]
    let tail := if cs.getLast?.any isBreak then spaces indent else []
    '\'' :: (indented indent false doubled ++ tail ++ ['\''])
  | .double => '\"' :: (cs.flatMap escapedChar ++ ['\"'])
  | .literal | .folded => '|' :: (blockHints cs ++ '\n' :: indented indent true cs)

/-! ## Collections -/

/-- Goes on to a new line at an indentation. -/
def onto (indent : Nat) (before next : List Char) : List Char :=
  before ++ (if before.getLast? = some '\n' then [] else ['\n']) ++ spaces indent ++ next

/-- Whether the name of an entry fits in front of its colon. -/
def isSimpleKey (s : String) : Bool := !(Traits.of s).isMultiline && s.utf8ByteSize ≤ 128

/-- A value that stands on the line of what is in front of it. -/
def inline? (indent : Nat) : Data → Option (List Char)
  | .null => some "null".toList
  | .flag b => some (toString b).toList
  | .int n => some (toString n).toList
  | .float x => some (floatText x).toList
  | .text s => some (formOf indent (styleOf s false) s)
  | .list [] => some ['[', ']']
  | .table [] => some ['\x7b', '\x7d']
  | _ => none
where
  floatText (x : Float) : String :=
    if x.isNaN then ".nan" else if x.isInf then (if x < 0 then "-.inf" else ".inf")
    else floatLayout.render x
  /-- Around a point from 1e-5 up to 1e16, else with an exponent without a plus sign. -/
  floatLayout : Decimal.Layout := ⟨some (-5), some 16, true, false, 1, "inf", "NaN"⟩

mutual

/-- A collection whose parts start at a column, the first of them on the current line. -/
def collection (indent : Nat) : Data → List Char
  | .list xs => listItems indent xs
  | .table es => tableEntries indent es
  | d => (inline? indent d).getD []

def listItems (indent : Nat) : List Data → List Char
  | [] => []
  | x :: xs =>
    let item := '-' :: ' ' :: (match inline? (indent + 2) x with
      | some cs => cs
      | none => collection (indent + 2) x)
    if xs.isEmpty then item else onto indent item (listItems indent xs)

def tableEntries (indent : Nat) : List (String × Data) → List Char
  | [] => []
  | (name, d) :: es =>
    let isSimple := isSimpleKey name
    let key := formOf (indent + 2) (styleOf name isSimple) name
    let lead := if isSimple then key ++ [':'] else onto indent ('?' :: ' ' :: key) [':']
    let entry := match inline? (indent + 2) d with
      | some cs => lead ++ ' ' :: cs
      | none =>
        if !isSimple then lead ++ ' ' :: collection (indent + 2) d
        else
          match d with
          | .list xs => onto indent lead (listItems indent xs)
          | d => onto (indent + 2) lead (collection (indent + 2) d)
    if es.isEmpty then entry else onto indent entry (tableEntries indent es)

end

/-- Data as a document. -/
def write (d : Data) : String :=
  let cs := match inline? 2 d with
    | some cs => cs
    | none => collection 0 d
  String.ofList (if cs.getLast? = some '\n' then cs else cs ++ ['\n'])

end PluginChain.Yaml
