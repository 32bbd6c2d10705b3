import PluginChain.Json.Cursor

/-!
# Writing JSON

Data as JSON text, on one line or with an entry a line and two spaces for each level.  Entries are
written in the order they have.  A double is written so that it reads back as the same double, and what
is no finite number is written as nothing.
-/

set_option autoImplicit false

namespace PluginChain.Json

/-- Two hexadecimal digits. -/
def hexByte (n : Nat) : List Char :=
  let digit (k : Nat) : Char := if k < 10 then Char.ofNat (48 + k) else Char.ofNat (87 + k)
  [digit (n / 16), digit (n % 16)]

/-- A character as it stands in a string. -/
def escaped (c : Char) : List Char :=
  match c with
  | '\"' => ['\\', '\"']
  | '\\' => ['\\', '\\']
  | '\n' => ['\\', 'n']
  | '\r' => ['\\', 'r']
  | '\t' => ['\\', 't']
  | '\x08' => ['\\', 'b']
  | '\x0c' => ['\\', 'f']
  | c => if c.toNat < 0x20 then '\\' :: 'u' :: '0' :: '0' :: hexByte c.toNat else [c]

/-- A text in quotes. -/
def quoted (s : String) : String :=
  String.ofList ('\"' :: (s.toList.flatMap escaped ++ ['\"']))

/-- The text of a double. -/
def floatText (x : Float) : String :=
  if x.isNaN || x.isInf then "null" else layout.render x

mutual

/-- Data on one line. -/
def compact : Data → String
  | .null => "null"
  | .flag b => if b then "true" else "false"
  | .int n => toString n
  | .float x => floatText x
  | .text s => quoted s
  | .list xs => "[" ++ ",".intercalate (compactItems xs) ++ "]"
  | .table es => "\x7b" ++ ",".intercalate (compactEntries es) ++ "\x7d"

def compactItems : List Data → List String
  | [] => []
  | x :: xs => compact x :: compactItems xs

def compactEntries : List (String × Data) → List String
  | [] => []
  | (n, x) :: es => (quoted n ++ ":" ++ compact x) :: compactEntries es

end

/-- The lines of a bracket, behind one another. -/
def block (opening closing : String) (level : Nat) (parts : List String) : String :=
  let indent (n : Nat) : String := String.ofList (List.replicate (2 * n) ' ')
  if parts.isEmpty then opening ++ closing
  else
    opening ++ "\n" ++ ",\n".intercalate (parts.map (indent (level + 1) ++ ·)) ++ "\n" ++
      indent level ++ closing

mutual

/-- Data over several lines, its first line at a level of nesting. -/
def prettyAt : Nat → Data → String
  | _, .null => "null"
  | _, .flag b => if b then "true" else "false"
  | _, .int n => toString n
  | _, .float x => floatText x
  | _, .text s => quoted s
  | level, .list xs => block "[" "]" level (prettyItems (level + 1) xs)
  | level, .table es => block "\x7b" "\x7d" level (prettyEntries (level + 1) es)

def prettyItems : Nat → List Data → List String
  | _, [] => []
  | level, x :: xs => prettyAt level x :: prettyItems level xs

def prettyEntries : Nat → List (String × Data) → List String
  | _, [] => []
  | level, (n, x) :: es => (quoted n ++ ": " ++ prettyAt level x) :: prettyEntries level es

end

/-- Data over several lines. -/
def pretty (d : Data) : String := prettyAt 0 d

end PluginChain.Json
