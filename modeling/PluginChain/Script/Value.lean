import PluginChain.Data
import PluginChain.Limits
import PluginChain.Text.Quoted

/-!
# Values of a script

A `Value` is what a script computes with.  `Value.ofData` brings a document in and
`Value.toData?` takes a result out; a function, a range or a point in time has no data.  `shown` is
the text a script prints, `sizes` counts what the limits of the sandbox are about.
-/

set_option autoImplicit false

namespace PluginChain.Script

/-- What is stepped through one element at a time, and is no list. -/
inductive Series
  | ints (first stop step : Int)
  | floats (first stop step : Float)
  | chars (cs : List Char)
  | bits (bs : List Bool)
  deriving Repr, Inhabited

inductive Value
  | unit
  | flag (b : Bool)
  | int (n : Int)
  | float (x : Float)
  | char (c : Char)
  | text (s : String)
  | list (items : List Value)
  | table (entries : List (String × Value))
  /-- A function by its name, with the arguments it already has. -/
  | function (name : String) (bound : List Value)
  /-- The numbers from the first to the last; the last one itself may be left out. -/
  | range (first last : Int) (isClosed : Bool)
  | series (s : Series)
  /-- A point in time, counted in nanoseconds. -/
  | moment (nanos : Nat)
  /-- The place of a variable that closures share. -/
  | cell (place : Nat)
  deriving Inhabited

/-! ## Names of types -/

def Series.typeName : Series → String
  | .ints .. => "packages::iter_basic::StepRange<i64>"
  | .floats .. => "packages::iter_basic::StepRange<f64>"
  | .chars _ => "packages::iter_basic::CharsStream"
  | .bits _ => "packages::iter_basic::BitRange"

namespace Value

/-- The name a script is told. -/
def typeName : Value → String
  | .unit => "()"
  | .flag _ => "bool"
  | .int _ => "i64"
  | .float _ => "f64"
  | .char _ => "char"
  | .text _ => "string"
  | .list _ => "array"
  | .table _ => "map"
  | .function .. => "Fn"
  | .range _ _ false => "range"
  | .range _ _ true => "range="
  | .series s => Series.typeName s
  | .moment _ => "timestamp"
  | .cell _ => "()"

/-- The name where a value has the wrong type. -/
def actualTypeName : Value → String
  | .range _ _ false => "core::ops::range::Range<i64>"
  | .range _ _ true => "core::ops::range::RangeInclusive<i64>"
  | v => v.typeName

/-- The name where a value has no data. -/
def outputTypeName : Value → String
  | .range _ _ false => "Range<i64>"
  | .range _ _ true => "RangeInclusive<i64>"
  | v => v.typeName

/-- The name in the signature of a call. -/
def argumentTypeName : Value → String
  | .text _ => "&str | ImmutableString | String"
  | v => v.typeName

/-! ## Texts -/

/-- The text of a double by itself.  The bounds of what is written without an exponent are ten
trillion and its inverse in single precision. -/
def floatText (x : Float) : String :=
  if x == 0.0 then "0.0"
  else if 9999999827968.0 < x.abs || x.abs < 9.999999824516700e-14 then Decimal.exponential.render x
  else Decimal.Layout.render ⟨none, none, true, false, 1, "inf", "NaN"⟩ x

/-- The text of a double in a list or a table. -/
def floatDetail (x : Float) : String :=
  Decimal.Layout.render ⟨some (-4), some 16, true, false, 1, "inf", "NaN"⟩ x

def rangeText (first last : Int) (isClosed : Bool) : String :=
  let dots := if isClosed then "..=" else ".."
  if last = 2 ^ 63 - 1 then s!"{first}{dots}" else s!"{first}{dots}{last}"

/-- A character between apostrophes. -/
def charQuoted (c : Char) : String :=
  let cs := if c = '"' then ['"'] else if c = '\'' then ['\\', '\''] else Text.shownChar c
  String.ofList ('\'' :: cs ++ ['\''])

mutual

/-- The text of a value with its marks, as it stands in a list. -/
def detail (quotesChars : Bool) : Value → String
  | .unit => "()"
  | .flag b => toString b
  | .int n => toString n
  | .float x => floatDetail x
  | .char c => if quotesChars then charQuoted c else c.toString
  | .text s => Text.quoted s
  | .list items => "[" ++ ", ".intercalate (details quotesChars items) ++ "]"
  | .table entries => "#\x7b" ++ ", ".intercalate (entryDetails quotesChars entries) ++ "\x7d"
  | .function name _ => s!"Fn({name})"
  | .range first last isClosed => rangeText first last isClosed
  | .series s => Series.typeName s
  | .moment _ => "<timestamp>"
  | .cell _ => "()"

def details (quotesChars : Bool) : List Value → List String
  | [] => []
  | v :: rest => detail quotesChars v :: details quotesChars rest

def entryDetails (quotesChars : Bool) : List (String × Value) → List String
  | [] => []
  | (k, v) :: rest =>
    (Text.quoted k ++ ": " ++ detail quotesChars v) :: entryDetails quotesChars rest

end

/-- The text that is printed for a value. -/
def shown : Value → String
  | .unit => ""
  | .float x => floatText x
  | .text s => s
  | v => v.detail false

/-- The text of a value that was thrown. -/
def thrownText : Value → String
  | .char c => c.toString
  | .list items => (Value.list items).detail true
  | .table entries => (Value.table entries).detail true
  | v => v.shown

/-! ## Sizes -/

/-- How many elements of lists, entries of tables and bytes of texts a value has. -/
structure Sizes where
  items : Nat := 0
  entries : Nat := 0
  bytes : Nat := 0

mutual

/-- Adds the sizes of a value to others. -/
def addSizes : Value → Sizes → Sizes
  | .text s, z => { z with bytes := z.bytes + s.utf8ByteSize }
  | .list items, z => addItemSizes items z
  | .table entries, z => addEntrySizes entries z
  | _, z => z

def addItemSizes : List Value → Sizes → Sizes
  | [], z => z
  | v :: rest, z => addItemSizes rest (addSizes v { z with items := z.items + 1 })

def addEntrySizes : List (String × Value) → Sizes → Sizes
  | [], z => z
  | (_, v) :: rest, z => addEntrySizes rest (addSizes v { z with entries := z.entries + 1 })

end

def sizes (v : Value) : Sizes := v.addSizes {}

/-- What about the sizes is over the limits. -/
def Sizes.excess? (z : Sizes) (l : Limits) : Option String :=
  let exceeds (most n : Nat) : Bool := most ≠ 0 && most < n
  if exceeds l.textSize z.bytes then some "Length of string"
  else if exceeds l.listSize z.items then some "Size of array/BLOB"
  else if exceeds l.tableSize z.entries then some "Size of object map"
  else none

/-! ## Data -/

mutual

/-- Data as a value.  An integer of more than 64 bits with sign becomes a double. -/
def ofData : Data → Value
  | .null => .unit
  | .flag b => .flag b
  | .int n => if n < 2 ^ 63 then .int n else .float (Decimal.ofInt n)
  | .float x => .float x
  | .text s => .text s
  | .list items => .list (ofItems items)
  | .table entries => .table (ofEntries entries)

def ofItems : List Data → List Value
  | [] => []
  | d :: rest => ofData d :: ofItems rest

def ofEntries : List (String × Data) → List (String × Value)
  | [] => []
  | (k, d) :: rest => (k, ofData d) :: ofEntries rest

end

mutual

/-- The data of a value, or the first part of it that has none. -/
def toData? : Value → Except Value Data
  | .unit => .ok .null
  | .flag b => .ok (.flag b)
  | .int n => .ok (.int n)
  | .float x => .ok (if x.isNaN || x.isInf then .null else .float x)
  | .char c => .ok (.text c.toString)
  | .text s => .ok (.text s)
  | .list items => (toItems? items).map .list
  | .table entries => (toEntries? entries).map .table
  | v => .error v

def toItems? : List Value → Except Value (List Data)
  | [] => .ok []
  | v :: rest =>
    match toData? v with
    | .error e => .error e
    | .ok d => (toItems? rest).map (d :: ·)

def toEntries? : List (String × Value) → Except Value (List (String × Data))
  | [] => .ok []
  | (k, v) :: rest =>
    match toData? v with
    | .error e => .error e
    | .ok d => (toEntries? rest).map ((k, d) :: ·)

end

/-! ## Parts -/

/-- The range between two numbers.  A missing end is zero or the greatest number. -/
def rangeOf? (op : String) (first last : Value) : Option Value :=
  let closed? := if op = ".." then some false else if op = "..=" then some true else none
  closed?.bind fun isClosed =>
    match first, last with
    | .int a, .int b => some (.range a b isClosed)
    | .int a, .unit => some (.range a (2 ^ 63 - 1) isClosed)
    | .unit, .int b => some (.range 0 b isClosed)
    | .unit, .unit => some (.range 0 (2 ^ 63 - 1) isClosed)
    | _, _ => none

def int? : Value → Option Int
  | .int n => some n
  | _ => none

def isUnit : Value → Bool
  | .unit => true
  | _ => false

/-- Whether a value is a text, a character or nothing at all. -/
def isTextual : Value → Bool
  | .text _ | .char _ | .unit => true
  | _ => false

def isCell : Value → Bool
  | .cell _ => true
  | _ => false

/-- A value is true only if it is the flag. -/
def isTrue : Value → Bool
  | .flag true => true
  | _ => false

end Value

end PluginChain.Script
