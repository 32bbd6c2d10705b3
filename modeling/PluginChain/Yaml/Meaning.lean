import PluginChain.Yaml.Event
import PluginChain.Decimal.Layout

/-!
# What scalars mean

A plain scalar stands for nothing, a flag, a number, or else for its own text; a quoted one stands for
its text.  Numbers are decimal, or in base sixteen, eight or two behind `0x`, `0o` and `0b`.  Digits
that start with a zero are a text.  A tag of the standard kind can ask for one of these meanings.
-/

set_option autoImplicit false

namespace PluginChain.Yaml

inductive Meaning
  | null
  | flag (b : Bool)
  | int (n : Int)
  | float (x : Float)
  | text (s : String)

def isNull (s : String) : Bool := s = "null" || s = "Null" || s = "NULL" || s = "~"

def flag? (s : String) : Option Bool :=
  if s = "true" || s = "True" || s = "TRUE" then some true
  else if s = "false" || s = "False" || s = "FALSE" then some false
  else none

/-- Digits behind a leading zero, which are no number. -/
def isZeroPadded (cs : List Char) : Bool :=
  let cs := match cs with
    | '-' :: rest | '+' :: rest => rest
    | _ => cs
  match cs with
  | '0' :: rest => !rest.isEmpty && rest.all isDigit
  | _ => false

/-- The number written in digits of a base. -/
def digitsIn? (base : Nat) (cs : List Char) : Option Nat :=
  if cs.isEmpty then none
  else cs.foldlM (fun n c => (hexValue? c).bind fun d => if d < base then some (base * n + d) else none) 0

/-- The base that a number names, and its digits. -/
def based? : List Char → Option (Nat × List Char)
  | '0' :: 'x' :: rest => some (16, rest)
  | '0' :: 'o' :: rest => some (8, rest)
  | '0' :: 'b' :: rest => some (2, rest)
  | _ => none

/-- A number without its sign, where `whole` is the scalar with it. -/
def unsigned? (whole cs : List Char) : Option Nat :=
  ((based? cs).bind fun (base, ds) => digitsIn? base ds) <|>
    (if isZeroPadded whole then none else digitsIn? 10 cs)

/-- The greatest numbers that are told apart from doubles. -/
def fitsWide (n : Int) : Bool := -(2 ^ 127) ≤ n && n < 2 ^ 128

/-- A natural number below 2 ^ 64, perhaps behind a plus sign. -/
def natural? (s : String) : Option Nat :=
  let cs := s.toList
  let n? := match cs with
    | '+' :: rest => unsigned? cs rest
    | _ => unsigned? cs cs
  n?.filter (· < 2 ^ 64)

/-- A whole number of up to 128 bits. -/
def int? (s : String) : Option Int :=
  let cs := s.toList
  let n? : Option Int := match cs with
    | '-' :: rest => (unsigned? cs rest).map fun n => -(n : Int)
    | '+' :: rest => (unsigned? cs rest).map Int.ofNat
    | _ => (unsigned? cs cs).map Int.ofNat
  n?.filter fitsWide

/-- A decimal with a point, an exponent, or neither: its digits as a number and a power of ten. -/
def decimal? (cs : List Char) : Option (Nat × Int) :=
  let whole := cs.takeWhile isDigit
  let rest := cs.drop whole.length
  let (places, rest) := match rest with
    | '.' :: more => (more.takeWhile isDigit, more.dropWhile isDigit)
    | _ => ([], rest)
  let value (ds : List Char) : Nat := ds.foldl (fun n d => 10 * n + (d.toNat - 48)) 0
  let scaled (e : Int) : Option (Nat × Int) :=
    if whole.isEmpty && places.isEmpty then none
    else some (value (whole ++ places), e - places.length)
  let exponent? (down : Bool) (ds : List Char) : Option (Nat × Int) :=
    if ds.isEmpty || !ds.all isDigit then none
    else scaled (if down then -(value ds : Int) else value ds)
  match rest with
  | [] => scaled 0
  | e :: more =>
    if e = 'e' || e = 'E' then
      match more with
      | '+' :: ds => exponent? false ds
      | '-' :: ds => exponent? true ds
      | ds => exponent? false ds
    else none

/-- The double nearest `n · 10 ^ e`.  Exponents far beyond the doubles are cut first. -/
def nearest (n : Nat) (e : Int) : Float :=
  if n = 0 then 0.0
  else
    let places : Int := (Nat.log2 n : Int) * 3 / 10
    if 400 < places + e then 1.0 / 0.0
    else if places + e < -400 then 0.0
    else if 0 ≤ e then Float.ofScientific n false e.toNat
    else Float.ofScientific n true e.natAbs

/-- A finite double written as a decimal. -/
def finite? (cs : List Char) : Option Float :=
  let (negative, body) := match cs with
    | '-' :: rest => (true, rest)
    | '+' :: rest => (false, rest)
    | _ => (false, cs)
  (decimal? body).bind fun (n, e) =>
    let x := nearest n e
    if x.isInf then none else some (if negative then -x else x)

/-- A double, the words for what is not finite included. -/
def float? (s : String) : Option Float :=
  let unsigned := if s.startsWith "+" then String.ofList (s.toList.drop 1) else s
  if [".inf", ".Inf", ".INF"].contains unsigned then some (1.0 / 0.0)
  else if ["-.inf", "-.Inf", "-.INF"].contains s then some (-1.0 / 0.0)
  else if [".nan", ".NaN", ".NAN"].contains s then some (0.0 / 0.0)
  else
    match s.toList with
    | '+' :: '+' :: _ | '+' :: '-' :: _ => none
    | cs => finite? cs

/-- What a plain scalar stands for. -/
def Meaning.ofPlain (s : String) : Meaning :=
  if s.isEmpty || isNull s then .null
  else
    match flag? s with
    | some b => .flag b
    | none =>
      match int? s with
      | some n => .int n
      | none =>
        match (if isZeroPadded s.toList then none else float? s) with
        | some x => .float x
        | none => .text s

/-- The names of the standard kinds of scalars. -/
def flagTag : String := "tag:yaml.org,2002:bool"
def intTag : String := "tag:yaml.org,2002:int"
def floatTag : String := "tag:yaml.org,2002:float"
def nullTag : String := "tag:yaml.org,2002:null"

/-- What a scalar stands for, or what its tag asks for in vain. -/
def Meaning.ofScalar (tag : Option String) (style : Style) (s : String) : Except Mismatch Meaning :=
  let refuse (expected : String) : Except Mismatch Meaning := .error (.value (.text s) expected)
  let untagged : Meaning := if style = .plain then .ofPlain s else .text s
  match tag with
  | none => .ok untagged
  | some t =>
    if t = flagTag then
      match flag? s with
      | some b => .ok (.flag b)
      | none => refuse "a boolean"
    else if t = intTag then
      match int? s with
      | some n => .ok (.int n)
      | none => refuse "an integer"
    else if t = floatTag then
      match float? s with
      | some x => .ok (.float x)
      | none => refuse "a float"
    else if t = nullTag then
      if isNull s then .ok .null else refuse "null"
    else if t.startsWith "!" then .ok untagged
    else .ok (.text s)

/-- How messages show a double: all its digits around a point. -/
def layout : Decimal.Layout := ⟨none, none, true, false, 1, "inf", "NaN"⟩

/-- Whether 64 bits hold a number, signed or not. -/
def fits64 (n : Int) : Bool := -(2 ^ 63) ≤ n && n < 2 ^ 64

def foundInt (n : Int) : Found :=
  if fits64 n then .int n
  else .other (s!"integer `{n}` as " ++ if n < 0 then "i128" else "u128")

def Meaning.found : Meaning → Found
  | .null => .nothing "unit value"
  | .flag b => .flag b
  | .int n => foundInt n
  | .float x => .float (layout.render x)
  | .text s => .text s

/-- What was found in a tree that was read whole. -/
def foundOf : Data → Found
  | .null => .nothing "unit value"
  | .flag b => .flag b
  | .int n => foundInt n
  | .float x => .float (layout.render x)
  | .text s => .text s
  | .list _ => .list
  | .table _ => .table

/-- The name behind the exclamation mark of a tag of one's own. -/
def variant? (tag : Option String) : Option String :=
  tag.bind fun t =>
    match t.toList with
    | ['!'] => some "!"
    | '!' :: name => some (String.ofList name)
    | _ => none

end PluginChain.Yaml
