import PluginChain.Script.Library.Answer
import PluginChain.Text.Blank

/-!
# The library on numbers
-/

set_option autoImplicit false

namespace PluginChain.Script.Library

def lesser (x y : Value) (xFirst : Bool) : Value := if xFirst then x else y

/-- The least or the greatest of two values of one kind. -/
def extreme? (name : String) (x y : Value) : LibraryReply :=
  let pick (v w : Value) (vLeast vGreatest : Bool) : LibraryReply :=
    match name with
    | "min" => gives (lesser v w vLeast)
    | "max" => gives (lesser v w vGreatest)
    | _ => none
  let floats (a b : Float) : LibraryReply := pick (.float a) (.float b) (a <= b) (b <= a)
  match x, y with
  | .int a, .int b => pick x y (a ≤ b) (b ≤ a)
  | .float a, .float b => floats a b
  | .int a, .float b => floats (Decimal.ofInt a) b
  | .float a, .int b => floats a (Decimal.ofInt b)
  | .char a, .char b => pick x y (a ≤ b) (b ≤ a)
  | .text a, .text b => pick x y (a ≤ b) (b ≤ a)
  | .text a, .char b => pick x (.text b.toString) (a ≤ b.toString) (b.toString ≤ a)
  | .char a, .text b => pick (.text a.toString) y (a.toString ≤ b) (b ≤ a.toString)
  | _, _ => none

/-- The digits of an integer as a word of 64 bits. -/
def digitsIn (base : Nat) (n : Int) : Value :=
  .text (String.ofList (Nat.toDigits base (Integer.word n).toNat))

/-- The integers from one to another in steps. -/
def steps (first stop step : Int) : Except Fault Value :=
  if step = 0 then
    .error (.inCall "range" (.refused "step value cannot be zero") Position.none)
  else .ok (.series (.ints first stop step))

def floatSteps (first stop step : Float) : Except Fault Value :=
  if step == 0.0 then
    .error (.inCall "range" (.refused "step value cannot be zero") Position.none)
  else .ok (.series (.floats first stop step))

def bitsOf (n : Int) : List Bool :=
  (List.range 64).map fun i => (Integer.word n >>> i.toUInt64) &&& 1 == 1

def onInt (name : String) (n : Int) (args : List Value) : LibraryReply :=
  let bits := bitsOf n
  match name, args with
  | "abs", [] =>
    some ((Integer.checked s!"Negation overflow: -{n}" n.natAbs).map .value)
  | "sign", [] => gives (.int n.sign)
  | "is_zero", [] => gives (.flag (n = 0))
  | "is_odd", [] => gives (.flag (n % 2 ≠ 0))
  | "is_even", [] => gives (.flag (n % 2 = 0))
  | "to_int", [] => gives (.int n)
  | "to_float", [] => gives (.float (Decimal.ofInt n))
  | "to_hex", [] => gives (digitsIn 16 n)
  | "to_octal", [] => gives (digitsIn 8 n)
  | "to_binary", [] => gives (digitsIn 2 n)
  | "sleep", [] => gives .unit
  | "range", [.int m] => gives (.range n m false)
  | "range", [.int m, .int step] => some ((steps n m step).map .value)
  | "bits", [] => gives (.series (.bits bits))
  | "bits", args =>
    (stretchOf? 64 args).bind fun (start, count) =>
      gives (.series (.bits ((bits.drop start).take count)))
  | _, _ => none

/-- The greatest integer of 64 bits and the least one as doubles. -/
def intBound : Float := 9223372036854775808.0

def truncated (x : Float) : Float := if x < 0.0 then x.ceil else x.floor

/-- The integer part of a double. -/
def intOf (x : Float) : Except Fault Value :=
  if intBound < x || x < -intBound then
    .error (.arithmetic s!"Integer overflow: to_int({Decimal.plain.render x})")
  else
    let n := (Decimal.toInt? x).getD 0
    .ok (.int (if 2 ^ 63 ≤ n then 2 ^ 63 - 1 else n))

/-- Functions of a double that give a double. -/
def floatFunctions : List (String × (Float → Float)) := [
  ("sin", Float.sin), ("cos", Float.cos), ("tan", Float.tan), ("sinh", Float.sinh),
  ("cosh", Float.cosh), ("tanh", Float.tanh), ("asin", Float.asin), ("acos", Float.acos),
  ("atan", Float.atan), ("asinh", Float.asinh), ("acosh", Float.acosh), ("atanh", Float.atanh),
  ("to_degrees", fun x => x * (180.0 / 3.141592653589793)),
  ("to_radians", fun x => x * (3.141592653589793 / 180.0)),
  ("sqrt", Float.sqrt), ("exp", Float.exp), ("ln", Float.log), ("log", Float.log10),
  ("floor", Float.floor), ("ceiling", Float.ceil), ("round", Float.round), ("int", truncated),
  ("fraction", fun x => x - truncated x), ("abs", Float.abs), ("to_float", id)]

def onFloat (name : String) (x : Float) (args : List Value) : LibraryReply :=
  match name, args with
  | "sign", [] =>
    if x.isNaN then refuses (.arithmetic "Sign of NaN is undefined")
    else gives (.int (if x == 0.0 then 0 else if x < 0.0 then -1 else 1))
  | "is_zero", [] => gives (.flag (x == 0.0))
  | "is_nan", [] => gives (.flag x.isNaN)
  | "is_finite", [] => gives (.flag x.isFinite)
  | "is_infinite", [] => gives (.flag x.isInf)
  | "to_int", [] => some ((intOf x).map .value)
  | "hypot", [.float y] => gives (.float (x * x + y * y).sqrt)
  | "atan", [.float y] => gives (.float (Float.atan2 x y))
  | "log", [.float base] => gives (.float (x.log / base.log))
  | "sleep", [] => gives .unit
  | "range", [.float y, .float step] => some ((floatSteps x y step).map .value)
  | name, [] => (floatFunctions.lookup name).bind fun f => gives (.float (f x))
  | _, _ => none

/-! ## Numbers from texts -/

/-- The words for a text that is no integer. -/
inductive IntFault
  | empty
  | badDigit
  | tooLarge
  | tooSmall
  deriving Repr, DecidableEq

def IntFault.message : IntFault → String
  | .empty => "cannot parse integer from empty string"
  | .badDigit => "invalid digit found in string"
  | .tooLarge => "number too large to fit in target type"
  | .tooSmall => "number too small to fit in target type"

def digitIn? (base : Nat) (c : Char) : Option Nat :=
  let n : Option Nat :=
    if '0' ≤ c && c ≤ '9' then some (c.toNat - 48)
    else if 'a' ≤ c && c ≤ 'z' then some (c.toNat - 87)
    else if 'A' ≤ c && c ≤ 'Z' then some (c.toNat - 55)
    else none
  n.filter (· < base)

/-- The integer that a text writes, with a sign or without. -/
def readInt (base : Nat) (s : String) : Except IntFault Int :=
  let (negative, digits) := match s.toList with
    | '-' :: rest => (true, rest)
    | '+' :: rest => (false, rest)
    | cs => (false, cs)
  if s.isEmpty then .error .empty
  else if digits.isEmpty then .error .badDigit
  else
    match digits.mapM (digitIn? base) with
    | none => .error .badDigit
    | some ds =>
      let size := ds.foldl (fun n d => base * n + d) 0
      let n : Int := if negative then -(size : Int) else size
      if 2 ^ 63 ≤ n then .error .tooLarge
      else if n < -(2 ^ 63) then .error .tooSmall
      else .ok n

def parseInt (base : Int) (s : String) : Except Fault Value :=
  if base < 2 || 36 < base then .error (.arithmetic s!"Invalid radix: '{base}'")
  else
    match readInt base.toNat (Text.trim s) with
    | .ok n => .ok (.int n)
    | .error e => .error (.arithmetic s!"Error parsing integer number '{s}': {e.message}")

/-- The digits at the front of a text. -/
def digitRun (cs : List Char) : List Char × List Char :=
  (cs.takeWhile Char.isDigit, cs.dropWhile Char.isDigit)

/-- The exponent that a text ends in. -/
def exponentOf? : List Char → Option Int
  | [] => some 0
  | e :: rest =>
    if e = 'e' || e = 'E' then
      let (negative, ds) := match rest with
        | '-' :: ds => (true, ds)
        | '+' :: ds => (false, ds)
        | ds => (false, ds)
      if ds.isEmpty || !ds.all Char.isDigit then none
      else
        let n : Int := ds.foldl (fun n d => 10 * n + (d.toNat - 48)) 0
        some (if negative then -n else n)
    else none

/-- The double that a text writes. -/
def readFloat? (s : String) : Option Float :=
  let (negative, body) := match s.toList with
    | '-' :: rest => (true, rest)
    | '+' :: rest => (false, rest)
    | cs => (false, cs)
  let word := (String.ofList body).toLower
  let magnitude? : Option Float :=
    if word = "inf" || word = "infinity" then some (1.0 / 0.0)
    else if word = "nan" then some (0.0 / 0.0)
    else
      let (whole, rest) := digitRun body
      let (part, rest) := match rest with
        | '.' :: rest => digitRun rest
        | rest => ([], rest)
      if whole.isEmpty && part.isEmpty then none
      else
        (exponentOf? rest).map fun e =>
          let digits := whole ++ part
          let n := digits.foldl (fun n d => 10 * n + (d.toNat - 48)) 0
          let e : Int := e - part.length
          if n = 0 then 0.0
          else if 400 + (digits.length : Int) < e then 1.0 / 0.0
          else if e < -400 - (digits.length : Int) then 0.0
          else if e < 0 then Float.ofScientific n true (-e).toNat
          else Float.ofScientific n false e.toNat
  magnitude?.map fun x => if negative then -x else x

def parseFloat (s : String) : Except Fault Value :=
  match readFloat? (Text.trim s) with
  | some x => .ok (.float x)
  | none =>
    let why := if (Text.trim s).isEmpty then "cannot parse float from empty string"
      else "invalid float literal"
    .error (.arithmetic s!"Error parsing floating-point number '{s}': {why}")

end PluginChain.Script.Library
