import PluginChain.Script.Fault

/-!
# Operators on values

`Operator.basic?` is the meaning of an operator between two simple values, and is what is known while
a script is read as well.  `Operator.between?` adds the operators of lists, tables and points in time.
Both are undefined where an operator does not exist for the types of its operands.
-/

set_option autoImplicit false

namespace PluginChain.Script

/-- An operation that can be undefined for the types of its operands, and can fail. -/
abbrev Reply := Option (Except Fault Value)

/-- The signature of a call. -/
def signature (name : String) (args : List Value) : String :=
  name ++ " (" ++ ", ".intercalate (args.map Value.argumentTypeName) ++ ")"

/-! ## Integers -/

namespace Integer

def fits (n : Int) : Bool := -(2 ^ 63) ≤ n && n < 2 ^ 63

def checked (what : String) (n : Int) : Except Fault Value :=
  if fits n then .ok (.int n) else .error (.arithmetic what)

/-- The integer as a word of 64 bits. -/
def word (n : Int) : UInt64 := (Int64.ofInt n).toUInt64

def ofWord (w : UInt64) : Int := w.toInt64.toInt

/-- Shifts to the left, and to the right by what is negative. -/
def shiftLeft (x y : Int) : Int :=
  if y < 0 then
    if 64 ≤ -y then (if x < 0 then -1 else 0) else Int.fdiv x (Int.pow 2 (-y).toNat)
  else if 64 ≤ y then 0
  else Int.bmod (x * Int.pow 2 y.toNat) (2 ^ 64)

/-- A power by repeated squaring, which is given up once it is out of bounds. -/
def power? (x : Int) (y : Nat) : Option Int :=
  if x = 0 then some (if y = 0 then 1 else 0)
  else if x = 1 then some 1
  else if x = -1 then some (if y % 2 = 0 then 1 else -1)
  else if 64 ≤ y then none
  else some (Int.pow x y) |>.filter fits

def arithmetic? (op : String) (x y : Int) : Reply :=
  let term := s!"{x} {op} {y}"
  match op with
  | "+" => some (checked s!"Addition overflow: {term}" (x + y))
  | "-" => some (checked s!"Subtraction overflow: {term}" (x - y))
  | "*" => some (checked s!"Multiplication overflow: {term}" (x * y))
  | "/" => some <|
    if y = 0 then .error (.arithmetic s!"Division by zero: {term}")
    else checked s!"Division overflow: {term}" (Int.tdiv x y)
  | "%" => some <|
    if y = 0 || (x = -(2 ^ 63) && y = -1) then
      .error (.arithmetic s!"Modulo division by zero or overflow: {term}")
    else .ok (.int (Int.tmod x y))
  | "**" => some <|
    if y < 0 then .error (.arithmetic s!"Integer raised to a negative power: {term}")
    else if 2 ^ 32 ≤ y then
      .error (.arithmetic s!"Integer raised to too large an index: {term}")
    else match power? x y.toNat with
      | some n => .ok (.int n)
      | none => .error (.arithmetic s!"Exponential overflow: {term}")
  | "<<" => some (.ok (.int (shiftLeft x y)))
  | ">>" => some (.ok (.int (shiftLeft x (-y))))
  | "&" => some (.ok (.int (ofWord (word x &&& word y))))
  | "|" => some (.ok (.int (ofWord (word x ||| word y))))
  | "^" => some (.ok (.int (ofWord (word x ^^^ word y))))
  | _ => none

end Integer

namespace Operator

/-- A comparison of operands one of which comes first unless they are equal. -/
def comparison? (op : String) (eq lt : Bool) : Reply :=
  let flag (b : Bool) : Reply := some (.ok (.flag b))
  match op with
  | "==" => flag eq
  | "!=" => flag !eq
  | "<" => flag lt
  | "<=" => flag (lt || eq)
  | ">" => flag !(lt || eq)
  | ">=" => flag !lt
  | _ => none

def isComparison (op : String) : Bool := ["==", "!=", "<", "<=", ">", ">="].contains op

/-- How far apart two doubles are that still count as equal: by the difference between one and the
double after it, times the larger of the two unless their product is zero. -/
def tolerance (x y : Float) : Float :=
  let size := if x * y == 0.0 then 1.0 else max x.abs y.abs
  size * Float.scaleB 1.0 (-52)

/-- A comparison of doubles, in which those that are close count as equal.  Nothing holds of what is
no number, not even that it differs. -/
def close? (op : String) (x y : Float) : Reply :=
  let flag (b : Bool) : Reply := some (.ok (.flag b))
  let most := tolerance x y
  match op with
  | "==" => flag ((x - y).abs <= most)
  | "!=" => flag (most < (x - y).abs)
  | "<" => flag (most < y - x)
  | "<=" => flag (-most <= y - x)
  | ">" => flag (most < x - y)
  | ">=" => flag (-most <= x - y)
  | _ => none

def floats? (op : String) (x y : Float) : Reply :=
  let float (z : Float) : Reply := some (.ok (.float z))
  match op with
  | "+" => float (x + y)
  | "-" => float (x - y)
  | "*" => float (x * y)
  | "/" => float (x / y)
  | "%" => float (Decimal.remainder x y)
  | "**" => float (x ^ y)
  | op => close? op x y

def joined (most : Nat) (s : String) : Except Fault Value :=
  if most ≠ 0 && most < s.utf8ByteSize then .error (.tooLarge "Length of string")
  else .ok (.text s)

def texts? (most : Nat) (op : String) (s t : String) : Reply :=
  match op with
  | "+" => some (joined most (s ++ t))
  | "-" => some (.ok (.text (if t = "" then s else s.replace t "")))
  | op => comparison? op (s == t) (s < t)

/-- Values of different types are not equal, and none comes before the other.  Nothing is said about
values of one type. -/
def mixed? (op : String) (l r : Value) : Reply :=
  if l.actualTypeName = r.actualTypeName || !isComparison op then none
  else some (.ok (.flag (op = "!=")))

/-- Operators that need no more than the two values. -/
def simple? (most : Nat) (op : String) (l r : Value) : Reply :=
  match l, r with
  | .int x, .int y =>
    match Integer.arithmetic? op x y with
    | some a => some a
    | none => comparison? op (x == y) (x < y)
  | .float x, .float y => floats? op x y
  | .int x, .float y => floats? op (Decimal.ofInt x) y
  | .float x, .int y => floats? op x (Decimal.ofInt y)
  | .flag x, .flag y =>
    match op with
    | "&" => some (.ok (.flag (x && y)))
    | "|" => some (.ok (.flag (x || y)))
    | "^" => some (.ok (.flag (x != y)))
    | op => comparison? op (x == y) (!x && y)
  | .char x, .char y =>
    if op = "+" then some (joined most (x.toString ++ y.toString))
    else comparison? op (x == y) (x < y)
  | .text x, .text y => texts? most op x y
  | .text x, .char y => texts? most op x y.toString
  | .char x, .text y => if op = "-" then none else texts? most op x.toString y
  | .text x, .unit => if op = "+" then some (.ok (.text x)) else mixed? op l r
  | .unit, .text x => if op = "+" then some (.ok (.text x)) else mixed? op l r
  | .unit, .unit => if isComparison op then some (.ok (.flag (op = "=="))) else none
  | .range a b k, .range c d j =>
    let isSame := k = j && a = c && b = d
    if op = "==" then some (.ok (.flag isSame))
    else if op = "!=" then some (.ok (.flag !isSame))
    else none
  | .list _, .list _ | .table _, .table _ => none
  | l, r => mixed? op l r

/-- The meaning of an operator between simple values.  Texts may grow to `most` bytes. -/
def basic? (most : Nat) (op : String) (l r : Value) : Reply :=
  match Value.rangeOf? op l r with
  | some v => some (.ok v)
  | none => simple? most op l r

/-! ## Equality

To compare what is inside of two values is an operation inside of that on the values.  Operations
inside of others are not counted, but how many can be inside of each other is limited: `room` is the
number of those that are left, if there is a limit. -/

/-- The room inside of one more operation. -/
def enter (room : Option Nat) : Except Fault (Option Nat) :=
  match room with
  | none => .ok none
  | some 0 => .error .tooManyOperations
  | some (n + 1) => .ok (some n)

mutual

/-- Whether two values are equal, if that is defined for them. -/
def equal (room : Option Nat) (a b : Value) : Except Fault Bool :=
  match a, b with
  | .list xs, .list ys => equalItems room xs ys
  | .table xs, .table ys => if xs.length = ys.length then equalEntries room xs ys else .ok false
  | .moment s, .moment t => .ok (s = t)
  | a, b =>
    match basic? 0 "==" a b with
    | some (.ok v) => .ok v.isTrue
    | some (.error e) => .error e
    | none => .error (.functionNotFound (signature "==" [a, b]))

/-- Elements of different types are not equal, even where nothing is defined for them. -/
def equalInside (room : Option Nat) (a b : Value) : Except Fault Bool :=
  match (enter room).bind fun room => equal room a b with
  | .error (.functionNotFound f) =>
    if a.actualTypeName = b.actualTypeName then .error (.functionNotFound f) else .ok false
  | r => r

def equalItems (room : Option Nat) : List Value → List Value → Except Fault Bool
  | [], [] => .ok true
  | x :: xs, y :: ys =>
    match equalInside room x y with
    | .ok true => equalItems room xs ys
    | r => r
  | _, _ => .ok false

def equalEntries (room : Option Nat) :
    List (String × Value) → List (String × Value) → Except Fault Bool
  | [], _ => .ok true
  | (k, x) :: xs, ys =>
    match Entries.get? k ys with
    | none => .ok false
    | some y =>
      match equalInside room x y with
      | .ok true => equalEntries room xs ys
      | r => r

end

/-! ## All operators -/

/-- Entries of the second table replace those of the first. -/
def merge (xs ys : List (String × Value)) : List (String × Value) :=
  ys.foldl (fun acc e => Entries.put e.1 e.2 acc) xs

def nanos (seconds : Float) : Int := (Decimal.toInt? (seconds * 1000000000.0)).getD 0

def later (t : Nat) (by_ : Int) : Value := .moment (t + by_).toNat

def moments? (op : String) (s t : Nat) : Reply :=
  if op = "-" then some (.ok (.float (Decimal.ofInt ((s : Int) - t) / 1000000000.0)))
  else comparison? op (s == t) (s < t)

/-- The meaning of an operator between any two values. -/
def between? (most : Nat) (room : Option Nat) (op : String) (l r : Value) : Reply :=
  match basic? most op l r with
  | some a => some a
  | none =>
    let flag (r : Except Fault Bool) (wanted : Bool) : Reply := some (r.map fun b => .flag (b = wanted))
    match op, l, r with
    | "==", .list _, .list _ | "==", .table _, .table _ => flag (equal room l r) true
    | "!=", .list _, .list _ | "!=", .table _, .table _ => flag (equal room l r) false
    | "+", .list xs, .list ys => some (.ok (.list (xs ++ ys)))
    | "+", .table xs, .table ys => some (.ok (.table (merge xs ys)))
    | "+", .moment t, .int n => some (.ok (later t (n * 1000000000)))
    | "-", .moment t, .int n => some (.ok (later t (-n * 1000000000)))
    | "+", .moment t, .float x => some (.ok (later t (nanos x)))
    | "-", .moment t, .float x => some (.ok (later t (-nanos x)))
    | op, .moment s, .moment t => moments? op s t
    | "+", .text s, v => some (.ok (.text (s ++ v.shown)))
    | "+", v, .text s => some (.ok (.text (v.shown ++ s)))
    | _, _, _ => none

/-- The meaning of an operator before a value. -/
def before? (op : String) (v : Value) : Reply :=
  match op, v with
  | "-", .int n => some (Integer.checked s!"Negation overflow: -{n}" (-n))
  | "-", .float x => some (.ok (.float (-x)))
  | "+", .int _ | "+", .float _ => some (.ok v)
  | "!", .flag b => some (.ok (.flag !b))
  | _, _ => none

end Operator

end PluginChain.Script
