import PluginChain.Decimal.Shortest

/-!
# Laying out a decimal

A `Layout` is the set of decisions a format makes about the text of a double: up to which magnitude
the digits stand around a point, whether a whole number keeps `.0`, and how the exponent is written.
`Layout.render` writes a double by it.  `Decimal.toInt?` is the exact integer part of a double.
-/

set_option autoImplicit false

namespace PluginChain.Decimal

/-- How a format writes a double. -/
structure Layout where
  /-- Positional notation is used where the place of the point is above this … -/
  pointAbove : Option Int
  /-- … and at most this. -/
  pointUpTo : Option Int
  /-- Whether a whole number in positional notation ends in `.0`. -/
  wholeMark : Bool
  /-- Whether a positive exponent carries a plus sign. -/
  plusSign : Bool
  /-- The least number of digits of an exponent. -/
  exponentWidth : Nat
  /-- The words for what is not finite. -/
  infinite : String
  notANumber : String

/-- Digits around a point, or with zeros filled in beside it. -/
def positional (digits : List Char) (point : Int) (wholeMark : Bool) : List Char :=
  let mark := if wholeMark then ['.', '0'] else []
  if digits.isEmpty then '0' :: mark
  else if point ≤ 0 then '0' :: '.' :: (List.replicate (-point).toNat '0' ++ digits)
  else
    let p := point.toNat
    if digits.length ≤ p then digits ++ List.replicate (p - digits.length) '0' ++ mark
    else digits.take p ++ '.' :: digits.drop p

/-- One digit before the point, the others behind it, then the exponent. -/
def scientific (digits : List Char) (point : Int) (l : Layout) : List Char :=
  let e := if digits.isEmpty then 0 else point - 1
  let sign := if e < 0 then ['-'] else if l.plusSign then ['+'] else []
  let ds := natChars e.natAbs
  let fill := List.replicate (l.exponentWidth - ds.length) '0'
  let head := match digits with
    | [] => ['0']
    | [d] => [d]
    | d :: rest => d :: '.' :: rest
  head ++ 'e' :: (sign ++ fill ++ ds)

/-- Whether a layout writes a decimal around a point.  Zero always is. -/
def Layout.isPositional (l : Layout) (d : Digits) : Bool :=
  d.digits.isEmpty ||
    (l.pointAbove.all (· < d.point) && l.pointUpTo.all (d.point ≤ ·))

def Layout.renderDigits (l : Layout) (d : Digits) : String :=
  let body :=
    if l.isPositional d then positional d.digits d.point l.wholeMark
    else scientific d.digits d.point l
  String.ofList (if d.negative then '-' :: body else body)

/-- The text of a double under a layout. -/
def Layout.render (l : Layout) (x : Float) : String :=
  match Shown.ofFloat x with
  | .finite d => l.renderDigits d
  | .infinite negative => if negative then "-" ++ l.infinite else l.infinite
  | .notANumber => l.notANumber

/-- All digits around a point, a whole number without one. -/
def plain : Layout := ⟨none, none, false, false, 1, "inf", "NaN"⟩

/-- Always with an exponent. -/
def exponential : Layout := ⟨some 1000, some 0, false, false, 1, "inf", "NaN"⟩

/-- The exact integer part of a finite double. -/
def toInt? (x : Float) : Option Int :=
  (Binary.ofFloat? x).map fun b =>
    let n : Nat := if 0 ≤ b.exponent then b.mantissa * Nat.pow 2 b.exponent.toNat
      else b.mantissa / Nat.pow 2 (-b.exponent).toNat
    if b.negative then -(n : Int) else n

/-- The double nearest an integer. -/
def ofInt (n : Int) : Float :=
  if n < 0 then -(Float.ofNat n.natAbs) else Float.ofNat n.natAbs

/-- The remainder of a division whose quotient is cut to an integer, computed without rounding. -/
def remainder (x y : Float) : Float :=
  match Binary.ofFloat? x, Binary.ofFloat? y with
  | some a, some b =>
    if b.mantissa = 0 then 0.0 / 0.0
    else
      let e := min a.exponent b.exponent
      let p := a.mantissa * Nat.pow 2 (a.exponent - e).toNat
      let q := b.mantissa * Nat.pow 2 (b.exponent - e).toNat
      let r := Float.scaleB (Float.ofNat (p % q)) e
      if a.negative then -r else r
  | some _, none => if y.isNaN then y else x
  | none, _ => 0.0 / 0.0

end PluginChain.Decimal
