import PluginChain.Power

/-!
# The fewest digits that read back

A finite double is `m · 2 ^ q` with a natural `m`.  Every real number in the interval around it whose
ends lie half way to its neighbours rounds to it (the ends included just when `m` is even).  Its
*shortest decimal* is the decimal in that interval with the fewest digits; of two with equally few,
the nearer to the double itself, and of two equally near the one with an even last digit.

* `Binary` is the exact value of a finite double, `Binary.ofFloat?` reads it off the bits.
* `shortest` searches the decimal grids from coarse to fine.  A grid has a point in the interval just
  when one of the two grid points next to the double is in it, so two tests a grid are enough.
* `Digits` is the result: a sign, digits without zeros at either end, and the place of the point.
-/

set_option autoImplicit false

namespace PluginChain.Decimal

/-- A finite double in exact form: `mantissa · 2 ^ exponent`, and the sign bit. -/
structure Binary where
  negative : Bool
  mantissa : Nat
  exponent : Int
  deriving Repr, DecidableEq, Inhabited

/-- The exact value of a double from its bits; nothing for the infinities and what is no number. -/
def Binary.ofBits? (bits : UInt64) : Option Binary :=
  let n : Nat := bits.toNat
  let e : Nat := n / 2 ^ 52 % 2 ^ 11
  let f : Nat := n % 2 ^ 52
  let neg : Bool := decide (2 ^ 63 ≤ n)
  if e = 2047 then none
  else if e = 0 then some ⟨neg, f, -1074⟩
  else some ⟨neg, 2 ^ 52 + f, (e : Int) - 1075⟩

/-- The exact value of a double. -/
def Binary.ofFloat? (x : Float) : Option Binary := Binary.ofBits? x.toBits

/-- A decimal: `0.d₁d₂… · 10 ^ point`, with no zero among the outermost digits.  Zero has no digit. -/
structure Digits where
  negative : Bool
  digits : List Char
  point : Int
  deriving Repr, DecidableEq, Inhabited

/-- The decimal text of a natural number, as characters. -/
def natChars (n : Nat) : List Char := Nat.toDigits 10 n

/-- The decimal `n · 10 ^ scale`. -/
def Digits.ofNat (negative : Bool) (n : Nat) (scale : Int) : Digits :=
  if n = 0 then ⟨negative, [], 0⟩
  else
    let cs := natChars n
    ⟨negative, (cs.reverse.dropWhile (· == '0')).reverse, cs.length + scale⟩

/-- A fraction `num / den` of naturals. -/
structure Ratio where
  num : Nat
  den : Nat

/-- `n · 10 ^ scale` as a fraction. -/
def Ratio.ofScaled (n : Nat) (scale : Int) : Ratio :=
  if 0 ≤ scale then ⟨n * Nat.pow 10 scale.toNat, 1⟩
  else ⟨n, Nat.pow 10 (-scale).toNat⟩

def Ratio.lt (a b : Ratio) : Bool := a.num * b.den < b.num * a.den

def Ratio.le (a b : Ratio) : Bool := a.num * b.den ≤ b.num * a.den

/-- The distance between two fractions. -/
def Ratio.gap (a b : Ratio) : Ratio :=
  let x := a.num * b.den
  let y := b.num * a.den
  ⟨if x ≤ y then y - x else x - y, a.den * b.den⟩

/-- The interval of reals that round to a double, with the double itself. -/
structure Rounding where
  low : Ratio
  value : Ratio
  high : Ratio
  /-- Whether the ends belong to the interval. -/
  closed : Bool

/-- The interval of `m · 2 ^ q`.  At a power of two the gap below is half the gap above. -/
def Rounding.ofBinary (b : Binary) : Rounding :=
  let m := b.mantissa
  let up := Nat.pow 2 b.exponent.toNat
  let den := 4 * Nat.pow 2 (-b.exponent).toNat
  let below := if m = 2 ^ 52 ∧ -1074 < b.exponent then 1 else 2
  ⟨⟨(4 * m - below) * up, den⟩, ⟨4 * m * up, den⟩, ⟨(4 * m + 2) * up, den⟩, m % 2 = 0⟩

def Rounding.holds (r : Rounding) (x : Ratio) : Bool :=
  if r.closed then r.low.le x && x.le r.high else r.low.lt x && x.lt r.high

/-- The least `e` with `x < 10 ^ e`, near the guess of its bit length. -/
def magnitude (x : Ratio) : Int :=
  let bits : Int := (Nat.log2 x.num : Int) - Nat.log2 x.den
  let guess : Int := bits * 30103 / 100000 - 1
  let step (e : Int) : Int := if x.lt (Ratio.ofScaled 1 e) then e else e + 1
  step (step (step (step guess)))

/-- The point of the grid `10 ^ scale` in the interval that is nearest the double, if there is one. -/
def Rounding.onGrid? (r : Rounding) (scale : Int) : Option Nat :=
  let lower :=
    if 0 ≤ scale then r.value.num / (r.value.den * Nat.pow 10 scale.toNat)
    else r.value.num * Nat.pow 10 (-scale).toNat / r.value.den
  let a := Ratio.ofScaled lower scale
  let b := Ratio.ofScaled (lower + 1) scale
  match r.holds a, r.holds b with
  | false, false => none
  | true, false => some lower
  | false, true => some (lower + 1)
  | true, true =>
    let da := a.gap r.value
    let db := b.gap r.value
    if da.lt db then some lower
    else if db.lt da then some (lower + 1)
    else some (if lower % 2 = 0 then lower else lower + 1)

/-- The first grid with a point in the interval, from the coarsest of `count` grids down. -/
def Rounding.search (r : Rounding) (top : Int) : Nat → Nat → Nat × Int
  | 0, used => (0, top - used)
  | count + 1, used =>
    match r.onGrid? (top - (used + 1)) with
    | some n => (n, top - (used + 1))
    | none => r.search top count (used + 1)

/-- The shortest decimal of an exact double.  Seventeen digits always read back. -/
def shortest (b : Binary) : Digits :=
  if b.mantissa = 0 then ⟨b.negative, [], 0⟩
  else
    let r := Rounding.ofBinary b
    let (n, scale) := r.search (magnitude r.value) 17 0
    Digits.ofNat b.negative n scale

/-- The sign of a double, and its shortest decimal or the word for what is not finite. -/
inductive Shown
  | finite (d : Digits)
  | infinite (negative : Bool)
  | notANumber

def Shown.ofFloat (x : Float) : Shown :=
  match Binary.ofFloat? x with
  | some b => .finite (shortest b)
  | none => if x.isNaN then .notANumber else .infinite (x < 0)

end PluginChain.Decimal
