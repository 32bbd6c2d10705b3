import PluginChain.Power

/-!
# Durations

A length of time in whole nanoseconds.  It is shown in the greatest unit of which it has at least one,
with the digits behind the point that it needs.  Failures of a step carry milliseconds only, as a
64-bit number, so `millis64` cuts the rest off and wraps.
-/

set_option autoImplicit false

namespace PluginChain

/-- A length of time, in nanoseconds. -/
structure Duration where
  nanos : Nat
  deriving Repr, DecidableEq, Inhabited

namespace Duration

def ofMillis (ms : Nat) : Duration := ⟨ms * 10 ^ 6⟩

def ofSeconds (seconds nanos : Nat) : Duration := ⟨seconds * 10 ^ 9 + nanos⟩

def isZero (d : Duration) : Bool := d.nanos = 0

/-- Whole milliseconds. -/
def millis (d : Duration) : Nat := d.nanos / 10 ^ 6

/-- Whole milliseconds as a 64-bit number. -/
def millis64 (d : Duration) : Nat := d.millis % 2 ^ 64

/-- The digits behind the point of `part / 10 ^ places`, without trailing zeros. -/
def fraction (part places : Nat) : String :=
  let ds := Nat.toDigits 10 part
  let full := List.replicate (places - ds.length) '0' ++ ds
  let kept := (full.reverse.dropWhile (· == '0')).reverse
  if part = 0 then "" else String.ofList ('.' :: kept)

/-- The text of a duration, as in `1.5s`, `250ms` and `0ns`. -/
def toText (d : Duration) : String :=
  let n := d.nanos
  let within (places : Nat) (unit : String) : String :=
    toString (n / Nat.pow 10 places) ++ fraction (n % Nat.pow 10 places) places ++ unit
  if 10 ^ 9 ≤ n then within 9 "s"
  else if 10 ^ 6 ≤ n then within 6 "ms"
  else if 10 ^ 3 ≤ n then within 3 "µs"
  else within 0 "ns"

theorem millis_ofMillis (ms : Nat) : (ofMillis ms).millis = ms := by
  simp [ofMillis, millis]

end Duration

end PluginChain
