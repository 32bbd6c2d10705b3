import PluginChain.Script.Tree

/-!
# The arms of a switch

A value selects the arms that have it as a label.  Only if there is none does it select those that
have a span of numbers around it, so that a label is stronger than a span wherever they stand.
-/

set_option autoImplicit false

namespace PluginChain.Script

mutual

/-- Whether two values are of one type and equal in all parts. -/
def Value.same : Value → Value → Bool
  | .unit, .unit => true
  | .flag a, .flag b => a == b
  | .int a, .int b => a == b
  | .float a, .float b => a.toBits == b.toBits
  | .char a, .char b => a == b
  | .text a, .text b => a == b
  | .list xs, .list ys => sameItems xs ys
  | .table xs, .table ys => sameEntries xs ys
  | .range a b k, .range c d j => a == c && b == d && k == j
  | .function f xs, .function h ys => f == h && sameItems xs ys
  | _, _ => false

def Value.sameItems : List Value → List Value → Bool
  | [], [] => true
  | x :: xs, y :: ys => Value.same x y && sameItems xs ys
  | _, _ => false

def Value.sameEntries : List (String × Value) → List (String × Value) → Bool
  | [], [] => true
  | (k, x) :: xs, (j, y) :: ys => k == j && Value.same x y && sameEntries xs ys
  | _, _ => false

end

def Label.isOf (v : Value) : Label → Bool
  | .value w => Value.same v w
  | .span .. => false

def Label.spans (v : Value) : Label → Bool
  | .value _ => false
  | .span first last isClosed =>
    match v with
    | .int n => first ≤ n && (if isClosed then n ≤ last else n < last)
    | .float x =>
      Decimal.ofInt first <= x && (if isClosed then x <= Decimal.ofInt last else x < Decimal.ofInt last)
    | _ => false

/-- The arms that a value selects: those with its label, or else those with a span around it. -/
def Arm.selected (v : Value) (arms : List Arm) : List Arm :=
  let exact := arms.filter fun a => a.labels.any (Label.isOf v)
  if exact.isEmpty then arms.filter fun a => a.labels.any (Label.spans v) else exact

end PluginChain.Script
