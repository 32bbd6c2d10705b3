import PluginChain.Script.Operator

/-!
# Answers of library functions

A function of the library is given its first argument, the receiver, apart from the others.  Its
answer tells a result from the receiver by value, a result from looking at the receiver where it
stands, and a change of the receiver; only the last is refused on a constant.
-/

set_option autoImplicit false

namespace PluginChain.Script

inductive Answer
  | value (result : Value)
  | looked (result : Value)
  | changed (receiver result : Value)
  deriving Inhabited

namespace Answer

def result : Answer → Value
  | .value v | .looked v | .changed _ v => v

end Answer

/-- What a function answers, unless it does not exist for its arguments. -/
abbrev LibraryReply := Option (Except Fault Answer)

namespace Library

def gives (v : Value) : LibraryReply := some (.ok (.value v))

def looks (v : Value) : LibraryReply := some (.ok (.looked v))

/-- The receiver becomes another value, and the result is a unit. -/
def becomes (receiver : Value) : LibraryReply := some (.ok (.changed receiver .unit))

def becomesAnd (receiver result : Value) : LibraryReply := some (.ok (.changed receiver result))

def refuses (f : Fault) : LibraryReply := some (.error f)

/-- Where a stretch of a sequence begins and how long it is.  A negative place counts from the end,
and what is out of bounds is cut off. -/
def stretch (size : Nat) (start count : Int) : Nat × Nat :=
  let start := if start < 0 then size - min start.natAbs size else start.toNat
  if size ≤ start then (size, 0) else (start, min count.toNat (size - start))

/-- The largest count of all. -/
def toEnd : Int := 2 ^ 63 - 1

/-- The stretch of a range. -/
def rangeStretch (size : Nat) (first last : Int) (isClosed : Bool) : Nat × Nat :=
  let first := max first 0
  let last := max last first
  stretch size first (last - first + if isClosed then 1 else 0)

/-- The stretch that arguments stand for: a range, a start, or a start and a count. -/
def stretchOf? (size : Nat) : List Value → Option (Nat × Nat)
  | [.range a b isClosed] => some (rangeStretch size a b isClosed)
  | [.int start] => some (stretch size start toEnd)
  | [.int start, .int count] => some (stretch size start count)
  | _ => none

/-- The place of an index that counts from the end if it is negative. -/
def place? (size : Nat) (i : Int) : Option Nat :=
  let i := if i < 0 then i + size else i
  if 0 ≤ i && i < size then some i.toNat else none

end Library

end PluginChain.Script
