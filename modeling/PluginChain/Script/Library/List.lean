import PluginChain.Script.Library.Answer

/-!
# The library on lists
-/

set_option autoImplicit false

namespace PluginChain.Script.Library

/-- The place of the first element from a place on that is equal to a value. -/
def placeOf (room : Option Nat) (v : Value) : List Value → Nat → Except Fault Int
  | [], _ => .ok (-1)
  | x :: rest, i =>
    match Operator.equalInside room x v with
    | .ok true => .ok i
    | .ok false => placeOf room v rest (i + 1)
    | .error e => .error e

def placeFrom (room : Option Nat) (v : Value) (xs : List Value) (start : Int) : Except Fault Int :=
  let (start, _) := stretch xs.length start 0
  placeOf room v (xs.drop start) start

/-- Whether one element comes no later than another of its kind. -/
def comesFirst (v w : Value) : Bool :=
  match v, w with
  | .int a, .int b => a ≤ b
  | .float a, .float b => !(b < a)
  | .char a, .char b => a ≤ b
  | .text a, .text b => a ≤ b
  | .flag a, .flag b => !a || b
  | _, _ => true

/-- A list whose elements are of one type, in their order. -/
def sorted (xs : List Value) (descending : Bool) : Except Fault (List Value) :=
  match xs with
  | [] => .ok []
  | x :: _ =>
    if xs.any fun y => y.actualTypeName ≠ x.actualTypeName then
      .error (.functionNotFound "elements of different types cannot be sorted")
    else .ok (xs.mergeSort fun v w => if descending then comesFirst w v else comesFirst v w)

/-- A list without the elements that are equal to the one before them. -/
def deduplicated (room : Option Nat) : List Value → List Value
  | [] => []
  | x :: rest => x :: go x rest
where
  go (last : Value) : List Value → List Value
    | [] => []
    | y :: rest =>
      match Operator.equalInside room y last with
      | .ok true => go last rest
      | _ => y :: go y rest

/-- A list filled up to a length. -/
def paddedList (most : Nat) (xs : List Value) (size : Int) (v : Value) :
    Except Fault (List Value) :=
  if most ≠ 0 && (most : Int) < size then .error (.tooLarge "Size of array/BLOB")
  else .ok (xs ++ List.replicate (size.toNat - xs.length) v)

/-- The elements inside a stretch, and those around it. -/
def parted (xs : List Value) (start count : Nat) : List Value × List Value :=
  ((xs.drop start).take count, xs.take start ++ xs.drop (start + count))

/-- The arguments of `splice`: where, and what comes there. -/
def splice? (size : Nat) : List Value → Option (Nat × Nat × List Value)
  | [.range a b isClosed, .list ys] =>
    let (start, n) := rangeStretch size a b isClosed
    some (start, n, ys)
  | [.int start, .int count, .list ys] =>
    let (start, n) := stretch size start count
    some (start, n, ys)
  | _ => none

/-- Functions that give a list back and change the list they are for. -/
def onListParts (name : String) (xs : List Value) (args : List Value) : LibraryReply :=
  match name with
  | "extract" =>
    (stretchOf? xs.length args).bind fun (start, n) => becomesAnd (.list xs) (.list (parted xs start n).1)
  | "splice" =>
    (splice? xs.length args).bind fun (start, n, ys) =>
      becomes (.list (xs.take start ++ ys ++ xs.drop (start + n)))
  | "drain" =>
    (if args.length = 2 || args.any (·.int?.isNone) then stretchOf? xs.length args else none).bind
      fun (start, n) =>
        let (inside, around) := parted xs start n
        becomesAnd (.list around) (.list inside)
  | "retain" =>
    (if args.length = 2 || args.any (·.int?.isNone) then stretchOf? xs.length args else none).bind
      fun (start, n) =>
        let (inside, around) := parted xs start n
        becomesAnd (.list inside) (.list around)
  | _ => none

def onList (limits : Limits) (room : Option Nat) (name : String) (xs : List Value) (args : List Value) :
    LibraryReply :=
  let kept (xs : List Value) : LibraryReply := becomes (.list xs)
  let order (descending : Bool) : LibraryReply :=
    some ((sorted xs descending).map fun ys => .changed (.list ys) .unit)
  match name, args with
  | "len", [] => looks (.int xs.length)
  | "is_empty", [] => looks (.flag xs.isEmpty)
  | "get", [.int i] =>
    let (start, _) := stretch xs.length i 0
    becomesAnd (.list xs) (xs[start]?.getD .unit)
  | "set", [.int i, v] =>
    let (start, _) := stretch xs.length i 0
    kept (xs.set start v)
  | "push", [v] => kept (xs ++ [v])
  | "append", [.list ys] | "+=", [.list ys] => kept (xs ++ ys)
  | "insert", [.int i, v] =>
    let (start, _) := stretch xs.length i 0
    kept (xs.take start ++ v :: xs.drop start)
  | "pad", [.int n, v] =>
    some ((paddedList limits.listSize xs n v).map fun ys => .changed (.list ys) .unit)
  | "pop", [] =>
    match xs.getLast? with
    | some v => becomesAnd (.list xs.dropLast) v
    | none => becomesAnd (.list xs) .unit
  | "shift", [] =>
    match xs with
    | v :: rest => becomesAnd (.list rest) v
    | [] => becomesAnd (.list []) .unit
  | "remove", [.int i] =>
    match place? xs.length i with
    | some k => becomesAnd (.list (xs.eraseIdx k)) (xs[k]?.getD .unit)
    | none => becomesAnd (.list xs) .unit
  | "clear", [] => kept []
  | "truncate", [.int n] => kept (xs.take n.toNat)
  | "chop", [.int n] => kept (xs.drop (xs.length - n.toNat))
  | "reverse", [] => kept xs.reverse
  | "split", [.int i] =>
    let (start, n) := stretch xs.length i toEnd
    let start := if n = 0 then xs.length else start
    becomesAnd (.list (xs.take start)) (.list (xs.drop start))
  | "contains", [v] => some ((placeOf room v xs 0).map fun i => .looked (.flag (0 ≤ i)))
  | "index_of", [v] => some ((placeOf room v xs 0).map fun i => .looked (.int i))
  | "index_of", [v, .int start] => some ((placeFrom room v xs start).map fun i => .looked (.int i))
  | "dedup", [] => kept (deduplicated room xs)
  | "sort", [] => order false
  | "sort_desc", [] => order true
  | "order", [] => some ((sorted xs false).map fun ys => .looked (.list ys))
  | "order_desc", [] => some ((sorted xs true).map fun ys => .looked (.list ys))
  | name, args => onListParts name xs args

end PluginChain.Script.Library
