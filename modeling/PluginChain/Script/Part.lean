import PluginChain.Script.Library.Answer
import PluginChain.Script.Machine

/-!
# Parts of values

Elements of lists and entries of tables are parts that can be changed where they stand.  Characters
and stretches of texts and bits of integers can be read and written, but have no place of their own.
-/

set_option autoImplicit false

namespace PluginChain.Script

/-- What an index stands for in a text or an integer. -/
inductive Fraction
  /-- The character at a place; it is written back at another one. -/
  | char (c : Char) (writtenAt : Nat)
  | slice (s : String) (first last : Nat)
  | bit (b : Bool) (place : Nat)
  | bits (n : Int) (first last : Nat)

namespace Fraction

def value : Fraction → Value
  | .char c _ => .char c
  | .slice s _ _ => .text s
  | .bit b _ => .flag b
  | .bits n _ _ => .int n

/-- The bounds of a range as places in a text. -/
def textBounds (size : Nat) (first last : Int) (isClosed : Bool) (p : Position) :
    Except Failure (Nat × Nat) :=
  let last := if isClosed then last + 1 else last
  if first < 0 && size < first.natAbs then .error ⟨.textBounds size first, p⟩
  else
    let start := if first < 0 then size - first.natAbs else first.toNat
    let stop := if last < 0 then size - min last.natAbs size else last.toNat
    .ok (start, max start stop)

/-- The bounds of a range of bits. -/
def bitBounds (first last : Int) (isClosed : Bool) (p : Position) : Except Failure (Nat × Nat) :=
  let last := if isClosed then last + 1 else last
  if first < 0 || 64 ≤ first then .error ⟨.bitBounds first, p⟩
  else if last < 0 || 64 < last then .error ⟨.bitBounds last, p⟩
  else .ok (first.toNat, max first.toNat last.toNat)

/-- The part of a text or an integer under an index. -/
def of? (container index : Value) (p : Position) : Option (Except Failure Fraction) :=
  match container, index with
  | .text s, .range a b isClosed => some do
    let (start, stop) ← textBounds s.length a b isClosed p
    return .slice (String.ofList ((s.toList.drop start).take (stop - start))) start stop
  | .text s, .int i =>
    match Library.place? s.length i with
    | some k => some (.ok (.char (s.toList[k]?.getD ' ') (if i < 0 then i.natAbs else k)))
    | none => some (.error ⟨.textBounds s.length i, p⟩)
  | .int n, .range a b isClosed => some do
    let (start, stop) ← bitBounds a b isClosed p
    let w := (Integer.word n).toNat / Nat.pow 2 start % Nat.pow 2 (stop - start)
    return .bits (Int.bmod w (2 ^ 64)) start stop
  | .int n, .int i =>
    match Library.place? 64 i with
    | some k => some (.ok (.bit ((Integer.word n).toNat / Nat.pow 2 k % 2 = 1) k))
    | none => some (.error ⟨.bitBounds i, p⟩)
  | .text _, i => some (.error ⟨.wrongType i.actualTypeName "i64", p⟩)
  | .int _, i => some (.error ⟨.wrongType i.actualTypeName "i64", p⟩)
  | _, _ => none

/-- The text or integer with another part. -/
def write (f : Fraction) (container new : Value) : Except Fault Value :=
  match f, container, new with
  | .char _ k, .text s, .char c => .ok (.text (String.ofList (s.toList.set k c)))
  | .slice _ a b, .text s, .text t =>
    .ok (.text (String.ofList (s.toList.take a ++ t.toList ++ s.toList.drop b)))
  | .bit _ k, .int n, .flag b =>
    let w := (Integer.word n).toNat
    let cleared := w - w / Nat.pow 2 k % 2 * Nat.pow 2 k
    .ok (.int (Int.bmod (cleared + if b then Nat.pow 2 k else 0) (2 ^ 64)))
  | .bits _ a b, .int n, .int m =>
    let w := (Integer.word n).toNat
    let size := Nat.pow 2 (b - a)
    let kept := w - w / Nat.pow 2 a % size * Nat.pow 2 a
    .ok (.int (Int.bmod (kept + (Integer.word m).toNat % size * Nat.pow 2 a) (2 ^ 64)))
  | .char .., _, v => .error (.wrongType v.actualTypeName "char")
  | .slice .., _, v => .error (.wrongType v.actualTypeName "string")
  | .bit .., _, v => .error (.wrongType v.actualTypeName "bool")
  | .bits .., _, v => .error (.wrongType v.actualTypeName "i64")

end Fraction

namespace Run

variable {α : Type}

/-- The fault of an index that nothing is under. -/
def notIndexed (container index : Value) (p : Position) : Run α :=
  fail (.indexing s!"{container.typeName} [{index.typeName}]") p

/-- Runs on an element of the list at hand. -/
def onElement (xs : List Value) (i : Int) (p : Position) (act : Run α) : Run α := do
  let h ← held
  match (Library.place? xs.length i).bind fun k => xs[k]?.map (k, ·) with
  | none => fail (.listBounds xs.length i) p
  | some (k, x) =>
    let back (outer inner : Held) : Held := { outer with
      value := .list (xs.set k inner.value)
      access := outer.access.leave (.place k) inner.access }
    onPart ⟨x, h.access.enter (.place k), true⟩ back act

/-- Runs on an entry of the table at hand.  One that is missing is a unit, and is put into the table
only where it is to be added. -/
def onEntry (es : List (String × Value)) (name : String) (adds : Bool) (act : Run α) : Run α := do
  let h ← held
  let back (outer inner : Held) : Held := { outer with
    value := .table (Entries.put name inner.value es)
    access := outer.access.leave (.key name) inner.access }
  match Entries.get? name es, adds with
  | some v, _ => onPart ⟨v, h.access.enter (.key name), true⟩ back act
  | none, true => onPart ⟨.unit, Access.free, true⟩ back act
  | none, false => onValue .unit act

/-- Runs on what an index stands for in the value at hand. -/
def onIndex (index : Value) (p q : Position) (adds : Bool) (act : Run α) : Run α := do
  let h ← held
  match h.value, index with
  | .list xs, .int i => onElement xs i p act
  | .list _, i => fail (.wrongType i.actualTypeName "i64") p
  | .table es, .text k => onEntry es k adds act
  | .table _, i => fail (.wrongType i.actualTypeName "string") p
  | v, i =>
    match Fraction.of? v i p with
    | none => notIndexed v i q
    | some (.error e) => throw (.failure e)
    | some (.ok f) => do
      let (a, new) ← onValue f.value do
        let a ← act
        return (a, (← held).value)
      match f, new with
      | .char c _, .char d => if c ≠ d then setHeld ((f.write v new).toOption.getD v)
      | _, _ => pure ()
      return a

/-- What an index stands for in the value at hand. -/
def readIndex (index : Value) (p q : Position) : Run Value := do
  onIndex index p q false do return (← held).value

/-! ## Assignments -/

/-- A value with the operator of the assignment, if it is not a plain one. -/
structure Assignment where
  op : Option String
  value : Value
  pos : Position
  /-- The variable at the root, for a failure. -/
  root : String
  rootPos : Position

/-- The operators that change a value in place, without a call. -/
def isInPlace (op : String) (old new : Value) : Bool :=
  match old, new with
  | .int _, .int _ | .float _, .float _ | .float _, .int _ => true
  | .flag _, .flag _ => ["&", "|", "^"].contains op
  | .text _, .text _ | .text _, .char _ | .text _, .unit => op = "+" || op = "-"
  | _, _ => false

/-- How many operations such a change takes: none in place, one where the library has the change
itself, and otherwise one to look for that and one for the operator. -/
def updateCost (op : String) (old new : Value) : Nat :=
  if isInPlace op old new then 0
  else
    match op, old, new with
    | "+", .text _, _ | "+", .table _, .table _ => 1
    | _, _, _ => 2

/-- The value after an assignment with an operator. -/
def updated (op : String) (old new : Value) (p : Position) : Run Value := do
  let base := (op.dropEnd 1).toString
  match base, old, new with
  | "+", .list xs, .list ys => do
    if ys.isEmpty then return old
    if !xs.isEmpty then checkSize old p
    return .list (xs ++ ys)
  | "+", .list xs, v => do
    let r := Value.list (xs ++ [v])
    checkSize r p
    return r
  | _, _, _ =>
    (List.replicate (updateCost base old new) ()).forM fun _ => tick p
    match Operator.between? (← read).limits.textSize (← room) base old new with
    | none => fail (.functionNotFound (signature base [old, new])) p
    | some r => do
      let v ← ofExcept r p
      if !isInPlace base old new then checkSize v p
      return v

/-- Carries an assignment out on the value at hand. -/
def assign (a : Assignment) : Run Unit := do
  let h ← held
  if h.access.isConstant then fail (.constant a.root) a.rootPos
  match a.op with
  | none => setHeld a.value
  | some op => setHeld (← updated op h.value a.value a.pos)

/-- Carries an assignment out on what an index stands for in the value at hand. -/
def assignIndex (a : Assignment) (index : Value) (p q : Position) : Run Unit := do
  let h ← held
  match h.value with
  | .list _ | .table _ =>
    onIndex index p q true do
      assign a
      checkSize (← held).value a.pos
  | v =>
    match Fraction.of? v index p with
    | some (.error e) => throw (.failure e)
    | some (.ok f) => do
      if h.access.isConstant then fail (.constant a.root) a.rootPos
      let new ← match a.op with
        | none => pure a.value
        | some op => updated op f.value a.value a.pos
      let whole ← ofExcept (f.write v new) a.pos
      setHeld whole
      checkSize new a.pos
    | none =>
      if a.op.isSome then notIndexed v index q
      else
        fail (.indexing s!"{v.typeName} [{index.typeName}] = {a.value.typeName}") q

end Run

end PluginChain.Script
