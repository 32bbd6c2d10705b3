import PluginChain.Script.Document
import PluginChain.Script.Library.Catalogue
import PluginChain.Script.Machine

/-!
# Calling functions

A call finds a function of the script by its name and the number of its arguments, or else one of the
library.  A method works on the value at hand (`Machine.held`): a function of the script has it as
`this`, one of the library as its first argument.

Running a body is a matter of the evaluator, which stands here as a `Runner`.
-/

set_option autoImplicit false

namespace PluginChain.Script

/-- What can be evaluated. -/
inductive Node
  | expr (e : Expr)
  | block (b : Block)

abbrev Runner := Node → Run Value

namespace Run

/-! ## Functions of the script -/

def function? (name : String) (arity : Nat) : Run (Option FunctionDef) := do
  return (← read).functions.find? fun f => f.name = name && f.params.length = arity

def hasFunction (name : String) : Run Bool := do
  return (← read).functions.any (·.name = name)

/-- The failure of a function as it is seen by its caller.  Faults of the sandbox pass through. -/
def seenFrom (f : FunctionDef) (p : Position) (e : Failure) : Failure :=
  if e.fault.isOfSandbox then { e with place := p } else ⟨.inCall f.name e.fault e.place, p⟩

/-- Runs the body of a function with variables of its own, and `this` for the value at hand. -/
def inFrame (f : FunctionDef) (args : List Value) (onHeld sharesScope : Bool) (p : Position)
    (body : Run Value) : Run Value := fun c m =>
  let params := (f.params.zip args).map fun (x, v) => ({ name := x, value := v } : Binding)
  let inner := { m with
    scope := if sharesScope then m.scope ++ params else params.toArray
    this := if onHeld then some m.held else none }
  let back (n : Machine) : Machine := { n with
    scope := if sharesScope then n.scope.extract 0 m.scope.size else m.scope
    this := m.this
    held := if onHeld then n.this.getD m.held else m.held }
  match body { c with level := c.level + 1, isOutermost := false } inner with
  | .ok v n => .ok v (back n)
  | .error (.result v) n => .ok v (back n)
  | .error (.failure e) n => .error (.failure (seenFrom f p e)) (back n)
  | .error e n => .error e (back n)

def callFunction (run : Runner) (f : FunctionDef) (args : List Value) (onHeld sharesScope : Bool)
    (p : Position) : Run Value := do
  if f.body.stmts.isEmpty then return .unit
  tick p
  let c ← read
  if c.limits.callLevels < c.level + 1 then fail .stackOverflow p
  inFrame f args onHeld sharesScope p (run (.block f.body))

/-! ## Functions of the library -/

/-- The time, which passes as the script works. -/
def now : Run Nat := return (← get).work * 100

/-- Runs one level further inside of calls. -/
def inside {α : Type} (act : Run α) : Run α := fun c m => act { c with level := c.level + 1 } m

/-- Takes an answer over: the receiver may have changed, and nothing may be over the limits. -/
def settle (name : String) (p : Position) (a : Answer) : Run Value := do
  let h ← held
  match a with
  | .value v => do
    checkSize v p
    return v
  | .looked v => do
    checkSize v p
    if h.isPlace then checkSize h.value p
    return v
  | .changed r v => do
    if h.access.isConstant then fail (.impure name) p
    setHeld r
    checkSize v p
    if h.isPlace then checkSize r p
    return v

/-- A function of the library without callbacks, for the value at hand. -/
def plainNative (name : String) (args : List Value) (p : Position) : Run Value := do
  let v := (← held).value
  match name, args with
  | "print", [] => do
    print v.shown none
    return .unit
  | "debug", [] => do
    print (v.detail false) (some p)
    return .unit
  | "exit", [] => throw (.exit v)
  | _, _ =>
    match Library.call? (← read).limits (← room) (← now) name v args with
    | none => fail (.functionNotFound (signature name (v :: args))) p
    | some r => settle name p (← ofExcept r p)

/-! ## Callbacks -/

/-- A function that a function of the library calls. -/
structure Callback where
  function : String
  bound : List Value
  /-- The function of the library. -/
  caller : String
  place : Position

/-- The ways to pass an element: as `this`, as an argument in its place, and each also with more
arguments behind. -/
def passings (hasThis : Bool) (this : Value) (args extras : List Value) (moveTo : Option Nat) :
    List (Bool × List Value) :=
  let moved := match hasThis, moveTo with
    | true, some k => [args.insertIdx k this]
    | _, _ => []
  [(hasThis, args)] ++ moved.map (false, ·) ++ moved.map (fun a => (false, a ++ extras))
    ++ [(hasThis, args ++ extras)]

/-- A failure inside a callback names the function of the library that called it. -/
def namedFor (k : Callback) (act : Run Value) : Run Value := fun c m =>
  match act c m with
  | .error (.failure e) m => .error (.failure ⟨.inCall k.caller e.fault e.place, k.place⟩) m
  | r => r

/-- Calls a callback for the value at hand. -/
def Callback.call (run : Runner) (k : Callback) (hasThis : Bool) (args extras : List Value)
    (moveTo : Option Nat) : Run Value :=
  namedFor k <| uncounted do
    let this := (← held).value
    let ways := passings hasThis this args extras moveTo
    let fits (way : Bool × List Value) : Run Bool := do
      return (← function? k.function (k.bound.length + way.2.length)).isSome
    let (onHeld, given) := (← ways.findM? fits).getD (hasThis, args)
    let given := k.bound ++ given
    match ← function? k.function given.length with
    | some f => callFunction run f given onHeld false k.place
    | none => do
      tick k.place
      if onHeld then plainNative k.function given k.place
      else
        match given with
        | v :: rest => onValue v (plainNative k.function rest k.place)
        | [] => fail (.functionNotFound (signature k.function [])) k.place

/-- Calls a callback for an element, and gives back what the element has become. -/
def Callback.onItem (run : Runner) (k : Callback) (item : Value) (args extras : List Value)
    (moveTo : Option Nat) : Run (Value × Value) := do
  onValue item do
    let v ← k.call run true args extras moveTo
    return (v, (← held).value)

/-- What a callback says about an element of a list. -/
def Callback.test (run : Runner) (k : Callback) (item : Value) (i : Nat) : Run Value := do
  return (← k.onItem run item [] [.int i] (some 0)).1

def Callback.fold (run : Runner) (k : Callback) (acc item : Value) (i : Nat) : Run Value :=
  onValue .unit (k.call run false [acc, item] [.int i] none)

/-- The elements for which a test gives true, and the others. -/
def partition (test : Nat → Value → Run Bool) : Nat → List Value → Run (List Value × List Value)
  | _, [] => return ([], [])
  | i, x :: rest => do
    let b ← test i x
    let (yes, no) ← partition test (i + 1) rest
    return if b then (x :: yes, no) else (yes, x :: no)

/-- The first element for which something is found. -/
def firstOf {α : Type} (found : Nat → Value → Run (Option α)) : Nat → List Value → Run (Option α)
  | _, [] => return none
  | i, x :: rest => do
    match ← found i x with
    | some a => return some a
    | none => firstOf found (i + 1) rest

def foldItems (step : Nat → Value → Value → Run Value) : List (Nat × Value) → Value → Run Value
  | [], acc => return acc
  | (i, x) :: rest, acc => do foldItems step rest (← step i acc x)

def mapItems {α : Type} (f : Nat → Value → Run α) : Nat → List Value → Run (List α)
  | _, [] => return []
  | i, x :: rest => do
    let a ← f i x
    return a :: (← mapItems f (i + 1) rest)

/-- The two halves of a sorted list as one. -/
def mergeItems (le : Value → Value → Run Bool) : Nat → List Value → List Value → Run (List Value)
  | _, [], ys => return ys
  | _, xs, [] => return xs
  | 0, xs, ys => return xs ++ ys
  | n + 1, x :: xs, y :: ys => do
    if ← le x y then return x :: (← mergeItems le n xs (y :: ys))
    else return y :: (← mergeItems le n (x :: xs) ys)

/-- A list sorted by an order that a script gives; equal elements stay in their order. -/
def sortItems (le : Value → Value → Run Bool) : Nat → List Value → Run (List Value)
  | 0, xs => return xs
  | n + 1, xs =>
    if xs.length ≤ 1 then return xs
    else do
      let half := xs.length / 2
      let left ← sortItems le n (xs.take half)
      let right ← sortItems le n (xs.drop half)
      mergeItems le xs.length left right

/-- The value of a callback, if it does not fail. -/
def attempted (act : Run Value) : Run (Option Value) := fun c m =>
  match act c m with
  | .ok v m => .ok (some v) m
  | .error (.failure _) m => .ok none m
  | .error e m => .error e m

def pairCall (run : Runner) (k : Callback) (x y : Value) : Run (Option Value) :=
  attempted (onValue .unit (k.call run false [x, y] [] none))

/-- A list without the elements that are taken for equal to the one before them. -/
def withoutRepeats (same : Value → Value → Run Bool) : Value → List Value → Run (List Value)
  | _, [] => return []
  | last, x :: rest => do
    if ← same x last then withoutRepeats same last rest
    else return x :: (← withoutRepeats same x rest)

def numbered (xs : List Value) : List (Nat × Value) := (List.range xs.length).zip xs

/-- Functions of lists that call others.  The flag tells those that change their list. -/
def onListWith (run : Runner) (k : Callback) (name : String) (xs more : List Value) :
    Option (Bool × Run Answer) :=
  let isTrue (i : Nat) (x : Value) : Run Bool := return (← k.test run x i).isTrue
  let looked (act : Run Value) : Option (Bool × Run Answer) := some (false, .looked <$> act)
  let from_ (start : Int) : Nat := (Library.stretch xs.length start 0).1
  let find (start : Nat) : Option (Bool × Run Answer) := looked do
    let r ← firstOf (fun i x => do return if ← isTrue i x then some x else none) start (xs.drop start)
    return r.getD .unit
  let findMap (start : Nat) : Option (Bool × Run Answer) := looked do
    let r ← firstOf (fun i x => do
      let v ← k.test run x i
      return if v.isUnit then none else some v) start (xs.drop start)
    return r.getD .unit
  let indexOf (start : Nat) : Option (Bool × Run Answer) := looked do
    let r ← firstOf (fun i x => do return if ← isTrue i x then some i else none) start (xs.drop start)
    return .int (r.elim (-1) Int.ofNat)
  let order : Run Value := do
    let le (x y : Value) : Run Bool := do
      match ← pairCall run k x y with
      | some (.int n) => return n ≤ 0
      | _ => return true
    return .list (← sortItems le xs.length xs)
  match name, more with
  | "map", [] => looked do
    return .list (← mapItems (fun i x => k.test run x i) 0 xs)
  | "filter", [] => looked do return .list (← partition isTrue 0 xs).1
  | "all", [] => looked do
    let r ← firstOf (fun i x => do return if ← isTrue i x then none else some ()) 0 xs
    return .flag r.isNone
  | "some", [] => looked do
    let r ← firstOf (fun i x => do return if ← isTrue i x then some () else none) 0 xs
    return .flag r.isSome
  | "find", [] => find 0
  | "find", [.int start] => find (from_ start)
  | "find_map", [] => findMap 0
  | "find_map", [.int start] => findMap (from_ start)
  | "index_of", [] => indexOf 0
  | "index_of", [.int start] => indexOf (from_ start)
  | "reduce", [] => looked (foldItems (fun i acc x => k.fold run acc x i) (numbered xs) .unit)
  | "reduce", [v] => looked (foldItems (fun i acc x => k.fold run acc x i) (numbered xs) v)
  | "reduce_rev", [] =>
    looked (foldItems (fun i acc x => k.fold run acc x i) (numbered xs).reverse .unit)
  | "reduce_rev", [v] =>
    looked (foldItems (fun i acc x => k.fold run acc x i) (numbered xs).reverse v)
  | "for_each", [] => some (true, do
    let ys ← mapItems (fun i x => do return (← k.onItem run x [] [.int i] none).2) 0 xs
    return .changed (.list ys) .unit)
  | "sort", [] | "sort_by", [] => some (true, do return .changed (← order) .unit)
  | "order_by", [] => looked order
  | "dedup", [] => some (true, do
    let same (x last : Value) : Run Bool := do
      return ((← pairCall run k last x).map Value.isTrue).getD false
    match xs with
    | [] => return .changed (.list []) .unit
    | x :: rest => return .changed (.list (x :: (← withoutRepeats same x rest))) .unit)
  | "drain", [] => some (true, do
    let (yes, no) ← partition isTrue 0 xs
    return .changed (.list no) (.list yes))
  | "retain", [] => some (true, do
    let (yes, no) ← partition isTrue 0 xs
    return .changed (.list yes) (.list no))
  | _, _ => none

/-- The entries for which a callback gives true, and the others. -/
def partEntries (run : Runner) (k : Callback) :
    List (String × Value) → Run (List (String × Value) × List (String × Value))
  | [] => return ([], [])
  | (key, v) :: rest => do
    let (r, _) ← k.onItem run v [.text key] [] (some 1)
    let (yes, no) ← partEntries run k rest
    return if r.isTrue then ((key, v) :: yes, no) else (yes, (key, v) :: no)

/-- Functions of tables that call others. -/
def onTableWith (run : Runner) (k : Callback) (name : String) (es : List (String × Value)) :
    Option (Bool × Run Answer) :=
  match name with
  | "filter" => some (false, do return .looked (.table (← partEntries run k es).1))
  | "drain" => some (true, do
    let (yes, no) ← partEntries run k es
    return .changed (.table no) (.table yes))
  | "retain" => some (true, do
    let (yes, no) ← partEntries run k es
    return .changed (.table yes) (.table no))
  | _ => none

/-- The functions of lists that also take the name of a function. -/
def takesName : List String :=
  ["map", "filter", "some", "all", "reduce", "reduce_rev", "sort", "dedup", "drain", "retain"]

/-- A function of the library that calls others. -/
def withCallback? (run : Runner) (name : String) (v : Value) (args : List Value) (p : Position) :
    Option (Bool × Run Answer) :=
  match v, args with
  | .list xs, .function f bound :: more => onListWith run ⟨f, bound, name, p⟩ name xs more
  | .list xs, .text f :: more =>
    if takesName.contains name then
      (onListWith run ⟨f, [], name, p⟩ name xs more).map fun (_, act) => (true, act)
    else none
  | .table es, [.function f bound] => onTableWith run ⟨f, bound, name, p⟩ name es
  | _, _ => none

/-! ## Calls -/

/-- The value of a document in a text. -/
def documentValue (run : Runner) (s : String) : Run Value := do
  match Document.read (← read).limits s with
  | .error e => fail (.unreadable e.fault.message) e.place
  | .ok e => uncounted (run (.expr e))

/-- Calls a function of the library for the value at hand. -/
def callNative (run : Runner) (name : String) (args : List Value) (p : Position) : Run Value := do
  tick p
  inside do
    let h ← held
    match withCallback? run name h.value args p, h.value, args with
    | some (changes, act), _, _ => do
      if changes && h.access.isConstant then fail (.impure name) p
      settle name p (← act)
    | none, .text s, [] =>
      if name = "parse_json" then settle name p (.value (← documentValue run s))
      else plainNative name args p
    | none, _, _ => plainNative name args p

/-- Calls a function of the library with all its arguments by value. -/
def callNativeWith (run : Runner) (name : String) (args : List Value) (p : Position) :
    Run Value := do
  match args with
  | v :: rest => onValue v (callNative run name rest p)
  | [] => do
    tick p
    if name = "exit" then throw (.exit .unit)
    if name = "print" || name = "debug" then
      print "" (if name = "debug" then some p else none)
      return .unit
    match Library.constant? (← now) name with
    | some v => return v
    | none => fail (.functionNotFound (signature name [])) p

/-- Calls a function with all its arguments by value. -/
def callByName (run : Runner) (name : String) (args : List Value) (sharesScope : Bool)
    (p : Position) : Run Value := do
  if name = "type_of" then
    if let [v] := args then return .text v.typeName
  match ← function? name args.length with
  | some f => callFunction run f args false sharesScope p
  | none => callNativeWith run name args p

/-- Calls a function as a method of the value at hand. -/
def callOnHeld (run : Runner) (name : String) (args : List Value) (p : Position) : Run Value := do
  match ← function? name args.length with
  | some f => callFunction run f args true false p
  | none => callNative run name args p

/-- The function that an entry of a table holds. -/
def entryFunction? (name : String) : Value → Option (String × List Value)
  | .table es =>
    match Entries.get? name es with
    | some (.function f bound) => some (f, bound)
    | _ => none
  | _ => none

/-- Calls a method of the value at hand.  The first argument stands at `q`. -/
def callMethod (run : Runner) (name : String) (args : List Value) (q p : Position) :
    Run Value := do
  let v := (← held).value
  match name, v, args with
  | "call", .function f bound, args => callByName run f (bound ++ args) false p
  | "call", _, .function f bound :: rest => callOnHeld run f (bound ++ rest) p
  | "call", v, [] => fail (.wrongType v.typeName "Fn") p
  | "call", _, w :: _ => fail (.wrongType w.typeName "Fn") q
  | "curry", .function f bound, args => return .function f (bound ++ args)
  | "curry", v, _ => fail (.wrongType v.typeName "Fn") p
  | "type_of", v, [] => return .text v.typeName
  | "is_shared", _, [] => return .flag false
  | name, v, args =>
    match entryFunction? name v with
    | some (f, bound) => callOnHeld run f (bound ++ args) p
    | none => callOnHeld run name args p

end Run

end PluginChain.Script
