import PluginChain.Script.Operator
import PluginChain.Script.Tree

/-!
# The machine that runs a script

`Machine` is what a running script changes: its variables, the cells that closures share, the count
of operations and what was printed.  `Run` is a computation on it, which ends in a value or in a
`Stop`; a stop is a failure, or one of the ways to leave a loop, a function or the script.  What was
changed before a stop stays changed.

A link of a chain works on a part of a value and may change it.  `Machine.held` is the part at hand,
and `Run.onPart` puts it back into the whole when the link is done.  `Access` says which parts of a
constant may be changed after all: those that were added to it later.
-/

set_option autoImplicit false

namespace PluginChain.Script

/-! ## Access -/

/-- Where an entry stands in a list or a table. -/
inductive Step
  | key (k : String)
  | place (i : Nat)
  deriving Repr, DecidableEq, Inhabited

/-- Which parts of a value may be changed. -/
structure Access where
  isConstant : Bool := false
  /-- The ways to the parts of a constant that may be changed. -/
  opened : List (List Step) := []
  deriving Repr, Inhabited

namespace Access

def free : Access := {}

def sealed : Access := { isConstant := true }

/-- The access to a part. -/
def enter (a : Access) (s : Step) : Access :=
  if !a.isConstant then free
  else
    let inside := a.opened.filterMap fun
      | t :: rest => if t = s then some rest else none
      | [] => none
    if inside.any List.isEmpty then free else { a with opened := inside }

/-- The access to the whole, after that to a part has become another one. -/
def leave (a : Access) (s : Step) (part : Access) : Access :=
  if !a.isConstant then free
  else
    let others := a.opened.filter fun way => way.head? ≠ some s
    let inside := if part.isConstant then part.opened.map (s :: ·) else [[s]]
    { a with opened := others ++ inside }

end Access

/-- A value with the right to change it. -/
structure Held where
  value : Value
  access : Access := {}
  /-- Whether the value stands in a variable. -/
  isPlace : Bool := false
  deriving Inhabited

/-! ## The state -/

structure Binding where
  name : String
  value : Value
  access : Access := {}
  deriving Inhabited

/-- What a script printed; a place is told for what is meant for debugging. -/
structure LogEntry where
  text : String
  place : Option Position
  deriving Inhabited

structure Machine where
  /-- The variables of the function that runs, the latest last. -/
  scope : Array Binding := #[]
  cells : Array Held := #[]
  held : Held := { value := .unit }
  this : Option Held := none
  /-- The constants of the script itself. -/
  constants : List (String × Value) := []
  operations : Nat := 0
  /-- All operations, with those that are not counted against the limit. -/
  work : Nat := 0
  /-- What was printed, the latest first. -/
  log : List LogEntry := []
  deriving Inhabited

/-- How a computation ends without a value. -/
inductive Stop
  | failure (f : Failure)
  | leaveLoop (value : Value)
  | nextRound
  | result (value : Value)
  | exit (value : Value)
  /-- The time is over. -/
  | late
  deriving Inhabited

structure Surroundings where
  functions : List FunctionDef
  limits : Limits
  /-- How many operations fit into the time. -/
  workLimit : Nat
  /-- How many calls the function that runs is inside of. -/
  level : Nat := 0
  /-- Whether the statements are those of the script itself. -/
  isOutermost : Bool := true

abbrev Run := ReaderT Surroundings (EStateM Stop Machine)

namespace Run

variable {α : Type}

def fail (fault : Fault) (p : Position := Position.none) : Run α := throw (.failure ⟨fault, p⟩)

/-- The value of what can fail, with a place for the failure. -/
def ofExcept (r : Except Fault α) (p : Position) : Run α :=
  match r with
  | .ok a => return a
  | .error e => fail e p

/-- Gives failures a place if they have none. -/
def located (p : Position) (act : Run α) : Run α := fun c m =>
  match act c m with
  | .error (.failure f) m => .error (.failure (f.orAt p)) m
  | r => r

/-- Counts work that is no operation of the script. -/
def labour (n : Nat) : Run Unit := do
  modify fun m => { m with work := m.work + n }

/-- Counts an operation. -/
def tick (p : Position) : Run Unit := fun c m =>
  let m := { m with operations := m.operations + 1, work := m.work + 1 }
  if c.limits.operations ≠ 0 && c.limits.operations < m.operations then
    .error (.failure ⟨.tooManyOperations, p⟩) m
  else if c.workLimit < m.work then .error .late m
  else .ok () m

/-- How many operations are left, if they are limited. -/
def room : Run (Option Nat) := do
  let most := (← read).limits.operations
  let done := (← get).operations
  return if most = 0 then none else some (most - done)

/-- Runs at the cost of no operations. -/
def uncounted (act : Run α) : Run α := fun c m =>
  match act c m with
  | .ok a n => .ok a { n with operations := m.operations }
  | .error e n => .error e { n with operations := m.operations }

/-! ### Sizes -/

def checkSizes (z : Value.Sizes) (p : Position) : Run Unit := do
  match z.excess? (← read).limits with
  | some what => fail (.tooLarge what) p
  | none => return ()

/-- Refuses a value that is over the limits. -/
def checkSize (v : Value) (p : Position) : Run Unit := do
  match v with
  | .text _ | .list _ | .table _ => do
    let z := v.sizes
    labour ((z.items + z.entries) / 16)
    checkSizes z p
  | _ => return ()

/-! ### Variables -/

/-- Where the value of a name is. -/
inductive Slot
  | variable (i : Nat)
  | cell (k : Nat)
  | this
  deriving Repr, DecidableEq, Inhabited

/-- The place of a name among bindings. -/
def placeOf? (scope : Array Binding) (name : String) : Option Nat := go scope.size
where
  go : Nat → Option Nat
    | 0 => none
    | i + 1 =>
      match scope[i]? with
      | some b => if b.name = name then some i else go i
      | none => go i

def slot? (name : String) : Run (Option Slot) := do
  let m ← get
  match placeOf? m.scope name with
  | none => return none
  | some i =>
    match m.scope[i]? with
    | some ⟨_, .cell k, _⟩ => return some (.cell k)
    | _ => return some (.variable i)

def readSlot (s : Slot) : Run Held := do
  let m ← get
  match s with
  | .variable i =>
    match m.scope[i]? with
    | some b => return ⟨b.value, b.access, true⟩
    | none => return ⟨.unit, {}, true⟩
  | .cell k => return { (m.cells[k]?.getD { value := .unit }) with isPlace := true }
  | .this => return { (m.this.getD { value := .unit }) with isPlace := true }

/-- Puts a value into a slot. -/
def write (s : Slot) (h : Held) (m : Machine) : Machine :=
  match s with
  | .variable i =>
    { m with scope := m.scope.modify i fun b => { b with value := h.value, access := h.access } }
  | .cell k => { m with cells := m.cells.modify k fun _ => h }
  | .this => { m with this := some h }

/-- The value behind the cell of a shared variable. -/
def open_ (v : Value) : Run Value := do
  match v with
  | .cell k => return ((← get).cells[k]?.getD { value := .unit }).value
  | v => return v

def declare (name : String) (value : Value) (access : Access := {}) : Run Unit :=
  modify fun m => { m with scope := m.scope.push ⟨name, value, access⟩ }

/-- Makes a variable one that closures share. -/
def shareVariable (i : Nat) : Run Unit := do
  let m ← get
  match m.scope[i]? with
  | some ⟨_, .cell _, _⟩ | none => return ()
  | some b =>
    set { m with
      cells := m.cells.push ⟨b.value, b.access, true⟩
      scope := m.scope.modify i fun b => { b with value := .cell m.cells.size } }

/-- Runs, after which the variables declared meanwhile are gone. -/
def inScope (act : Run α) : Run α := fun c m =>
  let n := m.scope.size
  match act c m with
  | .ok a m => .ok a { m with scope := m.scope.extract 0 n }
  | .error e m => .error e { m with scope := m.scope.extract 0 n }

/-! ### Parts -/

/-- Runs on a value of its own, and gives what it has become to `back`. -/
def holding (h : Held) (back : Held → Machine → Machine) (act : Run α) : Run α := fun c m =>
  let outer := m.held
  match act c { m with held := h } with
  | .ok a m => .ok a (back m.held { m with held := outer })
  | .error e m => .error e (back m.held { m with held := outer })

/-- Runs on the value of a slot. -/
def onSlot (s : Slot) (act : Run α) : Run α := do
  let h ← readSlot s
  holding h (write s) act

/-- Runs on a value that stands nowhere. -/
def onValue (v : Value) (act : Run α) : Run α := holding ⟨v, {}, false⟩ (fun _ m => m) act

/-- Runs on a part of the value at hand. -/
def onPart (part : Held) (back : Held → Held → Held) (act : Run α) : Run α :=
  holding part (fun h m => { m with held := back m.held h }) act

def held : Run Held := return (← get).held

def setHeld (v : Value) : Run Unit := modify fun m => { m with held := { m.held with value := v } }

/-! ### Printing -/

def print (text : String) (place : Option Position) : Run Unit :=
  modify fun m => { m with log := ⟨text, place⟩ :: m.log }

end Run

end PluginChain.Script
