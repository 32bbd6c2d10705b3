import PluginChain.Script.Fault

/-!
# Syntax trees of a script

An expression has a value, a statement is run, a block is a list of statements with a scope of its
own.  A chain is a root with the links behind it: in `a.b[0].f(x)` the root is `a` and the links are
a property, an index and a method.

`Expr.pos` is the position of what an expression is about (its operator, the first link of a chain),
`Expr.start` that of where it begins.
-/

set_option autoImplicit false

namespace PluginChain.Script

/-- The sign before a link. -/
structure Joint where
  pos : Position
  /-- Whether the rest of the chain is passed over behind a unit. -/
  skipsUnit : Bool
  deriving Inhabited

/-- What an arm of a `switch` is for. -/
inductive Label
  | value (v : Value)
  | span (first last : Int) (isClosed : Bool)
  deriving Inhabited

mutual

inductive Expr
  | const (v : Value) (pos : Position)
  /-- A text put together from parts. -/
  | template (parts : List Expr) (pos : Position)
  | list (items : List Expr) (pos : Position)
  | table (entries : List (String × Expr)) (pos : Position)
  | variable (name : String) (pos : Position)
  /-- A variable of a module. -/
  | qualified (path : List (String × Position)) (name : String) (pos : Position)
  | this (pos : Position)
  | block (b : Block)
  | call (c : Call)
  | chain (root : Expr) (links : List Link)
  /-- Whether all operands hold; those behind one that does not are passed over. -/
  | all (operands : List Expr) (pos : Position)
  /-- Whether some operand holds; those behind it are passed over. -/
  | any (operands : List Expr) (pos : Position)
  /-- The first value that is no unit. -/
  | firstGiven (operands : List Expr) (pos : Position)

structure Call where
  name : String
  path : List (String × Position)
  args : List Expr
  isOperator : Bool
  /-- Whether the function sees the variables of its caller. -/
  sharesScope : Bool
  pos : Position

inductive Link
  | property (name : String) (joint : Joint) (pos : Position)
  | method (name : String) (args : List Expr) (joint : Joint) (pos : Position)
  | index (at_ : Expr) (joint : Joint)

inductive Stmt
  | noop (pos : Position)
  | choose (cond : Expr) (yes no : Block) (pos : Position)
  | switch (subject : Expr) (arms : List Arm) (default : Option Expr) (pos : Position)
  /-- Goes on while the condition holds, and for ever if it is a unit. -/
  | whileLoop (cond : Expr) (body : Block) (pos : Position)
  /-- Runs the body once before the condition is asked. -/
  | doLoop (body : Block) (cond : Expr) (stopsWhen : Bool) (pos : Position)
  | forLoop (name : String) (counter : Option String) (source : Expr) (body : Block)
      (pos : Position)
  | bind (name : String) (namePos : Position) (value : Expr) (isConstant : Bool) (pos : Position)
  | assign (op : Option String) (target value : Expr) (pos : Position)
  /-- A call whose value is that of the statement. -/
  | call (c : Call)
  | block (b : Block)
  | attempt (body : Block) (name : Option String) (handler : Block) (pos : Position)
  | expr (e : Expr)
  | leaveLoop (value : Option Expr) (pos : Position)
  | nextRound (pos : Position)
  | result (value : Option Expr) (pos : Position)
  | throw_ (value : Option Expr) (pos : Position)
  | use (path : Expr) (pos : Position)
  | publish (name : String) (namePos : Position) (pos : Position)
  /-- Variables become ones that closures share. -/
  | share (names : List (String × Position))

structure Block where
  stmts : List Stmt
  pos : Position

structure Arm where
  labels : List Label
  guard : Expr
  body : Expr

end

instance : Inhabited Expr := ⟨.const .unit Position.none⟩
instance : Inhabited Block := ⟨⟨[], Position.none⟩⟩
instance : Inhabited Stmt := ⟨.noop Position.none⟩

/-- A function that a script defines. -/
structure FunctionDef where
  name : String
  params : List String
  body : Block
  deriving Inhabited

structure Program where
  body : List Stmt
  functions : List FunctionDef
  deriving Inhabited

def Link.joint : Link → Joint
  | .property _ j _ => j
  | .method _ _ j _ => j
  | .index _ j => j

namespace Expr

def pos : Expr → Position
  | .const _ p | .template _ p | .list _ p | .table _ p | .variable _ p | .qualified _ _ p
  | .this p | .all _ p | .any _ p | .firstGiven _ p => p
  | .block b => b.pos
  | .call c => c.pos
  | .chain root links =>
    match links with
    | l :: _ => l.joint.pos
    | [] => root.pos

def start : Expr → Position
  | .chain root _ => root.start
  | .all (e :: _) _ | .any (e :: _) _ | .firstGiven (e :: _) _ => e.start
  | e => e.pos

/-- A call of an operator. -/
def operator (name : String) (args : List Expr) (pos : Position) : Expr :=
  .call ⟨name, [], args, true, false, pos⟩

def unitAt (pos : Position) : Expr := .const .unit pos

def isVariable : Expr → Bool
  | .variable .. => true
  | _ => false

end Expr

/-- The position of a link by itself. -/
def Link.pos : Link → Position
  | .property _ _ p => p
  | .method _ _ _ p => p
  | .index e _ => e.pos

def Stmt.pos : Stmt → Position
  | .noop p | .choose _ _ _ p | .switch _ _ _ p | .whileLoop _ _ p | .doLoop _ _ _ p
  | .forLoop _ _ _ _ p | .bind _ _ _ _ p | .assign _ _ _ p | .attempt _ _ _ p | .leaveLoop _ p
  | .nextRound p | .result _ p | .throw_ _ p | .use _ p | .publish _ _ p => p
  | .call c => c.pos
  | .block b => b.pos
  | .expr e => e.start
  | .share names => (names.head?.map (·.2)).getD Position.none

/-- Whether a statement needs no semicolon behind it. -/
def Stmt.isClosed : Stmt → Bool
  | .noop _ | .choose .. | .switch .. | .whileLoop .. | .forLoop .. | .block _ | .attempt .. => true
  | _ => false

/-- A statement as a block. -/
def Stmt.toBlock : Stmt → Block
  | .block b => b
  | .noop p => ⟨[], p⟩
  | s => ⟨[s], s.pos⟩

/-! ## Constants -/

mutual

/-- The value of an expression that is written out whole. -/
def Expr.literal? : Expr → Option Value
  | .const v _ => some v
  | .list items _ => (literals? items).map .list
  | .table entries _ => (entryLiterals? entries).map fun es => .table (Entries.ofList es)
  | .template parts _ => (literals? parts).map fun vs => .text (String.join (vs.map Value.shown))
  | .call c =>
    match c.isOperator, c.name, c.args with
    | true, name, [.const a _, .const b _] => Value.rangeOf? name a b
    | false, "Fn", [.const (.text f) _] => some (.function f [])
    | _, _, _ => none
  | _ => none

def literals? : List Expr → Option (List Value)
  | [] => some []
  | e :: rest => do
    let v ← e.literal?
    let vs ← literals? rest
    return v :: vs

def entryLiterals? : List (String × Expr) → Option (List (String × Value))
  | [] => some []
  | (k, e) :: rest => do
    let v ← e.literal?
    let vs ← entryLiterals? rest
    return (k, v) :: vs

end

mutual

/-- Whether an expression is made of constants alone. -/
def Expr.isConst : Expr → Bool
  | .const .. => true
  | .list items _ | .template items _ => allConst items
  | .table entries _ => entriesConst entries
  | _ => false

def allConst : List Expr → Bool
  | [] => true
  | e :: rest => e.isConst && allConst rest

def entriesConst : List (String × Expr) → Bool
  | [] => true
  | (_, e) :: rest => e.isConst && entriesConst rest

end

end PluginChain.Script
