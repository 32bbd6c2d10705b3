import PluginChain.Limits
import PluginChain.Script.Token
import PluginChain.Script.Tree

/-!
# Faults of syntax, and reading tokens

A `Reading` is the state in which a script is read: the tokens that are left, the variables that are
declared, the functions that are defined.  `Frame` is what a rule of the grammar is told by the rule
around it, above all how deep it stands: `Frame.deeper` refuses what is nested too deep.
-/

set_option autoImplicit false

namespace PluginChain.Script

inductive SyntaxFault
  | token (why : TokenFault)
  | incomplete
  | unknownOperator (symbol : String)
  | missing (symbol why : String)
  | wanted (what : String)
  /-- An expression of one kind stands where another is wanted. -/
  | wrongKind (wanted given : String)
  | badIndex (container wanted given : String)
  | repeatedProperty (name : String)
  | repeatedVariable (name : String)
  | repeatedParam (function param : String)
  | repeatedFunction (name : String) (arity : Nat)
  | noFunctionName
  | noParams (function : String)
  | noBody (function : String)
  | innerFunction
  | noProperty
  | noVariable
  | reserved (word : String)
  | literalTooLarge (what : String) (most : Nat)
  | constantTarget (name : String)
  | badTarget
  | switchNumber
  | switchDefault
  | switchGuard
  | innerExport
  | leaveOutside
  | sharedScopeMethod
  | tooDeep
  deriving Inhabited

structure SyntaxError where
  fault : SyntaxFault
  place : Position
  deriving Inhabited

def SyntaxFault.message : SyntaxFault → String
  | .token why => why.message
  | .incomplete => "Script is incomplete"
  | .unknownOperator s => s!"Unknown operator: '{s}'"
  | .missing symbol why => s!"Expecting '{symbol}' {why}"
  | .wanted what => s!"Expecting {what} expression"
  | .wrongKind kind given => s!"Expecting {kind}, not {given}"
  | .badIndex container kind given => s!"{container} expects {kind} index, not {given}"
  | .repeatedProperty x => s!"Duplicated property for object map literal: {x}"
  | .repeatedVariable x => s!"Duplicated variable name: {x}"
  | .repeatedParam f x => s!"Duplicated parameter {x} for function {f}"
  | .repeatedFunction f 0 => s!"Function {f} with no parameters already exists"
  | .repeatedFunction f n =>
    s!"Function {f} with " ++ Fault.counted n "parameter" ++ " already exists"
  | .noFunctionName => "Expecting function name in function declaration"
  | .noParams f => s!"Expecting parameters for function '{f}'"
  | .noBody f => s!"Expecting body statement block for function '{f}'"
  | .innerFunction =>
    "Function definitions must be at global level and cannot be inside a block or another function"
  | .noProperty => "Expecting name of a property"
  | .noVariable => "Expecting name of a variable"
  | .reserved s =>
    s!"'{s}' is a reserved " ++ if isName s then "keyword" else "symbol"
  | .literalTooLarge what most => s!"{what} exceeds the maximum limit ({most})"
  | .constantTarget "" => "Cannot assign to a constant value"
  | .constantTarget x => s!"Cannot assign to constant {x}"
  | .badTarget => "Expression cannot be assigned to"
  | .switchNumber => "Numeric switch case cannot follow a range case"
  | .switchDefault => "Default switch case must be the last"
  | .switchGuard => "This switch case cannot have a condition"
  | .innerExport => "Export statement can only appear at global level"
  | .leaveOutside => "Break statement should only be used inside a loop"
  | .sharedScopeMethod =>
    "method-call style does not support running within the caller's scope"
  | .tooDeep => "Expression exceeds maximum complexity"

def SyntaxError.message (e : SyntaxError) : String := e.fault.message ++ e.place.suffix

/-! ## Reading -/

structure Reading where
  tokens : List (Token × Position)
  limits : Limits
  /-- The variables in scope, the latest first, each with whether it is a constant. -/
  names : List (String × Bool) := []
  /-- The functions defined so far, the latest first. -/
  functions : List FunctionDef := []
  /-- Variables that are used here and declared around the closure that is read. -/
  captured : List (String × Position) := []
  /-- Whether the next name is a variable and not a property. -/
  mayCapture : Bool := true
  /-- Whether a bar separates the labels of an arm. -/
  barEnds : Bool := false
  closures : Nat := 0

abbrev Reader := EStateM SyntaxError Reading

namespace Reader

def fail {α : Type} (fault : SyntaxFault) (p : Position) : Reader α := throw ⟨fault, p⟩

def peek : Reader (Token × Position) := do
  return (← get).tokens.head?.getD (.ending, Position.none)

/-- The next token, which is taken away unless it is the ending. -/
def next : Reader (Token × Position) := do
  let s ← get
  match s.tokens with
  | [] => return (.ending, Position.none)
  | [t] => return t
  | t :: rest =>
    set { s with tokens := rest }
    return t

def skip : Reader Unit := do
  let _ ← next

/-- Takes a symbol away if it comes next. -/
def accept (symbol : String) : Reader Bool := do
  if (← peek).1 == .sym symbol then
    skip
    return true
  return false

/-- A token that cannot be read is the fault, whatever is missing there. -/
def refuse {α : Type} (fault : SyntaxFault) (t : Token × Position) : Reader α :=
  match t with
  | (.bad why, p) => fail (.token why) p
  | (_, p) => fail fault p

/-- Takes a symbol away, which has to come next. -/
def expect (symbol why : String) : Reader Position := do
  let t ← next
  if t.1 == .sym symbol then return t.2
  refuse (.missing symbol why) t

/-- Repeats a step until it gives a result.  Every step takes a token away, so that there are no
more steps than tokens. -/
def iterate {α β : Type} (step : α → Reader (Sum α β)) (a : α) : Reader β := do
  let rec go : Nat → α → Reader β
    | 0, _ => do fail .incomplete (← peek).2
    | n + 1, a => do
      match ← step a with
      | .inl a => go n a
      | .inr b => return b
  go ((← get).tokens.length + 1) a

/-! ### Variables -/

def declare (name : String) (isConstant : Bool) : Reader Unit :=
  modify fun s => { s with names := (name, isConstant) :: s.names }

/-- Runs a rule, after which the variables it declared are gone. -/
def inScope {α : Type} (rule : Reader α) : Reader α := do
  let names := (← get).names
  let a ← rule
  modify fun s => { s with names }
  return a

/-- Notes the use of a variable.  One that is not declared may be captured. -/
def touch (name : String) (p : Position) : Reader Unit :=
  modify fun s =>
    if !s.mayCapture then { s with mayCapture := true }
    else if s.functions.any (·.name = name) || s.names.any (·.1 = name)
      || s.captured.any (·.1 = name) then s
    else { s with captured := s.captured ++ [(name, p)] }

/-- The name of a variable that is declared. -/
def variableName : Reader (String × Position) := do
  match ← next with
  | (.name x, p) => return (x, p)
  | (.reserved x, p) => fail (if isName x then .reserved x else .noVariable) p
  | t => refuse .noVariable t

end Reader

/-! ## Frames -/

structure Frame where
  level : Nat
  most : Nat
  pos : Position
  isGlobal : Bool := false
  inFunction : Bool := false
  inLoop : Bool := false
  deriving Inhabited

namespace Frame

def deeper (f : Frame) : Reader Frame :=
  if f.most ≠ 0 && f.most < f.level + 1 then Reader.fail .tooDeep f.pos
  else return { f with level := f.level + 1 }

def at_ (f : Frame) (p : Position) : Frame := { f with pos := p }

end Frame

/-! ## Kinds of expressions -/

namespace Expr

/-- The word for an expression that is surely not of the kind that is wanted. -/
def kindWord? (isTextual isList isTable isFlag : Bool) : Expr → Option String
  | .const (.flag _) _ => if isFlag then some "a boolean" else none
  | .const .unit _ => some "()"
  | .const (.int _) _ => some "a number"
  | .const (.float _) _ => some "a floating-point number"
  | .const (.char _) _ => some "a character"
  | .const (.text _) _ | .template .. => if isTextual then some "a string" else none
  | .list .. => if isList then some "an array" else none
  | .table .. => if isTable then some "an object map" else none
  | .const v _ => if isList then some v.typeName else none
  | _ => none

/-- The expression, unless it surely is no flag. -/
def checkFlag (e : Expr) : Reader Expr :=
  match e.kindWord? true true true false with
  | some word => Reader.fail (.wrongKind "a boolean expression" word) e.pos
  | none => return e

/-- The expression, unless nothing can be looped over there. -/
def checkIterable (e : Expr) : Reader Expr :=
  match e.kindWord? false false true true with
  | some word => Reader.fail (.wrongKind "an iterable value" word) e.pos
  | none => return e

/-- Refuses an index that the literal before it cannot have. -/
def checkIndex (container index : Expr) : Reader Unit := do
  let word := match index with
    | .const (.int _) _ => "a number"
    | .const (.float _) _ => "a floating-point number"
    | .const (.char _) _ => "a character"
    | .const (.flag _) _ | .all .. | .any .. => "a boolean"
    | .const .unit _ => "()"
    | .const (.text _) _ | .template .. => "a string"
    | .list .. => "an array"
    | .table .. => "an object map"
    | _ => ""
  let refuse (name wanted : String) : Reader Unit :=
    if word = "" then return () else Reader.fail (.badIndex name wanted word) index.start
  match container, word with
  | .table .., "a string" => return ()
  | .table .., _ => refuse "Object map" "string"
  | .const (.int _) _, "a number" | .list .., "a number" | .const (.text _) _, "a number"
  | .template .., "a number" => return ()
  | .const (.int _) _, _ | .list .., _ | .const (.text _) _, _ | .template .., _ =>
    refuse "Array, string or bit-field" "numeric"
  | _, _ => return ()

end Expr

end PluginChain.Script
