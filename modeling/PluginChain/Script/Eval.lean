import PluginChain.Script.Arm
import PluginChain.Script.Call
import PluginChain.Script.Part
import PluginChain.Script.Syntax

/-!
# Evaluating scripts

`evaluate` gives an expression or a block its value.  It has a fixed depth that no script gets near,
since the depth of expressions and of calls is limited; a step calls only the evaluator one level
down (`Runner`).  Loops go for a number of rounds that no script lives to see, since the time it has
is a number of operations.
-/

set_option autoImplicit false

namespace PluginChain.Script

namespace Run

variable (run : Runner)

/-! ## Variables and arguments -/

/-- The value of a variable as it stands there.  A name that is none may be that of a function. -/
def lookup (x : String) (p : Position) : Run Value := do
  match placeOf? (← get).scope x with
  | some i => return ((← get).scope[i]?.map Binding.value).getD .unit
  | none => if ← hasFunction x then return .function x [] else fail (.variableNotFound x) p

/-- The value of an argument; a variable that is shared stays so. -/
def shareable (e : Expr) : Run Value := do
  match e with
  | .variable x p => do
    tick p
    lookup x p
  | e => run (.expr e)

def arguments : List Expr → Run (List Value)
  | [] => return []
  | e :: rest => do
    let v ← run (.expr e)
    return v :: (← arguments rest)

def flag (v : Value) (p : Position) : Run Bool :=
  match v with
  | .flag b => return b
  | v => fail (.wrongType v.actualTypeName "bool") p

def condition (e : Expr) : Run Bool := do flag (← run (.expr e)) e.pos

/-! ## Operands that may be passed over -/

def all : List Expr → Run Bool
  | [] => return true
  | e :: rest => do if ← condition run e then all rest else return false

def any : List Expr → Run Bool
  | [] => return false
  | e :: rest => do if ← condition run e then return true else any rest

def firstGiven : List Expr → Run Value
  | [] => return .unit
  | e :: rest => do
    let v ← run (.expr e)
    if v.isUnit then firstGiven rest else return v

/-! ## Literals -/

def itemValues : List Expr → Value.Sizes → Run (List Value)
  | [], _ => return []
  | e :: rest, z => do
    let v ← run (.expr e)
    let z := v.addSizes { z with items := z.items + 1 }
    checkSizes z e.pos
    return v :: (← itemValues rest z)

def entryValues : List (String × Expr) → Value.Sizes → Run (List (String × Value))
  | [], _ => return []
  | (k, e) :: rest, z => do
    let v ← run (.expr e)
    let z := v.addSizes { z with entries := z.entries + 1 }
    checkSizes z e.pos
    return (k, v) :: (← entryValues rest z)

/-- The text of a template.  To add a value that is neither a text nor a character is an operation. -/
def templateText : List Expr → String → Run Value
  | [], s => return .text s
  | e :: rest, s => do
    let v ← run (.expr e)
    if !v.isTextual then tick e.start
    let s := s ++ v.shown
    checkSizes { bytes := s.utf8ByteSize } e.pos
    templateText rest s

/-- A variable of a module.  The only module there is holds the constants of the script. -/
def qualified (path : List (String × Position)) (x : String) (p : Position) : Run Value := do
  let names := path.map (·.1)
  let place := (path.head?.map (·.2)).getD p
  if names = ["global"] then
    match (← get).constants.lookup x with
    | some v => return v
    | none => fail (.variableNotFound s!"global::{x}") place
  else fail (.moduleNotFound ("::".intercalate names)) place

/-! ## Calls -/

/-- The value of an operator. -/
def operation (c : Call) : Run Value := do
  let native (args : List Value) (r : Reply) : Run Value := do
    tick c.pos
    match r with
    | none => fail (.functionNotFound (signature c.name args)) c.pos
    | some r => do
      let v ← ofExcept r c.pos
      checkSize v c.pos
      return v
  match c.args with
  | [e] => do
    let v ← run (.expr e)
    match Operator.before? c.name v with
    | some a => ofExcept a c.pos
    | none => native [v] none
  | [l, r] => do
    let l ← run (.expr l)
    let r ← run (.expr r)
    let most := (← read).limits.textSize
    match Operator.basic? most c.name l r with
    | some a => ofExcept a c.pos
    | none => native [l, r] (Operator.between? most (← room) c.name l r)
  | _ => fail (.functionNotFound (signature c.name [])) c.pos

/-- Calls a function whose first argument is a variable.  One of the library works on the variable
itself, unless that is a constant or shared. -/
def callWithVariable (name x : String) (q : Position) (rest : List Expr) (p : Position) :
    Run Value := do
  let vs ← arguments run rest
  match ← slot? x with
  | none => do
    tick q
    callByName run name ((← lookup x q) :: vs) false p
  | some s => do
    tick q
    let h ← readSlot s
    let byValue : Run Value := callByName run name (h.value :: vs) false p
    match s with
    | .variable _ =>
      if h.access.isConstant || (← function? name (vs.length + 1)).isSome || name = "type_of" then
        byValue
      else onSlot s (callNative run name vs p)
    | _ => byValue

/-- The function of a name that a script gives. -/
def functionNamed (v : Value) (p : Position) : Run Value :=
  match v with
  | .text f =>
    if isFunctionName f then return .function f []
    else if isKept f then fail (.unreadable (SyntaxFault.reserved f).message) p
    else fail (.functionNotFound f) p
  | v => fail (.wrongType v.actualTypeName "string") p

/-- Calls that are not calls of functions, and then the others. -/
def named (c : Call) : Run Value := do
  match c.name, c.args with
  | "call", e :: rest => do
    match ← run (.expr e) with
    | .function f bound => do callByName run f (bound ++ (← arguments run rest)) false c.pos
    | v => fail (.wrongType v.typeName "Fn") e.start
  | "Fn", [e] => do functionNamed (← run (.expr e)) e.start
  | "curry", e :: more :: rest => do
    match ← run (.expr e) with
    | .function f bound => return .function f (bound ++ (← (more :: rest).mapM (shareable run)))
    | v => fail (.wrongType v.typeName "Fn") e.start
  | "is_shared", [e] => return .flag (← shareable run e).isCell
  | "is_def_fn", [f, n] => do
    match ← run (.expr f), ← run (.expr n) with
    | .text f, .int n => return .flag (0 ≤ n && (← function? f n.toNat).isSome)
    | .text _, v => fail (.wrongType v.actualTypeName "i64") n.start
    | v, _ => fail (.wrongType v.actualTypeName "string") f.start
  | "is_def_var", [e] => do
    match ← run (.expr e) with
    | .text x => return .flag (placeOf? (← get).scope x).isSome
    | v => fail (.wrongType v.actualTypeName "string") e.start
  | name, args => do
    match c.sharesScope, args with
    | false, .variable x q :: rest => callWithVariable run name x q rest c.pos
    | shares, args => do callByName run name (← arguments run args) shares c.pos

def callExpr (c : Call) : Run Value := do
  if c.isOperator then operation run c
  else
    match c.path with
    | [] => named run c
    | (m, q) :: rest => do
      let _ ← arguments run c.args
      fail (.moduleNotFound ("::".intercalate (m :: rest.map (·.1)))) q

/-! ## Chains -/

/-- The values that a link needs. -/
def linkValues (l : Link) : Run (List Value) :=
  match l with
  | .property .. => return []
  | .method _ args _ _ => arguments run args
  | .index e _ => do return [← run (.expr e)]

/-- The values that all links need, before the first is followed. -/
def chainValues : List Link → Run (List (Link × List Value))
  | [] => return []
  | [l] => do
    tick l.pos
    return [(l, ← linkValues run l)]
  | l :: next :: rest => do
    tick next.joint.pos
    let vs ← linkValues run l
    return (l, vs) :: (← chainValues (next :: rest))

/-- The values for a chain of one link, which may be there already. -/
def linksValues (links : List Link) : Run (List (Link × List Value)) :=
  match links with
  | [.property x j p] => return [(.property x j p, [])]
  | [.index (.const v p) j] => return [(.index (.const v p) j, [v])]
  | [.method x [] j p] => return [(.method x [] j p, [])]
  | links => chainValues run links

/-- The property of a value that is no table. -/
def property (v : Value) (x : String) (p : Position) : Run Value := do
  tick p
  match Library.property? (← read).limits (← now) x v with
  | some w => return w
  | none =>
    fail (.property s!"Unknown property '{x}' - a getter is not registered for type '{v.typeName}'") p

/-- Nothing but tables has properties that can be written. -/
def assignProperty (a : Assignment) (v : Value) (x : String) (p : Position) : Run Value := do
  let new ← match a.op with
    | none => pure a.value
    | some op => updated op (← property v x p) a.value a.pos
  tick p
  fail (.property <| s!"No writable property '{x}' - a setter is not registered for type " ++
    s!"'{v.typeName}' to handle '{new.typeName}'") p

/-- Follows the links from the value at hand, and carries the assignment out at the last one. -/
def follow (a : Option Assignment) : List (Link × List Value) → Run Value
  | [] => return (← held).value
  | (l, vs) :: rest => do
    let h ← held
    if l.joint.skipsUnit && h.value.isUnit then return .unit
    match l, vs with
    | .index e j, [i] => do
      tick Position.none
      match rest, a with
      | [], some a => do
        assignIndex a i e.start j.pos
        return .unit
      | [], none => readIndex i e.start j.pos
      | _ :: _, _ => onIndex i e.start j.pos false (follow a rest)
    | .property x _ p, _ =>
      match h.value with
      | .table es => do
        tick Position.none
        match rest, a with
        | [], some a => do
          onEntry es x true (assign a)
          checkSize (← held).value a.pos
          return .unit
        | [], none => return (Entries.get? x es).getD .unit
        | _ :: _, _ => onEntry es x false (follow a rest)
      | v =>
        match rest, a with
        | [], some a => assignProperty a v x p
        | [], none => property v x p
        | _ :: _, _ => do onValue (← property v x p) (follow a rest)
    | .method x args _ p, vs => do
      let q := (args.head?.map Expr.start).getD Position.none
      let v ← callMethod run x vs q p
      match rest with
      | [] => return v
      | _ :: _ => onValue v (follow a rest)
    | _, _ => return h.value

/-- The assignment at the end of a chain, before its root is known. -/
structure ChainAssignment where
  op : Option String
  value : Value
  pos : Position

def asksShared : List Link → Bool
  | [.method "is_shared" [] _ _] => true
  | _ => false

def chainExpr (root : Expr) (links : List Link) (a : Option ChainAssignment) : Run Value := do
  let steps ← linksValues run links
  let assignment (x : String) (p : Position) : Option Assignment :=
    a.map fun a => ⟨a.op, a.value, a.pos, x, p⟩
  match root with
  | .variable x p => do
    tick p
    match ← slot? x with
    | some s =>
      if asksShared links then return .flag (s matches .cell _)
      onSlot s (follow run (assignment x p) steps)
    | none => do onValue (← lookup x p) (follow run (assignment x p) steps)
  | .this p => do
    tick p
    if (← get).this.isNone then fail .unboundThis p
    onSlot .this (follow run (assignment "this" p) steps)
  | e => do
    let v ← run (.expr e)
    onValue v (follow run (assignment "" e.start) steps)

/-! ## Expressions -/

def expr (e : Expr) : Run Value := do
  tick e.pos
  match e with
  | .const v _ => return v
  | .variable x p => do open_ (← lookup x p)
  | .qualified path x p => qualified path x p
  | .this p => do
    match (← get).this with
    | some h => return h.value
    | none => fail .unboundThis p
  | .template parts _ => templateText run parts ""
  | .list items _ => return .list (← itemValues run items {})
  | .table entries _ => return .table (Entries.ofList (← entryValues run entries {}))
  | .all es _ => return .flag (← all run es)
  | .any es _ => return .flag (← any run es)
  | .firstGiven es _ => firstGiven run es
  | .block b => if b.stmts.isEmpty then return .unit else run (.block b)
  | .call c => callExpr run c
  | .chain root links => chainExpr run root links none

/-! ## Loops -/

/-- More rounds than there is time for. -/
def rounds : Nat := 2 ^ 62

/-- Repeats a step until it gives a value. -/
def untilValue (step : Run (Option Value)) : Nat → Run Value
  | 0 => throw .late
  | n + 1 => do
    match ← step with
    | some v => return v
    | none => untilValue step n

/-- Runs the body of a loop.  A value is given if the loop was left. -/
def loopBody (b : Block) : Run (Option Value) := fun c m =>
  if b.stmts.isEmpty then .ok none m
  else
    match run (.block b) c m with
    | .ok _ m => .ok none m
    | .error .nextRound m => .ok none m
    | .error (.leaveLoop v) m => .ok (some v) m
    | .error e m => .error e m

/-- As `loopBody`; the flag tells that the round was cut short. -/
def loopBodyCut (b : Block) : Run (Option Value × Bool) := fun c m =>
  if b.stmts.isEmpty then .ok (none, false) m
  else
    match run (.block b) c m with
    | .ok _ m => .ok (none, false) m
    | .error .nextRound m => .ok (none, true) m
    | .error (.leaveLoop v) m => .ok (some v, false) m
    | .error e m => .error e m

def whileLoop (cond : Expr) (body : Block) : Run Value :=
  match cond with
  | .const .unit _ | .const (.flag true) _ =>
    untilValue (do
      if body.stmts.isEmpty then tick body.pos
      loopBody run body) rounds
  | cond =>
    untilValue (do
      if ← condition run cond then loopBody run body else return some .unit) rounds

def doLoop (body : Block) (cond : Expr) (stopsWhen : Bool) : Run Value :=
  untilValue (do
    let (left, isCut) ← loopBodyCut run body
    if left.isSome || isCut then return left
    if (← condition run cond) = stopsWhen then return some .unit else return none) rounds

/-- The first element of what is looped over, and the rest. -/
inductive Source
  | items (xs : List Value)
  | ints (next stop : Int)
  | steps (next stop step : Int)
  | floats (next stop step : Float)

/-- What can be looped over. -/
def Source.of? : Value → Option Source
  | .list xs => some (.items xs)
  | .text s => some (.items (s.toList.map .char))
  | .range a b isClosed => some (.ints a (if isClosed then b + 1 else b))
  | .series (.ints a b step) => some (.steps a b step)
  | .series (.floats a b step) => some (.floats a b step)
  | .series (.chars cs) => some (.items (cs.map .char))
  | .series (.bits bs) => some (.items (bs.map .flag))
  | _ => none

def Source.next? : Source → Option (Value × Source)
  | .items [] => none
  | .items (x :: rest) => some (x, .items rest)
  | .ints a b => if a < b then some (.int a, .ints (a + 1) b) else none
  | .steps a b step =>
    if (0 < step && a < b) || (step < 0 && b < a) then some (.int a, .steps (a + step) b step)
    else none
  | .floats a b step =>
    if (0.0 < step && a < b) || (step < 0.0 && b < a) then
      some (.float a, .floats (a + step) b step)
    else none

/-- Gives a variable another value, in its cell if it is shared. -/
def setVariable (i : Nat) (v : Value) : Run Unit := fun c m =>
  match m.scope[i]? with
  | some ⟨_, .cell k, _⟩ => .ok () (write (.cell k) ⟨v, {}, true⟩ m)
  | _ => let _ := c; .ok () (write (.variable i) ⟨v, {}, true⟩ m)

/-- Runs the body for each element. -/
def eachElement (counter : Option Nat) (place : Nat) (body : Block) : Nat → Source → Nat → Run Value
  | 0, _, _ => throw .late
  | n + 1, source, i => do
    match source.next? with
    | none => return .unit
    | some (v, source) => do
      counter.forM fun k => setVariable k (.int i)
      setVariable place v
      if body.stmts.isEmpty then tick body.pos
      match ← loopBody run body with
      | some v => return v
      | none => eachElement counter place body n source (i + 1)

def forLoop (name : String) (counter : Option String) (source : Expr) (body : Block) :
    Run Value := do
  let v ← run (.expr source)
  match Source.of? v with
  | none => fail .notIterable source.start
  | some s => inScope do
    let counterPlace ← counter.mapM fun x => do
      declare x (.int 0)
      return (← get).scope.size - 1
    declare name .unit
    eachElement run counterPlace ((← get).scope.size - 1) body rounds s 0

/-! ## Choices -/

/-- The body of the first arm whose guard holds. -/
def firstArm : List Arm → Run (Option Expr)
  | [] => return none
  | a :: rest => do
    let holds ← match a.guard with
      | .const (.flag b) _ => pure b
      | e => condition run e
    if holds then return some a.body else firstArm rest

def switch (subject : Expr) (arms : List Arm) (default : Option Expr) : Run Value := do
  let v ← run (.expr subject)
  match (← firstArm run (Arm.selected v arms)).or default with
  | some e => run (.expr e)
  | none => return .unit

/-- Runs a block, and its handler for a failure that a script can catch. -/
def attempt (body : Block) (name : Option String) (handler : Block) : Run Value := fun c m =>
  match run (.block body) c m with
  | .ok _ m => .ok .unit m
  | .error (.failure e) m =>
    if e.fault.isOfSandbox then .error (.failure e) m
    else
      let handled : Run Value := inScope do
        name.forM (declare · e.toValue)
        run (.block handler)
      match handled c m with
      | .ok _ m => .ok .unit m
      | .error (.failure ⟨.thrown .unit, p⟩) m => .error (.failure { e with place := p }) m
      | .error s m => .error s m
  | .error s m => .error s m

/-! ## Statements -/

def value (e : Option Expr) : Run Value :=
  match e with
  | some e => run (.expr e)
  | none => return .unit

def bind (x : String) (e : Expr) (isConstant : Bool) : Run Unit := do
  let v ← run (.expr e)
  if isConstant && (← read).isOutermost then
    modify fun m => { m with constants := (x, v) :: m.constants }
  declare x v (if isConstant then .sealed else .free)

/-- An assignment to a variable, to `this` or to the end of a chain. -/
def assignStmt (op : Option String) (target e : Expr) (p : Position) : Run Unit := do
  let v ← run (.expr e)
  match target with
  | .variable x q => do
    tick q
    match ← slot? x with
    | some s => onSlot s (assign ⟨op, v, p, x, q⟩)
    | none => do
      let _ ← lookup x q
      fail (.constant x) q
  | .this q => do
    tick q
    if (← get).this.isNone then fail .unboundThis q
    onSlot .this (assign ⟨op, v, p, "this", q⟩)
  | .qualified path x q => do
    tick q
    let _ ← qualified path x q
    fail (.constant x) q
  | .chain root links => do
    let _ ← chainExpr run root links (some ⟨op, v, p⟩)
  | e => fail (.constant "") e.start

def shareStmt : List (String × Position) → Run Unit
  | [] => return ()
  | (x, p) :: rest => do
    match placeOf? (← get).scope x with
    | some i => shareVariable i
    | none => fail (.variableNotFound x) p
    shareStmt rest

def blockOrUnit (b : Block) : Run Value :=
  if b.stmts.isEmpty then return .unit else run (.block b)

def stmt (s : Stmt) : Run Value := do
  tick s.pos
  let done (act : Run Unit) : Run Value := do
    act
    return .unit
  match s with
  | .noop _ => return .unit
  | .expr e => run (.expr e)
  | .call c => callExpr run c
  | .block b => blockOrUnit run b
  | .choose cond yes no _ => do
    if ← condition run cond then blockOrUnit run yes else blockOrUnit run no
  | .switch subject arms default _ => switch run subject arms default
  | .whileLoop cond body _ => whileLoop run cond body
  | .doLoop body cond stopsWhen _ => doLoop run body cond stopsWhen
  | .forLoop name counter source body _ => forLoop run name counter source body
  | .bind x _ e isConstant _ => done (bind run x e isConstant)
  | .assign op target e p => done (assignStmt run op target e p)
  | .attempt body name handler _ => attempt run body name handler
  | .leaveLoop e _ => do throw (.leaveLoop (← value run e))
  | .nextRound _ => throw .nextRound
  | .result e _ => do throw (.result (← value run e))
  | .throw_ e p => do fail (.thrown (← value run e)) p
  | .use path _ => do
    match ← run (.expr path) with
    | .text m => fail (.moduleNotFound m) path.start
    | v => fail (.wrongType v.actualTypeName "string") path.start
  | .publish x p _ => do
    if (placeOf? (← get).scope x).isNone then fail (.variableNotFound x) p
    return .unit
  | .share names => done (shareStmt names)

/-- The value of the last of some statements. -/
def statements : List Stmt → Value → Run Value
  | [], v => return v
  | s :: rest, _ => do
    let v ← stmt run s
    statements rest v

/-- Runs inside a block. -/
def inBlock {α : Type} (act : Run α) : Run α := fun c m => act { c with isOutermost := false } m

end Run

/-- The value of an expression or a block. -/
def evaluate : Nat → Runner
  | 0, _ => throw .late
  | n + 1, .expr e => Run.inBlock (Run.expr (evaluate n) e)
  | n + 1, .block b => Run.inBlock (Run.inScope (Run.statements (evaluate n) b.stmts .unit))

end PluginChain.Script
