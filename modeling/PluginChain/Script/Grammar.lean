import PluginChain.Script.Syntax

/-!
# The grammar

Each rule of the grammar is a function of `Rules`, the record of all rules one level down, so that
no rule refers to itself.  `Rules.tower` stacks the levels; a script of `n` tokens never needs more
than a fixed number of levels for each of them.  `Program.parse?` reads a script: its statements,
and the functions and closures defined in it.
-/

set_option autoImplicit false

namespace PluginChain.Script

open Reader

/-- The rules as they are used inside others. -/
structure Rules where
  expr : Frame → Reader Expr
  unary : Frame → Reader Expr
  primary : Frame → Reader Expr
  operators : Frame → Nat → Expr → Reader Expr
  indexes : Frame → Expr → Joint → Bool → Reader (List Link)
  stmt : Frame → Reader Stmt
  block : Frame → Reader Block
  choose : Frame → Reader Stmt

namespace Grammar

/-! ## Lists of expressions -/

/-- The arguments of a call, behind the opening parenthesis. -/
def arguments (g : Rules) (name : String) (f : Frame) : Reader (List Expr) := do
  let unclosed := SyntaxFault.missing ")" s!"to close the arguments list of this function call '{name}'"
  match ← peek with
  | (.ending, p) => fail unclosed p
  | (.bad why, p) => fail (.token why) p
  | (.sym ")", _) => do
    skip
    return []
  | _ => do
    let f ← f.deeper
    iterate (fun (back : List Expr) => do
      let back ← if (← peek).1 == .sym ")" then pure back else (· :: back) <$> g.expr f
      match ← peek with
      | (.sym ")", _) => do
        skip
        return .inr back.reverse
      | (.sym ",", _) => do
        skip
        return .inl back
      | (.ending, p) => fail unclosed p
      | t => refuse (.missing "," s!"to separate the arguments to function call '{name}'") t) []

/-- A list, behind its opening bracket. -/
def listLiteral (g : Rules) (f : Frame) : Reader Expr := do
  let f := f.at_ (← next).2
  let most := (← get).limits.listSize
  let unclosed := SyntaxFault.missing "]" "to end this array literal"
  let items ← iterate (fun (back : List Expr) => do
    let (t, p) ← peek
    if most ≠ 0 && most ≤ back.length then fail (.literalTooLarge "Size of array literal" most) p
    match t with
    | .sym "]" => do
      skip
      return .inr back.reverse
    | .ending => fail unclosed p
    | _ => do
      let item ← g.expr (← f.deeper)
      match ← peek with
      | (.sym ",", _) => skip
      | (.sym "]", _) => pure ()
      | (.ending, p) => fail unclosed p
      | t => refuse (.missing "," "to separate the items of this array literal") t
      return .inl (item :: back)) []
  return .list items f.pos

/-- The name of an entry of a table. -/
def entryName (entries : List (String × Expr)) : Reader String := do
  let unclosed := SyntaxFault.missing "\x7d" "to end this object map literal"
  match ← next with
  | (.name k, p) | (.text k, p) => do
    if entries.any (·.1 = k) then fail (.repeatedProperty k) p
    return k
  | (.template _, p) => fail .noProperty p
  | (.reserved s, p) => fail (.reserved s) p
  | (.ending, p) => fail unclosed p
  | t => refuse (if entries.isEmpty then unclosed else .noProperty) t

/-- A table, behind its opening brace. -/
def tableLiteral (g : Rules) (f : Frame) : Reader Expr := do
  let f := f.at_ (← next).2
  let most := (← get).limits.tableSize
  let unclosed := SyntaxFault.missing "\x7d" "to end this object map literal"
  let entries ← iterate (fun (back : List (String × Expr)) => do
    match ← peek with
    | (.sym "\x7d", _) => do
      skip
      return .inr back.reverse
    | (.ending, p) => fail unclosed p
    | _ => do
      let k ← entryName back
      let _ ← expect ":" s!"to follow the property '{k}' in this object map literal"
      if most ≠ 0 && most ≤ back.length then
        fail (.literalTooLarge "Number of properties in object map literal" most) (← peek).2
      let e ← g.expr (← f.deeper)
      match ← peek with
      | (.sym ",", _) => skip
      | (.sym "\x7d", _) => pure ()
      | (.name _, p) =>
        fail (.missing "," "to separate the items of this object map literal") p
      | t => refuse unclosed t
      return .inl ((k, e) :: back)) []
  return .table entries f.pos

/-! ## Functions -/

/-- Names between separators, up to a closing symbol. -/
def paramNames (function close : String) (unclosed apart : SyntaxFault) : Reader (List String) :=
  iterate (fun (back : List String) => do
    match ← next with
    | (.name x, p) => do
      if back.contains x then fail (.repeatedParam function x) p
      declare x false
      match ← next with
      | (.sym ",", _) => return .inl (x :: back)
      | (.sym s, p) => if s = close then return .inr (x :: back).reverse else fail apart p
      | t => refuse apart t
    | (.sym s, p) => if s = close then return .inr back.reverse else fail unclosed p
    | t => refuse unclosed t) []

/-- Runs a rule for the inside of a function, and gives back what it captured. -/
def isolated {α : Type} (rule : Reader α) : Reader (α × List (String × Position)) := do
  let s ← get
  set { s with names := [], captured := [], mayCapture := true, barEnds := false }
  let a ← rule
  let captured := (← get).captured
  modify fun t => { t with
    names := s.names, captured := s.captured, mayCapture := s.mayCapture, barEnds := s.barEnds }
  return (a, captured)

/-- A closure.  The variables it captures are its first parameters, and are bound at once. -/
def closure (g : Rules) (f : Frame) : Reader Expr := do
  let inner ← f.deeper
  let ((params, body), captured) ← isolated do
    let params ← match (← next).1 with
      | .sym "||" => pure []
      | _ =>
        paramNames "" "|"
          (.missing "|" "to close the parameters list of anonymous function or closure")
          (.missing "," "to separate the parameters of anonymous function")
    return (params, ← g.stmt { inner with inFunction := true, inLoop := false, isGlobal := false })
  let name := closureName (← get).closures
  modify fun s => { s with
    closures := s.closures + 1
    functions := ⟨name, captured.map (·.1) ++ params, body.toBlock⟩ :: s.functions }
  let function := Expr.const (.function name []) f.pos
  if captured.isEmpty then return function
  captured.forM fun (x, p) => touch x p
  let vars := captured.map fun (x, p) => Expr.variable x p
  let curry := Expr.call ⟨"curry", [], function :: vars, false, false, f.pos⟩
  return .block ⟨[.share captured, .expr curry], f.pos⟩

/-- The definition of a function, behind its keyword. -/
def function (g : Rules) (p : Position) : Reader Stmt := do
  let most := (← get).limits.functionDepth
  let (d, _) ← isolated do
    let f ← Frame.deeper { level := 0, most, pos := p, inFunction := true }
    let name ← match ← next with
      | (.name x, _) => pure x
      | (.reserved x, p) => fail (.reserved x) p
      | (_, p) => fail .noFunctionName p
    let params ← match ← peek with
      | (.sym "()", _) => do
        skip
        pure []
      | (.sym "(", _) => do
        skip
        paramNames name ")" (.missing ")" s!"to close the parameters list of function '{name}'")
          (.missing "," s!"to separate the parameters of function '{name}'")
      | (_, p) => fail (.noParams name) p
    match ← peek with
    | (.sym "\x7b", _) => return (⟨name, params, ← g.block f⟩ : FunctionDef)
    | (_, p) => fail (.noBody name) p
  let arity := d.params.length
  if (← get).functions.any fun e => e.name = d.name && e.params.length = arity then
    fail (.repeatedFunction d.name arity) p
  modify fun s => { s with functions := d :: s.functions }
  return .noop p

/-! ## Chains -/

/-- The links that an expression behind a point stands for. -/
def linksOf (joint : Joint) : Expr → Reader (List Link)
  | .variable x p => return [.property x joint p]
  | .call c => do
    match c.path with
    | (_, p) :: _ => fail .noProperty p
    | [] => pure ()
    if c.args.isEmpty && c.name = "Fn" then
      fail (.token (.improper "'Fn' should not be called in method style. Try Fn(...);")) c.pos
    if c.sharesScope then fail .sharedScopeMethod c.pos
    return [.method c.name c.args joint c.pos]
  | .qualified path _ p => fail .noProperty ((path.head?.map (·.2)).getD p)
  | .chain root rest => return (← linksOf joint root) ++ rest
  | e => fail .noProperty e.pos

/-- Adds links to a chain.  An expression that was complete before becomes the root of a new one. -/
def extend (isComplete : Bool) (links : List Link) : Expr → Expr
  | .chain root before => if isComplete then .chain (.chain root before) links
    else .chain root (before ++ links)
  | e => .chain e links

/-- The indexes in brackets behind an expression. -/
def indexes (g : Rules) (f : Frame) (container : Expr) (joint : Joint) (checks : Bool) :
    Reader (List Link) := do
  let f ← f.deeper
  let index ← g.expr f
  if checks then container.checkIndex index
  let _ ← expect "]" "for a matching [ in this index expression"
  let more (skipsUnit : Bool) (p : Position) : Reader (List Link) := do
    skip
    return .index index joint :: (← g.indexes (← (f.at_ p).deeper) index ⟨p, skipsUnit⟩ false)
  match ← peek with
  | (.sym "[", p) => more false p
  | (.sym "?[", p) => more true p
  | _ => return [.index index joint]

/-- What follows a name: a call, a module path, or nothing. -/
def afterName (g : Rules) (path : List (String × Position)) (name : String) (p : Position)
    (f : Frame) : Reader (Option Expr) := do
  let call (sharesScope : Bool) (args : List Expr) : Reader (Option Expr) :=
    return some (.call ⟨name, path, args, false, sharesScope, p⟩)
  match ← peek with
  | (.sym "()", _) => do
    skip
    call false []
  | (.sym "(", _) => do
    skip
    call false (← arguments g name (f.at_ p))
  | (.sym "!", _) => do
    skip
    let noStart := SyntaxFault.missing "(" "to start arguments list of function call"
    match ← peek with
    | (.sym "()", q) => do
      if !path.isEmpty then fail (.token (.unexpected "!")) q
      skip
      call true []
    | (.sym "(", q) => do
      if !path.isEmpty then fail (.token (.unexpected "!")) q
      skip
      call true (← arguments g name (f.at_ p))
    | (_, q) => fail noStart q
  | (.sym "::", _) => do
    skip
    let (inner, q) ← variableName
    return some (.qualified (path ++ [(name, p)]) inner q)
  | _ => return none

/-- A link behind a point, or indexes, if one comes next. -/
def link? (g : Rules) (f : Frame) (e : Expr) : Reader (Option (List Link)) := do
  let point (skipsUnit : Bool) (p : Position) : Reader (Option (List Link)) := do
    skip
    match ← peek with
    | (.name _, _) => modify fun s => { s with mayCapture := false }
    | (.reserved s, q) => if !methodWords.contains s then fail (.reserved s) q
    | (_, q) => fail .noProperty q
    return some (← linksOf ⟨p, skipsUnit⟩ (← g.primary (← (f.at_ p).deeper)))
  let bracket (skipsUnit : Bool) (p : Position) : Reader (Option (List Link)) := do
    skip
    return some (← g.indexes (← (f.at_ p).deeper) e ⟨p, skipsUnit⟩ true)
  match ← peek with
  | (.sym ".", p) => point false p
  | (.sym "?.", p) => point true p
  | (.sym "[", p) => bracket false p
  | (.sym "?[", p) => bracket true p
  | _ => return none

/-- An expression with all that follows it. -/
def withLinks (g : Rules) (f : Frame) (e : Expr) : Reader Expr :=
  iterate (fun (e, isComplete) => do
    let called ← match e with
      | .variable x p => afterName g [] x p f
      | .qualified path x p => afterName g path x p f
      | _ => pure none
    match called with
    | some e => return .inl (e, true)
    | none =>
      match ← link? g f e with
      | some links => return .inl (extend isComplete links e, false)
      | none => return .inr e) (e, true)

/-! ## Single expressions -/

/-- A text with blocks of code in it. -/
def template (g : Rules) (f : Frame) : Reader Expr := do
  let inner ← f.deeper
  let parts ← iterate (fun (back : List Expr) => do
    match ← next with
    | (.text s, p) => return .inr (if s = "" then back else .const (.text s) p :: back).reverse
    | (.template s, p) => do
      let back := if s = "" then back else .const (.text s) p :: back
      return .inl (.block (← g.block inner) :: back)
    | t => refuse .incomplete t) []
  if parts.isEmpty then return .const (.text "") f.pos
  return .template parts f.pos

/-- An expression in parentheses. -/
def parenthesised (g : Rules) (f : Frame) : Reader Expr := do
  let f := f.at_ (← next).2
  if ← accept ")" then return .unitAt f.pos
  let e ← g.expr f
  let _ ← expect ")" "for a matching ( in this expression"
  return e

def stmtExpr (s : Stmt) : Expr := .block s.toBlock

def tokenText : Token → String
  | .sym s | .reserved s | .name s | .text s | .template s => s
  | .int n => toString n
  | .float x => Value.floatText x
  | .char c => c.toString
  | .bad why => why.message
  | .ending => ""

/-- An expression without operators, before its links. -/
def root (g : Rules) (f : Frame) (t : Token) : Reader Expr := do
  let constant (v : Value) : Reader Expr := do
    skip
    return .const v f.pos
  let nested (rule : Frame → Reader Expr) : Reader Expr := do rule (← f.deeper)
  match t with
  | .ending => fail .incomplete f.pos
  | .bad why => fail (.token why) f.pos
  | .int n => constant (.int n)
  | .float x => constant (.float x)
  | .char c => constant (.char c)
  | .text s => constant (.text s)
  | .template _ => template g f
  | .name x => do
    skip
    match ← peek with
    | (.sym s, _) =>
      if ["(", "()", "!", "::"].contains s then modify fun s => { s with mayCapture := true }
      else touch x f.pos
    | _ => touch x f.pos
    return .variable x f.pos
  | .reserved s => do
    skip
    let isCalled := match (← peek).1 with
      | .sym p => ["(", "()", "!"].contains p && callableWords.contains s
      | _ => false
    if isCalled then return .variable s f.pos
    if s = "this" then
      if f.inFunction then return .this f.pos
      fail (.token (.improper "'this' can only be used in functions")) f.pos
    fail (.reserved s) f.pos
  | .sym "true" => constant (.flag true)
  | .sym "false" => constant (.flag false)
  | .sym "()" => constant .unit
  | .sym "(" => nested (parenthesised g)
  | .sym "[" => nested (listLiteral g)
  | .sym "#\x7b" => nested (tableLiteral g)
  | .sym "\x7b" => return .block (← g.block (← f.deeper))
  | .sym "|" | .sym "||" => closure g f
  | .sym s =>
    if ["if", "switch", "while", "loop", "do", "for"].contains s then
      -- the rule for statements counts one level for the statement itself
      return stmtExpr (← g.stmt { f with level := f.level - 1 })
    else fail (.token (.unexpected s)) f.pos

def primary (g : Rules) (f : Frame) : Reader Expr := do
  let (t, p) ← peek
  let f := f.at_ p
  let atBar : Reader Bool := do return (← get).barEnds && (← peek).1 == .sym "|"
  if ← atBar then fail (.token (.unexpected "|")) p
  let e ← root g f t
  if ← atBar then return e
  withLinks g f e

/-! ## Operators -/

/-- The negative of a literal, or a call of the operator. -/
def negative (e : Expr) (p : Position) : Expr :=
  match e with
  | .const (.int n) _ => .const (if fitsInt (-n) then .int (-n) else .float (-(Decimal.ofInt n))) p
  | .const (.float x) _ => .const (.float (-x)) p
  | e => .operator "-" [e] p

def unary (g : Rules) (f : Frame) : Reader Expr := do
  let (t, p) ← peek
  let f := f.at_ p
  let operand : Reader Expr := do
    skip
    g.unary (← f.deeper)
  match t with
  | .sym "-" => return negative (← operand) p
  | .sym "+" => do
    match ← operand with
    | .const (.int n) q => return .const (.int n) q
    | .const (.float x) q => return .const (.float x) q
    | e => return .operator "+" [e] p
  | .sym "!" => return .operator "!" [← operand] p
  | .ending => fail .incomplete p
  | _ => g.primary f

/-- How strongly an operator binds; zero for what is none. -/
def strength (s : String) : Nat :=
  if ["||", "|", "^"].contains s then 30
  else if ["&&", "&"].contains s then 60
  else if ["==", "!="].contains s then 90
  else if ["in", "!in"].contains s then 110
  else if ["<", "<=", ">", ">="].contains s then 130
  else if s = "??" then 135
  else if ["..", "..="].contains s then 140
  else if ["+", "-"].contains s then 150
  else if ["*", "/", "%"].contains s then 180
  else if s = "**" then 190
  else if ["<<", ">>"].contains s then 210
  else 0

/-- The operator that comes next and its strength. -/
def operatorAhead : Reader (String × Nat × Position) := do
  match ← peek with
  | (.sym s, p) => return (s, strength s, p)
  | (.reserved s, p) => if isName s then return (s, 0, p) else fail (.unknownOperator s) p
  | (_, p) => return ("", 0, p)

/-- The expression of an operator between two others.  A chain of one operator that may pass operands
over is one expression. -/
def combine (op : String) (left right : Expr) (p : Position) : Reader Expr := do
  let contains := Expr.call ⟨"contains", [], [right, left], false, false, p⟩
  match op with
  | "&&" => do
    let right ← right.checkFlag
    match ← left.checkFlag with
    | .all es q => return .all (es ++ [right]) q
    | left => return .all [left, right] p
  | "||" => do
    let right ← right.checkFlag
    match ← left.checkFlag with
    | .any es q => return .any (es ++ [right]) q
    | left => return .any [left, right] p
  | "??" =>
    match left with
    | .firstGiven es q => return .firstGiven (es ++ [right]) q
    | left => return .firstGiven [left, right] p
  | "in" => return contains
  | "!in" => return .operator "!" [contains] p
  | op => return .operator op [left, right] p

/-- The operators behind an expression that bind stronger than the one before it. -/
def operators (g : Rules) (f : Frame) (before : Nat) (e : Expr) : Reader Expr :=
  iterate (fun (e, f) => do
    if (← get).barEnds && (← peek).1 == .sym "|" then return .inr e
    let (op, strong, p) ← operatorAhead
    let bindsRight := op = "**"
    if strong < before || (strong = before && !bindsRight) then return .inr e
    skip
    let endsRange := match (← peek).1 with
      | .sym s => ["]", ")", "\x7d", ",", ";", "=>"].contains s
      | _ => false
    let right ← if (op = ".." || op = "..=") && endsRange then pure (.unitAt (← peek).2)
      else g.unary f
    let (_, ahead, _) ← operatorAhead
    let right ← if strong < ahead || (strong = ahead && bindsRight) then
        g.operators (← f.deeper) strong right
      else pure right
    let f ← f.deeper
    return .inl (← combine op e right p, f.at_ p)) (e, f.at_ e.pos)

def expr (g : Rules) (f : Frame) : Reader Expr := do
  let f ← (f.at_ (← peek).2).deeper
  let e ← g.unary f
  g.operators f 1 e

/-! ## Statements -/

/-- The brace of a block may not stand where a condition is wanted. -/
def noBlockAhead : Reader Unit := do
  match ← peek with
  | (.sym "\x7b", p) => fail (.wanted "a boolean") p
  | _ => return ()

def assignmentSymbols : List String :=
  ["+=", "-=", "*=", "/=", "%=", "**=", "<<=", ">>=", "&=", "|=", "^="]

def condition (g : Rules) (f : Frame) : Reader Expr := do
  noBlockAhead
  let e ← (← g.expr f).checkFlag
  match ← peek with
  | (.sym "=", p) => fail (.token (.improper "Possibly a typo of '=='?")) p
  | (.sym s, p) =>
    if assignmentSymbols.contains s then
      fail (.token (.improper "Expecting a boolean expression, not an assignment")) p
  | _ => pure ()
  return e

/-- The statements up to the closing brace. -/
def block (g : Rules) (f : Frame) : Reader Block := do
  let f ← f.deeper
  let p ← expect "\x7b" "to start a statement block"
  let f := { f with pos := p, isGlobal := false }
  let stmts ← inScope <| iterate (fun (back : List Stmt) => do
    match ← peek with
    | (.sym "\x7d", _) => do
      skip
      return .inr back.reverse
    | (.ending, p) => fail (.missing "\x7d" "to terminate this block") p
    | _ => do
      match ← g.stmt f with
      | .noop _ => return .inl back
      | s => do
        match ← peek with
        | (.sym "\x7d", _) => pure ()
        | (.sym ";", _) => skip
        | t => if !s.isClosed then refuse (.missing ";" "to terminate this statement") t
        return .inl (s :: back)) []
  return ⟨stmts, p⟩

def choose (g : Rules) (f : Frame) : Reader Stmt := do
  let f := f.at_ (← next).2
  let cond ← condition g f
  let yes ← g.block f
  if ← accept "else" then
    match ← peek with
    | (.sym "if", p) => return .choose cond yes ⟨[← g.choose (← f.deeper)], p⟩ f.pos
    | _ => return .choose cond yes (← g.block f) f.pos
  return .choose cond yes ⟨[], Position.none⟩ f.pos

/-- The labels of an arm, between bars. -/
def labels (g : Rules) (f : Frame) : Reader (List Expr) :=
  iterate (fun (back : List Expr) => do
    let before := (← get).barEnds
    modify fun s => { s with barEnds := true }
    let e ← tryCatch (g.expr f) fun e => fail (.wanted "literal") e.place
    modify fun s => { s with barEnds := before }
    let back := e :: back
    return if ← accept "|" then .inl back else .inr back.reverse) []

/-- The meaning of the label expressions of an arm. -/
def labelsOf (hasSpans : Bool) : List Expr → Reader (List Label)
  | [] => return []
  | e :: rest => do
    match e.literal? with
    | none => fail (.wanted "a literal") e.start
    | some (.range a b isClosed) => return .span a b isClosed :: (← labelsOf true rest)
    | some v => do
      if hasSpans && v.int?.isSome then fail .switchNumber e.start
      return .value v :: (← labelsOf hasSpans rest)

def Label.isSpan : Label → Bool
  | .span .. => true
  | .value _ => false

/-- What the arms of a `switch` read so far are. -/
structure Arms where
  back : List Arm := []
  hasSpans : Bool := false
  default : Option (Expr × Position) := none

/-- The body of an arm, and the comma behind it. -/
def armBody (g : Rules) (f : Frame) : Reader Expr := do
  let _ ← expect "=>" "in this switch case"
  let s ← g.stmt f
  match ← peek with
  | (.sym ",", _) => skip
  | (.sym "\x7d", _) => pure ()
  | (.ending, p) => fail (.missing "\x7d" "to end this switch block") p
  | (.bad why, p) => fail (.token why) p
  | (_, p) =>
    if !s.isClosed then fail (.missing "," "to separate the items in this switch block") p
  return stmtExpr s

def switch (g : Rules) (f : Frame) : Reader Stmt := do
  let f := f.at_ (← next).2
  let subject ← g.expr f
  let _ ← expect "\x7b" "to start a switch block"
  let arms ← iterate (fun (a : Arms) => do
    match ← peek, a.default with
    | (.sym "\x7d", _), _ => do
      skip
      return .inr a
    | (.ending, p), _ => fail (.missing "\x7d" "to end this switch block") p
    | _, some (_, p) => fail .switchDefault p
    | (.sym "_", p), none => do
      skip
      let (t, q) ← peek
      if t == .sym "if" then fail .switchGuard q
      return .inl { a with default := some (← armBody g f, p) }
    | _, none => do
      let es ← labels g f
      let guard ← if ← accept "if" then condition g f
        else pure (.const (.flag true) Position.none)
      let body ← armBody g f
      let ls ← labelsOf a.hasSpans es
      return .inl { a with
        back := ⟨ls, guard, body⟩ :: a.back, hasSpans := a.hasSpans || ls.any Label.isSpan }) {}
  return .switch subject arms.back.reverse (arms.default.map (·.1)) f.pos

def whileLoop (g : Rules) (f : Frame) : Reader Stmt := do
  let (t, p) ← next
  let cond ← if t == .sym "while" then condition g f else pure (.unitAt Position.none)
  return .whileLoop cond (← g.block { f with pos := p, inLoop := true }) p

def doLoop (g : Rules) (f : Frame) : Reader Stmt := do
  let f := f.at_ (← next).2
  let body ← g.block { f with inLoop := true }
  let stopsWhen ← match ← next with
    | (.sym "while", _) => pure false
    | (.sym "until", _) => pure true
    | t => refuse (.missing "while" "for the do statement") t
  return .doLoop body (← condition g f) stopsWhen f.pos

def forLoop (g : Rules) (f : Frame) : Reader Stmt := do
  let f := f.at_ (← next).2
  let (name, counter) ← if ← accept "(" then do
      let (name, _) ← variableName
      let (t, p) ← peek
      if t != .sym "," then fail (.missing "," "after the iteration variable name") p
      skip
      let (counter, q) ← variableName
      if counter = name then fail (.repeatedVariable counter) q
      let (t, p) ← peek
      if t != .sym ")" then fail (.missing ")" "to close the iteration variable") p
      skip
      pure (name, some counter)
    else do
      let (name, _) ← variableName
      pure (name, none)
  let _ ← expect "in" "after the iteration variable"
  noBlockAhead
  let source ← (← g.expr f).checkIterable
  inScope do
    counter.forM (declare · false)
    declare name false
    return .forLoop name counter source (← g.block { f with inLoop := true }) f.pos

def attempt (g : Rules) (f : Frame) : Reader Stmt := do
  let f := f.at_ (← next).2
  let body ← g.block f
  let (t, p) ← peek
  if t != .sym "catch" then fail (.missing "catch" "for the 'try' statement") p
  skip
  inScope do
    let name ← if ← accept "(" then do
        let (name, _) ← variableName
        let (t, p) ← peek
        if t != .sym ")" then fail (.missing ")" "to enclose the catch variable") p
        skip
        declare name false
        pure (some name)
      else pure none
    return .attempt body name (← g.block f) f.pos

def bind (g : Rules) (isConstant : Bool) (f : Frame) : Reader Stmt := do
  let f := f.at_ (← next).2
  let (name, p) ← variableName
  let value ← if ← accept "=" then g.expr f else pure (.unitAt Position.none)
  declare name isConstant
  return .bind name p value isConstant f.pos

def publish (g : Rules) (f : Frame) : Reader Stmt := do
  let f := f.at_ (← next).2
  match ← peek with
  | (.sym "let", _) => bind g false (← f.deeper)
  | (.sym "const", _) => bind g true (← f.deeper)
  | _ => do
    let (name, p) ← variableName
    if ← accept "as" then
      let _ ← variableName
    return .publish name p f.pos

def use (g : Rules) (f : Frame) : Reader Stmt := do
  let f := f.at_ (← next).2
  let path ← g.expr f
  if ← accept "as" then
    let _ ← variableName
  return .use path f.pos

/-- The first method among links, which nothing can be assigned to. -/
def method? (links : List Link) : Option Position :=
  links.findSome? fun
    | .method _ _ _ p => some p
    | _ => none

/-- An assignment, if its left side can be assigned to. -/
def assignment (op : Option String) (target value : Expr) (p : Position) : Reader Stmt := do
  let done : Reader Stmt := return .assign op target value p
  if target.isConst then fail (.constantTarget "") target.start
  match target with
  | .this _ | .qualified .. => done
  | .variable x q =>
    match (← get).names.find? (·.1 = x) with
    | some (_, true) => fail (.constantTarget x) q
    | _ => done
  | .chain root links =>
    match method? links, root with
    | some q, _ => fail .badTarget q
    | none, .variable .. | none, .qualified .. | none, .this _ => done
    | none, _ => fail .badTarget root.pos
  | .all .. | .any .. | .firstGiven .. =>
    if op.isNone then fail (.token (.improper "Possibly a typo of '=='?")) p
    else fail .badTarget target.pos
  | _ => fail .badTarget target.pos

def exprStmt (g : Rules) (f : Frame) : Reader Stmt := do
  let e ← g.expr f
  let assigned (op : Option String) (p : Position) : Reader Stmt := do
    skip
    assignment op e (← g.expr (← (f.at_ p).deeper)) p
  match ← peek with
  | (.sym "=", p) => assigned none p
  | (.sym s, p) => if assignmentSymbols.contains s then assigned (some s) p else return .expr e
  | _ => return .expr e

/-- The value behind `return`, `throw` or `break`, if there is one. -/
def outcome? (g : Rules) (f : Frame) (braceEnds : Bool) : Reader (Option Expr) := do
  match (← peek).1 with
  | .ending | .sym ";" => return none
  | .sym "\x7d" => if braceEnds then return none else some <$> g.expr f
  | _ => some <$> g.expr f

def stmt (g : Rules) (f : Frame) : Reader Stmt := do
  let (t, p) ← peek
  if t == .ending then return .noop p
  let f ← (f.at_ p).deeper
  let nested (rule : Frame → Reader Stmt) : Reader Stmt := do rule (← f.deeper)
  match t with
  | .sym ";" => do
    skip
    return .noop p
  | .sym "\x7b" => return .block (← g.block f)
  | .sym "fn" => do
    if !f.isGlobal then fail .innerFunction p
    skip
    function g p
  | .sym "private" => do
    if !f.isGlobal then exprStmt g f
    else
      skip
      let q ← expect "fn" "following 'private'"
      function g q
  | .sym "if" => nested g.choose
  | .sym "switch" => nested (switch g)
  | .sym "while" | .sym "loop" => nested (whileLoop g)
  | .sym "do" => nested (doLoop g)
  | .sym "for" => nested (forLoop g)
  | .sym "continue" => do
    if !f.inLoop then fail .leaveOutside p
    skip
    return .nextRound p
  | .sym "break" => do
    if !f.inLoop then fail .leaveOutside p
    skip
    return .leaveLoop (← outcome? g f true) p
  | .sym "return" => do
    skip
    return .result (← outcome? g f (!f.isGlobal)) p
  | .sym "throw" => do
    skip
    return .throw_ (← outcome? g f (!f.isGlobal)) p
  | .sym "try" => nested (attempt g)
  | .sym "let" => nested (bind g false)
  | .sym "const" => nested (bind g true)
  | .sym "import" => nested (use g)
  | .sym "export" => do
    if !f.isGlobal then fail .innerExport p
    nested (publish g)
  | _ => exprStmt g f

end Grammar

/-! ## The tower -/

namespace Rules

/-- All rules, one level up. -/
def above (g : Rules) : Rules :=
  { expr := Grammar.expr g
    unary := Grammar.unary g
    primary := Grammar.primary g
    operators := Grammar.operators g
    indexes := Grammar.indexes g
    stmt := Grammar.stmt g
    block := Grammar.block g
    choose := Grammar.choose g }

/-- The rules that read nothing. -/
def ground : Rules :=
  { expr := fun f => fail .incomplete f.pos
    unary := fun f => fail .incomplete f.pos
    primary := fun f => fail .incomplete f.pos
    operators := fun f _ _ => fail .incomplete f.pos
    indexes := fun f _ _ _ => fail .incomplete f.pos
    stmt := fun f => fail .incomplete f.pos
    block := fun f => fail .incomplete f.pos
    choose := fun f => fail .incomplete f.pos }

/-- The rules over a number of levels, each level made when it is entered. -/
def tower : Nat → Rules
  | 0 => ground
  | n + 1 =>
    { expr := fun f => (tower n).above.expr f
      unary := fun f => (tower n).above.unary f
      primary := fun f => (tower n).above.primary f
      operators := fun f k e => (tower n).above.operators f k e
      indexes := fun f e j c => (tower n).above.indexes f e j c
      stmt := fun f => (tower n).above.stmt f
      block := fun f => (tower n).above.block f
      choose := fun f => (tower n).above.choose f }

end Rules

/-- The statements of a script. -/
def statements (g : Rules) (f : Frame) : Reader (List Stmt) :=
  iterate (fun (back : List Stmt) => do
    if (← peek).1 == .ending then return .inr back.reverse
    match ← g.stmt f with
    | .noop _ => return .inl back
    | s => do
      match ← peek with
      | (.ending, _) => pure ()
      | (.sym ";", _) => if !s.isClosed then skip
      | t => if !s.isClosed then refuse (.missing ";" "to terminate this statement") t
      return .inl (s :: back)) []

/-- The program of a script, or the first fault in it. -/
def Program.parse? (limits : Limits) (source : String) : Except SyntaxError Program :=
  let tokens := Token.scan limits.textSize source
  let g := Rules.tower (16 * (tokens.length + 4))
  let frame : Frame := { level := 0, most := limits.depth, pos := Position.none, isGlobal := true }
  match (statements g frame).run { tokens, limits } with
  | .ok body s => .ok ⟨body, s.functions.reverse⟩
  | .error e _ => .error e

end PluginChain.Script
