import PluginChain.Script.Arm
import PluginChain.Script.Operator
import PluginChain.Script.Token

/-!
# Simplifying a program

`Program.simplify` computes operators of constants, puts constants in the place of their names,
drops statements that change nothing and branches that are never taken, and undoes blocks that hold
one thing only.  It can be seen in the number of operations a script takes, and in that a dropped
statement cannot fail any more.

The passes are functions of `Passes`, the record of all passes one level down.  A list of statements
is gone over until nothing changes.
-/

set_option autoImplicit false

namespace PluginChain.Script

/-! ## What changes nothing -/

mutual

/-- Whether computing an expression changes nothing and cannot go on for ever. -/
def Expr.isPure : Expr → Bool
  | .const .. | .variable .. => true
  | .list items _ | .template items _ => allPure items
  | .table entries _ => entriesPure entries
  | .all es _ | .any es _ | .firstGiven es _ => allPure es
  | .block b => b.isPure
  | _ => false

def allPure : List Expr → Bool
  | [] => true
  | e :: rest => e.isPure && allPure rest

def entriesPure : List (String × Expr) → Bool
  | [] => true
  | (_, e) :: rest => e.isPure && entriesPure rest

def Stmt.isPure : Stmt → Bool
  | .noop _ => true
  | .expr e => e.isPure
  | .choose cond yes no _ => cond.isPure && yes.isPure && no.isPure
  | .switch subject arms default _ =>
    subject.isPure && armsPure arms && default.isSome && optionPure default
  | .forLoop _ _ source body _ => source.isPure && body.isPure
  | .whileLoop (.const (.flag false) _) _ _ => true
  | .doLoop body (.const (.flag cond) _) stopsWhen _ => cond == stopsWhen && body.isPure
  | .block b => b.isPure
  | .attempt body _ handler _ => body.isPure && handler.isPure
  | _ => false

def Block.isPure : Block → Bool
  | ⟨stmts, _⟩ => stmtsPure stmts

def stmtsPure : List Stmt → Bool
  | [] => true
  | s :: rest => s.isPure && stmtsPure rest

def Arm.isPure : Arm → Bool
  | ⟨_, guard, body⟩ => guard.isPure && body.isPure

def armsPure : List Arm → Bool
  | [] => true
  | a :: rest => a.isPure && armsPure rest

def optionPure : Option Expr → Bool
  | none => true
  | some e => e.isPure

end

namespace Stmt

mutual

/-- Whether all that a statement changes is gone at the end of the block around it. -/
def isPureInside : Stmt → Bool
  | .bind _ _ value _ _ => value.isPure
  | .expr (.block ⟨stmts, _⟩) => allPureInside stmts
  | .use path _ => path.isPure
  | .publish .. => true
  | s => s.isPure

def allPureInside : List Stmt → Bool
  | [] => true
  | s :: rest => isPureInside s && allPureInside rest

end

def hasValue : Stmt → Bool
  | .choose .. | .switch .. | .block _ | .expr _ | .call _ => true
  | _ => false

/-- Whether a statement cannot leave its block without another meaning. -/
def isBound : Stmt → Bool
  | .bind .. | .use .. | .publish .. | .share _ => true
  | _ => false

def leaves : Stmt → Bool
  | .leaveLoop .. | .nextRound _ | .result .. | .throw_ .. => true
  | _ => false

mutual

/-- The statements in place of a block, where its end makes no difference. -/
def flat : Stmt → List Stmt
  | .block ⟨stmts, p⟩ => if stmts.any isBound then [.block ⟨stmts, p⟩] else flatAll stmts
  | s => [s]

def flatAll : List Stmt → List Stmt
  | [] => []
  | s :: rest => flat s ++ flatAll rest

end

/-- Statements up to the first one that leaves. -/
def upToLeave : List Stmt → List Stmt
  | [] => []
  | s :: rest => if s.leaves then [s] else s :: upToLeave rest

end Stmt

/-! ## The passes -/

structure Simplification where
  /-- The size up to which texts are put together. -/
  textSize : Nat
  /-- Whether the last round changed anything. -/
  changed : Bool := false
  /-- The variables in scope, the latest first, each with its value if that is known. -/
  known : List (String × Option Value) := []

abbrev Simplifier := StateM Simplification

namespace Simplifier

/-- Notes a change. -/
def change {α : Type} (a : α) : Simplifier α := do
  modify fun s => { s with changed := true }
  return a

def known? (name : String) : Simplifier (Option Value) := do
  return ((← get).known.find? (·.1 = name)).bind (·.2)

def learn (name : String) (value : Option Value) : Simplifier Unit :=
  modify fun s => { s with known := (name, value) :: s.known }

end Simplifier

open Simplifier

/-- What the statements of a block are needed for. -/
structure Need where
  /-- The value of the last statement is used. -/
  value : Bool
  /-- The block has a scope of its own. -/
  isInner : Bool
  /-- The block is the body of a function or of the script. -/
  isBody : Bool

structure Passes where
  expr : Expr → Simplifier Expr
  stmt : Bool → Stmt → Simplifier Stmt
  stmts : Need → List Stmt → Simplifier (List Stmt)

namespace Simplify

/-! ### Statements of a block -/

def isPureFor (n : Need) (s : Stmt) : Bool := if n.isInner then s.isPureInside else s.isPure

/-- Whether a statement keeps those before it that are pure only inside their block. -/
def needsBefore (n : Need) (s : Stmt) : Bool :=
  !isPureFor n s ||
    match s with
    | .bind _ _ value _ _ => value.isConst
    | .expr e => !e.isConst
    | .use path _ => !path.isConst
    | _ => false

/-- Drops pure statements.  Before the place `until_` only those that are pure everywhere go, and
the last one stays where its value is used. -/
def dropPure (n : Need) : List Stmt → Nat → Nat → List Stmt
  | [], _, _ => []
  | s :: rest, place, until_ =>
    if n.value && rest.isEmpty then [s]
    else if isPureFor n s && until_ ≤ place then dropPure n rest place until_
    else if s.isPure then dropPure n rest place (if place < until_ then until_ - 1 else until_)
    else s :: dropPure n rest (place + 1) until_

def dropped (n : Need) (stmts : List Stmt) : List Stmt :=
  let back := stmts.reverse.findIdx? (needsBefore n)
  dropPure n stmts 0 (match back with
    | some k => stmts.length - k - 1
    | none => 0)

/-- A shorter end of a block whose value is used, if there is one.  The last statement comes
first. -/
def shorterWithValue? (n : Need) : List Stmt → Option (List Stmt)
  | .result none p :: rest =>
    match n.isBody, rest with
    | false, _ => none
    | true, [] => some []
    | true, last :: _ => if last.hasValue then some (.noop p :: rest) else some rest
  | .result (some e) _ :: rest => if n.isBody then some (.expr e :: rest) else none
  | [s] => if !s.hasValue && isPureFor n s then some [] else none
  | .noop _ :: last :: rest => if last.hasValue then none else some (last :: rest)
  | s :: last :: rest =>
    if s.hasValue || !isPureFor n s then none
    else if last.hasValue then some (.noop s.pos :: last :: rest)
    else some (last :: rest)
  | [] => none

/-- A shorter end of a block whose value is not used, if there is one. -/
def shorter? (n : Need) : List Stmt → Option (List Stmt)
  | [s] => if isPureFor n s then some [] else none
  | .result none _ :: rest => if n.isBody then some rest else none
  | s :: rest => if isPureFor n s then some rest else none
  | [] => none

/-- One round over the statements of a block. -/
def round (g : Passes) (n : Need) (stmts : List Stmt) : Simplifier (List Stmt) := do
  let known := (← get).known
  let live := Stmt.upToLeave stmts
  if live.length ≠ stmts.length then change ()
  let stmts ← live.mapM fun
    | .bind name namePos value isConstant p => do
      let value ← g.expr value
      learn name (if isConstant then value.literal?.filter fun _ => value.isConst else none)
      return .bind name namePos value isConstant p
    | s => g.stmt n.value s
  let kept := dropped n stmts
  if kept.length ≠ stmts.length then change ()
  modify fun s => { s with known }
  let back := kept.reverse
  match if n.value then shorterWithValue? n back else shorter? n back with
  | some back => change back.reverse
  | none => return kept

/-- The statements of a block, gone over until nothing changes. -/
def stmts (g : Passes) (n : Need) (before : List Stmt) : Simplifier (List Stmt) := do
  if before.isEmpty then return []
  let flatStmts := Stmt.flatAll before
  let wasChanged := (← get).changed || flatStmts.length ≠ before.length
    || before.any fun | .block b => !b.stmts.any Stmt.isBound | _ => false
  let rec go : Nat → Bool → List Stmt → Simplifier (List Stmt)
    | 0, _, ss => return ss
    | k + 1, any, ss => do
      modify fun s => { s with changed := false }
      let ss ← round g n ss
      if (← get).changed then go k true ss
      else
        modify fun s => { s with changed := any }
        return ss
  go 1000000 wasChanged flatStmts

/-- The block inside another statement. -/
def inner (g : Passes) (value : Bool) (b : Block) : Simplifier Block := do
  return ⟨← g.stmts ⟨value, true, false⟩ b.stmts, b.pos⟩

/-! ### Single statements -/

/-- Operators that can stand before the sign of an assignment. -/
def assignmentOf? (op : String) : Option String :=
  if ["+", "-", "*", "/", "%", "**", "<<", ">>", "&", "|", "^"].contains op then some (op ++ "=")
  else none

/-- `x = x + e` as `x += e`. -/
def asUpdate? (target value : Expr) : Option (String × Expr × Position) :=
  match target, value with
  | .variable x _, .call c =>
    match c.path, c.args with
    | [], [.variable y _, e] =>
      if x = y then (assignmentOf? c.name).map fun op => (op, e, c.pos) else none
    | _, _ => none
  | _, _ => none

def isTrueConst : Expr → Bool
  | .const (.flag true) _ => true
  | _ => false

def isFalseConst : Expr → Bool
  | .const (.flag false) _ => true
  | _ => false

def isUnitConst : Expr → Bool
  | .const .unit _ => true
  | _ => false

def exprBlock (e : Expr) : Block := ⟨[.expr e], e.pos⟩

/-- A `switch` on a constant, if the arm is known. -/
def decided? (g : Passes) (v : Value) (arms : List Arm) (default : Option Expr) (subject : Expr)
    (p : Position) : Simplifier (Option Stmt) := do
  match Arm.selected v arms with
  | [] =>
    match default with
    | some e => return some (← g.stmt true (.expr e))
    | none => return some (.block ⟨[], p⟩)
  | [a] =>
    if isTrueConst a.guard then return some (← g.stmt true (.expr a.body))
    let no ← match default with
      | some e => do
        let s ← g.stmt true (.expr e)
        pure s.toBlock
      | none => pure ⟨[], Position.none⟩
    return some (.choose (← g.expr a.guard) (exprBlock a.body) no subject.start)
  | a :: _ =>
    if isTrueConst a.guard then return some (← g.stmt true (.expr a.body))
    return none

def arm (g : Passes) (a : Arm) : Simplifier Arm :=
  return ⟨a.labels, ← g.expr a.guard, ← g.expr a.body⟩

def stmt (g : Passes) (value : Bool) (s : Stmt) : Simplifier Stmt := do
  match s with
  | .assign op target e p =>
    match if op.isNone then asUpdate? target e else none with
    | some (op, e, q) => change (Stmt.assign (some op) target e q)
    | none => do
      let target ← if target.isVariable then pure target else g.expr target
      return .assign op target (← g.expr e) p
  | .choose cond ⟨[], _⟩ ⟨[], _⟩ _ => do
    let p := cond.start
    let cond ← g.expr cond
    change (if value then .block ⟨[.expr cond, .noop p], p⟩ else .expr cond)
  | .choose cond yes no p =>
    let taken (b : Block) : Simplifier Stmt := do
      match ← g.stmts ⟨value, true, false⟩ b.stmts with
      | [] => change (.noop b.pos)
      | ss => change (.block ⟨ss, b.pos⟩)
    if isFalseConst cond then
      if no.stmts.isEmpty then change (.noop cond.pos) else taken no
    else if isTrueConst cond then taken yes
    else
      let cond ← g.expr cond
      let yes ← inner g value yes
      return .choose cond yes (← inner g value no) p
  | .switch subject arms default p =>
    let found ← if subject.isConst then
        match subject.literal? with
        | some v => decided? g v arms default subject p
        | none => pure none
      else pure none
    match found with
    | some s => change s
    | none => do
      let subject ← g.expr subject
      let arms ← arms.mapM (arm g)
      let live := arms.filter fun a => !isFalseConst a.guard
      return .switch subject live (← default.mapM g.expr) p
  | .whileLoop cond body p =>
    if isFalseConst cond then change (.noop p)
    else
      let cond ← g.expr cond
      let cond := if isTrueConst cond then .unitAt cond.pos else cond
      return .whileLoop cond (← inner g false body) p
  | .doLoop body cond stopsWhen p =>
    let cond ← g.expr cond
    return .doLoop (← inner g false body) cond stopsWhen p
  | .forLoop name counter source body p =>
    let source ← g.expr source
    return .forLoop name counter source (← inner g false body) p
  | .use path p => return .use (← g.expr path) p
  | .block b =>
    match ← g.stmts ⟨value, true, false⟩ b.stmts with
    | [] => change (.noop b.pos)
    | [s] => if s.isBound then return .block ⟨[s], b.pos⟩ else change s
    | ss => return .block ⟨ss, b.pos⟩
  | .attempt body name handler p =>
    if stmtsPure body.stmts then change (.block (← inner g false body))
    else
      let body ← inner g false body
      return .attempt body name (← inner g false handler) p
  | .expr (.block b) =>
    if b.stmts.isEmpty then change (.noop b.pos)
    else change (.block (← inner g true b))
  | .expr (.call c) => change (.call c)
  | .expr e => return .expr (← g.expr e)
  | .call c =>
    match ← g.expr (.call c) with
    | .call c => return .call c
    | e => return .expr e
  | .leaveLoop (some e) p => return .leaveLoop (some (← g.expr e)) p
  | .result (some e) p => return .result (some (← g.expr e)) p
  | .throw_ (some e) p => return .throw_ (some (← g.expr e)) p
  | .share [] => change (.noop Position.none)
  | .share names =>
    let free ← names.filterM fun (x, _) => do return (← known? x).isNone
    if free.length ≠ names.length then change (.share free) else return .share names
  | s => return s

/-! ### Expressions -/

/-- An expression at another position. -/
def moved (p : Position) : Expr → Expr
  | .const v _ => .const v p
  | .template parts _ => .template parts p
  | .list items _ => .list items p
  | .table entries _ => .table entries p
  | .variable x _ => .variable x p
  | e => e

/-- A part of a literal, taken out while the script is read. -/
def partOf? (container : Expr) (link : Link) : Option Expr :=
  match container, link with
  | .table entries p, .property k _ _ =>
    if entriesPure entries then
      some ((Entries.get? k entries).elim (.unitAt p) (moved p))
    else none
  | .table entries p, .index (.const (.text k) _) _ =>
    if entriesPure entries then
      some ((Entries.get? k entries).elim (.unitAt p) (moved p))
    else none
  | .list items p, .index (.const (.int i) _) _ =>
    let at_ := if i < 0 then items.length + i else i
    if allPure items && 0 ≤ at_ then (items[at_.toNat]?).map (moved p) else none
  | .const (.text s) p, .index (.const (.int i) _) _ =>
    let at_ := if i < 0 then s.length + i else i
    if 0 ≤ at_ then (s.toList[at_.toNat]?).map fun c => .const (.char c) p else none
  | .const (.int n) p, .index (.const (.int i) _) _ =>
    let at_ := if i < 0 then 64 + i else i
    if 0 ≤ at_ && at_ < 64 then
      some (.const (.flag (Integer.word n >>> at_.toNat.toUInt64 &&& 1 == 1)) p)
    else none
  | e, .method "type_of" [] _ p =>
    if e.isConst then e.literal?.map fun v => .const (.text v.typeName) p else none
  | e, .method "is_shared" [] _ p => if e.isConst then some (.const (.flag false) p) else none
  | _, _ => none

def link (g : Passes) (l : Link) : Simplifier Link := do
  match l with
  | .property .. => return l
  | .method x args j p => return .method x (← args.mapM g.expr) j p
  | .index e j => return .index (← g.expr e) j

def chain (g : Passes) (root : Expr) (links : List Link) : Simplifier Expr := do
  let joint := links.head?.map Link.joint
  match root, joint with
  | .const .unit p, some ⟨_, true⟩ => change (.const .unit p)
  | _, _ =>
    let part? := match links with
      | [l] => partOf? root l
      | _ => none
    match part?, root with
    | some e, _ => change e
    | none, .variable .. | none, .this _ => return .chain root (← links.mapM (link g))
    | none, _ => do
      let root ← g.expr root
      return .chain root (← links.mapM (link g))

/-- Joins texts that follow each other in a template, and drops what shows nothing. -/
def joinParts : List Expr → List Expr
  | .const (.text s) p :: .const (.text t) _ :: rest => joinParts (.const (.text (s ++ t)) p :: rest)
  | .const .unit _ :: e :: rest => joinParts (e :: rest)
  | e :: .const .unit _ :: rest => joinParts (e :: rest)
  | e :: .const (.text "") _ :: rest => joinParts (e :: rest)
  | e :: rest => e :: joinParts rest
  | [] => []
termination_by es => es.length

/-- The value of a call whose arguments are constants, if it is known before the script runs. -/
def constantCall? (textSize : Nat) (c : Call) : Option Value := do
  let args ← literals? c.args
  match c.isOperator, c.name, args with
  | true, op, [l, r] => (Operator.basic? textSize op l r).bind Except.toOption
  | false, "type_of", [v] => some (.text v.typeName)
  | false, "is_shared", [_] => some (.flag false)
  | false, "Fn", [.text f] => if isFunctionName f then some (.function f []) else none
  | false, "curry", .function f bound :: more =>
    if more.isEmpty then none else some (.function f (bound ++ more))
  | _, _, _ => none

def call (g : Passes) (c : Call) : Simplifier Expr := do
  let textSize := (← get).textSize
  let value? := if c.path.isEmpty && allConst c.args && !(["print", "debug"].contains c.name) then
    constantCall? textSize c else none
  match value? with
  | some v => change (.const v c.pos)
  | none => return .call { c with args := ← c.args.mapM g.expr }

/-- A constant for what is made of constants alone. -/
def ifNotConst (e : Expr) (rule : Simplifier Expr) : Simplifier Expr :=
  match if e.isConst then e.literal? else none with
  | some v => change (.const v e.pos)
  | none => rule

/-- The operands that can make a difference: none that is passed over in any case, and none behind
one that is the last in any case. -/
def decisive (isSkipped isLast : Expr → Bool) : List Expr → List Expr
  | [] => []
  | [e] => [e]
  | e :: rest =>
    if isSkipped e then decisive isSkipped isLast rest
    else if isLast e then [e]
    else
      match decisive isSkipped isLast rest with
      | [last] => if isSkipped last then [e] else [e, last]
      | kept => e :: kept

/-- The operands from the first on that may be given; it is the only one if it surely is. -/
def givenFrom : List Expr → List Expr
  | e :: next :: rest =>
    if isUnitConst e then givenFrom (next :: rest)
    else if e.isConst then [e]
    else e :: next :: rest
  | es => es

/-- Operands some of which may be passed over, and those that are kept. -/
def operands (g : Passes) (joined : List Expr → Expr) (es kept : List Expr) : Simplifier Expr := do
  if kept.length ≠ es.length then change ()
  match ← kept.mapM g.expr with
  | [e] => return e
  | es => return joined es

def expr (g : Passes) (e : Expr) : Simplifier Expr := do
  match e with
  | .block ⟨[], p⟩ => change (.unitAt p)
  | .block ⟨[.expr e], _⟩ => change (← g.expr e)
  | .block b =>
    match ← g.stmts ⟨true, true, false⟩ b.stmts with
    | [.expr e] => change e
    | ss => return .block ⟨ss, b.pos⟩
  | .chain root links => chain g root links
  | .template parts p => ifNotConst e do
    let parts ← parts.mapM g.expr
    let joined := joinParts parts
    if joined.length ≠ parts.length then change ()
    return .template joined p
  | .list items p => ifNotConst e do
    return .list (← items.mapM g.expr) p
  | .table entries p => ifNotConst e do
    return .table (← entries.mapM fun (k, e) => do return (k, ← g.expr e)) p
  | .all es p => operands g (.all · p) es (decisive isTrueConst isFalseConst es)
  | .any es p => operands g (.any · p) es (decisive isFalseConst isTrueConst es)
  | .firstGiven es p => operands g (.firstGiven · p) es (givenFrom es)
  | .call c => call g c
  | .variable x p =>
    match ← known? x with
    | some v => change (.const v p)
    | none => return e
  | e => return e

end Simplify

/-! ## The tower -/

/-- The passes over a number of levels, each level made when it is entered. -/
def Passes.tower : Nat → Passes
  | 0 => ⟨pure, fun _ => pure, fun _ => pure⟩
  | n + 1 =>
    { expr := fun e => Simplify.expr (tower n) e
      stmt := fun v s => Simplify.stmt (tower n) v s
      stmts := fun k ss => Simplify.stmts (tower n) k ss }

/-- The body of a function or of a script. -/
def simplifyBody (textSize : Nat) (body : List Stmt) : List Stmt :=
  ((Simplify.stmts (Passes.tower 1000000) ⟨true, false, true⟩ body).run { textSize }).1

/-- A program that does the same in fewer steps.  No text in it grows beyond the given size. -/
def Program.simplify (p : Program) (textSize : Nat) : Program where
  body := simplifyBody textSize p.body
  functions := p.functions.map fun f =>
    { f with body := ⟨simplifyBody textSize f.body.stmts, f.body.pos⟩ }

end PluginChain.Script
