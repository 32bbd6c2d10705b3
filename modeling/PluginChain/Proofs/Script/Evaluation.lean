import PluginChain.Proofs.Script.Calls
import PluginChain.Script.Eval

/-!
# Evaluations that are cut

Every part of the evaluator is timed, if what it evaluates with is (`Run.timed_evaluate`).  The depth to which is
evaluated and the rounds of a loop are bounded as well, but each level and each round takes an operation, so that
the time is over before.
-/

set_option autoImplicit false

namespace PluginChain.Script

open Operation

/-- What cannot be evaluated without an operation. -/
def Node.IsBusy : Node → Prop
  | .expr _ => True
  | .block b => b.stmts.isEmpty = false

namespace Run

variable {α β γ : Type} {n : Nat} (run : Runner) [∀ node, Timed n (run node)]

/-! ## Lists of computations -/

instance timed_mapM (f : α → Run β) [∀ x, Timed n (f x)] (xs : List α) : Timed n (xs.mapM f) := by
  induction xs with
  | nil =>
    rw [List.mapM_nil]
    infer_instance
  | cons x xs ih =>
    rw [List.mapM_cons]
    infer_instance

instance timed_mapM_option (f : α → Run β) [∀ x, Timed n (f x)] (x : Option α) : Timed n (x.mapM f) := by
  cases x with
  | none => exact timed_pure _
  | some x => exact inferInstanceAs (Timed n (some <$> f x))

instance timed_forM_option (f : α → Run PUnit) [∀ x, Timed n (f x)] (x : Option α) : Timed n (x.forM f) := by
  cases x with
  | none => exact timed_pure _
  | some x => exact inferInstanceAs (Timed n (f x))

/-! ## Variables and operands -/

instance timed_lookup (x : String) (p : Position) : Timed n (lookup x p) := by
  refine timed_get.bind fun m => ?_
  split <;> infer_instance

instance timed_shareable (e : Expr) : Timed n (shareable run e) := by
  unfold shareable
  split <;> infer_instance

instance timed_arguments (es : List Expr) : Timed n (arguments run es) := by
  induction es with
  | nil => exact timed_pure []
  | cons e rest ih => exact Timed.bind inferInstance fun v => Timed.bind ih fun _ => inferInstance

instance timed_flag (v : Value) (p : Position) : Timed n (flag v p) := by
  unfold flag
  split <;> infer_instance

instance timed_condition (e : Expr) : Timed n (condition run e) := by
  unfold condition
  infer_instance

instance timed_all (es : List Expr) : Timed n (all run es) := by
  induction es with
  | nil => exact timed_pure true
  | cons e rest ih => exact Timed.bind inferInstance fun b => inferInstance

instance timed_any (es : List Expr) : Timed n (any run es) := by
  induction es with
  | nil => exact timed_pure false
  | cons e rest ih => exact Timed.bind inferInstance fun b => inferInstance

instance timed_firstGiven (es : List Expr) : Timed n (firstGiven run es) := by
  induction es with
  | nil => exact timed_pure Value.unit
  | cons e rest ih => exact Timed.bind inferInstance fun v => inferInstance

instance timed_itemValues (es : List Expr) (z : Value.Sizes) : Timed n (itemValues run es z) := by
  induction es generalizing z with
  | nil => exact timed_pure []
  | cons e rest ih => exact Timed.bind inferInstance fun v => Timed.bind inferInstance fun _ => inferInstance

instance timed_entryValues (es : List (String × Expr)) (z : Value.Sizes) : Timed n (entryValues run es z) := by
  induction es generalizing z with
  | nil => exact timed_pure []
  | cons e rest ih => exact Timed.bind inferInstance fun v => Timed.bind inferInstance fun _ => inferInstance

instance timed_templateText (es : List Expr) (s : String) : Timed n (templateText run es s) := by
  induction es generalizing s with
  | nil => exact timed_pure _
  | cons e rest ih =>
    unfold templateText
    dsimp only
    infer_instance

instance timed_qualified (path : List (String × Position)) (x : String) (p : Position) :
    Timed n (qualified path x p) := by
  unfold qualified
  refine Timed.ite (timed_get.bind fun m => ?_) inferInstance
  split <;> infer_instance

/-! ## Calls -/

instance timed_operation (c : Call) : Timed n (operation run c) := by
  have hnative : ∀ (args : List Value) (r : Reply), Timed n (do
      tick c.pos
      match r with
      | none => fail (.functionNotFound (signature c.name args)) c.pos
      | some r => do
        let v ← ofExcept r c.pos
        checkSize v c.pos
        return v : Run Value) := by
    intro args r
    cases r <;> infer_instance
  unfold operation
  dsimp only
  split
  · refine Timed.bind inferInstance fun v => ?_
    split
    · infer_instance
    · exact hnative [v] none
  · refine Timed.bind inferInstance fun l => Timed.bind inferInstance fun r => timed_read (fun c => ?_) fun c w => rfl
    split
    · infer_instance
    · exact Timed.bind inferInstance fun _ => hnative _ _
  · infer_instance

instance timed_callWithVariable (name x : String) (q : Position) (rest : List Expr) (p : Position) :
    Timed n (callWithVariable run name x q rest p) := by
  refine Timed.bind inferInstance fun vs => Timed.bind inferInstance fun s => ?_
  split
  · infer_instance
  · refine Timed.bind inferInstance fun _ => Timed.bind inferInstance fun h => ?_
    dsimp only
    split <;> infer_instance

instance timed_functionNamed (v : Value) (p : Position) : Timed n (functionNamed v p) := by
  unfold functionNamed
  split <;> infer_instance

instance timed_named (c : Call) : Timed n (named run c) := by
  unfold named
  split
  · refine Timed.bind inferInstance fun v => ?_
    split <;> infer_instance
  · infer_instance
  · refine Timed.bind inferInstance fun v => ?_
    split <;> infer_instance
  · infer_instance
  · refine Timed.bind inferInstance fun f => Timed.bind inferInstance fun v => ?_
    split <;> infer_instance
  · refine Timed.bind inferInstance fun v => ?_
    split <;> infer_instance
  · split <;> infer_instance

instance timed_callExpr (c : Call) : Timed n (callExpr run c) := by
  unfold callExpr
  refine Timed.ite inferInstance ?_
  split <;> infer_instance

/-! ## Chains -/

instance timed_linkValues (l : Link) : Timed n (linkValues run l) := by
  unfold linkValues
  split <;> infer_instance

instance timed_chainValues (links : List Link) : Timed n (chainValues run links) := by
  induction links with
  | nil => exact timed_pure _
  | cons l links ih =>
    cases links with
    | nil =>
      unfold chainValues
      infer_instance
    | cons next rest =>
      unfold chainValues
      infer_instance

instance timed_linksValues (links : List Link) : Timed n (linksValues run links) := by
  unfold linksValues
  split <;> infer_instance

instance timed_property (v : Value) (x : String) (p : Position) : Timed n (property v x p) := by
  refine Timed.bind inferInstance fun _ => timed_read (fun c => Timed.bind inferInstance fun time => ?_) fun c w => rfl
  split <;> infer_instance

instance timed_assignProperty (a : Assignment) (v : Value) (x : String) (p : Position) :
    Timed n (assignProperty a v x p) := by
  rcases a with ⟨_ | op, value, q, root, rootPos⟩
  · unfold assignProperty
    dsimp only
    infer_instance
  · unfold assignProperty
    dsimp only
    infer_instance

instance timed_follow (a : Option Assignment) (links : List (Link × List Value)) : Timed n (follow run a links) := by
  induction links with
  | nil => exact Timed.bind inferInstance fun _ => inferInstance
  | cons l rest ih =>
    obtain ⟨l, vs⟩ := l
    unfold follow
    refine Timed.bind inferInstance fun h => Timed.ite inferInstance ?_
    split
    · refine Timed.bind inferInstance fun _ => ?_
      split <;> infer_instance
    · split
      · refine Timed.bind inferInstance fun _ => ?_
        split <;> infer_instance
      · split <;> infer_instance
    · refine Timed.bind inferInstance fun v => ?_
      split <;> infer_instance
    · infer_instance

instance timed_chainExpr (root : Expr) (links : List Link) (a : Option ChainAssignment) :
    Timed n (chainExpr run root links a) := by
  refine Timed.bind inferInstance fun steps => ?_
  dsimp only
  split
  · refine Timed.bind inferInstance fun _ => Timed.bind inferInstance fun s => ?_
    split <;> infer_instance
  · infer_instance
  · infer_instance

/-- An expression takes an operation, and what comes then is timed. -/
theorem exists_expr (e : Expr) : ∃ rest : Run Value, Timed n rest ∧ expr run e = tick e.pos >>= fun _ => rest := by
  refine ⟨_, ?_, rfl⟩
  split
  case h_4 =>
    refine timed_get.bind fun m => ?_
    split <;> infer_instance
  all_goals infer_instance

omit [∀ node, Timed n (run node)] in
theorem timed_expr (hrun : ∀ node, Timed (n - 1) (run node)) (e : Expr) :
    Timed n (expr run e) ∧ Works (expr run e) := by
  obtain ⟨rest, hrest, heq⟩ := exists_expr (n := n - 1) run e
  rw [heq]
  exact ⟨(timed_tick e.pos).bind_of_works (works_tick e.pos) fun _ => hrest, (works_tick e.pos).bind fun _ => hrest⟩

/-! ## Loops -/

/-- Nothing is left of the rounds or the depth. -/
theorem timed_zero : Timed 0 (throw .late : Run α) where
  grows _ _ := Nat.le_refl _
  cut _ _ _ := .inr (Nat.le_refl _)
  steady _ _ _ _ _ := rfl

/-- A step that takes an operation is not repeated more often than there is work for. -/
theorem timed_untilValue {step : Run (Option Value)} (hworks : Works step) {k : Nat} (hn : n ≤ k)
    (hstep : Timed n step) : Timed n (untilValue step k) := by
  induction k generalizing n with
  | zero =>
    obtain rfl := Nat.le_zero.1 hn
    exact timed_zero
  | succ k ih =>
    -- with each round that is left goes one of the operations that are
    refine hstep.bind_of_works hworks fun r => ?_
    cases r with
    | some v => exact timed_pure v
    | none => exact ih (Nat.sub_le_of_le_add hn) (hstep.mono (Nat.sub_le n 1))

/-- What a round of a loop makes of the way its body ended. -/
def ofRound : EStateM.Result Stop Machine Value → EStateM.Result Stop Machine (Option Value × Bool)
  | .ok _ m => .ok (none, false) m
  | .error .nextRound m => .ok (none, true) m
  | .error (.leaveLoop v) m => .ok (some v, false) m
  | .error e m => .error e m

theorem encloses_ofRound : Encloses id id fun _ => ofRound := by
  refine ⟨fun _ => rfl, fun _ _ => rfl, fun _ => rfl, ?_, ?_⟩
  · rintro m (_ | _ | _ | _ | _ | _ | _) <;> rfl
  · rintro m (_ | _ | _ | _ | _ | _ | _) <;> simp [IsLate, answerOf, ofRound]

variable {b : Block}

theorem loopBodyCut_of_isEmpty (h : b.stmts.isEmpty = true) : loopBodyCut run b = pure (none, false) := by
  funext c m
  rw [loopBodyCut, if_pos h]
  rfl

theorem loopBodyCut_of_busy (h : b.stmts.isEmpty = false) :
    loopBodyCut run b = fun c m => ofRound (run (.block b) c m) := by
  funext c m
  rw [loopBodyCut, if_neg (by simp [h])]
  rcases run (.block b) c m with _ | ⟨_ | _ | _ | _ | _ | _, _⟩ <;> rfl

/-- A loop that does not ask how its body ended only sees whether it was left. -/
theorem loopBody_eq : loopBody run b = Prod.fst <$> loopBodyCut run b := by
  rw [map_eq_pure_bind, bind_eq_resume]
  funext c m
  rw [loopBody, resume, loopBodyCut]
  by_cases h : b.stmts.isEmpty = true
  · rw [if_pos h, if_pos h]
    rfl
  · rw [if_neg h, if_neg h]
    rcases run (.block b) c m with _ | ⟨_ | _ | _ | _ | _ | _, _⟩ <;> rfl

instance timed_loopBodyCut (b : Block) : Timed n (loopBodyCut run b) := by
  cases h : b.stmts.isEmpty with
  | true =>
    rw [loopBodyCut_of_isEmpty run h]
    infer_instance
  | false =>
    rw [loopBodyCut_of_busy run h]
    exact Timed.within inferInstance encloses_ofRound

instance timed_loopBody (b : Block) : Timed n (loopBody run b) := by
  rw [loopBody_eq]
  infer_instance

instance timed_setVariable (i : Nat) (v : Value) : Timed n (setVariable i v) := by
  refine timed_of_ok fun m => ?_
  unfold setVariable
  generalize m.scope[i]? = b
  rcases b with _ | ⟨x, w, a⟩
  · refine ⟨(), _, ?_, fun _ => rfl⟩
    exact Nat.le_refl _
  · cases w <;> refine ⟨(), _, ?_, fun _ => rfl⟩ <;> exact Nat.le_refl _

section Repeating

variable (hworks : ∀ node : Node, node.IsBusy → Works (run node))
include hworks

theorem works_condition (e : Expr) : Works (condition run e) :=
  (hworks (.expr e) trivial).bind fun v => timed_flag (n := 0) v e.pos

theorem works_loopBodyCut (h : b.stmts.isEmpty = false) : Works (loopBodyCut run b) := by
  rw [loopBodyCut_of_busy run h]
  exact (hworks (.block b) h).within encloses_ofRound

theorem works_loopBody (h : b.stmts.isEmpty = false) : Works (loopBody run b) := by
  rw [loopBody_eq, map_eq_pure_bind]
  exact (works_loopBodyCut run hworks h).bind fun r => timed_pure (n := 0) _

/-- A round of a loop takes an operation, also where its body is empty. -/
theorem timed_whileLoop (hn : n ≤ rounds) (cond : Expr) (body : Block) : Timed n (whileLoop run cond body) := by
  have hbusy : Works (do
      if body.stmts.isEmpty then tick body.pos
      loopBody run body) := by
    dsimp only
    cases h : body.stmts.isEmpty with
    | true => exact (works_tick body.pos).bind fun _ => timed_loopBody (n := n) run body
    | false => exact works_loopBody run hworks h
  unfold whileLoop
  dsimp only at hbusy ⊢
  split
  · exact timed_untilValue hbusy hn inferInstance
  · exact timed_untilValue hbusy hn inferInstance
  · have hrest : ∀ b : Bool, Timed n (if b then loopBody run body else return some Value.unit) := inferInstance
    exact timed_untilValue ((works_condition run hworks cond).bind hrest) hn inferInstance

theorem timed_doLoop (hn : n ≤ rounds) (body : Block) (cond : Expr) (stopsWhen : Bool) :
    Timed n (doLoop run body cond stopsWhen) := by
  unfold doLoop
  dsimp only
  refine timed_untilValue ?_ hn inferInstance
  cases h : body.stmts.isEmpty with
  | true =>
    rw [loopBodyCut_of_isEmpty run h, pure_bind]
    exact (works_condition run hworks cond).bind fun b => timed_ite (n := n) _ _ _
  | false => exact (works_loopBodyCut run hworks h).bind fun r => timed_ite (n := n) _ _ _

omit [∀ node, Timed n (run node)] in
theorem timed_eachElement {k : Nat} (hrun : ∀ node, Timed n (run node)) (hn : n ≤ k) (counter : Option Nat)
    (place : Nat) (body : Block) (source : Source) (i : Nat) :
    Timed n (eachElement run counter place body k source i) := by
  induction k generalizing n source i with
  | zero =>
    obtain rfl := Nat.le_zero.1 hn
    exact timed_zero
  | succ k ih =>
    unfold eachElement
    cases source.next? with
    | none => exact timed_pure Value.unit
    | some next =>
      obtain ⟨v, source⟩ := next
      have hpast : ∀ node, Timed (n - 1) (run node) := fun node => (hrun node).mono (Nat.sub_le n 1)
      have hnext := ih hpast (Nat.sub_le_of_le_add hn) source (i + 1)
      refine Timed.bind inferInstance fun _ => Timed.bind inferInstance fun _ => ?_
      dsimp only
      cases h : body.stmts.isEmpty with
      | true =>
        refine (timed_tick _).bind_of_works (works_tick _) fun _ => Timed.bind inferInstance fun r => ?_
        rcases r with _ | v
        · exact hnext
        · exact timed_pure v
      | false =>
        refine (timed_loopBody run body).bind_of_works (works_loopBody run hworks h) fun r => ?_
        rcases r with _ | v
        · exact hnext
        · exact timed_pure v

theorem timed_forLoop (hn : n ≤ rounds) (x : String) (counter : Option String) (source : Expr) (body : Block) :
    Timed n (forLoop run x counter source body) := by
  refine Timed.bind inferInstance fun v => ?_
  split
  · infer_instance
  · next s _ =>
    have heach : ∀ (c : Option Nat) (place : Nat), Timed n (eachElement run c place body rounds s 0) :=
      fun c place => timed_eachElement run hworks inferInstance hn c place body s 0
    infer_instance

end Repeating

/-! ## Choices -/

instance timed_firstArm (arms : List Arm) : Timed n (firstArm run arms) := by
  induction arms with
  | nil => exact timed_pure none
  | cons a rest ih =>
    unfold firstArm
    dsimp only
    split <;> infer_instance

instance timed_switch (subject : Expr) (arms : List Arm) (default : Option Expr) :
    Timed n (switch run subject arms default) := by
  refine Timed.bind inferInstance fun v => Timed.bind inferInstance fun e => ?_
  split <;> infer_instance

/-- What comes of a handler: a failure thrown on without a value is the one that is handled. -/
def afterHandler (e : Failure) : Except Stop Value → Run Value
  | .ok _ => pure .unit
  | .error (.failure ⟨.thrown .unit, p⟩) => throw (.failure { e with place := p })
  | .error s => throw s

/-- What comes of the body of an attempt. -/
def afterAttempt (name : Option String) (handler : Block) : Except Stop Value → Run Value
  | .ok _ => pure .unit
  | .error (.failure e) =>
    if e.fault.isOfSandbox then throw (.failure e)
    else
      resume (inScope do
        name.forM (declare · e.toValue)
        run (.block handler)) (afterHandler e)
  | .error s => throw s

theorem attempt_eq (body : Block) (name : Option String) (handler : Block) :
    attempt run body name handler = resume (run (.block body)) (afterAttempt run name handler) := by
  funext c m
  rw [attempt, resume]
  rcases run (.block body) c m with _ | ⟨_ | _ | _ | _ | _ | _, m'⟩
  case error.failure e =>
    by_cases hfault : e.fault.isOfSandbox = true
    · simp only [answerOf, stateOf, afterAttempt, hfault, if_true]
      rfl
    · simp only [answerOf, stateOf, afterAttempt, hfault]
      simp only [Bool.false_eq_true, if_false, resume]
      generalize inScope _ c m' = r
      rcases r with _ | ⟨⟨fault, p⟩ | _, m⟩
      case error.failure =>
        rcases fault with ⟨_ | _⟩ | _
        all_goals rfl
      all_goals rfl
  all_goals rfl

theorem takesUp_afterHandler (e : Failure) : TakesUp n (afterHandler e) where
  timed r hr := by
    unfold afterHandler
    split
    · infer_instance
    · infer_instance
    · exact timed_throw fun hs => hr (congrArg _ hs)
  late := rfl

theorem takesUp_afterAttempt (name : Option String) (handler : Block) : TakesUp n (afterAttempt run name handler) where
  timed r hr := by
    unfold afterAttempt
    split
    · infer_instance
    · next e => exact Timed.ite inferInstance (Timed.resume inferInstance (takesUp_afterHandler e))
    · exact timed_throw fun hs => hr (congrArg _ hs)
  late := rfl

instance timed_attempt (body : Block) (name : Option String) (handler : Block) :
    Timed n (attempt run body name handler) := by
  rw [attempt_eq]
  exact Timed.resume inferInstance (takesUp_afterAttempt run name handler)

/-! ## Statements -/

instance timed_value (e : Option Expr) : Timed n (value run e) := by
  unfold value
  split <;> infer_instance

instance timed_bindStmt (x : String) (e : Expr) (isConstant : Bool) : Timed n (bind run x e isConstant) := by
  refine Timed.bind inferInstance fun v => timed_read (fun c => ?_) fun c w => rfl
  exact Timed.ite (Timed.bind (timed_modify fun _ => Nat.le_refl _) fun _ => inferInstance) inferInstance

instance timed_assignStmt (op : Option String) (target e : Expr) (p : Position) :
    Timed n (assignStmt run op target e p) := by
  refine Timed.bind inferInstance fun v => ?_
  dsimp only
  split
  · refine Timed.bind inferInstance fun _ => Timed.bind inferInstance fun s => ?_
    split <;> infer_instance
  · infer_instance
  · infer_instance
  · infer_instance
  · infer_instance

instance timed_shareStmt (names : List (String × Position)) : Timed n (shareStmt names) := by
  induction names with
  | nil => exact timed_pure ()
  | cons x rest ih =>
    obtain ⟨x, p⟩ := x
    refine timed_get.bind fun m => ?_
    dsimp only
    split <;> infer_instance

instance timed_blockOrUnit (b : Block) : Timed n (blockOrUnit run b) := by
  unfold blockOrUnit
  infer_instance

section Statements

variable (hworks : ∀ node : Node, node.IsBusy → Works (run node))
include hworks

/-- A statement takes an operation, and what comes then is timed. -/
theorem exists_stmt (hn : n ≤ rounds) (s : Stmt) :
    ∃ rest : Run Value, Timed n rest ∧ stmt run s = tick s.pos >>= fun _ => rest := by
  have hwhile := timed_whileLoop run hworks hn
  have hdo := timed_doLoop run hworks hn
  have hfor := timed_forLoop run hworks hn
  refine ⟨_, ?_, rfl⟩
  dsimp only
  split
  case h_17 =>
    refine Timed.bind inferInstance fun v => ?_
    split <;> infer_instance
  all_goals infer_instance

omit [∀ node, Timed n (run node)] in
theorem timed_stmt (hn : n ≤ rounds) (hrun : ∀ node, Timed (n - 1) (run node)) (s : Stmt) :
    Timed n (stmt run s) ∧ Works (stmt run s) := by
  obtain ⟨rest, hrest, heq⟩ := exists_stmt (n := n - 1) run hworks (Nat.le_trans (Nat.sub_le n 1) hn) s
  rw [heq]
  exact ⟨(timed_tick s.pos).bind_of_works (works_tick s.pos) fun _ => hrest, (works_tick s.pos).bind fun _ => hrest⟩

omit [∀ node, Timed n (run node)] in
theorem timed_statements (hn : n ≤ rounds) (hrun : ∀ node, Timed (n - 1) (run node)) (stmts : List Stmt) (v : Value) :
    Timed n (statements run stmts v) := by
  induction stmts generalizing v with
  | nil => exact timed_pure v
  | cons s rest ih => exact (timed_stmt run hworks hn hrun s).1.bind ih

omit [∀ node, Timed n (run node)] in
theorem works_statements (hrun : ∀ node, Timed 0 (run node)) {stmts : List Stmt} (h : stmts.isEmpty = false)
    (v : Value) : Works (statements run stmts v) := by
  cases stmts with
  | nil => cases h
  | cons s rest =>
    have hstmt := timed_stmt (n := 0) run hworks (Nat.zero_le _) hrun s
    exact hstmt.2.bind (timed_statements run hworks (Nat.zero_le _) hrun rest)

end Statements

/-! ## The evaluator -/

theorem encloses_inBlock :
    Encloses (α := α) (fun c => { c with isOutermost := false }) id fun _ r => r :=
  ⟨fun _ => rfl, fun _ _ => rfl, fun _ => rfl, fun _ _ => rfl, fun _ _ => Iff.rfl⟩

/-- **The evaluator is timed.**  One that goes down to a depth is only cut before the time is over if it went on
for so many operations. -/
theorem timed_evaluate {n : Nat} (hn : n ≤ rounds) (node : Node) :
    Timed n (evaluate n node) ∧ (node.IsBusy → Works (evaluate n node)) := by
  induction n generalizing node with
  | zero => exact ⟨timed_zero, fun _ c m hlate => absurd rfl hlate⟩
  | succ n ih =>
    have hle : n ≤ rounds := Nat.le_trans (Nat.le_succ n) hn
    have hrun : ∀ node, Timed n (evaluate n node) := fun node => (ih hle node).1
    have hworks : ∀ node : Node, node.IsBusy → Works (evaluate n node) := fun node => (ih hle node).2
    -- an expression or a statement takes an operation before anything one level below it is evaluated
    cases node with
    | expr e =>
      obtain ⟨htimed, hbusy⟩ := timed_expr (n := n + 1) (evaluate n) hrun e
      exact ⟨htimed.within encloses_inBlock, fun _ => hbusy.within encloses_inBlock⟩
    | block b =>
      have htimed := timed_statements (evaluate n) hworks hn hrun b.stmts .unit
      refine ⟨(timed_inScope _).within encloses_inBlock, fun h => (works_inScope ?_).within encloses_inBlock⟩
      exact works_statements (evaluate n) hworks (fun node => (hrun node).mono (Nat.zero_le n)) h .unit

end Run

end PluginChain.Script
