import PluginChain.Proofs.Script.Timed
import PluginChain.Script.Call

/-!
# Calls that are cut

What a script calls is cut like the script itself: a function of the script, one of the library, and one that a
function of the library calls for the elements of a list.  A failure inside of a callback can be passed over,
but not that the time is over (`Run.attempted`).
-/

set_option autoImplicit false

namespace PluginChain.Script

open Operation

namespace Run

variable {α β γ : Type} {n : Nat}

/-! ## Frames -/

instance timed_function? (name : String) (arity : Nat) : Timed n (function? name arity) :=
  timed_read (fun _ => inferInstance) fun _ _ => rfl

instance timed_hasFunction (name : String) : Timed n (hasFunction name) :=
  timed_read (fun _ => inferInstance) fun _ _ => rfl

instance timed_inFrame (f : FunctionDef) (args : List Value) (onHeld sharesScope : Bool) (p : Position)
    (body : Run Value) [hbody : Timed n body] : Timed n (inFrame f args onHeld sharesScope p body) := by
  have h : Encloses (fun c => { c with level := c.level + 1, isOutermost := false })
      (fun m =>
        let params := (f.params.zip args).map fun (x, v) => ({ name := x, value := v } : Binding)
        { m with
          scope := if sharesScope then m.scope ++ params else params.toArray
          this := if onHeld then some m.held else none })
      fun m (r : EStateM.Result Stop Machine Value) =>
        let back (n : Machine) : Machine := { n with
          scope := if sharesScope then n.scope.extract 0 m.scope.size else m.scope
          this := m.this
          held := if onHeld then n.this.getD m.held else m.held }
        match r with
        | .ok v n => .ok v (back n)
        | .error (.result v) n => .ok v (back n)
        | .error (.failure e) n => .error (.failure (seenFrom f p e)) (back n)
        | .error e n => .error e (back n) := by
    refine ⟨fun _ => rfl, fun _ _ => rfl, fun _ => rfl, ?_, ?_⟩
    · rintro m (_ | _ | _ | _ | _ | _ | _) <;> rfl
    · rintro m (_ | _ | _ | _ | _ | _ | _) <;> simp [IsLate, answerOf]
  exact hbody.within h

theorem encloses_inside :
    Encloses (α := α) (fun c => { c with level := c.level + 1 }) id fun _ r => r :=
  ⟨fun _ => rfl, fun _ _ => rfl, fun _ => rfl, fun _ _ => rfl, fun _ _ => Iff.rfl⟩

instance timed_inside (act : Run α) [hact : Timed n act] : Timed n (inside act) := hact.within encloses_inside

variable (run : Runner) [∀ node, Timed n (run node)]

instance timed_callFunction (f : FunctionDef) (args : List Value) (onHeld sharesScope : Bool) (p : Position) :
    Timed n (callFunction run f args onHeld sharesScope p) := by
  unfold callFunction
  dsimp only
  split
  · infer_instance
  · exact Timed.bind inferInstance fun _ => timed_read (fun _ => inferInstance) fun _ _ => rfl

/-! ## Functions of the library -/

instance timed_now : Timed n now := by
  unfold now
  infer_instance

instance timed_settle (name : String) (p : Position) (a : Answer) : Timed n (settle name p a) := by
  refine timed_held.bind fun h => ?_
  split <;> infer_instance

instance timed_plainNative (name : String) (args : List Value) (p : Position) :
    Timed n (plainNative name args p) := by
  refine timed_held.bind fun h => ?_
  dsimp only
  split
  · infer_instance
  · infer_instance
  · infer_instance
  · refine timed_read (fun c => Timed.bind inferInstance fun most => Timed.bind inferInstance fun time => ?_)
      fun c w => rfl
    split <;> infer_instance

/-! ## Callbacks -/

instance timed_namedFor (k : Callback) (act : Run Value) [hact : Timed n act] : Timed n (namedFor k act) := by
  have h : Encloses id id fun (_ : Machine) (r : EStateM.Result Stop Machine Value) =>
      match r with
      | .error (.failure e) m => .error (.failure ⟨.inCall k.caller e.fault e.place, k.place⟩) m
      | r => r := by
    refine ⟨fun _ => rfl, fun _ _ => rfl, fun _ => rfl, ?_, ?_⟩
    · rintro m (_ | _ | _ | _ | _ | _ | _) <;> rfl
    · rintro m (_ | _ | _ | _ | _ | _ | _) <;> simp [IsLate, answerOf]
  exact hact.within h

instance timed_findM? {γ : Type} (f : γ → Run Bool) [∀ x, Timed n (f x)] (xs : List γ) : Timed n (xs.findM? f) := by
  induction xs with
  | nil => exact timed_pure none
  | cons x xs ih =>
    refine Timed.bind inferInstance fun b => ?_
    cases b <;> infer_instance

instance timed_call (k : Callback) (hasThis : Bool) (args extras : List Value) (moveTo : Option Nat) :
    Timed n (k.call run hasThis args extras moveTo) := by
  refine @timed_namedFor _ _ _ <| @timed_uncounted _ _ _ ?_
  refine Timed.bind inferInstance fun h => Timed.bind inferInstance fun way => ?_
  dsimp only
  refine Timed.bind inferInstance fun f => ?_
  split
  · infer_instance
  · refine Timed.bind inferInstance fun _ => ?_
    split
    · infer_instance
    · split <;> infer_instance

instance timed_onItem (k : Callback) (item : Value) (args extras : List Value) (moveTo : Option Nat) :
    Timed n (k.onItem run item args extras moveTo) := by
  unfold Callback.onItem
  infer_instance

instance timed_test (k : Callback) (item : Value) (i : Nat) : Timed n (k.test run item i) := by
  unfold Callback.test
  infer_instance

instance timed_fold (k : Callback) (acc item : Value) (i : Nat) : Timed n (k.fold run acc item i) := by
  unfold Callback.fold
  infer_instance

instance timed_partition (test : Nat → Value → Run Bool) [∀ i x, Timed n (test i x)] (i : Nat) (xs : List Value) :
    Timed n (partition test i xs) := by
  induction xs generalizing i with
  | nil => exact timed_pure _
  | cons x rest ih => exact Timed.bind inferInstance fun b => Timed.bind (ih _) fun _ => inferInstance

instance timed_firstOf (found : Nat → Value → Run (Option α)) [∀ i x, Timed n (found i x)] (i : Nat)
    (xs : List Value) : Timed n (firstOf found i xs) := by
  induction xs generalizing i with
  | nil => exact timed_pure none
  | cons x rest ih =>
    refine Timed.bind inferInstance fun a => ?_
    cases a with
    | some a => exact timed_pure _
    | none => exact ih _

instance timed_foldItems (step : Nat → Value → Value → Run Value) [∀ i a x, Timed n (step i a x)]
    (xs : List (Nat × Value)) (acc : Value) : Timed n (foldItems step xs acc) := by
  induction xs generalizing acc with
  | nil => exact timed_pure acc
  | cons x rest ih => exact Timed.bind inferInstance ih

instance timed_mapItems (f : Nat → Value → Run α) [∀ i x, Timed n (f i x)] (i : Nat) (xs : List Value) :
    Timed n (mapItems f i xs) := by
  induction xs generalizing i with
  | nil => exact timed_pure []
  | cons x rest ih => exact Timed.bind inferInstance fun a => Timed.bind (ih _) fun _ => inferInstance

instance timed_mergeItems (le : Value → Value → Run Bool) [∀ x y, Timed n (le x y)] (k : Nat)
    (xs ys : List Value) : Timed n (mergeItems le k xs ys) := by
  fun_induction mergeItems le k xs ys with
  | case1 => infer_instance
  | case2 => infer_instance
  | case3 => infer_instance
  | case4 k x xs y ys ih ih' =>
    exact Timed.bind inferInstance fun b => inferInstance

instance timed_sortItems (le : Value → Value → Run Bool) [∀ x y, Timed n (le x y)] (k : Nat) (xs : List Value) :
    Timed n (sortItems le k xs) := by
  induction k generalizing xs with
  | zero => exact timed_pure xs
  | succ k ih =>
    unfold sortItems
    have hmerge := fun half left => Timed.bind (ih (xs.drop half)) fun right => timed_mergeItems le xs.length left right
    split
    · infer_instance
    · exact Timed.bind (ih _) fun left => hmerge _ left

instance timed_attempted (act : Run Value) [hact : Timed n act] : Timed n (attempted act) := by
  have h : Encloses id id fun (_ : Machine) (r : EStateM.Result Stop Machine Value) =>
      match r with
      | .ok v m => .ok (some v) m
      | .error (.failure _) m => .ok none m
      | .error e m => .error e m := by
    refine ⟨fun _ => rfl, fun _ _ => rfl, fun _ => rfl, ?_, ?_⟩
    · rintro m (_ | _ | _ | _ | _ | _ | _) <;> rfl
    · rintro m (_ | _ | _ | _ | _ | _ | _) <;> simp [IsLate, answerOf]
  exact hact.within h

instance timed_pairCall (k : Callback) (x y : Value) : Timed n (pairCall run k x y) := by
  unfold pairCall
  infer_instance

instance timed_withoutRepeats (same : Value → Value → Run Bool) [∀ x y, Timed n (same x y)] (last : Value)
    (xs : List Value) : Timed n (withoutRepeats same last xs) := by
  induction xs generalizing last with
  | nil => exact timed_pure []
  | cons x rest ih =>
    exact Timed.bind inferInstance fun b => inferInstance

/-! ## Functions that call others -/

section Library

variable (k : Callback) {name : String} {xs more : List Value} {es : List (String × Value)} {changes : Bool}
  {act : Run Answer}

/-- A list is sorted by what a callback says about two elements. -/
theorem timed_order {isBefore : Option Value → Run Bool} (hbefore : ∀ r, Timed n (isBefore r)) :
    Timed n (do return Value.list (← sortItems (fun x y => pairCall run k x y >>= isBefore) xs.length xs)) :=
  inferInstance

theorem timed_of_onListWith (h : onListWith run k name xs more = some (changes, act)) : Timed n act := by
  unfold onListWith at h
  dsimp only at h
  split at h
  case h_16 | h_17 =>
    cases h
    refine Timed.bind (timed_order run k fun r => ?_) fun _ => inferInstance
    split <;> infer_instance
  case h_18 =>
    cases h
    refine @timed_map _ _ _ _ (timed_order run k fun r => ?_) _
    split <;> infer_instance
  case h_19 =>
    cases h
    split <;> infer_instance
  case h_22 => cases h
  all_goals
    cases h
    infer_instance

theorem timed_partEntries (es : List (String × Value)) : Timed n (partEntries run k es) := by
  induction es with
  | nil => exact timed_pure _
  | cons e rest ih => exact Timed.bind inferInstance fun r => Timed.bind ih fun _ => inferInstance

theorem timed_of_onTableWith (h : onTableWith run k name es = some (changes, act)) : Timed n act := by
  have hpart := timed_partEntries (n := n) run k es
  unfold onTableWith at h
  split at h
  case h_4 => cases h
  all_goals
    cases h
    infer_instance

end Library

/-- What a function of the library does that calls others. -/
theorem timed_of_withCallback? {name : String} {v : Value} {args : List Value} {p : Position} {changes : Bool}
    {act : Run Answer} (h : withCallback? run name v args p = some (changes, act)) : Timed n act := by
  unfold withCallback? at h
  split at h
  · exact timed_of_onListWith run _ h
  · split at h
    · obtain ⟨⟨b, act'⟩, hwith, heq⟩ := Option.map_eq_some_iff.1 h
      cases heq
      exact timed_of_onListWith run _ hwith
    · cases h
  · exact timed_of_onTableWith run _ h
  · cases h

/-! ## Calls -/

instance timed_documentValue (s : String) : Timed n (documentValue run s) := by
  refine timed_read (fun c => ?_) fun c w => rfl
  split <;> infer_instance

instance timed_callNative (name : String) (args : List Value) (p : Position) :
    Timed n (callNative run name args p) := by
  refine Timed.bind inferInstance fun _ => @timed_inside _ _ _ ?_
  refine timed_held.bind fun h => ?_
  dsimp only
  split
  · next changes act hwith =>
    have hact : Timed n act := timed_of_withCallback? run hwith
    infer_instance
  · infer_instance
  · infer_instance

instance timed_callNativeWith (name : String) (args : List Value) (p : Position) :
    Timed n (callNativeWith run name args p) := by
  have hconstant : Timed n (do match Library.constant? (← now) name with
      | some v => return v
      | none => fail (.functionNotFound (signature name [])) p) := by
    refine Timed.bind inferInstance fun time => ?_
    split <;> infer_instance
  have hprinted : Timed n (do
      print "" (if name = "debug" then some p else none)
      return Value.unit) := inferInstance
  unfold callNativeWith
  split
  · infer_instance
  · exact Timed.bind inferInstance fun _ =>
      Timed.ite (Timed.bind inferInstance fun _ => Timed.ite hprinted hconstant) (Timed.ite hprinted hconstant)

instance timed_callByName (name : String) (args : List Value) (sharesScope : Bool) (p : Position) :
    Timed n (callByName run name args sharesScope p) := by
  have hcall : Timed n (do match ← function? name args.length with
      | some f => callFunction run f args false sharesScope p
      | none => callNativeWith run name args p) := by
    refine Timed.bind inferInstance fun f => ?_
    split <;> infer_instance
  unfold callByName
  refine Timed.ite ?_ hcall
  split
  · infer_instance
  · exact hcall

instance timed_callOnHeld (name : String) (args : List Value) (p : Position) :
    Timed n (callOnHeld run name args p) := by
  refine Timed.bind inferInstance fun f => ?_
  split <;> infer_instance

instance timed_callMethod (name : String) (args : List Value) (q p : Position) :
    Timed n (callMethod run name args q p) := by
  refine timed_held.bind fun h => ?_
  dsimp only
  split
  case h_9 => split <;> infer_instance
  all_goals infer_instance

end Run

end PluginChain.Script
