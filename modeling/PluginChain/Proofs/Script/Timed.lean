import PluginChain.Proofs.Operation
import PluginChain.Script.Part

/-!
# Computations that are cut

The time of a script is a number of operations (`Surroundings.workLimit`), and each operation asks whether it
is over (`Run.tick`).  A computation is `Run.Timed` if nothing else of it depends on the time: it is cut at the
first operation beyond the limit, and if it was not cut, or only later than some other limit, then it does the
same within that.

`Timed` is shown part by part (`Timed.bind`, `Timed.within`, `Timed.resume`).  Here it is shown of what a
running script does to its variables and to parts of values.
-/

set_option autoImplicit false

namespace PluginChain.Script

open Operation

namespace Run

variable {α β : Type} {n : Nat}

/-- The computation was cut. -/
def IsLate (r : EStateM.Result Stop Machine α) : Prop := answerOf r = .error .late

/-- A computation that is cut where its work goes over the limit and nowhere else, unless it went on for `n`
operations. -/
class Timed (n : Nat) (act : Run α) : Prop where
  grows : ∀ c m, m.work ≤ (stateOf (act c m)).work
  cut : ∀ c m, IsLate (act c m) →
    c.workLimit < (stateOf (act c m)).work ∨ m.work + n ≤ (stateOf (act c m)).work
  steady : ∀ c m w, c.workLimit ≤ w → (IsLate (act c m) → w < (stateOf (act c m)).work) →
    act { c with workLimit := w } m = act c m

/-- A computation that takes an operation at least. -/
def Works (act : Run α) : Prop := ∀ c m, ¬ IsLate (act c m) → m.work < (stateOf (act c m)).work

theorem Timed.mono {n' : Nat} {act : Run α} (h : Timed n act) (hn : n' ≤ n) : Timed n' act where
  grows := h.grows
  cut c m hlate := (h.cut c m hlate).imp_right fun hwork => by omega
  steady := h.steady

/-! ## Building computations up -/

/-- A computation that goes on from whatever another one came to. -/
def resume (act : Run α) (k : Except Stop α → Run β) : Run β := fun c m =>
  k (answerOf (act c m)) c (stateOf (act c m))

/-- How a computation goes on from another one, of which nothing is taken up that was cut. -/
structure TakesUp (n : Nat) (k : Except Stop α → Run β) : Prop where
  timed : ∀ r, r ≠ .error .late → Timed n (k r)
  late : k (.error .late) = throw .late

theorem Timed.resume {act : Run α} {k : Except Stop α → Run β} (hact : Timed n act) (hk : TakesUp n k) :
    Timed n (resume act k) where
  grows c m := by
    refine Nat.le_trans (hact.grows c m) ?_
    rw [Run.resume]
    by_cases hr : answerOf (act c m) = .error .late
    · rw [hr, hk.late]
      exact Nat.le_refl _
    · exact (hk.timed _ hr).grows c _
  cut c m := by
    intro hlate
    rw [Run.resume] at hlate ⊢
    by_cases hr : answerOf (act c m) = .error .late
    · rw [hr, hk.late]
      exact hact.cut c m hr
    · refine ((hk.timed _ hr).cut c _ hlate).imp_right fun hwork => ?_
      have hgrows := hact.grows c m
      omega
  steady c m w hw hlate := by
    rw [Run.resume] at hlate
    rw [Run.resume, Run.resume]
    by_cases hr : answerOf (act c m) = .error .late
    · rw [hr, hk.late] at hlate
      rw [hact.steady c m w hw fun _ => hlate rfl, hr, hk.late]
      rfl
    · rw [hact.steady c m w hw fun h => absurd h hr]
      exact (hk.timed _ hr).steady c _ w hw hlate

theorem Works.resume {act : Run α} {k : Except Stop α → Run β} (hact : Works act) (hk : TakesUp n k) :
    Works (resume act k) := by
  intro c m hlate
  rw [Run.resume] at hlate ⊢
  by_cases hr : answerOf (act c m) = .error .late
  · rw [hr, hk.late] at hlate
    exact absurd rfl hlate
  · exact Nat.lt_of_lt_of_le (hact c m hr) ((hk.timed _ hr).grows c _)

/-- A computation that works is not cut before its first operation. -/
theorem Timed.resume_of_works {act : Run α} {k : Except Stop α → Run β} (hact : Timed n act) (hworks : Works act)
    (hk : TakesUp (n - 1) k) : Timed n (Run.resume act k) where
  grows := ((hact.mono (Nat.sub_le n 1)).resume hk).grows
  cut c m := by
    intro hlate
    rw [Run.resume] at hlate ⊢
    by_cases hr : answerOf (act c m) = .error .late
    · rw [hr, hk.late]
      exact hact.cut c m hr
    · refine ((hk.timed _ hr).cut c _ hlate).imp_right fun hwork => ?_
      have hmore := hworks c m hr
      omega
  steady := ((hact.mono (Nat.sub_le n 1)).resume hk).steady

theorem bind_eq_resume (act : Run α) (f : α → Run β) :
    act >>= f = resume act fun
      | .ok a => f a
      | .error s => throw s := by
  funext c m
  change EStateM.bind (act c) (fun a => f a c) m = _
  rw [EStateM.bind, resume]
  cases act c m <;> rfl

/-- A computation that does not look at the limit, and neither ends late nor takes work away. -/
theorem timed_of_eq {act : Run α} (hgrows : ∀ c m, m.work ≤ (stateOf (act c m)).work)
    (hlate : ∀ c m, ¬ IsLate (act c m)) (heq : ∀ c m w, act { c with workLimit := w } m = act c m) :
    Timed n act :=
  ⟨hgrows, fun c m h => absurd h (hlate c m), fun c m w _ _ => heq c m w⟩

instance timed_pure (a : α) : Timed n (pure a : Run α) :=
  timed_of_eq (fun _ _ => Nat.le_refl _) (fun _ _ h => nomatch h) fun _ _ _ => rfl

theorem timed_throw {s : Stop} (h : s ≠ .late) : Timed n (throw s : Run α) :=
  timed_of_eq (fun _ _ => Nat.le_refl _) (fun _ _ h' => h (Except.error.inj h')) fun _ _ _ => rfl

instance timed_failure (f : Failure) : Timed n (throw (.failure f) : Run α) := timed_throw Stop.noConfusion

instance timed_leaveLoop (v : Value) : Timed n (throw (.leaveLoop v) : Run α) := timed_throw Stop.noConfusion

instance timed_nextRound : Timed n (throw .nextRound : Run α) := timed_throw Stop.noConfusion

instance timed_result (v : Value) : Timed n (throw (.result v) : Run α) := timed_throw Stop.noConfusion

instance timed_exit (v : Value) : Timed n (throw (.exit v) : Run α) := timed_throw Stop.noConfusion

instance timed_fail (fault : Fault) (p : Position) : Timed n (fail fault p : Run α) := timed_failure _

theorem takesUp_bind {f : α → Run β} (hf : ∀ a, Timed n (f a)) :
    TakesUp (α := α) n fun
      | .ok a => f a
      | .error s => throw s where
  timed r hr := by
    cases r with
    | ok a => exact hf a
    | error s => exact timed_throw fun h => hr (congrArg _ h)
  late := rfl

theorem Timed.bind {act : Run α} {f : α → Run β} (hact : Timed n act) (hf : ∀ a, Timed n (f a)) :
    Timed n (act >>= f) := by
  rw [bind_eq_resume]
  exact hact.resume (takesUp_bind hf)

instance timed_bind (act : Run α) (f : α → Run β) [hact : Timed n act] [hf : ∀ a, Timed n (f a)] :
    Timed n (act >>= f) := hact.bind hf

theorem Works.bind {act : Run α} {f : α → Run β} (hact : Works act) (hf : ∀ a, Timed n (f a)) :
    Works (act >>= f) := by
  rw [bind_eq_resume]
  exact hact.resume (takesUp_bind hf)

/-- A computation that works is not cut before its first operation. -/
theorem Timed.bind_of_works {act : Run α} {f : α → Run β} (hact : Timed n act) (hworks : Works act)
    (hf : ∀ a, Timed (n - 1) (f a)) : Timed n (act >>= f) := by
  rw [bind_eq_resume]
  exact hact.resume_of_works hworks (takesUp_bind hf)

instance timed_map (act : Run α) [Timed n act] (f : α → β) : Timed n (f <$> act) := by
  rw [map_eq_pure_bind]
  infer_instance

theorem Timed.ite {p : Prop} [Decidable p] {act act' : Run α} (h : Timed n act) (h' : Timed n act') :
    Timed n (if p then act else act') := by
  by_cases hp : p
  · rwa [if_pos hp]
  · rwa [if_neg hp]

instance timed_ite (p : Prop) [Decidable p] (act act' : Run α) [h : Timed n act] [h' : Timed n act'] :
    Timed n (if p then act else act') := h.ite h'

/-- A computation that has a value whatever the time. -/
theorem timed_of_ok {act : Run α} (h : ∀ m, ∃ a m', m.work ≤ m'.work ∧ ∀ c, act c m = .ok a m') : Timed n act := by
  refine timed_of_eq (fun c m => ?_) (fun c m hlate => ?_) fun c m w => ?_
  all_goals obtain ⟨a, m', hwork, heq⟩ := h m
  · rw [heq]
    exact hwork
  · rw [heq] at hlate
    cases hlate
  · rw [heq, heq]

instance timed_get : Timed n (get : Run Machine) :=
  timed_of_ok fun m => ⟨m, m, Nat.le_refl _, fun _ => rfl⟩

theorem get_bind (f : Machine → Run α) (c : Surroundings) (m : Machine) : (get >>= f) c m = f m c m := rfl

theorem timed_modify {f : Machine → Machine} (h : ∀ m, m.work ≤ (f m).work) : Timed n (modify f : Run PUnit) :=
  timed_of_ok fun m => ⟨⟨⟩, f m, h m, fun _ => rfl⟩

/-- What is read of the surroundings may be anything but the limit. -/
theorem timed_read {f : Surroundings → Run α} (hf : ∀ c, Timed n (f c))
    (h : ∀ c w, f { c with workLimit := w } = f c) : Timed n (read >>= f) where
  grows c m := (hf c).grows c m
  cut c m := (hf c).cut c m
  steady c m w hw hlate := by
    change f { c with workLimit := w } { c with workLimit := w } m = f c c m
    rw [h]
    exact (hf c).steady c m w hw hlate

/-- What stands around a computation and does not touch its work. -/
structure Encloses (enter : Surroundings → Surroundings) (start : Machine → Machine)
    (back : Machine → EStateM.Result Stop Machine α → EStateM.Result Stop Machine β) : Prop where
  limit : ∀ c, (enter c).workLimit = c.workLimit
  enter_eq : ∀ c w, enter { c with workLimit := w } = { enter c with workLimit := w }
  work_start : ∀ m, (start m).work = m.work
  work_back : ∀ m r, (stateOf (back m r)).work = (stateOf r).work
  late_iff : ∀ m r, IsLate (back m r) ↔ IsLate r

theorem Timed.within {act : Run α} {enter : Surroundings → Surroundings} {start : Machine → Machine}
    {back : Machine → EStateM.Result Stop Machine α → EStateM.Result Stop Machine β} (hact : Timed n act)
    (h : Encloses enter start back) : Timed n fun c m => back m (act (enter c) (start m)) where
  grows c m := by
    rw [h.work_back]
    exact h.work_start m ▸ hact.grows (enter c) (start m)
  cut c m := by
    intro hlate
    rw [h.late_iff] at hlate
    rw [h.work_back]
    exact h.limit c ▸ h.work_start m ▸ hact.cut (enter c) (start m) hlate
  steady c m w hw := by
    intro hlate
    rw [h.late_iff, h.work_back] at hlate
    rw [h.enter_eq, hact.steady _ _ w (h.limit c ▸ hw) hlate]

theorem Works.within {act : Run α} {enter : Surroundings → Surroundings} {start : Machine → Machine}
    {back : Machine → EStateM.Result Stop Machine α → EStateM.Result Stop Machine β} (hact : Works act)
    (h : Encloses enter start back) : Works (fun c m => back m (act (enter c) (start m))) := by
  intro c m hlate
  rw [h.late_iff] at hlate
  rw [h.work_back]
  exact h.work_start m ▸ hact (enter c) (start m) hlate

/-! ## Operations and sizes -/

instance timed_ofExcept (r : Except Fault α) (p : Position) : Timed n (ofExcept r p) := by
  cases r with
  | ok a => exact timed_pure a
  | error e => exact timed_fail e p

/-- An operation is counted.  It fails, whatever the time, or is cut just if it is beyond the limit. -/
theorem tick_cases (p : Position) (c : Surroundings) (m : Machine) :
    ∃ m', m'.work = m.work + 1 ∧
      ((∃ f, ∀ w, tick p { c with workLimit := w } m = .error (.failure f) m') ∨
        ∀ w, tick p { c with workLimit := w } m = if w < m'.work then .error .late m' else .ok () m') := by
  refine ⟨{ m with operations := m.operations + 1, work := m.work + 1 }, rfl, ?_⟩
  by_cases hcount : (c.limits.operations ≠ 0 && c.limits.operations < m.operations + 1) = true
  · exact .inl ⟨_, fun w => if_pos hcount⟩
  · exact .inr fun w => if_neg hcount

theorem works_tick (p : Position) : Works (tick p) := by
  intro c m _
  obtain ⟨m', hwork, ⟨f, htick⟩ | htick⟩ := tick_cases p c m
  · rw [show tick p c m = _ from htick c.workLimit]
    exact hwork ▸ Nat.lt_succ_self _
  · rw [show tick p c m = _ from htick c.workLimit]
    split <;> exact hwork ▸ Nat.lt_succ_self _

/-- An operation is where a computation is cut. -/
instance timed_tick (p : Position) : Timed n (tick p) := by
  refine ⟨fun c m => ?_, fun c m hlate => ?_, fun c m w hw hlate => ?_⟩
  all_goals obtain ⟨m', hwork, ⟨f, htick⟩ | htick⟩ := tick_cases p c m
  all_goals have hc : tick p c m = _ := htick c.workLimit
  · rw [hc]
    exact hwork ▸ Nat.le_succ _
  · rw [hc]
    split <;> exact hwork ▸ Nat.le_succ _
  · rw [hc] at hlate
    cases hlate
  · rw [hc] at hlate ⊢
    split
    · next hlimit => exact .inl hlimit
    · next hlimit =>
      rw [if_neg hlimit] at hlate
      cases hlate
  · rw [htick, hc]
  · rw [hc] at hlate ⊢
    rw [htick]
    by_cases hlimit : c.workLimit < m'.work
    · rw [if_pos hlimit] at hlate ⊢
      exact if_pos (hlate rfl)
    · rw [if_neg hlimit]
      exact if_neg (by omega)

instance timed_labour (k : Nat) : Timed n (labour k) := timed_modify fun _ => Nat.le_add_right _ _

instance timed_room : Timed n room := timed_read (fun _ => inferInstance) fun _ _ => rfl

instance timed_checkSizes (z : Value.Sizes) (p : Position) : Timed n (checkSizes z p) := by
  refine timed_read (fun c => ?_) fun c w => rfl
  split <;> infer_instance

instance timed_checkSize (v : Value) (p : Position) : Timed n (checkSize v p) := by
  unfold checkSize
  split <;> infer_instance

/-- What is done at the cost of no operations takes its time all the same. -/
instance timed_uncounted (act : Run α) [hact : Timed n act] : Timed n (uncounted act) := by
  have h : Encloses (α := α) id id fun outer r =>
      match r with
      | .ok a m => .ok a { m with operations := outer.operations }
      | .error e m => .error e { m with operations := outer.operations } := by
    refine ⟨fun _ => rfl, fun _ _ => rfl, fun _ => rfl, ?_, ?_⟩
    all_goals rintro m (_ | _) <;> rfl
  exact hact.within h

instance timed_forM {γ : Type} (xs : List γ) (f : γ → Run PUnit) [∀ x, Timed n (f x)] : Timed n (xs.forM f) := by
  induction xs with
  | nil => exact timed_pure ()
  | cons x xs ih => exact Timed.bind inferInstance fun _ => ih

/-! ## Variables -/

instance timed_slot? (x : String) : Timed n (slot? x) := by
  refine timed_get.bind fun m => ?_
  split
  · infer_instance
  · split <;> infer_instance

instance timed_readSlot (s : Slot) : Timed n (readSlot s) := by
  refine timed_get.bind fun m => ?_
  split
  · split <;> infer_instance
  · infer_instance
  · infer_instance

theorem work_write (s : Slot) (h : Held) (m : Machine) : (write s h m).work = m.work := by
  cases s <;> rfl

instance timed_open_ (v : Value) : Timed n (open_ v) := by
  unfold open_
  split <;> infer_instance

instance timed_declare (x : String) (v : Value) (a : Access) : Timed n (declare x v a) :=
  timed_modify fun _ => Nat.le_refl _

instance timed_shareVariable (i : Nat) : Timed n (shareVariable i) := by
  refine timed_of_ok fun m => ?_
  simp only [shareVariable, get_bind]
  generalize m.scope[i]? = b
  -- a variable that closures share already stays as it is
  rcases b with _ | ⟨x, v, a⟩
  · exact ⟨(), m, Nat.le_refl _, fun _ => rfl⟩
  · cases v <;> refine ⟨(), _, ?_, fun _ => rfl⟩ <;> exact Nat.le_refl _

theorem encloses_inScope :
    Encloses (α := α) id id fun outer r =>
      match r with
      | .ok a m => .ok a { m with scope := m.scope.extract 0 outer.scope.size }
      | .error e m => .error e { m with scope := m.scope.extract 0 outer.scope.size } := by
  refine ⟨fun _ => rfl, fun _ _ => rfl, fun _ => rfl, ?_, ?_⟩
  all_goals rintro m (_ | _) <;> rfl

instance timed_inScope (act : Run α) [hact : Timed n act] : Timed n (inScope act) := hact.within encloses_inScope

theorem works_inScope {act : Run α} (hact : Works act) : Works (inScope act) := hact.within encloses_inScope

/-! ## Parts -/

theorem timed_holding {h : Held} {back : Held → Machine → Machine} {act : Run α}
    (hback : ∀ h m, (back h m).work = m.work) (hact : Timed n act) : Timed n (holding h back act) := by
  have h : Encloses (α := α) id (fun m => { m with held := h }) fun outer r =>
      match r with
      | .ok a m => .ok a (back m.held { m with held := outer.held })
      | .error e m => .error e (back m.held { m with held := outer.held }) := by
    refine ⟨fun _ => rfl, fun _ _ => rfl, fun _ => rfl, ?_, ?_⟩
    · rintro m (_ | _) <;> exact hback _ _
    · rintro m (_ | _) <;> rfl
  exact hact.within h

instance timed_onSlot (s : Slot) (act : Run α) [hact : Timed n act] : Timed n (onSlot s act) :=
  (timed_readSlot s).bind fun _ => timed_holding (work_write s) hact

instance timed_onValue (v : Value) (act : Run α) [hact : Timed n act] : Timed n (onValue v act) :=
  timed_holding (fun _ _ => rfl) hact

instance timed_onPart (part : Held) (back : Held → Held → Held) (act : Run α) [hact : Timed n act] :
    Timed n (onPart part back act) :=
  timed_holding (fun _ _ => rfl) hact

instance timed_held : Timed n held := by
  unfold held
  infer_instance

instance timed_setHeld (v : Value) : Timed n (setHeld v) := timed_modify fun _ => Nat.le_refl _

instance timed_print (text : String) (place : Option Position) : Timed n (print text place) :=
  timed_modify fun _ => Nat.le_refl _

instance timed_notIndexed (container index : Value) (p : Position) :
    Timed n (notIndexed container index p : Run α) :=
  timed_fail _ _

instance timed_onElement (xs : List Value) (i : Int) (p : Position) (act : Run α) [Timed n act] :
    Timed n (onElement xs i p act) := by
  refine timed_held.bind fun h => ?_
  split <;> infer_instance

instance timed_onEntry (es : List (String × Value)) (x : String) (adds : Bool) (act : Run α) [Timed n act] :
    Timed n (onEntry es x adds act) := by
  refine timed_held.bind fun h => ?_
  split <;> infer_instance

instance timed_onIndex (i : Value) (p q : Position) (adds : Bool) (act : Run α) [Timed n act] :
    Timed n (onIndex i p q adds act) := by
  refine timed_held.bind fun h => ?_
  split
  · infer_instance
  · infer_instance
  · infer_instance
  · infer_instance
  · split
    · infer_instance
    · infer_instance
    · refine Timed.bind inferInstance fun r => ?_
      dsimp only
      split <;> infer_instance

instance timed_readIndex (i : Value) (p q : Position) : Timed n (readIndex i p q) := by
  unfold readIndex
  infer_instance

instance timed_updated (op : String) (old new : Value) (p : Position) : Timed n (updated op old new p) := by
  unfold updated
  dsimp only
  split
  · infer_instance
  · infer_instance
  · refine Timed.bind inferInstance fun _ => timed_read (fun c => ?_) fun c w => rfl
    refine Timed.bind inferInstance fun most => ?_
    split <;> infer_instance

instance timed_assign (a : Assignment) : Timed n (assign a) := by
  refine timed_held.bind fun h => ?_
  rcases a with ⟨_ | op, value, p, root, q⟩ <;> dsimp only <;> infer_instance

instance timed_assignIndex (a : Assignment) (i : Value) (p q : Position) :
    Timed n (assignIndex a i p q) := by
  refine timed_held.bind fun h => ?_
  split
  · infer_instance
  · infer_instance
  · split
    · infer_instance
    · rcases a with ⟨_ | op, value, p, root, q⟩ <;> dsimp only <;> infer_instance
    · infer_instance

end Run

end PluginChain.Script
