/-!
# Operations that keep what they change

An operation of the store or of the service changes its state also where it fails, up to the step that
failed.  `Keeps r f` says that `f` leaves a state in relation `r` to the one it began in, whatever it
comes to.  For a relation that is reflexive and transitive it is shown part by part (`Keeps.bind`).

One that only looks keeps the state as it is (`LooksOnly`), and one for which `KeepsFailing r` holds is only
held to `r` where it fails.

`bind_eq_ok` takes an operation that succeeded apart, and `repeated` does one several times.
-/

set_option autoImplicit false

namespace PluginChain

namespace Operation

variable {ε σ α β : Type}

/-- The state in which an operation ends. -/
def stateOf : EStateM.Result ε σ α → σ
  | .ok _ s => s
  | .error _ s => s

/-- What an operation comes to. -/
def answerOf : EStateM.Result ε σ α → Except ε α
  | .ok a _ => .ok a
  | .error e _ => .error e

/-- Whatever an operation comes to, the state it leaves is in relation to the one it began in. -/
def Keeps (r : σ → σ → Prop) (f : EStateM ε σ α) : Prop := ∀ s, r s (stateOf (f s))

theorem get_eq (s : σ) : (get : EStateM ε σ σ) s = .ok s s := rfl

theorem set_eq (s s' : σ) : (set s' : EStateM ε σ PUnit) s = .ok ⟨⟩ s' := rfl

theorem modify_eq (f : σ → σ) (s : σ) : (modify f : EStateM ε σ PUnit) s = .ok ⟨⟩ (f s) := rfl

theorem throw_eq (e : ε) (s : σ) : (throw e : EStateM ε σ α) s = .error e s := rfl

/-- An operation that succeeds succeeds in its first part, and then in the rest. -/
theorem bind_eq_ok {f : EStateM ε σ α} {g : α → EStateM ε σ β} {b : β} {s s'' : σ}
    (h : (f >>= g) s = .ok b s'') : ∃ a s', f s = .ok a s' ∧ g a s' = .ok b s'' := by
  change EStateM.bind f g s = _ at h
  rw [EStateM.bind] at h
  split at h
  · next a s' hf => exact ⟨a, s', hf, h⟩
  · cases h

theorem bind_of_ok {f : EStateM ε σ α} {a : α} {s s' : σ} (h : f s = .ok a s') (g : α → EStateM ε σ β) :
    (f >>= g) s = g a s' := by
  change EStateM.bind f g s = _
  rw [EStateM.bind, h]

theorem bind_of_error {f : EStateM ε σ α} {e : ε} {s s' : σ} (h : f s = .error e s')
    (g : α → EStateM ε σ β) : (f >>= g) s = .error e s' := by
  change EStateM.bind f g s = _
  rw [EStateM.bind, h]

/-- What is made of an answer does not touch the state. -/
theorem stateOf_map (g : α → β) (f : EStateM ε σ α) (s : σ) : stateOf ((g <$> f) s) = stateOf (f s) := by
  rw [map_eq_pure_bind]
  cases h : f s with
  | ok a s' =>
    rw [bind_of_ok h]
    rfl
  | error e s' =>
    rw [bind_of_error h]
    rfl

/-- What comes behind an operation only matters where that succeeds. -/
theorem bind_congr_ok {f : EStateM ε σ α} {g g' : α → EStateM ε σ β} {s : σ}
    (h : ∀ a s', f s = .ok a s' → g a s' = g' a s') : (f >>= g) s = (f >>= g') s := by
  cases hf : f s with
  | ok a s' => rw [bind_of_ok hf, bind_of_ok hf, h a s' hf]
  | error e s' => rw [bind_of_error hf, bind_of_error hf]

theorem ofExcept_eq_ok {x : Except ε α} {a : α} {s s' : σ} (h : (ofExcept x : EStateM ε σ α) s = .ok a s') :
    x = .ok a ∧ s' = s := by
  cases x with
  | ok b =>
    cases h
    exact ⟨rfl, rfl⟩
  | error e => cases h

/-- Does an operation so many times, each time on what it came to before. -/
def repeated (f : α → EStateM ε σ α) : Nat → α → EStateM ε σ α
  | 0, a => pure a
  | n + 1, a => do repeated f n (← f a)

theorem repeated_add (f : α → EStateM ε σ α) (m n : Nat) (a : α) :
    repeated f (m + n) a = repeated f m a >>= fun b => repeated f n b := by
  induction m generalizing a with
  | zero => rw [Nat.zero_add, repeated, pure_bind]
  | succ m ih => rw [Nat.succ_add, repeated, repeated, bind_assoc, funext ih]

theorem repeated_of_pure {f : α → EStateM ε σ α} {a : α} (h : f a = pure a) (n : Nat) :
    repeated f n a = pure a := by
  induction n with
  | zero => rfl
  | succ n ih => rw [repeated, h, pure_bind, ih]

section Keeps

variable {r : σ → σ → Prop}

theorem Keeps.ok {f : EStateM ε σ α} (h : Keeps r f) {a : α} {s s' : σ} (hf : f s = .ok a s') : r s s' := by
  have := h s
  rwa [hf] at this

theorem Keeps.error {f : EStateM ε σ α} (h : Keeps r f) {e : ε} {s s' : σ} (hf : f s = .error e s') : r s s' := by
  have := h s
  rwa [hf] at this

theorem Keeps.mono {r' : σ → σ → Prop} (hr : ∀ s s', r s s' → r' s s') {f : EStateM ε σ α}
    (h : Keeps r f) : Keeps r' f := fun s => hr _ _ (h s)

theorem keeps_pure (hrefl : ∀ s, r s s) (a : α) : Keeps r (pure a : EStateM ε σ α) := hrefl

theorem keeps_throw (hrefl : ∀ s, r s s) (e : ε) : Keeps r (throw e : EStateM ε σ α) := hrefl

theorem Keeps.bind (htrans : ∀ s s' s'', r s s' → r s' s'' → r s s'') {f : EStateM ε σ α}
    {g : α → EStateM ε σ β} (hf : Keeps r f) (hg : ∀ a, Keeps r (g a)) : Keeps r (f >>= g) := by
  intro s
  have hs := hf s
  cases hfs : f s with
  | ok a s' =>
    rw [hfs] at hs
    rw [bind_of_ok hfs]
    exact htrans _ _ _ hs (hg a s')
  | error e s' =>
    rw [hfs] at hs
    rw [bind_of_error hfs]
    exact hs

theorem keeps_ofExcept (hrefl : ∀ s, r s s) (x : Except ε α) : Keeps r (ofExcept x : EStateM ε σ α) := by
  cases x with
  | ok a => exact hrefl
  | error e => exact hrefl

/-- A loop keeps what its body keeps. -/
theorem Keeps.forIn (hrefl : ∀ s, r s s) (htrans : ∀ s s' s'', r s s' → r s' s'' → r s s'')
    {body : α → β → EStateM ε σ (ForInStep β)} (h : ∀ a b, Keeps r (body a b)) (as : List α) (b : β) :
    Keeps r (ForIn.forIn as b body) := by
  induction as generalizing b with
  | nil => exact hrefl
  | cons a as ih =>
    rw [List.forIn_cons]
    refine (h a b).bind htrans fun step => ?_
    cases step with
    | done b => exact hrefl
    | yield b => exact ih b

end Keeps

/-! ## Operations that fail -/

/-- An operation that fails leaves a state in relation to the one it began in. -/
def KeepsFailing (r : σ → σ → Prop) (f : EStateM ε σ α) : Prop := ∀ s e s', f s = .error e s' → r s s'

/-- The operation does not fail. -/
def Succeeds (f : EStateM ε σ α) : Prop := ∀ s, ∃ a s', f s = .ok a s'

section KeepsFailing

variable {r : σ → σ → Prop}

theorem Keeps.failing {f : EStateM ε σ α} (h : Keeps r f) : KeepsFailing r f := by
  intro s e s' hf
  have hs := h s
  rwa [hf] at hs

/-- What comes before the part that may fail with a change has to keep all in any case. -/
theorem KeepsFailing.bind (htrans : ∀ s s' s'', r s s' → r s' s'' → r s s'') {f : EStateM ε σ α}
    {g : α → EStateM ε σ β} (hf : Keeps r f) (hg : ∀ a, KeepsFailing r (g a)) : KeepsFailing r (f >>= g) := by
  intro s e s'' h
  cases hfs : f s with
  | ok a s' =>
    rw [bind_of_ok hfs] at h
    exact htrans _ _ _ (hf.ok hfs) (hg a _ _ _ h)
  | error e' s' =>
    rw [bind_of_error hfs] at h
    cases h
    exact hf.failing _ _ _ hfs

/-- What comes behind a change must not fail. -/
theorem KeepsFailing.bind_succeeds {f : EStateM ε σ α} {g : α → EStateM ε σ β} (hf : KeepsFailing r f)
    (hg : ∀ a, Succeeds (g a)) : KeepsFailing r (f >>= g) := by
  intro s e s'' h
  cases hfs : f s with
  | ok a s' =>
    obtain ⟨b, t, hok⟩ := hg a s'
    rw [bind_of_ok hfs, hok] at h
    cases h
  | error e' s' =>
    rw [bind_of_error hfs] at h
    cases h
    exact hf _ _ _ hfs

theorem succeeds_pure (a : α) : Succeeds (pure a : EStateM ε σ α) := fun s => ⟨a, s, rfl⟩

end KeepsFailing

/-! ## Operations that change nothing -/

/-- The operation leaves its state as it is. -/
abbrev LooksOnly (f : EStateM ε σ α) : Prop := Keeps (fun s s' => s' = s) f

theorem LooksOnly.bind {f : EStateM ε σ α} {g : α → EStateM ε σ β} (hf : LooksOnly f)
    (hg : ∀ a, LooksOnly (g a)) : LooksOnly (f >>= g) :=
  Keeps.bind (fun _ _ _ h h' => h'.trans h) hf hg

theorem looksOnly_pure (a : α) : LooksOnly (pure a : EStateM ε σ α) := fun _ => rfl

theorem looksOnly_throw (e : ε) : LooksOnly (throw e : EStateM ε σ α) := fun _ => rfl

theorem looksOnly_ofExcept (x : Except ε α) : LooksOnly (ofExcept x : EStateM ε σ α) := by
  cases x with
  | ok a => exact looksOnly_pure a
  | error e => exact looksOnly_throw e

theorem LooksOnly.mapM {f : α → EStateM ε σ β} (h : ∀ a, LooksOnly (f a)) (as : List α) :
    LooksOnly (as.mapM f) := by
  induction as with
  | nil => exact looksOnly_pure _
  | cons a as ih =>
    rw [List.mapM_cons]
    exact (h a).bind fun _ => ih.bind fun _ => looksOnly_pure _

theorem LooksOnly.cases {f : EStateM ε σ α} (h : LooksOnly f) (s : σ) :
    (∃ a, f s = .ok a s) ∨ ∃ e, f s = .error e s := by
  have hs := h s
  cases hf : f s with
  | ok a s' =>
    rw [hf] at hs
    obtain rfl : s' = s := hs
    exact Or.inl ⟨a, rfl⟩
  | error e s' =>
    rw [hf] at hs
    obtain rfl : s' = s := hs
    exact Or.inr ⟨e, rfl⟩

/-- What only looks keeps everything that stays as it is. -/
theorem LooksOnly.keeps {r : σ → σ → Prop} (hrefl : ∀ s, r s s) {f : EStateM ε σ α} (h : LooksOnly f) :
    Keeps r f :=
  h.mono fun s _ hs => hs ▸ hrefl s

end Operation

end PluginChain
