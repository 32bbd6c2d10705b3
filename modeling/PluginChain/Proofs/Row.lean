import Mathlib.Data.List.Basic

/-!
# Rows of which one place changes

Where several parties are under way, each has its place in a row, and a move changes one of the places.
What stands at a place then is what was put there or what was there before (`getElem?_set_cases`), and a
sum over the row (`total`) changes by what changed at the place (`total_set_add`).  What every move keeps
is kept by all of them in turn (`foldlM_keeps`).
-/

set_option autoImplicit false

namespace PluginChain

variable {α : Type} {l : List α} {i j : Nat} {a b : α}

theorem set_of_getElem? (h : l[i]? = some a) : l = l.set i a := by
  obtain ⟨hi, rfl⟩ := List.getElem?_eq_some_iff.1 h
  exact (List.set_getElem_self hi).symm

theorem getElem?_set_cases (h : (l.set i a)[j]? = some b) : (j = i ∧ b = a) ∨ (j ≠ i ∧ l[j]? = some b) := by
  rw [List.getElem?_set] at h
  split at h
  · next hij =>
    split at h
    · exact Or.inl ⟨hij.symm, (Option.some.inj h).symm⟩
    · cases h
  · next hij => exact Or.inr ⟨fun hji => hij hji.symm, h⟩

/-- What stands at another place stays. -/
theorem mem_set_of_ne (h : l[i]? = some a) (hb : b ∈ l) (hne : b ≠ a) (c : α) : b ∈ l.set i c := by
  obtain ⟨j, hj⟩ := List.getElem?_of_mem hb
  have hij : i ≠ j := by
    rintro rfl
    exact hne (Option.some.inj (hj.symm.trans h))
  exact List.mem_of_getElem? ((List.getElem?_set_ne hij).trans hj)

/-- What the places of a row make together. -/
def total (f : α → Nat) : List α → Nat
  | [] => 0
  | a :: l => f a + total f l

theorem total_set_add (h : l[i]? = some a) (f : α → Nat) (b : α) :
    total f (l.set i b) + f a = total f l + f b := by
  induction l generalizing i with
  | nil => cases h
  | cons x l ih =>
    cases i with
    | zero =>
      cases h
      rw [List.set_cons_zero, total, total]
      omega
    | succ i =>
      rw [List.set_cons_succ, total, total]
      have hrest := ih h
      omega

theorem total_eq_zero {f : α → Nat} (h : ∀ a ∈ l, f a = 0) : total f l = 0 := by
  induction l with
  | nil => rfl
  | cons a l ih =>
    rw [total, h a List.mem_cons_self, ih fun b hb => h b (List.mem_cons_of_mem _ hb)]

/-- Rows that are compared place by place. -/
theorem total_le_total {β : Type} {f : α → Nat} {g : β → Nat} {l' : List β} (hlength : l.length = l'.length)
    (h : ∀ (i : Nat) (a : α) (b : β), l[i]? = some a → l'[i]? = some b → f a ≤ g b) : total f l ≤ total g l' := by
  induction l generalizing l' with
  | nil => exact Nat.zero_le _
  | cons a l ih =>
    cases l' with
    | nil => cases hlength
    | cons b l' =>
      rw [total, total]
      exact Nat.add_le_add (h 0 a b rfl rfl)
        (ih (Nat.succ.inj hlength) fun i x y hx hy => h (i + 1) x y hx hy)

theorem countP_eq_total (p : α → Bool) (l : List α) : l.countP p = total (fun a => (p a).toNat) l := by
  induction l with
  | nil => rfl
  | cons a l ih =>
    rw [List.countP_cons, total, ih, Nat.add_comm]
    cases p a <;> rfl

theorem countP_set_add (h : l[i]? = some a) (p : α → Bool) (b : α) :
    (l.set i b).countP p + (p a).toNat = l.countP p + (p b).toNat := by
  rw [countP_eq_total, countP_eq_total]
  exact total_set_add h (fun a => (p a).toNat) b

/-- What every turn keeps, a run keeps. -/
theorem foldlM_keeps {σ τ : Type} {f : σ → τ → Option σ} {P : σ → Prop}
    (hstep : ∀ {s s' : σ} {turn : τ}, P s → f s turn = some s' → P s') {turns : List τ} {s s' : σ} (h : P s)
    (hrun : turns.foldlM f s = some s') : P s' := by
  induction turns generalizing s with
  | nil =>
    cases hrun
    exact h
  | cons turn turns ih =>
    rw [List.foldlM_cons] at hrun
    obtain ⟨s₁, hturn, hrest⟩ := Option.bind_eq_some_iff.1 hrun
    exact ih (hstep h hturn) hrest

end PluginChain
