import Mathlib.Data.List.Forall2
import PluginChain.Proofs.Json.Brackets
import PluginChain.Proofs.Json.Shape

/-!
# Readers that look again at what they read

A reader may read something in full and then refuse it for what it is.  `Sifts R loose strict` says that
`strict` goes by `loose`: it reads what `loose` reads, up to the same place, and gives what that stands for
by `R`; where `loose` fails, or what it reads stands for nothing, `strict` fails as well.

This passes from the parts to the whole (`Sifts.bind`): a list goes by a list if its items do
(`Sifts.itemsOf`), a record by a record if its fields do, in whichever of its two notations it is written
(`Sifts.recordOf`), and a document by a document (`Sifts.readBy_eq_ok_iff`).  What is needed in each case is that
nothing which was read and stands for nothing is lost on the way.
-/

set_option autoImplicit false

namespace PluginChain.Json

open Operation

variable {α β γ α' β' : Type}

/-! ## Readers that give nothing -/

/-- Whatever comes, nothing is given. -/
def Fruitless (r : Reader α) : Prop := ∀ c a c', r c ≠ .ok a c'

namespace Fruitless

theorem throw (f : Fault) : Fruitless (throw f : Reader α) := fun _ _ _ h => by cases h

theorem behind (r : Reader γ) {f : γ → Reader α} (h : ∀ x, Fruitless (f x)) : Fruitless (r >>= f) := by
  intro c a c' ha
  obtain ⟨x, c₁, -, hx⟩ := bind_eq_ok ha
  exact h x c₁ a c' hx

end Fruitless

theorem fruitless_failHere (cause : Cause) : Fruitless (failHere cause : Reader α) :=
  .behind _ fun _ => .throw _

theorem fruitless_failNext (cause : Cause) : Fruitless (failNext cause : Reader α) :=
  .behind _ fun _ => .throw _

theorem fruitless_failPlaceless (m : Mismatch) : Fruitless (failPlaceless m : Reader α) := .throw _

/-- A value of another kind is refused, whatever it is. -/
theorem fruitless_refuse (expected : String) : Fruitless (refuse expected : Reader α) := by
  refine .behind _ fun found => ?_
  split
  · exact .behind _ fun _ => .behind _ fun _ => fruitless_failHere _
  · exact .behind _ fun _ => .behind _ fun _ => fruitless_failHere _
  · exact .behind _ fun _ => .behind _ fun _ => fruitless_failHere _
  · exact .behind _ fun _ => .behind _ fun _ => fruitless_failHere _
  · exact .behind _ fun _ => .behind _ fun _ => fruitless_failHere _
  · exact fruitless_failHere _
  · exact fruitless_failHere _
  · split
    · exact .behind _ fun _ => fruitless_failHere _
    · exact fruitless_failNext _
  · exact fruitless_failNext _

/-! ## What a reader can give -/

/-- Something holds of whatever is given. -/
def GivesOnly (P : α → Prop) (r : Reader α) : Prop := ∀ c a c', r c = .ok a c' → P a

namespace GivesOnly

variable {P : α → Prop}

protected theorem pure {a : α} (h : P a) : GivesOnly P (pure a) := by
  intro c x c' hx
  cases hx
  exact h

theorem behind (r : Reader γ) {f : γ → Reader α} (h : ∀ x, GivesOnly P (f x)) : GivesOnly P (r >>= f) := by
  intro c a c' ha
  obtain ⟨x, c₁, -, hx⟩ := bind_eq_ok ha
  exact h x c₁ a c' hx

theorem of_fruitless {r : Reader α} (h : Fruitless r) : GivesOnly P r :=
  fun c a c' ha => absurd ha (h c a c')

end GivesOnly

/-! ## One reader by another -/

/-- The strict reader gives what stands for the things that the loose one reads. -/
def Sifts (R : α → β → Prop) (loose : Reader α) (strict : Reader β) : Prop :=
  ∀ c b c', strict c = .ok b c' ↔ ∃ a, loose c = .ok a c' ∧ R a b

namespace Sifts

variable {R : α → β → Prop} {R' : α' → β' → Prop}

protected theorem refl (r : Reader α) : Sifts (fun a b => a = b) r r := by
  intro c b c'
  simp

/-- Something that holds of all that is given holds of both sides. -/
theorem self {P : α → Prop} {r : Reader α} (h : GivesOnly P r) :
    Sifts (fun a b => a = b ∧ P a) r r := by
  intro c b c'
  constructor
  · exact fun hb => ⟨b, hb, rfl, h c b c' hb⟩
  · rintro ⟨a, ha, rfl, -⟩
    exact ha

protected theorem pure (hR : Relator.RightUnique R) {a : α} {b : β} (h : R a b) :
    Sifts R (pure a) (pure b) := by
  intro c x c'
  constructor
  · intro hx
    cases hx
    exact ⟨a, rfl, h⟩
  · rintro ⟨a', ha, hx⟩
    cases ha
    rw [hR h hx]
    rfl

/-- Neither reader gives anything. -/
theorem of_fruitless {loose : Reader α} {strict : Reader β} (h : Fruitless loose) (h' : Fruitless strict) :
    Sifts R loose strict := fun c b c' =>
  ⟨fun hb => absurd hb (h' c b c'), fun ⟨a, ha, _⟩ => absurd ha (h c a c')⟩

/-- Readers behind one another.  What the second part gives must not stand for anything where what the first
part read does not. -/
protected theorem bind {loose : Reader α} {strict : Reader β} {looseRest : α → Reader α'}
    {strictRest : β → Reader β'} (h : Sifts R loose strict)
    (hrest : ∀ a b, R a b → Sifts R' (looseRest a) (strictRest b))
    (hback : ∀ c₀ a c x c', loose c₀ = .ok a c → looseRest a c = .ok x c' → ∀ y, R' x y → ∃ b, R a b) :
    Sifts R' (loose >>= looseRest) (strict >>= strictRest) := by
  intro c y c''
  constructor
  · intro hy
    obtain ⟨b, c', hb, hy⟩ := bind_eq_ok hy
    obtain ⟨a, ha, hR⟩ := (h c b c').1 hb
    obtain ⟨x, hx, hR'⟩ := (hrest a b hR c' y c'').1 hy
    exact ⟨x, (bind_of_ok ha _).trans hx, hR'⟩
  · rintro ⟨x, hx, hR'⟩
    obtain ⟨a, c', ha, hx⟩ := bind_eq_ok hx
    obtain ⟨b, hR⟩ := hback c a c' x c'' ha hx y hR'
    have hb := (h c b c').2 ⟨a, ha, hR⟩
    exact (bind_of_ok hb _).trans ((hrest a b hR c' y c'').2 ⟨x, hx, hR'⟩)

/-- The same is read first. -/
theorem behind (r : Reader γ) {loose : γ → Reader α} {strict : γ → Reader β}
    (h : ∀ x, Sifts R (loose x) (strict x)) : Sifts R (r >>= loose) (r >>= strict) :=
  (Sifts.refl r).bind (fun x _ hx => hx ▸ h x) fun _ x _ _ _ _ _ _ _ => ⟨x, rfl⟩

/-- What is made of things that were read. -/
protected theorem map {loose : Reader α} {strict : Reader β} (h : Sifts R loose strict) (f : α → α')
    (g : β → β') (hfg : ∀ a y, R' (f a) y ↔ ∃ b, R a b ∧ y = g b) :
    Sifts R' (loose >>= fun a => pure (f a)) (strict >>= fun b => pure (g b)) := by
  intro c y c''
  constructor
  · intro hy
    obtain ⟨b, c', hb, hy⟩ := bind_eq_ok hy
    cases hy
    obtain ⟨a, ha, hR⟩ := (h c b c'').1 hb
    exact ⟨f a, bind_of_ok ha _, (hfg a _).2 ⟨b, hR, rfl⟩⟩
  · rintro ⟨x, hx, hR'⟩
    obtain ⟨a, c', ha, hx⟩ := bind_eq_ok hx
    cases hx
    obtain ⟨b, hR, rfl⟩ := (hfg a y).1 hR'
    exact bind_of_ok ((h c b c'').2 ⟨a, ha, hR⟩) _

end Sifts

/-! ## Brackets -/

/-- What is in brackets is read with a level of nesting less. -/
theorem bracketed_eq_ok_iff {close : Reader Unit} {inside : Reader α} {c c' : Cursor} {a : α} :
    bracketed close inside c = .ok a c' ↔ ¬ c.budget ≤ 1 ∧ ∃ c₀ c₁,
      skip { c with budget := c.budget - 1 } = .ok () c₀ ∧ inside c₀ = .ok a c₁ ∧
        close { c₁ with budget := c.budget } = .ok () c' := by
  constructor
  · intro h
    by_cases hn : c.budget ≤ 1
    · rw [bracketed_of_low hn] at h
      cases h
    · obtain ⟨c₀, h₀, -⟩ := exists_behind_bracket c
      cases h₁ : inside c₀ with
      | ok b c₁ =>
        rw [bracketed_of_ok hn h₀ h₁] at h
        obtain ⟨_, c₂, hclose, hpure⟩ := bind_eq_ok h
        cases hpure
        exact ⟨hn, c₀, c₁, h₀, h₁, hclose⟩
      | error f c₁ =>
        obtain ⟨f', c'', herror⟩ : ∃ f' c'', bracketed close inside c = .error f' c'' :=
          bracketed_of_error hn h₀ h₁
        rw [herror] at h
        cases h
  · rintro ⟨hn, c₀, c₁, h₀, h₁, hclose⟩
    rw [bracketed_of_ok hn h₀ h₁, bind_of_ok hclose]
    rfl

namespace Sifts

variable {R : α → β → Prop}

protected theorem bracketed {loose : Reader α} {strict : Reader β} (h : Sifts R loose strict)
    (close : Reader Unit) : Sifts R (bracketed close loose) (bracketed close strict) := by
  intro c b c'
  rw [bracketed_eq_ok_iff]
  constructor
  · rintro ⟨hn, c₀, c₁, h₀, h₁, hclose⟩
    obtain ⟨a, ha, hR⟩ := (h c₀ b c₁).1 h₁
    exact ⟨a, bracketed_eq_ok_iff.2 ⟨hn, c₀, c₁, h₀, ha, hclose⟩, hR⟩
  · rintro ⟨a, ha, hR⟩
    obtain ⟨hn, c₀, c₁, h₀, h₁, hclose⟩ := bracketed_eq_ok_iff.1 ha
    exact ⟨hn, c₀, c₁, h₀, (h c₀ b c₁).2 ⟨a, h₁, hR⟩, hclose⟩

section Gathering

variable (hR : Relator.RightUnique R)

include hR

/-- What is gathered item by item.  Something that stands for nothing is not lost when an item is added. -/
protected theorem items {loose : α → Reader α} {strict : β → Reader β}
    (h : ∀ a b, R a b → Sifts R (loose a) (strict b))
    (hback : ∀ a c x c', loose a c = .ok x c' → ∀ y, R x y → ∃ b, R a b) (steps : Nat) (first : Bool) (a : α) :
    (∀ c x c', items loose steps first a c = .ok x c' → ∀ y, R x y → ∃ b, R a b) ∧
      ∀ b, R a b → Sifts R (items loose steps first a) (items strict steps first b) := by
  induction steps generalizing first a with
  | zero =>
    refine ⟨fun c x c' hx y hy => ?_, fun b hb => Sifts.pure hR hb⟩
    cases hx
    exact ⟨y, hy⟩
  | succ steps ih =>
    have hnext : ∀ a c x c', items loose steps false a c = .ok x c' → ∀ y, R x y → ∃ b, R a b :=
      fun a => (ih false a).1
    refine ⟨fun c x c' hx y hy => ?_, fun b hb => ?_⟩
    · obtain ⟨more, c₁, -, hx⟩ := bind_eq_ok hx
      cases more with
      | false =>
        cases hx
        exact ⟨y, hy⟩
      | true =>
        obtain ⟨a', c₂, ha', hx⟩ := bind_eq_ok hx
        obtain ⟨b', hb'⟩ := hnext a' c₂ x c' hx y hy
        exact hback a c₁ a' c₂ ha' b' hb'
    · refine behind (anotherItem first) fun more => ?_
      cases more with
      | false => exact Sifts.pure hR hb
      | true => exact (h a b hb).bind (fun a' b' hb' => (ih false a').2 b' hb') (fun _ a' c x c' _ => hnext a' c x c')

/-- What is gathered entry by entry. -/
protected theorem entries {loose : String → α → Reader α} {strict : String → β → Reader β}
    (h : ∀ name a b, R a b → Sifts R (loose name a) (strict name b))
    (hback : ∀ name a c x c', loose name a c = .ok x c' → ∀ y, R x y → ∃ b, R a b) (steps : Nat)
    (first : Bool) (a : α) :
    (∀ c x c', entries loose steps first a c = .ok x c' → ∀ y, R x y → ∃ b, R a b) ∧
      ∀ b, R a b → Sifts R (entries loose steps first a) (entries strict steps first b) := by
  induction steps generalizing first a with
  | zero =>
    refine ⟨fun c x c' hx y hy => ?_, fun b hb => Sifts.pure hR hb⟩
    cases hx
    exact ⟨y, hy⟩
  | succ steps ih =>
    have hnext : ∀ a c x c', entries loose steps false a c = .ok x c' → ∀ y, R x y → ∃ b, R a b :=
      fun a => (ih false a).1
    refine ⟨fun c x c' hx y hy => ?_, fun b hb => ?_⟩
    · obtain ⟨name?, c₁, -, hx⟩ := bind_eq_ok hx
      cases name? with
      | none =>
        cases hx
        exact ⟨y, hy⟩
      | some name =>
        obtain ⟨a', c₂, ha', hx⟩ := bind_eq_ok hx
        obtain ⟨b', hb'⟩ := hnext a' c₂ x c' hx y hy
        exact hback name a c₁ a' c₂ ha' b' hb'
    · refine behind (anotherName first) fun name? => ?_
      cases name? with
      | none => exact Sifts.pure hR hb
      | some name => exact (h name a b hb).bind (fun a' b' hb' => (ih false a').2 b' hb') (fun _ a' c x c' _ => hnext a' c x c')

/-- The items of a list one by one. -/
protected theorem itemsOf {loose : Reader α} {strict : Reader β} (h : Sifts R loose strict) :
    Sifts (List.Forall₂ R) (itemsOf loose) (itemsOf strict) := by
  have hlist := Relator.RightUnique.forall₂ hR
  have hitem : ∀ xs ys, List.Forall₂ R xs ys → Sifts (List.Forall₂ R)
      (loose >>= fun a => pure (a :: xs)) (strict >>= fun b => pure (b :: ys)) := by
    intro xs ys hxs
    refine h.bind (fun a b hab => Sifts.pure hlist (.cons hab hxs)) fun _ a c x c' _ hx y hy => ?_
    cases hx
    obtain ⟨b, ys', hab, -, -⟩ := List.forall₂_cons_left_iff.1 hy
    exact ⟨b, hab⟩
  have hback : ∀ xs c x c', (loose >>= fun a => pure (a :: xs)) c = .ok x c' →
      ∀ ys, List.Forall₂ R x ys → ∃ ys', List.Forall₂ R xs ys' := by
    intro xs c x c' hx ys hys
    obtain ⟨a, c₁, -, hpure⟩ := bind_eq_ok hx
    cases hpure
    obtain ⟨b, ys', -, hxs, -⟩ := List.forall₂_cons_left_iff.1 hys
    exact ⟨ys', hxs⟩
  refine behind stepsLeft fun steps => ?_
  refine (Sifts.items hlist hitem hback steps true []).2 [] .nil |>.map _ _ fun xs ys => ?_
  constructor
  · intro hys
    exact ⟨ys.reverse, by simpa using List.rel_reverse hys, (List.reverse_reverse ys).symm⟩
  · rintro ⟨ys', hys', rfl⟩
    exact List.rel_reverse hys'

end Gathering

end Sifts

/-- Lists item by item. -/
def ListBy (R : Data → Data → Prop) (d d' : Data) : Prop :=
  ∃ xs ys, d = .list xs ∧ d' = .list ys ∧ List.Forall₂ R xs ys

theorem rightUnique_listBy {R : Data → Data → Prop} (hR : Relator.RightUnique R) :
    Relator.RightUnique (ListBy R) := by
  rintro _ _ _ ⟨xs, ys, rfl, rfl, h⟩ ⟨_, ys', ⟨⟩, rfl, h'⟩
  rw [Relator.RightUnique.forall₂ hR h h']

theorem Sifts.listOf {R : Data → Data → Prop} (hR : Relator.RightUnique R) {loose strict : Reader Data}
    (h : Sifts R loose strict) : Sifts (ListBy R) (listOf loose) (listOf strict) := by
  refine behind peekValue fun c => ?_
  split
  · refine ((Sifts.itemsOf hR h).bracketed closeList).map Data.list Data.list fun xs d => ?_
    constructor
    · rintro ⟨_, ys, ⟨⟩, rfl, hys⟩
      exact ⟨ys, hys, rfl⟩
    · rintro ⟨ys, hys, rfl⟩
      exact ⟨xs, ys, rfl, rfl, hys⟩
  · exact of_fruitless (fruitless_refuse _) (fruitless_refuse _)

/-! ## Records -/

/-- Entries one by one, under the same names. -/
def EntriesBy (R : String → Data → Data → Prop) : List (String × Data) → List (String × Data) → Prop :=
  List.Forall₂ fun e e' => e.1 = e'.1 ∧ R e.1 e.2 e'.2

/-- Tables entry by entry. -/
def TableBy (R : String → Data → Data → Prop) (d d' : Data) : Prop :=
  ∃ es es', d = .table es ∧ d' = .table es' ∧ EntriesBy R es es'

/-- A field that is read, and filled in where it is missing, as another one asks. -/
structure FieldBy (R : String → Data → Data → Prop) (loose strict : FieldReader) : Prop where
  name : loose.1 = strict.1
  reads : Sifts (R loose.1) loose.2.1 strict.2.1
  fallback : Option.Rel (R loose.1) loose.2.2 strict.2.2

section Records

variable {R : String → Data → Data → Prop} {looses stricts : List FieldReader}

theorem rightUnique_entriesBy (hR : ∀ n, Relator.RightUnique (R n)) : Relator.RightUnique (EntriesBy R) := by
  refine Relator.RightUnique.forall₂ ?_
  rintro ⟨n, d⟩ ⟨_, d₁⟩ ⟨_, d₂⟩ ⟨rfl, h₁⟩ ⟨rfl, h₂⟩
  exact congrArg (Prod.mk n) (hR n h₁ h₂)

theorem rightUnique_tableBy (hR : ∀ n, Relator.RightUnique (R n)) : Relator.RightUnique (TableBy R) := by
  rintro _ _ _ ⟨es, es₁, rfl, rfl, h⟩ ⟨_, es₂, ⟨⟩, rfl, h'⟩
  rw [rightUnique_entriesBy hR h h']

theorem EntriesBy.get? {es es' : List (String × Data)} (h : EntriesBy R es es') (n : String) :
    Option.Rel (R n) (Entries.get? n es) (Entries.get? n es') := by
  induction h with
  | nil => exact .none
  | @cons e e' es es' he _ ih =>
    obtain ⟨m, d⟩ := e
    obtain ⟨_, d'⟩ := e'
    obtain ⟨rfl, hd⟩ := he
    rw [Entries.get?, Entries.get?]
    split
    · next hm => exact .some (hm ▸ hd)
    · exact ih

theorem EntriesBy.isSome_get? {es es' : List (String × Data)} (h : EntriesBy R es es') (n : String) :
    (Entries.get? n es).isSome = (Entries.get? n es').isSome := by
  have hget := h.get? n
  generalize Entries.get? n es = d, Entries.get? n es' = d' at hget ⊢
  cases hget <;> rfl

theorem get?_fieldBy (h : List.Forall₂ (FieldBy R) looses stricts) (n : String) :
    Option.Rel (fun f f' => Sifts (R n) f.1 f'.1) (Entries.get? n looses) (Entries.get? n stricts) := by
  induction h with
  | nil => exact .none
  | @cons f f' looses stricts hf _ ih =>
    obtain ⟨m, r, fallback⟩ := f
    obtain ⟨m', r', fallback'⟩ := f'
    obtain rfl : m = m' := hf.name
    rw [Entries.get?, Entries.get?]
    split
    · next hm => exact .some (hm ▸ hf.reads)
    · exact ih

/-- What stands in for something missing does so on both sides. -/
theorem rel_or {r : α → β → Prop} {a a' : Option α} {b b' : Option β} (h : Option.Rel r a b)
    (h' : Option.Rel r a' b') : Option.Rel r (a.or a') (b.or b') := by
  cases h with
  | some h => exact .some h
  | none => simpa using h'

theorem rel_some_left_iff {r : α → β → Prop} {a : α} {b : Option β} :
    Option.Rel r (some a) b ↔ ∃ b', b = some b' ∧ r a b' := by
  constructor
  · rintro ⟨h⟩
    exact ⟨_, rfl, h⟩
  · rintro ⟨b', rfl, h⟩
    exact .some h

theorem rel_some_right_iff {r : α → β → Prop} {a : Option α} {b : β} :
    Option.Rel r a (some b) ↔ ∃ a', a = some a' ∧ r a' b := by
  constructor
  · rintro ⟨h⟩
    exact ⟨_, rfl, h⟩
  · rintro ⟨a', rfl, h⟩
    exact .some h

/-- What was found is completed to what stands for the one completed. -/
theorem complete_eq_ok_iff_by (hR : ∀ n, Relator.RightUnique (R n))
    (h : List.Forall₂ (FieldBy R) looses stricts) {found found' : List (String × Data)}
    (hfound : EntriesBy R found found') (es' : List (String × Data)) :
    Shape.complete found' stricts = .ok es' ↔
      ∃ es, Shape.complete found looses = .ok es ∧ EntriesBy R es es' := by
  induction h generalizing es' with
  | nil =>
    constructor
    · intro hes'
      cases hes'
      exact ⟨[], rfl, .nil⟩
    · rintro ⟨es, hes, hby⟩
      cases hes
      cases hby
      rfl
  | @cons f f' looses stricts hf _ ih =>
    obtain ⟨n, r, fallback⟩ := f
    obtain ⟨n', r', fallback'⟩ := f'
    obtain rfl : n = n' := hf.name
    have hvalue : Option.Rel (R n) ((Entries.get? n found).or fallback)
        ((Entries.get? n found').or fallback') := rel_or (hfound.get? n) hf.fallback
    constructor
    · intro hes'
      obtain ⟨d', rest', hd', hrest', rfl⟩ := Shape.complete_cons_eq_ok hes'
      obtain ⟨rest, hrest, hby⟩ := (ih rest').1 hrest'
      rw [hd'] at hvalue
      obtain ⟨d, hd, hd'⟩ := rel_some_right_iff.1 hvalue
      exact ⟨(n, d) :: rest, Shape.complete_cons_of_ok hd hrest, .cons ⟨rfl, hd'⟩ hby⟩
    · rintro ⟨es, hes, hby⟩
      obtain ⟨d, rest, hd, hrest, rfl⟩ := Shape.complete_cons_eq_ok hes
      obtain ⟨⟨_, d'⟩, rest', ⟨rfl, hR'⟩, hrest', rfl⟩ := List.forall₂_cons_left_iff.1 hby
      rw [hd] at hvalue
      obtain ⟨d'', hd'', hR''⟩ := rel_some_left_iff.1 hvalue
      obtain rfl := hR n hR' hR''
      exact Shape.complete_cons_of_ok hd'' ((ih rest').2 ⟨rest, hrest, hrest'⟩)

/-- All items stand for something together just when each of them does. -/
theorem exists_forall₂_iff {r : α → β → Prop} {xs : List α} :
    (∃ ys, List.Forall₂ r xs ys) ↔ ∀ x ∈ xs, ∃ y, r x y := by
  induction xs with
  | nil => exact ⟨fun _ _ => nofun, fun _ => ⟨[], .nil⟩⟩
  | cons x xs ih =>
    rw [List.forall_mem_cons, ← ih]
    constructor
    · rintro ⟨_, hys⟩
      obtain ⟨y, ys, hy, hys, -⟩ := List.forall₂_cons_left_iff.1 hys
      exact ⟨⟨y, hy⟩, ys, hys⟩
    · rintro ⟨⟨y, hy⟩, ys, hys⟩
      exact ⟨y :: ys, .cons hy hys⟩

theorem exists_entriesBy {es : List (String × Data)} (h : ∀ e ∈ es, ∃ d, R e.1 e.2 d) :
    ∃ es', EntriesBy R es es' :=
  exists_forall₂_iff.2 fun e he => (h e he).elim fun d hd => ⟨(e.1, d), rfl, hd⟩

/-! ### Fields in a list -/

theorem Sifts.fieldsInList (hR : ∀ n, Relator.RightUnique (R n))
    (h : List.Forall₂ (FieldBy R) looses stricts) (count : Nat) (expected : String) (n : Nat) :
    Sifts (EntriesBy R) (fieldsInList count expected n looses) (fieldsInList count expected n stricts) := by
  induction h generalizing n with
  | nil => exact Sifts.pure (rightUnique_entriesBy hR) .nil
  | @cons f f' looses stricts hf _ ih =>
    obtain ⟨name, r, fallback⟩ := f
    obtain ⟨name', r', fallback'⟩ := f'
    obtain rfl : name = name' := hf.name
    have hrest : ∀ d d', R name d d' → Sifts (EntriesBy R)
        (Json.fieldsInList count expected (n + 1) looses >>= fun es => pure ((name, d) :: es))
        (Json.fieldsInList count expected (n + 1) stricts >>= fun es => pure ((name, d') :: es)) := by
      intro d d' hd
      refine (ih (n + 1)).map _ _ fun es es' => ?_
      constructor
      · intro hes'
        obtain ⟨⟨_, d''⟩, es'', ⟨rfl, hd''⟩, hes'', rfl⟩ := List.forall₂_cons_left_iff.1 hes'
        exact ⟨es'', hes'', by rw [hR name hd hd'']⟩
      · rintro ⟨es'', hes'', rfl⟩
        exact .cons ⟨rfl, hd⟩ hes''
    refine behind (anotherItem _) fun more => ?_
    split
    · refine hf.reads.bind hrest fun _ d c es c' _ hes es' hes' => ?_
      obtain ⟨rest, c₁, -, hpure⟩ := bind_eq_ok hes
      cases hpure
      obtain ⟨⟨_, d'⟩, -, ⟨-, hd⟩, -, -⟩ := List.forall₂_cons_left_iff.1 hes'
      exact ⟨d', hd⟩
    · cases hf.fallback with
      | some hd => exact hrest _ _ hd
      | none => exact of_fruitless (fruitless_failPlaceless _) (fruitless_failPlaceless _)

/-! ### Fields in a table -/

/-- The entries are for known fields, no two for the same one. -/
def Known (fields : List FieldReader) (found : List (String × Data)) : Prop :=
  (Entries.names found).Nodup ∧ ∀ e ∈ found, (Entries.get? e.1 fields).isSome

/-- What every entry keeps all of them together keep. -/
theorem of_entries {P : α → Prop} {entry : String → α → Reader α}
    (h : ∀ name a c x c', entry name a c = .ok x c' → P a → P x) {steps : Nat} {first : Bool} {a x : α}
    {c c' : Cursor} (hx : entries entry steps first a c = .ok x c') (ha : P a) : P x := by
  induction steps generalizing first a c with
  | zero =>
    cases hx
    exact ha
  | succ steps ih =>
    obtain ⟨name?, c₁, -, hx⟩ := bind_eq_ok hx
    cases name? with
    | none =>
      cases hx
      exact ha
    | some name =>
      obtain ⟨a', c₂, ha', hx⟩ := bind_eq_ok hx
      exact ih hx (h name a c₁ a' c₂ ha' ha)

/-- An entry adds a value for a known field that was not met before, or nothing. -/
theorem found_of_fieldEntry {fields : List FieldReader} {name : String} {found found' : List (String × Data)}
    {c c' : Cursor} (h : fieldEntry fields name found c = .ok found' c') :
    found' = found ∨ name ∉ Entries.names found ∧ (Entries.get? name fields).isSome ∧
      ∃ d, found' = (name, d) :: found := by
  rw [fieldEntry] at h
  cases hfield : Entries.get? name fields with
  | none =>
    rw [hfield] at h
    obtain ⟨_, c₁, -, h⟩ := bind_eq_ok h
    obtain ⟨_, c₂, -, h⟩ := bind_eq_ok h
    cases h
    exact .inl rfl
  | some field =>
    rw [hfield] at h
    by_cases hnew : (Entries.get? name found).isSome
    · simp only [hnew, if_true] at h
      exact absurd h (fruitless_failPlaceless _ _ _ _)
    · simp only [hnew] at h
      obtain ⟨_, c₁, -, h⟩ := bind_eq_ok h
      obtain ⟨d, c₂, -, h⟩ := bind_eq_ok h
      cases h
      rw [Entries.isSome_get?_iff] at hnew
      exact .inr ⟨hnew, rfl, d, rfl⟩

theorem known_of_fieldEntry {fields : List FieldReader} (name : String) (found : List (String × Data))
    (c : Cursor) (found' : List (String × Data)) (c' : Cursor)
    (h : fieldEntry fields name found c = .ok found' c') (hknown : Known fields found) :
    Known fields found' := by
  rcases found_of_fieldEntry h with rfl | ⟨hnew, hfield, d, rfl⟩
  · exact hknown
  · exact ⟨List.nodup_cons.2 ⟨hnew, hknown.1⟩, List.forall_mem_cons.2 ⟨hfield, hknown.2⟩⟩

/-- Nothing that was found is lost on completing it. -/
theorem exists_by_of_complete {found es es' : List (String × Data)} (hknown : Known looses found)
    (hes : Shape.complete found looses = .ok es) (hby : EntriesBy R es es') :
    ∃ found', EntriesBy R found found' := by
  refine exists_entriesBy fun e he => ?_
  have hget := hby.get? e.1
  obtain ⟨f, hf⟩ := Option.isSome_iff_exists.1 (hknown.2 e he)
  rw [Shape.get?_complete hes, hf, Option.bind_some, Entries.get?_of_mem hknown.1 he, Option.some_or] at hget
  obtain ⟨d, -, hd⟩ := rel_some_left_iff.1 hget
  exact ⟨d, hd⟩

theorem Sifts.fieldEntry (hR : ∀ n, Relator.RightUnique (R n))
    (h : List.Forall₂ (FieldBy R) looses stricts) (name : String) {found found' : List (String × Data)}
    (hfound : EntriesBy R found found') :
    Sifts (EntriesBy R) (fieldEntry looses name found) (fieldEntry stricts name found') := by
  have hunique := rightUnique_entriesBy hR
  rw [Json.fieldEntry, Json.fieldEntry]
  have hfield := get?_fieldBy h name
  generalize Entries.get? name looses = f, Entries.get? name stricts = f' at hfield ⊢
  cases hfield with
  | none => exact behind colon fun _ => behind skipValue fun _ => Sifts.pure hunique hfound
  | some hreads =>
    dsimp only
    rw [hfound.isSome_get? name]
    split
    · exact of_fruitless (fruitless_failPlaceless _) (fruitless_failPlaceless _)
    · refine behind colon fun _ => hreads.map _ _ fun d es' => ?_
      constructor
      · intro hes'
        obtain ⟨⟨_, d'⟩, found'', ⟨rfl, hd⟩, hfound'', rfl⟩ := List.forall₂_cons_left_iff.1 hes'
        exact ⟨d', hd, by rw [hunique hfound hfound'']⟩
      · rintro ⟨d', hd, rfl⟩
        exact .cons ⟨rfl, hd⟩ hfound

/-- Entries that were completed make a table. -/
theorem completed_eq_ok_iff {r : Except Mismatch (List (String × Data))} {c c' : Cursor} {d : Data} :
    (match r with
      | .ok es => pure (.table es)
      | .error m => failPlaceless m : Reader Data) c = .ok d c' ↔
        c = c' ∧ ∃ es, r = .ok es ∧ d = .table es := by
  cases r with
  | ok es =>
    constructor
    · intro h
      cases h
      exact ⟨rfl, es, rfl, rfl⟩
    · rintro ⟨rfl, _, ⟨⟩, rfl⟩
      rfl
  | error m => exact ⟨fun h => absurd h (fruitless_failPlaceless m _ _ _), by rintro ⟨-, es, ⟨⟩, -⟩⟩

theorem Sifts.fieldsInTable (hR : ∀ n, Relator.RightUnique (R n))
    (h : List.Forall₂ (FieldBy R) looses stricts) :
    Sifts (TableBy R) (fieldsInTable looses) (fieldsInTable stricts) := by
  have hunique := rightUnique_entriesBy hR
  have hback : ∀ name found c x c', Json.fieldEntry looses name found c = .ok x c' →
      ∀ y, EntriesBy R x y → ∃ found', EntriesBy R found found' := by
    intro name found c x c' hx y hy
    rcases found_of_fieldEntry hx with rfl | ⟨-, -, d, rfl⟩
    · exact ⟨y, hy⟩
    · obtain ⟨e, y', -, hy', -⟩ := List.forall₂_cons_left_iff.1 hy
      exact ⟨y', hy'⟩
  refine behind stepsLeft fun steps => ?_
  refine ((Sifts.entries hunique (fun name _ _ => Sifts.fieldEntry hR h name) hback steps true []).2
    [] .nil).bind (fun found found' hfound c d' c' => ?_) fun c₀ found c d c' hfound hd d' hby => ?_
  · refine completed_eq_ok_iff.trans ?_
    constructor
    · rintro ⟨rfl, es', hes', rfl⟩
      obtain ⟨es, hes, hby⟩ := (complete_eq_ok_iff_by hR h hfound es').1 hes'
      exact ⟨.table es, completed_eq_ok_iff.2 ⟨rfl, es, hes, rfl⟩, es, es', rfl, rfl, hby⟩
    · rintro ⟨d, hd, es, es', rfl, rfl, hby⟩
      obtain ⟨rfl, _, hes, ⟨⟩⟩ := completed_eq_ok_iff.1 hd
      exact ⟨rfl, es', (complete_eq_ok_iff_by hR h hfound es').2 ⟨es, hes, hby⟩, rfl⟩
  · obtain ⟨-, es, hes, rfl⟩ := completed_eq_ok_iff.1 hd
    obtain ⟨_, es', ⟨⟩, -, hentries⟩ := hby
    exact exists_by_of_complete
      (of_entries known_of_fieldEntry hfound ⟨List.nodup_nil, fun _ => nofun⟩) hes hentries

theorem Sifts.recordOf (hR : ∀ n, Relator.RightUnique (R n)) (h : List.Forall₂ (FieldBy R) looses stricts)
    (name : String) : Sifts (TableBy R) (recordOf name looses) (recordOf name stricts) := by
  refine behind peekValue fun c => ?_
  split
  · rw [h.length_eq]
    refine ((Sifts.fieldsInList hR h _ _ 0).bracketed closeList).map Data.table Data.table fun es d => ?_
    constructor
    · rintro ⟨_, es', ⟨⟩, rfl, hes'⟩
      exact ⟨es', hes', rfl⟩
    · rintro ⟨es', hes', rfl⟩
      exact ⟨es, es', rfl, rfl, hes'⟩
  · exact (Sifts.fieldsInTable hR h).bracketed closeTable
  · exact of_fruitless (fruitless_refuse _) (fruitless_refuse _)

/-! ### What is read as a record -/

theorem names_of_fieldsInList {fields : List FieldReader} {count n : Nat} {expected : String}
    {es : List (String × Data)} {c c' : Cursor} (h : fieldsInList count expected n fields c = .ok es c') :
    Entries.names es = Entries.names fields := by
  induction fields generalizing n es c with
  | nil =>
    cases h
    rfl
  | cons f fields ih =>
    obtain ⟨name, r, fallback⟩ := f
    have hrest : ∀ {d : Data} {c₁ : Cursor} {es : List (String × Data)},
        (fieldsInList count expected (n + 1) fields >>= fun rest => pure ((name, d) :: rest)) c₁ = .ok es c' →
          Entries.names es = name :: Entries.names fields := by
      intro d c₁ es hes
      obtain ⟨rest, c₂, hrest, hpure⟩ := bind_eq_ok hes
      cases hpure
      exact congrArg (name :: ·) (ih hrest)
    obtain ⟨more, c₁, -, h⟩ := bind_eq_ok h
    cases more with
    | true =>
      obtain ⟨d, c₂, -, h⟩ := bind_eq_ok h
      exact hrest h
    | false =>
      cases fallback with
      | some d => exact hrest h
      | none => exact absurd h (fruitless_failPlaceless _ _ _ _)

/-- What is read as a record has its fields in order, whichever way it is written. -/
theorem givesOnly_recordOf (name : String) (fields : List FieldReader) :
    GivesOnly (fun d => ∃ es, d = .table es ∧ Entries.names es = Entries.names fields)
      (recordOf name fields) := by
  refine .behind _ fun ch => ?_
  split
  · intro c d c' h
    obtain ⟨es, c₁, hes, hpure⟩ := bind_eq_ok h
    cases hpure
    obtain ⟨-, c₂, c₃, -, hes, -⟩ := bracketed_eq_ok_iff.1 hes
    exact ⟨es, rfl, names_of_fieldsInList hes⟩
  · intro c d c' h
    obtain ⟨-, c₁, c₂, -, h, -⟩ := bracketed_eq_ok_iff.1 h
    obtain ⟨steps, c₃, -, h⟩ := bind_eq_ok h
    obtain ⟨found, c₄, -, h⟩ := bind_eq_ok h
    obtain ⟨-, es, hes, rfl⟩ := completed_eq_ok_iff.1 h
    exact ⟨es, rfl, Shape.names_complete hes⟩
  · exact .of_fruitless (fruitless_refuse _)

theorem rightUnique_eq_and {P : α → Prop} : Relator.RightUnique fun a b => a = b ∧ P a := by
  rintro a _ _ ⟨rfl, -⟩ ⟨rfl, -⟩
  rfl

theorem exists_of_mem_right {r : α → β → Prop} {xs : List α} {ys : List β} (h : List.Forall₂ r xs ys) :
    ∀ y ∈ ys, ∃ x, r x y := exists_forall₂_iff.1 ⟨xs, h.flip⟩

/-- What holds of all that a field can be holds of the field in every record. -/
theorem givesOnly_field (name : String) {fields : List FieldReader} {P : String → Data → Prop}
    (h : ∀ f ∈ fields, GivesOnly (P f.1) f.2.1 ∧ ∀ d ∈ f.2.2, P f.1 d) :
    GivesOnly (fun d => ∀ es, d = .table es → ∀ e ∈ es, P e.1 e.2) (recordOf name fields) := by
  have hfields : List.Forall₂ (FieldBy fun n d d' => d = d' ∧ P n d) fields fields := by
    refine List.forall₂_same.2 fun f hf => ⟨rfl, Sifts.self (h f hf).1, ?_⟩
    cases hfallback : f.2.2 with
    | none => exact .none
    | some d => exact .some ⟨rfl, (h f hf).2 d hfallback⟩
  rintro c _ c' hd es rfl ⟨n, d⟩ he
  obtain ⟨_, -, es₀, _, rfl, ⟨⟩, hes⟩ := (Sifts.recordOf (fun _ => rightUnique_eq_and) hfields name c _ c').1 hd
  obtain ⟨_, rfl, rfl, hP⟩ := exists_of_mem_right hes _ he
  exact hP

theorem givesOnly_listOf {P : Data → Prop} {r : Reader Data} (h : GivesOnly P r) :
    GivesOnly (fun d => ∀ xs, d = .list xs → ∀ x ∈ xs, P x) (listOf r) := by
  rintro c _ c' hd xs rfl x hx
  obtain ⟨_, -, ys, _, rfl, ⟨⟩, hys⟩ := (Sifts.listOf rightUnique_eq_and (Sifts.self h) c _ c').1 hd
  obtain ⟨_, rfl, hP⟩ := exists_of_mem_right hys x hx
  exact hP

end Records

/-! ## Documents -/

theorem GivesOnly.readBy {P : α → Prop} {r : Reader α} (h : GivesOnly P r) {text : String} {a : α}
    (ha : readBy r text = .ok a) : P a := by
  have hlast : GivesOnly P (lastOf r) := by
    intro c x c' hx
    obtain ⟨x', c₁, hx', hx⟩ := bind_eq_ok hx
    obtain ⟨next?, c₂, -, hx⟩ := bind_eq_ok hx
    cases next? with
    | some _ => exact absurd hx (fruitless_failNext _ _ _ _)
    | none =>
      cases hx
      exact h c x c₁ hx'
  rw [Json.readBy, EStateM.run] at ha
  split at ha
  · next hx =>
    cases ha
    exact hlast _ _ _ hx
  · cases ha

theorem Sifts.lastOf {R : α → β → Prop} (hR : Relator.RightUnique R) {loose : Reader α} {strict : Reader β}
    (h : Sifts R loose strict) : Sifts R (lastOf loose) (lastOf strict) := by
  refine h.bind (fun a b hab => behind peekToken? fun next? => ?_) fun _ a c x c' _ hx y hy => ?_
  · split
    · exact of_fruitless (fruitless_failNext _) (fruitless_failNext _)
    · exact Sifts.pure hR hab
  · obtain ⟨next?, c₁, -, hx⟩ := bind_eq_ok hx
    cases next? with
    | some _ => exact absurd hx (fruitless_failNext _ _ _ _)
    | none =>
      cases hx
      exact ⟨y, hy⟩

/-- **A document is what stands for the one that was read.** -/
theorem Sifts.readBy_eq_ok_iff {R : α → β → Prop} (hR : Relator.RightUnique R) {loose : Reader α}
    {strict : Reader β} (h : Sifts R loose strict) (text : String) (b : β) :
    readBy strict text = .ok b ↔ ∃ a, readBy loose text = .ok a ∧ R a b := by
  have hlast := h.lastOf hR { rest := text.toList }
  constructor
  · intro hb
    rw [readBy, EStateM.run] at hb
    split at hb
    · next b' c' hstrict =>
      cases hb
      obtain ⟨a, hloose, hab⟩ := (hlast b c').1 hstrict
      exact ⟨a, by rw [readBy, EStateM.run, hloose], hab⟩
    · cases hb
  · rintro ⟨a, ha, hab⟩
    rw [readBy, EStateM.run] at ha
    split at ha
    · next a' c' hloose =>
      cases ha
      rw [readBy, EStateM.run, (hlast b c').2 ⟨a, hloose, hab⟩]
    · cases ha

end PluginChain.Json
