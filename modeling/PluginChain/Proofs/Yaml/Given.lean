import PluginChain.Proofs.Yaml.Tree

/-!
# What a reader can give

A text need not be one whose tree is known for something to be said of what is read from it: `Grants r P`
says that whatever a reader gives, in whatever document and wherever it stands, is of one kind.

* `Grants.bind` and its like follow a reader part by part, and `grants_entries` is the loop over the
  entries of a mapping.
* `grants_natural`, `grants_maybe` and `grants_record` are the shapes that a number in a record is read by:
  no number that is read is as large as `2 ^ 64`.
-/

set_option autoImplicit false

namespace PluginChain.Yaml

open Operation

variable {α β : Type} {P Q : α → Prop}

/-- Whatever the reader gives is of this kind. -/
def Grants (r : Reader α) (P : α → Prop) : Prop :=
  ∀ (doc : Document) (p : Position) (a : α) (p' : Position), r doc p = .ok a p' → P a

theorem grants_pure {a : α} (h : P a) : Grants (pure a) P := by
  rintro doc p a' p' ⟨⟩
  exact h

theorem grants_throw (f : Fault) : Grants (throw f) P := by
  rintro doc p a p' ⟨⟩

theorem grants_failPlaceless (m : Mismatch) : Grants (failPlaceless m) P := by
  rintro doc p a p' ⟨⟩

theorem grants_ofExcept {r : Except Mismatch α} (h : ∀ a, r = .ok a → P a) : Grants (ofExcept r) P := by
  cases r with
  | ok a => exact grants_pure (h a rfl)
  | error m => exact grants_failPlaceless m

theorem Grants.bind {r : Reader β} {f : β → Reader α} {R : β → Prop} (hr : Grants r R)
    (hf : ∀ b, R b → Grants (f b) P) : Grants (r >>= f) P := by
  intro doc p a p' h
  obtain ⟨b, p₁, hb, ha⟩ := bind_eq_ok (f := r doc) (g := fun b => f b doc) h
  exact hf b (hr doc p b p₁ hb) doc p₁ a p' ha

/-- What was read before need not matter. -/
theorem grants_bind (r : Reader β) {f : β → Reader α} (hf : ∀ b, Grants (f b) P) : Grants (r >>= f) P :=
  Grants.bind (R := fun _ => True) (fun _ _ _ _ _ => trivial) fun b _ => hf b

theorem Grants.map {r : Reader β} {R : β → Prop} (hr : Grants r R) {g : β → α} (hg : ∀ b, R b → P (g b)) :
    Grants (g <$> r) P := by
  rw [← bind_pure_comp]
  exact hr.bind fun b hb => grants_pure (hg b hb)

theorem Grants.placed {r : Reader α} (h : Grants r P) (path : Path) (mark : Mark) :
    Grants (placed path mark r) P := by
  intro doc p a p' hok
  refine h doc p a p' ?_
  change (tryCatch (r doc) fun f => (throw (f.placedAt path mark) : Reader α) doc : EStateM Fault Position α) p = _
    at hok
  change EStateM.tryCatch (r doc) _ p = _ at hok
  rw [EStateM.tryCatch] at hok
  split at hok
  · cases hok
  · exact hok

theorem Grants.jump {r : Reader α} (h : Grants r P) (anchor : Nat) : Grants (jump anchor r) P := by
  have hthere : ∀ (start : Nat) (p : Position), Grants (do
      set ({ next := start, jumps := p.jumps + 1 } : Position)
      let a ← r
      modify ({ · with next := p.next })
      return a) P := fun start p =>
    grants_bind _ fun _ => h.bind fun a ha => grants_bind _ fun _ => grants_pure ha
  refine grants_bind _ fun doc => grants_bind _ fun p => ?_
  dsimp only
  split
  · refine grants_bind _ fun _ => ?_
    split
    · exact grants_throw _
    · exact hthere _ p
  · split
    · exact grants_throw _
    · exact hthere _ p

theorem Grants.node {r : Node → Mark → Reader α} (h : ∀ n mark, Grants (r n mark) P) (path : Path) :
    Grants (node path r) P := by
  refine grants_bind _ fun (n, mark) => Grants.placed ?_ path mark
  split
  · exact Grants.jump (grants_bind _ fun (n, mark) => (h n mark).placed path mark) _
  · exact h n mark

theorem grants_refuse (expected : String) (n : Node) : Grants (refuse expected n : Reader α) P := by
  rw [refuse.eq_def]
  split
  · exact grants_bind _ fun m => grants_failPlaceless _
  · exact grants_failPlaceless _
  · exact grants_failPlaceless _
  · exact grants_throw _

/-- What every entry keeps, the entries of a mapping keep. -/
theorem grants_entries {path : Path} {entry : Path → α → Reader α}
    (h : ∀ path acc, P acc → Grants (entry path acc) P) (steps : Nat) {acc : α} (hacc : P acc) :
    Grants (entries path entry steps acc) P := by
  induction steps generalizing acc with
  | zero => exact grants_pure hacc
  | succ steps ih =>
    refine grants_bind _ fun ends => ?_
    split
    · exact grants_bind _ fun _ => grants_pure hacc
    · exact grants_bind _ fun event => (h _ acc hacc).bind fun acc' hacc' => ih hacc'

/-! ## Shapes -/

/-- A number that is read is below `2 ^ 64`. -/
theorem grants_natural (path : Path) (name : String) :
    Grants (naturalOf path name) fun d => ∃ n : Nat, d = .int n ∧ n < 2 ^ 64 := by
  refine Grants.node (fun n mark => ?_) path
  split
  · split
    · next tag style s k hk =>
      refine grants_pure ⟨k, rfl, ?_⟩
      split at hk
      · rw [natural?] at hk
        exact of_decide_eq_true (Option.filter_eq_some_iff.1 hk).2
      · cases hk
    · exact grants_refuse name _
  · exact grants_refuse name _

theorem Grants.maybe {r : Reader Data} {P : Data → Prop} (h : Grants r P) :
    Grants (maybeOf r) fun d => d = .null ∨ P d := by
  have hvalue : Grants r fun d => d = .null ∨ P d := fun doc p d p' hd => Or.inr (h doc p d p' hd)
  have hnothing : Grants (do skip; return Data.null) fun d => d = .null ∨ P d :=
    grants_bind _ fun _ => grants_pure (Or.inl rfl)
  have hchoice : ∀ isNothing : Bool, Grants (if isNothing = true then do skip; return Data.null else r)
      fun d => d = .null ∨ P d := by
    intro isNothing
    split
    · exact hnothing
    · exact hvalue
  delta maybeOf
  extract_lets direct
  have hdirect : Grants direct fun d => d = .null ∨ P d := by
    refine grants_bind _ fun event => ?_
    split
    · exact hnothing
    · dsimp only
      split
      · exact grants_bind _ fun _ => hchoice _
      · exact hchoice _
    · exact hvalue
  refine grants_bind _ fun event => ?_
  split
  · exact grants_bind _ fun _ => hdirect.jump _
  · exact hdirect

/-! ## Records -/

/-- The value of every field is of the kind for its name. -/
def EachField (P : String → Data → Prop) (es : List (String × Data)) : Prop :=
  ∀ field x, Entries.get? field es = some x → P field x

/-- Each field is read as what is said of its name, and what stands for it where it is missing is that too. -/
structure FieldReader.AllGrant (fields : List FieldReader) (P : String → Data → Prop) : Prop where
  read : ∀ name value fallback, Entries.get? name fields = some (value, fallback) →
    ∀ levels path, Grants (value levels path) (P name)
  fallback : ∀ name value d, Entries.get? name fields = some (value, some d) → P name d

section Record

variable {fields : List FieldReader} {P : String → Data → Prop}

theorem grants_complete (h : FieldReader.AllGrant fields P) {got : List (String × Data)}
    (hgot : EachField P got) :
    Grants (Data.table <$> ofExcept (Shape.complete got fields)) fun d =>
      ∃ es, d = .table es ∧ EachField P es := by
  refine (grants_ofExcept (P := EachField P) fun es hes => ?_).map fun es hes => ⟨es, rfl, hes⟩
  intro field x hx
  rw [Shape.get?_complete hes] at hx
  obtain ⟨⟨value, fallback⟩, hfield, hor⟩ := Option.bind_eq_some_iff.1 hx
  rcases Option.or_eq_some_iff.1 hor with hread | ⟨-, rfl⟩
  · exact hgot field x hread
  · exact h.fallback field value x hfield

theorem grants_fieldEntry (h : FieldReader.AllGrant fields P) (levels : Nat) (path inner : Path)
    {got : List (String × Data)} (hgot : EachField P got) :
    Grants (fieldEntry levels path fields inner got) (EachField P) := by
  refine grants_bind _ fun field => ?_
  split
  · exact grants_bind _ fun _ => grants_bind _ fun _ => grants_pure hgot
  · next value fallback hfield =>
    have hnew : Grants (do return (field, ← value levels inner) :: got) (EachField P) := by
      refine (h.read field value fallback hfield levels inner).bind fun d hd => grants_pure fun f x hx => ?_
      rw [Entries.get?] at hx
      split at hx
      · next hf =>
        cases hx
        exact hf ▸ hd
      · exact hgot f x hx
    dsimp only
    split
    · exact grants_bind _ fun _ => hnew
    · exact hnew

theorem grants_record (h : FieldReader.AllGrant fields P) (levels : Nat) (path : Path) (name : String) :
    Grants (recordOf levels path name fields) fun d => ∃ es, d = .table es ∧ EachField P es := by
  refine Grants.node (fun n mark => ?_) path
  split
  · cases levels with
    | zero => exact grants_throw _
    | succ levels =>
      refine grants_bind _ fun steps => Grants.bind (R := EachField P) ?_ fun got => grants_complete h
      exact grants_entries (fun inner got => grants_fieldEntry h levels path inner) steps nofun
  · split
    · exact grants_complete h nofun
    · exact grants_refuse _ _

/-- The fields of a shape, each of which is read as its own shape says. -/
theorem allGrant_fieldReaders {fields : List (String × Shape × Option Data)}
    (hread : ∀ f ∈ fields, ∀ levels path, Grants (readerOf f.2.1 levels false path) (P f.1))
    (hfallback : ∀ f ∈ fields, ∀ d, f.2.2 = some d → P f.1 d) :
    FieldReader.AllGrant (fieldReaders fields) P where
  read name value fallback hfield := by
    rw [get?_fieldReaders] at hfield
    obtain ⟨f, hf, heq⟩ := Option.map_eq_some_iff.1 hfield
    cases heq
    exact hread _ (Entries.mem_of_get? hf)
  fallback name value d hfield := by
    rw [get?_fieldReaders] at hfield
    obtain ⟨f, hf, heq⟩ := Option.map_eq_some_iff.1 hfield
    exact hfallback _ (Entries.mem_of_get? hf) d (congrArg Prod.snd heq)

end Record

/-- A document is read as its shape is. -/
theorem Grants.of_read {shape : Shape} {P : Data → Prop} (h : ∀ path, Grants (readerOf shape maxLevels false path) P)
    {text : String} {d : Data} (hread : Yaml.read shape text = .ok d) : P d := by
  rw [Yaml.read] at hread
  split at hread
  · cases hread
  · next v p hv =>
    split at hread
    · cases hread
      exact h _ _ _ _ _ hv
    · cases hread
    · cases hread

end PluginChain.Yaml
