import PluginChain.Proofs.Operation
import PluginChain.Yaml.Reader

/-!
# What a reader makes of events

`Yields r doc inp a out` says that a reader which stands before the events `inp`, the last ones of the
document, gives a value and then stands before `out`.  Readers behind one another read events behind one
another (`Yields.bind`), so that a reader is followed along the events of a value one by one.

* `yields_node` — a value that is no alias is read where it stands, and its faults are placed.
* `yields_items` and `yields_entries` — a collection is folded over up to its end.  An entry may be read
  in the light of those before it.
-/

set_option autoImplicit false

namespace PluginChain.Yaml

open Operation

variable {α β ι : Type} {doc : Document} {inp mid out : List Node}

/-- The events that are unread at a position. -/
def Document.unread (doc : Document) (p : Position) : List Node :=
  (doc.nodes.toList.drop p.next).map Prod.fst

/-- Before some events the reader gives a value, and then stands before others. -/
def Yields (r : Reader α) (doc : Document) (inp : List Node) (a : α) (out : List Node) : Prop :=
  ∀ p : Position, doc.unread p = inp → ∃ p', r doc p = .ok a p' ∧ doc.unread p' = out

theorem yields_pure (doc : Document) (inp : List Node) (a : α) : Yields (pure a) doc inp a inp :=
  fun p hp => ⟨p, rfl, hp⟩

theorem Yields.bind {r : Reader α} {f : α → Reader β} {a : α} {b : β} (h : Yields r doc inp a mid)
    (hf : Yields (f a) doc mid b out) : Yields (r >>= f) doc inp b out := by
  intro p hp
  obtain ⟨p₁, h₁, hp₁⟩ := h p hp
  obtain ⟨p₂, h₂, hp₂⟩ := hf p₁ hp₁
  refine ⟨p₂, ?_, hp₂⟩
  change (r doc >>= fun a => f a doc) p = _
  rw [bind_of_ok h₁, h₂]

theorem Yields.map {r : Reader α} {a : α} (h : Yields r doc inp a out) (g : α → β) :
    Yields (g <$> r) doc inp (g a) out := by
  rw [← bind_pure_comp]
  exact h.bind (yields_pure doc out (g a))

/-! ## Single events -/

theorem exists_mark_of_unread {p : Position} {n : Node} {tl : List Node} (h : doc.unread p = n :: tl) :
    ∃ mark, doc.nodes[p.next]? = some (n, mark) := by
  have hhead := congrArg List.head? h
  rw [Document.unread, List.head?_map, List.head?_drop, List.head?_cons] at hhead
  obtain ⟨⟨n', mark⟩, hget, rfl⟩ := Option.map_eq_some_iff.1 hhead
  exact ⟨mark, by rw [← Array.getElem?_toList, hget]⟩

/-- What comes next is seen, and stays unread. -/
theorem yields_peek_bind {n : Node} {tl : List Node} {f : Node × Mark → Reader α} {a : α}
    (h : ∀ mark, Yields (f (n, mark)) doc (n :: tl) a out) : Yields (peek >>= f) doc (n :: tl) a out := by
  intro p hp
  obtain ⟨mark, hget⟩ := exists_mark_of_unread hp
  obtain ⟨p', hf, hp'⟩ := h mark p hp
  refine ⟨p', ?_, hp'⟩
  have hpeek : peek doc p = .ok (n, mark) p := by
    have hread : (MonadReader.read : Reader Document) doc p = .ok doc p := rfl
    refine (bind_of_ok hread _).trans ?_
    rw [hget]
    rfl
  change (peek doc >>= fun a => f a doc) p = _
  rw [bind_of_ok hpeek, hf]

theorem yields_skip (doc : Document) (n : Node) (tl : List Node) : Yields skip doc (n :: tl) () tl := by
  intro p hp
  refine ⟨{ p with next := p.next + 1 }, rfl, ?_⟩
  have htail := congrArg List.tail hp
  rwa [Document.unread, ← List.map_tail, List.tail_drop, List.tail_cons] at htail

theorem yields_next_bind {n : Node} {tl : List Node} {f : Node × Mark → Reader α} {a : α}
    (h : ∀ mark, Yields (f (n, mark)) doc tl a out) : Yields (next >>= f) doc (n :: tl) a out := by
  rw [next, bind_assoc]
  refine yields_peek_bind fun mark => ?_
  rw [bind_assoc]
  exact (yields_skip doc n tl).bind ((yields_pure doc tl (n, mark)).bind (h mark))

theorem Yields.placed {r : Reader α} {a : α} (h : Yields r doc inp a out) (path : Path) (mark : Mark) :
    Yields (Yaml.placed path mark r) doc inp a out := by
  intro p hp
  obtain ⟨p', hr, hp'⟩ := h p hp
  refine ⟨p', ?_, hp'⟩
  change EStateM.tryCatch (r doc) (fun f => (throw (f.placedAt path mark) : Reader α) doc) p = _
  delta EStateM.tryCatch
  simp only [hr]

/-- A value starts with one of its own events. -/
inductive Node.IsStart : Node → Prop
  | scalar (tag : Option String) (style : Style) (s : String) : IsStart (.scalar tag style s)
  | sequence (tag : Option String) : IsStart (.sequenceStart tag)
  | mapping (tag : Option String) : IsStart (.mappingStart tag)

/-- The value is read where it stands. -/
theorem yields_node {n : Node} (hn : n.IsStart) {tl : List Node} (path : Path)
    {r : Node → Mark → Reader α} {a : α} (h : ∀ mark, Yields (r n mark) doc tl a out) :
    Yields (node path r) doc (n :: tl) a out := by
  rw [node]
  refine yields_next_bind fun mark => Yields.placed ?_ path mark
  cases hn with
  | scalar tag style s => exact h mark
  | sequence tag => exact h mark
  | mapping tag => exact h mark

theorem yields_ofExcept (doc : Document) (inp : List Node) {r : Except Mismatch α} {a : α} (h : r = .ok a) :
    Yields (ofExcept r) doc inp a inp := by
  rw [h]
  exact yields_pure doc inp a

/-! ## Collections -/

theorem yields_atEnd_start {n : Node} (hn : n.IsStart) (doc : Document) (tl : List Node) :
    Yields atEnd doc (n :: tl) false (n :: tl) := by
  rw [atEnd]
  refine yields_peek_bind fun mark => ?_
  cases hn <;> exact yields_pure doc _ false

theorem yields_atEnd_end {n : Node} (hn : n = .sequenceEnd ∨ n = .mappingEnd) (doc : Document)
    (tl : List Node) : Yields atEnd doc (n :: tl) true (n :: tl) := by
  rw [atEnd]
  refine yields_peek_bind fun mark => ?_
  rcases hn with rfl | rfl <;> exact yields_pure doc _ true

/-- There are more steps than events. -/
theorem yields_stepsLeft_bind {f : Nat → Reader α} {a : α}
    (h : ∀ steps, inp.length < steps → Yields (f steps) doc inp a out) :
    Yields (stepsLeft >>= f) doc inp a out := by
  intro p hp
  have hlength : inp.length < doc.nodes.size + 1 := by
    rw [← hp, Document.unread, List.length_map, List.length_drop, Array.length_toList]
    omega
  exact h (doc.nodes.size + 1) hlength p hp

/-- The events of a value, the first of which is its own. -/
def Opens (events : List Node) : Prop := ∃ n tl, events = n :: tl ∧ n.IsStart

theorem length_le_flatMap {text : ι → List Node} {xs : List ι} (h : ∀ x ∈ xs, Opens (text x)) :
    xs.length ≤ (xs.flatMap text).length := by
  induction xs with
  | nil => exact Nat.le_refl 0
  | cons x xs ih =>
    obtain ⟨n, tl, htext, -⟩ := h x List.mem_cons_self
    have hrest := ih fun y hy => h y (List.mem_cons_of_mem _ hy)
    rw [List.flatMap_cons, htext, List.length_append, List.length_cons, List.length_cons]
    omega

/-- The items of a sequence are folded over, up to its end. -/
theorem yields_items {item : Nat → α → Reader α} {text : ι → List Node} {g : α → ι → α} {xs : List ι}
    (hopens : ∀ x ∈ xs, Opens (text x))
    (h : ∀ x ∈ xs, ∀ index acc rest, Yields (item index acc) doc (text x ++ rest) (g acc x) rest)
    {steps : Nat} (hsteps : xs.length < steps) (index : Nat) (acc : α) (rest : List Node) :
    Yields (items item steps index acc) doc (xs.flatMap text ++ .sequenceEnd :: rest) (xs.foldl g acc)
      rest := by
  induction xs generalizing steps index acc with
  | nil =>
    obtain ⟨k, rfl⟩ : ∃ k, steps = k + 1 := ⟨steps - 1, by simp at hsteps; omega⟩
    exact (yields_atEnd_end (.inl rfl) doc rest).bind ((yields_skip doc _ rest).bind (yields_pure doc rest acc))
  | cons x xs ih =>
    obtain ⟨k, rfl⟩ : ∃ k, steps = k + 1 := ⟨steps - 1, by simp at hsteps; omega⟩
    obtain ⟨n, tl, htext, hn⟩ := hopens x List.mem_cons_self
    have hx := h x List.mem_cons_self index acc (xs.flatMap text ++ .sequenceEnd :: rest)
    rw [List.flatMap_cons, List.append_assoc, items]
    rw [htext, List.cons_append] at hx ⊢
    refine (yields_atEnd_start hn doc _).bind ?_
    rw [if_neg (by decide)]
    exact hx.bind (ih (fun y hy => hopens y (List.mem_cons_of_mem _ hy))
      (fun y hy => h y (List.mem_cons_of_mem _ hy)) (by simpa using hsteps) (index + 1) (g acc x))

/-- All items of a sequence are folded over. -/
theorem yields_allItems {item : Nat → α → Reader α} {text : ι → List Node} {g : α → ι → α} {xs : List ι}
    (hopens : ∀ x ∈ xs, Opens (text x))
    (h : ∀ x ∈ xs, ∀ index acc rest, Yields (item index acc) doc (text x ++ rest) (g acc x) rest)
    (index : Nat) (acc : α) (rest : List Node) :
    Yields (do items item (← stepsLeft) index acc) doc (xs.flatMap text ++ .sequenceEnd :: rest)
      (xs.foldl g acc) rest := by
  refine yields_stepsLeft_bind fun steps hsteps => yields_items hopens h ?_ index acc rest
  have hle := length_le_flatMap hopens
  rw [List.length_append] at hsteps
  omega

/-- The entries of a mapping are folded over, up to its end. -/
theorem yields_entries {path : Path} {entry : Path → α → Reader α} {text : ι → List Node} {g : α → ι → α}
    {xs : List ι} (hopens : ∀ x ∈ xs, Opens (text x)) (acc : α)
    (h : ∀ before x later, xs = before ++ x :: later → ∀ path rest,
      Yields (entry path (before.foldl g acc)) doc (text x ++ rest) (g (before.foldl g acc) x) rest)
    {steps : Nat} (hsteps : xs.length < steps) (rest : List Node) :
    Yields (entries path entry steps acc) doc (xs.flatMap text ++ .mappingEnd :: rest) (xs.foldl g acc)
      rest := by
  induction xs generalizing steps acc with
  | nil =>
    obtain ⟨k, rfl⟩ : ∃ k, steps = k + 1 := ⟨steps - 1, by simp at hsteps; omega⟩
    exact (yields_atEnd_end (.inr rfl) doc rest).bind ((yields_skip doc _ rest).bind (yields_pure doc rest acc))
  | cons x xs ih =>
    obtain ⟨k, rfl⟩ : ∃ k, steps = k + 1 := ⟨steps - 1, by simp at hsteps; omega⟩
    obtain ⟨n, tl, htext, hn⟩ := hopens x List.mem_cons_self
    have hx := fun path => h [] x xs rfl path (xs.flatMap text ++ .mappingEnd :: rest)
    rw [List.flatMap_cons, List.append_assoc, entries]
    rw [htext, List.cons_append] at hx ⊢
    refine (yields_atEnd_start hn doc _).bind ?_
    rw [if_neg (by decide)]
    refine yields_peek_bind fun mark => ?_
    exact (hx _).bind (ih (fun y hy => hopens y (List.mem_cons_of_mem _ hy)) (g acc x)
      (fun before y later hsplit => h (x :: before) y later (by rw [hsplit]; rfl)) (by simpa using hsteps))

/-- All entries of a mapping are folded over. -/
theorem yields_allEntries {path : Path} {entry : Path → α → Reader α} {text : ι → List Node}
    {g : α → ι → α} {xs : List ι} (hopens : ∀ x ∈ xs, Opens (text x)) (acc : α)
    (h : ∀ before x later, xs = before ++ x :: later → ∀ path rest,
      Yields (entry path (before.foldl g acc)) doc (text x ++ rest) (g (before.foldl g acc) x) rest)
    (rest : List Node) :
    Yields (do entries path entry (← stepsLeft) acc) doc (xs.flatMap text ++ .mappingEnd :: rest)
      (xs.foldl g acc) rest := by
  refine yields_stepsLeft_bind fun steps hsteps => yields_entries hopens acc h ?_ rest
  have hle := length_le_flatMap hopens
  rw [List.length_append] at hsteps
  omega

/-- The items of a sequence, each read for itself. -/
theorem yields_itemsOf {path : Path} {item : Path → Reader α} {text : ι → List Node} {f : ι → α}
    {xs : List ι} (hopens : ∀ x ∈ xs, Opens (text x))
    (h : ∀ x ∈ xs, ∀ path rest, Yields (item path) doc (text x ++ rest) (f x) rest) (rest : List Node) :
    Yields (itemsOf path item) doc (xs.flatMap text ++ .sequenceEnd :: rest) (xs.map f) rest := by
  have hfold : Yields (do items (fun index acc => return (← item (path.item index)) :: acc) (← stepsLeft) 0 [])
      doc (xs.flatMap text ++ .sequenceEnd :: rest) (xs.foldl (fun acc x => f x :: acc) []) rest := by
    refine yields_allItems hopens (fun x hx index acc rest => ?_) 0 [] rest
    exact (h x hx _ rest).bind (yields_pure doc rest _)
  rw [List.foldl_flip_cons_eq_append, List.append_nil] at hfold
  have hdone := hfold.map List.reverse
  rw [List.reverse_reverse, ← bind_pure_comp, bind_assoc] at hdone
  exact hdone

/-- The entries of a mapping, each read for itself. -/
theorem yields_entriesOf {γ : Type} {path : Path} {name : Reader α} {value : Path → Reader γ}
    {text : ι → List Node} {f : ι → α} {g : ι → γ} {xs : List ι} (hopens : ∀ x ∈ xs, Opens (text x))
    (h : ∀ x ∈ xs, ∀ path rest, ∃ mid, Yields name doc (text x ++ rest) (f x) mid ∧
      Yields (value path) doc mid (g x) rest) (rest : List Node) :
    Yields (entriesOf path name value) doc (xs.flatMap text ++ .mappingEnd :: rest)
      (xs.map fun x => (f x, g x)) rest := by
  have hfold : Yields (do
      entries path (fun path acc => do
        let n ← name
        return (n, ← value path) :: acc) (← stepsLeft) [])
      doc (xs.flatMap text ++ .mappingEnd :: rest) (xs.foldl (fun acc x => (f x, g x) :: acc) []) rest := by
    refine yields_allEntries hopens [] (fun before x later hsplit path rest => ?_) rest
    obtain ⟨mid, hname, hvalue⟩ := h x (by rw [hsplit]; simp) path rest
    exact hname.bind (hvalue.bind (yields_pure doc rest _))
  rw [List.foldl_flip_cons_eq_append, List.append_nil] at hfold
  have hdone := hfold.map List.reverse
  rw [List.reverse_reverse, ← bind_pure_comp, bind_assoc] at hdone
  exact hdone

end PluginChain.Yaml
