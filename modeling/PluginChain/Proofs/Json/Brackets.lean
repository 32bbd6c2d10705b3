import PluginChain.Proofs.Json.Reading

/-!
# Reading brackets

The writer puts the parts of a bracket on lines of their own (`bracketText`).  Here the readers of lists
and tables are followed through such a text, for any readers of the parts.

What a part is read as may depend on how many levels of nesting are left, so the result of a part is an
`Option`: `gives_list` and `gives_entries` say of all cases at once that a bracket gives what its parts
give, and a fault as soon as one of them does.  A bracket takes one level itself (`Gives.bracketed`).
-/

set_option autoImplicit false

namespace PluginChain.Json

open Operation

variable {α β ι σ : Type}

/-! ## Entering and leaving -/

/-- A fault inside a bracket remains a fault. -/
theorem placed_throw_eq (f : Fault) (c : Cursor) :
    ∃ f' c', placed (throw f : Reader α) c = .error f' c' := by
  cases hp : f.place with
  | some p => exact ⟨f, c, by
      simp only [placed, tryCatch, tryCatchThe, MonadExceptOf.tryCatch, EStateM.tryCatch,
        throw_eq, hp]; rfl⟩
  | none => exact ⟨{ f with place := some c.place }, c, by
      simp only [placed, tryCatch, tryCatchThe, MonadExceptOf.tryCatch, EStateM.tryCatch,
        throw_eq, hp]; rfl⟩

/-- The cursor behind an opening bracket, with a level of nesting less. -/
theorem exists_behind_bracket (c : Cursor) :
    ∃ c₀, skip { c with budget := c.budget - 1 } = .ok () c₀ ∧ c₀.budget = c.budget - 1 ∧
      c₀.rest = c.rest.drop 1 := by
  cases hrest : c.rest with
  | nil => exact ⟨{ c with budget := c.budget - 1 }, by simp only [skip, modify_eq, hrest], rfl, hrest⟩
  | cons ch rest =>
    obtain ⟨c₀, h₀, hr₀, hb₀⟩ := yields_skip (c.budget - 1) ch rest { c with budget := c.budget - 1 } hrest rfl
    exact ⟨c₀, hrest ▸ h₀, hb₀, hr₀⟩

theorem bracketed_of_low {close : Reader Unit} {inside : Reader α} {c : Cursor} (hn : c.budget ≤ 1) :
    bracketed close inside c = .error ⟨.recursionLimit, some c.nextPlace⟩ c := by
  simp only [bracketed, Bind.bind, EStateM.bind, get_eq, if_pos hn, failNext, throw_eq]

/-- What was read inside is given when the bracket is closed, at the level around it. -/
theorem bracketed_of_ok {close : Reader Unit} {inside : Reader α} {c c₀ c₁ : Cursor} {a : α}
    (hn : ¬ c.budget ≤ 1) (h₀ : skip { c with budget := c.budget - 1 } = .ok () c₀)
    (h₁ : inside c₀ = .ok a c₁) :
    bracketed close inside c = (close >>= fun _ => pure a) { c₁ with budget := c.budget } := by
  simp only [bracketed, Bind.bind, EStateM.bind, get_eq, if_neg hn, modify_eq, pure, EStateM.pure,
    h₀, tryCatch, tryCatchThe, MonadExceptOf.tryCatch, EStateM.tryCatch, Functor.map, EStateM.map, h₁]

/-- Whatever the closing bracket is taken for, a fault of the inside is thrown again. -/
theorem bracketed_of_error {close : Reader Unit} {inside : Reader α} {c c₀ c₁ : Cursor} {f : Fault}
    (hn : ¬ c.budget ≤ 1) (h₀ : skip { c with budget := c.budget - 1 } = .ok () c₀)
    (h₁ : inside c₀ = .error f c₁) : ∃ f' c', bracketed close inside c = .error f' c' := by
  have hclose : ∃ c₂, EStateM.tryCatch close (fun _ => EStateM.pure ())
      { c₁ with budget := c.budget } = .ok () c₂ := by
    rw [EStateM.tryCatch]
    cases close { c₁ with budget := c.budget } with
    | ok a c₂ => exact ⟨c₂, rfl⟩
    | error e c₂ => exact ⟨c₂, rfl⟩
  obtain ⟨c₂, h₂⟩ := hclose
  obtain ⟨f', c', h'⟩ := placed_throw_eq (α := α) f c₂
  refine ⟨f', c', ?_⟩
  have hin : EStateM.tryCatch (EStateM.map Except.ok inside)
      (fun f => EStateM.pure (Except.error f)) c₀ = .ok (Except.error f) c₁ := by
    simp only [EStateM.tryCatch, EStateM.map, h₁]
    rfl
  simp only [bracketed, Bind.bind, EStateM.bind, get_eq, if_neg hn, modify_eq, pure, h₀, tryCatch,
    tryCatchThe, MonadExceptOf.tryCatch, Functor.map, hin, h₂, h']

theorem Yields.bracketed {close : Reader Unit} {inside : Reader α} {b : Nat} {ch : Char}
    {inp mid out : List Char} {a : α} (hb : 2 ≤ b) (hi : Yields inside (b - 1) inp a mid)
    (hc : Yields close b mid () out) :
    Yields (Json.bracketed close inside) b (ch :: inp) a out := by
  intro c hr hcb
  subst hcb
  obtain ⟨c₁, h₁, hb₁, hr₁⟩ := exists_behind_bracket c
  obtain ⟨c₂, h₂, hr₂, -⟩ := hi c₁ (by rw [hr₁, hr, List.drop_one, List.tail_cons]) hb₁
  obtain ⟨c₃, h₃, hr₃, hb₃⟩ := hc { c₂ with budget := c.budget } hr₂ rfl
  refine ⟨c₃, ?_, hr₃, hb₃⟩
  rw [bracketed_of_ok (by omega) h₁ h₂, bind_of_ok h₃]
  rfl

theorem Fails.bracketed {close : Reader Unit} {inside : Reader α} {b : Nat} {ch : Char}
    {inp : List Char} (hi : 2 ≤ b → Fails inside (b - 1) inp) :
    Fails (Json.bracketed close inside) b (ch :: inp) := by
  intro c hr hcb
  subst hcb
  by_cases hn : c.budget ≤ 1
  · exact ⟨_, _, bracketed_of_low hn⟩
  · obtain ⟨c₁, h₁, hb₁, hr₁⟩ := exists_behind_bracket c
    obtain ⟨f, c₂, h₂⟩ := hi (by omega) c₁ (by rw [hr₁, hr, List.drop_one, List.tail_cons]) hb₁
    exact bracketed_of_error hn h₁ h₂

/-- A bracket takes a level of nesting.  With a single level left there can be none. -/
theorem Gives.bracketed {close : Reader Unit} {inside : Reader α} {b : Nat} {ch : Char}
    {inp mid out : List Char} {res : Option α}
    (hi : 2 ≤ b → Gives inside (b - 1) inp (res.map (·, mid))) (hc : Yields close b mid () out) :
    Gives (Json.bracketed close inside) b (ch :: inp) ((if 2 ≤ b then res else none).map (·, out)) := by
  split
  · next h2 =>
    cases res with
    | none => exact Fails.bracketed hi
    | some a => exact Yields.bracketed h2 (hi h2) hc
  · next h2 => exact Fails.bracketed fun h => absurd h h2

/-! ## The layout of brackets -/

/-- What stands before the first character of a line. -/
def margin (level : Nat) : List Char := '\n' :: List.replicate (2 * level) ' '

theorem spaces_margin (level : Nat) : Spaces (margin level) := by
  intro ch hch
  rcases List.mem_cons.1 hch with rfl | hch
  · rfl
  · rw [List.eq_of_mem_replicate hch]
    rfl

/-- The parts of a bracket behind the first, each on its line. -/
def furtherParts (level : Nat) (parts : List (List Char)) : List Char :=
  parts.flatMap fun p => ',' :: (margin level ++ p)

/-- The text of a bracket with its parts on lines of their own. -/
def bracketText (opening closing : Char) (level : Nat) : List (List Char) → List Char
  | [] => [opening, closing]
  | p :: ps => opening :: (margin (level + 1) ++ p ++ furtherParts (level + 1) ps ++
      (margin level ++ [closing]))

/-- The text of a bracket starts with its opening character. -/
theorem exists_bracketText (opening closing : Char) (level : Nat) (ps : List (List Char))
    (rest : List Char) : ∃ inp, bracketText opening closing level ps ++ rest = opening :: inp := by
  cases ps <;> exact ⟨_, rfl⟩

theorem length_furtherParts (level : Nat) (ps : List (List Char)) :
    ps.length ≤ (furtherParts level ps).length := by
  induction ps with
  | nil => exact Nat.le_refl 0
  | cons p ps ih =>
    simp only [furtherParts, List.flatMap_cons, List.length_append, List.length_cons] at ih ⊢
    omega

theorem ends_margin (level : Nat) (rest : List Char) : Ends (margin level ++ rest) := by
  intro ch hch
  cases hch
  decide

theorem ends_furtherParts (level level' : Nat) (ps : List (List Char)) (rest : List Char) :
    Ends (furtherParts level ps ++ (margin level' ++ rest)) := by
  cases ps with
  | nil => exact ends_margin level' rest
  | cons p ps =>
    intro ch hch
    cases hch
    decide

theorem toList_intercalate_indented (level : Nat) (p : String) (ps : List String) :
    '\n' :: (",\n".intercalate
        ((p :: ps).map (String.ofList (List.replicate (2 * level) ' ') ++ ·))).toList =
      margin level ++ p.toList ++ furtherParts level (ps.map String.toList) := by
  induction ps generalizing p with
  | nil => simp [furtherParts, margin, String.toList_append]
  | cons q ps ih =>
    rw [List.map_cons, List.map_cons, String.intercalate_cons_cons, String.toList_append,
      String.toList_append, List.append_assoc]
    have h := ih q
    rw [List.map_cons] at h
    have hc : (",\n" : String).toList = [',', '\n'] := by decide
    rw [hc, String.toList_append, String.toList_ofList]
    simp only [furtherParts, List.map_cons, List.flatMap_cons, List.cons_append, List.nil_append,
      List.append_assoc, margin] at h ⊢
    rw [h]

/-- The lines that are written for a bracket. -/
theorem toList_block (opening closing : Char) (level : Nat) (parts : List String) :
    (block (String.ofList [opening]) (String.ofList [closing]) level parts).toList =
      bracketText opening closing level (parts.map String.toList) := by
  cases parts with
  | nil =>
    simp only [block, List.isEmpty_nil, if_true, String.toList_append, String.toList_ofList]
    rfl
  | cons p ps =>
    have h := toList_intercalate_indented (level + 1) p ps
    have hn : ("\n" : String).toList = ['\n'] := by decide
    simp only [block, List.isEmpty_cons, Bool.false_eq_true, if_false, String.toList_append, hn,
      String.toList_ofList, List.map_cons, bracketText]
    rw [← h]
    simp [margin]

/-! ## Lists -/

/-- The reader makes this of the text, behind any white space and before anything that does not go on
with it. -/
def ReadsAs (r : Reader α) (b : Nat) (p : List Char) (res : Option α) : Prop :=
  ∀ ws rest, Spaces ws → Ends rest → Gives r b (ws ++ (p ++ rest)) (res.map (·, rest))

/-- How an item starts: with nothing that could stand between items. -/
def Opens (p : List Char) : Prop :=
  ∃ ch rest, p = ch :: rest ∧ isSpace ch = false ∧ ch ≠ ']' ∧ ch ≠ ','

theorem Opens.head {p : List Char} (h : Opens p) (rest : List Char) :
    ∃ ch, (p ++ rest).head? = some ch ∧ isSpace ch = false ∧ ch ≠ ']' ∧ ch ≠ ',' := by
  obtain ⟨ch, tl, rfl, hs, hb, hc⟩ := h
  exact ⟨ch, rfl, hs, hb, hc⟩

theorem Opens.yields_peekToken {p : List Char} (h : Opens p) (b : Nat) {ws : List Char}
    (hws : Spaces ws) (rest : List Char) :
    Yields peekToken? b (ws ++ (p ++ rest)) (p ++ rest).head? (p ++ rest) := by
  refine Json.yields_peekToken b hws fun ch hch => ?_
  obtain ⟨ch', h', hs, -, -⟩ := h.head rest
  rw [h'] at hch
  cases hch
  exact hs

theorem yields_anotherItem_first (b : Nat) {ws p : List Char} (hws : Spaces ws) (hp : Opens p)
    (rest : List Char) : Yields (anotherItem true) b (ws ++ (p ++ rest)) true (p ++ rest) := by
  refine (hp.yields_peekToken b hws rest).bind ?_
  obtain ⟨ch, h, -, hb, hc⟩ := hp.head rest
  rw [h]
  split
  · next h' => cases h'; exact absurd rfl hb
  · next h' => cases h'
  · next h' => cases h'; exact absurd rfl hc
  · exact yields_pure b _ true

theorem yields_anotherItem_next (b : Nat) {ws p : List Char} (hws : Spaces ws) (hp : Opens p)
    (rest : List Char) :
    Yields (anotherItem false) b (',' :: (ws ++ (p ++ rest))) true (p ++ rest) := by
  refine (yields_peekToken_cons b spaces_nil rfl _).bind ?_
  refine (yields_skip b ',' _).bind ((hp.yields_peekToken b hws rest).bind ?_)
  obtain ⟨ch, h, -, hb, -⟩ := hp.head rest
  rw [h]
  split
  · next h' => cases h'; exact absurd rfl hb
  · exact yields_pure b _ true
  · next h' => cases h'

theorem yields_anotherItem_end (b : Nat) {ws : List Char} (hws : Spaces ws) (first : Bool)
    (rest : List Char) : Yields (anotherItem first) b (ws ++ ']' :: rest) false (']' :: rest) :=
  (yields_peekToken_cons b hws rfl rest).bind (yields_pure b _ false)

theorem yields_closeList (b : Nat) (rest : List Char) : Yields closeList b (']' :: rest) () rest :=
  (yields_peekToken_cons b spaces_nil rfl rest).bind (yields_skip b ']' rest)

theorem yields_stepsLeft (b : Nat) (inp : List Char) :
    Yields stepsLeft b inp (inp.length + 1) inp := by
  intro c hr hb
  subst hr
  exact ⟨c, rfl, rfl, hb⟩

variable {item : Reader α} {b : Nat} {text : ι → List Char} {res : ι → Option α}

/-- An item is read in front of what is collected, and then the others are. -/
theorem Gives.cons_item {x : ι} {xs : List ι} {k : List α → Reader (List α)} {inp mid out : List Char}
    (hx : Gives item b inp ((res x).map (·, mid)))
    (hrest : ∀ acc, Gives (k acc) b mid (((xs.mapM res).map fun ys => ys.reverse ++ acc).map (·, out)))
    (acc : List α) :
    Gives ((item >>= fun a => pure (a :: acc)) >>= k) b inp
      ((((x :: xs).mapM res).map fun ys => ys.reverse ++ acc).map (·, out)) := by
  rw [List.mapM_cons]
  cases hres : res x with
  | none =>
    rw [hres] at hx
    exact Fails.bind (Fails.bind hx)
  | some a =>
    rw [hres] at hx
    refine Yields.bind (Yields.bind hx (yields_pure b mid (a :: acc))) ?_
    have h := hrest (a :: acc)
    cases hys : xs.mapM res with
    | none =>
      rw [hys] at h
      exact h
    | some ys =>
      rw [hys] at h
      simpa using h

/-- Items behind the first are read one after the other, up to the first that is a fault. -/
theorem gives_further_items {xs : List ι} (hopens : ∀ x ∈ xs, Opens (text x))
    (hreads : ∀ x ∈ xs, ReadsAs item b (text x) (res x)) (level level' : Nat) (acc : List α)
    {steps : Nat} (hs : xs.length < steps) (rest : List Char) :
    Gives (items (fun acc => do return (← item) :: acc) steps false acc) b
      (furtherParts level (xs.map text) ++ (margin level' ++ ']' :: rest))
      (((xs.mapM res).map fun ys => ys.reverse ++ acc).map (·, ']' :: rest)) := by
  induction xs generalizing steps acc with
  | nil =>
    obtain ⟨k, rfl⟩ : ∃ k, steps = k + 1 := ⟨steps - 1, by simp at hs; omega⟩
    exact (yields_anotherItem_end b (spaces_margin level') false rest).bind (yields_pure b _ acc)
  | cons x xs ih =>
    obtain ⟨k, rfl⟩ : ∃ k, steps = k + 1 := ⟨steps - 1, by simp at hs; omega⟩
    have hlen : xs.length < k := by simpa using hs
    have htext : furtherParts level ((x :: xs).map text) ++ (margin level' ++ ']' :: rest) =
        ',' :: (margin level ++ (text x ++
          (furtherParts level (xs.map text) ++ (margin level' ++ ']' :: rest)))) := by
      simp [furtherParts]
    rw [htext, items]
    refine (yields_anotherItem_next b (spaces_margin level) (hopens x List.mem_cons_self) _).bind ?_
    rw [if_pos rfl]
    refine Gives.cons_item (hreads x List.mem_cons_self [] _ spaces_nil
      (ends_furtherParts level level' _ _)) (fun acc => ?_) acc
    exact ih (fun y hy => hopens y (List.mem_cons_of_mem _ hy))
      (fun y hy => hreads y (List.mem_cons_of_mem _ hy)) acc hlen

/-- All items of a list are read, from behind its opening bracket up to the closing one. -/
theorem gives_items {xs : List ι} (hopens : ∀ x ∈ xs, Opens (text x))
    (hreads : ∀ x ∈ xs, ReadsAs item b (text x) (res x)) {level : Nat} {rest inp : List Char}
    (htext : bracketText '[' ']' level (xs.map text) ++ rest = '[' :: inp) :
    Gives (itemsOf item) b inp ((xs.mapM res).map (·, ']' :: rest)) := by
  suffices hitems : Gives (items (fun acc => do return (← item) :: acc) (inp.length + 1) true []) b inp
      (((xs.mapM res).map List.reverse).map (·, ']' :: rest)) by
    have htwice : ((xs.mapM res).map List.reverse).map List.reverse = xs.mapM res := by
      cases xs.mapM res with
      | none => rfl
      | some ys => exact congrArg some (List.reverse_reverse ys)
    have h := hitems.bind_pure List.reverse
    rw [htwice] at h
    exact (yields_stepsLeft b inp).bind h
  cases xs with
  | nil =>
    cases htext
    exact (yields_anotherItem_end _ spaces_nil true rest).bind (yields_pure _ _ [])
  | cons x xs =>
    have hinp : inp = margin (level + 1) ++ (text x ++ (furtherParts (level + 1) (xs.map text) ++
        (margin level ++ ']' :: rest))) := by
      simpa [bracketText] using (List.cons.inj htext).2.symm
    have hlen : xs.length < inp.length := by
      have h := length_furtherParts (level + 1) (xs.map text)
      rw [List.length_map] at h
      rw [hinp]
      simp only [margin, List.length_append, List.length_cons]
      omega
    have hfurther := fun acc => gives_further_items (fun y hy => hopens y (List.mem_cons_of_mem _ hy))
      (fun y hy => hreads y (List.mem_cons_of_mem _ hy)) (level + 1) level acc hlen rest
    have h := Gives.cons_item (hreads x List.mem_cons_self [] _ spaces_nil
      (ends_furtherParts (level + 1) level (xs.map text) (']' :: rest))) hfurther []
    rw [items, hinp]
    refine (yields_anotherItem_first _ (spaces_margin _) (hopens x List.mem_cons_self) _).bind ?_
    rw [if_pos rfl, ← hinp]
    simpa using h

/-- A list gives what its items give, if the levels of nesting suffice for them. -/
theorem gives_list {xs : List ι} (hopens : ∀ x ∈ xs, Opens (text x))
    (hreads : 2 ≤ b → ∀ x ∈ xs, ReadsAs item (b - 1) (text x) (res x))
    (level : Nat) (rest : List Char) :
    Gives (bracketed closeList (itemsOf item)) b (bracketText '[' ']' level (xs.map text) ++ rest)
      ((if 2 ≤ b then xs.mapM res else none).map (·, rest)) := by
  obtain ⟨inp, htext⟩ := exists_bracketText '[' ']' level (xs.map text) rest
  rw [htext]
  exact Gives.bracketed (fun h2 => gives_items hopens (hreads h2) htext) (yields_closeList b rest)

/-! ## Tables -/

/-- The text of an entry. -/
def entryText (name : String) (value : List Char) : List Char :=
  '\"' :: (name.toList.flatMap escaped ++ '\"' :: ':' :: ' ' :: value)

theorem entryText_append (name : String) (value rest : List Char) :
    entryText name value ++ rest =
      '\"' :: (name.toList.flatMap escaped ++ '\"' :: (':' :: ' ' :: (value ++ rest))) := by
  simp [entryText]

theorem yields_anotherName_first (b : Nat) {ws : List Char} (hws : Spaces ws) (name : String)
    (value rest : List Char) :
    Yields (anotherName true) b (ws ++ (entryText name value ++ rest)) (some name)
      (':' :: ' ' :: (value ++ rest)) := by
  rw [entryText_append]
  refine (yields_peekToken_cons b hws rfl _).bind ((yields_skip b _ _).bind ?_)
  exact (yields_stringRest b name _).bind (yields_pure b _ _)

theorem yields_anotherName_next (b : Nat) {ws : List Char} (hws : Spaces ws) (name : String)
    (value rest : List Char) :
    Yields (anotherName false) b (',' :: (ws ++ (entryText name value ++ rest))) (some name)
      (':' :: ' ' :: (value ++ rest)) := by
  rw [entryText_append]
  refine (yields_peekToken_cons b spaces_nil rfl _).bind ((yields_skip b ',' _).bind ?_)
  refine (yields_peekToken_cons b hws rfl _).bind ((yields_skip b _ _).bind ?_)
  exact (yields_stringRest b name _).bind (yields_pure b _ _)

theorem yields_anotherName_end (b : Nat) {ws : List Char} (hws : Spaces ws) (first : Bool)
    (rest : List Char) :
    Yields (anotherName first) b (ws ++ '\x7d' :: rest) none ('\x7d' :: rest) :=
  (yields_peekToken_cons b hws rfl rest).bind (yields_pure b _ none)

theorem yields_closeTable (b : Nat) (rest : List Char) :
    Yields closeTable b ('\x7d' :: rest) () rest :=
  (yields_peekToken_cons b spaces_nil rfl rest).bind (yields_skip b _ rest)

theorem yields_colon (b : Nat) (rest : List Char) : Yields colon b (':' :: rest) () rest :=
  (yields_peekToken_cons b spaces_nil rfl rest).bind (yields_skip b _ rest)

variable {entry : String → σ → Reader σ} {value : ι → List Char} {step : σ → String × ι → Option σ}

/-- The reader of an entry, which comes to the colon behind the name, takes the step that the entry
stands for. -/
def Steps (entry : String → σ → Reader σ) (b : Nat) (value : ι → List Char)
    (step : σ → String × ι → Option σ) (e : String × ι) : Prop :=
  ∀ acc rest, Ends rest →
    Gives (entry e.1 acc) b (':' :: ' ' :: (value e.2 ++ rest)) ((step acc e).map (·, rest))

/-- The texts of entries. -/
def entryTexts (value : ι → List Char) (es : List (String × ι)) : List (List Char) :=
  es.map fun e => entryText e.1 (value e.2)

/-- Entries behind the first are folded over, up to the first that is a fault. -/
theorem gives_further_entries {es : List (String × ι)} (h : ∀ e ∈ es, Steps entry b value step e)
    (level level' : Nat) (acc : σ) {steps : Nat} (hs : es.length < steps) (rest : List Char) :
    Gives (entries entry steps false acc) b
      (furtherParts level (entryTexts value es) ++ (margin level' ++ '\x7d' :: rest))
      ((es.foldlM step acc).map (·, '\x7d' :: rest)) := by
  induction es generalizing steps acc with
  | nil =>
    obtain ⟨k, rfl⟩ : ∃ k, steps = k + 1 := ⟨steps - 1, by simp at hs; omega⟩
    exact (yields_anotherName_end b (spaces_margin level') false rest).bind (yields_pure b _ acc)
  | cons e es ih =>
    obtain ⟨k, rfl⟩ : ∃ k, steps = k + 1 := ⟨steps - 1, by simp at hs; omega⟩
    have hlen : es.length < k := by simpa using hs
    have htext : furtherParts level (entryTexts value (e :: es)) ++ (margin level' ++ '\x7d' :: rest) =
        ',' :: (margin level ++ (entryText e.1 (value e.2) ++
          (furtherParts level (entryTexts value es) ++ (margin level' ++ '\x7d' :: rest)))) := by
      simp [furtherParts, entryTexts]
    have he := h e List.mem_cons_self acc _
      (ends_furtherParts level level' (entryTexts value es) ('\x7d' :: rest))
    rw [htext, entries, List.foldlM_cons]
    refine (yields_anotherName_next b (spaces_margin level) e.1 _ _).bind ?_
    cases hstep : step acc e with
    | none =>
      rw [hstep] at he
      exact Fails.bind he
    | some acc' =>
      rw [hstep] at he
      exact Yields.bind he (ih (fun x hx => h x (List.mem_cons_of_mem _ hx)) acc' hlen)

/-- All entries of a table are folded over, from behind its opening bracket up to the closing one. -/
theorem gives_entries {es : List (String × ι)} (h : ∀ e ∈ es, Steps entry b value step e) (acc : σ)
    {level : Nat} {rest inp : List Char}
    (htext : bracketText '\x7b' '\x7d' level (entryTexts value es) ++ rest = '\x7b' :: inp) :
    Gives (do entries entry (← stepsLeft) true acc) b inp
      ((es.foldlM step acc).map (·, '\x7d' :: rest)) := by
  refine (yields_stepsLeft b inp).bind ?_
  cases es with
  | nil =>
    cases htext
    exact (yields_anotherName_end b spaces_nil true rest).bind (yields_pure b _ acc)
  | cons e es =>
    have hinp : inp = margin (level + 1) ++ (entryText e.1 (value e.2) ++
        (furtherParts (level + 1) (entryTexts value es) ++ (margin level ++ '\x7d' :: rest))) := by
      simpa [bracketText, entryTexts] using (List.cons.inj htext).2.symm
    have hlen : es.length < inp.length := by
      have h := length_furtherParts (level + 1) (entryTexts value es)
      rw [entryTexts, List.length_map] at h
      rw [hinp]
      simp only [margin, entryTexts, List.length_append, List.length_cons]
      omega
    have he := h e List.mem_cons_self acc _
      (ends_furtherParts (level + 1) level (entryTexts value es) ('\x7d' :: rest))
    rw [entries, List.foldlM_cons]
    nth_rewrite 2 [hinp]
    refine (yields_anotherName_first b (spaces_margin _) e.1 _ _).bind ?_
    cases hstep : step acc e with
    | none =>
      rw [hstep] at he
      exact Fails.bind he
    | some acc' =>
      rw [hstep] at he
      exact Yields.bind he (gives_further_entries (fun x hx => h x (List.mem_cons_of_mem _ hx))
        (level + 1) level acc' hlen rest)

/-- Collecting entries one in front of the other gives them in reverse. -/
theorem foldlM_entries (found : String × ι → Option α) (es : List (String × ι))
    (acc : List (String × α)) :
    es.foldlM (fun acc e => (found e).map fun a => (e.1, a) :: acc) acc =
      (es.mapM fun e => (found e).map (e.1, ·)).map fun as => as.reverse ++ acc := by
  induction es generalizing acc with
  | nil => rfl
  | cons e es ih =>
    rw [List.foldlM_cons, List.mapM_cons]
    cases found e with
    | none => rfl
    | some a =>
      change es.foldlM _ ((e.1, a) :: acc) = _
      rw [ih]
      cases es.mapM fun e => (found e).map (e.1, ·) with
      | none => rfl
      | some as => simp

/-- A value behind the colon of its entry. -/
theorem ReadsAs.behindColon {r : Reader α} {p : List Char} {res : Option α} (h : ReadsAs r b p res)
    (rest : List Char) (hrest : Ends rest) :
    Gives (do colon; r) b (':' :: ' ' :: (p ++ rest)) (res.map (·, rest)) :=
  (yields_colon b _).bind (h [' '] rest spaces_single hrest)

/-- A table gives what the values of its entries give, if the levels of nesting suffice for them. -/
theorem gives_table {es : List (String × ι)} {found : String × ι → Option α}
    (hreads : 2 ≤ b → ∀ e ∈ es, ReadsAs item (b - 1) (value e.2) (found e))
    (level : Nat) (rest : List Char) :
    Gives (bracketed closeTable (entriesOf item)) b
      (bracketText '\x7b' '\x7d' level (entryTexts value es) ++ rest)
      ((if 2 ≤ b then es.mapM fun e => (found e).map (e.1, ·) else none).map (·, rest)) := by
  obtain ⟨inp, htext⟩ := exists_bracketText '\x7b' '\x7d' level (entryTexts value es) rest
  rw [htext]
  refine Gives.bracketed (fun h2 => ?_) (yields_closeTable b rest)
  have hsteps : ∀ e ∈ es, Steps (fun name acc => do colon; return (name, ← item) :: acc) (b - 1) value
      (fun acc e => (found e).map fun a => (e.1, a) :: acc) e := by
    intro e he acc rest hrest
    have h := ((hreads h2 e he).behindColon rest hrest).bind_pure fun a => (e.1, a) :: acc
    rwa [bind_assoc] at h
  have h := (gives_entries hsteps [] htext).bind_pure List.reverse
  have htwice : ((es.foldlM (fun acc e => (found e).map fun a => (e.1, a) :: acc) []).map
      List.reverse) = es.mapM fun e => (found e).map (e.1, ·) := by
    rw [foldlM_entries]
    cases es.mapM fun e => (found e).map (e.1, ·) with
    | none => rfl
    | some as => simp
  rw [htwice, bind_assoc] at h
  exact h

end PluginChain.Json
