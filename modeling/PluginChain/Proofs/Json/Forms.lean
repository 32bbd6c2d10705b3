import PluginChain.Proofs.Json.Sifting

/-!
# Values taken for one of several forms

A reader that tries several forms reads a value whole before it looks at any of them, so that it goes by
the reader of any value at all (`sifts_formsOf`).  Where nothing may stand in place of the value, it does so
still (`Sifts.maybe`): white space in front of a value makes no difference, and no value but `null` is read
as nothing.

`Shape.formsOf_eq_ok_iff` says of the entries of a table what form they have: the first one whose names are
exactly those of the entries, each once, and whose values are as it asks.
-/

set_option autoImplicit false

namespace PluginChain

namespace Json

open Operation

variable {c c' : Cursor}

/-! ## White space in front of a value -/

theorem head?_skipWhile_go (p : Char → Bool) (rest : List Char) (c : Cursor) (hc : c.rest = rest) :
    ∀ ch ∈ (Cursor.skipWhile.go p c rest).rest.head?, p ch = false := by
  induction rest generalizing c with
  | nil => simp [Cursor.skipWhile.go, hc]
  | cons ch rest ih =>
    rw [Cursor.skipWhile.go]
    by_cases hp : p ch
    · rw [if_pos hp]
      exact ih _ (rest_past c ch rest)
    · simp [hp, hc]

/-- What was passed over does not come again. -/
theorem skipWhile_skipWhile (p : Char → Bool) (c : Cursor) : (c.skipWhile p).skipWhile p = c.skipWhile p := by
  have hhead := head?_skipWhile_go p c.rest c rfl
  change ∀ ch ∈ (c.skipWhile p).rest.head?, p ch = false at hhead
  cases hrest : (c.skipWhile p).rest with
  | nil => rw [Cursor.skipWhile, hrest, Cursor.skipWhile.go]
  | cons ch rest =>
    have hp : p ch = false := hhead ch (by rw [hrest]; rfl)
    rw [Cursor.skipWhile, hrest, Cursor.skipWhile.go, hp]
    rfl

theorem peekToken?_eq (c : Cursor) :
    peekToken? c = .ok (c.skipWhile isSpace).rest.head? (c.skipWhile isSpace) := rfl

/-- The same comes from behind the white space. -/
theorem peekToken?_skipWhile (c : Cursor) : peekToken? (c.skipWhile isSpace) = peekToken? c := by
  rw [peekToken?_eq, peekToken?_eq, skipWhile_skipWhile]

theorem budget_skipWhile (p : Char → Bool) (c : Cursor) : (c.skipWhile p).budget = c.budget := by
  have hgo : ∀ (rest : List Char) (c : Cursor), (Cursor.skipWhile.go p c rest).budget = c.budget := by
    intro rest
    induction rest with
    | nil => exact fun c => rfl
    | cons ch rest ih =>
      intro c
      rw [Cursor.skipWhile.go]
      split
      · rw [ih, budget_past]
      · rfl
  exact hgo c.rest c

/-- A reader goes on from what its first part makes of the text. -/
theorem bind_eq_of_eq {α β : Type} {f : Reader α} (h : f c = f c') (g : α → Reader β) :
    (f >>= g) c = (f >>= g) c' := by
  change EStateM.bind f g c = EStateM.bind f g c'
  rw [EStateM.bind, EStateM.bind, h]

theorem peekValue_skipWhile (c : Cursor) : peekValue (c.skipWhile isSpace) = peekValue c :=
  bind_eq_of_eq (peekToken?_skipWhile c) _

theorem anyValue_skipWhile (c : Cursor) : anyValue (c.skipWhile isSpace) = anyValue c := by
  change whole ((c.skipWhile isSpace).budget + 1) (c.skipWhile isSpace) = whole (c.budget + 1) c
  rw [budget_skipWhile]
  exact bind_eq_of_eq (peekValue_skipWhile c) _

/-- No value but `null` is read as nothing. -/
theorem ne_null_of_anyValue {d : Data} (h : anyValue c = .ok d c')
    (hnext : (c.skipWhile isSpace).rest.head? ≠ some 'n') : d ≠ .null := by
  change whole (c.budget + 1) c = .ok d c' at h
  obtain ⟨ch, c₁, hpeek, h⟩ := bind_eq_ok h
  have hch : (c.skipWhile isSpace).rest.head? = some ch := by
    obtain ⟨next?, c₀, hnext, hpeek⟩ := bind_eq_ok hpeek
    rw [peekToken?_eq] at hnext
    cases hnext
    cases hhead : (c.skipWhile isSpace).rest.head? with
    | none =>
      rw [hhead] at hpeek
      exact absurd hpeek (fruitless_failNext _ _ _ _)
    | some ch' =>
      rw [hhead] at hpeek
      cases hpeek
      rfl
  rw [hch] at hnext
  revert h
  refine (?_ : GivesOnly (· ≠ .null) _) c₁ d c'
  split
  · exact absurd rfl hnext
  · exact .behind _ fun _ => .behind _ fun _ => .pure nofun
  · exact .behind _ fun _ => .behind _ fun _ => .pure nofun
  · exact .behind _ fun _ => .behind _ fun n => .pure (by cases n <;> exact nofun)
  · exact .behind _ fun _ => .behind _ fun _ => .pure nofun
  · exact .behind _ fun _ => .pure nofun
  · exact .behind _ fun _ => .pure nofun
  · split
    · exact .behind _ fun n => .pure (by cases n <;> exact nofun)
    · exact .of_fruitless (fruitless_failNext _)

/-! ## Readers that go by the reader of any value -/

/-- What becomes of `null` behind its first letter. -/
def nullTail : Reader Data := do
  skip
  word ['u', 'l', 'l']
  return .null

theorem eq_null_of_nullTail {d : Data} (h : nullTail c = .ok d c') : d = .null := by
  obtain ⟨_, c₁, -, h⟩ := bind_eq_ok h
  obtain ⟨_, c₂, -, h⟩ := bind_eq_ok h
  cases h
  rfl

theorem anyValue_of_n (hnext : (c.skipWhile isSpace).rest.head? = some 'n') :
    anyValue c = nullTail (c.skipWhile isSpace) := by
  have hpeek : peekValue c = .ok 'n' (c.skipWhile isSpace) := by
    refine (bind_of_ok (peekToken?_eq c) _).trans ?_
    rw [hnext]
    rfl
  exact bind_of_ok hpeek _

/-- Nothing for nothing, and what a relation asks for any other value. -/
def OrNull (R : Data → Data → Prop) (d d' : Data) : Prop := d = .null ∧ d' = .null ∨ d ≠ .null ∧ R d d'

theorem Sifts.maybe {R : Data → Data → Prop} {inner : Shape} (h : Sifts R anyValue (readerOf inner)) :
    Sifts (OrNull R) anyValue (readerOf (.maybe inner)) := by
  intro c d' c'
  by_cases hnext : (c.skipWhile isSpace).rest.head? = some 'n'
  · have hmaybe : readerOf (.maybe inner) c = nullTail (c.skipWhile isSpace) := by
      rw [readerOf]
      refine (bind_of_ok (peekToken?_eq c) _).trans ?_
      rw [hnext]
      rfl
    rw [hmaybe, anyValue_of_n hnext]
    constructor
    · intro hd'
      exact ⟨d', hd', .inl ⟨eq_null_of_nullTail hd', eq_null_of_nullTail hd'⟩⟩
    · rintro ⟨d, hd, hor⟩
      obtain rfl := eq_null_of_nullTail hd
      rcases hor with ⟨-, rfl⟩ | ⟨hne, -⟩
      · exact hd
      · exact absurd rfl hne
  · have hmaybe : readerOf (.maybe inner) c = readerOf inner (c.skipWhile isSpace) := by
      rw [readerOf]
      refine (bind_of_ok (peekToken?_eq c) _).trans (congrFun ?_ _)
      split
      · next h' => exact absurd h' hnext
      · rfl
    rw [hmaybe, h, anyValue_skipWhile]
    constructor
    · rintro ⟨d, hd, hR⟩
      exact ⟨d, hd, .inr ⟨ne_null_of_anyValue hd hnext, hR⟩⟩
    · rintro ⟨d, hd, ⟨rfl, -⟩ | ⟨-, hR⟩⟩
      · exact absurd rfl (ne_null_of_anyValue hd hnext)
      · exact ⟨d, hd, hR⟩

/-- Data that has one of several forms, and what is made of it. -/
def HasForm (name : String) (forms : List (List (String × Leaf))) (d d' : Data) : Prop :=
  ∃ es, d = .table es ∧ Shape.formsOf foundOf name forms (wholeEntries es) = .ok d'

theorem sifts_formsOf (name : String) (forms : List (List (String × Leaf))) :
    Sifts (HasForm name forms) anyValue (formsOf name forms) := by
  intro c d' c'
  constructor
  · intro hd'
    obtain ⟨d, c₁, hd, hd'⟩ := bind_eq_ok hd'
    cases d with
    | table es =>
      dsimp only at hd'
      cases hform : Shape.formsOf foundOf name forms (wholeEntries es) with
      | ok d'' =>
        rw [hform] at hd'
        cases hd'
        exact ⟨_, hd, es, rfl, hform⟩
      | error m =>
        rw [hform] at hd'
        exact absurd hd' (fruitless_failPlaceless _ _ _ _)
    | _ => exact absurd hd' (fruitless_failPlaceless _ _ _ _)
  · rintro ⟨_, hd, es, rfl, hform⟩
    refine (bind_of_ok hd _).trans ?_
    dsimp only
    rw [hform]
    rfl

end Json

/-! ## The names of a table that has a form -/

namespace Shape

variable {found : Data → Found} {fields : List (String × Leaf)}

/-- Known fields that are all found are found in entries that come once each. -/
theorem names_of_fieldsOf {es got vs : List (String × Data)}
    (hknown : ∀ e ∈ es, (fields.find? (·.1 = e.1)).isSome)
    (h : fieldsOf found fields (Json.wholeEntries es) got = .ok vs) :
    (Entries.names es).Nodup ∧ (∀ n ∈ Entries.names es, n ∉ Entries.names got) ∧
      ∀ n ∈ Entries.names fields, n ∈ Entries.names es ∨ n ∈ Entries.names got := by
  induction es generalizing got with
  | nil =>
    refine ⟨List.nodup_nil, fun _ => nofun, fun n hn => .inr ?_⟩
    obtain ⟨f, hf, rfl⟩ := List.mem_map.1 hn
    obtain ⟨y, hy⟩ := exists_ok_of_mapM h f hf
    rw [← Entries.isSome_get?_iff]
    cases hget : Entries.get? f.1 got with
    | some d => rfl
    | none => simp [hget] at hy
  | cons e es ih =>
    obtain ⟨n, d⟩ := e
    obtain ⟨hfirst, hrest⟩ := List.forall_mem_cons.1 hknown
    obtain ⟨⟨m, leaf⟩, hfield⟩ := Option.isSome_iff_exists.1 hfirst
    obtain rfl : m = n := by simpa using List.find?_some hfield
    simp only [Json.wholeEntries, List.map_cons, fieldsOf, knownField, hfield, bind, Except.bind] at h
    by_cases hnew : (Entries.get? m got).isSome
    · simp [hnew, throw, throwThe, MonadExceptOf.throw] at h
    · cases hv : leaf.accept found (.ok d) with
      | error why => simp [hnew, hv] at h
      | ok v =>
        simp only [hnew, Bool.false_eq_true, if_false, hv] at h
        obtain ⟨hnodup, hdisjoint, hall⟩ := ih hrest h
        rw [Entries.isSome_get?_iff] at hnew
        change ∀ n ∈ _, n ∉ m :: Entries.names got at hdisjoint
        change ∀ n ∈ _, _ ∨ n ∈ m :: Entries.names got at hall
        simp only [List.mem_cons, not_or] at hdisjoint hall
        refine ⟨List.nodup_cons.2 ⟨fun hm => (hdisjoint m hm).1 rfl, hnodup⟩,
          List.forall_mem_cons.2 ⟨hnew, fun n hn => (hdisjoint n hn).2⟩, fun n hn => ?_⟩
        change n ∈ m :: Entries.names es ∨ _
        rcases hall n hn with hmem | rfl | hmem
        · exact .inl (List.mem_cons_of_mem _ hmem)
        · exact .inl List.mem_cons_self
        · exact .inr hmem

/-- **A table of a form has exactly the names of the form, each once.** -/
theorem names_perm_of_formOf? {es : List (String × Data)} {d : Data} (hfields : (Entries.names fields).Nodup)
    (h : formOf? found (Json.wholeEntries es) fields = some d) :
    (Entries.names es).Perm (Entries.names fields) := by
  rw [formOf?] at h
  split at h
  · next hall =>
    have hknown : ∀ e ∈ es, (fields.find? (·.1 = e.1)).isSome := by
      simpa [Json.wholeEntries, knownField] using hall
    split at h
    · next vs hvs =>
      obtain ⟨hnodup, -, hnames⟩ := names_of_fieldsOf hknown hvs
      refine (List.perm_ext_iff_of_nodup hnodup hfields).2 fun n => ⟨fun hn => ?_, fun hn => ?_⟩
      · obtain ⟨e, he, rfl⟩ := List.mem_map.1 hn
        obtain ⟨f, hf⟩ := Option.isSome_iff_exists.1 (hknown e he)
        exact List.mem_map.2 ⟨f, List.mem_of_find?_eq_some hf, by simpa using List.find?_some hf⟩
      · exact (hnames n hn).resolve_right fun hn => nomatch hn
    · cases h
  · cases h

/-- A table that has one of several forms has the names of one of them. -/
theorem names_perm_of_formsOf {name : String} {forms : List (List (String × Leaf))}
    {es : List (String × Data)} {d : Data} (hforms : ∀ form ∈ forms, (Entries.names form).Nodup)
    (h : formsOf found name forms (Json.wholeEntries es) = .ok d) :
    ∃ form ∈ forms, (Entries.names es).Perm (Entries.names form) := by
  rw [formsOf] at h
  split at h
  · next d' hd' =>
    obtain ⟨form, hmem, hform⟩ := List.exists_of_findSome?_eq_some hd'
    exact ⟨form, hmem, names_perm_of_formOf? (hforms form hmem) hform⟩
  · cases h

end Shape

end PluginChain
