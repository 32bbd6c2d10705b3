import PluginChain.Proofs.Json.Shape
import PluginChain.Proofs.Tree
import PluginChain.Proofs.Yaml.Reading

/-!
# Trees are read off their events

`Spells d events` says that the events are those of the tree `d`: scalars without tags that mean what
stands there, and collections around the events of their parts.  Which scalars a writer chooses for a
value, and how it lays them out, does not matter.

`reads_of_normalForm` says that a tree with a shape is read, by the shape, as its normal form, and that
unknown fields of records are passed over.  It is about the shapes of documents that are written in YAML: a
table of one entry is a tag there and not a table, so that the two shapes which are told by a tag are left
out (`Shape.isTagless`).
-/

set_option autoImplicit false

namespace PluginChain

namespace Yaml

variable {doc : Document}

/-! ## The events of a tree -/

/-- A scalar of this meaning is this data.  A natural number is written without a sign. -/
inductive Meaning.Is (s : String) : Meaning → Data → Prop
  | null : Is s .null .null
  | flag (b : Bool) : Is s (.flag b) (.flag b)
  | int {n : Int} (hfits : fits64 n = true) (hsign : 0 ≤ n → natural? s = some n.toNat) :
    Is s (.int n) (.int n)
  | float {x : Float} (hfinite : (x.isNaN || x.isInf) = false) : Is s (.float x) (.float x)
  | text : Is s (.text s) (.text s)

/-- The name of an entry: a scalar that means the text. -/
structure Name where
  style : Style
  text : String
  means : Meaning.ofScalar none style text = .ok (.text text)

/-- The event of a name. -/
def Name.event (n : Name) : Node := .scalar none n.style n.text

/-- These are the events of the tree. -/
inductive Spells : Data → List Node → Prop
  | scalar {d : Data} {m : Meaning} {style : Style} {s : String}
    (means : Meaning.ofScalar none style s = .ok m) (is : m.Is s d) : Spells d [.scalar none style s]
  | list {ps : List (Data × List Node)} (items : ∀ p ∈ ps, Spells p.1 p.2) :
    Spells (.list (ps.map Prod.fst)) (.sequenceStart none :: (ps.flatMap Prod.snd ++ [.sequenceEnd]))
  | table {ps : List (Name × Data × List Node)} (entries : ∀ p ∈ ps, Spells p.2.1 p.2.2) :
    Spells (.table (ps.map fun p => (p.1.text, p.2.1)))
      (.mappingStart none :: (ps.flatMap (fun p => p.1.event :: p.2.2) ++ [.mappingEnd]))

theorem Spells.opens {d : Data} {events : List Node} (h : Spells d events) : Opens events := by
  cases h with
  | scalar => exact ⟨_, _, rfl, .scalar _ _ _⟩
  | list => exact ⟨_, _, rfl, .sequence _⟩
  | table => exact ⟨_, _, rfl, .mapping _⟩

/-- A plain scalar that is nothing, no flag and no number. -/
def IsWord (s : String) : Prop :=
  (s.isEmpty || isNull s) = false ∧ flag? s = none ∧ int? s = none ∧
    (isZeroPadded s.toList = true ∨ (float? s).isNone = true)

instance (s : String) : Decidable (IsWord s) := inferInstanceAs (Decidable (_ ∧ _ ∧ _ ∧ _))

/-- A word means its own text. -/
theorem IsWord.means {s : String} (h : IsWord s) : Meaning.ofScalar none .plain s = .ok (.text s) := by
  obtain ⟨hnull, hflag, hint, hfloat⟩ := h
  have hnumber : (if isZeroPadded s.toList then none else float? s) = none := by
    split
    · rfl
    · next hpadded => exact Option.isNone_iff_eq_none.1 (hfloat.resolve_left hpadded)
  simp only [Meaning.ofScalar, if_true, Meaning.ofPlain, hnull, hflag, hint, hnumber,
    Bool.false_eq_true, if_false]

/-- A word as the name of an entry. -/
def Name.ofWord (s : String) (h : IsWord s) : Name := ⟨.plain, s, h.means⟩

theorem spells_word {s : String} (h : IsWord s) : Spells (.text s) [.scalar none .plain s] :=
  .scalar h.means .text

theorem opens_entry (n : Name) (events : List Node) : Opens (n.event :: events) :=
  ⟨_, _, rfl, .scalar _ _ _⟩

/-! ## Passing over a tree -/

/-- How many collections are open behind an event. -/
def openBehind (isOpen : Nat) : Node → Nat
  | .sequenceStart _ | .mappingStart _ => isOpen + 1
  | .sequenceEnd | .mappingEnd => isOpen - 1
  | _ => isOpen

theorem skipValue_succ (steps isOpen : Nat) :
    skipValue (steps + 1) isOpen =
      next >>= fun p =>
        if openBehind isOpen p.1 = 0 then pure () else skipValue steps (openBehind isOpen p.1) := rfl

theorem yields_skip_last {isOpen : Nat} {n : Node} (h : openBehind isOpen n = 0) (steps : Nat)
    (doc : Document) (rest : List Node) : Yields (skipValue (steps + 1) isOpen) doc (n :: rest) () rest := by
  rw [skipValue_succ]
  refine yields_next_bind fun mark => ?_
  dsimp only
  rw [if_pos h]
  exact yields_pure doc rest ()

theorem yields_skip_more {isOpen j steps : Nat} {n : Node} (hopen : openBehind isOpen n = j + 1)
    {tl out : List Node} (h : Yields (skipValue steps (j + 1)) doc tl () out) :
    Yields (skipValue (steps + 1) isOpen) doc (n :: tl) () out := by
  rw [skipValue_succ]
  refine yields_next_bind fun mark => ?_
  dsimp only
  rw [if_neg (by omega), hopen]
  exact h

/-- Inside a collection, the events are passed over. -/
structure Skips (events : List Node) : Prop where
  inside : ∀ {doc : Document} {steps isOpen : Nat} {rest out : List Node},
    Yields (skipValue steps (isOpen + 1)) doc rest () out →
      Yields (skipValue (events.length + steps) (isOpen + 1)) doc (events ++ rest) () out

theorem skips_nil : Skips [] := by
  refine ⟨fun {doc steps isOpen rest out} h => ?_⟩
  rwa [List.length_nil, Nat.zero_add]

theorem Skips.append {events events' : List Node} (h : Skips events) (h' : Skips events') :
    Skips (events ++ events') := by
  refine ⟨fun {doc steps isOpen rest out} hrest => ?_⟩
  rw [List.length_append, Nat.add_assoc, List.append_assoc]
  exact h.inside (h'.inside hrest)

theorem skips_flatMap {ι : Type} {text : ι → List Node} {xs : List ι} (h : ∀ x ∈ xs, Skips (text x)) :
    Skips (xs.flatMap text) := by
  induction xs with
  | nil => exact skips_nil
  | cons x xs ih =>
    rw [List.flatMap_cons]
    exact (h x List.mem_cons_self).append (ih fun y hy => h y (List.mem_cons_of_mem _ hy))

theorem skips_scalar (tag : Option String) (style : Style) (s : String) : Skips [.scalar tag style s] := by
  refine ⟨fun {doc steps isOpen rest out} h => ?_⟩
  rw [List.length_singleton, Nat.add_comm, List.singleton_append]
  exact yields_skip_more rfl h

/-- A collection is passed over with its brackets. -/
theorem Skips.brackets {first last : Node} {events : List Node} (h : Skips events)
    (hfirst : ∀ k, openBehind k first = k + 1) {steps isOpen : Nat} {rest out : List Node}
    (hrest : Yields (skipValue (steps + 1) (isOpen + 1)) doc (last :: rest) () out) :
    Yields (skipValue ((first :: (events ++ [last])).length + steps) isOpen) doc
      (first :: (events ++ [last]) ++ rest) () out := by
  have hlength : (first :: (events ++ [last])).length + steps = events.length + (steps + 1) + 1 := by
    rw [List.length_cons, List.length_append, List.length_singleton]
    omega
  rw [hlength, List.cons_append, List.append_assoc, List.singleton_append]
  exact yields_skip_more (hfirst isOpen) (h.inside hrest)

theorem Spells.skips {d : Data} {events : List Node} (h : Spells d events) : Skips events := by
  induction h with
  | scalar => exact skips_scalar _ _ _
  | list items ih =>
    exact ⟨fun hrest => (skips_flatMap ih).brackets (fun _ => rfl) (yields_skip_more rfl hrest)⟩
  | table entries ih =>
    refine ⟨fun hrest => (skips_flatMap fun p hp => ?_).brackets (fun _ => rfl) (yields_skip_more rfl hrest)⟩
    exact (skips_scalar none p.1.style p.1.text).append (ih p hp)

/-- A value that nothing asks for is passed over. -/
theorem yields_skipValue {d : Data} {events : List Node} (h : Spells d events) {steps : Nat}
    (hsteps : events.length < steps) (doc : Document) (rest : List Node) :
    Yields (skipValue steps 0) doc (events ++ rest) () rest := by
  obtain ⟨k, rfl⟩ : ∃ k, steps = events.length + k := ⟨steps - events.length, by omega⟩
  cases h with
  | scalar =>
    rw [List.length_singleton, Nat.add_comm]
    exact yields_skip_last rfl k doc rest
  | list items =>
    exact (skips_flatMap fun p hp => (items p hp).skips).brackets (fun _ => rfl)
      (yields_skip_last rfl k doc rest)
  | table entries =>
    refine (skips_flatMap fun p hp => ?_).brackets (fun _ => rfl) (yields_skip_last rfl k doc rest)
    exact (skips_scalar none p.1.style p.1.text).append (entries p hp).skips

/-! ## Names and texts -/

theorem yields_textOf (path : Path) (expected : String) (tag : Option String) (style : Style) (s : String)
    (rest : List Node) : Yields (textOf path expected) doc (.scalar tag style s :: rest) s rest :=
  yields_node (.scalar _ _ _) path fun _ => yields_pure doc rest s

theorem yields_scalar (mode : Mode) {m : Meaning} {d : Data} {style : Style} {s : String}
    (means : Meaning.ofScalar none style s = .ok m) (is : m.Is s d) (levels : Nat) (isChosen : Bool)
    (path : Path) (mark : Mark) (rest : List Node) :
    Yields (valueFrom mode levels isChosen path (.scalar none style s) mark) doc rest (.ok d) rest := by
  have hdata : Yields (scalarData mode m) doc rest d rest := by
    cases is with
    | int hfits hsign =>
      simp only [scalarData, if_pos hfits]
      exact yields_pure doc rest _
    | float hfinite =>
      simp only [scalarData, hfinite, Bool.false_eq_true, if_false]
      exact yields_pure doc rest _
    | _ => exact yields_pure doc rest _
  have hmeans : Meaning.ofScalar (if isChosen then none else none) style s = .ok m := by
    rw [ite_self, means]
  unfold valueFrom
  exact (yields_ofExcept doc rest hmeans).bind (hdata.map Except.ok)

/-! ## Values of any kind -/

theorem mapM_id_ok (xs : List Data) : (xs.map (Except.ok : Data → Whole)).mapM id = .ok xs := by
  induction xs with
  | nil => rfl
  | cons x xs ih =>
    rw [List.map_cons, List.mapM_cons, ih]
    rfl

theorem mapM_wholeEntries {f : EntryName × Whole → Except Mismatch (String × Data)}
    (hf : ∀ name d, f (.text name, .ok d) = .ok (name, d)) (es : List (String × Data)) :
    (Json.wholeEntries es).mapM f = .ok es := by
  induction es with
  | nil => rfl
  | cons e es ih =>
    change List.mapM f ((.text e.1, .ok e.2) :: Json.wholeEntries es) = _
    rw [List.mapM_cons, hf, ih]
    rfl

theorem map_entries_eq (ps : List (Name × Data × List Node)) :
    (ps.map fun p => ((.text p.1.text, .ok p.2.1) : EntryName × Whole)) =
      Json.wholeEntries (ps.map fun p => (p.1.text, p.2.1)) := by
  rw [Json.wholeEntries, List.map_map]
  rfl

theorem wholeTable_wholeEntries (es : List (String × Data)) :
    wholeTable (Json.wholeEntries es) = .ok (.table es) := by
  unfold wholeTable
  rw [mapM_wholeEntries fun name d => rfl]
  rfl

theorem yields_entryName (n : Name) (levels : Nat) (path : Path) (rest : List Node) :
    Yields (entryName <$> value .buffered levels false path) doc (n.event :: rest) (.text n.text) rest :=
  (yields_node (.scalar _ _ _) path fun mark =>
    yields_scalar .buffered n.means .text levels false path mark rest).map entryName

theorem valueFrom_sequence (mode : Mode) (k : Nat) (path : Path) (mark : Mark) :
    valueFrom mode (k + 1) false path (.sequenceStart none) mark = do
      let xs ← itemsOf path fun path => node path (valueFrom mode k false path)
      return .list <$> xs.mapM id := by
  rw [valueFrom]
  rfl

/-- How an entry is read of a mapping that is read whole. -/
def wholeEntry (mode : Mode) (k : Nat) (path inner : Path) (es : List (EntryName × Whole)) :
    Reader (List (EntryName × Whole)) := do
  let name ← match mode with
    | .direct => .text <$> textOf path (if es.isEmpty then "a string key" else "a string")
    | .buffered => entryName <$> node path (valueFrom .buffered k false path)
  return (name, ← node inner (valueFrom mode k false inner)) :: es

theorem valueFrom_mapping (mode : Mode) (k : Nat) (path : Path) (mark : Mark) :
    valueFrom mode (k + 1) false path (.mappingStart none) mark = do
      let es ← entries path (wholeEntry mode k path) (← stepsLeft) []
      return wholeTable es.reverse := by
  rw [valueFrom]
  rfl

theorem yields_wholeEntry (n : Name) (mode : Mode) (k : Nat) (path : Path) {inner : Path} {d : Data}
    {inp out : List Node} (h : Yields (node inner (valueFrom mode k false inner)) doc inp (.ok d) out)
    (es : List (EntryName × Whole)) :
    Yields (wholeEntry mode k path inner es) doc (n.event :: inp) ((.text n.text, .ok d) :: es) out := by
  have hboth : Yields (do return (EntryName.text n.text, ← node inner (valueFrom mode k false inner)) :: es)
      doc inp ((.text n.text, .ok d) :: es) out := h.bind (yields_pure doc out _)
  cases mode with
  | direct => exact ((yields_textOf path _ none n.style n.text inp).map EntryName.text).bind hboth
  | buffered => exact (yields_entryName n k path inp).bind hboth

/-- A tree is read whole as it is, if the levels suffice. -/
theorem yields_value (mode : Mode) {d : Data} {events : List Node} (h : Spells d events) :
    ∀ levels, d.depth ≤ levels → ∀ path rest,
      Yields (value mode levels false path) doc (events ++ rest) (.ok d) rest := by
  induction h with
  | scalar means is =>
    intro levels _ path rest
    exact yields_node (.scalar _ _ _) path fun mark => yields_scalar mode means is levels false path mark rest
  | @list ps hspells ih =>
    intro levels hlevels path rest
    obtain ⟨h2, hitems⟩ := Data.depth_list_lt_iff.1 (Nat.lt_succ_of_le hlevels)
    obtain ⟨k, rfl⟩ : ∃ k, levels = k + 1 := ⟨levels - 1, by omega⟩
    rw [List.cons_append, List.append_assoc]
    refine yields_node (.sequence none) path fun mark => ?_
    have hparts : Yields (itemsOf path fun path => node path (valueFrom mode k false path)) doc
        (ps.flatMap Prod.snd ++ .sequenceEnd :: rest) (ps.map fun p => (.ok p.1 : Whole)) rest :=
      yields_itemsOf (fun p hp => (hspells p hp).opens)
        (fun p hp path rest => ih p hp k (Nat.le_of_lt_succ (hitems _ (List.mem_map_of_mem hp))) path rest)
        rest
    have hwhole : Data.list <$> (ps.map fun p => (.ok p.1 : Whole)).mapM id =
        .ok (.list (ps.map Prod.fst)) := by
      have h := mapM_id_ok (ps.map Prod.fst)
      rw [List.map_map] at h
      exact congrArg (Data.list <$> ·) h
    rw [valueFrom_sequence]
    refine hparts.bind ?_
    rw [hwhole]
    exact yields_pure doc rest _
  | @table ps hspells ih =>
    intro levels hlevels path rest
    obtain ⟨h2, hvalues⟩ := Data.depth_table_lt_iff.1 (Nat.lt_succ_of_le hlevels)
    obtain ⟨k, rfl⟩ : ∃ k, levels = k + 1 := ⟨levels - 1, by omega⟩
    rw [List.cons_append, List.append_assoc]
    refine yields_node (.mapping none) path fun mark => ?_
    have hvalue : ∀ p ∈ ps, ∀ inner rest,
        Yields (node inner (valueFrom mode k false inner)) doc (p.2.2 ++ rest) (.ok p.2.1) rest :=
      fun p hp inner rest => ih p hp k
        (Nat.le_of_lt_succ (hvalues _ (List.mem_map_of_mem (f := fun p => (p.1.text, p.2.1)) hp))) inner rest
    have hparts : Yields (do entries path (wholeEntry mode k path) (← stepsLeft) []) doc
        (ps.flatMap (fun p => p.1.event :: p.2.2) ++ .mappingEnd :: rest)
        (ps.foldl (fun es p => (.text p.1.text, .ok p.2.1) :: es) []) rest :=
      yields_allEntries (fun p _ => opens_entry p.1 p.2.2) []
        (fun before p later hsplit inner rest =>
          yields_wholeEntry p.1 mode k path (hvalue p (by rw [hsplit]; simp) inner rest) _) rest
    rw [List.foldl_flip_cons_eq_append, List.append_nil, map_entries_eq] at hparts
    have hdone := hparts.map fun es => wholeTable es.reverse
    rw [List.reverse_reverse, wholeTable_wholeEntries, ← bind_pure_comp, bind_assoc] at hdone
    rw [valueFrom_mapping]
    exact hdone

/-! ## Shapes -/

/-- The reader makes `d'` of the events of `d` where the levels suffice for `d`. -/
def Reads (r : Nat → Path → Reader Data) (d d' : Data) : Prop :=
  ∀ {events}, Spells d events → ∀ levels, d.depth ≤ levels → ∀ doc path rest,
    Yields (r levels path) doc (events ++ rest) d' rest

theorem reads_any (d : Data) : Reads (fun levels => readerOf .any levels false) d d.settle := by
  intro events h levels hlevels doc path rest
  exact (yields_value .direct h levels hlevels path rest).bind
    ((yields_ofExcept doc rest rfl).bind (yields_pure doc rest _))

theorem reads_text (s : String) : Reads (fun levels => readerOf .text levels false) (.text s) (.text s) := by
  intro events h levels _ doc path rest
  cases h with
  | scalar means is =>
    cases is
    exact (yields_textOf path "a string" none _ s rest).map Data.text

theorem reads_textAs {ε : Type} (expected : String) {parse : String → Except ε String} (words : ε → String)
    {s s' : String} (h : parse s = .ok s') :
    Reads (fun _ path => textAs path expected parse words) (.text s) (.text s') := by
  intro events hspells levels _ doc path rest
  cases hspells with
  | scalar means is =>
    cases is
    refine yields_node (.scalar _ _ _) path fun mark => ?_
    dsimp only
    rw [h]
    exact yields_pure doc rest _

theorem ofScalar_none (style : Style) (s : String) :
    Meaning.ofScalar none style s = .ok (if style = .plain then .ofPlain s else .text s) := rfl

/-- What is not its own text is plain. -/
theorem ofScalar_eq_ok {style : Style} {s : String} {m : Meaning}
    (h : Meaning.ofScalar none style s = .ok m) :
    (style = .plain ∧ Meaning.ofPlain s = m) ∨ (style ≠ .plain ∧ m = .text s) := by
  rw [ofScalar_none] at h
  split at h
  · next hplain => exact .inl ⟨hplain, Except.ok.inj h⟩
  · next hplain => exact .inr ⟨hplain, (Except.ok.inj h).symm⟩

theorem ofPlain_eq_null_iff (s : String) : Meaning.ofPlain s = .null ↔ (s.isEmpty || isNull s) = true := by
  unfold Meaning.ofPlain
  split
  · next h => exact ⟨fun _ => h, fun _ => rfl⟩
  · next h =>
    refine ⟨fun hnull => ?_, fun h' => absurd h' h⟩
    split at hnull
    · cases hnull
    · split at hnull
      · cases hnull
      · split at hnull <;> cases hnull

theorem flag?_of_ofPlain {s : String} {b : Bool} (h : Meaning.ofPlain s = .flag b) : flag? s = some b := by
  unfold Meaning.ofPlain at h
  split at h
  · cases h
  · split at h
    · next v hv =>
      cases h
      exact hv
    · split at h
      · cases h
      · split at h <;> cases h

theorem isLiteral_plain (wanted : String) (tag : Option String) : isLiteral wanted tag .plain = true := by
  simp [isLiteral]

theorem reads_flag (v : Bool) : Reads (fun levels => readerOf .flag levels false) (.flag v) (.flag v) := by
  intro events h levels _ doc path rest
  cases h with
  | scalar means is =>
    cases is
    obtain ⟨rfl, hplain⟩ | ⟨-, htext⟩ := ofScalar_eq_ok means
    case inr => cases htext
    change Yields (flagOf path) doc _ _ rest
    rw [flagOf]
    refine yields_node (.scalar _ _ _) path fun mark => ?_
    dsimp only
    rw [if_pos (isLiteral_plain _ _), flag?_of_ofPlain hplain]
    exact yields_pure doc rest _

theorem reads_natural (name : String) {n : Int} (low : 0 ≤ n) :
    Reads (fun levels => readerOf (.natural name) levels false) (.int n) (.int n) := by
  intro events h levels _ doc path rest
  cases h with
  | scalar means is =>
    cases is with
    | int hfits hsign =>
      obtain ⟨rfl, -⟩ | ⟨-, htext⟩ := ofScalar_eq_ok means
      case inr => cases htext
      change Yields (naturalOf path name) doc _ _ rest
      rw [naturalOf]
      refine yields_node (.scalar _ _ _) path fun mark => ?_
      dsimp only
      rw [if_pos (isLiteral_plain _ _), hsign low]
      have hn : (n.toNat : Int) = n := Int.toNat_of_nonneg low
      exact hn ▸ yields_pure doc rest _

theorem reads_choice (name : String) {words : List String} {w : String} (h : w ∈ words) :
    Reads (fun levels => readerOf (.choice name words) levels false) (.text w) (.text w) := by
  intro events hspells levels _ doc path rest
  cases hspells with
  | scalar means is =>
    cases is
    change Yields (choiceOf path words) doc _ _ rest
    rw [choiceOf]
    refine yields_node (.scalar _ _ _) path fun mark => ?_
    change Yields (if words.contains w then pure (Data.text w) else failPlaceless (.variant w words))
      doc rest _ rest
    rw [if_pos (List.contains_iff_mem.2 h)]
    exact yields_pure doc rest _

theorem yields_maybe_nothing {s : String} (h : (s.isEmpty || isNull s) = true) (r : Reader Data)
    (rest : List Node) : Yields (maybeOf r) doc (.scalar none .plain s :: rest) .null rest := by
  rw [maybeOf]
  refine yields_peek_bind fun mark => yields_peek_bind fun mark' => ?_
  dsimp only
  rw [if_neg (by simp), if_pos h]
  exact (yields_skip doc _ rest).bind (yields_pure doc rest _)

/-- Whatever does not mean nothing is left to the reader of a value. -/
theorem yields_maybe_something {n : Node} (hn : n.IsStart) {r : Reader Data} {d : Data} {tl out : List Node}
    (hnot : ∀ tag s, n = .scalar tag .plain s → tag = none ∧ (s.isEmpty || isNull s) = false)
    (h : Yields r doc (n :: tl) d out) : Yields (maybeOf r) doc (n :: tl) d out := by
  rw [maybeOf]
  refine yields_peek_bind fun mark => ?_
  cases hn with
  | sequence tag => exact yields_peek_bind fun mark' => h
  | mapping tag => exact yields_peek_bind fun mark' => h
  | scalar tag style s =>
    refine yields_peek_bind fun mark' => ?_
    cases style with
    | plain =>
      obtain ⟨rfl, hs⟩ := hnot tag s rfl
      dsimp only
      rw [if_neg (by simp), hs, if_neg (by decide)]
      exact h
    | _ => exact h

theorem reads_nothing (inner : Shape) :
    Reads (fun levels => readerOf (.maybe inner) levels false) .null .null := by
  intro events h levels _ doc path rest
  cases h with
  | scalar means is =>
    cases is
    obtain ⟨rfl, hplain⟩ | ⟨-, htext⟩ := ofScalar_eq_ok means
    case inr => cases htext
    exact yields_maybe_nothing ((ofPlain_eq_null_iff _).1 hplain) _ rest

theorem reads_something {inner : Shape} {d d' : Data}
    (h : Reads (fun levels => readerOf inner levels false) d d') (hd : d ≠ .null) :
    Reads (fun levels => readerOf (.maybe inner) levels false) d d' := by
  intro events hspells levels hlevels doc path rest
  have hinner := h hspells levels hlevels doc path rest
  change Yields (maybeOf (readerOf inner levels false path)) doc _ d' rest
  obtain ⟨n, tl, rfl, hn⟩ := hspells.opens
  refine yields_maybe_something hn (fun tag s hs => ?_) hinner
  subst hs
  cases hspells with
  | scalar means is =>
    refine ⟨rfl, ?_⟩
    rw [Bool.eq_false_iff]
    intro hnull
    obtain ⟨-, hplain⟩ | ⟨hstyle, -⟩ := ofScalar_eq_ok means
    · rw [(ofPlain_eq_null_iff s).2 hnull] at hplain
      subst hplain
      cases is
      exact hd rfl
    · exact hstyle rfl

/-- A table that there are levels enough for: the events of its entries stand one behind the other, and
there are levels enough for each of them inside. -/
theorem Spells.of_table {es : List (String × Data)} {events : List Node} (h : Spells (.table es) events)
    {levels : Nat} (hlevels : (Data.table es).depth ≤ levels) :
    ∃ (ps : List (Name × Data × List Node)) (k : Nat), levels = k + 1 ∧
      es = ps.map (fun p => (p.1.text, p.2.1)) ∧
      events = .mappingStart none :: (ps.flatMap (fun p => p.1.event :: p.2.2) ++ [.mappingEnd]) ∧
      ∀ p ∈ ps, (p.1.text, p.2.1) ∈ es ∧ Spells p.2.1 p.2.2 ∧ p.2.1.depth ≤ k := by
  cases h with
  | scalar means is => cases is
  | @table ps entries =>
    obtain ⟨h2, hdepth⟩ := Data.depth_table_lt_iff.1 (Nat.lt_succ_of_le hlevels)
    refine ⟨ps, levels - 1, by omega, rfl, rfl, fun p hp => ?_⟩
    have hmem : (p.1.text, p.2.1) ∈ ps.map fun p => (p.1.text, p.2.1) :=
      List.mem_map_of_mem (f := fun p : Name × Data × List Node => (p.1.text, p.2.1)) hp
    exact ⟨hmem, entries p hp, Nat.le_sub_one_of_lt (hdepth _ hmem)⟩

theorem reads_list_each {item : Shape} {xs : List Data} {f : Data → Data}
    (h : ∀ x ∈ xs, Reads (fun levels => readerOf item levels false) x (f x)) :
    Reads (fun levels => readerOf (.list item) levels false) (.list xs) (.list (xs.map f)) := by
  intro events hspells levels hlevels doc path rest
  cases hspells with
  | scalar means is => cases is
  | @list ps items =>
    obtain ⟨h2, hdepth⟩ := Data.depth_list_lt_iff.1 (Nat.lt_succ_of_le hlevels)
    obtain ⟨k, rfl⟩ : ∃ k, levels = k + 1 := ⟨levels - 1, by omega⟩
    have hparts : Yields (itemsOf path (readerOf item k false)) doc
        (ps.flatMap Prod.snd ++ .sequenceEnd :: rest) (ps.map fun p => f p.1) rest :=
      yields_itemsOf (fun p hp => (items p hp).opens) (fun p hp path rest =>
        h p.1 (List.mem_map_of_mem hp) (items p hp) k
          (Nat.le_of_lt_succ (hdepth _ (List.mem_map_of_mem hp))) doc path rest) rest
    change Yields (listOf (k + 1) path fun levels => readerOf item levels false) doc _ _ rest
    rw [List.cons_append, List.append_assoc, listOf, List.map_map]
    exact yields_node (.sequence none) path fun mark => hparts.map Data.list

theorem reads_table_each {item : Shape} {es : List (String × Data)} {f : Data → Data}
    (h : ∀ e ∈ es, Reads (fun levels => readerOf item levels false) e.2 (f e.2)) :
    Reads (fun levels => readerOf (.table item) levels false) (.table es)
      (.table (Entries.ofList (es.map fun e => (e.1, f e.2)))) := by
  intro events hspells levels hlevels doc path rest
  obtain ⟨ps, k, rfl, rfl, rfl, hps⟩ := hspells.of_table hlevels
  have hparts : Yields (entriesOf path (textOf path "a string") (readerOf item k false)) doc
      (ps.flatMap (fun p => p.1.event :: p.2.2) ++ .mappingEnd :: rest)
      (ps.map fun p => (p.1.text, f p.2.1)) rest :=
    yields_entriesOf (fun p _ => opens_entry p.1 p.2.2) (fun p hp path' rest => by
      obtain ⟨hmem, hspells, hdepth⟩ := hps p hp
      exact ⟨p.2.2 ++ rest, yields_textOf path _ none p.1.style p.1.text _,
        h _ hmem hspells k hdepth doc path' rest⟩) rest
  change Yields (tableOf (k + 1) path fun levels => readerOf item levels false) doc _ _ rest
  rw [List.cons_append, List.append_assoc, tableOf, List.map_map]
  exact yields_node (.mapping none) path fun mark => hparts.bind (yields_pure doc rest _)

theorem reads_forms {name : String} {forms : List (List (String × Leaf))} {es : List (String × Data)}
    {d : Data} (h : Shape.formsOf foundOf name forms (Json.wholeEntries es) = .ok d) :
    Reads (fun levels => readerOf (.oneOf name forms) levels false) (.table es) d := by
  intro events hspells levels hlevels doc path rest
  obtain ⟨ps, k, rfl, rfl, rfl, hps⟩ := hspells.of_table hlevels
  have hparts : Yields (entriesOf path (entryName <$> value .buffered k false path)
      (value .buffered k false)) doc (ps.flatMap (fun p => p.1.event :: p.2.2) ++ .mappingEnd :: rest)
      (ps.map fun p => (.text p.1.text, .ok p.2.1)) rest :=
    yields_entriesOf (fun p _ => opens_entry p.1 p.2.2) (fun p hp path' rest => by
      obtain ⟨-, hspells, hdepth⟩ := hps p hp
      exact ⟨p.2.2 ++ rest, yields_entryName p.1 k path _,
        yields_value .buffered hspells k hdepth path' rest⟩) rest
  rw [map_entries_eq] at hparts
  change Yields (formsOf (k + 1) path name forms) doc _ d rest
  rw [List.cons_append, List.append_assoc, formsOf]
  refine Yields.bind (yields_node (.mapping none) path fun mark => hparts.map some) ?_
  exact yields_ofExcept doc rest h

theorem fieldReaders_eq (fields : List (String × Shape × Option Data)) :
    fieldReaders fields = fields.map fun f => (f.1, fun levels => readerOf f.2.1 levels false, f.2.2) := by
  induction fields with
  | nil => rfl
  | cons f fields ih => rw [fieldReaders, ih, List.map_cons]

theorem get?_fieldReaders (name : String) (fields : List (String × Shape × Option Data)) :
    Entries.get? name (fieldReaders fields) =
      (Entries.get? name fields).map fun f => (fun levels => readerOf f.1 levels false, f.2) := by
  rw [fieldReaders_eq]
  exact Entries.get?_map (fun f => (fun levels => readerOf f.1 levels false, f.2)) name fields

theorem complete_fieldReaders (got : List (String × Data)) (fields : List (String × Shape × Option Data)) :
    Shape.complete got (fieldReaders fields) = Shape.complete got fields := by
  rw [fieldReaders_eq, Shape.complete_map fun shape levels => readerOf shape levels false]

/-- How an entry of a record is read. -/
def fieldEntry (k : Nat) (path : Path) (fields : List FieldReader) (inner : Path)
    (got : List (String × Data)) : Reader (List (String × Data)) := do
  let field ← textOf path "field identifier"
  match Entries.get? field fields with
  | none =>
    skipValue (← stepsLeft) 0
    return got
  | some (value, _) =>
    if (Entries.get? field got).isSome then failPlaceless (.duplicate field)
    return (field, ← value k inner) :: got

theorem yields_fieldEntry {fields : List (String × Shape × Option Data)} {field : Shape × Option Data}
    {n : Name} (hfield : Entries.get? n.text fields = some field) {k : Nat} {path inner : Path} {d : Data}
    {inp out : List Node} (h : Yields (readerOf field.1 k false inner) doc inp d out)
    {got : List (String × Data)} (hnew : n.text ∉ Entries.names got) :
    Yields (fieldEntry k path (fieldReaders fields) inner got) doc (n.event :: inp) ((n.text, d) :: got)
      out := by
  refine (yields_textOf path "field identifier" none n.style n.text inp).bind ?_
  rw [get?_fieldReaders, hfield, Option.map_some]
  dsimp only
  rw [if_neg (by rwa [Entries.isSome_get?_iff])]
  exact h.bind (yields_pure doc out _)

theorem yields_fieldEntry_unknown {fields : List (String × Shape × Option Data)} {n : Name}
    (hfield : Entries.get? n.text fields = none) {d : Data} {events : List Node} (h : Spells d events)
    (k : Nat) (path inner : Path) (got : List (String × Data)) (rest : List Node) :
    Yields (fieldEntry k path (fieldReaders fields) inner got) doc (n.event :: (events ++ rest)) got rest := by
  refine (yields_textOf path "field identifier" none n.style n.text _).bind ?_
  rw [get?_fieldReaders, hfield, Option.map_none]
  refine yields_stepsLeft_bind fun steps hsteps => ?_
  rw [List.length_append] at hsteps
  exact (yields_skipValue h (by omega) doc rest).bind (yields_pure doc rest got)

/-- Collecting what some of the parts give, one in front of the other, gives it in reverse. -/
theorem foldl_toList_eq {ι α : Type} (f : ι → Option α) (xs : List ι) (acc : List α) :
    xs.foldl (fun acc x => (f x).toList ++ acc) acc = (xs.filterMap f).reverse ++ acc := by
  induction xs generalizing acc with
  | nil => rfl
  | cons x xs ih =>
    rw [List.foldl_cons, ih, List.filterMap_cons]
    cases f x with
    | none => rfl
    | some a => simp

/-- What the entry of a record comes to: nothing where the record does not know its name. -/
def fieldOf? (fields : List (String × Shape × Option Data)) (g : String × Data → Data)
    (p : Name × Data × List Node) : Option (String × Data) :=
  (Entries.get? p.1.text fields).map fun field => (p.1.text, g (p.1.text, field.1.prune p.2.1))

theorem filterMap_fieldOf? (fields : List (String × Shape × Option Data)) (g : String × Data → Data)
    (ps : List (Name × Data × List Node)) :
    ps.filterMap (fieldOf? fields g) = (Shape.pruneEntries (Shape.fieldPruners fields)
      (ps.map fun p => (p.1.text, p.2.1))).map fun e => (e.1, g e) := by
  rw [Shape.pruneEntries, List.filterMap_map, List.map_filterMap]
  refine List.filterMap_congr fun p _ => ?_
  simp only [fieldOf?, Function.comp_apply, Shape.get?_fieldPruners, Option.map_map]
  rfl

/-- An entry of a record, known or not. -/
theorem yields_fieldEntry_of? {fields : List (String × Shape × Option Data)} {g : String × Data → Data}
    {p : Name × Data × List Node} (hspells : Spells p.2.1 p.2.2) {k : Nat} (hdepth : p.2.1.depth ≤ k)
    (h : ∀ field, Entries.get? p.1.text fields = some field →
      Reads (fun levels => readerOf field.1 levels false) p.2.1 (g (p.1.text, field.1.prune p.2.1)))
    {got : List (String × Data)} (hnew : ∀ e ∈ fieldOf? fields g p, e.1 ∉ Entries.names got)
    (path inner : Path) (rest : List Node) :
    Yields (fieldEntry k path (fieldReaders fields) inner got) doc (p.1.event :: (p.2.2 ++ rest))
      ((fieldOf? fields g p).toList ++ got) rest := by
  cases hfield : Entries.get? p.1.text fields with
  | none =>
    have hnone : fieldOf? fields g p = none := by rw [fieldOf?, hfield, Option.map_none]
    rw [hnone]
    exact yields_fieldEntry_unknown hfield hspells k path inner got rest
  | some field =>
    have hsome : fieldOf? fields g p = some (p.1.text, g (p.1.text, field.1.prune p.2.1)) := by
      rw [fieldOf?, hfield, Option.map_some]
    rw [hsome]
    exact yields_fieldEntry hfield (h field hfield hspells k hdepth doc inner rest) (hnew _ hsome)

/-- A record each of whose known fields is read, and comes once.  Others are passed over. -/
theorem reads_record_each (name : String) {fields : List (String × Shape × Option Data)}
    {g : String × Data → Data} {es es' : List (String × Data)}
    (hnodup : (Entries.names (Shape.pruneEntries (Shape.fieldPruners fields) es)).Nodup)
    (h : ∀ e ∈ es, ∀ field, Entries.get? e.1 fields = some field →
      Reads (fun levels => readerOf field.1 levels false) e.2 (g (e.1, field.1.prune e.2)))
    (hcomplete : Shape.complete ((Shape.pruneEntries (Shape.fieldPruners fields) es).map fun e => (e.1, g e))
      fields = .ok es') :
    Reads (fun levels => readerOf (.record name fields) levels false) (.table es) (.table es') := by
  intro events hspells levels hlevels doc path rest
  obtain ⟨ps, k, rfl, rfl, rfl, hps⟩ := hspells.of_table hlevels
  have hnames : (Entries.names (ps.filterMap (fieldOf? fields g))).Nodup := by
    rw [filterMap_fieldOf?, Entries.names, List.map_map]
    exact hnodup
  have hfold : ∀ qs : List (Name × Data × List Node),
      qs.foldl (fun acc p => (fieldOf? fields g p).toList ++ acc) [] =
        (qs.filterMap (fieldOf? fields g)).reverse := fun qs => by
    rw [foldl_toList_eq, List.append_nil]
  have hparts : Yields (do
      Yaml.entries path (fieldEntry k path (fieldReaders fields)) (← stepsLeft) []) doc
      (ps.flatMap (fun p => p.1.event :: p.2.2) ++ .mappingEnd :: rest)
      (ps.foldl (fun acc p => (fieldOf? fields g p).toList ++ acc) []) rest := by
    refine yields_allEntries (fun p _ => opens_entry p.1 p.2.2) []
      (fun before p later hsplit inner rest => ?_) rest
    obtain ⟨hmem, hspells, hdepth⟩ := hps p (by rw [hsplit]; simp)
    refine yields_fieldEntry_of? hspells hdepth (h _ hmem) (fun e he => ?_) path inner rest
    -- the names before this one are others
    rw [hfold, Entries.names, List.map_reverse, List.mem_reverse]
    rw [hsplit, List.filterMap_append, List.filterMap_cons, he, Entries.names, List.map_append,
      List.nodup_append] at hnames
    exact fun hbefore => hnames.2.2 _ hbefore _ List.mem_cons_self rfl
  have hall : Shape.complete (ps.foldl (fun acc p => (fieldOf? fields g p).toList ++ acc) [])
      (fieldReaders fields) = .ok es' := by
    rw [hfold, complete_fieldReaders, Shape.complete_congr (Entries.get?_reverse hnames), filterMap_fieldOf?,
      hcomplete]
  change Yields (recordOf (k + 1) path name (fieldReaders fields)) doc _ _ rest
  rw [List.cons_append, List.append_assoc, recordOf]
  exact yields_node (.mapping none) path fun mark =>
    hparts.bind ((yields_ofExcept doc rest hall).map Data.table)

/-! ## All shapes -/

end Yaml

namespace Shape

mutual

/-- Documents of the shape are written without tags. -/
def isTagless : Shape → Bool
  | .maybe inner => inner.isTagless
  | .list item | .table item => item.isTagless
  | .record _ fields => fieldsTagless fields
  | .tagged _ _ | .keyed _ _ _ => false
  | _ => true

def fieldsTagless : List (String × Shape × Option Data) → Bool
  | [] => true
  | (_, shape, _) :: rest => shape.isTagless && fieldsTagless rest

end

theorem fieldsTagless_of_get? {fields : List (String × Shape × Option Data)} {name : String}
    {field : Shape × Option Data} (hfields : fieldsTagless fields = true)
    (h : Entries.get? name fields = some field) : field.1.isTagless = true := by
  induction fields with
  | nil => cases h
  | cons e fields ih =>
    obtain ⟨n, shape, fallback⟩ := e
    rw [fieldsTagless, Bool.and_eq_true] at hfields
    rw [Entries.get?] at h
    split at h
    · cases h
      exact hfields.1
    · exact ih hfields.2 h

end Shape

namespace Yaml

/-- **The events of a tree that has a shape, apart from unknown fields, are read as its normal form.** -/
theorem reads_of_normalForm {s : Shape} {p d' : Data} (h : s.NormalForm p d') (htagless : s.isTagless = true)
    {d : Data} (hd : s.prune d = p) : Reads (fun levels => readerOf s levels false) d d' := by
  induction h generalizing d with
  | any p =>
    obtain rfl : d = p := hd
    exact reads_any d
  | text s =>
    obtain rfl : d = .text s := hd
    exact reads_text s
  | flag b =>
    obtain rfl : d = .flag b := hd
    exact reads_flag b
  | @natural name n low high =>
    obtain rfl : d = .int n := hd
    exact reads_natural name low
  | @uuid s id hid =>
    obtain rfl : d = .text s := hd
    exact reads_textAs _ _ (by rw [hid]; rfl)
  | @instant s i hi =>
    obtain rfl : d = .text s := hd
    exact reads_textAs _ _ (by rw [hi]; rfl)
  | nothing inner =>
    obtain rfl : d = .null := by_contra fun hne => Shape.prune_ne_null _ hne hd
    exact reads_nothing inner
  | @something inner p d' hp _ ih =>
    refine reads_something (ih htagless hd) fun hnull => hp ?_
    rw [← hd, hnull, Shape.prune_null]
  | @list item ps f _ ih =>
    cases d with
    | list xs =>
      obtain rfl : xs.map item.prune = ps := Data.list.inj hd
      rw [List.map_map]
      exact reads_list_each fun x hx => ih _ (List.mem_map_of_mem hx) htagless rfl
    | _ => cases hd
  | @table item ps f _ ih =>
    cases d with
    | table es =>
      obtain rfl : es.map (fun e => (e.1, item.prune e.2)) = ps := Data.table.inj hd
      rw [List.map_map]
      exact reads_table_each (f := fun d => f (item.prune d)) fun e he =>
        ih (e.1, item.prune e.2) (List.mem_map_of_mem he) htagless rfl
    | _ => cases hd
  | @record name fields ps es' g hnodup known _ hcomplete ih =>
    cases d with
    | table es =>
      obtain rfl : Shape.pruneEntries (Shape.fieldPruners fields) es = ps := Data.table.inj hd
      exact reads_record_each name hnodup (fun e he field hfield =>
        ih _ (Shape.mem_pruneEntries he hfield) field hfield
          (Shape.fieldsTagless_of_get? htagless hfield) rfl) hcomplete
    | _ => cases hd
  | @choice name words w hw =>
    obtain rfl : d = .text w := hd
    exact reads_choice name hw
  | tagged => cases htagless
  | keyed => cases htagless
  | @oneOf name forms es d' hfound =>
    obtain rfl : d = .table es := hd
    exact reads_forms ((Shape.formsOf_eq _ _ _ _ _).trans hfound)

/-- The text layer of YAML carries the tree: the events of the document are those of the tree, which is
not nested too deep. -/
structure Carries (text : String) (d : Data) : Prop where
  spells : Spells d ((Document.ofText text).nodes.toList.map Prod.fst)
  complete : (Document.ofText text).ending = .complete
  depth : d.depth ≤ maxLevels

theorem read_of_carries {shape : Shape} {text : String} {d d' : Data} (hcarries : Carries text d)
    (h : shape.accept (shape.prune d) = some d') (htagless : shape.isTagless = true) :
    read shape text = .ok d' := by
  have hreads := reads_of_normalForm (Shape.normalForm_of_accept shape h) htagless rfl hcarries.spells maxLevels
    hcarries.depth (Document.ofText text) none []
  obtain ⟨p, hp, -⟩ := hreads {} (by rw [List.append_nil]; rfl)
  have hrun : EStateM.run (readerOf shape maxLevels false none (Document.ofText text)) {} = .ok d' p := hp
  rw [read, hrun]
  dsimp only
  rw [hcarries.complete]

end Yaml

/-- A value is read from every document that carries a tree from which, apart from unknown fields, it is
decoded. -/
theorem Codec.ofYaml_of_carries {α : Type} {c : Codec α} {a : α} {d : Data}
    (h : c.ofData? (c.shape.prune d) = some a) (htagless : c.shape.isTagless = true) {text : String}
    (hcarries : Yaml.Carries text d) : c.ofYaml text = .ok a := by
  obtain ⟨d', hd, hdecode⟩ := Option.bind_eq_some_iff.1 h
  rw [ofYaml, Yaml.read_of_carries hcarries hd htagless]
  simp only [hdecode]

end PluginChain
