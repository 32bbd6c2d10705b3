import PluginChain.Proofs.Json.Whole
import PluginChain.Proofs.Tree

/-!
# Written values are read back by their shapes

For each shape of document, `reads_…` says what the reader of the shape makes of the text of a value
that has the shape.  As in `reads_any` it makes something of it just when the levels of nesting suffice,
whatever the shape: shapes look at levels only where there are brackets.

`read_pretty` is the same for a document as a whole, which starts with 128 levels.
-/

set_option autoImplicit false

namespace PluginChain.Json

open Operation

variable {α : Type}

/-! ## Texts -/

theorem yields_textOf (expected : String) (b level : Nat) {ws : List Char} (hws : Spaces ws)
    (s : String) (rest : List Char) :
    Yields (textOf expected) b (ws ++ (textAt level (.text s) ++ rest)) s rest := by
  rw [textAt_text, List.cons_append, List.append_assoc]
  refine (yields_peekValue b hws rfl _).bind ((yields_skip b '\"' _).bind ?_)
  exact yields_stringRest b s rest

theorem reads_text (s : String) : Reads (readerOf .text) (.text s) (.text s) := by
  intro b level hb
  refine readsAs_of_flat rfl hb fun ws rest hws _ => ?_
  rw [readerOf, ← bind_pure_comp]
  exact (yields_textOf "a string" b level hws s rest).bind (yields_pure b rest _)

/-- A text that something is read from, where it can be. -/
theorem reads_textAs {ε : Type} (expected : String) {parse : String → Except ε String} (words : ε → String)
    {s s' : String} (h : parse s = .ok s') :
    Reads (textAs expected parse words) (.text s) (.text s') := by
  intro b level hb
  refine readsAs_of_flat rfl hb fun ws rest hws _ => ?_
  refine (yields_textOf expected b level hws s rest).bind ?_
  rw [h]
  exact yields_pure b rest _

theorem reads_uuid {s : String} {id : Uuid} (h : Uuid.parse s = .ok id) :
    Reads (readerOf .uuid) (.text s) (.text id.toText) := by
  rw [readerOf]
  exact reads_textAs _ _ (by rw [h]; rfl)

theorem reads_instant {s : String} {i : Instant} (h : Instant.parse s = .ok i) :
    Reads (readerOf .instant) (.text s) (.text i.toText) := by
  rw [readerOf]
  exact reads_textAs _ _ (by rw [h]; rfl)

/-- One of the words that may be chosen. -/
theorem reads_choice (name : String) {words : List String} {w : String} (h : w ∈ words) :
    Reads (readerOf (.choice name words)) (.text w) (.text w) := by
  intro b level hb
  refine readsAs_of_flat rfl hb fun ws rest hws _ => ?_
  have hword := yields_textOf "variant identifier" b level spaces_nil w rest
  rw [textAt_text] at hword ⊢
  rw [readerOf, choiceOf]
  refine (yields_peekToken_cons b hws rfl _).bind ?_
  refine Yields.bind (hword.bind ?_) (yields_pure b rest _)
  rw [if_pos (List.contains_iff_mem.2 h)]
  exact yields_pure b rest w

/-- A text where there may be nothing. -/
theorem reads_maybe {inner : Shape} {s : String} {d : Data}
    (h : Reads (readerOf inner) (.text s) d) : Reads (readerOf (.maybe inner)) (.text s) d := by
  intro b level hb ws rest hws hrest
  have hinner := h b level hb [] rest spaces_nil hrest
  rw [textAt_text] at hinner ⊢
  rw [readerOf]
  exact (yields_peekToken_cons b hws rfl _).bind hinner

/-! ## Tables -/

/-- A table of values of one shape, put in the order of its names. -/
theorem reads_table_each {item : Shape} {es : List (String × Data)} {f : Data → Data}
    (h : ∀ e ∈ es, Reads (readerOf item) e.2 (f e.2)) :
    Reads (readerOf (.table item)) (.table es) (.table (Entries.ofList (es.map fun e => (e.1, f e.2)))) := by
  intro b level hb ws rest hws hrest
  have hreads : 2 ≤ b → ∀ e ∈ es, ReadsAs (readerOf item) (b - 1) (textAt (level + 1) e.2)
      (if e.2.depth < b - 1 then some (f e.2) else none) :=
    fun h2 e he => h e he (b - 1) (level + 1) (by omega)
  have hdone := (gives_table_each f hreads rest).bind_pure fun es => Data.table (Entries.ofList es)
  obtain ⟨inp, hinp⟩ := exists_textAt_table level es rest
  rw [Option.map_if, hinp] at hdone
  rw [hinp, readerOf, tableOf]
  exact (yields_peekValue b hws rfl inp).bind hdone

/-- A table of values each of which is read as itself. -/
theorem reads_table {item : Shape} {es : List (String × Data)} (hsorted : Entries.Sorted es)
    (h : ∀ e ∈ es, Reads (readerOf item) e.2 e.2) :
    Reads (readerOf (.table item)) (.table es) (.table es) := by
  have hread := reads_table_each (f := id) h
  rwa [show (es.map fun e => (e.1, id e.2)) = es from List.map_id es,
    Entries.ofList_eq_self hsorted] at hread

/-- What is done with a level less, between taking the level and giving it back. -/
theorem Gives.leveled {inside : Reader α} {b : Nat} {inp out : List Char} {res : Option α}
    (h : Gives inside (b - 1) inp (res.map (·, out))) (g : α → Data) :
    Gives (do
      modify ({ · with budget := b - 1 })
      let a ← inside
      modify ({ · with budget := b })
      return g a) b inp ((res.map g).map (·, out)) := by
  cases res with
  | some a =>
    intro c hr hb
    obtain ⟨c₁, h₁, hr₁, hb₁⟩ := h { c with budget := b - 1 } hr rfl
    refine ⟨{ c₁ with budget := b }, ?_, hr₁, rfl⟩
    simp only [Bind.bind, EStateM.bind, modify_eq, h₁, pure, EStateM.pure]
  | none =>
    intro c hr hb
    obtain ⟨f, c₁, h₁⟩ := h { c with budget := b - 1 } hr rfl
    refine ⟨f, c₁, ?_⟩
    simp only [Bind.bind, EStateM.bind, modify_eq, h₁]

theorem caseReaders_eq (cases : List (String × Shape)) :
    caseReaders cases = cases.map fun c => (c.1, readerOf c.2) := by
  induction cases with
  | nil => rfl
  | cons c cases ih => rw [caseReaders, ih, List.map_cons]

theorem get?_caseReaders {s : String} {cases : List (String × Shape)} {shape : Shape}
    (h : Entries.get? s cases = some shape) :
    Entries.get? s (caseReaders cases) = some (readerOf shape) := by
  rw [caseReaders_eq, Entries.get?_map readerOf, h, Option.map_some]

/-- An entry whose name says what its value is, whatever the value is read as. -/
theorem readsAs_tagged (name : String) {cases : List (String × Shape)} {s : String} {shape : Shape}
    {d : Data} {b level : Nat} (found : Option Data) (hcase : Entries.get? s cases = some shape)
    (h : 2 ≤ b → ReadsAs (readerOf shape) (b - 1) (textAt (level + 1) d) found) :
    ReadsAs (readerOf (.tagged name cases)) b (textAt level (.table [(s, d)]))
      (if 2 ≤ b then found.map fun d' => .table [(s, d')] else none) := by
  intro ws rest hws _
  obtain ⟨tl, htl⟩ : ∃ tl, textAt level (.text s) ++ (':' :: ' ' :: (textAt (level + 1) d ++
      (margin level ++ '\x7d' :: rest))) = '\"' :: tl := by
    rw [textAt_text]
    exact ⟨_, rfl⟩
  have htext : textAt level (.table [(s, d)]) ++ rest = '\x7b' :: (margin (level + 1) ++ '\"' :: tl) := by
    rw [← htl, textAt_table, textAt_text]
    simp [entryTexts, bracketText, entryText, furtherParts]
  rw [htext, readerOf, taggedOf]
  refine (yields_peekToken_cons b hws rfl _).bind ?_
  refine yields_get fun c _ hc => ?_
  rw [hc]
  by_cases h2 : 2 ≤ b
  · have hname : Yields (caseName (caseReaders cases)) (b - 1) ('\"' :: tl) (s, readerOf shape)
        (':' :: ' ' :: (textAt (level + 1) d ++ (margin level ++ '\x7d' :: rest))) := by
      have hs := yields_textOf "variant identifier" (b - 1) level spaces_nil s
        (':' :: ' ' :: (textAt (level + 1) d ++ (margin level ++ '\x7d' :: rest)))
      rw [List.nil_append, htl] at hs
      refine hs.bind ?_
      rw [get?_caseReaders hcase]
      exact yields_pure _ _ _
    have hentry : Gives (caseEntry (caseReaders cases)) (b - 1)
        ('\x7b' :: (margin (level + 1) ++ '\"' :: tl)) ((found.map (s, ·)).map (·, rest)) := by
      refine (yields_skip _ _ _).bind ((yields_peekValue _ (spaces_margin _) rfl tl).bind ?_)
      refine hname.bind ((yields_colon _ _).bind ?_)
      have hd := h h2 [' '] _ spaces_single (ends_margin level ('\x7d' :: rest))
      cases found with
      | some d' =>
        refine Yields.bind hd (Yields.bind (a := ()) ?_ (yields_pure _ rest (s, d')))
        exact (yields_peekToken_cons _ (spaces_margin level) rfl rest).bind (yields_skip _ _ rest)
      | none => exact Fails.bind hd
    have hres : (found.map (s, ·)).map (fun e => Data.table [e]) = found.map fun d' => .table [(s, d')] :=
      Option.map_map ..
    have hdone := hentry.leveled fun e => Data.table [e]
    rw [hres] at hdone
    rw [if_neg (by omega), if_pos h2]
    exact hdone
  · rw [if_pos (by omega), if_neg h2]
    refine Fails.bind ?_
    intro c hr hb
    exact ⟨_, c, rfl⟩

/-- An entry whose name says what its value is. -/
theorem reads_tagged (name : String) {cases : List (String × Shape)} {s : String} {shape : Shape}
    {d d' : Data} (hcase : Entries.get? s cases = some shape) (h : Reads (readerOf shape) d d') :
    Reads (readerOf (.tagged name cases)) (.table [(s, d)]) (.table [(s, d')]) := by
  intro b level _
  have hread := readsAs_tagged name _ hcase fun h2 : 2 ≤ b => h (b - 1) (level + 1) (by omega)
  have hdepth : (Data.table [(s, d)]).depth < b ↔ 2 ≤ b ∧ d.depth < b - 1 := by
    rw [Data.depth_table_lt_iff, List.forall_mem_singleton]
  simpa only [Option.map_if, ← ite_and, ← hdepth] using hread

/-! ## Tables told apart by a tag -/

/-- What an entry of a table with a tag adds to what is known. -/
def keyedStep (chosen : String × List (String × Leaf)) (k : Nat) (tag : String) (sofar : KeyedSoFar)
    (e : String × Data) : Option KeyedSoFar :=
  if e.1 = tag then if sofar.1.isSome then none else some (some chosen, sofar.2)
  else (if e.2.depth < k then some e.2 else none).map fun d => (sofar.1, (e.1, d) :: sofar.2)

theorem steps_keyedEntry {tag given : String} {cases : List (String × List (String × Leaf))}
    {fields : List (String × Leaf)} (hcase : Shape.caseOf cases given = .ok (given, fields))
    {e : String × Data} (htag : e.1 = tag → e.2 = .text given) (hprint : e.2.Printable) {b level : Nat}
    (hb : 1 ≤ b) :
    Steps (keyedEntry tag cases) b (textAt level) (keyedStep (given, fields) b tag) e := by
  intro sofar rest hrest
  rw [keyedEntry, keyedStep]
  split
  · next he =>
    split
    · intro c _ _
      exact ⟨_, c, rfl⟩
    · rw [htag he]
      obtain ⟨tl, htl⟩ : ∃ tl, textAt level (.text given) ++ rest = '\"' :: tl := by
        rw [textAt_text]
        exact ⟨_, rfl⟩
      have hvalue := yields_textOf "variant identifier" b level spaces_nil given rest
      rw [htl] at hvalue ⊢
      refine (yields_colon b _).bind (Yields.bind (a := (given, fields)) ?_ (yields_pure b rest _))
      refine (yields_peekValue b spaces_single rfl tl).bind (hvalue.bind ?_)
      rw [hcase]
      exact yields_pure b rest _
  · have hvalue := ((reads_anyValue hprint b level hb).behindColon rest hrest).bind_pure
      fun d => ((sofar.1, (e.1, d) :: sofar.2) : KeyedSoFar)
    rwa [bind_assoc] at hvalue

/-- Collecting the entries behind the tag. -/
theorem foldlM_keyedStep (chosen : String × List (String × Leaf)) (k : Nat) {tag : String}
    {es : List (String × Data)} (h : ∀ e ∈ es, e.1 ≠ tag) (acc : List (String × Data)) :
    es.foldlM (keyedStep chosen k tag) (some chosen, acc) =
      if ∀ e ∈ es, e.2.depth < k then some (some chosen, es.reverse ++ acc) else none := by
  induction es generalizing acc with
  | nil => simp
  | cons e es ih =>
    rw [List.foldlM_cons, keyedStep, if_neg (h e List.mem_cons_self)]
    by_cases he : e.2.depth < k
    · rw [if_pos he]
      change es.foldlM _ (some chosen, (e.1, e.2) :: acc) = _
      rw [ih fun x hx => h x (List.mem_cons_of_mem _ hx)]
      simp only [List.forall_mem_cons, he, true_and, List.reverse_cons, List.append_assoc,
        List.singleton_append]
    · rw [if_neg he, if_neg fun hall => he (hall e List.mem_cons_self)]
      rfl

/-- A table whose first entry is the tag, with the fields of its case behind it. -/
theorem reads_keyed (name : String) {tag given : String} {cases : List (String × List (String × Leaf))}
    {fields : List (String × Leaf)} {es es' : List (String × Data)}
    (hcase : Shape.caseOf cases given = .ok (given, fields)) (htag : ∀ e ∈ es, e.1 ≠ tag)
    (hprint : ∀ e ∈ es, e.2.Printable)
    (hfields : Shape.fieldsOf foundOf fields (wholeEntries es) [] = .ok es') :
    Reads (readerOf (.keyed name tag cases)) (.table ((tag, .text given) :: es))
      (.table ((tag, .text given) :: es')) := by
  intro b level hb ws rest hws _
  rw [textAt_table]
  obtain ⟨inp, htext⟩ := exists_bracketText '\x7b' '\x7d' level
    (entryTexts (textAt (level + 1)) ((tag, .text given) :: es)) rest
  rw [htext, readerOf, keyedOf]
  refine (yields_peekValue b hws rfl inp).bind ?_
  rw [← ite_table_depth]
  refine Gives.bracketed (fun h2 => ?_) (yields_closeTable b rest)
  have hsteps : ∀ e ∈ (tag, Data.text given) :: es, Steps (keyedEntry tag cases) (b - 1)
      (textAt (level + 1)) (keyedStep (given, fields) (b - 1) tag) e := by
    intro e he
    rcases List.mem_cons.1 he with rfl | he
    · exact steps_keyedEntry hcase (fun _ => rfl) (.text given) (by omega)
    · exact steps_keyedEntry hcase (fun h => absurd h (htag e he)) (hprint e he) (by omega)
  have hentries := gives_entries hsteps (none, []) htext
  have hfold : ((tag, Data.text given) :: es).foldlM (keyedStep (given, fields) (b - 1) tag) (none, []) =
      if ∀ e ∈ (tag, Data.text given) :: es, e.2.depth < b - 1 then
        some (some (given, fields), es.reverse) else none := by
    have hzero : (Data.text given).depth < b - 1 := by
      have h0 : (Data.text given).depth = 0 := rfl
      omega
    rw [List.foldlM_cons, keyedStep, if_pos rfl]
    change es.foldlM _ (some (given, fields), []) = _
    simp only [foldlM_keyedStep _ _ htag, List.append_nil, List.forall_mem_cons, hzero, true_and]
  rw [hfold] at hentries
  rw [keyedInTable, ← bind_assoc]
  split at hentries
  · next hdepth =>
    rw [if_pos hdepth]
    refine Yields.bind hentries ?_
    simp only [List.reverse_reverse, hfields]
    exact yields_pure _ _ _
  · next hdepth =>
    rw [if_neg hdepth]
    exact Fails.bind hentries

/-! ## Records -/

theorem fieldReaders_eq (fields : List (String × Shape × Option Data)) :
    fieldReaders fields = fields.map fun f => (f.1, readerOf f.2.1, f.2.2) := by
  induction fields with
  | nil => rfl
  | cons f fields ih => rw [fieldReaders, ih, List.map_cons]

theorem get?_fieldReaders (name : String) (fields : List (String × Shape × Option Data)) :
    Entries.get? name (fieldReaders fields) =
      (Entries.get? name fields).map fun f => (readerOf f.1, f.2) := by
  rw [fieldReaders_eq]
  exact Entries.get?_map (fun f => (readerOf f.1, f.2)) name fields

theorem complete_fieldReaders (got : List (String × Data)) (fields : List (String × Shape × Option Data)) :
    Shape.complete got (fieldReaders fields) = Shape.complete got fields := by
  rw [fieldReaders_eq, Shape.complete_map]

/-- What an entry of a record adds to the fields that were found. -/
def fieldStep (value : String × Data → Option Data) (found : List (String × Data)) (e : String × Data) :
    Option (List (String × Data)) :=
  if (Entries.get? e.1 found).isSome then none else (value e).map fun d => (e.1, d) :: found

theorem steps_fieldEntry {fields : List (String × Shape × Option Data)} {value : String × Data → Option Data}
    {e : String × Data} {field : Shape × Option Data} (hfield : Entries.get? e.1 fields = some field)
    {b level : Nat} (h : ReadsAs (readerOf field.1) b (textAt level e.2) (value e)) :
    Steps (fieldEntry (fieldReaders fields)) b (textAt level) (fieldStep value) e := by
  intro found rest hrest
  rw [fieldEntry, fieldStep, get?_fieldReaders, hfield]
  simp only [Option.map_some]
  split
  · intro c _ _
    exact ⟨_, c, rfl⟩
  · have hvalue := (h.behindColon rest hrest).bind_pure fun d => (e.1, d) :: found
    rwa [bind_assoc] at hvalue

/-- Collecting the fields of a record, each of which comes once, refuses none. -/
theorem foldlM_fieldStep (value : String × Data → Option Data) {es acc : List (String × Data)}
    (hnodup : (Entries.names es).Nodup) (hacc : ∀ e ∈ es, e.1 ∉ Entries.names acc) :
    es.foldlM (fieldStep value) acc = es.foldlM (fun acc e => (value e).map fun d => (e.1, d) :: acc) acc := by
  induction es generalizing acc with
  | nil => rfl
  | cons e es ih =>
    obtain ⟨hfirst, hnodup⟩ := List.nodup_cons.1 hnodup
    have hnew : ¬ (Entries.get? e.1 acc).isSome = true := by
      rw [Entries.isSome_get?_iff]
      exact hacc e List.mem_cons_self
    rw [List.foldlM_cons, List.foldlM_cons, fieldStep, if_neg hnew]
    cases value e with
    | none => rfl
    | some d =>
      refine ih hnodup fun x hx hmem => ?_
      rcases List.mem_cons.1 hmem with heq | hmem
      · exact hfirst (List.mem_map.2 ⟨x, hx, heq⟩)
      · exact hacc x (List.mem_cons_of_mem _ hx) hmem

/-- A record whose fields each come once, whatever their values are read as; those that are missing are
completed. -/
theorem readsAs_record (name : String) {fields : List (String × Shape × Option Data)}
    (value : String × Data → Option Data) {es : List (String × Data)} {b level : Nat}
    (hnodup : (Entries.names es).Nodup)
    (h : 2 ≤ b → ∀ e ∈ es, ∃ field, Entries.get? e.1 fields = some field ∧
      ReadsAs (readerOf field.1) (b - 1) (textAt (level + 1) e.2) (value e)) :
    ReadsAs (readerOf (.record name fields)) b (textAt level (.table es))
      (if 2 ≤ b then (es.mapM fun e => (value e).map (e.1, ·)).bind fun got =>
        (Shape.complete got fields).toOption.map Data.table else none) := by
  intro ws rest hws _
  rw [textAt_table]
  obtain ⟨inp, htext⟩ := exists_bracketText '\x7b' '\x7d' level
    (entryTexts (textAt (level + 1)) es) rest
  rw [htext, readerOf, recordOf]
  refine (yields_peekValue b hws rfl inp).bind ?_
  refine Gives.bracketed (fun h2 => ?_) (yields_closeTable b rest)
  have hsteps : ∀ e ∈ es, Steps (fieldEntry (fieldReaders fields)) (b - 1) (textAt (level + 1))
      (fieldStep value) e := by
    intro e he
    obtain ⟨field, hfield, hread⟩ := h h2 e he
    exact steps_fieldEntry hfield hread
  have hentries := gives_entries hsteps [] htext
  rw [foldlM_fieldStep value hnodup fun _ _ => List.not_mem_nil, foldlM_entries] at hentries
  rw [fieldsInTable, ← bind_assoc]
  cases hgot : es.mapM fun e => (value e).map (e.1, ·) with
  | none =>
    rw [hgot] at hentries
    exact Fails.bind hentries
  | some got =>
    rw [hgot] at hentries
    refine Yields.bind hentries ?_
    have hnames : (Entries.names got).Nodup := by
      rw [(eq_map_of_mapM_entries hgot .null).1, Entries.names, List.map_map]
      exact hnodup
    simp only [complete_fieldReaders, List.append_nil, Option.bind_some]
    rw [Shape.complete_congr (Entries.get?_reverse hnames)]
    cases hcomplete : Shape.complete got fields with
    | ok es' => exact yields_pure _ _ _
    | error e => exact fun c _ _ => ⟨_, c, rfl⟩

/-- A record whose fields each come once; those that are missing are completed. -/
theorem reads_record_each (name : String) {fields : List (String × Shape × Option Data)}
    {f : String × Data → Data} {es es' : List (String × Data)} (hnodup : (Entries.names es).Nodup)
    (h : ∀ e ∈ es, ∃ field, Entries.get? e.1 fields = some field ∧ Reads (readerOf field.1) e.2 (f e))
    (hcomplete : Shape.complete (es.map fun e => (e.1, f e)) fields = .ok es') :
    Reads (readerOf (.record name fields)) (.table es) (.table es') := by
  intro b level _
  have hread : ReadsAs (readerOf (.record name fields)) b (textAt level (.table es)) _ := readsAs_record name
    (fun e => if e.2.depth < b - 1 then some (f e) else none) hnodup fun h2 e he => by
      obtain ⟨field, hfield, hreads⟩ := h e he
      exact ⟨field, hfield, hreads (b - 1) (level + 1) (by omega)⟩
  rw [mapM_guarded_entries] at hread
  have hres : ∀ p : Prop, ∀ _ : Decidable p, ((if p then some (es.map fun e => (e.1, f e)) else none).bind
      fun got => (Shape.complete got fields).toOption.map Data.table) = if p then some (.table es') else none := by
    intro p _
    split
    · rw [Option.bind_some, hcomplete]
      rfl
    · rfl
  rwa [hres, ite_table_depth] at hread

/-- A record whose fields are each read as themselves. -/
theorem reads_record (name : String) {fields : List (String × Shape × Option Data)}
    {es es' : List (String × Data)} (hnodup : (Entries.names es).Nodup)
    (h : ∀ e ∈ es, ∃ f, Entries.get? e.1 fields = some f ∧ Reads (readerOf f.1) e.2 e.2)
    (hcomplete : Shape.complete es fields = .ok es') :
    Reads (readerOf (.record name fields)) (.table es) (.table es') := by
  refine reads_record_each (f := Prod.snd) name hnodup h ?_
  rwa [show (es.map fun e => (e.1, e.2)) = es from List.map_id es]

/-! ## Documents -/

/-- A value behind which nothing stands. -/
def lastOf (r : Reader α) : Reader α := do
  let a ← r
  match ← peekToken? with
  | some _ => failNext .trailingCharacters
  | none => return a

/-- What a reader makes of a document. -/
def readBy (r : Reader α) (text : String) : Except Fault α :=
  match (lastOf r).run { rest := text.toList } with
  | .ok a _ => .ok a
  | .error f _ => .error f

theorem document_eq (shape : Shape) : document shape = lastOf (readerOf shape) := rfl

theorem read_eq_readBy (shape : Shape) (text : String) : read shape text = readBy (readerOf shape) text := by
  rw [read, readBy, document_eq]
  cases EStateM.run (lastOf (readerOf shape)) { rest := text.toList } <;> rfl

/-- A document is read as the data in it, behind which nothing stands. -/
theorem toOption_readBy_pretty {r : Reader α} {d : Data} {res : Option α}
    (h : ReadsAs r 128 (textAt 0 d) res) : (readBy r (pretty d)).toOption = res := by
  have hdoc := h [] [] spaces_nil ends_nil
  rw [List.append_nil, List.nil_append] at hdoc
  rw [readBy, EStateM.run]
  cases res with
  | some a =>
    have hnil : ∀ ch ∈ ([] : List Char).head?, isSpace ch = false := fun _ h => nomatch h
    have hend : Yields (lastOf r) 128 (textAt 0 d) a [] :=
      Yields.bind hdoc ((yields_peekToken 128 spaces_nil hnil).bind (yields_pure 128 [] a))
    obtain ⟨c, hc, -, -⟩ := hend { rest := (pretty d).toList } rfl rfl
    rw [hc]
    rfl
  | none =>
    have hend : Fails (lastOf r) 128 (textAt 0 d) := Fails.bind hdoc
    obtain ⟨f, c, hc⟩ := hend { rest := (pretty d).toList } rfl rfl
    rw [hc]
    rfl

theorem toOption_read_pretty {shape : Shape} {d : Data} {res : Option Data}
    (h : ReadsAs (readerOf shape) 128 (textAt 0 d) res) : (read shape (pretty d)).toOption = res := by
  rw [read_eq_readBy, toOption_readBy_pretty h]

/-- **A document is read back just when it is not nested too deep.** -/
theorem read_pretty {shape : Shape} {d d' : Data} (h : Reads (readerOf shape) d d') :
    (d.depth < 128 → read shape (pretty d) = .ok d') ∧
      (¬ d.depth < 128 → ∃ f, read shape (pretty d) = .error f) := by
  have hread := toOption_read_pretty (h 128 0 (by decide))
  constructor
  · intro hdepth
    rw [if_pos hdepth] at hread
    exact eq_ok_of_toOption hread
  · intro hdepth
    rw [if_neg hdepth] at hread
    cases hresult : read shape (pretty d) with
    | ok d'' =>
      rw [hresult] at hread
      cases hread
    | error f => exact ⟨f, rfl⟩

end PluginChain.Json
