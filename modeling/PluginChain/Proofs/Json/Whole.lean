import PluginChain.Proofs.Entries
import PluginChain.Proofs.Json.Brackets

/-!
# Written data is read back, if it is not nested too deep

`Data.depth` counts how deep brackets are nested in data.  The writer has no limit for it, the reader
has: with `b` levels left, data is read from its text just when its depth is below `b`, and otherwise the
reader meets a fault (`reads_any`).  There is no third case: nothing is read as something else.

This holds of data that documents can hold, `Data.Plain`: whole numbers of 64 bits, tables in the order
of their names, and doubles whose own texts are read back.  A double is scaled when it is read, and some
come out as a neighbour of what was written, whence the last condition.
-/

set_option autoImplicit false

namespace PluginChain

namespace Data

/-- How deep brackets are nested in data. -/
def depth : Data → Nat
  | .list xs => depthOfItems xs + 1
  | .table es => depthOfEntries es + 1
  | _ => 0
where
  depthOfItems : List Data → Nat
    | [] => 0
    | x :: xs => max x.depth (depthOfItems xs)
  depthOfEntries : List (String × Data) → Nat
    | [] => 0
    | (_, x) :: es => max x.depth (depthOfEntries es)

/-- The items of a list have a level less. -/
theorem depth_list_lt_iff {xs : List Data} {b : Nat} :
    (Data.list xs).depth < b ↔ 2 ≤ b ∧ ∀ x ∈ xs, x.depth < b - 1 := by
  rw [depth]
  induction xs with
  | nil =>
    simp only [depth.depthOfItems, List.not_mem_nil, false_implies, implies_true, and_true]
    omega
  | cons x xs ih =>
    have hmax : max x.depth (depth.depthOfItems xs) + 1 < b ↔
        x.depth < b - 1 ∧ depth.depthOfItems xs + 1 < b := by omega
    rw [depth.depthOfItems, hmax, ih, List.forall_mem_cons, and_left_comm]

/-- The values in a table have a level less. -/
theorem depth_table_lt_iff {es : List (String × Data)} {b : Nat} :
    (Data.table es).depth < b ↔ 2 ≤ b ∧ ∀ e ∈ es, e.2.depth < b - 1 := by
  rw [depth]
  induction es with
  | nil =>
    simp only [depth.depthOfEntries, List.not_mem_nil, false_implies, implies_true, and_true]
    omega
  | cons e es ih =>
    obtain ⟨n, x⟩ := e
    have hmax : max x.depth (depth.depthOfEntries es) + 1 < b ↔
        x.depth < b - 1 ∧ depth.depthOfEntries es + 1 < b := by omega
    rw [depth.depthOfEntries, hmax, ih, List.forall_mem_cons, and_left_comm]

end Data

namespace Json

/-! ## The first character of a text -/

theorem opens_of_digit {ch : Char} (h : isDigit ch = true) (rest : List Char) :
    Opens (ch :: rest) := by
  refine ⟨ch, rest, rfl, ?_, ?_, ?_⟩
  · cases hs : isSpace ch with
    | false => rfl
    | true =>
      simp only [isSpace, Bool.or_eq_true, decide_eq_true_eq] at hs
      rcases hs with ((rfl | rfl) | rfl) | rfl <;> cases h
  · rintro rfl
    cases h
  · rintro rfl
    cases h

theorem opens_digits (n : Nat) (rest : List Char) : Opens (Nat.toDigits 10 n ++ rest) := by
  obtain ⟨d, ds, hds⟩ := List.exists_cons_of_ne_nil (Nat.toDigits_ne_nil (n := n) (b := 10))
  rw [hds]
  exact opens_of_digit (isDigit_of_mem_toDigits (n := n) (hds ▸ List.mem_cons_self)) _

theorem toList_int (n : Int) :
    (toString n).toList = (if n < 0 then ['-'] else []) ++ Nat.toDigits 10 n.natAbs := by
  cases n with
  | ofNat m => simp [toString, Int.repr, Nat.toList_repr]
  | negSucc m => simp [toString, Int.repr, Nat.toList_repr]

open Decimal in
theorem isDigit_of_mem_shortest (x : Binary) {ch : Char} (h : ch ∈ (shortest x).digits) :
    isDigit ch = true := by
  rw [shortest] at h
  split at h
  · cases h
  · simp only [Digits.ofNat] at h
    split at h
    · cases h
    · rw [List.mem_reverse] at h
      exact isDigit_of_mem_toDigits (List.mem_reverse.1 ((List.dropWhile_sublist _).mem h))

open Decimal in
theorem opens_positional {digits : List Char} (h : ∀ ch ∈ digits, isDigit ch = true) (point : Int)
    (mark : Bool) : Opens (positional digits point mark) := by
  have hz : isDigit '0' = true := by decide
  rw [positional]
  cases digits with
  | nil => exact opens_of_digit hz _
  | cons d ds =>
    have hd := h d List.mem_cons_self
    simp only [List.isEmpty_cons, Bool.false_eq_true, if_false]
    split
    · exact opens_of_digit hz _
    · next hp =>
      split
      · exact opens_of_digit hd _
      · obtain ⟨k, hk⟩ : ∃ k, point.toNat = k + 1 := ⟨point.toNat - 1, by omega⟩
        rw [hk]
        exact opens_of_digit hd _

open Decimal in
theorem opens_scientific {digits : List Char} (h : ∀ ch ∈ digits, isDigit ch = true) (point : Int)
    (l : Layout) : Opens (scientific digits point l) := by
  unfold scientific
  cases digits with
  | nil => exact opens_of_digit (by decide) _
  | cons d ds =>
    have hd := h d List.mem_cons_self
    cases ds with
    | nil => exact opens_of_digit hd _
    | cons e ds => exact opens_of_digit hd _

/-- A double that is finite is shown by digits. -/
theorem isDigit_of_mem_digits {x : Float} {d : Decimal.Digits} (h : Decimal.Shown.ofFloat x = .finite d) :
    ∀ ch ∈ d.digits, isDigit ch = true := by
  rw [Decimal.Shown.ofFloat] at h
  split at h
  · cases h
    exact fun ch => isDigit_of_mem_shortest _
  · split at h <;> cases h

open Decimal in
theorem opens_floatText (x : Float) : Opens (floatText x).toList := by
  rw [floatText]
  split
  · exact ⟨'n', _, rfl, by decide⟩
  · rw [Layout.render]
    split
    · next d hd =>
      have hdigits := isDigit_of_mem_digits hd
      rw [Layout.renderDigits, String.toList_ofList]
      split
      · exact ⟨'-', _, rfl, by decide⟩
      · split
        · exact opens_positional hdigits _ _
        · exact opens_scientific hdigits _ _
    · split
      · exact ⟨'-', _, rfl, by decide⟩
      · exact ⟨'i', _, rfl, by decide⟩
    · exact ⟨'N', _, rfl, by decide⟩

/-! ## The text of data -/

/-- The characters of data, as they stand at a level of nesting. -/
def textAt (level : Nat) (d : Data) : List Char := (prettyAt level d).toList

theorem textAt_text (level : Nat) (s : String) :
    textAt level (.text s) = '\"' :: (s.toList.flatMap escaped ++ ['\"']) := by
  rw [textAt, prettyAt, toList_quoted]

theorem textAt_list (level : Nat) (xs : List Data) :
    textAt level (.list xs) = bracketText '[' ']' level (xs.map (textAt (level + 1))) := by
  have hitems : (prettyItems (level + 1) xs).map String.toList = xs.map (textAt (level + 1)) := by
    induction xs with
    | nil => rw [prettyItems]; rfl
    | cons x xs ih => rw [prettyItems, List.map_cons, ih]; rfl
  rw [textAt, prettyAt, show ("[" : String) = String.ofList ['['] from rfl,
    show ("]" : String) = String.ofList [']'] from rfl, toList_block, hitems]

theorem textAt_table (level : Nat) (es : List (String × Data)) :
    textAt level (.table es) = bracketText '\x7b' '\x7d' level (entryTexts (textAt (level + 1)) es) := by
  have hentries : (prettyEntries (level + 1) es).map String.toList =
      entryTexts (textAt (level + 1)) es := by
    induction es with
    | nil => rw [prettyEntries]; rfl
    | cons e es ih =>
      obtain ⟨n, x⟩ := e
      rw [prettyEntries, List.map_cons, ih, String.toList_append, String.toList_append, toList_quoted]
      simp [entryTexts, entryText, textAt]
  rw [textAt, prettyAt, show ("\x7b" : String) = String.ofList ['\x7b'] from rfl,
    show ("\x7d" : String) = String.ofList ['\x7d'] from rfl, toList_block, hentries]

/-- Data starts with a character that nothing between items starts with. -/
theorem opens_textAt (level : Nat) (d : Data) : Opens (textAt level d) := by
  cases d with
  | null =>
    rw [textAt, prettyAt]
    exact ⟨'n', _, rfl, by decide⟩
  | flag v =>
    rw [textAt, prettyAt]
    cases v with
    | false => exact ⟨'f', _, rfl, by decide⟩
    | true => exact ⟨'t', _, rfl, by decide⟩
  | int n =>
    rw [textAt, prettyAt, toList_int]
    split
    · exact ⟨'-', _, rfl, by decide⟩
    · have h := opens_digits n.natAbs []
      rwa [List.append_nil] at h
  | float x => exact opens_floatText x
  | text s =>
    rw [textAt_text]
    exact ⟨'\"', _, rfl, by decide⟩
  | list xs =>
    rw [textAt_list]
    cases xs <;> exact ⟨'[', _, rfl, by decide⟩
  | table es =>
    rw [textAt_table]
    cases es <;> exact ⟨'\x7b', _, rfl, by decide⟩

/-! ## Reading data of any kind -/

/-- The reader makes `d'` of the text of `d` where the levels of nesting suffice for `d`, and meets a
fault where they do not. -/
def Reads (r : Reader Data) (d d' : Data) : Prop :=
  ∀ b level, 1 ≤ b → ReadsAs r b (textAt level d) (if d.depth < b then some d' else none)

/-- The text of a double is read as this double. -/
def ReadsFloat (x : Float) : Prop :=
  ∀ b, ReadsAs (whole (b + 1)) b (floatText x).toList (some (.float x))

end Json

/-- Data that is read off its text as it stands there: whole numbers of 64 bits, and doubles whose texts
are read as themselves. -/
inductive Data.Printable : Data → Prop
  | null : Printable .null
  | flag (v : Bool) : Printable (.flag v)
  | int {n : Int} (low : -2 ^ 63 ≤ n) (high : n < 2 ^ 64) : Printable (.int n)
  | float {x : Float} (reads : Json.ReadsFloat x) : Printable (.float x)
  | text (s : String) : Printable (.text s)
  | list {xs : List Data} (items : ∀ x ∈ xs, Printable x) : Printable (.list xs)
  | table {es : List (String × Data)} (entries : ∀ e ∈ es, Printable e.2) : Printable (.table es)

theorem Data.Printable.of_mem_list {xs : List Data} (h : (Data.list xs).Printable) {x : Data} (hx : x ∈ xs) :
    x.Printable := by
  cases h with
  | list items => exact items x hx

theorem Data.Printable.of_mem_table {es : List (String × Data)} (h : (Data.table es).Printable)
    {e : String × Data} (he : e ∈ es) : e.2.Printable := by
  cases h with
  | table entries => exact entries e he

/-- Data as a document can hold it: whole numbers of 64 bits, doubles whose texts are read as
themselves, and tables in the order of their names. -/
inductive Data.Plain : Data → Prop
  | null : Plain .null
  | flag (v : Bool) : Plain (.flag v)
  | int {n : Int} (low : -2 ^ 63 ≤ n) (high : n < 2 ^ 64) : Plain (.int n)
  | float {x : Float} (reads : Json.ReadsFloat x) : Plain (.float x)
  | text (s : String) : Plain (.text s)
  | list {xs : List Data} (items : ∀ x ∈ xs, Plain x) : Plain (.list xs)
  | table {es : List (String × Data)} (sorted : Entries.Sorted es) (entries : ∀ e ∈ es, Plain e.2) :
    Plain (.table es)

theorem Data.Plain.printable {d : Data} (h : d.Plain) : d.Printable := by
  induction h with
  | null => exact .null
  | flag v => exact .flag v
  | int low high => exact .int low high
  | float reads => exact .float reads
  | text s => exact .text s
  | list _ ih => exact .list ih
  | table _ _ ih => exact .table ih

namespace Json

/-- Parts that each have a value under a condition have them together under all conditions. -/
theorem mapM_guarded {ι α : Type} (p : ι → Prop) [DecidablePred p] (f : ι → α) (xs : List ι) :
    xs.mapM (fun x => if p x then some (f x) else none) =
      if ∀ x ∈ xs, p x then some (xs.map f) else none := by
  induction xs with
  | nil => simp
  | cons x xs ih =>
    rw [List.mapM_cons, ih]
    by_cases hx : p x
    · by_cases hxs : ∀ y ∈ xs, p y
      · have hall : ∀ y ∈ x :: xs, p y := List.forall_mem_cons.2 ⟨hx, hxs⟩
        rw [if_pos hx, if_pos hxs, if_pos hall]
        rfl
      · have hall : ¬ ∀ y ∈ x :: xs, p y := fun h => hxs (List.forall_mem_cons.1 h).2
        rw [if_pos hx, if_neg hxs, if_neg hall]
        rfl
    · have hall : ¬ ∀ y ∈ x :: xs, p y := fun h => hx (List.forall_mem_cons.1 h).1
      rw [if_neg hx, if_neg hall]
      rfl

/-- The values of a table together, as far as levels of nesting suffice. -/
theorem mapM_guarded_entries (k : Nat) (f : String × Data → Data) (es : List (String × Data)) :
    es.mapM (fun e => (if e.2.depth < k then some (f e) else none).map (e.1, ·)) =
      if ∀ e ∈ es, e.2.depth < k then some (es.map fun e => (e.1, f e)) else none := by
  rw [← mapM_guarded (fun e : String × Data => e.2.depth < k) fun e => (e.1, f e)]
  congr 1
  funext e
  split <;> rfl

theorem ite_list_depth {α : Type} (xs : List Data) (b : Nat) (a : α) :
    (if 2 ≤ b then if ∀ x ∈ xs, x.depth < b - 1 then some a else none else none) =
      if (Data.list xs).depth < b then some a else none := by
  simp only [Data.depth_list_lt_iff, ite_and]

theorem ite_table_depth {α : Type} (es : List (String × Data)) (b : Nat) (a : α) :
    (if 2 ≤ b then if ∀ e ∈ es, e.2.depth < b - 1 then some a else none else none) =
      if (Data.table es).depth < b then some a else none := by
  simp only [Data.depth_table_lt_iff, ite_and]

/-- Data without brackets is read however few levels are left. -/
theorem readsAs_of_flat {r : Reader Data} {p : List Char} {d d' : Data} {b : Nat} (hd : d.depth = 0)
    (hb : 1 ≤ b) (h : ReadsAs r b p (some d')) :
    ReadsAs r b p (if d.depth < b then some d' else none) := by
  rwa [if_pos (by omega)]

/-- A list gives what each of its items does, just when levels of nesting suffice. -/
theorem gives_list_each {item : Reader Data} {xs : List Data} {b level : Nat} (f : Data → Data)
    (hreads : 2 ≤ b → ∀ x ∈ xs, ReadsAs item (b - 1) (textAt (level + 1) x)
      (if x.depth < b - 1 then some (f x) else none)) (rest : List Char) :
    Gives (bracketed closeList (itemsOf item)) b (textAt level (.list xs) ++ rest)
      ((if (Data.list xs).depth < b then some (xs.map f) else none).map (·, rest)) := by
  have hlist := gives_list (fun x _ => opens_textAt (level + 1) x) hreads level rest
  rw [mapM_guarded (fun x : Data => x.depth < b - 1) f xs, ite_list_depth] at hlist
  rwa [textAt_list]

/-- A table gives what each of its values does, just when levels of nesting suffice. -/
theorem gives_table_each {item : Reader Data} {es : List (String × Data)} {b level : Nat} (f : Data → Data)
    (hreads : 2 ≤ b → ∀ e ∈ es, ReadsAs item (b - 1) (textAt (level + 1) e.2)
      (if e.2.depth < b - 1 then some (f e.2) else none)) (rest : List Char) :
    Gives (bracketed closeTable (entriesOf item)) b (textAt level (.table es) ++ rest)
      ((if (Data.table es).depth < b then some (es.map fun e => (e.1, f e.2)) else none).map
        (·, rest)) := by
  have htable := gives_table hreads level rest
  rw [mapM_guarded_entries (b - 1) (fun e => f e.2) es, ite_table_depth] at htable
  rwa [textAt_table]

theorem exists_textAt_list (level : Nat) (xs : List Data) (rest : List Char) :
    ∃ inp, textAt level (.list xs) ++ rest = '[' :: inp := by
  rw [textAt_list]
  exact exists_bracketText '[' ']' level _ rest

theorem exists_textAt_table (level : Nat) (es : List (String × Data)) (rest : List Char) :
    ∃ inp, textAt level (.table es) ++ rest = '\x7b' :: inp := by
  rw [textAt_table]
  exact exists_bracketText '\x7b' '\x7d' level _ rest

theorem readsAs_whole_flag (n b level : Nat) (v : Bool) :
    ReadsAs (whole (n + 1)) b (textAt level (.flag v)) (some (.flag v)) := by
  intro ws rest hws _
  rw [whole, textAt, prettyAt]
  cases v with
  | false =>
    refine (yields_peekValue b hws rfl _).bind ((yields_skip b 'f' _).bind ?_)
    exact (yields_word b ['a', 'l', 's', 'e'] rest).bind (yields_pure b rest _)
  | true =>
    refine (yields_peekValue b hws rfl _).bind ((yields_skip b 't' _).bind ?_)
    exact (yields_word b ['r', 'u', 'e'] rest).bind (yields_pure b rest _)

theorem readsAs_whole_int (b level : Nat) {n : Int} (low : -2 ^ 63 ≤ n) (high : n < 2 ^ 64) :
    ReadsAs (whole (b + 1)) b (textAt level (.int n)) (some (.int n)) := by
  intro ws rest hws hrest
  rw [whole, textAt, prettyAt, toList_int]
  split
  · next hneg =>
    refine (yields_peekValue b hws rfl _).bind ((yields_skip b '-' _).bind ?_)
    refine (yields_number b true n.natAbs hrest (by omega) (by omega)).bind ?_
    have hn : signed true n.natAbs = n := by
      rw [signed, if_pos rfl]
      omega
    rw [hn]
    exact yields_pure b rest _
  · next hpos =>
    -- the reader tells a number by its first character, which is a digit here
    obtain ⟨d, ds, hds⟩ :=
      List.exists_cons_of_ne_nil (Nat.toDigits_ne_nil (n := n.natAbs) (b := 10))
    have hd : isDigit d = true :=
      isDigit_of_mem_toDigits (n := n.natAbs) (hds ▸ List.mem_cons_self)
    obtain ⟨ch, tl, hcons, hs, -, -⟩ := opens_of_digit hd []
    cases hcons
    have hnum := yields_number b false n.natAbs hrest (by omega) nofun
    have hn : signed false n.natAbs = n := by
      rw [signed, if_neg (by decide)]
      omega
    rw [hn] at hnum
    rw [List.nil_append]
    rw [hds] at hnum ⊢
    refine (yields_peekValue b hws hs _).bind ?_
    split
    case h_8 =>
      rw [if_pos hd]
      exact hnum.bind (yields_pure b rest _)
    all_goals exact absurd hd (by decide)

theorem readsAs_whole_text (n b level : Nat) (s : String) :
    ReadsAs (whole (n + 1)) b (textAt level (.text s)) (some (.text s)) := by
  intro ws rest hws _
  rw [whole, textAt_text, List.cons_append, List.append_assoc]
  refine (yields_peekValue b hws rfl _).bind ((yields_skip b '\"' _).bind ?_)
  exact (yields_stringRest b s rest).bind (yields_pure b rest _)

theorem readsAs_whole_null (n b level : Nat) :
    ReadsAs (whole (n + 1)) b (textAt level .null) (some .null) := by
  intro ws rest hws _
  rw [whole, textAt, prettyAt]
  refine (yields_peekValue b hws rfl _).bind ((yields_skip b 'n' _).bind ?_)
  exact (yields_word b ['u', 'l', 'l'] rest).bind (yields_pure b rest _)

/-- Data is read from its text just when levels of nesting suffice. -/
theorem readsAs_whole {d : Data} (h : d.Printable) : ∀ b level, 1 ≤ b →
    ReadsAs (whole (b + 1)) b (textAt level d) (if d.depth < b then some d else none) := by
  induction h with
  | null =>
    intro b level hb
    exact readsAs_of_flat rfl hb (readsAs_whole_null b b level)
  | flag v =>
    intro b level hb
    exact readsAs_of_flat rfl hb (readsAs_whole_flag b b level v)
  | int low high =>
    intro b level hb
    exact readsAs_of_flat rfl hb (readsAs_whole_int b level low high)
  | float reads =>
    intro b level hb
    exact readsAs_of_flat rfl hb (reads b)
  | text s =>
    intro b level hb
    exact readsAs_of_flat rfl hb (readsAs_whole_text b b level s)
  | @list xs _ ih =>
    intro b level hb ws rest hws _
    have hreads : 2 ≤ b → ∀ x ∈ xs, ReadsAs (whole b) (b - 1) (textAt (level + 1) x)
        (if x.depth < b - 1 then some x else none) := by
      intro h2 x hx
      have h := ih x hx (b - 1) (level + 1) (by omega)
      rwa [Nat.sub_add_cancel hb] at h
    have hlist := (gives_list_each id hreads rest).bind_pure Data.list
    obtain ⟨inp, hinp⟩ := exists_textAt_list level xs rest
    rw [Option.map_if, List.map_id, hinp] at hlist
    rw [hinp, whole]
    exact (yields_peekValue b hws rfl inp).bind hlist
  | @table es _ ih =>
    intro b level hb ws rest hws _
    have hreads : 2 ≤ b → ∀ e ∈ es, ReadsAs (whole b) (b - 1) (textAt (level + 1) e.2)
        (if e.2.depth < b - 1 then some e.2 else none) := by
      intro h2 e he
      have h := ih e he (b - 1) (level + 1) (by omega)
      rwa [Nat.sub_add_cancel hb] at h
    have htable := (gives_table_each id hreads rest).bind_pure Data.table
    obtain ⟨inp, hinp⟩ := exists_textAt_table level es rest
    rw [Option.map_if, show (es.map fun e => (e.1, id e.2)) = es from List.map_id es, hinp] at htable
    rw [hinp, whole]
    exact (yields_peekValue b hws rfl inp).bind htable

theorem reads_anyValue {d : Data} (h : d.Printable) : Reads anyValue d d := by
  intro b level hb ws rest hws hrest
  refine yields_get fun c _ hc => ?_
  rw [hc]
  exact readsAs_whole h b level hb ws rest hws hrest

end Json

/-- Plain data is in order as it is. -/
theorem Data.settle_eq_self {d : Data} (h : d.Plain) : d.settle = d := by
  induction h with
  | null => rfl
  | flag v => rfl
  | int low high => rfl
  | float reads => rfl
  | text s => rfl
  | @list xs _ ih =>
    have hxs : ∀ ys : List Data, (∀ y ∈ ys, y.settle = y) → settle.settleList ys = ys := by
      intro ys
      induction ys with
      | nil => exact fun _ => rfl
      | cons y ys ihs =>
        intro hys
        rw [settle.settleList, hys y List.mem_cons_self,
          ihs fun z hz => hys z (List.mem_cons_of_mem _ hz)]
    rw [settle, hxs xs ih]
  | @table es sorted _ ih =>
    have hes : ∀ as : List (String × Data), (∀ e ∈ as, e.2.settle = e.2) →
        settle.settleEntries as = as := by
      intro as
      induction as with
      | nil => exact fun _ => rfl
      | cons e as ihs =>
        obtain ⟨n, x⟩ := e
        intro has
        have hx : x.settle = x := has (n, x) List.mem_cons_self
        rw [settle.settleEntries, hx, ihs fun z hz => has z (List.mem_cons_of_mem _ hz)]
    rw [settle, hes es ih, Entries.ofList_eq_self sorted]

/-- What is read of any kind is put in order. -/
theorem Json.reads_settled {d : Data} (h : d.Printable) : Reads (readerOf .any) d d.settle := by
  intro b level hb ws rest hws hrest
  have hread := (reads_anyValue h b level hb ws rest hws hrest).bind_pure Data.settle
  rw [Option.map_if] at hread
  rw [readerOf, ← bind_pure_comp]
  exact hread

/-- **Data of any kind is read back just when it is not nested too deep.** -/
theorem Json.reads_any {d : Data} (h : d.Plain) : Reads (readerOf .any) d d := by
  have hread := reads_settled h.printable
  rwa [Data.settle_eq_self h] at hread

end PluginChain
