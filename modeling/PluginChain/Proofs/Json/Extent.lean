import PluginChain.Proofs.Json.Shape

/-!
# A value goes as far as its text

What a reader makes of the text of data, a value or a fault, it makes of this text alone, and if it is a value
the reader stops where the text ends (`goesBy_whole`).  `reads_any` says more of data that documents can hold,
namely that the value is this data.  Here nothing is assumed of the data: a double that is read as its
neighbour still ends where it was written to end, and so does a whole number that 64 bits do not hold.

Numbers are what has to be looked at (`NumberText`), as they have no closing character.  The rest follows
from what is known of brackets.
-/

set_option autoImplicit false

namespace PluginChain.Json

open Operation

variable {α β : Type} {r : Reader α} {b : Nat} {p : List Char}

/-- Whatever the reader makes of the text, it makes of this text alone, and it stops where the text ends. -/
def GoesBy (r : Reader α) (b : Nat) (p : List Char) : Prop := ∃ res, ReadsAs r b p res

/-- The same of a reader that comes to the text right away, without white space before it. -/
def GoesOnBy (r : Reader α) (b : Nat) (p : List Char) : Prop :=
  ∃ res : Option α, ∀ rest, Ends rest → Gives r b (p ++ rest) (res.map (·, rest))

theorem GoesOnBy.of_fails (h : ∀ rest, Ends rest → Fails r b (p ++ rest)) : GoesOnBy r b p := ⟨none, h⟩

/-- What was read before does not matter. -/
theorem GoesOnBy.behind {f : β → Reader α} {before : Reader β} {x : β} {q : List Char} (h : GoesOnBy (f x) b q)
    (hbefore : ∀ rest, Ends rest → Yields before b (p ++ rest) x (q ++ rest)) : GoesOnBy (before >>= f) b p :=
  h.imp fun _ h rest hrest => (hbefore rest hrest).bind (h rest hrest)

theorem GoesOnBy.bind_pure (h : GoesOnBy r b p) (g : α → β) : GoesOnBy (r >>= fun a => pure (g a)) b p := by
  obtain ⟨res, h⟩ := h
  exact ⟨res.map g, fun rest hrest => (h rest hrest).bind_pure g⟩

theorem Reads.goesBy {r : Reader Data} {d d' : Data} (h : Reads r d d') (level : Nat) (hb : 1 ≤ b) :
    GoesBy r b (textAt level d) :=
  ⟨_, h b level hb⟩

/-! ## The texts of numbers -/

/-- Digits, at least one. -/
structure DigitText (ds : List Char) : Prop where
  ne_nil : ds ≠ []
  digits : ∀ ch ∈ ds, isDigit ch = true

/-- An exponent with its sign, or nothing. -/
inductive ExponentText : List Char → Prop
  | nothing : ExponentText []
  | digits {sign : Char} {ds : List Char} (hsign : sign = '+' ∨ sign = '-') (hds : DigitText ds) :
    ExponentText ('e' :: sign :: ds)

/-- What may stand behind the first digits of a number. -/
inductive TailText : List Char → Prop
  | exponent {e : List Char} (he : ExponentText e) : TailText e
  | point {ds e : List Char} (hds : DigitText ds) (he : ExponentText e) : TailText ('.' :: (ds ++ e))

/-- A number without its minus sign. -/
inductive NumberText : List Char → Prop
  | digits {ds tail : List Char} (hds : DigitText ds) (htail : TailText tail) : NumberText (ds ++ tail)

theorem ExponentText.isDigit_head {e : List Char} (h : ExponentText e) {rest : List Char} (hrest : Ends rest) :
    ∀ ch ∈ (e ++ rest).head?, isDigit ch = false := by
  cases h with
  | nothing => exact fun ch hch => (hrest ch hch).1
  | digits =>
    intro ch hch
    cases hch
    rfl

theorem TailText.isDigit_head {tail : List Char} (h : TailText tail) {rest : List Char} (hrest : Ends rest) :
    ∀ ch ∈ (tail ++ rest).head?, isDigit ch = false := by
  cases h with
  | exponent he => exact he.isDigit_head hrest
  | point =>
    intro ch hch
    cases hch
    rfl

theorem DigitText.exists_cons {ds : List Char} (h : DigitText ds) :
    ∃ d tl, ds = d :: tl ∧ isDigit d = true ∧ ∀ ch ∈ tl, isDigit ch = true := by
  obtain ⟨d, tl, rfl⟩ := List.exists_cons_of_ne_nil h.ne_nil
  exact ⟨d, tl, rfl, h.digits d List.mem_cons_self, fun ch hch => h.digits ch (List.mem_cons_of_mem _ hch)⟩

/-! ## Reading numbers -/

/-- The number that a gathered number and an exponent make, if it is no greater than all doubles. -/
def doubleNumber? (negative : Bool) (n : Nat) (exponent : Int) : Option Number :=
  (scaled? (Float.ofNat n) exponent).map fun x => .float (if negative then -x else x)

theorem gives_toDouble (b : Nat) (negative : Bool) (n : Nat) (exponent : Int) (rest : List Char) :
    Gives (toDouble negative n exponent) b rest ((doubleNumber? negative n exponent).map (·, rest)) := by
  unfold toDouble doubleNumber?
  cases scaled? (Float.ofNat n) exponent with
  | some x => exact yields_pure b rest _
  | none => exact fun c _ _ => ⟨_, c, rfl⟩

/-- The number that a gathered number and the digits of an exponent make.  Where the exponent has too many
digits to be looked at, the number is zero or too great. -/
def exponentNumber? (negative : Bool) (n : Nat) (start : Int) (down : Bool) (ds : List Char) : Option Number :=
  match (List.range ds.length).find? fun k =>
      2 ^ 31 - 1 < (ds.take (k + 1)).foldl (fun m d => 10 * m + (d.toNat - 48)) 0 with
  | some _ => if n ≠ 0 ∧ !down then none else some (.float (if negative then -0.0 else 0.0))
  | none =>
    let e : Int := ds.foldl (fun m d => 10 * m + (d.toNat - 48)) (0 : Nat)
    doubleNumber? negative n (if down then start - e else start + e)

theorem gives_exponentTail (b : Nat) (negative : Bool) (n : Nat) (start : Int) {sign : Char} {ds : List Char}
    (hsign : sign = '+' ∨ sign = '-') (hds : DigitText ds) {rest : List Char} (hrest : Ends rest) :
    Gives (exponentTail negative n start) b ('e' :: sign :: (ds ++ rest))
      ((exponentNumber? negative n start (sign = '-') ds).map (·, rest)) := by
  obtain ⟨d, tl, rfl, hd, htl⟩ := hds.exists_cons
  have hread := yields_digits b htl fun ch hch => (hrest ch hch).1
  rw [exponentTail]
  refine (yields_skip b 'e' _).bind ((yields_peek b _).bind ?_)
  extract_lets digitsOf
  -- behind the sign the two cases go on alike
  have hdigits : ∀ down, Gives (digitsOf down) b (d :: (tl ++ rest))
      ((exponentNumber? negative n start down (d :: tl)).map (·, rest)) := by
    intro down
    refine (yields_next b d _).bind ?_
    simp only [hd, if_true]
    refine yields_get fun c hc _ => ?_
    rw [hc, takeWhile_digits htl fun ch hch => (hrest ch hch).1, exponentNumber?]
    generalize List.find? _ _ = tooGreat
    cases tooGreat with
    | some k =>
      by_cases hn : n ≠ 0 ∧ (!down) = true
      · simp only [if_pos hn]
        exact fun c _ _ => ⟨_, _, rfl⟩
      · simp only [if_neg hn]
        exact hread.bind (yields_pure b rest _)
    | none => exact hread.bind (gives_toDouble b _ _ _ rest)
  rcases hsign with rfl | rfl
  · exact (yields_skip b '+' _).bind ((yields_pure b _ false).bind (hdigits false))
  · exact (yields_skip b '-' _).bind ((yields_pure b _ true).bind (hdigits true))

/-- What ends a number is none of the characters that go on with one. -/
theorem Ends.head_ne {rest : List Char} (h : Ends rest) :
    rest.head? ≠ some '.' ∧ rest.head? ≠ some 'e' ∧ rest.head? ≠ some 'E' :=
  ⟨fun hd => (h _ hd).2.1 rfl, fun hd => (h _ hd).2.2.1 rfl, fun hd => (h _ hd).2.2.2 rfl⟩

theorem goesOnBy_fractionTail (b : Nat) (negative : Bool) (n dropped : Nat) {tail : List Char}
    (h : TailText tail) : GoesOnBy (fractionTail negative n dropped) b tail := by
  have hexponent : ∀ m start {sign ds}, sign = '+' ∨ sign = '-' → DigitText ds →
      GoesOnBy (exponentTail negative m start) b ('e' :: sign :: ds) := fun m start _ _ hsign hds =>
    ⟨_, fun _ hrest => gives_exponentTail b negative m start hsign hds hrest⟩
  unfold fractionTail
  cases h with
  | exponent he =>
    cases he with
    | nothing =>
      refine ⟨doubleNumber? negative n dropped, fun rest hrest => (yields_peek b _).bind ?_⟩
      split
      · next hd => exact absurd hd hrest.head_ne.1
      · next hd => exact absurd hd hrest.head_ne.2.1
      · next hd => exact absurd hd hrest.head_ne.2.2
      · exact gives_toDouble b negative n dropped rest
    | @digits sign ds hsign hds =>
      exact .behind (x := some 'e') (hexponent n dropped hsign hds) fun rest _ => yields_peek b _
  | @point ds e hds he =>
    have hdigits : ∀ rest, Ends rest → Yields digits b ((ds ++ e) ++ rest) ds (e ++ rest) := by
      intro rest hrest
      rw [List.append_assoc]
      exact yields_digits b hds.digits (he.isDigit_head hrest)
    refine .behind (x := some '.') (q := '.' :: (ds ++ e)) ?_ fun rest _ => yields_peek b _
    refine .behind (q := ds ++ e) ?_ fun rest _ => yields_skip b '.' _
    refine .behind ?_ hdigits
    simp only [List.isEmpty_eq_false_iff.2 hds.ne_nil, Bool.false_eq_true, if_false]
    obtain ⟨m, used, _⟩ := gather n ds
    dsimp only
    cases he with
    | nothing =>
      refine ⟨doubleNumber? negative m (dropped - used), fun rest hrest => (yields_peek b _).bind ?_⟩
      split
      · next hd => exact absurd hd hrest.head_ne.2.1
      · next hd => exact absurd hd hrest.head_ne.2.2
      · exact gives_toDouble b negative m (dropped - used) rest
    | @digits sign ds hsign hds =>
      exact .behind (x := some 'e') (hexponent m (dropped - used) hsign hds) fun rest _ => yields_peek b _

theorem goesOnBy_finish (b : Nat) (negative : Bool) (n dropped : Nat) {tail : List Char} (h : TailText tail) :
    GoesOnBy (number.finish negative n dropped) b tail := by
  have hfraction := goesOnBy_fractionTail b negative n dropped h
  unfold number.finish
  cases h with
  | exponent he =>
    cases he with
    | nothing =>
      obtain ⟨res, hres⟩ : GoesOnBy (if 0 < dropped then fractionTail negative n dropped
          else if negative then
            if n = 0 ∨ 2 ^ 63 < n then return .float (-(Float.ofNat n)) else return .int (-(n : Int))
          else return .int n) b [] := by
        split
        · exact hfraction
        · split
          · split <;> exact ⟨some _, fun rest _ => yields_pure b rest _⟩
          · exact ⟨some _, fun rest _ => yields_pure b rest _⟩
      refine ⟨res, fun rest hrest => (yields_peek b _).bind ?_⟩
      split
      · next hd => exact absurd hd hrest.head_ne.1
      · next hd => exact absurd hd hrest.head_ne.2.1
      · next hd => exact absurd hd hrest.head_ne.2.2
      · exact hres rest hrest
    | digits => exact .behind (x := some 'e') hfraction fun rest _ => yields_peek b _
  | point => exact .behind (x := some '.') hfraction fun rest _ => yields_peek b _

/-- A number goes as far as its text. -/
theorem goesOnBy_number (b : Nat) (negative : Bool) (h : NumberText p) : GoesOnBy (number negative) b p := by
  cases h with
  | @digits ds tail hds htail =>
    obtain ⟨d, tl, rfl, hd, htl⟩ := hds.exists_cons
    unfold number
    refine .behind (x := some d) (q := d :: tl ++ tail) ?_ fun rest _ => yields_peek b _
    by_cases hzero : d = '0'
    · subst hzero
      refine .behind (q := tl ++ tail) ?_ fun rest _ => yields_skip b '0' _
      cases tl with
      | nil =>
        obtain ⟨res, hres⟩ := goesOnBy_finish b negative 0 0 htail
        refine ⟨res, fun rest hrest => (yields_peek b _).bind ?_⟩
        split
        · next ch hch =>
          rw [htail.isDigit_head hrest ch hch]
          exact hres rest hrest
        · exact hres rest hrest
      | cons d' tl =>
        refine .behind (x := some d') (q := d' :: tl ++ tail) ?_ fun rest _ => yields_peek b _
        simp only [htl d' List.mem_cons_self, if_true]
        exact .of_fails fun rest _ c _ _ => ⟨_, c, rfl⟩
    · split
      · next heq => cases heq
      · next heq => exact absurd (Option.some.inj heq) hzero
      · next c heq =>
        cases heq
        simp only [hd, if_true]
        refine .behind (q := tail) (x := d :: tl) ?_ fun rest hrest => ?_
        · obtain ⟨n, _, dropped⟩ := gather 0 (d :: tl)
          exact goesOnBy_finish b negative n dropped htail
        · rw [List.append_assoc]
          exact yields_digits b hds.digits (htail.isDigit_head hrest)

/-! ## Reading data -/

theorem digitText_toDigits (n : Nat) : DigitText (Nat.toDigits 10 n) :=
  ⟨Nat.toDigits_ne_nil, fun _ => isDigit_of_mem_toDigits⟩

theorem NumberText.exists_cons (h : NumberText p) : ∃ d tl, p = d :: tl ∧ isDigit d = true := by
  cases h with
  | digits hds =>
    obtain ⟨d, tl, rfl, hd, -⟩ := hds.exists_cons
    exact ⟨d, _, rfl, hd⟩

/-- A number with or without a minus sign, as data. -/
theorem goesBy_whole_number (n : Nat) (negative : Bool) (h : NumberText p) :
    GoesBy (whole (n + 1)) b (if negative then '-' :: p else p) := by
  obtain ⟨res, hres⟩ := (goesOnBy_number b negative h).bind_pure Number.data
  refine ⟨res, fun ws rest hws hrest => ?_⟩
  rw [whole]
  cases negative with
  | true =>
    refine (yields_peekValue b hws rfl _).bind ((yields_skip b '-' _).bind ?_)
    exact hres rest hrest
  | false =>
    obtain ⟨d, tl, rfl, hd⟩ := h.exists_cons
    obtain ⟨_, _, hcons, hs, -, -⟩ := opens_of_digit hd []
    cases hcons
    refine (yields_peekValue b hws hs _).bind ?_
    split
    case h_8 =>
      rw [if_pos hd]
      exact hres rest hrest
    all_goals exact absurd hd (by decide)

open Decimal in
theorem numberText_positional {digits : List Char} (h : ∀ ch ∈ digits, isDigit ch = true) (point : Int) :
    NumberText (positional digits point true) := by
  have hzero : DigitText ['0'] := ⟨List.cons_ne_nil _ _, List.forall_mem_singleton.2 rfl⟩
  have hpoint : ∀ {ds fraction}, DigitText ds → DigitText fraction → NumberText (ds ++ '.' :: fraction) := by
    intro ds fraction hds hfraction
    have htail := TailText.point hfraction .nothing
    rw [List.append_nil] at htail
    exact .digits hds htail
  have hfilled : ∀ n, ∀ ch ∈ List.replicate n '0', isDigit ch = true := by
    intro n ch hch
    rw [List.eq_of_mem_replicate hch]
    rfl
  rw [positional]
  cases digits with
  | nil => exact hpoint hzero hzero
  | cons d ds =>
    simp only [List.isEmpty_cons, Bool.false_eq_true, if_false, if_true]
    split
    · exact hpoint hzero ⟨by simp, List.forall_mem_append.2 ⟨hfilled _, h⟩⟩
    · next hp =>
      split
      · exact hpoint ⟨by simp, List.forall_mem_append.2 ⟨h, hfilled _⟩⟩ hzero
      · next hlong =>
        refine hpoint ⟨?_, fun ch hch => h ch (List.mem_of_mem_take hch)⟩
          ⟨?_, fun ch hch => h ch (List.mem_of_mem_drop hch)⟩
        · rw [Ne, List.take_eq_nil_iff]
          simp only [reduceCtorEq, or_false]
          omega
        · rw [Ne, List.drop_eq_nil_iff]
          exact hlong

/-- One digit before the point and the others behind it. -/
theorem numberText_mantissa {tail : List Char} (htail : ExponentText tail) :
    ∀ digits : List Char, (∀ ch ∈ digits, isDigit ch = true) →
      NumberText ((match digits with
        | [] => ['0']
        | [d] => [d]
        | d :: rest => d :: '.' :: rest) ++ tail) := by
  have hone : ∀ {d}, isDigit d = true → DigitText [d] := fun hd =>
    ⟨List.cons_ne_nil _ _, List.forall_mem_singleton.2 hd⟩
  intro digits h
  match digits, h with
  | [], _ => exact .digits (hone (d := '0') rfl) (.exponent htail)
  | [d], h => exact .digits (hone (h d List.mem_cons_self)) (.exponent htail)
  | d :: d' :: rest, h =>
    have hrest : DigitText (d' :: rest) :=
      ⟨List.cons_ne_nil _ _, fun ch hch => h ch (List.mem_cons_of_mem _ hch)⟩
    change NumberText ([d] ++ '.' :: ((d' :: rest) ++ tail))
    exact .digits (hone (h d List.mem_cons_self)) (.point hrest htail)

open Decimal in
theorem numberText_scientific {digits : List Char} (h : ∀ ch ∈ digits, isDigit ch = true) (point : Int)
    {l : Layout} (hsign : l.plusSign = true) : NumberText (scientific digits point l) := by
  unfold scientific
  extract_lets e sign ds fill head
  have hexponent : DigitText (fill ++ ds) := by
    refine ⟨?_, List.forall_mem_append.2 ⟨fun ch hch => ?_, fun ch => isDigit_of_mem_toDigits⟩⟩
    · exact List.append_ne_nil_of_right_ne_nil _ Nat.toDigits_ne_nil
    · rw [List.eq_of_mem_replicate hch]
      rfl
  obtain ⟨ch, hch, hsigned⟩ : ∃ ch, sign = [ch] ∧ (ch = '+' ∨ ch = '-') := by
    simp only [sign, hsign, if_true]
    split
    · exact ⟨'-', rfl, Or.inr rfl⟩
    · exact ⟨'+', rfl, Or.inl rfl⟩
  have htail : ExponentText ('e' :: (sign ++ fill ++ ds)) := by
    rw [hch, List.append_assoc]
    exact .digits hsigned hexponent
  exact numberText_mantissa htail digits h

/-- A word that no value starts with is refused. -/
theorem goesBy_whole_word (n : Nat) {ch : Char} {tl : List Char} (h : ch = 'i' ∨ ch = 'N') :
    GoesBy (whole (n + 1)) b (ch :: tl) := by
  refine ⟨none, fun ws rest hws _ => ?_⟩
  rw [whole]
  rcases h with rfl | rfl
  · refine (yields_peekValue b hws rfl _).bind ?_
    exact fun c _ _ => ⟨_, c, rfl⟩
  · refine (yields_peekValue b hws rfl _).bind ?_
    exact fun c _ _ => ⟨_, c, rfl⟩

/-- So is such a word behind a minus sign. -/
theorem goesBy_whole_negative_word (n : Nat) (tl : List Char) :
    GoesBy (whole (n + 1)) b ('-' :: 'i' :: tl) := by
  refine ⟨none, fun ws rest hws _ => ?_⟩
  rw [whole]
  refine (yields_peekValue b hws rfl _).bind ((yields_skip b '-' _).bind (Fails.bind ?_))
  rw [number]
  refine (yields_peek b _).bind ?_
  exact fun c _ _ => ⟨_, c, rfl⟩

open Decimal in
/-- The text of any double, be it finite or not. -/
theorem goesBy_whole_float (n : Nat) (x : Float) : GoesBy (whole (n + 1)) b (floatText x).toList := by
  rw [floatText]
  split
  · exact ⟨_, readsAs_whole_null n b 0⟩
  · rw [Layout.render]
    split
    · next d hd =>
      have hdigits := isDigit_of_mem_digits hd
      have hbody : NumberText (if layout.isPositional d then positional d.digits d.point layout.wholeMark
          else scientific d.digits d.point layout) := by
        split
        · exact numberText_positional hdigits d.point
        · exact numberText_scientific hdigits d.point rfl
      rw [Layout.renderDigits, String.toList_ofList]
      exact goesBy_whole_number n d.negative hbody
    · split
      · exact goesBy_whole_negative_word n _
      · exact goesBy_whole_word n (Or.inl rfl)
    · exact goesBy_whole_word n (Or.inr rfl)

/-- **Data of any kind goes as far as its text**, however many levels of nesting are left. -/
theorem goesBy_whole (n : Nat) (b level : Nat) (d : Data) : GoesBy (whole n) b (textAt level d) := by
  induction n generalizing b level d with
  | zero => exact ⟨none, fun ws rest _ _ c _ _ => ⟨_, c, rfl⟩⟩
  | succ n ih =>
    cases d with
    | null => exact ⟨_, readsAs_whole_null n b level⟩
    | flag v => exact ⟨_, readsAs_whole_flag n b level v⟩
    | int k =>
      have hnumber := NumberText.digits (digitText_toDigits k.natAbs) (.exponent .nothing)
      rw [List.append_nil] at hnumber
      have hread : GoesBy (whole (n + 1)) b _ := goesBy_whole_number n (decide (k < 0)) hnumber
      rw [textAt, prettyAt, toList_int]
      by_cases hk : k < 0
      · simpa [hk] using hread
      · simpa [hk] using hread
    | float x => exact goesBy_whole_float n x
    | text s => exact ⟨_, readsAs_whole_text n b level s⟩
    | list xs =>
      choose res hres using fun x => ih (b - 1) (level + 1) x
      refine ⟨(if 2 ≤ b then xs.mapM res else none).map Data.list, fun ws rest hws _ => ?_⟩
      have hlist := gives_list (b := b) (fun x (_ : x ∈ xs) => opens_textAt (level + 1) x)
        (fun _ x _ => hres x) level rest
      have hdone := hlist.bind_pure Data.list
      rw [← textAt_list] at hdone
      obtain ⟨inp, hinp⟩ := exists_textAt_list level xs rest
      rw [hinp] at hdone ⊢
      rw [whole]
      exact (yields_peekValue b hws rfl inp).bind hdone
    | table es =>
      choose res hres using fun x => ih (b - 1) (level + 1) x
      refine ⟨(if 2 ≤ b then es.mapM fun e => (res e.2).map (e.1, ·) else none).map Data.table,
        fun ws rest hws _ => ?_⟩
      have htable := gives_table (fun _ (e : String × Data) (_ : e ∈ es) => hres e.2) level rest
      have hdone := htable.bind_pure Data.table
      rw [← textAt_table] at hdone
      obtain ⟨inp, hinp⟩ := exists_textAt_table level es rest
      rw [hinp] at hdone ⊢
      rw [whole]
      exact (yields_peekValue b hws rfl inp).bind hdone

/-! ## Reading by shapes -/

theorem goesBy_any (b level : Nat) (d : Data) : GoesBy (readerOf .any) b (textAt level d) := by
  obtain ⟨res, hres⟩ := goesBy_whole (b + 1) b level d
  refine ⟨res.map Data.settle, fun ws rest hws hrest => ?_⟩
  rw [readerOf, ← bind_pure_comp]
  refine Gives.bind_pure ?_ Data.settle
  exact yields_get fun c _ hc => hc ▸ hres ws rest hws hrest

theorem goesBy_tagged (name : String) {cases : List (String × Shape)} {s : String} {shape : Shape} {d : Data}
    {b level : Nat} (hcase : Entries.get? s cases = some shape)
    (h : 2 ≤ b → GoesBy (readerOf shape) (b - 1) (textAt (level + 1) d)) :
    GoesBy (readerOf (.tagged name cases)) b (textAt level (.table [(s, d)])) := by
  by_cases h2 : 2 ≤ b
  · obtain ⟨res, hres⟩ := h h2
    exact ⟨_, readsAs_tagged name res hcase fun _ => hres⟩
  · exact ⟨_, readsAs_tagged name none hcase fun h => absurd h h2⟩

theorem goesBy_table {item : Shape} {es : List (String × Data)} {b level : Nat}
    (h : 2 ≤ b → ∀ e ∈ es, GoesBy (readerOf item) (b - 1) (textAt (level + 1) e.2)) :
    GoesBy (readerOf (.table item)) b (textAt level (.table es)) := by
  have hsome : ∃ res : String × Data → Option Data, 2 ≤ b → ∀ e ∈ es,
      ReadsAs (readerOf item) (b - 1) (textAt (level + 1) e.2) (res e) := by
    by_cases h2 : 2 ≤ b
    · choose! res hres using h h2
      exact ⟨res, fun _ => hres⟩
    · exact ⟨fun _ => none, fun h => absurd h h2⟩
  obtain ⟨res, hres⟩ := hsome
  refine ⟨(if 2 ≤ b then es.mapM fun e => (res e).map (e.1, ·) else none).map
    fun es => Data.table (Entries.ofList es), fun ws rest hws _ => ?_⟩
  have hdone := (gives_table hres level rest).bind_pure fun es => Data.table (Entries.ofList es)
  rw [← textAt_table] at hdone
  obtain ⟨inp, hinp⟩ := exists_textAt_table level es rest
  rw [hinp] at hdone ⊢
  rw [readerOf, tableOf]
  exact (yields_peekValue b hws rfl inp).bind hdone

end PluginChain.Json
