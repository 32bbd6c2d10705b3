import Mathlib.Tactic.IntervalCases
import Mathlib.Tactic.Linarith
import PluginChain.Json.Reader
import PluginChain.Json.Writer
import PluginChain.Proofs.Operation

/-!
# What a reader makes of a text

`Gives r b inp res` says what becomes of a reader that comes to the text `inp` with `b` levels of nesting
left, wherever the text stands: a value with the rest behind it, or a fault.  Which fault it is does not
matter here.  Faults go through (`Fails.bind`), and readers behind one another read texts behind one
another (`Yields.bind`), so that a reader is followed along its text line by line.

* `yields_stringRest` — a string that was written is read as itself, escapes and all.
* `yields_number` — so are the digits of a whole number of 64 bits, before anything that does not go on
  with it (`Ends`).
-/

set_option autoImplicit false

namespace PluginChain.Json

open Operation

variable {α β : Type}

/-- What a reader makes of a text: a value and the rest, with as many levels left as before, or a
fault. -/
def Gives (r : Reader α) (b : Nat) (inp : List Char) : Option (α × List Char) → Prop
  | some (a, out) => ∀ c : Cursor, c.rest = inp → c.budget = b →
      ∃ c', r c = .ok a c' ∧ c'.rest = out ∧ c'.budget = b
  | none => ∀ c : Cursor, c.rest = inp → c.budget = b → ∃ f c', r c = .error f c'

/-- The reader gives a value and leaves a rest. -/
abbrev Yields (r : Reader α) (b : Nat) (inp : List Char) (a : α) (out : List Char) : Prop :=
  Gives r b inp (some (a, out))

/-- The reader meets a fault. -/
abbrev Fails (r : Reader α) (b : Nat) (inp : List Char) : Prop := Gives r b inp none

theorem yields_pure (b : Nat) (inp : List Char) (a : α) : Yields (pure a) b inp a inp :=
  fun c hr hb => ⟨c, rfl, hr, hb⟩

theorem Yields.bind {r : Reader α} {f : α → Reader β} {b : Nat} {inp mid : List Char} {a : α}
    {res : Option (β × List Char)} (h : Yields r b inp a mid) (hf : Gives (f a) b mid res) :
    Gives (r >>= f) b inp res := by
  cases res with
  | some x =>
    intro c hr hb
    obtain ⟨c₁, h₁, hr₁, hb₁⟩ := h c hr hb
    obtain ⟨c₂, h₂, hr₂, hb₂⟩ := hf c₁ hr₁ hb₁
    exact ⟨c₂, by simp only [Bind.bind, EStateM.bind, h₁, h₂], hr₂, hb₂⟩
  | none =>
    intro c hr hb
    obtain ⟨c₁, h₁, hr₁, hb₁⟩ := h c hr hb
    obtain ⟨e, c₂, h₂⟩ := hf c₁ hr₁ hb₁
    exact ⟨e, c₂, by simp only [Bind.bind, EStateM.bind, h₁, h₂]⟩

theorem Fails.bind {r : Reader α} {f : α → Reader β} {b : Nat} {inp : List Char}
    (h : Fails r b inp) : Fails (r >>= f) b inp := by
  intro c hr hb
  obtain ⟨e, c₁, h₁⟩ := h c hr hb
  exact ⟨e, c₁, by simp only [Bind.bind, EStateM.bind, h₁]⟩

/-- What is made of a value that was read does not touch the text. -/
theorem Gives.bind_pure {r : Reader α} {b : Nat} {inp out : List Char} {res : Option α}
    (h : Gives r b inp (res.map (·, out))) (g : α → β) :
    Gives (r >>= fun a => pure (g a)) b inp ((res.map g).map (·, out)) := by
  cases res with
  | some a => exact Yields.bind h (yields_pure b out (g a))
  | none => exact Fails.bind h

theorem yields_get {b : Nat} {inp : List Char} {f : Cursor → Reader α}
    {res : Option (α × List Char)}
    (h : ∀ c : Cursor, c.rest = inp → c.budget = b → Gives (f c) b inp res) :
    Gives (get >>= f) b inp res := by
  cases res with
  | some x => exact fun c hr hb => h c hr hb c hr hb
  | none => exact fun c hr hb => h c hr hb c hr hb

/-! ## Single characters -/

theorem yields_peek (b : Nat) (inp : List Char) : Yields peek? b inp inp.head? inp := by
  intro c hr hb
  subst hr
  exact ⟨c, rfl, rfl, hb⟩

theorem rest_past (c : Cursor) (ch : Char) (rest : List Char) : (c.past ch rest).rest = rest := by
  unfold Cursor.past
  split <;> rfl

theorem budget_past (c : Cursor) (ch : Char) (rest : List Char) :
    (c.past ch rest).budget = c.budget := by
  unfold Cursor.past
  split <;> rfl

theorem yields_skip (b : Nat) (ch : Char) (rest : List Char) : Yields skip b (ch :: rest) () rest := by
  intro c hr hb
  refine ⟨c.past ch rest, ?_, rest_past c ch rest, (budget_past c ch rest).trans hb⟩
  simp only [skip, modify_eq, hr]

theorem yields_next (b : Nat) (ch : Char) (rest : List Char) :
    Yields next? b (ch :: rest) (some ch) rest :=
  (yields_peek b _).bind ((yields_skip b ch rest).bind (yields_pure b rest _))

theorem yields_word (b : Nat) (ws rest : List Char) : Yields (word ws) b (ws ++ rest) () rest := by
  induction ws with
  | nil => exact yields_pure b rest ()
  | cons w ws ih =>
    refine (yields_peek b _).bind ?_
    simp only [List.cons_append, List.head?_cons, if_true]
    exact (yields_skip b w _).bind ih

/-! ## White space -/

/-- White space between the parts of a document. -/
def Spaces (ws : List Char) : Prop := ∀ ch ∈ ws, isSpace ch = true

theorem spaces_nil : Spaces [] := fun _ h => absurd h List.not_mem_nil

theorem spaces_single : Spaces [' '] := by
  intro ch hch
  rw [List.mem_singleton.1 hch]
  rfl

theorem skipWhile_go {p : Char → Bool} (ws rest : List Char) (hws : ∀ ch ∈ ws, p ch = true)
    (hrest : ∀ ch ∈ rest.head?, p ch = false) (c : Cursor) (hc : c.rest = ws ++ rest) :
    (Cursor.skipWhile.go p c (ws ++ rest)).rest = rest ∧
      (Cursor.skipWhile.go p c (ws ++ rest)).budget = c.budget := by
  induction ws generalizing c with
  | nil =>
    cases rest with
    | nil => exact ⟨hc, rfl⟩
    | cons ch rest =>
      have hp : p ch = false := hrest ch rfl
      simp only [List.nil_append, Cursor.skipWhile.go, hp] at hc ⊢
      exact ⟨hc, rfl⟩
  | cons ch ws ih =>
    have hp : p ch = true := hws ch List.mem_cons_self
    simp only [List.cons_append, Cursor.skipWhile.go, hp, if_true]
    have h := ih (fun x hx => hws x (List.mem_cons_of_mem _ hx)) (c.past ch (ws ++ rest))
      (rest_past c ch _)
    rwa [budget_past] at h

/-- White space is passed over, up to a text that starts with none. -/
theorem yields_peekToken (b : Nat) {ws rest : List Char} (hws : Spaces ws)
    (hrest : ∀ ch ∈ rest.head?, isSpace ch = false) :
    Yields peekToken? b (ws ++ rest) rest.head? rest := by
  intro c hr hb
  obtain ⟨h₁, h₂⟩ := skipWhile_go ws rest hws hrest c hr
  refine ⟨c.skipWhile isSpace, ?_, ?_, ?_⟩
  · simp only [peekToken?, Bind.bind, EStateM.bind, modify_eq, peek?, get_eq, pure, EStateM.pure]
    rw [Cursor.skipWhile, hr, h₁]
  · rw [Cursor.skipWhile, hr, h₁]
  · rw [Cursor.skipWhile, hr, h₂, hb]

theorem yields_peekToken_cons (b : Nat) {ws : List Char} (hws : Spaces ws) {ch : Char}
    (hch : isSpace ch = false) (rest : List Char) :
    Yields peekToken? b (ws ++ ch :: rest) (some ch) (ch :: rest) := by
  refine yields_peekToken b hws fun x hx => ?_
  cases hx
  exact hch

theorem yields_peekValue (b : Nat) {ws : List Char} (hws : Spaces ws) {ch : Char}
    (hch : isSpace ch = false) (rest : List Char) :
    Yields peekValue b (ws ++ ch :: rest) ch (ch :: rest) :=
  (yields_peekToken_cons b hws hch rest).bind (yields_pure b _ _)

/-! ## Strings -/

theorem yields_hexEscape_low (b : Nat) {n : Nat} (hn : n < 0x20) (rest : List Char) :
    Yields hexEscape b ('0' :: '0' :: hexByte n ++ rest) n rest := by
  intro c hr hb
  refine ⟨{ c with rest := rest, column := c.column + 4 }, ?_, rfl, hb⟩
  have htake : ('0' :: '0' :: hexByte n ++ rest).take 4 = '0' :: '0' :: hexByte n := by
    simp [hexByte]
  have hdrop : ('0' :: '0' :: hexByte n ++ rest).drop 4 = rest := by simp [hexByte]
  have hnum : ∀ m < 0x20, hexNumber? ('0' :: '0' :: hexByte m) = some m := by decide
  have hsize : ∀ m < 0x20,
      ¬ ('0' :: '0' :: hexByte m).foldl (fun k (ch : Char) => k + ch.utf8Size) 0 < 4 := by decide
  simp only [hexEscape, Bind.bind, EStateM.bind, get_eq, hr, htake, hdrop, if_neg (hsize n hn), hnum n hn,
    set_eq, pure, EStateM.pure]

theorem yields_unicodeEscape_low (b : Nat) {n : Nat} (hn : n < 0x20) (rest : List Char) :
    Yields unicodeEscape b ('0' :: '0' :: hexByte n ++ rest) (Char.ofNat n) rest := by
  refine (yields_hexEscape_low b hn rest).bind ?_
  have hlow : ¬ (0xDC00 ≤ n ∧ n ≤ 0xDFFF) := by omega
  have hhigh : n < 0xD800 ∨ 0xDBFF < n := by omega
  simp only [if_neg hlow, if_pos hhigh]
  exact yields_pure b rest _

/-- How a character is written: behind a backslash, as a number, or as itself. -/
theorem escaped_cases (ch : Char) :
    (∃ e, e ≠ 'u' ∧ simpleEscape? e = some ch ∧ escaped ch = ['\\', e]) ∨
      (ch.toNat < 0x20 ∧ escaped ch = '\\' :: 'u' :: '0' :: '0' :: hexByte ch.toNat) ∨
      (¬ ch.toNat < 0x20 ∧ ch ≠ '\"' ∧ ch ≠ '\\' ∧ escaped ch = [ch]) := by
  unfold escaped
  split
  case h_8 =>
    split
    · exact Or.inr (Or.inl ⟨by assumption, rfl⟩)
    · exact Or.inr (Or.inr ⟨by assumption, by assumption, by assumption, rfl⟩)
  all_goals exact Or.inl ⟨_, by decide, rfl, rfl⟩

/-- A written character is one step of the reading of a string. -/
theorem yields_stringTail_escaped {b steps : Nat} {ch : Char} {acc rest out a : List Char}
    (h : Yields (stringTail unicodeEscape steps (ch :: acc)) b rest a out) :
    Yields (stringTail unicodeEscape (steps + 1) acc) b (escaped ch ++ rest) a out := by
  rw [stringTail]
  obtain ⟨e, hu, he, hw⟩ | ⟨hlow, hw⟩ | ⟨hhigh, hq, hs, hw⟩ := escaped_cases ch
  · rw [hw]
    refine (yields_peek b _).bind ((yields_skip b _ _).bind ((yields_next b _ _).bind ?_))
    split
    · next h' => cases h'
    · next h' => cases h'; exact absurd rfl hu
    · next h' => cases h'; rw [he]; exact h
  · rw [hw]
    refine (yields_peek b _).bind ((yields_skip b _ _).bind ((yields_next b _ _).bind ?_))
    refine (yields_unicodeEscape_low b hlow rest).bind ?_
    rw [Char.ofNat_toNat]
    exact h
  · rw [hw]
    refine (yields_peek b _).bind ?_
    simp only [List.cons_append, List.nil_append, List.head?_cons, if_neg hhigh]
    exact (yields_skip b _ _).bind h

theorem yields_stringTail (b : Nat) (cs rest : List Char) (steps : Nat) (acc : List Char)
    (hs : cs.length < steps) :
    Yields (stringTail unicodeEscape steps acc) b (cs.flatMap escaped ++ '\"' :: rest)
      (cs.reverse ++ acc) rest := by
  induction cs generalizing steps acc with
  | nil =>
    obtain ⟨k, rfl⟩ : ∃ k, steps = k + 1 := ⟨steps - 1, by simp at hs; omega⟩
    rw [stringTail]
    exact (yields_peek b _).bind ((yields_skip b _ _).bind (yields_pure b rest _))
  | cons ch cs ih =>
    obtain ⟨k, rfl⟩ : ∃ k, steps = k + 1 := ⟨steps - 1, by simp at hs; omega⟩
    rw [List.flatMap_cons, List.append_assoc, List.reverse_cons, List.append_assoc]
    refine yields_stringTail_escaped (ih k (ch :: acc) ?_)
    rw [List.length_cons] at hs
    omega

theorem length_flatMap_escaped (cs : List Char) : cs.length ≤ (cs.flatMap escaped).length := by
  induction cs with
  | nil => exact Nat.le_refl 0
  | cons ch cs ih =>
    have h : 1 ≤ (escaped ch).length := by
      obtain ⟨e, -, -, hw⟩ | ⟨-, hw⟩ | ⟨-, -, -, hw⟩ := escaped_cases ch <;> rw [hw] <;> simp
    rw [List.flatMap_cons, List.length_append, List.length_cons]
    omega

/-- A string that was written is read as itself. -/
theorem yields_stringRest (b : Nat) (s : String) (rest : List Char) :
    Yields stringRest b (s.toList.flatMap escaped ++ '\"' :: rest) s rest := by
  refine yields_get fun c hr _ => ?_
  have hl := length_flatMap_escaped s.toList
  have h := yields_stringTail b s.toList rest (c.rest.length + 1) []
    (by rw [hr, List.length_append]; omega)
  refine h.bind ?_
  have hs : String.ofList (s.toList.reverse ++ []).reverse = s := by
    rw [List.append_nil, List.reverse_reverse, String.ofList_toList]
  rw [hs]
  exact yields_pure b rest s

theorem toList_quoted (s : String) :
    (quoted s).toList = '\"' :: (s.toList.flatMap escaped ++ ['\"']) :=
  String.toList_ofList

/-! ## Numbers -/

/-- What may stand behind a number: nothing that could belong to it. -/
def Ends (rest : List Char) : Prop :=
  ∀ ch ∈ rest.head?, isDigit ch = false ∧ ch ≠ '.' ∧ ch ≠ 'e' ∧ ch ≠ 'E'

theorem ends_nil : Ends [] := fun _ h => nomatch h

theorem isDigit_of_mem_toDigits {n : Nat} {ch : Char} (h : ch ∈ Nat.toDigits 10 n) :
    isDigit ch = true :=
  Nat.isDigit_of_mem_toDigits (by decide) (by decide) h

theorem takeWhile_digits {ds rest : List Char} (hds : ∀ ch ∈ ds, isDigit ch = true)
    (hrest : ∀ ch ∈ rest.head?, isDigit ch = false) : (ds ++ rest).takeWhile isDigit = ds := by
  rw [List.takeWhile_append_of_pos hds]
  cases rest with
  | nil => simp
  | cons ch rest =>
    rw [List.takeWhile_cons, hrest ch rfl]
    simp

/-- The digits of a number that is not zero start with no zero. -/
theorem head_toDigits_ne_zero (n : Nat) (hn : 0 < n) : (Nat.toDigits 10 n).head? ≠ some '0' := by
  induction n using Nat.strongRecOn with
  | ind n ih =>
    rw [Nat.toDigits_eq_if (by decide)]
    split
    · next hlt => interval_cases n <;> decide
    · next hge =>
      have h := ih (n / 10) (by omega) (by omega)
      obtain ⟨d, ds, hds⟩ := List.exists_cons_of_ne_nil (Nat.toDigits_ne_nil (n := n / 10) (b := 10))
      rw [hds] at h ⊢
      exact h

theorem le_ofDigitChars (ds : List Char) (n : Nat) : n ≤ Nat.ofDigitChars 10 ds n := by
  induction ds generalizing n with
  | nil => exact Nat.le_refl n
  | cons d ds ih =>
    rw [Nat.ofDigitChars_cons]
    exact Nat.le_trans (by omega) (ih _)

theorem gather_go_eq (ds : List Char) (n used : Nat) (h : Nat.ofDigitChars 10 ds n < 2 ^ 64) :
    gather.go n used ds = (Nat.ofDigitChars 10 ds n, used + ds.length, 0) := by
  induction ds generalizing n used with
  | nil => rw [gather.go]; simp
  | cons d ds ih =>
    have hz : '0'.toNat = 48 := rfl
    rw [Nat.ofDigitChars_cons, hz] at h ⊢
    have hle := le_ofDigitChars ds (10 * n + (d.toNat - 48))
    rw [gather.go, if_pos (Nat.lt_of_le_of_lt hle h), ih _ _ h, List.length_cons]
    simp only [Prod.mk.injEq, true_and, and_true]
    omega

theorem gather_toDigits {n : Nat} (hn : n < 2 ^ 64) :
    gather 0 (Nat.toDigits 10 n) = (n, (Nat.toDigits 10 n).length, 0) := by
  have h := Nat.ofDigitChars_ten_toDigits (n := n)
  rw [gather, gather_go_eq _ _ _ (by rw [h]; exact hn), h, Nat.zero_add]

/-- Digits are read up to where they end. -/
theorem yields_digits (b : Nat) {ds rest : List Char} (hds : ∀ ch ∈ ds, isDigit ch = true)
    (hrest : ∀ ch ∈ rest.head?, isDigit ch = false) : Yields digits b (ds ++ rest) ds rest := by
  intro c hr hb
  refine ⟨{ c with rest := rest, column := c.column + ds.length }, ?_, rfl, hb⟩
  simp only [digits, Bind.bind, EStateM.bind, get_eq, hr, takeWhile_digits hds hrest, set_eq, pure, EStateM.pure,
    List.drop_left]

/-- The number that digits and a sign make. -/
def signed (negative : Bool) (n : Nat) : Int := if negative then -(n : Int) else n

theorem yields_finish (b : Nat) (negative : Bool) (n : Nat) {rest : List Char} (h : Ends rest)
    (hn : negative = true → 0 < n ∧ n ≤ 2 ^ 63) :
    Yields (number.finish negative n 0) b rest (.int (signed negative n)) rest := by
  rw [number.finish]
  refine (yields_peek b _).bind ?_
  split
  · next hd => exact absurd rfl (h _ hd).2.1
  · next hd => exact absurd rfl (h _ hd).2.2.1
  · next hd => exact absurd rfl (h _ hd).2.2.2
  · rw [if_neg (Nat.lt_irrefl 0)]
    cases negative with
    | false => exact yields_pure b rest _
    | true =>
      obtain ⟨h0, hm⟩ := hn rfl
      rw [if_pos rfl, if_neg (by omega)]
      exact yields_pure b rest _

/-- A whole number of 64 bits is read as itself. -/
theorem yields_number (b : Nat) (negative : Bool) (n : Nat) {rest : List Char} (h : Ends rest)
    (h64 : n < 2 ^ 64) (hn : negative = true → 0 < n ∧ n ≤ 2 ^ 63) :
    Yields (number negative) b (Nat.toDigits 10 n ++ rest) (.int (signed negative n)) rest := by
  rw [number]
  refine (yields_peek b _).bind ?_
  rcases Nat.eq_zero_or_pos n with rfl | hpos
  · rw [Nat.toDigits_zero]
    refine (yields_skip b '0' rest).bind ((yields_peek b _).bind ?_)
    split
    · next ch hd =>
      rw [(h ch hd).1]
      exact yields_finish b negative 0 h hn
    · exact yields_finish b negative 0 h hn
  · obtain ⟨d, ds, hds⟩ := List.exists_cons_of_ne_nil (Nat.toDigits_ne_nil (n := n) (b := 10))
    have hd : isDigit d = true := isDigit_of_mem_toDigits (n := n) (hds ▸ List.mem_cons_self)
    have h0 : d ≠ '0' := by
      rintro rfl
      exact head_toDigits_ne_zero n hpos (by rw [hds, List.head?_cons])
    have hhead : (Nat.toDigits 10 n ++ rest).head? = some d := by rw [hds]; rfl
    rw [hhead]
    split
    · next h' => cases h'
    · next h' => cases h'; exact absurd rfl h0
    · next c h' =>
      cases h'
      rw [if_pos hd]
      refine (yields_digits b (fun ch => isDigit_of_mem_toDigits) fun ch hch => (h ch hch).1).bind ?_
      rw [gather_toDigits h64]
      exact yields_finish b negative n h hn

end PluginChain.Json
