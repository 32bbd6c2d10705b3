import PluginChain.Text.Blank
import PluginChain.Uuid

/-!
# Identities are read back

An identity below `2 ^ 128` is read from its written form (`Uuid.parse_toText`), and no other is ever
read (`Uuid.value_lt_of_parse`).  The written form is followed part by part: its characters are digits
and hyphens, so nothing in it is taken for a wrapping or is out of place (`unwrapped_of_digit`,
`stray?_eq_none`), the hyphens cut it into the groups it was put together from (`groups_append`), and the
digits stand for the number they were taken from (`number?_hexReversed`).
-/

set_option autoImplicit false

namespace PluginChain.Uuid

/-- The character is a hexadecimal digit as it is written. -/
def IsDigit (c : Char) : Prop := ∃ n < 16, hexDigit n = c

theorem digitValue?_hexDigit {n : Nat} (hn : n < 16) : digitValue? (hexDigit n) = some n := by
  have h : ∀ m < 16, digitValue? (hexDigit m) = some m := by decide
  exact h n hn

theorem IsDigit.isSome {c : Char} (h : IsDigit c) : (digitValue? c).isSome = true := by
  obtain ⟨n, hn, rfl⟩ := h
  rw [digitValue?_hexDigit hn]
  rfl

theorem IsDigit.ne_hyphen {c : Char} (h : IsDigit c) : c ≠ '-' := by
  rintro rfl
  cases h.isSome

/-! ## The digits of a number -/

theorem length_hexReversed (count n : Nat) : (hexReversed count n).length = count := by
  induction count generalizing n with
  | zero => rfl
  | succ count ih => rw [hexReversed, List.length_cons, ih]

theorem isDigit_of_mem_hexReversed {count n : Nat} {c : Char} (h : c ∈ hexReversed count n) :
    IsDigit c := by
  induction count generalizing n with
  | zero => cases h
  | succ count ih =>
    rw [hexReversed] at h
    rcases List.mem_cons.1 h with rfl | h
    · exact ⟨n % 16, Nat.mod_lt n (by decide), rfl⟩
    · exact ih h

/-- Enough digits stand for the number they were taken from. -/
theorem number?_hexReversed (count n : Nat) (h : n < Nat.pow 16 count) :
    number? (hexReversed count n).reverse = some n := by
  induction count generalizing n with
  | zero =>
    obtain rfl : n = 0 := Nat.lt_one_iff.1 h
    rfl
  | succ count ih =>
    have hlt : n / 16 < Nat.pow 16 count := Nat.div_lt_of_lt_mul (by rwa [Nat.mul_comm])
    have hmod : n % 16 < 16 := Nat.mod_lt n (by decide)
    have hrest := ih (n / 16) hlt
    rw [number?] at hrest
    rw [hexReversed, List.reverse_cons, number?, List.foldlM_append, hrest]
    change ((digitValue? (hexDigit (n % 16))).map (16 * (n / 16) + ·)).bind some = some n
    rw [digitValue?_hexDigit hmod]
    exact congrArg some (Nat.div_add_mod n 16)

/-! ## Groups -/

/-- Digits in front of a list belong to its first group. -/
theorem groups_digits_append {g cs first : List Char} {rest : List (List Char)} (hg : ∀ c ∈ g, IsDigit c)
    (hcs : groups cs = first :: rest) : groups (g ++ cs) = (g ++ first) :: rest := by
  induction g with
  | nil => exact hcs
  | cons c g ih =>
    have hc := hg c List.mem_cons_self
    have hrest := ih fun x hx => hg x (List.mem_cons_of_mem _ hx)
    rw [groups] at hrest ⊢
    rw [List.cons_append, List.foldr_cons, hrest, if_neg hc.ne_hyphen]
    rfl

/-- A list up to its first hyphen is the first group. -/
theorem groups_append {g : List Char} (hg : ∀ c ∈ g, IsDigit c) (cs : List Char) :
    groups (g ++ '-' :: cs) = g :: groups cs := by
  have h : groups (g ++ '-' :: cs) = (g ++ []) :: groups cs := groups_digits_append hg rfl
  rwa [List.append_nil] at h

theorem groups_of_digits {g : List Char} (hg : ∀ c ∈ g, IsDigit c) : groups g = [g] := by
  have h : groups (g ++ []) = (g ++ []) :: [] := groups_digits_append hg rfl
  rwa [List.append_nil] at h

theorem unwrapped_of_digit {c : Char} (hc : IsDigit c) (cs : List Char) :
    unwrapped (c :: cs) = (c :: cs, 0) := by
  have hbrace : c ≠ '\x7b' := by
    rintro rfl
    cases hc.isSome
  have hmarker : ("urn:uuid:".toList).isPrefixOf (c :: cs) = false := by
    have hu : ('u' == c) = false := by
      rw [beq_eq_false_iff_ne]
      rintro rfl
      cases hc.isSome
    have hlist : "urn:uuid:".toList = 'u' :: "rn:uuid:".toList := by decide
    rw [hlist, List.isPrefixOf, hu, Bool.false_and]
  unfold unwrapped
  split
  · next h => exact absurd (List.cons.inj h).1 hbrace
  · exact if_neg (by rw [hmarker]; exact Bool.false_ne_true)

theorem stray?_eq_none {cs : List Char} (h : ∀ c ∈ cs, IsDigit c ∨ c = '-') : stray? cs = none := by
  rw [stray?, List.find?_eq_none]
  rintro ⟨c, i⟩ hmem
  rcases h c (List.fst_mem_of_mem_zipIdx hmem) with hc | rfl
  · obtain ⟨n, hn⟩ := Option.isSome_iff_exists.1 hc.isSome
    simp [hn]
  · exact Bool.false_ne_true

/-! ## Reading back -/

/-- The characters of the written form. -/
theorem toList_toText (u : Uuid) :
    ∃ a b c d e : List Char, u.toText.toList = a ++ '-' :: (b ++ '-' :: (c ++ '-' :: (d ++ '-' :: e))) ∧
      a ++ (b ++ (c ++ (d ++ e))) = (hexReversed 32 u.value).reverse ∧
      a.length = 8 ∧ b.length = 4 ∧ c.length = 4 ∧ d.length = 4 ∧ e.length = 12 := by
  have hlen : (hexReversed 32 u.value).reverse.length = 32 := by
    rw [List.length_reverse, length_hexReversed]
  rw [toText]
  generalize (hexReversed 32 u.value).reverse = ds at hlen
  refine ⟨ds.take 8, (ds.drop 8).take 4, (ds.drop 12).take 4, (ds.drop 16).take 4,
    (ds.drop 20).take 12, ?_, ?_, ?_⟩
  · have hyphen : "-".toList = ['-'] := by decide
    simp [String.toList_append, hyphen]
  · have hlast : (ds.drop 20).take 12 = ds.drop 20 := List.take_of_length_le (by simp [hlen])
    have hjoin : ∀ i j k, i + j = k → (ds.drop i).take j ++ ds.drop k = ds.drop i := by
      rintro i j k rfl
      rw [← List.drop_drop, List.take_append_drop]
    rw [hlast, hjoin 16 4 20 rfl, hjoin 12 4 16 rfl, hjoin 8 4 12 rfl, List.take_append_drop]
  · simp [hlen]

theorem toText_ne_empty (u : Uuid) : u.toText ≠ "" := by
  intro h
  obtain ⟨a, b, c, d, e, htext, -⟩ := u.toList_toText
  rw [h] at htext
  exact absurd (congrArg List.length htext) (by simp)

theorem isDigit_or_hyphen {u : Uuid} {x : Char} (h : x ∈ u.toText.toList) : IsDigit x ∨ x = '-' := by
  obtain ⟨a, b, c, d, e, htext, hdigits, -⟩ := u.toList_toText
  have hall : ∀ x ∈ a ++ (b ++ (c ++ (d ++ e))), IsDigit x := by
    intro x hx
    rw [hdigits, List.mem_reverse] at hx
    exact isDigit_of_mem_hexReversed hx
  rw [htext] at h
  simp only [List.mem_append, List.mem_cons] at h hall
  have := hall x
  grind

/-- Nothing is trimmed off the written form. -/
theorem isTrimmed_toText (u : Uuid) : Text.IsTrimmed u.toText := by
  have hdigit : ∀ n < 16, Text.isBlank (hexDigit n) = false := by decide
  refine Text.isTrimmed_of_not_blank fun c hc => ?_
  rcases isDigit_or_hyphen hc with ⟨n, hn, rfl⟩ | rfl
  · exact hdigit n hn
  · rfl

/-- **An identity is read back from its written form.** -/
theorem parse_toText {u : Uuid} (h : u.value < 2 ^ 128) : parse u.toText = .ok u := by
  obtain ⟨a, b, c, d, e, htext, hdigits, ha, hb, hc, hd, he⟩ := u.toList_toText
  have hall : ∀ x ∈ a ++ (b ++ (c ++ (d ++ e))), IsDigit x := by
    intro x hx
    rw [hdigits, List.mem_reverse] at hx
    exact isDigit_of_mem_hexReversed hx
  simp only [List.mem_append] at hall
  have hnum : number? (a ++ (b ++ (c ++ (d ++ e)))) = some u.value := by
    rw [hdigits]
    exact number?_hexReversed 32 u.value h
  have hgroups : groups u.toText.toList = [a, b, c, d, e] := by
    rw [htext, groups_append fun x hx => hall x (by simp [hx]),
      groups_append fun x hx => hall x (by simp [hx]), groups_append fun x hx => hall x (by simp [hx]),
      groups_append fun x hx => hall x (by simp [hx]), groups_of_digits fun x hx => hall x (by simp [hx])]
  have hstray : stray? u.toText.toList = none := stray?_eq_none fun x hx => isDigit_or_hyphen hx
  have hunwrapped : unwrapped u.toText.toList = (u.toText.toList, 0) := by
    obtain ⟨x, a', rfl⟩ := List.exists_cons_of_length_eq_add_one ha
    rw [htext, List.cons_append]
    exact unwrapped_of_digit (hall x (by simp)) _
  have hflat : [a, b, c, d, e].flatten = a ++ (b ++ (c ++ (d ++ e))) := by simp
  have hwrong : wrongGroup? [a, b, c, d, e] = none := by
    simp [wrongGroup?, groupSizes, ha, hb, hc, hd, he, List.findSome?]
  rw [parse, hunwrapped]
  simp only [hstray, hgroups, List.length_cons, List.length_nil, hwrong, hflat, hnum]
  rfl

/-- Every identity that is made at random fits. -/
theorem value_ofRandom_lt (bits : Nat) : (ofRandom bits).value < 2 ^ 128 := by
  simp only [ofRandom]
  omega

/-! ## What is read fits -/

theorem digitValue?_lt {c : Char} {n : Nat} (h : digitValue? c = some n) : n < 16 := by
  have hbound : ∀ {low high : Char}, low ≤ c ∧ c ≤ high → low.toNat ≤ c.toNat ∧ c.toNat ≤ high.toNat :=
    fun hc => ⟨hc.1, hc.2⟩
  rw [digitValue?] at h
  split at h
  · next hc =>
    have := (hbound hc).2
    cases h
    change c.toNat ≤ 57 at this
    omega
  · split at h
    · next hc =>
      have := (hbound hc).2
      cases h
      change c.toNat ≤ 102 at this
      omega
    · split at h
      · next hc =>
        have := (hbound hc).2
        cases h
        change c.toNat ≤ 70 at this
        omega
      · cases h

/-- So many digits stand for so small a number. -/
theorem number?_lt {cs : List Char} {n : Nat} (h : number? cs = some n) : n < Nat.pow 16 cs.length := by
  have hfold : ∀ (cs : List Char) (m : Nat), cs.foldlM (fun n c => (digitValue? c).map (16 * n + ·)) m =
      some n → n < (m + 1) * Nat.pow 16 cs.length := by
    intro cs
    induction cs with
    | nil =>
      intro m hm
      obtain rfl : m = n := Option.some.inj hm
      change m < (m + 1) * 1
      omega
    | cons c cs ih =>
      intro m hm
      rw [List.foldlM_cons] at hm
      obtain ⟨k, hk, hm⟩ := Option.bind_eq_some_iff.1 hm
      obtain ⟨d, hd, rfl⟩ := Option.map_eq_some_iff.1 hk
      have hd := digitValue?_lt hd
      calc n < (16 * m + d + 1) * Nat.pow 16 cs.length := ih _ hm
        _ ≤ ((m + 1) * 16) * Nat.pow 16 cs.length := Nat.mul_le_mul_right _ (by omega)
        _ = (m + 1) * (16 * Nat.pow 16 cs.length) := Nat.mul_assoc _ _ _
        _ = (m + 1) * Nat.pow 16 (c :: cs).length := by
          rw [Nat.mul_comm 16]
          rfl
  have := hfold cs 0 h
  rwa [Nat.zero_add, Nat.one_mul] at this

/-- Groups that are all of the right size hold all digits of an identity. -/
theorem length_flatten_of_wrongGroup? {gs : List (List Char)} (hlen : gs.length = 5)
    (h : wrongGroup? gs = none) : gs.flatten.length = 32 := by
  obtain ⟨a, b, c, d, e, rfl⟩ : ∃ a b c d e, gs = [a, b, c, d, e] := by
    match gs, hlen with
    | [a, b, c, d, e], _ => exact ⟨a, b, c, d, e, rfl⟩
  simp only [wrongGroup?, groupSizes, List.zip_cons_cons, List.zip_nil_right, List.zipIdx_cons,
    List.zipIdx_nil, List.findSome?_eq_none_iff, List.forall_mem_cons] at h
  obtain ⟨ha, hb, hc, hd, he, -⟩ := h
  simp only [ite_eq_left_iff, reduceCtorEq, imp_false, Decidable.not_not] at ha hb hc hd he
  simp [ha, hb, hc, hd, he]

/-- **Every identity that was read fits.** -/
theorem value_lt_of_parse {s : String} {u : Uuid} (h : parse s = .ok u) : u.value < 2 ^ 128 := by
  have hpow : Nat.pow 16 32 = 2 ^ 128 := by decide
  rw [parse] at h
  generalize unwrapped s.toList = w at h
  obtain ⟨cs, start⟩ := w
  dsimp only at h
  split at h
  · cases h
  · split at h
    · split at h
      · next hlen =>
        split at h
        · next n hn =>
          cases h
          have := number?_lt hn
          rwa [hlen, hpow] at this
        · cases h
      · split at h <;> cases h
    · split at h
      · next hfive =>
        split at h
        · cases h
        · next hwrong =>
          split at h
          · next n hn =>
            cases h
            have := number?_lt hn
            rwa [length_flatten_of_wrongGroup? hfive hwrong, hpow] at this
          · cases h
      · cases h

end PluginChain.Uuid
