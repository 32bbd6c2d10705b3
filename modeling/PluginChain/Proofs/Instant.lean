import PluginChain.Proofs.Date

/-!
# Instants are read back

An instant is `Representable` if its second lies within the years that can be told, and if it has a
leap second at most at the end of a minute.  Whatever `parse` reads is representable, and what is
representable is read back from its written form (`parse_toText`).  The written form is followed field by
field; that the date in it counts as the day it was taken from is `civil_spec`.
-/

set_option autoImplicit false

namespace PluginChain.Instant

/-- An instant that has a written form of its own. -/
structure Representable (i : Instant) : Prop where
  seconds : firstSecond ≤ i.seconds ∧ i.seconds ≤ lastSecond
  nanos : i.nanos < 10 ^ 9 ∨ i.nanos < 2 * 10 ^ 9 ∧ i.seconds % 60 = 59

theorem firstSecond_eq : firstSecond = -8334601228800 := by decide

theorem lastSecond_eq : lastSecond = 8210266876799 := by decide

theorem representable_epoch : Representable ⟨0, 0⟩ :=
  ⟨by rw [firstSecond_eq, lastSecond_eq]; decide, Or.inl (by decide)⟩

/-- Instants are compared by their seconds, and within a second by what is behind it. -/
theorem isLE_compare_iff (a b : Instant) : (a.compare b).isLE = true ↔
    a.seconds < b.seconds ∨ a.seconds = b.seconds ∧ a.nanos ≤ b.nanos := by
  unfold compare
  split
  · simp [*]
  · split
    · simp
      omega
    · split
      · simp
        omega
      · split
        · simp
          omega
        · simp
          omega

theorem daysIn_le (y : Int) (m : Nat) : daysIn y m ≤ 31 := by
  rw [daysIn]
  split
  · split <;> omega
  · split <;> omega

/-- Within the seconds that can be told the years have at most six digits. -/
theorem year_of_representable {i : Instant} (h : i.Representable) {y : Int} {m d : Nat}
    (hdate : IsDate y m d) (hday : dayNumber y m d = i.seconds / 86400) :
    -262143 ≤ y ∧ y ≤ 262142 := by
  obtain ⟨⟨hfirst, hlast⟩, -⟩ := h
  obtain ⟨hm, hd⟩ := hdate
  rw [firstSecond_eq] at hfirst
  rw [lastSecond_eq] at hlast
  have hlen := daysIn_le y m
  constructor
  · -- before the first year, counted from March, a day is too early by itself; in it by its month
    refine Int.not_lt.1 fun hlow => ?_
    simp only [dayNumber] at hday
    split at hday
    · omega
    · rcases (by omega : y = -262144 ∨ y ≤ -262145) with rfl | hy <;> omega
  · refine Int.not_lt.1 fun hhigh => ?_
    simp only [dayNumber] at hday
    split at hday
    · rcases (by omega : y = 262143 ∨ 262144 ≤ y) with rfl | hy <;> omega
    · omega

/-! ## Numbers with leading zeros -/

theorem isDigit_of_mem_padded {width n : Nat} {c : Char} (h : c ∈ (padded width n).toList) :
    isDigit c = true := by
  rw [padded, String.toList_ofList] at h
  rcases List.mem_append.1 h with h | h
  · rw [List.eq_of_mem_replicate h]
    rfl
  · exact Nat.isDigit_of_mem_toDigits (by decide) (by decide) h

theorem valueOf_padded (width n : Nat) : valueOf (padded width n).toList = n := by
  have hvalue : ∀ cs, valueOf cs = Nat.ofDigitChars 10 cs 0 := fun cs =>
    Nat.ofDigitChars_eq_foldl.symm
  rw [padded, String.toList_ofList, hvalue, Nat.ofDigitChars_append, Nat.ofDigitChars_replicate_zero,
    Nat.mul_zero, Nat.ofDigitChars_ten_toDigits]

theorem length_padded {width n : Nat} (hw : 0 < width) (h : n < Nat.pow 10 width) :
    (padded width n).toList.length = width := by
  have hle : (Nat.toDigits 10 n).length ≤ width := (Nat.length_toDigits_le_iff (by decide) hw).2 h
  rw [padded, String.toList_ofList, List.length_append, List.length_replicate]
  omega

theorem padded_ne_nil (width n : Nat) : (padded width n).toList ≠ [] := by
  rw [padded, String.toList_ofList]
  exact List.append_ne_nil_of_right_ne_nil _ Nat.toDigits_ne_nil

/-- As many digits as there are at most. -/
theorem number_padded {width n : Nat} (hw : 0 < width) (h : n < Nat.pow 10 width) (h63 : n < 2 ^ 63)
    (rest : List Char) : number (some width) ((padded width n).toList ++ rest) = .ok (n, rest) := by
  have htake : (((padded width n).toList ++ rest).takeWhile isDigit).take width =
      (padded width n).toList := by
    rw [List.takeWhile_append_of_pos fun c hc => isDigit_of_mem_padded hc]
    exact List.take_left' (length_padded hw h)
  have hdrop : ((padded width n).toList ++ rest).drop width = rest :=
    List.drop_left' (length_padded hw h)
  have hne : (padded width n).toList.isEmpty = false := by
    rw [List.isEmpty_eq_false_iff]
    exact padded_ne_nil width n
  simp only [number, htake, hne, valueOf_padded, length_padded hw h, hdrop, Bool.false_eq_true,
    if_false, if_neg (Nat.not_le.2 h63)]

/-- Any number of digits, behind which there is none. -/
theorem number_padded_all {width n : Nat} (h63 : n < 2 ^ 63) {c : Char} (hc : isDigit c = false)
    (rest : List Char) :
    number none ((padded width n).toList ++ c :: rest) = .ok (n, c :: rest) := by
  have htake : ((padded width n).toList ++ c :: rest).takeWhile isDigit = (padded width n).toList := by
    rw [List.takeWhile_append_of_pos fun c hc => isDigit_of_mem_padded hc, List.takeWhile_cons, hc]
    simp
  have hne : (padded width n).toList.isEmpty = false := by
    rw [List.isEmpty_eq_false_iff]
    exact padded_ne_nil width n
  simp only [number, htake, hne, valueOf_padded, List.drop_left, Bool.false_eq_true, if_false,
    if_neg (Nat.not_le.2 h63)]

/-! ## Fields -/

theorem isBlank_of_isDigit {c : Char} (h : isDigit c = true) : Text.isBlank c = false := by
  have hrange : 48 ≤ c.toNat ∧ c.toNat ≤ 57 := by
    simp only [isDigit, Bool.and_eq_true, decide_eq_true_eq] at h
    exact h
  simp only [Text.isBlank, Bool.or_eq_false_iff, Bool.and_eq_false_iff, decide_eq_false_iff_not,
    beq_eq_false_iff_ne]
  omega

theorem dropBlanks_cons {c : Char} (h : Text.isBlank c = false) (rest : List Char) :
    Text.dropBlanks (c :: rest) = c :: rest := by
  rw [Text.dropBlanks, List.dropWhile_cons, h]
  rfl

theorem dropBlanks_padded (width n : Nat) (rest : List Char) :
    Text.dropBlanks ((padded width n).toList ++ rest) = (padded width n).toList ++ rest := by
  obtain ⟨c, cs, hcs⟩ := List.exists_cons_of_ne_nil (padded_ne_nil width n)
  have hc : isDigit c = true := isDigit_of_mem_padded (hcs ▸ List.mem_cons_self)
  rw [hcs, List.cons_append, dropBlanks_cons (isBlank_of_isDigit hc)]

theorem field_padded {low high n : Nat} (h : low ≤ n ∧ n ≤ high) (hn : n < 100) (rest : List Char) :
    field low high ((padded 2 n).toList ++ rest) = .ok (n, rest) := by
  rw [field, dropBlanks_padded, number_padded (by decide) hn (by omega)]
  exact if_pos h

theorem mark_cons {c : Char} (hc : Text.isBlank c = false) (rest : List Char) :
    mark c (c :: rest) = .ok ((), rest) := by
  rw [mark, dropBlanks_cons hc]
  exact if_pos rfl

theorem year_yearText {y : Int} (h : -262143 ≤ y ∧ y ≤ 262142) (rest : List Char) :
    year ((yearText y).toList ++ '-' :: rest) = .ok (y, '-' :: rest) := by
  rw [yearText]
  split
  · next hfour =>
    obtain ⟨c, cs, hcs⟩ := List.exists_cons_of_ne_nil (padded_ne_nil 4 y.toNat)
    have hc : isDigit c = true := isDigit_of_mem_padded (hcs ▸ List.mem_cons_self)
    have hlt : y.toNat < 10000 := by omega
    have hnumber := number_padded (by decide : 0 < 4) hlt (by omega) ('-' :: rest)
    rw [year, dropBlanks_padded]
    rw [hcs] at hnumber ⊢
    split
    · next heq => cases heq; cases hc
    · next heq => cases heq; cases hc
    · rw [hnumber]
      exact congrArg (fun n : Int => Except.ok (n, '-' :: rest)) (Int.toNat_of_nonneg hfour.1)
  · next hfour =>
    have hlt : y.natAbs < 2 ^ 63 := by omega
    have hnumber : number none ((padded 4 y.natAbs).toList ++ '-' :: rest) =
        .ok (y.natAbs, '-' :: rest) := number_padded_all hlt (by decide) rest
    have hminus : ("-" : String).toList = ['-'] := by decide
    have hplus : ("+" : String).toList = ['+'] := by decide
    split
    · rw [String.toList_append, hminus, year, List.cons_append, List.nil_append, List.cons_append,
        dropBlanks_cons (by decide)]
      simp only [hnumber, bind, Except.bind, pure, Except.pure]
      exact congrArg (fun n : Int => Except.ok (n, '-' :: rest)) (by omega)
    · rw [String.toList_append, hplus, year, List.cons_append, List.nil_append, List.cons_append,
        dropBlanks_cons (by decide)]
      simp only [hnumber, bind, Except.bind, pure, Except.pure]
      exact congrArg (fun n : Int => Except.ok (n, '-' :: rest)) (by omega)

/-- A fraction of a second, from as many digits as are written. -/
theorem fractionOf_padded {width n : Nat} (hw : 0 < width) (hle : width ≤ 9)
    (h : n < Nat.pow 10 width) (h63 : n < 2 ^ 63) {c : Char} (hc : isDigit c = false)
    (rest : List Char) :
    fractionOf ('.' :: ((padded width n).toList ++ c :: rest)) =
      .ok (n * Nat.pow 10 (9 - width), c :: rest) := by
  have htake : (((padded width n).toList ++ c :: rest).takeWhile isDigit).take 9 =
      (padded width n).toList := by
    rw [List.takeWhile_append_of_pos fun c hc => isDigit_of_mem_padded hc, List.takeWhile_cons, hc]
    simp only [Bool.false_eq_true, if_false, List.append_nil]
    exact List.take_of_length_le (by rw [length_padded hw h]; exact hle)
  have hne : (padded width n).toList.isEmpty = false := by
    rw [List.isEmpty_eq_false_iff]
    exact padded_ne_nil width n
  have hnumber : number (some 9) ((padded width n).toList ++ c :: rest) = .ok (n, c :: rest) := by
    simp only [number, htake, hne, valueOf_padded, List.drop_left, Bool.false_eq_true, if_false,
      if_neg (Nat.not_le.2 h63)]
  have hcount : ((padded width n).toList ++ c :: rest).length - (c :: rest).length = width := by
    rw [List.length_append, length_padded hw h]
    omega
  have hfirst : ((padded width n).toList ++ c :: rest).take width = (padded width n).toList :=
    List.take_left' (length_padded hw h)
  have hrest : (c :: rest).dropWhile isDigit = c :: rest := by
    rw [List.dropWhile_cons, hc]
    rfl
  simp only [fractionOf, hnumber, bind, Except.bind, pure, Except.pure, hcount, hfirst,
    valueOf_padded, hrest]

theorem fractionOf_fractionText {n : Nat} (h : n < 10 ^ 9) :
    fractionOf ((fractionText n).toList ++ ['Z']) = .ok (n, ['Z']) := by
  have hz : isDigit 'Z' = false := by decide
  have hpoint : ("." : String).toList = ['.'] := by decide
  rw [fractionText]
  split
  · next h0 =>
    subst h0
    rfl
  · split
    · next h6 =>
      have hlt : n / 10 ^ 6 < 1000 := by omega
      have hback : n / 10 ^ 6 * 1000000 = n := by omega
      rw [String.toList_append, hpoint]
      refine (fractionOf_padded (by decide) (by decide) hlt (by omega) hz []).trans ?_
      exact congrArg (fun k => Except.ok (k, ['Z'])) hback
    · split
      · next h3 =>
        have hlt : n / 10 ^ 3 < 1000000 := by omega
        have hback : n / 10 ^ 3 * 1000 = n := by omega
        rw [String.toList_append, hpoint]
        refine (fractionOf_padded (by decide) (by decide) hlt (by omega) hz []).trans ?_
        exact congrArg (fun k => Except.ok (k, ['Z'])) hback
      · rw [String.toList_append, hpoint]
        refine (fractionOf_padded (by decide) (by decide) h (by omega) hz []).trans ?_
        exact congrArg (fun k => Except.ok (k, ['Z'])) (Nat.mul_one n)

/-! ## Reading back -/

theorem date_of_isDate {y : Int} {m d : Nat} (h : IsDate y m d) (hy : -262143 ≤ y ∧ y ≤ 262142)
    (rest : List Char) :
    date ((yearText y).toList ++ '-' :: ((padded 2 m).toList ++ '-' :: ((padded 2 d).toList ++ rest))) =
      .ok ((y, m, d), rest) := by
  have hd := Nat.le_trans h.day.2 (daysIn_le y m)
  have hyear := year_yearText hy ((padded 2 m).toList ++ '-' :: ((padded 2 d).toList ++ rest))
  have hmonth := field_padded h.month (by have := h.month.2; omega) ('-' :: ((padded 2 d).toList ++ rest))
  have hday := field_padded ⟨h.day.1, hd⟩ (by omega) rest
  have hrange : ¬ (y < -(2 ^ 31) ∨ 2 ^ 31 ≤ y) := by omega
  simp only [date, hyear, bind, Except.bind, if_neg hrange, mark_cons (by decide : Text.isBlank '-' = false),
    hmonth, hday, pure, Except.pure]

theorem timeOfDay_of_lt {h mi sec n : Nat} (hh : h < 24) (hmi : mi < 60) (hsec : sec ≤ 60)
    (hn : n < 10 ^ 9) :
    timeOfDay ((padded 2 h).toList ++ ':' :: ((padded 2 mi).toList ++ ':' :: ((padded 2 sec).toList ++
      ((fractionText n).toList ++ ['Z'])))) = .ok ((h, mi, sec, n), ['Z']) := by
  have hhour := field_padded (by omega : 0 ≤ h ∧ h ≤ 23) (by omega)
    (':' :: ((padded 2 mi).toList ++ ':' :: ((padded 2 sec).toList ++ ((fractionText n).toList ++ ['Z']))))
  have hminute := field_padded (by omega : 0 ≤ mi ∧ mi ≤ 59) (by omega)
    (':' :: ((padded 2 sec).toList ++ ((fractionText n).toList ++ ['Z'])))
  have hsecond := field_padded ⟨Nat.zero_le sec, hsec⟩ (by omega) ((fractionText n).toList ++ ['Z'])
  simp only [timeOfDay, hhour, hminute, hsecond, bind, Except.bind,
    mark_cons (by decide : Text.isBlank ':' = false), fractionOf_fractionText hn, pure, Except.pure]

theorem separator_T (rest : List Char) : separator ('T' :: rest) = .ok ((), rest) := by
  simp [separator]

theorem zone_Z : zone ['Z'] = .ok (0, []) := by
  have hblank : Text.dropBlanks ['Z'] = ['Z'] := dropBlanks_cons (by decide) []
  rw [zone, hblank]
  rfl

/-- The parts of an instant make the instant. -/
theorem ofParts_eq {i : Instant} (hi : i.Representable) {y : Int} {m d : Nat} (h : IsDate y m d)
    (hday : dayNumber y m d = i.seconds / 86400) {s : Nat}
    (hs : (s : Int) = i.seconds - i.seconds / 86400 * 86400) :
    ofParts y m d (s / 3600) (s / 60 % 60) (s % 60 + if 10 ^ 9 ≤ i.nanos then 1 else 0)
      (i.nanos % 10 ^ 9) 0 = .ok i := by
  obtain ⟨hlow, hhigh⟩ := year_of_representable hi h hday
  have hdate : ¬ (daysIn y m < d ∨ y < -262143 ∨ 262142 < y) := by
    have hd := h.day.2
    omega
  have hshift : ¬ ((0 : Int) ≤ -86400 ∨ 86400 ≤ (0 : Int)) := by decide
  have hseconds : ¬ (i.seconds < firstSecond ∨ lastSecond < i.seconds) := by
    have hrange := hi.seconds
    omega
  have hnanos := hi.nanos
  rw [ofParts]
  by_cases hleap : 10 ^ 9 ≤ i.nanos
  · have h60 : s % 60 + 1 = 60 := by omega
    have hsum : dayNumber y m d * 86400 + (s / 3600 : Nat) * 3600 + (s / 60 % 60 : Nat) * 60 +
        (59 : Nat) - 0 = i.seconds := by omega
    have hback : i.nanos % 10 ^ 9 + 10 ^ 9 = i.nanos := by omega
    simp only [if_pos hleap, h60, if_true, hsum, hback, if_neg hdate, if_neg hshift, if_neg hseconds]
  · have h60 : ¬ s % 60 + 0 = 60 := by omega
    have hsum : dayNumber y m d * 86400 + (s / 3600 : Nat) * 3600 + (s / 60 % 60 : Nat) * 60 +
        (s % 60 + 0 : Nat) - 0 = i.seconds := by omega
    have hback : i.nanos % 10 ^ 9 = i.nanos := by omega
    simp only [if_neg hleap, if_neg h60, hsum, hback, if_neg hdate, if_neg hshift, if_neg hseconds]

/-- **A representable instant is read back from its written form.** -/
theorem parse_toText {i : Instant} (h : i.Representable) : parse i.toText = .ok i := by
  obtain ⟨y, m, d, hciv, hday, hdate⟩ := civil_spec (i.seconds / 86400)
  obtain ⟨s, hs⟩ : ∃ s, (i.seconds - i.seconds / 86400 * 86400).toNat = s := ⟨_, rfl⟩
  have hs' : (s : Int) = i.seconds - i.seconds / 86400 * 86400 := by omega
  have hmark : ("-" : String).toList = ['-'] ∧ ("T" : String).toList = ['T'] ∧
      (":" : String).toList = [':'] ∧ ("Z" : String).toList = ['Z'] := by decide
  have htext : i.toText.toList = (yearText y).toList ++ '-' :: ((padded 2 m).toList ++
      '-' :: ((padded 2 d).toList ++ 'T' :: ((padded 2 (s / 3600)).toList ++
        ':' :: ((padded 2 (s / 60 % 60)).toList ++ ':' ::
          ((padded 2 (s % 60 + if 10 ^ 9 ≤ i.nanos then 1 else 0)).toList ++
            ((fractionText (i.nanos % 10 ^ 9)).toList ++ ['Z'])))))) := by
    simp only [toText, dateTimeText, hciv, hs, String.toList_append, hmark.1, hmark.2.1, hmark.2.2.1,
      hmark.2.2.2, List.append_assoc, List.cons_append, List.nil_append]
  have hsecond : s % 60 + (if 10 ^ 9 ≤ i.nanos then 1 else 0) ≤ 60 := by split <;> omega
  have htime := timeOfDay_of_lt (by omega : s / 3600 < 24) (by omega : s / 60 % 60 < 60) hsecond
    (Nat.mod_lt i.nanos (by decide : 0 < 10 ^ 9))
  have hyear := year_of_representable h hdate hday
  have hbehind : (!(Text.dropBlanks []).isEmpty) = false := rfl
  simp only [parse, htext, date_of_isDate hdate hyear, separator_T, htime, zone_Z, bind, Except.bind,
    hbehind, Bool.false_eq_true, if_false]
  exact ofParts_eq h hdate hday hs'

/-! ## What is read is representable -/

theorem exists_of_bind_eq_ok {ε α β : Type} {x : Except ε α} {f : α → Except ε β} {b : β}
    (h : (x >>= f) = .ok b) : ∃ a, x = .ok a ∧ f a = .ok b := by
  cases x with
  | error e => cases h
  | ok a => exact ⟨a, rfl, h⟩

theorem valueOf_lt {ds : List Char} (h : ∀ c ∈ ds, isDigit c = true) :
    valueOf ds < Nat.pow 10 ds.length := by
  have hfold : ∀ (ds : List Char) (n : Nat), (∀ c ∈ ds, isDigit c = true) →
      ds.foldl (fun n d => 10 * n + (d.toNat - 48)) n < (n + 1) * Nat.pow 10 ds.length := by
    intro ds
    induction ds with
    | nil =>
      intro n _
      exact Nat.lt_of_lt_of_eq (Nat.lt_succ_self n) (Nat.mul_one (n + 1)).symm
    | cons c ds ih =>
      intro n hds
      have hc : c.toNat ≤ 57 := by
        have h := hds c List.mem_cons_self
        simp only [isDigit, Bool.and_eq_true, decide_eq_true_eq] at h
        exact h.2
      have hrest := ih (10 * n + (c.toNat - 48)) fun x hx => hds x (List.mem_cons_of_mem _ hx)
      refine Nat.lt_of_lt_of_le hrest ?_
      have hpow : Nat.pow 10 (c :: ds).length = 10 * Nat.pow 10 ds.length := Nat.mul_comm _ _
      rw [hpow, ← Nat.mul_assoc]
      exact Nat.mul_le_mul_right _ (by omega)
  have h := hfold ds 0 h
  rwa [Nat.zero_add, Nat.one_mul] at h

/-- A fraction of a second is less than a second. -/
theorem fractionOf_lt {cs rest : List Char} {n : Nat} (h : fractionOf cs = .ok (n, rest)) :
    n < 10 ^ 9 := by
  unfold fractionOf at h
  split at h
  · next tail =>
    obtain ⟨⟨value, after⟩, hnumber, h⟩ := exists_of_bind_eq_ok h
    simp only [number] at hnumber
    obtain ⟨ds, hds⟩ : ∃ ds, (tail.takeWhile isDigit).take 9 = ds := ⟨_, rfl⟩
    rw [hds] at hnumber
    split at hnumber
    · cases hnumber
    split at hnumber
    · cases hnumber
    cases hnumber
    cases h
    have hdigits : ∀ c ∈ ds, isDigit c = true := fun c hc =>
      List.all_eq_true.1 List.all_takeWhile c (List.mem_of_mem_take (hds ▸ hc))
    have hprefix : ds <+: tail := by
      rw [← hds]
      exact (List.take_prefix 9 _).trans (List.takeWhile_prefix isDigit)
    have hlen : ds.length ≤ 9 := by
      rw [← hds]
      exact List.length_take_le 9 _
    have hcount : tail.length - (tail.drop ds.length).length = ds.length := by
      have hle := hprefix.length_le
      rw [List.length_drop]
      omega
    have htake : tail.take ds.length = ds := (List.prefix_iff_eq_take.1 hprefix).symm
    rw [hcount, htake]
    have hpow : Nat.pow 10 ds.length * Nat.pow 10 (9 - ds.length) = 10 ^ 9 := by
      have h := Nat.pow_add 10 ds.length (9 - ds.length)
      rw [Nat.add_sub_cancel' hlen] at h
      exact h.symm
    rw [← hpow]
    exact Nat.mul_lt_mul_of_pos_right (valueOf_lt hdigits) (Nat.pow_pos (by decide))
  · cases h
    decide

theorem timeOfDay_nanos_lt {cs rest : List Char} {h mi sec nanos : Nat}
    (htime : timeOfDay cs = .ok ((h, mi, sec, nanos), rest)) : nanos < 10 ^ 9 := by
  obtain ⟨⟨h₁, cs₁⟩, -, htime⟩ := exists_of_bind_eq_ok htime
  obtain ⟨⟨u₂, cs₂⟩, -, htime⟩ := exists_of_bind_eq_ok htime
  obtain ⟨⟨mi₃, cs₃⟩, -, htime⟩ := exists_of_bind_eq_ok htime
  obtain ⟨⟨u₄, cs₄⟩, -, htime⟩ := exists_of_bind_eq_ok htime
  obtain ⟨⟨sec₅, cs₅⟩, -, htime⟩ := exists_of_bind_eq_ok htime
  obtain ⟨⟨n, cs₆⟩, hfraction, htime⟩ := exists_of_bind_eq_ok htime
  cases htime
  exact fractionOf_lt hfraction

/-- An offset is a number of whole minutes. -/
theorem zone_mod {cs rest : List Char} {shift : Int} (h : zone cs = .ok (shift, rest)) :
    shift % 60 = 0 := by
  rw [zone] at h
  split at h
  · cases h
    rfl
  · unfold offset at h
    split at h
    · cases h
      rfl
    · cases h
      rfl
    · cases h
    · split at h
      · split at h
        · cases h
        · cases h
        · split at h
          · cases h
          · cases h
          · split at h
            · cases h
            · cases h
              split <;> omega
      · cases h

theorem representable_of_ofParts {y : Int} {mo d h mi sec nanos : Nat} {shift : Int} {i : Instant}
    (hnanos : nanos < 10 ^ 9) (hshift : shift % 60 = 0)
    (hi : ofParts y mo d h mi sec nanos shift = .ok i) : i.Representable := by
  rw [ofParts] at hi
  by_cases hleap : sec = 60
  · simp only [if_pos hleap] at hi
    split at hi
    · cases hi
    split at hi
    · cases hi
    split at hi
    · cases hi
    · next hrange =>
      obtain ⟨hlow, hhigh⟩ := not_or.1 hrange
      cases hi
      refine ⟨⟨Int.not_lt.1 hlow, Int.not_lt.1 hhigh⟩, Or.inr ⟨?_, ?_⟩⟩
      · change nanos + 10 ^ 9 < 2 * 10 ^ 9
        omega
      · change (dayNumber y mo d * 86400 + h * 3600 + mi * 60 + (59 : Nat) - shift) % 60 = 59
        omega
  · simp only [if_neg hleap] at hi
    split at hi
    · cases hi
    split at hi
    · cases hi
    split at hi
    · cases hi
    · next hrange =>
      obtain ⟨hlow, hhigh⟩ := not_or.1 hrange
      cases hi
      exact ⟨⟨Int.not_lt.1 hlow, Int.not_lt.1 hhigh⟩, Or.inl hnanos⟩

/-- **Whatever is read is representable.** -/
theorem representable_of_parse {s : String} {i : Instant} (h : parse s = .ok i) :
    i.Representable := by
  obtain ⟨⟨⟨y, mo, d⟩, cs₁⟩, hdate, h⟩ := exists_of_bind_eq_ok h
  obtain ⟨⟨u, cs₂⟩, hseparator, h⟩ := exists_of_bind_eq_ok h
  obtain ⟨⟨⟨hour, mi, sec, nanos⟩, cs₃⟩, htime, h⟩ := exists_of_bind_eq_ok h
  obtain ⟨⟨shift, cs₄⟩, hzone, h⟩ := exists_of_bind_eq_ok h
  have hshift := zone_mod hzone
  have hnanos : nanos < 10 ^ 9 := timeOfDay_nanos_lt htime
  simp only at h
  split at h
  · cases h
  · exact representable_of_ofParts hnanos hshift h

end PluginChain.Instant
