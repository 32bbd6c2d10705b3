import PluginChain.Instant

/-!
# Days and dates

`Instant.civil` finds the date of a day by divisions that correct one another, and `dayNumber` counts the
days back.  `civil_spec` says that they fit: the date of a day is a date of the calendar, and its number
is the day again.

Within four centuries, `146097` days, a day lies in one of three whole centuries of `36524` days or in
the last, in a group of four years in it, in a year of the group, and so on (`exists_dayOfYear`).  From
these parts each of the divisions is worked out (`yearOfEra_eq`).
-/

set_option autoImplicit false

namespace PluginChain.Instant

/-! ## A day within four centuries -/

/-- The parts of a day within four centuries: the century, the group of years in it, the year in the
group, and the day in the year, all counted from zero.  Only a leap year has a day 365. -/
structure DayParts (doe c q r doy : Int) : Prop where
  century : 0 ≤ c ∧ c ≤ 3
  group : 0 ≤ q ∧ q ≤ 24
  year : 0 ≤ r ∧ r ≤ 3
  day : 0 ≤ doy ∧ doy ≤ 365
  leap : doy = 365 → r = 3 ∧ (q ≤ 23 ∨ c = 3)
  sum : doe = 36524 * c + 1461 * q + 365 * r + doy

theorem exists_dayOfYear {doe : Int} (h0 : 0 ≤ doe) (h1 : doe ≤ 146096) :
    ∃ c q r doy, DayParts doe c q r doy := by
  obtain ⟨c, hc⟩ : ∃ c, c = min 3 (doe / 36524) := ⟨_, rfl⟩
  obtain ⟨rest, hrest⟩ : ∃ rest, rest = doe - 36524 * c := ⟨_, rfl⟩
  obtain ⟨q, hq⟩ : ∃ q, q = rest / 1461 := ⟨_, rfl⟩
  obtain ⟨r, hr⟩ : ∃ r, r = min 3 (rest % 1461 / 365) := ⟨_, rfl⟩
  refine ⟨c, q, r, rest % 1461 - 365 * r, ?_, ?_, ?_, ?_, ?_, ?_⟩ <;> omega

/-- The divisions find the year of a day. -/
theorem yearOfEra_eq {doe c q r doy : Int} (h : DayParts doe c q r doy) :
    (doe - doe / 1460 + doe / 36524 - doe / 146096) / 365 = 100 * c + 4 * q + r := by
  obtain ⟨hc, hq, hr, hdoy, hleap, hsum⟩ := h
  have h100 : doe / 36524 - doe / 146096 = c := by
    rcases (by omega : 1461 * q + 365 * r + doy ≤ 36523 ∨ doe = 146096 ∧ c = 3) with h | ⟨h, hc3⟩
    · have hcentury : doe / 36524 = c := by omega
      have hera : doe / 146096 = 0 := by omega
      rw [hcentury, hera, Int.sub_zero]
    · rw [h, hc3]
      decide
  have h4 : doe / 1460 = (24 * c + q + 365 * r + doy) / 1460 + (25 * c + q) := by
    have h : doe = 24 * c + q + 365 * r + doy + 1460 * (25 * c + q) := by omega
    rw [h, Int.add_mul_ediv_left _ _ (by decide : (1460 : Int) ≠ 0)]
  have h : doe - doe / 1460 + doe / 36524 - doe / 146096 =
      doy - (24 * c + q + 365 * r + doy) / 1460 + 365 * (100 * c + 4 * q + r) := by omega
  rw [h, Int.add_mul_ediv_left _ _ (by decide : (365 : Int) ≠ 0)]
  omega

/-- What is left of a day behind the years before it. -/
theorem DayParts.dayOfYear_eq {doe c q r doy yoe : Int} (h : DayParts doe c q r doy)
    (hyoe : yoe = 100 * c + 4 * q + r) : doe - (365 * yoe + yoe / 4 - yoe / 100) = doy := by
  obtain ⟨hc, hq, hr, -, -, hsum⟩ := h
  have h4 : yoe / 4 = 25 * c + q := by omega
  have h100 : yoe / 100 = c := by omega
  omega

/-! ## Dates -/

/-- A date of the calendar. -/
structure IsDate (y : Int) (m d : Nat) : Prop where
  month : 1 ≤ m ∧ m ≤ 12
  day : 1 ≤ d ∧ d ≤ daysIn y m

/-- The date that the day of a year has, counted from March, in the year that began then. -/
def monthDay (y doy : Int) : Int × Nat × Nat :=
  let mp := (5 * doy + 2) / 153
  let d := doy - (153 * mp + 2) / 5 + 1
  let m := if mp < 10 then mp + 3 else mp - 9
  (if m ≤ 2 then y + 1 else y, m.toNat, d.toNat)

theorem civil_eq {days era doe yoe doy : Int} (hera : (days + 719468) / 146097 = era)
    (hdoe : days + 719468 - era * 146097 = doe)
    (hyear : (doe - doe / 1460 + doe / 36524 - doe / 146096) / 365 = yoe)
    (hday : doe - (365 * yoe + yoe / 4 - yoe / 100) = doy) :
    civil days = monthDay (yoe + era * 400) doy := by
  subst hday hyear hdoe hera
  rfl

/-- The date of a day of a year lies in the month that the day falls in. -/
theorem monthDay_cases {doy : Int} (h0 : 0 ≤ doy) (h1 : doy ≤ 365) (y : Int) :
    ∃ (m : Nat) (d : Nat), monthDay y doy = (if m ≤ 2 then y + 1 else y, m, d) ∧
      (1 ≤ m ∧ m ≤ 12) ∧ 1 ≤ d ∧ (153 * (((m : Int) + 9) % 12) + 2) / 5 + (d : Int) - 1 = doy ∧
      (m = 2 → d ≤ 29 ∧ (d = 29 → doy = 365)) ∧
      (m ≠ 2 → d ≤ if m = 4 ∨ m = 6 ∨ m = 9 ∨ m = 11 then 30 else 31) := by
  obtain ⟨mp, hmp⟩ : ∃ mp, mp = (5 * doy + 2) / 153 := ⟨_, rfl⟩
  have hrange : 0 ≤ mp ∧ mp ≤ 11 := by omega
  have hm : (((if mp < 10 then mp + 3 else mp - 9).toNat : Int) + 9) % 12 = mp := by
    split <;> omega
  refine ⟨(if mp < 10 then mp + 3 else mp - 9).toNat, (doy - (153 * mp + 2) / 5 + 1).toNat,
    ?_, ?_, ?_, ?_, ?_, ?_⟩
  · rw [monthDay, ← hmp]
    simp
  · split <;> omega
  · omega
  · rw [hm]
    omega
  · split <;> omega
  · split <;> split <;> omega

/-- The number of a date, in the year that began in March before it. -/
theorem dayNumber_eq {y : Int} {m d : Nat} {yoe era doy : Int} (hyoe : 0 ≤ yoe ∧ yoe ≤ 399)
    (hy : y = if m ≤ 2 then yoe + era * 400 + 1 else yoe + era * 400)
    (hdoy : (153 * (((m : Int) + 9) % 12) + 2) / 5 + (d : Int) - 1 = doy) :
    dayNumber y m d = era * 146097 + (yoe * 365 + yoe / 4 - yoe / 100 + doy) - 719468 := by
  have hstart : (if m ≤ 2 then y - 1 else y) = yoe + era * 400 := by
    rw [hy]
    split <;> omega
  have hera : (yoe + era * 400) / 400 = era := by omega
  have hrest : yoe + era * 400 - era * 400 = yoe := by omega
  simp only [dayNumber, hstart, hera, hrest, hdoy]

/-- **The date of a day is a date of the calendar, and its number is the day.** -/
theorem civil_spec (days : Int) :
    ∃ y m d, civil days = (y, m, d) ∧ dayNumber y m d = days ∧ IsDate y m d := by
  obtain ⟨era, hera⟩ : ∃ era, (days + 719468) / 146097 = era := ⟨_, rfl⟩
  obtain ⟨doe, hdoe⟩ : ∃ doe, days + 719468 - era * 146097 = doe := ⟨_, rfl⟩
  have hlow : 0 ≤ doe := by omega
  have hhigh : doe ≤ 146096 := by omega
  obtain ⟨c, q, r, doy, hparts⟩ := exists_dayOfYear hlow hhigh
  obtain ⟨yoe, hyoe⟩ : ∃ yoe, yoe = 100 * c + 4 * q + r := ⟨_, rfl⟩
  have hday := hparts.dayOfYear_eq hyoe
  have hciv : civil days = monthDay (yoe + era * 400) doy := by
    have hyear := yearOfEra_eq hparts
    rw [← hyoe] at hyear
    exact civil_eq hera hdoe hyear hday
  obtain ⟨hc, hq, hr, hdoy, hleap, hsum⟩ := hparts
  obtain ⟨m, d, hdate, hm, hd, hnumber, hfeb, hother⟩ := monthDay_cases hdoy.1 hdoy.2 (yoe + era * 400)
  refine ⟨_, m, d, hciv.trans hdate, ?_, hm, hd, ?_⟩
  · rw [dayNumber_eq (by omega) rfl hnumber]
    omega
  · rw [daysIn]
    by_cases h2 : m = 2
    · obtain ⟨hle, hlast⟩ := hfeb h2
      rw [if_pos h2, if_pos (show m ≤ 2 by omega)]
      split
      · exact hle
      · next hcommon =>
        -- a year of which the February has 28 days has no day 365
        rcases Nat.lt_or_ge d 29 with hlt | hge
        · omega
        · obtain ⟨hr3, hcase⟩ := hleap (hlast (by omega))
          refine absurd ?_ hcommon
          rw [isLeap]
          simp only [Bool.and_eq_true, Bool.or_eq_true, decide_eq_true_eq]
          rcases hcase with hq23 | hc3 <;> omega
    · rw [if_neg h2]
      exact hother h2

end PluginChain.Instant
