import DesignTokens.Calendar
import Mathlib.Order.Monotone.Basic

/-!
# Counting days

`Date.daysBefore` counts the days of the calendar before a date, by the rule for leap years. The day
after has the next count, and the calendar ends with the last one. So going on for a number of days
leads to the date with that many days more before it, and to none exactly when the calendar has no
such date: `addDays?_cases`. Different dates have different counts: `eq_of_daysBefore`.
-/

namespace DesignTokens

namespace Date

/-- The days before a year: 365 for each year, and one for each leap year among them. -/
def daysBeforeYear (year : Nat) : Nat :=
  (year - 1) * 365 + (year - 1) / 4 - (year - 1) / 100 + (year - 1) / 400

/-- The days of a year before a month. -/
def daysBeforeMonth (year : Nat) : Nat → Nat
  | 0 => 0
  | 1 => 0
  | month + 2 => daysBeforeMonth year (month + 1) + daysInMonth year (month + 1)

/-- The days of the calendar before a date. -/
def daysBefore (d : Date) : Nat :=
  daysBeforeYear d.year + daysBeforeMonth d.year d.month + (d.day - 1)

/-- The number of days of the calendar. -/
def dayCount : Nat := daysBeforeYear (lastYear + 1)

variable {d e : Date} {year month : Nat}

/-! ## Years and months -/

theorem isLeapYear_iff :
    isLeapYear year = true ↔ 4 ∣ year ∧ (¬ 100 ∣ year ∨ 400 ∣ year) := by
  simp [isLeapYear, Nat.dvd_iff_mod_eq_zero]

/-- Every month has days. -/
theorem daysInMonth_pos (year month : Nat) : 0 < daysInMonth year month := by
  unfold daysInMonth
  split_ifs <;> decide

theorem daysBeforeMonth_one (year : Nat) : daysBeforeMonth year 1 = 0 := rfl

/-- After a month its days have passed. -/
theorem daysBeforeMonth_succ (year : Nat) {month : Nat} (hmonth : 1 ≤ month) :
    daysBeforeMonth year (month + 1) = daysBeforeMonth year month + daysInMonth year month := by
  obtain ⟨m, rfl⟩ := Nat.exists_eq_add_of_le' hmonth
  rfl

theorem monotone_daysBeforeMonth (year : Nat) : Monotone (daysBeforeMonth year) := by
  refine monotone_nat_of_le_succ fun month => ?_
  cases month with
  | zero => exact Nat.le_refl _
  | succ month =>
      rw [daysBeforeMonth_succ year (Nat.le_add_left 1 month)]
      exact Nat.le_add_right _ _

/-- Twelve months are a year. -/
theorem daysBeforeMonth_thirteen (year : Nat) :
    daysBeforeMonth year 13 = if isLeapYear year then 366 else 365 := by
  cases hleap : isLeapYear year <;> simp [daysBeforeMonth, daysInMonth, hleap]

/-- After a year its days have passed. -/
theorem daysBeforeYear_succ (hyear : 1 ≤ year) :
    daysBeforeYear (year + 1) = daysBeforeYear year + daysBeforeMonth year 13 := by
  obtain ⟨y, rfl⟩ := Nat.exists_eq_add_of_le' hyear
  have hcentury : 100 ∣ y + 1 → 4 ∣ y + 1 := Nat.dvd_trans (by decide)
  have hfourth : 400 ∣ y + 1 → 100 ∣ y + 1 := Nat.dvd_trans (by decide)
  have hfewer : y / 100 ≤ y / 4 := Nat.div_le_div_left (by decide) (by decide)
  rw [daysBeforeMonth_thirteen, daysBeforeYear, daysBeforeYear]
  simp only [isLeapYear_iff, Nat.add_sub_cancel, Nat.succ_div]
  -- Each of the three rules is an exception to the one before.
  by_cases h4 : 4 ∣ y + 1
  · by_cases h100 : 100 ∣ y + 1
    · by_cases h400 : 400 ∣ y + 1
      · rw [if_pos h4, if_pos h100, if_pos h400, if_pos ⟨h4, Or.inr h400⟩]
        omega
      · rw [if_pos h4, if_pos h100, if_neg h400, if_neg fun h => h.2.elim (· h100) h400]
        omega
    · rw [if_pos h4, if_neg h100, if_neg (mt hfourth h100), if_pos ⟨h4, Or.inl h100⟩]
      omega
  · rw [if_neg h4, if_neg (mt hcentury h4), if_neg (mt (hcentury ∘ hfourth) h4),
      if_neg fun h => h4 h.1]
    omega

theorem monotone_daysBeforeYear : Monotone daysBeforeYear := by
  refine monotone_nat_of_le_succ fun year => ?_
  cases year with
  | zero => exact Nat.le_refl _
  | succ year =>
      rw [daysBeforeYear_succ (Nat.le_add_left 1 year)]
      exact Nat.le_add_right _ _

/-! ## Dates within years and months -/

/-- A date lies in its month. -/
theorem Valid.within_month (hd : d.Valid) :
    daysBeforeMonth d.year d.month + (d.day - 1) < daysBeforeMonth d.year (d.month + 1) := by
  obtain ⟨-, -, hmonth, -, hfirst, hlast⟩ := hd
  rw [daysBeforeMonth_succ _ hmonth]
  omega

/-- A date lies in its year. -/
theorem Valid.within_year (hd : d.Valid) :
    daysBeforeYear d.year ≤ d.daysBefore ∧ d.daysBefore < daysBeforeYear (d.year + 1) := by
  have hmonth := hd.within_month
  have hlast : daysBeforeMonth d.year (d.month + 1) ≤ daysBeforeMonth d.year 13 :=
    monotone_daysBeforeMonth _ (Nat.succ_le_succ hd.2.2.2.1)
  rw [daysBeforeYear_succ hd.1]
  unfold daysBefore
  omega

/-- A date is one of the days of the calendar. -/
theorem Valid.daysBefore_lt (hd : d.Valid) : d.daysBefore < dayCount :=
  Nat.lt_of_lt_of_le hd.within_year.2 (monotone_daysBeforeYear (Nat.succ_le_succ hd.2.1))

/-- Of the intervals between the values of a monotone function only one holds a number. -/
theorem eq_of_between {f : Nat → Nat} (hf : Monotone f) {a b x : Nat} (ha : f a ≤ x ∧ x < f (a + 1))
    (hb : f b ≤ x ∧ x < f (b + 1)) : a = b := by
  have hle {a b : Nat} (ha : f a ≤ x) (hb : x < f (b + 1)) : a ≤ b := by
    by_contra hlt
    have hmono := hf (Nat.succ_le_of_lt (not_le.1 hlt))
    exact absurd (Nat.lt_of_lt_of_le hb (Nat.le_trans hmono ha)) (Nat.lt_irrefl x)
  exact Nat.le_antisymm (hle ha.1 hb.2) (hle hb.1 ha.2)

/-- Dates with the same days before them are the same. -/
theorem eq_of_daysBefore (hd : d.Valid) (he : e.Valid) (h : d.daysBefore = e.daysBefore) :
    d = e := by
  obtain ⟨year, month, day⟩ := d
  obtain ⟨otherYear, otherMonth, otherDay⟩ := e
  have hyears := he.within_year
  rw [← h] at hyears
  obtain rfl : year = otherYear :=
    eq_of_between monotone_daysBeforeYear hd.within_year hyears
  have hsame : daysBeforeMonth year month + (day - 1) =
      daysBeforeMonth year otherMonth + (otherDay - 1) := by
    unfold daysBefore at h
    dsimp only at h
    omega
  obtain rfl : month = otherMonth :=
    eq_of_between (monotone_daysBeforeMonth year) ⟨Nat.le_add_right _ _, hd.within_month⟩
      ⟨hsame ▸ Nat.le_add_right _ _, hsame ▸ he.within_month⟩
  have hday : 1 ≤ day ∧ 1 ≤ otherDay := ⟨hd.2.2.2.2.1, he.2.2.2.2.1⟩
  obtain rfl : day = otherDay := by omega
  rfl

/-! ## Going from day to day -/

/-- The day after a date has one day more before it, and only the last date has none. -/
theorem next?_cases (hd : d.Valid) :
    (∃ e, d.next? = some e ∧ e.Valid ∧ e.daysBefore = d.daysBefore + 1) ∨
      (d.next? = none ∧ d.daysBefore + 1 = dayCount) := by
  obtain ⟨year, month, day⟩ := d
  obtain ⟨hfirstYear, hlastYear, hfirstMonth, hlastMonth, hfirstDay, hlastDay⟩ := hd
  dsimp only at *
  unfold next?
  dsimp only
  split_ifs with hday hmonth hyear
  · exact Or.inl ⟨_, rfl, ⟨hfirstYear, hlastYear, hfirstMonth, hlastMonth, by dsimp only; omega,
      hday⟩, by simp only [daysBefore]; omega⟩
  · -- The next month begins.
    refine Or.inl ⟨_, rfl, ⟨hfirstYear, hlastYear, by dsimp only; omega, hmonth, Nat.le_refl 1,
      daysInMonth_pos _ _⟩, ?_⟩
    simp only [daysBefore, daysBeforeMonth_succ year hfirstMonth]
    omega
  all_goals
    obtain rfl : month = 12 := by omega
    have hpassed := daysBeforeYear_succ hfirstYear
    rw [daysBeforeMonth_succ year (by decide : 1 ≤ 12)] at hpassed
  · -- The next year begins.
    refine Or.inl ⟨_, rfl, ⟨by dsimp only; omega, hyear, Nat.le_refl 1, Nat.le_add_left 1 11,
      Nat.le_refl 1, daysInMonth_pos _ _⟩, ?_⟩
    simp only [daysBefore, daysBeforeMonth_one]
    omega
  · obtain rfl : year = lastYear := by omega
    refine Or.inr ⟨rfl, ?_⟩
    simp only [daysBefore, dayCount]
    omega

/-- The day before a date has one day less before it, and only the first date has none. -/
theorem previous?_cases (hd : d.Valid) :
    (∃ e, d.previous? = some e ∧ e.Valid ∧ e.daysBefore + 1 = d.daysBefore) ∨
      (d.previous? = none ∧ d.daysBefore = 0) := by
  obtain ⟨year, month, day⟩ := d
  obtain ⟨hfirstYear, hlastYear, hfirstMonth, hlastMonth, hfirstDay, hlastDay⟩ := hd
  dsimp only at *
  unfold previous?
  dsimp only
  split_ifs with hday hmonth hyear
  · exact Or.inl ⟨_, rfl, ⟨hfirstYear, hlastYear, hfirstMonth, hlastMonth, by dsimp only; omega,
      by dsimp only; omega⟩, by simp only [daysBefore]; omega⟩
  · -- The month before ends.
    obtain ⟨before, rfl⟩ := Nat.exists_eq_add_of_le' hmonth.le
    have hbefore : 1 ≤ before := by omega
    have hpos := daysInMonth_pos year before
    refine Or.inl ⟨_, rfl, ⟨hfirstYear, hlastYear, by dsimp only; omega, by dsimp only; omega,
      hpos, Nat.le_refl _⟩, ?_⟩
    simp only [daysBefore, daysBeforeMonth_succ year hbefore, Nat.add_sub_cancel]
    omega
  all_goals
    obtain rfl : month = 1 := by omega
  · -- The year before ends.
    obtain ⟨before, rfl⟩ := Nat.exists_eq_add_of_le' hfirstYear
    have hbefore : 1 ≤ before := by unfold firstYear at hyear; omega
    have hpassed := daysBeforeYear_succ hbefore
    rw [daysBeforeMonth_succ before (by decide : 1 ≤ 12)] at hpassed
    have hdecember : daysInMonth before 12 = 31 := rfl
    refine Or.inl ⟨_, rfl, ⟨hbefore, ?_, Nat.le_add_left 1 11, Nat.le_refl 12,
      Nat.le_add_left 1 30, Nat.le_refl 31⟩, ?_⟩
    · dsimp only [firstYear] at *
      omega
    · simp only [daysBefore, daysBeforeMonth_one, firstYear, Nat.add_sub_cancel] at *
      omega
  · obtain rfl : year = firstYear := by omega
    obtain rfl : day = 1 := by omega
    exact Or.inr ⟨rfl, rfl⟩

/-- Steps that each lower a rank by one lead to the date of the rank that is left, and nowhere
exactly when the rank is used up before. -/
theorem stepBy_cases {step : Date → Option Date} {rank : Date → Nat}
    (hstep : ∀ d, d.Valid → (∃ e, step d = some e ∧ e.Valid ∧ rank e + 1 = rank d) ∨
      (step d = none ∧ rank d = 0)) (hd : d.Valid) (count : Nat) :
    (∃ e, stepBy step count d = some e ∧ e.Valid ∧ rank e + count = rank d) ∨
      (stepBy step count d = none ∧ rank d < count) := by
  induction count generalizing d with
  | zero => exact Or.inl ⟨d, rfl, hd, rfl⟩
  | succ count ih =>
      rw [stepBy]
      obtain ⟨e, hnext, he, hrank⟩ | ⟨hend, hrank⟩ := hstep d hd
      · rw [hnext, Option.bind_some]
        obtain ⟨f, hrest, hf, hleft⟩ | ⟨hrest, hused⟩ := ih he
        · exact Or.inl ⟨f, hrest, hf, by omega⟩
        · exact Or.inr ⟨hrest, by omega⟩
      · rw [hend]
        exact Or.inr ⟨rfl, by omega⟩

/-- The date a number of days later has that many days more before it. There is none exactly when
no date of the calendar has. -/
theorem addDays?_cases (hd : d.Valid) (days : Int) :
    (∃ e, d.addDays? days = some e ∧ e.Valid ∧ (e.daysBefore : Int) = d.daysBefore + days) ∨
      (d.addDays? days = none ∧
        ¬ (0 ≤ d.daysBefore + days ∧ d.daysBefore + days < dayCount)) := by
  unfold addDays?
  split
  · obtain ⟨e, hlater, he, hrank⟩ | ⟨hnone, hrank⟩ :=
      stepBy_cases (fun d => previous?_cases) hd days.natAbs
    · exact Or.inl ⟨e, hlater, he, by omega⟩
    · exact Or.inr ⟨hnone, by omega⟩
  · -- Going on counts down the days after a date.
    have hlast := hd.daysBefore_lt
    have hstep : ∀ d : Date, d.Valid →
        (∃ e, d.next? = some e ∧ e.Valid ∧
          dayCount - 1 - e.daysBefore + 1 = dayCount - 1 - d.daysBefore) ∨
          (d.next? = none ∧ dayCount - 1 - d.daysBefore = 0) := by
      intro d hd
      obtain ⟨e, hnext, he, hcount⟩ | ⟨hend, hcount⟩ := next?_cases hd
      · have hbound := he.daysBefore_lt
        exact Or.inl ⟨e, hnext, he, by omega⟩
      · exact Or.inr ⟨hend, by omega⟩
    obtain ⟨e, hlater, he, hrank⟩ | ⟨hnone, hrank⟩ := stepBy_cases hstep hd days.natAbs
    · have hbound := he.daysBefore_lt
      exact Or.inl ⟨e, hlater, he, by omega⟩
    · exact Or.inr ⟨hnone, by omega⟩

end Date

end DesignTokens
