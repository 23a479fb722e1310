import Cadence.Proofs.Calendar.Readback

/-! Years on the clock, and the lengths of their months. A time is in the year whose New Year
is the last one not after it; New Years are 365 days or more apart, so a clock that is moved
by less than that shows the same year or one next to it.
-/

namespace Cadence

-----------------------------------------------------------------------------------------
-- The lengths of months
-----------------------------------------------------------------------------------------

namespace Calendar

/-- The number of days that a month can have: February has 29 in leap years. -/
def longest : Nat → Nat
  | 2 => 29
  | 4 | 6 | 9 | 11 => 30
  | _ => 31

/-- Months are shortest in years without a leap day and longest in those with one, checked
month by month. Four weeks fit into each.
-/
theorem monthLengths_bounds (leap : Bool) (index : Nat) (exists_ : index < 12)
    : 28 ≤ (monthLengths false).getD index 0
      ∧ (monthLengths false).getD index 0 ≤ (monthLengths leap).getD index 0
      ∧ (monthLengths leap).getD index 0 ≤ (monthLengths true).getD index 0
      ∧ (monthLengths true).getD index 0 = longest (index + 1) := by
  have table : ∀ leap : Bool, ∀ index < 12,
      28 ≤ (monthLengths false).getD index 0
      ∧ (monthLengths false).getD index 0 ≤ (monthLengths leap).getD index 0
      ∧ (monthLengths leap).getD index 0 ≤ (monthLengths true).getD index 0
      ∧ (monthLengths true).getD index 0 = longest (index + 1) := by
    decide
  exact table leap index exists_

variable {month : Nat}

/-- The days of a month are those of its row in the table for the kind of year. -/
theorem daysInMonth_eq (exists_ : 1 ≤ month) (year : Int)
    : daysInMonth year month = (monthLengths (isLeap year)).getD (month - 1) 0 := by
  obtain ⟨index, rfl⟩ : ∃ index, month = index + 1 := ⟨month - 1, by omega⟩
  rfl

/-- A month after December has no days. -/
theorem month_le_of_daysInMonth {year : Int} (nonempty : 1 ≤ daysInMonth year month)
    : 1 ≤ month ∧ month ≤ 12 := by
  cases month with
  | zero => simp [daysInMonth] at nonempty
  | succ index =>
      refine ⟨Nat.le_add_left 1 index, ?_⟩
      by_contra late
      have length : (monthLengths (isLeap year)).length = 12 := rfl
      have missing : (monthLengths (isLeap year))[index]? = none :=
        List.getElem?_eq_none (by omega)
      simp [daysInMonth, missing] at nonempty

/-- A day of a month in the year 2001, which has no leap day, exists in every year. -/
theorem common_le_daysInMonth (year : Int) (month : Nat)
    : daysInMonth 2001 month ≤ daysInMonth year month := by
  by_cases empty : daysInMonth 2001 month = 0
  · omega
  · have exists_ := month_le_of_daysInMonth (Nat.one_le_iff_ne_zero.mpr empty)
    rw [daysInMonth_eq exists_.1, daysInMonth_eq exists_.1]
    exact (monthLengths_bounds (isLeap year) _ (by omega)).2.1

/-- Every month has four weeks. -/
theorem fourWeeks_le_daysInMonth (exists_ : 1 ≤ month ∧ month ≤ 12) (year : Int)
    : 28 ≤ daysInMonth year month := by
  have bounds := monthLengths_bounds (isLeap year) (month - 1) (by omega)
  rw [daysInMonth_eq exists_.1]
  omega

/-- No month has more days than it can have. -/
theorem daysInMonth_le_longest {year : Int} (nonempty : 1 ≤ daysInMonth year month)
    : daysInMonth year month ≤ longest month := by
  have exists_ := month_le_of_daysInMonth nonempty
  have bounds := monthLengths_bounds (isLeap year) (month - 1) (by omega)
  rw [Nat.sub_add_cancel exists_.1] at bounds
  rw [daysInMonth_eq exists_.1]
  omega

/-- A month has 31 days at most. -/
theorem daysInMonth_le (year : Int) (month : Nat)
    : daysInMonth year month ≤ 31 := by
  by_cases empty : daysInMonth year month = 0
  · omega
  · have most := daysInMonth_le_longest (Nat.one_le_iff_ne_zero.mpr empty)
    have longest : longest month ≤ 31 := by
      unfold Calendar.longest
      split <;> decide
    omega

/-- In a leap year a month has all the days that it can have. -/
theorem daysInMonth_of_leap (exists_ : 1 ≤ month ∧ month ≤ 12) {year : Int}
    (leap : isLeap year)
    : daysInMonth year month = longest month := by
  have bounds := monthLengths_bounds true (month - 1) (by omega)
  rw [Nat.sub_add_cancel exists_.1] at bounds
  rw [daysInMonth_eq exists_.1, leap, bounds.2.2.2]

/-- Years follow one another. -/
theorem daysBeforeYear_le {early late : Int} (ordered : early ≤ late)
    : daysBeforeYear early ≤ daysBeforeYear late := by
  rcases Int.lt_or_eq_of_le ordered with before | rfl
  · have years := daysBeforeYear_lt before
    split at years <;> omega
  · exact Int.le_refl _

end Calendar

-----------------------------------------------------------------------------------------
-- New Year
-----------------------------------------------------------------------------------------

namespace Clock

/-- The first second of a year. -/
def newYear (year : Int) : Int :=
  (Calendar.daysBeforeYear year - Calendar.epochDays) * 86400

/-- A time is in an earlier year exactly if it is before the New Year. -/
theorem year_lt_iff (time year : Int) : (date time).year < year ↔ time < newYear year := by
  obtain ⟨begun, unfinished⟩ := Calendar.yearOfDay_spec (time / 86400 + Calendar.epochDays)
  change Calendar.daysBeforeYear (date time).year ≤ _ at begun
  change _ < Calendar.daysBeforeYear ((date time).year + 1) at unfinished
  rw [newYear]
  constructor
  · intro earlier
    have years := Calendar.daysBeforeYear_le (Int.add_one_le_of_lt earlier)
    omega
  · intro before
    by_contra late
    have years := Calendar.daysBeforeYear_le (Int.not_lt.mp late)
    omega

/-- The times of a year lie between its New Year and the next. -/
theorem year_eq_iff {time year : Int}
    : (date time).year = year ↔ newYear year ≤ time ∧ time < newYear (year + 1) := by
  have start := year_lt_iff time year
  have finish := year_lt_iff time (year + 1)
  omega

/-- A year has 365 days at least. -/
theorem newYear_succ (year : Int) : newYear year + 31536000 ≤ newYear (year + 1) := by
  have days := Calendar.daysBeforeYear_succ year
  simp only [newYear]
  split at days <;> omega

end Clock

end Cadence
