import Cadence.Proofs.Calendar.Years

/-! The cycle of the calendar. After 400 years leap years come again, and on the same days of
the week. Within the cycle a leap year that starts on a given weekday follows at most forty
years after any year: as a rule there is one in 28 years, but century years without a leap day
break the rule. So every date that can exist is due on every weekday within forty years.
-/

namespace Cadence

namespace Calendar

/-- Leap years come again after each cycle. -/
theorem isLeap_cycle (cycles year : Int) : isLeap (400 * cycles + year) = isLeap year := by
  have four : (400 * cycles + year) % 4 = year % 4 := by omega
  have hundred : (400 * cycles + year) % 100 = year % 100 := by omega
  have centuries : (400 * cycles + year) % 400 = year % 400 := by omega
  simp only [isLeap, four, hundred, centuries]

/-- A cycle has 146097 days, which are whole weeks. -/
theorem daysBeforeYear_cycle (cycles year : Int)
    : daysBeforeYear (400 * cycles + year) = 7 * (20871 * cycles) + daysBeforeYear year := by
  simp only [daysBeforeYear]
  omega

/-- In every fourth of a cycle's hundred groups of four years, each weekday is the first of a
leap year at most ten groups later, checked for all groups.
-/
theorem leapYears_of_cycle
    : ∀ group < (100 : Nat), ∀ residue < (7 : Nat), ∃ step < (10 : Nat),
        isLeap (4 * ((group : Int) + step + 1))
        ∧ daysBeforeYear (4 * ((group : Int) + step + 1)) % 7 = residue := by
  decide +kernel

/-- Within forty years comes a leap year whose first day has a given place in the week, by the
table for the year's place in its cycle.
-/
theorem exists_leapYear (year : Int) (residue : Nat) (small : residue < 7)
    : ∃ later,
        year < later
        ∧ later ≤ year + 40
        ∧ isLeap later
        ∧ daysBeforeYear later % 7 = residue := by
  obtain ⟨step, near, leap, first⟩ :=
    leapYears_of_cycle (year % 400 / 4).toNat (by omega) residue small
  generalize group : (year % 400 / 4).toNat = place at leap first
  refine ⟨400 * (year / 400) + 4 * ((place : Int) + step + 1), ?_, ?_, ?_, ?_⟩
  · omega
  · omega
  · rw [isLeap_cycle]
    exact leap
  · rw [daysBeforeYear_cycle, Int.mul_add_emod_self_left]
    exact first

end Calendar

/-- A date that can exist is due on every weekday within forty years, in a leap year: there the
weekday of the date is that of the year's first day, moved by a fixed number of days.
-/
theorem Date.exists_onWeekday (year : Int) {month day weekday : Nat}
    (months : 1 ≤ month ∧ month ≤ 12) (days : 1 ≤ day ∧ day ≤ Calendar.longest month)
    (week : weekday < 7)
    : ∃ date : Date,
        year < date.year
        ∧ date.year ≤ year + 40
        ∧ date.month = month
        ∧ date.day = day
        ∧ date.weekday = weekday := by
  -- the days from the start of a leap year to the date, in weeks that start on a Sunday
  let shift : Int :=
    Calendar.total ((Calendar.monthLengths true).take (month - 1)) + day - 1
      - Calendar.epochDays + 4
  obtain ⟨later, after, within, leap, first⟩ :=
    Calendar.exists_leapYear year ((weekday - shift) % 7).toNat (by omega)
  have exists_ : 1 ≤ day ∧ day ≤ Calendar.daysInMonth later month := by
    rw [Calendar.daysInMonth_of_leap months leap]
    exact days
  refine ⟨⟨later, month, day, exists_⟩, after, within, rfl, rfl, ?_⟩
  have number : (⟨later, month, day, exists_⟩ : Date).dayNumber + 4
      = Calendar.daysBeforeYear later + shift := by
    simp only [Date.dayNumber, Calendar.daysBeforeMonth, leap, shift]
    omega
  rw [Date.weekday, number]
  omega

end Cadence
