import Cadence.Proofs.Calendar.Years
import Cadence.Zone.Rules

/-! Times of the year have dates. A fixed date that exists in a year without a leap day exists
in every year; of a weekday each month has four, and the fifth place falls back to the fourth.
So a yearly time is on a date of its month in every year that has dates.
-/

namespace Cadence.YearlyTime

/-- The month of a time of the year. -/
def month : YearlyTime → Nat
  | .fixed month _ _ => month
  | .floating month _ _ _ => month

variable {year : Int} {month day : Nat}

/-- In years that have dates, a day that its month has is a date. -/
theorem exists_dateIn? (inRange : firstYear ≤ year ∧ year ≤ lastYear)
    (exists_ : 1 ≤ day ∧ day ≤ Calendar.daysInMonth year month)
    : ∃ date : Date,
        date.year = year ∧ date.month = month ∧ dateIn? year month day = some date := by
  refine ⟨⟨year, month, day, exists_⟩, rfl, rfl, ?_⟩
  rw [dateIn?, if_pos inRange, Date.of?, dif_pos exists_]

/-- A date that 2001 has is one in every year. -/
theorem dateIn?_of_common (inRange : firstYear ≤ year ∧ year ≤ lastYear)
    (common : (dateIn? 2001 month day).isSome)
    : ∃ date : Date,
        date.year = year ∧ date.month = month ∧ dateIn? year month day = some date := by
  have exists_ : 1 ≤ day ∧ day ≤ Calendar.daysInMonth 2001 month := by
    simp only [dateIn?, Date.of?] at common
    split at common
    · split at common
      · assumption
      · simp at common
    · simp at common
  have fits := Nat.le_trans exists_.2 (Calendar.common_le_daysInMonth year month)
  exact exists_dateIn? inRange ⟨exists_.1, fits⟩

/-- The place of a weekday in its month is a date, or else the place a week before is: each
month has four weeks.
-/
theorem dateIn?_of_week (inRange : firstYear ≤ year ∧ year ≤ lastYear)
    (months : 1 ≤ month ∧ month ≤ 12) {week lead : Nat} (weeks : 1 ≤ week ∧ week ≤ 5)
    (soon : lead < 7)
    : ∃ date : Date,
        date.year = year
        ∧ date.month = month
        ∧ (dateIn? year month (week * 7 - 6 + lead)).or
            (dateIn? year month (week * 7 - 6 + lead - 7)) = some date := by
  have long := Calendar.fourWeeks_le_daysInMonth months year
  by_cases fits : week * 7 - 6 + lead ≤ Calendar.daysInMonth year month
  · have positive : 1 ≤ week * 7 - 6 + lead := by omega
    obtain ⟨date, sameYear, sameMonth, found⟩ := exists_dateIn? inRange ⟨positive, fits⟩
    refine ⟨date, sameYear, sameMonth, ?_⟩
    rw [found, Option.some_or]
  · have missing : dateIn? year month (week * 7 - 6 + lead) = none := by
      rw [dateIn?, if_pos inRange, Date.of?, dif_neg fun exists_ => fits exists_.2]
    have earlier : 1 ≤ week * 7 - 6 + lead - 7
        ∧ week * 7 - 6 + lead - 7 ≤ Calendar.daysInMonth year month := by
      omega
    obtain ⟨date, sameYear, sameMonth, found⟩ := exists_dateIn? inRange earlier
    refine ⟨date, sameYear, sameMonth, ?_⟩
    rw [missing, Option.none_or, found]

/-- The time in a year has the nanoseconds of its time of day. -/
theorem stampIn?_of_wallIn? {time : YearlyTime} {wall : Int}
    (dated : time.wallIn? year = some wall)
    : time.stampIn? year = some ⟨wall, time.timeOfDay.nano⟩ := by
  rw [stampIn?, dated]
  rfl

/-- A yearly time is on a date of its month in every year that has dates. -/
theorem exists_wallIn? {time : YearlyTime} (yearly : time.isYearly)
    (inRange : firstYear ≤ year ∧ year ≤ lastYear)
    : ∃ date : Date,
        date.year = year
        ∧ date.month = time.month
        ∧ time.wallIn? year = some (Clock.on date time.timeOfDay) := by
  cases time with
  | fixed month day ofDay =>
      obtain ⟨date, sameYear, sameMonth, found⟩ := dateIn?_of_common inRange yearly
      refine ⟨date, sameYear, sameMonth, ?_⟩
      simp only [wallIn?, found, Option.map_some, timeOfDay]
  | floating month week weekday ofDay =>
      simp only [isYearly, Bool.and_eq_true, decide_eq_true_eq] at yearly
      obtain ⟨⟨months, weeks⟩, weeks'⟩ := yearly
      have long := Calendar.fourWeeks_le_daysInMonth months year
      have exists_ : 1 ≤ 1 ∧ 1 ≤ Calendar.daysInMonth year month := by omega
      obtain ⟨first, _, _, begins⟩ := exists_dateIn? inRange exists_
      have soon : daysUntil first weekday < 7 := Nat.mod_lt _ (by decide)
      obtain ⟨date, sameYear, sameMonth, found⟩ :=
        dateIn?_of_week inRange months ⟨weeks, weeks'⟩ soon
      refine ⟨date, sameYear, sameMonth, ?_⟩
      simp only [wallIn?, weeks, weeks', and_self, if_true, begins, Option.bind_eq_bind,
        Option.bind_some, found, timeOfDay]

end Cadence.YearlyTime
