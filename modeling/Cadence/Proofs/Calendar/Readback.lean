import Cadence.Schedule.Search
import Mathlib.Tactic.ByContra

/-! Dates and times of day are read back from the seconds that a wall clock counts.
Minutes of the clock come in the order of their dates and times of day.
-/

namespace Cadence

namespace Date

/-- Dates with the same number are the same, since earlier dates have smaller numbers. -/
theorem eq_of_dayNumber {left right : Date} (same : left.dayNumber = right.dayNumber)
    : left = right := by
  have notBefore : ¬ left.Before right := by
    intro before
    have less := dayNumber_lt before
    omega
  have notAfter : ¬ right.Before left := by
    intro before
    have less := dayNumber_lt before
    omega
  simp only [Before] at notBefore notAfter
  cases left
  cases right
  simp only [Date.mk.injEq]
  dsimp only at notBefore notAfter
  omega

/-- A date is made exactly from its own parts. -/
theorem of?_eq_some_iff {year : Int} {month day : Nat} {date : Date}
    : of? year month day = some date
      ↔ date.year = year ∧ date.month = month ∧ date.day = day := by
  obtain ⟨dateYear, dateMonth, dateDay, exists_⟩ := date
  simp only [of?]
  constructor
  · intro made
    split at made
    · simp only [Option.some.injEq, Date.mk.injEq] at made
      exact ⟨made.1.symm, made.2.1.symm, made.2.2.symm⟩
    · simp at made
  · intro parts
    obtain ⟨rfl, rfl, rfl⟩ := parts
    simp [exists_]

/-- A day that a month lacks comes after all days that it has. -/
theorem day_lt_of_of?_eq_none {year : Int} {month day : Nat} (positive : 1 ≤ day)
    (missing : of? year month day = none) (date : Date) (sameYear : date.year = year)
    (sameMonth : date.month = month)
    : date.day < day := by
  have short := date.exists_.2
  rw [sameYear, sameMonth] at short
  simp only [of?] at missing
  split at missing
  · simp at missing
  · omega

/-- A date is that of its number. -/
theorem ofDayNumber_dayNumber (date : Date) : ofDayNumber date.dayNumber = date :=
  eq_of_dayNumber (dayNumber_ofDayNumber date.dayNumber)

end Date

namespace Cursor

/-- The parts of a time are those that it was made of, by dividing out days, hours and
minutes.
-/
theorem parts_time (date : Date) {hour minute : Nat} (hours : hour ≤ 23)
    (minutes : minute ≤ 59)
    : Clock.date (time date hour minute) = date
      ∧ Clock.hour (time date hour minute) = hour
      ∧ Clock.minute (time date hour minute) = minute
      ∧ Clock.second (time date hour minute) = 0 := by
  have day : time date hour minute / 86400 = date.dayNumber := by
    simp only [time]
    omega
  have within : Clock.secondOfDay (time date hour minute) = hour * 3600 + minute * 60 := by
    simp only [Clock.secondOfDay, time]
    omega
  refine ⟨?_, ?_, ?_, ?_⟩
  · rw [Clock.date, day, Date.ofDayNumber_dayNumber]
  · rw [Clock.hour, within]
    omega
  · rw [Clock.minute, within]
    omega
  · rw [Clock.second, within]
    omega

/-- The minute of a time is read back from the time. -/
theorem ofTime_time (date : Date) {hour minute : Nat} (hours : hour ≤ 23)
    (minutes : minute ≤ 59)
    : ofTime (time date hour minute) = ⟨date.year, date.month, date.day, hour, minute⟩ := by
  obtain ⟨sameDate, sameHour, sameMinute, _⟩ := parts_time date hours minutes
  rw [ofTime, sameDate, sameHour, sameMinute]

/-- A minute whose date is earlier is an earlier minute of the clock. -/
theorem minute_lt_of_dateBefore {early late : Int}
    (before : (ofTime early).DateBefore (ofTime late))
    : early / 60 < late / 60 := by
  have days : (Clock.date early).dayNumber < (Clock.date late).dayNumber :=
    Date.dayNumber_lt before
  rw [Clock.dayNumber_date, Clock.dayNumber_date] at days
  omega

/-- Minutes on one date are ordered by the time of day. -/
theorem minute_le_iff_of_sameDate {early late : Int}
    (same : Clock.date early = Clock.date late)
    : early / 60 ≤ late / 60
      ↔ (ofTime early).hour < (ofTime late).hour
        ∨ (ofTime early).hour = (ofTime late).hour
          ∧ (ofTime early).minute ≤ (ofTime late).minute := by
  have day := congrArg Date.dayNumber same
  rw [Clock.dayNumber_date, Clock.dayNumber_date] at day
  simp only [ofTime, Clock.hour, Clock.minute, Clock.secondOfDay]
  omega

/-- One of two dates is earlier unless they are the same. -/
theorem dateBefore_or_same (left right : Int)
    : (ofTime left).DateBefore (ofTime right)
      ∨ (ofTime right).DateBefore (ofTime left)
      ∨ Clock.date left = Clock.date right := by
  simp only [DateBefore, ofTime]
  cases Clock.date left
  cases Clock.date right
  simp only [Date.mk.injEq]
  omega

/-- The order of minutes is that of the clock, by comparing dates first. -/
theorem notAfter_ofTime_iff {early late : Int}
    : (ofTime early).NotAfter (ofTime late) ↔ early / 60 ≤ late / 60 := by
  rcases dateBefore_or_same early late with before | after | same
  · have less := minute_lt_of_dateBefore before
    exact ⟨fun _ => Int.le_of_lt less, fun _ => Or.inl before⟩
  · have less := minute_lt_of_dateBefore after
    simp only [NotAfter, DateBefore] at after ⊢
    constructor <;> omega
  · rw [minute_le_iff_of_sameDate same]
    have parts : (ofTime early).year = (ofTime late).year
        ∧ (ofTime early).month = (ofTime late).month
        ∧ (ofTime early).day = (ofTime late).day := by
      simp [ofTime, same]
    simp only [NotAfter, DateBefore]
    omega

/-- After the minute of a time comes exactly what is strictly later on the clock. -/
theorem next_notAfter_ofTime_iff {early late : Int}
    : (ofTime early).next.NotAfter (ofTime late) ↔ early / 60 < late / 60 := by
  have reversed : (ofTime late).NotAfter (ofTime early) ↔ late / 60 ≤ early / 60 :=
    notAfter_ofTime_iff
  have total : (ofTime early).next.NotAfter (ofTime late)
      ↔ ¬ (ofTime late).NotAfter (ofTime early) := by
    simp only [NotAfter, DateBefore, next]
    omega
  rw [total, reversed]
  omega

/-- The year of the wall clock never goes back. -/
theorem year_le_of_le {early late : Int} (ordered : early ≤ late)
    : (Clock.date early).year ≤ (Clock.date late).year := by
  have minutes : early / 60 ≤ late / 60 := by omega
  rw [← notAfter_ofTime_iff] at minutes
  simp only [NotAfter, DateBefore, ofTime] at minutes
  omega

end Cursor

end Cadence
