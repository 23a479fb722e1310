import Cadence.Proofs.Zone.YearlyDates

/-! The dates of floating times. The days from the first of a month to the next given
weekday are less than a week, so that the weekday has one place in each of the first four
weeks of the month, and its last place is in the fifth week or, where that is not full, in
the fourth. The numbers on the way to the day fit into words of 32 bits, whatever the
month and the week are.
-/

namespace Cadence

/-- The days of a month follow one another. -/
theorem Date.dayNumber_of_sameMonth {early late : Date} (year : late.year = early.year)
    (month : late.month = early.month)
    : late.dayNumber = early.dayNumber + late.day - early.day := by
  rw [dayNumber, dayNumber, year, month]
  omega

theorem Date.weekday_lt (date : Date) : date.weekday < 7 := by
  rw [weekday]
  omega

theorem Clock.date_on (date : Date) (time : TimeOfDay)
    : Clock.date (on date time) = date := by
  have day : on date time / 86400 = date.dayNumber := by
    have within := time.second.isLt
    rw [on]
    omega
  rw [Clock.date, day, Date.ofDayNumber_dayNumber]

theorem Clock.secondOfDay_on (date : Date) (time : TimeOfDay)
    : secondOfDay (on date time) = time.second.val := by
  have within := time.second.isLt
  rw [secondOfDay, on]
  omega

namespace YearlyTime

variable {year : Int} {month week day : Nat} {weekday : Fin 7} {first date : Date}

/-- A date is in the given week of its month, on the given weekday: in the first to the
fourth seven days, or so late that the weekday does not come again.
-/
structure IsPlace (year : Int) (month week : Nat) (weekday : Fin 7) (date : Date)
    : Prop where
  sameYear : date.year = year
  sameMonth : date.month = month
  onWeekday : date.weekday = weekday.val
  within : week ≤ 4 → 7 * week - 6 ≤ date.day ∧ date.day ≤ 7 * week
  last : week = 5 → Calendar.daysInMonth year month < date.day + 7

theorem dateIn?_eq_some_iff
    : dateIn? year month day = some date
      ↔ (firstYear ≤ year ∧ year ≤ lastYear)
        ∧ date.year = year
        ∧ date.month = month
        ∧ date.day = day := by
  rw [dateIn?]
  split
  · next inRange => simp [Date.of?_eq_some_iff, inRange]
  · next outside => simp [outside]

/-- There is no first day in a month that does not exist. -/
theorem dateIn?_eq_none_of_month (unknown : ¬ (1 ≤ month ∧ month ≤ 12))
    : dateIn? year month 1 = none := by
  cases begins : dateIn? year month 1 with
  | none => rfl
  | some first =>
      obtain ⟨_, rfl, rfl, day⟩ := dateIn?_eq_some_iff.mp begins
      have nonempty := Nat.le_trans first.exists_.1 first.exists_.2
      exact absurd (Calendar.month_le_of_daysInMonth nonempty) unknown

theorem daysUntil_lt (first : Date) (weekday : Fin 7) : daysUntil first weekday < 7 :=
  Nat.mod_lt _ (by decide)

/-- Whole weeks after the next given weekday it is that weekday again. -/
theorem weekday_of_daysUntil (sameYear : date.year = first.year)
    (sameMonth : date.month = first.month) (start : first.day = 1) {weeks : Nat}
    (day : date.day = 1 + 7 * weeks + daysUntil first weekday)
    : date.weekday = weekday.val := by
  have number := Date.dayNumber_of_sameMonth sameYear sameMonth
  have within := weekday.isLt
  rw [daysUntil] at day
  simp only [Date.weekday] at day ⊢
  omega

/-- The place of a weekday is a date as it should be: either the month has the day, or it
is the fifth week and the month ends before the day, so that the one a week earlier is the
last.
-/
theorem isPlace_of_dateIn? (weeks : 1 ≤ week ∧ week ≤ 5)
    (begins : dateIn? year month 1 = some first)
    (found
      : (dateIn? year month (week * 7 - 6 + daysUntil first weekday)).or
          (dateIn? year month (week * 7 - 6 + daysUntil first weekday - 7)) = some date)
    : IsPlace year month week weekday date := by
  obtain ⟨inRange, firstYear, firstMonth, start⟩ := dateIn?_eq_some_iff.mp begins
  have lead := daysUntil_lt first weekday
  have onWeekday (sameYear : date.year = year) (sameMonth : date.month = month) (weeks : Nat)
      (day : date.day = 1 + 7 * weeks + daysUntil first weekday)
      : date.weekday = weekday.val :=
    weekday_of_daysUntil (sameYear.trans firstYear.symm) (sameMonth.trans firstMonth.symm)
      start day
  rcases Option.or_eq_some_iff.mp found with direct | ⟨missing, earlier⟩
  · obtain ⟨_, sameYear, sameMonth, day⟩ := dateIn?_eq_some_iff.mp direct
    have most := Calendar.daysInMonth_le year month
    exact ⟨sameYear, sameMonth, onWeekday sameYear sameMonth (week - 1) (by omega),
      by omega, by omega⟩
  · obtain ⟨_, sameYear, sameMonth, day⟩ := dateIn?_eq_some_iff.mp earlier
    have beyond
        : Calendar.daysInMonth year month < week * 7 - 6 + daysUntil first weekday := by
      rw [dateIn?, if_pos inRange, Date.of?] at missing
      split at missing
      · cases missing
      · omega
    have nonempty := Nat.le_trans date.exists_.1 date.exists_.2
    have exists_ := Calendar.month_le_of_daysInMonth nonempty
    rw [sameMonth] at exists_
    have least := Calendar.fourWeeks_le_daysInMonth exists_ year
    -- only the fifth week reaches beyond the four weeks of every month
    have fifth : week = 5 := by omega
    exact ⟨sameYear, sameMonth, onWeekday sameYear sameMonth 3 (by omega), by omega,
      by omega⟩

/-- With a first of the month, a floating time is on the date of its place, if there is
one.
-/
theorem wallIn?_of_first (weeks : 1 ≤ week ∧ week ≤ 5)
    (begins : dateIn? year month 1 = some first) (time : TimeOfDay)
    : (floating month week weekday time).wallIn? year
      = ((dateIn? year month (week * 7 - 6 + daysUntil first weekday)).or
          (dateIn? year month (week * 7 - 6 + daysUntil first weekday - 7))).map
            (Clock.on · time) := by
  simp only [wallIn?, if_pos weeks, begins, Option.bind_eq_bind, Option.bind_some]
  cases (dateIn? year month (week * 7 - 6 + daysUntil first weekday)).or
    (dateIn? year month (week * 7 - 6 + daysUntil first weekday - 7)) <;> rfl

theorem wallIn?_eq_none (unknown : ¬ (1 ≤ month ∧ month ≤ 12 ∧ 1 ≤ week ∧ week ≤ 5))
    (weekday : Fin 7) (time : TimeOfDay)
    : (floating month week weekday time).wallIn? year = none := by
  by_cases weeks : 1 ≤ week ∧ week ≤ 5
  · have missing : dateIn? year month 1 = none := dateIn?_eq_none_of_month (by omega)
    simp only [wallIn?, if_pos weeks, missing, Option.bind_eq_bind, Option.bind_none]
  · simp only [wallIn?, if_neg weeks]

theorem exists_place (inRange : firstYear ≤ year ∧ year ≤ lastYear)
    (known : 1 ≤ month ∧ month ≤ 12 ∧ 1 ≤ week ∧ week ≤ 5) (weekday : Fin 7)
    (time : TimeOfDay)
    : ∃ wall,
        (floating month week weekday time).wallIn? year = some wall
        ∧ IsPlace year month week weekday (Clock.date wall)
        ∧ Clock.secondOfDay wall = time.second.val
        ∧ (floating month week weekday time).stampIn? year = some ⟨wall, time.nano⟩ := by
  have months : 1 ≤ month ∧ month ≤ 12 := by omega
  have weeks : 1 ≤ week ∧ week ≤ 5 := by omega
  have least := Calendar.fourWeeks_le_daysInMonth months year
  obtain ⟨first, _, _, begins⟩ := exists_dateIn? inRange
    ⟨Nat.le_refl 1, Nat.le_trans (by decide) least⟩
  obtain ⟨date, _, _, found⟩ :=
    dateIn?_of_week inRange months weeks (daysUntil_lt first weekday)
  have dated : (floating month week weekday time).wallIn? year
      = some (Clock.on date time) := by
    rw [wallIn?_of_first weeks begins, found, Option.map_some]
  refine ⟨Clock.on date time, dated, ?_, Clock.secondOfDay_on date time, ?_⟩
  · rw [Clock.date_on]
    exact isPlace_of_dateIn? weeks begins found
  · rw [stampIn?, dated]
    rfl

/-- A yearly time has a date in every year, and a time with a date in 2001 is yearly. -/
theorem isYearly_iff (time : YearlyTime)
    : time.isYearly
      ↔ ∀ year, firstYear ≤ year → year ≤ lastYear → (time.wallIn? year).isSome := by
  constructor
  · intro yearly year above below
    obtain ⟨date, _, _, found⟩ := exists_wallIn? yearly ⟨above, below⟩
    exact Option.isSome_of_mem found
  · intro always
    have once := always 2001 (by decide) (by decide)
    cases time with
    | fixed month day time => simpa only [wallIn?, isYearly, Option.isSome_map] using once
    | floating month week weekday time =>
        by_contra unknown
        simp only [isYearly, Bool.and_eq_true, decide_eq_true_eq] at unknown
        rw [wallIn?_eq_none (by omega)] at once
        cases once

-----------------------------------------------------------------------------------------
-- In words of 32 bits
-----------------------------------------------------------------------------------------

/-- The word for a number, unless the number is out of range. -/
def word (value : Int) : Except Int UInt32 :=
  if 0 ≤ value ∧ value < 4294967296 then .ok (.ofNat value.toNat) else .error value

theorem exists_word (value : Int) (fits : 0 ≤ value ∧ value < 4294967296)
    : ∃ result, word value = .ok result ∧ (result.toNat : Int) = value := by
  refine ⟨_, if_pos fits, ?_⟩
  rw [UInt32.toNat_ofNat_of_lt' (by simp only [UInt32.size]; omega)]
  omega

/-- The days from a date to the next given weekday, each number on the way as a word. -/
def leadWord (first : Date) (weekday : Fin 7) : Except Int UInt32 := do
  let ahead ← word (weekday.val + 7)
  let days ← word (ahead.toNat - first.weekday)
  word (days.toNat % 7)

/-- The day of the month that is so many days after the start of a week. -/
def dayWord (week lead : UInt32) : Except Int UInt32 := do
  let days ← word (week.toNat * 7)
  let start ← word (days.toNat - 6)
  word (start.toNat + lead.toNat)

/-- The wall-clock time of a floating time, each number on the way to its day as a word.
-/
def wallInWords (year : Int) (month week : UInt32) (weekday : Fin 7) (time : TimeOfDay)
    : Except Int (Option Int) :=
  if 1 ≤ week ∧ week ≤ 5 then
    match dateIn? year month.toNat 1 with
    | none => .ok none
    | some first => do
      let lead ← leadWord first weekday
      let day ← dayWord week lead
      match dateIn? year month.toNat day.toNat with
      | some date => .ok (some (Clock.on date time))
      | none =>
        let earlier ← word (day.toNat - 7)
        .ok ((dateIn? year month.toNat earlier.toNat).map (Clock.on · time))
  else .ok none

theorem ok_bind {α β : Type} {first : Except Int α} {value : α} (ended : first = .ok value)
    (next : α → Except Int β)
    : first >>= next = next value := by
  rw [ended]
  rfl

theorem exists_leadWord (first : Date) (weekday : Fin 7)
    : ∃ lead, leadWord first weekday = .ok lead ∧ lead.toNat = daysUntil first weekday := by
  have within := weekday.isLt
  have firstWithin := first.weekday_lt
  obtain ⟨ahead, added, aheadIs⟩ := exists_word (weekday.val + 7) (by omega)
  obtain ⟨days, subtracted, daysIs⟩ := exists_word (ahead.toNat - first.weekday) (by omega)
  obtain ⟨lead, reduced, leadIs⟩ := exists_word (days.toNat % 7) (by omega)
  refine ⟨lead, ?_, ?_⟩
  · rw [leadWord, ok_bind added, ok_bind subtracted, reduced]
  · rw [daysUntil]
    omega

theorem exists_dayWord {week lead : UInt32} (weeks : 1 ≤ week.toNat ∧ week.toNat ≤ 5)
    (soon : lead.toNat < 7)
    : ∃ day, dayWord week lead = .ok day ∧ day.toNat = week.toNat * 7 - 6 + lead.toNat := by
  obtain ⟨days, multiplied, daysIs⟩ := exists_word (week.toNat * 7) (by omega)
  obtain ⟨start, subtracted, startIs⟩ := exists_word (days.toNat - 6) (by omega)
  obtain ⟨day, added, dayIs⟩ := exists_word (start.toNat + lead.toNat) (by omega)
  refine ⟨day, ?_, by omega⟩
  rw [dayWord, ok_bind multiplied, ok_bind subtracted, added]

/-- A day that its month lacks comes after the first week. -/
theorem week_lt_of_missing (weeks : 1 ≤ week ∧ week ≤ 5)
    (begins : dateIn? year month 1 = some first) {lead : Nat} (soon : lead < 7)
    (missing : dateIn? year month (week * 7 - 6 + lead) = none)
    : 7 < week * 7 - 6 + lead := by
  obtain ⟨inRange, rfl, rfl, _⟩ := dateIn?_eq_some_iff.mp begins
  have nonempty := Nat.le_trans first.exists_.1 first.exists_.2
  have months := Calendar.month_le_of_daysInMonth nonempty
  obtain ⟨date, _, _, found⟩ := dateIn?_of_week inRange months weeks soon
  rw [missing, Option.none_or] at found
  obtain ⟨_, _, _, day⟩ := dateIn?_eq_some_iff.mp found
  have positive := date.exists_.1
  omega

/-- No number on the way is out of range: the day that the month lacks comes after the
first four weeks, so that a week earlier there still is a day.
-/
theorem wallInWords_eq (year : Int) (month week : UInt32) (weekday : Fin 7)
    (time : TimeOfDay)
    : wallInWords year month week weekday time
      = .ok ((floating month.toNat week.toNat weekday time).wallIn? year) := by
  have sameWeeks : (1 ≤ week ∧ week ≤ 5) ↔ 1 ≤ week.toNat ∧ week.toNat ≤ 5 := by
    simp only [UInt32.le_iff_toNat_le, UInt32.toNat_ofNat]
  by_cases weeks : 1 ≤ week.toNat ∧ week.toNat ≤ 5
  · cases begins : dateIn? year month.toNat 1 with
    | none =>
        simp only [wallInWords, wallIn?, sameWeeks, if_pos weeks, begins, Option.bind_eq_bind,
          Option.bind_none]
    | some first =>
        have soon := daysUntil_lt first weekday
        obtain ⟨lead, leadFound, leadIs⟩ := exists_leadWord first weekday
        obtain ⟨day, dayFound, dayIs⟩ := exists_dayWord weeks (leadIs ▸ soon)
        rw [wallIn?_of_first weeks begins, ← leadIs, ← dayIs]
        simp only [wallInWords, sameWeeks, if_pos weeks, begins, ok_bind leadFound,
          ok_bind dayFound]
        cases found : dateIn? year month.toNat day.toNat with
        | some date => rfl
        | none =>
            have late := week_lt_of_missing weeks begins (leadIs ▸ soon) (dayIs ▸ found)
            obtain ⟨earlier, subtracted, earlierIs⟩ :=
              exists_word (day.toNat - 7) (by omega)
            have sameDay : earlier.toNat = day.toNat - 7 := by omega
            simp only [ok_bind subtracted, sameDay, Option.none_or]
  · simp only [wallInWords, wallIn?, sameWeeks, if_neg weeks]

/-- In a year that has dates, a floating time in one of the first four weeks or in the
last one of a month is on its weekday in that week, at its time of day to the nanosecond;
there is none in other weeks or months, and no word on the way overflows. A time of the
year, fixed or floating, is yearly exactly if there is one in every year that has dates.
-/
theorem wallIn_exact
    : (∀ (year : Int) (month week : Nat) (weekday : Fin 7) (time : TimeOfDay),
        firstYear ≤ year
        → year ≤ lastYear
        → (1 ≤ month ∧ month ≤ 12 ∧ 1 ≤ week ∧ week ≤ 5
            → ∃ wall,
                (floating month week weekday time).wallIn? year = some wall
                ∧ IsPlace year month week weekday (Clock.date wall)
                ∧ Clock.secondOfDay wall = time.second.val
                ∧ (floating month week weekday time).stampIn? year
                  = some ⟨wall, time.nano⟩)
          ∧ (¬ (1 ≤ month ∧ month ≤ 12 ∧ 1 ≤ week ∧ week ≤ 5)
            → (floating month week weekday time).wallIn? year = none))
      ∧ (∀ (year : Int) (month week : UInt32) (weekday : Fin 7) (time : TimeOfDay),
          wallInWords year month week weekday time
          = .ok ((floating month.toNat week.toNat weekday time).wallIn? year))
      ∧ ∀ time : YearlyTime,
          time.isYearly
          ↔ ∀ year, firstYear ≤ year → year ≤ lastYear → (time.wallIn? year).isSome := by
  refine ⟨?_, wallInWords_eq, isYearly_iff⟩
  intro year month week weekday time above below
  exact ⟨fun known => exists_place ⟨above, below⟩ known weekday time,
    fun unknown => wallIn?_eq_none unknown weekday time⟩

end YearlyTime

end Cadence
