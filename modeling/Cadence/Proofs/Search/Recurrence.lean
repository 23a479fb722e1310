import Cadence.Proofs.Calendar.Cycles
import Cadence.Proofs.Search.LeastDue

/-! Schedules do not die out. If some allowed month can have some allowed day at all, there is
a due time within forty years, whatever the weekdays: the calendar brings the date on every
weekday by then. The search is exact, so it finds that time or an earlier one.
-/

namespace Cadence.Schedule

variable {schedule : Schedule}

/-- Some allowed month can have some allowed day. -/
def Dated (schedule : Schedule) : Prop :=
  ∃ month day,
    schedule.masks.month.has month
    ∧ schedule.masks.dayOfMonth.has day
    ∧ day ≤ Calendar.longest month

/-- The month of a due time has its day. -/
theorem Due.dated {time : Int} (due : schedule.Due time) : schedule.Dated := by
  obtain ⟨month, day, _, _⟩ := (firesAt_iff.mp due.2.1).1
  have exists_ := (Clock.date time).exists_
  have longest := Calendar.daysInMonth_le_longest (Nat.le_trans exists_.1 exists_.2)
  exact ⟨_, _, month, day, Nat.le_trans exists_.2 longest⟩

/-- A schedule with a date is due at the first allowed minute of the date's first allowed
weekday, which comes within forty years.
-/
theorem Dated.exists_due (dated : schedule.Dated) {year : Int} (early : year + 40 ≤ lastYear)
    : ∃ time,
        schedule.Due time
        ∧ year < (Clock.date time).year
        ∧ (Clock.date time).year ≤ year + 40 := by
  obtain ⟨month, day, monthHas, dayHas, exists_⟩ := dated
  have lowest (field : Field)
      : (schedule.masks.on field).has (schedule.masks.on field).lowest :=
    Mask.has_lowest (Field.ne_zero_of_accepts (schedule.valid field))
  have months : 1 ≤ month ∧ month ≤ 12 :=
    Field.range_of_has (schedule.valid .month) monthHas
  have days := (Field.range_of_has (schedule.valid .dayOfMonth) dayHas).1
  have weekdays := (Field.range_of_has (schedule.valid .dayOfWeek) (lowest .dayOfWeek)).2
  have hours := (Field.range_of_has (schedule.valid .hour) (lowest .hour)).2
  have minutes := (Field.range_of_has (schedule.valid .minute) (lowest .minute)).2
  obtain ⟨date, after, within, rfl, rfl, onWeekday⟩ :=
    Date.exists_onWeekday year months ⟨days, exists_⟩ (Nat.lt_succ_of_le weekdays)
  obtain ⟨sameDate, sameHour, sameMinute, whole⟩ := Cursor.parts_time date hours minutes
  refine ⟨Cursor.time date _ _, ⟨whole, firesAt_iff.mpr ⟨?_, ?_⟩, ?_⟩, ?_, ?_⟩
  · rw [Cursor.ofTime_time date hours minutes]
    exact ⟨monthHas, dayHas, lowest .hour, lowest .minute⟩
  · rw [sameDate, onWeekday]
    exact lowest .dayOfWeek
  · rw [sameDate]
    exact Int.le_trans within early
  · rw [sameDate]
    exact after
  · rw [sameDate]
    exact within

/-- A time of a later year is after the minute in which a search starts. -/
theorem mem_dueFrom_of_year_lt {start time : Int} (due : schedule.Due time)
    (later : (Clock.date start).year < (Clock.date time).year) (inclusive : Bool)
    : time ∈ schedule.dueFrom start inclusive := by
  have before := (Clock.year_lt_iff _ _).mp later
  have begun := (Clock.year_eq_iff.mp (rfl : (Clock.date time).year = _)).1
  refine ⟨due, ?_⟩
  simp only [minuteStart]
  split <;> omega

/-- From any start in the year 9959 or before, the search finds a due time exactly if some
allowed month can have some allowed day, whatever minutes, hours and weekdays are allowed.
What it finds is in the fortieth year after the start at the latest.
-/
theorem nextFrom_recurs (schedule : Schedule) {start : Int}
    (early : (Clock.date start).year ≤ 9959) (inclusive : Bool)
    : ((schedule.nextFrom start inclusive).isSome ↔ schedule.Dated)
      ∧ ∀ time,
          schedule.nextFrom start inclusive = some time
          → (Clock.date time).year ≤ (Clock.date start).year + 40 := by
  have first := schedule.nextFrom_isFirst start inclusive
  have recurs (dated : schedule.Dated)
      : ∃ time ∈ schedule.dueFrom start inclusive,
          (Clock.date time).year ≤ (Clock.date start).year + 40 := by
    have searched : (Clock.date start).year + 40 ≤ lastYear := by
      simp only [lastYear]
      omega
    obtain ⟨time, due, later, within⟩ := dated.exists_due searched
    exact ⟨time, mem_dueFrom_of_year_lt due later inclusive, within⟩
  cases found : schedule.nextFrom start inclusive with
  | none =>
      rw [found] at first
      simp only [Option.isSome_none, Bool.false_eq_true, false_iff, reduceCtorEq,
        false_implies, implies_true, and_true]
      intro dated
      obtain ⟨time, due, _⟩ := recurs dated
      exact first time due
  | some time =>
      rw [found] at first
      have dated : schedule.Dated := first.1.1.dated
      refine ⟨by simp [dated], ?_⟩
      rintro _ ⟨rfl⟩
      obtain ⟨later, due, within⟩ := recurs dated
      have ordered : time ≤ later := first.2 later due
      exact Int.le_trans (Cursor.year_le_of_le ordered) within

/-- Midnight of the leap days that are Sundays. -/
def leapSundays : Schedule where
  masks := ⟨1, 1, 0x20000000, 4, 1⟩
  interval := false
  valid := by decide

/-- After the one in 1880 there is another in 1920 at the latest, though 1900 has no leap day. -/
theorem nextFrom_recurs_leapSundays
    : (Clock.date (-2835043200)).year = 1880
      ∧ leapSundays.Dated
      ∧ ∃ time,
          leapSundays.nextFrom (-2835043200) false = some time
          ∧ (Clock.date time).year ≤ 1920 := by
  have start : (Clock.date (-2835043200)).year = 1880 := by decide +kernel
  have early : (Clock.date (-2835043200)).year ≤ 9959 := by rw [start]; decide
  have dated : leapSundays.Dated := ⟨2, 29, by decide, by decide, by decide⟩
  obtain ⟨recurs, near⟩ := nextFrom_recurs leapSundays early false
  obtain ⟨time, found⟩ := Option.isSome_iff_exists.mp (recurs.mpr dated)
  have within := near time found
  rw [start] at within
  exact ⟨start, dated, time, found, within⟩

end Cadence.Schedule
