import Cadence.Clock
import Cadence.Field.Lemmas
import Cadence.Odometer
import Cadence.Schedule

/-!
When a schedule fires next. The search looks at minutes of the wall clock that carry allowed digits
in every field but the weekday, each the least one not below a bound; where the date does not exist
or falls on the wrong weekday it raises the bound to a later date, and it ends after the year 9999.
-/

namespace Cadence

/-- A minute of the wall clock, on a date that need not exist. -/
structure Cursor where
  year : Int
  month : Nat
  day : Nat
  hour : Nat
  minute : Nat
  deriving DecidableEq, Repr

namespace Cursor

/-- The minute that contains a time. -/
def ofTime (time : Int) : Cursor where
  year := (Clock.date time).year
  month := (Clock.date time).month
  day := (Clock.date time).day
  hour := Clock.hour time
  minute := Clock.minute time

def next (cursor : Cursor) : Cursor :=
  { cursor with minute := cursor.minute + 1 }

/-- The start of a day of the same month, which need not exist. -/
def startOf (cursor : Cursor) (day : Nat) : Cursor :=
  { cursor with day, hour := 0, minute := 0 }

def time (date : Date) (hour minute : Nat) : Int :=
  date.dayNumber * 86400 + hour * 3600 + minute * 60

/-- The order of dates that need not exist. -/
def DateBefore (early late : Cursor) : Prop :=
  early.year < late.year
  ∨ early.year = late.year
    ∧ (early.month < late.month ∨ early.month = late.month ∧ early.day < late.day)

/-- The order of minutes. -/
def NotAfter (early late : Cursor) : Prop :=
  early.DateBefore late
  ∨ early.year = late.year ∧ early.month = late.month ∧ early.day = late.day
    ∧ (early.hour < late.hour ∨ early.hour = late.hour ∧ early.minute ≤ late.minute)

end Cursor

/-- An earlier date precedes whatever a later minute is not after, by comparing their parts. -/
theorem Cursor.notAfter_of_dateBefore {first second third : Cursor}
    (before : first.DateBefore second) (notAfter : second.NotAfter third)
    : first.NotAfter third := by
  simp only [DateBefore, NotAfter] at *
  omega

namespace Schedule

/-- Whether the minute that contains a time satisfies every field. -/
def firesAt (schedule : Schedule) (time : Int) : Bool :=
  schedule.masks.minute.has (Clock.minute time)
  && schedule.masks.hour.has (Clock.hour time)
  && schedule.masks.dayOfMonth.has (Clock.date time).day
  && schedule.masks.month.has (Clock.date time).month
  && schedule.masks.dayOfWeek.has (Clock.date time).weekday

/-- Nothing is due after this year. -/
def lastYear : Int := 9999

/-- The least minute not below `cursor` with allowed digits, whatever the weekday. -/
def settle (schedule : Schedule) (cursor : Cursor) : Cursor :=
  let masks := schedule.masks
  let minute := masks.minute.nextFrom cursor.minute
  let hour := Odometer.turn masks.hour cursor.hour minute masks.minute.lowest
  let day :=
    Odometer.turn masks.dayOfMonth cursor.day hour (masks.hour.lowest, masks.minute.lowest)
  let month :=
    Odometer.turn masks.month cursor.month day
      (masks.dayOfMonth.lowest, masks.hour.lowest, masks.minute.lowest)
  match month with
  | some (month, day, hour, minute) => ⟨cursor.year, month, day, hour, minute⟩
  | none =>
    ⟨cursor.year + 1, masks.month.lowest, masks.dayOfMonth.lowest, masks.hour.lowest,
      masks.minute.lowest⟩

/-- What the search learns from one bound. -/
inductive Probe where
  | found (time : Int)
  | exhausted
  | later (bound : Cursor)
  deriving DecidableEq, Repr

/-- Looks at the least minute not below a bound. A missing date sends the search past its month, a
wrong weekday to the following day. -/
def probe (schedule : Schedule) (bound : Cursor) : Probe :=
  let cursor := schedule.settle bound
  if lastYear < cursor.year then .exhausted
  else
    match Date.of? cursor.year cursor.month cursor.day with
    -- no month has a day 32, so settling moves on to the next month
    | none => .later (cursor.startOf 32)
    | some date =>
      if schedule.masks.dayOfWeek.has date.weekday then
        .found (Cursor.time date cursor.hour cursor.minute)
      else .later (cursor.startOf (cursor.day + 1))

/-- Settling finds allowed digits. -/
theorem settle_allowed (schedule : Schedule) (cursor : Cursor)
    : schedule.masks.month.has (schedule.settle cursor).month
      ∧ schedule.masks.dayOfMonth.has (schedule.settle cursor).day
      ∧ schedule.masks.hour.has (schedule.settle cursor).hour
      ∧ schedule.masks.minute.has (schedule.settle cursor).minute := by
  have lowest (field : Field)
      : (schedule.masks.on field).has (schedule.masks.on field).lowest :=
    Mask.has_lowest (Field.ne_zero_of_accepts (schedule.valid field))
  have lowestMonth := lowest .month
  have lowestDay := lowest .dayOfMonth
  have lowestHour := lowest .hour
  have lowestMinute := lowest .minute
  simp only [Masks.on] at lowestMonth lowestDay lowestHour lowestMinute
  simp only [settle]
  split
  · next month day hour minute turned =>
    obtain ⟨monthHas, ⟨_, dayKept⟩ | ⟨_, reset⟩⟩ := Odometer.turn_cases turned
    · obtain ⟨dayHas, ⟨_, hourKept⟩ | ⟨_, reset⟩⟩ := Odometer.turn_cases dayKept
      · obtain ⟨hourHas, ⟨_, minuteKept⟩ | ⟨_, reset⟩⟩ := Odometer.turn_cases hourKept
        · exact ⟨monthHas, dayHas, hourHas, (Mask.has_of_nextFrom minuteKept).2⟩
        · exact ⟨monthHas, dayHas, hourHas, reset ▸ lowestMinute⟩
      · cases reset
        exact ⟨monthHas, dayHas, lowestHour, lowestMinute⟩
    · cases reset
      exact ⟨monthHas, lowestDay, lowestHour, lowestMinute⟩
  · exact ⟨lowestMonth, lowestDay, lowestHour, lowestMinute⟩

/-- Settling never goes back. -/
theorem settle_notAfter (schedule : Schedule) (cursor : Cursor)
    : cursor.NotAfter (schedule.settle cursor) := by
  simp only [settle, Cursor.NotAfter, Cursor.DateBefore]
  split
  · next month day hour minute turned =>
    rcases (Odometer.turn_cases turned).2 with ⟨sameMonth, dayKept⟩ | ⟨monthMoved, _⟩
    · rcases (Odometer.turn_cases dayKept).2 with ⟨sameDay, hourKept⟩ | ⟨dayMoved, _⟩
      · rcases (Odometer.turn_cases hourKept).2 with ⟨sameHour, minuteKept⟩ | ⟨hourMoved, _⟩
        · have raised := (Mask.has_of_nextFrom minuteKept).1
          simp [sameMonth, sameDay, sameHour, raised]
        · simp [sameMonth, sameDay, hourMoved]
      · simp [sameMonth, dayMoved]
    · simp [monthMoved]
  · exact .inl (.inl (by simp only; omega))

/-- Settled digits are values of their fields. -/
theorem settle_bounds (schedule : Schedule) (cursor : Cursor)
    : (schedule.settle cursor).month ≤ 12 ∧ (schedule.settle cursor).day ≤ 31
      ∧ (schedule.settle cursor).hour ≤ 23 ∧ (schedule.settle cursor).minute ≤ 59 := by
  obtain ⟨month, day, hour, minute⟩ := schedule.settle_allowed cursor
  exact ⟨(Field.range_of_has (schedule.valid .month) month).2,
    (Field.range_of_has (schedule.valid .dayOfMonth) day).2,
    (Field.range_of_has (schedule.valid .hour) hour).2,
    (Field.range_of_has (schedule.valid .minute) minute).2⟩

/-- Every further bound has a later date, in a year that is searched. -/
theorem dateBefore_of_later {schedule : Schedule} {bound further : Cursor}
    (probed : schedule.probe bound = .later further)
    : bound.DateBefore further ∧ further.year ≤ lastYear ∧ further.month ≤ 12
      ∧ further.day ≤ 32 := by
  have bounds := schedule.settle_bounds bound
  have ordered := schedule.settle_notAfter bound
  simp only [Cursor.NotAfter, Cursor.DateBefore] at ordered
  simp only [probe] at probed
  split at probed
  · simp at probed
  · split at probed
    · simp only [Probe.later.injEq] at probed
      subst probed
      simp only [Cursor.startOf, Cursor.DateBefore]
      omega
    · split at probed
      · simp at probed
      · simp only [Probe.later.injEq] at probed
        subst probed
        simp only [Cursor.startOf, Cursor.DateBefore]
        omega

/-- The first due time that a bound admits. -/
def search (schedule : Schedule) (bound : Cursor) : Option Int :=
  match _probed : schedule.probe bound with
  | .found time => some time
  | .exhausted => none
  | .later further => schedule.search further
termination_by ((lastYear + 1 - bound.year).toNat, 13 - bound.month, 33 - bound.day)
decreasing_by
  obtain ⟨before, year, month, day⟩ := dateBefore_of_later ‹_›
  simp only [Cursor.DateBefore, Prod.lex_def, lastYear] at *
  omega

/-- What the search finds is a minute of a searched year, not before the bound. -/
theorem notAfter_of_search {schedule : Schedule} {bound : Cursor} {time : Int}
    (found : schedule.search bound = some time)
    : ∃ (date : Date) (hour minute : Nat),
        time = Cursor.time date hour minute ∧ date.year ≤ lastYear ∧ hour ≤ 23 ∧ minute ≤ 59
        ∧ bound.NotAfter ⟨date.year, date.month, date.day, hour, minute⟩ := by
  fun_induction search schedule bound with
  | case1 bound time' probed =>
    cases found
    have bounds := schedule.settle_bounds bound
    have ordered := schedule.settle_notAfter bound
    simp only [probe] at probed
    split at probed
    · simp at probed
    · next within =>
      split at probed
      · simp at probed
      · next date dated =>
        split at probed
        · simp only [Probe.found.injEq] at probed
          simp only [Date.of?] at dated
          split at dated
          · simp only [Option.some.injEq] at dated
            subst dated
            exact ⟨_, _, _, probed.symm, Int.not_lt.mp within, bounds.2.2.1, bounds.2.2.2,
              ordered⟩
          · simp at dated
        · simp at probed
  | case2 => simp at found
  | case3 bound further probed ih =>
    obtain ⟨date, hour, minute, shown, year, hours, minutes, ordered⟩ := ih found
    exact ⟨date, hour, minute, shown, year, hours, minutes,
      Cursor.notAfter_of_dateBefore (dateBefore_of_later probed).1 ordered⟩

/-- The first due minute from the one that contains `start` on, or after it when that minute does
not count. -/
def nextFrom (schedule : Schedule) (start : Int) (inclusive : Bool) : Option Int :=
  let cursor := Cursor.ofTime start
  schedule.search (if inclusive then cursor else cursor.next)

/-- A time after the present minute is later. -/
theorem lt_of_nextFrom {schedule : Schedule} {start time : Int}
    (found : schedule.nextFrom start false = some time)
    : start < time := by
  simp only [nextFrom, Bool.false_eq_true, if_false] at found
  obtain ⟨date, hour, minute, rfl, _, _, _, ordered⟩ := notAfter_of_search found
  have day := Clock.dayNumber_date start
  simp only [Cursor.time, Cursor.next, Cursor.ofTime, Cursor.NotAfter, Cursor.DateBefore,
    Clock.hour, Clock.minute, Clock.secondOfDay] at *
  rcases ordered with earlier | ⟨year, month, dayOfMonth, later⟩
  · have days : (Clock.date start).dayNumber < date.dayNumber := Date.dayNumber_lt earlier
    omega
  · have same : Clock.date start = date := by
      cases date
      simp only at year month dayOfMonth
      subst year month dayOfMonth
      rfl
    subst same
    omega

/-- The end of the last year that is searched. -/
def searchEnd : Int :=
  (Calendar.daysBeforeYear (lastYear + 1) - Calendar.epochDays) * 86400

/-- What the search finds lies before its end, since the year of its date is searched. -/
theorem lt_searchEnd {schedule : Schedule} {start time : Int} {inclusive : Bool}
    (found : schedule.nextFrom start inclusive = some time)
    : time < searchEnd := by
  simp only [nextFrom] at found
  obtain ⟨date, hour, minute, rfl, year, _, _, _⟩ := notAfter_of_search found
  have inside : date.year < lastYear + 1 := by omega
  have years := Calendar.daysBeforeYear_lt inside
  have months := Calendar.daysBeforeMonth_le date.year date.month_pos
  have days := date.exists_.2
  simp only [Cursor.time, Date.dayNumber, searchEnd]
  generalize Calendar.daysBeforeYear (lastYear + 1) = stop at *
  split at years <;> rename_i leap <;> simp [leap] at months <;> omega

/-- The first due time after a moment, on a clock set to UTC. -/
def next (schedule : Schedule) (after : Int) : Option Int :=
  schedule.nextFrom after false

/-- The first `n` due times after a moment, on a clock set to UTC, for an `n` for which there is
room. -/
def upcoming (schedule : Schedule) (after : Int) : Nat → List Int
  | 0 => []
  | n + 1 =>
    match schedule.next after with
    | none => []
    | some time => time :: schedule.upcoming time n

end Schedule

end Cadence
