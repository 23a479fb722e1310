import Cadence.Proofs.Calendar.Readback
import Cadence.Proofs.Search.LeastReading

/-! The search finds the least due minute. Settling gives the least minute with allowed
digits, whether or not its date exists; every further bound keeps all due minutes that the
previous one admitted.
-/

namespace Cadence

namespace Cursor

/-- The digits of a minute within its year, from the month on. -/
def digits (cursor : Cursor) : Nat × Nat × Nat × Nat :=
  (cursor.month, cursor.day, cursor.hour, cursor.minute)

/-- The order of the digits of a year. -/
abbrev DigitsNotAfter : Nat × Nat × Nat × Nat → Nat × Nat × Nat × Nat → Prop :=
  Odometer.Lex (Odometer.Lex (Odometer.Lex (· ≤ ·)))

/-- Minutes are ordered by their years, then by their digits. -/
theorem notAfter_iff_digits {early late : Cursor}
    : early.NotAfter late
      ↔ early.year < late.year
        ∨ early.year = late.year ∧ DigitsNotAfter early.digits late.digits := by
  simp only [NotAfter, DateBefore, DigitsNotAfter, Odometer.Lex, digits]
  omega

end Cursor

namespace Schedule

/-- A schedule is due at whole minutes that satisfy every field, in years that are searched. -/
def Due (schedule : Schedule) (time : Int) : Prop :=
  Clock.second time = 0 ∧ schedule.firesAt time ∧ (Clock.date time).year ≤ lastYear

/-- A minute carries allowed digits in every field but the weekday. -/
def Allows (schedule : Schedule) (cursor : Cursor) : Prop :=
  schedule.masks.month.has cursor.month
  ∧ schedule.masks.dayOfMonth.has cursor.day
  ∧ schedule.masks.hour.has cursor.hour
  ∧ schedule.masks.minute.has cursor.minute

/-- A time fires when its minute has allowed digits and its weekday is allowed. -/
theorem firesAt_iff {schedule : Schedule} {time : Int}
    : schedule.firesAt time
      ↔ schedule.Allows (Cursor.ofTime time)
        ∧ schedule.masks.dayOfWeek.has (Clock.date time).weekday := by
  simp only [firesAt, Allows, Cursor.ofTime, Bool.and_eq_true]
  tauto

/-- Due times are whole minutes. -/
theorem Due.aligned {schedule : Schedule} {time : Int} (due : schedule.Due time)
    : time % 60 = 0 := by
  have whole := due.1
  simp only [Clock.second, Clock.secondOfDay] at whole
  omega

-----------------------------------------------------------------------------------------
-- Settling
-----------------------------------------------------------------------------------------

/-- Settling gives the least minute with allowed digits that is not before the bound. Each
wheel is turned over those behind it, and a month that is used up leaves the least minute
of the next year.
-/
theorem settle_least (schedule : Schedule) {bound goal : Cursor}
    (allowed : schedule.Allows goal) (ordered : bound.NotAfter goal)
    : (schedule.settle bound).NotAfter goal := by
  obtain ⟨masks, interval, valid⟩ := schedule
  have nonempty (field : Field) : masks.on field ≠ 0 :=
    Field.ne_zero_of_accepts (valid field)
  have minuteReset := Odometer.lowest_isFirst (nonempty .minute)
  have hourReset := Odometer.reset_isFirst (nonempty .hour) minuteReset
  have dayReset := Odometer.reset_isFirst (nonempty .dayOfMonth) hourReset
  have monthReset := Odometer.reset_isFirst (nonempty .month) dayReset
  have minute := Odometer.nextFrom_isFirst masks.minute bound.minute
  have hour := Odometer.turn_isFirst masks.hour bound.hour minute minuteReset
  have day := Odometer.turn_isFirst masks.dayOfMonth bound.day hour hourReset
  have month := Odometer.turn_isFirst masks.month bound.month day dayReset
  rw [Cursor.notAfter_iff_digits] at ordered ⊢
  simp only [settle]
  split
  · next turned =>
    dsimp only [Masks.on] at month
    rw [turned] at month
    rcases ordered with year | ⟨year, later⟩
    · exact Or.inl year
    · exact Or.inr ⟨year, month.2 goal.digits ⟨allowed, later⟩⟩
  · next turned =>
    dsimp only [Masks.on] at month
    rw [turned] at month
    have later : bound.year < goal.year := by
      rcases ordered with year | ⟨_, later⟩
      · exact year
      · exact absurd ⟨allowed, later⟩ (month goal.digits)
    rcases Int.lt_or_eq_of_le (Int.add_one_le_of_lt later) with year | year
    · exact Or.inl year
    · exact Or.inr ⟨year, monthReset.2 goal.digits allowed⟩

-----------------------------------------------------------------------------------------
-- One probe
-----------------------------------------------------------------------------------------

/-- What a probe may learn from a settled minute: its year is not searched, its date does
not exist, its date falls on a wrong weekday, or it is due.
-/
inductive Learns (schedule : Schedule) (settled : Cursor) : Probe → Prop
  | exhausted (late : lastYear < settled.year) : Learns schedule settled .exhausted
  | missing (searched : settled.year ≤ lastYear)
    (undated : Date.of? settled.year settled.month settled.day = none)
    : Learns schedule settled (.later (settled.startOf 32))
  | weekday (searched : settled.year ≤ lastYear) (date : Date)
    (dated : Date.of? settled.year settled.month settled.day = some date)
    (wrong : schedule.masks.dayOfWeek.has date.weekday = false)
    : Learns schedule settled (.later (settled.startOf (settled.day + 1)))
  | found (searched : settled.year ≤ lastYear) (date : Date)
    (dated : Date.of? settled.year settled.month settled.day = some date)
    (allowed : schedule.masks.dayOfWeek.has date.weekday)
    : Learns schedule settled (.found (Cursor.time date settled.hour settled.minute))

/-- A probe learns what the settled minute shows, by the branches of the probe. -/
theorem probe_learns (schedule : Schedule) (bound : Cursor)
    : Learns schedule (schedule.settle bound) (schedule.probe bound) := by
  simp only [probe]
  split
  · next late => exact .exhausted late
  · next searched =>
    split
    · next undated => exact .missing (Int.not_lt.mp searched) undated
    · next date dated =>
      split
      · next allowed => exact .found (Int.not_lt.mp searched) date dated allowed
      · next wrong =>
        exact .weekday (Int.not_lt.mp searched) date dated (Bool.eq_false_iff.mpr wrong)

/-- A settled minute is never after a due time that the bound admits. -/
theorem settle_notAfter_due {schedule : Schedule} {bound : Cursor} {time : Int}
    (due : schedule.Due time) (ordered : bound.NotAfter (Cursor.ofTime time))
    : (schedule.settle bound).NotAfter (Cursor.ofTime time) :=
  schedule.settle_least (firesAt_iff.mp due.2.1).1 ordered

/-- A further bound still admits every due time, since the date that was passed over has
none: it does not exist, or its weekday is not allowed.
-/
theorem further_notAfter_due {schedule : Schedule} {bound further : Cursor} {time : Int}
    (probed : schedule.probe bound = .later further) (due : schedule.Due time)
    (ordered : bound.NotAfter (Cursor.ofTime time))
    : further.NotAfter (Cursor.ofTime time) := by
  have settled := settle_notAfter_due due ordered
  have learned := schedule.probe_learns bound
  obtain ⟨_, dayHas, _, _⟩ := schedule.settle_allowed bound
  have positive : 1 ≤ (schedule.settle bound).day :=
    (Field.range_of_has (schedule.valid .dayOfMonth) dayHas).1
  rw [probed] at learned
  generalize schedule.settle bound = cursor at *
  cases learned with
  | missing _ undated =>
      have beyond := Date.day_lt_of_of?_eq_none positive undated (Clock.date time)
      simp only [Cursor.NotAfter, Cursor.DateBefore, Cursor.ofTime, Cursor.startOf]
        at settled ⊢
      omega
  | weekday _ date dated wrong =>
      have other : ¬ ((Clock.date time).year = cursor.year
          ∧ (Clock.date time).month = cursor.month
          ∧ (Clock.date time).day = cursor.day) := by
        intro same
        have equal := dated.symm.trans (Date.of?_eq_some_iff.mpr same)
        have allowed := (firesAt_iff.mp due.2.1).2
        rw [← Option.some.inj equal, wrong] at allowed
        exact Bool.false_ne_true allowed
      simp only [Cursor.NotAfter, Cursor.DateBefore, Cursor.ofTime, Cursor.startOf]
        at settled ⊢
      omega

/-- A probe that gives up leaves no due time that the bound admits: the settled minute is
in no searched year, and no due time is before it.
-/
theorem not_due_of_exhausted {schedule : Schedule} {bound : Cursor} {time : Int}
    (probed : schedule.probe bound = .exhausted) (due : schedule.Due time)
    : ¬ bound.NotAfter (Cursor.ofTime time) := by
  intro ordered
  have settled := settle_notAfter_due due ordered
  have learned := schedule.probe_learns bound
  have searched := due.2.2
  rw [probed] at learned
  generalize schedule.settle bound = cursor at *
  cases learned with
  | exhausted late =>
      simp only [Cursor.NotAfter, Cursor.DateBefore, Cursor.ofTime] at settled
      omega

/-- A time that a probe finds is due and is the first one that the bound admits. -/
theorem found_isLeast {schedule : Schedule} {bound : Cursor} {time : Int}
    (probed : schedule.probe bound = .found time)
    : IsLeast {due | schedule.Due due ∧ bound.NotAfter (Cursor.ofTime due)} time := by
  have learned := schedule.probe_learns bound
  have ordered := schedule.settle_notAfter bound
  have allowed := schedule.settle_allowed bound
  have bounds := schedule.settle_bounds bound
  have least (due : Int) (isDue : schedule.Due due)
      (later : bound.NotAfter (Cursor.ofTime due))
      : (schedule.settle bound).NotAfter (Cursor.ofTime due) :=
    settle_notAfter_due isDue later
  rw [probed] at learned
  generalize schedule.settle bound = cursor at *
  cases learned with
  | found searched date dated weekday =>
      obtain ⟨year, month, day⟩ := Date.of?_eq_some_iff.mp dated
      have parts := Cursor.parts_time date bounds.2.2.1 bounds.2.2.2
      have shown : Cursor.ofTime (Cursor.time date cursor.hour cursor.minute) = cursor := by
        rw [Cursor.ofTime_time date bounds.2.2.1 bounds.2.2.2, year, month, day]
      refine ⟨⟨⟨parts.2.2.2, ?_, ?_⟩, ?_⟩, ?_⟩
      · rw [firesAt_iff, shown, parts.1]
        exact ⟨allowed, weekday⟩
      · rw [parts.1, year]
        exact searched
      · rw [shown]
        exact ordered
      · intro due admitted
        have minutes := least due admitted.1 admitted.2
        rw [← shown, Cursor.notAfter_ofTime_iff] at minutes
        have whole := admitted.1.aligned
        have wholeFound := parts.2.2.2
        simp only [Clock.second, Clock.secondOfDay] at wholeFound
        omega

-----------------------------------------------------------------------------------------
-- The whole search
-----------------------------------------------------------------------------------------

/-- The search answers with the first due time that its bound admits, by induction on the
bounds that it passes through: each admits the same due times as the one before.
-/
theorem search_isFirst (schedule : Schedule) (bound : Cursor)
    : IsFirst (· ≤ ·)
        (fun time => schedule.Due time ∧ bound.NotAfter (Cursor.ofTime time))
        (schedule.search bound) := by
  fun_induction search schedule bound with
  | case1 bound time probed =>
      have least := found_isLeast probed
      exact ⟨least.1, fun due admitted => least.2 admitted⟩
  | case2 bound probed =>
      intro time admitted
      exact not_due_of_exhausted probed admitted.1 admitted.2
  | case3 bound further probed ih =>
      apply ih.congr
      intro time
      constructor
      · intro admitted
        exact ⟨admitted.1, further_notAfter_due probed admitted.1 admitted.2⟩
      · intro admitted
        have further := (dateBefore_of_later probed).1
        exact ⟨admitted.1, Cursor.notAfter_of_dateBefore further admitted.2⟩

/-- The first second of the minute that contains a time. -/
def minuteStart (time : Int) : Int :=
  time - time % 60

/-- The due times from the minute of `start` on, or after it when that minute does not
count.
-/
def dueFrom (schedule : Schedule) (start : Int) (inclusive : Bool) : Set Int :=
  {time
    | schedule.Due time
      ∧ if inclusive then minuteStart start ≤ time else minuteStart start < time}

/-- The next due time is the first one of those from its start on: whole minutes are in
the order of the minutes that contain them.
-/
theorem nextFrom_isFirst (schedule : Schedule) (start : Int) (inclusive : Bool)
    : IsFirst (· ≤ ·) (· ∈ schedule.dueFrom start inclusive)
        (schedule.nextFrom start inclusive) := by
  apply (schedule.search_isFirst _).congr
  intro time
  cases inclusive with
  | true =>
      simp only [dueFrom, minuteStart, Set.mem_ofPred_eq, if_true, Cursor.notAfter_ofTime_iff]
      constructor
      · intro admitted
        exact ⟨admitted.1, by omega⟩
      · intro admitted
        have whole := admitted.1.aligned
        exact ⟨admitted.1, by omega⟩
  | false =>
      simp only [dueFrom, minuteStart, Set.mem_ofPred_eq, Bool.false_eq_true, if_false,
        Cursor.next_notAfter_ofTime_iff]
      constructor
      · intro admitted
        have whole := admitted.1.aligned
        exact ⟨admitted.1, by omega⟩
      · intro admitted
        have whole := admitted.1.aligned
        exact ⟨admitted.1, by omega⟩

/-- The search for the next due time is exact for every start, however far from the searched
years: it answers with the least due time from the start on, and gives up exactly when
there is none.
-/
theorem nextFrom_exact (schedule : Schedule) (start : Int) (inclusive : Bool)
    : (∀ time,
          schedule.nextFrom start inclusive = some time
          ↔ IsLeast (schedule.dueFrom start inclusive) time)
      ∧ (schedule.nextFrom start inclusive = none
          ↔ schedule.dueFrom start inclusive = ∅) := by
  have first := schedule.nextFrom_isFirst start inclusive
  exact ⟨fun _ => first.eq_some_iff_isLeast, first.eq_none_iff_empty⟩

end Schedule

end Cadence
