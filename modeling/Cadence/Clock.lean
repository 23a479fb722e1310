import Cadence.Calendar

/-!
Clocks. A time is the number of whole seconds that a clock shows since 1970-01-01T00:00:00, and an
offset is how far a wall clock is ahead of one that is set to UTC. Both are integers. A time of day
also tells the nanoseconds.
-/

namespace Cadence

/-- Nanoseconds since the start of a second that is counted. From the thousand millionth on they are
those of a leap second, which is inserted after the second. -/
abbrev Nanosecond := Fin 2000000000

/-- Whether a leap second is running. -/
def Nanosecond.isLeap (nano : Nanosecond) : Bool :=
  1000000000 ≤ nano.val

/-- A time of day, to the nanosecond. -/
structure TimeOfDay where
  /-- Whole seconds since midnight. -/
  second : Fin 86400
  nano : Nanosecond
  deriving DecidableEq, Repr

/-- The start of a second. -/
def TimeOfDay.ofSecond (second : Fin 86400) : TimeOfDay :=
  ⟨second, 0⟩

namespace Clock

def date (time : Int) : Date :=
  .ofDayNumber (time / 86400)

def secondOfDay (time : Int) : Nat :=
  (time % 86400).toNat

def hour (time : Int) : Nat :=
  secondOfDay time / 3600

def minute (time : Int) : Nat :=
  secondOfDay time / 60 % 60

def second (time : Int) : Nat :=
  secondOfDay time % 60

/-- The time of day with the given parts, if there is one. -/
def timeOfDay? (hour minute second : Nat) : Option TimeOfDay :=
  if within : hour < 24 ∧ minute < 60 ∧ second < 60 then
    some (.ofSecond ⟨hour * 3600 + minute * 60 + second, by omega⟩)
  else none

/-- The whole second of a time of day on a date. -/
def on (date : Date) (time : TimeOfDay) : Int :=
  date.dayNumber * 86400 + time.second.val

/-- The time with the given parts, if there is one. -/
def of? (year : Int) (month day hour minute second : Nat) : Option Int := do
  let date ← Date.of? year month day
  let time ← timeOfDay? hour minute second
  return on date time

/-- A date is that of its day, since day numbers are read back. -/
theorem dayNumber_date (time : Int) : (date time).dayNumber = time / 86400 :=
  Date.dayNumber_ofDayNumber _

end Clock

end Cadence
