import Cadence.Schedule

/-! Named schedules, written with an at sign. -/

namespace Cadence

inductive Shorthand where
  | everyMinute
  | hourly
  | daily
  | monthly
  | yearly
  | weekly
  deriving DecidableEq, Repr

namespace Shorthand

/-- The names that may be written, in either case. -/
def names : List (String × Shorthand) :=
  [("every_minute", .everyMinute), ("hourly", .hourly), ("daily", .daily), ("midnight", .daily),
    ("monthly", .monthly), ("yearly", .yearly), ("annually", .yearly), ("weekly", .weekly)]

def ofName? (text : List Char) : Option Shorthand :=
  (names.find? fun (known, _) => Text.sameLetters known.toList text).map (·.2)

/-- The masks of a shorthand: the first value of each field that it fixes, and all of the others. -/
def masks : Shorthand → Masks
  | .everyMinute => .full
  | .hourly => { Masks.full with minute := 1 }
  | .daily => { Masks.full with minute := 1, hour := 1 }
  | .monthly => { Masks.full with minute := 1, hour := 1, dayOfMonth := 2 }
  | .yearly => { Masks.full with minute := 1, hour := 1, dayOfMonth := 2, month := 2 }
  | .weekly => { Masks.full with minute := 1, hour := 1, dayOfWeek := 1 }

/-- Shorthands that fire within the day are intervals. -/
def isInterval : Shorthand → Bool
  | .everyMinute | .hourly => true
  | _ => false

/-- The masks of every shorthand are admissible, by cases. -/
theorem masks_valid (shorthand : Shorthand) : shorthand.masks.Valid := by
  cases shorthand <;> decide

def schedule (shorthand : Shorthand) : Schedule :=
  ⟨shorthand.masks, shorthand.isInterval, shorthand.masks_valid⟩

end Shorthand

end Cadence
