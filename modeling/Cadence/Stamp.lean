import Cadence.Clock

/-!
Stamps: times of a clock to the nanosecond. A leap second is inserted after a second that is counted,
and its stamps have that second's number; they come after all others with the number.
-/

namespace Cadence

/-- A time of a clock, to the nanosecond. -/
structure Stamp where
  /-- The counted second, or the one before a leap second. -/
  second : Int
  nano : Nanosecond
  deriving DecidableEq, Repr

namespace Stamp

/-- The start of a counted second. -/
def ofSecond (second : Int) : Stamp :=
  ⟨second, ⟨0, by decide⟩⟩

instance : LE Stamp where
  le left right := left.second < right.second ∨ left.second = right.second ∧ left.nano ≤ right.nano

instance : LT Stamp where
  lt left right := left.second < right.second ∨ left.second = right.second ∧ left.nano < right.nano

instance : DecidableLE Stamp := fun left right =>
  inferInstanceAs
    (Decidable (left.second < right.second ∨ left.second = right.second ∧ left.nano ≤ right.nano))

instance : DecidableLT Stamp := fun left right =>
  inferInstanceAs
    (Decidable (left.second < right.second ∨ left.second = right.second ∧ left.nano < right.nano))

/-- Moves a stamp by whole seconds. A leap second is not counted: who moves on from it starts as if
from the second before it, and who moves back as if from the second after it. -/
def shift (stamp : Stamp) (seconds : Int) : Stamp :=
  if stamp.nano.isLeap ∧ seconds ≠ 0 then
    let start := if seconds < 0 then stamp.second + 1 else stamp.second
    ⟨start + seconds, ⟨stamp.nano.val - 1000000000, by omega⟩⟩
  else ⟨stamp.second + seconds, stamp.nano⟩

/-- The year that a clock shows. -/
def year (stamp : Stamp) : Int :=
  (Clock.date stamp.second).year

end Stamp

end Cadence
