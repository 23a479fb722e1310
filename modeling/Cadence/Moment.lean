import Cadence.Clock

/-!
Moments of UTC. Besides the seconds that are counted there are leap seconds: each is inserted after
a counted one and is written as second 60. Wall clocks show counted seconds only. While a leap
second lasts, a clock behind UTC shows the next counted second already; any other clock still shows
the one before.
-/

namespace Cadence

structure Moment where
  /-- The counted second, or the one before a leap second. -/
  second : Int
  leap : Bool
  deriving DecidableEq, Repr

namespace Moment

/-- A second that is counted. -/
def counted (second : Int) : Moment :=
  ⟨second, false⟩

instance : Coe Int Moment where coe := counted

/-- What a wall clock with some offset shows. -/
def wall (moment : Moment) (offset : Int) : Int :=
  if moment.leap ∧ offset < 0 then moment.second + 1 + offset else moment.second + offset

/-- At counted seconds a wall clock is off by its offset. -/
@[simp] theorem wall_counted (second offset : Int)
    : (counted second).wall offset = second + offset := by
  simp [wall, counted]

end Moment

end Cadence
