/-!
Time zones. A zone says which offset holds at a moment and how a wall-clock time reads in UTC: once,
twice where clocks are set back, or not at all where they are set forward. A wall-clock time that is
read twice lies in a window; the change of offset that closes the window is found by bisection
between the two readings.
-/

namespace Cadence

/-- How a wall-clock time reads in UTC. -/
inductive LocalTime where
  | valid (offset : Int)
  /-- Read under `first`, and later again under `second`. -/
  | repeated (first second : Int)
  | skipped
  deriving DecidableEq, Repr

/-- The wall-clock times that are read twice around one change of offset. -/
structure Window where
  /-- Where the first pass ends, on a clock still running under `before`. -/
  stop : Int
  before : Int
  after : Int
  deriving DecidableEq, Repr

namespace Window

/-- Where the second pass starts, on a clock running under `after`. -/
def restart (window : Window) : Int :=
  window.stop - window.before + window.after

end Window

/-- What is known of a zone. -/
structure Zone where
  /-- The offset at a moment, for which its counted second stands: in a leap second, the one before
  it. -/
  offsetAt : Int → Int
  /-- How a wall-clock time reads. -/
  classify : Int → LocalTime

namespace Zone

/-- A zone whose clocks never change. -/
def fixed (offset : Int) : Zone where
  offsetAt _ := offset
  classify _ := .valid offset

def utc : Zone :=
  fixed 0

/-- Halves the interval between `low` and `high`, where `low` is on the near side and `high` is not,
down to one second; gives its upper end. -/
def bisect (isNear : Int → Bool) (low high : Int) : Int :=
  if 1 < high - low then
    let middle := low + (high - low) / 2
    if isNear middle then bisect isNear middle high else bisect isNear low middle
  else high
termination_by (high - low).toNat
decreasing_by all_goals omega

/-- The window of a time that is read at `early` under `first` and at `late` under `second`. -/
def windowBetween (zone : Zone) (first second early late : Int) : Window :=
  -- the earlier reading is still under `first`, the later one no longer
  let change := bisect (zone.offsetAt · == first) early late
  ⟨change + first, first, second⟩

/-- The window of a wall-clock time that is read twice. -/
def window? (zone : Zone) (wall : Int) : Option Window :=
  match zone.classify wall with
  | .repeated first second =>
    some (zone.windowBetween first second (wall - first) (wall - second))
  | _ => none

end Zone

end Cadence
