import Cadence.Occurrence
import Cadence.Proofs.Search.LeastDue

/-! Schedules with the same masks. They have the same due times, and a zone shows them the
same of these; only in the second pass of a window does it matter whether a schedule is an
interval.
-/

namespace Cadence.Schedule

variable {left right plain interval : Schedule}

/-- From a time that the clock skips, the search goes on to the next due one. -/
theorem firstShown_of_skipped {zone : Zone} {wall : Int}
    (classified : zone.classify wall = .skipped) (schedule : Schedule)
    : schedule.firstShown zone wall
      = (schedule.nextFrom wall false).bind (schedule.firstShown zone) := by
  rw [firstShown, classified]
  dsimp only
  split
  · next exhausted => rw [exhausted, Option.bind_none]
  · next later found => rw [found, Option.bind_some]

end Cadence.Schedule
