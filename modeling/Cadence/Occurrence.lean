import Cadence.Moment
import Cadence.Schedule.Search
import Cadence.Zone

/-!
When a schedule fires next in a zone. The schedule is compared with the wall clock. Due times that
the clock skips are passed over. Of due times that it shows twice, only the first showing counts,
unless the schedule is an interval; then both do.
-/

namespace Cadence

/-- A wall-clock time and the offset under which it is read. -/
structure Occurrence where
  wall : Int
  offset : Int
  deriving DecidableEq, Repr

namespace Occurrence

/-- The moment at which the clock shows the time. -/
def instant (occurrence : Occurrence) : Int :=
  occurrence.wall - occurrence.offset

end Occurrence

namespace Schedule

/-- The first due time from `wall` on that the clock shows, where `wall` itself is due. -/
def firstShown (schedule : Schedule) (zone : Zone) (wall : Int) : Option Occurrence :=
  match zone.classify wall with
  | .valid offset => some ⟨wall, offset⟩
  | .repeated first _ => some ⟨wall, first⟩
  | .skipped =>
    match _found : schedule.nextFrom wall false with
    | none => none
    | some later => schedule.firstShown zone later
termination_by (searchEnd - wall).toNat
decreasing_by
  have raised := lt_of_nextFrom ‹_›
  have bounded := lt_searchEnd ‹_›
  omega

/-- The first due time that the clock shows from the minute of `start` on, or after it. -/
def resume (schedule : Schedule) (zone : Zone) (start : Int) (inclusive : Bool)
    : Option Occurrence :=
  (schedule.nextFrom start inclusive).bind (schedule.firstShown zone)

/-- The next occurrence when the clock is in the second pass of a window. -/
def inSecondPass (schedule : Schedule) (zone : Zone) (window : Window) (start : Int)
    (inclusive : Bool)
    : Option Occurrence :=
  if schedule.interval then
    match schedule.nextFrom start inclusive with
    | none => none
    | some due =>
      if due < window.stop then some ⟨due, window.after⟩
      else schedule.resume zone window.stop true
  else schedule.resume zone window.stop true

/-- The next occurrence when the clock is in the first pass of a window. -/
def inFirstPass (schedule : Schedule) (zone : Zone) (window : Window) (start : Int)
    : Option Occurrence :=
  match schedule.nextFrom start false with
  | none => none
  | some due =>
    if due < window.stop then some ⟨due, window.before⟩
    else schedule.inSecondPass zone window window.restart true

/-- The first occurrence in a zone after a moment. In a leap second the zone is asked about counted
seconds: for the offset, the one before; for the window, the one that the wall clock shows. -/
def nextIn (schedule : Schedule) (zone : Zone) (after : Moment) : Option Occurrence :=
  let offset := zone.offsetAt after.second
  let wall := after.wall offset
  match zone.window? wall with
  | none => schedule.resume zone wall false
  | some window =>
    if offset = window.after then schedule.inSecondPass zone window wall false
    else schedule.inFirstPass zone window wall

/-- The first `n` occurrences in a zone after a moment. A program that makes room for all `n` before
it looks for the first gives up if there is no such room; a command does from
`Command.listLimit` on. -/
def upcomingIn (schedule : Schedule) (zone : Zone) (after : Moment) : Nat → List Occurrence
  | 0 => []
  | n + 1 =>
    match schedule.nextIn zone after with
    | none => []
    | some occurrence => occurrence :: schedule.upcomingIn zone occurrence.instant n

end Schedule

end Cadence
