import Cadence.Json.Writer
import Cadence.Occurrence
import Cadence.Rfc3339
import Cadence.Settings
import Cadence.Zone.Named

/-!
Listings of occurrences: the coming ones of a schedule, and the next one of every job. A listing is
written as plain lines or as indented JSON. An offset of nothing is spelt out in plain lines and is
`Z` in JSON.
-/

namespace Cadence

/-- How a listing is written. -/
inductive Layout where
  | plain
  | json
  deriving DecidableEq, Repr

namespace Occurrence

/-- The occurrence on a line of its own. -/
def line (occurrence : Occurrence) : String :=
  Rfc3339.write occurrence.wall occurrence.offset

/-- The occurrence as a JSON value. -/
def tree (occurrence : Occurrence) : Tree :=
  .text (Rfc3339.writeZulu occurrence.wall occurrence.offset)

end Occurrence

/-- Lines with line ends between them. -/
def joinLines (lines : List String) : String :=
  String.intercalate "\n" lines

/-- The coming occurrences of a schedule in a zone. -/
structure Upcoming where
  schedule : Schedule
  /-- The name of the zone. -/
  timezone : String
  occurrences : List Occurrence
  deriving Repr

namespace Upcoming

/-- The first `count` occurrences after a moment, in the zone that a name stands for. -/
def list [Atlas] (schedule : Schedule) (timezone : String) (after : Moment) (count : Nat)
    : Upcoming :=
  let zone := Atlas.named timezone
  ⟨schedule, zone.name, schedule.upcomingIn zone.zone after count⟩

def tree (upcoming : Upcoming) : Tree :=
  .named
    [("expression", .text upcoming.schedule.canonical),
      ("timezone", .text upcoming.timezone),
      ("occurrences", .list (upcoming.occurrences.map Occurrence.tree) true)]

def write (upcoming : Upcoming) : Layout → String
  | .plain => joinLines (upcoming.occurrences.map Occurrence.line)
  | .json => Json.writeIndented upcoming.tree

end Upcoming

/-- The next occurrence of a job, if there is one. -/
structure JobRun where
  name : String
  schedule : Schedule
  /-- The name of the zone as the settings give it. -/
  timezone : String
  next : Option Occurrence
  deriving Repr

namespace JobRun

/-- When a job runs next after a moment, where `usual` names the zone of jobs without one. -/
def after [Atlas] (moment : Moment) (usual : String) (job : Job) : JobRun :=
  let timezone := job.timezoneOr usual
  ⟨job.name, job.schedule, timezone, job.schedule.nextIn (Atlas.named timezone).zone moment⟩

def tree (run : JobRun) : Tree :=
  .named
    [("name", .text run.name),
      ("schedule", .text run.schedule.canonical),
      ("timezone", .text run.timezone),
      ("next", (run.next.map Occurrence.tree).getD .null)]

/-- A text with blanks behind it up to a number of characters. -/
def padded (width : Nat) (text : String) : String :=
  text ++ String.ofList (List.replicate (width - text.length) ' ')

/-- The run on a line of its own, with a column of some width for the name. -/
def line (width : Nat) (run : JobRun) : String :=
  let next := (run.next.map Occurrence.line).getD "never"
  padded width run.name ++ "  " ++ next
    ++ "  (" ++ run.schedule.canonical ++ " " ++ run.timezone ++ ")"

/-- The width of the column for names, which is that of the longest name in bytes. -/
def nameWidth (runs : List JobRun) : Nat :=
  (runs.map (·.name.utf8ByteSize)).foldl max 0

def write (runs : List JobRun) : Layout → String
  | .plain => joinLines (runs.map (line (nameWidth runs)))
  | .json => Json.writeIndented (.list (runs.map tree) true)

end JobRun

/-- The next runs of all jobs after a moment, in their order. -/
def Settings.runs [Atlas] (settings : Settings) (moment : Moment) : List JobRun :=
  settings.jobs.map (JobRun.after moment settings.listing.timezone)

end Cadence
