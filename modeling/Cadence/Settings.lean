import Cadence.Schedule

/-! The settings of the program: defaults for its listings, the log, and the jobs that it knows. -/

namespace Cadence

/-- What a listing falls back on. -/
structure ListingDefaults where
  /-- The name of the zone in which schedules are read. -/
  timezone : String
  /-- How many occurrences are listed. -/
  count : UInt64
  deriving DecidableEq, Repr

def ListingDefaults.standard : ListingDefaults :=
  ⟨"UTC", 5⟩

structure LogSettings where
  filter : String
  /-- Whether each entry of the log is a JSON object. -/
  asJson : Bool
  deriving DecidableEq, Repr

def LogSettings.standard : LogSettings :=
  ⟨"warn", false⟩

/-- A schedule with a name, in a zone of its own or the usual one. -/
structure Job where
  name : String
  schedule : Schedule
  timezone : Option String
  deriving Repr

/-- The name of the zone in which a job runs. -/
def Job.timezoneOr (job : Job) (usual : String) : String :=
  job.timezone.getD usual

structure Settings where
  listing : ListingDefaults
  log : LogSettings
  jobs : List Job
  deriving Repr

def Settings.standard : Settings :=
  ⟨.standard, .standard, []⟩

end Cadence
