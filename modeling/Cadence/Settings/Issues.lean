import Cadence.Settings
import Cadence.Text

/-!
What is doubtful about settings that could be read: zones that are not known, a count that lists
nothing or very much, and jobs that cannot be told apart. A job with a blank name is not held
against later ones.
-/

namespace Cadence

inductive Severity where
  | error
  | warning
  deriving DecidableEq, Repr

/-- The place that an issue is about. -/
inductive Place where
  | listingTimezone
  | listingCount
  | jobName (index : Nat)
  | jobTimezone (index : Nat)
  deriving DecidableEq, Repr

def Place.name : Place → String
  | .listingTimezone => "schedule.timezone"
  | .listingCount => "schedule.count"
  | .jobName index => "jobs[" ++ toString index ++ "].name"
  | .jobTimezone index => "jobs[" ++ toString index ++ "].timezone"

inductive Complaint where
  | unknownTimezone (name : String)
  | zeroCount
  | highCount (count : UInt64)
  | blankName
  | duplicateName (name : String)
  deriving DecidableEq, Repr

namespace Complaint

/-- Counts above this one are doubtful. -/
def highestCount : UInt64 := 1000

def severity : Complaint → Severity
  | .highCount _ => .warning
  | _ => .error

def message : Complaint → String
  | .unknownTimezone name => "unknown timezone " ++ Text.quoted name
  | .zeroCount => "count must be greater than 0"
  | .highCount count =>
    "count " ++ toString count.toNat ++ " is above " ++ toString highestCount.toNat
      ++ "; listings may be slow"
  | .blankName => "job name must not be empty"
  | .duplicateName name => "duplicate job name " ++ Text.quoted name

end Complaint

structure Issue where
  place : Place
  complaint : Complaint
  deriving DecidableEq, Repr

namespace Issue

def severity (issue : Issue) : Severity :=
  issue.complaint.severity

/-- The issue on one line. -/
def text (issue : Issue) : String :=
  let tag :=
    match issue.severity with
    | .error => "ERROR"
    | .warning => "WARN"
  "[" ++ tag ++ "] " ++ issue.place.name ++ ": " ++ issue.complaint.message

end Issue

namespace Settings

/-- The issue of a zone's name, if it is not known. -/
def timezoneIssue (known : String → Bool) (place : Place) (name : String) : List Issue :=
  if known name then [] else [⟨place, .unknownTimezone name⟩]

def countIssue (count : UInt64) : List Issue :=
  if count = 0 then [⟨.listingCount, .zeroCount⟩]
  else if Complaint.highestCount < count then [⟨.listingCount, .highCount count⟩]
  else []

/-- The issue of a job's name after the names `seen` in earlier jobs. -/
def nameIssue (seen : List String) (index : Nat) (name : String) : List Issue :=
  if Text.isAllBlank name then [⟨.jobName index, .blankName⟩]
  else if seen.contains name then [⟨.jobName index, .duplicateName name⟩]
  else []

/-- The issues of jobs from an index on. -/
def jobIssues (known : String → Bool) (seen : List String) (index : Nat) : List Job → List Issue
  | [] => []
  | job :: jobs =>
    nameIssue seen index job.name
      ++ (job.timezone.toList.flatMap (timezoneIssue known (.jobTimezone index)))
      -- blank names are not kept, so they are never duplicates
      ++ jobIssues known (if Text.isAllBlank job.name then seen else job.name :: seen)
        (index + 1) jobs

/-- The issues of settings, where `known` tells the names of zones. -/
def issues (settings : Settings) (known : String → Bool) : List Issue :=
  timezoneIssue known .listingTimezone settings.listing.timezone
    ++ countIssue settings.listing.count
    ++ jobIssues known [] 0 settings.jobs

/-- Whether none of the issues is an error. -/
def areAcceptable (issues : List Issue) : Bool :=
  issues.all fun issue => issue.severity != .error

end Settings

end Cadence
