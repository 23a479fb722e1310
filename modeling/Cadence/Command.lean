import Cadence.Listing
import Cadence.Text
import Cadence.Toml.Writer
import Cadence.Tree.Problem

/-! The commands of the program, and how the program ends. -/

namespace Cadence

/-- What the program is asked to do. -/
inductive Command where
  | format (expression : String)
  | next (expression : String) (after timezone : Option String) (count : Option UInt64)
    (layout : Layout)
  | record (expression : String)
  | jobs (after : Option String) (layout : Layout)
  | checkSettings
  | showSettings
  | version
  | help
  deriving DecidableEq, Repr

/-- Why a command fails. -/
inductive CommandError where
  | badSettings (path : String) (problem : Problem)
  | badSchedule (text : String) (cause : ScheduleError)
  | badMoment (text : String)
  | unwritable (cause : Toml.WriteError)
  /-- More occurrences are asked for than a list has room for. -/
  | tooLong

def CommandError.message : CommandError → String
  | .badSettings path problem => "parsing " ++ path ++ ": " ++ problem.message
  | .badSchedule text _ => "parsing schedule " ++ Text.quoted text
  | .badMoment text => "parsing --after " ++ Text.quoted text ++ " as RFC 3339"
  | .unwritable cause => "serializing config: " ++ cause.message
  | .tooLong => "capacity overflow"

/-- How the program ends. -/
inductive Outcome where
  | done (output : String)
  /-- The answer is given, and it is that something is wrong. -/
  | objected (output : String)
  | failed (error : CommandError)
  /-- The program gives up without an answer. -/
  | collapsed
  | misused

namespace Outcome

/-- The exit status. -/
def status : Outcome → UInt8
  | .done _ => 0
  | .objected _ | .failed _ => 1
  | .misused => 2
  | .collapsed => 101

/-- What is written to the standard output. -/
def output : Outcome → String
  | .done output | .objected output => output
  | .failed _ | .collapsed | .misused => ""

/-- How an error ends the program. -/
def ofError : CommandError → Outcome
  | .tooLong => .collapsed
  | error => .failed error

/-- What is written to the standard error, except for a misuse. -/
def diagnostic? : Outcome → Option String
  | .failed error => some ("Error: " ++ error.message)
  | .collapsed => some CommandError.tooLong.message
  | _ => none

end Outcome

end Cadence
