import Cadence.Command.Line
import Cadence.Schedule.Record
import Cadence.Settings.Issues
import Cadence.Settings.Reader
import Cadence.Settings.Writer

/-!
What commands answer. All but the version and the help look at the settings first, so that malformed
settings win over any other failure.
-/

namespace Cadence

/-- What a command finds around it. -/
structure Surroundings where
  /-- Where the settings are looked for. -/
  path : String
  /-- The text of the settings, if there are any. -/
  text : Option String
  now : Int

/-- The settings in force. -/
def Surroundings.settings? (here : Surroundings) : Except CommandError Settings :=
  match here.text with
  | none => .ok .standard
  | some text => (Settings.ofToml text).mapError (.badSettings here.path)

namespace Command

/-- The schedule that is asked about. -/
def schedule? (text : String) : Except CommandError Schedule :=
  (Schedule.parse text).mapError (.badSchedule text)

/-- The moment that is asked about. -/
def moment? (text : String) : Except CommandError Moment :=
  match Rfc3339.moment? text.toList with
  | some moment => .ok moment
  | none => .error (.badMoment text)

/-- The moment that is asked about, or else now. -/
def start? (now : Int) : Option String → Except CommandError Moment
  | none => .ok now
  | some text => moment? text

/-- The canonical text of a schedule. -/
def formatted (expression : String) : Except CommandError String :=
  (schedule? expression).map Schedule.canonical

/-- The record of a schedule. -/
def recorded (expression : String) : Except CommandError String :=
  (schedule? expression).map Schedule.writeRecord

/-- So many occurrences, of sixteen bytes each, take `2^63` bytes, which is more than a list may. -/
def listLimit : Nat :=
  Nat.pow 2 59

/-- The coming occurrences of a schedule after a moment. -/
def upcoming [Atlas] (expression : String) (start : Moment) (timezone : String) (count : Nat)
    (layout : Layout)
    : Except CommandError String := do
  let schedule ← schedule? expression
  if listLimit ≤ count then throw .tooLong
  return (Upcoming.list schedule timezone start count).write layout

/-- The coming occurrences of a schedule. A malformed moment wins over a malformed schedule. -/
def listed [Atlas] (now : Int) (expression : String) (after : Option String)
    (timezone : String) (count : Nat) (layout : Layout)
    : Except CommandError String := do
  upcoming expression (← start? now after) timezone count layout

/-- The text of settings. -/
def shown (settings : Settings) : Except CommandError String :=
  settings.toToml.mapError .unwritable

/-- What is to be said about settings. -/
def checked [Atlas] (settings : Settings) (path : String) : Outcome :=
  let issues := settings.issues Atlas.isKnown
  if issues.isEmpty then
    .done ("Config OK (" ++ path ++ ", " ++ toString settings.jobs.length ++ " job(s))\n")
  else
    let errors := issues.countP (·.severity == .error)
    let warnings := issues.length - errors
    let text := String.join (issues.map fun issue => issue.text ++ "\n") ++ "\n"
      ++ toString errors ++ " error(s), " ++ toString warnings ++ " warning(s) in " ++ path ++ "\n"
    if Settings.areAcceptable issues then .done text else .objected text

def versionText : String :=
  "tickmark 0.1.0\n"

def helpText : String :=
  "Usage: tickmark [COMMAND]\n\nCommands:\n"
    ++ "  format EXPRESSION    Print the canonical form of an expression\n"
    ++ "  next EXPRESSION      List upcoming occurrences of an expression\n"
    ++ "                         [--after TIME] [--tz ZONE] [--count COUNT] [--json]\n"
    ++ "  record EXPRESSION    Print the JSON record an expression is stored as\n"
    ++ "  jobs                 Show the next run of every configured job\n"
    ++ "                         [--after TIME] [--json]\n"
    ++ "  config validate      Parse the config file and report any errors\n"
    ++ "  config show          Dump the resolved configuration as TOML\n"
    ++ "  version              Print version information\n"

/-- What a command answers under some settings. -/
def answer [Atlas] (here : Surroundings) (settings : Settings)
    : Command → Except CommandError Outcome
  | .format expression => do return .done ((← formatted expression) ++ "\n")
  | .record expression => do return .done ((← recorded expression) ++ "\n")
  | .next expression after timezone count layout => do
    let text ← listed here.now expression after (timezone.getD settings.listing.timezone)
      (count.getD settings.listing.count).toNat layout
    return .done (text ++ "\n")
  | .jobs after layout => do
    let start ← start? here.now after
    return .done (JobRun.write (settings.runs start) layout ++ "\n")
  | .checkSettings => .ok (checked settings here.path)
  | .showSettings => (shown settings).map .done
  | .version => .ok (.done versionText)
  | .help => .ok (.done helpText)

/-- Whether a command looks at the settings. -/
def usesSettings : Command → Bool
  | .version | .help => false
  | _ => true

/-- How a command ends. -/
def run [Atlas] (command : Command) (here : Surroundings) : Outcome :=
  let ended := do
    let settings ← if command.usesSettings then here.settings? else .ok .standard
    command.answer here settings
  match ended with
  | .ok outcome => outcome
  | .error error => .ofError error

/-- How the program ends for a command line. -/
def runLine [Atlas] (texts : List String) (here : Surroundings) : Outcome :=
  match ofArguments? texts with
  | some command => command.run here
  | none => .misused

end Command

end Cadence
