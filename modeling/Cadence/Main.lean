import Cadence.Command.Answer
import Cadence.Zone.Atlas
import Std.Time.DateTime.Timestamp

/-! The program: it reads the command line, the settings and the clock, and prints the answer. -/

namespace Cadence.Main

/-- Where the settings are looked for unless the environment says otherwise. -/
def settingsPath : IO String := do
  return (← IO.getEnv "TICKMARK_CONFIG").getD "tickmark.toml"

/-- The text of the settings, unless there is no such file. -/
def settingsText? (path : String) : IO (Option String) := do
  try
    return some (← IO.FS.readFile path)
  catch
    | .noFileOrDirectory .. => return none
    | error => throw (IO.userError ("reading " ++ path ++ ": " ++ toString error))

def now : IO Int := do
  return (← Std.Time.Timestamp.now).toSecondsSinceUnixEpoch.toInt

/-- What a command finds around it. -/
def surroundings (command : Command) : IO Surroundings := do
  let path ← settingsPath
  let text ← if command.usesSettings then settingsText? path else pure none
  return ⟨path, text, ← now⟩

/-- Runs a command and prints what it answers. -/
def perform (command : Command) : IO UInt32 := do
  let outcome := command.run (← surroundings command)
  IO.print outcome.output
  if let some line := outcome.diagnostic? then
    IO.eprintln line
  return outcome.status.toUInt32

end Cadence.Main

def main (arguments : List String) : IO UInt32 := do
  match Cadence.Command.ofArguments? arguments with
  | none =>
    IO.eprint ("error: the arguments do not form a command\n\n" ++ Cadence.Command.helpText)
    return Cadence.Outcome.misused.status.toUInt32
  | some command =>
    try
      Cadence.Main.perform command
    catch error =>
      IO.eprintln ("Error: " ++ toString error)
      return 1
