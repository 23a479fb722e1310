import Cadence.Command
import Cadence.Command.Arguments

/-!
Command lines. The first argument names a command or a group of commands; help can be asked for
anywhere before the first argument that is out of place.
-/

namespace Cadence.Command

/-- A number of occurrences in digits, perhaps after a plus sign. -/
def count? (text : String) : Option UInt64 :=
  let digits :=
    match text.toList with
    | '+' :: digits => digits
    | digits => digits
  let value := Nat.ofDigitChars 10 digits 0
  if !digits.isEmpty && digits.all Char.isDigit && value < UInt64.size then some value.toUInt64
  else none

def layoutOf (arguments : Arguments) : Layout :=
  if arguments.has "json" then .json else .plain

/-- The options of a listing of occurrences. -/
def nextSwitches : List Switch :=
  [.text "after", .text "tz", ⟨"count", some fun text => (count? text).isSome⟩, .flag "json"]

/-- The command with exactly one operand. -/
def withExpression (arguments : Arguments) (command : String → Command) : Except Stop Command :=
  match arguments.operands with
  | [expression] => .ok (command expression)
  | _ => .error .misuse

/-- The command that a name and its arguments stand for. -/
def ofName (name : String) (rest : List String) : Except Stop Command :=
  match name with
  | "format" => do withExpression (← Arguments.read [] 1 rest) .format
  | "record" => do withExpression (← Arguments.read [] 1 rest) .record
  | "next" => do
    let arguments ← Arguments.read nextSwitches 1 rest
    withExpression arguments fun expression =>
      .next expression (arguments.value? "after") (arguments.value? "tz")
        ((arguments.value? "count").bind count?) (layoutOf arguments)
  | "jobs" => do
    let arguments ← Arguments.read [.text "after", .flag "json"] 0 rest
    return .jobs (arguments.value? "after") (layoutOf arguments)
  | "version" => (Arguments.read [] 0 rest).map fun _ => .version
  | _ => .error .misuse

/-- The command about settings that a name and its arguments stand for. -/
def ofSettingsName (name : String) (rest : List String) : Except Stop Command :=
  match name with
  | "validate" => (Arguments.read [] 0 rest).map fun _ => .checkSettings
  | "show" => (Arguments.read [] 0 rest).map fun _ => .showSettings
  | _ => .error .misuse

/-- The commands that help can be asked for, with the groups before their names. -/
def topics : List (List String) :=
  [[], ["format"], ["next"], ["record"], ["jobs"], ["config"], ["config", "validate"],
    ["config", "show"], ["config", "help"], ["version"], ["help"]]

/-- Help for the command that some names lead to. -/
def helpOn (names : List String) : Except Stop Command :=
  .error (if topics.contains names then .help else .misuse)

/-- A group of commands. Its first argument names one, or asks for help. -/
def ofGroup (group : List String) (command : String → List String → Except Stop Command)
    (first : String) (rest : List String)
    : Except Stop Command :=
  match Argument.ofText first with
  | .operand "help" => helpOn (group ++ rest)
  | .operand name => command name rest
  | .long "help" none => .error .help
  | .short ('h' :: _) => .error .help
  | _ => .error .misuse

/-- The command that a whole command line asks for, or why it asks for none. -/
def read : List String → Except Stop Command
  -- without a command the jobs are listed
  | [] | ["--"] => .ok (.jobs none .plain)
  | first :: rest =>
    match Argument.ofText first, rest with
    | .long "version" none, _ | .short ('V' :: _), _ => .ok .version
    | .operand "config", name :: rest => ofGroup ["config"] ofSettingsName name rest
    | _, _ => ofGroup [] ofName first rest

/-- The command that a command line asks for, if it is well formed. -/
def ofArguments? (texts : List String) : Option Command :=
  match read texts with
  | .ok command => some command
  | .error .help => some .help
  | .error .misuse => none

end Cadence.Command
