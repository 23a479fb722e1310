/-!
The arguments of a command line, read from left to right. An option has a long name; its value
follows after `=` or as the next argument, which must not look like an option itself. No option may
be given twice. After `--` every argument is an operand.
-/

namespace Cadence

/-- What the form of an argument says. -/
inductive Argument where
  | operand (text : String)
  | long (name : String) (value : Option String)
  | short (letters : List Char)
  | divider
  deriving DecidableEq, Repr

namespace Argument

/-- A long name and the value behind the first `=`. -/
def splitValue (text : List Char) : Argument :=
  let name := text.takeWhile (· != '=')
  match text.drop name.length with
  | [] => .long (String.ofList name) none
  | _ :: value => .long (String.ofList name) (some (String.ofList value))

/-- The form of an argument; a single `-` is an operand. -/
def ofText (text : String) : Argument :=
  match text.toList with
  | ['-', '-'] => .divider
  | '-' :: '-' :: rest => splitValue rest
  | '-' :: letter :: rest => .short (letter :: rest)
  | _ => .operand text

/-- Whether an argument can be the value of the option before it. -/
def isOperand (text : String) : Bool :=
  match ofText text with
  | .operand _ => true
  | _ => false

end Argument

/-- Why a command line does not lead to a command. -/
inductive Stop where
  | misuse
  | help
  deriving DecidableEq, Repr

/-- An option that a command knows. -/
structure Switch where
  name : String
  /-- The values that it takes, or `none` if it takes no value. -/
  value : Option (String → Bool)

namespace Switch

/-- An option without a value. -/
def flag (name : String) : Switch :=
  ⟨name, none⟩

/-- An option with any value. -/
def text (name : String) : Switch :=
  ⟨name, some fun _ => true⟩

end Switch

/-- The arguments that a command has been given. -/
structure Arguments where
  operands : List String
  options : List (String × Option String)
  deriving DecidableEq, Repr

namespace Arguments

def empty : Arguments :=
  ⟨[], []⟩

/-- Whether an option has been given. -/
def has (arguments : Arguments) (name : String) : Bool :=
  arguments.options.any (·.1 == name)

/-- The value that an option has been given. -/
def value? (arguments : Arguments) (name : String) : Option String :=
  (arguments.options.lookup name).join

/-- Adds an operand, of which there may be up to `room`. -/
def addOperand (room : Nat) (arguments : Arguments) (text : String) : Except Stop Arguments :=
  if arguments.operands.length < room then
    .ok { arguments with operands := arguments.operands ++ [text] }
  else .error .misuse

/-- Adds an option that must not have been given before. -/
def addOption (arguments : Arguments) (switch : Switch) (value : Option String)
    : Except Stop Arguments :=
  let fits :=
    match switch.value, value with
    | none, none => true
    | some accepts, some value => accepts value
    | _, _ => false
  if fits && !arguments.has switch.name then
    .ok { arguments with options := arguments.options ++ [(switch.name, value)] }
  else .error .misuse

/-- Reads arguments after those that have been read; the first that is out of place decides. -/
def readFrom (switches : List Switch) (room : Nat) (arguments : Arguments)
    : List String → Except Stop Arguments
  | [] => .ok arguments
  | text :: rest =>
    match Argument.ofText text with
    | .divider => rest.foldlM (addOperand room) arguments
    | .operand text => do
      let arguments ← arguments.addOperand room text
      readFrom switches room arguments rest
    | .short letters => .error (if letters.head? = some 'h' then .help else .misuse)
    | .long name value =>
      match switches.find? (·.name == name), rest with
      | some switch, next :: later => do
        -- a value that was not given behind `=` is the next argument
        if switch.value.isSome && value.isNone then
          if Argument.isOperand next then
            let arguments ← arguments.addOption switch (some next)
            readFrom switches room arguments later
          else .error .misuse
        else
          let arguments ← arguments.addOption switch value
          readFrom switches room arguments (next :: later)
      | some switch, [] => arguments.addOption switch value
      | none, _ => .error (if name = "help" ∧ value = none then .help else .misuse)

/-- The arguments of a command that knows some options and has `room` for operands. -/
def read (switches : List Switch) (room : Nat) (texts : List String) : Except Stop Arguments :=
  readFrom switches room empty texts

end Arguments

end Cadence
