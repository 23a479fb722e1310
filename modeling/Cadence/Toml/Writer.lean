/-!
TOML texts: keys with values under headers. A text is put between the plainest quotes that need no
escapes; only where none will do are characters escaped. An integer has 64 bits with a sign.
-/

namespace Cadence.Toml

/-- How a text is quoted. -/
inductive Quotes where
  | basic
  | literal
  | basicBlock
  | literalBlock
  deriving DecidableEq, Repr

namespace Quotes

/-- The greatest number of equal marks in a row; `run` of them came just before. -/
def longestRun (mark : Char) (run : Nat) : List Char → Nat
  | [] => run
  | c :: rest =>
    if c = mark then longestRun mark (run + 1) rest else max run (longestRun mark 0 rest)

/-- Whether a character is always written as an escape. -/
def needsCode (c : Char) : Bool :=
  (c.toNat < 0x20 && c != '\t' && c != '\n') || c.toNat == 0x7f

/-- The quotes for a text: on one line if it can be, with the fewest marks that need no escapes. -/
def choose (text : List Char) : Quotes :=
  let coded := text.any needsCode
  let lines := text.contains '\n'
  let slashes := text.contains '\\'
  let double := longestRun '"' 0 text
  let single := longestRun '\'' 0 text
  if !coded && !slashes && double = 0 && !lines then .basic
  else if !coded && single = 0 && !lines then .literal
  else if !coded && !slashes && double ≤ 2 then .basicBlock
  else if !coded && single ≤ 2 then .literalBlock
  -- nothing leaves the text as it is, so it will be escaped
  else if lines then .basicBlock
  else .basic

def marks : Quotes → List Char
  | .basic => ['"']
  | .literal => ['\'']
  | .basicBlock => ['"', '"', '"']
  | .literalBlock => ['\'', '\'', '\'']

/-- The code of a control character, with four digits. -/
def codeOf (c : Char) : List Char :=
  let digits := (Nat.toDigits 16 c.toNat).map Char.toUpper
  ['\\', 'u'] ++ List.replicate (4 - digits.length) '0' ++ digits

/-- The text between double quotes. Up to `free` double quotes in a row stand for themselves, and
`run` of them came just before. -/
def escape (free : Nat) (lines : Bool) (run : Nat) : List Char → List Char
  | [] => []
  | c :: rest =>
    if c = '"' then
      if run < free then c :: escape free lines (run + 1) rest
      else '\\' :: c :: escape free lines 0 rest
    else
      let written :=
        match c with
        | '\x08' => ['\\', 'b']
        | '\t' => ['\\', 't']
        | '\n' => if lines then [c] else ['\\', 'n']
        | '\x0c' => ['\\', 'f']
        | '\r' => ['\\', 'r']
        | '\\' => ['\\', '\\']
        | c => if needsCode c then codeOf c else [c]
      written ++ escape free lines 0 rest

/-- A text inside some quotes. -/
def write (quotes : Quotes) (text : List Char) : List Char :=
  let inner :=
    match quotes with
    | .basic => escape 0 false 0 text
    | .basicBlock => escape 2 true 0 text
    | _ => text
  let first :=
    match quotes with
    | .basicBlock | .literalBlock => if text.contains '\n' then ['\n'] else []
    | _ => []
  quotes.marks ++ first ++ inner ++ quotes.marks

end Quotes

/-- A text in its quotes. -/
def quoted (text : String) : String :=
  String.ofList ((Quotes.choose text.toList).write text.toList)

/-- A value on one line. -/
inductive Leaf where
  | text (value : String)
  | word (value : UInt64)
  | bool (value : Bool)
  | emptyList
  deriving DecidableEq, Repr

/-- A value that TOML has no room for. -/
inductive WriteError where
  | wordOutOfRange
  deriving DecidableEq, Repr

def WriteError.message : WriteError → String
  | .wordOutOfRange => "out-of-range value for u64 type"

def Leaf.write : Leaf → Except WriteError String
  | .text value => .ok (quoted value)
  | .word value =>
    if (value.toNat : Int) ≤ Int64.maxValue.toInt then .ok (toString value.toNat)
    else .error .wordOutOfRange
  | .bool value => .ok (toString value)
  | .emptyList => .ok "[]"

/-- Keys with values, under a header unless it is the first section. -/
structure Section where
  header : Option String
  lines : List (String × Leaf)
  deriving DecidableEq, Repr

namespace Section

def writeLine (key : String) (value : Leaf) : Except WriteError String := do
  return key ++ " = " ++ (← value.write) ++ "\n"

def write (part : Section) : Except WriteError String := do
  let lines ← part.lines.mapM fun (key, value) => writeLine key value
  let header :=
    match part.header with
    | some header => header ++ "\n"
    | none => ""
  return header ++ String.join lines

end Section

/-- Sections with blank lines between them; a section that says nothing is left out. -/
def write (sections : List Section) : Except WriteError String := do
  let parts ← sections.mapM Section.write
  return String.intercalate "\n" (parts.filter (!·.isEmpty))

end Cadence.Toml
