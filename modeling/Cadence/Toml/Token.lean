/-!
The tokens of a TOML text. Comments and blanks within a line are left out; the ends of lines are
tokens. Where no token can be read the list ends with a broken one. A token says whether it adjoins
the next where that makes a difference.
-/

namespace Cadence.Toml

inductive Token where
  | newline
  | equals
  | comma
  /-- A point, and whether it joins two words without blanks. -/
  | dot (joins : Bool)
  /-- An opening bracket, and whether another follows at once. -/
  | openList (doubled : Bool)
  /-- A closing bracket, and whether another follows at once. -/
  | closeList (doubled : Bool)
  | openTable
  | closeTable
  /-- Characters of bare keys, numbers and constants. -/
  | word (letters : List Char)
  /-- A text on one line. -/
  | text (value : List Char)
  /-- A text that may span lines; it is no key. -/
  | block (value : List Char)
  | broken
  deriving DecidableEq, Repr

namespace Token

def isWordChar (c : Char) : Bool :=
  c.isAlphanum || c == '_' || c == '-' || c == '+' || c == ':'

/-- Control characters, except the tab, do not stand in a text. -/
def isControl (c : Char) : Bool :=
  (c.toNat < 0x20 && c != '\t') || c.toNat == 0x7f

/-- The value of hexadecimal digits. -/
def hexValue? (digits : List Char) : Option Nat :=
  digits.foldlM
    (fun value c =>
      if c.isDigit then some (16 * value + (c.toNat - '0'.toNat))
      else if 'a' ≤ c ∧ c ≤ 'f' then some (16 * value + (c.toNat - 'a'.toNat + 10))
      else if 'A' ≤ c ∧ c ≤ 'F' then some (16 * value + (c.toNat - 'A'.toNat + 10))
      else none)
    0

/-- The character with a code, unless the code is a surrogate or too large. -/
def scalar? (digits : List Char) : Option Char := do
  let code ← hexValue? digits
  if code < 0xd800 ∨ (0xdfff < code ∧ code < 0x110000) then some (Char.ofNat code) else none

/-- The character that a short escape stands for. -/
def short? : Char → Option Char
  | '"' => some '"'
  | '\\' => some '\\'
  | 'b' => some '\x08'
  | 'f' => some '\x0c'
  | 'n' => some '\n'
  | 'r' => some '\r'
  | 't' => some '\t'
  | _ => none

/-- An escape after its backslash, and the rest. -/
def escape? : List Char → Option (Char × List Char)
  | 'u' :: a :: b :: c :: d :: rest => (scalar? [a, b, c, d]).map (·, rest)
  | 'U' :: a :: b :: c :: d :: e :: f :: g :: h :: rest =>
    (scalar? [a, b, c, d, e, f, g, h]).map (·, rest)
  | mark :: rest => (short? mark).map (·, rest)
  | [] => none

/-- What follows an escape is shorter than the text, by cases on its first character. -/
theorem length_of_escape? {text rest : List Char} {c : Char}
    (scanned : escape? text = some (c, rest))
    : rest.length < text.length := by
  unfold escape? at scanned
  split at scanned
  case h_4 => simp at scanned
  all_goals
    simp only [Option.map_eq_some_iff, Prod.mk.injEq] at scanned
    obtain ⟨_, _, _, rfl⟩ := scanned
    simp only [List.length_cons]
    omega

/-- The token that consists of one mark, where `next` is the character after it. -/
def ofMark? (mark : Char) (next : Option Char) : Option Token :=
  match mark with
  | '\n' => some .newline
  | '=' => some .equals
  | ',' => some .comma
  | '.' => some (.dot false)
  | '[' => some (.openList (next == some '['))
  | ']' => some (.closeList (next == some ']'))
  | '\x7b' => some .openTable
  | '\x7d' => some .closeTable
  | _ => none

/-- The characters of a word in front, and the rest. -/
def splitWord (input : List Char) : List Char × List Char :=
  (input.takeWhile isWordChar, input.dropWhile isWordChar)

/-- Behind a word there is no more text than with it. -/
theorem length_splitWord_le (input : List Char) : (splitWord input).2.length ≤ input.length :=
  (List.dropWhile_sublist _).length_le

/-- The text behind a point that joins two words. -/
def joined? : List Char → Option (List Char)
  | '.' :: c :: rest => if isWordChar c then some (c :: rest) else none
  | _ => none

/-- Behind a point there is less text, by cases. -/
theorem length_of_joined? {input rest : List Char} (found : joined? input = some rest)
    : rest.length < input.length := by
  unfold joined? at found
  split at found
  · split at found
    · simp only [Option.some.injEq] at found
      subst found
      simp
    · simp at found
  · simp at found

mutual

/-- Tokens outside texts and comments. -/
def scan (input : List Char) : List Token :=
  match input with
  | [] => []
  | '"' :: '"' :: '"' :: '\n' :: rest => scanBlock [] false rest
  | '"' :: '"' :: '"' :: rest => scanBlock [] false rest
  | '\'' :: '\'' :: '\'' :: '\n' :: rest => scanLiteralBlock [] rest
  | '\'' :: '\'' :: '\'' :: rest => scanLiteralBlock [] rest
  | '"' :: rest => scanText [] rest
  | '\'' :: rest => scanLiteral [] rest
  | '#' :: rest => scanComment rest
  | c :: rest =>
    if c = ' ' ∨ c = '\t' then scan rest
    else
      match ofMark? c rest.head? with
      | some mark => mark :: scan rest
      | none =>
        if isWordChar c then
          -- a point between two words may be that of a number
          match _point : joined? (splitWord rest).2 with
          | some behind => word (c :: (splitWord rest).1) :: dot true :: scan behind
          | none => word (c :: (splitWord rest).1) :: scan (splitWord rest).2
        else [broken]
termination_by input.length
decreasing_by
  all_goals
    have word := length_splitWord_le rest
    simp only [List.length_cons]
    first
      | omega
      | (have point := length_of_joined? ‹_›
         omega)

/-- Skips to the end of the line. -/
def scanComment (input : List Char) : List Token :=
  match input with
  | [] => []
  | '\n' :: rest => newline :: scan rest
  | c :: rest => if isControl c then [broken] else scanComment rest
termination_by input.length
decreasing_by
  all_goals
    simp only [List.length_cons]
    omega

/-- A text up to its closing double quote; its characters so far are in reverse order. -/
def scanText (before : List Char) (input : List Char) : List Token :=
  match input with
  | [] => [broken]
  | '"' :: rest => text before.reverse :: scan rest
  | '\\' :: rest =>
    match _escaped : escape? rest with
    | some (c, tail) => scanText (c :: before) tail
    | none => [broken]
  | c :: rest => if isControl c then [broken] else scanText (c :: before) rest
termination_by input.length
decreasing_by
  · simp
  · exact Nat.lt_succ_of_lt (length_of_escape? ‹_›)
  · simp

/-- A text up to its closing single quote. -/
def scanLiteral (before : List Char) (input : List Char) : List Token :=
  match input with
  | [] => [broken]
  | '\'' :: rest => text before.reverse :: scan rest
  | c :: rest => if isControl c then [broken] else scanLiteral (c :: before) rest
termination_by input.length
decreasing_by all_goals simp

/-- A text of several lines up to three closing double quotes. After a backslash at the end of a
line, `folding`, the blanks that follow are left out. -/
def scanBlock (before : List Char) (folding : Bool) (input : List Char) : List Token :=
  match input with
  | [] => [broken]
  | '"' :: '"' :: '"' :: '"' :: '"' :: rest => block ('"' :: '"' :: before).reverse :: scan rest
  | '"' :: '"' :: '"' :: '"' :: rest => block ('"' :: before).reverse :: scan rest
  | '"' :: '"' :: '"' :: rest => block before.reverse :: scan rest
  | '\\' :: '\n' :: rest => scanBlock before true rest
  | '\\' :: rest =>
    match _escaped : escape? rest with
    | some (c, tail) => scanBlock (c :: before) false tail
    | none => [broken]
  | c :: rest =>
    if folding && (c == ' ' || c == '\t' || c == '\n') then scanBlock before true rest
    else if isControl c && c != '\n' then [broken]
    else scanBlock (c :: before) false rest
termination_by input.length
decreasing_by
  all_goals
    first
      | exact Nat.lt_succ_of_lt (length_of_escape? ‹_›)
      | (simp only [List.length_cons]; omega)

/-- A text of several lines up to three closing single quotes. -/
def scanLiteralBlock (before : List Char) (input : List Char) : List Token :=
  match input with
  | [] => [broken]
  | '\'' :: '\'' :: '\'' :: '\'' :: '\'' :: rest =>
    block ('\'' :: '\'' :: before).reverse :: scan rest
  | '\'' :: '\'' :: '\'' :: '\'' :: rest => block ('\'' :: before).reverse :: scan rest
  | '\'' :: '\'' :: '\'' :: rest => block before.reverse :: scan rest
  | c :: rest => if isControl c && c != '\n' then [broken] else scanLiteralBlock (c :: before) rest
termination_by input.length
decreasing_by
  all_goals
    simp only [List.length_cons]
    omega

end

end Token

end Cadence.Toml
