import Cadence.Text.Unprintable

/-!
Texts: white space and the words between it, letters compared without regard to case, and text
quoted for a message. A character is blank when Unicode gives it the property `White_Space`; control
separators and zero-width characters are not blank. Only the ASCII letters have two cases here. A
quoted text stands between double quotes, on one line, with everything that could not be seen
written as an escape.
-/

namespace Cadence.Text

/-- The ranges of characters with the property `White_Space`. -/
def blankRanges : List (Nat × Nat) :=
  [(0x09, 0x0d), (0x20, 0x20), (0x85, 0x85), (0xa0, 0xa0), (0x1680, 0x1680), (0x2000, 0x200a),
    (0x2028, 0x2029), (0x202f, 0x202f), (0x205f, 0x205f), (0x3000, 0x3000)]

def isBlank (c : Char) : Bool :=
  blankRanges.any fun (first, last) => first ≤ c.toNat && c.toNat ≤ last

/-- The texts between the characters that satisfy `separates`, empty ones included. -/
def splitWhere (separates : Char → Bool) : List Char → List (List Char)
  | [] => [[]]
  | c :: rest =>
    match splitWhere separates rest with
    | [] => [[c]]
    | piece :: pieces => if separates c then [] :: piece :: pieces else (c :: piece) :: pieces

/-- The maximal runs of characters that are not blank. -/
def words (text : List Char) : List (List Char) :=
  (splitWhere isBlank text).filter (!·.isEmpty)

/-- Whether nothing is left of a text once its blanks are removed. -/
def isAllBlank (text : String) : Bool :=
  text.toList.all isBlank

/-- Whether two texts differ at most in the case of ASCII letters. -/
def sameLetters (left right : List Char) : Bool :=
  left.map Char.toLower == right.map Char.toLower

/-- The digits of a character's code, in lower-case hexadecimal. -/
def codeDigits (c : Char) : List Char :=
  Nat.toDigits 16 c.toNat

/-- How a character is written between quotes. -/
def escape (c : Char) : List Char :=
  match c with
  | '\x00' => ['\\', '0']
  | '\t' => ['\\', 't']
  | '\n' => ['\\', 'n']
  | '\r' => ['\\', 'r']
  | '"' => ['\\', '"']
  | '\\' => ['\\', '\\']
  | c => if isUnprintable c then ['\\', 'u', '\x7b'] ++ codeDigits c ++ ['\x7d'] else [c]

def quoted (text : String) : String :=
  String.ofList ('"' :: text.toList.flatMap escape ++ ['"'])

end Cadence.Text
