import Cadence.Tree

/-!
Numbers and constants in TOML. Integers have 64 bits with a sign; single underscores may stand
between digits.
-/

namespace Cadence.Toml.Scalar

/-- The digits of a number without the underscores between them. -/
def plainDigits? (isDigit : Char → Bool) : List Char → Option (List Char)
  | [] => none
  | [c] => if isDigit c then some [c] else none
  | c :: '_' :: rest =>
    if isDigit c then (plainDigits? isDigit rest).map (c :: ·) else none
  | c :: rest => if isDigit c then (plainDigits? isDigit rest).map (c :: ·) else none

def isHexDigit (c : Char) : Bool :=
  c.isDigit || ('a' ≤ c && c ≤ 'f') || ('A' ≤ c && c ≤ 'F')

def digitValue (c : Char) : Nat :=
  if c.isDigit then c.toNat - '0'.toNat else c.toLower.toNat - 'a'.toNat + 10

def valueOf (base : Nat) (digits : List Char) : Nat :=
  digits.foldl (fun value c => base * value + digitValue c) 0

/-- A decimal number without a sign; it has no leading zero. -/
def decimal? (letters : List Char) : Option Nat := do
  match letters with
  | '0' :: _ :: _ => none
  | _ => return valueOf 10 (← plainDigits? Char.isDigit letters)

/-- A sign, and the rest. -/
def sign (letters : List Char) : Bool × List Char :=
  match letters with
  | '-' :: rest => (true, rest)
  | '+' :: rest => (false, rest)
  | rest => (false, rest)

def integer? (letters : List Char) : Option Int := do
  let value : Int ←
    match letters with
    | '0' :: 'x' :: rest => (plainDigits? isHexDigit rest).map fun ds => (valueOf 16 ds : Int)
    | '0' :: 'o' :: rest =>
      (plainDigits? (fun c => '0' ≤ c && c ≤ '7') rest).map fun ds => (valueOf 8 ds : Int)
    | '0' :: 'b' :: rest =>
      (plainDigits? (fun c => c == '0' || c == '1') rest).map fun ds => (valueOf 2 ds : Int)
    | _ =>
      (decimal? (sign letters).2).map fun size => if (sign letters).1 then -(size : Int) else size
  if Int64.minValue.toInt ≤ value ∧ value ≤ Int64.maxValue.toInt then some value else none

def isExponentMark (c : Char) : Bool :=
  c == 'e' || c == 'E'

/-- The part of a number before its exponent, and the exponent. -/
def splitExponent? (letters : List Char) : Option (List Char × Int) :=
  match letters.dropWhile (!isExponentMark ·) with
  | [] => some (letters, 0)
  | _ :: power => do
    let digits ← plainDigits? Char.isDigit (sign power).2
    let size : Int := valueOf 10 digits
    some (letters.takeWhile (!isExponentMark ·), if (sign power).1 then -size else size)

/-- `digits · 10^power`, unless it is too great for a float. -/
def scaled? (negative : Bool) (digits : Nat) (power : Int) : Option Float :=
  -- beyond these bounds every float is zero or infinite anyway
  let bound : Int := 400 + (Nat.toDigits 10 digits).length
  let size :=
    if power < 0 then Float.ofScientific digits true (min (-power) bound).toNat
    else Float.ofScientific digits false (min power bound).toNat
  if negative then some (-size) else if size.isInf then none else some size

/-- A number with an exponent, an infinity, or no number at all. -/
def float? (letters : List Char) : Option Float := do
  let (negative, size) := sign letters
  if size = ['i', 'n', 'f'] then some (if negative then -1.0 / 0.0 else 1.0 / 0.0)
  else if size = ['n', 'a', 'n'] then some (0.0 / 0.0)
  else if size.any isExponentMark then
    let (whole, power) ← splitExponent? size
    let digits ← decimal? whole
    scaled? negative digits power
  else none

/-- A number with a point between two parts. -/
def pointed? (before after : List Char) : Option Float := do
  let (negative, size) := sign before
  let whole ← decimal? size
  let (fraction, power) ← splitExponent? after
  let digits ← plainDigits? Char.isDigit fraction
  let places := digits.length
  scaled? negative (whole * Nat.pow 10 places + valueOf 10 digits) (power - places)

/-- The value that one word stands for. -/
def ofWord? (letters : List Char) : Option Tree :=
  if letters = ['t', 'r', 'u', 'e'] then some (.bool true)
  else if letters = ['f', 'a', 'l', 's', 'e'] then some (.bool false)
  else ((integer? letters).map Tree.integer).or ((float? letters).map Tree.real)

end Cadence.Toml.Scalar
