import Cadence.Tree

/-!
Numbers in JSON. One without fraction and exponent is an integer if a machine word can hold it, with
or without a sign; every other one is a float, made from the leading digits that fit a word and a
power of ten.
-/

namespace Cadence.Json

/-- A number as it is written. -/
structure Numeral where
  negative : Bool
  whole : List Char
  fraction : Option (List Char)
  exponent : Option Int
  deriving DecidableEq, Repr

namespace Numeral

def digits (text : List Char) : List Char :=
  text.takeWhile Char.isDigit

def afterDigits (text : List Char) : List Char :=
  text.dropWhile Char.isDigit

/-- Digits in front are dropped, so nothing is added. -/
theorem length_afterDigits_le (text : List Char) : (afterDigits text).length ≤ text.length :=
  (List.dropWhile_sublist _).length_le

/-- A sign, and the rest. -/
def sign (text : List Char) : Bool × List Char :=
  match text with
  | '-' :: rest => (true, rest)
  | rest => (false, rest)

/-- The digits before the point; no further digit follows a leading zero. -/
def whole? (text : List Char) : Option (List Char × List Char) :=
  match digits text with
  | [] => none
  | '0' :: _ :: _ => none
  | found => some (found, afterDigits text)

def fraction? (text : List Char) : Option (Option (List Char) × List Char) :=
  match text with
  | '.' :: rest =>
    if (digits rest).isEmpty then none else some (some (digits rest), afterDigits rest)
  | rest => some (none, rest)

def power? (negative : Bool) (text : List Char) : Option (Option Int × List Char) :=
  if (digits text).isEmpty then none
  else
    let size : Int := Nat.ofDigitChars 10 (digits text) 0
    some (some (if negative then -size else size), afterDigits text)

def exponent? (text : List Char) : Option (Option Int × List Char) :=
  match text with
  | [] => some (none, [])
  | mark :: rest =>
    if mark = 'e' ∨ mark = 'E' then
      match rest with
      | '+' :: tail => power? false tail
      | '-' :: tail => power? true tail
      | tail => power? false tail
    else some (none, mark :: rest)

/-- A number at the start of a text, and the rest. -/
def scan? (text : List Char) : Option (Numeral × List Char) := do
  let (whole, rest) ← whole? (sign text).2
  let (fraction, rest) ← fraction? rest
  let (exponent, rest) ← exponent? rest
  some (⟨(sign text).1, whole, fraction, exponent⟩, rest)

/-- At most the sign is dropped. -/
theorem length_sign_le (text : List Char) : (sign text).2.length ≤ text.length := by
  unfold sign
  split <;> simp

/-- A whole part has a digit, so what follows it is shorter. -/
theorem length_of_whole? {text found rest : List Char} (scanned : whole? text = some (found, rest))
    : rest.length < text.length := by
  unfold whole? at scanned
  split at scanned
  · simp at scanned
  · simp at scanned
  · next nonempty _ =>
    simp only [Option.some.injEq, Prod.mk.injEq] at scanned
    obtain ⟨_, rfl⟩ := scanned
    cases text with
    | nil => exact absurd rfl nonempty
    | cons c tail =>
      unfold digits at nonempty
      rw [List.takeWhile_cons] at nonempty
      split at nonempty
      · next isDigit =>
        simp only [afterDigits, List.dropWhile_cons, isDigit, if_true, List.length_cons]
        exact Nat.lt_succ_of_le (length_afterDigits_le tail)
      · exact absurd rfl nonempty

/-- A fraction, if there is one, only shortens what is left. -/
theorem length_of_fraction? {text rest : List Char} {found : Option (List Char)}
    (scanned : fraction? text = some (found, rest))
    : rest.length ≤ text.length := by
  unfold fraction? at scanned
  split at scanned
  · next tail =>
    split at scanned
    · simp at scanned
    · simp only [Option.some.injEq, Prod.mk.injEq] at scanned
      obtain ⟨_, rfl⟩ := scanned
      exact Nat.le_succ_of_le (length_afterDigits_le tail)
  · simp only [Option.some.injEq, Prod.mk.injEq] at scanned
    exact scanned.2 ▸ Nat.le_refl _

/-- A power drops its digits, so nothing is added. -/
theorem length_of_power? {negative : Bool} {text rest : List Char} {found : Option Int}
    (scanned : power? negative text = some (found, rest))
    : rest.length ≤ text.length := by
  unfold power? at scanned
  split at scanned
  · simp at scanned
  · simp only [Option.some.injEq, Prod.mk.injEq] at scanned
    obtain ⟨_, rfl⟩ := scanned
    exact length_afterDigits_le text

/-- An exponent, if there is one, only shortens what is left. -/
theorem length_of_exponent? {text rest : List Char} {found : Option Int}
    (scanned : exponent? text = some (found, rest))
    : rest.length ≤ text.length := by
  unfold exponent? at scanned
  split at scanned
  · simp only [Option.some.injEq, Prod.mk.injEq] at scanned
    exact scanned.2 ▸ Nat.le_refl _
  · split at scanned
    · split at scanned
      · exact Nat.le_succ_of_le (Nat.le_succ_of_le (length_of_power? scanned))
      · exact Nat.le_succ_of_le (Nat.le_succ_of_le (length_of_power? scanned))
      · exact Nat.le_succ_of_le (length_of_power? scanned)
    · simp only [Option.some.injEq, Prod.mk.injEq] at scanned
      exact scanned.2 ▸ Nat.le_refl _

/-- A number shortens what is left, by its whole part. -/
theorem length_of_scan? {text rest : List Char} {numeral : Numeral}
    (scanned : scan? text = some (numeral, rest))
    : rest.length < text.length := by
  simp only [scan?, Option.bind_eq_bind, Option.bind_eq_some_iff, Prod.exists, Option.some.injEq,
    Prod.mk.injEq] at scanned
  obtain ⟨_, afterWhole, whole, _, afterFraction, fraction, _, afterExponent, exponent, _, rfl⟩ :=
    scanned
  have signed := length_sign_le text
  have first := length_of_whole? whole
  have second := length_of_fraction? fraction
  have third := length_of_exponent? exponent
  omega

def digitValue (c : Char) : Nat :=
  c.toNat - '0'.toNat

/-- The leading digits that fit a word, and how many digits do not. -/
def fill (word : Nat) : List Char → Nat × Nat
  | [] => (word, 0)
  | c :: rest =>
    if 10 * word + digitValue c < UInt64.size then fill (10 * word + digitValue c) rest
    else (word, rest.length + 1)

/-- `x · 10^power`, by one multiplication or division where a float can hold the power. -/
def scale (x : Float) (power : Int) : Option Float :=
  if x == 0 then some x
  else if 308 < power then none
  else if 0 ≤ power then
    let scaled := x * Float.ofScientific 1 false power.toNat
    if scaled.isInf then none else some scaled
  else if -308 ≤ power then some (x / Float.ofScientific 1 false (-power).toNat)
  -- no float holds the power, so a part of it goes first
  else scale (x / 1e308) (power + 308)
termination_by (-power).toNat
decreasing_by omega

/-- The float that a number stands for, unless it is out of bounds. -/
def float? (numeral : Numeral) : Option Float :=
  let (word, dropped) := fill 0 numeral.whole
  let fraction := numeral.fraction.getD []
  let (word, unused) := fill word fraction
  let power : Int := dropped - (fraction.length - unused : Nat) + numeral.exponent.getD 0
  (scale word.toUInt64.toFloat power).map fun x => if numeral.negative then -x else x

/-- The integer that a number stands for, if it is written as one and not as a negative zero. -/
def integer? (numeral : Numeral) : Option Int :=
  let size := Nat.ofDigitChars 10 numeral.whole 0
  if numeral.fraction.isSome || numeral.exponent.isSome then none
  else if numeral.negative then
    if 0 < size ∧ Int64.minValue.toInt ≤ -(size : Int) then some (-(size : Int)) else none
  else if size < UInt64.size then some size
  else none

def tree (numeral : Numeral) : Tree :=
  match numeral.integer? with
  | some value => .integer value
  | none =>
    match numeral.float? with
    | some value => .real value
    | none => .unreadable

end Numeral

end Cadence.Json
