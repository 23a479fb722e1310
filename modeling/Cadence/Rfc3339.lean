import Cadence.Moment

/-!
Times as RFC 3339 writes them. Seconds of an offset are rounded to whole minutes, a half away from
zero. In reading, a fraction of a second is dropped, and second 60 is a leap second.
-/

namespace Cadence.Rfc3339

/-- Decimal digits, with zeros in front up to a width. -/
def padded (width : Nat) (value : Nat) : List Char :=
  let digits := Nat.toDigits 10 value
  List.replicate (width - digits.length) '0' ++ digits

/-- A year has four digits; one that needs more, or lies before year 0, has a sign. -/
def year (value : Int) : List Char :=
  if 0 ≤ value ∧ value ≤ 9999 then padded 4 value.toNat
  else (if value < 0 then '-' else '+') :: padded 4 value.natAbs

/-- Hours and minutes with a sign. -/
def offset (seconds : Int) : List Char :=
  let minutes := (seconds.natAbs + 30) / 60
  (if seconds < 0 then '-' else '+') :: padded 2 (minutes / 60) ++ ':' :: padded 2 (minutes % 60)

/-- A wall-clock time without its offset. -/
def wall (time : Int) : List Char :=
  let date := Clock.date time
  year date.year ++ '-' :: padded 2 date.month ++ '-' :: padded 2 date.day
    ++ 'T' :: padded 2 (Clock.hour time) ++ ':' :: padded 2 (Clock.minute time)
    ++ ':' :: padded 2 (Clock.second time)

/-- A wall-clock time with its offset. -/
def write (time seconds : Int) : String :=
  String.ofList (wall time ++ offset seconds)

/-- A wall-clock time with its offset, where no offset is `Z`. -/
def writeZulu (time seconds : Int) : String :=
  String.ofList (wall time ++ if seconds = 0 then ['Z'] else offset seconds)

/-- The value of digits only. -/
def number? (text : List Char) : Option Nat :=
  if text.all Char.isDigit then some (Nat.ofDigitChars 10 text 0) else none

/-- The offset in seconds that a text spells as a whole. -/
def offset? : List Char → Option Int
  | ['Z'] | ['z'] => some 0
  | [sign, a, b, ':', c, d] => do
    let hours ← number? [a, b]
    let minutes ← number? [c, d]
    let size : Int := hours * 3600 + minutes * 60
    if 23 < hours ∨ 59 < minutes then none
    else if sign = '+' then some size
    else if sign = '-' ∨ sign = '−' then some (-size)
    else none
  | _ => none

/-- The text without a fraction of a second in front; a point needs digits. -/
def afterFraction? (text : List Char) : Option (List Char) :=
  match text with
  | '.' :: rest =>
    match rest with
    | c :: _ => if c.isDigit then some (rest.dropWhile Char.isDigit) else none
    | [] => none
  | _ => some text

/-- The moment that a text spells as a whole. -/
def moment? (text : List Char) : Option Moment := do
  match text with
  | y₁ :: y₂ :: y₃ :: y₄ :: '-' :: m₁ :: m₂ :: '-' :: d₁ :: d₂ :: mark
    :: h₁ :: h₂ :: ':' :: n₁ :: n₂ :: ':' :: s₁ :: s₂ :: rest =>
    let year ← number? [y₁, y₂, y₃, y₄]
    let month ← number? [m₁, m₂]
    let day ← number? [d₁, d₂]
    let hour ← number? [h₁, h₂]
    let minute ← number? [n₁, n₂]
    let second ← number? [s₁, s₂]
    if mark = 'T' ∨ mark = 't' ∨ mark = ' ' then
      let time ← Clock.of? year month day hour minute (if second = 60 then 59 else second)
      let seconds ← offset? (← afterFraction? rest)
      some ⟨time - seconds, second = 60⟩
    else none
  | _ => none

end Cadence.Rfc3339
