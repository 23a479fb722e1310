/-!
Binary fractions as decimals: the fewest digits that read back as the same number, and among those
the nearest. A finite double is `m · 2^q`; the reals that round to it form an interval whose ends
lie half way to its neighbours and belong to it when `m` is even. On each decimal grid, coarsest
first, only the two points around the number can lie in the interval.
-/

namespace Cadence.Decimal

/-- The number `digits · 10^exponent`. -/
structure Scaled where
  digits : Nat
  exponent : Int
  deriving DecidableEq, Repr

/-- A finite positive double and the interval that rounds to it, as fractions over one divisor. -/
structure Binade where
  low : Nat
  value : Nat
  high : Nat
  divisor : Nat
  /-- Whether the ends of the interval belong to it. -/
  closed : Bool
  deriving Repr

/-- The leading bit of `m`, which is the 53rd unless the number is very small. -/
def leadingBit : Nat := Nat.pow 2 52

/-- The interval of `m · 2^q`; below a power of two the neighbours are closer. -/
def Binade.of (m : Nat) (q : Int) : Binade :=
  let below := if m = leadingBit then 1 else 2
  let up := Nat.pow 2 q.toNat
  { low := (4 * m - below) * up, value := 4 * m * up, high := (4 * m + 2) * up,
    divisor := 4 * Nat.pow 2 (-q).toNat, closed := m % 2 = 0 }

/-- The multiple of `10^exponent` with the given digits, over the divisor of a binade. -/
def Binade.scale (binade : Binade) (exponent : Int) (digits : Nat) : Nat × Nat :=
  (digits * Nat.pow 10 exponent.toNat * binade.divisor, Nat.pow 10 (-exponent).toNat)

def Binade.contains (binade : Binade) (exponent : Int) (digits : Nat) : Bool :=
  let (point, unit) := binade.scale exponent digits
  if binade.closed then binade.low * unit ≤ point && point ≤ binade.high * unit
  else binade.low * unit < point && point < binade.high * unit

/-- The points of a grid around the number that read back as it, the nearer one preferred. -/
def Binade.onGrid? (binade : Binade) (exponent : Int) : Option Scaled :=
  let floor := binade.value * Nat.pow 10 (-exponent).toNat
    / (Nat.pow 10 exponent.toNat * binade.divisor)
  let (lower, unit) := binade.scale exponent floor
  let (upper, _) := binade.scale exponent (floor + 1)
  let value := binade.value * unit
  let below := binade.contains exponent floor && floor != 0
  let above := binade.contains exponent (floor + 1)
  if below && (!above || value - lower < upper - value
      || (value - lower == upper - value && floor % 2 == 0)) then
    some ⟨floor, exponent⟩
  else if above then some ⟨floor + 1, exponent⟩
  else none

/-- The exponent of the leading digit of a positive fraction, give or take one. -/
def magnitude (value divisor : Nat) : Int :=
  (Nat.toDigits 10 value).length - (Nat.toDigits 10 divisor).length

/-- The shortest decimal of a binade: seventeen digits always suffice. -/
def Binade.shortest (binade : Binade) : Scaled :=
  let lead := magnitude binade.value binade.divisor + 1
  let grids := (List.range 20).map fun (places : Nat) => lead - places
  (grids.findSome? binade.onGrid?).getD ⟨binade.value, 0⟩

/-- The shortest decimal of the absolute value of a finite float. -/
def shortest (x : Float) : Scaled :=
  let bits : Nat := x.toBits.toNat
  let biased : Nat := bits / leadingBit % 2048
  let fraction : Nat := bits % leadingBit
  -- without an exponent there is no leading bit
  if biased = 0 then
    if fraction = 0 then ⟨0, 0⟩ else (Binade.of fraction (-1074)).shortest
  else (Binade.of (leadingBit + fraction) ((biased : Int) - 1075)).shortest

/-- How a decimal is laid out. -/
structure Layout where
  /-- Positional from this power of ten on. -/
  least : Int
  /-- Positional up to this power of ten. -/
  greatest : Int

/-- Writes `digits · 10^exponent`; a whole number keeps one decimal, and the exponent of a power of
ten has a sign. -/
def Layout.write (layout : Layout) (number : Scaled) : List Char :=
  if number.digits = 0 then ['0', '.', '0']
  else
    let digits := Nat.toDigits 10 number.digits
    let point : Int := digits.length + number.exponent
    if layout.least < point && point ≤ layout.greatest + 1 then
      if point ≤ 0 then ['0', '.'] ++ List.replicate (-point).toNat '0' ++ digits
      else
        let whole := digits.take point.toNat
        let part := digits.drop point.toNat
        whole ++ List.replicate (point.toNat - whole.length) '0' ++ ['.']
          ++ (if part.isEmpty then ['0'] else part)
    else
      let power := point - 1
      let mantissa :=
        match digits with
        | first :: rest => if rest.isEmpty then [first] else first :: '.' :: rest
        | [] => []
      mantissa ++ ['e', if power < 0 then '-' else '+']
        ++ Nat.toDigits 10 power.natAbs

/-- Numbers in messages: positional from `10^-5` up to `10^16`. -/
def message : Layout where
  least := -5
  greatest := 15

/-- The text of a finite float. -/
def text (x : Float) : String :=
  let unsigned := message.write (shortest x)
  String.ofList (if x.toBits < 0x8000000000000000 then unsigned else '-' :: unsigned)

end Cadence.Decimal
