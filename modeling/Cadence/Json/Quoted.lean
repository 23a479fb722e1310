import Cadence.Tree

/-!
Texts in JSON. Quotes, backslashes and control characters are escaped; other characters may be
escaped too, as one or two sixteen-bit units. A unit that is half of a pair without its other half
leaves a text that is in good form but cannot be read.
-/

namespace Cadence.Json.Quoted

/-- A part of a text between quotes. -/
inductive Piece where
  | char (c : Char)
  | unit (code : Nat)
  deriving DecidableEq, Repr

def hexValue? (c : Char) : Option Nat :=
  if c.isDigit then some (c.toNat - '0'.toNat)
  else if 'a' ≤ c ∧ c ≤ 'f' then some (c.toNat - 'a'.toNat + 10)
  else if 'A' ≤ c ∧ c ≤ 'F' then some (c.toNat - 'A'.toNat + 10)
  else none

def unit? (a b c d : Char) : Option Nat := do
  let a ← hexValue? a
  let b ← hexValue? b
  let c ← hexValue? c
  let d ← hexValue? d
  some (((a * 16 + b) * 16 + c) * 16 + d)

/-- The character that a short escape stands for. -/
def short? : Char → Option Char
  | '"' => some '"'
  | '\\' => some '\\'
  | '/' => some '/'
  | 'b' => some '\x08'
  | 'f' => some '\x0c'
  | 'n' => some '\n'
  | 'r' => some '\r'
  | 't' => some '\t'
  | _ => none

/-- The parts up to the closing quote, and the rest. -/
def scan? : List Char → Option (List Piece × List Char)
  | [] => none
  | '"' :: rest => some ([], rest)
  | '\\' :: 'u' :: a :: b :: c :: d :: rest => do
    let code ← unit? a b c d
    let (pieces, tail) ← scan? rest
    some (.unit code :: pieces, tail)
  | '\\' :: mark :: rest => do
    let c ← short? mark
    let (pieces, tail) ← scan? rest
    some (.char c :: pieces, tail)
  | c :: rest =>
    if c.toNat < 0x20 then none
    else do
      let (pieces, tail) ← scan? rest
      some (.char c :: pieces, tail)

/-- A quoted text ends at a quotation mark, so what follows it is shorter. -/
theorem length_of_scan? {text rest : List Char} {pieces : List Piece}
    (scanned : scan? text = some (pieces, rest))
    : rest.length < text.length := by
  fun_induction scan? text generalizing pieces with
  | case1 => simp at scanned
  | case2 => simp_all
  | case3 a b c d tail ih =>
    simp only [Option.bind_eq_bind, Option.bind_eq_some_iff, Prod.exists, Option.some.injEq,
      Prod.mk.injEq] at scanned
    obtain ⟨_, _, _, _, inner, _, rfl⟩ := scanned
    have shorter := ih inner
    simp only [List.length_cons]
    omega
  | case4 mark tail _ ih =>
    simp only [Option.bind_eq_bind, Option.bind_eq_some_iff, Prod.exists, Option.some.injEq,
      Prod.mk.injEq] at scanned
    obtain ⟨_, _, _, _, inner, _, rfl⟩ := scanned
    have shorter := ih inner
    simp only [List.length_cons]
    omega
  | case5 => simp at scanned
  | case6 c tail _ _ _ _ ih =>
    simp only [Option.bind_eq_bind, Option.bind_eq_some_iff, Prod.exists, Option.some.injEq,
      Prod.mk.injEq] at scanned
    obtain ⟨_, _, inner, _, rfl⟩ := scanned
    have shorter := ih inner
    simp only [List.length_cons]
    omega

def isHigh (code : Nat) : Bool :=
  0xd800 ≤ code && code ≤ 0xdbff

def isLow (code : Nat) : Bool :=
  0xdc00 ≤ code && code ≤ 0xdfff

/-- Joins the units of each pair; a lone half is refused. -/
def join? : List Piece → Option (List Char)
  | [] => some []
  | .char c :: rest => (join? rest).map (c :: ·)
  | .unit high :: .unit low :: rest =>
    if isHigh high && isLow low then
      (join? rest).map (Char.ofNat (0x10000 + (high - 0xd800) * 0x400 + (low - 0xdc00)) :: ·)
    else if isHigh high || isLow high then none
    else (join? (.unit low :: rest)).map (Char.ofNat high :: ·)
  | .unit code :: rest =>
    if isHigh code || isLow code then none else (join? rest).map (Char.ofNat code :: ·)

/-- The text that some parts spell, if it can be read. -/
def text? (pieces : List Piece) : Option String :=
  (join? pieces).map String.ofList

/-- The four hexadecimal digits of a control character. -/
def controlDigits (c : Char) : List Char :=
  let digits := Nat.toDigits 16 c.toNat
  List.replicate (4 - digits.length) '0' ++ digits

/-- How a character is written between quotes. -/
def escape (c : Char) : List Char :=
  match c with
  | '"' => ['\\', '"']
  | '\\' => ['\\', '\\']
  | '\x08' => ['\\', 'b']
  | '\x0c' => ['\\', 'f']
  | '\n' => ['\\', 'n']
  | '\r' => ['\\', 'r']
  | '\t' => ['\\', 't']
  | c => if c.toNat < 0x20 then ['\\', 'u'] ++ controlDigits c else [c]

def write (text : String) : List Char :=
  '"' :: text.toList.flatMap escape ++ ['"']

end Cadence.Json.Quoted
