import Cadence.Json.Numeral
import Cadence.Json.Quoted

/-! The tokens of a JSON text. Where no token can be read the list ends with a broken one. -/

namespace Cadence.Json

inductive Token where
  | openList
  | closeList
  | openTable
  | closeTable
  | comma
  | colon
  /-- A text, if it can be read. -/
  | text (value : Option String)
  /-- A constant or a number. -/
  | leaf (value : Tree)
  | broken

namespace Token

def isSpace (c : Char) : Bool :=
  c == ' ' || c == '\n' || c == '\t' || c == '\r'

/-- The token that consists of one mark. -/
def ofMark? : Char → Option Token
  | '[' => some .openList
  | ']' => some .closeList
  | '\x7b' => some .openTable
  | '\x7d' => some .closeTable
  | ',' => some .comma
  | ':' => some .colon
  | _ => none

/-- A constant, number or text at the start of a text, and the rest. -/
def value? : List Char → Option (Token × List Char)
  | 'n' :: 'u' :: 'l' :: 'l' :: rest => some (.leaf .null, rest)
  | 't' :: 'r' :: 'u' :: 'e' :: rest => some (.leaf (.bool true), rest)
  | 'f' :: 'a' :: 'l' :: 's' :: 'e' :: rest => some (.leaf (.bool false), rest)
  | '"' :: rest =>
    (Quoted.scan? rest).map fun (pieces, tail) => (.text (Quoted.text? pieces), tail)
  | other => (Numeral.scan? other).map fun (numeral, tail) => (.leaf numeral.tree, tail)

/-- A word, number or text shortens what is left, by cases on its kind. -/
theorem length_of_value? {text rest : List Char} {token : Token}
    (scanned : value? text = some (token, rest))
    : rest.length < text.length := by
  unfold value? at scanned
  split at scanned
  case h_4 =>
    simp only [Option.map_eq_some_iff, Prod.exists, Prod.mk.injEq] at scanned
    obtain ⟨_, _, inner, _, rfl⟩ := scanned
    exact Nat.lt_succ_of_lt (Quoted.length_of_scan? inner)
  case h_5 =>
    simp only [Option.map_eq_some_iff, Prod.exists, Prod.mk.injEq] at scanned
    obtain ⟨_, _, inner, _, rfl⟩ := scanned
    exact Numeral.length_of_scan? inner
  all_goals
    simp only [Option.some.injEq, Prod.mk.injEq] at scanned
    obtain ⟨_, rfl⟩ := scanned
    simp only [List.length_cons]
    omega

def scan (text : List Char) : List Token :=
  match text with
  | [] => []
  | c :: rest =>
    if isSpace c then scan rest
    else
      match ofMark? c with
      | some mark => mark :: scan rest
      | none =>
        match _scanned : value? (c :: rest) with
        | some (token, tail) => token :: scan tail
        | none => [.broken]
termination_by text.length
decreasing_by
  · exact Nat.lt_succ_self _
  · exact Nat.lt_succ_self _
  · exact length_of_value? ‹_›

end Token

end Cadence.Json
