import Cadence.Json.Token
import Cadence.Tree.Problem

/-!
JSON texts as trees. What is open around the present place is kept on a stack of frames, so that the
reader can stop at any token and still give the tree of all that came before.
-/

namespace Cadence.Json

/-- A list or table that is being read; its parts so far are in reverse order. -/
inductive Frame where
  | list (items : List Tree)
  | table (members : List (Option String × Tree)) (key : Option String)

/-- The tree of a text that stops inside some frames, around an unfinished value. -/
def abandon : List Frame → Tree → Tree
  | [], inner => inner
  | .list items :: frames, inner => abandon frames (.list (inner :: items).reverse false)
  | .table members key :: frames, inner =>
    abandon frames (.table ((key, inner) :: members).reverse false)

mutual

/-- Reads a value inside some frames; returns the tree of the text and the tokens after it. -/
def readValue (frames : List Frame) : List Token → Tree × List Token
  | .text (some value) :: rest => finish frames (.text value) rest
  | .text none :: rest => finish frames .unreadable rest
  | .leaf value :: rest => finish frames value rest
  | .openList :: .closeList :: rest => finish frames (.list [] true) rest
  | .openList :: rest => readValue (.list [] :: frames) rest
  | .openTable :: .closeTable :: rest => finish frames (.table [] true) rest
  | .openTable :: rest => readKey frames [] rest
  | _ => (abandon frames .fault, [])

/-- Reads the key of a member and then its value. -/
def readKey (frames : List Frame) (members : List (Option String × Tree))
    : List Token → Tree × List Token
  | .text key :: .colon :: rest => readValue (.table members key :: frames) rest
  | .text key :: _ => (abandon (.table members key :: frames) .fault, [])
  | _ => (abandon frames (.table members.reverse false), [])

/-- Goes on after a value. -/
def finish (frames : List Frame) (value : Tree) (tokens : List Token) : Tree × List Token :=
  match frames with
  | [] => (value, tokens)
  | .list items :: frames =>
    match tokens with
    | .comma :: rest => readValue (.list (value :: items) :: frames) rest
    | .closeList :: rest => finish frames (.list (value :: items).reverse true) rest
    | _ => (abandon frames (.list (value :: items).reverse false), [])
  | .table members key :: frames =>
    match tokens with
    | .comma :: rest => readKey frames ((key, value) :: members) rest
    | .closeTable :: rest => finish frames (.table ((key, value) :: members).reverse true) rest
    | _ => (abandon frames (.table ((key, value) :: members).reverse false), [])

end

/-- Reads a value from a JSON text. What `read` finds wrong comes before what follows the value. -/
def parse {α : Type} (read : Tree → Except Problem α) (text : String) : Except Problem α := do
  let (tree, rest) := readValue [] (Token.scan text.toList)
  let value ← read tree
  if rest.isEmpty then .ok value else .error .malformed

end Cadence.Json
