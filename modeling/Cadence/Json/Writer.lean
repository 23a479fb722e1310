import Cadence.Json.Quoted
import Cadence.Tree.Problem

/-!
Trees as JSON texts, on one line or indented by two spaces for each level. A tree that breaks off is
written as far as it goes.
-/

namespace Cadence.Json

def constant (value : Bool) : List Char :=
  if value then ['t', 'r', 'u', 'e'] else ['f', 'a', 'l', 's', 'e']

def integer (value : Int) : List Char :=
  (toString value).toList

/-- The name of a member. -/
def name (key : Option String) : List Char :=
  key.elim [] Quoted.write

mutual

def compact : Tree → List Char
  | .null => ['n', 'u', 'l', 'l']
  | .bool value => constant value
  | .integer value => integer value
  | .real value => (Decimal.text value).toList
  | .text value => Quoted.write value
  | .list items closed => '[' :: compactItems items ++ if closed then [']'] else []
  | .table members closed => '\x7b' :: compactMembers members ++ if closed then ['\x7d'] else []
  | .unreadable | .fault => []

def compactItems : List Tree → List Char
  | [] => []
  | [item] => compact item
  | item :: items => compact item ++ ',' :: compactItems items

def compactMembers : List (Option String × Tree) → List Char
  | [] => []
  | [(key, value)] => name key ++ ':' :: compact value
  | (key, value) :: members =>
    name key ++ ':' :: compact value ++ ',' :: compactMembers members

end

/-- A new line at some level. -/
def line (level : Nat) : List Char :=
  '\n' :: List.replicate (2 * level) ' '

mutual

def pretty (level : Nat) : Tree → List Char
  | .null => ['n', 'u', 'l', 'l']
  | .bool value => constant value
  | .integer value => integer value
  | .real value => (Decimal.text value).toList
  | .text value => Quoted.write value
  | .list [] closed => '[' :: if closed then [']'] else []
  | .list (item :: items) closed =>
    '[' :: prettyItems (level + 1) (item :: items) ++ if closed then line level ++ [']'] else []
  | .table [] closed => '\x7b' :: if closed then ['\x7d'] else []
  | .table (member :: members) closed =>
    '\x7b' :: prettyMembers (level + 1) (member :: members)
      ++ if closed then line level ++ ['\x7d'] else []
  | .unreadable | .fault => []

def prettyItems (level : Nat) : List Tree → List Char
  | [] => []
  | [item] => line level ++ pretty level item
  | item :: items => line level ++ pretty level item ++ ',' :: prettyItems level items

def prettyMembers (level : Nat) : List (Option String × Tree) → List Char
  | [] => []
  | [(key, value)] => line level ++ name key ++ [':', ' '] ++ pretty level value
  | (key, value) :: members =>
    line level ++ name key ++ [':', ' '] ++ pretty level value
      ++ ',' :: prettyMembers level members

end

/-- The text of a tree on one line. -/
def write (tree : Tree) : String :=
  String.ofList (compact tree)

/-- The text of a tree over several lines. -/
def writeIndented (tree : Tree) : String :=
  String.ofList (pretty 0 tree)

end Cadence.Json
