/-!
Structured text as a tree, read as far as it is well formed. The place where a text stops being well
formed is itself part of the tree: a list or table that breaks off is not closed, and a value that
breaks off is a fault. A name, text or number may also be in good form and still stand for nothing,
which matters to those only who need it. Whoever walks the tree in the order of the text meets the
problems of form and those of content in that order.
-/

namespace Cadence

inductive Tree where
  | null
  | bool (value : Bool)
  | integer (value : Int)
  | real (value : Float)
  | text (value : String)
  | list (items : List Tree) (closed : Bool)
  /-- A member whose name stands for nothing has none. -/
  | table (members : List (Option String × Tree)) (closed : Bool)
  /-- A value in good form that stands for nothing, such as a number without bounds. -/
  | unreadable
  /-- The place where the text stops being well formed. -/
  | fault
  deriving Inhabited

namespace Tree

/-- A whole table. -/
def named (members : List (String × Tree)) : Tree :=
  .table (members.map fun (key, value) => (some key, value)) true

mutual

/-- Whether a tree holds the whole of a well-formed text. -/
def isSound : Tree → Bool
  | .list items closed => areSound items && closed
  | .table members closed => membersAreSound members && closed
  | .fault => false
  | _ => true

def areSound : List Tree → Bool
  | [] => true
  | item :: items => item.isSound && areSound items

def membersAreSound : List (Option String × Tree) → Bool
  | [] => true
  | (_, value) :: members => value.isSound && membersAreSound members

end

end Tree

end Cadence
