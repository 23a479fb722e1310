import Cadence.Decimal.Shortest
import Cadence.Schedule
import Cadence.Tree

/-! What can be wrong with a tree that should describe a value of some kind. -/

namespace Cadence

/-- What stands where something else is expected. -/
inductive Found where
  | null
  | bool (value : Bool)
  | integer (value : Int)
  | real (value : Float)
  | text (value : String)
  | list
  | table

namespace Found

def message : Found → String
  | .null => "null"
  | .bool value => "boolean `" ++ toString value ++ "`"
  | .integer value => "integer `" ++ toString value ++ "`"
  | .real value => "floating point `" ++ Decimal.text value ++ "`"
  | .text value => "string " ++ Text.quoted value
  | .list => "sequence"
  | .table => "map"

end Found

inductive Problem where
  /-- The text is not well formed. -/
  | malformed
  | unknownField (name : String) (known : List String)
  | duplicateField (name : String)
  | missingField (name : String)
  | wrongType (found : Found) (expected : String)
  | wrongValue (found : Found) (expected : String)
  | wrongLength (found : Nat) (title : String) (fields : Nat)
  | badSchedule (error : ScheduleError)

namespace Problem

def message : Problem → String
  | .malformed => "malformed text"
  | .unknownField name known =>
    "unknown field `" ++ name ++ "`, expected one of "
      ++ String.intercalate ", " (known.map fun field => "`" ++ field ++ "`")
  | .duplicateField name => "duplicate field `" ++ name ++ "`"
  | .missingField name => "missing field `" ++ name ++ "`"
  | .wrongType found expected => "invalid type: " ++ found.message ++ ", expected " ++ expected
  | .wrongValue found expected => "invalid value: " ++ found.message ++ ", expected " ++ expected
  | .wrongLength found title fields =>
    "invalid length " ++ toString found ++ ", expected struct " ++ title ++ " with "
      ++ toString fields ++ " elements"
  | .badSchedule error => error.message

end Problem

namespace Tree

def found? : Tree → Option Found
  | .null => some .null
  | .bool value => some (.bool value)
  | .integer value => some (.integer value)
  | .real value => some (.real value)
  | .text value => some (.text value)
  | .list _ _ => some .list
  | .table _ _ => some .table
  | .unreadable | .fault => none

/-- A tree that is not of the expected kind. -/
def mismatch (tree : Tree) (expected : String) : Problem :=
  match tree.found? with
  | some found => .wrongType found expected
  | none => .malformed

end Tree

end Cadence
