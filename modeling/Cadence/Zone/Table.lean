import Cadence.Clock
import Cadence.Zone.Named

/-!
Zones given by tables: the offset in force at first, and each later change with the offset from then
on.
-/

namespace Cadence

/-- A zone given by its changes of offset, in the order of time. -/
structure ZoneTable where
  name : String
  initial : Int
  /-- The moment of each change, and the offset from then on. -/
  changes : List (Int × Int)
  deriving DecidableEq, Repr

namespace ZoneTable

/-- The offset at a moment. -/
def offsetAt (table : ZoneTable) (moment : Int) : Int :=
  table.changes.foldl (fun offset (start, next) => if start ≤ moment then next else offset)
    table.initial

/-- The offsets that ever hold. -/
def offsets (table : ZoneTable) : List Int :=
  (table.initial :: table.changes.map (·.2)).eraseDups

/-- The offsets under which a wall-clock time is shown; of more than two, the first two. -/
def offsetsOf (table : ZoneTable) (wall : Int) : LocalOffsets :=
  match table.offsets.filter fun offset => table.offsetAt (wall - offset) == offset with
  | [] => .none
  | [offset] => .one offset
  | one :: other :: _ => .two one other

def named (table : ZoneTable) : NamedZone where
  name := table.name
  offsetAt := table.offsetAt
  offsetsOf := table.offsetsOf

/-- The moment whose year, month, day, hour, minute and second are written one after the other. -/
def moment (digits : Nat) : Int :=
  (Clock.of? (digits / 10000000000 : Nat) (digits / 100000000 % 100) (digits / 1000000 % 100)
    (digits / 10000 % 100) (digits / 100 % 100) (digits % 100)).getD 0

/-- A table whose moments are written as digits. -/
def ofDigits (name : String) (initial : Int) (changes : List (Nat × Int)) : ZoneTable :=
  ⟨name, initial, changes.map fun (digits, offset) => (moment digits, offset)⟩

end ZoneTable

end Cadence
