import Cadence.Zone

/-!
Zones that are known by name. Which names are known, and what their clocks show, is not settled
here: everything that looks for a zone by its name does so in an atlas.
-/

namespace Cadence

/-- The offsets under which a wall-clock time is shown, in no particular order. -/
inductive LocalOffsets where
  | none
  | one (offset : Int)
  | two (left right : Int)
  deriving DecidableEq, Repr

/-- How a time reads that is shown under some offsets: the greater offset belongs to the earlier
moment. -/
def LocalTime.ofOffsets : LocalOffsets → LocalTime
  | .none => .skipped
  | .one offset => .valid offset
  | .two left right => if right ≤ left then .repeated left right else .repeated right left

/-- A zone as an atlas has it. -/
structure NamedZone where
  name : String
  /-- The offset at a moment, for which its counted second stands. -/
  offsetAt : Int → Int
  /-- The offsets under which a wall-clock time is shown. -/
  offsetsOf : Int → LocalOffsets

namespace NamedZone

def zone (named : NamedZone) : Zone where
  offsetAt := named.offsetAt
  classify wall := .ofOffsets (named.offsetsOf wall)

def utc : NamedZone where
  name := "UTC"
  offsetAt _ := 0
  offsetsOf _ := .one 0

end NamedZone

/-- The zones that are known by name. -/
class Atlas where
  find? : String → Option NamedZone

namespace Atlas

variable [Atlas]

def isKnown (name : String) : Bool :=
  (find? name).isSome

/-- The zone with a name; a name that is not known stands for UTC. -/
def named (name : String) : NamedZone :=
  (find? name).getD .utc

end Atlas

end Cadence
