import Cadence.Mask
import Cadence.Text

/-!
The five fields of a schedule: which values each may take, how they are named, and which masks are
admissible for it.
-/

namespace Cadence

inductive Field where
  | minute
  | hour
  | dayOfMonth
  | month
  | dayOfWeek
  deriving DecidableEq, Repr

namespace Field

/-- The fields in the order in which they are written. -/
def all : List Field :=
  [.minute, .hour, .dayOfMonth, .month, .dayOfWeek]

/-- Every field is listed, by cases. -/
theorem mem_all (field : Field) : field ∈ all := by
  cases field <;> decide

def name : Field → String
  | .minute => "minute"
  | .hour => "hour"
  | .dayOfMonth => "day-of-month"
  | .month => "month"
  | .dayOfWeek => "day-of-week"

def ofName? (text : String) : Option Field :=
  all.find? (·.name == text)

/-- The least value. -/
def first : Field → Nat
  | .minute | .hour | .dayOfWeek => 0
  | .dayOfMonth | .month => 1

/-- The greatest value. -/
def last : Field → Nat
  | .minute => 59
  | .hour => 23
  | .dayOfMonth => 31
  | .month => 12
  | .dayOfWeek => 6

/-- The greatest value that may be written: in a day of the week, 7 is Sunday once more. -/
def lastWritten : Field → Nat
  | .dayOfWeek => 7
  | field => field.last

/-- The numbers that may be written for a value. -/
def spellings : Field → Nat → List Nat
  | .dayOfWeek, 0 => [0, 7]
  | _, value => [value]

/-- Minute and hour tell the time of day; only their syntax can make a schedule an interval. -/
def isClock : Field → Bool
  | .minute | .hour => true
  | _ => false

/-- The three-letter names of the values, from the least value on. -/
def names : Field → List String
  | .month => ["JAN", "FEB", "MAR", "APR", "MAY", "JUN", "JUL", "AUG", "SEP", "OCT", "NOV", "DEC"]
  | .dayOfWeek => ["SUN", "MON", "TUE", "WED", "THU", "FRI", "SAT"]
  | _ => []

/-- The value with the given name, in either case. -/
def valueOf? (field : Field) (text : List Char) : Option Nat :=
  (field.names.findIdx? fun known => Text.sameLetters known.toList text).map (field.first + ·)

/-- The mask of all values. -/
def full (field : Field) : Mask :=
  (((1 : Mask) <<< (field.last - field.first + 1).toUInt64) - 1) <<< field.first.toUInt64

/-- Whether a mask is non-empty and holds values of this field only. -/
def accepts (field : Field) (mask : Mask) : Bool :=
  mask != 0 && mask &&& ~~~field.full == 0

end Field

end Cadence
