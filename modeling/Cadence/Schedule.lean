import Cadence.Field.Canonical
import Cadence.Text

/-!
Schedules: five masks that say at which minutes, hours, days, months and weekdays a schedule fires,
and a flag that tells intervals from plain times of day. The flag matters only where clocks are set
back; two schedules are equal when their masks are.
-/

namespace Cadence

/-- One mask for each field. -/
structure Masks where
  minute : Mask
  hour : Mask
  dayOfMonth : Mask
  month : Mask
  dayOfWeek : Mask
  deriving DecidableEq, Repr

namespace Masks

def on (masks : Masks) : Field → Mask
  | .minute => masks.minute
  | .hour => masks.hour
  | .dayOfMonth => masks.dayOfMonth
  | .month => masks.month
  | .dayOfWeek => masks.dayOfWeek

/-- Every field has at least one value, and only values of its own. -/
def Valid (masks : Masks) : Prop :=
  ∀ field : Field, field.accepts (masks.on field)

/-- The first field whose mask is not admissible. -/
def rejected? (masks : Masks) : Option Field :=
  Field.all.find? fun field => !field.accepts (masks.on field)

/-- No field is rejected exactly when all masks are admissible, since all fields are searched. -/
theorem rejected?_eq_none_iff {masks : Masks} : masks.rejected? = none ↔ masks.Valid := by
  simp [rejected?, Valid, Field.mem_all]

instance (masks : Masks) : Decidable masks.Valid :=
  decidable_of_iff _ rejected?_eq_none_iff

/-- The masks that allow every value. -/
def full : Masks where
  minute := Field.minute.full
  hour := Field.hour.full
  dayOfMonth := Field.dayOfMonth.full
  month := Field.month.full
  dayOfWeek := Field.dayOfWeek.full

end Masks

/-- Why a schedule is refused. -/
inductive ScheduleError where
  | unreadable (text : String)
  | rejected (field : Field) (mask : Mask)
  deriving DecidableEq, Repr

namespace ScheduleError

/-- A word in hexadecimal, with its mark and without leading zeros. -/
def hex (word : UInt64) : String :=
  "0x" ++ String.ofList (Nat.toDigits 16 word.toNat)

def message : ScheduleError → String
  | .unreadable text => "invalid cron expression: " ++ Text.quoted text
  | .rejected field mask =>
    "invalid schedule record: " ++ field.name ++ " mask " ++ hex mask ++ " is empty or outside "
      ++ toString field.first ++ "..=" ++ toString field.last

end ScheduleError

/-- When something is due. -/
structure Schedule where
  masks : Masks
  /-- Whether the minute or hour was written with a step, a range or a wildcard. -/
  interval : Bool
  valid : masks.Valid
  deriving Repr

namespace Schedule

/-- Equality looks at the masks only. -/
instance : BEq Schedule where
  beq left right := left.masks == right.masks

/-- The schedule with the given masks; the first field that is empty or out of range is refused. -/
def ofMasks (masks : Masks) (interval : Bool) : Except ScheduleError Schedule :=
  match found : masks.rejected? with
  | some field => .error (.rejected field (masks.on field))
  | none => .ok ⟨masks, interval, Masks.rejected?_eq_none_iff.mp found⟩

/-- The text that stands for the masks. -/
def canonical (schedule : Schedule) : String :=
  String.intercalate " " (Field.all.map fun field => field.text (schedule.masks.on field))

/-- How many of the schedules differ from all earlier ones. -/
def countDistinct (schedules : List Schedule) : Nat :=
  (schedules.map (·.masks)).eraseDups.length

end Schedule

end Cadence
