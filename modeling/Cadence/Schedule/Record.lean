import Cadence.Json.Reader
import Cadence.Json.Writer
import Cadence.Tree.Shape

/-!
Schedules as records: the five masks and the interval flag under short keys. Reading takes the
members in any order, or a list of the six values, and nothing else; the masks are checked last.
-/

namespace Cadence

/-- What is known of a record while it is read. -/
structure RecordDraft where
  minute : Option UInt64
  hour : Option UInt64
  dayOfMonth : Option UInt64
  month : Option UInt64
  dayOfWeek : Option UInt64
  interval : Option Bool

namespace RecordDraft

def empty : RecordDraft :=
  ⟨none, none, none, none, none, none⟩

def maskSlot (key : String) (get : RecordDraft → Option UInt64)
    (put : RecordDraft → UInt64 → RecordDraft)
    : Slot RecordDraft where
  key := key
  required := true
  isSet draft := (get draft).isSome
  set draft tree := (tree.word? "u64").map (put draft)

def shape : Shape RecordDraft where
  title := "ScheduleRecord"
  slots :=
    [maskSlot "m" (·.minute) fun draft mask => { draft with minute := some mask },
      maskSlot "h" (·.hour) fun draft mask => { draft with hour := some mask },
      maskSlot "dm" (·.dayOfMonth) fun draft mask => { draft with dayOfMonth := some mask },
      maskSlot "M" (·.month) fun draft mask => { draft with month := some mask },
      maskSlot "dw" (·.dayOfWeek) fun draft mask => { draft with dayOfWeek := some mask },
      { key := "i"
        required := true
        isSet := fun draft => draft.interval.isSome
        set := fun draft tree =>
          tree.bool?.map fun interval => { draft with interval := some interval } }]
  strict := true
  surplus := .refused

/-- The schedule of a complete draft. -/
def schedule? (draft : RecordDraft) : Except Problem Schedule := do
  let minute ← need "m" draft.minute
  let hour ← need "h" draft.hour
  let dayOfMonth ← need "dm" draft.dayOfMonth
  let month ← need "M" draft.month
  let dayOfWeek ← need "dw" draft.dayOfWeek
  let interval ← need "i" draft.interval
  (Schedule.ofMasks ⟨minute, hour, dayOfMonth, month, dayOfWeek⟩ interval).mapError .badSchedule

end RecordDraft

namespace Schedule

def record (schedule : Schedule) : Tree :=
  .named
    [("m", .integer schedule.masks.minute.toNat),
      ("h", .integer schedule.masks.hour.toNat),
      ("dm", .integer schedule.masks.dayOfMonth.toNat),
      ("M", .integer schedule.masks.month.toNat),
      ("dw", .integer schedule.masks.dayOfWeek.toNat),
      ("i", .bool schedule.interval)]

def ofRecord (tree : Tree) : Except Problem Schedule := do
  let draft ← RecordDraft.shape.read .empty tree
  draft.schedule?

/-- The JSON text that a schedule is kept as. -/
def writeRecord (schedule : Schedule) : String :=
  Json.write schedule.record

/-- Reads a schedule from the JSON text that it is kept as. -/
def readRecord (text : String) : Except Problem Schedule :=
  Json.parse ofRecord text

end Schedule

end Cadence
