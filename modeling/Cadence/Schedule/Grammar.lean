import Cadence.Schedule.Shorthand
import Cadence.Text

/-!
Schedules as they are written: a shorthand, or five fields between blanks. A field is `?`, or items
between commas; each item selects values of its field, and the field's mask holds what any of them
selects.
-/

namespace Cadence

/-- One item of a field. -/
inductive Item where
  /-- `*` -/
  | every
  /-- `*/k` -/
  | spaced (step : Nat)
  /-- `a` -/
  | lone (value : Nat)
  /-- `a/k` -/
  | onward (start step : Nat)
  /-- `a-b/k`, where `a-b` has step 1 -/
  | range (start stop step : Nat)
  deriving DecidableEq, Repr

namespace Item

/-- Whether a number is among `low, low + step, …` up to `high`. -/
def inSpan (low high step value : Nat) : Bool :=
  low ≤ value && value ≤ high && (value - low) % step == 0

/-- Whether an item selects a number that may be written in its field. -/
def selects (field : Field) : Item → Nat → Bool
  | .every, value => inSpan field.first field.lastWritten 1 value
  | .spaced step, value => inSpan field.first field.lastWritten step value
  | .lone wanted, value => value == wanted
  | .onward start step, value => inSpan (max start field.first) field.lastWritten step value
  | .range start stop step, value =>
    inSpan (max start field.first) (min stop field.lastWritten) step value

/-- A lone value lies in its field, and a range reaches into it. -/
def isAdmissible (field : Field) : Item → Bool
  | .lone value => field.first ≤ value && value ≤ field.lastWritten
  | .range start stop _ => field.first ≤ stop && start ≤ field.lastWritten
  | _ => true

/-- Everything but a lone value is spread over its field. -/
def isSpread : Item → Bool
  | .lone _ => false
  | _ => true

def digit? (c : Char) : Option Nat :=
  if c.isDigit then some (c.toNat - '0'.toNat) else none

/-- One digit, or two where a second one follows, and the rest. -/
def number? : List Char → Option (Nat × List Char)
  | [] => none
  | c :: rest => do
    let high ← digit? c
    match rest with
    | [] => some (high, [])
    | d :: tail =>
      match digit? d with
      | some low => some (10 * high + low, tail)
      | none => some (high, d :: tail)

/-- A number, or a name of the field, and the rest. -/
def scalar? (field : Field) (text : List Char) : Option (Nat × List Char) :=
  match number? text with
  | some found => some found
  | none =>
    match text with
    | a :: b :: c :: rest => (field.valueOf? [a, b, c]).map (·, rest)
    | _ => none

/-- A step that takes up the whole text; it is not zero. -/
def step? (text : List Char) : Option Nat :=
  match number? text with
  | some (step, []) => if 0 < step then some step else none
  | _ => none

/-- What stands after the start of an item. -/
def afterStart? (field : Field) (start : Nat) : List Char → Option Item
  | [] => some (.lone start)
  | '/' :: rest => (step? rest).map (.onward start)
  | '-' :: rest =>
    match scalar? field rest with
    | some (stop, []) => some (.range start stop 1)
    | some (stop, '/' :: tail) => (step? tail).map (.range start stop)
    | _ => none
  | _ => none

/-- The item that a text spells, before its values are checked. -/
def spelled? (field : Field) : List Char → Option Item
  | ['*'] => some .every
  | '*' :: '/' :: rest => (step? rest).map .spaced
  | text => do
    let (start, rest) ← scalar? field text
    afterStart? field start rest

def ofText? (field : Field) (text : List Char) : Option Item :=
  (spelled? field text).filter (isAdmissible field)

end Item

/-- What is read from the text of one field. -/
structure Reading where
  mask : Mask
  interval : Bool
  deriving DecidableEq, Repr

namespace Field

/-- The values of a field that some item selects under one of their spellings. -/
def maskOf (field : Field) (items : List Item) : Mask :=
  Mask.ofPred fun value =>
    field.first ≤ value && value ≤ field.last
      && (field.spellings value).any fun number => items.any (·.selects field number)

/-- Reads a whole field; one in which nothing is selected is refused. -/
def reading? (field : Field) (text : List Char) : Option Reading :=
  -- the one spelling of all values that does not make an interval
  if text = ['?'] then some ⟨field.full, false⟩
  else do
    let items ← (Text.splitWhere (· == ',') text).mapM (Item.ofText? field)
    let mask := field.maskOf items
    -- single items may select nothing, all of them together may not
    if mask = 0 then none else some ⟨mask, field.isClock && items.any (·.isSpread)⟩

end Field

namespace Schedule

/-- The five fields in order: their masks, and whether one of the clock fields is an interval. -/
def fields? (minute hour dayOfMonth month dayOfWeek : List Char) : Option (Masks × Bool) := do
  let minute ← Field.minute.reading? minute
  let hour ← Field.hour.reading? hour
  let dayOfMonth ← Field.dayOfMonth.reading? dayOfMonth
  let month ← Field.month.reading? month
  let dayOfWeek ← Field.dayOfWeek.reading? dayOfWeek
  some (⟨minute.mask, hour.mask, dayOfMonth.mask, month.mask, dayOfWeek.mask⟩,
    minute.interval || hour.interval || dayOfMonth.interval || month.interval
      || dayOfWeek.interval)

/-- The masks and the flag that a text stands for. -/
def masks? (text : List Char) : Option (Masks × Bool) :=
  match Text.words text with
  | ['@' :: name] => (Shorthand.ofName? name).map fun found => (found.masks, found.isInterval)
  | [minute, hour, dayOfMonth, month, dayOfWeek] => fields? minute hour dayOfMonth month dayOfWeek
  | _ => none

/-- Reads a schedule; a text that is not one is refused as a whole. -/
def parse (text : String) : Except ScheduleError Schedule :=
  match masks? text.toList with
  | none => .error (.unreadable text)
  | some (masks, interval) =>
    match ofMasks masks interval with
    | .ok schedule => .ok schedule
    | .error _ => .error (.unreadable text)

end Schedule

end Cadence
