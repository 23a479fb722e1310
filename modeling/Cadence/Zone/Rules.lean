import Cadence.Stamp
import Cadence.Zone

/-!
Zones described by a standard offset and rules for daylight time. A rule covers a range of years and
names the wall-clock times of the year at which daylight time starts and ends; a year without a rule
keeps standard time throughout. The times of the year may have a fraction of a second, so that
offsets and readings are told to the nanosecond; a schedule asks for whole seconds only.
-/

namespace Cadence

/-- A time of the year, on the wall clock. -/
inductive YearlyTime where
  /-- The same date every year. -/
  | fixed (month day : Nat) (time : TimeOfDay)
  /-- The `week`-th `weekday` of a month, counted from Sunday as 0; week 5 is the last one. -/
  | floating (month week : Nat) (weekday : Fin 7) (time : TimeOfDay)
  deriving DecidableEq, Repr

namespace YearlyTime

/-- The years in which times of the year have dates. -/
def firstYear : Int := -262143

def lastYear : Int := 262142

def dateIn? (year : Int) (month day : Nat) : Option Date :=
  if firstYear ≤ year ∧ year ≤ lastYear then Date.of? year month day else none

/-- Days from a date to the next given weekday, the date itself included. -/
def daysUntil (date : Date) (weekday : Fin 7) : Nat :=
  (weekday.val + 7 - date.weekday) % 7

def timeOfDay : YearlyTime → TimeOfDay
  | .fixed _ _ time => time
  | .floating _ _ _ time => time

/-- The whole second of the wall-clock time in a year. -/
def wallIn? (year : Int) : YearlyTime → Option Int
  | .fixed month day time => (dateIn? year month day).map (Clock.on · time)
  | .floating month week weekday time =>
    if 1 ≤ week ∧ week ≤ 5 then do
      let first ← dateIn? year month 1
      let day := week * 7 - 6 + daysUntil first weekday
      let date ← (dateIn? year month day).or (dateIn? year month (day - 7))
      some (Clock.on date time)
    else none

/-- The wall-clock time in a year. -/
def stampIn? (year : Int) (time : YearlyTime) : Option Stamp :=
  (time.wallIn? year).map (⟨·, time.timeOfDay.nano⟩)

/-- Whether there is such a time in every year; 2001 is a year without a leap day. -/
def isYearly : YearlyTime → Bool
  | .fixed month day _ => (dateIn? 2001 month day).isSome
  | .floating month week _ _ => 1 ≤ month && month ≤ 12 && 1 ≤ week && week ≤ 5

end YearlyTime

/-- Daylight time in a range of years. -/
structure DaylightRule where
  firstYear : Int
  lastYear : Int
  /-- Seconds that daylight time is ahead of standard time. -/
  delta : Int
  /-- The start of daylight time, on a clock that shows standard time. -/
  start : YearlyTime
  /-- The end of daylight time, on a clock that shows daylight time. -/
  stop : YearlyTime
  deriving DecidableEq, Repr

namespace DaylightRule

def covers (rule : DaylightRule) (year : Int) : Bool :=
  rule.firstYear ≤ year && year ≤ rule.lastYear

/-- Whether two rules share a year. -/
def overlaps (left right : DaylightRule) : Bool :=
  left.firstYear ≤ right.lastYear && right.firstYear ≤ left.lastYear

end DaylightRule

/-- Why a rule is refused. -/
inductive RuleFault where
  | emptyYears (rule : DaylightRule)
  | overlap (rule other : DaylightRule)
  | delta (rule : DaylightRule)
  | undated
  deriving DecidableEq, Repr

/-- A rule that a zone refuses. -/
structure RuleError where
  zone : String
  fault : RuleFault
  deriving DecidableEq, Repr

namespace RuleError

def years (rule : DaylightRule) : String :=
  toString rule.firstYear ++ "..=" ++ toString rule.lastYear

def reason : RuleFault → String
  | .emptyYears rule => "rule years " ++ years rule ++ " are empty"
  | .overlap rule other => "rule years " ++ years rule ++ " overlap " ++ years other
  | .delta rule => "daylight delta " ++ toString rule.delta ++ "s is out of range"
  | .undated => "transition does not name a date every year"

def message (error : RuleError) : String :=
  "invalid zone rule: " ++ error.zone ++ ": " ++ reason error.fault

end RuleError

/-- A standard offset and the rules added to it so far. -/
structure RuleZone where
  name : String
  standard : Int
  rules : List DaylightRule
  deriving DecidableEq, Repr

namespace RuleZone

/-- A zone without rules. -/
def bare (name : String) (standard : Int) : RuleZone :=
  ⟨name, standard, []⟩

/-- Offsets are less than a day. -/
def offset? (seconds : Int) : Option Int :=
  if -86400 < seconds ∧ seconds < 86400 then some seconds else none

/-- The offset of daylight time under a rule, if it is one. -/
def daylight? (zone : RuleZone) (rule : DaylightRule) : Option Int :=
  offset? (zone.standard + rule.delta)

/-- Adds a rule, unless its years are empty or taken, its offset is out of range, or one of its
times is missing in some year. -/
def add (zone : RuleZone) (rule : DaylightRule) : Except RuleError RuleZone :=
  if rule.lastYear < rule.firstYear then .error ⟨zone.name, .emptyYears rule⟩
  else
    match zone.rules.find? (·.overlaps rule) with
    | some other => .error ⟨zone.name, .overlap rule other⟩
    | none =>
      if (zone.daylight? rule).isNone then .error ⟨zone.name, .delta rule⟩
      else if !rule.start.isYearly || !rule.stop.isYearly then .error ⟨zone.name, .undated⟩
      else .ok { zone with rules := zone.rules ++ [rule] }

/-- Adds rules one after the other. -/
def addAll (zone : RuleZone) (rules : List DaylightRule) : Except RuleError RuleZone :=
  rules.foldlM add zone

/-- The rule of a year. -/
def ruleFor? (zone : RuleZone) (year : Int) : Option DaylightRule :=
  zone.rules.find? (·.covers year)

/-- The offset of daylight time under a rule. -/
def daylight (zone : RuleZone) (rule : DaylightRule) : Int :=
  (zone.daylight? rule).getD zone.standard

/-- The times of UTC at which daylight time starts and ends in a year. -/
def changes? (zone : RuleZone) (rule : DaylightRule) (year : Int) : Option (Stamp × Stamp) := do
  let start ← rule.start.stampIn? year
  let stop ← rule.stop.stampIn? year
  some (start.shift (-zone.standard), stop.shift (-zone.daylight rule))

/-- Whether a time lies between two changes; if the second comes first, daylight time spans the turn
of the year. -/
def isBetween {α : Type} [LE α] [LT α] [DecidableLE α] [DecidableLT α] (start stop time : α)
    : Bool :=
  if start ≤ stop then start ≤ time && time < stop else time < stop || start ≤ time

/-- The offset at a time of UTC: the rule is that of the year in standard time. -/
def offsetAtStamp (zone : RuleZone) (time : Stamp) : Int :=
  let year := (time.shift zone.standard).year
  match zone.ruleFor? year with
  | none => zone.standard
  | some rule =>
    match zone.changes? rule year with
    | none => zone.standard
    | some (start, stop) =>
      if isBetween start stop time then zone.daylight rule else zone.standard

/-- Whether a wall-clock time is shown under an offset. -/
def shows (zone : RuleZone) (wall : Stamp) (offset : Int) : Bool :=
  zone.offsetAtStamp (wall.shift (-offset)) == offset

/-- How a wall-clock time reads: under the greater offset, the smaller one, both or neither. -/
def classifyStamp (zone : RuleZone) (wall : Stamp) : LocalTime :=
  match zone.ruleFor? wall.year with
  | none => .valid zone.standard
  | some rule =>
    let daylight := zone.daylight rule
    -- a rule without a difference never moves the clock
    if daylight = zone.standard then .valid zone.standard
    else
      let high := max daylight zone.standard
      let low := min daylight zone.standard
      match zone.shows wall high, zone.shows wall low with
      | true, true => .repeated high low
      | true, false => .valid high
      | false, true => .valid low
      | false, false => .skipped

/-- The offset at a counted second. -/
def offsetAt (zone : RuleZone) (moment : Int) : Int :=
  zone.offsetAtStamp (.ofSecond moment)

/-- How the start of a second reads. -/
def classify (zone : RuleZone) (wall : Int) : LocalTime :=
  zone.classifyStamp (.ofSecond wall)

/-- The zone to the second. In a leap second it has the offset of the counted second before it,
although it may be another year by standard time then, with another rule. -/
def zone (zone : RuleZone) : Zone where
  offsetAt := zone.offsetAt
  classify := zone.classify

/-- The window of a wall-clock time that is read twice, whose end is looked for among the whole
seconds from those of its readings on. -/
def windowOfStamp? (zone : RuleZone) (wall : Stamp) : Option Window :=
  match zone.classifyStamp wall with
  | .repeated first second =>
    let early := (wall.shift (-first)).second
    let late := (wall.shift (-second)).second
    some (zone.zone.windowBetween first second early late)
  | _ => none

end RuleZone

end Cadence
