import Cadence.Proofs.Zone.Readings
import Cadence.Proofs.Zone.Stamps
import Cadence.Zone.Rules

/-! What a zone given by rules makes of the times that its own clock shows. A moment takes
the rule of its year in standard time, and a wall-clock time takes the rule of the year that
is shown. Around New Year these years can differ; the classification then denies what the
clock shows if the rule of the year shown has another daylight time, or there is none.
-/

namespace Cadence

/-- A classification lists an offset. -/
def LocalTime.Names (offset : Int) : LocalTime → Prop
  | .skipped => False
  | .valid only => offset = only
  | .repeated first second => offset = first ∨ offset = second

namespace RuleZone

variable {zone : RuleZone}

/-- An offset of a year is standard time or the daylight time of its rule. -/
def HasOffset (zone : RuleZone) (year offset : Int) : Prop :=
  offset = zone.standard
  ∨ ∃ rule, zone.ruleFor? year = some rule ∧ zone.daylight rule = offset

/-- What the zone tells of the times that lie some nanoseconds past a second, by their seconds.
Where these nanoseconds are none, it is the zone to the second.
-/
def zoneAt (zone : RuleZone) (nano : Nanosecond) : Zone where
  offsetAt second := zone.offsetAtStamp ⟨second, nano⟩
  classify second := zone.classifyStamp ⟨second, nano⟩

variable {nano : Nanosecond}

-----------------------------------------------------------------------------------------
-- The offset at a moment
-----------------------------------------------------------------------------------------

/-- At every time of UTC an offset of its year in standard time holds. -/
theorem hasOffset_offsetAtStamp (zone : RuleZone) (time : Stamp)
    : zone.HasOffset (time.shift zone.standard).year (zone.offsetAtStamp time) := by
  generalize inForce : zone.offsetAtStamp time = offset
  simp only [offsetAtStamp] at inForce
  split at inForce
  · exact Or.inl inForce.symm
  · next rule found =>
    split at inForce
    · exact Or.inl inForce.symm
    · split at inForce
      · exact Or.inr ⟨rule, found, inForce⟩
      · exact Or.inl inForce.symm

theorem hasOffset_zoneAt (zone : RuleZone) (counted : nano.isLeap = false) (moment : Int)
    : zone.HasOffset (Clock.date (moment + zone.standard)).year
        ((zone.zoneAt nano).offsetAt moment) := by
  have offset := zone.hasOffset_offsetAtStamp ⟨moment, nano⟩
  rwa [Stamp.shift_of_counted counted] at offset

/-- Daylight time is off by less than a day, as standard time is. -/
theorem daylight_bounded (bounded : -86400 < zone.standard ∧ zone.standard < 86400)
    (rule : DaylightRule)
    : -86400 < zone.daylight rule ∧ zone.daylight rule < 86400 := by
  unfold daylight daylight? offset?
  split
  · next inRange => simpa using inRange
  · simpa using bounded

/-- All offsets are less than a day, as standard time is. -/
theorem offsetAtStamp_bounded (bounded : -86400 < zone.standard ∧ zone.standard < 86400)
    (time : Stamp)
    : -86400 < zone.offsetAtStamp time ∧ zone.offsetAtStamp time < 86400 := by
  rcases zone.hasOffset_offsetAtStamp time with standard | ⟨rule, _, daylight⟩
  · rw [standard]
    exact bounded
  · rw [← daylight]
    exact daylight_bounded bounded rule

theorem offsetAt_bounded (bounded : -86400 < zone.standard ∧ zone.standard < 86400)
    (moment : Int)
    : -86400 < zone.offsetAt moment ∧ zone.offsetAt moment < 86400 :=
  offsetAtStamp_bounded bounded _

/-- In a year of standard time only, a wall-clock time is shown in standard time. -/
theorem shows_standard (zone : RuleZone) (counted : nano.isLeap = false) (wall : Int)
    (only
      : ∀ rule,
          zone.ruleFor? (Clock.date wall).year = some rule
          → zone.daylight rule = zone.standard)
    : (zone.zoneAt nano).offsetAt (wall - zone.standard) = zone.standard := by
  have offset := zone.hasOffset_zoneAt counted (wall - zone.standard)
  rw [Int.sub_add_cancel] at offset
  rcases offset with standard | ⟨rule, found, daylight⟩
  · exact standard
  · exact daylight.symm.trans (only rule found)

-----------------------------------------------------------------------------------------
-- The classification of a wall-clock time
-----------------------------------------------------------------------------------------

theorem shows_iff (zone : RuleZone) (counted : nano.isLeap = false) (wall offset : Int)
    : zone.shows ⟨wall, nano⟩ offset = true
      ↔ (zone.zoneAt nano).offsetAt (wall - offset) = offset := by
  rw [shows, Stamp.shift_of_counted counted, beq_iff_eq, Int.sub_eq_add_neg]
  rfl

/-- The classification lists those offsets of the year shown under which the time is shown:
it tries them all.
-/
theorem names_zoneAt_iff (zone : RuleZone) (counted : nano.isLeap = false) (wall offset : Int)
    : ((zone.zoneAt nano).classify wall).Names offset
      ↔ (zone.zoneAt nano).offsetAt (wall - offset) = offset
        ∧ zone.HasOffset (Clock.date wall).year offset := by
  have shown := zone.shows_standard counted wall
  have reads := zone.shows_iff counted wall
  have classified : (zone.zoneAt nano).classify wall = zone.classifyStamp ⟨wall, nano⟩ := rfl
  rw [classified, classifyStamp, HasOffset]
  simp only [Stamp.year]
  generalize (zone.zoneAt nano).offsetAt = inForce at shown reads ⊢
  cases found : zone.ruleFor? (Clock.date wall).year with
  | none =>
      simp only [LocalTime.Names, reduceCtorEq, false_and, exists_false, or_false]
      constructor
      · rintro rfl
        exact ⟨shown (by simp [found]), rfl⟩
      · exact And.right
  | some rule =>
      simp only [Option.some.injEq, exists_eq_left']
      split
      · next same =>
        simp only [LocalTime.Names, same]
        constructor
        · rintro rfl
          exact ⟨shown (by simp [found, same]), Or.inl rfl⟩
        · rintro ⟨_, rfl | rfl⟩ <;> rfl
      · next differ =>
        -- one of the two offsets is the greater, the other the smaller one
        have both (candidate : Int)
            : candidate = zone.standard ∨ zone.daylight rule = candidate
              ↔ candidate = max (zone.daylight rule) zone.standard
                ∨ candidate = min (zone.daylight rule) zone.standard := by
          omega
        have apart : max (zone.daylight rule) zone.standard
            ≠ min (zone.daylight rule) zone.standard := by
          omega
        rw [both]
        generalize max (zone.daylight rule) zone.standard = high at apart ⊢
        generalize min (zone.daylight rule) zone.standard = low at apart ⊢
        cases underHigh : zone.shows ⟨wall, nano⟩ high <;>
          cases underLow : zone.shows ⟨wall, nano⟩ low <;>
          grind [LocalTime.Names]

/-- Of two offsets listed for a wall-clock time, the greater comes first. -/
theorem lt_of_classifyStamp_eq_repeated {wall : Stamp} {first second : Int}
    (classified : zone.classifyStamp wall = .repeated first second)
    : second < first := by
  simp only [classifyStamp] at classified
  split at classified
  · cases classified
  · split at classified
    · cases classified
    · split at classified <;> cases classified
      omega

/-- If the year shown has the offset in force at every reading of a wall-clock time, the
classification lists exactly its readings.
-/
theorem describes_zoneAt (counted : nano.isLeap = false) {wall : Int}
    (known
      : ∀ instant,
          (zone.zoneAt nano).wallAt instant = wall
          → zone.HasOffset (Clock.date wall).year ((zone.zoneAt nano).offsetAt instant))
    : (zone.zoneAt nano).Describes wall ((zone.zoneAt nano).classify wall) := by
  have names := zone.names_zoneAt_iff counted wall
  have ordered (first second : Int)
      (classified : (zone.zoneAt nano).classify wall = .repeated first second)
      : second < first :=
    lt_of_classifyStamp_eq_repeated classified
  generalize zone.zoneAt nano = fine at known names ordered ⊢
  have reading (instant : Int)
      : fine.wallAt instant = wall
        ↔ instant = wall - fine.offsetAt instant
          ∧ (fine.classify wall).Names (fine.offsetAt instant) := by
    constructor
    · intro shown
      have year := known instant shown
      have same : instant = wall - fine.offsetAt instant := by
        rw [Zone.wallAt] at shown
        omega
      exact ⟨same, (names _).mpr ⟨congrArg fine.offsetAt same.symm, year⟩⟩
    · rintro ⟨same, _⟩
      rw [Zone.wallAt]
      omega
  have shown (offset : Int) (listed : (fine.classify wall).Names offset)
      : fine.offsetAt (wall - offset) = offset :=
    ((names offset).mp listed).1
  cases classified : fine.classify wall with
  | skipped =>
      simp only [classified, LocalTime.Names, and_false, iff_false] at reading
      exact reading
  | valid offset =>
      simp only [classified, LocalTime.Names] at reading shown
      refine ⟨wall - offset, shown offset rfl, ?_⟩
      intro instant
      have inForce := shown offset rfl
      rw [reading]
      constructor
      · rintro ⟨same, rfl⟩
        exact same
      · rintro rfl
        exact ⟨by rw [inForce], inForce⟩
  | repeated first second =>
      have greater := ordered first second classified
      simp only [classified, LocalTime.Names] at reading shown
      have early := shown first (Or.inl rfl)
      have late := shown second (Or.inr rfl)
      refine ⟨wall - first, wall - second, by omega, early, late, ?_⟩
      intro instant
      rw [reading]
      constructor
      · rintro ⟨same, offset | offset⟩ <;> rw [offset] at same <;> simp [same]
      · rintro (rfl | rfl)
        · exact ⟨by rw [early], Or.inl early⟩
        · exact ⟨by rw [late], Or.inr late⟩

-----------------------------------------------------------------------------------------
-- Whole seconds
-----------------------------------------------------------------------------------------

theorem names_classify_iff (zone : RuleZone) (wall offset : Int)
    : (zone.classify wall).Names offset
      ↔ zone.offsetAt (wall - offset) = offset
        ∧ zone.HasOffset (Clock.date wall).year offset :=
  zone.names_zoneAt_iff rfl wall offset

/-- Two in the morning, when most clocks are changed. -/
def twoOClock : TimeOfDay :=
  .ofSecond 7200

def oneOClock : TimeOfDay :=
  .ofSecond 3600

def threeOClock : TimeOfDay :=
  .ofSecond 10800

def eightInTheEvening : TimeOfDay :=
  .ofSecond 72000

/-- Daylight time from October of a year, and until April of it. -/
def overNewYear (year delta : Int) : DaylightRule where
  firstYear := year
  lastYear := year
  delta
  start := .fixed 10 1 twoOClock
  stop := .fixed 4 1 threeOClock

/-- A zone whose daylight time turns from one hour to two with the year. -/
def deepening : RuleZone where
  name := "Seam"
  standard := 0
  rules := [overNewYear 2020 3600, overNewYear 2021 7200]

end RuleZone

end Cadence
