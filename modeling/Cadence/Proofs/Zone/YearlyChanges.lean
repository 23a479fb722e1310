import Cadence.Proofs.Zone.SpacedTimes

/-! Clocks that are changed twice a year. Where one rule covers a year and its neighbours, and
its times keep five days from each other and from New Year, the year's own times tell the
offset for two days beyond the year as well. So the times of the year that are skipped or
repeated are those that the clock passes over or runs through again at its two changes, and
the window of a repeated time ends at the change. All this holds to the nanosecond: the times
that lie as many nanoseconds past a second are considered together, by their seconds.
-/

namespace Cadence

namespace RuleZone

/-- A moment is between two changes if it is after the first and before the second, which is
not required of changes that come in the other order.
-/
theorem isBetween_iff {start stop moment : Int}
    : isBetween start stop moment
      ↔ (start ≤ stop ∧ start ≤ moment ∧ moment < stop)
        ∨ (stop < start ∧ (moment < stop ∨ start ≤ moment)) := by
  rw [isBetween]
  split
  · simp only [Bool.and_eq_true, decide_eq_true_eq]
    omega
  · simp only [Bool.or_eq_true, decide_eq_true_eq]
    omega

/-- Changes that are not reached at once can be compared by the seconds at which they are
reached.
-/
theorem isBetween_arrival {start stop : Stamp} {nano : Nanosecond}
    (apart : start.arrival nano ≠ stop.arrival nano) (second : Int)
    : isBetween start stop ⟨second, nano⟩
      = isBetween (start.arrival nano) (stop.arrival nano) second := by
  have ordered : start ≤ stop ↔ start.arrival nano ≤ stop.arrival nano := by
    constructor
    · exact fun before => Stamp.arrival_le_arrival before nano
    · intro before
      by_contra after
      have reversed := Stamp.arrival_le_arrival (Stamp.le_of_lt (Stamp.not_le.mp after)) nano
      exact apart (Int.le_antisymm before reversed)
  simp only [isBetween, ordered, ← Stamp.arrival_le_iff, ← Stamp.lt_arrival_iff]

/-- One rule governs a year and both its neighbours, moves the clock, and has its times in
different months, five days from each other and from New Year.
-/
structure Governs (zone : RuleZone) (rule : DaylightRule) (year : Int) : Prop where
  bounded : -86400 < zone.standard ∧ zone.standard < 86400
  daylightBounded : -86400 < zone.standard + rule.delta ∧ zone.standard + rule.delta < 86400
  daylight : zone.daylight rule = zone.standard + rule.delta
  moves : rule.delta ≠ 0
  months : rule.start.month ≠ rule.stop.month
  found : ∀ near, year - 1 ≤ near → near ≤ year + 1 → zone.ruleFor? near = some rule
  times
    : ∀ near,
        year - 1 ≤ near → near ≤ year + 1 → ∃ start stop, rule.TimesIn near start stop

variable {zone : RuleZone} {rule : DaylightRule} {year : Int} {start stop : Stamp}
  {nano : Nanosecond}

namespace Governs

/-- The rule moves the clock by less than two days. -/
theorem shift_bounds (governs : zone.Governs rule year)
    : -172800 < rule.delta ∧ rule.delta < 172800 := by
  have bounded := governs.bounded
  have daylightBounded := governs.daylightBounded
  omega

/-- The times of a year are five days from each other, in whichever order. -/
theorem apart (governs : zone.Governs rule year) {near : Int}
    (times : rule.TimesIn near start stop) (nano : Nanosecond)
    : start.arrival nano + 432000 ≤ stop.arrival nano
      ∨ stop.arrival nano + 432000 ≤ start.arrival nano := by
  rcases Nat.lt_or_gt_of_ne governs.months with northern | southern
  · exact Or.inl (times.northern northern nano)
  · exact Or.inr (times.southern southern nano)

/-- In the two days around New Year, the times of both years agree on daylight time: all of
them are further away, and in both years they come in the order of their months.
-/
theorem isBetween_iff_of_neighbour (governs : zone.Governs rule year) {old new : Int}
    {oldStart oldStop newStart newStop : Stamp} {moment : Int} (next : new = old + 1)
    (times : rule.TimesIn old oldStart oldStop) (timesToo : rule.TimesIn new newStart newStop)
    (since : Clock.newYear new - 172800 ≤ moment + zone.standard)
    (until_ : moment + zone.standard < Clock.newYear new + 172800)
    : isBetween (oldStart.arrival nano - zone.standard)
          (oldStop.arrival nano - (zone.standard + rule.delta)) moment
      ↔ isBetween (newStart.arrival nano - zone.standard)
          (newStop.arrival nano - (zone.standard + rule.delta)) moment := by
  subst next
  have shift := governs.shift_bounds
  have startOld := times.startInside nano
  have stopOld := times.stopInside nano
  have startNew := timesToo.startInside nano
  have stopNew := timesToo.stopInside nano
  simp only [isBetween_iff]
  rcases Nat.lt_or_gt_of_ne governs.months with northern | southern
  · have before := times.northern northern nano
    have beforeToo := timesToo.northern northern nano
    omega
  · have after := times.southern southern nano
    have afterToo := timesToo.southern southern nano
    omega

/-- In a governed year the offset is told by the seconds at which the year's times are reached.
-/
theorem offsetAt_of_times (governs : zone.Governs rule year) {near : Int}
    (since : year - 1 ≤ near) (until_ : near ≤ year + 1)
    (times : rule.TimesIn near start stop) (counted : nano.isLeap = false) {moment : Int}
    (shown : (Clock.date (moment + zone.standard)).year = near)
    : (zone.zoneAt nano).offsetAt moment
      = if isBetween (start.arrival nano - zone.standard)
            (stop.arrival nano - (zone.standard + rule.delta)) moment
        then zone.standard + rule.delta else zone.standard := by
  have found := governs.found near since until_
  have shift := governs.shift_bounds
  have apart := governs.apart times nano
  have sameYear : ((⟨moment, nano⟩ : Stamp).shift zone.standard).year = near := by
    rw [Stamp.shift_of_counted counted]
    exact shown
  have starts := Stamp.arrival_shift times.startCounted (-zone.standard) nano
  have stops := Stamp.arrival_shift times.stopCounted (-(zone.standard + rule.delta)) nano
  rw [← Int.sub_eq_add_neg] at starts stops
  have inForce := offsetAtStamp_of_rule sameYear found times.starts times.stops
  rw [governs.daylight, isBetween_arrival (by omega), starts, stops] at inForce
  exact inForce

/-- From two days before a year to two days after it, the times of the year tell the offset,
since they agree with those of the neighbours there.
-/
theorem offsetAt_eq (governs : zone.Governs rule year) (times : rule.TimesIn year start stop)
    (counted : nano.isLeap = false) {moment : Int}
    (since : Clock.newYear year - 172800 ≤ moment + zone.standard)
    (until_ : moment + zone.standard < Clock.newYear (year + 1) + 172800)
    : (zone.zoneAt nano).offsetAt moment
      = if isBetween (start.arrival nano - zone.standard)
            (stop.arrival nano - (zone.standard + rule.delta)) moment
        then zone.standard + rule.delta else zone.standard := by
  generalize shown : (Clock.date (moment + zone.standard)).year = near
  obtain ⟨begun, unfinished⟩ := Clock.year_eq_iff.mp shown
  have previous := Clock.newYear_succ (year - 1)
  rw [Int.sub_add_cancel] at previous
  have next := Clock.newYear_succ (year + 1)
  have notBefore := Clock.year_lt_iff (moment + zone.standard) (year - 1)
  have notAfter := Clock.year_lt_iff (moment + zone.standard) (year + 1 + 1)
  have nearSince : year - 1 ≤ near := by omega
  have nearUntil : near ≤ year + 1 := by omega
  obtain ⟨nearStart, nearStop, nearTimes⟩ := governs.times near nearSince nearUntil
  rw [governs.offsetAt_of_times nearSince nearUntil nearTimes counted shown]
  have agree
      : isBetween (nearStart.arrival nano - zone.standard)
            (nearStop.arrival nano - (zone.standard + rule.delta)) moment
        ↔ isBetween (start.arrival nano - zone.standard)
            (stop.arrival nano - (zone.standard + rule.delta)) moment := by
    rcases Int.lt_trichotomy near year with before | same | after
    · have adjacent : year = near + 1 := by omega
      rw [← adjacent] at unfinished
      exact governs.isBetween_iff_of_neighbour adjacent nearTimes times since (by omega)
    · subst same
      rw [Option.some.inj (nearTimes.starts.symm.trans times.starts),
        Option.some.inj (nearTimes.stops.symm.trans times.stops)]
    · have adjacent : near = year + 1 := by omega
      rw [adjacent] at begun
      exact (governs.isBetween_iff_of_neighbour adjacent times nearTimes
        (by rw [adjacent]; omega) (by rw [adjacent]; omega)).symm
  simp only [agree]

/-- Standard time shows the times of the year that are outside daylight time by its reading. -/
theorem names_standard_iff (governs : zone.Governs rule year)
    (times : rule.TimesIn year start stop) (counted : nano.isLeap = false) {wall : Int}
    (shown : (Clock.date wall).year = year)
    : ((zone.zoneAt nano).classify wall).Names zone.standard
      ↔ ¬ isBetween (start.arrival nano - zone.standard)
            (stop.arrival nano - (zone.standard + rule.delta)) (wall - zone.standard) := by
  obtain ⟨begun, unfinished⟩ := Clock.year_eq_iff.mp shown
  have listed : zone.HasOffset (Clock.date wall).year zone.standard := Or.inl rfl
  rw [zone.names_zoneAt_iff counted, and_iff_left listed,
    governs.offsetAt_eq times counted (by omega) (by omega)]
  split
  · next inside =>
    have differ : zone.standard + rule.delta ≠ zone.standard := by
      have moves := governs.moves
      omega
    exact iff_of_false differ (not_not_intro inside)
  · next outside => exact iff_of_true rfl outside

/-- Daylight time shows the times of the year that are inside it by its own reading. -/
theorem names_daylight_iff (governs : zone.Governs rule year)
    (times : rule.TimesIn year start stop) (counted : nano.isLeap = false) {wall : Int}
    (shown : (Clock.date wall).year = year)
    : ((zone.zoneAt nano).classify wall).Names (zone.standard + rule.delta)
      ↔ isBetween (start.arrival nano - zone.standard)
          (stop.arrival nano - (zone.standard + rule.delta))
          (wall - (zone.standard + rule.delta)) := by
  obtain ⟨begun, unfinished⟩ := Clock.year_eq_iff.mp shown
  have shift := governs.shift_bounds
  have found := governs.found year (by omega) (by omega)
  have listed : zone.HasOffset (Clock.date wall).year (zone.standard + rule.delta) :=
    Or.inr ⟨rule, by rw [shown, found], governs.daylight⟩
  rw [zone.names_zoneAt_iff counted, and_iff_left listed,
    governs.offsetAt_eq times counted (by omega) (by omega)]
  split
  · next inside => exact iff_of_true rfl inside
  · next outside =>
    have differ : zone.standard ≠ zone.standard + rule.delta := by
      have moves := governs.moves
      omega
    exact iff_of_false differ outside

/-- No other offset shows a time of the year. -/
theorem eq_of_names (governs : zone.Governs rule year) (counted : nano.isLeap = false)
    {wall offset : Int} (shown : (Clock.date wall).year = year)
    (named : ((zone.zoneAt nano).classify wall).Names offset)
    : offset = zone.standard ∨ offset = zone.standard + rule.delta := by
  have found := governs.found year (by omega) (by omega)
  rcases ((zone.names_zoneAt_iff counted wall offset).mp named).2 with standard | other
  · exact Or.inl standard
  · obtain ⟨covering, covers, rfl⟩ := other
    rw [shown, found, Option.some.injEq] at covers
    subst covers
    exact Or.inr governs.daylight

end Governs

-----------------------------------------------------------------------------------------
-- How the times of a year read
-----------------------------------------------------------------------------------------

/-- The times that the clock passes over: from the start of daylight time if that is ahead of
standard time, from its end if it is behind.
-/
def InGap (delta : Int) (start stop wall : Stamp) : Prop :=
  (0 < delta ∧ start ≤ wall ∧ wall < start.shift delta)
  ∨ (delta < 0 ∧ stop ≤ wall ∧ wall < stop.shift (-delta))

/-- The times that the clock runs through again: up to the end of daylight time if that is
ahead of standard time, up to its start if it is behind.
-/
def InOverlap (delta : Int) (start stop wall : Stamp) : Prop :=
  (0 < delta ∧ stop.shift (-delta) ≤ wall ∧ wall < stop)
  ∨ (delta < 0 ∧ start.shift delta ≤ wall ∧ wall < start)

/-- The change that sets the clock back: the end of daylight time if that is ahead of standard
time, its start if it is behind.
-/
def setBack (delta : Int) (start stop : Stamp) : Stamp :=
  if 0 < delta then stop else start

namespace Governs

theorem inGap_iff (times : rule.TimesIn year start stop) (wall : Int)
    : InGap rule.delta start stop ⟨wall, nano⟩
      ↔ 0 < rule.delta
            ∧ start.arrival nano ≤ wall
            ∧ wall < start.arrival nano + rule.delta
          ∨ rule.delta < 0
            ∧ stop.arrival nano ≤ wall
            ∧ wall < stop.arrival nano - rule.delta := by
  rw [InGap, ← Stamp.arrival_le_iff, ← Stamp.arrival_le_iff, ← Stamp.lt_arrival_iff,
    ← Stamp.lt_arrival_iff, Stamp.arrival_shift times.startCounted,
    Stamp.arrival_shift times.stopCounted, Int.sub_eq_add_neg]

theorem inOverlap_iff (times : rule.TimesIn year start stop) (wall : Int)
    : InOverlap rule.delta start stop ⟨wall, nano⟩
      ↔ 0 < rule.delta
            ∧ stop.arrival nano - rule.delta ≤ wall
            ∧ wall < stop.arrival nano
          ∨ rule.delta < 0
            ∧ start.arrival nano + rule.delta ≤ wall
            ∧ wall < start.arrival nano := by
  rw [InOverlap, ← Stamp.arrival_le_iff, ← Stamp.arrival_le_iff, ← Stamp.lt_arrival_iff,
    ← Stamp.lt_arrival_iff, Stamp.arrival_shift times.startCounted,
    Stamp.arrival_shift times.stopCounted, Int.sub_eq_add_neg]

/-- A time of the year is in the gap, where no offset shows it, or in the overlap, where both
do, or in neither, where one does; by the offsets under which it is shown.
-/
theorem classify_cases (governs : zone.Governs rule year)
    (times : rule.TimesIn year start stop) (counted : nano.isLeap = false) {wall : Int}
    (shown : (Clock.date wall).year = year)
    : ((zone.zoneAt nano).classify wall = .skipped
        ∧ InGap rule.delta start stop ⟨wall, nano⟩
        ∧ ¬ InOverlap rule.delta start stop ⟨wall, nano⟩)
      ∨ ((zone.zoneAt nano).classify wall
            = .repeated (max zone.standard (zone.standard + rule.delta))
                (min zone.standard (zone.standard + rule.delta))
        ∧ ¬ InGap rule.delta start stop ⟨wall, nano⟩
        ∧ InOverlap rule.delta start stop ⟨wall, nano⟩)
      ∨ ((zone.zoneAt nano).classify wall
            = .valid (if isBetween start stop ⟨wall, nano⟩ then zone.standard + rule.delta
                else zone.standard)
        ∧ ¬ InGap rule.delta start stop ⟨wall, nano⟩
        ∧ ¬ InOverlap rule.delta start stop ⟨wall, nano⟩) := by
  have inStandard := governs.names_standard_iff times counted shown
  have inDaylight := governs.names_daylight_iff times counted shown
  have only (offset : Int) (named : ((zone.zoneAt nano).classify wall).Names offset) :=
    governs.eq_of_names counted shown named
  have moves := governs.moves
  have shift := governs.shift_bounds
  have apart := governs.apart times nano
  rw [isBetween_arrival (by omega)]
  simp only [isBetween_iff] at inStandard inDaylight ⊢
  simp only [inGap_iff times, inOverlap_iff times]
  cases classified : (zone.zoneAt nano).classify wall with
  | skipped =>
      simp only [classified, LocalTime.Names, false_iff, not_not] at inStandard inDaylight
      exact Or.inl ⟨rfl, by omega, by omega⟩
  | repeated first second =>
      have ordered : second < first := lt_of_classifyStamp_eq_repeated classified
      simp only [classified, LocalTime.Names] at inStandard inDaylight only
      have early := only first (Or.inl rfl)
      have late := only second (Or.inr rfl)
      refine Or.inr (Or.inl ⟨?_, by omega, by omega⟩)
      congr 1 <;> omega
  | valid offset =>
      simp only [classified, LocalTime.Names] at inStandard inDaylight only
      have same := only offset rfl
      refine Or.inr (Or.inr ⟨?_, by omega, by omega⟩)
      congr 1
      split <;> omega

/-- Between the readings of a repeated time, the greater offset holds until the change that sets
the clock back: within the window's length of it there is no other.
-/
theorem offsetAt_of_overlap (governs : zone.Governs rule year)
    (times : rule.TimesIn year start stop) (counted : nano.isLeap = false) {wall : Int}
    (overlap : InOverlap rule.delta start stop ⟨wall, nano⟩) (moment : Int)
    (since : wall - max zone.standard (zone.standard + rule.delta) ≤ moment)
    (until_ : moment ≤ wall - min zone.standard (zone.standard + rule.delta))
    : (zone.zoneAt nano).offsetAt moment
      = if moment + max zone.standard (zone.standard + rule.delta)
            < (setBack rule.delta start stop).arrival nano
        then max zone.standard (zone.standard + rule.delta)
        else min zone.standard (zone.standard + rule.delta) := by
  have shift := governs.shift_bounds
  have startInside := times.startInside nano
  have stopInside := times.stopInside nano
  have apart := governs.apart times nano
  rw [inOverlap_iff times] at overlap
  rcases overlap with ⟨ahead, begun, unfinished⟩ | ⟨behind, begun, unfinished⟩
  · rw [governs.offsetAt_eq times counted (by omega) (by omega), setBack, if_pos ahead]
    simp only [isBetween_iff]
    split <;> split <;> omega
  · rw [governs.offsetAt_eq times counted (by omega) (by omega), setBack,
      if_neg (Int.lt_asymm behind)]
    simp only [isBetween_iff]
    split <;> split <;> omega

/-- Between the readings of a repeated whole second, bisection finds the first second that is not
before the change that sets the clock back.
-/
theorem bisect_of_overlap (governs : zone.Governs rule year)
    (times : rule.TimesIn year start stop) {wall : Int}
    (overlap : InOverlap rule.delta start stop ⟨wall, 0⟩)
    : Zone.bisect (zone.zone.offsetAt · == max zone.standard (zone.standard + rule.delta))
          (wall - max zone.standard (zone.standard + rule.delta))
          (wall - min zone.standard (zone.standard + rule.delta))
      = (setBack rule.delta start stop).arrival 0
        - max zone.standard (zone.standard + rule.delta) := by
  have inForce (moment : Int) := governs.offsetAt_of_overlap times rfl overlap moment
  have moves := governs.moves
  have inside : wall < (setBack rule.delta start stop).arrival 0
      ∧ (setBack rule.delta start stop).arrival 0
        ≤ wall + max zone.standard (zone.standard + rule.delta)
          - min zone.standard (zone.standard + rule.delta) := by
    rw [inOverlap_iff times] at overlap
    rw [setBack]
    split <;> omega
  have differ : min zone.standard (zone.standard + rule.delta)
      ≠ max zone.standard (zone.standard + rule.delta) := by
    omega
  generalize max zone.standard (zone.standard + rule.delta) = first at *
  generalize min zone.standard (zone.standard + rule.delta) = second at *
  apply Zone.bisect_eq_of_threshold (by omega) (by omega)
  · intro moment since before
    rw [beq_iff_eq]
    exact (inForce moment since (by omega)).trans (if_pos (by omega))
  · intro moment since until_
    rw [beq_eq_false_iff_ne]
    exact ne_of_eq_of_ne ((inForce moment (by omega) until_).trans (if_neg (by omega))) differ

/-- If the clock is set back at a whole second, a time is repeated exactly if its second is. -/
theorem overlap_of_whole (times : rule.TimesIn year start stop)
    (whole : (setBack rule.delta start stop).nano = 0) {wall : Int}
    (overlap : InOverlap rule.delta start stop ⟨wall, nano⟩)
    : InOverlap rule.delta start stop ⟨wall, 0⟩ := by
  have same (other : Nanosecond) := Stamp.arrival_of_whole whole other
  rw [inOverlap_iff times] at overlap ⊢
  simp only [setBack] at same
  have before := same nano
  have after := same 0
  split at before <;> split at after <;> omega

/-- The window of a repeated time ends at the change that sets the clock back, if that is at a
whole second: bisection finds it between the seconds of the time's readings.
-/
theorem windowOfStamp?_of_overlap (governs : zone.Governs rule year)
    (times : rule.TimesIn year start stop) (counted : nano.isLeap = false) {wall : Int}
    (overlap : InOverlap rule.delta start stop ⟨wall, nano⟩)
    (classified
      : zone.classifyStamp ⟨wall, nano⟩
        = .repeated (max zone.standard (zone.standard + rule.delta))
            (min zone.standard (zone.standard + rule.delta)))
    : ∃ window,
        zone.windowOfStamp? ⟨wall, nano⟩ = some window
        ∧ window.before = max zone.standard (zone.standard + rule.delta)
        ∧ window.after = min zone.standard (zone.standard + rule.delta)
        ∧ ((setBack rule.delta start stop).nano = 0
          → window.stop = (setBack rule.delta start stop).second) := by
  refine ⟨_, by rw [windowOfStamp?, classified], rfl, rfl, ?_⟩
  intro whole
  have found := governs.bisect_of_overlap times (overlap_of_whole times whole overlap)
  rw [Stamp.arrival_of_whole whole] at found
  have moved (seconds : Int) : (⟨wall, nano⟩ : Stamp).shift seconds = ⟨wall + seconds, nano⟩ :=
    Stamp.shift_of_counted counted seconds
  simp only [Zone.windowBetween, moved, ← Int.sub_eq_add_neg, found, Int.sub_add_cancel]

end Governs

/-- How a time reads if the clock is moved by `delta` at `start`, and back at `stop`: skipped in
the gap, repeated in the overlap, under the greater offset first, and else valid under the offset
of its season. The window of a repeated time restarts the clock as much earlier as it is moved,
and ends where it is set back if that is at a whole second.
-/
structure Changed (zone : RuleZone) (delta : Int) (start stop wall : Stamp) : Prop where
  skipped : zone.classifyStamp wall = .skipped ↔ InGap delta start stop wall
  repeated
    : ∀ first second,
        zone.classifyStamp wall = .repeated first second
        ↔ InOverlap delta start stop wall
          ∧ first = max zone.standard (zone.standard + delta)
          ∧ second = min zone.standard (zone.standard + delta)
  valid
    : ∀ offset,
        zone.classifyStamp wall = .valid offset
        ↔ ¬ InGap delta start stop wall
          ∧ ¬ InOverlap delta start stop wall
          ∧ offset
            = if isBetween start stop wall then zone.standard + delta else zone.standard
  window
    : ∀ first second,
        zone.classifyStamp wall = .repeated first second
        → ∃ window,
            zone.windowOfStamp? wall = some window
            ∧ window.before = first
            ∧ window.after = second
            ∧ window.restart = window.stop - delta.natAbs
            ∧ ((setBack delta start stop).nano = 0
              → window.stop = (setBack delta start stop).second)

/-- The times of a governed year read as those around two changes, in each of the three cases of
the classification.
-/
theorem Governs.changed (governs : zone.Governs rule year)
    (times : rule.TimesIn year start stop) {wall : Stamp}
    (counted : wall.nano.isLeap = false) (shown : wall.year = year)
    : zone.Changed rule.delta start stop wall := by
  have same : (zone.zoneAt wall.nano).classify wall.second = zone.classifyStamp wall := rfl
  rcases governs.classify_cases times counted shown with
    ⟨classified, gap, overlap⟩ | ⟨classified, gap, overlap⟩ | ⟨classified, gap, overlap⟩
  · rw [same] at classified
    constructor <;> simp [classified, gap, overlap]
  · rw [same] at classified
    refine ⟨by simp [classified, gap], ?_, by simp [classified, overlap], ?_⟩
    · intro first second
      simp [classified, overlap, eq_comm]
    · intro first second repeated
      obtain ⟨rfl, rfl⟩ := LocalTime.repeated.inj (classified.symm.trans repeated)
      obtain ⟨window, found, before, after, stops⟩ :=
        governs.windowOfStamp?_of_overlap times counted overlap classified
      refine ⟨window, found, before, after, ?_, stops⟩
      rw [Window.restart, before, after]
      omega
  · rw [same] at classified
    refine ⟨by simp [classified, gap], by simp [classified, overlap], ?_, by simp [classified]⟩
    intro offset
    simp only [classified, LocalTime.valid.injEq, gap, overlap, not_false_eq_true, true_and]
    exact eq_comm

end RuleZone

end Cadence
