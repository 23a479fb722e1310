import Cadence.Proofs.Zone.RuleOrder
import Cadence.Proofs.Zone.YearlyDates

/-! What offsets rely on once rules are taken. Every rule of a zone has an offset of less than
a day and dates in every year, and no two share a year: the rules that a zone takes are
compatible. So the offset at a moment is made of the rule's own times and its own offset,
and standard time stands in only where no rule covers the year.
-/

namespace Cadence

namespace DaylightRule

/-- A rule has years, its offset is less than a day and is the same sum in 32 bits, and its
times have dates in every year that has dates.
-/
structure Sound (standard : Int) (rule : DaylightRule) : Prop where
  years : rule.firstYear ≤ rule.lastYear
  offset : -86400 < standard + rule.delta ∧ standard + rule.delta < 86400
  noOverflow : (Int32.ofInt standard + Int32.ofInt rule.delta).toInt = standard + rule.delta
  dated
    : ∀ year,
        YearlyTime.firstYear ≤ year
        → year ≤ YearlyTime.lastYear
        → ∃ start stop,
            rule.start.wallIn? year = some start ∧ rule.stop.wallIn? year = some stop

variable {standard : Int} {rule : DaylightRule}

/-- A rule that fits has its sum as the offset of daylight time. -/
theorem Fits.offset?_eq (fits : rule.Fits standard)
    : RuleZone.offset? (standard + rule.delta) = some (standard + rule.delta) := by
  have inRange := fits.offset
  rw [RuleZone.offset?] at inRange ⊢
  split at inRange
  · next bounds => exact if_pos bounds
  · simp at inRange

/-- A rule that fits is sound: what is checked for one year holds for all of them. -/
theorem Fits.sound (fits : rule.Fits standard) : rule.Sound standard := by
  have offset : -86400 < standard + rule.delta ∧ standard + rule.delta < 86400 := by
    have inRange := fits.offset?_eq
    rw [RuleZone.offset?] at inRange
    split at inRange
    · assumption
    · cases inRange
  refine ⟨fits.years, offset, ?_, ?_⟩
  · rw [← Int32.ofInt_add]
    exact Int32.toInt_ofInt_of_le (by omega) (by omega)
  · intro year since until_
    obtain ⟨_, _, _, starts⟩ := YearlyTime.exists_wallIn? fits.dated.1 ⟨since, until_⟩
    obtain ⟨_, _, _, stops⟩ := YearlyTime.exists_wallIn? fits.dated.2 ⟨since, until_⟩
    exact ⟨_, _, starts, stops⟩

/-- Of rules that share no year at most one covers a given year: the first two of those that
cover it would share it.
-/
theorem countP_covers_le_one {rules : List DaylightRule} (apart : rules.Pairwise Apart)
    (year : Int)
    : rules.countP (·.covers year) ≤ 1 := by
  rw [List.countP_eq_length_filter]
  have covering : ∀ rule ∈ rules.filter (·.covers year), rule.covers year :=
    fun rule member => (List.mem_filter.mp member).2
  have distinct := apart.filter (·.covers year)
  generalize rules.filter (·.covers year) = those at covering distinct ⊢
  cases those with
  | nil => exact Nat.zero_le 1
  | cons first rest =>
      cases rest with
      | nil => exact Nat.le_refl 1
      | cons second rest =>
          have share : first.Apart second := (List.pairwise_cons.mp distinct).1 second (by simp)
          have missed := share year (covering first (by simp))
          rw [covering second (by simp)] at missed
          cases missed

end DaylightRule

open DaylightRule

namespace RuleZone

variable {zone : RuleZone} {rule : DaylightRule}

/-- Under a rule that fits, daylight time is ahead of standard time by the rule's difference. -/
theorem daylight_of_fits (fits : rule.Fits zone.standard)
    : zone.daylight rule = zone.standard + rule.delta := by
  rw [daylight, daylight?, fits.offset?_eq, Option.getD_some]

/-- The offset at a time of a year with a rule is told by the rule's times in that year. -/
theorem offsetAtStamp_of_rule {time start stop : Stamp} {year : Int}
    (shown : (time.shift zone.standard).year = year)
    (found : zone.ruleFor? year = some rule)
    (starts : rule.start.stampIn? year = some start)
    (stops : rule.stop.stampIn? year = some stop)
    : zone.offsetAtStamp time
      = if isBetween (start.shift (-zone.standard)) (stop.shift (-zone.daylight rule)) time
        then zone.daylight rule else zone.standard := by
  simp only [offsetAtStamp, shown, found, changes?, starts, stops, Option.bind_eq_bind,
    Option.bind_some]

/-- Whatever rules a zone has taken are sound and share no years, so at most one covers a year.
Their offsets are their own, and at every time of a year that has dates, to the nanosecond, the
offset is told by the times of the rule that covers the year, or is standard time if none does.
-/
theorem addAll_sound {name : String} {standard : Int} {rules : List DaylightRule}
    (added : (bare name standard).addAll rules = .ok zone)
    : ((∀ rule ∈ zone.rules, rule.Sound zone.standard) ∧ zone.rules.Pairwise Apart)
      ∧ (∀ rule ∈ zone.rules,
          zone.daylight? rule = some (zone.standard + rule.delta)
          ∧ zone.daylight rule = zone.standard + rule.delta)
      ∧ (∀ year, zone.rules.countP (·.covers year) ≤ 1)
      ∧ ∀ (time : Stamp) (year : Int),
          (time.shift zone.standard).year = year
          → YearlyTime.firstYear ≤ year
          → year ≤ YearlyTime.lastYear
          → (∀ rule ∈ zone.rules,
              rule.covers year
              → ∃ start stop : Stamp,
                  zone.changes? rule year
                    = some
                        (start.shift (-zone.standard),
                          stop.shift (-(zone.standard + rule.delta)))
                  ∧ rule.start.stampIn? year = some start
                  ∧ rule.stop.stampIn? year = some stop
                  ∧ zone.offsetAtStamp time
                    = if isBetween (start.shift (-zone.standard))
                          (stop.shift (-(zone.standard + rule.delta))) time
                      then zone.standard + rule.delta else zone.standard)
            ∧ ((∀ rule ∈ zone.rules, rule.covers year = false)
              → zone.offsetAtStamp time = zone.standard) := by
  obtain ⟨compatible, rfl⟩ := addAll_bare_iff.mp added
  refine ⟨⟨fun rule member => (compatible.fits rule member).sound, compatible.apart⟩, ?_,
    countP_covers_le_one compatible.apart, ?_⟩
  · intro rule member
    have fits := compatible.fits rule member
    exact ⟨fits.offset?_eq, daylight_of_fits fits⟩
  · intro time year shown since until_
    constructor
    · intro rule member covers
      have fits := compatible.fits rule member
      have daylight : RuleZone.daylight ⟨name, standard, rules⟩ rule = standard + rule.delta :=
        daylight_of_fits fits
      have found := compatible.find?_eq_some_iff.mpr ⟨member, covers⟩
      obtain ⟨_, _, startWall, stopWall⟩ := fits.sound.dated year since until_
      have starts := YearlyTime.stampIn?_of_wallIn? startWall
      have stops := YearlyTime.stampIn?_of_wallIn? stopWall
      refine ⟨_, _, ?_, starts, stops, ?_⟩
      · simp only [changes?, starts, stops, Option.bind_eq_bind, Option.bind_some, daylight]
      · rw [offsetAtStamp_of_rule shown found starts stops, daylight]
    · intro uncovered
      have missing : rules.find? (·.covers year) = none :=
        List.find?_eq_none.mpr fun rule member => by simp [uncovered rule member]
      simp only [offsetAtStamp, shown, ruleFor?, missing]

/-- An hour less in winter, from the last Sunday of October to the last one of March. -/
def winterTime : DaylightRule where
  firstYear := 1996
  lastYear := 9999
  delta := -3600
  start := .floating 10 5 0 twoOClock
  stop := .floating 3 5 0 oneOClock

/-- A zone whose standard time is that of summer. -/
def winterZone : RuleZone where
  name := "Winter"
  standard := 3600
  rules := [winterTime]

/-- A quarter of a second after 2024 starts winter time is in force, an hour less than standard
time.
-/
theorem addAll_sound_winterTime
    : (bare "Winter" 3600).addAll [winterTime] = .ok winterZone
      ∧ winterTime.Sound 3600
      ∧ winterZone.daylight winterTime = 0
      ∧ winterZone.rules.countP (·.covers 2024) ≤ 1
      ∧ ∃ start stop,
          winterTime.start.stampIn? 2024 = some start
          ∧ winterTime.stop.stampIn? 2024 = some stop
          ∧ winterZone.offsetAtStamp ⟨1704067200, 250000000⟩
            = if isBetween (start.shift (-3600)) stop ⟨1704067200, 250000000⟩
              then 0 else 3600 := by
  have added : (bare "Winter" 3600).addAll [winterTime] = .ok winterZone := by rfl
  have member : winterTime ∈ winterZone.rules := List.mem_singleton_self winterTime
  have shown : ((⟨1704067200, 250000000⟩ : Stamp).shift winterZone.standard).year = 2024 := by
    decide +kernel
  obtain ⟨⟨sound, _⟩, offsets, single, times⟩ := addAll_sound added
  obtain ⟨rules, _⟩ := times _ 2024 shown (by decide) (by decide)
  obtain ⟨start, stop, _, starts, stops, inForce⟩ := rules winterTime member (by decide)
  exact ⟨added, sound winterTime member, (offsets winterTime member).2, single 2024, start,
    stop, starts, stops, by simpa [winterZone, winterTime] using inForce⟩

end RuleZone

end Cadence
