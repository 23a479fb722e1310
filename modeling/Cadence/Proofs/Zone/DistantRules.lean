import Cadence.Proofs.Calendar.Years
import Cadence.Proofs.Occurrence.Locality
import Cadence.Proofs.Zone.Brackets
import Cadence.Proofs.Zone.RuleOrder
import Cadence.Schedule.Shorthand
import Mathlib

/-! Rules for distant years. A zone takes the rule of a year to tell the offset at a
moment of that year, and all that a search asks of a zone lies within a few days of its
start, of its answer, or of a time in between. So two zones whose rules say the same of
the years around both have the same answer, whatever their rules say of other years.
-/

namespace Cadence

/-- Bisection asks for moments between its ends only, by induction on the halvings. -/
theorem Zone.bisect_congr {isNear other : Int → Bool} {low high : Int}
    (same : ∀ moment, low < moment → moment < high → isNear moment = other moment)
    : bisect isNear low high = bisect other low high := by
  fun_induction bisect isNear low high with
  | case1 low high wide middle near ih =>
      have asked := same middle (by omega) (by omega)
      rw [ih fun moment above below => same moment (by omega) below]
      symm
      rw [bisect, if_pos wide, if_pos (asked.symm.trans near)]
  | case2 low high wide middle far ih =>
      have asked := same middle (by omega) (by omega)
      rw [ih fun moment above below => same moment above (by omega)]
      symm
      rw [bisect, if_pos wide, if_neg (asked ▸ far)]
  | case3 low high narrow =>
      symm
      rw [bisect, if_neg narrow]

/-- What a rule says of each of its years. -/
def DaylightRule.terms (rule : DaylightRule) : Int × YearlyTime × YearlyTime :=
  (rule.delta, rule.start, rule.stop)

namespace RuleZone

variable {zone left right : RuleZone} {rule other : DaylightRule}

/-- What the rules of a zone say of a year, if there is one for it. -/
def termsFor? (zone : RuleZone) (year : Int) : Option (Int × YearlyTime × YearlyTime) :=
  (zone.ruleFor? year).map DaylightRule.terms

/-- Two zones have rules with the same terms for a year, or none. -/
theorem ruleFor?_cases {year : Int} (same : left.termsFor? year = right.termsFor? year)
    : left.ruleFor? year = none ∧ right.ruleFor? year = none
      ∨ ∃ rule other,
          left.ruleFor? year = some rule
          ∧ right.ruleFor? year = some other
          ∧ rule.terms = other.terms := by
  unfold termsFor? at same
  cases one : left.ruleFor? year <;> cases two : right.ruleFor? year <;>
    simp_all

theorem daylight_of_terms (standard : left.standard = right.standard)
    (terms : rule.terms = other.terms)
    : left.daylight rule = right.daylight other := by
  have delta : rule.delta = other.delta := congrArg Prod.fst terms
  simp only [daylight, daylight?, standard, delta]

theorem changes?_of_terms (standard : left.standard = right.standard)
    (terms : rule.terms = other.terms) (year : Int)
    : left.changes? rule year = right.changes? other year := by
  have start : rule.start = other.start := congrArg (·.2.1) terms
  have stop : rule.stop = other.stop := congrArg (·.2.2) terms
  simp only [changes?, standard, start, stop, daylight_of_terms standard terms]

/-- The offset at a moment is told by standard time and the terms of its year. -/
theorem offsetAt_of_terms (standard : left.standard = right.standard) {moment : Int}
    (same
      : left.termsFor? (Clock.date (moment + left.standard)).year
        = right.termsFor? (Clock.date (moment + left.standard)).year)
    : left.offsetAt moment = right.offsetAt moment := by
  simp only [offsetAt, offsetAtStamp, Stamp.shift_ofSecond, Stamp.year_ofSecond, ← standard]
  rcases ruleFor?_cases same
    with ⟨missing, missingToo⟩ | ⟨rule, other, found, foundToo, terms⟩
  · rw [missing, missingToo]
  · simp only [found, foundToo, changes?_of_terms standard terms,
      daylight_of_terms standard terms]

/-- Two zones have one standard time, and their rules say the same of all years to which
the times from `low` until `high` belong.
-/
structure AgreeUntil (left right : RuleZone) (low high : Int) : Prop where
  bounded : -86400 < left.standard ∧ left.standard < 86400
  standard : left.standard = right.standard
  terms
    : ∀ time,
        low ≤ time
        → time < high
        → left.termsFor? (Clock.date time).year = right.termsFor? (Clock.date time).year

namespace AgreeUntil

variable {low high : Int}

theorem offsetAt (agree : AgreeUntil left right low high) {moment : Int}
    (above : low + 86400 ≤ moment) (below : moment + 86400 ≤ high)
    : left.offsetAt moment = right.offsetAt moment := by
  have bounded := agree.bounded
  exact offsetAt_of_terms agree.standard (agree.terms _ (by omega) (by omega))

/-- A time is classified by the rule of its own year and by the offsets at its readings,
which are less than a day from it.
-/
theorem classify (agree : AgreeUntil left right low high) {wall : Int}
    (above : low + 172800 ≤ wall) (below : wall + 172800 ≤ high)
    : left.classify wall = right.classify wall := by
  have shows (candidate : Int) (bounded : -86400 < candidate ∧ candidate < 86400)
      : left.shows (.ofSecond wall) candidate = right.shows (.ofSecond wall) candidate := by
    have offset : left.offsetAt (wall - candidate) = right.offsetAt (wall - candidate) :=
      agree.offsetAt (by omega) (by omega)
    rw [Int.sub_eq_add_neg] at offset
    simp only [RuleZone.shows, Stamp.shift_ofSecond]
    exact congrArg (· == candidate) offset
  have terms := agree.terms wall (by omega) (by omega)
  have standardBound := agree.bounded
  simp only [RuleZone.classify, classifyStamp, Stamp.year_ofSecond]
  rcases ruleFor?_cases terms
    with ⟨missing, missingToo⟩ | ⟨rule, other, found, foundToo, terms⟩
  · rw [missing, missingToo, agree.standard]
  · have daylightBound := daylight_bounded agree.bounded rule
    have high := shows (max (left.daylight rule) left.standard) (by omega)
    have low := shows (min (left.daylight rule) left.standard) (by omega)
    simp only [found, foundToo, high, low, ← daylight_of_terms agree.standard terms,
      ← agree.standard]

/-- The window of a time is found by the offsets between its readings. -/
theorem window? (agree : AgreeUntil left right low high) {wall : Int}
    (above : low + 172800 ≤ wall) (below : wall + 172800 ≤ high)
    : left.zone.window? wall = right.zone.window? wall := by
  have same : left.zone.classify wall = right.zone.classify wall :=
    agree.classify above below
  cases classified : left.zone.classify wall with
  | skipped => simp only [Zone.window?, ← same, classified]
  | valid offset => simp only [Zone.window?, ← same, classified]
  | repeated first second =>
      obtain ⟨firstBound, secondBound⟩ := repeated_bounded agree.bounded classified
      have offsets (moment : Int) (after : wall - first < moment)
          (before : moment < wall - second)
          : (left.zone.offsetAt moment == first) = (right.zone.offsetAt moment == first) := by
        have equal : left.offsetAt moment = right.offsetAt moment :=
          agree.offsetAt (by omega) (by omega)
        exact congrArg (· == first) equal
      rw [Zone.window?_eq_of_classify classified,
        Zone.window?_eq_of_classify (same.symm.trans classified), Zone.bisect_congr offsets]

/-- What a search asks of a zone is less than six days from its start and its answer: the
clock is off by a day, its window restarts two days before, and every time that is asked
for is classified by readings two days around it.
-/
theorem nextIn (agree : AgreeUntil left right low high) (schedule : Schedule)
    {after : Moment} {shown : Occurrence} (found : schedule.nextIn left.zone after = some shown)
    (start : low + 518400 ≤ after.second) (finish : shown.wall + 518400 ≤ high)
    : schedule.nextIn right.zone after = some shown := by
  have offset : -86400 < left.zone.offsetAt after.second
      ∧ left.zone.offsetAt after.second < 86400 :=
    offsetAt_bounded agree.bounded after.second
  have wall : after.second < left.zone.shownAt after + 86400
      ∧ left.zone.shownAt after < after.second + 86400 := by
    simp only [Zone.shownAt, Moment.wall]
    split <;> omega
  -- two days before a window there is room for its restart and the minute that holds it
  have inside (window : Window)
      (found : window ∈ left.zone.window? (left.zone.shownAt after))
      : left.zone.shownAt after - 172860 + 60 ≤ window.restart
        ∧ window.restart ≤ left.zone.shownAt after
        ∧ left.zone.shownAt after < window.stop := by
    have brackets := Zone.InForce.brackets (left.inForce_classify _) found
    have restart := lt_restart agree.bounded found
    exact ⟨by omega, brackets.restart_le, brackets.lt_stop⟩
  obtain ⟨notBefore, decided⟩ :=
    schedule.nextIn_decides left.zone after (by omega) inside found
  apply decided
  · exact agree.offsetAt (by omega) (by omega)
  · exact agree.window? (by omega) (by omega)
  · intro time since until_
    exact agree.classify (by omega) (by omega)

/-- Agreement on some years is agreement from the first New Year until after the last one.
-/
theorem of_years (bounded : -86400 < left.standard ∧ left.standard < 86400)
    (standard : left.standard = right.standard) {first last : Int}
    (terms
      : ∀ year, first ≤ year → year ≤ last → left.termsFor? year = right.termsFor? year)
    : AgreeUntil left right (Clock.newYear first) (Clock.newYear (last + 1)) := by
  refine ⟨bounded, standard, ?_⟩
  intro time since before
  have early := Clock.year_lt_iff time first
  have late := Clock.year_lt_iff time (last + 1)
  exact terms _ (by omega) (by omega)

end AgreeUntil

/-- What is found is decided by the rules for the years from the one before the start of
the search until the one after the answer.
-/
theorem nextIn_of_terms (bounded : -86400 < left.standard ∧ left.standard < 86400)
    (standard : left.standard = right.standard) (schedule : Schedule) {after : Moment}
    {shown : Occurrence} (found : schedule.nextIn left.zone after = some shown)
    (terms
      : ∀ year,
          (Clock.date after.second).year - 1 ≤ year
          → year ≤ (Clock.date shown.wall).year + 1
          → left.termsFor? year = right.termsFor? year)
    : schedule.nextIn right.zone after = some shown := by
  have begun := (Clock.year_eq_iff.mp (rfl : (Clock.date after.second).year = _)).1
  have previous := Clock.newYear_succ ((Clock.date after.second).year - 1)
  rw [Int.sub_add_cancel] at previous
  have unfinished := (Clock.year_eq_iff.mp (rfl : (Clock.date shown.wall).year = _)).2
  have next := Clock.newYear_succ ((Clock.date shown.wall).year + 1)
  have agree := AgreeUntil.of_years bounded standard terms
  exact agree.nextIn schedule found (by omega) (by omega)

/-- A rule that is added says nothing of the years that it does not cover. -/
theorem termsFor?_of_add {extended : RuleZone} (added : zone.add rule = .ok extended)
    {year : Int} (outside : rule.covers year = false)
    : extended.termsFor? year = zone.termsFor? year := by
  obtain ⟨_, _, rfl⟩ := add_eq_ok_iff.mp added
  simp only [termsFor?, ruleFor?, List.find?_append, List.find?_cons, outside, List.find?_nil,
    Option.or_none]

/-- Of two zones with one standard time, what is found in the first is found in the second
if their rules say the same of every year from two before the start until two after the
answer. So a rule that is added to a zone for earlier or later years leaves the answer as
it was.
-/
theorem nextIn_of_nearbyRules (bounded : -86400 < left.standard ∧ left.standard < 86400)
    (standard : left.standard = right.standard) (schedule : Schedule) (after : Moment)
    : (∀ shown,
        schedule.nextIn left.zone after = some shown
        → (∀ year,
            (Clock.date after.second).year - 2 ≤ year
            → year ≤ (Clock.date shown.wall).year + 2
            → left.termsFor? year = right.termsFor? year)
        → schedule.nextIn right.zone after = some shown)
      ∧ ∀ rule extended,
          left.add rule = .ok extended
          → ∀ shown,
              rule.lastYear + 2 < (Clock.date after.second).year
                ∨ (Clock.date shown.wall).year + 2 < rule.firstYear
              → (schedule.nextIn extended.zone after = some shown
                ↔ schedule.nextIn left.zone after = some shown) := by
  constructor
  · intro shown found terms
    exact nextIn_of_terms bounded standard schedule found
      fun year above below => terms year (by omega) (by omega)
  · intro rule extended added shown distant
    have sameStandard : extended.standard = left.standard := by
      obtain ⟨_, _, rfl⟩ := add_eq_ok_iff.mp added
      rfl
    have same (year : Int) (above : (Clock.date after.second).year - 1 ≤ year)
        (below : year ≤ (Clock.date shown.wall).year + 1)
        : extended.termsFor? year = left.termsFor? year := by
      apply termsFor?_of_add added
      simp only [DaylightRule.covers, Bool.and_eq_false_iff, decide_eq_false_iff_not]
      omega
    constructor
    · intro found
      exact nextIn_of_terms (sameStandard ▸ bounded) sameStandard schedule found same
    · intro found
      exact nextIn_of_terms bounded sameStandard.symm schedule found
        fun year above below => (same year above below).symm

/-- On 1 April 2021 the zone whose daylight time deepens sets its clock back by two hours.
From half an hour before, an hourly schedule finds one o'clock in the second pass, also if
the zone has a rule for 2030.
-/
theorem nextIn_of_nearbyRules_deepening
    : ∃ extended,
        deepening.add (overNewYear 2030 5400) = .ok extended
        ∧ extended.termsFor? 2030 ≠ deepening.termsFor? 2030
        ∧ Shorthand.hourly.schedule.nextIn deepening.zone (1617237000 : Int)
          = some ⟨1617238800, 0⟩
        ∧ Shorthand.hourly.schedule.nextIn extended.zone (1617237000 : Int)
          = some ⟨1617238800, 0⟩ := by
  obtain ⟨extended, added⟩
      : ∃ extended, deepening.add (overNewYear 2030 5400) = .ok extended :=
    ⟨_, rfl⟩
  have found : Shorthand.hourly.schedule.nextIn deepening.zone (1617237000 : Int)
      = some ⟨1617238800, 0⟩ := by
    cbv
  have year : (Clock.date 1617238800).year = 2021 := by decide +kernel
  have same (year : Int) (early : year ≤ 2023)
      : deepening.termsFor? year = extended.termsFor? year := by
    symm
    apply termsFor?_of_add added
    rw [DaylightRule.covers, Bool.and_eq_false_iff]
    exact Or.inl (decide_eq_false (by simp only [overNewYear]; omega))
  have bounded : -86400 < deepening.standard ∧ deepening.standard < 86400 := by decide
  have standard : deepening.standard = extended.standard := by
    obtain ⟨_, _, rfl⟩ := add_eq_ok_iff.mp added
    rfl
  have foundToo : Shorthand.hourly.schedule.nextIn extended.zone (1617237000 : Int)
      = some ⟨1617238800, 0⟩ := by
    apply (nextIn_of_nearbyRules bounded standard Shorthand.hourly.schedule
      (1617237000 : Int)).1 _ found
    intro asked _ below
    rw [year] at below
    exact same asked below
  refine ⟨extended, added, ?_, found, foundToo⟩
  obtain ⟨_, _, rfl⟩ := add_eq_ok_iff.mp added
  decide

end RuleZone

end Cadence
