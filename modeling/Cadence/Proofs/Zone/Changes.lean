import Cadence.Zone
import Mathlib.Tactic.ByContra

/-! Changes of offset, and the wall-clock times that they show twice. In a zone whose changes
lie two days apart, and whose offsets are less than a day, a wall clock that is set back
shows its times at most twice, and bisection finds the change between two readings.
-/

namespace Cadence.Zone

-----------------------------------------------------------------------------------------
-- Bisection
-----------------------------------------------------------------------------------------

/-- Bisection ends on a step from near to far, by induction on the halvings: each keeps its
lower end near and its upper end far.
-/
theorem bisect_spec (isNear : Int → Bool) (low high : Int) (ordered : low < high)
    (near : isNear low) (far : isNear high = false)
    : low < bisect isNear low high ∧ bisect isNear low high ≤ high
      ∧ isNear (bisect isNear low high - 1) ∧ isNear (bisect isNear low high) = false := by
  fun_induction bisect isNear low high with
  | case1 low high wide middle nearMiddle ih =>
      have halved : middle < high := by omega
      obtain ⟨above, within, before, after⟩ := ih halved nearMiddle far
      exact ⟨by omega, within, before, after⟩
  | case2 low high wide middle farMiddle ih =>
      have halved : low < middle := by omega
      obtain ⟨above, within, before, after⟩ :=
        ih halved near (Bool.eq_false_iff.mpr farMiddle)
      exact ⟨above, by omega, before, after⟩
  | case3 low high narrow =>
      have adjacent : high - 1 = low := by omega
      exact ⟨ordered, Int.le_refl high, adjacent ▸ near, far⟩

/-- Bisection finds the one second at which near turns into far: it ends on such a step. -/
theorem bisect_eq_of_threshold {isNear : Int → Bool} {low high change : Int}
    (above : low < change) (within : change ≤ high)
    (near : ∀ moment, low ≤ moment → moment < change → isNear moment)
    (far : ∀ moment, change ≤ moment → moment ≤ high → isNear moment = false)
    : bisect isNear low high = change := by
  have start := near low (Int.le_refl _) above
  have finish := far high within (Int.le_refl _)
  obtain ⟨low_lt, le_high, before, after⟩ :=
    bisect_spec isNear low high (Int.lt_of_lt_of_le above within) start finish
  rcases Int.lt_trichotomy (bisect isNear low high) change with early | same | late
  · have unfinished := near _ (Int.le_of_lt low_lt) early
    rw [after] at unfinished
    cases unfinished
  · exact same
  · have begun := far (bisect isNear low high - 1) (by omega) (by omega)
    rw [before] at begun
    cases begun

/-- The window of a time classified as repeated ends where bisection does. -/
theorem window?_eq_of_classify {zone : Zone} {wall first second : Int}
    (classified : zone.classify wall = .repeated first second)
    : zone.window? wall
      = some
          ⟨bisect (zone.offsetAt · == first) (wall - first) (wall - second) + first, first,
            second⟩ := by
  rw [window?, classified]
  rfl

-----------------------------------------------------------------------------------------
-- Changes of offset
-----------------------------------------------------------------------------------------

/-- What the wall clock of a zone shows at a counted second. -/
def wallAt (zone : Zone) (instant : Int) : Int :=
  instant + zone.offsetAt instant

/-- Another offset holds from this second on. -/
def ChangesAt (zone : Zone) (instant : Int) : Prop :=
  zone.offsetAt (instant - 1) ≠ zone.offsetAt instant

/-- The wall-clock times that are shown before a change and again after it. -/
structure Repeats (zone : Zone) (change wall : Int) : Prop where
  changes : zone.ChangesAt change
  restarted : change + zone.offsetAt change ≤ wall
  unfinished : wall < change + zone.offsetAt (change - 1)

/-- Offsets are less than a day, and changes of offset lie two days apart. -/
structure Spaced (zone : Zone) : Prop where
  bounded : ∀ instant, -86400 < zone.offsetAt instant ∧ zone.offsetAt instant < 86400
  apart
    : ∀ early late,
        early < late
        → zone.ChangesAt early
        → zone.ChangesAt late
        → early + 172800 ≤ late

variable {zone : Zone}

/-- An offset holds until it changes, by induction on the seconds in between. -/
theorem offsetAt_eq_of_unchanged {early late : Int} (ordered : early ≤ late)
    (unchanged : ∀ change, early < change → change ≤ late → ¬ zone.ChangesAt change)
    : zone.offsetAt early = zone.offsetAt late := by
  obtain ⟨gap, rfl⟩ := Int.le.dest ordered
  clear ordered
  induction gap with
  | zero => simp
  | succ gap ih =>
      have before : zone.offsetAt early = zone.offsetAt (early + gap) :=
        ih fun change above below => unchanged change above (by omega)
      have last := unchanged (early + (gap + 1 : Nat)) (by omega) (by omega)
      have previous : early + ((gap + 1 : Nat) : Int) - 1 = early + gap := by omega
      rw [ChangesAt, previous, not_not] at last
      exact before.trans last

/-- Between two seconds with different offsets there is a change. -/
theorem exists_change {early late : Int} (ordered : early ≤ late)
    (differ : zone.offsetAt early ≠ zone.offsetAt late)
    : ∃ change, early < change ∧ change ≤ late ∧ zone.ChangesAt change := by
  by_contra missing
  push Not at missing
  exact differ (offsetAt_eq_of_unchanged ordered missing)

namespace Spaced

/-- Changes less than two days from each other are the same. -/
theorem change_unique (spaced : zone.Spaced) {one other : Int} (changes : zone.ChangesAt one)
    (changesToo : zone.ChangesAt other) (near : one < other + 172800)
    (nearToo : other < one + 172800)
    : one = other := by
  rcases Int.lt_trichotomy one other with before | same | after
  · have gap := spaced.apart one other before changes changesToo
    omega
  · exact same
  · have gap := spaced.apart other one after changesToo changes
    omega

/-- The offset before a change has held for two days. -/
theorem offsetAt_before (spaced : zone.Spaced) {change : Int}
    (changes : zone.ChangesAt change) (instant : Int) (recent : change - 172800 ≤ instant)
    (before : instant < change)
    : zone.offsetAt instant = zone.offsetAt (change - 1) := by
  apply offsetAt_eq_of_unchanged (by omega)
  intro other above below changesToo
  have gap := spaced.apart other change (by omega) changesToo changes
  omega

/-- The offset after a change holds for two days. -/
theorem offsetAt_after (spaced : zone.Spaced) {change : Int}
    (changes : zone.ChangesAt change) (instant : Int) (since : change ≤ instant)
    (soon : instant < change + 172800)
    : zone.offsetAt instant = zone.offsetAt change := by
  symm
  apply offsetAt_eq_of_unchanged since
  intro other above below changesToo
  have gap := spaced.apart change other above changes changesToo
  omega

/-- A wall clock that does not advance has been set back in between, and shows everything
from the later reading to the earlier one twice.
-/
theorem exists_repeats (spaced : zone.Spaced) {early late : Int} (ordered : early < late)
    (back : zone.wallAt late ≤ zone.wallAt early)
    : ∃ change,
        early < change
        ∧ change ≤ late
        ∧ zone.offsetAt (change - 1) = zone.offsetAt early
        ∧ zone.offsetAt change = zone.offsetAt late
        ∧ ∀ wall,
            zone.wallAt late ≤ wall
            → wall ≤ zone.wallAt early
            → zone.Repeats change wall := by
  simp only [wallAt] at back ⊢
  have earlyBound := spaced.bounded early
  have lateBound := spaced.bounded late
  have differ : zone.offsetAt early ≠ zone.offsetAt late := by omega
  obtain ⟨change, above, below, changes⟩ := exists_change (Int.le_of_lt ordered) differ
  have before := spaced.offsetAt_before changes early (by omega) above
  have after := spaced.offsetAt_after changes late below (by omega)
  refine ⟨change, above, below, before.symm, after.symm, ?_⟩
  intro wall low high
  exact ⟨changes, by omega, by omega⟩

/-- A time that a change repeats is shown once before it, under the old offset, once from
then on, under the new one, and at no other second.
-/
theorem wallAt_eq_iff_of_repeats (spaced : zone.Spaced) {change wall : Int}
    (repeats : zone.Repeats change wall) (instant : Int)
    : zone.wallAt instant = wall
      ↔ instant = wall - zone.offsetAt (change - 1)
        ∨ instant = wall - zone.offsetAt change := by
  obtain ⟨changes, restarted, unfinished⟩ := repeats
  have oldBound := spaced.bounded (change - 1)
  have newBound := spaced.bounded change
  have bound := spaced.bounded instant
  have before := spaced.offsetAt_before changes
  have after := spaced.offsetAt_after changes
  simp only [wallAt]
  constructor
  · intro shown
    rcases Int.lt_or_le instant change with early | late
    · have old := before instant (by omega) early
      omega
    · have new := after instant late (by omega)
      omega
  · intro reading
    rcases reading with rfl | rfl
    · have old := before (wall - zone.offsetAt (change - 1)) (by omega) (by omega)
      omega
    · have new := after (wall - zone.offsetAt change) (by omega) (by omega)
      omega

/-- The reading of a repeated time tells which offset holds: the old one before the change,
the new one from then on.
-/
theorem offsetAt_of_repeats (spaced : zone.Spaced) {change instant : Int}
    (repeats : zone.Repeats change (zone.wallAt instant))
    : (instant < change → zone.offsetAt instant = zone.offsetAt (change - 1))
      ∧ (change ≤ instant → zone.offsetAt instant = zone.offsetAt change) := by
  have low := repeats.restarted
  have high := repeats.unfinished
  have reading := (spaced.wallAt_eq_iff_of_repeats repeats instant).mp rfl
  simp only [wallAt] at low high reading
  omega

/-- A change repeats times less than a day from it only, so it is the only change near them.
-/
theorem change_eq_of_repeats (spaced : zone.Spaced) {one other wall : Int}
    (repeats : zone.Repeats one wall) (changes : zone.ChangesAt other)
    (near : other - 86400 ≤ wall) (nearToo : wall ≤ other + 86400)
    : one = other := by
  have old := spaced.bounded (one - 1)
  have new := spaced.bounded one
  have low := repeats.restarted
  have high := repeats.unfinished
  exact spaced.change_unique repeats.changes changes (by omega) (by omega)

/-- A wall-clock time is repeated by at most one change. -/
theorem repeats_unique (spaced : zone.Spaced) {one other wall : Int}
    (repeats : zone.Repeats one wall) (repeatsToo : zone.Repeats other wall)
    : one = other := by
  have old := spaced.bounded (other - 1)
  have new := spaced.bounded other
  have low := repeatsToo.restarted
  have high := repeatsToo.unfinished
  exact spaced.change_eq_of_repeats repeats repeatsToo.changes (by omega) (by omega)

/-- A clock that is set back over a time repeated by a change is set back by that change. -/
theorem repeats_of_back (spaced : zone.Spaced) {change early late wall : Int}
    (repeats : zone.Repeats change wall) (ordered : early < late)
    (restarted : zone.wallAt late ≤ wall) (reached : wall ≤ zone.wallAt early)
    : early < change
      ∧ change ≤ late
      ∧ ∀ other,
          zone.wallAt late ≤ other
          → other ≤ zone.wallAt early
          → zone.Repeats change other := by
  have back : zone.wallAt late ≤ zone.wallAt early := Int.le_trans restarted reached
  obtain ⟨found, above, below, _, _, window⟩ := spaced.exists_repeats ordered back
  have same : found = change := spaced.repeats_unique (window wall restarted reached) repeats
  subst same
  exact ⟨above, below, window⟩

/-- Between the two readings of a repeated time, bisection finds the change. -/
theorem bisect_eq_of_repeats (spaced : zone.Spaced) {change wall : Int}
    (repeats : zone.Repeats change wall)
    : bisect (zone.offsetAt · == zone.offsetAt (change - 1))
        (wall - zone.offsetAt (change - 1)) (wall - zone.offsetAt change) = change := by
  obtain ⟨changes, restarted, unfinished⟩ := repeats
  have oldBound := spaced.bounded (change - 1)
  have newBound := spaced.bounded change
  apply bisect_eq_of_threshold (by omega) (by omega)
  · intro moment since before
    rw [beq_iff_eq]
    exact spaced.offsetAt_before changes moment (by omega) before
  · intro moment since until_
    rw [beq_eq_false_iff_ne, spaced.offsetAt_after changes moment since (by omega)]
    exact Ne.symm changes

end Spaced

end Cadence.Zone
