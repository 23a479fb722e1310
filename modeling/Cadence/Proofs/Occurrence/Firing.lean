import Cadence.Occurrence
import Cadence.Proofs.Search.LeastDue
import Cadence.Proofs.Zone.Readings

/-! The next occurrence in an orderly zone is the next instant at which the schedule fires.
On the wall clock, a search finds the first due time that is shown at all; in the order of
instants nothing fires before it, since a clock that is set back repeats what lies between.
-/

namespace Cadence

/-- The clock shows the time of an occurrence under its offset, and not earlier. -/
structure Zone.ShowsFirst (zone : Zone) (occurrence : Occurrence) : Prop where
  offset : zone.offsetAt occurrence.instant = occurrence.offset
  first
    : ∀ instant, zone.wallAt instant = occurrence.wall → occurrence.instant ≤ instant

/-- At the instant of an occurrence with the right offset, the clock shows its time. -/
theorem Zone.wallAt_instant {zone : Zone} {occurrence : Occurrence}
    (offset : zone.offsetAt occurrence.instant = occurrence.offset)
    : zone.wallAt occurrence.instant = occurrence.wall := by
  rw [wallAt, offset, Occurrence.instant]
  omega

/-- The first reading of a time makes an occurrence that shows it first. -/
theorem Zone.showsFirst_of_reading {zone : Zone} {reading wall : Int}
    (reads : zone.wallAt reading = wall)
    (first : ∀ instant, zone.wallAt instant = wall → reading ≤ instant)
    : zone.ShowsFirst ⟨wall, zone.offsetAt reading⟩ := by
  have instant : wall - zone.offsetAt reading = reading := by
    rw [wallAt] at reads
    omega
  constructor
  · simp only [Occurrence.instant, instant]
  · intro other readsToo
    simpa only [Occurrence.instant, instant] using first other readsToo

/-- A time further ahead is shown later, unless the clock is set back between the two, and so
shows both of them twice.
-/
theorem Zone.ShowsFirst.later {zone : Zone} (orderly : zone.Orderly) {after : Int}
    {other : Occurrence} (showing : zone.ShowsFirst other)
    (ahead : zone.wallAt after < other.wall)
    (separate
      : ∀ change,
          zone.Repeats change (zone.wallAt after) → ¬ zone.Repeats change other.wall)
    : after < other.instant := by
  have wall := Zone.wallAt_instant showing.offset
  rcases Int.lt_trichotomy other.instant after with before | same | later
  · have back : zone.wallAt after ≤ zone.wallAt other.instant := by omega
    obtain ⟨change, _, _, _, _, window⟩ := orderly.exists_repeats before back
    have both : zone.Repeats change other.wall := window _ (by omega) (by omega)
    exact absurd both (separate change (window _ (Int.le_refl _) back))
  · rw [same] at wall
    omega
  · exact later

namespace Schedule

variable {schedule : Schedule} {zone : Zone}

/-- A schedule fires at instants whose wall-clock time is a whole minute that satisfies
every field; if it is no interval, the second reading of a time does not count.
-/
structure Fires (schedule : Schedule) (zone : Zone) (instant : Int) : Prop where
  whole : Clock.second (zone.wallAt instant) = 0
  satisfied : schedule.firesAt (zone.wallAt instant)
  first
    : schedule.interval = false
      → ∀ earlier < instant, zone.wallAt earlier ≠ zone.wallAt instant

/-- Firing at a time not after a due one is being due. -/
theorem Fires.due {instant time : Int} (fires : schedule.Fires zone instant)
    (due : schedule.Due time) (ordered : zone.wallAt instant ≤ time)
    : schedule.Due (zone.wallAt instant) :=
  ⟨fires.whole, fires.satisfied, Int.le_trans (Cursor.year_le_of_le ordered) due.2.2⟩

/-- After a time comes its first strictly later due time. -/
theorem nextFrom_after (schedule : Schedule) (start : Int)
    : IsFirst (· ≤ ·) (fun time => schedule.Due time ∧ start + 1 ≤ time)
        (schedule.nextFrom start false) := by
  apply (schedule.nextFrom_isFirst start false).congr
  intro time
  simp only [dueFrom, minuteStart, Set.mem_ofPred_eq, Bool.false_eq_true, if_false]
  constructor
  · intro admitted
    exact ⟨admitted.1, by omega⟩
  · intro admitted
    have whole := admitted.1.aligned
    exact ⟨admitted.1, by omega⟩

/-- From a whole minute on comes the first due time that is not before it. -/
theorem nextFrom_at (schedule : Schedule) {start : Int} (aligned : start % 60 = 0)
    : IsFirst (· ≤ ·) (fun time => schedule.Due time ∧ start ≤ time)
        (schedule.nextFrom start true) := by
  apply (schedule.nextFrom_isFirst start true).congr
  intro time
  simp only [dueFrom, minuteStart, Set.mem_ofPred_eq, if_true, aligned, Int.sub_zero]

-----------------------------------------------------------------------------------------
-- The first due time that is shown
-----------------------------------------------------------------------------------------

/-- The order of occurrences on the wall clock. -/
def WallOrder (left right : Occurrence) : Prop :=
  left.wall ≤ right.wall

/-- From a due time on, the first one that is shown is found, by induction on the times
that are skipped.
-/
theorem firstShown_isFirst (orderly : zone.Orderly) (wall : Int) (due : schedule.Due wall)
    : IsFirst WallOrder
        (fun shown => schedule.Due shown.wall ∧ wall ≤ shown.wall ∧ zone.ShowsFirst shown)
        (schedule.firstShown zone wall) := by
  have described := orderly.describes wall
  fun_induction firstShown schedule zone wall with
  | case1 wall offset classified =>
      rw [classified] at described
      obtain ⟨reading, rfl, only⟩ := described
      have shown := Zone.showsFirst_of_reading ((only reading).mpr rfl)
        (fun instant reads => Int.le_of_eq ((only instant).mp reads).symm)
      exact ⟨⟨due, Int.le_refl _, shown⟩, fun other admitted => admitted.2.1⟩
  | case2 wall first second classified =>
      rw [classified] at described
      obtain ⟨early, late, ordered, rfl, rfl, only⟩ := described
      have earliest (instant : Int) (reads : zone.wallAt instant = wall)
          : early ≤ instant := by
        rcases (only instant).mp reads with same | same <;> omega
      have shown := Zone.showsFirst_of_reading ((only early).mpr (Or.inl rfl)) earliest
      exact ⟨⟨due, Int.le_refl _, shown⟩, fun other admitted => admitted.2.1⟩
  | case3 wall classified exhausted =>
      have none := schedule.nextFrom_after wall
      rw [exhausted] at none
      rw [classified] at described
      intro shown admitted
      obtain ⟨shownDue, later, showing⟩ := admitted
      rcases Int.lt_or_eq_of_le later with after | same
      · exact none shown.wall ⟨shownDue, after⟩
      · exact described _ ((Zone.wallAt_instant showing.offset).trans same.symm)
  | case4 wall classified later found ih =>
      have next := schedule.nextFrom_after wall
      rw [found] at next
      obtain ⟨⟨laterDue, raised⟩, least⟩ := next
      apply (ih laterDue (orderly.describes later)).congr
      intro shown
      rw [classified] at described
      constructor
      · intro admitted
        obtain ⟨shownDue, notBefore, showing⟩ := admitted
        refine ⟨shownDue, least _ ⟨shownDue, ?_⟩, showing⟩
        rcases Int.lt_or_eq_of_le notBefore with after | same
        · exact after
        · exact absurd ((Zone.wallAt_instant showing.offset).trans same.symm) (described _)
      · intro admitted
        obtain ⟨shownDue, notBefore, showing⟩ := admitted
        exact ⟨shownDue, Int.le_trans (Int.le_of_lt raised) notBefore, showing⟩

/-- A search that is resumed finds the first due time shown, if its start is passed on to
the search for due times.
-/
theorem resume_isFirst (orderly : zone.Orderly) {start : Int} {inclusive : Bool}
    {bound : Int}
    (next
      : IsFirst (· ≤ ·) (fun time => schedule.Due time ∧ bound ≤ time)
          (schedule.nextFrom start inclusive))
    : IsFirst WallOrder
        (fun shown => schedule.Due shown.wall ∧ bound ≤ shown.wall ∧ zone.ShowsFirst shown)
        (schedule.resume zone start inclusive) := by
  rw [resume]
  cases found : schedule.nextFrom start inclusive with
  | none =>
      rw [found] at next
      intro shown admitted
      exact next shown.wall ⟨admitted.1, admitted.2.1⟩
  | some due =>
      rw [found] at next
      obtain ⟨⟨isDue, notBefore⟩, least⟩ := next
      apply (firstShown_isFirst orderly due isDue).congr
      intro shown
      constructor
      · intro admitted
        exact ⟨admitted.1, least _ ⟨admitted.1, admitted.2.1⟩, admitted.2.2⟩
      · intro admitted
        exact ⟨admitted.1, Int.le_trans notBefore admitted.2.1, admitted.2.2⟩

-----------------------------------------------------------------------------------------
-- From the wall clock to instants
-----------------------------------------------------------------------------------------

/-- What is shown first and due is fired. -/
theorem Fires.of_showsFirst {shown : Occurrence} (due : schedule.Due shown.wall)
    (showing : zone.ShowsFirst shown)
    : schedule.Fires zone shown.instant := by
  have wall := Zone.wallAt_instant showing.offset
  refine ⟨?_, ?_, ?_⟩
  · rw [wall]
    exact due.1
  · rw [wall]
    exact due.2.1
  · intro _ earlier before same
    rw [wall] at same
    exact absurd (showing.first earlier same) (Int.not_le.mpr before)

/-- The first due time shown from a bound on is the next instant at which the schedule
fires, if the bound separates what is shown after `after` from what is not. An instant that
fired in between would show a due time: an earlier one contradicts the search, and a later
one must have been set back, so that the time found was shown before.
-/
theorem isLeast_of_isFirst (orderly : zone.Orderly) {after bound : Int} {shown : Occurrence}
    (first
      : IsFirst WallOrder
          (fun shown => schedule.Due shown.wall ∧ bound ≤ shown.wall ∧ zone.ShowsFirst shown)
          (some shown))
    (onward
      : ∀ instant,
          after < instant → schedule.Fires zone instant → bound ≤ zone.wallAt instant)
    (beyond : ∀ other, bound ≤ other.wall → zone.ShowsFirst other → after < other.instant)
    : IsLeast {instant | after < instant ∧ schedule.Fires zone instant} shown.instant := by
  obtain ⟨⟨due, notBefore, showing⟩, least⟩ := first
  have wall := Zone.wallAt_instant showing.offset
  refine ⟨⟨beyond shown notBefore showing, .of_showsFirst due showing⟩, ?_⟩
  intro instant fired
  obtain ⟨later, fires⟩ := fired
  by_contra missed
  have early : instant < shown.instant := Int.not_le.mp missed
  have reached := onward instant later fires
  rcases Int.lt_or_le shown.wall (zone.wallAt instant) with ahead | behind
  · have back : zone.wallAt shown.instant ≤ zone.wallAt instant := by omega
    obtain ⟨change, _, _, before, _, repeats⟩ := orderly.exists_repeats early back
    have readings :=
      orderly.wallAt_eq_iff_of_repeats (repeats shown.wall (by omega) (by omega))
    have shownBefore := showing.first _ ((readings _).mpr (Or.inl rfl))
    rw [before] at shownBefore
    simp only [Zone.wallAt] at ahead
    omega
  · have dueThen := fires.due due behind
    obtain ⟨reading, reads, earliest⟩ :=
      orderly.exists_first_reading (orderly.not_skipped instant)
    have notLess := least ⟨zone.wallAt instant, zone.offsetAt reading⟩
      ⟨dueThen, reached, Zone.showsFirst_of_reading reads earliest⟩
    have same : zone.wallAt instant = shown.wall := Int.le_antisymm behind notLess
    exact missed (showing.first instant same)

/-- If nothing is shown from a bound on, every due time there is skipped. -/
theorem skipped_of_isFirst (orderly : zone.Orderly) {bound : Int}
    (first
      : IsFirst WallOrder
          (fun shown => schedule.Due shown.wall ∧ bound ≤ shown.wall ∧ zone.ShowsFirst shown)
          none)
    {time : Int} (due : schedule.Due time) (notBefore : bound ≤ time)
    : zone.classify time = .skipped := by
  by_contra shown
  obtain ⟨reading, reads, earliest⟩ := orderly.exists_first_reading shown
  exact first ⟨time, zone.offsetAt reading⟩
    ⟨due, notBefore, Zone.showsFirst_of_reading reads earliest⟩

end Schedule

end Cadence
