import Cadence.Proofs.Occurrence.Firing
import Cadence.Schedule.Shorthand
import Mathlib

/-! The next occurrence around a clock that is set back. A window is the stretch of wall-clock
times that a change shows twice; from its first pass the search goes on to the second, and
from there past the window. Main result: in a regular zone the next occurrence is the least
firing instant that is strictly later.
-/

namespace Cadence.Schedule

variable {schedule : Schedule} {zone : Zone} {change after : Int}

-----------------------------------------------------------------------------------------
-- Instants in a window
-----------------------------------------------------------------------------------------

/-- A later instant whose time precedes the end of the window lies in the window; it shows
a later time unless the clock has been set back in between.
-/
theorem repeats_of_later (orderly : zone.Orderly)
    (repeats : zone.Repeats change (zone.wallAt after)) {instant : Int}
    (later : after < instant)
    (unfinished : zone.wallAt instant < change + zone.offsetAt (change - 1))
    : zone.Repeats change (zone.wallAt instant)
      ∧ (zone.wallAt after < zone.wallAt instant ∨ after < change ∧ change ≤ instant) := by
  have restarted := repeats.restarted
  rcases Int.lt_or_le (zone.wallAt after) (zone.wallAt instant) with ahead | back
  · exact ⟨⟨repeats.changes, by omega, unfinished⟩, Or.inl ahead⟩
  · obtain ⟨above, below, window⟩ :=
      orderly.repeats_of_back repeats later back (Int.le_refl _)
    exact ⟨window _ (Int.le_refl _) back, Or.inr ⟨above, below⟩⟩

/-- What is shown first from the end of the window on is later than every instant in it. -/
theorem later_of_window_passed (orderly : zone.Orderly)
    (repeats : zone.Repeats change (zone.wallAt after)) {other : Occurrence}
    (passed : change + zone.offsetAt (change - 1) ≤ other.wall)
    (showing : zone.ShowsFirst other)
    : after < other.instant := by
  have unfinished := repeats.unfinished
  apply showing.later orderly (Int.lt_of_lt_of_le unfinished passed)
  intro found repeatsToo window
  have same : found = change := orderly.repeats_unique repeatsToo repeats
  subst same
  exact absurd window.unfinished (Int.not_lt.mpr passed)

/-- In the second pass of a window every time has been shown before. -/
theorem not_fires_in_second_pass (orderly : zone.Orderly) (plain : schedule.interval = false)
    {instant : Int} (repeats : zone.Repeats change (zone.wallAt instant))
    (second : change ≤ instant)
    : ¬ schedule.Fires zone instant := by
  intro fires
  have readings := orderly.wallAt_eq_iff_of_repeats repeats
  have unfinished := repeats.unfinished
  have offset := (orderly.offsetAt_of_repeats repeats).2 second
  have restarted := repeats.restarted
  have earlier := (readings _).mpr (Or.inl rfl)
  refine fires.first plain _ ?_ earlier
  simp only [Zone.wallAt] at unfinished ⊢
  omega

-----------------------------------------------------------------------------------------
-- The second pass
-----------------------------------------------------------------------------------------

/-- The search from the second pass of a window, where `bound` is the first time of the
second pass that is still to come.
-/
structure SecondPass (schedule : Schedule) (zone : Zone) (change after bound : Int)
    : Prop where
  repeats : zone.Repeats change (zone.wallAt after)
  restarted : change + zone.offsetAt change ≤ bound
  onward
    : ∀ instant,
        after < instant
        → schedule.Fires zone instant
        → zone.wallAt instant < change + zone.offsetAt (change - 1)
        → change ≤ instant ∧ bound ≤ zone.wallAt instant
  beyond : ∀ wall, bound ≤ wall → after < wall - zone.offsetAt change

/-- The next instant at which a schedule fires, with the offset of an occurrence. -/
structure IsNext (schedule : Schedule) (zone : Zone) (after : Int) (occurrence : Occurrence)
    : Prop where
  offset : zone.offsetAt occurrence.instant = occurrence.offset
  least
    : IsLeast {instant | after < instant ∧ schedule.Fires zone instant} occurrence.instant

variable {bound start : Int} {inclusive : Bool}

namespace SecondPass

/-- An interval that is due in the second pass fires there. An earlier firing instant would
show a due time in the pass, or one after the window that the clock then sets back.
-/
theorem isNext_of_due (orderly : zone.Orderly)
    (pass : SecondPass schedule zone change after bound) (interval : schedule.interval)
    {due : Int}
    (first : IsFirst (· ≤ ·) (fun time => schedule.Due time ∧ bound ≤ time) (some due))
    (unfinished : due < change + zone.offsetAt (change - 1))
    : IsNext schedule zone after ⟨due, zone.offsetAt change⟩ := by
  obtain ⟨⟨isDue, notBefore⟩, least⟩ := first
  have repeats : zone.Repeats change due :=
    ⟨pass.repeats.changes, Int.le_trans pass.restarted notBefore, unfinished⟩
  have shown : zone.wallAt (due - zone.offsetAt change) = due :=
    (orderly.wallAt_eq_iff_of_repeats repeats _).mpr (Or.inr rfl)
  refine ⟨?_, ⟨pass.beyond due notBefore, ?_, ?_, ?_⟩, ?_⟩
  · simp only [Zone.wallAt] at shown
    simp only [Occurrence.instant]
    omega
  · simp only [Occurrence.instant, shown]
    exact isDue.1
  · simp only [Occurrence.instant, shown]
    exact isDue.2.1
  · intro plain
    exact absurd interval (by simp [plain])
  · intro instant fired
    obtain ⟨later, fires⟩ := fired
    by_contra missed
    have early : instant < due - zone.offsetAt change := Int.not_le.mp missed
    rcases Int.lt_or_le (zone.wallAt instant) (change + zone.offsetAt (change - 1))
      with inside | outside
    · obtain ⟨second, reached⟩ := pass.onward instant later fires inside
      have window := (repeats_of_later orderly pass.repeats later inside).1
      have offset := (orderly.offsetAt_of_repeats window).2 second
      have before : zone.wallAt instant < due := by
        rw [Zone.wallAt, offset]
        omega
      have notLess := least _ ⟨fires.due isDue (Int.le_of_lt before), reached⟩
      exact absurd before (Int.not_lt.mpr notLess)
    · have back : zone.wallAt (due - zone.offsetAt change) ≤ zone.wallAt instant := by omega
      obtain ⟨_, _, window⟩ :=
        orderly.repeats_of_back repeats early (Int.le_of_eq shown) (by omega)
      have repeated := (window _ back (Int.le_refl _)).unfinished
      omega

/-- Once no firing instant is left in the second pass, the search goes on past the window. -/
theorem isNext_of_resumed (orderly : zone.Orderly)
    (pass : SecondPass schedule zone change after bound)
    (spent
      : ∀ instant,
          after < instant
          → schedule.Fires zone instant
          → change + zone.offsetAt (change - 1) ≤ zone.wallAt instant)
    {shown : Occurrence}
    (found
      : schedule.resume zone (change + zone.offsetAt (change - 1)) true = some shown)
    : IsNext schedule zone after shown := by
  have first := resume_isFirst orderly
    (schedule.nextFrom_at (orderly.wholeWindow _ _ pass.repeats).2)
  rw [found] at first
  refine ⟨first.1.2.2.offset, isLeast_of_isFirst orderly first spent ?_⟩
  intro other passed showing
  exact later_of_window_passed orderly pass.repeats passed showing

/-- The search from the second pass answers with the next firing instant. An interval still
fires in the window, and a plain schedule only after it.
-/
theorem isNext_of_inSecondPass (orderly : zone.Orderly)
    (pass : SecondPass schedule zone change after bound)
    (next
      : IsFirst (· ≤ ·) (fun time => schedule.Due time ∧ bound ≤ time)
          (schedule.nextFrom start inclusive))
    {shown : Occurrence}
    (found
      : schedule.inSecondPass zone (zone.windowAt change) start inclusive = some shown)
    : IsNext schedule zone after shown := by
  simp only [inSecondPass] at found
  split at found
  · next interval =>
    split at found
    · simp at found
    · next due reached =>
      rw [reached] at next
      split at found
      · next unfinished =>
        obtain rfl := Option.some.inj found
        exact pass.isNext_of_due orderly interval next unfinished
      · next passed =>
        have ended : change + zone.offsetAt (change - 1) ≤ due := Int.not_lt.mp passed
        refine pass.isNext_of_resumed orderly ?_ found
        intro instant later fires
        by_contra inside
        have unfinished := Int.not_le.mp inside
        obtain ⟨_, notBefore⟩ := pass.onward instant later fires unfinished
        have dueThen := fires.due next.1.1 (by omega)
        have notLess := next.2 _ ⟨dueThen, notBefore⟩
        omega
  · next noInterval =>
    refine pass.isNext_of_resumed orderly ?_ found
    intro instant later fires
    by_contra inside
    have unfinished := Int.not_le.mp inside
    obtain ⟨second, _⟩ := pass.onward instant later fires unfinished
    have window := (repeats_of_later orderly pass.repeats later unfinished).1
    exact not_fires_in_second_pass orderly (Bool.eq_false_iff.mpr noInterval) window second
      fires

/-- If the search from the second pass gives up, what is still due is skipped, or a plain
schedule has fired it in the first pass.
-/
theorem skipped_of_inSecondPass (orderly : zone.Orderly)
    (pass : SecondPass schedule zone change after bound)
    (next
      : IsFirst (· ≤ ·) (fun time => schedule.Due time ∧ bound ≤ time)
          (schedule.nextFrom start inclusive))
    (found : schedule.inSecondPass zone (zone.windowAt change) start inclusive = none)
    {time : Int} (due : schedule.Due time) (notBefore : bound ≤ time)
    : zone.classify time = .skipped
      ∨ schedule.interval = false ∧ time < change + zone.offsetAt (change - 1) := by
  have resumed := resume_isFirst orderly
    (schedule.nextFrom_at (orderly.wholeWindow _ _ pass.repeats).2)
  have skipped (none : schedule.resume zone (change + zone.offsetAt (change - 1)) true = none)
      (passed : change + zone.offsetAt (change - 1) ≤ time)
      : zone.classify time = .skipped := by
    rw [none] at resumed
    exact skipped_of_isFirst orderly resumed due passed
  simp only [inSecondPass] at found
  split at found
  · split at found
    · next exhausted =>
      rw [exhausted] at next
      exact absurd ⟨due, notBefore⟩ (next time)
    · next first reached =>
      rw [reached] at next
      split at found
      · simp at found
      · next passed =>
        have ended : change + zone.offsetAt (change - 1) ≤ first := Int.not_lt.mp passed
        have notLess := next.2 time ⟨due, notBefore⟩
        exact Or.inl (skipped found (by omega))
  · next noInterval =>
    rcases Int.lt_or_le time (change + zone.offsetAt (change - 1)) with inside | outside
    · exact Or.inr ⟨Bool.eq_false_iff.mpr noInterval, inside⟩
    · exact Or.inl (skipped found outside)

/-- An instant in the second pass has only later times of the pass before it. -/
theorem of_second (orderly : zone.Orderly) (schedule : Schedule)
    (repeats : zone.Repeats change (zone.wallAt after)) (second : change ≤ after)
    : SecondPass schedule zone change after (zone.wallAt after + 1) := by
  have restarted := repeats.restarted
  have offset := (orderly.offsetAt_of_repeats repeats).2 second
  refine ⟨repeats, by omega, ?_, ?_⟩
  · intro instant later _ unfinished
    obtain ⟨_, ahead⟩ := repeats_of_later orderly repeats later unfinished
    omega
  · intro wall ahead
    rw [Zone.wallAt] at ahead
    omega

/-- Once nothing more is due in the first pass, the whole second pass lies ahead. -/
theorem of_first (orderly : zone.Orderly)
    (repeats : zone.Repeats change (zone.wallAt after)) (first : after < change) {due : Int}
    (next
      : IsFirst (· ≤ ·) (fun time => schedule.Due time ∧ zone.wallAt after + 1 ≤ time)
          (some due))
    (passed : change + zone.offsetAt (change - 1) ≤ due)
    : SecondPass schedule zone change after (change + zone.offsetAt change) := by
  refine ⟨repeats, Int.le_refl _, ?_, ?_⟩
  · intro instant later fires unfinished
    obtain ⟨window, ahead | back⟩ := repeats_of_later orderly repeats later unfinished
    · have dueThen := fires.due next.1.1 (by omega)
      have notLess := next.2 _ ⟨dueThen, ahead⟩
      omega
    · exact ⟨back.2, window.restarted⟩
  · intro wall restarted
    omega

end SecondPass

-----------------------------------------------------------------------------------------
-- The first pass
-----------------------------------------------------------------------------------------

/-- What is due in the first pass fires there, since the old offset holds until the change. -/
theorem isNext_of_first_pass (orderly : zone.Orderly)
    (repeats : zone.Repeats change (zone.wallAt after)) (first : after < change) {due : Int}
    (next
      : IsFirst (· ≤ ·) (fun time => schedule.Due time ∧ zone.wallAt after + 1 ≤ time)
          (some due))
    (unfinished : due < change + zone.offsetAt (change - 1))
    : IsNext schedule zone after ⟨due, zone.offsetAt (change - 1)⟩ := by
  obtain ⟨⟨isDue, ahead⟩, least⟩ := next
  have restarted := repeats.restarted
  have offset := (orderly.offsetAt_of_repeats repeats).1 first
  have window : zone.Repeats change due := ⟨repeats.changes, by omega, unfinished⟩
  have readings := orderly.wallAt_eq_iff_of_repeats window
  have shown : zone.wallAt (due - zone.offsetAt (change - 1)) = due :=
    (readings _).mpr (Or.inl rfl)
  have showing : zone.ShowsFirst ⟨due, zone.offsetAt (change - 1)⟩ := by
    constructor
    · simp only [Zone.wallAt] at shown
      simp only [Occurrence.instant]
      omega
    · intro instant reads
      simp only [Occurrence.instant]
      rcases (readings instant).mp reads with same | same <;> omega
  refine ⟨showing.offset, ⟨?_, .of_showsFirst isDue showing⟩, ?_⟩
  · simp only [Occurrence.instant, Zone.wallAt] at ahead ⊢
    omega
  · intro instant fired
    obtain ⟨later, fires⟩ := fired
    by_contra missed
    have early : instant < due - zone.offsetAt (change - 1) := Int.not_le.mp missed
    have bounds := orderly.bounded (change - 1)
    have newBounds := orderly.bounded change
    have held := orderly.offsetAt_before repeats.changes instant
      (by rw [Zone.wallAt] at restarted; omega) (by omega)
    have before : zone.wallAt instant < due := by
      rw [Zone.wallAt, held]
      omega
    have notLess := least (zone.wallAt instant)
      ⟨fires.due isDue (Int.le_of_lt before), by simp only [Zone.wallAt]; omega⟩
    exact absurd before (Int.not_lt.mpr notLess)

-----------------------------------------------------------------------------------------
-- Any position
-----------------------------------------------------------------------------------------

/-- Away from windows the clock advances, so that the search on the wall clock finds the
next firing instant.
-/
theorem isNext_of_unrepeated (orderly : zone.Orderly)
    (single : ∀ change, ¬ zone.Repeats change (zone.wallAt after)) {shown : Occurrence}
    (found : schedule.resume zone (zone.wallAt after) false = some shown)
    : IsNext schedule zone after shown := by
  have first := resume_isFirst orderly (schedule.nextFrom_after (zone.wallAt after))
  rw [found] at first
  refine ⟨first.1.2.2.offset, isLeast_of_isFirst orderly first ?_ ?_⟩
  · intro instant later _
    exact orderly.wallAt_lt_of_unrepeated later single
  · intro other ahead showing
    exact showing.later orderly ahead fun change repeats => absurd repeats (single change)

/-- Whether an instant in a window is in its second pass shows in its offset. -/
theorem offsetAt_eq_iff_second (orderly : zone.Orderly)
    (repeats : zone.Repeats change (zone.wallAt after))
    : zone.offsetAt after = (zone.windowAt change).after ↔ change ≤ after := by
  have offsets := orderly.offsetAt_of_repeats repeats
  have differ := repeats.changes
  rw [Zone.ChangesAt] at differ
  simp only [Zone.windowAt]
  omega

/-- The search does what the window and the pass of the clock call for. -/
theorem nextIn_eq (schedule : Schedule) (zone : Zone) (after : Moment)
    : schedule.nextIn zone after
      = match zone.window? (after.wall (zone.offsetAt after.second)) with
        | none =>
          schedule.resume zone (after.wall (zone.offsetAt after.second)) false
        | some window =>
          if zone.offsetAt after.second = window.after then
            schedule.inSecondPass zone window (after.wall (zone.offsetAt after.second)) false
          else
            schedule.inFirstPass zone window (after.wall (zone.offsetAt after.second)) :=
  rfl

/-- From a counted second the search starts with what the clock shows there. -/
theorem nextIn_counted (schedule : Schedule) (zone : Zone) (after : Int)
    : schedule.nextIn zone (Moment.counted after)
      = match zone.window? (zone.wallAt after) with
        | none => schedule.resume zone (zone.wallAt after) false
        | some window =>
          if zone.offsetAt after = window.after then
            schedule.inSecondPass zone window (zone.wallAt after) false
          else schedule.inFirstPass zone window (zone.wallAt after) := by
  rw [nextIn_eq, Moment.wall_counted]
  rfl

/-- Away from windows the search continues from what the clock shows. -/
theorem nextIn_of_unrepeated (orderly : zone.Orderly)
    (single : ∀ change, ¬ zone.Repeats change (zone.wallAt after))
    : schedule.nextIn zone (Moment.counted after)
      = schedule.resume zone (zone.wallAt after) false := by
  rw [nextIn_counted, orderly.window?_of_unrepeated single]

/-- In the second pass of a window the search looks at the rest of the pass first. -/
theorem nextIn_of_second (orderly : zone.Orderly)
    (repeats : zone.Repeats change (zone.wallAt after)) (second : change ≤ after)
    : schedule.nextIn zone (Moment.counted after)
      = schedule.inSecondPass zone (zone.windowAt change) (zone.wallAt after) false := by
  have offset := (offsetAt_eq_iff_second orderly repeats).mpr second
  rw [nextIn_counted, orderly.window?_of_repeats repeats]
  exact if_pos offset

/-- In the first pass of a window the search looks at both passes. -/
theorem nextIn_of_first (orderly : zone.Orderly)
    (repeats : zone.Repeats change (zone.wallAt after)) (first : after < change)
    : schedule.nextIn zone (Moment.counted after)
      = schedule.inFirstPass zone (zone.windowAt change) (zone.wallAt after) := by
  have offset := mt (offsetAt_eq_iff_second orderly repeats).mp (Int.not_le.mpr first)
  rw [nextIn_counted, orderly.window?_of_repeats repeats]
  exact if_neg offset

/-- A clock shows a time that is not repeated, or is in the second or the first pass of a
window.
-/
theorem position_cases (zone : Zone) (after : Int)
    : (∀ change, ¬ zone.Repeats change (zone.wallAt after))
      ∨ (∃ change ≤ after, zone.Repeats change (zone.wallAt after))
      ∨ ∃ change, after < change ∧ zone.Repeats change (zone.wallAt after) := by
  by_cases single : ∀ change, ¬ zone.Repeats change (zone.wallAt after)
  · exact Or.inl single
  · push Not at single
    obtain ⟨change, repeats⟩ := single
    rcases Int.lt_or_le after change with first | second
    · exact Or.inr (Or.inr ⟨change, first, repeats⟩)
    · exact Or.inr (Or.inl ⟨change, second, repeats⟩)

/-- The next occurrence is the next firing instant, wherever the clock stands. -/
theorem nextIn_isNext (orderly : zone.Orderly) {shown : Occurrence}
    (found : schedule.nextIn zone (Moment.counted after) = some shown)
    : IsNext schedule zone after shown := by
  have next := schedule.nextFrom_after (zone.wallAt after)
  rcases position_cases zone after with
    single | ⟨change, second, repeats⟩ | ⟨change, first, repeats⟩
  · rw [nextIn_of_unrepeated orderly single] at found
    exact isNext_of_unrepeated orderly single found
  · rw [nextIn_of_second orderly repeats second] at found
    have pass := SecondPass.of_second orderly schedule repeats second
    exact pass.isNext_of_inSecondPass orderly next found
  · rw [nextIn_of_first orderly repeats first, inFirstPass] at found
    split at found
    · simp at found
    · next due reached =>
      rw [reached] at next
      split at found
      · next unfinished =>
        obtain rfl := Option.some.inj found
        exact isNext_of_first_pass orderly repeats first next unfinished
      · next passed =>
        have pass := SecondPass.of_first orderly repeats first next (Int.not_lt.mp passed)
        have restart := schedule.nextFrom_at (orderly.wholeWindow _ _ repeats).1
        rw [Zone.restart_windowAt] at found
        exact pass.isNext_of_inSecondPass orderly restart found

/-- The clock is in the second pass of a window, and a wall-clock time lies in the rest of
that window.
-/
def InRestOfSecondPass (zone : Zone) (after time : Int) : Prop :=
  ∃ change ≤ after,
    zone.Repeats change (zone.wallAt after)
    ∧ zone.Repeats change time
    ∧ zone.wallAt after < time

/-- If there is no next occurrence, what is still due is skipped, or a plain schedule has
fired it before.
-/
theorem nextIn_skips (orderly : zone.Orderly)
    (found : schedule.nextIn zone (Moment.counted after) = none) {time : Int}
    (due : schedule.Due time) (ahead : zone.wallAt after < time)
    : zone.classify time = .skipped
      ∨ schedule.interval = false ∧ InRestOfSecondPass zone after time := by
  have next := schedule.nextFrom_after (zone.wallAt after)
  rcases position_cases zone after with
    single | ⟨change, second, repeats⟩ | ⟨change, first, repeats⟩
  · rw [nextIn_of_unrepeated orderly single] at found
    have shown := resume_isFirst orderly next
    rw [found] at shown
    exact Or.inl (skipped_of_isFirst orderly shown due ahead)
  · rw [nextIn_of_second orderly repeats second] at found
    have pass := SecondPass.of_second orderly schedule repeats second
    have restarted := repeats.restarted
    rcases pass.skipped_of_inSecondPass orderly next found due ahead
      with skipped | ⟨plain, unfinished⟩
    · exact Or.inl skipped
    · have window : zone.Repeats change time := ⟨repeats.changes, by omega, unfinished⟩
      exact Or.inr ⟨plain, change, second, repeats, window, ahead⟩
  · rw [nextIn_of_first orderly repeats first, inFirstPass] at found
    split at found
    · next exhausted =>
      rw [exhausted] at next
      exact absurd ⟨due, ahead⟩ (next time)
    · next earliest reached =>
      rw [reached] at next
      split at found
      · simp at found
      · next passed =>
        have ended : change + zone.offsetAt (change - 1) ≤ earliest := Int.not_lt.mp passed
        have notLess := next.2 time ⟨due, ahead⟩
        have unfinished := repeats.unfinished
        have restarted := repeats.restarted
        have pass := SecondPass.of_first orderly repeats first next ended
        have restart := schedule.nextFrom_at (orderly.wholeWindow _ _ repeats).1
        rw [Zone.restart_windowAt] at found
        rcases pass.skipped_of_inSecondPass orderly restart found due (by omega)
          with skipped | ⟨_, inside⟩
        · exact Or.inl skipped
        · omega

/-- Regular zones are orderly, so that the next occurrence is the next firing instant. -/
theorem isNext_of_nextIn (regular : zone.Regular) {shown : Occurrence}
    (found : schedule.nextIn zone (Moment.counted after) = some shown)
    : IsNext schedule zone after shown :=
  nextIn_isNext regular.orderly found

/-- Regular zones are orderly, so that what is still due without a next occurrence is skipped
or has been fired before.
-/
theorem skipped_of_nextIn (regular : zone.Regular)
    (found : schedule.nextIn zone (Moment.counted after) = none) {time : Int}
    (due : schedule.Due time) (ahead : zone.wallAt after < time)
    : zone.classify time = .skipped
      ∨ schedule.interval = false ∧ InRestOfSecondPass zone after time :=
  nextIn_skips regular.orderly found due ahead

/-- In a regular zone the next occurrence is the least firing instant strictly later, with
the offset in force. There is no next occurrence only if every later due time is skipped,
or a plain schedule has fired it before, in the first pass of the window whose second pass
is running.
-/
theorem nextIn_isLeast_firing (regular : zone.Regular) (schedule : Schedule) (after : Int)
    : (∀ occurrence,
          schedule.nextIn zone (Moment.counted after) = some occurrence
          → IsLeast {instant | after < instant ∧ schedule.Fires zone instant}
              occurrence.instant
            ∧ occurrence.offset = zone.offsetAt occurrence.instant)
      ∧ (schedule.nextIn zone (Moment.counted after) = none
          → ∀ time,
              schedule.Due time
              → zone.wallAt after < time
              → zone.classify time = .skipped
                ∨ schedule.interval = false ∧ InRestOfSecondPass zone after time) := by
  constructor
  · intro occurrence found
    have next := isNext_of_nextIn regular found
    exact ⟨next.least, next.offset.symm⟩
  · intro found time due ahead
    exact skipped_of_nextIn regular found due ahead

/-- A zone that is an hour ahead of UTC until its clocks are set back at some moment. -/
def setBackAt (change : Int) : Zone where
  offsetAt instant := if instant < change then 3600 else 0
  classify wall :=
    if wall < change then .valid 3600
    else if wall < change + 3600 then .repeated 3600 0 else .valid 0

/-- A zone that is an hour ahead of UTC until the clocks are set back at the start of 1970. -/
def setBackOnce : Zone :=
  setBackAt 0

/-- A zone that is set back on a whole minute is regular, by its two offsets and three
classes.
-/
theorem setBackAt_regular {change : Int} (whole : change % 60 = 0)
    : (setBackAt change).Regular := by
  refine ⟨⟨?_, ?_⟩, ?_, ?_, ?_⟩
  · intro instant
    simp only [setBackAt]
    split <;> omega
  · intro early late before changes changesToo
    simp only [Zone.ChangesAt, setBackAt] at changes changesToo
    split at changes <;> split at changes <;> split at changesToo <;>
      split at changesToo <;> omega
  · intro instant
    simp only [setBackAt]
    split <;> omega
  · intro instant changes
    simp only [Zone.ChangesAt, setBackAt] at changes
    split at changes <;> split at changes <;> omega
  · intro wall
    rcases Int.lt_or_le wall change with before | after
    · have classified : (setBackAt change).classify wall = .valid 3600 := by
        simp [setBackAt, before]
      rw [classified]
      refine ⟨wall - 3600, ?_, ?_⟩
      · simp only [setBackAt]
        split <;> omega
      · intro instant
        simp only [Zone.wallAt, setBackAt]
        split <;> omega
    · rcases Int.lt_or_le wall (change + 3600) with inside | outside
      · have classified : (setBackAt change).classify wall = .repeated 3600 0 := by
          simp [setBackAt, Int.not_lt.mpr after, inside]
        rw [classified]
        refine ⟨wall - 3600, wall, by omega, ?_, ?_, ?_⟩
        · simp only [setBackAt]
          split <;> omega
        · simp only [setBackAt]
          split <;> omega
        · intro instant
          simp only [Zone.wallAt, setBackAt]
          split <;> omega
      · have classified : (setBackAt change).classify wall = .valid 0 := by
          simp [setBackAt, Int.not_lt.mpr after, Int.not_lt.mpr outside]
        rw [classified]
        refine ⟨wall, ?_, ?_⟩
        · simp only [setBackAt]
          split <;> omega
        · intro instant
          simp only [Zone.wallAt, setBackAt]
          split <;> omega

theorem setBackOnce_regular : setBackOnce.Regular :=
  setBackAt_regular (by decide)

/-- Half an hour before the clocks are set back from one o'clock, the next full hour is
midnight once more.
-/
theorem nextIn_isLeast_firing_setBackOnce
    : setBackOnce.Regular
      ∧ Shorthand.hourly.schedule.nextIn setBackOnce (Moment.counted (-1800)) = some ⟨0, 0⟩
      ∧ IsLeast
          {instant |
            -1800 < instant ∧ Shorthand.hourly.schedule.Fires setBackOnce instant}
          0 := by
  have found
      : Shorthand.hourly.schedule.nextIn setBackOnce (Moment.counted (-1800))
        = some ⟨0, 0⟩ := by
    cbv
  have next := (nextIn_isLeast_firing setBackOnce_regular Shorthand.hourly.schedule (-1800)).1
    _ found
  exact ⟨setBackOnce_regular, found, next.1⟩

end Cadence.Schedule
