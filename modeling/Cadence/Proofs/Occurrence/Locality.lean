import Cadence.Proofs.Occurrence.SameMasks

/-! What a search asks of a zone. Besides the offset at its start and the window that is
open then, it asks how due times are classified, from the one it tries first up to the one
it answers with. So it finds the same in every zone that answers these questions alike.
-/

namespace Cadence

namespace Zone

/-- What the clock of a zone shows at a moment. -/
def shownAt (zone : Zone) (moment : Moment) : Int :=
  moment.wall (zone.offsetAt moment.second)

/-- Two zones classify the times of a span alike. -/
def AgreeOn (left right : Zone) (low high : Int) : Prop :=
  ∀ wall, low ≤ wall → wall ≤ high → left.classify wall = right.classify wall

theorem AgreeOn.mono {left right : Zone} {low high start finish : Int}
    (agree : left.AgreeOn right low high) (above : low ≤ start) (below : finish ≤ high)
    : left.AgreeOn right start finish :=
  fun wall since until_ => agree wall (Int.le_trans above since) (Int.le_trans until_ below)

/-- What a search finds in a zone is not before `low`, and every zone that classifies the
times from `low` up to it alike has the same answer.
-/
def Decides (zone : Zone) (low : Int) (search : Zone → Option Occurrence) : Prop :=
  ∀ shown,
    search zone = some shown
    → low ≤ shown.wall
      ∧ ∀ other, zone.AgreeOn other low shown.wall → search other = some shown

/-- A search that never looks at the zone finds the same in all of them. -/
theorem decides_const (zone : Zone) {low : Int} {shown : Occurrence}
    (notBefore : low ≤ shown.wall)
    : zone.Decides low fun _ => some shown := by
  intro answer found
  obtain rfl := Option.some.inj found
  exact ⟨notBefore, fun other agree => rfl⟩

theorem Decides.mono {zone : Zone} {low start : Int} {search : Zone → Option Occurrence}
    (decides : zone.Decides start search) (above : low ≤ start)
    : zone.Decides low search := by
  intro shown found
  obtain ⟨notBefore, same⟩ := decides shown found
  exact ⟨Int.le_trans above notBefore,
    fun other agree => same other (agree.mono above (Int.le_refl _))⟩

end Zone

namespace Schedule

variable {schedule : Schedule} {zone : Zone}

/-- A due time that is found is at most a minute before the start of the search. -/
theorem start_lt_of_nextFrom {start due : Int} {inclusive : Bool}
    (found : schedule.nextFrom start inclusive = some due)
    : start < due + 60 := by
  have first := schedule.nextFrom_isFirst start inclusive
  rw [found] at first
  obtain ⟨_, admitted⟩ := first.1
  simp only [minuteStart] at admitted
  split at admitted <;> omega

/-- From a due time on, only the times that are tried are classified, by induction on
those that are skipped.
-/
theorem firstShown_decides (schedule : Schedule) (zone : Zone) (wall : Int)
    : zone.Decides wall (schedule.firstShown · wall) := by
  intro shown answer
  beta_reduce at answer ⊢
  fun_induction firstShown schedule zone wall with
  | case1 wall offset classified =>
      obtain rfl := Option.some.inj answer
      refine ⟨Int.le_refl _, ?_⟩
      intro other agree
      have same := agree wall (Int.le_refl _) (Int.le_refl _)
      rw [firstShown, ← same, classified]
  | case2 wall first second classified =>
      obtain rfl := Option.some.inj answer
      refine ⟨Int.le_refl _, ?_⟩
      intro other agree
      have same := agree wall (Int.le_refl _) (Int.le_refl _)
      rw [firstShown, ← same, classified]
  | case3 wall classified exhausted => cases answer
  | case4 wall classified later found ih =>
      obtain ⟨notBefore, decided⟩ := ih answer
      have raised := lt_of_nextFrom found
      have above : wall ≤ shown.wall := by omega
      refine ⟨above, ?_⟩
      intro other agree
      have same := agree wall (Int.le_refl _) above
      rw [firstShown_of_skipped (same.symm.trans classified), found, Option.bind_some]
      exact decided other (agree.mono (Int.le_of_lt raised) (Int.le_refl _))

theorem resume_decides (schedule : Schedule) (zone : Zone) {low start : Int}
    (inclusive : Bool) (above : low + 60 ≤ start)
    : zone.Decides low (schedule.resume · start inclusive) := by
  cases found : schedule.nextFrom start inclusive with
  | none => simp [Zone.Decides, resume, found]
  | some due =>
      have notBefore := start_lt_of_nextFrom found
      simp only [resume, found, Option.bind_some]
      exact (schedule.firstShown_decides zone due).mono (by omega)

theorem inSecondPass_decides (schedule : Schedule) (zone : Zone) {window : Window}
    {low start : Int} (inclusive : Bool) (above : low + 60 ≤ start)
    (unfinished : start ≤ window.stop)
    : zone.Decides low (schedule.inSecondPass · window start inclusive) := by
  have resumed : zone.Decides low (schedule.resume · window.stop true) :=
    schedule.resume_decides zone true (Int.le_trans above unfinished)
  unfold inSecondPass
  split
  · cases found : schedule.nextFrom start inclusive with
    | none => simp [Zone.Decides]
    | some due =>
        have notBefore := start_lt_of_nextFrom found
        dsimp only
        split
        · exact zone.decides_const (by dsimp only; omega)
        · exact resumed
  · exact resumed

theorem inFirstPass_decides (schedule : Schedule) (zone : Zone) {window : Window}
    {low start : Int} (above : low + 60 ≤ window.restart)
    (restarted : window.restart ≤ start) (unfinished : start ≤ window.stop)
    : zone.Decides low (schedule.inFirstPass · window start) := by
  unfold inFirstPass
  cases found : schedule.nextFrom start false with
  | none => simp [Zone.Decides]
  | some due =>
      have notBefore := start_lt_of_nextFrom found
      dsimp only
      split
      · exact zone.decides_const (by dsimp only; omega)
      · exact schedule.inSecondPass_decides zone true above
          (Int.le_trans restarted unfinished)

/-- The next occurrence when the clock shows `wall` under an offset, in a window or in
none.
-/
def nextWithin (schedule : Schedule) (zone : Zone) (wall offset : Int)
    : Option Window → Option Occurrence
  | none => schedule.resume zone wall false
  | some window =>
    if offset = window.after then schedule.inSecondPass zone window wall false
    else schedule.inFirstPass zone window wall

theorem nextIn_eq_nextWithin (schedule : Schedule) (zone : Zone) (after : Moment)
    : schedule.nextIn zone after
      = schedule.nextWithin zone (zone.shownAt after) (zone.offsetAt after.second)
          (zone.window? (zone.shownAt after)) := by
  rw [nextIn, Zone.shownAt]
  cases zone.window? (zone.shownAt after) <;> rfl

theorem nextWithin_decides (schedule : Schedule) (zone : Zone) {low wall : Int}
    (offset : Int) (above : low + 60 ≤ wall) {current : Option Window}
    (inside
      : ∀ window ∈ current,
          low + 60 ≤ window.restart ∧ window.restart ≤ wall ∧ wall < window.stop)
    : zone.Decides low (schedule.nextWithin · wall offset current) := by
  cases current with
  | none => exact schedule.resume_decides zone false above
  | some window =>
      obtain ⟨restart, restarted, unfinished⟩ := inside window rfl
      simp only [nextWithin]
      split
      · exact schedule.inSecondPass_decides zone false above (Int.le_of_lt unfinished)
      · exact schedule.inFirstPass_decides zone restart restarted (Int.le_of_lt unfinished)

/-- What is found after a moment is found in every zone with the same offset at the
moment, the same window around what the clock then shows, and the same classification of
the times from `low` up to the answer.
-/
theorem nextIn_decides (schedule : Schedule) (zone : Zone) (after : Moment) {low : Int}
    (above : low + 60 ≤ zone.shownAt after)
    (inside
      : ∀ window ∈ zone.window? (zone.shownAt after),
          low + 60 ≤ window.restart
          ∧ window.restart ≤ zone.shownAt after
          ∧ zone.shownAt after < window.stop)
    {shown : Occurrence} (found : schedule.nextIn zone after = some shown)
    : low ≤ shown.wall
      ∧ ∀ other : Zone,
          zone.offsetAt after.second = other.offsetAt after.second
          → zone.window? (zone.shownAt after) = other.window? (zone.shownAt after)
          → zone.AgreeOn other low shown.wall
          → schedule.nextIn other after = some shown := by
  rw [nextIn_eq_nextWithin] at found
  obtain ⟨notBefore, decided⟩ := schedule.nextWithin_decides zone _ above inside shown found
  refine ⟨notBefore, ?_⟩
  intro other offset window agree
  rw [nextIn_eq_nextWithin, Zone.shownAt, ← offset, ← Zone.shownAt, ← window]
  exact decided other agree

end Schedule

end Cadence
