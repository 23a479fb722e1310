import Cadence.Occurrence
import Cadence.Proofs.Search.LeastDue
import Cadence.Proofs.Zone.RuleReadings

/-! What a search finds in a zone, whatever the zone says of its clock: the time is due, and
its offset is one that the zone names for some wall-clock time.
-/

namespace Cadence

/-- The offsets of a window are those that its time is classified with. -/
theorem Zone.names_of_window? {zone : Zone} {wall : Int} {window : Window}
    (found : zone.window? wall = some window)
    : (zone.classify wall).Names window.before ∧ (zone.classify wall).Names window.after := by
  rw [window?] at found
  split at found
  · next first second classified =>
    obtain rfl := Option.some.inj found
    rw [classified]
    exact ⟨Or.inl rfl, Or.inr rfl⟩
  · cases found

namespace Schedule

variable {schedule : Schedule} {zone : Zone}

/-- An occurrence is at a due time, under an offset that the zone names. -/
structure IsFound (schedule : Schedule) (zone : Zone) (shown : Occurrence) : Prop where
  due : schedule.Due shown.wall
  named : ∃ wall, (zone.classify wall).Names shown.offset

/-- The search for due times finds a due time. -/
theorem due_of_nextFrom {start time : Int} {inclusive : Bool}
    (found : schedule.nextFrom start inclusive = some time)
    : schedule.Due time := by
  have first := schedule.nextFrom_isFirst start inclusive
  rw [found] at first
  exact first.1.1

/-- From a due time on, all times that are tried are due, by induction on those skipped. -/
theorem isFound_of_firstShown {wall : Int} {shown : Occurrence} (due : schedule.Due wall)
    (found : schedule.firstShown zone wall = some shown)
    : schedule.IsFound zone shown := by
  fun_induction firstShown schedule zone wall with
  | case1 wall offset classified =>
      obtain rfl := Option.some.inj found
      exact ⟨due, wall, classified ▸ rfl⟩
  | case2 wall first second classified =>
      obtain rfl := Option.some.inj found
      exact ⟨due, wall, classified ▸ Or.inl rfl⟩
  | case3 => cases found
  | case4 wall classified later next ih => exact ih (due_of_nextFrom next) found

theorem isFound_of_resume {start : Int} {inclusive : Bool} {shown : Occurrence}
    (found : schedule.resume zone start inclusive = some shown)
    : schedule.IsFound zone shown := by
  obtain ⟨due, next, later⟩ := Option.bind_eq_some_iff.mp found
  exact isFound_of_firstShown (due_of_nextFrom next) later

theorem isFound_of_inSecondPass {window : Window} {start : Int} {inclusive : Bool}
    {shown : Occurrence} (named : ∃ wall, (zone.classify wall).Names window.after)
    (found : schedule.inSecondPass zone window start inclusive = some shown)
    : schedule.IsFound zone shown := by
  rw [inSecondPass] at found
  split at found
  · split at found
    · cases found
    · next due next =>
      split at found
      · obtain rfl := Option.some.inj found
        exact ⟨due_of_nextFrom next, named⟩
      · exact isFound_of_resume found
  · exact isFound_of_resume found

theorem isFound_of_inFirstPass {window : Window} {start wall : Int} {shown : Occurrence}
    (opened : zone.window? wall = some window)
    (found : schedule.inFirstPass zone window start = some shown)
    : schedule.IsFound zone shown := by
  obtain ⟨before, after⟩ := Zone.names_of_window? opened
  rw [inFirstPass] at found
  split at found
  · cases found
  · next due next =>
    split at found
    · obtain rfl := Option.some.inj found
      exact ⟨due_of_nextFrom next, wall, before⟩
    · exact isFound_of_inSecondPass ⟨wall, after⟩ found

/-- The next occurrence is at a due time, under an offset that the zone names. -/
theorem isFound_of_nextIn {after : Moment} {shown : Occurrence}
    (found : schedule.nextIn zone after = some shown)
    : schedule.IsFound zone shown := by
  simp only [nextIn] at found
  split at found
  · exact isFound_of_resume found
  · next window opened =>
    split at found
    · exact isFound_of_inSecondPass ⟨_, (Zone.names_of_window? opened).2⟩ found
    · exact isFound_of_inFirstPass opened found

/-- So are all occurrences of a listing, by induction on their number. -/
theorem isFound_of_mem_upcomingIn {after : Moment} {n : Nat} {shown : Occurrence}
    (listed : shown ∈ schedule.upcomingIn zone after n)
    : schedule.IsFound zone shown := by
  induction n generalizing after with
  | zero => cases listed
  | succ n ih =>
      rw [upcomingIn] at listed
      split at listed
      · cases listed
      · next first found =>
        rcases List.mem_cons.mp listed with rfl | later
        · exact isFound_of_nextIn found
        · exact ih later

end Schedule

end Cadence
