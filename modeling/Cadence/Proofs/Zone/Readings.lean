import Cadence.Proofs.Zone.Changes

/-! The readings of a wall-clock time: the instants at which the clock shows it. A zone is
orderly when its changes are spaced, its windows lie on whole minutes, and its
classification lists exactly the readings; then a time has two of them exactly if a change
repeats it. Regular zones, with all changes on whole minutes, are orderly.
-/

namespace Cadence.Zone

/-- A classification lists exactly the readings of a wall-clock time, the earlier first. -/
def Describes (zone : Zone) (wall : Int) : LocalTime → Prop
  | .skipped => ∀ instant, zone.wallAt instant ≠ wall
  | .valid offset =>
      ∃ reading,
        zone.offsetAt reading = offset
        ∧ ∀ instant, zone.wallAt instant = wall ↔ instant = reading
  | .repeated first second =>
      ∃ early late,
        early < late
        ∧ zone.offsetAt early = first
        ∧ zone.offsetAt late = second
        ∧ ∀ instant, zone.wallAt instant = wall ↔ instant = early ∨ instant = late

/-- Offsets are whole minutes of less than a day, they change on whole minutes that lie two
days apart, and the classification lists exactly the readings.
-/
structure Regular (zone : Zone) : Prop extends zone.Spaced where
  wholeOffset : ∀ instant, zone.offsetAt instant % 60 = 0
  wholeChange : ∀ instant, zone.ChangesAt instant → instant % 60 = 0
  describes : ∀ wall, zone.Describes wall (zone.classify wall)

/-- Changes are spaced, what a change shows twice starts and ends on whole minutes, and the
classification lists exactly the readings. Offsets and other changes may have seconds.
-/
structure Orderly (zone : Zone) : Prop extends zone.Spaced where
  wholeWindow
    : ∀ change wall,
        zone.Repeats change wall
        → (change + zone.offsetAt change) % 60 = 0
          ∧ (change + zone.offsetAt (change - 1)) % 60 = 0
  describes : ∀ wall, zone.Describes wall (zone.classify wall)

/-- Where offsets and changes are whole minutes, so are the ends of windows. -/
theorem Regular.orderly {zone : Zone} (regular : zone.Regular) : zone.Orderly := by
  refine ⟨regular.toSpaced, ?_, regular.describes⟩
  intro change wall repeats
  have whole := regular.wholeChange change repeats.changes
  have oldOffset := regular.wholeOffset (change - 1)
  have newOffset := regular.wholeOffset change
  omega

/-- The window that a change leaves on the wall clock. -/
def windowAt (zone : Zone) (change : Int) : Window where
  stop := change + zone.offsetAt (change - 1)
  before := zone.offsetAt (change - 1)
  after := zone.offsetAt change

variable {zone : Zone}

/-- The second pass of a window restarts the clock at its change. -/
theorem restart_windowAt (change : Int)
    : (zone.windowAt change).restart = change + zone.offsetAt change := by
  simp only [Window.restart, windowAt]
  omega

/-- A time that is read twice is repeated by a change between the readings. -/
theorem Spaced.repeats_of_readings (spaced : zone.Spaced) {early late wall : Int}
    (ordered : early < late) (first : zone.wallAt early = wall)
    (second : zone.wallAt late = wall)
    : ∃ change,
        zone.Repeats change wall
        ∧ zone.offsetAt (change - 1) = zone.offsetAt early
        ∧ zone.offsetAt change = zone.offsetAt late := by
  have back : zone.wallAt late ≤ zone.wallAt early := Int.le_of_eq (second.trans first.symm)
  obtain ⟨change, _, _, before, after, repeats⟩ := spaced.exists_repeats ordered back
  exact ⟨change, repeats wall (Int.le_of_eq second) (Int.le_of_eq first.symm), before, after⟩

/-- A clock with one reading of every time advances. -/
theorem Spaced.wallAt_lt_of_unrepeated (spaced : zone.Spaced) {early late : Int}
    (ordered : early < late)
    (single : ∀ change, ¬ zone.Repeats change (zone.wallAt early))
    : zone.wallAt early < zone.wallAt late := by
  by_contra stuck
  have back : zone.wallAt late ≤ zone.wallAt early := Int.not_lt.mp stuck
  obtain ⟨change, _, _, _, _, repeats⟩ := spaced.exists_repeats ordered back
  exact single change (repeats _ back (Int.le_refl _))

namespace Orderly

/-- A repeated time is classified by the offsets around its change: its two readings rule
out the other classifications.
-/
theorem classify_of_repeats (orderly : zone.Orderly) {change wall : Int}
    (repeats : zone.Repeats change wall)
    : zone.classify wall
      = .repeated (zone.offsetAt (change - 1)) (zone.offsetAt change) := by
  have readings := orderly.wallAt_eq_iff_of_repeats repeats
  have first := (readings _).mpr (Or.inl rfl)
  have second := (readings _).mpr (Or.inr rfl)
  have low := repeats.restarted
  have high := repeats.unfinished
  have described := orderly.describes wall
  cases classified : zone.classify wall with
  | skipped =>
      rw [classified] at described
      exact absurd first (described _)
  | valid offset =>
      rw [classified] at described
      obtain ⟨reading, _, only⟩ := described
      have one := (only _).mp first
      have other := (only _).mp second
      omega
  | repeated before after =>
      rw [classified] at described
      obtain ⟨early, late, ordered, rfl, rfl, only⟩ := described
      have earlyShown := (only early).mpr (Or.inl rfl)
      have lateShown := (only late).mpr (Or.inr rfl)
      have earlyReading := (readings early).mp earlyShown
      have lateReading := (readings late).mp lateShown
      simp only [wallAt] at earlyShown lateShown
      congr 1 <;> omega

/-- A time classified as repeated is repeated by a change. -/
theorem repeats_of_classify (orderly : zone.Orderly) {wall before after : Int}
    (classified : zone.classify wall = .repeated before after)
    : ∃ change,
        zone.Repeats change wall
        ∧ zone.offsetAt (change - 1) = before
        ∧ zone.offsetAt change = after := by
  have described := orderly.describes wall
  rw [classified] at described
  obtain ⟨early, late, ordered, rfl, rfl, only⟩ := described
  exact orderly.repeats_of_readings ordered ((only early).mpr (Or.inl rfl))
    ((only late).mpr (Or.inr rfl))

/-- The window of a repeated time is that of its change, found by bisection. -/
theorem window?_of_repeats (orderly : zone.Orderly) {change wall : Int}
    (repeats : zone.Repeats change wall)
    : zone.window? wall = some (zone.windowAt change) := by
  rw [window?_eq_of_classify (orderly.classify_of_repeats repeats),
    orderly.bisect_eq_of_repeats repeats, windowAt]

/-- A time that no change repeats has no window. -/
theorem window?_of_unrepeated (orderly : zone.Orderly) {wall : Int}
    (single : ∀ change, ¬ zone.Repeats change wall)
    : zone.window? wall = none := by
  cases classified : zone.classify wall with
  | skipped => simp only [window?, classified]
  | valid offset => simp only [window?, classified]
  | repeated before after =>
      obtain ⟨change, repeats, _⟩ := orderly.repeats_of_classify classified
      exact absurd repeats (single change)

/-- A time that the clock shows is not skipped. -/
theorem not_skipped (orderly : zone.Orderly) (instant : Int)
    : zone.classify (zone.wallAt instant) ≠ .skipped := by
  intro classified
  have described := orderly.describes (zone.wallAt instant)
  rw [classified] at described
  exact described instant rfl

/-- A time that is not skipped has a first reading. -/
theorem exists_first_reading (orderly : zone.Orderly) {wall : Int}
    (shown : zone.classify wall ≠ .skipped)
    : ∃ reading,
        zone.wallAt reading = wall
        ∧ ∀ instant, zone.wallAt instant = wall → reading ≤ instant := by
  have described := orderly.describes wall
  cases classified : zone.classify wall with
  | skipped => exact absurd classified shown
  | valid offset =>
      rw [classified] at described
      obtain ⟨reading, _, only⟩ := described
      exact ⟨reading, (only _).mpr rfl, fun instant reads =>
        Int.le_of_eq ((only instant).mp reads).symm⟩
  | repeated before after =>
      rw [classified] at described
      obtain ⟨early, late, ordered, _, _, only⟩ := described
      refine ⟨early, (only _).mpr (Or.inl rfl), ?_⟩
      intro instant reads
      rcases (only instant).mp reads with rfl | rfl
      · exact Int.le_refl _
      · exact Int.le_of_lt ordered

end Orderly

end Cadence.Zone
