import Cadence.Proofs.Calendar.Years
import Cadence.Proofs.Zone.RuleReadings

/-! The classification of a wall-clock time is exact where years agree with their neighbours.
Clocks are off from standard time by less than two days, so that the readings of a time lie in
its own year or in one next to it; if these have one rule, or none, then the offsets that the
classification tries are all that can show the time.
-/

namespace Cadence

namespace Zone

variable {zone : Zone} {wall : Int} {left right answer : LocalTime}

/-- A description lists the offsets under which the time is shown, each by its own reading. -/
theorem Describes.names_iff (described : zone.Describes wall answer) (offset : Int)
    : answer.Names offset ↔ zone.offsetAt (wall - offset) = offset := by
  have shown (instant : Int) : zone.wallAt instant = wall
      ↔ instant = wall - zone.offsetAt instant := by
    rw [wallAt]
    omega
  cases answer with
  | skipped =>
      simp only [LocalTime.Names, false_iff]
      intro inForce
      exact described _ ((shown _).mpr (by rw [inForce]))
  | valid only =>
      obtain ⟨reading, rfl, exact_⟩ := described
      have first := (shown reading).mp ((exact_ _).mpr rfl)
      constructor
      · rintro rfl
        rw [← first]
      · intro inForce
        have same := (exact_ _).mp ((shown _).mpr (by rw [inForce]))
        rw [LocalTime.Names, ← same, inForce]
  | repeated before after =>
      obtain ⟨early, late, _, rfl, rfl, exact_⟩ := described
      have first := (shown early).mp ((exact_ _).mpr (Or.inl rfl))
      have second := (shown late).mp ((exact_ _).mpr (Or.inr rfl))
      constructor
      · rintro (rfl | rfl)
        · rw [← first]
        · rw [← second]
      · intro inForce
        rcases (exact_ _).mp ((shown _).mpr (by rw [inForce])) with same | same
        · exact Or.inl (by rw [← same, inForce])
        · exact Or.inr (by rw [← same, inForce])

/-- The earlier of two readings is under the greater offset. -/
theorem Describes.lt {first second : Int} (described : zone.Describes wall (.repeated first second))
    : second < first := by
  obtain ⟨early, late, ordered, rfl, rfl, exact_⟩ := described
  have before := (exact_ early).mpr (Or.inl rfl)
  have after := (exact_ late).mpr (Or.inr rfl)
  simp only [wallAt] at before after
  omega

/-- A time has one description: it is told by the offsets that show the time. -/
theorem Describes.unique (one : zone.Describes wall left) (other : zone.Describes wall right)
    : left = right := by
  have same (offset : Int) : left.Names offset ↔ right.Names offset :=
    (one.names_iff offset).trans (other.names_iff offset).symm
  cases left with
  | skipped =>
      cases right with
      | skipped => rfl
      | valid offset => exact ((same offset).mpr rfl).elim
      | repeated first second => exact ((same first).mpr (Or.inl rfl)).elim
  | valid offset =>
      cases right with
      | skipped => exact ((same offset).mp rfl).elim
      | valid only => exact congrArg LocalTime.valid ((same offset).mp rfl)
      | repeated first second =>
          have ordered := other.lt
          have early : first = offset := (same first).mpr (Or.inl rfl)
          have late : second = offset := (same second).mpr (Or.inr rfl)
          omega
  | repeated first second =>
      have ordered := one.lt
      have early := (same first).mp (Or.inl rfl)
      have late := (same second).mp (Or.inr rfl)
      cases right with
      | skipped => exact early.elim
      | valid only =>
          simp only [LocalTime.Names] at early late
          omega
      | repeated before after =>
          have orderedToo := other.lt
          simp only [LocalTime.Names] at early late
          congr 1 <;> omega

end Zone

namespace RuleZone

variable {zone : RuleZone} {nano : Nanosecond}

-----------------------------------------------------------------------------------------
-- Readings with the same nanoseconds
-----------------------------------------------------------------------------------------

end RuleZone

-----------------------------------------------------------------------------------------
-- Readings among all instants
-----------------------------------------------------------------------------------------

/-- A time of UTC that is counted and lies in a year that has dates. -/
structure Stamp.IsInstant (time : Stamp) : Prop where
  counted : time.nano.isLeap = false
  dated : YearlyTime.firstYear ≤ time.year ∧ time.year ≤ YearlyTime.lastYear

namespace RuleZone

variable {zone : RuleZone} {wall : Stamp}

/-- What the wall clock of a zone shows at a time of UTC. -/
def wallAtStamp (zone : RuleZone) (time : Stamp) : Stamp :=
  time.shift (zone.offsetAtStamp time)

/-- An instant at which the clock shows a time. -/
structure Reads (zone : RuleZone) (wall instant : Stamp) : Prop where
  isInstant : instant.IsInstant
  shown : zone.wallAtStamp instant = wall

/-- A classification lists exactly the readings of a wall-clock time, the earlier first. -/
def Describes (zone : RuleZone) (wall : Stamp) : LocalTime → Prop
  | .skipped => ∀ instant, ¬ zone.Reads wall instant
  | .valid offset =>
      ∃ reading,
        zone.offsetAtStamp reading = offset
        ∧ ∀ instant, zone.Reads wall instant ↔ instant = reading
  | .repeated first second =>
      ∃ early late,
        early < late
        ∧ zone.offsetAtStamp early = first
        ∧ zone.offsetAtStamp late = second
        ∧ ∀ instant, zone.Reads wall instant ↔ instant = early ∨ instant = late

end RuleZone

end Cadence
