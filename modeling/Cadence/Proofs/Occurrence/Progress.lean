import Cadence.Proofs.Occurrence.NextFiring
import Cadence.Proofs.Zone.RuleReadings

/-! Progress. What is found after a moment comes later than that moment and is shown by the
clock, also where offsets and changes have seconds and where the moment is a leap second;
so a listing goes on from each of its occurrences. The search resumes at the ends of a
window by the minute, which is why only these have to be whole minutes.
-/

namespace Cadence

namespace Schedule

variable {schedule : Schedule} {zone : Zone}

/-- An occurrence comes after a counted second, and the clock shows its time, which is a
whole minute that satisfies every field.
-/
structure Follows (schedule : Schedule) (zone : Zone) (after : Int) (shown : Occurrence)
    : Prop where
  later : after < shown.instant
  whole : Clock.second shown.wall = 0
  satisfied : schedule.firesAt shown.wall
  offset : zone.offsetAt shown.instant = shown.offset

/-- The next firing instant follows. -/
theorem IsNext.follows {after : Int} {shown : Occurrence}
    (next : IsNext schedule zone after shown)
    : Follows schedule zone after shown := by
  obtain ⟨later, fires⟩ := next.least.1
  have wall := Zone.wallAt_instant next.offset
  exact ⟨later, wall ▸ fires.whole, wall ▸ fires.satisfied, next.offset⟩

end Schedule

-----------------------------------------------------------------------------------------
-- Zones given by rules
-----------------------------------------------------------------------------------------

namespace RuleZone

variable {zone : RuleZone}

/-- What changes of offset show twice starts and ends on whole minutes, and the year that
the clock shows always has the offset in force.
-/
structure Tidy (zone : RuleZone) : Prop where
  wholeWindow
    : ∀ change wall,
        zone.zone.Repeats change wall
        → (change + zone.offsetAt change) % 60 = 0
          ∧ (change + zone.offsetAt (change - 1)) % 60 = 0
  known
    : ∀ instant,
        zone.HasOffset (Clock.date (zone.zone.wallAt instant)).year (zone.offsetAt instant)

/-- A tidy zone is orderly if its changes lie two days apart. -/
theorem Tidy.orderly (tidy : zone.Tidy)
    (bounded : -86400 < zone.standard ∧ zone.standard < 86400)
    (apart
      : ∀ early late,
          early < late
          → zone.zone.ChangesAt early
          → zone.zone.ChangesAt late
          → early + 172800 < late)
    : zone.zone.Orderly where
  bounded := offsetAt_bounded bounded
  apart := fun early late ordered changes changesToo =>
    Int.le_of_lt (apart early late ordered changes changesToo)
  wholeWindow := tidy.wholeWindow
  describes := fun _ => describes_zoneAt rfl fun instant shown => shown ▸ tidy.known instant

section OneSummer

variable {standard : Int} {stop : Fin 86400}

end OneSummer

end RuleZone

end Cadence
