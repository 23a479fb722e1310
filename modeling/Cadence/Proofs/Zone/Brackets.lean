import Cadence.Proofs.Zone.RuleReadings

/-! The window of a wall-clock time that is read twice. Between the two readings the
offset may change more than once, and bisection ends on one of these changes. Whichever it
is, the first offset holds up to it and another one from then on, and the time lies
between the restart of the clock and the end of the first pass. For this it is enough that
the two offsets of the classification are in force, and those of a zone given by rules
are.
-/

namespace Cadence

namespace Window

/-- Where the first pass ends, in counted seconds. -/
def change (window : Window) : Int :=
  window.stop - window.before

end Window

namespace Zone

/-- Every offset of a classification is in force at its reading, and of two offsets the
greater comes first, so that its reading is the earlier one.
-/
def InForce (zone : Zone) (wall : Int) : LocalTime → Prop
  | .skipped => True
  | .valid offset => zone.offsetAt (wall - offset) = offset
  | .repeated first second =>
      second < first
      ∧ zone.offsetAt (wall - first) = first
      ∧ zone.offsetAt (wall - second) = second

/-- A window ends on a change between the two readings of a time: after the reading under
the offset that it ends, and no later than the reading under the other one.
-/
structure Brackets (zone : Zone) (wall : Int) (window : Window) : Prop where
  classified : zone.classify wall = .repeated window.before window.after
  read : wall - window.before < window.change
  unread : window.change ≤ wall - window.after
  near : zone.offsetAt (window.change - 1) = window.before
  far : zone.offsetAt window.change ≠ window.before

variable {zone : Zone} {wall : Int} {window : Window}

namespace Brackets

theorem restart_le (brackets : zone.Brackets wall window)
    : window.restart ≤ wall := by
  have unread := brackets.unread
  simp only [Window.change, Window.restart] at unread ⊢
  omega

theorem lt_stop (brackets : zone.Brackets wall window)
    : wall < window.stop := by
  have read := brackets.read
  simp only [Window.change] at read
  omega

end Brackets

/-- Exactly the times that are classified as repeated have windows. -/
theorem isSome_window?_iff (zone : Zone) (wall : Int)
    : (zone.window? wall).isSome
      ↔ ∃ first second, zone.classify wall = .repeated first second := by
  unfold window?
  cases zone.classify wall <;> simp

/-- If both offsets of a repeated time are in force, bisection starts between a second at
which the first one holds and a later one at which it does not, and so ends on a change.
-/
theorem InForce.brackets (inForce : zone.InForce wall (zone.classify wall))
    (found : zone.window? wall = some window)
    : zone.Brackets wall window := by
  obtain ⟨first, second, classified⟩ :=
    (zone.isSome_window?_iff wall).mp (Option.isSome_of_mem found)
  rw [window?_eq_of_classify classified] at found
  obtain rfl := (Option.some.inj found).symm
  rw [classified] at inForce
  obtain ⟨greater, early, late⟩ := inForce
  have ordered : wall - first < wall - second := by omega
  have near : (zone.offsetAt (wall - first) == first) = true := beq_iff_eq.mpr early
  have far : (zone.offsetAt (wall - second) == first) = false := by
    rw [late, beq_eq_false_iff_ne]
    omega
  obtain ⟨above, within, before, after⟩ :=
    bisect_spec (zone.offsetAt · == first) _ _ ordered near far
  have change (stop : Int) : stop + first - first = stop := by omega
  refine ⟨classified, ?_, ?_, ?_, ?_⟩ <;> simp only [Window.change, change]
  · exact above
  · exact within
  · exact beq_iff_eq.mp before
  · exact beq_eq_false_iff_ne.mp after

end Zone

namespace RuleZone

variable {zone : RuleZone}

/-- The classification of a zone given by rules lists only offsets under which it shows
the time, the greater first.
-/
theorem inForce_classify (zone : RuleZone) (wall : Int)
    : zone.zone.InForce wall (zone.classify wall) := by
  have names (offset : Int) (named : (zone.classify wall).Names offset)
      : zone.offsetAt (wall - offset) = offset :=
    ((zone.names_classify_iff wall offset).mp named).1
  cases classified : zone.classify wall with
  | skipped => trivial
  | valid offset =>
      rw [classified] at names
      exact names offset rfl
  | repeated first second =>
      rw [classified] at names
      have ordered := lt_of_classifyStamp_eq_repeated classified
      exact ⟨ordered, names first (Or.inl rfl), names second (Or.inr rfl)⟩

/-- The offsets of a time that is read twice are less than a day. -/
theorem repeated_bounded (bounded : -86400 < zone.standard ∧ zone.standard < 86400)
    {wall first second : Int} (classified : zone.classify wall = .repeated first second)
    : (-86400 < first ∧ first < 86400) ∧ -86400 < second ∧ second < 86400 := by
  have inForce := zone.inForce_classify wall
  rw [classified] at inForce
  obtain ⟨_, early, late⟩ := inForce
  have firstBound := offsetAt_bounded bounded (wall - first)
  have secondBound := offsetAt_bounded bounded (wall - second)
  simp only [RuleZone.zone] at early late
  rw [early] at firstBound
  rw [late] at secondBound
  exact ⟨firstBound, secondBound⟩

/-- The second pass of a window restarts less than two days before any time in it. -/
theorem lt_restart (bounded : -86400 < zone.standard ∧ zone.standard < 86400) {wall : Int}
    {window : Window} (found : zone.zone.window? wall = some window)
    : wall < window.restart + 172800 := by
  have brackets := Zone.InForce.brackets (zone.inForce_classify wall) found
  obtain ⟨before, after⟩ := repeated_bounded bounded brackets.classified
  have read := brackets.read
  simp only [Window.change, Window.restart] at read ⊢
  omega

/-- However its rules lie, a zone classifies times by offsets in force and has windows for
exactly the times that it calls repeated. Every window brackets its time, which therefore
is not before the restart of the clock and not yet at the end of the first pass.
-/
theorem window_brackets (zone : RuleZone) (wall : Int)
    : zone.zone.InForce wall (zone.classify wall)
      ∧ ((zone.zone.window? wall).isSome
        ↔ ∃ first second, zone.classify wall = .repeated first second)
      ∧ ∀ window,
          zone.zone.window? wall = some window
          → zone.zone.Brackets wall window
            ∧ window.restart ≤ wall
            ∧ wall < window.stop := by
  have inForce := zone.inForce_classify wall
  refine ⟨inForce, zone.zone.isSome_window?_iff wall, ?_⟩
  intro window found
  have brackets : zone.zone.Brackets wall window := inForce.brackets found
  exact ⟨brackets, brackets.restart_le, brackets.lt_stop⟩

/-- Clocks that are set back by 35 hours on New Year's Eve, forward again with the year of
standard time, and back once more three hours into it.
-/
def wavering : RuleZone where
  name := "Wavering"
  standard := 82800
  rules :=
    [⟨2020, 2020, -126000, .fixed 12 31 eightInTheEvening, .fixed 4 1 twoOClock⟩,
      ⟨2021, 2021, -126000, .fixed 1 1 threeOClock, .fixed 4 1 twoOClock⟩]

-- Noon of New Year's Eve and one o'clock on New Year's Day are both read twice, 35 hours apart;
-- bisection ends on the first of the three changes for the one, on the last for the other.
example
    : wavering.zone.window? 1609416000 = some ⟨1609444800, 82800, -43200⟩
      ∧ wavering.zone.window? 1609462800 = some ⟨1609470000, 82800, -43200⟩ := by
  exact ⟨by cbv, by cbv⟩

end RuleZone

end Cadence
