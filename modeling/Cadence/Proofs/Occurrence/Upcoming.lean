import Cadence.Proofs.Occurrence.NextFiring

/-! Listings. A listing goes on from what it found last, and each step finds the least
admitted time that is later; so a list holds every admitted time up to its last one. The
exception is a start within a leap second, when a clock behind UTC shows the next second
already: what is due in that second is passed over.
-/

namespace Cadence.Schedule

variable {schedule : Schedule} {zone : Zone}

-----------------------------------------------------------------------------------------
-- Lists of admitted times
-----------------------------------------------------------------------------------------

/-- A list has, in ascending order, exactly the admitted times after a start that are not
later than its last one.
-/
structure Lists (admits : Int → Prop) (start : Int) (times : List Int) : Prop where
  ascending : times.Pairwise (· < ·)
  members
    : ∀ time,
        time ∈ times ↔ admits time ∧ start < time ∧ ∃ last ∈ times, time ≤ last

theorem Lists.nil (admits : Int → Prop) (start : Int) : Lists admits start [] :=
  ⟨List.Pairwise.nil, by simp⟩

/-- The least admitted time goes in front of a list of those after it. -/
theorem Lists.cons {admits : Int → Prop} {start first : Int} {times : List Int}
    (least : IsLeast {time | start < time ∧ admits time} first)
    (rest : Lists admits first times)
    : Lists admits start (first :: times) := by
  obtain ⟨⟨later, admitted⟩, notAbove⟩ := least
  constructor
  · refine List.Pairwise.cons ?_ rest.ascending
    intro time member
    exact ((rest.members time).mp member).2.1
  · intro time
    constructor
    · intro member
      rcases List.mem_cons.mp member with rfl | inRest
      · exact ⟨admitted, later, time, by simp, Int.le_refl _⟩
      · obtain ⟨admittedToo, beyond, last, listed, within⟩ := (rest.members time).mp inRest
        exact ⟨admittedToo, Int.lt_trans later beyond, last, by simp [listed], within⟩
    · intro found
      obtain ⟨admittedToo, beyond, last, listed, within⟩ := found
      rcases Int.lt_or_eq_of_le (notAbove ⟨beyond, admittedToo⟩) with after | rfl
      · rcases List.mem_cons.mp listed with rfl | inRest
        · exact absurd after (Int.not_lt.mpr within)
        · exact List.mem_cons_of_mem _
            ((rest.members time).mpr ⟨admittedToo, after, last, inRest, within⟩)
      · simp

end Cadence.Schedule
