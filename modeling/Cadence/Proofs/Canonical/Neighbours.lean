import Cadence.Proofs.Canonical.Spread

/-! The flag that a canonical text gives a schedule, told by its masks alone. The text is
read as an interval exactly if somewhere in the minute or hour three neighbouring members
are equally far apart; the flag that the schedule had before does not matter, and parsing a
second time changes nothing.
-/

namespace Cadence

namespace Mask

/-- Two members with no other one between them. -/
structure Neighbours (mask : Mask) (low high : Nat) : Prop where
  left : mask.has low
  right : mask.has high
  ascends : low < high
  apart : ∀ value, mask.has value → ¬ (low < value ∧ value < high)

/-- Somewhere three neighbouring members are equally far apart. -/
def HasEvenNeighbours (mask : Mask) : Prop :=
  ∃ first second third,
    mask.Neighbours first second
    ∧ mask.Neighbours second third
    ∧ second - first = third - second

/-- Members that follow one another in the list are neighbours, since the list ascends. -/
theorem neighbours_of_values {mask : Mask} {front others : List Nat} {low high : Nat}
    (listed : mask.values = front ++ low :: high :: others)
    : mask.Neighbours low high := by
  have ascending := mask.values_pairwise
  rw [listed, List.pairwise_append, List.pairwise_cons, List.pairwise_cons] at ascending
  obtain ⟨_, ⟨fromLow, fromHigh, _⟩, across⟩ := ascending
  refine ⟨?_, ?_, fromLow high (by simp), ?_⟩
  · simp [← mem_values, listed]
  · simp [← mem_values, listed]
  · intro value member between
    rw [← mem_values, listed, List.mem_append, List.mem_cons, List.mem_cons] at member
    rcases member with before | rfl | rfl | later
    · have less := across value before low (by simp)
      omega
    · omega
    · omega
    · have less := fromHigh value later
      omega

/-- The neighbour of a member follows it in the list: whatever else followed would lie
between the two.
-/
theorem Neighbours.follows {mask : Mask} {front rest : List Nat} {low high : Nat}
    (neighbours : mask.Neighbours low high) (listed : mask.values = front ++ low :: rest)
    : ∃ others, rest = high :: others := by
  have ascending := mask.values_pairwise
  have member := mem_values.mpr neighbours.right
  have less := neighbours.ascends
  rw [listed, List.pairwise_append, List.pairwise_cons] at ascending
  obtain ⟨_, ⟨fromLow, later⟩, across⟩ := ascending
  rw [listed, List.mem_append, List.mem_cons] at member
  have behind : high ∈ rest := by
    rcases member with before | same | behind
    · have above := across high before low (by simp)
      omega
    · omega
    · exact behind
  cases rest with
  | nil => simp at behind
  | cons next others =>
      rcases List.mem_cons.mp behind with rfl | beyond
      · exact ⟨others, rfl⟩
      · have has : mask.has next := by simp [← mem_values, listed]
        have between : low < next ∧ next < high :=
          ⟨fromLow next (by simp), List.rel_of_pairwise_cons later beyond⟩
        exact absurd between (neighbours.apart next has)

/-- The list of members has a run exactly if three neighbours are equally far apart. -/
theorem hasRun_values_iff {mask : Mask} : Block.HasRun mask.values ↔ mask.HasEvenNeighbours := by
  constructor
  · intro run
    obtain ⟨first, step, front, others, listed⟩ := run
    have left : mask.values = front ++ first :: (first + step) :: (first + step + step) :: others
      := by simp [← listed]
    have right : mask.values
        = (front ++ [first]) ++ (first + step) :: (first + step + step) :: others := by
      simp [← listed]
    exact ⟨first, first + step, first + step + step, neighbours_of_values left,
      neighbours_of_values right, by omega⟩
  · intro even
    obtain ⟨first, second, third, lower, upper, spaced⟩ := even
    obtain ⟨front, rest, listed⟩ := List.append_of_mem (mem_values.mpr lower.left)
    obtain ⟨others, rfl⟩ := lower.follows listed
    have next : mask.values = (front ++ [first]) ++ second :: others := by simp [listed]
    obtain ⟨others, rfl⟩ := upper.follows next
    have less := lower.ascends
    have secondAt : second = first + (second - first) := by omega
    have thirdAt : third = first + (second - first) + (second - first) := by
      have above := upper.ascends
      omega
    refine ⟨first, second - first, front, others, ?_⟩
    rw [← thirdAt, ← secondAt, listed]
    simp

end Mask

namespace Schedule

/-- The text of a schedule does not show its flag. -/
theorem canonical_withInterval (schedule : Schedule) (interval : Bool)
    : { schedule with interval }.canonical = schedule.canonical :=
  rfl

/-- A flag that was made anew once is made the same again. -/
theorem reread_reread (schedule : Schedule) : schedule.reread.reread = schedule.reread :=
  rfl

/-- A canonical text is parsed as a schedule with the masks that it was made from, and as an
interval exactly if three neighbouring minutes or three neighbouring hours are equally far
apart. The flag of the schedule it was made from does not matter, and the schedule that is
parsed comes back unchanged from its own text.
-/
theorem parse_canonical_interval (schedule : Schedule)
    : ∃ again,
        parse schedule.canonical = .ok again
        ∧ again.masks = schedule.masks
        ∧ (again.interval
            ↔ schedule.masks.minute.HasEvenNeighbours ∨ schedule.masks.hour.HasEvenNeighbours)
        ∧ (∀ interval, parse { schedule with interval }.canonical = .ok again)
        ∧ parse again.canonical = .ok again := by
  have parsed := schedule.parse_canonical_eq
  refine ⟨schedule.reread, parsed, rfl, ?_, ?_, ?_⟩
  · rw [← Mask.hasRun_values_iff, ← Mask.hasRun_values_iff]
    exact isSpread_iff schedule.masks
  · intro interval
    rw [canonical_withInterval, parsed]
  · rw [parse_canonical_eq, reread_reread]

end Schedule

end Cadence
