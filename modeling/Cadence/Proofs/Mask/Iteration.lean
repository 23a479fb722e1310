import Cadence.Proofs.Mask.Members
import Mathlib.Data.List.Sort

/-! The members of a mask taken one by one, the least one first. Whatever has been taken so
far, what is left are the other members, and their count is known. The first member from a
position on is found in the list of all of them.
-/

namespace Cadence.Mask

/-- One step of the iteration takes the least member, unless nothing is left. -/
def next? (mask : Mask) : Option (Nat × Mask) :=
  if mask = 0 then none else some (mask.lowest, mask.dropLowest)

/-- The members that some steps take from a mask, and what they leave of it. -/
inductive Taken : Mask → List Nat → Mask → Prop where
  | start {mask} : Taken mask [] mask
  | step {mask member rest members left} (first : mask.next? = some (member, rest))
    (later : Taken rest members left)
    : Taken mask (member :: members) left

/-- The members are those numbers below 64 that the mask has, in their order. -/
theorem values_eq_filter (mask : Mask) : mask.values = (List.range 64).filter mask.has := by
  apply List.SortedLT.eq_of_mem_iff mask.values_pairwise.sortedLT
  · exact (List.pairwise_lt_range.filter _).sortedLT
  · intro i
    rw [mem_values, List.mem_filter, List.mem_range]
    exact ⟨fun member => ⟨lt_of_has member, member⟩, And.right⟩

/-- The count is the number of members still to come. -/
theorem count_eq_length_values (mask : Mask) : mask.count = mask.values.length := by
  rw [count, List.countP_eq_length_filter, values_eq_filter]

/-- A step takes the first of the members and leaves the others. -/
theorem values_of_next? {mask rest : Mask} {member : Nat}
    (first : mask.next? = some (member, rest))
    : mask.values = member :: rest.values := by
  rw [next?] at first
  split at first
  · cases first
  · next nonempty =>
    obtain ⟨rfl, rfl⟩ := Prod.mk.inj (Option.some.inj first)
    rw [values, dif_neg nonempty]

/-- What has been taken and what is left are all members in their order, by induction on the
steps.
-/
theorem Taken.values_eq {mask left : Mask} {members : List Nat}
    (taken : Taken mask members left)
    : mask.values = members ++ left.values := by
  induction taken with
  | start => rfl
  | step first _ ih => rw [values_of_next? first, ih, List.cons_append]

/-- The iteration takes all members and then finds nothing left, by induction on the mask. -/
theorem taken_values (mask : Mask) : Taken mask mask.values 0 := by
  fun_induction values mask with
  | case1 => exact .start
  | case2 mask nonempty ih => exact .step (if_neg nonempty) ih

/-- From a position on, the first of the listed members is found: an earlier one would have
been listed before it.
-/
theorem nextFrom_eq_find? (mask : Mask) (start : Nat)
    : mask.nextFrom start = mask.values.find? (start ≤ ·) := by
  cases found : mask.nextFrom start with
  | none =>
      rw [nextFrom_eq_none_iff] at found
      symm
      rw [List.find?_eq_none]
      intro i listed above
      have missing := found i (by simpa using above)
      rw [mem_values.mp listed] at missing
      cases missing
  | some first =>
      obtain ⟨above, member⟩ := has_of_nextFrom found
      obtain ⟨front, back, split⟩ := List.append_of_mem (mem_values.mpr member)
      have ascending := mask.values_pairwise
      rw [split, List.pairwise_append] at ascending
      symm
      rw [List.find?_eq_some_iff_append]
      refine ⟨by simpa using above, front, back, split, ?_⟩
      intro i listed
      have before := ascending.2.2 i listed first List.mem_cons_self
      have memberToo : mask.has i := mem_values.mp (by simp [split, listed])
      simp only [Bool.not_eq_eq_eq_not, Bool.not_true, decide_eq_false_iff_not]
      intro since
      exact absurd (nextFrom_le found since memberToo) (Nat.not_le.mpr before)

/-- The members of a mask are listed in strictly ascending order. The iteration takes them
one by one until nothing is left; at every point of it, the count of what is left is the
number of members still to come. The first member from a position on is the first of the
list that is not below the position, and there is none from 64 on.
-/
theorem values_taken_in_order (mask : Mask)
    : mask.values.Pairwise (· < ·)
      ∧ (∀ i, i ∈ mask.values ↔ mask.has i)
      ∧ Taken mask mask.values 0
      ∧ next? 0 = none
      ∧ (∀ members left,
          Taken mask members left
          → mask.values = members ++ left.values ∧ left.count = left.values.length)
      ∧ (∀ start, mask.nextFrom start = mask.values.find? (start ≤ ·))
      ∧ ∀ start, 64 ≤ start → mask.nextFrom start = none := by
  refine ⟨mask.values_pairwise, fun i => mem_values, mask.taken_values, rfl, ?_,
    mask.nextFrom_eq_find?, ?_⟩
  · intro members left taken
    exact ⟨taken.values_eq, left.count_eq_length_values⟩
  · intro start beyond
    rw [nextFrom, if_neg (Nat.not_lt.mpr beyond)]

end Cadence.Mask
