import Cadence.Mask.Lemmas
import Mathlib.Data.Nat.Bitwise
import Mathlib.Data.List.Basic

/-! The members of a mask in ascending order, and the least of them from a position on.
Removing the least member clears one bit, so that the list of members follows by
induction on the mask.
-/

namespace Cadence.Mask

/-- The bit of a word is the bit of its number. -/
theorem has_eq_testBit (mask : Mask) (i : Nat) : mask.has i = mask.toNat.testBit i := by
  rw [has_eq_getLsbD]
  rfl

-----------------------------------------------------------------------------------------
-- The least member
-----------------------------------------------------------------------------------------

/-- No member lies below the least one, since the scan would have stopped there. -/
theorem lowest_le {mask : Mask} {i : Nat} (member : mask.has i) : mask.lowest ≤ i := by
  have within := lt_of_has member
  rw [lowest]
  cases found : (List.range 64).find? mask.has with
  | none => exact absurd member (List.find?_eq_none.mp found i (List.mem_range.mpr within))
  | some least =>
      obtain ⟨_, index, bound, rfl, earlier⟩ := List.find?_eq_some_iff_getElem.mp found
      simp only [List.getElem_range, Option.getD_some]
      by_contra below
      have missed := earlier i (by simpa using Nat.lt_of_not_le below)
      simp [member] at missed

/-- From a position on, nothing is found exactly when no member is left there. -/
theorem nextFrom_eq_none_iff {mask : Mask} {start : Nat}
    : mask.nextFrom start = none ↔ ∀ i, start ≤ i → mask.has i = false := by
  by_cases within : start < 64
  · simp only [nextFrom, within, if_true, ite_eq_left_iff, reduceCtorEq, imp_false, not_not]
    constructor
    · intro empty i above
      obtain ⟨gap, rfl⟩ := Nat.exists_eq_add_of_le above
      rw [← has_shiftRight within, empty, has_zero]
    · intro missing
      apply eq_of_has
      intro i
      rw [has_shiftRight within, has_zero]
      exact missing _ (Nat.le_add_right _ _)
  · simp only [nextFrom, within, if_false, true_iff]
    intro i above
    rw [Bool.eq_false_iff]
    intro member
    exact within (Nat.lt_of_le_of_lt above (lt_of_has member))

/-- What is found from a position on is not above any member there. -/
theorem nextFrom_le {mask : Mask} {start first i : Nat}
    (found : mask.nextFrom start = some first) (above : start ≤ i) (member : mask.has i)
    : first ≤ i := by
  rw [nextFrom] at found
  split at found
  · next within =>
    dsimp only at found
    split at found
    · simp at found
    · obtain rfl := Option.some.inj found
      obtain ⟨gap, rfl⟩ := Nat.exists_eq_add_of_le above
      have shifted : Mask.has (mask >>> start.toUInt64) gap := by
        rw [has_shiftRight within]
        exact member
      exact Nat.add_le_add_left (lowest_le shifted) start
  · simp at found

-----------------------------------------------------------------------------------------
-- The members in order
-----------------------------------------------------------------------------------------

/-- A number with its lowest bit at `low` loses that bit alone when it is masked with its
predecessor, by splitting the number at the bit.
-/
theorem testBit_and_pred {number low : Nat} (set : number.testBit low)
    (clear : ∀ i < low, number.testBit i = false) (i : Nat)
    : (number &&& (number - 1)).testBit i = (number.testBit i && decide (i ≠ low)) := by
  have lower : number % 2 ^ low = 0 := by
    apply Nat.eq_of_testBit_eq
    intro j
    rw [Nat.testBit_mod_two_pow, Nat.zero_testBit]
    by_cases below : j < low
    · simp [clear j below]
    · simp [below]
  have odd : number / 2 ^ low % 2 = 1 := by
    simpa [Nat.testBit_eq_decide_div_mod_eq] using set
  have split : number = 2 ^ (low + 1) * (number / 2 ^ low / 2) + 2 ^ low := by
    have whole := Nat.div_add_mod number (2 ^ low)
    have half := Nat.div_add_mod (number / 2 ^ low) 2
    rw [lower, Nat.add_zero] at whole
    rw [odd] at half
    calc
      number = 2 ^ low * (2 * (number / 2 ^ low / 2) + 1) := by rw [half, whole]
      _ = 2 ^ (low + 1) * (number / 2 ^ low / 2) + 2 ^ low := by
        rw [pow_succ, Nat.mul_add, Nat.mul_assoc, Nat.mul_one]
  generalize number / 2 ^ low / 2 = high at split
  have positive := Nat.two_pow_pos low
  have doubled : 2 ^ low < 2 ^ (low + 1) :=
    Nat.pow_lt_pow_right (by decide) (Nat.lt_succ_self low)
  have less : number - 1 = 2 ^ (low + 1) * high + (2 ^ low - 1) := by omega
  rw [Nat.testBit_and, less, split, Nat.testBit_two_pow_mul_add _ doubled,
    Nat.testBit_two_pow_mul_add _ (by omega)]
  by_cases below : i < low + 1
  · simp only [below, if_true, Nat.testBit_two_pow, Nat.testBit_two_pow_sub_one]
    by_cases same : low = i
    · simp [same]
    · simp [same]
  · have other : i ≠ low := by omega
    simp [below, other]

/-- Dropping the least member removes it and nothing else. -/
theorem has_dropLowest {mask : Mask} (nonempty : mask ≠ 0) (i : Nat)
    : mask.dropLowest.has i = (mask.has i && decide (i ≠ mask.lowest)) := by
  have positive : (1 : UInt64) ≤ mask := by
    apply UInt64.le_iff_toNat_le.mpr
    have nonzero : mask.toNat ≠ 0 := fun zero => nonempty (UInt64.toNat.inj zero)
    simpa using Nat.one_le_iff_ne_zero.mpr nonzero
  have masked : mask.dropLowest.toNat = mask.toNat &&& (mask.toNat - 1) := by
    rw [dropLowest, UInt64.toNat_and, UInt64.toNat_sub_of_le _ _ positive]
    rfl
  rw [has_eq_testBit, masked, testBit_and_pred, ← has_eq_testBit]
  · rw [← has_eq_testBit]
    exact has_lowest nonempty
  · intro j below
    rw [← has_eq_testBit, Bool.eq_false_iff]
    intro member
    exact absurd (lowest_le member) (Nat.not_le.mpr below)

/-- The list of members has every member and nothing else, by induction on the mask. -/
theorem mem_values {mask : Mask} {i : Nat} : i ∈ mask.values ↔ mask.has i := by
  fun_induction values mask with
  | case1 => simp
  | case2 mask nonempty ih =>
      rw [List.mem_cons, ih, has_dropLowest nonempty]
      constructor
      · intro listed
        rcases listed with rfl | later
        · exact has_lowest nonempty
        · simp only [Bool.and_eq_true] at later
          exact later.1
      · intro member
        by_cases least : i = mask.lowest
        · exact Or.inl least
        · exact Or.inr (by simp [member, least])

/-- The list of members ascends, since each entry is the least member left. -/
theorem values_pairwise (mask : Mask) : mask.values.Pairwise (· < ·) := by
  fun_induction values mask with
  | case1 => exact List.Pairwise.nil
  | case2 mask nonempty ih =>
      refine List.Pairwise.cons ?_ ih
      intro i later
      rw [mem_values, has_dropLowest nonempty, Bool.and_eq_true, decide_eq_true_eq] at later
      exact Nat.lt_of_le_of_ne (lowest_le later.1) (Ne.symm later.2)

/-- One shifted by a number below 64 has this number only. -/
theorem has_single {number : Nat} (small : number < 64) (i : Nat)
    : Mask.has ((1 : Mask) <<< number.toUInt64) i = decide (i = number) := by
  have shift : (number.toUInt64).toNat % 64 = number := by
    simp [Nat.toUInt64]
    omega
  rw [has_eq_testBit, UInt64.toNat_shiftLeft, shift]
  have fits : (1 : UInt64).toNat <<< number % 2 ^ 64 = 2 ^ number := by
    rw [Nat.shiftLeft_eq]
    have small : 2 ^ number < 2 ^ 64 := Nat.pow_lt_pow_right (by decide) small
    simpa using Nat.mod_eq_of_lt small
  rw [fits, Nat.testBit_two_pow]
  simp [eq_comm]

theorem has_or (left right : Mask) (i : Nat)
    : Mask.has (left ||| right) i = (left.has i || right.has i) := by
  simp only [has_eq_testBit, UInt64.toNat_or, Nat.testBit_or]

theorem has_and (left right : Mask) (i : Nat)
    : Mask.has (left &&& right) i = (left.has i && right.has i) := by
  simp only [has_eq_testBit, UInt64.toNat_and, Nat.testBit_and]

theorem has_not (mask : Mask) (i : Nat)
    : Mask.has (~~~mask) i = (decide (i < 64) && !mask.has i) := by
  simp [has_eq_getLsbD]

/-- Masks made from a predicate have the numbers below 64 that satisfy it, by induction
on the numbers taken in.
-/
theorem has_ofPred (member : Nat → Bool) (i : Nat)
    : (ofPred member).has i = (decide (i < 64) && member i) := by
  have gather (numbers : List Nat) (start : Mask) (small : ∀ j ∈ numbers, j < 64)
      : Mask.has (numbers.foldl (fun mask j => mask ||| (1 : Mask) <<< j.toUInt64) start) i
        = (start.has i || decide (i ∈ numbers)) := by
    induction numbers generalizing start with
    | nil => simp
    | cons j rest ih =>
        have within : j < 64 := small j (by simp)
        rw [List.foldl_cons, ih _ (fun k later => small k (by simp [later])), has_or,
          has_single within]
        simp [Bool.or_assoc]
  rw [ofPred, gather _ _ (fun j member => by simp at member; exact member.1), has_zero]
  simp [Bool.decide_and]

end Cadence.Mask
