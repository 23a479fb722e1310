import Cadence.Mask

/-!
Membership in masks: it is the bit of the word, it decides equality, and the least member from a
position on is found where it should be.
-/

namespace Cadence.Mask

/-- Membership is the bit of the word, by comparing both with the shifted number. -/
theorem has_eq_getLsbD (mask : Mask) (i : Nat) : mask.has i = mask.toBitVec.getLsbD i := by
  by_cases within : i < 64
  · have shift : (i.toUInt64).toNat = i := by
      simp [UInt64.toNat_ofNat', Nat.toUInt64]
      omega
    have word : ((mask >>> i.toUInt64) &&& 1).toNat = (mask.toNat >>> i) &&& 1 := by
      rw [UInt64.toNat_and, UInt64.toNat_shiftRight, shift, Nat.mod_eq_of_lt within]
      rfl
    have bit : ((mask >>> i.toUInt64) &&& 1 == 1) = mask.toNat.testBit i := by
      rw [Nat.testBit, Nat.and_comm 1, ← word, Bool.eq_iff_iff]
      simp only [beq_iff_eq, bne_iff_ne, ← UInt64.toNat_inj]
      have small : ((mask >>> i.toUInt64) &&& 1).toNat ≤ 1 := by
        rw [word]
        exact Nat.and_le_right
      rw [show (1 : UInt64).toNat = 1 from rfl]
      omega
    simp only [has, within, decide_true, Bool.true_and]
    exact bit
  · simp [has, within, BitVec.getLsbD_of_ge _ _ (Nat.le_of_not_lt within)]

/-- Members are below 64, by definition. -/
theorem lt_of_has {mask : Mask} {i : Nat} (member : mask.has i) : i < 64 := by
  simp only [has, Bool.and_eq_true, decide_eq_true_eq] at member
  exact member.1

/-- Masks with equal members are equal, since their bits are. -/
theorem eq_of_has {left right : Mask} (same : ∀ i, left.has i = right.has i) : left = right := by
  apply UInt64.toBitVec_inj.mp
  apply BitVec.eq_of_getLsbD_eq
  intro i _
  rw [← has_eq_getLsbD, ← has_eq_getLsbD, same]

/-- The empty mask has no members. -/
@[simp]
theorem has_zero (i : Nat) : Mask.has 0 i = false := by
  simp [has_eq_getLsbD]

/-- Shifting moves every member down. -/
theorem has_shiftRight {mask : Mask} {start : Nat} (within : start < 64) (i : Nat)
    : Mask.has (mask >>> start.toUInt64) i = mask.has (start + i) := by
  have shift : (start.toUInt64).toBitVec.toNat = start := by
    simp [Nat.toUInt64]
    omega
  rw [has_eq_getLsbD, has_eq_getLsbD, UInt64.toBitVec_shiftRight]
  simp [BitVec.getLsbD_ushiftRight, shift, Nat.mod_eq_of_lt within]

/-- The least member is one, or else the search for it would have shown the mask empty. -/
theorem has_lowest {mask : Mask} (nonempty : mask ≠ 0) : mask.has mask.lowest := by
  rw [lowest]
  cases found : (List.range 64).find? mask.has with
  | some i => exact List.find?_some found
  | none =>
    refine absurd (eq_of_has fun i => ?_) nonempty
    rw [has_zero, Bool.eq_false_iff]
    intro member
    exact (List.find?_eq_none.mp found) i (List.mem_range.mpr (lt_of_has member)) member

/-- What is found from a position on lies there and is a member. -/
theorem has_of_nextFrom {mask : Mask} {start i : Nat} (found : mask.nextFrom start = some i)
    : start ≤ i ∧ mask.has i := by
  rw [nextFrom] at found
  split at found
  · next within =>
    simp only at found
    split at found
    · simp at found
    · next nonempty =>
      simp only [Option.some.injEq] at found
      subst found
      refine ⟨Nat.le_add_right _ _, ?_⟩
      rw [← has_shiftRight within]
      exact has_lowest nonempty
  · simp at found

end Cadence.Mask
