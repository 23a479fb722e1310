import Cadence.Field
import Cadence.Mask.Lemmas

/-! The members of an admissible mask are values of its field. -/

namespace Cadence.Field

/-- The full mask has the values of its field, checked field by field. -/
theorem has_full {field : Field} {i : Nat} (within : i < 64)
    : field.full.has i = decide (field.first ≤ i ∧ i ≤ field.last) := by
  have table : ∀ field ∈ all, ∀ i < 64,
      field.full.has i = decide (field.first ≤ i ∧ i ≤ field.last) := by
    decide
  exact table field field.mem_all i within

/-- An admissible mask is not empty. -/
theorem ne_zero_of_accepts {field : Field} {mask : Mask} (accepted : field.accepts mask)
    : mask ≠ 0 := by
  simp only [accepts, Bool.and_eq_true, bne_iff_ne] at accepted
  exact accepted.1

/-- The members of an admissible mask are values of the field, since none lies outside the full
mask. -/
theorem range_of_has {field : Field} {mask : Mask} {i : Nat} (accepted : field.accepts mask)
    (member : mask.has i)
    : field.first ≤ i ∧ i ≤ field.last := by
  simp only [accepts, Bool.and_eq_true, beq_iff_eq] at accepted
  have within := Mask.lt_of_has member
  have outside : Mask.has (mask &&& ~~~field.full) i = false := by
    rw [accepted.2, Mask.has_zero]
  rw [Mask.has_eq_getLsbD] at member
  simp only [Mask.has_eq_getLsbD, UInt64.toBitVec_and, UInt64.toBitVec_not, BitVec.getLsbD_and,
    BitVec.getLsbD_not, member, within, decide_true, Bool.true_and, Bool.not_eq_false'] at outside
  rw [← Mask.has_eq_getLsbD, has_full within, decide_eq_true_eq] at outside
  exact outside

end Cadence.Field
