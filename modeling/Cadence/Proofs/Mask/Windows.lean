import Cadence.Proofs.Mask.Lanes

/-! Counting and scanning by word arithmetic. What a mask shares with its negative is its
least member alone. Multiplied by this member, the de Bruijn word is shifted by it, and the
window that comes to the top is found in the table. Main result: word arithmetic gives the
number of members and the least member of every mask.
-/

namespace Cadence.Mask.Portable

/-- The negative of a word is the complement of its predecessor. -/
theorem zero_sub_eq (word : UInt64) : 0 - word = ~~~(word - 1) := by
  have negative := UInt64.neg_eq_not_add (word - 1)
  grind

/-- What a mask shares with its negative is its least member: the negative has what the
predecessor lacks, and of the members the predecessor lacks the least one only.
-/
theorem isolated_eq {mask : Mask} (nonempty : mask ≠ 0)
    : mask &&& (0 - mask) = (1 : Mask) <<< mask.lowest.toUInt64 := by
  have least := has_lowest nonempty
  apply eq_of_has
  intro i
  have dropped := has_dropLowest nonempty i
  rw [dropLowest, has_and] at dropped
  rw [zero_sub_eq, has_and, has_not, has_single (lt_of_has least)]
  cases member : mask.has i with
  | false =>
      have other : i ≠ mask.lowest := by
        rintro rfl
        simp [least] at member
      simp [other]
  | true =>
      have small := lt_of_has member
      simp only [member, Bool.true_and] at dropped
      simp [small, dropped]

/-- A product with a single member is a shift. -/
theorem single_mul (word : UInt64) {i : Nat} (small : i < 64)
    : (1 : Mask) <<< i.toUInt64 * word = word <<< i.toUInt64 := by
  have shift : (i.toUInt64).toNat % 64 = i := by
    simp [Nat.toUInt64]
    omega
  apply UInt64.toNat.inj
  rw [UInt64.toNat_mul, UInt64.toNat_shiftLeft, UInt64.toNat_shiftLeft, shift, Nat.shiftLeft_eq,
    Nat.shiftLeft_eq, Nat.mod_mul_mod, UInt64.toNat_one, Nat.one_mul, Nat.mul_comm]

/-- All windows are different, so that each is found in the table with its own shift. -/
theorem shiftOfWindow_window : ∀ i < 64, shiftOfWindow[window i]? = some i := by
  decide +kernel

/-- The table leads from a single member back to the member. -/
theorem shiftOfWindow_single {i : Nat} (small : i < 64)
    : shiftOfWindow[(((1 : Mask) <<< i.toUInt64 * deBruijn) >>> 58).toNat]? = some i := by
  rw [single_mul deBruijn small]
  exact shiftOfWindow_window i small

theorem lowest_eq (mask : Mask) : lowest mask = mask.lowest := by
  by_cases empty : mask = 0
  · subst empty
    decide
  · have found := shiftOfWindow_single (lt_of_has (has_lowest empty))
    simp only [lowest, if_neg empty, isolated_eq empty, Array.getD_eq_getD_getElem?, found,
      Option.getD_some]

/-- There are as many members as bits set below the size of a word. -/
theorem count_eq_card (mask : Mask)
    : mask.count = ((Finset.range 64).filter fun i => mask.toNat.testBit i).card := by
  have bits : mask.has = mask.toNat.testBit := funext mask.has_eq_testBit
  rw [Mask.count, bits, List.countP_eq_length_filter]
  exact congrArg List.length (List.filter_congr fun i _ => Bool.decide_eq_true.symm)

/-- Counting and scanning by word arithmetic agree with counting and scanning the members,
for every mask: there are as many members as bits set, and the least member is the lowest of
these, or 64 if there is none. No sum or difference leaves the word, and the table leads from
every single member back to it.
-/
theorem word_arithmetic_exact (mask : Mask)
    : count? mask = some (count mask)
      ∧ count mask = mask.count
      ∧ count mask = ((Finset.range 64).filter fun i => mask.toNat.testBit i).card
      ∧ lowest mask = mask.lowest
      ∧ (if mask = 0 then lowest mask = 64
          else IsLeast {i | mask.toNat.testBit i} (lowest mask))
      ∧ ∀ i < 64,
          shiftOfWindow[(((1 : Mask) <<< i.toUInt64 * deBruijn) >>> 58).toNat]? = some i := by
  obtain ⟨kept, counted⟩ := count_spec mask
  refine ⟨kept, counted, ?_, lowest_eq mask, ?_, fun i => shiftOfWindow_single⟩
  · rw [counted, count_eq_card]
  · split
    · next empty =>
      subst empty
      rfl
    · next nonempty =>
      rw [lowest_eq]
      simp only [← has_eq_testBit]
      exact ⟨has_lowest nonempty, fun i => lowest_le⟩

end Cadence.Mask.Portable
