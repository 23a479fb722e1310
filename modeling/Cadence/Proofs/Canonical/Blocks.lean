import Cadence.Field.Canonical
import Mathlib

/-! Cutting values into blocks loses nothing: the values of the blocks, one block after the
other, are the values that were cut. Every run has at least three values, a positive
distance apart.
-/

namespace Cadence.Block

/-- The values of a block in ascending order. -/
def values : Block → List Nat
  | .one value => [value]
  | .run first last step => List.range' first ((last - first) / step + 1) step

/-- A run takes at least two steps, and ends where its steps lead. -/
inductive Proper : Block → Prop where
  | one (value : Nat) : Proper (.one value)
  | run {first step : Nat} (further : Nat) (positive : 0 < step)
    : Proper (.run first (first + (further + 2) * step) step)

/-- The values of a run, counted from its start. -/
theorem values_run {first step : Nat} (positive : 0 < step) (steps : Nat)
    : values (.run first (first + steps * step) step)
      = List.range' first (steps + 1) step := by
  rw [values, Nat.add_sub_cancel_left, Nat.mul_div_cancel _ positive]

/-- The values of a run are those that are some steps away from its start, up to its end. -/
theorem mem_values_run {first last step value : Nat} (proper : Proper (.run first last step))
    : value ∈ values (.run first last step)
      ↔ ∃ steps, value = first + steps * step ∧ value ≤ last := by
  cases proper with
  | run further positive =>
      rw [values_run positive, List.mem_range']
      constructor
      · intro member
        obtain ⟨steps, within, counted⟩ := member
        have bounded := Nat.mul_le_mul_right step (Nat.le_of_lt_succ within)
        rw [Nat.mul_comm step] at counted
        exact ⟨steps, counted, by omega⟩
      · intro distant
        obtain ⟨steps, counted, below⟩ := distant
        rw [counted] at below
        have bounded := Nat.le_of_mul_le_mul_right (Nat.add_le_add_iff_left.mp below) positive
        exact ⟨steps, Nat.lt_succ_of_le bounded, by rw [counted, Nat.mul_comm]⟩

/-- Following a run takes equally spaced values off the front, by induction on the values.
-/
theorem follow_spec (step last : Nat) (values : List Nat)
    : ∃ steps,
        (follow step last values).1 = last + steps * step
        ∧ values = List.range' (last + step) steps step ++ (follow step last values).2 := by
  induction values generalizing last with
  | nil => exact ⟨0, by simp [follow]⟩
  | cons value rest ih =>
      rw [follow]
      split
      · next next =>
        obtain ⟨steps, reached, taken⟩ := ih value
        refine ⟨steps + 1, ?_, ?_⟩
        · rw [reached, next]
          ring
        · rw [List.range'_succ, List.cons_append, ← next, ← taken]
      · exact ⟨0, by simp⟩

/-- A run with what follows it is the front of the values, since its first two of them give
the step.
-/
theorem run_spec {a b : Nat} (ascending : a < b) (rest : List Nat)
    : Proper (.run a (follow (b - a) (b + (b - a)) rest).1 (b - a))
      ∧ values (.run a (follow (b - a) (b + (b - a)) rest).1 (b - a))
          ++ (follow (b - a) (b + (b - a)) rest).2
        = a :: b :: (b + (b - a)) :: rest := by
  obtain ⟨step, rfl⟩ := Nat.exists_eq_add_of_lt ascending
  have distance : a + step + 1 - a = step + 1 := by omega
  rw [distance]
  obtain ⟨steps, reached, taken⟩ := follow_spec (step + 1) (a + step + 1 + (step + 1)) rest
  have stop : a + step + 1 + (step + 1) + steps * (step + 1)
      = a + (steps + 2) * (step + 1) := by
    ring
  have positive : 0 < step + 1 := Nat.succ_pos step
  rw [reached, stop]
  refine ⟨Proper.run steps positive, ?_⟩
  rw [values_run positive, List.range'_succ, List.range'_succ, List.range'_succ]
  simp only [List.cons_append, ← Nat.add_assoc] at taken ⊢
  rw [← taken]

/-- The blocks are proper and hold the values in their order, by induction on the cuts. -/
theorem ofValues_spec {values : List Nat} (ascending : values.Pairwise (· < ·))
    : (∀ block ∈ ofValues values, block.Proper)
      ∧ (ofValues values).flatMap Block.values = values := by
  fun_induction ofValues values with
  | case1 => simp
  | case2 a => simp [Proper.one, Block.values]
  | case3 a b => simp [Proper.one, Block.values]
  | case4 a b rest step stretch ih =>
      have first : a < b := List.rel_of_pairwise_cons ascending (by simp)
      obtain ⟨proper, front⟩ := run_spec first rest
      have later : stretch.2.Pairwise (· < ·) := by
        rw [← front] at ascending
        exact (List.pairwise_append.mp ascending).2.1
      obtain ⟨others, whole⟩ := ih later
      rw [List.forall_mem_cons, List.flatMap_cons, whole]
      exact ⟨⟨proper, others⟩, front⟩
  | case5 a b c rest step other ih =>
      obtain ⟨others, whole⟩ := ih ascending.tail
      rw [List.forall_mem_cons, List.flatMap_cons, whole]
      exact ⟨⟨Proper.one a, others⟩, rfl⟩

/-- Ascending values that are not empty are cut into blocks that are not. -/
theorem ofValues_ne_nil {values : List Nat} (ascending : values.Pairwise (· < ·))
    (nonempty : values ≠ [])
    : ofValues values ≠ [] := by
  intro none
  have whole := (ofValues_spec ascending).2
  rw [none] at whole
  exact nonempty whole.symm

end Cadence.Block
