import Cadence.Proofs.Mask.Members
import Cadence.Schedule

/-! Runs that may break off. The operations that a machine carries out only within limits are
checked here, and what lies outside these limits is a fault. A run is shown to be safe by a
condition on what it finds that is passed on from each step to the next.
-/

namespace Cadence

/-- What breaks off a run. -/
inductive Fault where
  /-- A shift by all the places of a word or more. -/
  | shift (places : Nat)
  /-- A step of zero. -/
  | stuck
  /-- A text that is cut inside a character or after its end. -/
  | cut (bytes : Nat) (text : List Char)
  /-- Masks that are not admissible. -/
  | masks (masks : Masks)
  /-- An empty mask that is to be written. -/
  | empty (field : Field)
  deriving DecidableEq

/-- How a run ends. -/
inductive Attempt (α : Type) where
  | found (value : α)
  | refused
  | fault (reason : Fault)
  deriving DecidableEq

namespace Attempt

variable {α β : Type}

instance : Monad Attempt where
  pure := .found
  bind attempt next :=
    match attempt with
    | .found value => next value
    | .refused => .refused
    | .fault reason => .fault reason

def ofOption : Option α → Attempt α
  | some value => .found value
  | none => .refused

/-- A run does not break off, and what it finds satisfies a condition. -/
def Ensures (condition : α → Prop) : Attempt α → Prop
  | .found value => condition value
  | .refused => True
  | .fault _ => False

theorem Ensures.bind {first : Attempt α} {next : α → Attempt β} {before : α → Prop}
    {after : β → Prop} (safe : first.Ensures before)
    (later : ∀ value, before value → (next value).Ensures after)
    : (first >>= next).Ensures after := by
  cases first with
  | found value => exact later value safe
  | refused => trivial
  | fault reason => exact safe.elim

theorem Ensures.mono {attempt : Attempt α} {before after : α → Prop}
    (safe : attempt.Ensures before) (weaker : ∀ value, before value → after value)
    : attempt.Ensures after := by
  cases attempt with
  | found value => exact weaker value safe
  | refused => trivial
  | fault reason => exact safe.elim

theorem Ensures.exists_found {attempt : Attempt α} {condition : α → Prop}
    (safe : attempt.Ensures condition) (goes : attempt ≠ .refused)
    : ∃ value, attempt = .found value := by
  cases attempt with
  | found value => exact ⟨value, rfl⟩
  | refused => exact absurd rfl goes
  | fault reason => exact safe.elim

theorem Ensures.of_eq_value {attempt : Attempt α} {condition : α → Prop} {value : α}
    (safe : attempt.Ensures condition) (ends : attempt = .found value)
    : condition value := by
  subst ends
  exact safe

end Attempt

-----------------------------------------------------------------------------------------
-- Masks
-----------------------------------------------------------------------------------------

namespace Checked

/-- The mask of a single number, by a shift. -/
def bit (number : Nat) : Attempt Mask :=
  if number < 64 then .found ((1 : Mask) <<< number.toUInt64) else .fault (.shift number)

/-- The numbers from `low` in steps, up to `high`. -/
def stepped (low high step : Nat) : List Nat :=
  List.range' low (if low ≤ high then (high - low) / step + 1 else 0) step

/-- Adds single numbers to a mask. -/
def addAll (mask : Mask) : List Nat → Attempt Mask
  | [] => .found mask
  | number :: numbers => do
    let single ← bit number
    addAll (mask ||| single) numbers

/-- The mask of the numbers from `low` in steps, up to `high`. -/
def span (low high step : Nat) : Attempt Mask :=
  if step = 0 then .fault .stuck else addAll 0 (stepped low high step)

theorem bit_of_small {number : Nat} (small : number < 64)
    : bit number = .found ((1 : Mask) <<< number.toUInt64) := by
  rw [bit, if_pos small]

/-- Numbers are added as long as they are small, by induction on them. -/
theorem addAll_of_small {numbers : List Nat} (small : ∀ number ∈ numbers, number < 64)
    (mask : Mask)
    : ∃ all,
        addAll mask numbers = .found all
        ∧ ∀ i, all.has i ↔ mask.has i ∨ i ∈ numbers := by
  induction numbers generalizing mask with
  | nil => exact ⟨mask, rfl, by simp⟩
  | cons number numbers ih =>
      rw [List.forall_mem_cons] at small
      obtain ⟨all, added, has⟩ := ih small.2 (mask ||| (1 : Mask) <<< number.toUInt64)
      refine ⟨all, ?_, ?_⟩
      · rw [addAll, bit_of_small small.1]
        exact added
      · intro i
        rw [has, Mask.has_or, Mask.has_single small.1, Bool.or_eq_true, decide_eq_true_eq,
          List.mem_cons, or_assoc]

/-- The numbers in steps are those some whole steps away from the start. -/
theorem mem_stepped {low high step number : Nat} (positive : 0 < step)
    : number ∈ stepped low high step
      ↔ ∃ steps, number = low + steps * step ∧ number ≤ high := by
  simp only [stepped, List.mem_range']
  constructor
  · rintro ⟨steps, within, rfl⟩
    split at within
    · have fits := (Nat.le_div_iff_mul_le positive).mp (Nat.le_of_lt_succ within)
      exact ⟨steps, by rw [Nat.mul_comm], by rw [Nat.mul_comm]; omega⟩
    · omega
  · rintro ⟨steps, rfl, below⟩
    refine ⟨steps, ?_, by rw [Nat.mul_comm]⟩
    rw [if_pos (by omega), Nat.lt_succ_iff, Nat.le_div_iff_mul_le positive]
    omega

/-- A span of small numbers is found, with those some whole steps away from its start. -/
theorem span_of_small {low high step : Nat} (positive : 0 < step) (small : high < 64)
    : ∃ mask,
        span low high step = .found mask
        ∧ ∀ number,
            mask.has number ↔ ∃ steps, number = low + steps * step ∧ number ≤ high := by
  have each : ∀ number ∈ stepped low high step, number < 64 := by
    intro number member
    obtain ⟨_, _, below⟩ := (mem_stepped positive).mp member
    omega
  obtain ⟨mask, added, has⟩ := addAll_of_small each 0
  refine ⟨mask, ?_, ?_⟩
  · rw [span, if_neg (by omega), added]
  · intro number
    rw [has, Mask.has_zero, mem_stepped positive]
    simp

-- Outside of these limits there are faults.
example : span 60 70 5 = .fault (.shift 65) ∧ span 0 5 0 = .fault .stuck := by decide

end Checked

end Cadence
