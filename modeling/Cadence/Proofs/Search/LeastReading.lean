import Cadence.Odometer
import Cadence.Proofs.Mask.Members
import Mathlib.Order.Bounds.Basic

/-! Turning wheels gives the least reading not below a bound, in lexicographic order.
A search is described by what it may answer and by the order in which it looks; this
description passes from the wheels behind to a wheel in front of them.
-/

namespace Cadence

/-- A search answers with the first admitted value, and gives up only if there is none. -/
def IsFirst {α : Type} (notAfter : α → α → Prop) (admits : α → Prop) : Option α → Prop
  | none => ∀ value, ¬ admits value
  | some first => admits first ∧ ∀ value, admits value → notAfter first value

/-- Searches that admit the same values have the same first ones. -/
theorem IsFirst.congr {α : Type} {notAfter : α → α → Prop} {admits other : α → Prop}
    {answer : Option α} (first : IsFirst notAfter admits answer)
    (same : ∀ value, other value ↔ admits value)
    : IsFirst notAfter other answer := by
  have equal : other = admits := funext fun value => propext (same value)
  rwa [equal]

/-- A first value in an order is the least admitted one, and there is only one. -/
theorem IsFirst.eq_some_iff_isLeast {α : Type} [PartialOrder α] {admitted : Set α}
    {answer : Option α} (first : IsFirst (· ≤ ·) (· ∈ admitted) answer) {value : α}
    : answer = some value ↔ IsLeast admitted value := by
  cases answer with
  | none =>
      constructor
      · simp
      · intro least
        exact absurd least.1 (first value)
  | some least =>
      have isLeast : IsLeast admitted least := ⟨first.1, fun other => first.2 other⟩
      rw [Option.some.injEq]
      constructor
      · intro same
        exact same ▸ isLeast
      · intro other
        exact isLeast.unique other

/-- A search without an answer admits nothing. -/
theorem IsFirst.eq_none_iff_empty {α : Type} [PartialOrder α] {admitted : Set α}
    {answer : Option α} (first : IsFirst (· ≤ ·) (· ∈ admitted) answer)
    : answer = none ↔ admitted = ∅ := by
  rw [Set.eq_empty_iff_forall_notMem]
  cases answer with
  | none => exact ⟨fun _ => first, fun _ => rfl⟩
  | some least =>
      constructor
      · simp
      · intro empty
        exact absurd first.1 (empty least)

namespace Odometer

variable {α : Type} {notAfter : α → α → Prop} {allowed : α → Prop}

/-- The order of readings: by the wheel in front, then by those behind it. -/
def Lex (notAfter : α → α → Prop) (left right : Nat × α) : Prop :=
  left.1 < right.1 ∨ left.1 = right.1 ∧ notAfter left.2 right.2

/-- The scan of one wheel finds its first digit from a position on. -/
theorem nextFrom_isFirst (wheel : Mask) (start : Nat)
    : IsFirst (· ≤ ·) (fun digit => wheel.has digit ∧ start ≤ digit)
        (wheel.nextFrom start) := by
  cases found : wheel.nextFrom start with
  | none =>
      intro digit admitted
      have missing := Mask.nextFrom_eq_none_iff.mp found digit admitted.2
      exact absurd admitted.1 (by simp [missing])
  | some first =>
      have place := Mask.has_of_nextFrom found
      exact ⟨⟨place.2, place.1⟩, fun digit admitted =>
        Mask.nextFrom_le found admitted.2 admitted.1⟩

/-- The lowest digit is the first reading of a single wheel. -/
theorem lowest_isFirst {wheel : Mask} (nonempty : wheel ≠ 0)
    : IsFirst (· ≤ ·) (fun digit => wheel.has digit) (some wheel.lowest) :=
  ⟨Mask.has_lowest nonempty, fun _ => Mask.lowest_le⟩

/-- The lowest digit before the first reading of the wheels behind is the first reading
of all, by comparing the digits in front.
-/
theorem reset_isFirst {wheel : Mask} {reset : α} (nonempty : wheel ≠ 0)
    (behind : IsFirst notAfter allowed (some reset))
    : IsFirst (Lex notAfter) (fun reading => wheel.has reading.1 ∧ allowed reading.2)
        (some (wheel.lowest, reset)) := by
  refine ⟨⟨Mask.has_lowest nonempty, behind.1⟩, ?_⟩
  intro reading admitted
  rcases Nat.lt_or_eq_of_le (Mask.lowest_le admitted.1) with less | same
  · exact Or.inl less
  · exact Or.inr ⟨same, behind.2 reading.2 admitted.2⟩

/-- A wheel keeps its digit while those behind it keep theirs. -/
theorem turn_of_kept {wheel : Mask} {digit : Nat} {behind reset : α}
    (carried : wheel.has digit)
    : turn wheel digit (some behind) reset = some (digit, behind) := by
  simp [turn, carried]

/-- A wheel without its digit, or with none kept behind it, moves to a later digit. -/
theorem turn_of_stuck {wheel : Mask} {digit : Nat} {kept : Option α} {reset : α}
    (stuck : wheel.has digit = false ∨ kept = none)
    : turn wheel digit kept reset = (wheel.nextFrom (digit + 1)).map (·, reset) := by
  rcases stuck with missing | rfl
  · simp [turn, missing]
  · simp [turn]

/-- A wheel that has to move shows the first reading with a later digit, where the wheels
behind start anew.
-/
theorem moved_isFirst {wheel : Mask} {digit : Nat} {bound reset : α}
    (stuck : ∀ rest, wheel.has digit → ¬ (allowed rest ∧ notAfter bound rest))
    (resets : IsFirst notAfter allowed (some reset))
    : IsFirst (Lex notAfter)
        (fun reading =>
          (wheel.has reading.1 ∧ allowed reading.2) ∧ Lex notAfter (digit, bound) reading)
        ((wheel.nextFrom (digit + 1)).map (·, reset)) := by
  have scan := nextFrom_isFirst wheel (digit + 1)
  have beyond {next : Nat} {rest : α} (carried : wheel.has next) (admitted : allowed rest)
      (ordered : Lex notAfter (digit, bound) (next, rest))
      : digit + 1 ≤ next := by
    rcases ordered with less | ⟨same, behind⟩
    · exact less
    · obtain rfl : digit = next := same
      exact absurd ⟨admitted, behind⟩ (stuck rest carried)
  cases found : wheel.nextFrom (digit + 1) with
  | none =>
      rw [found] at scan
      intro reading admitted
      obtain ⟨⟨carried, allowedBehind⟩, ordered⟩ := admitted
      exact scan reading.1 ⟨carried, beyond carried allowedBehind ordered⟩
  | some later =>
      rw [found] at scan
      refine ⟨⟨⟨scan.1.1, resets.1⟩, Or.inl scan.1.2⟩, ?_⟩
      intro reading admitted
      obtain ⟨⟨carried, allowedBehind⟩, ordered⟩ := admitted
      have reached := scan.2 reading.1 ⟨carried, beyond carried allowedBehind ordered⟩
      rcases Nat.lt_or_eq_of_le reached with less | same
      · exact Or.inl less
      · exact Or.inr ⟨same, resets.2 reading.2 allowedBehind⟩

/-- A turned wheel shows the first reading not before the bound, if the wheels behind do.
The cases are those of the turn: the digit stays, or the wheel moves on and resets.
-/
theorem turn_isFirst (wheel : Mask) (digit : Nat) {bound reset : α} {kept : Option α}
    (keeps : IsFirst notAfter (fun rest => allowed rest ∧ notAfter bound rest) kept)
    (resets : IsFirst notAfter allowed (some reset))
    : IsFirst (Lex notAfter)
        (fun reading =>
          (wheel.has reading.1 ∧ allowed reading.2) ∧ Lex notAfter (digit, bound) reading)
        (turn wheel digit kept reset) := by
  cases kept with
  | none =>
      rw [turn_of_stuck (Or.inr rfl)]
      exact moved_isFirst (fun rest _ => keeps rest) resets
  | some behind =>
      cases carried : wheel.has digit with
      | false =>
          rw [turn_of_stuck (Or.inl carried)]
          exact moved_isFirst (fun rest member => by simp [carried] at member) resets
      | true =>
          rw [turn_of_kept carried]
          refine ⟨⟨⟨carried, keeps.1.1⟩, Or.inr ⟨rfl, keeps.1.2⟩⟩, ?_⟩
          intro reading admitted
          obtain ⟨⟨_, allowedBehind⟩, less | ⟨same, ordered⟩⟩ := admitted
          · exact Or.inl less
          · exact Or.inr ⟨same, keeps.2 reading.2 ⟨allowedBehind, ordered⟩⟩

end Odometer

end Cadence
