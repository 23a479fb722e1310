import Cadence.Mask.Lemmas

/-!
Counting with wheels that carry only some of the digits. Turning a wheel gives the least reading not
below the present one: the digit stays while the wheels behind it can keep up, or else moves to the
next digit that the wheel carries, and the wheels behind it start anew.
-/

namespace Cadence.Odometer

variable {α : Type}

/-- The least reading of a wheel and those behind it; `kept` is theirs if the digit stays, and
`reset` their least one. -/
def turn (wheel : Mask) (digit : Nat) (kept : Option α) (reset : α) : Option (Nat × α) :=
  match wheel.has digit, kept with
  | true, some behind => some (digit, behind)
  | _, _ => (wheel.nextFrom (digit + 1)).map (·, reset)

/-- A wheel shows a digit that it carries: the present one with what the others keep, or a later
one with the others reset. -/
theorem turn_cases {wheel : Mask} {digit : Nat} {kept : Option α} {reset : α} {moved : Nat}
    {behind : α} (turned : turn wheel digit kept reset = some (moved, behind))
    : wheel.has moved
      ∧ ((moved = digit ∧ kept = some behind) ∨ (digit < moved ∧ behind = reset)) := by
  unfold turn at turned
  split at turned
  · next carried =>
    simp only [Option.some.injEq, Prod.mk.injEq] at turned
    obtain ⟨rfl, rfl⟩ := turned
    exact ⟨carried, .inl ⟨rfl, rfl⟩⟩
  · cases found : wheel.nextFrom (digit + 1) with
    | none => simp [found] at turned
    | some next =>
      simp only [found, Option.map_some, Option.some.injEq, Prod.mk.injEq] at turned
      obtain ⟨rfl, rfl⟩ := turned
      have place := Mask.has_of_nextFrom found
      exact ⟨place.2, .inr ⟨place.1, rfl⟩⟩

end Cadence.Odometer
