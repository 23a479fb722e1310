import Cadence.Tree.Shape
import Mathlib.Data.List.Nodup

/-! What is read by shapes that take their own fields only, each of them once. Members set
the fields that they name, and a list has one item for each field.
-/

namespace Cadence

/-- A step that succeeds goes on with what it gives. -/
theorem bind_eq_ok_iff {ε α β : Type} {first : Except ε α} {next : α → Except ε β}
    {last : β}
    : first >>= next = .ok last ↔ ∃ value, first = .ok value ∧ next value = .ok last := by
  cases first with
  | error error => simp [bind, Except.bind]
  | ok value => simp [bind, Except.bind]

/-- A value that is needed is found exactly if it is there. -/
theorem need_eq_ok_iff {α : Type} {key : String} {found : Option α} {value : α}
    : need key found = .ok value ↔ found = some value := by
  cases found <;> simp [need]

namespace Shape

variable {σ : Type} {shape : Shape σ}

/-- A member is read exactly if it names a field that is not set, and this takes the value. -/
theorem readMember_eq_ok_iff (strict : shape.strict = true)
    (distinct : (shape.slots.map (·.key)).Nodup) {state after : σ} {key : String}
    {value : Tree}
    : shape.readMember state key value = .ok after
      ↔ ∃ slot ∈ shape.slots,
          slot.key = key ∧ slot.isSet state = false ∧ slot.set state value = .ok after := by
  rw [readMember]
  cases found : shape.slots.find? (·.key == key) with
  | none =>
      have other := List.find?_eq_none.mp found
      simp only [strict, if_true, reduceCtorEq, false_iff]
      rintro ⟨slot, member, rfl, _⟩
      simpa using other slot member
  | some slot =>
      have member := List.mem_of_find?_eq_some found
      have same : slot.key = key := by simpa using List.find?_some found
      dsimp only
      constructor
      · intro read
        split at read
        · cases read
        · next unset => exact ⟨slot, member, same, by simpa using unset, read⟩
      · rintro ⟨other, present, alike, unset, read⟩
        obtain rfl : slot = other :=
          List.inj_on_of_nodup_map distinct member present (same.trans alike.symm)
        rw [unset, if_neg (by simp), read]

/-- Items that set some fields one after the other. -/
inductive Sets : List (Slot σ) → List Tree → σ → σ → Prop where
  | nil (state : σ) : Sets [] [] state state
  | cons {slot : Slot σ} {slots : List (Slot σ)} {item : Tree} {items : List Tree}
      {before state after : σ} (set : slot.set before item = .ok state)
      (later : Sets slots items state after)
    : Sets (slot :: slots) (item :: items) before after

/-- A list is read exactly if it is whole and each item sets its field, by induction on the
fields.
-/
theorem readItems_eq_ok_iff (refused : shape.surplus = .refused) {slots : List (Slot σ)}
    (required : ∀ slot ∈ slots, slot.required = true) {closed : Bool} {before after : σ}
    {taken : Nat} {items : List Tree}
    : shape.readItems closed before taken slots items = .ok after
      ↔ closed = true ∧ Sets slots items before after := by
  induction slots generalizing before taken items with
  | nil =>
      cases items with
      | nil =>
          rw [readItems]
          constructor
          · intro read
            split at read
            · next whole =>
              obtain rfl := Except.ok.inj read
              exact ⟨whole, .nil before⟩
            · cases read
          · rintro ⟨rfl, sets⟩
            cases sets
            rfl
      | cons item items =>
          constructor
          · intro read
            simp [readItems, refused] at read
          · rintro ⟨_, sets⟩
            cases sets
  | cons slot slots ih =>
      rw [List.forall_mem_cons] at required
      cases items with
      | nil =>
          constructor
          · intro read
            rw [readItems, required.1] at read
            split at read <;> cases read
          · rintro ⟨_, sets⟩
            cases sets
      | cons item items =>
          rw [readItems, bind_eq_ok_iff]
          constructor
          · rintro ⟨state, set, read⟩
            obtain ⟨whole, sets⟩ := (ih required.2).mp read
            exact ⟨whole, .cons set sets⟩
          · rintro ⟨whole, sets⟩
            cases sets with
            | cons set later => exact ⟨_, set, (ih required.2).mpr ⟨whole, later⟩⟩

end Shape

end Cadence
