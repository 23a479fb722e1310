import Cadence.Tree.Shape

/-! Which trees are read as words, constants and lists of values. -/

namespace Cadence.Tree

/-- Trees that are read as a word are the integers of words. -/
theorem word?_eq_ok_iff {kind : String} {tree : Tree} {word : UInt64}
    : tree.word? kind = .ok word ↔ tree = .integer word.toNat := by
  constructor
  · intro read
    unfold word? at read
    split at read
    · next value =>
      split at read
      · next bounds =>
        obtain rfl := Except.ok.inj read
        have small : value.toNat < UInt64.size := by omega
        rw [Nat.toUInt64, UInt64.toNat_ofNat_of_lt' small, Int.toNat_of_nonneg bounds.1]
      · cases read
    · cases read
  · rintro rfl
    have small : (word.toNat : Int) < UInt64.size := Int.ofNat_lt.mpr word.toNat_lt
    rw [word?, if_pos ⟨Int.natCast_nonneg _, small⟩, Int.toNat_natCast, Nat.toUInt64,
      UInt64.ofNat_toNat]

/-- Trees that are read as a constant are the constants. -/
theorem bool?_eq_ok_iff {tree : Tree} {value : Bool}
    : tree.bool? = .ok value ↔ tree = .bool value := by
  cases tree <;> simp [bool?]

/-- A list of trees that are read one by one is read, by induction on it. -/
theorem list?_map {α β : Type} {read : Tree → Except Problem β} {write : α → Tree} {again : α → β}
    (reads : ∀ value, read (write value) = .ok (again value)) (values : List α)
    : (Tree.list (values.map write) true).list? read = .ok (values.map again) := by
  have each : (values.map write).mapM read = .ok (values.map again) := by
    induction values with
    | nil => rfl
    | cons value values ih =>
        rw [List.map_cons, List.mapM_cons, reads, ih]
        rfl
  rw [list?, each]
  rfl

end Cadence.Tree
