import Cadence.Schedule.Grammar
import Mathlib

/-! The grammar of single items, and its agreement with reading them. The grammar says which
texts an item may have without saying in which order they are tried; what follows a number
or a name never continues it, so that reading from the left finds the only derivation.
-/

namespace Cadence.Item

-----------------------------------------------------------------------------------------
-- The grammar
-----------------------------------------------------------------------------------------

/-- One or two digits, and the number that they write. -/
inductive Numeral : List Char → Nat → Prop where
  | short {digit : Nat} (small : digit < 10) : Numeral [digit.digitChar] digit
  | long {tens units : Nat} (high : tens < 10) (low : units < 10)
    : Numeral [tens.digitChar, units.digitChar] (10 * tens + units)

/-- A number, or a name of the field in any case, which stands for its place in the table.
-/
inductive Scalar (field : Field) : List Char → Nat → Prop where
  | number {text value} (numeral : Numeral text value) : Scalar field text value
  | named {text name index} (listed : field.names[index]? = some name)
    (same : text.map Char.toLower = name.toList.map Char.toLower)
    : Scalar field text (field.first + index)

/-- A step: a number that is not zero. -/
structure Step (text : List Char) (step : Nat) : Prop where
  numeral : Numeral text step
  positive : 0 < step

/-- The texts of an item. A lone value lies in the field, and a range reaches into it. -/
inductive Spells (field : Field) : List Char → Item → Prop where
  | every : Spells field ['*'] .every
  | spaced {digits step} (steps : Step digits step)
    : Spells field ('*' :: '/' :: digits) (.spaced step)
  | lone {text value} (scalar : Scalar field text value) (above : field.first ≤ value)
    (below : value ≤ field.lastWritten)
    : Spells field text (.lone value)
  | onward {text start digits step} (scalar : Scalar field text start)
    (steps : Step digits step)
    : Spells field (text ++ '/' :: digits) (.onward start step)
  | range {left start right stop} (low : Scalar field left start)
    (high : Scalar field right stop) (above : field.first ≤ stop)
    (below : start ≤ field.lastWritten)
    : Spells field (left ++ '-' :: right) (.range start stop 1)
  | stepped {left start right stop digits step} (low : Scalar field left start)
    (high : Scalar field right stop) (above : field.first ≤ stop)
    (below : start ≤ field.lastWritten) (steps : Step digits step)
    : Spells field (left ++ '-' :: (right ++ '/' :: digits)) (.range start stop step)

-----------------------------------------------------------------------------------------
-- Digits and numbers
-----------------------------------------------------------------------------------------

/-- A character is read as a digit exactly when it writes that digit. -/
theorem digit?_eq_some_iff {c : Char} {digit : Nat}
    : digit? c = some digit ↔ digit < 10 ∧ c = digit.digitChar := by
  have written : ∀ digit < 10, digit.digitChar = Char.ofNat (48 + digit) := by decide
  have read : ∀ digit < 10, digit? digit.digitChar = some digit := by decide
  constructor
  · intro found
    rw [digit?] at found
    split at found
    · next isDigit =>
      have bounds : 48 ≤ c.toNat ∧ c.toNat ≤ 57 := by
        simpa [Char.isDigit, UInt32.le_iff_toNat_le] using isDigit
      have difference : c.toNat - 48 = digit := by simpa using found
      have small : digit < 10 := by omega
      refine ⟨small, ?_⟩
      rw [written digit small, ← Char.ofNat_toNat c]
      congr 1
      omega
    · simp at found
  · intro isDigit
    obtain ⟨small, writes⟩ := isDigit
    rw [writes]
    exact read digit small

/-- A text that does not go on with a digit. -/
def Apart (rest : List Char) : Prop :=
  ∀ c ∈ rest.head?, digit? c = none

theorem number?_append {digits rest : List Char} {value : Nat} (numeral : Numeral digits value)
    (apart : Apart rest)
    : number? (digits ++ rest) = some (value, rest) := by
  cases numeral with
  | short small =>
      have first := digit?_eq_some_iff.mpr ⟨small, rfl⟩
      cases rest with
      | nil => simp [number?, first]
      | cons d tail =>
          have stops : digit? d = none := apart d (by simp)
          simp [number?, first, stops]
  | long high low =>
      have first := digit?_eq_some_iff.mpr ⟨high, rfl⟩
      have second := digit?_eq_some_iff.mpr ⟨low, rfl⟩
      simp [number?, first, second]

/-- What is read as a number stands at the front of the text. -/
theorem exists_numeral {text rest : List Char} {value : Nat}
    (found : number? text = some (value, rest))
    : ∃ digits, Numeral digits value ∧ text = digits ++ rest := by
  cases text with
  | nil => simp [number?] at found
  | cons c others =>
      simp only [number?, Option.bind_eq_bind, Option.bind_eq_some_iff] at found
      obtain ⟨high, first, found⟩ := found
      obtain ⟨highSmall, rfl⟩ := digit?_eq_some_iff.mp first
      split at found
      · obtain ⟨rfl, rfl⟩ := Prod.mk.inj (Option.some.inj found)
        exact ⟨_, Numeral.short highSmall, rfl⟩
      · next d tail =>
        split at found
        · next low second =>
          obtain ⟨lowSmall, rfl⟩ := digit?_eq_some_iff.mp second
          obtain ⟨rfl, rfl⟩ := Prod.mk.inj (Option.some.inj found)
          exact ⟨_, Numeral.long highSmall lowSmall, rfl⟩
        · obtain ⟨rfl, rfl⟩ := Prod.mk.inj (Option.some.inj found)
          exact ⟨_, Numeral.short highSmall, rfl⟩

/-- A step takes up the whole text. -/
theorem step?_eq_some_iff {text : List Char} {step : Nat}
    : step? text = some step ↔ Step text step := by
  rw [step?]
  constructor
  · intro found
    split at found
    · next value read =>
      split at found
      · next positive =>
        obtain rfl := Option.some.inj found
        obtain ⟨digits, numeral, whole⟩ := exists_numeral read
        rw [List.append_nil] at whole
        exact ⟨whole ▸ numeral, positive⟩
      · simp at found
    · simp at found
  · intro steps
    obtain ⟨numeral, positive⟩ := steps
    have read : number? (text ++ []) = some (step, []) :=
      number?_append numeral (by simp [Apart])
    rw [List.append_nil] at read
    simp [read, positive]

-----------------------------------------------------------------------------------------
-- Names
-----------------------------------------------------------------------------------------

/-- Every name has three letters, and no two of a field differ in case only, by the tables.
-/
theorem names_shape (field : Field)
    : (∀ name ∈ field.names, name.toList.length = 3 ∧ name.toList.all Char.isAlpha)
      ∧ (field.names.map fun name => name.toList.map Char.toLower).Nodup := by
  cases field <;> decide

/-- A name is found at its place in the table, since no other name has the same letters. -/
theorem valueOf?_eq_some_iff {field : Field} {text : List Char} {value : Nat}
    : field.valueOf? text = some value
      ↔ ∃ index name,
          field.names[index]? = some name
          ∧ text.map Char.toLower = name.toList.map Char.toLower
          ∧ field.first + index = value := by
  have distinct := (names_shape field).2
  simp only [Field.valueOf?, Option.map_eq_some_iff, List.findIdx?_eq_some_iff_getElem,
    Text.sameLetters, beq_iff_eq]
  constructor
  · intro found
    obtain ⟨index, ⟨within, same, _⟩, counted⟩ := found
    exact ⟨index, _, List.getElem?_eq_getElem within, same.symm, counted⟩
  · intro named
    obtain ⟨index, name, listed, same, counted⟩ := named
    obtain ⟨within, rfl⟩ := List.getElem?_eq_some_iff.mp listed
    refine ⟨index, ⟨within, same.symm, ?_⟩, counted⟩
    intro earlier before also
    have repeated : earlier = index := by
      apply (List.getElem?_inj (by simp; omega) distinct).mp
      simp [List.getElem?_map, List.getElem?_eq_getElem within,
        List.getElem?_eq_getElem (Nat.lt_trans before within), also, same]
    omega

/-- A text with the letters of a name has three characters, all of them letters. -/
theorem shape_of_sameLetters {field : Field} {text : List Char} {name : String} {index : Nat}
    (listed : field.names[index]? = some name)
    (same : text.map Char.toLower = name.toList.map Char.toLower)
    : text.length = 3 ∧ ∀ c ∈ text, c.isAlpha := by
  obtain ⟨three, letters⟩ := (names_shape field).1 name (List.mem_of_getElem? listed)
  constructor
  · rw [← three, ← List.length_map Char.toLower, same, List.length_map]
  · intro c member
    have lowered : c.toLower ∈ name.toList.map Char.toLower := by
      rw [← same]
      exact List.mem_map_of_mem member
    obtain ⟨d, known, equal⟩ := List.mem_map.mp lowered
    rw [← Char.isAlpha_toLower_eq_isAlpha, ← equal, Char.isAlpha_toLower_eq_isAlpha]
    exact List.all_eq_true.mp letters d known

/-- Letters are no digits, by their places. -/
theorem digit?_of_isAlpha {c : Char} (letter : c.isAlpha) : digit? c = none := by
  rw [digit?, if_neg]
  simp only [Char.isAlpha, Char.isUpper, Char.isLower, Char.isDigit, Bool.or_eq_true,
    Bool.and_eq_true, decide_eq_true_eq, UInt32.le_iff_toNat_le, ge_iff_le] at letter ⊢
  simp at letter ⊢
  omega

-----------------------------------------------------------------------------------------
-- Scalars
-----------------------------------------------------------------------------------------

theorem scalar?_append {field : Field} {text rest : List Char} {value : Nat}
    (scalar : Scalar field text value) (apart : Apart rest)
    : scalar? field (text ++ rest) = some (value, rest) := by
  unfold scalar?
  cases scalar with
  | number numeral => rw [number?_append numeral apart]
  | @named name index listed same =>
      obtain ⟨three, letters⟩ := shape_of_sameLetters listed same
      obtain ⟨a, b, c, rfl⟩ := List.length_eq_three.mp three
      have noNumber : number? ([a, b, c] ++ rest) = none := by
        simp [number?, digit?_of_isAlpha (letters a (by simp))]
      have known : field.valueOf? [a, b, c] = some (field.first + index) :=
        valueOf?_eq_some_iff.mpr ⟨index, name, listed, same, rfl⟩
      rw [noNumber]
      simp [known]

/-- What is read as a scalar stands at the front of the text. -/
theorem exists_scalar {field : Field} {text rest : List Char} {value : Nat}
    (found : scalar? field text = some (value, rest))
    : ∃ front, Scalar field front value ∧ text = front ++ rest := by
  unfold scalar? at found
  split at found
  · next read =>
    obtain rfl := Option.some.inj found
    obtain ⟨digits, numeral, whole⟩ := exists_numeral read
    exact ⟨digits, Scalar.number numeral, whole⟩
  · split at found
    · next a b c others _ =>
      obtain ⟨value, known, split⟩ := Option.map_eq_some_iff.mp found
      obtain ⟨rfl, rfl⟩ := Prod.mk.inj split
      obtain ⟨index, name, listed, same, rfl⟩ := valueOf?_eq_some_iff.mp known
      exact ⟨[a, b, c], Scalar.named listed same, rfl⟩
    · simp at found

/-- Scalars consist of letters and digits. -/
theorem Scalar.isAlphanum {field : Field} {text : List Char} {value : Nat}
    (scalar : Scalar field text value)
    : ∀ c ∈ text, c.isAlphanum := by
  have digits : ∀ digit < 10, digit.digitChar.isAlphanum := by decide
  cases scalar with
  | number numeral =>
      cases numeral with
      | short small => simpa using digits _ small
      | long high low => simpa using ⟨digits _ high, digits _ low⟩
  | named listed same =>
      intro c member
      have letter := (shape_of_sameLetters listed same).2 c member
      simp [Char.isAlphanum, letter]

theorem Scalar.exists_cons {field : Field} {text : List Char} {value : Nat}
    (scalar : Scalar field text value)
    : ∃ c rest, text = c :: rest := by
  cases scalar with
  | number numeral =>
      cases numeral with
      | short => exact ⟨_, _, rfl⟩
      | long => exact ⟨_, _, rfl⟩
  | named listed same =>
      obtain ⟨a, b, c, rfl⟩ := List.length_eq_three.mp (shape_of_sameLetters listed same).1
      exact ⟨_, _, rfl⟩

-----------------------------------------------------------------------------------------
-- Items
-----------------------------------------------------------------------------------------

/-- After a scalar the rest of the item is read. -/
theorem spelled?_append {field : Field} {text rest : List Char} {start : Nat}
    (scalar : Scalar field text start) (apart : Apart rest)
    : spelled? field (text ++ rest) = afterStart? field start rest := by
  have read := scalar?_append scalar apart
  obtain ⟨c, others, rfl⟩ := scalar.exists_cons
  have plain : c ≠ '*' := by
    intro star
    have alphanum := scalar.isAlphanum c (by simp)
    simp [star] at alphanum
  rw [spelled?]
  · rw [read]
    rfl
  · intro star
    simp_all
  · intro tail star
    simp_all

theorem apart_nil : Apart [] := by
  simp [Apart]

/-- The marks inside an item are no digits. -/
theorem apart_mark {c : Char} (isMark : c = '/' ∨ c = '-') (rest : List Char)
    : Apart (c :: rest) := by
  rcases isMark with rfl | rfl
  · intro d first
    obtain rfl := Option.some.inj first
    decide
  · intro d first
    obtain rfl := Option.some.inj first
    decide

/-- Every text of an item is read as that item, by cases on its derivation. -/
theorem ofText?_of_spells {field : Field} {text : List Char} {item : Item}
    (spells : Spells field text item)
    : ofText? field text = some item := by
  rw [ofText?, Option.filter_eq_some_iff]
  cases spells with
  | every => exact ⟨rfl, rfl⟩
  | spaced steps =>
      refine ⟨?_, rfl⟩
      simp [spelled?, step?_eq_some_iff.mpr steps]
  | lone scalar above below =>
      refine ⟨?_, by simp [isAdmissible, above, below]⟩
      have read := spelled?_append scalar apart_nil
      rw [List.append_nil] at read
      rw [read]
      rfl
  | onward scalar steps =>
      refine ⟨?_, rfl⟩
      rw [spelled?_append scalar (apart_mark (Or.inl rfl) _)]
      simp [afterStart?, step?_eq_some_iff.mpr steps]
  | range low high above below =>
      refine ⟨?_, by simp [isAdmissible, above, below]⟩
      have read := scalar?_append high apart_nil
      rw [List.append_nil] at read
      rw [spelled?_append low (apart_mark (Or.inr rfl) _)]
      simp [afterStart?, read]
  | stepped low high above below steps =>
      refine ⟨?_, by simp [isAdmissible, above, below]⟩
      rw [spelled?_append low (apart_mark (Or.inr rfl) _)]
      simp [afterStart?, scalar?_append high (apart_mark (Or.inl rfl) _),
        step?_eq_some_iff.mpr steps]

/-- Whatever is read as an item has a derivation, by following the reader. -/
theorem spells_of_ofText? {field : Field} {text : List Char} {item : Item}
    (read : ofText? field text = some item)
    : Spells field text item := by
  rw [ofText?, Option.filter_eq_some_iff] at read
  obtain ⟨spelled, admissible⟩ := read
  unfold spelled? at spelled
  split at spelled
  · obtain rfl := Option.some.inj spelled
    exact Spells.every
  · obtain ⟨step, steps, rfl⟩ := Option.map_eq_some_iff.mp spelled
    exact Spells.spaced (step?_eq_some_iff.mp steps)
  · simp only [Option.bind_eq_bind, Option.bind_eq_some_iff] at spelled
    obtain ⟨⟨start, rest⟩, first, after⟩ := spelled
    obtain ⟨front, low, rfl⟩ := exists_scalar first
    dsimp only at after
    unfold afterStart? at after
    split at after
    · obtain rfl := Option.some.inj after
      simp only [isAdmissible, Bool.and_eq_true, decide_eq_true_eq] at admissible
      rw [List.append_nil]
      exact Spells.lone low admissible.1 admissible.2
    · obtain ⟨step, steps, rfl⟩ := Option.map_eq_some_iff.mp after
      exact Spells.onward low (step?_eq_some_iff.mp steps)
    · split at after
      · next stop second =>
        obtain rfl := Option.some.inj after
        simp only [isAdmissible, Bool.and_eq_true, decide_eq_true_eq] at admissible
        obtain ⟨right, high, rfl⟩ := exists_scalar second
        rw [List.append_nil]
        exact Spells.range low high admissible.1 admissible.2
      · next stop tail second =>
        obtain ⟨step, steps, rfl⟩ := Option.map_eq_some_iff.mp after
        simp only [isAdmissible, Bool.and_eq_true, decide_eq_true_eq] at admissible
        obtain ⟨right, high, rfl⟩ := exists_scalar second
        exact Spells.stepped low high admissible.1 admissible.2 (step?_eq_some_iff.mp steps)
      · simp at after
    · simp at after

/-- Reading an item finds exactly what the grammar derives. -/
theorem ofText?_eq_some_iff {field : Field} {text : List Char} {item : Item}
    : ofText? field text = some item ↔ Spells field text item :=
  ⟨spells_of_ofText?, ofText?_of_spells⟩

/-- Items consist of letters, digits and three marks. -/
def IsItemChar (c : Char) : Prop :=
  c.isAlphanum ∨ c = '*' ∨ c = '/' ∨ c = '-'

/-- An item is not empty and has characters of items only, by cases on its derivation. -/
theorem Spells.chars {field : Field} {text : List Char} {item : Item}
    (spells : Spells field text item)
    : text ≠ [] ∧ ∀ c ∈ text, IsItemChar c := by
  have star : IsItemChar '*' := Or.inr (Or.inl rfl)
  have slash : IsItemChar '/' := Or.inr (Or.inr (Or.inl rfl))
  have dash : IsItemChar '-' := Or.inr (Or.inr (Or.inr rfl))
  have plain {part : List Char} {value : Nat} (scalar : Scalar field part value)
      : ∀ c ∈ part, IsItemChar c :=
    fun c member => Or.inl (scalar.isAlphanum c member)
  have digits {part : List Char} {step : Nat} (steps : Step part step)
      : ∀ c ∈ part, IsItemChar c :=
    plain (Scalar.number steps.numeral)
  cases spells with
  | every => exact ⟨by simp, by simpa using star⟩
  | spaced steps =>
      refine ⟨by simp, ?_⟩
      simpa only [List.forall_mem_cons] using ⟨star, slash, digits steps⟩
  | lone scalar =>
      obtain ⟨c, others, rfl⟩ := scalar.exists_cons
      exact ⟨by simp, plain scalar⟩
  | onward scalar steps =>
      refine ⟨by simp, ?_⟩
      simpa only [List.forall_mem_append, List.forall_mem_cons]
        using ⟨plain scalar, slash, digits steps⟩
  | range low high =>
      refine ⟨by simp, ?_⟩
      simpa only [List.forall_mem_append, List.forall_mem_cons]
        using ⟨plain low, dash, plain high⟩
  | stepped low high _ _ steps =>
      refine ⟨by simp, ?_⟩
      simpa only [List.forall_mem_append, List.forall_mem_cons]
        using ⟨plain low, dash, plain high, slash, digits steps⟩

/-- Blanks, commas and question marks do not occur in items. -/
theorem IsItemChar.plain {c : Char} (isItemChar : IsItemChar c)
    : Text.isBlank c = false ∧ c ≠ ',' ∧ c ≠ '?' := by
  rcases isItemChar with alphanum | rfl | rfl | rfl
  · have place : 48 ≤ c.toNat ∧ c.toNat ≤ 57 ∨ 65 ≤ c.toNat ∧ c.toNat ≤ 90
        ∨ 97 ≤ c.toNat ∧ c.toNat ≤ 122 := by
      simp [Char.isAlphanum, Char.isAlpha, Char.isUpper, Char.isLower, Char.isDigit,
        UInt32.le_iff_toNat_le] at alphanum
      omega
    refine ⟨?_, ?_, ?_⟩
    · simp [Text.isBlank, Text.blankRanges]
      omega
    · intro comma
      simp [comma] at place
    · intro question
      simp [question] at place
  · decide
  · decide
  · decide

end Cadence.Item
