import Cadence.Field.Lemmas
import Cadence.Proofs.Grammar.Items
import Cadence.Proofs.Mask.Members
import Cadence.Proofs.Text.Pieces

/-! The grammar of fields, and its agreement with reading them. A field is a question mark,
or items between commas that together select a value; its mask holds the values that some
item selects. The numbers of an item are given by their distance from its start, with no
regard to how a mask is filled.
-/

namespace Cadence

-----------------------------------------------------------------------------------------
-- The grammar
-----------------------------------------------------------------------------------------

/-- The numbers that an item stands for: from its start in steps, up to its end. -/
def Item.Covers (field : Field) : Item → Nat → Prop
  | .every, number => field.first ≤ number ∧ number ≤ field.lastWritten
  | .spaced step, number =>
    ∃ steps, number = field.first + steps * step ∧ number ≤ field.lastWritten
  | .lone value, number => number = value
  | .onward start step, number =>
    ∃ steps, number = max start field.first + steps * step ∧ number ≤ field.lastWritten
  | .range start stop step, number =>
    ∃ steps,
      number = max start field.first + steps * step ∧ number ≤ min stop field.lastWritten

namespace Field

/-- The value that a number stands for: in a day of the week, 7 is Sunday. -/
def folded : Field → Nat → Nat
  | .dayOfWeek, 7 => 0
  | _, number => number

/-- Items between commas. -/
inductive Listed (field : Field) : List Char → List Item → Prop where
  | last {text item} (spells : Item.Spells field text item) : Listed field text [item]
  | more {text item rest items} (spells : Item.Spells field text item)
    (listed : Listed field rest items)
    : Listed field (text ++ ',' :: rest) (item :: items)

/-- Whether some item stands for a number of the value. -/
def Selected (field : Field) (items : List Item) (value : Nat) : Prop :=
  ∃ item ∈ items, ∃ number, item.Covers field number ∧ field.folded number = value

/-- The texts of a field with their masks. The items together select at least one value,
though each of them may select none.
-/
inductive Writes (field : Field) : List Char → Mask → Prop where
  | any {mask : Mask}
    (exact : ∀ value, mask.has value ↔ field.first ≤ value ∧ value ≤ field.last)
    : Writes field ['?'] mask
  | items {text items} {mask : Mask} (listed : field.Listed text items)
    (nonempty : ∃ value, field.Selected items value)
    (exact : ∀ value, mask.has value ↔ field.Selected items value)
    : Writes field text mask

end Field

-----------------------------------------------------------------------------------------
-- Items and their numbers
-----------------------------------------------------------------------------------------

/-- Being in a span is being some steps away from its start. -/
theorem Item.inSpan_iff {low high step number : Nat}
    : inSpan low high step number
      ↔ ∃ steps, number = low + steps * step ∧ number ≤ high := by
  simp only [inSpan, Bool.and_eq_true, decide_eq_true_eq, beq_iff_eq]
  constructor
  · intro spanned
    obtain ⟨⟨above, below⟩, whole⟩ := spanned
    obtain ⟨steps, distance⟩ := Nat.dvd_of_mod_eq_zero whole
    refine ⟨steps, ?_, below⟩
    rw [Nat.mul_comm, ← distance]
    omega
  · intro distant
    obtain ⟨steps, distance, below⟩ := distant
    refine ⟨⟨by omega, below⟩, ?_⟩
    rw [distance, Nat.add_sub_cancel_left, Nat.mul_mod_left]

theorem Item.selects_iff {field : Field} {item : Item} {number : Nat}
    : item.selects field number ↔ item.Covers field number := by
  cases item with
  | every =>
      rw [selects, inSpan_iff, Covers]
      constructor
      · intro spanned
        obtain ⟨steps, distance, below⟩ := spanned
        exact ⟨by omega, below⟩
      · intro bounds
        exact ⟨number - field.first, by omega, bounds.2⟩
  | lone value => simp [selects, Covers]
  | spaced step => exact inSpan_iff
  | onward start step => exact inSpan_iff
  | range start stop step => exact inSpan_iff

/-- Items of the grammar stand for numbers that may be written in their field. -/
theorem Item.Spells.bounds {field : Field} {text : List Char} {item : Item} {number : Nat}
    (spells : Spells field text item) (covers : item.Covers field number)
    : field.first ≤ number ∧ number ≤ field.lastWritten := by
  cases spells with
  | every => exact covers
  | spaced =>
      obtain ⟨steps, distance, below⟩ := covers
      exact ⟨by omega, below⟩
  | lone scalar above below =>
      obtain rfl : number = _ := covers
      exact ⟨above, below⟩
  | onward =>
      obtain ⟨steps, distance, below⟩ := covers
      exact ⟨by omega, below⟩
  | range =>
      obtain ⟨steps, distance, below⟩ := covers
      exact ⟨by omega, by omega⟩
  | stepped =>
      obtain ⟨steps, distance, below⟩ := covers
      exact ⟨by omega, by omega⟩

-----------------------------------------------------------------------------------------
-- Lists of items
-----------------------------------------------------------------------------------------

theorem Item.Spells.clean {field : Field} {text : List Char} {item : Item}
    (spells : Item.Spells field text item)
    : Text.Clean (· == ',') text := by
  intro c member
  simpa using (spells.chars.2 c member).plain.2.1

namespace Field

/-- A list of items is cut at its commas alone, since no item has one. -/
theorem Listed.mapM_split {field : Field} {text : List Char} {items : List Item}
    (listed : field.Listed text items)
    : (Text.splitWhere (· == ',') text).mapM (Item.ofText? field) = some items := by
  induction listed with
  | last spells =>
      rw [Text.splitWhere_of_clean spells.clean]
      simp [Item.ofText?_eq_some_iff.mpr spells]
  | more spells listed ih =>
      rw [Text.splitWhere_append spells.clean (by simp)]
      simp [Item.ofText?_eq_some_iff.mpr spells, ih]

/-- Whatever is read piece by piece is a list of items, by induction on the cuts. -/
theorem listed_of_mapM_split {field : Field} {text : List Char} {items : List Item}
    (read : (Text.splitWhere (· == ',') text).mapM (Item.ofText? field) = some items)
    : field.Listed text items := by
  induction text using Text.cutInduction (· == ',') generalizing items with
  | clean piece clean =>
      rw [Text.splitWhere_of_clean clean] at read
      simp only [List.mapM_cons, List.mapM_nil, Option.bind_eq_bind, Option.bind_eq_some_iff,
        Option.pure_def, Option.some.injEq] at read
      obtain ⟨item, spelled, _, rfl, rfl⟩ := read
      exact Listed.last (Item.ofText?_eq_some_iff.mp spelled)
  | cut piece c rest clean separator ih =>
      obtain rfl : c = ',' := by simpa using separator
      rw [Text.splitWhere_append clean separator] at read
      simp only [List.mapM_cons, Option.bind_eq_bind, Option.bind_eq_some_iff, Option.pure_def,
        Option.some.injEq] at read
      obtain ⟨item, spelled, others, later, rfl⟩ := read
      exact Listed.more (Item.ofText?_eq_some_iff.mp spelled) (ih later)

/-- Every listed item has a text of its own. -/
theorem Listed.exists_spells {field : Field} {text : List Char} {items : List Item}
    (listed : field.Listed text items)
    : ∀ item ∈ items, ∃ part, Item.Spells field part item := by
  induction listed with
  | last spells => simpa using ⟨_, spells⟩
  | more spells listed ih => simpa using ⟨⟨_, spells⟩, ih⟩

/-- A list of items has characters of items and commas only. -/
theorem Listed.chars {field : Field} {text : List Char} {items : List Item}
    (listed : field.Listed text items)
    : text ≠ [] ∧ ∀ c ∈ text, Item.IsItemChar c ∨ c = ',' := by
  induction listed with
  | last spells => exact ⟨spells.chars.1, fun c member => Or.inl (spells.chars.2 c member)⟩
  | more spells listed ih =>
      refine ⟨by simp, ?_⟩
      rw [List.forall_mem_append, List.forall_mem_cons]
      exact ⟨fun c member => Or.inl (spells.chars.2 c member), Or.inr rfl, ih.2⟩

-----------------------------------------------------------------------------------------
-- Values and numbers
-----------------------------------------------------------------------------------------

theorem first_le_last (field : Field) : field.first ≤ field.last := by
  cases field <;> decide

theorem last_lt_sixty (field : Field) : field.last < 60 := by
  cases field <;> decide

theorem last_le_lastWritten (field : Field) : field.last ≤ field.lastWritten := by
  cases field <;> decide

theorem folded_dayOfWeek (number : Nat)
    : Field.dayOfWeek.folded number = if number = 7 then 0 else number := by
  unfold folded
  split
  · rfl
  · next other => rw [if_neg (other rfl)]

/-- Only the days of the week are folded. -/
theorem folded_of_ne {field : Field} (other : field ≠ .dayOfWeek) (number : Nat)
    : field.folded number = number := by
  unfold folded
  split
  · exact absurd rfl other
  · rfl

/-- A value is spelled by the numbers that are folded to it. -/
theorem mem_spellings_iff {field : Field} {value number : Nat} (within : value ≤ field.last)
    : number ∈ field.spellings value ↔ field.folded number = value := by
  by_cases weekday : field = .dayOfWeek
  · subst weekday
    simp only [last] at within
    rw [folded_dayOfWeek]
    cases value with
    | zero =>
        simp only [spellings, List.mem_cons, List.not_mem_nil, or_false]
        split
        · next sunday => simp [sunday]
        · next other => simp [other]
    | succ value =>
        simp only [spellings, List.mem_singleton]
        split
        · omega
        · rfl
  · rw [folded_of_ne weekday]
    unfold spellings
    split
    · exact absurd rfl weekday
    · exact List.mem_singleton

/-- Values of the field stand for themselves. -/
theorem folded_of_le {field : Field} {number : Nat} (within : number ≤ field.last)
    : field.folded number = number := by
  by_cases weekday : field = .dayOfWeek
  · subst weekday
    simp only [last] at within
    rw [folded_dayOfWeek, if_neg (by omega)]
  · exact folded_of_ne weekday number

/-- The number after the last value stands for the first one. -/
theorem folded_of_lt {field : Field} {number : Nat} (beyond : field.last < number)
    (below : number ≤ field.lastWritten)
    : field.folded number = field.first := by
  by_cases weekday : field = .dayOfWeek
  · subst weekday
    simp only [last, lastWritten] at beyond below
    rw [folded_dayOfWeek, if_pos (by omega)]
    rfl
  · have written : field.lastWritten = field.last := by
      cases field with
      | dayOfWeek => exact absurd rfl weekday
      | minute => rfl
      | hour => rfl
      | dayOfMonth => rfl
      | month => rfl
    omega

/-- Folding leads into the field. -/
theorem folded_bounds {field : Field} {number : Nat} (above : field.first ≤ number)
    (below : number ≤ field.lastWritten)
    : field.first ≤ field.folded number ∧ field.folded number ≤ field.last := by
  by_cases within : number ≤ field.last
  · rw [folded_of_le within]
    exact ⟨above, within⟩
  · rw [folded_of_lt (Nat.lt_of_not_le within) below]
    exact ⟨Nat.le_refl _, first_le_last field⟩

-----------------------------------------------------------------------------------------
-- Masks
-----------------------------------------------------------------------------------------

/-- Selected values are values of the field. -/
theorem Listed.bounds {field : Field} {text : List Char} {items : List Item} {value : Nat}
    (listed : field.Listed text items) (selected : field.Selected items value)
    : field.first ≤ value ∧ value ≤ field.last := by
  obtain ⟨item, member, number, covers, rfl⟩ := selected
  obtain ⟨part, spells⟩ := listed.exists_spells item member
  obtain ⟨above, below⟩ := spells.bounds covers
  exact folded_bounds above below

/-- The mask of listed items has the values that they select. -/
theorem Listed.has_maskOf {field : Field} {text : List Char} {items : List Item}
    (listed : field.Listed text items) (value : Nat)
    : (field.maskOf items).has value ↔ field.Selected items value := by
  have small : field.last < 64 := Nat.lt_trans (last_lt_sixty field) (by decide)
  rw [maskOf, Mask.has_ofPred]
  simp only [Bool.and_eq_true, decide_eq_true_eq, List.any_eq_true, Item.selects_iff]
  constructor
  · intro has
    obtain ⟨_, ⟨_, below⟩, number, spelling, item, member, covers⟩ := has
    exact ⟨item, member, number, covers, (mem_spellings_iff below).mp spelling⟩
  · intro selected
    obtain ⟨above, below⟩ := listed.bounds selected
    obtain ⟨item, member, number, covers, folds⟩ := selected
    exact ⟨Nat.lt_of_le_of_lt below small, ⟨above, below⟩, number,
      (mem_spellings_iff below).mpr folds, item, member, covers⟩

/-- A mask is admissible when it has values, and all of them belong to the field. -/
theorem accepts_of_has {field : Field} {mask : Mask} (nonempty : ∃ value, mask.has value)
    (inside : ∀ value, mask.has value → field.first ≤ value ∧ value ≤ field.last)
    : field.accepts mask := by
  simp only [accepts, Bool.and_eq_true, bne_iff_ne, beq_iff_eq]
  constructor
  · intro empty
    obtain ⟨value, has⟩ := nonempty
    simp [empty] at has
  · apply Mask.eq_of_has
    intro i
    rw [Mask.has_zero]
    cases has : mask.has i with
    | false =>
        rw [Mask.has_eq_getLsbD] at has
        simp [Mask.has_eq_getLsbD, has]
    | true =>
        have within := Mask.lt_of_has has
        have full : field.full.has i = true := by simp [has_full within, inside i has]
        rw [Mask.has_eq_getLsbD] at full
        simp [Mask.has_eq_getLsbD, full]

-----------------------------------------------------------------------------------------
-- Reading a field
-----------------------------------------------------------------------------------------

/-- Masks of the grammar are admissible. -/
theorem Writes.accepts {field : Field} {text : List Char} {mask : Mask}
    (writes : field.Writes text mask)
    : field.accepts mask := by
  cases writes with
  | any exact =>
      exact accepts_of_has ⟨_, (exact field.first).mpr ⟨Nat.le_refl _, first_le_last field⟩⟩
        fun value has => (exact value).mp has
  | items listed nonempty exact =>
      obtain ⟨value, selected⟩ := nonempty
      exact accepts_of_has ⟨value, (exact value).mpr selected⟩
        fun value has => listed.bounds ((exact value).mp has)

theorem has_full_iff {field : Field} {value : Nat}
    : field.full.has value ↔ field.first ≤ value ∧ value ≤ field.last := by
  have small : field.last < 64 := Nat.lt_trans (last_lt_sixty field) (by decide)
  constructor
  · intro has
    simpa [has_full (Mask.lt_of_has has)] using has
  · intro inside
    simpa [has_full (Nat.lt_of_le_of_lt inside.2 small)] using inside

/-- A question mark is no list of items. -/
theorem Listed.ne_any {field : Field} {text : List Char} {items : List Item}
    (listed : field.Listed text items)
    : text ≠ ['?'] := by
  intro question
  rcases listed.chars.2 '?' (by simp [question]) with isItemChar | comma
  · exact isItemChar.plain.2.2 rfl
  · simp at comma

/-- Reading a field finds exactly the masks that the grammar gives its text. -/
theorem reading?_iff {field : Field} {text : List Char} {mask : Mask}
    : (∃ reading, field.reading? text = some reading ∧ reading.mask = mask)
      ↔ field.Writes text mask := by
  rw [reading?]
  split
  · next question =>
    subst question
    simp only [Option.some.injEq, exists_eq_left']
    constructor
    · intro same
      exact Writes.any fun value => same ▸ has_full_iff
    · intro writes
      cases writes with
      | any exact =>
          apply Mask.eq_of_has
          intro value
          rw [Bool.eq_iff_iff, has_full_iff, exact]
      | items listed => exact absurd rfl listed.ne_any
  · next other =>
    simp only [Option.bind_eq_bind, Option.bind_eq_some_iff]
    constructor
    · intro isRead
      obtain ⟨reading, ⟨items, read, found⟩, same⟩ := isRead
      have listed := listed_of_mapM_split read
      split at found
      · simp at found
      · next nonempty =>
        obtain rfl := Option.some.inj found
        subst same
        refine Writes.items listed ?_ listed.has_maskOf
        exact ⟨_, (listed.has_maskOf _).mp (Mask.has_lowest nonempty)⟩
    · intro writes
      cases writes with
      | any => exact absurd rfl other
      | @items text items mask listed nonempty exact =>
          have same : field.maskOf items = mask := by
            apply Mask.eq_of_has
            intro value
            rw [Bool.eq_iff_iff, listed.has_maskOf, exact]
          have occupied : mask ≠ 0 := by
            intro empty
            obtain ⟨value, selected⟩ := nonempty
            have has := (exact value).mpr selected
            simp [empty] at has
          exact ⟨_, ⟨items, listed.mapM_split, if_neg (same ▸ occupied)⟩, same⟩

end Field

end Cadence
