import Cadence.Proofs.Canonical.Blocks
import Cadence.Proofs.Grammar.Expressions
import Mathlib

/-! Canonical texts are texts of the grammar, and they are parsed as the masks that they were
made from. A block is written as an item; the item may reach past the block only where the
field ends, and in a day of the week the one number beyond the last value is Sunday, with
which such a block starts.
-/

namespace Cadence

-----------------------------------------------------------------------------------------
-- Numbers
-----------------------------------------------------------------------------------------

/-- Numbers of up to two digits are written as the grammar has them. -/
theorem Item.numeral_toString {number : Nat} (small : number < 100)
    : Item.Numeral (toString number).toList number := by
  rw [Nat.toString_eq_ofList_toDigits, String.toList_ofList]
  by_cases short : number < 10
  · rw [Nat.toDigits_of_lt_base short]
    exact Item.Numeral.short short
  · have long : 10 ≤ number := Nat.le_of_not_lt short
    have high : number / 10 < 10 := by omega
    have low : number % 10 < 10 := Nat.mod_lt _ (by decide)
    rw [Nat.toDigits_of_base_le (by decide) long, Nat.toDigits_of_lt_base high]
    have numeral := Item.Numeral.long high low
    rw [Nat.div_add_mod] at numeral
    exact numeral

-----------------------------------------------------------------------------------------
-- Blocks as items
-----------------------------------------------------------------------------------------

namespace Block

/-- The item that a block is written as. -/
def item (field : Field) : Block → Item
  | .one value => .lone value
  | .run first last step =>
    if first = field.first ∧ field.last < last + step then
      if 1 < step then .spaced step else .every
    else .range first last step

/-- Whether the values of a block are values of a field. -/
def Within (field : Field) (block : Block) : Prop :=
  ∀ value ∈ block.values, field.first ≤ value ∧ value ≤ field.last

/-- A run has both of its ends in the field, and its step is not longer than itself. -/
theorem Within.ends {field : Field} {first last step : Nat}
    (within : Within field (.run first last step)) (proper : Proper (.run first last step))
    : field.first ≤ first ∧ first ≤ last ∧ last ≤ field.last ∧ 0 < step ∧ step ≤ last := by
  have member (value : Nat) : value ∈ values (.run first last step) ↔ _ :=
    mem_values_run proper
  cases proper with
  | run further positive =>
      have long : step ≤ (further + 2) * step := Nat.le_mul_of_pos_left step (by omega)
      have start := within first ((member _).mpr ⟨0, by simp, by omega⟩)
      have stop := within _ ((member _).mpr ⟨further + 2, rfl, Nat.le_refl _⟩)
      exact ⟨start.1, by omega, stop.2, positive, by omega⟩

/-- A block is written as the text of its item. -/
theorem spells_item {field : Field} {block : Block} (proper : block.Proper)
    (within : block.Within field)
    : Item.Spells field (block.text field).toList (block.item field) := by
  have small := field.last_lt_sixty
  have written := field.last_le_lastWritten
  cases block with
  | one value =>
      have bounds := within value (by simp [values])
      exact Item.Spells.lone (Item.Scalar.number (Item.numeral_toString (by omega))) bounds.1
        (by omega)
  | run first last step =>
      obtain ⟨above, ordered, below, positive, short⟩ := within.ends proper
      have low : Item.Scalar field (toString first).toList first :=
        Item.Scalar.number (Item.numeral_toString (by omega))
      have high : Item.Scalar field (toString last).toList last :=
        Item.Scalar.number (Item.numeral_toString (by omega))
      have steps : Item.Step (toString step).toList step :=
        ⟨Item.numeral_toString (by omega), positive⟩
      simp only [text, item]
      by_cases star : first = field.first ∧ field.last < last + step
      · rw [if_pos star, if_pos star]
        by_cases stepped : 1 < step
        · rw [if_pos stepped, if_pos stepped]
          simpa using Item.Spells.spaced steps
        · rw [if_neg stepped, if_neg stepped]
          exact Item.Spells.every
      · rw [if_neg star, if_neg star]
        by_cases stepped : 1 < step
        · rw [if_pos stepped]
          simpa using Item.Spells.stepped low high (by omega) (by omega) steps
        · rw [if_neg stepped]
          obtain rfl : step = 1 := by omega
          simpa using Item.Spells.range low high (by omega) (by omega)

/-- An item with a star goes on from the start of the field in its steps. -/
theorem covers_star {field : Field} {step number : Nat} (positive : 0 < step)
    : (if 1 < step then Item.spaced step else Item.every).Covers field number
      ↔ ∃ steps, number = field.first + steps * step ∧ number ≤ field.lastWritten := by
  split
  · exact Iff.rfl
  · obtain rfl : step = 1 := by omega
    rw [← Item.inSpan_iff, ← Item.selects_iff]
    rfl

/-- A star stops with the run, or at a number beyond the field, which stands for its first
value.
-/
theorem stands_star {field : Field} {last step : Nat}
    (proper : Proper (.run field.first last step))
    (within : Within field (.run field.first last step)) (reaches : field.last < last + step)
    (value : Nat)
    : (∃ number,
        (∃ steps, number = field.first + steps * step ∧ number ≤ field.lastWritten)
        ∧ field.folded number = value)
      ↔ ∃ steps, value = field.first + steps * step ∧ value ≤ last := by
  obtain ⟨_, ordered, below, positive, _⟩ := within.ends proper
  have written := field.last_le_lastWritten
  constructor
  · intro stands
    obtain ⟨number, ⟨steps, counted, small⟩, folds⟩ := stands
    by_cases inside : number ≤ field.last
    · rw [Field.folded_of_le inside] at folds
      subst folds
      refine ⟨steps, counted, ?_⟩
      cases proper with
      | run further =>
          have fewer : steps * step < (further + 2 + 1) * step := by
            rw [Nat.succ_mul]
            omega
          have atMost := Nat.le_of_lt_succ (Nat.lt_of_mul_lt_mul_right fewer)
          have bounded := Nat.mul_le_mul_right step atMost
          omega
    · rw [Field.folded_of_lt (by omega) small] at folds
      exact ⟨0, by omega, by omega⟩
  · intro distant
    obtain ⟨steps, counted, small⟩ := distant
    exact ⟨value, ⟨steps, counted, by omega⟩, Field.folded_of_le (by omega)⟩

/-- The numbers of an item stand for the values of its block. -/
theorem covers_item {field : Field} {block : Block} (proper : block.Proper)
    (within : block.Within field) (value : Nat)
    : (∃ number, (block.item field).Covers field number ∧ field.folded number = value)
      ↔ value ∈ block.values := by
  cases block with
  | one wanted =>
      have bounds := within wanted (by simp [values])
      simp only [item, Item.Covers, exists_eq_left, Field.folded_of_le bounds.2, values,
        List.mem_singleton]
      exact eq_comm
  | run first last step =>
      obtain ⟨above, ordered, below, positive, _⟩ := within.ends proper
      have written := field.last_le_lastWritten
      rw [mem_values_run proper, item]
      by_cases star : first = field.first ∧ field.last < last + step
      · obtain ⟨rfl, reaches⟩ := star
        rw [if_pos ⟨rfl, reaches⟩]
        simp only [covers_star positive]
        exact stands_star proper within reaches value
      · rw [if_neg star]
        simp only [Item.Covers, Nat.max_eq_left above,
          Nat.min_eq_left (Nat.le_trans below written)]
        constructor
        · intro stands
          obtain ⟨number, ⟨steps, counted, small⟩, folds⟩ := stands
          rw [Field.folded_of_le (by omega)] at folds
          exact ⟨steps, by omega, by omega⟩
        · intro member
          obtain ⟨steps, counted, small⟩ := member
          exact ⟨value, ⟨steps, counted, small⟩, Field.folded_of_le (by omega)⟩

end Block

-----------------------------------------------------------------------------------------
-- Fields and schedules
-----------------------------------------------------------------------------------------

namespace Field

/-- Blocks between commas are a list of their items, by induction on the blocks. -/
theorem listed_blocks {field : Field} {blocks : List Block} (nonempty : blocks ≠ [])
    (proper : ∀ block ∈ blocks, block.Proper) (within : ∀ block ∈ blocks, block.Within field)
    : field.Listed ([','].intercalate (blocks.map fun block => (block.text field).toList))
        (blocks.map (Block.item field)) := by
  induction blocks with
  | nil => exact absurd rfl nonempty
  | cons block others ih =>
      rw [List.forall_mem_cons] at proper within
      have spells := Block.spells_item proper.1 within.1
      cases others with
      | nil => simpa using Listed.last spells
      | cons second rest =>
          simpa using Listed.more spells (ih (by simp) proper.2 within.2)

/-- The blocks of a mask hold its values. -/
theorem has_iff_mem_blocks (mask : Mask) (value : Nat)
    : mask.has value ↔ ∃ block ∈ Block.ofValues mask.values, value ∈ block.values := by
  rw [← Mask.mem_values, ← List.mem_flatMap, (Block.ofValues_spec mask.values_pairwise).2]

/-- The blocks of an admissible mask lie in its field. -/
theorem blocks_within {field : Field} {mask : Mask} (accepted : field.accepts mask)
    : ∀ block ∈ Block.ofValues mask.values, block.Within field := by
  intro block member value inside
  exact range_of_has accepted ((has_iff_mem_blocks mask value).mpr ⟨block, member, inside⟩)

theorem values_ne_nil {field : Field} {mask : Mask} (accepted : field.accepts mask)
    : mask.values ≠ [] := by
  apply List.ne_nil_of_mem
  exact Mask.mem_values.mpr (Mask.has_lowest (ne_zero_of_accepts accepted))

/-- The canonical text of an admissible mask lists the items of its blocks. -/
theorem listed_text {field : Field} {mask : Mask} (accepted : field.accepts mask)
    : field.Listed (field.text mask).toList
        ((Block.ofValues mask.values).map (Block.item field)) := by
  have ascending := mask.values_pairwise
  have listed := listed_blocks (Block.ofValues_ne_nil ascending (values_ne_nil accepted))
    (Block.ofValues_spec ascending).1 (blocks_within accepted)
  rw [text, String.toList_intercalate, List.map_map]
  exact listed

/-- The canonical text of an admissible mask is a text of the field with that mask. -/
theorem writes_text {field : Field} {mask : Mask} (accepted : field.accepts mask)
    : field.Writes (field.text mask).toList mask := by
  have proper := (Block.ofValues_spec mask.values_pairwise).1
  have selected (value : Nat) : mask.has value
      ↔ field.Selected ((Block.ofValues mask.values).map (Block.item field)) value := by
    have same (block : Block) (member : block ∈ Block.ofValues mask.values) :=
      Block.covers_item (proper block member) (blocks_within accepted block member) value
    rw [has_iff_mem_blocks, Selected]
    constructor
    · intro holds
      obtain ⟨block, member, inside⟩ := holds
      exact ⟨_, List.mem_map_of_mem member, (same block member).mpr inside⟩
    · intro selects
      obtain ⟨item, listed, covers⟩ := selects
      obtain ⟨block, member, rfl⟩ := List.mem_map.mp listed
      exact ⟨block, member, (same block member).mp covers⟩
  exact Writes.items (listed_text accepted)
    ⟨_, (selected _).mp (Mask.has_lowest (ne_zero_of_accepts accepted))⟩ selected

/-- A text of a field is a word. -/
theorem Writes.isWord {field : Field} {text : List Char} {mask : Mask}
    (writes : field.Writes text mask)
    : Text.IsWord text := by
  cases writes with
  | any => exact ⟨by simp, by simp [Text.Clean]; decide⟩
  | items listed =>
      refine ⟨listed.chars.1, ?_⟩
      intro c member
      rcases listed.chars.2 c member with isItemChar | rfl
      · exact isItemChar.plain.1
      · decide

end Field

namespace Schedule

/-- The canonical text of a schedule has the texts of its fields in a row. -/
theorem row_canonical (schedule : Schedule)
    : Text.Row schedule.canonical.toList
        (Field.all.map fun field => (field.text (schedule.masks.on field)).toList) := by
  have isWord (field : Field)
      : Text.IsWord (field.text (schedule.masks.on field)).toList :=
    (Field.writes_text (schedule.valid field)).isWord
  rw [canonical, String.toList_intercalate, List.map_map]
  apply Text.row_intercalate
  · simp [Field.all]
  · simpa using fun field _ => isWord field

/-- The canonical text of a schedule is a text of the grammar with its masks. -/
theorem written_canonical (schedule : Schedule)
    : Written schedule.canonical.toList schedule.masks :=
  ⟨[], schedule.canonical.toList, [], by simp, List.forall_mem_nil _, List.forall_mem_nil _,
    Or.inr ⟨_, schedule.row_canonical, fun field => Field.writes_text (schedule.valid field)⟩⟩

/-- A canonical text is parsed as the masks that it was made from. -/
theorem parse_canonical (schedule : Schedule)
    : ∃ again,
        parse schedule.canonical = .ok again
        ∧ again.masks = schedule.masks
        ∧ again.canonical = schedule.canonical := by
  obtain ⟨again, parsed, same⟩ := parse_of_written schedule.written_canonical
  exact ⟨again, parsed, same, by rw [canonical, canonical, same]⟩

/-- Schedules are equal exactly when their canonical texts are, since the text can be parsed.
-/
theorem beq_iff_canonical (left right : Schedule)
    : left == right ↔ left.canonical = right.canonical := by
  have equal : left == right ↔ left.masks = right.masks :=
    beq_iff_eq (a := left.masks) (b := right.masks)
  rw [equal]
  constructor
  · intro same
    rw [canonical, canonical, same]
  · intro same
    obtain ⟨first, parsed, firstMasks, _⟩ := left.parse_canonical
    obtain ⟨second, again, secondMasks, _⟩ := right.parse_canonical
    rw [same, again] at parsed
    obtain rfl := Except.ok.inj parsed
    rw [← firstMasks, secondMasks]

/-- A text put into its canonical form. -/
def reformat (text : String) : Except ScheduleError String :=
  (parse text).map canonical

theorem reformat_of_parse {text : String} {schedule : Schedule}
    (parsed : parse text = .ok schedule)
    : reformat text = .ok schedule.canonical := by
  rw [reformat, parsed]
  rfl

/-- Canonical texts are parsed as the masks that they were made from and made again from
them. So they tell schedules apart, and putting a text into its canonical form a second
time changes nothing.
-/
theorem canonical_roundTrip
    : (∀ schedule : Schedule,
        ∃ again,
          parse schedule.canonical = .ok again
          ∧ again.masks = schedule.masks
          ∧ again.canonical = schedule.canonical)
      ∧ (∀ left right : Schedule, left == right ↔ left.canonical = right.canonical)
      ∧ ∀ text, (reformat text >>= reformat) = reformat text := by
  refine ⟨parse_canonical, beq_iff_canonical, ?_⟩
  intro text
  cases parsed : parse text with
  | error error =>
      rw [reformat, parsed]
      rfl
  | ok schedule =>
      obtain ⟨again, parsedAgain, _, same⟩ := schedule.parse_canonical
      simp only [reformat_of_parse parsed, bind, Except.bind, reformat_of_parse parsedAgain, same]

-- Sunday comes first in the canonical text, so that a range up to it does not stay a range.
example : reformat "0 9-17/4 * jan Fri-7" = .ok "0 9-17/4 * 1 0,5,6" := by cbv

end Schedule

end Cadence
