import Cadence.Proofs.Canonical.RoundTrip
import Cadence.Proofs.Grammar.Intervals

/-! Which canonical texts are parsed as intervals. The flag of a schedule is not in its
text, but parsing makes one from the syntax: a canonical text has a step, a range or a star
in the minute or hour exactly where the mask has a run, three neighbouring values that are
equally spaced.
-/

namespace Cadence

namespace Block

def isRun : Block → Bool
  | .one _ => false
  | .run _ _ _ => true

/-- A block is written as a spread item exactly if it is a run. -/
theorem isSpread_item (field : Field) (block : Block)
    : (block.item field).isSpread = block.isRun := by
  cases block with
  | one value => rfl
  | run first last step =>
      rw [item]
      split
      · split <;> rfl
      · rfl

/-- Somewhere in a list, three neighbouring values are equally spaced. -/
def HasRun (values : List Nat) : Prop :=
  ∃ first step, [first, first + step, first + step + step] <:+: values

/-- A run takes three values. -/
theorem HasRun.length {values : List Nat} (found : HasRun values) : 3 ≤ values.length := by
  obtain ⟨first, step, infix_⟩ := found
  exact infix_.length_le

/-- Values are cut into a run somewhere exactly if they have one, by induction on the cuts.
-/
theorem any_isRun_ofValues {values : List Nat} (ascending : values.Pairwise (· < ·))
    : (ofValues values).any isRun ↔ HasRun values := by
  fun_induction ofValues values with
  | case1 => exact ⟨by simp, fun found => absurd found.length (by simp)⟩
  | case2 a => exact ⟨by simp [isRun], fun found => absurd found.length (by simp)⟩
  | case3 a b => exact ⟨by simp [isRun], fun found => absurd found.length (by simp)⟩
  | case4 a b rest step stretch ih =>
      have first : a < b := List.rel_of_pairwise_cons ascending (by simp)
      have front : HasRun (a :: b :: (b + step) :: rest) := by
        refine ⟨a, step, List.IsPrefix.isInfix ⟨rest, ?_⟩⟩
        have next : a + step = b := by omega
        simp [next]
      simp [isRun, front]
  | case5 a b c rest step other ih =>
      simp only [List.any_cons, isRun, Bool.false_or, ih ascending.tail, HasRun]
      apply exists₂_congr
      intro first distance
      rw [List.infix_cons_iff (a := a)]
      constructor
      · exact Or.inr
      · rintro (front | behind)
        · simp only [List.cons_prefix_cons] at front
          omega
        · exact behind

end Block

-----------------------------------------------------------------------------------------
-- Reading a field
-----------------------------------------------------------------------------------------

namespace Field

/-- The canonical text of a mask is read as the mask; a clock field makes an interval of it
if it has a run.
-/
theorem reading?_text {field : Field} {mask : Mask} (accepted : field.accepts mask)
    : field.reading? (field.text mask).toList
      = some ⟨mask, field.isClock && (Block.ofValues mask.values).any Block.isRun⟩ := by
  obtain ⟨⟨found, interval⟩, read, rfl⟩ := reading?_iff.mpr (writes_text accepted)
  have flag := (listed_text accepted).interval_eq read
  simp only [List.any_map, Function.comp_def, Block.isSpread_item] at flag
  rw [read, flag]

end Field

-----------------------------------------------------------------------------------------
-- Parsing a schedule
-----------------------------------------------------------------------------------------

namespace Schedule

/-- The minute or the hour has a run. -/
def HasRun (masks : Masks) : Prop :=
  Block.HasRun masks.minute.values ∨ Block.HasRun masks.hour.values

/-- Whether the minute or the hour is cut into a run somewhere. -/
def isSpread (masks : Masks) : Bool :=
  (Block.ofValues masks.minute.values).any Block.isRun
    || (Block.ofValues masks.hour.values).any Block.isRun

theorem isSpread_iff (masks : Masks) : isSpread masks ↔ HasRun masks := by
  rw [isSpread, Bool.or_eq_true, Block.any_isRun_ofValues masks.minute.values_pairwise,
    Block.any_isRun_ofValues masks.hour.values_pairwise]
  exact Iff.rfl

/-- The words of a canonical text are the texts of its fields. -/
theorem words_canonical (schedule : Schedule)
    : Text.words schedule.canonical.toList
      = Field.all.map fun field => (field.text (schedule.masks.on field)).toList :=
  Text.words_of_holds ⟨[], schedule.canonical.toList, [], by simp, List.forall_mem_nil _,
    List.forall_mem_nil _, schedule.row_canonical⟩

/-- A canonical text stands for the masks that it was made from, and for an interval if they
have a run in the minute or hour.
-/
theorem masks?_canonical (schedule : Schedule)
    : masks? schedule.canonical.toList = some (schedule.masks, isSpread schedule.masks) := by
  have reading (field : Field) := Field.reading?_text (schedule.valid field)
  rw [masks?, words_canonical]
  simp only [Field.all, List.map_cons, List.map_nil, fields?, reading]
  simp [Field.isClock, Masks.on, isSpread]

/-- The schedule that is parsed from the canonical text of another: the flag is made anew. -/
def reread (schedule : Schedule) : Schedule :=
  { schedule with interval := isSpread schedule.masks }

/-- A canonical text is parsed as the schedule with a new flag. -/
theorem parse_canonical_eq (schedule : Schedule)
    : parse schedule.canonical = .ok schedule.reread := by
  simp only [parse, masks?_canonical, ofMasks_of_valid schedule.valid]
  rfl

end Schedule

end Cadence
