import Cadence.Proofs.Canonical.RoundTrip

/-! How canonical texts cut the values of a mask. From left to right, a value starts a run
if the next two values are equally spaced, and the run goes on as long as the spacing
does. The pieces of the text between its commas denote these blocks one by one, so that
every value of the mask is denoted by one piece.
-/

namespace Cadence

/-- A piece of the text of a field stands for a value: the item that it spells has a
number of the value.
-/
def Field.Denotes (field : Field) (piece : List Char) (value : Nat) : Prop :=
  ∃ item,
    Item.ofText? field piece = some item
    ∧ ∃ number, item.Covers field number ∧ field.folded number = value

namespace Block

-----------------------------------------------------------------------------------------
-- The cut of the values
-----------------------------------------------------------------------------------------

/-- Values that are cut into blocks from left to right. A value stands alone only if the
next two are not equally spaced with it, or do not exist; a run has three values at least,
and the value after it does not go on in its spacing.
-/
inductive Cut : List Nat → List Block → Prop where
  | nil : Cut [] []
  | one {value rest blocks} (alone : ∀ step, ¬ [value + step, value + step + step] <+: rest)
    (cut : Cut rest blocks)
    : Cut (value :: rest) (.one value :: blocks)
  | run {first step further rest blocks} (positive : 0 < step)
    (ended : rest.head? ≠ some (first + (further + 3) * step)) (cut : Cut rest blocks)
    : Cut (List.range' first (further + 3) step ++ rest)
        (.run first (first + (further + 2) * step) step :: blocks)

/-- A run is followed until the spacing ends, by induction on the values. -/
theorem follow_stops (step last : Nat) (values : List Nat)
    : (follow step last values).2.head? ≠ some ((follow step last values).1 + step) := by
  induction values generalizing last with
  | nil => simp [follow]
  | cons value rest ih =>
      rw [follow]
      split
      · exact ih value
      · next other => simpa using other

/-- A proper run in front of values that do not go on in its spacing is cut off from them.
-/
theorem Cut.of_proper {first last step : Nat} {rest : List Nat} {blocks : List Block}
    (proper : Proper (.run first last step)) (ended : rest.head? ≠ some (last + step))
    (cut : Cut rest blocks)
    : Cut (values (.run first last step) ++ rest) (.run first last step :: blocks) := by
  cases proper with
  | run further positive =>
      rw [values_run positive]
      apply Cut.run positive _ cut
      rwa [Nat.succ_mul, ← Nat.add_assoc]

/-- Ascending values are cut greedily, by induction on the cuts. -/
theorem cut_ofValues {values : List Nat} (ascending : values.Pairwise (· < ·))
    : Cut values (ofValues values) := by
  fun_induction ofValues values with
  | case1 => exact Cut.nil
  | case2 a => exact Cut.one (by simp) Cut.nil
  | case3 a b => exact Cut.one (by simp) (Cut.one (by simp) Cut.nil)
  | case4 a b rest step stretch ih =>
      have first : a < b := List.rel_of_pairwise_cons ascending (by simp)
      obtain ⟨proper, front⟩ := run_spec first rest
      have later : stretch.2.Pairwise (· < ·) := by
        rw [← front] at ascending
        exact (List.pairwise_append.mp ascending).2.1
      have cut := Cut.of_proper proper (follow_stops (b - a) (b + (b - a)) rest) (ih later)
      rwa [front] at cut
  | case5 a b c rest step other ih =>
      refine Cut.one ?_ (ih ascending.tail)
      intro distance prefix_
      simp only [List.cons_prefix_cons] at prefix_
      omega

-----------------------------------------------------------------------------------------
-- The pieces of the text
-----------------------------------------------------------------------------------------

/-- How a step is written behind a span; a step of one is left out. -/
def stepText (step : Nat) : List Char :=
  if 1 < step then '/' :: (toString step).toList else []

/-- The span of a run. -/
def spanText (field : Field) (first last step : Nat) : List Char :=
  if first = field.first ∧ field.last < last + step then ['*']
  else (toString first).toList ++ '-' :: (toString last).toList

theorem text_run (field : Field) (first last step : Nat)
    : ((Block.run first last step).text field).toList
      = spanText field first last step ++ stepText step := by
  simp only [text, spanText, stepText]
  split <;> split <;> simp

/-- Numbers are written without marks. -/
theorem not_mem_toString {number : Nat} (small : number < 100) (mark : Char)
    (isMark : mark.isAlphanum = false)
    : mark ∉ (toString number).toList := by
  intro member
  have scalar : Item.Scalar .minute (toString number).toList number :=
    Item.Scalar.number (Item.numeral_toString small)
  have plain := scalar.isAlphanum mark member
  rw [isMark] at plain
  cases plain

/-- A span has a star exactly if it is nothing else, and never a slash. -/
theorem marks_spanText (field : Field) {first last : Nat} (smallFirst : first < 100)
    (smallLast : last < 100) (step : Nat)
    : ('*' ∈ spanText field first last step
        ↔ first = field.first ∧ field.last < last + step)
      ∧ '/' ∉ spanText field first last step := by
  have plain (mark : Char) (isMark : mark.isAlphanum = false) (other : mark ≠ '-')
      : mark ∉ (toString first).toList ++ '-' :: (toString last).toList := by
    rw [List.mem_append, List.mem_cons, not_or, not_or]
    exact ⟨not_mem_toString smallFirst mark isMark, other,
      not_mem_toString smallLast mark isMark⟩
  rw [spanText]
  split
  · next star => exact ⟨iff_of_true (by simp) star, by simp⟩
  · next ends =>
    exact ⟨iff_of_false (plain '*' (by decide) (by decide)) ends,
      plain '/' (by decide) (by decide)⟩

theorem star_not_mem_stepText {step : Nat} (small : step < 100) : '*' ∉ stepText step := by
  rw [stepText]
  split
  · simpa using not_mem_toString small '*' (by decide)
  · simp

/-- Where the last slash is in front of digits, a final slash with a one leaves no other
digit.
-/
theorem eq_one_of_suffix {span digits : List Char} (plain : '/' ∉ digits)
    (suffix : ['/', '1'] <:+ span ++ '/' :: digits)
    : digits = ['1'] := by
  have whole : '/' :: digits <:+ span ++ '/' :: digits := List.suffix_append _ _
  rcases List.suffix_or_suffix_of_suffix suffix whole with inner | outer
  · rcases List.suffix_cons_iff.mp inner with same | within
    · exact (List.cons.inj same).2.symm
    · exact absurd (within.subset (by simp)) plain
  · rcases List.suffix_cons_iff.mp outer with same | within
    · exact (List.cons.inj same).2
    · have slash : '/' ∈ ['1'] := within.subset (by simp)
      simp at slash

/-- Behind a span without a slash, no step of one is written. -/
theorem not_oneStep_suffix {span : List Char} (plain : '/' ∉ span) {step : Nat}
    (small : step < 100)
    : ¬ ['/', '1'] <:+ span ++ stepText step := by
  intro suffix
  rw [stepText] at suffix
  split at suffix
  · next stepped =>
    have digits := eq_one_of_suffix (not_mem_toString small '/' (by decide)) suffix
    have steps : Item.Step (toString step).toList step :=
      ⟨Item.numeral_toString small, by omega⟩
    have read := Item.step?_eq_some_iff.mpr steps
    rw [digits] at read
    have one : step = 1 := (Option.some.inj read).symm
    omega
  · rw [List.append_nil] at suffix
    exact plain (suffix.subset (by simp))

/-- How a block is written. A single value is written as a number. A run is written by its
ends, with a star for them exactly if it starts with the field and has no room for another
step.
-/
structure Written (field : Field) (block : Block) (piece : List Char) : Prop where
  denotes : ∀ value, field.Denotes piece value ↔ value ∈ block.values
  single : ∀ value, block = .one value → piece = (toString value).toList
  starred
    : '*' ∈ piece
      ↔ ∃ first last step,
          block = .run first last step ∧ first = field.first ∧ field.last < last + step
  ranged
    : ∀ first last step,
        block = .run first last step
        → '*' ∉ piece
        → (toString first).toList ++ '-' :: (toString last).toList <+: piece
  noStepOfOne : ¬ ['/', '1'] <:+ piece

theorem denotes_text {field : Field} {block : Block} (proper : block.Proper)
    (within : block.Within field) (value : Nat)
    : field.Denotes (block.text field).toList value ↔ value ∈ block.values := by
  rw [← covers_item proper within]
  simp only [Field.Denotes, Item.ofText?_eq_some_iff.mpr (spells_item proper within),
    Option.some.injEq, exists_eq_left']

theorem written_text {field : Field} {block : Block} (proper : block.Proper)
    (within : block.Within field)
    : Written field block (block.text field).toList := by
  have small := field.last_lt_sixty
  have denotes := denotes_text proper within
  cases block with
  | one value =>
      have bounds := within value (by simp [values])
      have digits : ((Block.one value).text field).toList = (toString value).toList := rfl
      have plain := not_mem_toString (show value < 100 by omega)
      refine ⟨denotes, ?_, ?_, by simp, ?_⟩
      · intro wanted same
        rw [← Block.one.inj same, digits]
      · simpa [digits] using plain '*' (by decide)
      · intro suffix
        rw [digits] at suffix
        exact plain '/' (by decide) (suffix.subset (by simp))
  | run first last step =>
      obtain ⟨above, ordered, below, positive, short⟩ := within.ends proper
      obtain ⟨star, slash⟩ :=
        marks_spanText field (show first < 100 by omega) (show last < 100 by omega) step
      have noStar := star_not_mem_stepText (show step < 100 by omega)
      rw [text_run] at denotes ⊢
      refine ⟨denotes, by simp, ?_, ?_, not_oneStep_suffix slash (by omega)⟩
      · rw [List.mem_append, or_iff_left noStar, star]
        simp
      · intro start stop distance same plain
        obtain ⟨rfl, rfl, rfl⟩ := Block.run.inj same
        rw [List.mem_append, or_iff_left noStar, star] at plain
        rw [spanText, if_neg plain]
        exact List.prefix_append _ _

/-- In blocks without repetition a value lies in one block and in no other. -/
theorem exists_only_block {blocks : List Block} (nodup : (blocks.flatMap values).Nodup)
    {value : Nat} (member : value ∈ blocks.flatMap values)
    : ∃ before block after,
        blocks = before ++ block :: after
        ∧ value ∈ block.values
        ∧ ∀ other ∈ before ++ after, value ∉ other.values := by
  obtain ⟨block, listed, inside⟩ := List.mem_flatMap.mp member
  obtain ⟨before, after, rfl⟩ := List.append_of_mem listed
  refine ⟨before, block, after, rfl, inside, ?_⟩
  intro other present again
  have first : (block.values ++ (before ++ after).flatMap values).Nodup := by
    rw [← List.flatMap_cons]
    exact (List.perm_middle.flatMap_right values).nodup_iff.mp nodup
  have repeated : value ∈ (before ++ after).flatMap values :=
    List.mem_flatMap.mpr ⟨other, present, again⟩
  exact List.disjoint_of_nodup_append first inside repeated

end Block

namespace Field

/-- The parts of the canonical text of a mask, between its commas. -/
def pieces (field : Field) (mask : Mask) : List (List Char) :=
  Text.splitWhere (· == ',') (field.text mask).toList

/-- The pieces are the texts of the blocks, since no block has a comma in its text. -/
theorem pieces_eq {field : Field} {mask : Mask} (accepted : field.accepts mask)
    : field.pieces mask
      = (Block.ofValues mask.values).map fun block => (block.text field).toList := by
  have ascending := mask.values_pairwise
  have nonempty := Block.ofValues_ne_nil ascending (values_ne_nil accepted)
  have clean
      : ∀ piece ∈ (Block.ofValues mask.values).map fun block => (block.text field).toList,
          Text.Clean (· == ',') piece := by
    rw [List.forall_mem_map]
    intro block listed
    have proper := (Block.ofValues_spec ascending).1 block listed
    exact (Block.spells_item proper (blocks_within accepted block listed)).clean
  rw [pieces, text, String.toList_intercalate, List.map_map]
  exact @Text.splitWhere_intercalate (· == ',') ',' rfl _ (by simpa using nonempty) clean

/-- The pieces of the canonical text of an admissible mask denote its values block by
block, in ascending order and cut greedily from left to right. Every value of the mask is
denoted by one piece and by no other, and no piece denotes a value that the mask does not
have.
-/
theorem pieces_cut_greedily {field : Field} {mask : Mask} (accepted : field.accepts mask)
    : ∃ blocks,
        Block.Cut mask.values blocks
        ∧ blocks.flatMap Block.values = mask.values
        ∧ List.Forall₂ (Block.Written field) blocks (field.pieces mask)
        ∧ (∀ value,
            mask.has value
            → ∃ before piece after,
                field.pieces mask = before ++ piece :: after
                ∧ field.Denotes piece value
                ∧ ∀ other ∈ before ++ after, ¬ field.Denotes other value)
        ∧ ∀ piece ∈ field.pieces mask,
          ∀ value, field.Denotes piece value → mask.has value := by
  have ascending := mask.values_pairwise
  obtain ⟨proper, whole⟩ := Block.ofValues_spec ascending
  have written (block : Block) (listed : block ∈ Block.ofValues mask.values) :=
    Block.written_text (proper block listed) (blocks_within accepted block listed)
  refine ⟨Block.ofValues mask.values, Block.cut_ofValues ascending, whole, ?_, ?_, ?_⟩
  · rw [pieces_eq accepted, List.forall₂_map_right_iff, List.forall₂_same]
    exact written
  · intro value member
    rw [← Mask.mem_values, ← whole] at member
    have nodup : ((Block.ofValues mask.values).flatMap Block.values).Nodup := by
      rw [whole]
      exact ascending.imp Nat.ne_of_lt
    obtain ⟨before, block, after, cut, inside, only⟩ := Block.exists_only_block nodup member
    rw [pieces_eq accepted]
    rw [cut] at written ⊢
    have denoted := ((written block (by simp)).denotes value).mpr inside
    refine ⟨_, _, _, List.map_append, denoted, ?_⟩
    intro other present
    rw [← List.map_append] at present
    obtain ⟨elsewhere, listed, rfl⟩ := List.mem_map.mp present
    have inAll : elsewhere ∈ before ++ block :: after :=
      ((List.sublist_cons_self block after).append_left before).subset listed
    rw [(written elsewhere inAll).denotes]
    exact only elsewhere listed
  · intro piece member value denotes
    rw [pieces_eq accepted] at member
    obtain ⟨block, listed, rfl⟩ := List.mem_map.mp member
    rw [has_iff_mem_blocks]
    exact ⟨block, listed, ((written block listed).denotes value).mp denotes⟩

/-- The minutes 1, 2, 3, 5, 7, 9 and 20. -/
def mixedMinutes : Mask := 1049262

/-- The run from 1 takes the minute 3, so that the next run starts at 5; its piece alone
denotes the minute 7.
-/
theorem pieces_cut_greedily_mixedMinutes
    : minute.accepts mixedMinutes
      ∧ minute.text mixedMinutes = "1-3,5-9/2,20"
      ∧ ∃ before piece after,
          minute.pieces mixedMinutes = before ++ piece :: after
          ∧ minute.Denotes piece 7
          ∧ ∀ other ∈ before ++ after, ¬ minute.Denotes other 7 := by
  have accepted : minute.accepts mixedMinutes := by decide
  obtain ⟨blocks, _, _, _, only, _⟩ := pieces_cut_greedily accepted
  exact ⟨accepted, by cbv, only 7 (by decide)⟩

end Field

end Cadence
