import Cadence.Proofs.Grammar.Expressions
import Mathlib

/-! Which texts are parsed as intervals. A list of items is an interval exactly if its text
has a star, a dash or a slash, whether the item with that mark selects a value or not. So
the flag of a schedule that is written out in five fields can be read off the characters of
its first two words.
-/

namespace Cadence

-----------------------------------------------------------------------------------------
-- Items
-----------------------------------------------------------------------------------------

namespace Item

/-- The marks of wildcards, ranges and steps. -/
def isMark (c : Char) : Bool :=
  c == '*' || c == '-' || c == '/'

def isMarked (text : List Char) : Bool :=
  text.any isMark

theorem isMarked_append (left right : List Char)
    : isMarked (left ++ right) = (isMarked left || isMarked right) :=
  List.any_append

theorem isMarked_cons (c : Char) (text : List Char)
    : isMarked (c :: text) = (isMark c || isMarked text) :=
  List.any_cons

/-- Letters and digits are no marks, so that scalars have none. -/
theorem Scalar.isMarked_eq {field : Field} {text : List Char} {value : Nat}
    (scalar : Scalar field text value)
    : isMarked text = false := by
  rw [isMarked, List.any_eq_false]
  intro c member mark
  have alphanum := scalar.isAlphanum c member
  simp only [isMark, Bool.or_eq_true, beq_iff_eq] at mark
  rcases mark with (rfl | rfl) | rfl
  · exact absurd alphanum (by decide)
  · exact absurd alphanum (by decide)
  · exact absurd alphanum (by decide)

/-- The text of an item has a mark exactly if the item is not a lone value, by cases on its
derivation.
-/
theorem Spells.isMarked_eq {field : Field} {text : List Char} {item : Item}
    (spells : Spells field text item)
    : isMarked text = item.isSpread := by
  have star : isMark '*' = true := by decide
  have slash : isMark '/' = true := by decide
  have dash : isMark '-' = true := by decide
  cases spells with
  | every => rfl
  | spaced => simp [isMarked_cons, star, isSpread]
  | lone scalar => rw [scalar.isMarked_eq, isSpread]
  | onward => simp [isMarked_append, isMarked_cons, slash, isSpread]
  | range => simp [isMarked_append, isMarked_cons, dash, isSpread]
  | stepped => simp [isMarked_append, isMarked_cons, dash, isSpread]

end Item

-----------------------------------------------------------------------------------------
-- Fields
-----------------------------------------------------------------------------------------

namespace Field

/-- A list of items has a mark exactly if one of them is not a lone value, since commas are
no marks.
-/
theorem Listed.isMarked_eq {field : Field} {text : List Char} {items : List Item}
    (listed : field.Listed text items)
    : Item.isMarked text = items.any Item.isSpread := by
  have comma : Item.isMark ',' = false := by decide
  induction listed with
  | last spells => rw [spells.isMarked_eq, List.any_cons, List.any_nil, Bool.or_false]
  | more spells listed ih =>
      rw [Item.isMarked_append, Item.isMarked_cons, comma, Bool.false_or, spells.isMarked_eq, ih,
        List.any_cons]

/-- Reading a list of items makes an interval of a clock field with a spread item. -/
theorem Listed.interval_eq {field : Field} {text : List Char} {items : List Item}
    {reading : Reading} (listed : field.Listed text items)
    (read : field.reading? text = some reading)
    : reading.interval = (field.isClock && items.any Item.isSpread) := by
  rw [reading?, if_neg listed.ne_any, listed.mapM_split] at read
  simp only [Option.bind_eq_bind, Option.bind_some] at read
  split at read
  · simp at read
  · obtain rfl := Option.some.inj read
    rfl

/-- Reading a field makes an interval of a clock field with a mark; a question mark is none,
though it stands for all values.
-/
theorem interval_eq_isMarked {field : Field} {text : List Char} {reading : Reading}
    (read : field.reading? text = some reading)
    : reading.interval = (field.isClock && Item.isMarked text) := by
  cases reading?_iff.mp ⟨reading, read, rfl⟩ with
  | any =>
      obtain rfl := Option.some.inj read
      rw [show Item.isMarked ['?'] = false from rfl, Bool.and_false]
  | items listed => rw [listed.interval_eq read, listed.isMarked_eq]

/-- The items of a field with a mark in them, as they are written. -/
def markedItems (text : List Char) : List (List Char) :=
  (Text.splitWhere (· == ',') text).filter Item.isMarked

/-- A field has a mark exactly if one of its items has, by induction on the cuts. -/
theorem markedItems_eq_nil_iff (text : List Char)
    : markedItems text = [] ↔ Item.isMarked text = false := by
  rw [markedItems]
  induction text using Text.cutInduction (· == ',') with
  | clean piece clean => simp [Text.splitWhere_of_clean clean]
  | cut piece c rest clean separator ih =>
      obtain rfl : c = ',' := by simpa using separator
      have comma : Item.isMark ',' = false := by decide
      rw [Text.splitWhere_append clean separator, Item.isMarked_append, Item.isMarked_cons, comma,
        Bool.false_or, Bool.or_eq_false_iff, ← ih, List.filter_cons]
      split
      · next marked => simp [marked]
      · next plain => simp [plain]

/-- Fields with the same marked items in some order both have a mark, or neither has. -/
theorem isMarked_congr {left right : List Char}
    (same : (markedItems left).Perm (markedItems right))
    : Item.isMarked left = Item.isMarked right := by
  have empty : markedItems left = [] ↔ markedItems right = [] := by
    rw [← List.length_eq_zero_iff, ← List.length_eq_zero_iff, same.length_eq]
  rw [markedItems_eq_nil_iff, markedItems_eq_nil_iff] at empty
  cases marked : Item.isMarked left with
  | false => exact (empty.mp marked).symm
  | true =>
      cases other : Item.isMarked right with
      | false => exact marked.symm.trans (empty.mpr other)
      | true => rfl

end Field

-----------------------------------------------------------------------------------------
-- Whole texts
-----------------------------------------------------------------------------------------

namespace Schedule
open Text

/-- What is parsed comes with the masks and the flag that the text stands for. -/
theorem masks?_of_parse {text : String} {schedule : Schedule} (parsed : parse text = .ok schedule)
    : masks? text.toList = some (schedule.masks, schedule.interval) := by
  rw [parse] at parsed
  split at parsed
  · simp at parsed
  · next masks interval read =>
    split at parsed
    · next found made =>
      obtain rfl := Except.ok.inj parsed
      rw [ofMasks] at made
      split at made
      · simp at made
      · obtain rfl := Except.ok.inj made
        exact read
    · simp at parsed

/-- Five fields are an interval exactly if the first two have a mark between them. -/
theorem interval_of_fields? {minute hour dayOfMonth month dayOfWeek : List Char} {masks : Masks}
    {interval : Bool}
    (read : fields? minute hour dayOfMonth month dayOfWeek = some (masks, interval))
    : interval = (Item.isMarked minute || Item.isMarked hour) := by
  simp only [fields?, Option.bind_eq_bind, Option.bind_eq_some_iff, Option.some.injEq,
    Prod.mk.injEq] at read
  obtain ⟨_, first, _, second, _, third, _, fourth, _, fifth, _, flag⟩ := read
  rw [← flag, Field.interval_eq_isMarked first, Field.interval_eq_isMarked second,
    Field.interval_eq_isMarked third, Field.interval_eq_isMarked fourth,
    Field.interval_eq_isMarked fifth]
  simp [Field.isClock]

/-- A schedule that is written out is an interval exactly if its first two words have a mark
between them.
-/
theorem interval_of_words {text : String} {schedule : Schedule} {texts : Field → List Char}
    (parsed : parse text = .ok schedule) (cut : words text.toList = Field.all.map texts)
    : schedule.interval = (Item.isMarked (texts .minute) || Item.isMarked (texts .hour)) := by
  have read := masks?_of_parse parsed
  have five : words text.toList
      = [texts .minute, texts .hour, texts .dayOfMonth, texts .month, texts .dayOfWeek] := cut
  simp only [masks?, five] at read
  exact interval_of_fields? read

/-- Whether a text starts with an at sign, but for blanks. -/
def IsNamed (text : List Char) : Prop :=
  (text.dropWhile isBlank).head? = some '@'

instance (text : List Char) : Decidable (IsNamed text) :=
  inferInstanceAs (Decidable (_ = _))

/-- A text starts with an at sign if its only word does. -/
theorem isNamed_of_words {text name : List Char} (cut : words text = ['@' :: name])
    : IsNamed text := by
  rcases holds_words text with ⟨_, none⟩ | ⟨before, body, after, whole, leading, _, row⟩
  · simp [none] at cut
  · rw [cut] at row
    cases row with
    | last =>
        have visible : isBlank '@' = false := by decide
        rw [IsNamed, whole, List.append_assoc, List.dropWhile_append_of_pos leading]
        simp [visible]
    | more _ _ _ row => nomatch row

/-- A schedule that is not written with an at sign has five words, and it is an interval
exactly if its minute or its hour has a star, a dash or a slash. So two such schedules have
the same flag if they have the same marked items in the minute and in the hour, in whatever
order, with whatever lone values or question marks beside or instead of others, whatever
blanks are between the words, and whatever the other three words are.
-/
theorem parse_interval_iff {text : String} {schedule : Schedule}
    (parsed : parse text = .ok schedule) (spelledOut : ¬ IsNamed text.toList)
    : ∃ texts : Field → List Char,
        words text.toList = Field.all.map texts
        ∧ (schedule.interval
            ↔ ∃ c ∈ texts .minute ++ texts .hour, c = '*' ∨ c = '-' ∨ c = '/')
        ∧ ∀ other again others,
            parse other = .ok again
            → words other.toList = Field.all.map others
            → (∀ field : Field, field.isClock
                → (Field.markedItems (texts field)).Perm (Field.markedItems (others field)))
            → again.interval = schedule.interval := by
  rcases words_of_masks? (masks?_of_parse parsed)
    with ⟨name, _, found, _⟩ | ⟨minute, hour, dayOfMonth, month, dayOfWeek, found, _⟩
  · exact absurd (isNamed_of_words found) spelledOut
  · let texts : Field → List Char := Field.rec minute hour dayOfMonth month dayOfWeek
    have cut : words text.toList = Field.all.map texts := found
    have flag := interval_of_words parsed cut
    refine ⟨texts, cut, ?_, ?_⟩
    · rw [flag, ← Item.isMarked_append, Item.isMarked, List.any_eq_true]
      simp only [Item.isMark, Bool.or_eq_true, beq_iff_eq, or_assoc]
    · intro other again others parsedAgain cutAgain same
      rw [interval_of_words parsedAgain cutAgain, flag, Field.isMarked_congr (same .minute rfl),
        Field.isMarked_congr (same .hour rfl)]

/-- A minute with an item that selects nothing: its dash makes an interval all the same. -/
def emptyRange : Schedule :=
  ⟨{ Masks.full with minute := 2, dayOfWeek := 62 }, true, by decide⟩

/-- The same marked item in another place, between other blanks and in front of other words. -/
def emptyRangeAgain : Schedule :=
  ⟨{ Masks.full with minute := 2, hour := 16, month := 2 }, true, by decide⟩

theorem parse_interval_iff_emptyRange
    : parse "1,5-3 ? * * 1-5" = .ok emptyRange
      ∧ parse " 5-3,01   4 * jan\t? " = .ok emptyRangeAgain
      ∧ ¬ IsNamed "1,5-3 ? * * 1-5".toList
      ∧ emptyRange.interval
      ∧ emptyRangeAgain.interval = emptyRange.interval := by
  have parsed : parse "1,5-3 ? * * 1-5" = .ok emptyRange := by cbv
  have again : parse " 5-3,01   4 * jan\t? " = .ok emptyRangeAgain := by cbv
  have spelledOut : ¬ IsNamed "1,5-3 ? * * 1-5".toList := by decide
  obtain ⟨texts, cut, marked, same⟩ := parse_interval_iff parsed spelledOut
  have five : words "1,5-3 ? * * 1-5".toList
      = ["1,5-3".toList, ['?'], ['*'], ['*'], "1-5".toList] := by
    decide
  simp only [five, Field.all, List.map_cons, List.map_nil, List.cons.injEq] at cut
  obtain ⟨minute, hour, _⟩ := cut
  let others : Field → List Char :=
    Field.rec "5-3,01".toList ['4'] ['*'] "jan".toList ['?']
  refine ⟨parsed, again, spelledOut, ?_, ?_⟩
  · rw [marked, ← minute, ← hour]
    exact ⟨'-', by decide⟩
  · refine same _ _ others again (by decide) ?_
    intro field clock
    cases field with
    | minute => exact minute ▸ by decide
    | hour => exact hour ▸ by decide
    | dayOfMonth => exact absurd clock (by decide)
    | month => exact absurd clock (by decide)
    | dayOfWeek => exact absurd clock (by decide)

end Schedule

end Cadence
