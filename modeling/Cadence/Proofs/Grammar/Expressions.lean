import Cadence.Proofs.Grammar.Fields
import Mathlib

/-! The grammar of whole texts, and its agreement with parsing. Between blanks stand five
fields, or an at sign with a name, which is short for five fields. Everything that is
parsed is derived and the other way round, so that a text has no second reading.
-/

namespace Cadence.Schedule
open Text

-----------------------------------------------------------------------------------------
-- The grammar
-----------------------------------------------------------------------------------------

/-- What the names after an at sign are short for. -/
def expansions : List (String × String) :=
  [("every_minute", "* * * * *"), ("hourly", "0 * * * *"), ("daily", "0 0 * * *"),
    ("midnight", "0 0 * * *"), ("monthly", "0 0 1 * *"), ("yearly", "0 0 1 1 *"),
    ("annually", "0 0 1 1 *"), ("weekly", "0 0 * * 0")]

/-- Five words in a row, each of them a text of its field. -/
def FiveFields (text : List Char) (masks : Masks) : Prop :=
  ∃ texts : Field → List Char,
    Row text (Field.all.map texts)
    ∧ ∀ field : Field, field.Writes (texts field) (masks.on field)

/-- An at sign and a name in any case. -/
def Abbreviates (text : List Char) (masks : Masks) : Prop :=
  ∃ name known expansion,
    text = '@' :: name
    ∧ (known, expansion) ∈ expansions
    ∧ name.map Char.toLower = known.toList.map Char.toLower
    ∧ FiveFields expansion.toList masks

/-- The texts of a schedule with their masks. -/
def Written (text : List Char) (masks : Masks) : Prop :=
  ∃ before body after,
    text = before ++ body ++ after
    ∧ AllBlank before
    ∧ AllBlank after
    ∧ (Abbreviates body masks ∨ FiveFields body masks)

-----------------------------------------------------------------------------------------
-- Five fields
-----------------------------------------------------------------------------------------

/-- Five texts are read exactly as the masks that the grammar gives them. -/
theorem fields?_iff {texts : Field → List Char} {masks : Masks}
    : (∃ interval,
        fields? (texts .minute) (texts .hour) (texts .dayOfMonth) (texts .month)
            (texts .dayOfWeek)
          = some (masks, interval))
      ↔ ∀ field : Field, field.Writes (texts field) (masks.on field) := by
  simp only [fields?, Option.bind_eq_bind, Option.bind_eq_some_iff, Option.some.injEq,
    Prod.mk.injEq]
  constructor
  · intro read
    obtain ⟨_, minute, first, hour, second, day, third, month, fourth, weekday, fifth, same, _⟩
      := read
    subst same
    intro field
    apply Field.reading?_iff.mp
    cases field with
    | minute => exact ⟨minute, first, rfl⟩
    | hour => exact ⟨hour, second, rfl⟩
    | dayOfMonth => exact ⟨day, third, rfl⟩
    | month => exact ⟨month, fourth, rfl⟩
    | dayOfWeek => exact ⟨weekday, fifth, rfl⟩
  · intro writes
    obtain ⟨minute, first, minutes⟩ := Field.reading?_iff.mpr (writes .minute)
    obtain ⟨hour, second, hours⟩ := Field.reading?_iff.mpr (writes .hour)
    obtain ⟨day, third, days⟩ := Field.reading?_iff.mpr (writes .dayOfMonth)
    obtain ⟨month, fourth, months⟩ := Field.reading?_iff.mpr (writes .month)
    obtain ⟨weekday, fifth, weekdays⟩ := Field.reading?_iff.mpr (writes .dayOfWeek)
    refine ⟨_, minute, first, hour, second, day, third, month, fourth, weekday, fifth, ?_, rfl⟩
    rw [minutes, hours, days, months, weekdays]
    rfl

/-- Five fields between blanks are read as their masks. -/
theorem FiveFields.masks? {before body after : List Char} {masks : Masks}
    (fields : FiveFields body masks) (leading : AllBlank before) (trailing : AllBlank after)
    : ∃ interval, Schedule.masks? (before ++ body ++ after) = some (masks, interval) := by
  obtain ⟨texts, row, writes⟩ := fields
  have found := words_of_holds ⟨before, body, after, rfl, leading, trailing, row⟩
  obtain ⟨interval, read⟩ := fields?_iff.mpr writes
  refine ⟨interval, ?_⟩
  have cut : Field.all.map texts
      = [texts .minute, texts .hour, texts .dayOfMonth, texts .month, texts .dayOfWeek] := rfl
  rw [cut] at found
  simp only [Schedule.masks?, found]
  exact read

/-- Five words that are read are five fields. -/
theorem fiveFields_of_row {body minute hour dayOfMonth month dayOfWeek : List Char}
    {masks : Masks} {interval : Bool}
    (row : Row body [minute, hour, dayOfMonth, month, dayOfWeek])
    (read : fields? minute hour dayOfMonth month dayOfWeek = some (masks, interval))
    : FiveFields body masks := by
  let texts : Field → List Char := Field.rec minute hour dayOfMonth month dayOfWeek
  exact ⟨texts, row, fields?_iff.mp ⟨interval, read⟩⟩

/-- Fields of the grammar have admissible masks. -/
theorem FiveFields.valid {text : List Char} {masks : Masks} (fields : FiveFields text masks)
    : masks.Valid := by
  obtain ⟨texts, _, writes⟩ := fields
  exact fun field => (writes field).accepts

/-- Whatever is read is one word with a known name, or five words. -/
theorem words_of_masks? {text : List Char} {masks : Masks} {interval : Bool}
    (read : masks? text = some (masks, interval))
    : (∃ name shorthand,
        words text = ['@' :: name]
        ∧ Shorthand.ofName? name = some shorthand
        ∧ shorthand.masks = masks)
      ∨ ∃ minute hour dayOfMonth month dayOfWeek,
          words text = [minute, hour, dayOfMonth, month, dayOfWeek]
          ∧ fields? minute hour dayOfMonth month dayOfWeek = some (masks, interval) := by
  unfold masks? at read
  split at read
  · next name found =>
    obtain ⟨shorthand, known, same⟩ := Option.map_eq_some_iff.mp read
    exact Or.inl ⟨name, shorthand, found, known, (Prod.mk.inj same).1⟩
  · next minute hour dayOfMonth month dayOfWeek found =>
    exact Or.inr ⟨minute, hour, dayOfMonth, month, dayOfWeek, found, read⟩
  · simp at read

-----------------------------------------------------------------------------------------
-- Names
-----------------------------------------------------------------------------------------

/-- The same names are known, and what they are short for is five words that are read as
their masks, by the tables.
-/
theorem expansions_read
    : Shorthand.names.map Prod.fst = expansions.map Prod.fst
      ∧ ∀ entry ∈ expansions,
          (Shorthand.ofName? entry.1.toList).map (fun found => (found.masks, found.isInterval))
            = masks? entry.2.toList
          ∧ (words entry.2.toList).length = 5
          ∧ [' '].intercalate (words entry.2.toList) = entry.2.toList := by
  decide

/-- Names are looked up without regard to case. -/
theorem ofName?_congr {left right : List Char}
    (same : left.map Char.toLower = right.map Char.toLower)
    : Shorthand.ofName? left = Shorthand.ofName? right := by
  simp only [Shorthand.ofName?, sameLetters, same]

/-- A blank has no other case. -/
theorem isBlank_toLower {c : Char} (blank : isBlank c) : isBlank c.toLower := by
  rw [Char.toLower_eq_of_not_isUpper]
  · exact blank
  · intro upper
    have alphanum : c.isAlphanum := by simp [Char.isAlphanum, Char.isAlpha, upper]
    have plain := (Item.IsItemChar.plain (Or.inl alphanum)).1
    simp [blank] at plain

/-- A shorthand is a single word. -/
theorem isWord_of_known {name : List Char} {known expansion : String}
    (listed : (known, expansion) ∈ expansions)
    (same : name.map Char.toLower = known.toList.map Char.toLower)
    : IsWord ('@' :: name) := by
  have clean : expansions.all fun entry =>
      (entry.1.toList.map Char.toLower).all fun c => !isBlank c := by
    decide
  refine ⟨by simp, ?_⟩
  intro c member
  rcases List.mem_cons.mp member with rfl | inside
  · decide
  · rw [Bool.eq_false_iff]
    intro blank
    have lowered : c.toLower ∈ known.toList.map Char.toLower :=
      same ▸ List.mem_map_of_mem inside
    have plain := List.all_eq_true.mp (List.all_eq_true.mp clean _ listed) _ lowered
    simp [isBlank_toLower blank] at plain

/-- A shorthand between blanks is read as the fields that it is short for. -/
theorem Abbreviates.masks? {before body after : List Char} {masks : Masks}
    (abbreviates : Abbreviates body masks) (leading : AllBlank before)
    (trailing : AllBlank after)
    : ∃ interval, Schedule.masks? (before ++ body ++ after) = some (masks, interval) := by
  obtain ⟨name, known, expansion, rfl, listed, same, fields⟩ := abbreviates
  have found := words_of_holds
    ⟨before, _, after, rfl, leading, trailing, Row.last (isWord_of_known listed same)⟩
  obtain ⟨interval, read⟩ := fields.masks? (List.forall_mem_nil _) (List.forall_mem_nil _)
  rw [List.nil_append, List.append_nil] at read
  refine ⟨interval, ?_⟩
  simp only [Schedule.masks?, found]
  rw [ofName?_congr same, (expansions_read.2 _ listed).1, read]

/-- A name that is known is short for fields with its masks. -/
theorem abbreviates_of_ofName? {name : List Char} {shorthand : Shorthand}
    (known : Shorthand.ofName? name = some shorthand)
    : Abbreviates ('@' :: name) shorthand.masks := by
  obtain ⟨⟨word, found⟩, search, chosen⟩ := Option.map_eq_some_iff.mp known
  have same := List.find?_some search
  simp only [sameLetters, beq_iff_eq] at same
  have listed : word ∈ expansions.map Prod.fst := by
    rw [← expansions_read.1]
    exact List.mem_map_of_mem (List.mem_of_find?_eq_some search)
  obtain ⟨⟨word, expansion⟩, entry, rfl⟩ := List.mem_map.mp listed
  refine ⟨name, word, expansion, rfl, entry, same.symm, ?_⟩
  obtain ⟨read, five, spaced⟩ := expansions_read.2 _ entry
  rw [ofName?_congr same, known, Option.map_some] at read
  rw [← spaced]
  rcases words_of_masks? read.symm with ⟨_, _, single, _⟩ | ⟨_, _, _, _, _, cut, fields⟩
  · simp [single] at five
  · have row : Row _ (words expansion.toList) :=
      row_intercalate (by simp [cut]) fun _ member => isWord_of_mem_words member
    rw [cut] at row ⊢
    exact fiveFields_of_row row fields

-----------------------------------------------------------------------------------------
-- Whole texts
-----------------------------------------------------------------------------------------

/-- Texts of the grammar have admissible masks. -/
theorem Written.valid {text : List Char} {masks : Masks} (written : Written text masks)
    : masks.Valid := by
  obtain ⟨_, _, _, _, _, _, abbreviates | fields⟩ := written
  · obtain ⟨_, _, _, _, _, _, fields⟩ := abbreviates
    exact fields.valid
  · exact fields.valid

/-- The masks of a text are those of its derivation, whether it is a name or five fields. -/
theorem masks?_iff {text : List Char} {masks : Masks}
    : (∃ interval, masks? text = some (masks, interval)) ↔ Written text masks := by
  constructor
  · intro isRead
    obtain ⟨interval, read⟩ := isRead
    rcases holds_words text with ⟨_, none⟩ | ⟨before, body, after, rfl, leading, trailing, row⟩
    · simp [masks?, none] at read
    · refine ⟨before, body, after, rfl, leading, trailing, ?_⟩
      rcases words_of_masks? read
        with ⟨_, _, found, known, rfl⟩ | ⟨_, _, _, _, _, found, fields⟩
      · rw [found] at row
        cases row with
        | last => exact Or.inl (abbreviates_of_ofName? known)
        | more _ _ _ row => nomatch row
      · rw [found] at row
        exact Or.inr (fiveFields_of_row row fields)
  · intro written
    obtain ⟨before, body, after, rfl, leading, trailing, derived⟩ := written
    rcases derived with abbreviates | fields
    · exact abbreviates.masks? leading trailing
    · exact fields.masks? leading trailing

/-- Masks that are admissible are taken over. -/
theorem ofMasks_of_valid {masks : Masks} (valid : masks.Valid) (interval : Bool)
    : ofMasks masks interval = .ok ⟨masks, interval, valid⟩ := by
  have none := Masks.rejected?_eq_none_iff.mpr valid
  rw [ofMasks]
  split
  · next some => simp [none] at some
  · rfl

/-- A text of the grammar is parsed as its masks. -/
theorem parse_of_written {text : String} {masks : Masks}
    (written : Written text.toList masks)
    : ∃ schedule, parse text = .ok schedule ∧ schedule.masks = masks := by
  obtain ⟨interval, read⟩ := masks?_iff.mpr written
  refine ⟨⟨masks, interval, written.valid⟩, ?_, rfl⟩
  simp only [parse, read, ofMasks_of_valid written.valid]

/-- A text is either parsed as the masks of its derivation or refused without one. -/
theorem parse_cases (text : String)
    : (∃ schedule, parse text = .ok schedule ∧ Written text.toList schedule.masks)
      ∨ parse text = .error (.unreadable text) ∧ ∀ masks, ¬ Written text.toList masks := by
  by_cases derived : ∃ masks, Written text.toList masks
  · obtain ⟨masks, written⟩ := derived
    obtain ⟨schedule, parsed, rfl⟩ := parse_of_written written
    exact Or.inl ⟨schedule, parsed, written⟩
  · have refused : masks? text.toList = none := by
      rw [Option.eq_none_iff_forall_ne_some]
      intro found read
      exact derived ⟨found.1, masks?_iff.mp ⟨found.2, read⟩⟩
    refine Or.inr ⟨?_, not_exists.mp derived⟩
    simp only [parse, refused]

/-- Parsing accepts exactly the texts of the grammar, each with the masks of its derivation,
and refuses every other text as a whole.
-/
theorem parse_exact (text : String)
    : (∀ masks,
        (∃ schedule, parse text = .ok schedule ∧ schedule.masks = masks)
        ↔ Written text.toList masks)
      ∧ ∀ error,
          parse text = .error error
          ↔ error = .unreadable text ∧ ∀ masks, ¬ Written text.toList masks := by
  rcases parse_cases text with ⟨schedule, parsed, written⟩ | ⟨refused, underived⟩
  · constructor
    · intro masks
      constructor
      · intro isParsed
        obtain ⟨other, again, same⟩ := isParsed
        obtain rfl := Except.ok.inj (parsed.symm.trans again)
        exact same ▸ written
      · exact parse_of_written
    · intro error
      constructor
      · intro failed
        simp [parsed] at failed
      · intro claimed
        obtain ⟨_, underived⟩ := claimed
        exact absurd written (underived schedule.masks)
  · constructor
    · intro masks
      constructor
      · intro isParsed
        obtain ⟨schedule, parsed, _⟩ := isParsed
        simp [refused] at parsed
      · intro written
        exact absurd written (underived masks)
    · intro error
      rw [refused, Except.error.injEq, eq_comm]
      exact ⟨fun same => ⟨same, underived⟩, And.left⟩

end Cadence.Schedule
