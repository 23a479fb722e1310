import Cadence.Proofs.Canonical.RoundTrip
import Cadence.Proofs.Checked.Fields

/-! Whole texts read by a cursor, five fields with blanks between them or an at sign with a
name. The schedule that is made from them in the end asserts that its masks are admissible.
What is found is what `Schedule.parse` finds, so that no text leads to a fault.
-/

namespace Cadence.Checked
open Text

-----------------------------------------------------------------------------------------
-- Blanks around and between words
-----------------------------------------------------------------------------------------

/-- A text without the blanks around it. -/
def trim (text : List Char) : List Char :=
  (text.dropWhile isBlank).rdropWhile isBlank

/-- Drops one or more blanks. -/
def separator (text : List Char) : Attempt (List Char) :=
  let rest := text.dropWhile isBlank
  if rest.length = text.length then .refused else .found rest

/-- A text without blanks at its front. -/
def Solid (text : List Char) : Prop :=
  ∀ c ∈ text.head?, isBlank c = false

theorem dropWhile_blanks_append {gap text : List Char} (blank : AllBlank gap)
    (solid : Solid text)
    : (gap ++ text).dropWhile isBlank = text := by
  rw [List.dropWhile_append_of_pos blank]
  cases text with
  | nil => rfl
  | cons c rest =>
      apply List.dropWhile_cons_of_neg
      simp [solid c (by simp)]

/-- The blanks that are dropped stood before what is left. -/
theorem separator_ensures (text : List Char)
    : (separator text).Ensures fun rest =>
        ∃ gap, gap ≠ [] ∧ AllBlank gap ∧ text = gap ++ rest := by
  unfold separator
  dsimp only
  split
  · trivial
  · next shorter =>
    have parts : text.takeWhile isBlank ++ text.dropWhile isBlank = text :=
      List.takeWhile_append_dropWhile
    refine ⟨text.takeWhile isBlank, ?_, fun c => List.mem_takeWhile_imp, parts.symm⟩
    intro none
    rw [none, List.nil_append] at parts
    rw [parts] at shorter
    exact shorter rfl

theorem separator_append {gap text : List Char} (nonempty : gap ≠ []) (blank : AllBlank gap)
    (solid : Solid text)
    : separator (gap ++ text) = .found text := by
  have shorter : text.length ≠ (gap ++ text).length := by
    simpa using nonempty
  simp only [separator, dropWhile_blanks_append blank solid, if_neg shorter]

/-- A word at the front is not a blank one. -/
theorem solid_of_isWord {word : List Char} (isWord : IsWord word) (rest : List Char)
    : Solid (word ++ rest) := by
  obtain ⟨c, others, rfl⟩ := List.exists_cons_of_ne_nil isWord.nonempty
  simpa [Solid] using isWord.clean c (by simp)

/-- A row has no blanks at its front, and none at its end by induction on its words. -/
theorem solid_of_row {body : List Char} {words : List (List Char)} (row : Row body words)
    (rest : List Char)
    : Solid (body ++ rest) ∧ Solid (body.reverse ++ rest) := by
  have turned {word : List Char} (isWord : IsWord word) : IsWord word.reverse :=
    ⟨by simpa using isWord.nonempty, fun c member => isWord.clean c (by simpa using member)⟩
  constructor
  · cases row with
    | last isWord => exact solid_of_isWord isWord rest
    | more isWord =>
        rw [List.append_assoc, List.append_assoc]
        exact solid_of_isWord isWord _
  · induction row generalizing rest with
    | last isWord => exact solid_of_isWord (turned isWord) rest
    | more _ _ _ _ ih =>
        rw [List.reverse_append, List.append_assoc]
        exact ih _

/-- What stands between blanks is left, since a row has none at its ends. -/
theorem trim_of_row {before body after : List Char} {words : List (List Char)}
    (row : Row body words) (leading : AllBlank before) (trailing : AllBlank after)
    : trim (before ++ body ++ after) = body := by
  have behind : AllBlank after.reverse := fun c member => trailing c (by simpa using member)
  have ends : Solid body.reverse := by simpa using (solid_of_row row []).2
  rw [trim, List.append_assoc, dropWhile_blanks_append leading (solid_of_row row after).1,
    List.rdropWhile, List.reverse_append, dropWhile_blanks_append behind ends,
    List.reverse_reverse]

theorem trim_of_allBlank {text : List Char} (blank : AllBlank text) : trim text = [] := by
  rw [trim, List.dropWhile_eq_nil_iff.mpr blank, List.rdropWhile_nil]

-----------------------------------------------------------------------------------------
-- Five fields
-----------------------------------------------------------------------------------------

/-- A further field, after blanks. -/
def nextField (field : Field) (before : Part) : Attempt Part := do
  let rest ← separator before.rest
  wholeField field before.interval rest

/-- A schedule, whose masks are asserted to be admissible. -/
def build (masks : Masks) (interval : Bool) : Attempt Schedule :=
  if valid : masks.Valid then .found ⟨masks, interval, valid⟩ else .fault (.masks masks)

/-- The five fields in order, up to the end of the text. -/
def fields (text : List Char) : Attempt Schedule := do
  let minute ← wholeField .minute false text
  let hour ← nextField .hour minute
  let dayOfMonth ← nextField .dayOfMonth hour
  let month ← nextField .month dayOfMonth
  let dayOfWeek ← nextField .dayOfWeek month
  if dayOfWeek.rest.isEmpty then
    build ⟨minute.mask, hour.mask, dayOfMonth.mask, month.mask, foldSunday dayOfWeek.mask⟩
      dayOfWeek.interval
  else .refused

theorem build_of_valid {masks : Masks} (valid : masks.Valid) (interval : Bool)
    : build masks interval = .found ⟨masks, interval, valid⟩ := by
  rw [build, dif_pos valid]

theorem build_ne_refused (masks : Masks) (interval : Bool)
    : build masks interval ≠ .refused := by
  unfold build
  split <;> simp

/-- A part was read from some text as a further field, after a gap. -/
structure IsNext (field : Field) (before : Part) (gap front : List Char) (spread : Bool)
    (part : Part) : Prop where
  nonempty : gap ≠ []
  blank : AllBlank gap
  isField : IsField field before.interval (front ++ part.rest) front spread part
  same : before.rest = gap ++ (front ++ part.rest)

theorem IsField.isWord {field : Field} {interval : Bool} {text front : List Char}
    {spread : Bool} {part : Part} (isField : IsField field interval text front spread part)
    : IsWord front :=
  (Field.reading?_iff.mp ⟨_, isField.reading, rfl⟩).isWord

/-- Whatever is read as a further field stands after blanks. -/
theorem nextField_ensures (field : Field) (before : Part)
    : (nextField field before).Ensures fun part =>
        ∃ gap front spread, IsNext field before gap front spread part := by
  refine (separator_ensures before.rest).bind ?_
  rintro rest ⟨gap, nonempty, blank, same⟩
  refine (wholeField_ensures field before.interval rest).mono ?_
  rintro part ⟨front, spread, isField⟩
  obtain rfl := isField.same
  exact ⟨gap, front, spread, nonempty, blank, isField, same⟩

/-- A word after blanks is read if it is one of the field. -/
theorem nextField_append {field : Field} {before : Part} {gap front rest : List Char}
    {reading : Reading} (same : before.rest = gap ++ (front ++ rest)) (nonempty : gap ≠ [])
    (blank : AllBlank gap) (reads : field.reading? front = some reading) (stops : Stops rest)
    : ∃ part, nextField field before = .found part ∧ part.rest = rest := by
  have isWord := (Field.reading?_iff.mp ⟨reading, reads, rfl⟩).isWord
  rw [nextField, same, separator_append nonempty blank (solid_of_isWord isWord rest)]
  exact wholeField_append reads stops before.interval

/-- Whatever is read as five fields is a row of five words that stand for the schedule, and
its masks are admissible since the grammar has no others.
-/
theorem fields_ensures (text : List Char)
    : (fields text).Ensures fun schedule =>
        ∃ minute hour dayOfMonth month dayOfWeek,
          Row text [minute, hour, dayOfMonth, month, dayOfWeek]
          ∧ Schedule.fields? minute hour dayOfMonth month dayOfWeek
            = some (schedule.masks, schedule.interval) := by
  refine (wholeField_ensures .minute false text).bind ?_
  rintro minute ⟨first, _, minutes⟩
  refine (nextField_ensures .hour minute).bind ?_
  rintro hour ⟨gap₁, second, _, hours⟩
  refine (nextField_ensures .dayOfMonth hour).bind ?_
  rintro day ⟨gap₂, third, _, days⟩
  refine (nextField_ensures .month day).bind ?_
  rintro month ⟨gap₃, fourth, _, months⟩
  refine (nextField_ensures .dayOfWeek month).bind ?_
  rintro weekday ⟨gap₄, fifth, _, weekdays⟩
  split
  · next ended =>
    have row : Row text [first, second, third, fourth, fifth] := by
      rw [minutes.same, hours.same, days.same, months.same, weekdays.same,
        List.isEmpty_iff.mp ended, List.append_nil]
      have rows := Row.more minutes.isWord hours.nonempty hours.blank
        (.more hours.isField.isWord days.nonempty days.blank
          (.more days.isField.isWord months.nonempty months.blank
            (.more months.isField.isWord weekdays.nonempty weekdays.blank
              (.last weekdays.isField.isWord))))
      simpa using rows
    have read : Schedule.fields? first second third fourth fifth
        = some (⟨minute.mask, hour.mask, day.mask, month.mask, foldSunday weekday.mask⟩,
            weekday.interval) := by
      simp [Schedule.fields?, minutes.reading, hours.isField.reading, days.isField.reading,
        months.isField.reading, weekdays.isField.reading, minutes.interval,
        hours.isField.interval, days.isField.interval, months.isField.interval,
        weekdays.isField.interval, kept]
    rw [build_of_valid (Schedule.fiveFields_of_row row read).valid]
    exact ⟨first, second, third, fourth, fifth, row, read⟩
  · trivial

theorem stops_append {gap : List Char} (nonempty : gap ≠ []) (blank : AllBlank gap)
    (rest : List Char)
    : Stops (gap ++ rest) := by
  obtain ⟨c, others, rfl⟩ := List.exists_cons_of_ne_nil nonempty
  simpa [Stops] using blank c (by simp)

/-- Five words that stand for a schedule are read, up to the end of the text. -/
theorem fields_of_row {text minute hour dayOfMonth month dayOfWeek : List Char}
    {masks : Masks} {interval : Bool}
    (row : Row text [minute, hour, dayOfMonth, month, dayOfWeek])
    (read : Schedule.fields? minute hour dayOfMonth month dayOfWeek = some (masks, interval))
    : ∃ schedule, fields text = .found schedule := by
  simp only [Schedule.fields?, Option.bind_eq_bind, Option.bind_eq_some_iff] at read
  obtain ⟨_, minutes, _, hours, _, days, _, months, _, weekdays, _⟩ := read
  obtain _ | ⟨_, nonempty₁, blank₁, row⟩ := row
  obtain _ | ⟨_, nonempty₂, blank₂, row⟩ := row
  obtain _ | ⟨_, nonempty₃, blank₃, row⟩ := row
  obtain _ | ⟨_, nonempty₄, blank₄, row⟩ := row
  obtain _ | ⟨_, _, _, ⟨⟩⟩ := row
  have noBlank : Stops [] := by simp [Stops]
  rw [← List.append_nil dayOfWeek]
  simp only [List.append_assoc]
  obtain ⟨first, read₁, left₁⟩ :=
    wholeField_append minutes (stops_append nonempty₁ blank₁ _) false
  obtain ⟨second, read₂, left₂⟩ :=
    nextField_append left₁ nonempty₁ blank₁ hours (stops_append nonempty₂ blank₂ _)
  obtain ⟨third, read₃, left₃⟩ :=
    nextField_append left₂ nonempty₂ blank₂ days (stops_append nonempty₃ blank₃ _)
  obtain ⟨fourth, read₄, left₄⟩ :=
    nextField_append left₃ nonempty₃ blank₃ months (stops_append nonempty₄ blank₄ _)
  obtain ⟨fifth, read₅, left₅⟩ := nextField_append left₄ nonempty₄ blank₄ weekdays noBlank
  refine (fields_ensures _).exists_found ?_
  simp only [fields, bind, read₁, read₂, read₃, read₄, read₅, left₅, List.isEmpty_nil, if_true]
  exact build_ne_refused _ _

-----------------------------------------------------------------------------------------
-- Whole texts
-----------------------------------------------------------------------------------------

/-- The schedule of a shorthand. -/
def expand (shorthand : Shorthand) : Attempt Schedule :=
  build shorthand.masks shorthand.isInterval

/-- An at sign with a name, or five fields. -/
def expression : List Char → Attempt Schedule
  | '@' :: name =>
    match Shorthand.ofName? name with
    | some shorthand => expand shorthand
    | none => .refused
  | text => fields text

theorem expand_eq (shorthand : Shorthand) : expand shorthand = .found shorthand.schedule :=
  build_of_valid shorthand.masks_valid _

theorem expression_of_notAt {text : List Char} (notAt : ∀ name, text ≠ '@' :: name)
    : expression text = fields text := by
  unfold expression
  split
  · next name => exact absurd rfl (notAt name)
  · rfl

/-- Whatever is read is what the words of the text stand for. -/
theorem expression_ensures (text : List Char)
    : (expression (trim text)).Ensures fun schedule =>
        Schedule.masks? text = some (schedule.masks, schedule.interval) := by
  rcases holds_words text with ⟨blank, _⟩ | ⟨before, body, after, rfl, leading, trailing, row⟩
  · rw [trim_of_allBlank blank]
    have none : expression [] = .refused := rfl
    rw [none]
    trivial
  · rw [trim_of_row row leading trailing]
    by_cases marked : ∃ name, body = '@' :: name
    · obtain ⟨name, rfl⟩ := marked
      simp only [expression]
      cases known : Shorthand.ofName? name with
      | none => trivial
      | some shorthand =>
          dsimp only
          obtain ⟨_, _, _, same, listed, letters, _⟩ := Schedule.abbreviates_of_ofName? known
          obtain rfl := (List.cons.inj same).2
          have single := Row.last (Schedule.isWord_of_known listed letters)
          have found := words_of_holds ⟨before, _, after, rfl, leading, trailing, single⟩
          rw [expand_eq]
          change Schedule.masks? _ = _
          simp only [Schedule.masks?, found, known, Option.map_some, Shorthand.schedule]
    · rw [expression_of_notAt (not_exists.mp marked)]
      refine (fields_ensures body).mono ?_
      rintro schedule ⟨_, _, _, _, _, row, read⟩
      have found := words_of_holds ⟨before, _, after, rfl, leading, trailing, row⟩
      simp only [Schedule.masks?, found, read]

/-- A row of five fields does not start with an at sign, since its first field does not. -/
theorem notAt_of_row {text minute hour dayOfMonth month dayOfWeek : List Char}
    {masks : Masks} {interval : Bool}
    (row : Row text [minute, hour, dayOfMonth, month, dayOfWeek])
    (read : Schedule.fields? minute hour dayOfMonth month dayOfWeek = some (masks, interval))
    : ∀ name, text ≠ '@' :: name := by
  simp only [Schedule.fields?, Option.bind_eq_bind, Option.bind_eq_some_iff] at read
  obtain ⟨reading, minutes, _⟩ := read
  obtain _ | ⟨_, _, _, _⟩ := row
  rw [List.append_assoc]
  rcases Field.reading?_iff.mp ⟨reading, minutes, rfl⟩ with _ | ⟨listed, _, _⟩
  · simp
  · apply ne_cons_of_listed listed
    unfold Item.IsItemChar
    decide

/-- Whatever stands for a schedule is read. -/
theorem expression_of_masks? {text : List Char} {masks : Masks} {interval : Bool}
    (read : Schedule.masks? text = some (masks, interval))
    : ∃ schedule, expression (trim text) = .found schedule := by
  rcases holds_words text with ⟨_, none⟩ | ⟨before, body, after, rfl, leading, trailing, row⟩
  · simp [Schedule.masks?, none] at read
  · rw [trim_of_row row leading trailing]
    rcases Schedule.words_of_masks? read
      with ⟨name, shorthand, found, known, _⟩ | ⟨_, _, _, _, _, found, fields⟩
    · rw [found] at row
      obtain _ | ⟨_, _, _, ⟨⟩⟩ := row
      exact ⟨shorthand.schedule, by simp only [expression, known, expand_eq]⟩
    · rw [found] at row
      rw [expression_of_notAt (notAt_of_row row fields)]
      exact fields_of_row row fields

/-- Reads a schedule; a text that is not one is refused as a whole. -/
def parse (text : String) : Attempt (Except ScheduleError Schedule) :=
  match expression (trim text.toList) with
  | .found schedule => .found (.ok schedule)
  | .refused => .found (.error (.unreadable text))
  | .fault reason => .fault reason

/-- No text leads to a fault, and each is read as it is without checks. -/
theorem parse_eq (text : String) : parse text = .found (Schedule.parse text) := by
  have safe := expression_ensures text.toList
  rw [parse, Schedule.parse]
  cases attempt : expression (trim text.toList) with
  | found schedule =>
      rw [attempt] at safe
      have read : Schedule.masks? text.toList = _ := safe
      rw [read]
      simp only [Schedule.ofMasks_of_valid schedule.valid]
  | refused =>
      cases read : Schedule.masks? text.toList with
      | none => rfl
      | some found =>
          obtain ⟨_, goes⟩ := expression_of_masks? read
          rw [attempt] at goes
          cases goes
  | fault reason =>
      rw [attempt] at safe
      exact safe.elim

end Cadence.Checked
