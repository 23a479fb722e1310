import Cadence.Proofs.Checked.Items

/-! Fields read by a cursor. Items are added to the mask as long as commas follow, and a mask
that stays empty is refused. In a day of the week the bit of the number 7 is moved to Sunday
when all fields are read.
-/

namespace Cadence.Checked

-----------------------------------------------------------------------------------------
-- Further items
-----------------------------------------------------------------------------------------

/-- An item leaves no more of a text than there was. -/
theorem length_of_item {field : Field} {interval : Bool} {text : List Char} {part : Part}
    (read : item field interval text = .found part)
    : part.rest.length ≤ text.length := by
  obtain ⟨front, _, isItem⟩ := (item_ensures field interval text).of_eq_value read
  rw [isItem.same, List.length_append]
  exact Nat.le_add_left _ _

/-- Further items, as long as commas follow. -/
def items (field : Field) (mask : Mask) (interval : Bool) (text : List Char) : Attempt Part :=
  match text with
  | ',' :: rest =>
    match _read : item field interval rest with
    | .found next => items field (mask ||| next.mask) next.interval next.rest
    | .refused => .refused
    | .fault reason => .fault reason
  | _ => .found ⟨mask, interval, text⟩
termination_by text.length
decreasing_by exact Nat.lt_succ_of_le (length_of_item ‹_›)

/-- A whole field. -/
def wholeField (field : Field) (interval : Bool) (text : List Char) : Attempt Part :=
  match text with
  | '?' :: rest => .found ⟨fullWritten field, interval, rest⟩
  | text => do
    let first ← item field interval text
    let all ← items field first.mask first.interval first.rest
    if all.mask = 0 then .refused else return all

/-- A part was read from some text as listed items, whose numbers its mask has. -/
structure IsListed (field : Field) (interval : Bool) (text : List Char) (front : List Char)
    (listed : List Item) (part : Part) : Prop where
  same : text = front ++ part.rest
  spells : field.Listed front listed
  interval : part.interval = (interval || field.isClock && listed.any (·.isSpread))
  has : ∀ number, part.mask.has number ↔ ∃ item ∈ listed, item.Covers field number

theorem IsItem.listed {field : Field} {interval : Bool} {text front : List Char}
    {spelled : Item} {part : Part} (isItem : IsItem field interval text front spelled part)
    : IsListed field interval text front [spelled] part where
  same := isItem.same
  spells := .last isItem.spells
  interval := by simpa using isItem.interval
  has number := by simpa using isItem.has number

theorem listed_append {field : Field} {front text : List Char} {listed : List Item}
    {item : Item} (before : field.Listed front listed) (spells : Item.Spells field text item)
    : field.Listed (front ++ ',' :: text) (listed ++ [item]) := by
  induction before with
  | last first => exact .more first (.last spells)
  | more first _ ih =>
      rw [List.append_assoc, List.cons_append, List.cons_append]
      exact .more first ih

/-- Items that are added keep what was read before them, by the induction of the reader. -/
theorem items_ensures {field : Field} {start : Bool} {whole front text : List Char}
    {listed : List Item} {mask : Mask} {interval : Bool}
    (before : IsListed field start whole front listed ⟨mask, interval, text⟩)
    : (items field mask interval text).Ensures fun all =>
        ∃ front listed, IsListed field start whole front listed all := by
  fun_induction items field mask interval text generalizing front listed with
  | case1 mask interval rest next read ih =>
      obtain ⟨added, spelled, isItem⟩ := (item_ensures _ _ _).of_eq_value read
      have grown : IsListed field start whole (front ++ ',' :: added) (listed ++ [spelled])
          ⟨mask ||| next.mask, next.interval, next.rest⟩ := by
        have flag : interval = (start || field.isClock && listed.any (·.isSpread)) :=
          before.interval
        constructor
        · rw [before.same, isItem.same]
          simp
        · exact listed_append before.spells isItem.spells
        · rw [isItem.interval, flag]
          simp [List.any_append, Bool.and_or_distrib_left, Bool.or_assoc]
        · intro number
          have has : mask.has number ↔ _ := before.has number
          rw [Mask.has_or, Bool.or_eq_true, has, isItem.has]
          simp [or_and_right, exists_or]
      exact ih grown
  | case2 => trivial
  | case3 mask interval rest reason read =>
      have safe := item_ensures field interval rest
      rw [read] at safe
      exact safe.elim
  | case4 => exact ⟨front, listed, before⟩

-----------------------------------------------------------------------------------------
-- Masks of whole fields
-----------------------------------------------------------------------------------------

/-- Sunday is both 0 and 7; only the bit of 0 is kept. -/
def foldSunday (mask : Mask) : Mask :=
  if mask.has 7 then (mask ||| (1 : Mask)) &&& ~~~((1 : Mask) <<< 7) else mask

/-- What is kept of a mask of numbers that may be written. -/
def kept : Field → Mask → Mask
  | .dayOfWeek, mask => foldSunday mask
  | _, mask => mask

theorem has_foldSunday (mask : Mask) (value : Nat)
    : (foldSunday mask).has value
      ↔ ∃ number, mask.has number ∧ Field.dayOfWeek.folded number = value := by
  simp only [Field.folded_dayOfWeek]
  by_cases sunday : mask.has 7
  · have first (i : Nat) : Mask.has 1 i = decide (i = 0) := by
      have shifted : (1 : Mask) = (1 : Mask) <<< (0 : Nat).toUInt64 := by decide
      rw [shifted, Mask.has_single (by decide)]
    have last (i : Nat) : Mask.has ((1 : Mask) <<< 7) i = decide (i = 7) := by
      have shifted : (1 : Mask) <<< 7 = (1 : Mask) <<< (7 : Nat).toUInt64 := by decide
      rw [shifted, Mask.has_single (by decide)]
    rw [foldSunday, if_pos sunday, Mask.has_and, Mask.has_or, Mask.has_not, first, last]
    have bound (i : Nat) : mask.has i → i < 64 := Mask.lt_of_has
    grind
  · rw [foldSunday, if_neg sunday]
    grind

/-- A kept mask has the values that the numbers stand for. -/
theorem has_kept (field : Field) (mask : Mask) (value : Nat)
    : (kept field mask).has value
      ↔ ∃ number, mask.has number ∧ field.folded number = value := by
  by_cases weekday : field = .dayOfWeek
  · subst weekday
    exact has_foldSunday mask value
  · have same : kept field mask = mask := by
      unfold kept
      split
      · exact absurd rfl weekday
      · rfl
    simp [same, Field.folded_of_ne weekday]

/-- Listed items are read as the kept mask, unless it is empty. -/
theorem IsListed.reading?_eq {field : Field} {interval : Bool} {text front : List Char}
    {listed : List Item} {part : Part}
    (isListed : IsListed field interval text front listed part)
    : field.reading? front
      = if part.mask = 0 then none
        else some ⟨kept field part.mask, field.isClock && listed.any (·.isSpread)⟩ := by
  have same : field.maskOf listed = kept field part.mask := by
    apply Mask.eq_of_has
    intro value
    rw [Bool.eq_iff_iff, isListed.spells.has_maskOf, has_kept]
    simp only [isListed.has, Field.Selected]
    grind
  have empty : kept field part.mask = 0 ↔ part.mask = 0 := by
    constructor
    · intro none
      by_contra nonempty
      have has := (has_kept field part.mask _).mpr ⟨_, Mask.has_lowest nonempty, rfl⟩
      simp [none] at has
    · intro none
      apply Mask.eq_of_has
      intro value
      simp [Bool.eq_false_iff, has_kept, none]
  rw [Field.reading?, if_neg isListed.spells.ne_any, isListed.spells.mapM_split]
  simp only [Option.bind_eq_bind, Option.bind_some, same, empty]

-----------------------------------------------------------------------------------------
-- Whole fields
-----------------------------------------------------------------------------------------

/-- A part was read from some text as a field. -/
structure IsField (field : Field) (interval : Bool) (text : List Char) (front : List Char)
    (spread : Bool) (part : Part) : Prop where
  same : text = front ++ part.rest
  reading : field.reading? front = some ⟨kept field part.mask, spread⟩
  interval : part.interval = (interval || spread)

/-- A question mark stands for all numbers that may be written, which are kept as all values.
-/
theorem kept_fullWritten (field : Field) : kept field (fullWritten field) = field.full := by
  cases field <;> decide

/-- Whatever is read as a whole field is one of the grammar, with the mask that is kept of it,
and nothing on the way is a fault.
-/
theorem wholeField_ensures (field : Field) (interval : Bool) (text : List Char)
    : (wholeField field interval text).Ensures fun part =>
        ∃ front spread, IsField field interval text front spread part := by
  unfold wholeField
  split
  · next rest =>
    refine ⟨['?'], false, rfl, ?_, by simp⟩
    rw [Field.reading?, if_pos rfl, kept_fullWritten]
  · refine (item_ensures field interval _).bind ?_
    rintro first ⟨front, spelled, isItem⟩
    refine (items_ensures isItem.listed).bind ?_
    rintro all ⟨front, listed, isListed⟩
    split
    · trivial
    · next nonempty =>
      refine ⟨front, _, isListed.same, ?_, isListed.interval⟩
      rw [isListed.reading?_eq, if_neg nonempty]

/-- What can follow a field. -/
def Stops (rest : List Char) : Prop :=
  ∀ c ∈ rest.head?, Text.isBlank c

theorem Stops.ends {rest : List Char} (stops : Stops rest) : Ends rest :=
  fun c first => Or.inr (stops c first)

theorem items_of_stops {rest : List Char} (stops : Stops rest) (field : Field) (mask : Mask)
    (interval : Bool)
    : items field mask interval rest = .found ⟨mask, interval, rest⟩ := by
  unfold items
  split
  · next tail => exact absurd (stops ',' (by simp)) (by decide)
  · rfl

theorem items_cons {field : Field} {interval : Bool} {rest : List Char} {next : Part}
    (read : item field interval rest = .found next) (mask : Mask)
    : items field mask interval (',' :: rest)
      = items field (mask ||| next.mask) next.interval next.rest := by
  rw [items]
  split
  · next found same =>
    obtain rfl := Attempt.found.inj (read.symm.trans same)
    rfl
  · next same => simp [read] at same
  · next same => simp [read] at same

/-- All listed items are read, by induction on them. -/
theorem items_append {field : Field} {front rest : List Char} {listed : List Item}
    (spells : field.Listed front listed) (stops : Stops rest) (mask : Mask) (interval : Bool)
    : ∃ all,
        items field mask interval (',' :: front ++ rest) = .found all
        ∧ all.rest = rest := by
  induction spells generalizing mask interval with
  | last spells =>
      obtain ⟨part, read, left⟩ := item_append spells stops.ends interval
      rw [List.cons_append, items_cons read, left, items_of_stops stops]
      exact ⟨_, rfl, rfl⟩
  | @more front _ others _ spells _ ih =>
      have comma : Ends (',' :: others ++ rest) := by simp [Ends]
      obtain ⟨part, read, left⟩ := item_append spells comma interval
      rw [List.cons_append, List.append_assoc, items_cons read, left]
      exact ih _ _

/-- A list starts with none of the marks that do not occur in it. -/
theorem ne_cons_of_listed {field : Field} {front : List Char} {listed : List Item}
    {mark : Char} (spells : field.Listed front listed)
    (foreign : ¬ (Item.IsItemChar mark ∨ mark = ',')) (rest tail : List Char)
    : front ++ rest ≠ mark :: tail := by
  intro same
  obtain ⟨nonempty, chars⟩ := spells.chars
  obtain ⟨c, others, rfl⟩ := List.exists_cons_of_ne_nil nonempty
  obtain rfl := (List.cons.inj same).1
  exact foreign (chars c (by simp))

/-- A list is read from its first item on. -/
theorem listed_read {field : Field} {front rest : List Char} {listed : List Item}
    (spells : field.Listed front listed) (stops : Stops rest) (interval : Bool)
    : ∃ first all,
        item field interval (front ++ rest) = .found first
        ∧ items field first.mask first.interval first.rest = .found all
        ∧ all.rest = rest := by
  cases spells with
  | last spells =>
      obtain ⟨first, read, left⟩ := item_append spells stops.ends interval
      subst left
      exact ⟨first, _, read, items_of_stops stops field _ _, rfl⟩
  | @more front _ others _ spells others_spell =>
      have comma : Ends (',' :: others ++ rest) := by simp [Ends]
      obtain ⟨first, read, left⟩ := item_append spells comma interval
      obtain ⟨all, reads, empty⟩ :=
        items_append others_spell stops first.mask first.interval
      rw [List.append_assoc]
      exact ⟨first, all, read, left ▸ reads, empty⟩

/-- Every field of the grammar is read, up to where it stops. -/
theorem wholeField_append {field : Field} {front rest : List Char} {reading : Reading}
    (reads : field.reading? front = some reading) (stops : Stops rest) (interval : Bool)
    : ∃ part, wholeField field interval (front ++ rest) = .found part ∧ part.rest = rest := by
  rcases Field.reading?_iff.mp ⟨reading, reads, rfl⟩ with _ | ⟨spells, _, _⟩
  · exact ⟨_, rfl, rfl⟩
  · obtain ⟨first, all, read, more, left⟩ := listed_read spells stops interval
    obtain ⟨_, _, isItem⟩ := (item_ensures _ _ _).of_eq_value read
    obtain ⟨spelled, _, isListed⟩ := (items_ensures isItem.listed).of_eq_value more
    have same : spelled = front := by
      have parts := isListed.same
      rw [left] at parts
      exact (List.append_cancel_right parts).symm
    have nonempty : all.mask ≠ 0 := by
      intro empty
      have none := isListed.reading?_eq
      rw [if_pos empty, same, reads] at none
      cases none
    refine ⟨all, ?_, left⟩
    unfold wholeField
    split
    · next tail same =>
      have foreign : ¬ (Item.IsItemChar '?' ∨ '?' = ',') := by
        unfold Item.IsItemChar
        decide
      exact absurd same (ne_cons_of_listed spells foreign rest tail)
    · simp only [read, bind, more, nonempty, if_false, pure]

end Cadence.Checked
