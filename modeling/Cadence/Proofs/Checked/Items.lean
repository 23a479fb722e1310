import Cadence.Proofs.Checked.Attempts
import Cadence.Proofs.Grammar.Fields

/-! Items read by a cursor. The cursor looks at the bytes of a text and cuts it after some of
them, with every cut, shift and step checked. Since digits and the letters of names take one
byte each, no character is cut; and since what lies outside a field is clipped or refused
before it is shifted, no shift is too long.
-/

namespace Cadence.Checked

-----------------------------------------------------------------------------------------
-- Bytes
-----------------------------------------------------------------------------------------

/-- The bytes of a text in UTF-8. -/
def bytes (text : List Char) : List UInt8 :=
  text.flatMap String.utf8EncodeChar

def isDigitByte (byte : UInt8) : Bool :=
  48 ≤ byte && byte ≤ 57

/-- The parts of a text before and after a place that is given in bytes, if it is not inside
a character or after the end.
-/
def cut? : Nat → List Char → Option (List Char × List Char)
  | 0, text => some ([], text)
  | _ + 1, [] => none
  | count + 1, c :: rest =>
    if c.utf8Size ≤ count + 1 then
      (cut? (count + 1 - c.utf8Size) rest).map fun (front, back) => (c :: front, back)
    else none
termination_by _ text => text.length

def cut (count : Nat) (text : List Char) : Attempt (List Char × List Char) :=
  match cut? count text with
  | some parts => .found parts
  | none => .fault (.cut count text)

/-- The parts are those of the text, by induction on it. -/
theorem append_of_cut? {count : Nat} {text front back : List Char}
    (parts : cut? count text = some (front, back))
    : text = front ++ back := by
  fun_induction cut? count text generalizing front back with
  | case1 text =>
      obtain ⟨rfl, rfl⟩ := Prod.mk.inj (Option.some.inj parts)
      rfl
  | case2 => cases parts
  | case3 count c rest _ ih =>
      obtain ⟨⟨front, back⟩, inner, same⟩ := Option.map_eq_some_iff.mp parts
      obtain ⟨rfl, rfl⟩ := Prod.mk.inj same
      rw [ih inner, List.cons_append]
  | case4 => cases parts

/-- Characters of one byte each are cut off by their number, by induction on them. -/
theorem cut?_append {front : List Char} (single : ∀ c ∈ front, c.utf8Size = 1)
    (back : List Char)
    : cut? front.length (front ++ back) = some (front, back) := by
  induction front with
  | nil => simp [cut?]
  | cons c front ih =>
      rw [List.forall_mem_cons] at single
      rw [List.length_cons, List.cons_append, cut?, single.1, if_pos (by omega),
        Nat.add_sub_cancel, ih single.2]
      rfl

-- The second character takes two bytes.
example : cut 2 ['m', 'ä', 'r'] = .fault (.cut 2 ['m', 'ä', 'r']) := by cbv

theorem isDigit_iff {c : Char} : c.isDigit ↔ 48 ≤ c.toNat ∧ c.toNat ≤ 57 := by
  simp [Char.isDigit, UInt32.le_iff_toNat_le]

/-- A digit has one byte, which is that digit. -/
theorem utf8EncodeChar_of_isDigit {c : Char} (isDigit : c.isDigit = true)
    : c.utf8Size = 1 ∧ ∃ byte, String.utf8EncodeChar c = [byte] ∧ isDigitByte byte = true := by
  have bounds := isDigit_iff.mp isDigit
  have small : c.val.toNat ≤ 127 := by
    change c.toNat ≤ 127
    omega
  constructor
  · exact Char.utf8Size_eq_one_iff.mpr (UInt32.le_iff_toNat_le.mpr small)
  · refine ⟨UInt8.ofNat c.val.toNat, if_pos small, ?_⟩
    change 48 ≤ c.val.toNat ∧ c.val.toNat ≤ 57 at bounds
    simp only [isDigitByte, Bool.and_eq_true, decide_eq_true_eq, UInt8.le_iff_toNat_le,
      UInt8.toNat_ofNat']
    rw [Nat.mod_eq_of_lt (by omega)]
    exact bounds

/-- The first byte of any other character is not a digit. -/
theorem utf8EncodeChar_of_not_isDigit {c : Char} (noDigit : c.isDigit = false)
    : ∃ byte more, String.utf8EncodeChar c = byte :: more ∧ isDigitByte byte = false := by
  have outside : ¬ (48 ≤ c.val.toNat ∧ c.val.toNat ≤ 57) := by
    intro bounds
    simp [isDigit_iff.mpr bounds] at noDigit
  have other {code : Nat} (small : code < 256) (away : ¬ (48 ≤ code ∧ code ≤ 57))
      : isDigitByte (UInt8.ofNat code) = false := by
    simp only [isDigitByte, Bool.and_eq_false_iff, decide_eq_false_iff_not,
      UInt8.le_iff_toNat_le, UInt8.toNat_ofNat', Nat.mod_eq_of_lt small]
    change ¬ 48 ≤ code ∨ ¬ code ≤ 57
    omega
  unfold String.utf8EncodeChar
  dsimp only
  split
  · exact ⟨_, _, rfl, other (by omega) outside⟩
  · split
    · exact ⟨_, _, rfl, other (by omega) (by omega)⟩
    · split
      · exact ⟨_, _, rfl, other (by omega) (by omega)⟩
      · exact ⟨_, _, rfl, other (by omega) (by omega)⟩

-----------------------------------------------------------------------------------------
-- Numbers
-----------------------------------------------------------------------------------------

/-- How many of the first two bytes are digits. -/
def digitCount (text : List Char) : Nat :=
  (((bytes text).take 2).takeWhile isDigitByte).length

/-- One or two digits at the front, as a number. -/
def number (text : List Char) : Attempt (Nat × List Char) :=
  if digitCount text = 0 then .refused
  else do
    let (front, back) ← cut (digitCount text) text
    return (Nat.ofDigitChars 10 front 0, back)

/-- The digits that are counted are cut off, since they take one byte each. -/
theorem number_of_count {front back : List Char} (digits : ∀ c ∈ front, c.isDigit = true)
    (count : digitCount (front ++ back) = front.length) (nonempty : front ≠ [])
    : number (front ++ back) = .found (Nat.ofDigitChars 10 front 0, back) := by
  have single (c : Char) (member : c ∈ front) : c.utf8Size = 1 :=
    (utf8EncodeChar_of_isDigit (digits c member)).1
  have parts := cut?_append single back
  rw [number, count, if_neg (by simpa using nonempty), cut, parts]
  rfl

/-- A number is read from as many bytes as it has digits. -/
theorem number_eq (text : List Char) : number text = .ofOption (Item.number? text) := by
  have noDigit {c : Char} (other : c.isDigit = false) : Item.digit? c = none := by
    simp [Item.digit?, other]
  have digit {c : Char} (isDigit : c.isDigit = true)
      : Item.digit? c = some (c.toNat - '0'.toNat) := by
    simp [Item.digit?, isDigit]
  cases text with
  | nil => rfl
  | cons c rest =>
      cases first : c.isDigit with
      | false =>
          obtain ⟨byte, more, encoded, other⟩ := utf8EncodeChar_of_not_isDigit first
          have none : digitCount (c :: rest) = 0 := by
            simp [digitCount, bytes, encoded, other]
          simp [number, none, Item.number?, noDigit first, Attempt.ofOption]
      | true =>
          obtain ⟨_, byte, encoded, isDigit⟩ := utf8EncodeChar_of_isDigit first
          cases rest with
          | nil =>
              have one : number ([c] ++ []) = _ := number_of_count (by simp [first])
                (by simp [digitCount, bytes, encoded, isDigit]) (by simp)
              rw [List.append_nil] at one
              simp [one, Item.number?, digit first, Attempt.ofOption, Nat.ofDigitChars_cons]
          | cons d tail =>
              cases second : d.isDigit with
              | false =>
                  obtain ⟨next, more, encodes, other⟩ := utf8EncodeChar_of_not_isDigit second
                  have one : number ([c] ++ d :: tail) = _ := number_of_count (by simp [first])
                    (by simp [digitCount, bytes, encoded, isDigit, encodes, other]) (by simp)
                  rw [List.singleton_append] at one
                  simp [one, Item.number?, digit first, noDigit second, Attempt.ofOption,
                    Nat.ofDigitChars_cons]
              | true =>
                  obtain ⟨_, next, encodes, isSecond⟩ := utf8EncodeChar_of_isDigit second
                  have two : number ([c, d] ++ tail) = _ :=
                    number_of_count (by simp [first, second])
                      (by simp [digitCount, bytes, encoded, isDigit, encodes, isSecond])
                      (by simp)
                  rw [List.cons_append, List.singleton_append] at two
                  simp [two, Item.number?, digit first, digit second, Attempt.ofOption,
                    Nat.ofDigitChars_cons]

-----------------------------------------------------------------------------------------
-- Scalars
-----------------------------------------------------------------------------------------

/-- The first three bytes as a name of the field. -/
def name (field : Field) (text : List Char) : Attempt (Nat × List Char) :=
  if field.names.isEmpty then .refused
  else
    match cut? 3 text with
    | none => .refused
    | some (front, _) =>
      match field.valueOf? front with
      | none => .refused
      | some value => do
        let (_, back) ← cut 3 text
        return (value, back)

/-- A number, or else a name. -/
def scalar (field : Field) (text : List Char) : Attempt (Nat × List Char) :=
  match number text with
  | .found value => .found value
  | .refused => name field text
  | .fault reason => .fault reason

/-- A name is cut off by its three letters, which take one byte each. -/
theorem name_append {field : Field} {front : List Char} {value : Nat}
    (known : field.valueOf? front = some value) (back : List Char)
    : name field (front ++ back) = .found (value, back) := by
  obtain ⟨index, listed, present, same, _⟩ := Item.valueOf?_eq_some_iff.mp known
  obtain ⟨three, letters⟩ := Item.shape_of_sameLetters present same
  have single : ∀ c ∈ front, c.utf8Size = 1 := by
    intro c member
    have place := letters c member
    simp only [Char.isAlpha, Char.isUpper, Char.isLower, Bool.or_eq_true, Bool.and_eq_true,
      decide_eq_true_eq, UInt32.le_iff_toNat_le, ge_iff_le] at place
    rw [Char.utf8Size_eq_one_iff, UInt32.le_iff_toNat_le]
    change c.val.toNat ≤ 127
    change 65 ≤ c.val.toNat ∧ c.val.toNat ≤ 90 ∨ 97 ≤ c.val.toNat ∧ c.val.toNat ≤ 122 at place
    omega
  have parts := cut?_append single back
  rw [three] at parts
  have names : field.names ≠ [] := by
    intro empty
    simp [empty] at present
  simp only [name, cut, List.isEmpty_iff, names, if_false, parts, known]
  rfl

/-- Where no name stands at the front, nothing is cut off. -/
theorem name_refused {field : Field} {text : List Char}
    (unnamed : ∀ front back, text = front ++ back → field.valueOf? front = none)
    : name field text = .refused := by
  rw [name]
  split
  · rfl
  · cases parts : cut? 3 text with
    | none => rfl
    | some found => simp only [unnamed found.1 found.2 (append_of_cut? parts)]

/-- A scalar is read from as many bytes as it has characters. -/
theorem scalar_eq (field : Field) (text : List Char)
    : scalar field text = .ofOption (Item.scalar? field text) := by
  unfold scalar Item.scalar?
  rw [number_eq]
  cases Item.number? text with
  | some found => rfl
  | none =>
      change name field text = _
      dsimp only
      by_cases unnamed : ∀ front back, text = front ++ back → field.valueOf? front = none
      · rw [name_refused unnamed]
        split
        · next a b c back => rw [unnamed [a, b, c] back rfl]; rfl
        · rfl
      · push Not at unnamed
        obtain ⟨front, back, rfl, isNamed⟩ := unnamed
        obtain ⟨value, known⟩ := Option.ne_none_iff_exists'.mp isNamed
        obtain ⟨index, listed, present, same, _⟩ := Item.valueOf?_eq_some_iff.mp known
        obtain ⟨a, b, c, rfl⟩ :=
          List.length_eq_three.mp (Item.shape_of_sameLetters present same).1
        rw [name_append known]
        simp only [List.cons_append, List.nil_append, known, Option.map_some]
        rfl

/-- What is read as a scalar stands at the front of the text. -/
theorem scalar_ensures (field : Field) (text : List Char)
    : (scalar field text).Ensures fun (value, rest) =>
        ∃ front, text = front ++ rest ∧ Item.Scalar field front value := by
  rw [scalar_eq]
  cases read : Item.scalar? field text with
  | none => trivial
  | some found =>
      obtain ⟨front, scalar, same⟩ := Item.exists_scalar read
      exact ⟨front, same, scalar⟩

/-- A scalar is read up to where no digit follows. -/
theorem scalar_append {field : Field} {front rest : List Char} {value : Nat}
    (isScalar : Item.Scalar field front value) (apart : Item.Apart rest)
    : scalar field (front ++ rest) = .found (value, rest) := by
  rw [scalar_eq, Item.scalar?_append isScalar apart]
  rfl

-----------------------------------------------------------------------------------------
-- Steps
-----------------------------------------------------------------------------------------

/-- A step behind a slash, if there is a slash. -/
def step (text : List Char) : Attempt (Option Nat × List Char) :=
  match text with
  | '/' :: rest => do
    let (size, rest) ← number rest
    if 0 < size then return (some size, rest) else .refused
  | rest => return (none, rest)

/-- What an optional step is read from, and what it leaves. -/
inductive Stepped (text : List Char) : Option Nat × List Char → Prop where
  | none (noSlash : ∀ tail, text ≠ '/' :: tail) : Stepped text (none, text)
  | some {digits rest : List Char} {size : Nat} (steps : Item.Step digits size)
      (same : text = '/' :: digits ++ rest)
    : Stepped text (some size, rest)

theorem step_ensures (text : List Char) : (step text).Ensures (Stepped text) := by
  unfold step
  split
  · next rest =>
    rw [number_eq]
    cases read : Item.number? rest with
    | none => trivial
    | some found =>
        obtain ⟨digits, numeral, rfl⟩ := Item.exists_numeral read
        simp only [Attempt.ofOption, bind, pure]
        split
        · next positive => exact .some ⟨numeral, positive⟩ rfl
        · trivial
  · next noSlash => exact .none noSlash

theorem step_append {digits rest : List Char} {size : Nat} (steps : Item.Step digits size)
    (apart : Item.Apart rest)
    : step ('/' :: digits ++ rest) = .found (some size, rest) := by
  rw [List.cons_append, step, number_eq, Item.number?_append steps.numeral apart]
  simp [Attempt.ofOption, bind, pure, steps.positive]

theorem step_of_noSlash {text : List Char} (noSlash : ∀ tail, text ≠ '/' :: tail)
    : step text = .found (none, text) := by
  unfold step
  split
  · next tail => exact absurd rfl (noSlash tail)
  · rfl

-----------------------------------------------------------------------------------------
-- Items
-----------------------------------------------------------------------------------------

/-- All numbers that may be written in a field. -/
def fullWritten (field : Field) : Mask :=
  (((1 : Mask) <<< (field.lastWritten - field.first + 1).toUInt64) - 1)
    <<< field.first.toUInt64

/-- What is known of a field when some of its text is read. -/
structure Part where
  mask : Mask
  interval : Bool
  rest : List Char
  deriving DecidableEq

/-- What follows the dash of a range. -/
def afterDash (field : Field) (interval : Bool) (start : Nat) (text : List Char)
    : Attempt Part := do
  let (stop, rest) ← scalar field text
  if stop < field.first ∨ field.lastWritten < start then .refused
  else do
    let (size, rest) ← step rest
    let mask ← span (max start field.first) (min stop field.lastWritten) (size.getD 1)
    return ⟨mask, interval || field.isClock, rest⟩

/-- What follows the first scalar of an item. -/
def afterStart (field : Field) (interval : Bool) (start : Nat) (text : List Char)
    : Attempt Part := do
  let (size, rest) ← step text
  match size, rest with
  | some size, rest =>
    let mask ← span (max start field.first) field.lastWritten size
    return ⟨mask, interval || field.isClock, rest⟩
  | none, '-' :: rest => afterDash field interval start rest
  | none, rest =>
    if start < field.first ∨ field.lastWritten < start then .refused
    else do
      let mask ← bit start
      return ⟨mask, interval, rest⟩

/-- One item; a range that is clipped to nothing has an empty mask. -/
def item (field : Field) (interval : Bool) (text : List Char) : Attempt Part :=
  match text with
  | '*' :: rest => do
    let (size, rest) ← step rest
    let mask ← match size with
      | some size => span field.first field.lastWritten size
      | none => pure (fullWritten field)
    return ⟨mask, interval || field.isClock, rest⟩
  | text => do
    let (start, rest) ← scalar field text
    afterStart field interval start rest

theorem lastWritten_lt (field : Field) : field.lastWritten < 64 := by
  cases field <;> decide

theorem has_fullWritten (field : Field) (number : Nat)
    : (fullWritten field).has number ↔ field.first ≤ number ∧ number ≤ field.lastWritten := by
  have table : ∀ field ∈ Field.all, ∀ number < 64,
      (fullWritten field).has number
      = decide (field.first ≤ number ∧ number ≤ field.lastWritten) := by
    decide
  constructor
  · intro has
    simpa [table field field.mem_all number (Mask.lt_of_has has)] using has
  · intro inside
    have small := Nat.lt_of_le_of_lt inside.2 (lastWritten_lt field)
    simpa [table field field.mem_all number small] using inside

/-- A part was read from some text as an item, whose numbers its mask has. -/
structure IsItem (field : Field) (interval : Bool) (text : List Char) (front : List Char)
    (spelled : Item) (part : Part) : Prop where
  same : text = front ++ part.rest
  spells : Item.Spells field front spelled
  interval : part.interval = (interval || field.isClock && spelled.isSpread)
  has : ∀ number, part.mask.has number ↔ spelled.Covers field number

/-- A span of the field with a step of the grammar is found. -/
theorem span_ensures {field : Field} {low high size : Nat} (positive : 0 < size)
    (below : high ≤ field.lastWritten)
    : (span low high size).Ensures fun mask =>
        ∀ number, mask.has number ↔ ∃ steps, number = low + steps * size ∧ number ≤ high := by
  obtain ⟨mask, found, has⟩ :=
    span_of_small positive (Nat.lt_of_le_of_lt below (lastWritten_lt field))
  rw [found]
  exact has

/-- A range is one of the grammar, with its mask clipped to the field. -/
theorem afterDash_ensures {field : Field} {interval : Bool} {start : Nat}
    {left text : List Char} (low : Item.Scalar field left start)
    : (afterDash field interval start text).Ensures fun part =>
        ∃ front spelled, IsItem field interval (left ++ '-' :: text) front spelled part := by
  refine (scalar_ensures field text).bind ?_
  rintro ⟨stop, _⟩ ⟨right, rfl, high⟩
  dsimp only
  split
  · trivial
  · next reaches =>
    rw [not_or, Nat.not_lt, Nat.not_lt] at reaches
    refine (step_ensures _).bind ?_
    rintro ⟨_, rest⟩ (noSlash | ⟨steps, rfl⟩)
    · refine (span_ensures Nat.one_pos (Nat.min_le_right _ _)).bind fun mask has => ?_
      exact ⟨left ++ '-' :: right, .range start stop 1, by simp,
        .range low high reaches.1 reaches.2, by simp [Item.isSpread], has⟩
    · refine (span_ensures steps.positive (Nat.min_le_right _ _)).bind fun mask has => ?_
      exact ⟨_, .range start stop _, by simp, .stepped low high reaches.1 reaches.2 steps,
        by simp [Item.isSpread], has⟩

/-- What goes on after a scalar is an item of the grammar; a lone value is checked before it
is shifted.
-/
theorem afterStart_ensures {field : Field} {interval : Bool} {start : Nat}
    {left text : List Char} (low : Item.Scalar field left start)
    : (afterStart field interval start text).Ensures fun part =>
        ∃ front spelled, IsItem field interval (left ++ text) front spelled part := by
  refine (step_ensures text).bind ?_
  rintro ⟨_, rest⟩ (noSlash | ⟨steps, rfl⟩)
  · dsimp only
    split
    · next absent => cases absent
    · exact afterDash_ensures low
    · split
      · trivial
      · next inside =>
        rw [not_or, Nat.not_lt, Nat.not_lt] at inside
        have small := Nat.lt_of_le_of_lt inside.2 (lastWritten_lt field)
        rw [bit_of_small small]
        refine ⟨left, .lone start, rfl, .lone low inside.1 inside.2, ?_, ?_⟩
        · simp [Item.isSpread]
        · intro number
          rw [Mask.has_single small, decide_eq_true_eq]
          rfl
  · refine (span_ensures steps.positive (Nat.le_refl _)).bind fun mask has => ?_
    exact ⟨_, .onward start _, by simp, .onward low steps, by simp [Item.isSpread], has⟩

/-- Whatever is read as an item is one of the grammar, and nothing on the way is a fault. -/
theorem item_ensures (field : Field) (interval : Bool) (text : List Char)
    : (item field interval text).Ensures fun part =>
        ∃ front spelled, IsItem field interval text front spelled part := by
  unfold item
  split
  · next rest =>
    refine (step_ensures rest).bind ?_
    rintro ⟨_, rest⟩ (noSlash | ⟨steps, rfl⟩)
    · exact ⟨['*'], .every, rfl, .every, by simp [Item.isSpread], has_fullWritten field⟩
    · refine (span_ensures steps.positive (Nat.le_refl _)).bind fun mask has => ?_
      exact ⟨_, .spaced _, rfl, .spaced steps, by simp [Item.isSpread], has⟩
  · refine (scalar_ensures field text).bind ?_
    rintro ⟨start, rest⟩ ⟨left, rfl, low⟩
    exact afterStart_ensures low

-----------------------------------------------------------------------------------------
-- All items are read
-----------------------------------------------------------------------------------------

/-- What can follow an item. -/
def Ends (rest : List Char) : Prop :=
  ∀ c ∈ rest.head?, c = ',' ∨ Text.isBlank c

namespace Ends

variable {rest : List Char}

theorem notMark (ends : Ends rest) {mark : Char} (isMark : mark = '/' ∨ mark = '-')
    : ∀ tail, rest ≠ mark :: tail := by
  rintro tail rfl
  have follows := ends mark (by simp)
  rcases isMark with rfl | rfl <;> revert follows <;> decide

theorem apart (ends : Ends rest) : Item.Apart rest := by
  intro c first
  rw [Item.digit?, if_neg]
  intro isDigit
  have alphanum : c.isAlphanum := by simp [Char.isAlphanum, isDigit]
  obtain ⟨noBlank, noComma, _⟩ := Item.IsItemChar.plain (Or.inl alphanum)
  rcases ends c first with comma | blank
  · exact noComma comma
  · simp [blank] at noBlank

end Ends

/-- What stands after a scalar at the front is read next. -/
theorem item_of_scalar {field : Field} {left text : List Char} {start : Nat}
    (low : Item.Scalar field left start) (apart : Item.Apart text) (interval : Bool)
    : item field interval (left ++ text) = afterStart field interval start text := by
  obtain ⟨c, others, rfl⟩ := low.exists_cons
  have noStar : c ≠ '*' := by
    rintro rfl
    have alphanum := low.isAlphanum '*' (by simp)
    simp at alphanum
  have step : item field interval (c :: others ++ text)
      = (scalar field (c :: others ++ text) >>= fun (start, rest) =>
          afterStart field interval start rest) := by
    unfold item
    split
    · next same => exact absurd (List.cons.inj same).1 noStar
    · rfl
  rw [step, scalar_append low apart]
  rfl

/-- A part is made of a span of the field with a step of the grammar. -/
theorem span_bind {field : Field} {low high size : Nat} (positive : 0 < size)
    (below : high ≤ field.lastWritten) (interval : Bool) (rest : List Char)
    : ∃ part : Part,
        (span low high size >>= fun mask => pure ⟨mask, interval, rest⟩) = .found part
        ∧ part.rest = rest := by
  obtain ⟨mask, found, _⟩ :=
    span_of_small positive (Nat.lt_of_le_of_lt below (lastWritten_lt field))
  exact ⟨⟨mask, interval, rest⟩, by rw [found]; rfl, rfl⟩

/-- Every item of the grammar is read, up to where it ends. -/
theorem item_append {field : Field} {front rest : List Char} {spelled : Item}
    (spells : Item.Spells field front spelled) (ends : Ends rest) (interval : Bool)
    : ∃ part, item field interval (front ++ rest) = .found part ∧ part.rest = rest := by
  have noSlash := step_of_noSlash (ends.notMark (Or.inl rfl))
  cases spells with
  | every =>
      refine ⟨⟨fullWritten field, interval || field.isClock, rest⟩, ?_, rfl⟩
      change (step rest >>= _) = _
      rw [noSlash]
      rfl
  | @spaced digits size steps =>
      change ∃ part, (step ('/' :: digits ++ rest) >>= _) = _ ∧ _
      rw [step_append steps ends.apart]
      exact span_bind steps.positive (Nat.le_refl _) _ rest
  | @lone text value low above below =>
      have small := Nat.lt_of_le_of_lt below (lastWritten_lt field)
      have inside : ¬ (value < field.first ∨ field.lastWritten < value) := by omega
      refine ⟨⟨(1 : Mask) <<< value.toUInt64, interval, rest⟩, ?_, rfl⟩
      rw [item_of_scalar low ends.apart, afterStart, noSlash]
      simp only [bind]
      split
      · next absent => cases absent
      · next tail _ => exact absurd rfl (ends.notMark (Or.inr rfl) tail)
      · rw [if_neg inside, bit_of_small small]
        rfl
  | @onward text start digits size low steps =>
      have slash : Item.Apart ('/' :: digits ++ rest) := Item.apart_mark (Or.inl rfl) _
      rw [List.append_assoc, item_of_scalar low slash, afterStart,
        step_append steps ends.apart]
      exact span_bind steps.positive (Nat.le_refl _) _ rest
  | @range left start right stop low high above below =>
      have dash : Item.Apart ('-' :: right ++ rest) := Item.apart_mark (Or.inr rfl) _
      have reaches : ¬ (stop < field.first ∨ field.lastWritten < start) := by omega
      rw [List.append_assoc, item_of_scalar low dash, afterStart,
        step_of_noSlash (by simp)]
      change ∃ part, (scalar field (right ++ rest) >>= _) = _ ∧ _
      rw [scalar_append high ends.apart]
      change ∃ part, ite _ _ _ = _ ∧ _
      rw [if_neg reaches, noSlash]
      exact span_bind Nat.one_pos (Nat.min_le_right _ _) _ rest
  | @stepped left start right stop digits size low high above below steps =>
      have dash : Item.Apart ('-' :: (right ++ '/' :: digits) ++ rest) :=
        Item.apart_mark (Or.inr rfl) _
      have slash : Item.Apart ('/' :: digits ++ rest) := Item.apart_mark (Or.inl rfl) _
      have reaches : ¬ (stop < field.first ∨ field.lastWritten < start) := by omega
      rw [List.append_assoc, item_of_scalar low dash, afterStart,
        step_of_noSlash (by simp)]
      change ∃ part, (scalar field (right ++ '/' :: digits ++ rest) >>= _) = _ ∧ _
      rw [List.append_assoc, scalar_append high slash]
      change ∃ part, ite _ _ _ = _ ∧ _
      rw [if_neg reaches, step_append steps ends.apart]
      exact span_bind steps.positive (Nat.min_le_right _ _) _ rest

end Cadence.Checked
