import Cadence.Json.Quoted

/-! Quoted texts are read exactly as they are spelled. What stands between the quotes is a
sequence of characters, short escapes and units, and it is scanned as these pieces; pieces
are joined to characters, two for each pair of units. A character that is written as itself
or as one escape is so read back.
-/

namespace Cadence.Json.Quoted

-----------------------------------------------------------------------------------------
-- Scanning single pieces
-----------------------------------------------------------------------------------------

/-- The unit that four digits spell. -/
def spelledUnit? : List Char → Option Nat
  | [p, q, r, s] => unit? p q r s
  | _ => none

/-- The digits of a control character spell its code. -/
theorem spelledUnit?_controlDigits {c : Char} (control : c.toNat < 0x20)
    : spelledUnit? (controlDigits c) = some c.toNat := by
  have table : ∀ code < 0x20,
      spelledUnit? (controlDigits (Char.ofNat code)) = some code := by
    decide
  have found := table c.toNat control
  rwa [Char.ofNat_toNat] at found

/-- Four digits that spell a unit are scanned as it. -/
theorem scan?_unit {digits : List Char} {code : Nat} (spelled : spelledUnit? digits = some code)
    (rest : List Char)
    : scan? ('\\' :: 'u' :: digits ++ rest)
      = (scan? rest).map fun (pieces, tail) => (.unit code :: pieces, tail) := by
  unfold spelledUnit? at spelled
  split at spelled
  · simp only [List.cons_append, List.nil_append, scan?, spelled, Option.bind_eq_bind,
      Option.bind_some]
    cases scan? rest with
    | none => rfl
    | some found => rfl
  · simp at spelled

/-- A short escape is scanned as the character that it stands for. -/
theorem scan?_short {mark c : Char} (short : short? mark = some c) (rest : List Char)
    : scan? ('\\' :: mark :: rest)
      = (scan? rest).map fun (pieces, tail) => (.char c :: pieces, tail) := by
  have other : mark ≠ 'u' := by
    rintro rfl
    simp [short?] at short
  have step : scan? ('\\' :: mark :: rest)
      = (do
          let c ← short? mark
          let (pieces, tail) ← scan? rest
          some (.char c :: pieces, tail)) := by
    rw [scan?]
    intro _ _ _ _ _ head
    exact absurd head other
  rw [step, short]
  cases scan? rest with
  | none => rfl
  | some found => rfl

/-- Any other character is scanned as itself. -/
theorem scan?_visible {c : Char} (quote : c ≠ '"') (backslash : c ≠ '\\')
    (visible : ¬ c.toNat < 0x20) (rest : List Char)
    : scan? (c :: rest)
      = (scan? rest).map fun (pieces, tail) => (.char c :: pieces, tail) := by
  have step : scan? (c :: rest)
      = (do
          let (pieces, tail) ← scan? rest
          some (.char c :: pieces, tail)) := by
    rw [scan?, if_neg visible]
    all_goals simp_all
  rw [step]
  cases scan? rest with
  | none => rfl
  | some found => rfl

-----------------------------------------------------------------------------------------
-- Pieces
-----------------------------------------------------------------------------------------

/-- What some pieces are written as. -/
inductive Written : List Char → List Piece → Prop where
  | nil : Written [] []
  | visible {c : Char} {text : List Char} {pieces : List Piece} (quote : c ≠ '"')
      (backslash : c ≠ '\\') (visible : ¬ c.toNat < 0x20) (later : Written text pieces)
    : Written (c :: text) (.char c :: pieces)
  | short {mark c : Char} {text : List Char} {pieces : List Piece}
      (short : short? mark = some c) (later : Written text pieces)
    : Written ('\\' :: mark :: text) (.char c :: pieces)
  | unit {digits : List Char} {code : Nat} {text : List Char} {pieces : List Piece}
      (spelled : spelledUnit? digits = some code) (later : Written text pieces)
    : Written ('\\' :: 'u' :: digits ++ text) (.unit code :: pieces)

/-- Pieces are scanned up to the closing quote, by induction on them. -/
theorem scan?_of_written {text : List Char} {pieces : List Piece}
    (written : Written text pieces) (rest : List Char)
    : scan? (text ++ '"' :: rest) = some (pieces, rest) := by
  induction written with
  | nil => simp [scan?]
  | visible quote backslash visible _ ih =>
      rw [List.cons_append, scan?_visible quote backslash visible, ih]
      rfl
  | short short _ ih =>
      rw [List.cons_append, List.cons_append, scan?_short short, ih]
      rfl
  | unit spelled _ ih =>
      rw [List.append_assoc, scan?_unit spelled, ih]
      rfl

/-- What is scanned was written as its pieces, by the induction of the scanner. -/
theorem exists_written_of_scan? {text rest : List Char} {pieces : List Piece}
    (scanned : scan? text = some (pieces, rest))
    : ∃ front, text = front ++ '"' :: rest ∧ Written front pieces := by
  fun_induction scan? text generalizing pieces with
  | case1 => simp at scanned
  | case2 tail =>
      obtain ⟨rfl, rfl⟩ := Prod.mk.inj (Option.some.inj scanned)
      exact ⟨[], rfl, .nil⟩
  | case3 p q r s tail ih =>
      simp only [Option.bind_eq_bind, Option.bind_eq_some_iff, Prod.exists, Option.some.injEq,
        Prod.mk.injEq] at scanned
      obtain ⟨code, spelled, later, _, found, rfl, rfl⟩ := scanned
      obtain ⟨front, rfl, written⟩ := ih found
      exact ⟨'\\' :: 'u' :: [p, q, r, s] ++ front, by simp, .unit spelled written⟩
  | case4 mark tail _ ih =>
      simp only [Option.bind_eq_bind, Option.bind_eq_some_iff, Prod.exists, Option.some.injEq,
        Prod.mk.injEq] at scanned
      obtain ⟨c, short, later, _, found, rfl, rfl⟩ := scanned
      obtain ⟨front, rfl, written⟩ := ih found
      exact ⟨'\\' :: mark :: front, rfl, .short short written⟩
  | case5 => simp at scanned
  | case6 c tail quote _ lone visible ih =>
      simp only [Option.bind_eq_bind, Option.bind_eq_some_iff, Prod.exists, Option.some.injEq,
        Prod.mk.injEq] at scanned
      obtain ⟨later, _, found, rfl, rfl⟩ := scanned
      obtain ⟨front, rfl, written⟩ := ih found
      -- a backslash that starts no escape would be the last character
      have backslash : c ≠ '\\' := by
        intro same
        cases front with
        | nil => exact lone _ _ same rfl
        | cons mark front => exact lone _ _ same rfl
      exact ⟨c :: front, rfl, .visible quote backslash visible written⟩

/-- The characters that some pieces stand for: the units of a pair for one, any other unit
that is not half of a pair for itself.
-/
inductive Joins : List Piece → List Char → Prop where
  | nil : Joins [] []
  | char (c : Char) {pieces : List Piece} {text : List Char} (later : Joins pieces text)
    : Joins (.char c :: pieces) (c :: text)
  | unit {code : Nat} {pieces : List Piece} {text : List Char} (notHigh : isHigh code = false)
      (notLow : isLow code = false) (later : Joins pieces text)
    : Joins (.unit code :: pieces) (Char.ofNat code :: text)
  | pair {high low : Nat} {pieces : List Piece} {text : List Char} (isHigh : isHigh high)
      (isLow : isLow low) (later : Joins pieces text)
    : Joins (.unit high :: .unit low :: pieces)
        (Char.ofNat (0x10000 + (high - 0xd800) * 0x400 + (low - 0xdc00)) :: text)

/-- A unit that is not half of a pair stands alone. -/
theorem join?_unit {code : Nat} (notHigh : isHigh code = false) (notLow : isLow code = false)
    (rest : List Piece)
    : join? (.unit code :: rest) = (join? rest).map (Char.ofNat code :: ·) := by
  cases rest with
  | nil => simp [join?, notHigh, notLow]
  | cons piece rest => cases piece <;> simp [join?, notHigh, notLow]

/-- Pieces are joined to what they stand for, by induction one way and by that of the joining
the other.
-/
theorem join?_eq_some_iff {pieces : List Piece} {text : List Char}
    : join? pieces = some text ↔ Joins pieces text := by
  constructor
  · intro joined
    fun_induction join? pieces generalizing text with
    | case1 =>
        obtain rfl := Option.some.inj joined
        exact .nil
    | case2 c rest ih =>
        obtain ⟨later, found, rfl⟩ := Option.map_eq_some_iff.mp joined
        exact .char c (ih found)
    | case3 high low rest halves ih =>
        obtain ⟨later, found, rfl⟩ := Option.map_eq_some_iff.mp joined
        obtain ⟨isHigh, isLow⟩ := Bool.and_eq_true_iff.mp halves
        exact .pair isHigh isLow (ih found)
    | case4 => simp at joined
    | case5 high low rest _ alone ih =>
        obtain ⟨later, found, rfl⟩ := Option.map_eq_some_iff.mp joined
        simp only [Bool.or_eq_true, not_or, Bool.not_eq_true] at alone
        exact .unit alone.1 alone.2 (ih found)
    | case6 => simp at joined
    | case7 code rest _ alone ih =>
        obtain ⟨later, found, rfl⟩ := Option.map_eq_some_iff.mp joined
        simp only [Bool.or_eq_true, not_or, Bool.not_eq_true] at alone
        exact .unit alone.1 alone.2 (ih found)
  · intro joins
    induction joins with
    | nil => rfl
    | char c _ ih => rw [join?, ih, Option.map_some]
    | unit notHigh notLow _ ih => rw [join?_unit notHigh notLow, ih, Option.map_some]
    | pair isHigh isLow _ ih => rw [join?, isHigh, isLow, ih]; rfl

-----------------------------------------------------------------------------------------
-- Texts
-----------------------------------------------------------------------------------------

/-- What a text may be spelled as between quotes. -/
def Spells (written : List Char) (text : String) : Prop :=
  ∃ pieces, Written written pieces ∧ Joins pieces text.toList

/-- What is scanned up to a closing quote and can be read is a spelling of what is read. -/
theorem exists_scan?_iff {written : List Char} {text : String} {rest : List Char}
    : (∃ pieces, scan? written = some (pieces, rest) ∧ text? pieces = some text)
      ↔ ∃ front, written = front ++ '"' :: rest ∧ Spells front text := by
  have reads (pieces : List Piece) : text? pieces = some text ↔ Joins pieces text.toList := by
    rw [← join?_eq_some_iff, text?, Option.map_eq_some_iff]
    constructor
    · rintro ⟨joined, found, rfl⟩
      rw [found, String.toList_ofList]
    · intro found
      exact ⟨text.toList, found, String.ofList_toList⟩
  constructor
  · rintro ⟨pieces, scanned, read⟩
    obtain ⟨front, same, pieced⟩ := exists_written_of_scan? scanned
    exact ⟨front, same, pieces, pieced, (reads pieces).mp read⟩
  · rintro ⟨front, rfl, pieces, pieced, joins⟩
    exact ⟨pieces, scan?_of_written pieced rest, (reads pieces).mpr joins⟩

/-- A character is written as one piece that stands for it. -/
theorem exists_piece_escape (c : Char)
    : ∃ piece,
        (∀ {text pieces},
          Written text pieces → Written (escape c ++ text) (piece :: pieces))
        ∧ ∀ {pieces text}, Joins pieces text → Joins (piece :: pieces) (c :: text) := by
  unfold escape
  split
  case h_8 quote backslash _ _ _ _ _ =>
    split
    · next control =>
      refine ⟨.unit c.toNat, .unit (spelledUnit?_controlDigits control), ?_⟩
      intro pieces text joins
      have alone : Joins (.unit c.toNat :: pieces) (Char.ofNat c.toNat :: text) :=
        .unit (by simp [isHigh]; omega) (by simp [isLow]; omega) joins
      rwa [Char.ofNat_toNat] at alone
    · next visible =>
      exact ⟨.char c, .visible quote backslash visible, .char c⟩
  all_goals
    exact ⟨.char _, .short rfl, .char _⟩

/-- A text is spelled by its characters one by one, by induction on them. -/
theorem spells_flatMap_escape (text : String)
    : Spells (text.toList.flatMap escape) text := by
  rw [Spells]
  induction text.toList with
  | nil => exact ⟨[], .nil, .nil⟩
  | cons c text ih =>
      obtain ⟨pieces, written, joins⟩ := ih
      obtain ⟨piece, front, stands⟩ := exists_piece_escape c
      exact ⟨piece :: pieces, front written, stands joins⟩

end Cadence.Json.Quoted
