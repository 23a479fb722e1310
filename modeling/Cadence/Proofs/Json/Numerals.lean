import Cadence.Json.Numeral
import Cadence.Json.Writer
import Mathlib.Data.List.Induction

/-! Integers are read exactly as they are written: in decimal digits without leading zeros,
after a minus sign if they are negative, up to where no digit, point or exponent follows.
-/

namespace Cadence.Json.Numeral

/-- What can follow a number that has no fraction and no exponent. -/
def Ends : List Char → Prop
  | [] => True
  | c :: _ => c.isDigit = false ∧ c ≠ '.' ∧ c ≠ 'e' ∧ c ≠ 'E'

/-- A positive number has no leading zero, by strong induction on its digits. -/
theorem exists_toDigits_eq_cons {number : Nat} (positive : 0 < number)
    : ∃ c rest, Nat.toDigits 10 number = c :: rest ∧ c ≠ '0' := by
  induction number using Nat.strongRecOn with
  | ind number ih =>
      by_cases short : number < 10
      · refine ⟨number.digitChar, [], Nat.toDigits_of_lt_base short, ?_⟩
        have table : ∀ digit < 10, 0 < digit → digit.digitChar ≠ '0' := by decide
        exact table number short positive
      · obtain ⟨c, rest, front, nonzero⟩ := ih (number / 10) (by omega) (by omega)
        refine ⟨c, rest ++ [(number % 10).digitChar], ?_, nonzero⟩
        rw [Nat.toDigits_of_base_le (by decide) (Nat.le_of_not_lt short), front,
          List.cons_append]

/-- Digits end where no digit follows. -/
theorem digits_append {front rest : List Char} (all : ∀ c ∈ front, c.isDigit)
    (ends : Ends rest)
    : digits (front ++ rest) = front ∧ afterDigits (front ++ rest) = rest := by
  have stop : digits rest = [] ∧ afterDigits rest = rest := by
    cases rest with
    | nil => exact ⟨rfl, rfl⟩
    | cons c rest => simp [digits, afterDigits, ends.1]
  constructor
  · rw [digits, List.takeWhile_append_of_pos all, ← digits, stop.1, List.append_nil]
  · rw [afterDigits, List.dropWhile_append_of_pos all, ← afterDigits, stop.2]

/-- The digits of a number are its whole part. -/
theorem whole?_toDigits (number : Nat) {rest : List Char} (ends : Ends rest)
    : whole? (Nat.toDigits 10 number ++ rest) = some (Nat.toDigits 10 number, rest) := by
  have all : ∀ c ∈ Nat.toDigits 10 number, c.isDigit := fun c member =>
    Nat.isDigit_of_mem_toDigits (by decide) (by decide) member
  obtain ⟨found, left⟩ := digits_append all ends
  rw [whole?, found, left]
  rcases Nat.eq_zero_or_pos number with rfl | positive
  · simp
  · obtain ⟨c, tail, front, nonzero⟩ := exists_toDigits_eq_cons positive
    rw [front]
    split
    · simp_all
    · simp_all
    · rfl

/-- Nothing that can follow a number is taken for a fraction or an exponent. -/
theorem rest_of_ends {rest : List Char} (ends : Ends rest)
    : fraction? rest = some (none, rest) ∧ exponent? rest = some (none, rest) := by
  cases rest with
  | nil => exact ⟨rfl, rfl⟩
  | cons c rest =>
      obtain ⟨_, point, small, capital⟩ := ends
      constructor
      · simp [fraction?, point]
      · simp [exponent?, small, capital]

/-- The digits of a number after a sign or none are scanned as an integer. -/
theorem scan?_of_sign {text rest : List Char} {negative : Bool} {number : Nat}
    (ends : Ends rest) (signed : sign text = (negative, Nat.toDigits 10 number ++ rest))
    : scan? text = some (⟨negative, Nat.toDigits 10 number, none, none⟩, rest) := by
  obtain ⟨fraction, exponent⟩ := rest_of_ends ends
  simp [scan?, signed, whole?_toDigits number ends, fraction, exponent]

/-- The text of a number starts with a digit. -/
theorem exists_toDigits_eq_digit (number : Nat)
    : ∃ c rest, Nat.toDigits 10 number = c :: rest ∧ c.isDigit := by
  obtain ⟨c, rest, front⟩ := List.exists_cons_of_ne_nil (Nat.toDigits_ne_nil (n := number))
  have member : c ∈ Nat.toDigits 10 number := front ▸ List.mem_cons_self
  exact ⟨c, rest, front, Nat.isDigit_of_mem_toDigits (by decide) (by decide) member⟩

/-- A number that is not negative has no sign. -/
theorem sign_toDigits (number : Nat) (rest : List Char)
    : sign (Nat.toDigits 10 number ++ rest) = (false, Nat.toDigits 10 number ++ rest) := by
  obtain ⟨c, tail, front, isDigit⟩ := exists_toDigits_eq_digit number
  rw [front, List.cons_append, sign]
  intro other same
  simp [(List.cons.inj same).1] at isDigit

/-- A number is written in its digits. -/
theorem integer_natCast (number : Nat) : integer number = Nat.toDigits 10 number := by
  rw [integer, ← String.toList_ofList (l := Nat.toDigits 10 number),
    ← Nat.toString_eq_ofList_toDigits]
  rfl

/-- A negative number is written with a sign. -/
theorem integer_negSucc (number : Nat)
    : integer (Int.negSucc number) = '-' :: Nat.toDigits 10 (number + 1) := by
  have written : toString (Int.negSucc number) = "-" ++ toString (number + 1) := rfl
  rw [integer, written, String.toList_append, Nat.toString_eq_ofList_toDigits]
  simp

/-- The text of an integer starts with a digit or a sign. -/
theorem exists_integer_eq_cons (value : Int)
    : ∃ c rest, integer value = c :: rest ∧ (c.isDigit ∨ c = '-') := by
  cases value with
  | ofNat number =>
      obtain ⟨c, rest, front, isDigit⟩ := exists_toDigits_eq_digit number
      exact ⟨c, rest, (integer_natCast number).trans front, Or.inl isDigit⟩
  | negSucc number => exact ⟨_, _, integer_negSucc number, Or.inr rfl⟩

/-- What is scanned from the text of an integer is the integer, if it fits a word. -/
theorem scan?_integer {value : Int}
    (bounded : Int64.minValue.toInt ≤ value ∧ value < UInt64.size) {rest : List Char}
    (ends : Ends rest)
    : ∃ numeral,
        scan? (integer value ++ rest) = some (numeral, rest)
        ∧ numeral.tree = .integer value := by
  cases value with
  | ofNat number =>
      have small : number < UInt64.size := Int.ofNat_lt.mp bounded.2
      refine ⟨⟨false, Nat.toDigits 10 number, none, none⟩, ?_, ?_⟩
      · rw [Int.ofNat_eq_natCast, integer_natCast]
        exact scan?_of_sign ends (sign_toDigits number rest)
      · simp [tree, integer?, Nat.ofDigitChars_ten_toDigits, small]
  | negSucc number =>
      refine ⟨⟨true, Nat.toDigits 10 (number + 1), none, none⟩, ?_, ?_⟩
      · rw [integer_negSucc, List.cons_append]
        exact scan?_of_sign ends (by rw [sign])
      · have small : Int64.minValue.toInt ≤ -((number + 1 : Nat) : Int) := bounded.1
        have size : Int.negSucc number = -((number + 1 : Nat) : Int) := rfl
        simp only [tree, integer?, Nat.ofDigitChars_ten_toDigits, Option.isSome_none,
          Bool.or_false, Bool.false_eq_true, if_false, if_true, Nat.succ_pos, true_and, small,
          size]

-----------------------------------------------------------------------------------------
-- What is read as an integer
-----------------------------------------------------------------------------------------

/-- A digit stands for its value. -/
theorem digitChar_of_isDigit {c : Char} (isDigit : c.isDigit)
    : (c.toNat - '0'.toNat).digitChar = c ∧ c.toNat - '0'.toNat < 10 := by
  have table : ∀ code < 58, 48 ≤ code → (code - 48).digitChar = Char.ofNat code := by decide
  simp only [Char.isDigit, Bool.and_eq_true, decide_eq_true_eq, ge_iff_le, UInt32.le_iff_toNat_le]
    at isDigit
  have bounds : 48 ≤ c.toNat ∧ c.toNat ≤ 57 := isDigit
  constructor
  · have found := table c.toNat (by omega) bounds.1
    rwa [Char.ofNat_toNat] at found
  · change c.toNat - 48 < 10
    omega

/-- A list of digits that does not go on after a leading zero. -/
structure Plain (digits : List Char) : Prop where
  all : ∀ c ∈ digits, c.isDigit
  nonempty : digits ≠ []
  noLeadingZero : ∀ tail, digits = '0' :: tail → tail = []

/-- Plain digits are those of the number that they spell, by induction from the last one. -/
theorem toDigits_ofDigitChars {digits : List Char} (plain : Plain digits)
    : Nat.toDigits 10 (Nat.ofDigitChars 10 digits 0) = digits := by
  induction digits using List.reverseRecOn with
  | nil => exact absurd rfl plain.nonempty
  | append_singleton front c ih =>
      obtain ⟨stands, small⟩ := digitChar_of_isDigit (plain.all c (by simp))
      rw [Nat.ofDigitChars_append, Nat.ofDigitChars_cons, Nat.ofDigitChars_nil]
      by_cases empty : front = []
      · subst empty
        rw [Nat.ofDigitChars_nil, Nat.mul_zero, Nat.zero_add, Nat.toDigits_of_lt_base small,
          stands, List.nil_append]
      · have notZero : ∀ tail, front ≠ '0' :: tail := by
          rintro tail rfl
          have ended := plain.noLeadingZero (tail ++ [c]) rfl
          simp at ended
        have before := ih ⟨fun other member => plain.all other (by simp [member]), empty,
          fun tail same => absurd same (notZero tail)⟩
        have positive : 0 < Nat.ofDigitChars 10 front 0 := by
          apply Nat.pos_of_ne_zero
          intro zero
          rw [zero] at before
          exact notZero [] before.symm
        rw [Nat.toDigits_of_base_le (by decide) (by omega), Nat.mul_add_div (by decide),
          Nat.div_eq_of_lt small, Nat.add_zero, before, Nat.mul_add_mod,
          Nat.mod_eq_of_lt small, stands]

/-- The whole part of a number is plain, and ends where no digit follows. -/
theorem whole?_eq_some {text found rest : List Char} (scanned : whole? text = some (found, rest))
    : text = found ++ rest
      ∧ Plain found
      ∧ ∀ c tail, rest = c :: tail → c.isDigit = false := by
  have parts : digits text ++ afterDigits text = text := List.takeWhile_append_dropWhile
  have all (c : Char) (member : c ∈ digits text) : c.isDigit :=
    List.all_eq_true.mp List.all_takeWhile c member
  have stop (c : Char) (tail : List Char) (left : afterDigits text = c :: tail)
      : c.isDigit = false := by
    have first := List.head?_dropWhile_not Char.isDigit text
    rw [afterDigits] at left
    rw [left] at first
    simpa using first
  unfold whole? at scanned
  split at scanned
  · cases scanned
  · cases scanned
  · next nonempty noLeadingZero =>
    obtain ⟨rfl, rfl⟩ := Prod.mk.inj (Option.some.inj scanned)
    refine ⟨parts.symm, ⟨all, nonempty, ?_⟩, stop⟩
    intro tail zero
    cases tail with
    | nil => rfl
    | cons c tail => exact absurd zero (noLeadingZero c tail)

/-- No fraction is found where no point follows. -/
theorem fraction?_eq_none {text rest : List Char} (scanned : fraction? text = some (none, rest))
    : rest = text ∧ ∀ tail, text ≠ '.' :: tail := by
  unfold fraction? at scanned
  split at scanned
  · split at scanned <;> simp at scanned
  · next noPoint =>
    obtain ⟨_, rfl⟩ := Prod.mk.inj (Option.some.inj scanned)
    exact ⟨rfl, noPoint⟩

/-- A power, if there is one, is found. -/
theorem power?_ne_none (negative : Bool) (text rest : List Char)
    : power? negative text ≠ some (none, rest) := by
  unfold power?
  split <;> simp

/-- No exponent is found where no mark of one follows. -/
theorem exponent?_eq_none {text rest : List Char} (scanned : exponent? text = some (none, rest))
    : rest = text ∧ ∀ c tail, text = c :: tail → c ≠ 'e' ∧ c ≠ 'E' := by
  unfold exponent? at scanned
  split at scanned
  · obtain ⟨_, rfl⟩ := Prod.mk.inj (Option.some.inj scanned)
    simp
  · split at scanned
    · split at scanned
      all_goals exact absurd scanned (power?_ne_none _ _ _)
    · next other =>
      obtain ⟨_, rfl⟩ := Prod.mk.inj (Option.some.inj scanned)
      rw [not_or] at other
      refine ⟨rfl, ?_⟩
      rintro c tail same
      obtain ⟨rfl, rfl⟩ := List.cons.inj same
      exact other

/-- What is read as an integer has neither fraction nor exponent; the integer fits a word,
and has the digits and the sign of the number unless these spell zero.
-/
theorem integer?_eq_some {numeral : Numeral} {value : Int} (plain : Plain numeral.whole)
    (read : numeral.integer? = some value)
    : numeral.fraction = none
      ∧ numeral.exponent = none
      ∧ integer value = (if numeral.negative then ['-'] else []) ++ numeral.whole
      ∧ Int64.minValue.toInt ≤ value
      ∧ value < UInt64.size := by
  have written := toDigits_ofDigitChars plain
  obtain ⟨negative, whole, fraction, exponent⟩ := numeral
  simp only [integer?] at read written ⊢
  generalize Nat.ofDigitChars 10 whole 0 = size at read written
  split at read
  · cases read
  · next noMore =>
    simp only [Bool.or_eq_true, Option.isSome_iff_ne_none, not_or, not_not] at noMore
    refine ⟨noMore.1, noMore.2, ?_⟩
    split at read
    · next signed =>
      split at read
      · next bounds =>
        obtain rfl := Option.some.inj read
        refine ⟨?_, bounds.2, by omega⟩
        obtain ⟨before, rfl⟩ := Nat.exists_eq_add_one_of_ne_zero (Nat.pos_iff_ne_zero.mp bounds.1)
        rw [if_pos signed, ← written]
        exact integer_negSucc before
      · cases read
    · next unsigned =>
      split at read
      · next small =>
        obtain rfl := Option.some.inj read
        have least : Int64.minValue.toInt ≤ 0 := by decide
        refine ⟨?_, by omega, Int.ofNat_lt.mpr small⟩
        rw [if_neg unsigned, ← written, integer_natCast, List.nil_append]
      · cases read

/-- What is scanned as an integer was written as it, up to where it ends. -/
theorem eq_integer_of_scan? {text rest : List Char} {numeral : Numeral} {value : Int}
    (scanned : scan? text = some (numeral, rest)) (read : numeral.tree = .integer value)
    : text = integer value ++ rest
      ∧ Ends rest
      ∧ Int64.minValue.toInt ≤ value
      ∧ value < UInt64.size := by
  simp only [scan?, Option.bind_eq_bind, Option.bind_eq_some_iff, Prod.exists,
    Option.some.injEq, Prod.mk.injEq] at scanned
  obtain ⟨whole, afterWhole, foundWhole, fraction, afterFraction, foundFraction, exponent,
    afterExponent, foundExponent, rfl, rfl⟩ := scanned
  obtain ⟨parts, plain, noDigit⟩ := whole?_eq_some foundWhole
  have isInteger : integer? ⟨(sign text).1, whole, fraction, exponent⟩ = some value := by
    unfold tree at read
    split at read
    · next found => rw [found, Tree.integer.inj read]
    · split at read <;> cases read
  obtain ⟨rfl, rfl, written, bounded⟩ := integer?_eq_some plain isInteger
  obtain ⟨rfl, noPoint⟩ := fraction?_eq_none foundFraction
  obtain ⟨rfl, noMark⟩ := exponent?_eq_none foundExponent
  have signed : text = (if (sign text).1 then ['-'] else []) ++ (sign text).2 := by
    unfold sign
    split <;> rfl
  refine ⟨?_, ?_, bounded⟩
  · rw [written, List.append_assoc, ← parts, ← signed]
  · cases afterExponent with
    | nil => trivial
    | cons c tail =>
        exact ⟨noDigit c tail rfl, fun same => noPoint tail (same ▸ rfl),
          (noMark c tail rfl).1, (noMark c tail rfl).2⟩

end Cadence.Json.Numeral
