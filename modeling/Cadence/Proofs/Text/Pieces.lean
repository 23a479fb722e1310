import Cadence.Text
import Mathlib.Data.List.Basic

/-! How a text falls into pieces: it is cut at its first separator, again and again. Words
are the pieces between blanks, so that texts with the words of a row are exactly that row
between blanks.
-/

namespace Cadence.Text

/-- Whether a character never separates. -/
def Clean (separates : Char → Bool) (piece : List Char) : Prop :=
  ∀ c ∈ piece, separates c = false

/-- Splitting always leaves a piece. -/
theorem splitWhere_ne_nil (separates : Char → Bool) (text : List Char)
    : splitWhere separates text ≠ [] := by
  cases text with
  | nil => simp [splitWhere]
  | cons c rest =>
      rw [splitWhere]
      split
      · simp
      · split <;> simp

/-- A clean text is one piece, by induction on it. -/
theorem splitWhere_of_clean {separates : Char → Bool} {piece : List Char}
    (clean : Clean separates piece)
    : splitWhere separates piece = [piece] := by
  induction piece with
  | nil => rfl
  | cons c rest ih =>
      have plain : separates c = false := clean c (by simp)
      rw [splitWhere, ih fun d member => clean d (by simp [member])]
      simp [plain]

/-- A clean text in front of a separator is the first piece, by induction on it. -/
theorem splitWhere_append {separates : Char → Bool} {piece : List Char} {c : Char}
    (clean : Clean separates piece) (separator : separates c) (rest : List Char)
    : splitWhere separates (piece ++ c :: rest) = piece :: splitWhere separates rest := by
  induction piece with
  | nil =>
      rw [List.nil_append, splitWhere]
      split
      · next nothing => exact absurd nothing (splitWhere_ne_nil separates rest)
      · next found => simp [separator, found]
  | cons d others ih =>
      have plain : separates d = false := clean d (by simp)
      rw [List.cons_append, splitWhere, ih fun e member => clean e (by simp [member])]
      simp [plain]

/-- Joined with separators, clean texts are the pieces of the whole, by induction on them.
-/
theorem splitWhere_intercalate {separates : Char → Bool} {c : Char}
    (separator : separates c) {pieces : List (List Char)} (nonempty : pieces ≠ [])
    (clean : ∀ piece ∈ pieces, Clean separates piece)
    : splitWhere separates ([c].intercalate pieces) = pieces := by
  induction pieces with
  | nil => exact absurd rfl nonempty
  | cons piece others ih =>
      rw [List.forall_mem_cons] at clean
      cases others with
      | nil => simpa using splitWhere_of_clean clean.1
      | cons second rest =>
          have later := ih (by simp) clean.2
          have joined : [c].intercalate (piece :: second :: rest)
              = piece ++ c :: [c].intercalate (second :: rest) := by
            simp
          rw [joined, splitWhere_append clean.1 separator, later]

/-- A text is clean or has a first separator. -/
theorem clean_or_first_separator (separates : Char → Bool) (text : List Char)
    : Clean separates text
      ∨ ∃ piece c rest, text = piece ++ c :: rest ∧ Clean separates piece ∧ separates c := by
  induction text with
  | nil => exact Or.inl (by simp [Clean])
  | cons d others ih =>
      cases separator : separates d with
      | true => exact Or.inr ⟨[], d, others, rfl, by simp [Clean], separator⟩
      | false =>
          rcases ih with clean | ⟨piece, c, rest, rfl, clean, first⟩
          · exact Or.inl (by simpa [Clean, separator] using clean)
          · exact Or.inr ⟨d :: piece, c, rest, rfl,
              by simpa [Clean, separator] using clean, first⟩

/-- What holds of clean texts, and of a text when it holds after its first separator, holds
of all texts.
-/
theorem cutInduction (separates : Char → Bool) {motive : List Char → Prop}
    (clean : ∀ piece, Clean separates piece → motive piece)
    (cut : ∀ piece c rest,
      Clean separates piece → separates c → motive rest → motive (piece ++ c :: rest))
    (text : List Char)
    : motive text := by
  rcases clean_or_first_separator separates text
    with whole | ⟨piece, c, rest, rfl, first, found⟩
  · exact clean text whole
  · exact cut piece c rest first found (cutInduction separates clean cut rest)
termination_by text.length
decreasing_by
  subst_vars
  simp only [List.length_append, List.length_cons]
  omega

-----------------------------------------------------------------------------------------
-- Words
-----------------------------------------------------------------------------------------

def AllBlank (text : List Char) : Prop :=
  ∀ c ∈ text, isBlank c = true

/-- A word is not empty and has no blanks. -/
structure IsWord (text : List Char) : Prop where
  nonempty : text ≠ []
  clean : Clean isBlank text

/-- Words in a row, with blanks between them and none around them. -/
inductive Row : List Char → List (List Char) → Prop where
  | last {word} (isWord : IsWord word) : Row word [word]
  | more {word gap rest words} (isWord : IsWord word) (nonempty : gap ≠ [])
    (blank : AllBlank gap) (row : Row rest words)
    : Row (word ++ gap ++ rest) (word :: words)

/-- A text with a row of words in it, between blanks. -/
def Holds (text : List Char) (words : List (List Char)) : Prop :=
  ∃ before body after,
    text = before ++ body ++ after ∧ AllBlank before ∧ AllBlank after ∧ Row body words

/-- Blanks in front of a text do not matter, by induction on them. -/
theorem words_blanks_append {gap : List Char} (blank : AllBlank gap) (rest : List Char)
    : words (gap ++ rest) = words rest := by
  induction gap with
  | nil => rfl
  | cons c others ih =>
      have separator : isBlank c = true := blank c (by simp)
      have later := ih fun d member => blank d (by simp [member])
      have cut : splitWhere isBlank (c :: (others ++ rest))
          = [] :: splitWhere isBlank (others ++ rest) :=
        splitWhere_append (List.forall_mem_nil _) separator (others ++ rest)
      rw [← later, List.cons_append, words, cut]
      simp [words]

/-- A word that ends the text, or stands before blanks, is the first one. -/
theorem words_word_append {word gap : List Char} (isWord : IsWord word) (blank : AllBlank gap)
    {rest : List Char} (apart : gap ≠ [] ∨ rest = [])
    : words (word ++ gap ++ rest) = word :: words rest := by
  have kept : word.isEmpty = false := by simpa using isWord.nonempty
  cases gap with
  | nil =>
      obtain rfl : rest = [] := by simpa using apart
      simp [words, splitWhere_of_clean isWord.clean, kept, splitWhere]
  | cons c others =>
      have separator : isBlank c = true := blank c (by simp)
      have later : AllBlank others := fun d member => blank d (by simp [member])
      have stripped := words_blanks_append later rest
      rw [← stripped, List.append_assoc, List.cons_append, words,
        splitWhere_append isWord.clean separator]
      simp [words, kept]

/-- The words of a row between blanks are those of the row, by induction on the row. -/
theorem words_of_holds {text : List Char} {found : List (List Char)} (holds : Holds text found)
    : words text = found := by
  obtain ⟨before, body, after, rfl, leading, trailing, row⟩ := holds
  rw [List.append_assoc, words_blanks_append leading]
  induction row with
  | last isWord =>
      have alone := words_word_append isWord trailing (Or.inr rfl)
      rw [List.append_nil] at alone
      rw [alone]
      rfl
  | more isWord nonempty blank row ih =>
      rw [List.append_assoc, words_word_append isWord blank (Or.inl nonempty), ih]

/-- A text without words is blank, and any other holds its words in a row, by induction on
its cuts.
-/
theorem holds_words (text : List Char)
    : AllBlank text ∧ words text = [] ∨ Holds text (words text) := by
  induction text using cutInduction isBlank with
  | clean piece clean =>
      cases piece with
      | nil => exact Or.inl ⟨List.forall_mem_nil _, rfl⟩
      | cons c others =>
          have isWord : IsWord (c :: others) := ⟨by simp, clean⟩
          have noGap : AllBlank [] := List.forall_mem_nil _
          have alone := words_word_append isWord noGap (Or.inr rfl)
          simp only [List.append_nil] at alone
          refine Or.inr ⟨[], c :: others, [], by simp, List.forall_mem_nil _,
            List.forall_mem_nil _, ?_⟩
          rw [alone]
          exact Row.last isWord
  | cut piece c rest clean separator ih =>
      have blank : AllBlank [c] := by simpa [AllBlank] using separator
      cases piece with
      | nil =>
          have stripped : words (c :: rest) = words rest := words_blanks_append blank rest
          rw [List.nil_append, stripped]
          rcases ih with ⟨allBlank, none⟩ | ⟨before, body, after, rfl, leading, trailing, row⟩
          · exact Or.inl ⟨by simpa [AllBlank, separator] using allBlank, none⟩
          · exact Or.inr ⟨c :: before, body, after, rfl,
              by simpa [AllBlank, separator] using leading, trailing, row⟩
      | cons d others =>
          have isWord : IsWord (d :: others) := ⟨by simp, clean⟩
          have first : words (d :: others ++ [c] ++ rest) = (d :: others) :: words rest :=
            words_word_append isWord blank (Or.inl (by simp))
          rw [List.append_assoc, List.singleton_append] at first
          rw [first]
          refine Or.inr ?_
          rcases ih with ⟨allBlank, none⟩ | ⟨before, body, after, rfl, leading, trailing, row⟩
          · rw [none]
            exact ⟨[], d :: others, c :: rest, by simp, List.forall_mem_nil _,
              by simpa [AllBlank, separator] using allBlank, Row.last isWord⟩
          · have gap : AllBlank (c :: before) := by simpa [AllBlank, separator] using leading
            exact ⟨[], d :: others ++ (c :: before) ++ body, after, by simp,
              List.forall_mem_nil _, trailing, Row.more isWord (by simp) gap row⟩

theorem Row.isWord {text : List Char} {words : List (List Char)} (row : Row text words)
    : ∀ word ∈ words, IsWord word := by
  induction row with
  | last isWord => simpa using isWord
  | more isWord _ _ _ ih => simpa using ⟨isWord, ih⟩

/-- The words of a text are words, since the text holds them in a row. -/
theorem isWord_of_mem_words {text word : List Char} (member : word ∈ words text)
    : IsWord word := by
  rcases holds_words text with ⟨_, none⟩ | ⟨_, _, _, _, _, _, row⟩
  · simp [none] at member
  · exact row.isWord word member

/-- Words with single spaces between them are a row, by induction on the words. -/
theorem row_intercalate {words : List (List Char)} (nonempty : words ≠ [])
    (areWords : ∀ word ∈ words, IsWord word)
    : Row ([' '].intercalate words) words := by
  induction words with
  | nil => exact absurd rfl nonempty
  | cons word others ih =>
      rw [List.forall_mem_cons] at areWords
      cases others with
      | nil => simpa using Row.last areWords.1
      | cons second rest =>
          have space : AllBlank [' '] := by simp [AllBlank]; decide
          simpa using Row.more areWords.1 (by simp) space (ih (by simp) areWords.2)

end Cadence.Text
