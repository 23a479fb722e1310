import Cadence.Json.Reader
import Cadence.Json.Writer
import Cadence.Proofs.Json.Numerals
import Cadence.Proofs.Json.Quoted

/-! Trees are read back from their texts. The text of a tree is scanned as its tokens, and
these are read as the tree inside any frames that are open. So it makes no difference to
what is read whether a tree is passed on as it is or through its text.
-/

namespace Cadence.Json

/-- A tree with a whole text that says what it is: its integers fit a word, and all members
have names.
-/
inductive Writable : Tree → Prop where
  | null : Writable .null
  | bool (value : Bool) : Writable (.bool value)
  | integer {value : Int} (bounded : Int64.minValue.toInt ≤ value ∧ value < UInt64.size)
    : Writable (.integer value)
  | text (value : String) : Writable (.text value)
  | list {items : List Tree} (each : ∀ item ∈ items, Writable item)
    : Writable (.list items true)
  | table {members : List (String × Tree)} (each : ∀ member ∈ members, Writable member.2)
    : Writable (.named members)

/-- Words are integers that can be written. -/
theorem Writable.word (word : UInt64) : Writable (.integer word.toNat) :=
  .integer ⟨Int.le_trans (by decide) (Int.natCast_nonneg _), Int.ofNat_lt.mpr word.toNat_lt⟩

mutual

/-- The tokens of a tree. -/
def tokens : Tree → List Token
  | .null => [.leaf .null]
  | .bool value => [.leaf (.bool value)]
  | .integer value => [.leaf (.integer value)]
  | .real value => [.leaf (.real value)]
  | .text value => [.text (some value)]
  | .list items closed =>
    .openList :: itemTokens items ++ if closed then [.closeList] else []
  | .table members closed =>
    .openTable :: memberTokens members ++ if closed then [.closeTable] else []
  | .unreadable | .fault => []

def itemTokens : List Tree → List Token
  | [] => []
  | [item] => tokens item
  | item :: items => tokens item ++ .comma :: itemTokens items

def memberTokens : List (Option String × Tree) → List Token
  | [] => []
  | [(key, value)] => .text key :: .colon :: tokens value
  | (key, value) :: members =>
    .text key :: .colon :: tokens value ++ .comma :: memberTokens members

end

/-- A member under its name. -/
def memberOf (member : String × Tree) : Option String × Tree :=
  (some member.1, member.2)

theorem named_eq (members : List (String × Tree))
    : Tree.named members = .table (members.map memberOf) true :=
  rfl

-----------------------------------------------------------------------------------------
-- Scanning single tokens
-----------------------------------------------------------------------------------------

namespace Token

/-- A mark is scanned by itself. -/
theorem scan_mark {c : Char} {mark : Token} (isMark : ofMark? c = some mark)
    (rest : List Char)
    : scan (c :: rest) = mark :: scan rest := by
  have notSpace : isSpace c = false := by
    unfold ofMark? at isMark
    split at isMark <;> simp_all [isSpace]
  rw [scan, notSpace, if_neg (by simp)]
  simp only [isMark]

/-- What is neither a space nor a mark is scanned as a value. -/
theorem scan_value {c : Char} {rest tail : List Char} {token : Token}
    (notSpace : isSpace c = false) (noMark : ofMark? c = none)
    (value : value? (c :: rest) = some (token, tail))
    : scan (c :: rest) = token :: scan tail := by
  rw [scan, notSpace, if_neg (by simp)]
  simp only [noMark]
  split
  · next found =>
    rw [value] at found
    obtain ⟨rfl, rfl⟩ := Prod.mk.inj (Option.some.inj found)
    rfl
  · next none => simp [value] at none

/-- A text between quotes is scanned as its token, however it is spelled. -/
theorem scan_spelled {written : List Char} {text : String}
    (spells : Quoted.Spells written text) (rest : List Char)
    : scan ('"' :: written ++ '"' :: rest) = .text (some text) :: scan rest := by
  obtain ⟨pieces, scanned, read⟩
      : ∃ pieces,
          Quoted.scan? (written ++ '"' :: rest) = some (pieces, rest)
          ∧ Quoted.text? pieces = some text :=
    Quoted.exists_scan?_iff.mpr ⟨written, rfl, spells⟩
  have value : value? ('"' :: (written ++ '"' :: rest)) = some (.text (some text), rest) := by
    simp only [value?, scanned, Option.map_some, read]
  exact scan_value (by decide) (by decide) value

/-- A quoted text is scanned as its token. -/
theorem scan_write (text : String) (rest : List Char)
    : scan (Quoted.write text ++ rest) = .text (some text) :: scan rest := by
  have scanned := scan_spelled (Quoted.spells_flatMap_escape text) rest
  simpa [Quoted.write] using scanned

/-- What starts like a number is neither a space nor a mark, and scanned as a number. -/
theorem value?_of_number {c : Char} (head : c.isDigit ∨ c = '-') (rest : List Char)
    : isSpace c = false
      ∧ ofMark? c = none
      ∧ value? (c :: rest)
        = (Numeral.scan? (c :: rest)).map fun (numeral, tail) =>
            (.leaf numeral.tree, tail) := by
  have other (mark : Char) (noDigit : mark.isDigit = false) (noSign : mark ≠ '-')
      : c ≠ mark := by
    rintro rfl
    simp [noDigit, noSign] at head
  refine ⟨?_, ?_, ?_⟩
  · simp [isSpace, other]
  · unfold ofMark?
    split
    all_goals simp_all
  · unfold value?
    split
    all_goals simp_all

/-- An integer is scanned as its token, up to where it ends. -/
theorem scan_integer {value : Int}
    (bounded : Int64.minValue.toInt ≤ value ∧ value < UInt64.size) {rest : List Char}
    (ends : Numeral.Ends rest)
    : scan (integer value ++ rest) = .leaf (.integer value) :: scan rest := by
  obtain ⟨numeral, scanned, read⟩ := Numeral.scan?_integer bounded ends
  obtain ⟨c, tail, front, head⟩ := Numeral.exists_integer_eq_cons value
  rw [front, List.cons_append] at scanned ⊢
  obtain ⟨notSpace, noMark, found⟩ := value?_of_number head (tail ++ rest)
  apply scan_value notSpace noMark
  simp only [found, scanned, Option.map_some, read]

end Token

-----------------------------------------------------------------------------------------
-- Scanning trees
-----------------------------------------------------------------------------------------

/-- A tree whose text is scanned as its tokens, where no number goes on. -/
def ScansAs (tree : Tree) : Prop :=
  ∀ rest,
    Numeral.Ends rest → Token.scan (compact tree ++ rest) = tokens tree ++ Token.scan rest

/-- Items between commas are scanned one by one, by induction on them. -/
theorem scan_compactItems {items : List Tree} (each : ∀ item ∈ items, ScansAs item)
    {rest : List Char} (ends : Numeral.Ends rest)
    : Token.scan (compactItems items ++ rest) = itemTokens items ++ Token.scan rest := by
  induction items with
  | nil => rfl
  | cons item items ih =>
      rw [List.forall_mem_cons] at each
      cases items with
      | nil => exact each.1 rest ends
      | cons second others =>
          rw [compactItems, itemTokens, List.append_assoc, List.cons_append,
            each.1 _ (by simp [Numeral.Ends]), Token.scan_mark rfl, ih each.2]
          · simp
          · simp
          · simp

/-- A name and a colon are scanned before the value of a member. -/
theorem scan_name (key : String) (rest : List Char)
    : Token.scan (name (some key) ++ ':' :: rest)
      = .text (some key) :: .colon :: Token.scan rest := by
  rw [name, Option.elim_some, Token.scan_write, Token.scan_mark rfl]

/-- Members between commas are scanned one by one, by induction on them. -/
theorem scan_compactMembers {members : List (String × Tree)}
    (each : ∀ member ∈ members, ScansAs member.2) {rest : List Char}
    (ends : Numeral.Ends rest)
    : Token.scan (compactMembers (members.map memberOf) ++ rest)
      = memberTokens (members.map memberOf) ++ Token.scan rest := by
  induction members with
  | nil => rfl
  | cons member members ih =>
      rw [List.forall_mem_cons] at each
      cases members with
      | nil =>
          simp only [List.map_cons, List.map_nil, memberOf, compactMembers, memberTokens,
            List.append_assoc, List.cons_append, scan_name, each.1 rest ends]
      | cons second others =>
          have comma : Numeral.Ends
              (',' :: (compactMembers ((second :: others).map memberOf) ++ rest)) := by
            simp [Numeral.Ends]
          rw [List.map_cons, memberOf, compactMembers, memberTokens]
          · simp only [List.append_assoc, List.cons_append, scan_name, each.1 _ comma,
              Token.scan_mark (c := ',') rfl, ih each.2]
          · simp
          · simp

/-- The text of a tree is scanned as its tokens, by induction on the tree; commas and
closing marks end the numbers before them.
-/
theorem scan_compact {tree : Tree} (writable : Writable tree) : ScansAs tree := by
  induction writable with
  | null =>
      intro rest _
      exact Token.scan_value (by decide) (by decide) rfl
  | bool value =>
      intro rest _
      cases value
      · exact Token.scan_value (by decide) (by decide) rfl
      · exact Token.scan_value (by decide) (by decide) rfl
  | integer bounded => exact fun rest => Token.scan_integer bounded
  | text value => exact fun rest _ => Token.scan_write value rest
  | list each ih =>
      intro rest _
      have ends : Numeral.Ends (']' :: rest) := by simp [Numeral.Ends]
      have items := scan_compactItems ih ends
      simp [compact, tokens, Token.scan_mark (c := '[') rfl, items,
        Token.scan_mark (c := ']') rfl]
  | table each ih =>
      intro rest _
      have ends : Numeral.Ends ('\x7d' :: rest) := by simp [Numeral.Ends]
      have members := scan_compactMembers ih ends
      simp [named_eq, compact, tokens, Token.scan_mark (c := '\x7b') rfl, members,
        Token.scan_mark (c := '\x7d') rfl]

-----------------------------------------------------------------------------------------
-- Reading
-----------------------------------------------------------------------------------------

/-- A tree whose tokens are read as it, inside any frames. -/
def ReadsAs (tree : Tree) : Prop :=
  ∀ frames rest, readValue frames (tokens tree ++ rest) = finish frames tree rest

/-- Items between commas are read one by one, by induction on them. -/
theorem readValue_itemTokens {item : Tree} {items : List Tree}
    (each : ∀ other ∈ item :: items, ReadsAs other) (done : List Tree)
    (frames : List Frame) (rest : List Token)
    : readValue (.list done :: frames) (itemTokens (item :: items) ++ .closeList :: rest)
      = finish frames (.list (done.reverse ++ item :: items) true) rest := by
  induction items generalizing item done with
  | nil =>
      rw [itemTokens, each item (by simp), finish]
      simp
  | cons second others ih =>
      rw [List.forall_mem_cons] at each
      rw [itemTokens, List.append_assoc, List.cons_append, each.1, finish, ih each.2]
      · simp
      · simp

/-- Members between commas are read one by one, by induction on them. -/
theorem readKey_memberTokens {member : String × Tree} {members : List (String × Tree)}
    (each : ∀ other ∈ member :: members, ReadsAs other.2)
    (done : List (Option String × Tree)) (frames : List Frame) (rest : List Token)
    : readKey frames done (memberTokens ((member :: members).map memberOf)
          ++ .closeTable :: rest)
      = finish frames (.table (done.reverse ++ (member :: members).map memberOf) true)
          rest := by
  induction members generalizing member done with
  | nil =>
      simp only [List.map_cons, List.map_nil, memberOf, memberTokens, List.cons_append]
      rw [readKey, each member (by simp), finish]
      simp
  | cons second others ih =>
      rw [List.forall_mem_cons] at each
      rw [List.map_cons, memberOf, memberTokens]
      · simp only [List.append_assoc, List.cons_append]
        rw [readKey, each.1, finish, ih each.2]
        simp [memberOf]
      · simp

/-- The tokens of items do not start with a closing mark, since those of a tree do not. -/
theorem itemTokens_ne_closeList {item : Tree} (writable : Writable item)
    (items : List Tree) (rest others : List Token)
    : itemTokens (item :: items) ++ rest ≠ .closeList :: others := by
  have front : ∃ first tail, tokens item = first :: tail ∧ first ≠ .closeList := by
    cases writable with
    | null => exact ⟨_, _, rfl, by simp⟩
    | bool => exact ⟨_, _, rfl, by simp⟩
    | integer => exact ⟨_, _, rfl, by simp⟩
    | text => exact ⟨_, _, rfl, by simp⟩
    | list => exact ⟨_, _, rfl, by simp⟩
    | table => exact ⟨_, _, rfl, by simp⟩
  obtain ⟨first, tail, starts, other⟩ := front
  cases items with
  | nil => simp [itemTokens, starts, other]
  | cons second items => simp [itemTokens, starts, other]

/-- The tokens of a tree are read as the tree, by induction on it. -/
theorem readValue_tokens {tree : Tree} (writable : Writable tree) : ReadsAs tree := by
  induction writable with
  | null => intro frames rest; rw [tokens, List.singleton_append, readValue]
  | bool value => intro frames rest; rw [tokens, List.singleton_append, readValue]
  | integer bounded => intro frames rest; rw [tokens, List.singleton_append, readValue]
  | text value => intro frames rest; rw [tokens, List.singleton_append, readValue]
  | @list items each ih =>
      intro frames rest
      cases items with
      | nil => rw [tokens]; simp [itemTokens, readValue]
      | cons item items =>
          have opened := itemTokens_ne_closeList (each item (by simp)) items
            (.closeList :: rest)
          have inner := readValue_itemTokens ih [] frames rest
          simp only [tokens, if_true, List.cons_append, List.append_assoc, List.nil_append]
          rw [readValue, inner]
          · rfl
          · exact opened
  | @table members each ih =>
      intro frames rest
      cases members with
      | nil => rw [named_eq, tokens]; simp [memberTokens, readValue]
      | cons member members =>
          have inner := readKey_memberTokens ih [] frames rest
          simp only [named_eq, tokens, if_true, List.cons_append, List.append_assoc,
            List.nil_append]
          rw [readValue, inner]
          · rfl
          · intro others
            cases members <;> simp [memberOf, memberTokens]

/-- Reading the text of a tree is reading the tree. -/
theorem parse_write {α : Type} {tree : Tree} (writable : Writable tree)
    (read : Tree → Except Problem α)
    : parse read (write tree) = read tree := by
  have scanned := scan_compact writable [] trivial
  have found := readValue_tokens writable [] []
  simp only [Token.scan, List.append_nil] at scanned
  rw [List.append_nil, finish] at found
  simp only [parse, write, String.toList_ofList, scanned, found]
  cases read tree with
  | error problem => rfl
  | ok value => rfl

end Cadence.Json
