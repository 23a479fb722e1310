import Cadence.Proofs.Json.Trees

/-! The texts of a tree in JSON. Its tokens are written one after the other, texts in any
spelling, with any white space before, between and after them. These are exactly the texts
that are read as the tree.
-/

namespace Cadence.Json

-----------------------------------------------------------------------------------------
-- The texts of tokens
-----------------------------------------------------------------------------------------

/-- What a token is written as before the rest of a text, where a number has to end. -/
inductive Lexeme (rest : List Char) : List Char → Token → Prop where
  | mark {c : Char} {mark : Token} (isMark : Token.ofMark? c = some mark)
    : Lexeme rest [c] mark
  | null : Lexeme rest ['n', 'u', 'l', 'l'] (.leaf .null)
  | bool (value : Bool) : Lexeme rest (constant value) (.leaf (.bool value))
  | integer {value : Int} (bounded : Int64.minValue.toInt ≤ value ∧ value < UInt64.size)
      (ends : Numeral.Ends rest)
    : Lexeme rest (integer value) (.leaf (.integer value))
  | text {written : List Char} {value : String} (spells : Quoted.Spells written value)
    : Lexeme rest ('"' :: written ++ ['"']) (.text (some value))

/-- A text of some tokens, with any white space before, between and after them. -/
inductive Spaced : List Char → List Token → Prop where
  | done : Spaced [] []
  | space {c : Char} {rest : List Char} {tokens : List Token} (isSpace : Token.isSpace c)
      (later : Spaced rest tokens)
    : Spaced (c :: rest) tokens
  | token {written rest : List Char} {token : Token} {tokens : List Token}
      (lexeme : Lexeme rest written token) (later : Spaced rest tokens)
    : Spaced (written ++ rest) (token :: tokens)

namespace Token

/-- A token that some text is written for. -/
def IsWritten : Token → Prop
  | .text value => value.isSome
  | .leaf value => Writable value
  | .broken => False
  | _ => True

theorem scan_space {c : Char} (space : isSpace c) (rest : List Char)
    : scan (c :: rest) = scan rest := by
  rw [scan, space, if_pos rfl]

/-- What a token is written as is scanned as it. -/
theorem scan_lexeme {rest written : List Char} {token : Token}
    (lexeme : Lexeme rest written token)
    : scan (written ++ rest) = token :: scan rest := by
  cases lexeme with
  | mark isMark => exact scan_mark isMark rest
  | null => exact scan_value (by decide) (by decide) rfl
  | bool value =>
      cases value
      · exact scan_value (by decide) (by decide) rfl
      · exact scan_value (by decide) (by decide) rfl
  | integer bounded ends => exact scan_integer bounded ends
  | text spells =>
      rw [List.append_assoc]
      exact scan_spelled spells rest

/-- A number that can be written is an integer: the rest of them are floats, and numbers
that stand for nothing.
-/
theorem integer_of_writable {numeral : Numeral} (writable : Writable numeral.tree)
    : ∃ value, numeral.tree = .integer value := by
  unfold Numeral.tree at writable ⊢
  split
  · exact ⟨_, rfl⟩
  · split at writable
    · simp_all
    · split at writable <;> cases writable

/-- What is scanned as a token was written as it. -/
theorem exists_lexeme_of_value? {text rest : List Char} {token : Token}
    (scanned : value? text = some (token, rest)) (isWritten : token.IsWritten)
    : ∃ written, text = written ++ rest ∧ Lexeme rest written token := by
  unfold value? at scanned
  split at scanned
  · obtain ⟨rfl, rfl⟩ := Prod.mk.inj (Option.some.inj scanned)
    exact ⟨_, rfl, .null⟩
  · obtain ⟨rfl, rfl⟩ := Prod.mk.inj (Option.some.inj scanned)
    exact ⟨_, rfl, .bool true⟩
  · obtain ⟨rfl, rfl⟩ := Prod.mk.inj (Option.some.inj scanned)
    exact ⟨_, rfl, .bool false⟩
  · next quoted =>
    obtain ⟨⟨pieces, tail⟩, found, same⟩ := Option.map_eq_some_iff.mp scanned
    obtain ⟨rfl, rfl⟩ := Prod.mk.inj same
    obtain ⟨value, read⟩ := Option.isSome_iff_exists.mp isWritten
    obtain ⟨written, rfl, spells⟩ := Quoted.exists_scan?_iff.mp ⟨pieces, found, read⟩
    rw [read]
    exact ⟨'"' :: written ++ ['"'], by simp, .text spells⟩
  · obtain ⟨⟨numeral, tail⟩, found, same⟩ := Option.map_eq_some_iff.mp scanned
    obtain ⟨rfl, rfl⟩ := Prod.mk.inj same
    obtain ⟨value, read⟩ := integer_of_writable isWritten
    obtain ⟨written, ends, bounded⟩ := Numeral.eq_integer_of_scan? found read
    rw [read]
    exact ⟨integer value, written, .integer bounded ends⟩

/-- A text is scanned as some tokens exactly if it is one of theirs, by the induction of the
scanner and by that on the text.
-/
theorem scan_eq_iff {text : List Char} {tokens : List Token}
    (isWritten : ∀ token ∈ tokens, token.IsWritten)
    : scan text = tokens ↔ Spaced text tokens := by
  constructor
  · rintro rfl
    fun_induction scan text with
    | case1 => exact .done
    | case2 c rest space ih => exact .space space (ih isWritten)
    | case3 c rest _ mark isMark ih =>
        rw [List.forall_mem_cons] at isWritten
        exact .token (.mark isMark) (ih isWritten.2)
    | case4 c rest _ _ token tail scanned ih =>
        rw [List.forall_mem_cons] at isWritten
        obtain ⟨written, same, lexeme⟩ := exists_lexeme_of_value? scanned isWritten.1
        rw [same]
        exact .token lexeme (ih isWritten.2)
    | case5 => exact (isWritten .broken (by simp)).elim
  · intro spaced
    induction spaced with
    | done => rw [scan]
    | space space _ ih => rw [scan_space space, ih isWritten]
    | token lexeme _ ih =>
        rw [List.forall_mem_cons] at isWritten
        rw [scan_lexeme lexeme, ih isWritten.2]

/-- A mark is neither a constant nor a number. -/
theorem ofMark?_ne_leaf (c : Char) (value : Tree) : ofMark? c ≠ some (.leaf value) := by
  unfold ofMark?
  split <;> simp

/-- A scanned constant or number is its own only token, if it can be written. -/
theorem tokens_of_leaf_mem_scan {text : List Char} {value : Tree}
    (member : .leaf value ∈ scan text) (writable : Writable value)
    : tokens value = [.leaf value] := by
  fun_induction scan text with
  | case1 => cases member
  | case2 c rest space ih => exact ih member
  | case3 c rest _ mark isMark ih =>
      rcases List.mem_cons.mp member with rfl | later
      · exact absurd isMark (ofMark?_ne_leaf c value)
      · exact ih later
  | case4 c rest _ _ token tail scanned ih =>
      rcases List.mem_cons.mp member with rfl | later
      · obtain ⟨written, _, lexeme⟩ := exists_lexeme_of_value? scanned writable
        cases lexeme with
        | mark isMark => exact absurd isMark (ofMark?_ne_leaf _ value)
        | null => rfl
        | bool value => rfl
        | integer bounded ends => rfl
      · exact ih later
  | case5 => simp at member

end Token

-----------------------------------------------------------------------------------------
-- The tokens of trees
-----------------------------------------------------------------------------------------

theorem writable_list_iff {items : List Tree} {closed : Bool}
    : Writable (.list items closed) ↔ closed = true ∧ ∀ item ∈ items, Writable item := by
  constructor
  · intro writable
    cases writable with
    | list each => exact ⟨rfl, each⟩
  · rintro ⟨rfl, each⟩
    exact .list each

/-- A member with a name and a value that can be written. -/
def IsMember (member : Option String × Tree) : Prop :=
  member.1.isSome ∧ Writable member.2

theorem writable_table_iff {members : List (Option String × Tree)} {closed : Bool}
    : Writable (.table members closed) ↔ closed = true ∧ ∀ member ∈ members, IsMember member := by
  constructor
  · intro writable
    generalize same : Tree.table members closed = tree at writable
    cases writable with
    | table each =>
        rw [named_eq] at same
        obtain ⟨rfl, rfl⟩ := Tree.table.inj same
        refine ⟨rfl, ?_⟩
        rw [List.forall_mem_map]
        exact fun member present => ⟨rfl, each member present⟩
    | _ => cases same
  · rintro ⟨rfl, each⟩
    have named
        : members = (members.map fun member => (member.1.getD "", member.2)).map memberOf := by
      rw [List.map_map]
      refine (List.map_id' _).symm.trans (List.map_congr_left fun member present => ?_)
      obtain ⟨name, hasName⟩ := Option.isSome_iff_exists.mp (each member present).1
      simp [memberOf, hasName, Prod.ext_iff]
    rw [named, ← named_eq]
    apply Writable.table
    rw [List.forall_mem_map]
    exact fun member present => (each member present).2

/-- The tokens of items that others follow. -/
def itemFront (items : List Tree) : List Token :=
  items.flatMap fun item => tokens item ++ [.comma]

/-- The tokens of members that others follow. -/
def memberFront (members : List (Option String × Tree)) : List Token :=
  members.flatMap fun member => .text member.1 :: .colon :: tokens member.2 ++ [.comma]

/-- Before the last item stand all others, by induction on these. -/
theorem itemTokens_concat (items : List Tree) (last : Tree)
    : itemTokens (items ++ [last]) = itemFront items ++ tokens last := by
  induction items with
  | nil => simp [itemTokens, itemFront]
  | cons item items ih =>
      rw [List.cons_append, itemTokens, ih]
      · simp [itemFront]
      · simp

/-- Before the last member stand all others, by induction on these. -/
theorem memberTokens_concat (members : List (Option String × Tree)) (key : Option String)
    (value : Tree)
    : memberTokens (members ++ [(key, value)])
      = memberFront members ++ .text key :: .colon :: tokens value := by
  induction members with
  | nil => simp [memberTokens, memberFront]
  | cons member members ih =>
      rw [List.cons_append, memberTokens, ih]
      · simp [memberFront]
      · simp

/-- The tokens of a tree that can be written are written, by induction on it; those of items
and members are looked up from the last one on.
-/
theorem isWritten_of_mem_tokens {tree : Tree} (writable : Writable tree)
    : ∀ token ∈ tokens tree, token.IsWritten := by
  induction writable with
  | null => simp [tokens, Token.IsWritten, Writable.null]
  | bool value => simp [tokens, Token.IsWritten, Writable.bool]
  | integer bounded => simp [tokens, Token.IsWritten, Writable.integer bounded]
  | text value => simp [tokens, Token.IsWritten]
  | @list items each ih =>
      have inner : ∀ token ∈ itemTokens items, token.IsWritten := by
        rcases List.eq_nil_or_concat items with rfl | ⟨front, last, rfl⟩
        · simp [itemTokens]
        · rw [List.concat_eq_append] at ih ⊢
          rw [itemTokens_concat]
          simp only [itemFront, List.mem_append, List.mem_flatMap, List.mem_singleton]
          rintro token (⟨item, present, inItem | rfl⟩ | inLast)
          · exact ih item (by simp [present]) token inItem
          · trivial
          · exact ih last (by simp) token inLast
      simp only [tokens, if_true, List.mem_append, List.mem_cons, List.not_mem_nil, or_false]
      rintro token ((rfl | inItems) | rfl)
      · trivial
      · exact inner token inItems
      · trivial
  | @table members each ih =>
      have inner : ∀ token ∈ memberTokens (members.map memberOf), token.IsWritten := by
        rcases List.eq_nil_or_concat members with rfl | ⟨front, ⟨key, value⟩, rfl⟩
        · simp [memberTokens]
        · rw [List.concat_eq_append] at ih ⊢
          rw [List.map_append, List.map_singleton, memberOf, memberTokens_concat]
          simp only [memberFront, List.flatMap_map, List.mem_append, List.mem_flatMap,
            List.mem_cons, List.not_mem_nil, or_false]
          rintro token (⟨member, present, (rfl | rfl | inValue) | rfl⟩ | rfl | rfl | inLast)
          · rfl
          · trivial
          · exact ih member (by simp [present]) token inValue
          · trivial
          · rfl
          · trivial
          · exact ih (key, value) (by simp) token inLast
      simp only [named_eq, tokens, if_true, List.mem_append, List.mem_cons, List.not_mem_nil,
        or_false]
      rintro token ((rfl | inMembers) | rfl)
      · trivial
      · exact inner token inMembers
      · trivial

-----------------------------------------------------------------------------------------
-- What is read as a tree
-----------------------------------------------------------------------------------------

/-- What is in a frame can be written. -/
def Frame.IsWritten : Frame → Prop
  | .list items => ∀ item ∈ items, Writable item
  | .table members key => (∀ member ∈ members, IsMember member) ∧ key.isSome

/-- The tokens before the present place inside some frames. -/
def opened : List Frame → List Token
  | [] => []
  | .list items :: frames => opened frames ++ .openList :: itemFront items.reverse
  | .table members key :: frames =>
    opened frames ++ .openTable :: memberFront members.reverse ++ [.text key, .colon]

/-- A text that stops inside some frames is not that of any tree. -/
theorem not_writable_abandon {inner : Tree} (notInner : ¬ Writable inner)
    (frames : List Frame)
    : ¬ Writable (abandon frames inner) := by
  induction frames generalizing inner with
  | nil => exact notInner
  | cons frame frames ih =>
      cases frame with
      | list items => exact ih (by simp [writable_list_iff])
      | table members key => exact ih (by simp [writable_table_iff])

/-- A tree that was read inside some frames, and what was left: the frames can be written,
and the tokens were those of the tree and then the rest.
-/
structure IsRead (frames : List Frame) (ahead : List Token) (result : Tree × List Token)
    : Prop where
  written : ∀ frame ∈ frames, frame.IsWritten
  tokens : opened frames ++ ahead = Json.tokens result.1 ++ result.2

-- What is read behind a token is read from the token on, with less in the frames.
namespace IsRead

variable {frames : List Frame} {items : List Tree} {members : List (Option String × Tree)}
  {key : Option String} {value : Tree} {rest : List Token} {result : Tree × List Token}

theorem openList (read : IsRead (.list [] :: frames) rest result)
    : IsRead frames (.openList :: rest) result where
  written := (List.forall_mem_cons.mp read.written).2
  tokens := by simpa [opened, itemFront] using read.tokens

theorem nextItem (read : IsRead (.list (value :: items) :: frames) rest result)
    : Writable value
      ∧ IsRead (.list items :: frames) (Json.tokens value ++ .comma :: rest) result := by
  obtain ⟨written, same⟩ := read
  simp only [List.forall_mem_cons, Frame.IsWritten] at written
  refine ⟨written.1.1, List.forall_mem_cons.mpr ⟨written.1.2, written.2⟩, ?_⟩
  simpa [opened, itemFront] using same

theorem closeList (whole : Writable (.list (value :: items).reverse true))
    (read : IsRead frames (Json.tokens (.list (value :: items).reverse true) ++ rest) result)
    : Writable value
      ∧ IsRead (.list items :: frames) (Json.tokens value ++ .closeList :: rest) result := by
  obtain ⟨written, same⟩ := read
  obtain ⟨_, each⟩ := writable_list_iff.mp whole
  simp only [List.mem_reverse, List.forall_mem_cons] at each
  refine ⟨each.1, List.forall_mem_cons.mpr ⟨each.2, written⟩, ?_⟩
  rw [Json.tokens, List.reverse_cons, itemTokens_concat] at same
  simpa [opened] using same

theorem memberKey (read : IsRead (.table members key :: frames) rest result)
    : (∀ member ∈ members, IsMember member)
      ∧ IsRead frames
          (.openTable :: memberFront members.reverse ++ .text key :: .colon :: rest) result := by
  obtain ⟨written, same⟩ := read
  rw [List.forall_mem_cons] at written
  refine ⟨written.1.1, written.2, ?_⟩
  simpa [opened] using same

theorem nextMember (each : ∀ member ∈ (key, value) :: members, IsMember member)
    (read : IsRead frames (.openTable :: memberFront ((key, value) :: members).reverse ++ rest)
      result)
    : Writable value
      ∧ IsRead (.table members key :: frames) (Json.tokens value ++ .comma :: rest) result := by
  obtain ⟨written, same⟩ := read
  simp only [List.forall_mem_cons, IsMember] at each
  refine ⟨each.1.2, List.forall_mem_cons.mpr ⟨⟨each.2, each.1.1⟩, written⟩, ?_⟩
  simpa [opened, memberFront] using same

theorem closeTable (whole : Writable (.table ((key, value) :: members).reverse true))
    (read : IsRead frames
      (Json.tokens (.table ((key, value) :: members).reverse true) ++ rest) result)
    : Writable value
      ∧ IsRead (.table members key :: frames) (Json.tokens value ++ .closeTable :: rest)
          result := by
  obtain ⟨written, same⟩ := read
  obtain ⟨_, each⟩ := writable_table_iff.mp whole
  simp only [List.mem_reverse, List.forall_mem_cons, IsMember] at each
  refine ⟨each.1.2, List.forall_mem_cons.mpr ⟨⟨each.2, each.1.1⟩, written⟩, ?_⟩
  rw [Json.tokens, List.reverse_cons, memberTokens_concat] at same
  simpa [opened] using same

end IsRead

/-- The constants and numbers among some tokens that can be written are their own tokens. -/
def AreLeaves (ahead : List Token) : Prop :=
  ∀ value, .leaf value ∈ ahead → Writable value → Json.tokens value = [.leaf value]

theorem AreLeaves.tail {token : Token} {ahead : List Token} (leaves : AreLeaves (token :: ahead))
    : AreLeaves ahead :=
  fun value member => leaves value (List.mem_cons_of_mem token member)

/-- What is read as a tree that can be written has its tokens, by the induction of the reader
with one statement for each of its parts; where the text stops early, the tree could not be
written.
-/
theorem isRead_of_writable
    : (∀ frames ahead,
        AreLeaves ahead
        → Writable (readValue frames ahead).1
        → IsRead frames ahead (readValue frames ahead))
      ∧ (∀ frames members ahead,
          AreLeaves ahead
          → Writable (readKey frames members ahead).1
          → (∀ member ∈ members, IsMember member)
            ∧ IsRead frames (.openTable :: memberFront members.reverse ++ ahead)
                (readKey frames members ahead))
      ∧ ∀ frames value ahead,
          AreLeaves ahead
          → Writable (finish frames value ahead).1
          → Writable value
            ∧ IsRead frames (tokens value ++ ahead) (finish frames value ahead) := by
  have fault : ¬ Writable .fault := nofun
  have openList (items : List Tree) : ¬ Writable (.list items false) := by
    simp [writable_list_iff]
  have openTable (members : List (Option String × Tree)) : ¬ Writable (.table members false) := by
    simp [writable_table_iff]
  apply readValue.mutual_induct
  case case1 =>
    intro frames value rest ih leaves writable
    rw [readValue] at writable ⊢
    exact (ih leaves.tail writable).2
  case case2 =>
    intro frames rest ih leaves writable
    rw [readValue] at writable
    cases (ih leaves.tail writable).1
  case case3 =>
    intro frames value rest ih leaves writable
    rw [readValue] at writable ⊢
    obtain ⟨written, read⟩ := ih leaves.tail writable
    rwa [leaves value (by simp) written] at read
  case case4 =>
    intro frames rest ih leaves writable
    rw [readValue] at writable ⊢
    exact (ih leaves.tail.tail writable).2
  case case5 =>
    intro frames rest other ih leaves writable
    have step : readValue frames (.openList :: rest) = readValue (.list [] :: frames) rest := by
      rw [readValue]
      exact other
    rw [step] at writable ⊢
    exact (ih leaves.tail writable).openList
  case case6 =>
    intro frames rest ih leaves writable
    rw [readValue] at writable ⊢
    exact (ih leaves.tail.tail writable).2
  case case7 =>
    intro frames rest other ih leaves writable
    have step : readValue frames (.openTable :: rest) = readKey frames [] rest := by
      rw [readValue]
      exact other
    rw [step] at writable ⊢
    exact (ih leaves.tail writable).2
  case case8 =>
    intro ahead frames _ _ _ _ _ _ _ _ writable
    have step : readValue frames ahead = (abandon frames .fault, []) := by
      rw [readValue]
      all_goals assumption
    rw [step] at writable
    exact absurd writable (not_writable_abandon fault frames)
  case case9 =>
    intro frames members key rest ih leaves writable
    rw [readKey] at writable ⊢
    exact (ih leaves.tail.tail writable).memberKey
  case case10 =>
    intro frames members key rest other leaves writable
    have step : readKey frames members (.text key :: rest)
        = (abandon (.table members key :: frames) .fault, []) := by
      rw [readKey]
      exact other
    rw [step] at writable
    exact absurd writable (not_writable_abandon fault _)
  case case11 =>
    intro ahead frames members _ _ _ writable
    have step : readKey frames members ahead
        = (abandon frames (.table members.reverse false), []) := by
      rw [readKey]
      all_goals assumption
    rw [step] at writable
    exact absurd writable (not_writable_abandon (openTable _) frames)
  case case12 =>
    intro ahead value leaves writable
    rw [finish] at writable ⊢
    exact ⟨writable, by simp, by simp [opened]⟩
  case case13 =>
    intro value items frames rest ih leaves writable
    rw [finish] at writable ⊢
    exact (ih leaves.tail writable).nextItem
  case case14 =>
    intro value items frames rest ih leaves writable
    rw [finish] at writable ⊢
    obtain ⟨whole, read⟩ := ih leaves.tail writable
    exact read.closeList whole
  case case15 =>
    intro ahead value items frames _ _ _ writable
    have step : finish (.list items :: frames) value ahead
        = (abandon frames (.list (value :: items).reverse false), []) := by
      rw [finish]
      all_goals assumption
    rw [step] at writable
    exact absurd writable (not_writable_abandon (openList _) frames)
  case case16 =>
    intro value members key frames rest ih leaves writable
    rw [finish] at writable ⊢
    obtain ⟨each, read⟩ := ih leaves.tail writable
    exact read.nextMember each
  case case17 =>
    intro value members key frames rest ih leaves writable
    rw [finish] at writable ⊢
    obtain ⟨whole, read⟩ := ih leaves.tail writable
    exact read.closeTable whole
  case case18 =>
    intro ahead value members key frames _ _ _ writable
    have step : finish (.table members key :: frames) value ahead
        = (abandon frames (.table ((key, value) :: members).reverse false), []) := by
      rw [finish]
      all_goals assumption
    rw [step] at writable
    exact absurd writable (not_writable_abandon (openTable _) frames)

/-- A text is read as a value if it is the text of a whole tree, and this is read as it. -/
theorem parse_eq_ok_iff {α : Type} {read : Tree → Except Problem α} {text : String} {value : α}
    : parse read text = .ok value
      ↔ ∃ tree, readValue [] (Token.scan text.toList) = (tree, []) ∧ read tree = .ok value := by
  rw [parse]
  obtain ⟨tree, rest⟩ := readValue [] (Token.scan text.toList)
  cases found : read tree with
  | error problem => simp [found, bind, Except.bind]
  | ok other => cases rest <;> simp [found, bind, Except.bind]

/-- A text is that of a whole tree that can be written exactly if it is one of the texts of
its tokens.
-/
theorem readValue_eq_iff_spaced {tree : Tree} (writable : Writable tree) {text : List Char}
    : readValue [] (Token.scan text) = (tree, []) ↔ Spaced text (tokens tree) := by
  rw [← Token.scan_eq_iff (isWritten_of_mem_tokens writable)]
  constructor
  · intro read
    have leaves : AreLeaves (Token.scan text) := fun value member =>
      Token.tokens_of_leaf_mem_scan member
    have found := isRead_of_writable.1 [] (Token.scan text) leaves
    rw [read] at found
    simpa [opened] using (found writable).tokens
  · intro scanned
    have found := readValue_tokens writable [] []
    rwa [List.append_nil, finish, ← scanned] at found

end Cadence.Json
