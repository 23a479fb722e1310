import Cadence.Toml.Document
import Cadence.Toml.Scalar
import Cadence.Toml.Token

/-!
TOML texts as trees: tables and lists of tables under headers, and keys with texts, numbers,
constants, lists and tables on one line. Dates are not read.
-/

namespace Cadence.Toml

/-- The tables so far, and the path of the header above the present line. -/
structure Document where
  entries : Entries
  path : List String

namespace Document

def empty : Document :=
  ⟨[], []⟩

def openTable? (document : Document) (path : List String) : Option Document :=
  (document.entries.openTable path).map (⟨·, path⟩)

def openElement? (document : Document) (path : List String) : Option Document :=
  (document.entries.openElement path).map (⟨·, path⟩)

def assign? (document : Document) (key : List String) (value : Tree) : Option Document :=
  (document.entries.within (Entries.assign value key) document.path).map (⟨·, document.path⟩)

def tree (document : Document) : Tree :=
  .named (treesOf document.entries)

end Document

/-- The table on one line that has some members. -/
def inlineTable? (members : List (List String × Tree)) : Option Tree := do
  let entries ← members.foldlM (fun entries (key, value) => Entries.assign value key entries) []
  some (.named (treesOf entries))

/-- A value that is being read; its parts so far are in reverse order. -/
inductive Frame where
  | list (items : List Tree)
  | table (members : List (List String × Tree)) (key : List String)

/-- A line that gives a value to a key: the document before it, the key, and what is open. -/
structure Line where
  document : Document
  key : List String
  frames : List Frame

/-- What a key is read for. -/
inductive Purpose where
  | header (document : Document)
  | element (document : Document)
  | line (document : Document)
  | member (line : Line) (members : List (List String × Tree))

/-- The name that a word spells. -/
def bareKey? (letters : List Char) : Option String :=
  if letters.all fun c => c.isAlphanum || c == '_' || c == '-' then
    some (String.ofList letters)
  else none

mutual

/-- Reads lines. -/
def readLines (document : Document) : List Token → Option Document
  | [] => some document
  | .newline :: rest => readLines document rest
  | .openList true :: .openList _ :: .word letters :: rest => do
    readKey (.element document) [← bareKey? letters] rest
  | .openList true :: .openList _ :: .text letters :: rest =>
    readKey (.element document) [String.ofList letters] rest
  | .openList _ :: .word letters :: rest => do
    readKey (.header document) [← bareKey? letters] rest
  | .openList _ :: .text letters :: rest =>
    readKey (.header document) [String.ofList letters] rest
  | .word letters :: rest => do
    readKey (.line document) [← bareKey? letters] rest
  | .text letters :: rest => readKey (.line document) [String.ofList letters] rest
  | _ => none

/-- Goes on after a part of a key; its parts so far are in reverse order. -/
def readKey (purpose : Purpose) (parts : List String) : List Token → Option Document
  | .dot _ :: .word letters :: rest => do
    readKey purpose ((← bareKey? letters) :: parts) rest
  | .dot _ :: .text letters :: rest => readKey purpose (String.ofList letters :: parts) rest
  | .closeList true :: .closeList _ :: rest =>
    match purpose with
    | .element document => do endLine (← document.openElement? parts.reverse) rest
    | _ => none
  | .closeList _ :: rest =>
    match purpose with
    | .header document => do endLine (← document.openTable? parts.reverse) rest
    | _ => none
  | .equals :: rest =>
    match purpose with
    | .line document => readValue ⟨document, parts.reverse, []⟩ rest
    | .member line members =>
      readValue { line with frames := .table members parts.reverse :: line.frames } rest
    | _ => none
  | _ => none

/-- Nothing else stands on the line. -/
def endLine (document : Document) : List Token → Option Document
  | [] => some document
  | .newline :: rest => readLines document rest
  | _ => none

/-- Reads a value, or the end of a list. -/
def readValue (line : Line) : List Token → Option Document
  | .newline :: rest =>
    match line.frames with
    | .list _ :: _ => readValue line rest
    | _ => none
  | .closeList _ :: rest =>
    match line.frames with
    | .list items :: frames => finish { line with frames } (.list items.reverse true) rest
    | _ => none
  | .word before :: .dot true :: .word after :: rest => do
    finish line (.real (← Scalar.pointed? before after)) rest
  | .word letters :: rest => do
    finish line (← Scalar.ofWord? letters) rest
  | .text letters :: rest => finish line (.text (String.ofList letters)) rest
  | .block letters :: rest => finish line (.text (String.ofList letters)) rest
  | .openList _ :: rest => readValue { line with frames := .list [] :: line.frames } rest
  | .openTable :: .closeTable :: rest => finish line (.table [] true) rest
  | .openTable :: .word letters :: rest => do
    readKey (.member line []) [← bareKey? letters] rest
  | .openTable :: .text letters :: rest =>
    readKey (.member line []) [String.ofList letters] rest
  | _ => none

/-- Goes on after a value. -/
def finish (line : Line) (value : Tree) (tokens : List Token) : Option Document :=
  match line.frames with
  | [] =>
    match tokens with
    | [] => line.document.assign? line.key value
    | .newline :: rest => do readLines (← line.document.assign? line.key value) rest
    | _ => none
  | .list items :: frames =>
    match tokens with
    | .newline :: rest => finish line value rest
    | .comma :: rest => readValue { line with frames := .list (value :: items) :: frames } rest
    | .closeList _ :: rest =>
      finish { line with frames } (.list (value :: items).reverse true) rest
    | _ => none
  | .table members key :: frames =>
    match tokens with
    | .comma :: .word letters :: rest => do
      readKey (.member { line with frames } ((key, value) :: members)) [← bareKey? letters] rest
    | .comma :: .text letters :: rest =>
      readKey (.member { line with frames } ((key, value) :: members))
        [String.ofList letters] rest
    | .closeTable :: rest => do
      finish { line with frames } (← inlineTable? ((key, value) :: members).reverse) rest
    | _ => none

end

/-- A text without the byte order mark that may stand in front. -/
def unmarked : List Char → List Char
  | '\uFEFF' :: letters => letters
  | letters => letters

/-- A text in which lines end with a line feed alone. -/
def plainLines : List Char → List Char
  | [] => []
  | '\r' :: '\n' :: letters => '\n' :: plainLines letters
  | c :: letters => c :: plainLines letters

/-- The tree of a TOML text, if it is one. -/
def tree? (text : String) : Option Tree :=
  (readLines .empty (Token.scan (plainLines (unmarked text.toList)))).map Document.tree

end Cadence.Toml
