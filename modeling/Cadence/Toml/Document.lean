import Cadence.Tree

/-!
The tables of a TOML text while it is read. Each name is given once, and how a table came about
decides what may still be added to it: a header may name a table that was only implied before, a
dotted key may add to tables made by dotted keys, and nothing is added to a finished value.
-/

namespace Cadence.Toml

/-- How a table came about. -/
inductive Origin where
  /-- By the header of a table inside it. -/
  | implied
  /-- By its own header. -/
  | header
  /-- By a dotted key. -/
  | dotted
  deriving DecidableEq, Repr

inductive Entry where
  | value (tree : Tree)
  | table (origin : Origin) (entries : List (String × Entry))
  /-- The finished tables of a list, the last one first, and the table that is being filled. -/
  | tables (finished : List (List (String × Entry))) (current : List (String × Entry))

abbrev Entries := List (String × Entry)

namespace Entries

/-- Replaces the entry with a name, or adds one at the end. -/
def alter (key : String) (change : Option Entry → Option Entry) : Entries → Option Entries
  | [] => (change none).map fun entry => [(key, entry)]
  | (known, entry) :: entries =>
    if known = key then (change (some entry)).map fun changed => (known, changed) :: entries
    else (alter key change entries).map ((known, entry) :: ·)

/-- Changes the entries of the table at the end of a path of headers. -/
def within (change : Entries → Option Entries) : List String → Entries → Option Entries
  | [], entries => change entries
  | key :: path, entries =>
    alter key (fun entry =>
      match entry with
      | none => (within change path []).map (Entry.table .implied)
      | some (.table origin inner) => (within change path inner).map (Entry.table origin)
      | some (.tables finished current) =>
        (within change path current).map (Entry.tables finished)
      | some (.value _) => none) entries

/-- Starts the table of a header. -/
def openTable (path : List String) (entries : Entries) : Option Entries :=
  match path.reverse with
  | [] => none
  | key :: outer =>
    entries.within
      (fun inner => alter key (fun entry =>
        match entry with
        | none => some (.table .header [])
        | some (.table .implied found) => some (.table .header found)
        | _ => none) inner)
      outer.reverse

/-- Starts one more table of a list. -/
def openElement (path : List String) (entries : Entries) : Option Entries :=
  match path.reverse with
  | [] => none
  | key :: outer =>
    entries.within
      (fun inner => alter key (fun entry =>
        match entry with
        | none => some (.tables [] [])
        | some (.tables finished current) => some (.tables (current :: finished) [])
        | _ => none) inner)
      outer.reverse

/-- Gives a value to a key, which may be dotted. -/
def assign (value : Tree) : List String → Entries → Option Entries
  | [], _ => none
  | [key], entries =>
    alter key (fun entry => if entry.isNone then some (.value value) else none) entries
  | key :: path, entries =>
    alter key (fun entry =>
      match entry with
      | none => (assign value path []).map (Entry.table .dotted)
      | some (.table .dotted inner) => (assign value path inner).map (Entry.table .dotted)
      | _ => none) entries

end Entries

mutual

def Entry.tree : Entry → Tree
  | .value tree => tree
  | .table _ entries => .named (treesOf entries)
  | .tables finished current =>
    .list ((tablesOf finished).reverse ++ [.named (treesOf current)]) true

def treesOf : List (String × Entry) → List (String × Tree)
  | [] => []
  | (key, entry) :: entries => (key, entry.tree) :: treesOf entries

def tablesOf : List (List (String × Entry)) → List Tree
  | [] => []
  | entries :: tables => .named (treesOf entries) :: tablesOf tables

end

end Cadence.Toml
