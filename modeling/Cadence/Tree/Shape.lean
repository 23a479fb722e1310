import Cadence.Tree.Problem

/-!
Reading values from trees. Members and items are taken in the order of the text, and the first
problem is the one that is reported. A value with named fields may be a table, or a list of the
fields in order; notations differ in whether such a list may go on after the last field.
-/

namespace Cadence

namespace Tree

def text? : Tree → Except Problem String
  | .text value => .ok value
  | tree => .error (tree.mismatch "a string")

def bool? : Tree → Except Problem Bool
  | .bool value => .ok value
  | tree => .error (tree.mismatch "a boolean")

/-- A machine word; `kind` names it in messages. -/
def word? (kind : String) : Tree → Except Problem UInt64
  | .integer value =>
    if 0 ≤ value ∧ value < UInt64.size then .ok value.toNat.toUInt64
    else .error (.wrongValue (.integer value) kind)
  | tree => .error (tree.mismatch kind)

/-- A text that may be absent. -/
def optionalText? : Tree → Except Problem (Option String)
  | .null => .ok none
  | tree => tree.text?.map some

def list? {α : Type} (read : Tree → Except Problem α) : Tree → Except Problem (List α)
  | .list items closed => do
    let values ← items.mapM read
    if closed then .ok values else .error .malformed
  | tree => .error (tree.mismatch "a sequence")

end Tree

/-- One field of a value under construction. -/
structure Slot (σ : Type) where
  key : String
  /-- Whether a list that ends before this field is too short. -/
  required : Bool
  isSet : σ → Bool
  set : σ → Tree → Except Problem σ

/-- What becomes of items of a list for which there is no field. -/
inductive Surplus where
  | refused
  | passedOver
  deriving DecidableEq, Repr

/-- The fields of a kind of value, in order. -/
structure Shape (σ : Type) where
  title : String
  slots : List (Slot σ)
  /-- Whether members with other names are refused. -/
  strict : Bool
  surplus : Surplus

namespace Shape

variable {σ : Type}

def readMember (shape : Shape σ) (state : σ) (key : String) (value : Tree) : Except Problem σ :=
  match shape.slots.find? (·.key == key) with
  | some slot => if slot.isSet state then .error (.duplicateField key) else slot.set state value
  | none =>
    if shape.strict then .error (.unknownField key (shape.slots.map (·.key)))
    else if value.isSound then .ok state
    else .error .malformed

def readMembers (shape : Shape σ) (state : σ) : List (Option String × Tree) → Except Problem σ
  | [] => .ok state
  | (none, _) :: _ => .error .malformed
  | (some key, value) :: members => do
    let state ← shape.readMember state key value
    shape.readMembers state members

/-- Takes items for fields; `taken` of them came before. -/
def readItems (shape : Shape σ) (closed : Bool) (state : σ) (taken : Nat)
    : List (Slot σ) → List Tree → Except Problem σ
  | [], [] => if closed then .ok state else .error .malformed
  | [], items =>
    if shape.surplus = .passedOver ∧ closed ∧ Tree.areSound items then .ok state
    else .error .malformed
  | slot :: slots, [] =>
    if !closed then .error .malformed
    else if slot.required then .error (.wrongLength taken shape.title shape.slots.length)
    else shape.readItems closed state taken slots []
  | slot :: slots, item :: items => do
    let state ← slot.set state item
    shape.readItems closed state (taken + 1) slots items

/-- Fills in what a tree says about the fields. -/
def read (shape : Shape σ) (start : σ) : Tree → Except Problem σ
  | .table members closed => do
    let state ← shape.readMembers start members
    if closed then .ok state else .error .malformed
  | .list items closed => shape.readItems closed start 0 shape.slots items
  | tree => .error (tree.mismatch ("struct " ++ shape.title))

end Shape

/-- The value of a field that must be there. -/
def need {α : Type} (key : String) : Option α → Except Problem α
  | some value => .ok value
  | none => .error (.missingField key)

end Cadence
