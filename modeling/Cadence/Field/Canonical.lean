import Cadence.Field

/-!
The canonical text of a mask. Its members are cut from left to right into blocks: a run of at least
three equally spaced values, as long as it can be, or else a single value.
-/

namespace Cadence

/-- A consecutive part of an ascending list of values. -/
inductive Block where
  | one (value : Nat)
  | run (first last step : Nat)
  deriving DecidableEq, Repr

namespace Block

/-- Follows equally spaced values: the last of them, and the values left over. -/
def follow (step : Nat) : Nat → List Nat → Nat × List Nat
  | last, [] => (last, [])
  | last, value :: rest =>
    if value = last + step then follow step value rest else (last, value :: rest)

/-- Following a run leaves no more values than there were, by induction on them. -/
theorem length_follow_le (step last : Nat) (values : List Nat)
    : (follow step last values).2.length ≤ values.length := by
  induction values generalizing last with
  | nil => simp [follow]
  | cons value rest ih =>
    rw [follow]
    split
    · exact Nat.le_succ_of_le (ih value)
    · exact Nat.le_refl _

/-- Cuts ascending values into blocks, each run as early and as long as possible. -/
def ofValues : List Nat → List Block
  | [] => []
  | [a] => [.one a]
  | [a, b] => [.one a, .one b]
  | a :: b :: c :: rest =>
    let step := b - a
    if c = b + step then
      let stretch := follow step c rest
      .run a stretch.1 step :: ofValues stretch.2
    else .one a :: ofValues (b :: c :: rest)
termination_by values => values.length
decreasing_by
  · have shorter := length_follow_le (b - a) c rest
    simp only [List.length_cons]
    omega
  · simp

/-- A run that starts with the field and leaves no room for another step is written with `*`. -/
def text (field : Field) : Block → String
  | .one value => toString value
  | .run first last step =>
    let span :=
      if first = field.first ∧ field.last < last + step then "*"
      else toString first ++ "-" ++ toString last
    if 1 < step then span ++ "/" ++ toString step else span

end Block

/-- The canonical text of a mask. -/
def Field.text (field : Field) (mask : Mask) : String :=
  String.intercalate "," ((Block.ofValues mask.values).map (Block.text field))

end Cadence
