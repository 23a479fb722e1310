import Cadence.Moment
import Cadence.Stamp

/-! Stamps and whole seconds. Among the stamps that lie some nanoseconds past a counted second,
whatever is reached at a stamp is reached from a certain second on; so they can be reasoned about
by their seconds alone. Moved by whole seconds, such stamps keep their nanoseconds.
-/

namespace Cadence

namespace Stamp

variable {left right stamp : Stamp} {nano : Nanosecond} {second : Int}

theorem le_def
    : left ≤ right
      ↔ left.second < right.second
        ∨ left.second = right.second ∧ left.nano.val ≤ right.nano.val :=
  Iff.rfl

theorem lt_def
    : left < right
      ↔ left.second < right.second
        ∨ left.second = right.second ∧ left.nano.val < right.nano.val :=
  Iff.rfl

theorem not_le : ¬ left ≤ right ↔ right < left := by
  rw [le_def, lt_def]
  omega

theorem le_of_lt (ordered : left < right) : left ≤ right := by
  rw [lt_def] at ordered
  rw [le_def]
  omega

/-- A counted stamp keeps its nanoseconds. -/
theorem shift_of_counted (counted : stamp.nano.isLeap = false) (seconds : Int)
    : stamp.shift seconds = ⟨stamp.second + seconds, stamp.nano⟩ := by
  simp [shift, counted]

@[simp] theorem shift_zero (stamp : Stamp) : stamp.shift 0 = stamp := by
  simp [shift]

@[simp] theorem shift_ofSecond (second seconds : Int)
    : (ofSecond second).shift seconds = ofSecond (second + seconds) :=
  shift_of_counted rfl seconds

@[simp] theorem year_ofSecond (second : Int)
    : (ofSecond second).year = (Clock.date second).year :=
  rfl

-----------------------------------------------------------------------------------------
-- The second at which a stamp is reached
-----------------------------------------------------------------------------------------

/-- The first second of which `nano` does not come before a stamp. -/
def arrival (stamp : Stamp) (nano : Nanosecond) : Int :=
  if stamp.nano.val ≤ nano.val then stamp.second else stamp.second + 1

theorem arrival_le_iff : stamp.arrival nano ≤ second ↔ stamp ≤ ⟨second, nano⟩ := by
  rw [arrival, le_def]
  split <;> simp only <;> omega

theorem lt_arrival_iff : second < stamp.arrival nano ↔ ⟨second, nano⟩ < stamp := by
  rw [← not_le, ← arrival_le_iff, Int.not_le]

theorem arrival_le_arrival (ordered : left ≤ right) (nano : Nanosecond)
    : left.arrival nano ≤ right.arrival nano := by
  rw [le_def] at ordered
  simp only [arrival]
  split <;> split <;> omega

/-- The start of a second is reached with the second. -/
theorem arrival_of_whole (whole : stamp.nano = 0) (nano : Nanosecond)
    : stamp.arrival nano = stamp.second := by
  apply if_pos
  rw [whole]
  exact Nat.zero_le _

theorem arrival_shift (counted : stamp.nano.isLeap = false) (seconds : Int) (nano : Nanosecond)
    : (stamp.shift seconds).arrival nano = stamp.arrival nano + seconds := by
  simp only [shift_of_counted counted, arrival]
  split <;> omega

end Stamp

-----------------------------------------------------------------------------------------
-- Leap seconds
-----------------------------------------------------------------------------------------

/-- The start of the second that a moment is. -/
def Moment.stamp (moment : Moment) : Stamp :=
  if moment.leap then ⟨moment.second, ⟨1000000000, by decide⟩⟩ else .ofSecond moment.second

/-- What a wall clock shows at a moment is the second to which its stamp is moved. -/
theorem Moment.second_shift_stamp (moment : Moment) (offset : Int)
    : (moment.stamp.shift offset).second = moment.wall offset := by
  obtain ⟨second, leap⟩ := moment
  cases leap with
  | false => exact congrArg Stamp.second (Stamp.shift_ofSecond second offset)
  | true =>
      have leaping : (stamp ⟨second, true⟩).nano.isLeap = true := by rfl
      have start : (stamp ⟨second, true⟩).second = second := by rfl
      simp only [Stamp.shift, leaping, start, wall, true_and]
      split <;> split <;> simp only
      omega

end Cadence
