import Cadence.Proofs.Calendar.Years
import Cadence.Rfc3339
import Mathlib

/-! Written times are read back. Every number has a fixed width, so that the parts of a time
stand at fixed places of the text. Results are for offsets of whole minutes, since the text
keeps no seconds of them, and for the years 0 to 9999, which fit into their place.
-/

namespace Cadence

/-- The month and the day of a date have two digits at most. -/
theorem Date.bounds (date : Date) : date.month ≤ 12 ∧ date.day ≤ 31 := by
  have months := Calendar.month_le_of_daysInMonth (Nat.le_trans date.exists_.1 date.exists_.2)
  have days := Calendar.daysInMonth_le date.year date.month
  exact ⟨months.2, Nat.le_trans date.exists_.2 days⟩

namespace Clock

theorem timeOfDay_bounds (time : Int)
    : hour time < 24 ∧ minute time < 60 ∧ second time < 60 := by
  simp only [hour, minute, second, secondOfDay]
  omega

/-- A time of day is that of its hour, minute and second. -/
theorem timeOfDay?_parts (time : Int)
    : ∃ ofDay,
        timeOfDay? (hour time) (minute time) (second time) = some ofDay
        ∧ (ofDay.second.val : Int) = time % 86400 := by
  have sum : hour time * 3600 + minute time * 60 + second time = secondOfDay time := by
    simp only [hour, minute, second]
    omega
  refine ⟨_, dif_pos (timeOfDay_bounds time), ?_⟩
  simp only [TimeOfDay.ofSecond, sum, secondOfDay]
  omega

/-- A time is made again from its parts. -/
theorem of?_parts (time : Int)
    : of? (date time).year (date time).month (date time).day (hour time) (minute time)
        (second time)
      = some time := by
  obtain ⟨ofDay, read, remainder⟩ := timeOfDay?_parts time
  have sameDate := Date.of?_eq_some_iff.mpr
    (⟨rfl, rfl, rfl⟩ : (date time).year = (date time).year
      ∧ (date time).month = (date time).month ∧ (date time).day = (date time).day)
  have sum : on (date time) ofDay = time := by
    rw [on, dayNumber_date, remainder]
    omega
  simp [of?, sameDate, read, sum]

end Clock

namespace Rfc3339

-----------------------------------------------------------------------------------------
-- Numbers
-----------------------------------------------------------------------------------------

/-- A padded number has digits only. -/
theorem isDigit_of_mem_padded {width value : Nat} {c : Char}
    (member : c ∈ padded width value)
    : c.isDigit := by
  rcases List.mem_append.mp member with zero | digit
  · rw [List.eq_of_mem_replicate zero]
    decide
  · exact Nat.isDigit_of_mem_toDigits (by decide) (by decide) digit

/-- A padded number is read back, as the zeros in front count for nothing. -/
theorem number?_padded (width value : Nat) : number? (padded width value) = some value := by
  have digits : (padded width value).all Char.isDigit := by
    rw [List.all_eq_true]
    exact fun c => isDigit_of_mem_padded
  have read : Nat.ofDigitChars 10 (padded width value) 0 = value := by
    rw [padded, Nat.ofDigitChars_append, Nat.ofDigitChars_replicate_zero, Nat.mul_zero,
      Nat.ofDigitChars_ten_toDigits]
  rw [number?, if_pos digits, read]

/-- A number that fits a width takes up exactly that width. -/
theorem length_padded {width value : Nat} (positive : 0 < width) (fits : value < 10 ^ width)
    : (padded width value).length = width := by
  have short := (Nat.length_toDigits_le_iff (by decide) positive).mpr fits
  rw [padded, List.length_append, List.length_replicate]
  omega

/-- A number below 100 is written as two digits. -/
theorem padded_eq_pair {value : Nat} (small : value < 100)
    : ∃ a b, padded 2 value = [a, b] ∧ number? [a, b] = some value := by
  obtain ⟨a, b, written⟩ := List.length_eq_two.mp (length_padded (by decide) small)
  exact ⟨a, b, written, written ▸ number?_padded 2 value⟩

/-- A year from 0 to 9999 is written as four digits. -/
theorem year_eq_digits {value : Int} (years : 0 ≤ value ∧ value ≤ 9999)
    : ∃ a b c d, year value = [a, b, c, d] ∧ number? [a, b, c, d] = some value.toNat := by
  have small : value.toNat < 10 ^ 4 := by omega
  obtain ⟨a, b, c, d, written⟩ := List.length_eq_four.mp (length_padded (by decide) small)
  rw [year, if_pos years]
  exact ⟨a, b, c, d, written, written ▸ number?_padded 4 value.toNat⟩

-----------------------------------------------------------------------------------------
-- Times
-----------------------------------------------------------------------------------------

/-- An offset of whole minutes and less than a day is read back. -/
theorem offset?_offset {seconds : Int} (whole : seconds % 60 = 0)
    (bounded : -86400 < seconds ∧ seconds < 86400)
    : offset? (offset seconds) = some seconds := by
  obtain ⟨minutes, sum, small⟩ : ∃ minutes : Nat,
      (seconds.natAbs + 30) / 60 = minutes ∧ seconds.natAbs = minutes * 60 ∧ minutes < 1440 :=
    ⟨_, rfl, by omega, by omega⟩
  obtain ⟨a, b, writtenHours, readHours⟩ := padded_eq_pair (by omega : minutes / 60 < 100)
  obtain ⟨c, d, writtenMinutes, readMinutes⟩ := padded_eq_pair (by omega : minutes % 60 < 100)
  have inRange : ¬ (23 < minutes / 60 ∨ 59 < minutes % 60) := by omega
  have written : offset seconds = [if seconds < 0 then '-' else '+', a, b, ':', c, d] := by
    simp [offset, sum, writtenHours, writtenMinutes]
  rw [written]
  by_cases behind : seconds < 0
  · have size : (minutes / 60 : Nat) * 3600 + (minutes % 60 : Nat) * 60 = -seconds := by omega
    simp only [if_pos behind, offset?, readHours, readMinutes, Option.bind_eq_bind,
      Option.bind_some, if_neg inRange, size]
    simp
  · have size : (minutes / 60 : Nat) * 3600 + (minutes % 60 : Nat) * 60 = seconds := by omega
    simp only [if_neg behind, offset?, readHours, readMinutes, Option.bind_eq_bind,
      Option.bind_some, if_neg inRange, size]
    simp

/-- A time of the years 0 to 9999 is read back together with its offset: the moment is a
counted one, as no second is written as 60.
-/
theorem moment?_write {time seconds : Int}
    (years : 0 ≤ (Clock.date time).year ∧ (Clock.date time).year ≤ 9999)
    (whole : seconds % 60 = 0) (bounded : -86400 < seconds ∧ seconds < 86400)
    : moment? (write time seconds).toList = some (Moment.counted (time - seconds)) := by
  obtain ⟨y₁, y₂, y₃, y₄, writtenYear, readYear⟩ := year_eq_digits years
  obtain ⟨month, day⟩ := (Clock.date time).bounds
  obtain ⟨hour, minute, second⟩ := Clock.timeOfDay_bounds time
  obtain ⟨m₁, m₂, writtenMonth, readMonth⟩ :=
    padded_eq_pair (Nat.lt_of_le_of_lt month (by decide))
  obtain ⟨d₁, d₂, writtenDay, readDay⟩ :=
    padded_eq_pair (Nat.lt_of_le_of_lt day (by decide))
  obtain ⟨h₁, h₂, writtenHour, readHour⟩ := padded_eq_pair (Nat.lt_trans hour (by decide))
  obtain ⟨n₁, n₂, writtenMinute, readMinute⟩ := padded_eq_pair (Nat.lt_trans minute (by decide))
  obtain ⟨s₁, s₂, writtenSecond, readSecond⟩ := padded_eq_pair (Nat.lt_trans second (by decide))
  have written : (write time seconds).toList
      = y₁ :: y₂ :: y₃ :: y₄ :: '-' :: m₁ :: m₂ :: '-' :: d₁ :: d₂ :: 'T'
        :: h₁ :: h₂ :: ':' :: n₁ :: n₂ :: ':' :: s₁ :: s₂ :: offset seconds := by
    simp [write, wall, writtenYear, writtenMonth, writtenDay, writtenHour, writtenMinute,
      writtenSecond]
  have noFraction : afterFraction? (offset seconds) = some (offset seconds) := by
    simp only [offset]
    split <;> rfl
  have counted : Clock.second time ≠ 60 := Nat.ne_of_lt second
  have sameYear : ((Clock.date time).year.toNat : Int) = (Clock.date time).year :=
    Int.toNat_of_nonneg years.1
  simp only [written, moment?, readYear, readMonth, readDay, readHour, readMinute, readSecond]
  simp [noFraction, counted, sameYear, Clock.of?_parts, offset?_offset whole bounded,
    Moment.counted]

end Rfc3339

end Cadence
