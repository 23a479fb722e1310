/-!
The Gregorian calendar, extended to all years without end. A date is a day that exists; days are
numbered from 1970-01-01, in the order of year, month and day.
-/

namespace Cadence

namespace Calendar

def isLeap (year : Int) : Bool :=
  year % 4 == 0 && (year % 100 != 0 || year % 400 == 0)

/-- The lengths of the twelve months. -/
def monthLengths (leap : Bool) : List Nat :=
  [31, if leap then 29 else 28, 31, 30, 31, 30, 31, 31, 30, 31, 30, 31]

/-- The sum of lengths. -/
def total : List Nat → Nat
  | [] => 0
  | length :: rest => length + total rest

/-- The number of days in a month; there are none in a month that does not exist. -/
def daysInMonth (year : Int) : Nat → Nat
  | 0 => 0
  | index + 1 => (monthLengths (isLeap year)).getD index 0

/-- The number of days from the start of year 1 to the start of a year. -/
def daysBeforeYear (year : Int) : Int :=
  365 * (year - 1) + (year - 1) / 4 - (year - 1) / 100 + (year - 1) / 400

/-- The number of days of a year before a month. -/
def daysBeforeMonth (year : Int) (month : Nat) : Nat :=
  total ((monthLengths (isLeap year)).take (month - 1))

/-- The days from the start of year 1 to 1970-01-01. -/
def epochDays : Int := 719162

/-- The year that holds a day counted from the start of year 1: a guess from the mean length of a
year, off by one at most. -/
def yearOfDay (days : Int) : Int :=
  let guess := 400 * days / 146097 + 1
  if days < daysBeforeYear guess then guess - 1
  else if daysBeforeYear (guess + 1) ≤ days then guess + 1
  else guess

/-- Walks along lengths: how many of them are passed, and what is left then. -/
def walk : List Nat → Nat → Nat × Nat
  | [], left => (0, left)
  | length :: rest, left =>
    if left < length then (0, left)
    else ((walk rest (left - length)).1 + 1, (walk rest (left - length)).2)

/-- A year has 365 days, or 366 if it is a leap year, by the rules for 4, 100 and 400 years. -/
theorem daysBeforeYear_succ (year : Int)
    : daysBeforeYear (year + 1) = daysBeforeYear year + 365 + if isLeap year then 1 else 0 := by
  simp only [daysBeforeYear, isLeap]
  by_cases four : year % 4 = 0 <;> by_cases hundred : year % 100 = 0
    <;> by_cases centuries : year % 400 = 0 <;> simp [four, hundred, centuries] <;> omega

/-- The months fill the year. -/
theorem total_monthLengths (leap : Bool)
    : total (monthLengths leap) = 365 + if leap then 1 else 0 := by
  cases leap <;> decide

/-- Earlier years end before later ones start, by induction on their distance. -/
theorem daysBeforeYear_lt {early late : Int} (before : early < late)
    : daysBeforeYear early + 365 + (if isLeap early then 1 else 0) ≤ daysBeforeYear late := by
  obtain ⟨gap, rfl⟩ : ∃ gap : Nat, late = early + 1 + gap :=
    ⟨(late - early - 1).toNat, by omega⟩
  clear before
  induction gap with
  | zero =>
    have next := daysBeforeYear_succ early
    rw [Int.natCast_zero, Int.add_zero]
    omega
  | succ gap ih =>
    rw [Int.natCast_succ, ← Int.add_assoc, daysBeforeYear_succ]
    split <;> omega

/-- The year found for a day holds it: the guess is off by one at most. -/
theorem yearOfDay_spec (days : Int)
    : daysBeforeYear (yearOfDay days) ≤ days ∧ days < daysBeforeYear (yearOfDay days + 1) := by
  simp only [yearOfDay]
  generalize guess : 400 * days / 146097 + 1 = year
  split
  · next early =>
    rw [Int.sub_add_cancel]
    refine ⟨?_, early⟩
    simp only [daysBeforeYear]
    omega
  · split
    · next late =>
      refine ⟨late, ?_⟩
      simp only [daysBeforeYear]
      omega
    · next inside => omega

/-- A walk that ends within the lengths splits the distance at the length that it ends in, by
induction. -/
theorem walk_spec {lengths : List Nat} {left : Nat} (within : left < total lengths)
    : (walk lengths left).1 < lengths.length
      ∧ total (lengths.take (walk lengths left).1) + (walk lengths left).2 = left
      ∧ (walk lengths left).2 < lengths.getD (walk lengths left).1 0 := by
  induction lengths generalizing left with
  | nil => simp [total] at within
  | cons length rest ih =>
    rw [walk]
    split
    · next short => simpa [total] using short
    · next long =>
      have within' : left - length < total rest := by simp only [total] at within; omega
      have ⟨index, reached, short⟩ := ih within'
      refine ⟨by simpa using index, ?_, by simpa using short⟩
      simp only [List.take_succ_cons, total]
      omega

/-- The days of its year before a day counted from the start of year 1. -/
def dayOfYear (days : Int) : Nat :=
  (days - daysBeforeYear (yearOfDay days)).toNat

/-- The months of its year before a day, and the days of its month before it. -/
def placeInYear (days : Int) : Nat × Nat :=
  walk (monthLengths (isLeap (yearOfDay days))) (dayOfYear days)

/-- The place of a day in its year lies within the months of the year. -/
theorem dayOfYear_lt (days : Int)
    : dayOfYear days < total (monthLengths (isLeap (yearOfDay days))) := by
  have within := yearOfDay_spec days
  rw [daysBeforeYear_succ] at within
  rw [total_monthLengths, dayOfYear]
  split at within <;> rename_i leap <;> simp only [leap, if_true] <;> omega

/-- More lengths have a greater sum, by induction. -/
theorem total_take_le {lengths : List Nat} {fewer more : Nat} (le : fewer ≤ more)
    : total (lengths.take fewer) ≤ total (lengths.take more) := by
  induction lengths generalizing fewer more with
  | nil => simp
  | cons length rest ih =>
    cases fewer with
    | zero => simp [total]
    | succ fewer =>
      cases more with
      | zero => omega
      | succ more =>
        simp only [List.take_succ_cons, total]
        exact Nat.add_le_add_left (ih (Nat.le_of_succ_le_succ le)) _

/-- One more length adds itself, by induction. -/
theorem total_take_succ (lengths : List Nat) (index : Nat)
    : total (lengths.take (index + 1)) = total (lengths.take index) + lengths.getD index 0 := by
  induction lengths generalizing index with
  | nil => simp
  | cons length rest ih =>
    cases index with
    | zero => simp [total]
    | succ index =>
      simp only [List.take_succ_cons, total, List.getD_cons_succ, ih index]
      omega

/-- Months follow one another without overlap. -/
theorem daysBeforeMonth_lt (year : Int) {early late : Nat} (exists_ : 1 ≤ early)
    (before : early < late)
    : daysBeforeMonth year early + daysInMonth year early ≤ daysBeforeMonth year late := by
  obtain ⟨index, rfl⟩ : ∃ index, early = index + 1 := ⟨early - 1, by omega⟩
  simp only [daysBeforeMonth, daysInMonth, Nat.add_sub_cancel]
  rw [← total_take_succ]
  exact total_take_le (by omega)

/-- Every month lies within its year. -/
theorem daysBeforeMonth_le (year : Int) {month : Nat} (exists_ : 1 ≤ month)
    : daysBeforeMonth year month + daysInMonth year month
      ≤ 365 + if isLeap year then 1 else 0 := by
  obtain ⟨index, rfl⟩ : ∃ index, month = index + 1 := ⟨month - 1, by omega⟩
  simp only [daysBeforeMonth, daysInMonth, Nat.add_sub_cancel]
  rw [← total_take_succ, ← total_monthLengths]
  rcases Nat.le_total (index + 1) (monthLengths (isLeap year)).length with le | ge
  · exact Nat.le_trans (total_take_le le) (Nat.le_of_eq (by rw [List.take_length]))
  · exact Nat.le_of_eq (by rw [List.take_of_length_le ge])

end Calendar

open Calendar

/-- A day of the calendar. -/
structure Date where
  year : Int
  month : Nat
  day : Nat
  exists_ : 1 ≤ day ∧ day ≤ daysInMonth year month
  deriving DecidableEq, Repr

namespace Date

/-- The date with the given parts, if there is one. -/
def of? (year : Int) (month day : Nat) : Option Date :=
  if found : 1 ≤ day ∧ day ≤ daysInMonth year month then some ⟨year, month, day, found⟩ else none

/-- Months are counted from 1, since month 0 has no days. -/
theorem month_pos (date : Date) : 1 ≤ date.month := by
  obtain ⟨_, month, _, found⟩ := date
  cases month with
  | zero => simp [daysInMonth] at found; omega
  | succ => simp

/-- Days since 1970-01-01. -/
def dayNumber (date : Date) : Int :=
  daysBeforeYear date.year + daysBeforeMonth date.year date.month + date.day - 1 - epochDays

/-- The date of a day number. -/
def ofDayNumber (number : Int) : Date where
  year := yearOfDay (number + epochDays)
  month := (placeInYear (number + epochDays)).1 + 1
  day := (placeInYear (number + epochDays)).2 + 1
  exists_ := ⟨by omega, (walk_spec (dayOfYear_lt (number + epochDays))).2.2⟩

/-- Days since the last Sunday. -/
def weekday (date : Date) : Nat :=
  ((date.dayNumber + 4) % 7).toNat

/-- The order of dates: by year, then month, then day. -/
def Before (early late : Date) : Prop :=
  early.year < late.year
  ∨ early.year = late.year
    ∧ (early.month < late.month ∨ early.month = late.month ∧ early.day < late.day)

/-- Later dates have greater numbers, by comparing years, months and days in turn. -/
theorem dayNumber_lt {early late : Date} (before : early.Before late)
    : early.dayNumber < late.dayNumber := by
  have positive := late.exists_.1
  have short := early.exists_.2
  simp only [dayNumber]
  rcases before with year | ⟨year, month | ⟨month, day⟩⟩
  · have years := daysBeforeYear_lt year
    have months := daysBeforeMonth_le early.year early.month_pos
    split at years <;> rename_i leap <;> simp [leap] at months <;> omega
  · have months := daysBeforeMonth_lt early.year early.month_pos month
    rw [← year]
    omega
  · rw [← year, ← month]
    omega

/-- The date of a number has this number. -/
theorem dayNumber_ofDayNumber (number : Int) : (ofDayNumber number).dayNumber = number := by
  have start := (yearOfDay_spec (number + epochDays)).1
  have reached := (walk_spec (dayOfYear_lt (number + epochDays))).2.1
  simp only [ofDayNumber, dayNumber, daysBeforeMonth, placeInYear, Nat.add_sub_cancel]
  simp only [dayOfYear] at reached ⊢
  omega

end Date

end Cadence
