import Cadence.Proofs.Checked.Texts
import Cadence.Schedule.Record
import Cadence.Settings.Reader

/-! All ways to a schedule: from texts, shorthands, masks, records and texts that stand for a
schedule in settings. With the assertions and limits on the way checked, each of them finds
what it finds without checks. So no fault is ever met, neither while a schedule is made nor
when it is written, and every schedule has a value in each field and no value outside of it.
-/

namespace Cadence

-----------------------------------------------------------------------------------------
-- Admissible masks
-----------------------------------------------------------------------------------------

/-- A mask is not empty and has values of the field only. -/
def Field.Admits (field : Field) (mask : Mask) : Prop :=
  mask ≠ 0 ∧ ∀ value, mask.has value → field.first ≤ value ∧ value ≤ field.last

theorem Field.accepts_iff_admits {field : Field} {mask : Mask}
    : field.accepts mask ↔ field.Admits mask := by
  constructor
  · intro accepted
    exact ⟨ne_zero_of_accepts accepted, fun _ => range_of_has accepted⟩
  · intro admits
    exact accepts_of_has ⟨_, Mask.has_lowest admits.1⟩ admits.2

/-- The first field, in the order in which fields are written, whose mask is not admitted. -/
def Masks.Offends (masks : Masks) (field : Field) : Prop :=
  ∃ before after,
    Field.all = before ++ field :: after
    ∧ (∀ earlier ∈ before, earlier.Admits (masks.on earlier))
    ∧ ¬ field.Admits (masks.on field)

theorem Masks.valid_iff_admits {masks : Masks}
    : masks.Valid ↔ ∀ field : Field, field.Admits (masks.on field) := by
  simp only [Valid, Field.accepts_iff_admits]

theorem Masks.rejected?_eq_some_iff {masks : Masks} {field : Field}
    : masks.rejected? = some field ↔ masks.Offends field := by
  have refused (field : Field) : (!field.accepts (masks.on field)) = true
      ↔ ¬ field.Admits (masks.on field) := by
    rw [← Field.accepts_iff_admits, Bool.not_eq_true', Bool.not_eq_true]
  simp only [rejected?, Offends, List.find?_eq_some_iff_append, Bool.not_not,
    Field.accepts_iff_admits, refused]
  constructor
  · rintro ⟨offends, before, after, same, earlier⟩
    exact ⟨before, after, same, earlier, offends⟩
  · rintro ⟨before, after, same, earlier, offends⟩
    exact ⟨offends, before, after, same, earlier⟩

namespace Schedule

/-- Masks are taken over exactly if all of them are admitted. -/
theorem exists_ofMasks_iff {masks : Masks} {interval : Bool}
    : (∃ schedule,
        ofMasks masks interval = .ok schedule
        ∧ schedule.masks = masks
        ∧ schedule.interval = interval)
      ↔ ∀ field : Field, field.Admits (masks.on field) := by
  rw [← Masks.valid_iff_admits]
  constructor
  · rintro ⟨schedule, _, rfl, _⟩
    exact schedule.valid
  · intro valid
    exact ⟨_, ofMasks_of_valid valid interval, rfl, rfl⟩

theorem ofMasks_of_rejected {masks : Masks} {field : Field}
    (search : masks.rejected? = some field) (interval : Bool)
    : ofMasks masks interval = .error (.rejected field (masks.on field)) := by
  unfold ofMasks
  split
  · next other same =>
    obtain rfl := Option.some.inj (search.symm.trans same)
    rfl
  · next none => simp [search] at none

/-- Masks are refused for the first of them that is not admitted. -/
theorem ofMasks_eq_error_iff {masks : Masks} {interval : Bool} {error : ScheduleError}
    : ofMasks masks interval = .error error
      ↔ ∃ field, masks.Offends field ∧ error = .rejected field (masks.on field) := by
  simp only [← Masks.rejected?_eq_some_iff]
  cases search : masks.rejected? with
  | none =>
      rw [ofMasks_of_valid (Masks.rejected?_eq_none_iff.mp search)]
      simp
  | some field =>
      rw [ofMasks_of_rejected search]
      simp [eq_comm]

end Schedule

-----------------------------------------------------------------------------------------
-- Masks and records
-----------------------------------------------------------------------------------------

namespace Checked

/-- A schedule with the given masks, after a check of each. -/
def ofMasks (masks : Masks) (interval : Bool) : Attempt (Except ScheduleError Schedule) :=
  match masks.rejected? with
  | some field => return .error (.rejected field (masks.on field))
  | none => do
    let schedule ← build masks interval
    return .ok schedule

/-- Masks that pass the check pass the assertion. -/
theorem ofMasks_eq (masks : Masks) (interval : Bool)
    : ofMasks masks interval = .found (Schedule.ofMasks masks interval) := by
  cases search : masks.rejected? with
  | some field =>
      rw [Schedule.ofMasks_of_rejected search, ofMasks, search]
      rfl
  | none =>
      have valid := Masks.rejected?_eq_none_iff.mp search
      rw [Schedule.ofMasks_of_valid valid, ofMasks, search, build_of_valid valid]
      rfl

/-- The members of a complete draft. -/
def membersOf? (draft : RecordDraft) : Except Problem (Masks × Bool) := do
  let minute ← need "m" draft.minute
  let hour ← need "h" draft.hour
  let dayOfMonth ← need "dm" draft.dayOfMonth
  let month ← need "M" draft.month
  let dayOfWeek ← need "dw" draft.dayOfWeek
  let interval ← need "i" draft.interval
  return (⟨minute, hour, dayOfMonth, month, dayOfWeek⟩, interval)

/-- The schedule of a complete draft. -/
def ofDraft (draft : RecordDraft) : Attempt (Except Problem Schedule) :=
  match membersOf? draft with
  | .error problem => return .error problem
  | .ok (masks, interval) => do
    let schedule ← ofMasks masks interval
    return schedule.mapError .badSchedule

def ofRecord (tree : Tree) : Attempt (Except Problem Schedule) :=
  match RecordDraft.shape.read .empty tree with
  | .error problem => return .error problem
  | .ok draft => ofDraft draft

def readRecord (text : String) : Attempt (Except Problem Schedule) := do
  let (tree, rest) := Json.readValue [] (Json.Token.scan text.toList)
  match ← ofRecord tree with
  | .error problem => return .error problem
  | .ok schedule => return if rest.isEmpty then .ok schedule else .error .malformed

theorem ofDraft_eq (draft : RecordDraft) : ofDraft draft = .found draft.schedule? := by
  have parts : draft.schedule?
      = (membersOf? draft >>= fun (masks, interval) =>
          (Schedule.ofMasks masks interval).mapError .badSchedule) := by
    simp only [RecordDraft.schedule?, membersOf?, bind_assoc, pure_bind]
  rw [parts, ofDraft]
  cases membersOf? draft with
  | error problem => rfl
  | ok members =>
      simp only [ofMasks_eq]
      rfl

theorem ofRecord_eq (tree : Tree) : ofRecord tree = .found (Schedule.ofRecord tree) := by
  rw [ofRecord, Schedule.ofRecord]
  cases RecordDraft.shape.read .empty tree with
  | error problem => rfl
  | ok draft => exact ofDraft_eq draft

theorem readRecord_eq (text : String)
    : readRecord text = .found (Schedule.readRecord text) := by
  rw [readRecord, Schedule.readRecord, Json.parse]
  simp only [ofRecord_eq]
  cases Schedule.ofRecord (Json.readValue [] (Json.Token.scan text.toList)).1 with
  | error problem => rfl
  | ok schedule => rfl

-----------------------------------------------------------------------------------------
-- Texts in settings
-----------------------------------------------------------------------------------------

/-- A schedule that is kept as text. -/
def ofTextTree (tree : Tree) : Attempt (Except Problem Schedule) :=
  match tree.text? with
  | .error problem => return .error problem
  | .ok text => do
    let schedule ← parse text
    return schedule.mapError .badSchedule

theorem ofTextTree_eq (tree : Tree) : ofTextTree tree = .found (Job.schedule? tree) := by
  rw [ofTextTree, Job.schedule?]
  cases tree.text? with
  | error problem => rfl
  | ok text =>
      simp only [parse_eq]
      rfl

-----------------------------------------------------------------------------------------
-- Canonical texts
-----------------------------------------------------------------------------------------

/-- The text of a mask, which is asserted not to be empty. -/
def fieldText (field : Field) (mask : Mask) : Attempt String :=
  if mask = 0 then .fault (.empty field) else .found (field.text mask)

def canonical (masks : Masks) : Attempt String := do
  let minute ← fieldText .minute (masks.on .minute)
  let hour ← fieldText .hour (masks.on .hour)
  let dayOfMonth ← fieldText .dayOfMonth (masks.on .dayOfMonth)
  let month ← fieldText .month (masks.on .month)
  let dayOfWeek ← fieldText .dayOfWeek (masks.on .dayOfWeek)
  return String.intercalate " " [minute, hour, dayOfMonth, month, dayOfWeek]

/-- A schedule has no empty mask that could not be written. -/
theorem canonical_eq (schedule : Schedule)
    : canonical schedule.masks = .found schedule.canonical := by
  have written (field : Field)
      : fieldText field (schedule.masks.on field)
        = .found (field.text (schedule.masks.on field)) :=
    if_neg (Field.ne_zero_of_accepts (schedule.valid field))
  rw [canonical, written .minute, written .hour, written .dayOfMonth, written .month,
    written .dayOfWeek]
  rfl

-----------------------------------------------------------------------------------------
-- All ways
-----------------------------------------------------------------------------------------

/-- A schedule has values of its fields only, so that a day of the week is never written 7. -/
theorem admits_of_schedule (schedule : Schedule)
    : (∀ field : Field, field.Admits (schedule.masks.on field))
      ∧ schedule.masks.dayOfWeek.has 7 = false := by
  have admits := Masks.valid_iff_admits.mp schedule.valid
  refine ⟨admits, ?_⟩
  rw [Bool.eq_false_iff]
  intro seven
  exact absurd ((admits .dayOfWeek).2 7 seven).2 (by decide)

/-- No way to a schedule meets a fault, whatever it starts from, and none is met when the
schedule is written. Each finds what it finds without checks: an error, or a schedule with at
least one value in each field and none outside of it. Masks are taken over exactly if they are
admitted, and refused for the first one that is not.
-/
theorem constructors_faultless
    : (∀ text, parse text = .found (Schedule.parse text))
      ∧ (∀ shorthand, expand shorthand = .found shorthand.schedule)
      ∧ (∀ masks interval,
          ofMasks masks interval = .found (Schedule.ofMasks masks interval)
          ∧ ((∃ schedule,
                Schedule.ofMasks masks interval = .ok schedule
                ∧ schedule.masks = masks
                ∧ schedule.interval = interval)
              ↔ ∀ field : Field, field.Admits (masks.on field))
          ∧ ∀ error,
              Schedule.ofMasks masks interval = .error error
              ↔ ∃ field, masks.Offends field ∧ error = .rejected field (masks.on field))
      ∧ (∀ tree, ofRecord tree = .found (Schedule.ofRecord tree))
      ∧ (∀ text, readRecord text = .found (Schedule.readRecord text))
      ∧ (∀ tree, ofTextTree tree = .found (Job.schedule? tree))
      ∧ ∀ schedule : Schedule,
          (∀ field : Field, field.Admits (schedule.masks.on field))
          ∧ schedule.masks.dayOfWeek.has 7 = false
          ∧ canonical schedule.masks = .found schedule.canonical := by
  refine ⟨parse_eq, expand_eq, ?_, ofRecord_eq, readRecord_eq, ofTextTree_eq, ?_⟩
  · intro masks interval
    exact ⟨ofMasks_eq masks interval, Schedule.exists_ofMasks_iff,
      fun _ => Schedule.ofMasks_eq_error_iff⟩
  · intro schedule
    obtain ⟨admits, noSeven⟩ := admits_of_schedule schedule
    exact ⟨admits, noSeven, canonical_eq schedule⟩

end Checked

end Cadence
