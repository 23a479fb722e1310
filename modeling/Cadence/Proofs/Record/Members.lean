import Cadence.Proofs.Tree.Shapes
import Cadence.Proofs.Tree.Values
import Cadence.Schedule.Record
import Mathlib.Data.List.Perm.Basic
import Mathlib.Data.List.ReduceOption

/-! The members of a record. A draft grows by one member with every member that is read, and
takes none twice; so when it is complete, what was read are the members of the schedule in
some order. In that case nothing is refused, since every member comes while it is missing.
-/

namespace Cadence

/-- The member of a mask. -/
def maskMember (key : String) (mask : UInt64) : String × Tree :=
  (key, .integer mask.toNat)

/-- The member of the interval flag. -/
def flagMember (interval : Bool) : String × Tree :=
  ("i", .bool interval)

theorem maskMember_inj {left right : String} {mask other : UInt64}
    : maskMember left mask = maskMember right other ↔ left = right ∧ mask = other := by
  rw [maskMember, maskMember, Prod.mk.injEq, Tree.integer.injEq, Int.ofNat_inj, UInt64.toNat_inj]

theorem flagMember_inj {interval other : Bool}
    : flagMember interval = flagMember other ↔ interval = other := by
  simp [flagMember]

theorem maskMember_ne_flagMember (key : String) (mask : UInt64) (interval : Bool)
    : maskMember key mask ≠ flagMember interval := by
  simp [maskMember, flagMember]

namespace Schedule

/-- The members of a schedule's record, in the order in which they are written. -/
def members (schedule : Schedule) : List (String × Tree) :=
  [maskMember "m" schedule.masks.minute,
    maskMember "h" schedule.masks.hour,
    maskMember "dm" schedule.masks.dayOfMonth,
    maskMember "M" schedule.masks.month,
    maskMember "dw" schedule.masks.dayOfWeek,
    flagMember schedule.interval]

theorem record_eq (schedule : Schedule) : schedule.record = .named schedule.members :=
  rfl

/-- Masks are taken exactly as they are given, if at all. -/
theorem ofMasks_eq_ok_iff {masks : Masks} {interval : Bool} {schedule : Schedule}
    : ofMasks masks interval = .ok schedule
      ↔ schedule.masks = masks ∧ schedule.interval = interval := by
  constructor
  · intro made
    unfold ofMasks at made
    split at made
    · cases made
    · obtain rfl := Except.ok.inj made
      exact ⟨rfl, rfl⟩
  · rintro ⟨rfl, rfl⟩
    have accepted := Masks.rejected?_eq_none_iff.mpr schedule.valid
    unfold ofMasks
    split
    · next found => simp [accepted] at found
    · rfl

end Schedule

namespace RecordDraft

/-- The members that a draft has, in the order in which they are written. -/
def members (draft : RecordDraft) : List (String × Tree) :=
  List.reduceOption
    [draft.minute.map (maskMember "m"),
      draft.hour.map (maskMember "h"),
      draft.dayOfMonth.map (maskMember "dm"),
      draft.month.map (maskMember "M"),
      draft.dayOfWeek.map (maskMember "dw"),
      draft.interval.map flagMember]

/-- What fills a gap joins what was there. -/
theorem reduceOption_fill {α : Type} (front back : List (Option α)) (value : α)
    : (front ++ some value :: back).reduceOption.Perm
        (value :: (front ++ none :: back).reduceOption) := by
  rw [List.reduceOption_append, List.reduceOption_append, List.reduceOption_cons_of_some,
    List.reduceOption_cons_of_none]
  exact List.perm_middle

/-- The draft that has all members of a schedule's record. -/
def complete (schedule : Schedule) : RecordDraft where
  minute := some schedule.masks.minute
  hour := some schedule.masks.hour
  dayOfMonth := some schedule.masks.dayOfMonth
  month := some schedule.masks.month
  dayOfWeek := some schedule.masks.dayOfWeek
  interval := some schedule.interval

variable {draft after : RecordDraft} {schedule : Schedule}

/-- A draft gives a schedule exactly if it has all members of its record. -/
theorem schedule?_eq_ok_iff : draft.schedule? = .ok schedule ↔ draft = complete schedule := by
  constructor
  · intro made
    simp only [schedule?, bind_eq_ok_iff, need_eq_ok_iff] at made
    obtain ⟨minute, hasMinute, hour, hasHour, dayOfMonth, hasDayOfMonth, month, hasMonth,
      dayOfWeek, hasDayOfWeek, interval, hasInterval, made⟩ := made
    cases taken : Schedule.ofMasks ⟨minute, hour, dayOfMonth, month, dayOfWeek⟩ interval with
    | error error => simp [taken, Except.mapError] at made
    | ok other =>
        rw [taken] at made
        obtain rfl := Except.ok.inj made
        obtain ⟨masks, flag⟩ := Schedule.ofMasks_eq_ok_iff.mp taken
        cases draft
        simp_all [complete]
  · rintro rfl
    have taken : Schedule.ofMasks schedule.masks schedule.interval = .ok schedule :=
      Schedule.ofMasks_eq_ok_iff.mpr ⟨rfl, rfl⟩
    change (Schedule.ofMasks schedule.masks schedule.interval).mapError _ = _
    rw [taken]
    rfl

theorem members_complete (schedule : Schedule) : (complete schedule).members = schedule.members :=
  rfl

/-- A draft that has the members of a record is complete, since each of them fills a field. -/
theorem eq_complete_of_perm (perm : draft.members.Perm schedule.members)
    : draft = complete schedule := by
  have present (member : String × Tree) (listed : member ∈ schedule.members)
      : member ∈ draft.members :=
    perm.mem_iff.mpr listed
  simp only [Schedule.members, members, List.reduceOption_mem_iff, List.mem_cons,
    List.not_mem_nil, or_false, eq_comm (a := some _), Option.map_eq_some_iff,
    forall_eq_or_imp, forall_eq, maskMember_inj, flagMember_inj,
    maskMember_ne_flagMember, (maskMember_ne_flagMember _ _ _).symm,
    String.reduceEq, true_and, false_and, and_false, exists_eq_right, exists_const, or_self,
    false_or] at present
  obtain ⟨minute, hour, dayOfMonth, month, dayOfWeek, interval⟩ := draft
  simp_all only [complete]

-----------------------------------------------------------------------------------------
-- Reading members
-----------------------------------------------------------------------------------------

/-- A mask's field takes the integers of words. -/
theorem maskSlot_set_eq_ok_iff {key : String} {get : RecordDraft → Option UInt64}
    {put : RecordDraft → UInt64 → RecordDraft} {value : Tree}
    : (maskSlot key get put).set draft value = .ok after
      ↔ ∃ mask, (key, value) = maskMember key mask ∧ after = put draft mask := by
  simp only [maskMember, Prod.mk.injEq, true_and]
  change (value.word? "u64").map (put draft) = _ ↔ _
  constructor
  · intro set
    cases read : value.word? "u64" with
    | error problem => simp [read, Except.map] at set
    | ok mask =>
        rw [read] at set
        exact ⟨mask, Tree.word?_eq_ok_iff.mp read, (Except.ok.inj set).symm⟩
  · rintro ⟨mask, same, rfl⟩
    rw [Tree.word?_eq_ok_iff.mpr same]
    rfl

/-- The flag's field takes the constants. -/
theorem flagSlot_set_eq_ok_iff {value : Tree}
    : value.bool?.map (fun interval => { draft with interval := some interval }) = .ok after
      ↔ ∃ interval,
          ("i", value) = flagMember interval
          ∧ after = { draft with interval := some interval } := by
  simp only [flagMember, Prod.mk.injEq, true_and]
  constructor
  · intro set
    cases read : value.bool? with
    | error problem => simp [read, Except.map] at set
    | ok interval =>
        rw [read] at set
        exact ⟨interval, Tree.bool?_eq_ok_iff.mp read, (Except.ok.inj set).symm⟩
  · rintro ⟨interval, same, rfl⟩
    rw [Tree.bool?_eq_ok_iff.mpr same]
    rfl

/-- A field that a draft lacks joins its members when it is set. -/
theorem members_of_set {slot : Slot RecordDraft} (member : slot ∈ shape.slots) {value : Tree}
    (unset : slot.isSet draft = false) (set : slot.set draft value = .ok after)
    : after.members.Perm ((slot.key, value) :: draft.members) := by
  simp only [shape, List.mem_cons, List.not_mem_nil, or_false] at member
  rcases member with rfl | rfl | rfl | rfl | rfl | rfl
  case inr.inr.inr.inr.inr =>
    obtain ⟨interval, same, rfl⟩ := flagSlot_set_eq_ok_iff.mp set
    rw [same, members, members, Option.not_isSome_iff_eq_none.mp (Bool.eq_false_iff.mp unset)]
    exact reduceOption_fill [_, _, _, _, _] _ _
  all_goals
    obtain ⟨mask, same, rfl⟩ := maskSlot_set_eq_ok_iff.mp set
    have lacks := Option.not_isSome_iff_eq_none.mp (Bool.eq_false_iff.mp unset)
    simp only [maskSlot] at same lacks ⊢
    rw [same, members, members, lacks]
  · exact reduceOption_fill [] _ _
  · exact reduceOption_fill [_] _ _
  · exact reduceOption_fill [_, _] _ _
  · exact reduceOption_fill [_, _, _] _ _
  · exact reduceOption_fill [_, _, _, _] _ _

/-- A field is set in drafts only that have its member. -/
theorem key_mem_of_isSet {slot : Slot RecordDraft} (member : slot ∈ shape.slots)
    (isSet : slot.isSet draft = true)
    : slot.key ∈ draft.members.map Prod.fst := by
  simp only [shape, List.mem_cons, List.not_mem_nil, or_false] at member
  rw [List.mem_map]
  rcases member with rfl | rfl | rfl | rfl | rfl | rfl
  case inr.inr.inr.inr.inr =>
    obtain ⟨interval, present⟩ := Option.isSome_iff_exists.mp isSet
    exact ⟨flagMember interval, by simp [members, List.reduceOption_mem_iff, present], rfl⟩
  all_goals
    obtain ⟨mask, present⟩ := Option.isSome_iff_exists.mp isSet
    dsimp only at present
    exact ⟨maskMember _ mask, by simp [members, List.reduceOption_mem_iff, present], rfl⟩

/-- Every member of a record is taken by a field, whatever draft it comes to. -/
theorem exists_slot_set {key : String} {value : Tree} (listed : (key, value) ∈ schedule.members)
    : ∃ slot ∈ shape.slots,
        slot.key = key ∧ ∀ draft, ∃ after, slot.set draft value = .ok after := by
  have word (n : Nat) (bound : n < shape.slots.length) {get : RecordDraft → Option UInt64}
      {put : RecordDraft → UInt64 → RecordDraft} {mask : UInt64}
      (isMask : shape.slots[n] = maskSlot key get put)
      (same : (key, value) = maskMember key mask)
      : ∃ slot ∈ shape.slots,
          slot.key = key ∧ ∀ draft, ∃ after, slot.set draft value = .ok after := by
    refine ⟨_, List.getElem_mem bound, by rw [isMask]; rfl, ?_⟩
    rw [isMask]
    exact fun draft => ⟨_, maskSlot_set_eq_ok_iff.mpr ⟨mask, same, rfl⟩⟩
  simp only [Schedule.members, List.mem_cons, List.not_mem_nil, or_false] at listed
  rcases listed with same | same | same | same | same | same
  all_goals obtain ⟨rfl, _⟩ := Prod.mk.inj same
  · exact word 0 (by decide) rfl same
  · exact word 1 (by decide) rfl same
  · exact word 2 (by decide) rfl same
  · exact word 3 (by decide) rfl same
  · exact word 4 (by decide) rfl same
  · exact ⟨shape.slots[5], List.getElem_mem _, rfl, fun draft =>
      ⟨_, flagSlot_set_eq_ok_iff.mpr ⟨_, same, rfl⟩⟩⟩

/-- Members that are read join those that the draft has, by induction on them. -/
theorem perm_of_readMembers {listed : List (Option String × Tree)}
    (read : shape.readMembers draft listed = .ok after)
    : ∃ members : List (String × Tree),
        listed = members.map (fun (key, value) => (some key, value))
        ∧ after.members.Perm (members ++ draft.members) := by
  induction listed generalizing draft with
  | nil =>
      obtain rfl := Except.ok.inj read
      exact ⟨[], rfl, .refl _⟩
  | cons member listed ih =>
      obtain ⟨name, value⟩ := member
      cases name with
      | none => cases read
      | some key =>
          rw [Shape.readMembers, bind_eq_ok_iff] at read
          obtain ⟨between, first, later⟩ := read
          obtain ⟨slot, present, rfl, unset, set⟩ :=
            (Shape.readMember_eq_ok_iff (by rfl) (by decide)).mp first
          obtain ⟨members, rfl, joined⟩ := ih later
          refine ⟨(slot.key, value) :: members, rfl, ?_⟩
          have grown := members_of_set present unset set
          exact (joined.trans (grown.append_left members)).trans List.perm_middle

/-- The missing members of a record complete the draft in any order, by induction on them. -/
theorem readMembers_of_perm {members : List (String × Tree)}
    (perm : (members ++ draft.members).Perm schedule.members)
    : shape.readMembers draft (members.map fun (key, value) => (some key, value))
      = .ok (complete schedule) := by
  induction members generalizing draft with
  | nil => exact congrArg Except.ok (eq_complete_of_perm perm)
  | cons member members ih =>
      obtain ⟨key, value⟩ := member
      obtain ⟨slot, present, rfl, sets⟩ :=
        exists_slot_set (perm.mem_iff.mp (List.mem_append_left _ List.mem_cons_self))
      have unset : slot.isSet draft = false := by
        rw [Bool.eq_false_iff]
        intro isSet
        have distinct : (schedule.members.map Prod.fst).Nodup := by
          simp [Schedule.members, maskMember, flagMember]
        have keys := (perm.map Prod.fst).nodup_iff.mpr distinct
        rw [List.map_append, List.map_cons, List.cons_append, List.nodup_cons] at keys
        exact keys.1 (List.mem_append_right _ (key_mem_of_isSet present isSet))
      obtain ⟨between, set⟩ := sets draft
      have first : shape.readMember draft slot.key value = .ok between :=
        (Shape.readMember_eq_ok_iff (by rfl) (by decide)).mpr ⟨slot, present, rfl, unset, set⟩
      have grown := members_of_set present unset set
      have later := ih (((grown.append_left members).trans List.perm_middle).trans perm)
      exact bind_eq_ok_iff.mpr ⟨between, first, later⟩

/-- Items that set all fields are the values of the record that they complete. -/
theorem sets_iff {items : List Tree}
    : Shape.Sets shape.slots items .empty (complete schedule)
      ↔ items = schedule.members.map Prod.snd := by
  constructor
  · intro sets
    generalize whole : complete schedule = after at sets
    obtain _ | ⟨first, _ | ⟨second, _ | ⟨third, _ | ⟨fourth, _ | ⟨fifth, _ | ⟨sixth,
      _ | _⟩⟩⟩⟩⟩⟩ := sets
    obtain ⟨_, minute, rfl⟩ := maskSlot_set_eq_ok_iff.mp first
    obtain ⟨_, hour, rfl⟩ := maskSlot_set_eq_ok_iff.mp second
    obtain ⟨_, dayOfMonth, rfl⟩ := maskSlot_set_eq_ok_iff.mp third
    obtain ⟨_, month, rfl⟩ := maskSlot_set_eq_ok_iff.mp fourth
    obtain ⟨_, dayOfWeek, rfl⟩ := maskSlot_set_eq_ok_iff.mp fifth
    obtain ⟨_, interval, rfl⟩ := flagSlot_set_eq_ok_iff.mp sixth
    simp only [complete, RecordDraft.mk.injEq, Option.some.injEq] at whole
    obtain ⟨rfl, rfl, rfl, rfl, rfl, rfl⟩ := whole
    simp only [Schedule.members, ← minute, ← hour, ← dayOfMonth, ← month, ← dayOfWeek,
      ← interval, List.map_cons, List.map_nil]
  · rintro rfl
    exact .cons (maskSlot_set_eq_ok_iff.mpr ⟨_, rfl, rfl⟩)
      (.cons (maskSlot_set_eq_ok_iff.mpr ⟨_, rfl, rfl⟩)
        (.cons (maskSlot_set_eq_ok_iff.mpr ⟨_, rfl, rfl⟩)
          (.cons (maskSlot_set_eq_ok_iff.mpr ⟨_, rfl, rfl⟩)
            (.cons (maskSlot_set_eq_ok_iff.mpr ⟨_, rfl, rfl⟩)
              (.cons (flagSlot_set_eq_ok_iff.mpr ⟨_, rfl, rfl⟩) (.nil _))))))

end RecordDraft

namespace Schedule

open RecordDraft

/-- A table is read as a schedule exactly if it has the members of its record, in any
order.
-/
theorem ofRecord_table_iff {listed : List (Option String × Tree)} {closed : Bool}
    {schedule : Schedule}
    : ofRecord (.table listed closed) = .ok schedule
      ↔ ∃ members : List (String × Tree),
          Tree.table listed closed = .named members ∧ members.Perm schedule.members := by
  have start : RecordDraft.empty.members = [] := rfl
  simp only [ofRecord, Shape.read, bind_eq_ok_iff, schedule?_eq_ok_iff, exists_eq_right]
  constructor
  · rintro ⟨draft, read, whole⟩
    split at whole
    · next closed =>
      obtain rfl := Except.ok.inj whole
      obtain ⟨members, rfl, perm⟩ := perm_of_readMembers read
      rw [members_complete, start, List.append_nil] at perm
      rw [closed]
      exact ⟨members, rfl, perm.symm⟩
    · cases whole
  · rintro ⟨members, same, perm⟩
    obtain ⟨rfl, rfl⟩ := Tree.table.inj same
    rw [← List.append_nil members, ← start] at perm
    exact ⟨complete schedule, readMembers_of_perm perm, rfl⟩

/-- A list is read as a schedule exactly if it has the values of its record, in order. -/
theorem ofRecord_list_iff {items : List Tree} {closed : Bool} {schedule : Schedule}
    : ofRecord (.list items closed) = .ok schedule
      ↔ closed = true ∧ items = schedule.members.map Prod.snd := by
  have required : ∀ slot ∈ shape.slots, slot.required = true := by
    simp [shape, maskSlot]
  simp only [ofRecord, Shape.read, bind_eq_ok_iff, schedule?_eq_ok_iff, exists_eq_right]
  rw [Shape.readItems_eq_ok_iff rfl required, sets_iff]

end Schedule

end Cadence
