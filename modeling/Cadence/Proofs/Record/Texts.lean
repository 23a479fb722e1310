import Cadence.Proofs.Json.Grammar
import Cadence.Proofs.Record.Members

/-! The JSON texts of a schedule's record. Whatever the order of the members, the spelling of
their names and the white space, and also as a list of values, a text is read as the schedule
whose record it holds, and no other text is. It is written with the members in order.
-/

namespace Cadence.Schedule

/-- A text holds the record of a schedule: a table of its members in any order, or a list of
their values, with names in any spelling and any white space.
-/
inductive RecordIn (schedule : Schedule) (text : String) : Prop where
  | table {members : List (String × Tree)} (order : members.Perm schedule.members)
      (spaced : Json.Spaced text.toList (Json.tokens (.named members)))
  | list
      (spaced
        : Json.Spaced text.toList (Json.tokens (.list (schedule.members.map Prod.snd) true)))

variable {schedule : Schedule}

/-- The values of a record can be written. -/
theorem writable_of_mem_members {member : String × Tree} (listed : member ∈ schedule.members)
    : Json.Writable member.2 := by
  simp only [members, List.mem_cons, List.not_mem_nil, or_false] at listed
  rcases listed with rfl | rfl | rfl | rfl | rfl | rfl
  case inr.inr.inr.inr.inr => exact .bool _
  all_goals exact .word _

theorem writable_named {members : List (String × Tree)} (order : members.Perm schedule.members)
    : Json.Writable (.named members) :=
  .table fun _ listed => writable_of_mem_members (order.mem_iff.mp listed)

theorem writable_values (schedule : Schedule)
    : Json.Writable (.list (schedule.members.map Prod.snd) true) := by
  apply Json.Writable.list
  rw [List.forall_mem_map]
  exact fun _ => writable_of_mem_members

/-- A record is written with its members in order and no white space. -/
theorem writeRecord_eq (schedule : Schedule)
    : schedule.writeRecord
      = "\x7b\"m\":" ++ toString schedule.masks.minute.toNat
        ++ ",\"h\":" ++ toString schedule.masks.hour.toNat
        ++ ",\"dm\":" ++ toString schedule.masks.dayOfMonth.toNat
        ++ ",\"M\":" ++ toString schedule.masks.month.toNat
        ++ ",\"dw\":" ++ toString schedule.masks.dayOfWeek.toNat
        ++ ",\"i\":" ++ toString schedule.interval ++ "\x7d" := by
  have word (mask : UInt64) : Json.integer mask.toNat = (toString mask.toNat).toList := rfl
  have flag (value : Bool) : Json.constant value = (toString value).toList := by
    cases value <;> rfl
  have name (key : String) : Json.name (some key) = Json.Quoted.write key := rfl
  apply String.toList_inj.mp
  simp only [writeRecord, Json.write, String.toList_ofList, record_eq, members, maskMember,
    flagMember, Tree.named, List.map_cons, List.map_nil, Json.compact, Json.compactMembers, word,
    flag, name, Json.Quoted.write, String.toList_append]
  simp [Json.Quoted.escape]

/-- The texts that are read as a schedule are those that hold its record. -/
theorem readRecord_eq_ok_iff {text : String}
    : readRecord text = .ok schedule ↔ schedule.RecordIn text := by
  rw [readRecord, Json.parse_eq_ok_iff]
  constructor
  · rintro ⟨tree, read, made⟩
    cases tree with
    | table listed closed =>
        obtain ⟨members, same, order⟩ := ofRecord_table_iff.mp made
        rw [same] at read
        exact .table order ((Json.readValue_eq_iff_spaced (writable_named order)).mp read)
    | list items closed =>
        obtain ⟨rfl, rfl⟩ := ofRecord_list_iff.mp made
        exact .list ((Json.readValue_eq_iff_spaced (writable_values schedule)).mp read)
    | _ => cases made
  · rintro (⟨order, spaced⟩ | spaced)
    · exact ⟨_, (Json.readValue_eq_iff_spaced (writable_named order)).mpr spaced,
        ofRecord_table_iff.mpr ⟨_, rfl, order⟩⟩
    · exact ⟨_, (Json.readValue_eq_iff_spaced (writable_values schedule)).mpr spaced,
        ofRecord_list_iff.mpr ⟨rfl, rfl⟩⟩

/-- A record is written with its members in order and no white space; this text is read as
the schedule, and so are exactly those that hold the same members in any order, or the list
of their values, with any white space.
-/
theorem readRecord_exact (schedule : Schedule)
    : schedule.writeRecord
        = "\x7b\"m\":" ++ toString schedule.masks.minute.toNat
          ++ ",\"h\":" ++ toString schedule.masks.hour.toNat
          ++ ",\"dm\":" ++ toString schedule.masks.dayOfMonth.toNat
          ++ ",\"M\":" ++ toString schedule.masks.month.toNat
          ++ ",\"dw\":" ++ toString schedule.masks.dayOfWeek.toNat
          ++ ",\"i\":" ++ toString schedule.interval ++ "\x7d"
      ∧ readRecord schedule.writeRecord = .ok schedule
      ∧ ∀ text, readRecord text = .ok schedule ↔ schedule.RecordIn text := by
  refine ⟨schedule.writeRecord_eq, ?_, fun text => readRecord_eq_ok_iff⟩
  rw [readRecord, writeRecord, record_eq, Json.parse_write (writable_named (.refl _))]
  exact ofRecord_table_iff.mpr ⟨schedule.members, rfl, .refl _⟩

/-- Every minute of the first hour, in another order. -/
example
    : readRecord "\x7b\"i\": false, \"dw\": 127, \"M\": 8190,\n \"\\u0064m\": 4294967294,
        \"h\": 1, \"m\": 1152921504606846975\x7d"
      = .ok ⟨⟨0xfffffffffffffff, 1, 0xfffffffe, 0x1ffe, 0x7f⟩, false, by decide⟩ := by
  cbv

end Cadence.Schedule
