import Cadence.Command.Answer
import Cadence.Proofs.Listing.WrittenTimes
import Cadence.Proofs.Occurrence.Found
import Cadence.Proofs.Text.Pieces
import Cadence.Zone.Atlas

/-! Listings go on from their own lines. A search starts from a moment alone, and the line of
an occurrence gives back its moment. So the pass of a repeated window in which the line lies
has not to be known: the moment decides on it, as it does within the listing.
-/

namespace Cadence

-----------------------------------------------------------------------------------------
-- Lines
-----------------------------------------------------------------------------------------

/-- The lines of a text; an empty text has none. -/
def linesOf (text : String) : List String :=
  if text.isEmpty then [] else (Text.splitWhere (· == '\n') text.toList).map String.ofList

/-- A text that is one line: it is not empty, and no line ends within it. -/
structure IsLine (text : String) : Prop where
  nonempty : text ≠ ""
  clean : Text.Clean (· == '\n') text.toList

/-- Joined lines are found again. -/
theorem linesOf_joinLines {lines : List String} (proper : ∀ line ∈ lines, IsLine line)
    : linesOf (joinLines lines) = lines := by
  cases lines with
  | nil => rfl
  | cons first others =>
      have clean : ∀ piece ∈ (first :: others).map String.toList,
          Text.Clean (· == '\n') piece := by
        simpa using fun line member => (proper line member).clean
      have written : (joinLines (first :: others)).toList
          = ['\n'].intercalate ((first :: others).map String.toList) :=
        String.toList_intercalate
      have pieces := @Text.splitWhere_intercalate (· == '\n') '\n' rfl _ (by simp) clean
      rw [← written] at pieces
      have something : joinLines (first :: others) ≠ "" := by
        intro nothing
        have alone : [[]] = (first :: others).map String.toList := by
          rw [← pieces, nothing]
          rfl
        have empty : first = "" := String.toList_eq_nil_iff.mp (List.cons.inj alone).1.symm
        exact (proper first List.mem_cons_self).nonempty empty
      rw [linesOf, if_neg (by simpa using something), pieces, List.map_map]
      simp

namespace Rfc3339

/-- A written time is a line, as its characters are digits and marks between them. -/
theorem isLine_write (time seconds : Int) : IsLine (write time seconds) := by
  have inNumber (width value : Nat) : '\n' ∉ padded width value := by
    intro member
    exact absurd (isDigit_of_mem_padded member) (by decide)
  have inYear (value : Int) : '\n' ∉ year value := by
    rw [year]
    split
    · exact inNumber 4 _
    · split <;> simp [inNumber]
  have inOffset : '\n' ∉ offset seconds := by
    rw [offset]
    split <;> simp [inNumber]
  constructor
  · simp [write, wall]
  · intro c member
    rw [beq_eq_false_iff_ne]
    rintro rfl
    simp [write, wall, inNumber, inYear, inOffset] at member

end Rfc3339

-----------------------------------------------------------------------------------------
-- The rest of a listing
-----------------------------------------------------------------------------------------

/-- What follows an occurrence in a listing is what is listed after its moment, by induction
on the occurrences before it.
-/
theorem Schedule.drop_upcomingIn {schedule : Schedule} {zone : Zone} {after : Moment}
    {m n : Nat} {occurrence : Occurrence}
    (shown : (schedule.upcomingIn zone after (m + 1 + n))[m]? = some occurrence)
    : (schedule.upcomingIn zone after (m + 1 + n)).drop (m + 1)
      = schedule.upcomingIn zone (Moment.counted occurrence.instant) n := by
  induction m generalizing after with
  | zero =>
      rw [Nat.zero_add, Nat.add_comm, upcomingIn] at shown ⊢
      cases found : schedule.nextIn zone after with
      | none => simp [found] at shown
      | some first =>
          simp only [found, List.getElem?_cons_zero, Option.some.injEq] at shown
          simp [shown]
  | succ m ih =>
      rw [Nat.add_right_comm (m + 1), upcomingIn] at shown ⊢
      cases found : schedule.nextIn zone after with
      | none => simp [found] at shown
      | some first =>
          simp only [found, List.getElem?_cons_succ] at shown
          simpa using ih shown

-----------------------------------------------------------------------------------------
-- Offsets
-----------------------------------------------------------------------------------------

/-- All offsets under which a zone shows a time are less than a day. -/
def NamedZone.Bounded (named : NamedZone) : Prop :=
  ∀ wall offset,
    (named.zone.classify wall).Names offset → -86400 < offset ∧ offset < 86400

/-- All clocks of an atlas are less than a day off UTC. -/
def Atlas.Bounded [Atlas] : Prop :=
  ∀ name zone, find? name = some zone → zone.Bounded

/-- A name stands for a zone of the atlas, or else for UTC. -/
theorem Atlas.Bounded.named [Atlas] (bounded : Atlas.Bounded) (name : String)
    : (Atlas.named name).Bounded := by
  rw [Atlas.named]
  cases found : find? name with
  | some zone => exact bounded name zone found
  | none =>
      intro wall offset (only : offset = 0)
      omega

/-- In a named zone all occurrences have offsets of less than a day, since an offset that is
found is one of the zone.
-/
theorem Upcoming.offset_bounded [Atlas] (bounded : Atlas.Bounded) {schedule : Schedule}
    {timezone : String} {after : Moment} {count : Nat} {occurrence : Occurrence}
    (listed : occurrence ∈ (Upcoming.list schedule timezone after count).occurrences)
    : -86400 < occurrence.offset ∧ occurrence.offset < 86400 := by
  obtain ⟨wall, named⟩ := (Schedule.isFound_of_mem_upcomingIn listed).named
  exact bounded.named timezone wall _ named

-----------------------------------------------------------------------------------------
-- Listings from a line on
-----------------------------------------------------------------------------------------

/-- An occurrence that its line spells in full: the offset is of whole minutes, and the year
has four digits.
-/
structure Occurrence.IsSpelt (occurrence : Occurrence) : Prop where
  whole : occurrence.offset % 60 = 0
  years : 0 ≤ (Clock.date occurrence.wall).year ∧ (Clock.date occurrence.wall).year ≤ 9999

/-- The line of an occurrence is read as its moment, and the occurrences after that moment
are those after the occurrence.
-/
theorem Schedule.upcomingIn_of_line {schedule : Schedule} {zone : Zone} {after : Moment}
    {m n : Nat} {occurrence : Occurrence} (positive : 1 ≤ m)
    (shown : (schedule.upcomingIn zone after (m + n))[m - 1]? = some occurrence)
    (spelt : occurrence.IsSpelt)
    (bounded : -86400 < occurrence.offset ∧ occurrence.offset < 86400)
    : ∃ moment,
        Command.moment? occurrence.line = .ok moment
        ∧ schedule.upcomingIn zone moment n
          = (schedule.upcomingIn zone after (m + n)).drop m := by
  obtain ⟨before, rfl⟩ : ∃ before, m = before + 1 := ⟨m - 1, by omega⟩
  refine ⟨Moment.counted occurrence.instant, ?_, (drop_upcomingIn shown).symm⟩
  rw [Command.moment?, Occurrence.line,
    Rfc3339.moment?_write spelt.years spelt.whole bounded]
  rfl

namespace Command

/-- A plain listing has one line for each occurrence. -/
theorem linesOf_write (upcoming : Upcoming)
    : linesOf (upcoming.write .plain) = upcoming.occurrences.map Occurrence.line := by
  apply linesOf_joinLines
  intro line member
  obtain ⟨occurrence, -, rfl⟩ := List.mem_map.mp member
  exact Rfc3339.isLine_write occurrence.wall occurrence.offset

/-- A listing of a schedule that is accepted is made unless it is too long. -/
theorem upcoming_eq_ok_iff [Atlas] {expression timezone text : String} {schedule : Schedule}
    {start : Moment} {count : Nat} {layout : Layout}
    (parsed : Schedule.parse expression = .ok schedule)
    : upcoming expression start timezone count layout = .ok text
      ↔ count < listLimit
        ∧ (Upcoming.list schedule timezone start count).write layout = text := by
  have accepted : schedule? expression = .ok schedule := by
    rw [schedule?, parsed]
    rfl
  rw [upcoming, accepted]
  by_cases room : count < listLimit
  · simp [bind, Except.bind, room, Nat.not_le.mpr room, pure, Except.pure]
  · simp [bind, Except.bind, room, Nat.not_lt.mp room, throw, throwThe, MonadExceptOf.throw]

/-- A plain listing has one line for each occurrence, and it goes on from each line that is
spelt in full: what is listed after the line, as if it were asked for by itself, is what
follows the line in the listing. It does not matter whether the line lies in the first or the
second pass of a repeated window, nor what the atlas is, as long as its clocks are less than a
day off UTC.
-/
theorem listed_resumes [Atlas] (bounded : Atlas.Bounded) {expression timezone text : String}
    {schedule : Schedule} {start : Moment} {m n : Nat} {occurrence : Occurrence}
    (parsed : Schedule.parse expression = .ok schedule)
    (printed : upcoming expression start timezone (m + n) .plain = .ok text)
    (positive : 1 ≤ m)
    (shown
      : (Upcoming.list schedule timezone start (m + n)).occurrences[m - 1]?
        = some occurrence)
    (spelt : occurrence.IsSpelt)
    : linesOf text
        = (Upcoming.list schedule timezone start (m + n)).occurrences.map Occurrence.line
      ∧ ∀ now,
          ∃ rest,
            listed now expression (some occurrence.line) timezone n .plain = .ok rest
            ∧ linesOf rest = (linesOf text).drop m := by
  obtain ⟨room, rfl⟩ := (upcoming_eq_ok_iff parsed).mp printed
  refine ⟨linesOf_write _, ?_⟩
  intro now
  have offset := Upcoming.offset_bounded bounded (List.mem_of_getElem? shown)
  obtain ⟨moment, read, later⟩ := Schedule.upcomingIn_of_line positive shown spelt offset
  refine ⟨(Upcoming.list schedule timezone moment n).write .plain, ?_, ?_⟩
  · rw [listed, start?, read]
    exact (upcoming_eq_ok_iff parsed).mpr ⟨by omega, rfl⟩
  · rw [linesOf_write, linesOf_write, ← List.map_drop]
    exact congrArg (List.map Occurrence.line) later

end Command

-----------------------------------------------------------------------------------------
-- The atlas of tables
-----------------------------------------------------------------------------------------

namespace ZoneTable

/-- A table shows a time under offsets of its own. -/
theorem mem_offsets_of_names {table : ZoneTable} {wall offset : Int}
    (named : (table.named.zone.classify wall).Names offset)
    : offset ∈ table.offsets := by
  simp only [ZoneTable.named, NamedZone.zone, offsetsOf] at named
  split at named
  · cases named
  · next only kept =>
    obtain rfl : offset = only := named
    exact List.mem_of_mem_filter (kept ▸ List.mem_singleton_self _)
  · next one other rest kept =>
    have among : offset = one ∨ offset = other := by
      simp only [LocalTime.ofOffsets] at named
      split at named
      · exact named
      · exact named.symm
    apply List.mem_of_mem_filter
    rw [kept]
    rcases among with rfl | rfl
    · exact List.mem_cons_self
    · exact List.mem_cons_of_mem _ List.mem_cons_self

end ZoneTable

/-- The offsets of all tables are less than a day. -/
theorem Atlas.offsets_bounded
    : ∀ table ∈ tables, ∀ offset ∈ table.offsets, -86400 < offset ∧ offset < 86400 := by
  decide +kernel

theorem Atlas.bounded_tables : Atlas.Bounded := by
  intro name zone found wall offset named
  obtain ⟨table, listed, rfl⟩ := Option.map_eq_some_iff.mp found
  exact offsets_bounded table (List.mem_of_find?_eq_some listed) offset
    (ZoneTable.mem_offsets_of_names named)

namespace Command

/-- Where the clocks of New York are set back, the second showing of one o'clock is followed by
two o'clock, also in a listing that goes on from its line.
-/
theorem listed_resumes_secondPass
    : Schedule.parse "@hourly" = .ok Shorthand.hourly.schedule
      ∧ ∃ text rest,
          upcoming "@hourly" (Moment.counted 1730608200) "America/New_York" (2 + 1) .plain
            = .ok text
          ∧ listed 0 "@hourly" (some "2024-11-03T01:00:00-05:00") "America/New_York" 1 .plain
            = .ok rest
          ∧ linesOf text
            = ["2024-11-03T01:00:00-04:00", "2024-11-03T01:00:00-05:00",
              "2024-11-03T02:00:00-05:00"]
          ∧ linesOf rest = ["2024-11-03T02:00:00-05:00"] := by
  let start := Moment.counted 1730608200
  let twice : Occurrence := ⟨1730595600, -18000⟩
  have parsed : Schedule.parse "@hourly" = .ok Shorthand.hourly.schedule := by cbv
  have found : (Upcoming.list Shorthand.hourly.schedule "America/New_York" start
        (2 + 1)).occurrences
      = [⟨1730595600, -14400⟩, twice, ⟨1730599200, -18000⟩] := by
    cbv
  have line : twice.line = "2024-11-03T01:00:00-05:00" := by decide +kernel
  have printed : upcoming "@hourly" start "America/New_York" (2 + 1) .plain
      = .ok ((Upcoming.list Shorthand.hourly.schedule "America/New_York" start
          (2 + 1)).write .plain) :=
    (upcoming_eq_ok_iff parsed).mpr ⟨by decide +kernel, rfl⟩
  have spelt : twice.IsSpelt := ⟨by decide, by decide +kernel⟩
  have shown : (Upcoming.list Shorthand.hourly.schedule "America/New_York" start
        (2 + 1)).occurrences[2 - 1]?
      = some twice := by
    rw [found]
    rfl
  obtain ⟨lines, resumed⟩ :=
    listed_resumes Atlas.bounded_tables parsed printed (by decide) shown spelt
  obtain ⟨rest, again, later⟩ := resumed 0
  rw [line] at again
  rw [found] at lines
  refine ⟨parsed, _, rest, printed, again, ?_, ?_⟩
  · rw [lines]
    decide +kernel
  · rw [later, lines]
    decide +kernel

end Command

end Cadence
