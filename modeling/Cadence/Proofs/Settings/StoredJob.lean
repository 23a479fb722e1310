import Cadence.Proofs.Canonical.Spread
import Cadence.Proofs.Json.Trees
import Cadence.Proofs.Occurrence.NextFiring
import Cadence.Proofs.Occurrence.SameMasks
import Cadence.Settings.Reader
import Cadence.Settings.Writer

/-! Jobs that are stored and loaded again. Their schedules are stored as canonical texts,
which say when a schedule is due but not whether it was written as an interval; that is
decided anew by the text. So a job that is loaded again fires at the same times, except in
the second pass of a window, where it may have become an interval or stopped being one.
-/

namespace Cadence.Job

/-- The job that is loaded after another one is stored. -/
def reloaded (job : Job) : Job :=
  { job with schedule := job.schedule.reread }

/-- A job is written as a tree with a whole text. -/
theorem writable_tree (job : Job) : Json.Writable job.tree := by
  apply Json.Writable.table
  cases job.timezone with
  | none => simp [Json.Writable.text]
  | some timezone => simp [Json.Writable.text]

/-- A canonical text is read as the schedule with a new flag. -/
theorem schedule?_canonical (schedule : Schedule)
    : schedule? (.text schedule.canonical) = .ok schedule.reread := by
  simp only [schedule?, Tree.text?, bind, Except.bind, Schedule.parse_canonical_eq]
  rfl

/-- The tree of a job is read as the job with a new flag, in every notation, one member
after the other.
-/
theorem ofTree_tree (job : Job) (surplus : Surplus)
    : ofTree surplus job.tree = .ok job.reloaded := by
  obtain ⟨name, schedule, timezone⟩ := job
  have first : (shape surplus).readMember .empty "name" (.text name)
      = .ok ⟨some name, none, none⟩ :=
    rfl
  have second : (shape surplus).readMember ⟨some name, none, none⟩ "schedule"
      (.text schedule.canonical) = .ok ⟨some name, some schedule.reread, none⟩ := by
    change (schedule? (.text schedule.canonical)).map _ = _
    rw [schedule?_canonical]
    rfl
  have third (zone : String)
      : (shape surplus).readMember ⟨some name, some schedule.reread, none⟩ "timezone"
          (.text zone) = .ok ⟨some name, some schedule.reread, some (some zone)⟩ :=
    rfl
  cases timezone with
  | none =>
      simp only [ofTree, tree, Tree.named, Shape.read, Shape.readMembers, Option.toList_none,
        List.map_nil, List.append_nil, List.map_cons, first, second, bind, Except.bind]
      rfl
  | some zone =>
      simp only [ofTree, tree, Tree.named, Shape.read, Shape.readMembers, Option.toList_some,
        List.map_nil, List.cons_append, List.nil_append, List.map_cons, first, second, third,
        bind, Except.bind]
      rfl

/-- The JSON text of a job is read as the job with a new flag. -/
theorem ofJson_toJson (job : Job) : ofJson job.toJson = .ok job.reloaded := by
  rw [ofJson, toJson, Json.parse_write job.writable_tree, ofTree_tree]

end Cadence.Job
