import Cadence.Proofs.Settings.StoredJob
import Cadence.Proofs.Tree.Values
import Mathlib.Data.List.Forall2

/-! Settings that are written and read again. What is read is what was written, except that
the schedules of jobs are made anew from their canonical texts, with the same masks; and
since only masks are written, the text is the same as before. So after one cycle of writing
and reading all further cycles change nothing.
-/

namespace Cadence

-----------------------------------------------------------------------------------------
-- What a cycle keeps
-----------------------------------------------------------------------------------------

/-- Jobs with the same name and time zone, whose schedules are equal. -/
structure Job.Agrees (left right : Job) : Prop where
  name : left.name = right.name
  schedule : left.schedule == right.schedule
  timezone : left.timezone = right.timezone

/-- Settings with the same defaults and log, and with jobs that agree one by one. -/
structure Settings.Agrees (left right : Settings) : Prop where
  listing : left.listing = right.listing
  log : left.log = right.log
  jobs : List.Forall₂ Job.Agrees left.jobs right.jobs

/-- A job that is loaded again agrees with the one that was stored. -/
theorem Job.reloaded_agrees (job : Job) : job.reloaded.Agrees job :=
  ⟨rfl, beq_self_eq_true job.schedule.masks, rfl⟩

/-- A job that is loaded again is written as before. -/
theorem Job.tree_reloaded (job : Job) : job.reloaded.tree = job.tree :=
  rfl

namespace Settings

/-- The settings that are read after others are written. -/
def reloaded (settings : Settings) : Settings :=
  { settings with jobs := settings.jobs.map Job.reloaded }

theorem reloaded_agrees (settings : Settings) : settings.reloaded.Agrees settings := by
  refine ⟨rfl, rfl, ?_⟩
  rw [reloaded, List.forall₂_map_left_iff]
  exact List.forall₂_same.mpr fun job _ => job.reloaded_agrees

theorem toJson_reloaded (settings : Settings) : settings.reloaded.toJson = settings.toJson := by
  have jobs : settings.reloaded.jobs.map Job.tree = settings.jobs.map Job.tree := by
    rw [reloaded, List.map_map]
    exact List.map_congr_left fun job _ => job.tree_reloaded
  rw [toJson, toJson, tree, tree, jobs]
  rfl

/-- A flag that was made anew once is made the same again. -/
theorem reloaded_reloaded (settings : Settings)
    : settings.reloaded.reloaded = settings.reloaded := by
  have jobs : (settings.jobs.map Job.reloaded).map Job.reloaded
      = settings.jobs.map Job.reloaded := by
    rw [List.map_map]
    exact List.map_congr_left fun job _ => rfl
  simp only [reloaded, jobs]

-----------------------------------------------------------------------------------------
-- Reading what is written
-----------------------------------------------------------------------------------------

/-- Settings are written as a tree with a whole text. -/
theorem writable_tree (settings : Settings) : Json.Writable settings.tree := by
  have listing : Json.Writable (.named
      [("timezone", .text settings.listing.timezone),
        ("count", .integer settings.listing.count.toNat)]) :=
    .table (by simp [Json.Writable.text, Json.Writable.word settings.listing.count])
  have log : Json.Writable (.named
      [("log_filter", .text settings.log.filter), ("json_logs", .bool settings.log.asJson)]) :=
    .table (by simp [Json.Writable.text, Json.Writable.bool])
  have jobs : Json.Writable (.list (settings.jobs.map Job.tree) true) :=
    .list (by simpa using fun job _ => job.writable_tree)
  exact .table (by simpa using ⟨listing, log, jobs⟩)

/-- The defaults of listings are read from a text and a word, one member after the other. -/
theorem listing_ofTree {surplus : Surplus} {timezone : String} {number : Tree} {count : UInt64}
    (word : number.word? "usize" = .ok count)
    : ListingDefaults.ofTree surplus (.named [("timezone", .text timezone), ("count", number)])
      = .ok ⟨timezone, count⟩ := by
  have first : (ListingDefaults.shape surplus).readMember .empty "timezone" (.text timezone)
      = .ok ⟨some timezone, none⟩ :=
    rfl
  have second : (ListingDefaults.shape surplus).readMember ⟨some timezone, none⟩ "count" number
      = .ok ⟨some timezone, some count⟩ := by
    change (number.word? "usize").map _ = _
    rw [word]
    rfl
  simp only [ListingDefaults.ofTree, Tree.named, List.map_cons, List.map_nil, Shape.read,
    Shape.readMembers, first, second, bind, Except.bind]
  rfl

/-- The settings of the log are read back. -/
theorem log_ofTree (surplus : Surplus) (log : LogSettings)
    : LogSettings.ofTree surplus
        (.named [("log_filter", .text log.filter), ("json_logs", .bool log.asJson)])
      = .ok log :=
  rfl

/-- Settings are read from trees of their parts, one member after the other. -/
theorem ofTree_of_parts {surplus : Surplus} {listing : ListingDefaults} {log : LogSettings}
    {jobs : List Job} {listingTree logTree jobsTree : Tree}
    (listingRead : ListingDefaults.ofTree surplus listingTree = .ok listing)
    (logRead : LogSettings.ofTree surplus logTree = .ok log)
    (jobsRead : jobsTree.list? (Job.ofTree surplus) = .ok jobs)
    : ofTree surplus
        (.named [("schedule", listingTree), ("observability", logTree), ("jobs", jobsTree)])
      = .ok ⟨listing, log, jobs⟩ := by
  have first : (shape surplus).readMember .empty "schedule" listingTree
      = .ok ⟨some listing, none, none⟩ := by
    change (ListingDefaults.ofTree surplus listingTree).map _ = _
    rw [listingRead]
    rfl
  have second : (shape surplus).readMember ⟨some listing, none, none⟩ "observability" logTree
      = .ok ⟨some listing, some log, none⟩ := by
    change (LogSettings.ofTree surplus logTree).map _ = _
    rw [logRead]
    rfl
  have third : (shape surplus).readMember ⟨some listing, some log, none⟩ "jobs" jobsTree
      = .ok ⟨some listing, some log, some jobs⟩ := by
    change (jobsTree.list? (Job.ofTree surplus)).map _ = _
    rw [jobsRead]
    rfl
  simp only [ofTree, Tree.named, List.map_cons, List.map_nil, Shape.read, Shape.readMembers,
    first, second, third, bind, Except.bind]
  rfl

/-- The tree of settings is read as the settings with new flags, in every notation. -/
theorem ofTree_tree (settings : Settings) (surplus : Surplus)
    : ofTree surplus settings.tree = .ok settings.reloaded :=
  ofTree_of_parts (listing_ofTree (Tree.word?_eq_ok_iff.mpr rfl)) (log_ofTree surplus _)
    (Tree.list?_map (fun job => job.ofTree_tree surplus) settings.jobs)

/-- The JSON text of settings is read as the settings with new flags. -/
theorem ofJson_toJson (settings : Settings)
    : ofJson settings.toJson = .ok settings.reloaded := by
  rw [ofJson, toJson, Json.parse_write settings.writable_tree, ofTree_tree]

-----------------------------------------------------------------------------------------
-- Cycles
-----------------------------------------------------------------------------------------

/-- Settings that are written and read again some number of times. -/
def cycled (settings : Settings) : Nat → Except Problem Settings
  | 0 => .ok settings
  | n + 1 => do
    let again ← settings.cycled n
    ofJson again.toJson

/-- All cycles end with the settings that the first one ends with, by induction on them. -/
theorem cycled_succ (settings : Settings) (n : Nat)
    : settings.cycled (n + 1) = .ok settings.reloaded := by
  induction n with
  | zero => exact settings.ofJson_toJson
  | succ n ih =>
      rw [cycled, ih]
      change ofJson settings.reloaded.toJson = _
      rw [ofJson_toJson, reloaded_reloaded]

/-- Settings that are written and read again have the same defaults and log, and jobs with
the same names, schedules and time zones in the same order; they are written as before, and
further cycles end with the very same settings.
-/
theorem cycled_settles (settings : Settings)
    : ∃ again : Settings,
        ofJson settings.toJson = .ok again
        ∧ again.Agrees settings
        ∧ again.toJson = settings.toJson
        ∧ ∀ n, settings.cycled (n + 1) = .ok again :=
  ⟨settings.reloaded, settings.ofJson_toJson, settings.reloaded_agrees,
    settings.toJson_reloaded, settings.cycled_succ⟩

end Settings

end Cadence
