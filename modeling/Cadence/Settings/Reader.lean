import Cadence.Json.Reader
import Cadence.Schedule.Grammar
import Cadence.Settings
import Cadence.Toml.Reader
import Cadence.Tree.Shape

/-!
Settings as they are read from JSON and TOML. Members with other names are passed over and missing
ones take their defaults, but a job has to have a name and a schedule. Schedules are read as texts
on the way, so that one which is malformed is a problem of the settings.
-/

namespace Cadence

namespace Job

/-- What is known of a job while it is read. -/
structure Draft where
  name : Option String
  schedule : Option Schedule
  timezone : Option (Option String)

def Draft.empty : Draft :=
  ⟨none, none, none⟩

/-- A schedule that is kept as text. -/
def schedule? (tree : Tree) : Except Problem Schedule := do
  let text ← tree.text?
  (Schedule.parse text).mapError .badSchedule

def shape (surplus : Surplus) : Shape Draft where
  title := "JobConfig"
  slots :=
    [{ key := "name"
       required := true
       isSet := fun draft => draft.name.isSome
       set := fun draft tree => tree.text?.map fun name => { draft with name := some name } },
      { key := "schedule"
        required := true
        isSet := fun draft => draft.schedule.isSome
        set := fun draft tree =>
          (schedule? tree).map fun schedule => { draft with schedule := some schedule } },
      { key := "timezone"
        required := false
        isSet := fun draft => draft.timezone.isSome
        set := fun draft tree =>
          tree.optionalText?.map fun timezone => { draft with timezone := some timezone } }]
  strict := false
  surplus := surplus

def ofTree (surplus : Surplus) (tree : Tree) : Except Problem Job := do
  let draft ← (shape surplus).read .empty tree
  let name ← need "name" draft.name
  let schedule ← need "schedule" draft.schedule
  return ⟨name, schedule, draft.timezone.getD none⟩

/-- Reads a job from a JSON text. -/
def ofJson (text : String) : Except Problem Job :=
  Json.parse (ofTree .refused) text

end Job

namespace ListingDefaults

structure Draft where
  timezone : Option String
  count : Option UInt64

def Draft.empty : Draft :=
  ⟨none, none⟩

def shape (surplus : Surplus) : Shape Draft where
  title := "ScheduleConfig"
  slots :=
    [{ key := "timezone"
       required := false
       isSet := fun draft => draft.timezone.isSome
       set := fun draft tree =>
         tree.text?.map fun timezone => { draft with timezone := some timezone } },
      { key := "count"
        required := false
        isSet := fun draft => draft.count.isSome
        set := fun draft tree =>
          (tree.word? "usize").map fun count => { draft with count := some count } }]
  strict := false
  surplus := surplus

def ofTree (surplus : Surplus) (tree : Tree) : Except Problem ListingDefaults := do
  let draft ← (shape surplus).read .empty tree
  return ⟨draft.timezone.getD standard.timezone, draft.count.getD standard.count⟩

end ListingDefaults

namespace LogSettings

structure Draft where
  filter : Option String
  asJson : Option Bool

def Draft.empty : Draft :=
  ⟨none, none⟩

def shape (surplus : Surplus) : Shape Draft where
  title := "ObservabilityConfig"
  slots :=
    [{ key := "log_filter"
       required := false
       isSet := fun draft => draft.filter.isSome
       set := fun draft tree =>
         tree.text?.map fun filter => { draft with filter := some filter } },
      { key := "json_logs"
        required := false
        isSet := fun draft => draft.asJson.isSome
        set := fun draft tree =>
          tree.bool?.map fun asJson => { draft with asJson := some asJson } }]
  strict := false
  surplus := surplus

def ofTree (surplus : Surplus) (tree : Tree) : Except Problem LogSettings := do
  let draft ← (shape surplus).read .empty tree
  return ⟨draft.filter.getD standard.filter, draft.asJson.getD standard.asJson⟩

end LogSettings

namespace Settings

structure Draft where
  listing : Option ListingDefaults
  log : Option LogSettings
  jobs : Option (List Job)

def Draft.empty : Draft :=
  ⟨none, none, none⟩

def shape (surplus : Surplus) : Shape Draft where
  title := "Config"
  slots :=
    [{ key := "schedule"
       required := false
       isSet := fun draft => draft.listing.isSome
       set := fun draft tree =>
         (ListingDefaults.ofTree surplus tree).map fun listing =>
           { draft with listing := some listing } },
      { key := "observability"
        required := false
        isSet := fun draft => draft.log.isSome
        set := fun draft tree =>
          (LogSettings.ofTree surplus tree).map fun log => { draft with log := some log } },
      { key := "jobs"
        required := false
        isSet := fun draft => draft.jobs.isSome
        set := fun draft tree =>
          (tree.list? (Job.ofTree surplus)).map fun jobs => { draft with jobs := some jobs } }]
  strict := false
  surplus := surplus

def ofTree (surplus : Surplus) (tree : Tree) : Except Problem Settings := do
  let draft ← (shape surplus).read .empty tree
  return ⟨draft.listing.getD .standard, draft.log.getD .standard, draft.jobs.getD []⟩

/-- Reads settings from a JSON text. -/
def ofJson (text : String) : Except Problem Settings :=
  Json.parse (ofTree .refused) text

/-- Reads settings from a TOML text. -/
def ofToml (text : String) : Except Problem Settings :=
  match Toml.tree? text with
  | none => .error .malformed
  | some tree => ofTree .passedOver tree

end Settings

end Cadence
