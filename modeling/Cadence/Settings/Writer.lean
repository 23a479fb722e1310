import Cadence.Json.Writer
import Cadence.Settings
import Cadence.Toml.Writer

/-!
Settings as they are written, with everything that was left to a default filled in. Schedules are
written as their canonical texts; a job without a zone of its own has no such member.
-/

namespace Cadence

namespace Job

def tree (job : Job) : Tree :=
  .named
    ([("name", .text job.name), ("schedule", .text job.schedule.canonical)]
      ++ job.timezone.toList.map fun timezone => ("timezone", .text timezone))

/-- The JSON text of a job. -/
def toJson (job : Job) : String :=
  Json.write job.tree

/-- The lines of a job in TOML. -/
def lines (job : Job) : List (String × Toml.Leaf) :=
  [("name", .text job.name), ("schedule", .text job.schedule.canonical)]
    ++ job.timezone.toList.map fun timezone => ("timezone", .text timezone)

end Job

namespace Settings

def tree (settings : Settings) : Tree :=
  .named
    [("schedule",
        .named
          [("timezone", .text settings.listing.timezone),
            ("count", .integer settings.listing.count.toNat)]),
      ("observability",
        .named
          [("log_filter", .text settings.log.filter), ("json_logs", .bool settings.log.asJson)]),
      ("jobs", .list (settings.jobs.map Job.tree) true)]

/-- The JSON text of settings. -/
def toJson (settings : Settings) : String :=
  Json.write settings.tree

/-- The sections of settings in TOML; a list without jobs is a line before all headers. -/
def sections (settings : Settings) : List Toml.Section :=
  [⟨none, if settings.jobs.isEmpty then [("jobs", .emptyList)] else []⟩,
    ⟨some "[schedule]",
      [("timezone", .text settings.listing.timezone), ("count", .word settings.listing.count)]⟩,
    ⟨some "[observability]",
      [("log_filter", .text settings.log.filter), ("json_logs", .bool settings.log.asJson)]⟩]
  ++ settings.jobs.map fun job => ⟨some "[[jobs]]", job.lines⟩

/-- The TOML text of settings. -/
def toToml (settings : Settings) : Except Toml.WriteError String :=
  Toml.write settings.sections

end Settings

end Cadence
