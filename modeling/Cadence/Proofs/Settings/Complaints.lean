import Cadence.Command.Answer
import Mathlib

/-! What is complained about in settings. The issues are those of the usual zone, of the
count, and then of one job after the other; a job is held against all jobs before it. The
scan of the jobs keeps the names that it has seen, which are the names of the jobs so far
that are not blank, so that of the jobs with one such name all but the first are refused.
-/

namespace Cadence

-----------------------------------------------------------------------------------------
-- Issues and their order
-----------------------------------------------------------------------------------------

/-- The errors of a job that comes after some others, with the path of the field at fault. -/
inductive Job.Errs (known : String → Bool) (earlier : List Job) (job : Job)
    : String → Issue → Prop where
  | blank (blank : Text.isAllBlank job.name)
    : Errs known earlier job ("jobs[" ++ toString earlier.length ++ "].name")
        ⟨.jobName earlier.length, .blankName⟩
  | duplicate (visible : ¬ Text.isAllBlank job.name)
    (repeated : ∃ other ∈ earlier, other.name = job.name)
    : Errs known earlier job ("jobs[" ++ toString earlier.length ++ "].name")
        ⟨.jobName earlier.length, .duplicateName job.name⟩
  | timezone {name : String} (own : job.timezone = some name) (unknown : ¬ known name)
    : Errs known earlier job ("jobs[" ++ toString earlier.length ++ "].timezone")
        ⟨.jobTimezone earlier.length, .unknownTimezone name⟩

/-- What a job is refused for is an error, and its path names the place. -/
theorem Job.Errs.told {known : String → Bool} {earlier : List Job} {job : Job} {path : String}
    {issue : Issue} (errs : job.Errs known earlier path issue)
    : issue.severity = .error ∧ issue.place.name = path := by
  cases errs <;> exact ⟨rfl, rfl⟩

/-- What is wrong or doubtful about settings, with the path of the field at fault. -/
inductive Settings.Finds (settings : Settings) (known : String → Bool)
    : Severity → String → Issue → Prop where
  | timezone (unknown : ¬ known settings.listing.timezone)
    : Finds settings known .error "schedule.timezone"
        ⟨.listingTimezone, .unknownTimezone settings.listing.timezone⟩
  | zeroCount (zero : settings.listing.count = 0)
    : Finds settings known .error "schedule.count" ⟨.listingCount, .zeroCount⟩
  | highCount (many : 1000 < settings.listing.count)
    : Finds settings known .warning "schedule.count"
        ⟨.listingCount, .highCount settings.listing.count⟩
  | job {earlier later : List Job} {job : Job} {path : String} {issue : Issue}
    (listed : settings.jobs = earlier ++ job :: later) (errs : job.Errs known earlier path issue)
    : Finds settings known .error path issue

/-- Where an issue stands: the listing comes first, its zone before its count, and then the
jobs one by one, each with its name before its zone.
-/
def Place.position : Place → Nat
  | .listingTimezone => 0
  | .listingCount => 1
  | .jobName index => 2 * index + 2
  | .jobTimezone index => 2 * index + 3

/-- The order of issues; no two of them stand in the same place. -/
def Issue.Before (left right : Issue) : Prop :=
  left.place.position < right.place.position

/-- Whether an issue is about the name of a job. -/
def Issue.isAboutName (issue : Issue) : Bool :=
  match issue.place with
  | .jobName _ => true
  | _ => false

namespace Settings

/-- Settings without a fault. -/
structure IsClear (settings : Settings) (known : String → Bool) : Prop where
  timezone : known settings.listing.timezone
  positive : settings.listing.count ≠ 0
  few : settings.listing.count ≤ 1000
  visible : ∀ job ∈ settings.jobs, ¬ Text.isAllBlank job.name
  distinct : (settings.jobs.map Job.name).Nodup
  timezones : ∀ job ∈ settings.jobs, ∀ name ∈ job.timezone, known name

/-- The names of jobs that are not blank. -/
def visibleNames (jobs : List Job) : List String :=
  (jobs.map Job.name).filter (!Text.isAllBlank ·)

-----------------------------------------------------------------------------------------
-- Single issues
-----------------------------------------------------------------------------------------

variable {known : String → Bool} {issue : Issue}

theorem mem_timezoneIssue {place : Place} {name : String}
    : issue ∈ timezoneIssue known place name
      ↔ ¬ known name ∧ issue = ⟨place, .unknownTimezone name⟩ := by
  rw [timezoneIssue]
  split
  · next isKnown => simp [isKnown]
  · next unknown => simp [unknown]

theorem mem_countIssue {count : UInt64}
    : issue ∈ countIssue count
      ↔ count = 0 ∧ issue = ⟨.listingCount, .zeroCount⟩
        ∨ 1000 < count ∧ issue = ⟨.listingCount, .highCount count⟩ := by
  rw [countIssue]
  split
  · next zero => simp [zero]
  · next other =>
    split
    · next many => simp [other, show 1000 < count from many]
    · next few => simp [other, show ¬ 1000 < count from few]

/-- The issues of a job's own zone, if it has one. -/
theorem mem_ownTimezoneIssue {place : Place} {timezone : Option String}
    : issue ∈ timezone.toList.flatMap (timezoneIssue known place)
      ↔ ∃ name, timezone = some name ∧ ¬ known name ∧ issue = ⟨place, .unknownTimezone name⟩ := by
  simp only [List.mem_flatMap, Option.mem_toList, mem_timezoneIssue]

theorem mem_nameIssue {seen : List String} {index : Nat} {name : String}
    : issue ∈ nameIssue seen index name
      ↔ Text.isAllBlank name ∧ issue = ⟨.jobName index, .blankName⟩
        ∨ ¬ Text.isAllBlank name ∧ name ∈ seen
          ∧ issue = ⟨.jobName index, .duplicateName name⟩ := by
  rw [nameIssue]
  split
  · next blank => simp [blank]
  · next visible =>
    split
    · next repeated => simp [visible, List.contains_iff_mem.mp repeated]
    · next fresh =>
      have absent : name ∉ seen := fun member => fresh (List.contains_iff_mem.mpr member)
      simp [visible, absent]

-----------------------------------------------------------------------------------------
-- The scan of the jobs
-----------------------------------------------------------------------------------------

/-- The names that are kept after a job. -/
def kept (seen : List String) (job : Job) : List String :=
  if Text.isAllBlank job.name then seen else job.name :: seen

/-- After jobs, the names seen are their names that are not blank. -/
def HasSeen (seen : List String) (jobs : List Job) : Prop :=
  ∀ name, name ∈ seen ↔ name ∈ visibleNames jobs

theorem HasSeen.kept {seen : List String} {jobs : List Job} (hasSeen : HasSeen seen jobs)
    (job : Job)
    : HasSeen (kept seen job) (jobs ++ [job]) := by
  intro name
  rw [Settings.kept, visibleNames, List.map_append, List.filter_append, List.mem_append,
    ← visibleNames, ← hasSeen name]
  split
  · next blank => simp [blank]
  · next visible => simp [visible, or_comm]

/-- The names and zones of one job are its errors after the jobs that were seen. -/
theorem mem_ownIssues {seen : List String} {earlier : List Job} (hasSeen : HasSeen seen earlier)
    {job : Job}
    : (issue ∈ nameIssue seen earlier.length job.name
        ∨ issue ∈ job.timezone.toList.flatMap
            (timezoneIssue known (.jobTimezone earlier.length)))
      ↔ job.Errs known earlier issue.place.name issue := by
  have repeats (visible : ¬ Text.isAllBlank job.name)
      : job.name ∈ seen ↔ ∃ other ∈ earlier, other.name = job.name := by
    simp [hasSeen job.name, visibleNames, visible]
  rw [mem_nameIssue, mem_ownTimezoneIssue]
  constructor
  · rintro ((⟨blank, rfl⟩ | ⟨visible, member, rfl⟩) | ⟨name, own, unknown, rfl⟩)
    · exact Job.Errs.blank blank
    · exact Job.Errs.duplicate visible ((repeats visible).mp member)
    · exact Job.Errs.timezone own unknown
  · intro errs
    generalize issue.place.name = path at errs
    cases errs with
    | blank blank => exact Or.inl (Or.inl ⟨blank, rfl⟩)
    | duplicate visible repeated =>
        exact Or.inl (Or.inr ⟨visible, (repeats visible).mpr repeated, rfl⟩)
    | timezone own unknown => exact Or.inr ⟨_, own, unknown, rfl⟩

/-- The scan finds the errors of every job after the jobs before it, by induction on the
jobs: the names kept are those of one more job each time.
-/
theorem mem_jobIssues {seen : List String} {earlier jobs : List Job}
    (hasSeen : HasSeen seen earlier)
    : issue ∈ jobIssues known seen earlier.length jobs
      ↔ ∃ front job later,
          jobs = front ++ job :: later
            ∧ job.Errs known (earlier ++ front) issue.place.name issue := by
  induction jobs generalizing seen earlier with
  | nil => simp [jobIssues]
  | cons job jobs ih =>
      have further := ih (hasSeen.kept job)
      rw [List.length_append, List.length_singleton] at further
      rw [jobIssues, List.mem_append, List.mem_append, mem_ownIssues hasSeen, ← kept, further]
      constructor
      · rintro (errs | ⟨front, other, later, rfl, errs⟩)
        · exact ⟨[], job, jobs, rfl, by simpa using errs⟩
        · exact ⟨job :: front, other, later, rfl, by simpa using errs⟩
      · rintro ⟨front, other, later, listed, errs⟩
        cases front with
        | nil =>
            obtain ⟨rfl, rfl⟩ := List.cons.inj listed
            exact Or.inl (by simpa using errs)
        | cons first front =>
            obtain ⟨rfl, rfl⟩ := List.cons.inj listed
            exact Or.inr ⟨front, other, later, rfl, by simpa using errs⟩

/-- The issues of settings are exactly those that the settings give cause for. -/
theorem finds_iff_mem_issues {settings : Settings} {severity : Severity} {path : String}
    : settings.Finds known severity path issue
      ↔ issue ∈ settings.issues known ∧ issue.severity = severity ∧ issue.place.name = path := by
  have nothingSeen : HasSeen [] [] := fun name => by simp [visibleNames]
  have scan : issue ∈ jobIssues known [] 0 settings.jobs ↔ _ := mem_jobIssues nothingSeen
  simp only [List.nil_append] at scan
  rw [issues, List.mem_append, List.mem_append, mem_timezoneIssue, mem_countIssue, scan]
  constructor
  · intro finds
    cases finds with
    | timezone unknown => exact ⟨Or.inl (Or.inl ⟨unknown, rfl⟩), rfl, rfl⟩
    | zeroCount zero => exact ⟨Or.inl (Or.inr (Or.inl ⟨zero, rfl⟩)), rfl, rfl⟩
    | highCount many => exact ⟨Or.inl (Or.inr (Or.inr ⟨many, rfl⟩)), rfl, rfl⟩
    | job listed errs =>
        obtain ⟨isError, rfl⟩ := errs.told
        exact ⟨Or.inr ⟨_, _, _, listed, errs⟩, isError, rfl⟩
  · rintro ⟨((⟨unknown, rfl⟩ | ⟨zero, rfl⟩ | ⟨many, rfl⟩) | ⟨_, _, _, listed, errs⟩), rfl, rfl⟩
    · exact Finds.timezone unknown
    · exact Finds.zeroCount zero
    · exact Finds.highCount many
    · rw [errs.told.1]
      exact Finds.job listed errs

-----------------------------------------------------------------------------------------
-- Their order
-----------------------------------------------------------------------------------------

/-- The issues of jobs from an index on stand behind all places of earlier jobs. -/
theorem position_of_mem_jobIssues {seen : List String} {index : Nat} {jobs : List Job}
    (member : issue ∈ jobIssues known seen index jobs)
    : 2 * index + 2 ≤ issue.place.position := by
  induction jobs generalizing seen index with
  | nil => simp [jobIssues] at member
  | cons job jobs ih =>
      rw [jobIssues, List.mem_append, List.mem_append, mem_nameIssue, mem_ownTimezoneIssue]
        at member
      rcases member with ((⟨_, rfl⟩ | ⟨_, _, rfl⟩) | ⟨_, _, _, rfl⟩) | later
      · exact Nat.le_refl _
      · exact Nat.le_refl _
      · exact Nat.le_succ _
      · have behind := ih later
        omega

theorem nameIssue_ascends (seen : List String) (index : Nat) (name : String)
    : (nameIssue seen index name).Pairwise Issue.Before := by
  rw [nameIssue]
  split
  · exact List.pairwise_singleton _ _
  · split
    · exact List.pairwise_singleton _ _
    · exact List.Pairwise.nil

theorem timezoneIssue_ascends (known : String → Bool) (place : Place) (name : String)
    : (timezoneIssue known place name).Pairwise Issue.Before := by
  rw [timezoneIssue]
  split
  · exact List.Pairwise.nil
  · exact List.pairwise_singleton _ _

theorem countIssue_ascends (count : UInt64) : (countIssue count).Pairwise Issue.Before := by
  rw [countIssue]
  split
  · exact List.pairwise_singleton _ _
  · split
    · exact List.pairwise_singleton _ _
    · exact List.Pairwise.nil

/-- The issues of jobs are in order, by induction on the jobs. -/
theorem jobIssues_ascend (known : String → Bool) (seen : List String) (index : Nat)
    (jobs : List Job)
    : (jobIssues known seen index jobs).Pairwise Issue.Before := by
  induction jobs generalizing seen index with
  | nil => exact List.Pairwise.nil
  | cons job jobs ih =>
      have own : (job.timezone.toList.flatMap
          (timezoneIssue known (.jobTimezone index))).Pairwise Issue.Before := by
        cases job.timezone with
        | none => exact List.Pairwise.nil
        | some name => simpa using timezoneIssue_ascends known (.jobTimezone index) name
      rw [jobIssues, List.pairwise_append, List.pairwise_append]
      refine ⟨⟨nameIssue_ascends seen index job.name, own, ?_⟩, ih _ _, ?_⟩
      · intro left first right second
        rw [mem_nameIssue] at first
        obtain ⟨_, _, _, rfl⟩ := mem_ownTimezoneIssue.mp second
        rcases first with ⟨_, rfl⟩ | ⟨_, _, rfl⟩
        · exact Nat.lt_succ_self _
        · exact Nat.lt_succ_self _
      · intro left first right second
        have behind := position_of_mem_jobIssues second
        rw [List.mem_append, mem_nameIssue, mem_ownTimezoneIssue] at first
        rcases first with (⟨_, rfl⟩ | ⟨_, _, rfl⟩) | ⟨_, _, _, rfl⟩
        · exact show 2 * index + 2 < right.place.position by omega
        · exact show 2 * index + 2 < right.place.position by omega
        · exact show 2 * index + 3 < right.place.position by omega

theorem issues_ascend (settings : Settings) (known : String → Bool)
    : (settings.issues known).Pairwise Issue.Before := by
  rw [issues, List.pairwise_append, List.pairwise_append]
  refine ⟨⟨timezoneIssue_ascends _ _ _, countIssue_ascends _, ?_⟩, jobIssues_ascend _ _ _ _, ?_⟩
  · intro left first right second
    obtain ⟨_, rfl⟩ := mem_timezoneIssue.mp first
    rcases mem_countIssue.mp second with ⟨_, rfl⟩ | ⟨_, rfl⟩
    · exact Nat.zero_lt_one
    · exact Nat.zero_lt_one
  · intro left first right second
    have behind := position_of_mem_jobIssues second
    rw [List.mem_append, mem_timezoneIssue, mem_countIssue] at first
    rcases first with ⟨_, rfl⟩ | ⟨_, rfl⟩ | ⟨_, rfl⟩
    · exact Nat.lt_of_lt_of_le Nat.zero_lt_two behind
    · exact behind
    · exact behind

-----------------------------------------------------------------------------------------
-- How many names are refused
-----------------------------------------------------------------------------------------

/-- Issues of zones are not about names. -/
theorem countP_timezoneIssue (known : String → Bool) (place : Place)
    (elsewhere : ∀ index, place ≠ .jobName index) (timezone : Option String)
    : (timezone.toList.flatMap (timezoneIssue known place)).countP Issue.isAboutName = 0 := by
  rw [List.countP_eq_zero]
  intro issue member
  obtain ⟨_, _, _, rfl⟩ := mem_ownTimezoneIssue.mp member
  cases place with
  | jobName index => exact absurd rfl (elsewhere index)
  | listingTimezone | listingCount | jobTimezone => simp [Issue.isAboutName]

theorem countP_countIssue (count : UInt64)
    : (countIssue count).countP Issue.isAboutName = 0 := by
  rw [List.countP_eq_zero]
  intro issue member
  rcases mem_countIssue.mp member with ⟨_, rfl⟩ | ⟨_, rfl⟩
  · simp [Issue.isAboutName]
  · simp [Issue.isAboutName]

/-- The name of a job is refused, or else it is new and one fewer is left to be seen. -/
theorem countP_nameIssue (seen : List String) (index : Nat) (job : Job) (jobs : List Job)
    : (nameIssue seen index job.name).countP Issue.isAboutName
        + ((visibleNames (job :: jobs)).toFinset \ seen.toFinset).card
      = ((visibleNames jobs).toFinset \ (kept seen job).toFinset).card + 1 := by
  by_cases blank : Text.isAllBlank job.name
  · simp [nameIssue, kept, visibleNames, blank, Issue.isAboutName, Nat.add_comm]
  · have names : visibleNames (job :: jobs) = job.name :: visibleNames jobs := by
      simp [visibleNames, blank]
    rw [names, kept, if_neg blank, List.toFinset_cons, List.toFinset_cons]
    by_cases repeated : job.name ∈ seen
    · have member := List.mem_toFinset.mpr repeated
      rw [Finset.insert_sdiff_of_mem _ member, Finset.insert_eq_of_mem member]
      simp [nameIssue, blank, repeated, Issue.isAboutName, Nat.add_comm]
    · have split : insert job.name (visibleNames jobs).toFinset \ seen.toFinset
          = insert job.name
              ((visibleNames jobs).toFinset \ insert job.name seen.toFinset) := by
        ext name
        simp only [Finset.mem_sdiff, Finset.mem_insert, List.mem_toFinset]
        by_cases same : name = job.name
        · simp [same, repeated]
        · simp [same]
      rw [split, Finset.card_insert_of_notMem (by simp)]
      simp [nameIssue, blank, repeated]

/-- Every job has its name refused or adds one to the names seen, by induction on the jobs.
-/
theorem countP_jobIssues (known : String → Bool) (seen : List String) (index : Nat)
    (jobs : List Job)
    : (jobIssues known seen index jobs).countP Issue.isAboutName
        + ((visibleNames jobs).toFinset \ seen.toFinset).card
      = jobs.length := by
  induction jobs generalizing seen index with
  | nil => simp [jobIssues, visibleNames]
  | cons job jobs ih =>
      have rest := ih (kept seen job) (index + 1)
      have first := countP_nameIssue seen index job jobs
      have zone := countP_timezoneIssue known (.jobTimezone index) (by simp) job.timezone
      rw [jobIssues, List.countP_append, List.countP_append, zone, ← kept, List.length_cons]
      omega

/-- As many names are refused as there are jobs beyond the different names. -/
theorem countP_issues (settings : Settings) (known : String → Bool)
    : (settings.issues known).countP Issue.isAboutName
        + (visibleNames settings.jobs).toFinset.card
      = settings.jobs.length := by
  have timezone : (timezoneIssue known .listingTimezone settings.listing.timezone).countP
      Issue.isAboutName = 0 := by
    simpa using countP_timezoneIssue known .listingTimezone (by simp)
      (some settings.listing.timezone)
  have jobs := countP_jobIssues known [] 0 settings.jobs
  rw [List.toFinset_nil, Finset.sdiff_empty] at jobs
  rw [issues, List.countP_append, List.countP_append, timezone, countP_countIssue, Nat.zero_add,
    jobs]

/-- There are as many different names as jobs exactly if no name is blank or repeated. -/
theorem card_visibleNames_iff (jobs : List Job)
    : (visibleNames jobs).toFinset.card = jobs.length
      ↔ (∀ job ∈ jobs, ¬ Text.isAllBlank job.name) ∧ (jobs.map Job.name).Nodup := by
  have whole : (jobs.map Job.name).length = jobs.length := List.length_map _
  have visible : (∀ name ∈ jobs.map Job.name, (!Text.isAllBlank name) = true)
      ↔ ∀ job ∈ jobs, ¬ Text.isAllBlank job.name := by
    simp
  constructor
  · intro full
    have atMost := (visibleNames jobs).toFinset_card_le
    have kept : (visibleNames jobs).length ≤ (jobs.map Job.name).length :=
      List.length_filter_le _ _
    have all := List.length_filter_eq_length_iff.mp (show (visibleNames jobs).length = _ by omega)
    refine ⟨visible.mp all, ?_⟩
    rw [visibleNames, List.filter_eq_self.mpr all, ← whole] at full
    exact Multiset.toFinset_card_eq_card_iff_nodup.mp full
  · intro clear
    obtain ⟨named, distinct⟩ := clear
    rw [visibleNames, List.filter_eq_self.mpr (visible.mpr named),
      List.toFinset_card_of_nodup distinct, whole]

-----------------------------------------------------------------------------------------
-- What the issues amount to
-----------------------------------------------------------------------------------------

/-- Nothing is found exactly if nothing is at fault: a name at fault would be counted. -/
theorem issues_eq_nil_iff {settings : Settings}
    : settings.issues known = [] ↔ settings.IsClear known := by
  have counted := settings.countP_issues known
  have names := card_visibleNames_iff settings.jobs
  constructor
  · intro nothing
    have unfound (severity : Severity) (path : String) (issue : Issue)
        : ¬ settings.Finds known severity path issue := by
      rw [finds_iff_mem_issues, nothing]
      simp
    rw [nothing, List.countP_nil, Nat.zero_add] at counted
    obtain ⟨visible, distinct⟩ := names.mp counted
    refine ⟨?_, ?_, ?_, visible, distinct, ?_⟩
    · by_contra unknown
      exact unfound _ _ _ (Finds.timezone unknown)
    · intro zero
      exact unfound _ _ _ (Finds.zeroCount zero)
    · by_contra many
      exact unfound _ _ _ (Finds.highCount (UInt64.not_le.mp many))
    · intro job member name own
      by_contra unknown
      obtain ⟨earlier, later, listed⟩ := List.append_of_mem member
      exact unfound _ _ _ (Finds.job listed (Job.Errs.timezone own unknown))
  · intro clear
    have none : (settings.issues known).countP Issue.isAboutName = 0 := by
      have full := names.mpr ⟨clear.visible, clear.distinct⟩
      omega
    have unnamed := List.countP_eq_zero.mp none
    rw [List.eq_nil_iff_forall_not_mem]
    intro issue member
    have finds := finds_iff_mem_issues.mpr ⟨member, rfl, rfl⟩
    generalize issue.severity = severity, issue.place.name = path at finds
    cases finds with
    | timezone unknown => exact unknown clear.timezone
    | zeroCount zero => exact clear.positive zero
    | highCount many => exact UInt64.not_le.mpr many clear.few
    | job listed errs =>
        cases errs with
        | blank => exact unnamed _ member rfl
        | duplicate => exact unnamed _ member rfl
        | timezone own unknown =>
            exact unknown (clear.timezones _ (by simp [listed]) _ own)

theorem areAcceptable_iff {settings : Settings}
    : areAcceptable (settings.issues known)
      ↔ ∀ path issue, ¬ settings.Finds known .error path issue := by
  simp only [areAcceptable, List.all_eq_true, bne_iff_ne, finds_iff_mem_issues, not_and]
  exact ⟨fun fine path issue member isError => absurd isError (fine issue member),
    fun unfound issue member isError => unfound _ issue member isError rfl⟩

/-- Checking settings ends well exactly if no error is found; warnings are told, but do not
matter.
-/
theorem status_checked_iff [Atlas] (settings : Settings) (path : String)
    : (Command.checked settings path).status = 0
      ↔ ∀ path issue, ¬ settings.Finds Atlas.isKnown .error path issue := by
  rw [← areAcceptable_iff, Command.checked]
  split
  · next nothing =>
    rw [List.isEmpty_iff] at nothing
    simp [nothing, areAcceptable, Outcome.status]
  · split
    · next acceptable => simp [acceptable, Outcome.status]
    · next refused => simp [refused, Outcome.status]

/-- The issues of settings are exactly those that there is cause for, each with its severity
and its path: an unknown zone of the listing, a count of nothing or of very much, and for
every job a name that is blank or that an earlier job has, and a zone of its own that is
unknown. They are in the order of their places, and no two stand in one place. So a name is
refused for every job beyond the different names, there are no issues exactly if nothing is
at fault, and the settings are accepted exactly if no issue is an error.
-/
theorem issues_exact (settings : Settings) (known : String → Bool)
    : (∀ severity path issue,
        settings.Finds known severity path issue
        ↔ issue ∈ settings.issues known ∧ issue.severity = severity ∧ issue.place.name = path)
      ∧ (settings.issues known).Pairwise Issue.Before
      ∧ (settings.issues known).countP Issue.isAboutName
          + (visibleNames settings.jobs).toFinset.card
        = settings.jobs.length
      ∧ (settings.issues known = [] ↔ settings.IsClear known)
      ∧ (areAcceptable (settings.issues known)
          ↔ ∀ path issue, ¬ settings.Finds known .error path issue)
      ∧ ∀ [Atlas] (path : String),
          (Command.checked settings path).status = 0
          ↔ ∀ path issue, ¬ settings.Finds Atlas.isKnown .error path issue :=
  ⟨fun _ _ _ => finds_iff_mem_issues, settings.issues_ascend known, settings.countP_issues known,
    issues_eq_nil_iff, areAcceptable_iff, settings.status_checked_iff⟩

-- Names that differ in blanks are different, and blank ones are refused each for itself.
example (schedule : Schedule)
    : jobIssues (· == "Mars") [] 0
        [⟨"a", schedule, none⟩, ⟨" ", schedule, none⟩, ⟨"a ", schedule, none⟩,
          ⟨" ", schedule, none⟩, ⟨"a", schedule, some "Moon"⟩]
      = [⟨.jobName 1, .blankName⟩, ⟨.jobName 3, .blankName⟩, ⟨.jobName 4, .duplicateName "a"⟩,
        ⟨.jobTimezone 4, .unknownTimezone "Moon"⟩] := by
  cbv

end Settings

end Cadence
