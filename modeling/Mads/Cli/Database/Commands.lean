import Mads.Cli.Command
import Mads.Cli.Database.MigrationRun
import Mads.Cli.Database.PublishAtomic
import Mads.Cli.Database.SqlDocument
import Mads.Common.Database.MigrationOperations
import Mads.Library.Text

/-!
# What the database commands print

Each line of a command names one version or one directory.  Read one after the other, the lines of
the commands keep the account of a project's migrations.
-/

namespace Mads

namespace DatabaseCommands

open CommandLine Database FileTree

/-! ### The commands -/

def migrateLines (report : MigrationReport) : List String :=
  if report.isEmpty then ["database is up to date"] else report.versions.map ("applied " ++ ·)

def rollbackLines (report : MigrationReport) : List String :=
  report.versions.map ("reverted " ++ ·)

def statusLines (status : MigrationStatus) : List String :=
  status.applied.map ("applied " ++ ·) ++ status.pending.map ("pending " ++ ·) ++
    ["summary: " ++ toString status.applied.length ++ " applied, " ++
      toString status.pending.length ++ " pending"]

/-- `CliError::database`, as it is printed. -/
def failureText : MigrationFailure → String
  | .migration (some .noMigrationRun) => "no migration is available to revert"
  | failure => failure.error.display

/-- How `publish_migration` can end: the directory is there, perhaps not for good, or nothing is. -/
inductive Publication where
  | published (timestamp : String)
  | uncertain (timestamp : String) (error : CliError)
  | failed (error : CliError)

/-- What a command meets outside. -/
structure World where
  root : Path
  project : Except String Unit
  migrations : Except String Unit
  connect : Except DatabaseError Unit
  connection : Connection
  desired : Except CliError DesiredSchema
  live : Except CliError LiveSchema
  publication : Publication

/-- The migrations directory of the project, and the table of the applied versions. -/
structure State where
  directories : List String
  applied : List String
  deriving DecidableEq

def State.source (runner : Runner) (state : State) : List Migration :=
  runner.load state.directories

def directoryOf (timestamp : String) : String := timestamp ++ "_schema_diff"

def State.publish (state : State) (timestamp : String) : State :=
  { state with directories := state.directories ++ [directoryOf timestamp] }

/-- `format_generated_path`; the path always starts with the root. -/
def formatGeneratedPath (root path : Path) : Except String String :=
  if root.isPrefixOf path then .ok (Publish.display (path.drop root.length))
  else .error (Publish.publicationMessage
    "the generated migration path is outside the selected package root").display

def haltText : Halt CliError → String
  | .err error => error.display
  | .panic message => message
  | .diverge => ""

/-- What is printed of a migration that was generated. -/
def generatedLines (plan : MigrationPlan) (path : String) : List String :=
  (Sql.renderMigration plan).warnings.map ("warning: " ++ ·) ++
    ["generated " ++ path, "review up.sql and down.sql before applying"]

/-- What is planned, from what is found. -/
def planned (world : World) : Except String MigrationPlan := do
  let desired ← world.desired.mapError CliError.display
  world.project
  world.connect.mapError DatabaseError.display
  let live ← world.live.mapError CliError.display
  (planDiff desired live).mapError haltText

def generate (world : World) (state : State) : State × Except String (List String) :=
  match planned world with
  | .error text => (state, .error text)
  | .ok plan =>
    if plan.isEmpty then (state, .ok ["schema is up to date"])
    else
      match world.publication with
      | .failed error => (state, .error error.display)
      | .uncertain timestamp error => (state.publish timestamp, .error error.display)
      | .published timestamp => (state.publish timestamp,
          (formatGeneratedPath world.root (Publish.finalPathOf world.root timestamp)).map
            (generatedLines plan))

/-- The operation of a command on an open database: the table afterwards, and what is printed. -/
def operate (runner : Runner) (source : List Migration) (applied : List String)
    (connection : Connection) : MigrationCommand → List String × Except String (List String)
  | .migrate =>
    let (after, result) := runPendingMigrations runner source applied connection
    (after, (result.map migrateLines).mapError failureText)
  | .rollback =>
    let (after, result) := revertLast source applied connection
    (after, (result.map rollbackLines).mapError failureText)
  | .status =>
    (applied, ((migrationStatus source applied connection).map statusLines).mapError failureText)

/-- A command that works on the migrations: the project, its migrations and the database are opened
one after the other. -/
def executeOperation (runner : Runner) (operation : MigrationCommand) (world : World)
    (state : State) : State × Except String (List String) :=
  match world.project, world.migrations, world.connect with
  | .error text, _, _ => (state, .error text)
  | .ok (), .error text, _ => (state, .error text)
  | .ok (), .ok (), .error error => (state, .error error.display)
  | .ok (), .ok (), .ok () =>
    let (applied, result) :=
      operate runner (state.source runner) state.applied world.connection operation
    ({ state with applied }, result)

/-- `execute`: the project after a command, and what is printed. -/
def execute (runner : Runner) (command : DatabaseCommand) (world : World) (state : State) :
    State × Except String (List String) :=
  match command with
  | .generate => generate world state
  | .migrate => executeOperation runner .migrate world state
  | .rollback => executeOperation runner .rollback world state
  | .status => executeOperation runner .status world state
  | .help =>
    (state, do
      world.project
      world.connect.mapError DatabaseError.display
      pure [])

/-- A command for the project, or what else uses the database. -/
inductive Event (ι : Type) where
  | command (command : DatabaseCommand) (world : World)
  | other (request : Database.Request ι)

abbrev Printed := DatabaseCommand × Except String (List String)

variable {ι : Type}

def step (runner : Runner) (sources : ι → List Migration) (state : State) :
    Event ι → State × Option Printed
  | .command command world =>
    let (after, result) := execute runner command world state
    (after, some (command, result))
  | .other request =>
    ({ state with applied := (perform runner sources state.applied request).1 }, none)

/-! ### The account -/

structure Account where
  applied : List String
  pending : List String
  deriving DecidableEq, Repr

namespace Account

/-- What is named behind a word. -/
def named (word : String) (lines : List String) : List String :=
  lines.filterMap fun line => Text.stripPrefix line word

/-- What is read of the output of a command. -/
def read (account : Account) : Printed → Account
  | (_, .error _) => account
  | (.migrate, .ok lines) =>
    let versions := named "applied " lines
    ⟨orderedSet (account.applied ++ versions),
      account.pending.filter fun version => !versions.contains version⟩
  | (.rollback, .ok lines) =>
    let versions := named "reverted " lines
    ⟨account.applied.filter fun version => !versions.contains version,
      orderedSet (account.pending ++ versions)⟩
  | (.status, .ok lines) => ⟨named "applied " lines, named "pending " lines⟩
  | (.generate, .ok lines) =>
    let versions := (named "generated migrations/" lines).map directoryVersion
    ⟨account.applied, orderedSet (account.pending ++ versions)⟩
  | (.help, .ok _) => account

/-- What a status would tell. -/
def current (source : List Migration) (applied : List String) : Account :=
  (⟨[], []⟩ : Account).read (.status, .ok (statusLines (statusOf source applied)))

end Account

def State.account (runner : Runner) (state : State) : Account :=
  .current (state.source runner) state.applied

/-! ### What the lines tell -/

open Account

theorem named_append (word : String) (lines more : List String) :
    named word (lines ++ more) = named word lines ++ named word more :=
  List.filterMap_append

theorem named_map (word : String) (versions : List String) :
    named word (versions.map (word ++ ·)) = versions := by
  rw [named, List.filterMap_map]
  exact (List.filterMap_congr fun version _ => Text.stripPrefix_append).trans List.filterMap_some

/-- Lines that begin otherwise name nothing. -/
theorem named_eq_nil {word : String} {lines : List String}
    (h : ∀ line ∈ lines, ¬ word.toList <+: line.toList) : named word lines = [] :=
  List.filterMap_eq_nil_iff.mpr fun line hline => Text.stripPrefix_eq_none (h line hline)

theorem named_migrateLines (report : MigrationReport) :
    named "applied " (migrateLines report) = report.versions := by
  unfold migrateLines
  split
  · next hempty =>
    rw [MigrationReport.isEmpty, List.isEmpty_iff] at hempty
    rw [hempty]
    exact named_eq_nil (by simp)
  · exact named_map _ _

/-- Lines behind another word name nothing. -/
theorem named_other {word other : String} (versions : List String)
    (h : ∀ version : String, ¬ word.toList <+: (other ++ version).toList) :
    named word (versions.map (other ++ ·)) = [] :=
  named_eq_nil (List.forall_mem_map.mpr fun version _ => h version)

/-- What a status names behind a word that its summary does not begin with. -/
theorem named_statusLines {word : String} (status : MigrationStatus)
    (h : ∀ text : String, ¬ word.toList <+: ("summary: " ++ text).toList) :
    named word (statusLines status) = named word (status.applied.map ("applied " ++ ·)) ++
      named word (status.pending.map ("pending " ++ ·)) := by
  have hsummary (text : String) : named word ["summary: " ++ text] = [] := named_other [text] h
  rw [statusLines, named_append, named_append]
  simp only [String.append_assoc, hsummary, List.append_nil]

theorem current_eq (source : List Migration) (applied : List String) :
    current source applied =
      ⟨(statusOf source applied).applied, (statusOf source applied).pending⟩ := by
  show (⟨named "applied " _, named "pending " _⟩ : Account) = _
  rw [named_statusLines _ (by simp [String.toList_append]),
    named_statusLines _ (by simp [String.toList_append]), named_map, named_map,
    named_other _ (by simp [String.toList_append]), named_other _ (by simp [String.toList_append]),
    List.append_nil, List.nil_append]

/-- An account is the current one if it has the right versions, each list in order. -/
theorem eq_current {source : List Migration} {applied : List String} {account : Account}
    (happlied : account.applied.Pairwise (· < ·)) (hpending : account.pending.Pairwise (· < ·))
    (hmem : ∀ version, version ∈ account.applied ↔
      version ∈ applied ∧ version ∈ versionsOf source)
    (hrest : ∀ version, version ∈ account.pending ↔
      version ∈ versionsOf source ∧ version ∉ applied) : account = current source applied := by
  have hown (version : String) : version ∈ account.applied ↔
      version ∈ orderedSet (ownApplied source applied) := by
    rw [mem_orderedSet, mem_ownApplied, hmem]
  rw [current_eq, statusOf_eq]
  obtain ⟨first, second⟩ := account
  rw [Account.mk.injEq]
  constructor
  · exact (orderedSet_eq happlied hown).symm
  · refine (orderedSet_eq hpending fun version => ?_).symm
    rw [hrest, List.mem_filter, decide_eq_true_eq, mem_orderedSet, mem_orderedSet, mem_ownApplied]
    tauto

theorem current_applied (source : List Migration) (applied : List String) :
    (current source applied).applied.Pairwise (· < ·) ∧ ∀ version,
      version ∈ (current source applied).applied ↔
        version ∈ applied ∧ version ∈ versionsOf source := by
  rw [current_eq]
  refine ⟨MigrationStatus.applied_ordered _, fun version => ?_⟩
  rw [statusOf_eq]
  simp [MigrationStatus.fromVersions, mem_ownApplied]

theorem current_pending (source : List Migration) (applied : List String) :
    (current source applied).pending.Pairwise (· < ·) ∧ ∀ version,
      version ∈ (current source applied).pending ↔
        version ∈ versionsOf source ∧ version ∉ applied := by
  rw [current_eq]
  refine ⟨MigrationStatus.pending_ordered _, fun version => ?_⟩
  rw [statusOf_eq]
  simp only [MigrationStatus.fromVersions, mem_normalizeVersions, List.mem_filter,
    decide_eq_true_eq, mem_orderedSet, mem_ownApplied]
  tauto

/-! ### What is read of the lines -/

variable {runner : Runner} {source : List Migration} {applied : List String}

section Reading

variable (hdocumented : runner.Documented) (hskips : runner.SkipsApplied)
include hdocumented hskips

/-- Who reads what was applied knows what is applied now. -/
theorem read_migrate : (current source applied).read (.migrate,
      .ok (migrateLines (.fromVersions (pendingVersions runner source applied)))) =
    current source (applied ++ pendingVersions runner source applied) := by
  obtain ⟨-, hmem⟩ := current_applied source applied
  obtain ⟨hordered, hrest⟩ := current_pending source applied
  have hpending (version : String) : version ∈ pendingVersions runner source applied ↔
      version ∈ versionsOf source ∧ version ∉ applied :=
    mem_pendingVersions hdocumented hskips version
  have hnamed (version : String) : version ∈ named "applied "
      (migrateLines (.fromVersions (pendingVersions runner source applied))) ↔
        version ∈ versionsOf source ∧ version ∉ applied := by
    rw [named_migrateLines, MigrationReport.fromVersions, mem_normalizeVersions, hpending]
  apply eq_current
  · exact pairwise_orderedSet _
  · exact hordered.sublist List.filter_sublist
  · intro version
    show version ∈ orderedSet (_ ++ named "applied " _) ↔ _
    rw [mem_orderedSet, List.mem_append, hnamed, hmem, List.mem_append, hpending]
    tauto
  · intro version
    show version ∈ List.filter _ _ ↔ _
    rw [List.mem_filter, hrest, Bool.not_eq_true', ← Bool.not_eq_true, List.contains_iff_mem,
      hnamed, List.mem_append, hpending]
    tauto

end Reading

/-- Who reads what was reverted knows what is applied now. -/
theorem read_rollback {migration : Migration}
    (h : revertLastMigration source applied = .ok migration) :
    (current source applied).read (.rollback,
        .ok (rollbackLines (.fromVersions [migration.version]))) =
      current source (unapply applied migration.version) := by
  obtain ⟨hordered, hmem⟩ := current_applied source applied
  obtain ⟨-, hrest⟩ := current_pending source applied
  obtain ⟨hown, happlied, -⟩ := revertLastMigration_eq_ok h
  have hnamed (version : String) : version ∈ named "reverted "
      (rollbackLines (.fromVersions [migration.version])) ↔ version = migration.version := by
    rw [rollbackLines, named_map, MigrationReport.fromVersions, mem_normalizeVersions,
      List.mem_singleton]
  apply eq_current
  · exact hordered.sublist List.filter_sublist
  · exact pairwise_orderedSet _
  · intro version
    show version ∈ List.filter _ _ ↔ _
    rw [List.mem_filter, hmem, Bool.not_eq_true', ← Bool.not_eq_true, List.contains_iff_mem, hnamed,
      mem_unapply]
    tauto
  · intro version
    show version ∈ orderedSet (_ ++ named "reverted " _) ↔ _
    rw [mem_orderedSet, List.mem_append, hnamed, hrest, mem_unapply]
    constructor
    · rintro (⟨hversion, hnew⟩ | rfl)
      · exact ⟨hversion, fun hkept => hnew hkept.1⟩
      · exact ⟨hown, fun hkept => hkept.2 rfl⟩
    · rintro ⟨hversion, hnew⟩
      by_cases heq : version = migration.version
      · exact .inr heq
      · exact .inl ⟨hversion, fun hin => hnew ⟨hin, heq⟩⟩

/-- Whose account is current before an operation that answers has the current one after reading its
lines. -/
theorem read_migrate_ok (hdocumented : runner.Documented) (hskips : runner.SkipsApplied)
    {connection : Connection} {lines : List String}
    (h : (operate runner source applied connection .migrate).2 = .ok lines) :
    (current source applied).read (.migrate, .ok lines) =
      current source (operate runner source applied connection .migrate).1 := by
  cases connection with
  | answering =>
    obtain rfl := Except.ok.inj h
    exact read_migrate hdocumented hskips
  | refused => cases h
  | broken => cases h
  | failing => cases h

theorem read_rollback_ok {connection : Connection} {lines : List String}
    (h : (operate runner source applied connection .rollback).2 = .ok lines) :
    (current source applied).read (.rollback, .ok lines) =
      current source (operate runner source applied connection .rollback).1 := by
  cases connection with
  | answering =>
    cases hfound : revertLastMigration source applied with
    | error error =>
      simp only [operate, revertLast, hfound] at h
      cases h
    | ok migration =>
      simp only [operate, revertLast, hfound] at h ⊢
      obtain rfl := Except.ok.inj h
      exact read_rollback hfound
  | refused => cases h
  | failing => cases h
  | broken done =>
    obtain rfl | hdone := Nat.eq_zero_or_pos done
    · cases h
    · obtain ⟨done, rfl⟩ := Nat.exists_eq_add_of_lt hdone
      cases hfound : revertLastMigration source applied with
      | error error =>
        simp only [operate, revertLast, hfound] at h
        cases h
      | ok migration =>
        simp only [operate, revertLast, hfound] at h
        cases h

theorem read_status_ok {connection : Connection} {lines : List String}
    (h : (operate runner source applied connection .status).2 = .ok lines) (account : Account) :
    account.read (.status, .ok lines) =
      current source (operate runner source applied connection .status).1 := by
  cases connection with
  | answering =>
    obtain rfl := Except.ok.inj h
    rfl
  | refused => cases h
  | broken => cases h
  | failing => cases h

/-! ### Generated migrations -/

/-- A run of `publish_migration` and what it leaves of a tree. -/
def Publication.Describes (root : Path) (rendered : RenderedMigration) (before after : Tree) :
    Publication → Except CliError Path → Prop
  | .published timestamp, result => result = .ok (Publish.finalPathOf root timestamp) ∧
      Publish.Published root rendered timestamp before after
  | .uncertain timestamp error, result => result = .error error ∧
      Publish.Published root rendered timestamp before after
  | .failed error, result => result = .error error ∧ after = before

/-- Every run ends in one of the ways that a publication can end. -/
theorem exists_publication (root : Path) (rendered : RenderedMigration)
    (reading : Except ErrorKind ℕ) (before : Tree) (script : List (Option Interrupt)) :
    ∃ publication : Publication, publication.Describes root rendered before
      ((Publish.publishMigration root rendered reading).run' (.start before script)).2.tree
      ((Publish.publishMigration root rendered reading).run' (.start before script)).1 := by
  have hstart : ∀ t ∈ (Disk.start before script).history, Publish.Keeps before t := by
    intro t ht
    obtain rfl : t = before := by simpa [Disk.start] using ht
    exact Publish.keeps_self
  obtain ⟨-, hresult⟩ := Publish.publishMigration_meets root rendered reading
    (.start before script) rfl hstart
  generalize (Publish.publishMigration root rendered reading).run' (.start before script) = outcome
    at hresult ⊢
  obtain ⟨error | path, after⟩ := outcome
  · obtain ⟨-, timestamp, -, hpublished⟩ | ⟨-, hsame⟩ := hresult
    · exact ⟨.uncertain timestamp error, rfl, hpublished⟩
    · exact ⟨.failed error, rfl, hsame⟩
  · obtain ⟨timestamp, -, rfl, hpublished⟩ := hresult
    exact ⟨.published timestamp, rfl, hpublished⟩

theorem formatGeneratedPath_finalPathOf (root : Path) (timestamp : String) :
    formatGeneratedPath root (Publish.finalPathOf root timestamp) =
      .ok ("migrations/" ++ directoryOf timestamp) := by
  have hroot : root.isPrefixOf (Publish.finalPathOf root timestamp) = true := by
    rw [List.isPrefixOf_iff_prefix, Publish.finalPathOf, Publish.migrationsOf, List.append_assoc]
    exact List.prefix_append _ _
  rw [formatGeneratedPath, if_pos hroot, Publish.finalPathOf, Publish.migrationsOf,
    List.append_assoc, List.drop_left]
  rfl

/-- The lines of a generated migration name its directory. -/
theorem named_generatedLines (plan : MigrationPlan) (directory : String) :
    named "generated migrations/" (generatedLines plan ("migrations/" ++ directory)) =
      [directory] := by
  have hline : named "generated migrations/" ["generated " ++ ("migrations/" ++ directory)] =
      [directory] := by
    have hword : "generated " ++ ("migrations/" ++ directory) =
        "generated migrations/" ++ directory := by
      rw [← String.append_assoc]
      rfl
    rw [hword]
    exact named_map "generated migrations/" [directory]
  have hreview :
      named "generated migrations/" ["review up.sql and down.sql before applying"] = [] :=
    named_eq_nil (by simp)
  rw [generatedLines, named_append, named_other _ (by simp [String.toList_append]),
    ← List.singleton_append, named_append, hline, hreview]
  rfl

/-- Where generating succeeds, the lines name what was added to the migrations directory. -/
theorem generate_ok {world : World} {state : State} {lines : List String}
    (h : (generate world state).2 = .ok lines) :
    ((generate world state).1 = state ∧ named "generated migrations/" lines = []) ∨
      ∃ timestamp, world.publication = .published timestamp ∧
        (generate world state).1 = state.publish timestamp ∧
          named "generated migrations/" lines = [directoryOf timestamp] := by
  unfold generate at h ⊢
  split at h
  · cases h
  · next plan hplan =>
    split at h
    · next hempty =>
      obtain rfl := Except.ok.inj h
      exact .inl ⟨by simp only [hempty, if_true], named_eq_nil (by simp)⟩
    · next hempty =>
      cases hpublication : world.publication with
      | failed error =>
        rw [hpublication] at h
        cases h
      | uncertain timestamp error =>
        rw [hpublication] at h
        cases h
      | published timestamp =>
        rw [hpublication] at h
        dsimp only at h
        rw [formatGeneratedPath_finalPathOf] at h
        obtain rfl := Except.ok.inj h
        exact .inr ⟨timestamp, rfl, by simp [hempty], named_generatedLines plan _⟩

theorem versionsOf_publish (runner : Runner) (state : State) (timestamp : String) :
    versionsOf ((state.publish timestamp).source runner) =
      versionsOf (state.source runner) ++ [runner.version (directoryOf timestamp)] := by
  simp [versionsOf, State.source, State.publish, Runner.load]

/-- Who reads which directory was generated knows what is pending now. -/
theorem read_generate (hdocumented : runner.Documented) {state : State} {timestamp : String}
    {lines : List String} (hlines : named "generated migrations/" lines = [directoryOf timestamp])
    (hnew : runner.version (directoryOf timestamp) ∉ state.applied) :
    (state.account runner).read (.generate, .ok lines) =
      (state.publish timestamp).account runner := by
  obtain ⟨hordered, hmem⟩ := current_applied (state.source runner) state.applied
  obtain ⟨-, hrest⟩ := current_pending (state.source runner) state.applied
  have hversion : (named "generated migrations/" lines).map directoryVersion =
      [runner.version (directoryOf timestamp)] := by
    rw [hlines, List.map_singleton, hdocumented.version_eq]
  apply eq_current
  · exact hordered
  · exact pairwise_orderedSet _
  · intro version
    show version ∈ (current (state.source runner) state.applied).applied ↔
      version ∈ state.applied ∧ _
    rw [hmem, versionsOf_publish, List.mem_append, List.mem_singleton]
    constructor
    · exact fun h => ⟨h.1, .inl h.2⟩
    · rintro ⟨hin, hown | rfl⟩
      · exact ⟨hin, hown⟩
      · exact absurd hin hnew
  · intro version
    show version ∈ orderedSet ((current (state.source runner) state.applied).pending ++
      (named "generated migrations/" lines).map directoryVersion) ↔ _ ∧ version ∉ state.applied
    rw [hversion, mem_orderedSet, List.mem_append, hrest, versionsOf_publish, List.mem_append,
      List.mem_singleton]
    constructor
    · rintro (⟨hown, hpending⟩ | rfl)
      · exact ⟨.inl hown, hpending⟩
      · exact ⟨.inr rfl, hnew⟩
    · rintro ⟨hown | rfl, hpending⟩
      · exact .inl ⟨hown, hpending⟩
      · exact .inr rfl

/-! ### What the output does not tell -/

/-- A command that fails has changed nothing, the version of what it publishes is not applied yet,
and what others work on has no version in common with the project. -/
def NothingUntold (runner : Runner) (sources : ι → List Migration) (state : State) :
    Event ι → Prop
  | .command command world =>
    (∀ text, (execute runner command world state).2 = .error text →
      (execute runner command world state).1 = state) ∧
    ∀ timestamp, command = .generate → world.publication = .published timestamp →
      runner.version (directoryOf timestamp) ∉ state.applied
  | .other request =>
    List.Disjoint (versionsOf (sources request.source)) (versionsOf (state.source runner))

/-- Nothing of a run goes untold. -/
def NothingUntoldIn (runner : Runner) (sources : ι → List Migration) :
    State → List (Event ι) → Prop
  | _, [] => True
  | state, event :: rest => NothingUntold runner sources state event ∧
      NothingUntoldIn runner sources (step runner sources state event).1 rest

/-- An operation that fails without a connection, or with one that holds, has changed nothing. -/
theorem operate_error {connection : Connection} (operation : MigrationCommand) {text : String}
    (hconnection : connection = .refused ∨ connection = .answering)
    (h : (operate runner source applied connection operation).2 = .error text) :
    (operate runner source applied connection operation).1 = applied := by
  cases operation with
  | status => rfl
  | migrate =>
    obtain rfl | rfl := hconnection
    · rfl
    · cases h
  | rollback =>
    obtain rfl | rfl := hconnection
    · simp [operate, revertLast]
    · cases hfound : revertLastMigration source applied with
      | error error => simp [operate, revertLast, hfound]
      | ok migration =>
        simp only [operate, revertLast, hfound] at h
        cases h

theorem executeOperation_error {operation : MigrationCommand} {world : World} {state : State}
    (hconnection : world.connection = .refused ∨ world.connection = .answering) {text : String}
    (h : (executeOperation runner operation world state).2 = .error text) :
    (executeOperation runner operation world state).1 = state := by
  unfold executeOperation at h ⊢
  split at h
  · rfl
  · rfl
  · rfl
  · have happlied := operate_error operation hconnection h
    simp only [happlied]

/-- A command on the migrations leaves nothing untold where its connection is not lost midway. -/
theorem nothingUntold_of_connection {sources : ι → List Migration} {state : State} {world : World}
    {command : DatabaseCommand} (hcommand : command ≠ .generate)
    (hconnection : world.connection = .refused ∨ world.connection = .answering) :
    NothingUntold runner sources state (.command command world) := by
  refine ⟨fun text h => ?_, fun _ hgenerate => absurd hgenerate hcommand⟩
  cases command with
  | generate => exact absurd rfl hcommand
  | migrate => exact executeOperation_error hconnection h
  | rollback => exact executeOperation_error hconnection h
  | status => exact executeOperation_error hconnection h
  | help => rfl

theorem read_executeOperation {operation : MigrationCommand} {command : DatabaseCommand}
    {world : World} {state : State} {lines : List String}
    (hread : (operate runner (state.source runner) state.applied world.connection operation).2 =
        .ok lines → (state.account runner).read (command, .ok lines) =
          current (state.source runner) (operate runner (state.source runner) state.applied
            world.connection operation).1)
    (h : (executeOperation runner operation world state).2 = .ok lines) :
    (state.account runner).read (command, .ok lines) =
      (executeOperation runner operation world state).1.account runner := by
  unfold executeOperation at h ⊢
  split at h
  · cases h
  · cases h
  · cases h
  · exact hread h

/-- Whose account is current before a command has the current one after reading its output. -/
theorem read_execute (hdocumented : runner.Documented) (hskips : runner.SkipsApplied)
    {sources : ι → List Migration} {state : State} {command : DatabaseCommand} {world : World}
    (htold : NothingUntold runner sources state (.command command world)) :
    (state.account runner).read (command, (execute runner command world state).2) =
      (execute runner command world state).1.account runner := by
  obtain ⟨hunchanged, hnew⟩ := htold
  cases hresult : (execute runner command world state).2 with
  | error text =>
    rw [hunchanged text hresult]
    rfl
  | ok lines =>
    cases command with
    | migrate => exact read_executeOperation (read_migrate_ok hdocumented hskips) hresult
    | rollback => exact read_executeOperation read_rollback_ok hresult
    | status => exact read_executeOperation (fun h => read_status_ok h _) hresult
    | help => rfl
    | generate =>
      obtain ⟨hsame, hnone⟩ | ⟨timestamp, hpublication, hafter, hlines⟩ := generate_ok hresult
      · have hpending : orderedSet (state.account runner).pending =
            (state.account runner).pending := orderedSet_eq (current_pending _ _).1 fun _ => Iff.rfl
        show (⟨_, orderedSet (_ ++ (named "generated migrations/" lines).map _)⟩ : Account) = _
        rw [show (execute runner .generate world state).1 = state from hsame, hnone, List.map_nil,
          List.append_nil, hpending]
      · rw [show (execute runner .generate world state).1 = state.publish timestamp from hafter]
        exact read_generate hdocumented hlines (hnew timestamp rfl hpublication)

theorem current_congr {other : List String}
    (h : ownApplied source applied = ownApplied source other) :
    current source applied = current source other := by
  rw [current_eq, current_eq, statusOf_eq, statusOf_eq, h]

/-! ### Keeping the account -/

/-- What is read of the outputs, one after the other. -/
def kept (account : Account) (outputs : List Printed) : Account := outputs.foldl read account

theorem kept_append (account : Account) (outputs more : List Printed) :
    kept account (outputs ++ more) = kept (kept account outputs) more :=
  List.foldl_append

theorem printed_cons (event : Event ι) (printed : Option Printed)
    (outputs : List (Event ι × Option Printed)) :
    ((event, printed) :: outputs).filterMap (·.2) =
      printed.toList ++ outputs.filterMap (·.2) := by
  cases printed with
  | none => rfl
  | some output => rfl

/-- An account that is current before a step is current after it. -/
theorem read_step (hdocumented : runner.Documented) (hskips : runner.SkipsApplied)
    {sources : ι → List Migration} {state : State} {event : Event ι}
    (htold : NothingUntold runner sources state event) :
    kept (state.account runner) (step runner sources state event).2.toList =
      (step runner sources state event).1.account runner := by
  cases event with
  | command command world =>
    simp only [step, kept, Option.toList_some, List.foldl_cons, List.foldl_nil]
    exact read_execute hdocumented hskips htold
  | other request =>
    simp only [step, kept, Option.toList_none, List.foldl_nil]
    have hsame : ownApplied (state.source runner) (perform runner sources state.applied request).1 =
        ownApplied (state.source runner) state.applied :=
      (perform_edits sources request).others hdocumented hskips htold
    exact (current_congr hsame).symm

/-- Whoever reads the output of a status, and then of every command, knows at any time what another
status would tell: also where commands fail, as long as nothing goes untold, and whatever others do
to the database that have migrations of their own. -/
theorem account_current (hdocumented : runner.Documented) (hskips : runner.SkipsApplied)
    (sources : ι → List Migration) (state : State) (events : List (Event ι))
    (htold : NothingUntoldIn runner sources state events) :
    let run := Ownership.run (step runner sources) state events
    kept (state.account runner) (run.2.filterMap (·.2)) = run.1.account runner := by
  intro run
  induction events generalizing state with
  | nil => rfl
  | cons event events ih =>
    obtain ⟨hevent, hrest⟩ := htold
    simp only [run, Ownership.run]
    rw [printed_cons, kept_append, read_step hdocumented hskips hevent]
    exact ih (step runner sources state event).1 hrest

section Sample

/-- The accounts are to be changed, and all that is asked for is answered. -/
def sampleWorld : World where
  root := ["app"]
  project := .ok ()
  migrations := .ok ()
  connect := .ok ()
  connection := .answering
  desired := .ok accountsSchema
  live := .ok accountsLive
  publication := .published "01788200000123456789"

/-- A project whose database cannot be opened. -/
def sampleUnopened : World :=
  { sampleWorld with connect := .error (.configuration "database.url is missing") }

def sampleState : State := ⟨["2026-01-01-000000_roles"], ["20260101000000"]⟩

/-- A job queue with a migration of its own. -/
def sampleQueue : Unit → List Migration := fun _ => [⟨"2025_jobs", "2025"⟩]

def sampleEvents : List (Event Unit) :=
  [.command .generate sampleWorld, .other ⟨(), .migrate, .answering⟩,
    .command .migrate { sampleWorld with connection := .refused },
    .command .rollback sampleUnopened, .command .migrate sampleWorld,
    .command .rollback sampleWorld]

theorem sampleEvents_told : NothingUntoldIn .byVersion sampleQueue sampleState sampleEvents := by
  have hgenerated : ∃ lines, execute .byVersion .generate sampleWorld sampleState =
      (sampleState.publish "01788200000123456789", .ok lines) := ⟨_, rfl⟩
  obtain ⟨lines, hgenerated⟩ := hgenerated
  refine ⟨⟨?_, ?_⟩, ?_, nothingUntold_of_connection (by decide) (.inl rfl),
    nothingUntold_of_connection (by decide) (.inr rfl),
    nothingUntold_of_connection (by decide) (.inr rfl),
    nothingUntold_of_connection (by decide) (.inr rfl), trivial⟩
  · intro text h
    rw [hgenerated] at h
    cases h
  · rintro timestamp - hpublication
    obtain rfl : "01788200000123456789" = timestamp := by simpa [sampleWorld] using hpublication
    decide
  · show List.Disjoint ["2025"] (versionsOf (State.source .byVersion
      (execute .byVersion .generate sampleWorld sampleState).1))
    rw [hgenerated, List.singleton_disjoint]
    show "2025" ∉ versionsOf ((sampleState.publish "01788200000123456789").source .byVersion)
    decide

theorem account_current_sample :
    let run := Ownership.run (step .byVersion sampleQueue) sampleState sampleEvents
    kept (sampleState.account .byVersion) (run.2.filterMap (·.2)) = run.1.account .byVersion :=
  account_current Runner.byVersion_documented Runner.byVersion_skipsApplied sampleQueue sampleState
    sampleEvents sampleEvents_told

end Sample

end DatabaseCommands

end Mads
