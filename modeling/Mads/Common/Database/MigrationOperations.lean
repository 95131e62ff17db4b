import Mads.Common.Database.Config
import Mads.Common.Database.Migration
import Mads.Library.Ownership

/-!
# Operations on the migrations of a database

Several sources may share one database, and with it the table of the versions that are applied.
-/

namespace Mads

/-! ### Reports -/

def normalizeVersions (versions : List String) : List String := orderedSet versions

@[simp] theorem mem_normalizeVersions {versions : List String} {version : String} :
    version ∈ normalizeVersions versions ↔ version ∈ versions :=
  mem_orderedSet

/-- The versions that an operation affected. -/
structure MigrationReport where
  versions : List String
  ordered : versions.Pairwise (· < ·)
  deriving DecidableEq

namespace MigrationReport

def fromVersions (versions : List String) : MigrationReport :=
  ⟨normalizeVersions versions, pairwise_orderedSet versions⟩

def isEmpty (report : MigrationReport) : Bool := report.versions.isEmpty

end MigrationReport

/-- The versions of one source, by whether they are applied. -/
structure MigrationStatus where
  applied : List String
  pending : List String
  applied_ordered : applied.Pairwise (· < ·)
  pending_ordered : pending.Pairwise (· < ·)
  deriving DecidableEq

def MigrationStatus.fromVersions (applied pending : List String) : MigrationStatus :=
  ⟨normalizeVersions applied, normalizeVersions pending, pairwise_orderedSet applied,
    pairwise_orderedSet pending⟩

/-- What an operation fails with. The runner's own error is kept as the cause of the last one. -/
inductive MigrationFailure where
  | pool
  | interaction
  | migration (cause : Option MigrationError)
  deriving DecidableEq

def MigrationFailure.error : MigrationFailure → DatabaseError
  | .pool => .pool
  | .interaction => .interaction
  | .migration _ => .migration

/-- How the connection fares under an operation: there is none, the blocking boundary breaks or the
runner fails after so many migrations, or all goes well. -/
inductive Connection where
  | refused
  | broken (done : ℕ)
  | failing (done : ℕ)
  | answering
  deriving DecidableEq

/-! ### The operations -/

namespace Database

variable (runner : Runner) (source : List Migration) (applied : List String)

def versionsOf : List String := source.map (·.version)

/-- The versions that the runner applies, in its order. -/
def pendingVersions : List String := versionsOf (runner.pending source applied)

/-- The table without the row of a version. -/
def unapply (version : String) : List String := applied.filter (· ≠ version)

/-- `Database::run_pending_migrations`. Every migration has a transaction of its own. -/
def runPendingMigrations : Connection → List String × Except MigrationFailure MigrationReport
  | .refused => (applied, .error .pool)
  | .broken done => (applied ++ (pendingVersions runner source applied).take done,
      .error .interaction)
  | .failing done => (applied ++ (pendingVersions runner source applied).take done,
      .error (.migration none))
  | .answering => (applied ++ pendingVersions runner source applied,
      .ok (.fromVersions (pendingVersions runner source applied)))

/-- `Database::revert_last_migration`. -/
def revertLast (connection : Connection) :
    List String × Except MigrationFailure MigrationReport :=
  match connection, revertLastMigration source applied with
  | .refused, _ => (applied, .error .pool)
  | .failing _, _ => (applied, .error (.migration none))
  | .broken 0, _ => (applied, .error .interaction)
  | .broken _, .error _ => (applied, .error .interaction)
  | .broken _, .ok migration => (unapply applied migration.version, .error .interaction)
  | .answering, .error error => (applied, .error (.migration (some error)))
  | .answering, .ok migration =>
    (unapply applied migration.version, .ok (.fromVersions [migration.version]))

/-- What `Database::migration_status` reads off the table. -/
def statusOf : MigrationStatus :=
  let sourceVersions := orderedSet (versionsOf source)
  let own := orderedSet (applied.filter (· ∈ sourceVersions))
  .fromVersions own (sourceVersions.filter (· ∉ own))

def migrationStatus : Connection → Except MigrationFailure MigrationStatus
  | .refused => .error .pool
  | .broken _ => .error .interaction
  | .failing _ => .error (.migration none)
  | .answering => .ok (statusOf source applied)

/-! ### Requests of several sources -/

inductive MigrationCommand where
  | migrate
  | rollback
  | status
  deriving DecidableEq

structure Request (ι : Type) where
  source : ι
  command : MigrationCommand
  connection : Connection
  deriving DecidableEq

inductive MigrationOutcome where
  | report (report : MigrationReport)
  | status (status : MigrationStatus)
  deriving DecidableEq

variable {ι : Type}

def perform (runner : Runner) (sources : ι → List Migration) (applied : List String)
    (request : Request ι) : List String × Except MigrationFailure MigrationOutcome :=
  let source := sources request.source
  match request.command with
  | .migrate =>
    let (after, result) := runPendingMigrations runner source applied request.connection
    (after, result.map .report)
  | .rollback =>
    let (after, result) := revertLast source applied request.connection
    (after, result.map .report)
  | .status => (applied, (migrationStatus source applied request.connection).map .status)

/-- All that a request can do to the table. -/
inductive Edits : List String → Prop
  | keeps : Edits applied
  | applies (done : ℕ) : Edits (applied ++ (pendingVersions runner source applied).take done)
  | reverts {migration : Migration} (h : revertLastMigration source applied = .ok migration) :
      Edits (unapply applied migration.version)

variable {runner source applied}

theorem runPendingMigrations_edits (connection : Connection) :
    Edits runner source applied (runPendingMigrations runner source applied connection).1 := by
  cases connection with
  | refused => exact .keeps
  | broken done => exact .applies done
  | failing done => exact .applies done
  | answering =>
    have hall : Edits runner source applied _ :=
      .applies (pendingVersions runner source applied).length
    rwa [List.take_length] at hall

theorem revertLast_edits (connection : Connection) :
    Edits runner source applied (revertLast source applied connection).1 := by
  unfold revertLast
  cases hfound : revertLastMigration source applied with
  | error error =>
    cases connection with
    | broken done => cases done <;> exact .keeps
    | _ => exact .keeps
  | ok migration =>
    cases connection with
    | refused => exact .keeps
    | failing done => exact .keeps
    | broken done =>
      cases done with
      | zero => exact .keeps
      | succ done => exact .reverts hfound
    | answering => exact .reverts hfound

theorem perform_edits (sources : ι → List Migration) (request : Request ι) :
    Edits runner (sources request.source) applied (perform runner sources applied request).1 := by
  unfold perform
  cases request.command with
  | migrate => exact runPendingMigrations_edits request.connection
  | rollback => exact revertLast_edits request.connection
  | status => exact .keeps

/-! ### What is applied, and what is reverted -/

section Versions

variable (hdocumented : runner.Documented) (hskips : runner.SkipsApplied)
include hdocumented hskips

theorem mem_pendingVersions (version : String) :
    version ∈ pendingVersions runner source applied ↔
      version ∈ versionsOf source ∧ version ∉ applied := by
  constructor
  · intro h
    obtain ⟨migration, hmem, rfl⟩ := List.mem_map.mp h
    exact ⟨List.mem_map_of_mem (hdocumented.mem_source source applied migration hmem),
      hskips source applied migration hmem⟩
  · rintro ⟨hmem, hnew⟩
    obtain ⟨migration, hmigration, rfl⟩ := List.mem_map.mp hmem
    obtain ⟨next, hnext, hversion⟩ := hdocumented.pending source applied migration hmigration hnew
    exact List.mem_map.mpr ⟨next, hnext, hversion⟩

theorem pendingVersions_eq : pendingVersions runner source applied =
    orderedSet ((versionsOf source).filter (· ∉ applied)) := by
  symm
  apply orderedSet_eq
  · exact List.pairwise_map.mpr (hdocumented.sorted source applied)
  · intro version
    rw [mem_pendingVersions hdocumented hskips, List.mem_filter, decide_eq_true_eq]

end Versions

theorem mem_unapply {version other : String} :
    other ∈ unapply applied version ↔ other ∈ applied ∧ other ≠ version := by
  rw [unapply, List.mem_filter, decide_eq_true_eq]

/-- What is reverted is the last of what is applied of the source. -/
theorem revertLastMigration_eq_ok {migration : Migration}
    (h : revertLastMigration source applied = .ok migration) :
    migration.version ∈ versionsOf source ∧ migration.version ∈ applied ∧
      ∀ version ∈ versionsOf source, version ∈ applied → version ≤ migration.version := by
  unfold revertLastMigration at h
  split at h
  · next newest hnewest =>
    obtain rfl := Except.ok.inj h
    have hne : source.filter (fun migration => migration.version ∈ applied) ≠ [] := by
      intro hnil
      rw [hnil] at hnewest
      cases hnewest
    obtain ⟨found, hmem, hfound, hmax⟩ := newestMigration_spec hne
    obtain rfl := Option.some.inj (hnewest.symm.trans hfound)
    obtain ⟨hsource, happlied⟩ := List.mem_filter.mp hmem
    refine ⟨List.mem_map_of_mem hsource, of_decide_eq_true happlied, ?_⟩
    intro version hversion hin
    obtain ⟨other, hother, rfl⟩ := List.mem_map.mp hversion
    exact hmax other (List.mem_filter.mpr ⟨hother, decide_eq_true hin⟩)
  · cases h

theorem revertLastMigration_eq_error {error : MigrationError}
    (h : revertLastMigration source applied = .error error) :
    error = .noMigrationRun ∧ ∀ version ∈ versionsOf source, version ∉ applied := by
  refine ⟨by cases error; rfl, ?_⟩
  intro version hversion hin
  obtain ⟨migration, hmem, rfl⟩ := List.mem_map.mp hversion
  have hne : source.filter (fun migration => migration.version ∈ applied) ≠ [] :=
    List.ne_nil_of_mem (List.mem_filter.mpr ⟨hmem, decide_eq_true hin⟩)
  obtain ⟨newest, -, hnewest, -⟩ := newestMigration_spec hne
  rw [revertLastMigration, hnewest] at h
  cases h

/-! ### Sources do not disturb each other -/

/-- The part of the table that belongs to a source. -/
def ownApplied (source : List Migration) (applied : List String) : List String :=
  applied.filter (· ∈ versionsOf source)

theorem mem_ownApplied {version : String} :
    version ∈ ownApplied source applied ↔ version ∈ applied ∧ version ∈ versionsOf source := by
  rw [ownApplied, List.mem_filter, decide_eq_true_eq]

theorem ownApplied_append (more : List String) :
    ownApplied source (applied ++ more) = ownApplied source applied ++ ownApplied source more :=
  List.filter_append ..

theorem ownApplied_unapply (version : String) :
    ownApplied source (unapply applied version) = unapply (ownApplied source applied) version :=
  List.filter_comm ..

theorem statusOf_eq : statusOf source applied = .fromVersions (orderedSet (ownApplied source applied))
    ((orderedSet (versionsOf source)).filter (· ∉ orderedSet (ownApplied source applied))) := by
  have hown : applied.filter (· ∈ orderedSet (versionsOf source)) = ownApplied source applied :=
    List.filter_congr fun version _ => by simp
  rw [statusOf, hown]

/-- No version belongs to two sources. -/
def Apart (sources : ι → List Migration) : Prop :=
  ∀ i j, i ≠ j → List.Disjoint (versionsOf (sources i)) (versionsOf (sources j))

theorem Edits.others {after : List String} {other : List Migration}
    (h : Edits runner source applied after) (hdocumented : runner.Documented)
    (hskips : runner.SkipsApplied) (hapart : List.Disjoint (versionsOf source) (versionsOf other)) :
    ownApplied other after = ownApplied other applied := by
  cases h with
  | keeps => rfl
  | applies done =>
    rw [ownApplied_append]
    have hnone : ownApplied other ((pendingVersions runner source applied).take done) = [] := by
      refine List.filter_eq_nil_iff.mpr fun version hversion => ?_
      have hown := (mem_pendingVersions hdocumented hskips version).mp (List.mem_of_mem_take hversion)
      simpa using hapart hown.1
    rw [hnone, List.append_nil]
  | reverts hfound =>
    obtain ⟨hown, -, -⟩ := revertLastMigration_eq_ok hfound
    rw [ownApplied_unapply, unapply]
    refine List.filter_eq_self.mpr fun version hversion => decide_eq_true ?_
    rintro rfl
    exact hapart hown (mem_ownApplied.mp hversion).2

/-- What a request does to the part of its source depends on that part alone. -/
theorem perform_own (hdocumented : runner.Documented) (hskips : runner.SkipsApplied)
    (sources : ι → List Migration) (request : Request ι) {left right : List String}
    (hview : ownApplied (sources request.source) left = ownApplied (sources request.source) right) :
    ownApplied (sources request.source) (perform runner sources left request).1 =
        ownApplied (sources request.source) (perform runner sources right request).1 ∧
      (perform runner sources left request).2 = (perform runner sources right request).2 := by
  have hagree : ∀ version ∈ versionsOf (sources request.source),
      version ∈ left ↔ version ∈ right := by
    intro version hversion
    have hmem : version ∈ ownApplied (sources request.source) left ↔
        version ∈ ownApplied (sources request.source) right := by rw [hview]
    simpa [mem_ownApplied, hversion] using hmem
  unfold perform
  cases request.command with
  | migrate =>
    have hpending : pendingVersions runner (sources request.source) left =
        pendingVersions runner (sources request.source) right := by
      rw [pendingVersions_eq hdocumented hskips, pendingVersions_eq hdocumented hskips]
      exact congrArg orderedSet (List.filter_congr fun version hversion =>
        decide_eq_decide.mpr (not_congr (hagree version hversion)))
    cases hconnection : request.connection <;>
      simp [runPendingMigrations, ownApplied_append, hpending, hview]
  | rollback =>
    have hfound : revertLastMigration (sources request.source) left =
        revertLastMigration (sources request.source) right := by
      have hfilter : (sources request.source).filter (fun migration => migration.version ∈ left) =
          (sources request.source).filter (fun migration => migration.version ∈ right) :=
        List.filter_congr fun migration hmem =>
          decide_eq_decide.mpr (hagree migration.version (List.mem_map_of_mem hmem))
      rw [revertLastMigration, revertLastMigration, hfilter]
    dsimp only
    unfold revertLast
    rw [hfound]
    cases hresult : revertLastMigration (sources request.source) right with
    | error error =>
      cases request.connection with
      | broken done => cases done <;> exact ⟨hview, rfl⟩
      | _ => exact ⟨hview, rfl⟩
    | ok migration =>
      have hreverted : ownApplied (sources request.source) (unapply left migration.version) =
          ownApplied (sources request.source) (unapply right migration.version) := by
        rw [ownApplied_unapply, ownApplied_unapply, hview]
      cases request.connection with
      | broken done =>
        cases done with
        | zero => exact ⟨hview, rfl⟩
        | succ done => exact ⟨hreverted, rfl⟩
      | answering => exact ⟨hreverted, rfl⟩
      | _ => exact ⟨hview, rfl⟩
  | status =>
    have hstatus : statusOf (sources request.source) left =
        statusOf (sources request.source) right := by rw [statusOf_eq, statusOf_eq, hview]
    refine ⟨hview, ?_⟩
    cases hconnection : request.connection <;> simp [migrationStatus, hstatus]

theorem perform_local (hdocumented : runner.Documented) (hskips : runner.SkipsApplied)
    {sources : ι → List Migration} (hapart : Apart sources) :
    Ownership.Local Request.source (fun i => ownApplied (sources i)) (perform runner sources) where
  others _ request i hi :=
    (perform_edits sources request).others hdocumented hskips (hapart _ i hi)
  own _ _ request hview := perform_own hdocumented hskips sources request hview

/-- Requests of other sources, whatever becomes of them, change nothing of what a source has applied
and of what its own requests answer. -/
theorem perform_isolated [DecidableEq ι] (hdocumented : runner.Documented)
    (hskips : runner.SkipsApplied) {sources : ι → List Migration} (hapart : Apart sources) (i : ι)
    (applied : List String) (requests : List (Request ι)) :
    let alone := requests.filter fun request => request.source = i
    ownApplied (sources i) (Ownership.run (perform runner sources) applied requests).1 =
        ownApplied (sources i) (Ownership.run (perform runner sources) applied alone).1 ∧
      (Ownership.run (perform runner sources) applied requests).2.filter
          (fun entry => entry.1.source = i) =
        (Ownership.run (perform runner sources) applied alone).2 :=
  (perform_local hdocumented hskips hapart).run_filter i requests rfl

/-- An application and a job queue that share a database. -/
def sampleSources : Bool → List Migration
  | true => [⟨"2026_roles", "2026"⟩, ⟨"2024_users", "2024"⟩]
  | false => [⟨"2025_jobs", "2025"⟩]

theorem sampleSources_apart : Apart sampleSources := by
  intro i j hne
  cases i <;> cases j <;> simp [sampleSources, versionsOf] at hne ⊢

/-- The application's migrations stop after the first one, and the queue's newer version comes
between them and the rollback. -/
def sampleRequests : List (Request Bool) :=
  [⟨true, .migrate, .failing 1⟩, ⟨false, .migrate, .answering⟩, ⟨true, .status, .answering⟩,
    ⟨true, .rollback, .answering⟩]

theorem perform_isolated_sample :
    let alone := sampleRequests.filter fun request => request.source = true
    ownApplied (sampleSources true)
          (Ownership.run (perform .byVersion sampleSources) [] sampleRequests).1 =
        ownApplied (sampleSources true)
          (Ownership.run (perform .byVersion sampleSources) [] alone).1 ∧
      (Ownership.run (perform .byVersion sampleSources) [] sampleRequests).2.filter
          (fun entry => entry.1.source = true) =
        (Ownership.run (perform .byVersion sampleSources) [] alone).2 :=
  perform_isolated Runner.byVersion_documented Runner.byVersion_skipsApplied sampleSources_apart
    true [] sampleRequests

/-! ### What is applied stands before what is pending -/

/-- The table of a database that sources have in common. -/
structure Kept (sources : ι → List Migration) (applied : List String) : Prop where
  nodup : applied.Nodup
  owned : ∀ version ∈ applied, ∃ i, version ∈ versionsOf (sources i)
  no_gaps : ∀ i, ∀ version ∈ versionsOf (sources i), ∀ later ∈ versionsOf (sources i),
    later ∈ applied → version < later → version ∈ applied

/-- The front of an ascending list has all that comes before one of its elements. -/
theorem mem_take_of_lt {versions : List String} (hordered : versions.Pairwise (· < ·))
    {version later : String} {n : ℕ} (hversion : version ∈ versions)
    (hlater : later ∈ versions.take n) (hlt : version < later) : version ∈ versions.take n := by
  rw [← List.take_append_drop n versions, List.pairwise_append] at hordered
  rw [← List.take_append_drop n versions, List.mem_append] at hversion
  obtain hfront | hback := hversion
  · exact hfront
  · exact absurd hlt (hordered.2.2 later hlater version hback).asymm

theorem Edits.kept {sources : ι → List Migration} {i : ι} {after : List String}
    (hdocumented : runner.Documented) (hskips : runner.SkipsApplied) (hapart : Apart sources)
    (hkept : Kept sources applied) (h : Edits runner (sources i) applied after) :
    Kept sources after := by
  -- a version of another source is in the table after it if and only if it was before
  have hothers : ∀ j, j ≠ i → ∀ version ∈ versionsOf (sources j),
      version ∈ after ↔ version ∈ applied := by
    intro j hj version hversion
    have hsame := h.others hdocumented hskips (hapart i j hj.symm)
    have hmem : version ∈ ownApplied (sources j) after ↔
        version ∈ ownApplied (sources j) applied := by rw [hsame]
    simpa [mem_ownApplied, hversion] using hmem
  have hgaps : (∀ version ∈ versionsOf (sources i), ∀ later ∈ versionsOf (sources i),
      later ∈ after → version < later → version ∈ after) → ∀ j,
      ∀ version ∈ versionsOf (sources j), ∀ later ∈ versionsOf (sources j),
        later ∈ after → version < later → version ∈ after := by
    intro hown j version hversion later hlater hin hlt
    by_cases hj : j = i
    · subst hj
      exact hown version hversion later hlater hin hlt
    · rw [hothers j hj version hversion]
      rw [hothers j hj later hlater] at hin
      exact hkept.no_gaps j version hversion later hlater hin hlt
  cases h with
  | keeps => exact hkept
  | applies done =>
    have hmem (version : String) : version ∈ pendingVersions runner (sources i) applied ↔
        version ∈ versionsOf (sources i) ∧ version ∉ applied :=
      mem_pendingVersions hdocumented hskips version
    have hordered : (pendingVersions runner (sources i) applied).Pairwise (· < ·) :=
      List.pairwise_map.mpr (hdocumented.sorted _ _)
    constructor
    · refine List.nodup_append.mpr ⟨hkept.nodup, ?_, ?_⟩
      · exact (hordered.imp fun hlt => hlt.ne).sublist (List.take_sublist _ _)
      · rintro version hold _ hnew rfl
        exact ((hmem version).mp (List.mem_of_mem_take hnew)).2 hold
    · intro version hversion
      obtain hold | hnew := List.mem_append.mp hversion
      · exact hkept.owned version hold
      · exact ⟨i, ((hmem version).mp (List.mem_of_mem_take hnew)).1⟩
    · apply hgaps
      intro version hversion later hlater hin hlt
      by_cases hold : version ∈ applied
      · exact List.mem_append_left _ hold
      · -- what is pending is applied in order, so the version came before the later one
        obtain hin | hin := List.mem_append.mp hin
        · exact absurd (hkept.no_gaps i version hversion later hlater hin hlt) hold
        · refine List.mem_append_right _ ?_
          exact mem_take_of_lt hordered ((hmem version).mpr ⟨hversion, hold⟩) hin hlt
  | @reverts migration hfound =>
    obtain ⟨-, -, hlast⟩ := revertLastMigration_eq_ok hfound
    constructor
    · exact hkept.nodup.filter _
    · exact fun version hversion => hkept.owned version (mem_unapply.mp hversion).1
    · apply hgaps
      intro version hversion later hlater hin hlt
      obtain ⟨hold, -⟩ := mem_unapply.mp hin
      refine mem_unapply.mpr ⟨hkept.no_gaps i version hversion later hlater hold hlt, ?_⟩
      exact (hlt.trans_le (hlast later hlater hold)).ne

theorem Kept.nil (sources : ι → List Migration) : Kept sources [] := by
  constructor <;> simp

/-- A status tells where the source is cut: what is applied, and then what is pending, are all of
its versions in their order. -/
theorem Kept.status_split {sources : ι → List Migration} (h : Kept sources applied) (i : ι) :
    (statusOf (sources i) applied).applied ++ (statusOf (sources i) applied).pending =
      normalizeVersions (versionsOf (sources i)) := by
  have hown (version : String) : version ∈ (statusOf (sources i) applied).applied ↔
      version ∈ applied ∧ version ∈ versionsOf (sources i) := by
    simp only [statusOf_eq, MigrationStatus.fromVersions, mem_normalizeVersions, mem_orderedSet,
      mem_ownApplied]
  have hrest (version : String) : version ∈ (statusOf (sources i) applied).pending ↔
      version ∈ versionsOf (sources i) ∧ version ∉ applied := by
    simp only [statusOf_eq, MigrationStatus.fromVersions, mem_normalizeVersions, mem_orderedSet,
      List.mem_filter, decide_eq_true_eq, mem_ownApplied]
    tauto
  symm
  apply orderedSet_eq
  · refine List.pairwise_append.mpr ⟨MigrationStatus.applied_ordered _,
      MigrationStatus.pending_ordered _, ?_⟩
    intro version hversion later hlater
    obtain ⟨hin, hversion⟩ := (hown version).mp hversion
    obtain ⟨hlater, hnew⟩ := (hrest later).mp hlater
    obtain hlt | rfl | hgt := lt_trichotomy version later
    · exact hlt
    · exact absurd hin hnew
    · exact absurd (h.no_gaps i later hlater version hversion hin hgt) hnew
  · intro version
    rw [List.mem_append, hown, hrest]
    tauto

theorem perform_eq_status {sources : ι → List Migration} {request : Request ι}
    {status : MigrationStatus}
    (h : (perform runner sources applied request).2 = .ok (.status status)) :
    status = statusOf (sources request.source) applied := by
  unfold perform at h
  cases hcommand : request.command with
  | migrate =>
    rw [hcommand] at h
    cases hresult : (runPendingMigrations runner (sources request.source) applied
      request.connection).2 <;> simp [hresult, Except.map] at h
  | rollback =>
    rw [hcommand] at h
    cases hresult : (revertLast (sources request.source) applied request.connection).2 <;>
      simp [hresult, Except.map] at h
  | status =>
    rw [hcommand] at h
    cases hconnection : request.connection <;>
      simp [hconnection, migrationStatus, Except.map] at h
    exact h.symm

/-- On a database that started empty, whatever requests of the sources have come and failed midway,
the table stays kept, and every status that is answered shows the source cut in two. -/
theorem perform_kept (hdocumented : runner.Documented) (hskips : runner.SkipsApplied)
    {sources : ι → List Migration} (hapart : Apart sources) (requests : List (Request ι)) :
    Kept sources (Ownership.run (perform runner sources) [] requests).1 ∧
      ∀ entry ∈ (Ownership.run (perform runner sources) [] requests).2, ∀ status,
        entry.2 = .ok (.status status) → status.applied ++ status.pending =
          normalizeVersions (versionsOf (sources entry.1.source)) := by
  have hstep (applied : List String) (request : Request ι) (hkept : Kept sources applied) :
      Kept sources (perform runner sources applied request).1 :=
    (perform_edits sources request).kept hdocumented hskips hapart hkept
  obtain ⟨hlast, houtputs⟩ := Ownership.run_invariant hstep requests (Kept.nil sources)
  refine ⟨hlast, fun entry hentry status hstatus => ?_⟩
  obtain ⟨before, hkept, houtput⟩ := houtputs entry hentry
  rw [perform_eq_status (houtput.symm.trans hstatus)]
  exact hkept.status_split entry.1.source

theorem perform_kept_sample :
    (Ownership.run (perform .byVersion sampleSources) [] sampleRequests).1 = ["2025"] ∧
      Kept sampleSources (Ownership.run (perform .byVersion sampleSources) [] sampleRequests).1 :=
  ⟨by decide +kernel, (perform_kept Runner.byVersion_documented Runner.byVersion_skipsApplied
    sampleSources_apart sampleRequests).1⟩

/-! ### Rolling back -/

theorem revertLast_of_concat {front : List String} {last : String}
    (h : orderedSet (ownApplied source applied) = front ++ [last]) :
    revertLast source applied .answering =
        (unapply applied last, .ok (.fromVersions [last])) ∧
      orderedSet (ownApplied source (unapply applied last)) = front := by
  have hordered := pairwise_orderedSet (ownApplied source applied)
  rw [h] at hordered
  have hmem (version : String) : version ∈ front ++ [last] ↔
      version ∈ applied ∧ version ∈ versionsOf source := by
    rw [← h, mem_orderedSet, mem_ownApplied]
  obtain ⟨happlied, hsource⟩ := (hmem last).mp List.mem_concat_self
  obtain ⟨hfront, -, hlast⟩ := List.pairwise_append.mp hordered
  constructor
  · cases hfound : revertLastMigration source applied with
    | error error => exact absurd happlied ((revertLastMigration_eq_error hfound).2 last hsource)
    | ok migration =>
      obtain ⟨hown, hin, hmax⟩ := revertLastMigration_eq_ok hfound
      -- nothing applied of the source comes after the last one
      have hversion : migration.version = last := by
        obtain hmem | hmem := List.mem_append.mp ((hmem migration.version).mpr ⟨hin, hown⟩)
        · have hlt := hlast migration.version hmem last (List.mem_singleton_self last)
          exact absurd (hmax last hsource happlied) hlt.not_ge
        · exact List.mem_singleton.mp hmem
      simp only [revertLast, hfound, hversion]
  · apply orderedSet_eq hfront
    intro version
    rw [mem_ownApplied, mem_unapply, and_right_comm, ← hmem, List.mem_append, List.mem_singleton]
    constructor
    · intro hversion
      exact ⟨.inl hversion, (hlast version hversion last (List.mem_singleton_self last)).ne⟩
    · rintro ⟨hversion | hversion, hne⟩
      · exact hversion
      · exact absurd hversion hne

theorem revertLast_of_nil (h : orderedSet (ownApplied source applied) = []) :
    revertLast source applied .answering =
      (applied, .error (.migration (some .noMigrationRun))) := by
  have hnone (version : String) : version ∈ applied → version ∉ versionsOf source := by
    intro hin hversion
    have hmem : version ∈ orderedSet (ownApplied source applied) :=
      mem_orderedSet.mpr (mem_ownApplied.mpr ⟨hin, hversion⟩)
    rw [h] at hmem
    cases hmem
  cases hfound : revertLastMigration source applied with
  | error error =>
    obtain ⟨rfl, -⟩ := revertLastMigration_eq_error hfound
    simp only [revertLast, hfound]
  | ok migration =>
    obtain ⟨hown, hin, -⟩ := revertLastMigration_eq_ok hfound
    exact absurd hown (hnone migration.version hin)

/-- Rolling back again and again reverts what is applied of the source, newest first and each
version once, then says that nothing is left, and touches no version of another source. -/
theorem rollbacks_unwind (sources : ι → List Migration) (i : ι) (applied : List String)
    (count : ℕ) :
    let request : Request ι := ⟨i, .rollback, .answering⟩
    let newestFirst := (orderedSet (ownApplied (sources i) applied)).reverse
    Ownership.run (perform runner sources) applied (List.replicate count request) =
      (applied.filter (· ∉ newestFirst.take count),
        (newestFirst.take count).map
            (fun version => (request, .ok (.report (.fromVersions [version])))) ++
          List.replicate (count - newestFirst.length)
            (request, .error (.migration (some .noMigrationRun)))) := by
  intro request newestFirst
  induction count generalizing applied with
  | zero => simp [Ownership.run]
  | succ count ih =>
    rw [List.replicate_succ, Ownership.run]
    obtain hnil | ⟨front, last, hconcat⟩ :=
      (orderedSet (ownApplied (sources i) applied)).eq_nil_or_concat
    · have hstep : perform runner sources applied request =
          (applied, .error (.migration (some .noMigrationRun))) := by
        simp only [perform, request, revertLast_of_nil hnil]
        rfl
      rw [hstep, ih applied]
      simp [newestFirst, hnil, List.replicate_succ]
    · rw [List.concat_eq_append] at hconcat
      obtain ⟨hrevert, hfront⟩ := revertLast_of_concat hconcat
      have hstep : perform runner sources applied request =
          (unapply applied last, .ok (.report (.fromVersions [last]))) := by
        simp only [perform, request, hrevert]
        rfl
      rw [hstep, ih (unapply applied last)]
      simp only [hfront, newestFirst, hconcat, List.reverse_append, List.reverse_singleton,
        List.nil_append, List.take_succ_cons, List.map_cons, List.length_cons,
        Nat.add_sub_add_right, List.cons_append]
      have hfilter : (unapply applied last).filter (· ∉ front.reverse.take count) =
          applied.filter (· ∉ last :: front.reverse.take count) := by
        rw [unapply, List.filter_filter]
        exact List.filter_congr fun version _ => by simp [Bool.and_comm]
      rw [hfilter]

end Database

end Mads
