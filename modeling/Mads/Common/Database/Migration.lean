import Mathlib.Data.List.Induction
import Mathlib.Data.String.Basic
import Mads.Library.SortedMap

/-!
# Applying and reverting migrations of a source

The runner itself is not part of the repository; what is relied on of it is `Runner.Documented`.
-/

namespace Mads

/-- A migration of a source: its directory and the version that the runner reads off the name. -/
structure Migration where
  name : String
  version : String
  deriving DecidableEq, Repr

inductive MigrationError where
  | noMigrationRun
  deriving DecidableEq, Repr

/-- `max_by_key` on versions: the last of the greatest ones. -/
def newestMigration (migrations : List Migration) : Option Migration :=
  migrations.foldl (fun best migration =>
    match best with
    | none => some migration
    | some b => if migration.version < b.version then some b else some migration) none

/-- The migration that `Database::revert_last_migration` reverts. -/
def revertLastMigration (source : List Migration) (applied : List String) :
    Except MigrationError Migration :=
  match newestMigration (source.filter (fun migration => migration.version ∈ applied)) with
  | some migration => .ok migration
  | none => .error .noMigrationRun

/-- The runner of migrations: the version of a directory, and the migrations of a source that are
applied, in this order, where some versions are applied already. -/
structure Runner where
  version : String → String
  pending : List Migration → List String → List Migration

/-- The name of a directory up to the first underscore, without dashes. -/
def directoryVersion (name : String) : String :=
  String.ofList ((name.toList.takeWhile (· ≠ '_')).filter (· ≠ '-'))

namespace Runner

/-- The migrations in these directories. -/
def load (runner : Runner) (names : List String) : List Migration :=
  names.map (fun name => ⟨name, runner.version name⟩)

/-- What the runner is documented to do: it applies the versions of the source that are not applied
yet, each once and in ascending order. -/
structure Documented (runner : Runner) : Prop where
  version_eq : ∀ name, runner.version name = directoryVersion name
  mem_source : ∀ source applied, ∀ migration ∈ runner.pending source applied, migration ∈ source
  pending : ∀ source applied, ∀ migration ∈ source, migration.version ∉ applied →
    ∃ next ∈ runner.pending source applied, next.version = migration.version
  sorted : ∀ source applied, (runner.pending source applied).Pairwise
    (fun left right => left.version < right.version)

/-- The runner leaves alone what is applied already. -/
def SkipsApplied (runner : Runner) : Prop :=
  ∀ source applied, ∀ migration ∈ runner.pending source applied, migration.version ∉ applied

/-- A runner that keeps the migrations by version. -/
def byVersion : Runner where
  version := directoryVersion
  pending source applied :=
    ((source.filter (fun migration => migration.version ∉ applied)).foldl
      (fun map migration => map.insert migration.version migration)
      (SortedMap.empty : SortedMap String Migration)).entries.map (·.2)

theorem byVersion_inserted (migrations : List Migration) (map : SortedMap String Migration)
    (hkeys : ∀ entry ∈ map.entries, entry.2.version = entry.1) :
    (∀ entry ∈ (migrations.foldl (fun map migration => map.insert migration.version migration)
        map).entries, entry.2.version = entry.1 ∧ (entry ∈ map.entries ∨ entry.2 ∈ migrations)) ∧
      ∀ version ∈ map.keys ++ migrations.map (·.version),
        version ∈ (migrations.foldl (fun map migration => map.insert migration.version migration)
          map).keys := by
  induction migrations generalizing map with
  | nil => exact ⟨fun entry h => ⟨hkeys entry h, .inl h⟩, by simp⟩
  | cons migration migrations ih =>
    have hinserted : ∀ entry ∈ (map.insert migration.version migration).entries,
        entry = (migration.version, migration) ∨ entry ∈ map.entries := by
      intro entry h
      rw [← SortedMap.get_eq_some, SortedMap.get_insert] at h
      by_cases hkey : entry.1 = migration.version
      · rw [if_pos hkey] at h
        exact .inl (Prod.ext hkey (Option.some.inj h).symm)
      · rw [if_neg hkey] at h
        exact .inr (SortedMap.get_eq_some.mp h)
    obtain ⟨hentries, hversions⟩ := ih (map.insert migration.version migration) fun entry h => by
      obtain rfl | h := hinserted entry h
      · rfl
      · exact hkeys entry h
    refine ⟨fun entry h => ?_, fun version h => hversions version ?_⟩
    · obtain ⟨hversion, h⟩ := hentries entry h
      refine ⟨hversion, ?_⟩
      obtain h | h := h
      · obtain rfl | h := hinserted entry h
        · exact .inr List.mem_cons_self
        · exact .inl h
      · exact .inr (List.mem_cons_of_mem _ h)
    · simp only [List.mem_append, List.map_cons, List.mem_cons, SortedMap.mem_keys_insert] at h ⊢
      tauto

theorem byVersion_documented : byVersion.Documented := by
  have hempty : ∀ entry ∈ (SortedMap.empty : SortedMap String Migration).entries,
      entry.2.version = entry.1 := by simp [SortedMap.empty]
  refine ⟨fun _ => rfl, fun source applied migration h => ?_,
    fun source applied migration h hnew => ?_, fun source applied => ?_⟩
  · obtain ⟨entry, hentry, rfl⟩ := List.mem_map.mp h
    obtain ⟨-, hmem | hmem⟩ := (byVersion_inserted _ _ hempty).1 entry hentry
    · simp [SortedMap.empty] at hmem
    · exact (List.mem_filter.mp hmem).1
  · have hkept : migration ∈ source.filter (fun migration => migration.version ∉ applied) := by
      simp [h, hnew]
    have hkey := (byVersion_inserted _ _ hempty).2 migration.version
      (List.mem_append_right _ (List.mem_map_of_mem hkept))
    obtain ⟨entry, hentry, heq⟩ := List.mem_map.mp hkey
    refine ⟨entry.2, List.mem_map_of_mem hentry, ?_⟩
    rw [((byVersion_inserted _ _ hempty).1 entry hentry).1, heq]
  · refine List.pairwise_map.mpr ?_
    refine (SortedMap.sorted _).imp_of_mem fun {left right} hleft hright hlt => ?_
    rwa [((byVersion_inserted _ _ hempty).1 left hleft).1,
      ((byVersion_inserted _ _ hempty).1 right hright).1]

theorem byVersion_skipsApplied : byVersion.SkipsApplied := by
  have hempty : ∀ entry ∈ (SortedMap.empty : SortedMap String Migration).entries,
      entry.2.version = entry.1 := by simp [SortedMap.empty]
  intro source applied migration h
  obtain ⟨entry, hentry, rfl⟩ := List.mem_map.mp h
  obtain ⟨-, hmem | hmem⟩ := (byVersion_inserted _ _ hempty).1 entry hentry
  · simp [SortedMap.empty] at hmem
  · simpa using (List.mem_filter.mp hmem).2

end Runner

/-! ### The newest migration -/

theorem newestMigration_concat (migrations : List Migration) (migration : Migration) :
    newestMigration (migrations ++ [migration]) = match newestMigration migrations with
      | none => some migration
      | some b => if migration.version < b.version then some b else some migration := by
  rw [newestMigration, List.foldl_append]
  rfl

theorem newestMigration_spec {migrations : List Migration} (h : migrations ≠ []) :
    ∃ newest ∈ migrations, newestMigration migrations = some newest ∧
      ∀ migration ∈ migrations, migration.version ≤ newest.version := by
  induction migrations using List.reverseRecOn with
  | nil => exact absurd rfl h
  | append_singleton migrations last ih =>
    rw [newestMigration_concat]
    by_cases hnil : migrations = []
    · subst hnil
      exact ⟨last, by simp, rfl, by simp⟩
    · obtain ⟨newest, hmem, hnewest, hmax⟩ := ih hnil
      rw [hnewest]
      by_cases hlt : last.version < newest.version
      · refine ⟨newest, List.mem_append_left _ hmem, by simp [hlt], fun migration hm => ?_⟩
        obtain hm | hm := List.mem_append.mp hm
        · exact hmax migration hm
        · rw [List.mem_singleton.mp hm]
          exact hlt.le
      · refine ⟨last, by simp, by simp [hlt], fun migration hm => ?_⟩
        obtain hm | hm := List.mem_append.mp hm
        · exact (hmax migration hm).trans (not_lt.mp hlt)
        · rw [List.mem_singleton.mp hm]

end Mads
