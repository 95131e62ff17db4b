import Mads.Cli.Database.Publish
import Mads.Common.Database.Migration
import Mads.Library.Decimal

/-!
# Where a new migration stands among the existing ones
-/

namespace Mads

namespace Publish

open Decimal

/-! ### The version of a published directory -/

theorem timestampFromNanos_eq_ok {nanos : ℕ} {timestamp : String}
    (h : timestampFromNanos nanos = .ok timestamp) :
    (Nat.toDigits 10 nanos).length ≤ 20 ∧ timestamp = padded nanos := by
  unfold timestampFromNanos at h
  split at h
  · cases h
  · next hwide => exact ⟨Nat.not_lt.mp hwide, by injection h with h; exact h.symm⟩

/-- The version of a published migration is the timestamp. -/
theorem directoryVersion_published {nanos : ℕ} (h : (Nat.toDigits 10 nanos).length ≤ 20) :
    directoryVersion (padded nanos ++ "_schema_diff") = padded nanos := by
  obtain ⟨-, hdigits, -⟩ := leftpad_digits h
  have hunderscore : ∀ c ∈ List.leftpad 20 '0' (Nat.toDigits 10 nanos), c ≠ '_' ∧ c ≠ '-' := by
    intro c hc
    have hdigit := hdigits c hc
    constructor <;> rintro rfl <;> cases hdigit
  have hsuffix : ("_schema_diff" : String).toList = '_' :: "schema_diff".toList := rfl
  rw [directoryVersion, String.toList_append, padded, String.toList_ofList, hsuffix,
    List.takeWhile_append_of_pos (fun c hc => by simpa using (hunderscore c hc).1)]
  rw [List.takeWhile_cons_of_neg (by simp), List.append_nil,
    List.filter_eq_self.mpr fun c hc => by simpa using (hunderscore c hc).2]

/-- The version comes before the current time: its leading digits, as the first ones of a count of
nanoseconds with twenty digits, are smaller, or they agree with the time, are fewer, and are
followed by nothing or by a character before the digits. -/
def Earlier (version : String) (nanos : ℕ) : Prop :=
  let digits := version.toList.takeWhile Char.isDigit
  value digits < firstDigits 20 nanos digits.length ∨
    value digits = firstDigits 20 nanos digits.length ∧ digits.length < 20 ∧
      ∀ c ∈ (version.toList.dropWhile Char.isDigit).head?, c < '0'

instance (version : String) (nanos : ℕ) : Decidable (Earlier version nanos) :=
  inferInstanceAs (Decidable (_ ∨ _ ∧ _ ∧ _))

theorem lt_padded_iff {version : String} {nanos : ℕ} (h : (Nat.toDigits 10 nanos).length ≤ 20) :
    version < padded nanos ↔ Earlier version nanos := by
  obtain ⟨hlength, hdigits, hvalue⟩ := leftpad_digits h
  rw [String.lt_iff, padded, String.toList_ofList, lt_digits_iff hdigits, hlength, hvalue]
  rfl

/-! ### Applying and reverting it -/

/-- The directory `new` among the existing ones: its version is the greatest, a fresh database
applies it last, and the next rollback reverts it, however the directories are listed. -/
structure Newest (runner : Runner) (existing : List String) (new : String) : Prop where
  greater : ∀ name ∈ existing, runner.version name < runner.version new
  applied_last : ∀ names, names.Perm (new :: existing) →
    ∃ last, (runner.pending (runner.load names) []).getLast? = some last ∧ last.name = new
  reverted : ∀ names, names.Perm (new :: existing) →
    ∃ last, revertLastMigration (runner.load names)
      ((runner.pending (runner.load names) []).map (·.version)) = .ok last ∧ last.name = new

/-- What comes first by version comes first for the runner and for the rollback. -/
theorem newest_of_greater {runner : Runner} (hrunner : runner.Documented) {existing : List String}
    {new : String} (h : ∀ name ∈ existing, runner.version name < runner.version new) :
    Newest runner existing new := by
  -- however the directory is listed, every other version is smaller
  have hloaded : ∀ names, names.Perm (new :: existing) → ∀ migration ∈ runner.load names,
      migration.name = new ∧ migration.version = runner.version new ∨
        migration.version < runner.version new := by
    intro names hperm migration hm
    obtain ⟨name, hname, rfl⟩ := List.mem_map.mp hm
    obtain rfl | hname := List.mem_cons.mp (hperm.mem_iff.mp hname)
    · exact .inl ⟨rfl, rfl⟩
    · exact .inr (h name hname)
  have hnew : ∀ names, names.Perm (new :: existing) →
      ⟨new, runner.version new⟩ ∈ runner.load names := fun names hperm =>
    List.mem_map.mpr ⟨new, hperm.mem_iff.mpr List.mem_cons_self, rfl⟩
  have hpending : ∀ names, names.Perm (new :: existing) →
      ∃ next ∈ runner.pending (runner.load names) [], next.version = runner.version new :=
    fun names hperm => hrunner.pending _ [] _ (hnew names hperm) List.not_mem_nil
  refine ⟨h, fun names hperm => ?_, fun names hperm => ?_⟩
  · obtain ⟨next, hnext, hversion⟩ := hpending names hperm
    obtain ⟨front, last, hsplit⟩ : ∃ front last,
        runner.pending (runner.load names) [] = front ++ [last] :=
      ⟨_, _, (List.dropLast_append_getLast (List.ne_nil_of_mem hnext)).symm⟩
    refine ⟨last, by simp [hsplit], ?_⟩
    -- the version of `new` is not before the last one, so the last one is not before it
    have hlast : last ∈ runner.load names :=
      hrunner.mem_source _ [] last (hsplit ▸ List.mem_concat_self)
    have hsorted := hrunner.sorted (runner.load names) []
    rw [hsplit, List.pairwise_append] at hsorted
    obtain ⟨hname, -⟩ | hlt := hloaded names hperm last hlast
    · exact hname
    · rw [hsplit] at hnext
      obtain hnext | hnext := List.mem_append.mp hnext
      · have hgt := hsorted.2.2 next hnext last (List.mem_singleton_self last)
        rw [hversion] at hgt
        exact absurd hlt hgt.asymm
      · rw [List.mem_singleton.mp hnext] at hversion
        exact absurd hversion hlt.ne
  · have hall : (runner.load names).filter (fun migration =>
        migration.version ∈ (runner.pending (runner.load names) []).map (·.version)) =
          runner.load names := by
      refine List.filter_eq_self.mpr fun migration hm => ?_
      obtain ⟨next, hnext, hversion⟩ := hrunner.pending _ [] migration hm (by simp)
      simpa using ⟨next, hnext, hversion⟩
    obtain ⟨newest, hmem, hnewest, hmax⟩ :=
      newestMigration_spec (List.ne_nil_of_mem (hnew names hperm))
    refine ⟨newest, by rw [revertLastMigration, hall, hnewest], ?_⟩
    obtain ⟨hname, -⟩ | hlt := hloaded names hperm newest hmem
    · exact hname
    · exact absurd hlt (hmax _ (hnew names hperm)).not_gt

/-- For every set of existing directories and every time that gives a timestamp: the published
migration is the newest exactly where every existing version comes before the current time. -/
theorem newest_iff_earlier {runner : Runner} (hrunner : runner.Documented) {nanos : ℕ}
    {timestamp : String} (htimestamp : timestampFromNanos nanos = .ok timestamp)
    (existing : List String) :
    Newest runner existing (timestamp ++ "_schema_diff") ↔
      ∀ name ∈ existing, Earlier (directoryVersion name) nanos := by
  obtain ⟨hwide, rfl⟩ := timestampFromNanos_eq_ok htimestamp
  have hgreater : (∀ name ∈ existing,
      runner.version name < runner.version (padded nanos ++ "_schema_diff")) ↔
        ∀ name ∈ existing, Earlier (directoryVersion name) nanos := by
    simp only [hrunner.version_eq, directoryVersion_published hwide, lt_padded_iff hwide]
  exact ⟨fun h => hgreater.mp h.greater, fun h => newest_of_greater hrunner (hgreater.mpr h)⟩

theorem newest_iff_earlier_sample :
    Newest .byVersion ["01700000000000000000_schema_diff", "0001-01-01_first"]
      "01788200000123456789_schema_diff" := by
  have htimestamp : timestampFromNanos 1788200000123456789 = .ok "01788200000123456789" := by
    decide +kernel
  refine (newest_iff_earlier Runner.byVersion_documented htimestamp _).mpr ?_
  decide +kernel

/-- A directory named after a date is applied after a new migration, and rolled back instead. -/
theorem dated_directory_rolled_back :
    timestampFromNanos 1788200000123456789 = .ok "01788200000123456789" ∧
    ¬ Newest .byVersion ["2024-01-01-000000_create_users"] "01788200000123456789_schema_diff" ∧
    revertLastMigration (Runner.byVersion.load
        ["2024-01-01-000000_create_users", "01788200000123456789_schema_diff"])
      ["01788200000123456789", "20240101000000"] =
        .ok ⟨"2024-01-01-000000_create_users", "20240101000000"⟩ := by
  refine ⟨by decide +kernel, fun h => ?_, by decide +kernel⟩
  have := h.greater "2024-01-01-000000_create_users" (by simp)
  revert this
  decide +kernel

end Publish

end Mads
