import Mads.Cli.Project
import Mads.Cli.WatchSet

/-!
# What is watched for an application
-/

namespace Mads

open Paths Cargo

/-- A directory that the file watcher is told of. -/
structure WatchRoot where
  path : Path
  recursive : Bool
  deriving DecidableEq

/-- The watcher hears of the path: all that lies below a recursive root, and what stands directly
in another one. -/
def WatchRoot.Reports (root : WatchRoot) (path : Path) : Prop :=
  if root.recursive then root.path <+: path else parent path = some root.path

/-- A watch set, and the roots that the file watcher is told of. -/
structure WatchedApplication extends WatchSet where
  notifyRoots : List WatchRoot

namespace WatchedApplication

def forApplication (project : CargoProject) (application : ResolvedApplication) :
    Run CliError WatchedApplication := do
  let workspaceRoot := project.canonicalPath application.package.workspaceRoot
  let packageRoot := project.canonicalPath application.package.packageRoot
  let localRoots ← project.localWatchRoots application
  let excludedPackageRoots := project.localPackageRoots.filter fun root => !localRoots.contains root
  let recursiveRoots : List WatchRoot := localRoots.map fun path => ⟨path, true⟩
  let notifyRoots :=
    if localRoots.any (startsWith workspaceRoot) then recursiveRoots
    else recursiveRoots ++ [⟨workspaceRoot, false⟩]
  return {
    workspaceRoot, packageRoot, localRoots, excludedPackageRoots
    notifyRoots := sortBy
      (fun left right => CargoProject.pathOrder left.path right.path) notifyRoots }

/-- The roots of a watch set, in terms of the project. -/
structure Describes (watched : WatchedApplication) (project : CargoProject)
    (application : ResolvedApplication) : Prop where
  workspaceRoot : watched.workspaceRoot = project.canonicalPath application.package.workspaceRoot
  packageRoot : watched.packageRoot = project.canonicalPath application.package.packageRoot
  mem_localRoots : ∀ root, root ∈ watched.localRoots ↔ project.IsSourceRoot application root
  mem_excluded : ∀ root, root ∈ watched.excludedPackageRoots ↔
    root ∈ project.localPackageRoots ∧ ¬ project.IsSourceRoot application root
  local_notified : ∀ root ∈ watched.localRoots, ⟨root, true⟩ ∈ watched.notifyRoots
  workspace_notified : (∃ root ∈ watched.localRoots, root <+: watched.workspaceRoot) ∨
    ⟨watched.workspaceRoot, false⟩ ∈ watched.notifyRoots

theorem forApplication_spec (project : CargoProject) (application : ResolvedApplication) :
    ∃ watched, forApplication project application = .ok watched ∧
      watched.Describes project application := by
  obtain ⟨roots, hroots, hmem⟩ := CargoProject.localWatchRoots_spec project application
  refine ⟨_, by rw [forApplication, hroots]; rfl, ?_⟩
  constructor
  · rfl
  · rfl
  · exact hmem
  · intro root
    simp [hmem]
  · intro root hroot
    rw [(sortBy_perm _ _).mem_iff]
    split
    · exact List.mem_map_of_mem hroot
    · exact List.mem_append_left _ (List.mem_map_of_mem hroot)
  · rw [(sortBy_perm _ _).mem_iff]
    split
    · next h =>
      simp only [List.any_eq_true, startsWith_iff] at h
      exact .inl h
    · exact .inr (List.mem_append_right _ (List.mem_singleton_self _))

variable {watched : WatchedApplication} {project : CargoProject}
  {application : ResolvedApplication} {path root : Path}

theorem Describes.packageRoot_mem (h : watched.Describes project application) :
    watched.packageRoot ∈ watched.localRoots := by
  rw [h.mem_localRoots, h.packageRoot]
  exact .inl rfl

theorem Describes.reports_below (h : watched.Describes project application)
    (hroot : root ∈ watched.localRoots) (hbelow : root <+: path) :
    ∃ notified ∈ watched.notifyRoots, notified.Reports path :=
  ⟨_, h.local_notified root hroot, hbelow⟩

theorem parent_join_name (root : Path) (name : String) :
    parent (join root [name]) = some root := by
  simp [parent, join]

theorem prefix_of_parent (h : parent path = some root) : root <+: path := by
  rw [parent] at h
  split at h
  · cases h
  · cases h
  · rw [← Option.some.inj h]
    exact List.dropLast_prefix path

/-- A path that is built anew is a manifest of the workspace, or has an owner that the application
reaches, or lies in the package. -/
theorem isRebuildPath_cases {watch : WatchSet} (h : watch.isRebuildPath path = true) :
    (∃ name ∈ ["Cargo.toml", "Cargo.lock"], path = join watch.workspaceRoot [name]) ∨
      watch.reaches path = true ∨ watch.packageRoot <+: path := by
  rw [WatchSet.isRebuildPath] at h
  split at h
  · next hworkspace => exact .inl (by simpa using hworkspace)
  · have hpackage (names : List String) : watch.packageRoot <+: join watch.packageRoot names :=
      List.prefix_append _ _
    simp only [Bool.or_eq_true, Bool.and_eq_true, decide_eq_true_eq, startsWith_iff] at h
    obtain ((⟨hreaches, -⟩ | ⟨-, howner⟩) | hmigration) | hschema | hschema := h
    · exact .inr (.inl hreaches)
    · refine .inr (.inl ?_)
      obtain ⟨owner, hsome, howner⟩ := (Option.any_eq_true _ _).mp howner
      rw [WatchSet.reaches, hsome]
      exact (Bool.and_eq_true_iff.mp howner).1
    · exact .inr (.inr ((hpackage _).trans hmigration))
    · exact .inr (.inr (hschema ▸ hpackage _))
    · exact .inr (.inr ((hpackage _).trans hschema))

theorem exists_owner_of_reaches {watch : WatchSet} (h : watch.reaches path = true) :
    ∃ root, watch.Owns path root true := by
  rw [WatchSet.reaches] at h
  cases howner : watch.owningRoot path with
  | none => simp [howner] at h
  | some owner =>
    obtain ⟨root, reachable⟩ := owner
    obtain rfl : reachable = true := by simpa [howner] using h
    exact ⟨root, WatchSet.owningRoot_eq_some.mp howner⟩

/-- The watcher hears of every path that asks for something. -/
theorem Describes.reports (h : watched.Describes project application)
    (hclass : watched.classify path ≠ .none) :
    ∃ root ∈ watched.notifyRoots, root.Reports path := by
  obtain ⟨-, -, hconfiguration | hrebuild⟩ := WatchSet.classify_ne_none.mp hclass
  · -- a configuration file stands directly in the package
    rw [WatchSet.isConfigurationPath, Bool.and_eq_true, decide_eq_true_eq] at hconfiguration
    exact h.reports_below h.packageRoot_mem (prefix_of_parent hconfiguration.1)
  · obtain ⟨name, -, rfl⟩ | hreaches | hpackage := isRebuildPath_cases hrebuild
    · obtain ⟨root, hroot, hbelow⟩ | hworkspace := h.workspace_notified
      · exact h.reports_below hroot (hbelow.trans (List.prefix_append _ _))
      · exact ⟨_, hworkspace, parent_join_name _ _⟩
    · obtain ⟨root, howns⟩ := exists_owner_of_reaches hreaches
      exact h.reports_below howns.listed howns.contains
    · exact h.reports_below h.packageRoot_mem hpackage

/-- Watching an application always ends, and no path that asks for a restart or a rebuild is out of
the watcher's hearing. -/
theorem forApplication_hears (project : CargoProject) (application : ResolvedApplication) :
    ∃ watched, forApplication project application = .ok watched ∧
      ∀ path, watched.classify path ≠ .none →
        ∃ root ∈ watched.notifyRoots, root.Reports path := by
  obtain ⟨watched, hwatched, hdescribes⟩ := forApplication_spec project application
  exact ⟨watched, hwatched, fun path => hdescribes.reports⟩

/-! ### Source files -/

theorem extension_join_name (root : Path) (name : String) :
    extension (join root [name]) = (osStr name : Name).extension := by
  rw [join, extension_append (by simp)]
  rfl

/-- What the configuration and Cargo are called is not called like a Rust source. -/
theorem names_not_rust :
    ([".env", "mads.toml"] ++ ["Cargo.toml", "Cargo.lock"]).all
      (fun name => (osStr name : Name).extension ≠ some (osStr "rs")) = true := by
  decide

theorem not_configuration_of_rust {watch : WatchSet}
    (hrust : extension path = some (osStr "rs")) : watch.isConfigurationPath path = false := by
  rw [WatchSet.isConfigurationPath, Bool.and_eq_false_imp]
  intro _
  obtain ⟨name, hname, hextension⟩ := Option.bind_eq_some_iff.mp hrust
  have hnames := names_not_rust
  simp only [List.cons_append, List.all_cons, Bool.and_eq_true, decide_eq_true_eq] at hnames
  obtain ⟨henv, hconfig, -⟩ := hnames
  rw [hname, Option.any_some, Bool.or_eq_false_iff, decide_eq_false_iff_not,
    decide_eq_false_iff_not]
  constructor
  · rintro rfl
    exact henv hextension
  · rintro rfl
    exact hconfig hextension

/-- A path below a root of the application has an owner. -/
theorem reaches_of_below {watch : WatchSet} (hroot : root ∈ watch.localRoots)
    (hbelow : root <+: path) (howner : watch.ownerIsExcluded path = false) :
    watch.reaches path = true := by
  rw [WatchSet.ownerIsExcluded] at howner
  rw [WatchSet.reaches]
  cases hcase : watch.owningRoot path with
  | none =>
    exact absurd hbelow (WatchSet.owningRoot_eq_none.mp hcase root (List.mem_append_left _ hroot))
  | some owner => simpa [hcase] using howner

/-- A Rust source is built anew exactly where the application reaches its owner. -/
theorem Describes.classify_rust (h : watched.Describes project application)
    (hrust : extension path = some (osStr "rs")) (hkept : isIgnoredPath path = false) :
    watched.classify path = .rebuild ↔ watched.reaches path = true := by
  rw [WatchSet.classify, hkept, not_configuration_of_rust hrust, Bool.false_or]
  constructor
  · intro hclass
    split at hclass
    · cases hclass
    · next howner =>
      rw [Bool.not_eq_true] at howner
      have hrebuild : watched.isRebuildPath path = true := by simpa using hclass
      obtain ⟨name, hname, rfl⟩ | hreaches | hpackage := isRebuildPath_cases hrebuild
      · rw [extension_join_name] at hrust
        exact absurd hrust (by
          have hnames := List.all_eq_true.mp names_not_rust name (List.mem_append_right _ hname)
          simpa using hnames)
      · exact hreaches
      · exact reaches_of_below h.packageRoot_mem hpackage howner
  · intro hreaches
    rw [WatchSet.not_ownerIsExcluded_of_reaches hreaches]
    have hrebuild : watched.isRebuildPath path = true := by
      rw [WatchSet.reaches] at hreaches
      rw [WatchSet.isRebuildPath, hreaches, hrust]
      simp
    simp [hrebuild]

/-- A directory with a manifest of the project. -/
def IsPackageRoot (project : CargoProject) (application : ResolvedApplication) (root : Path) :
    Prop :=
  root ∈ project.localPackageRoots ∨
    root = project.canonicalPath application.package.packageRoot

/-- The roots a watch set asks for an owner are those of the project's packages. -/
theorem Describes.mem_roots (h : watched.Describes project application) :
    root ∈ watched.localRoots ++ watched.excludedPackageRoots ↔
      IsPackageRoot project application root := by
  rw [List.mem_append, h.mem_localRoots, h.mem_excluded, IsPackageRoot]
  constructor
  · rintro (hsource | ⟨hlocal, -⟩)
    · obtain hselected | ⟨package, hpackage, hlocal, -, hroot⟩ := hsource
      · exact .inr hselected
      · exact .inl (CargoProject.mem_localPackageRoots.mpr ⟨package, hpackage, hlocal, hroot⟩)
    · exact .inl hlocal
  · rintro (hlocal | hselected)
    · by_cases hsource : project.IsSourceRoot application root
      · exact .inl hsource
      · exact .inr ⟨hlocal, hsource⟩
    · exact .inl (.inl hselected)

theorem Describes.owns_iff (h : watched.Describes project application) :
    watched.Owns path root true ↔ project.IsSourceRoot application root ∧ root <+: path ∧
      ∀ other, IsPackageRoot project application other → other <+: path → other <+: root := by
  constructor
  · intro howns
    exact ⟨(h.mem_localRoots root).mp howns.listed, howns.contains,
      fun other hother => howns.deepest other (h.mem_roots.mpr hother)⟩
  · rintro ⟨hsource, hcontains, hdeepest⟩
    exact {
      contains := hcontains
      deepest := fun other hother => hdeepest other (h.mem_roots.mp hother)
      listed := (h.mem_localRoots root).mpr hsource
      reachable_iff := iff_of_true rfl fun hexcluded =>
        ((h.mem_excluded root).mp hexcluded).2 hsource }

/-- A change to a Rust source asks for a rebuild exactly where the innermost package around it is
the application's own, or a local one that it requires through any chain of dependencies. -/
theorem rust_source_rebuilds_iff (project : CargoProject) (application : ResolvedApplication)
    (path : Path) (hrust : extension path = some (osStr "rs"))
    (hkept : isIgnoredPath path = false) :
    ∃ watched, forApplication project application = .ok watched ∧
      (watched.classify path = .rebuild ↔
        ∃ root, project.IsSourceRoot application root ∧ root <+: path ∧
          ∀ other, IsPackageRoot project application other → other <+: path → other <+: root) := by
  obtain ⟨watched, hwatched, h⟩ := forApplication_spec project application
  refine ⟨watched, hwatched, ?_⟩
  rw [h.classify_rust hrust hkept]
  constructor
  · intro hreaches
    obtain ⟨root, howns⟩ := exists_owner_of_reaches hreaches
    exact ⟨root, h.owns_iff.mp howns⟩
  · rintro ⟨root, howns⟩
    rw [WatchSet.reaches, WatchSet.owningRoot_eq_some.mpr (h.owns_iff.mpr howns)]
    rfl

/-- A package of a sample workspace. -/
def samplePackage (name : String) (directory : List String) : Package where
  id := name
  name := name
  version := "0.1.0"
  manifestPath := join (join [.rootDir] directory) ["Cargo.toml"]
  targets := [⟨name, [.bin]⟩]
  hasDirectory := by rw [parent_join_name]; rfl

/-- An application that depends on a library, and a tool below it that it does not need. -/
def sampleProject : CargoProject where
  metadata := {
    packages := [samplePackage "app" ["app"], samplePackage "lib" ["lib"],
      samplePackage "tool" ["app", "tool"]]
    workspaceRoot := [.rootDir]
    workspacePackages := [samplePackage "app" ["app"]]
    workspaceDefaultPackages := [samplePackage "app" ["app"]]
    rootPackage := none
    resolve := some [⟨"app", ["lib"]⟩, ⟨"lib", []⟩, ⟨"tool", ["lib"]⟩] }
  canonicalize := some

def sampleApplication : ResolvedApplication where
  package := sampleProject.resolvedPackage (samplePackage "app" ["app"])
  binaryName := "app"
  madsVersion := none

theorem rust_source_rebuilds_iff_sample :
    ∃ watched, forApplication sampleProject sampleApplication = .ok watched ∧
      (watched.classify (join [.rootDir] ["lib", "src", "lib.rs"]) = .rebuild ↔
        ∃ root, sampleProject.IsSourceRoot sampleApplication root ∧
          root <+: join [.rootDir] ["lib", "src", "lib.rs"] ∧
          ∀ other, IsPackageRoot sampleProject sampleApplication other →
            other <+: join [.rootDir] ["lib", "src", "lib.rs"] → other <+: root) :=
  rust_source_rebuilds_iff sampleProject sampleApplication _ (by decide) (by decide)

end WatchedApplication

end Mads
