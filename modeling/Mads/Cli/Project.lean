import Mads.Base
import Mads.Cli.Diagnostic
import Mads.Library.Discovery
import Mads.Library.Paths

/-!
# Cargo projects: which application is meant, and which local packages it is made of
-/

namespace Mads

open Paths

namespace Cargo

inductive TargetKind where
  | bin
  | other (kind : String)
  deriving DecidableEq, Repr

structure Target where
  name : String
  kind : List TargetKind
  deriving DecidableEq, Repr

/-- A package as Cargo describes it. A manifest lies in a directory. -/
structure Package where
  id : String
  name : String
  version : String
  source : Option String := none
  manifestPath : Path
  targets : List Target
  defaultRun : Option String := none
  hasDirectory : (parent manifestPath).isSome

/-- The directory of a package's manifest. -/
def Package.directory (package : Package) : Path :=
  (parent package.manifestPath).get package.hasDirectory

/-- The packages that a package was resolved to depend on. -/
structure Node where
  id : String
  deps : List String

/-- What Cargo answers about a project: all packages, those of the workspace, the ones it would
build without being told which, and the package of the directory it was asked in. -/
structure Metadata where
  packages : List Package
  workspaceRoot : Path
  workspacePackages : List Package
  workspaceDefaultPackages : List Package
  rootPackage : Option Package
  resolve : Option (List Node)

end Cargo

open Cargo

/-- Which application the command line names. -/
structure TargetSelection where
  package : Option String := none
  binary : Option String := none
  deriving DecidableEq, Repr

structure ResolvedPackage where
  workspaceRoot : Path
  packageRoot : Path
  manifestPath : Path
  packageId : String
  packageName : String
  deriving DecidableEq, Repr

structure ResolvedApplication where
  package : ResolvedPackage
  binaryName : String
  madsVersion : Option String
  deriving DecidableEq, Repr

/-- The error that the application is not named clearly enough. -/
def ambiguousTarget (message subject suggestion : String) : CliError where
  code := "MADS200"
  title := "Cargo application target is ambiguous"
  message := message
  subject := some subject
  suggestions := [suggestion]

def commaSeparated (names : List String) : String := String.intercalate ", " names

def sortedNames (names : List String) : List String := sortBy compare names

def unknownPackage (name : String) (packageNames : List String) : CliError :=
  let available :=
    if packageNames = [] then "the workspace contains no packages"
    else s!"available packages: {commaSeparated packageNames}"
  ambiguousTarget ("no workspace package is named `" ++ name ++ "`; " ++ available)
    ("package `" ++ name ++ "`") "pass --package <package>"

/-- `resolve_binary`. -/
def resolveBinary (package : Package) (binary : Option String) : Except CliError String :=
  let binaries := package.targets.filter fun target => TargetKind.bin ∈ target.kind
  let reject (message : String) : CliError :=
    ambiguousTarget ("package `" ++ package.name ++ "` " ++ message)
      ("package `" ++ package.name ++ "`") "pass --bin <binary>"
  let named (name message : String) : Except CliError String :=
    match binaries.find? fun target => target.name = name with
    | some target => .ok target.name
    | none => .error (reject message)
  match binary, package.defaultRun with
  | some binary, _ => named binary ("has no binary target named `" ++ binary ++ "`")
  | none, some defaultRun =>
    named defaultRun
      ("declares default-run `" ++ defaultRun ++ "`, but no matching binary exists")
  | none, none =>
    match binaries with
    | [target] => .ok target.name
    | [] => .error (reject "has no binary targets")
    | _ =>
      .error (reject ("has more than one binary target: " ++
        commaSeparated (sortedNames (binaries.map (·.name)))))

/-- A project, and where the file system says that a path really lies. -/
structure CargoProject where
  metadata : Metadata
  canonicalize : Path → Option Path

namespace CargoProject

variable (project : CargoProject)

/-- A path that cannot be looked up stays as it is. -/
def canonicalPath (path : Path) : Path := (project.canonicalize path).getD path

def packageRoot (package : Package) : Path := project.canonicalPath package.directory

def resolveDefaultPackage : Except CliError Package :=
  match project.metadata.workspaceDefaultPackages with
  | [package] => .ok package
  | [] =>
    .error (ambiguousTarget "no default workspace package can be selected" "workspace"
      "pass --package <package>")
  | candidates =>
    .error (ambiguousTarget ("more than one package can be selected: " ++
      commaSeparated (sortedNames (candidates.map (·.name)))) "workspace"
      "pass --package <package>")

def resolvedPackage (package : Package) : ResolvedPackage where
  workspaceRoot := project.metadata.workspaceRoot
  packageRoot := package.directory
  manifestPath := package.manifestPath
  packageId := package.id
  packageName := package.name

/-- The package that `resolve_package` picks. -/
def selectPackage (package : Option String) : Except CliError Package :=
  match package with
  | some name =>
    match project.metadata.workspacePackages.find? fun candidate => candidate.name = name with
    | some package => .ok package
    | none =>
      .error (unknownPackage name
        (sortedNames (project.metadata.workspacePackages.map (·.name))))
  | none =>
    match project.metadata.rootPackage with
    | some package => .ok package
    | none => project.resolveDefaultPackage

def resolvePackage (package : Option String) : Except CliError ResolvedPackage :=
  (project.selectPackage package).map project.resolvedPackage

/-- The first dependency of a package that is called `mads`. -/
def directMadsVersion (package : Package) : Option String := do
  let nodes ← project.metadata.resolve
  let node ← nodes.find? fun node => node.id = package.id
  node.deps.findSome? fun dependency =>
    (project.metadata.packages.find? fun candidate =>
      candidate.id = dependency && candidate.name = "mads").map (·.version)

/-- `Metadata`'s index, which panics where no package has the id. -/
def packageById (id : String) : Run CliError Package :=
  Run.expect (project.metadata.packages.find? fun package => package.id = id)
    "no package with this ID"

def resolveApplication (selection : TargetSelection) : Run CliError ResolvedApplication := do
  let package ← (project.resolvePackage selection.package).mapError Halt.err
  let selected ← project.packageById package.packageId
  let binaryName ← (resolveBinary selected selection.binary).mapError Halt.err
  return { package, binaryName, madsVersion := project.directMadsVersion selected }

/-! ### The application that is meant -/

/-- The binary of a package: the one that is named, else the one of `default-run`, else the only
one. -/
structure IsBinary (package : Package) (binary : Option String) (name : String) : Prop where
  declared : ∃ target ∈ package.targets, TargetKind.bin ∈ target.kind ∧ target.name = name
  meant : binary.or package.defaultRun = some name ∨
    binary.or package.defaultRun = none ∧
      (package.targets.filter fun target => TargetKind.bin ∈ target.kind).length = 1

/-- Every package that can be picked is the one under its id. -/
def Indexed : Prop :=
  ∀ package, package ∈ project.metadata.workspacePackages ∨
      package ∈ project.metadata.workspaceDefaultPackages ∨
        project.metadata.rootPackage = some package →
    project.metadata.packages.find? (fun candidate => candidate.id = package.id) = some package

section

variable {package : Package} {binary : Option String} {name : String} {error : CliError}
  {application : ResolvedApplication} {selection : TargetSelection}

/-- A binary that is looked up by its name. -/
theorem find?_binary_eq_some {targets : List Target} {target : Target}
    (h : (targets.filter fun target => TargetKind.bin ∈ target.kind).find?
      (fun target => target.name = name) = some target) :
    target.name = name ∧ ∃ target ∈ targets, TargetKind.bin ∈ target.kind ∧ target.name = name := by
  have hname : target.name = name := by simpa using List.find?_some h
  obtain ⟨hmem, hkind⟩ := List.mem_filter.mp (List.mem_of_find?_eq_some h)
  exact ⟨hname, target, hmem, by simpa using hkind, hname⟩

theorem find?_binary_eq_none {targets : List Target}
    (h : (targets.filter fun target => TargetKind.bin ∈ target.kind).find?
      (fun target => target.name = name) = none) :
    ¬ ∃ target ∈ targets, TargetKind.bin ∈ target.kind ∧ target.name = name := by
  rintro ⟨target, hmem, hkind, rfl⟩
  have hnone := List.find?_eq_none.mp h target (List.mem_filter.mpr ⟨hmem, by simpa using hkind⟩)
  simp at hnone

/-- What looking a binary up by a name answers. -/
theorem isBinary_of_wanted {wanted : String} (hwanted : binary.or package.defaultRun = some wanted)
    {reject : CliError} {result : Except CliError String}
    (h : result = match (package.targets.filter fun target => TargetKind.bin ∈ target.kind).find?
        (fun target => target.name = wanted) with
      | some target => .ok target.name
      | none => .error reject) :
    (∀ name, result = .ok name ↔ IsBinary package binary name) ∧
      ∀ error, result = .error error → error = reject := by
  cases hfind : (package.targets.filter fun target => TargetKind.bin ∈ target.kind).find?
      (fun target => target.name = wanted) with
  | some target =>
    rw [hfind] at h
    subst h
    obtain ⟨hname, hdeclared⟩ := find?_binary_eq_some hfind
    refine ⟨fun name => ⟨fun heq => ?_, fun hbinary => ?_⟩, by simp⟩
    · obtain rfl := Except.ok.inj heq
      rw [hname]
      exact ⟨hdeclared, .inl hwanted⟩
    · obtain hmeant | ⟨hnone, -⟩ := hbinary.meant
      · show Except.ok target.name = _
        rw [hname, Option.some.inj (hwanted.symm.trans hmeant)]
      · rw [hwanted] at hnone
        cases hnone
  | none =>
    rw [hfind] at h
    subst h
    refine ⟨fun name => iff_of_false (by simp) fun hbinary => ?_, by simp [eq_comm]⟩
    obtain hmeant | ⟨hnone, -⟩ := hbinary.meant
    · obtain rfl := Option.some.inj (hwanted.symm.trans hmeant)
      exact find?_binary_eq_none hfind hbinary.declared
    · rw [hwanted] at hnone
      cases hnone

/-- A package has the binary that is meant, or the error says why not. -/
theorem resolveBinary_spec (package : Package) (binary : Option String) :
    (∀ name, resolveBinary package binary = .ok name ↔ IsBinary package binary name) ∧
      ∀ error, resolveBinary package binary = .error error → error.code = "MADS200" := by
  cases hwanted : binary.or package.defaultRun with
  | some wanted =>
    obtain ⟨reject, hcode, hlookup⟩ : ∃ reject : CliError, reject.code = "MADS200" ∧
        resolveBinary package binary =
          match (package.targets.filter fun target => TargetKind.bin ∈ target.kind).find?
            (fun target => target.name = wanted) with
          | some target => .ok target.name
          | none => .error reject := by
      cases binary with
      | some named =>
        obtain rfl : named = wanted := Option.some.inj hwanted
        exact ⟨_, by rfl, rfl⟩
      | none =>
        rw [Option.none_or] at hwanted
        unfold resolveBinary
        rw [hwanted]
        exact ⟨_, by rfl, rfl⟩
    obtain ⟨hok, herror⟩ := isBinary_of_wanted hwanted hlookup
    exact ⟨hok, fun error h => herror error h ▸ hcode⟩
  | none =>
    have hnone (hlength : (package.targets.filter fun target =>
        TargetKind.bin ∈ target.kind).length ≠ 1) (name : String) :
        ¬ IsBinary package binary name := by
      rintro ⟨-, hmeant | ⟨-, hone⟩⟩
      · rw [hwanted] at hmeant
        cases hmeant
      · exact hlength hone
    obtain ⟨rfl, hdefault⟩ := Option.or_eq_none_iff.mp hwanted
    unfold resolveBinary
    rw [hdefault]
    dsimp only
    split
    · next target hbinaries =>
      have htarget : target ∈ package.targets ∧ TargetKind.bin ∈ target.kind := by
        have hmem := hbinaries ▸ List.mem_singleton_self target
        simpa using List.mem_filter.mp hmem
      refine ⟨fun name => ⟨fun heq => ?_, fun hbinary => ?_⟩, by simp⟩
      · obtain rfl := Except.ok.inj heq
        exact ⟨⟨target, htarget.1, htarget.2, rfl⟩, .inr ⟨hwanted, by rw [hbinaries]; rfl⟩⟩
      · obtain ⟨other, hmem, hkind, rfl⟩ := hbinary.declared
        have hother : other ∈ [target] := by
          rw [← hbinaries]
          exact List.mem_filter.mpr ⟨hmem, by simpa using hkind⟩
        rw [List.mem_singleton.mp hother]
    · next hbinaries =>
      have hlength : (package.targets.filter fun target => TargetKind.bin ∈ target.kind).length ≠
          1 := by simp [hbinaries]
      exact ⟨fun name => iff_of_false (by simp) (hnone hlength name), by rintro _ ⟨⟩; rfl⟩
    · next hmany _ =>
      have hlength : (package.targets.filter fun target => TargetKind.bin ∈ target.kind).length ≠
          1 := by
        intro hone
        obtain ⟨target, htarget⟩ := List.length_eq_one_iff.mp hone
        exact hmany target htarget
      exact ⟨fun name => iff_of_false (by simp) (hnone hlength name), by rintro _ ⟨⟩; rfl⟩

theorem selectPackage_mem (h : project.selectPackage selection.package = .ok package) :
    package ∈ project.metadata.workspacePackages ∨
      package ∈ project.metadata.workspaceDefaultPackages ∨
        project.metadata.rootPackage = some package := by
  unfold selectPackage at h
  split at h
  · split at h
    · next found hfind =>
      obtain rfl := Except.ok.inj h
      exact .inl (List.mem_of_find?_eq_some hfind)
    · cases h
  · split at h
    · next found hroot =>
      obtain rfl := Except.ok.inj h
      exact .inr (.inr hroot)
    · unfold resolveDefaultPackage at h
      split at h
      · next found hdefault =>
        obtain rfl := Except.ok.inj h
        exact .inr (.inl (by rw [hdefault]; exact List.mem_singleton_self _))
      · cases h
      · cases h

theorem selectPackage_error (h : project.selectPackage selection.package = .error error) :
    error.code = "MADS200" := by
  unfold selectPackage resolveDefaultPackage at h
  split at h
  · split at h
    · cases h
    · cases h
      rfl
  · split at h
    · cases h
    · split at h <;> cases h <;> rfl

/-- An application is the binary that is meant of the package that is picked, and every refusal is
that the target is ambiguous; nothing panics. -/
theorem resolveApplication_spec (hindexed : project.Indexed) (selection : TargetSelection) :
    (∀ application, project.resolveApplication selection = .ok application ↔
      ∃ package, project.selectPackage selection.package = .ok package ∧
        IsBinary package selection.binary application.binaryName ∧
        application.package = project.resolvedPackage package ∧
        application.madsVersion = project.directMadsVersion package) ∧
    ((∃ application, project.resolveApplication selection = .ok application) ∨
      ∃ error, project.resolveApplication selection = .error (.err error) ∧
        error.code = "MADS200") := by
  cases hpackage : project.selectPackage selection.package with
  | error error =>
    have hrun : project.resolveApplication selection = .error (.err error) := by
      rw [resolveApplication, resolvePackage, hpackage]
      rfl
    rw [hrun]
    exact ⟨fun application => iff_of_false (by simp) (by simp),
      .inr ⟨error, rfl, project.selectPackage_error hpackage⟩⟩
  | ok package =>
    have hfound : project.packageById package.id = .ok package := by
      rw [packageById, hindexed package (project.selectPackage_mem hpackage)]
      rfl
    have hrun : project.resolveApplication selection =
        (resolveBinary package selection.binary).mapError Halt.err >>= fun binaryName =>
          pure ⟨project.resolvedPackage package, binaryName,
            project.directMadsVersion package⟩ := by
      rw [resolveApplication, resolvePackage, hpackage]
      show (project.packageById package.id >>= _) = _
      rw [hfound]
      rfl
    obtain ⟨hok, herror⟩ := resolveBinary_spec package selection.binary
    simp only [Except.ok.injEq, exists_eq_left']
    rw [hrun]
    cases hbinary : resolveBinary package selection.binary with
    | error error =>
      refine ⟨fun application => iff_of_false (fun h => by cases h) fun h => ?_,
        .inr ⟨error, rfl, herror error hbinary⟩⟩
      cases hbinary.symm.trans ((hok _).mpr h.1)
    | ok binaryName =>
      refine ⟨fun application => ⟨fun h => ?_, fun h => ?_⟩, .inl ⟨_, rfl⟩⟩
      · obtain rfl := Except.ok.inj h
        exact ⟨(hok _).mp hbinary, rfl, rfl⟩
      · obtain ⟨hname, hpackage, hversion⟩ := h
        obtain ⟨resolved, name, version⟩ := application
        obtain rfl : binaryName = name := Except.ok.inj (hbinary.symm.trans ((hok _).mpr hname))
        obtain rfl := hpackage
        obtain rfl := hversion
        rfl

end

/-! ### Local packages -/

/-- The packages that a package was resolved to depend on. -/
def dependencies (id : String) : List String :=
  match project.metadata.resolve with
  | none => []
  | some nodes =>
    match nodes.find? fun node => node.id = id with
    | none => []
    | some node => node.deps

/-- Enough fuel to read every package that the resolution names. -/
def resolutionSize : ℕ :=
  ((project.metadata.resolve.getD []).flatMap (·.deps)).length + 2

/-- `reachable_package_ids`, a list that is read by its index while it grows. -/
def reachablePackageIds (selected : String) : Run CliError (List String) :=
  match Discovery.run project.dependencies project.resolutionSize 0 [selected] with
  | some reachable => .ok reachable
  | none => .error .diverge

def componentOrder (left right : Component) : Ordering :=
  let rank : Component → ℕ
    | .rootDir => 0
    | .curDir => 1
    | .parentDir => 2
    | .normal _ => 3
  let name : Component → Name
    | .normal name => name
    | _ => []
  (compare (rank left) (rank right)).then (List.compareLex compare (name left) (name right))

def pathOrder (left right : Path) : Ordering := List.compareLex componentOrder left right

/-- `sort` and then `dedup`. -/
def sortedRoots (roots : List Path) : List Path := (sortBy pathOrder roots).destutter (· ≠ ·)

/-- The roots of the local packages that the application is made of. -/
def localWatchRoots (application : ResolvedApplication) : Run CliError (List Path) := do
  let reachable ← project.reachablePackageIds application.package.packageId
  let roots := (project.metadata.packages.filter fun package =>
    package.source.isNone && package.id ∈ reachable).map project.packageRoot
  let selectedRoot := project.canonicalPath application.package.packageRoot
  return sortedRoots (if selectedRoot ∈ roots then roots else roots ++ [selectedRoot])

def localPackageRoots : List Path :=
  sortedRoots ((project.metadata.packages.filter fun package => package.source.isNone).map
    project.packageRoot)

/-- `used` is `user`, or a package that it was resolved to depend on, directly or not. -/
def Requires (user used : String) : Prop :=
  Relation.ReflTransGen (fun package dependency => dependency ∈ project.dependencies package)
    user used

/-- A directory that the application is made of: its own, or that of a local package which it
requires. -/
def IsSourceRoot (application : ResolvedApplication) (root : Path) : Prop :=
  root = project.canonicalPath application.package.packageRoot ∨
    ∃ package ∈ project.metadata.packages, package.source = none ∧
      project.Requires application.package.packageId package.id ∧
      project.packageRoot package = root

variable {project} {application : ResolvedApplication} {selected id : String} {root : Path}

theorem dependencies_subset :
    project.dependencies id ⊆ (project.metadata.resolve.getD []).flatMap (·.deps) := by
  intro dependency hmem
  rw [dependencies] at hmem
  split at hmem
  · cases hmem
  · next nodes hresolve =>
    split at hmem
    · cases hmem
    · next node hnode =>
      rw [hresolve]
      exact List.mem_flatMap.mpr ⟨node, List.mem_of_find?_eq_some hnode, hmem⟩

/-- The loop ends, with every required package in the list once. -/
theorem reachablePackageIds_spec (project : CargoProject) (selected : String) :
    ∃ reachable, project.reachablePackageIds selected = .ok reachable ∧ reachable.Nodup ∧
      ∀ id, id ∈ reachable ↔ project.Requires selected id := by
  have hall : ∀ id, Worklist.Reached project.dependencies [selected] id →
      id ∈ selected :: (project.metadata.resolve.getD []).flatMap (·.deps) := by
    intro id hid
    cases hid with
    | seed hid => exact List.mem_cons.mpr (.inl (List.mem_singleton.mp hid))
    | next _ hid => exact List.mem_cons_of_mem _ (dependencies_subset hid)
  obtain ⟨reachable, hrun, hnodup, hmem⟩ := Discovery.run_spec hall project.resolutionSize
    (.start (List.nodup_singleton selected)) (by simp [resolutionSize])
  refine ⟨reachable, by rw [reachablePackageIds, hrun], hnodup, fun id => ?_⟩
  rw [hmem, Discovery.reached_singleton, Requires]

theorem mem_sortedRoots {roots : List Path} : root ∈ sortedRoots roots ↔ root ∈ roots := by
  rw [sortedRoots, mem_destutter, (sortBy_perm pathOrder roots).mem_iff]

theorem localWatchRoots_spec (project : CargoProject) (application : ResolvedApplication) :
    ∃ roots, project.localWatchRoots application = .ok roots ∧
      ∀ root, root ∈ roots ↔ project.IsSourceRoot application root := by
  obtain ⟨reachable, hreachable, -, hmem⟩ :=
    reachablePackageIds_spec project application.package.packageId
  refine ⟨_, by rw [localWatchRoots, hreachable]; rfl, fun root => ?_⟩
  have hpackages : root ∈ (project.metadata.packages.filter fun package =>
        package.source.isNone && package.id ∈ reachable).map project.packageRoot ↔
      ∃ package ∈ project.metadata.packages, package.source = none ∧
        project.Requires application.package.packageId package.id ∧
        project.packageRoot package = root := by
    simp [hmem, and_assoc]
  rw [mem_sortedRoots, IsSourceRoot]
  split
  · next hselected =>
    rw [hpackages]
    refine ⟨.inr, Or.rec ?_ id⟩
    rintro rfl
    exact hpackages.mp hselected
  · rw [List.mem_append, hpackages, List.mem_singleton, or_comm]

theorem mem_localPackageRoots :
    root ∈ project.localPackageRoots ↔
      ∃ package ∈ project.metadata.packages, package.source = none ∧
        project.packageRoot package = root := by
  simp [localPackageRoots, mem_sortedRoots, and_assoc]

end CargoProject

end Mads
