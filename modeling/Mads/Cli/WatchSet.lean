import Mathlib.Order.Bounds.Basic
import Mathlib.Order.Lattice
import Mads.Cli.DevState
import Mads.Core.Descriptor
import Mads.Library.Paths

/-!
# What a changed path asks the supervisor for, and where the project lies
-/

namespace Mads

open Paths

namespace ChangeImpact

theorem rank_injective : Function.Injective rank := by
  intro left right h
  cases left <;> cases right <;> first | rfl | cases h

instance : LinearOrder ChangeImpact := LinearOrder.lift' rank rank_injective

theorem none_le (impact : ChangeImpact) : none ≤ impact := Nat.zero_le _

theorem merge_concat (impacts : List ChangeImpact) (impact : ChangeImpact) :
    merge (impacts ++ [impact]) = max (merge impacts) impact := by
  rw [merge, List.foldl_append, max_def]
  rfl

/-- Merging gives the greatest of the impacts, and none where there are none. -/
theorem merge_isGreatest (impacts : List ChangeImpact) :
    IsGreatest {impact | impact = none ∨ impact ∈ impacts} (merge impacts) := by
  induction impacts using List.reverseRecOn with
  | nil => exact ⟨.inl rfl, by rintro impact (rfl | h); exacts [le_rfl, absurd h List.not_mem_nil]⟩
  | append_singleton impacts last ih =>
    rw [merge_concat]
    constructor
    · rcases max_choice (merge impacts) last with h | h
      · rw [h]
        exact ih.1.imp_right (List.mem_append_left _)
      · rw [h]
        exact .inr (List.mem_append_right _ (List.mem_singleton_self _))
    · rintro impact (rfl | h)
      · exact none_le _
      · rcases List.mem_append.mp h with h | h
        · exact (ih.2 (.inr h)).trans (le_max_left _ _)
        · rw [List.mem_singleton.mp h]
          exact le_max_right _ _

end ChangeImpact

/-- What a file watcher reports of an event. -/
inductive EventKind where
  | any
  | access
  | create
  | modify
  | remove
  | other
  deriving DecidableEq, Repr

structure Event where
  kind : EventKind
  paths : List Path

/-- The event says that something was made, changed or taken away. -/
def Event.reportsChange (event : Event) : Prop :=
  event.kind = .create ∨ event.kind = .modify ∨ event.kind = .remove

/-- A directory that tools write into. -/
def isIgnoredComponent (component : Component) : Bool :=
  component = .normal (osStr "target") || component = .normal (osStr ".git")

/-- A name that editors and file managers leave behind. The suffixes are ASCII, so that the bytes
end in one exactly when the text does, even where the bytes are no text. -/
def isIgnoredName (name : Name) : Bool :=
  name = osStr ".DS_Store" ||
    ["~", ".swp", ".swx", ".tmp"].any fun ending => (osStr ending).isSuffixOf name

def isIgnoredPath (path : Path) : Bool :=
  path.any isIgnoredComponent || (fileName path).any isIgnoredName

structure WatchSet where
  workspaceRoot : Path
  packageRoot : Path
  localRoots : List Path
  excludedPackageRoots : List Path

namespace WatchSet

/-- The deepest root the path lies below, and whether the application reaches it. -/
def owningRoot (watch : WatchSet) (path : Path) : Option (Path × Bool) :=
  maxByKey (fun root => root.1.length)
    ((watch.localRoots.map (·, true) ++ watch.excludedPackageRoots.map (·, false)).filter
      fun root => startsWith path root.1)

def ownerIsExcluded (watch : WatchSet) (path : Path) : Bool :=
  (watch.owningRoot path).any fun owner => !owner.2

/-- A configuration file of the selected package. -/
def isConfigurationPath (watch : WatchSet) (path : Path) : Bool :=
  parent path = some watch.packageRoot &&
    (fileName path).any fun name => name = osStr ".env" || name = osStr "mads.toml"

def isRebuildPath (watch : WatchSet) (path : Path) : Bool :=
  if path = join watch.workspaceRoot ["Cargo.toml"] ||
      path = join watch.workspaceRoot ["Cargo.lock"] then true
  else
    let isReachableSource := (watch.owningRoot path).any fun owner => owner.2
    let isRustSource := extension path = some (osStr "rs")
    let isPackageManifest := fileName path = some (osStr "Cargo.toml") &&
      (watch.owningRoot path).any fun owner => owner.2 && parent path = some owner.1
    let isSelectedMigration := startsWith path (join watch.packageRoot ["migrations"])
    let isSelectedSchema := path = join watch.packageRoot ["src", "schema.rs"] ||
      startsWith path (join watch.packageRoot ["src", "schema"])
    (isReachableSource && isRustSource) || isPackageManifest || isSelectedMigration ||
      isSelectedSchema

def classify (watch : WatchSet) (path : Path) : ChangeImpact :=
  if isIgnoredPath path || watch.ownerIsExcluded path then .none
  else if watch.isConfigurationPath path then .restart
  else if watch.isRebuildPath path then .rebuild
  else .none

def classifyEvent (watch : WatchSet) (event : Event) : ChangeImpact :=
  match event.kind with
  | .create | .modify | .remove => ChangeImpact.merge (event.paths.map watch.classify)
  | .access | .other | .any => .none

variable (watch : WatchSet)

/-! ### The owner of a path -/

/-- `root` contains `path`, no root that does is deeper, and the root counts as reachable unless it
is also excluded. -/
structure Owns (path root : Path) (reachable : Bool) : Prop where
  contains : root <+: path
  deepest : ∀ other ∈ watch.localRoots ++ watch.excludedPackageRoots, other <+: path →
    other <+: root
  listed : root ∈ if reachable then watch.localRoots else watch.excludedPackageRoots
  reachable_iff : reachable = true ↔ root ∉ watch.excludedPackageRoots

variable {watch} {path root : Path} {reachable : Bool}

/-- The roots in the order in which they are asked, with whether the application reaches them. -/
theorem mem_roots {owner : Path × Bool} :
    owner ∈ watch.localRoots.map (·, true) ++ watch.excludedPackageRoots.map (·, false) ↔
      owner.1 ∈ if owner.2 then watch.localRoots else watch.excludedPackageRoots := by
  obtain ⟨root, reachable⟩ := owner
  cases reachable <;> simp

theorem owningRoot_eq_none :
    watch.owningRoot path = none ↔
      ∀ root ∈ watch.localRoots ++ watch.excludedPackageRoots, ¬ root <+: path := by
  rw [owningRoot, maxByKey_eq_none, List.filter_eq_nil_iff]
  constructor
  · intro h root hmem hprefix
    rcases List.mem_append.mp hmem with hmem | hmem
    · exact h (root, true) (mem_roots.mpr hmem) (startsWith_iff.mpr hprefix)
    · exact h (root, false) (mem_roots.mpr hmem) (startsWith_iff.mpr hprefix)
  · rintro h ⟨root, reachable⟩ hmem hprefix
    refine h root ?_ (startsWith_iff.mp hprefix)
    have hlisted := mem_roots.mp hmem
    cases reachable
    · exact List.mem_append_right _ hlisted
    · exact List.mem_append_left _ hlisted

/-- A root that is both reachable and excluded is excluded: it is asked for last. -/
theorem not_excluded_of_owningRoot (h : watch.owningRoot path = some (root, true)) :
    root ∉ watch.excludedPackageRoots := by
  intro hexcluded
  have hcontains : root <+: path := by
    have hmem := (maxByKey_eq_some h).1
    rw [List.mem_filter, startsWith_iff] at hmem
    exact hmem.2
  rw [owningRoot, List.filter_append, maxByKey_append] at h
  have hlast : (root, false) ∈ (watch.excludedPackageRoots.map (·, false)).filter
      fun root => startsWith path root.1 := by
    simpa [startsWith_iff] using ⟨hexcluded, hcontains⟩
  split at h
  · next hnone =>
    rw [maxByKey_eq_none] at hnone
    rw [hnone] at hlast
    cases hlast
  · next last _ hlast' =>
    obtain rfl := Option.some.inj h
    have hmem := (maxByKey_eq_some hlast').1
    simp at hmem
  · next best last _ hlast' =>
    have hmax := (maxByKey_eq_some hlast').2 _ hlast
    have hmem := (maxByKey_eq_some hlast').1
    split at h
    · obtain rfl := Option.some.inj h
      simp at hmem
    · next hlt =>
      obtain rfl := Option.some.inj h
      exact hlt hmax

theorem Owns.of_owningRoot (h : watch.owningRoot path = some (root, reachable)) :
    watch.Owns path root reachable := by
  obtain ⟨hmem, hmax⟩ := maxByKey_eq_some h
  rw [List.mem_filter, mem_roots, startsWith_iff] at hmem
  obtain ⟨hlisted, hcontains⟩ := hmem
  refine ⟨hcontains, ?_, hlisted, ?_⟩
  · intro other hother hprefix
    refine List.prefix_of_prefix_length_le hprefix hcontains ?_
    obtain hother | hother := List.mem_append.mp hother
    · exact hmax (other, true) (by simpa using ⟨hother, hprefix⟩)
    · exact hmax (other, false) (by simpa using ⟨hother, hprefix⟩)
  · cases reachable with
    | true => exact iff_of_true rfl (not_excluded_of_owningRoot h)
    | false => exact iff_of_false Bool.false_ne_true (not_not_intro hlisted)

/-- A path has one owner. -/
theorem Owns.unique {other : Path} {reachable' : Bool} (h : watch.Owns path root reachable)
    (h' : watch.Owns path other reachable') : other = root ∧ reachable' = reachable := by
  have hroot : ∀ {root reachable}, watch.Owns path root reachable →
      root ∈ watch.localRoots ++ watch.excludedPackageRoots := by
    rintro root (_ | _) h
    · exact List.mem_append_right _ h.listed
    · exact List.mem_append_left _ h.listed
  have heq : other = root := (h.deepest other (hroot h') h'.contains).eq_of_length_le
    (h'.deepest root (hroot h) h.contains).length_le
  subst heq
  exact ⟨rfl, Bool.eq_iff_iff.mpr (h'.reachable_iff.trans h.reachable_iff.symm)⟩

theorem owningRoot_eq_some :
    watch.owningRoot path = some (root, reachable) ↔ watch.Owns path root reachable := by
  refine ⟨.of_owningRoot, fun h => ?_⟩
  cases howner : watch.owningRoot path with
  | none =>
    refine absurd h.contains (owningRoot_eq_none.mp howner root ?_)
    have hlisted := h.listed
    cases reachable
    · exact List.mem_append_right _ hlisted
    · exact List.mem_append_left _ hlisted
  | some owner =>
    obtain ⟨heq, heq'⟩ := h.unique (.of_owningRoot howner)
    rw [← heq, ← heq']

/-- The roots other than the owner of a path have no part in its class. -/
theorem classify_congr {other : WatchSet} (hworkspace : other.workspaceRoot = watch.workspaceRoot)
    (hpackage : other.packageRoot = watch.packageRoot)
    (howner : other.owningRoot path = watch.owningRoot path) :
    other.classify path = watch.classify path := by
  simp only [classify, ownerIsExcluded, isConfigurationPath, isRebuildPath, hworkspace, hpackage,
    howner]

theorem classifyEvent_isGreatest {event : Event} (h : event.reportsChange) :
    IsGreatest {impact | impact = .none ∨ ∃ path ∈ event.paths, watch.classify path = impact}
      (watch.classifyEvent event) := by
  have heq : watch.classifyEvent event = ChangeImpact.merge (event.paths.map watch.classify) := by
    obtain h | h | h := h <;> rw [classifyEvent, h]
  rw [heq]
  simpa only [List.mem_map] using
    ChangeImpact.merge_isGreatest (event.paths.map watch.classify)

/-! ### Moving a project -/

/-- The same project below a directory. -/
def relocate (layout : WatchSet) (base : Path) : WatchSet where
  workspaceRoot := base ++ layout.workspaceRoot
  packageRoot := base ++ layout.packageRoot
  localRoots := layout.localRoots.map (base ++ ·)
  excludedPackageRoots := layout.excludedPackageRoots.map (base ++ ·)

variable (layout : WatchSet) (base : Path)

theorem owningRoot_relocate (path : Path) :
    (layout.relocate base).owningRoot (base ++ path) =
      (layout.owningRoot path).map fun owner => (base ++ owner.1, owner.2) := by
  calc
    _ = maxByKey (fun root => root.1.length)
        (((layout.localRoots.map (·, true) ++ layout.excludedPackageRoots.map (·, false)).filter
          fun root => startsWith path root.1).map fun owner => (base ++ owner.1, owner.2)) := by
      rw [owningRoot]
      congr 1
      simp only [relocate, List.filter_append, List.map_append, List.filter_map, List.map_map]
      congr 1 <;> refine congrArg _ (List.filter_congr fun root _ => ?_) <;>
        exact startsWith_append
    _ = _ := maxByKey_map (fun left right => by simp) _

theorem ownerIsExcluded_relocate (path : Path) :
    (layout.relocate base).ownerIsExcluded (base ++ path) = layout.ownerIsExcluded path := by
  rw [ownerIsExcluded, owningRoot_relocate, Option.any_map]
  rfl

/-- The application reaches the owner of the path. -/
def reaches (watch : WatchSet) (path : Path) : Bool :=
  (watch.owningRoot path).any fun owner => owner.2

theorem reaches_relocate (path : Path) :
    (layout.relocate base).reaches (base ++ path) = layout.reaches path := by
  rw [reaches, owningRoot_relocate, Option.any_map]
  rfl

/-- Something above the project, or the project's directory itself, is called as what tools write
into. -/
def isBelowIgnored (base : Path) : Bool := base.any isIgnoredComponent

/-- The directory is called like a source file, and not like one to ignore. -/
def isSource (base : Path) : Bool :=
  !isIgnoredPath base && extension base = some (osStr "rs")

variable {layout base} {path : Path}

theorem isIgnoredPath_append (h : path ≠ []) :
    isIgnoredPath (base ++ path) = (isBelowIgnored base || isIgnoredPath path) := by
  rw [isIgnoredPath, List.any_append, fileName_append h, isIgnoredPath, isBelowIgnored,
    Bool.or_assoc]

theorem isConfigurationPath_relocate (h : path ≠ []) :
    (layout.relocate base).isConfigurationPath (base ++ path) =
      layout.isConfigurationPath path := by
  rw [isConfigurationPath, fileName_append h, isConfigurationPath]
  congr 1
  rw [decide_eq_decide]
  exact parent_append_eq_some h

theorem isRebuildPath_relocate (h : path ≠ []) :
    (layout.relocate base).isRebuildPath (base ++ path) = layout.isRebuildPath path := by
  have hmanifest : (((layout.relocate base).owningRoot (base ++ path)).any fun owner =>
      owner.2 && parent (base ++ path) = some owner.1) =
      (layout.owningRoot path).any fun owner => owner.2 && parent path = some owner.1 := by
    rw [owningRoot_relocate, Option.any_map]
    refine congrArg (Option.any · _) (funext fun owner => ?_)
    simp only [parent_append_eq_some h]
  have hreaches := reaches_relocate layout base path
  rw [reaches, reaches] at hreaches
  rw [isRebuildPath, isRebuildPath, fileName_append h, extension_append h, hmanifest, hreaches]
  simp only [relocate, join_append, startsWith_append, List.append_cancel_left_eq]

/-- Below a directory the class is the one without it, unless something above is ignored. -/
theorem classify_relocate (h : path ≠ []) :
    (layout.relocate base).classify (base ++ path) =
      if isBelowIgnored base then .none else layout.classify path := by
  rw [classify, isIgnoredPath_append h, ownerIsExcluded_relocate, isConfigurationPath_relocate h,
    isRebuildPath_relocate h, classify]
  cases isBelowIgnored base with
  | true => simp
  | false => simp

theorem isConfigurationPath_relocate_self :
    (layout.relocate base).isConfigurationPath base = false := by
  rw [isConfigurationPath, relocate, decide_eq_false parent_ne_append, Bool.false_and]

theorem isRebuildPath_relocate_self :
    (layout.relocate base).isRebuildPath base =
      (layout.reaches [] && extension base = some (osStr "rs")) := by
  have howner := owningRoot_relocate layout base []
  have hreaches := reaches_relocate layout base []
  rw [List.append_nil] at howner hreaches
  have hmanifest : (((layout.relocate base).owningRoot base).any fun owner =>
      owner.2 && parent base = some owner.1) = false := by
    rw [howner, Option.any_map]
    cases layout.owningRoot [] with
    | none => rfl
    | some owner => simp [parent_ne_append]
  rw [reaches] at hreaches
  rw [isRebuildPath, hmanifest, hreaches]
  simp only [relocate]
  rw [startsWith_join_append (by simp), startsWith_join_append (by simp)]
  simp

theorem not_ownerIsExcluded_of_reaches {watch : WatchSet} (h : watch.reaches path = true) :
    watch.ownerIsExcluded path = false := by
  rw [reaches] at h
  rw [ownerIsExcluded]
  cases howner : watch.owningRoot path with
  | none => rfl
  | some owner =>
    rw [howner] at h
    simpa using h

/-- Of the directory that moves no name stays: it is rebuilt for where it is called like a source
file. -/
theorem classify_relocate_self :
    (layout.relocate base).classify base =
      if layout.reaches [] && isSource base then .rebuild else .none := by
  have hexcluded := ownerIsExcluded_relocate layout base []
  rw [List.append_nil] at hexcluded
  rw [classify, isConfigurationPath_relocate_self, isRebuildPath_relocate_self, hexcluded, isSource]
  cases hcase : layout.reaches [] with
  | false => simp
  | true =>
    rw [not_ownerIsExcluded_of_reaches hcase]
    cases isIgnoredPath base with
    | true => simp
    | false => simp

/-- The rules for what lies below the project make something of the path. -/
def Watches (layout : WatchSet) (path : Path) : Prop :=
  isIgnoredPath path = false ∧ layout.ownerIsExcluded path = false ∧
    (layout.isConfigurationPath path = true ∨ layout.isRebuildPath path = true)

theorem classify_ne_none : layout.classify path ≠ .none ↔ layout.Watches path := by
  rw [classify, Watches]
  cases isIgnoredPath path <;> cases layout.ownerIsExcluded path <;>
    cases layout.isConfigurationPath path <;> cases layout.isRebuildPath path <;> simp

/-- Where a project may be moved without a change of a path's class: for a path below the directory
that moves, if the rules make something of it, the two directories have to agree on whether they lie
below an ignored one; for the directory itself, if the application reaches it, on whether they are
called like a source file. -/
def Movable (layout : WatchSet) (old new path : Path) : Prop :=
  if path = [] then layout.reaches [] = true → isSource old = isSource new
  else layout.Watches path → isBelowIgnored old = isBelowIgnored new

instance (layout : WatchSet) (old new path : Path) : Decidable (layout.Movable old new path) :=
  inferInstanceAs (Decidable (if path = [] then _ → _ else (_ ∧ _ ∧ (_ ∨ _)) → _))

theorem classify_eq_iff_movable {old new : Path} :
    (layout.relocate old).classify (old ++ path) = (layout.relocate new).classify (new ++ path) ↔
      layout.Movable old new path := by
  rw [Movable]
  by_cases hpath : path = []
  · subst hpath
    rw [if_pos rfl, List.append_nil, List.append_nil, classify_relocate_self,
      classify_relocate_self]
    cases layout.reaches [] <;> cases isSource old <;> cases isSource new <;> simp
  · rw [if_neg hpath, classify_relocate hpath, classify_relocate hpath, ← classify_ne_none]
    cases isBelowIgnored old <;> cases isBelowIgnored new <;> simp [eq_comm]

theorem classifyEvent_perm {watch : WatchSet} {event event' : Event}
    (hkind : event'.kind = event.kind) (hpaths : event'.paths.Perm event.paths) :
    watch.classifyEvent event' = watch.classifyEvent event := by
  by_cases h : event.reportsChange
  · have h' : event'.reportsChange := by rwa [Event.reportsChange, hkind]
    have hgreatest : IsGreatest _ (watch.classifyEvent event') := classifyEvent_isGreatest h'
    simp only [hpaths.mem_iff] at hgreatest
    exact IsGreatest.unique hgreatest (classifyEvent_isGreatest h)
  · rw [Event.reportsChange] at h
    rw [classifyEvent, classifyEvent, hkind]
    cases hcase : event.kind <;> simp_all

/-- A project may be moved without a change of a path's class exactly where the directories agree
on what the rules read of them; wherever it lies, a path is classified by its deepest root alone,
and a change by the greatest of its paths' classes, in any order. -/
theorem moved_class_iff (layout : WatchSet) (old new path : Path) :
    ((layout.relocate old).classify (old ++ path) = (layout.relocate new).classify (new ++ path) ↔
      layout.Movable old new path) ∧
    (∀ watch : WatchSet,
      (∀ root reachable,
        watch.owningRoot path = some (root, reachable) ↔ watch.Owns path root reachable) ∧
      (∀ other : WatchSet, other.workspaceRoot = watch.workspaceRoot →
        other.packageRoot = watch.packageRoot →
        other.owningRoot path = watch.owningRoot path →
        other.classify path = watch.classify path) ∧
      (∀ event : Event, event.reportsChange →
        IsGreatest {impact | impact = .none ∨ ∃ path ∈ event.paths, watch.classify path = impact}
          (watch.classifyEvent event)) ∧
      ∀ event event' : Event, event'.kind = event.kind → event'.paths.Perm event.paths →
        watch.classifyEvent event' = watch.classifyEvent event) := by
  refine ⟨classify_eq_iff_movable, fun watch => ⟨?_, ?_, ?_, ?_⟩⟩
  · intro root reachable
    exact owningRoot_eq_some
  · intro other hworkspace hpackage howner
    exact classify_congr hworkspace hpackage howner
  · intro event hchange
    exact classifyEvent_isGreatest hchange
  · intro event event' hkind hpaths
    exact classifyEvent_perm hkind hpaths

/-- A workspace whose application is the package `app`. -/
def appLayout : WatchSet where
  workspaceRoot := []
  packageRoot := join [] ["app"]
  localRoots := [join [] ["app"]]
  excludedPackageRoots := []

/-- A checkout below a directory called `target` is not watched: its main source file, which is
rebuilt for elsewhere, counts as generated. -/
theorem target_checkout_unwatched :
    let source := join [] ["app", "src", "main.rs"]
    let old := join [.rootDir] ["home", "work"]
    let new := join [.rootDir] ["home", "target", "work"]
    (appLayout.relocate old).classify (old ++ source) = .rebuild ∧
      (appLayout.relocate new).classify (new ++ source) = .none := by
  decide

end WatchSet

end Mads
