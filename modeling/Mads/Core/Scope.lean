import Mathlib.Algebra.GroupWithZero.Nat
import Mathlib.Data.List.FinRange
import Mads.Core.Graph
import Mads.Library.Worklist

/-!
# Rooted provider selection and module boundaries
-/

namespace Mads

/-- The providers of a rooted application, with their owners and the boundaries they crossed. -/
structure ScopedProviderCatalog where
  descriptors : List ProviderDescriptor
  ownership : List ProviderOwnership
  diagnostics : List Diagnostic
  coveredMissing : List TypeId
  deriving DecidableEq

namespace Scope

def canAccess (graph : ModuleGraph) (context owner : TypeId) (visibility : ProviderVisibility) :
    Bool :=
  context = owner || (visibility = .public_ && graph.directlyImports context owner)

/-- The declaration at a position of a catalog. -/
def declaration (descriptors : List ProviderDescriptor) (i : Fin descriptors.length) :
    ProviderDescriptor :=
  descriptors[i]

/-- A declaration still to look at, and the module on whose behalf it was asked for. -/
structure WorkItem (n : ℕ) where
  descriptorIndex : Fin n
  context : Option TypeId
  dependencyPath : List String
  deriving DecidableEq

/-- An access that a module boundary forbids. -/
structure BoundaryFailure where
  context : TypeId
  owner : ModuleDescriptor
  dependency : ProviderDescriptor
  dependencyPath : List String

/-- What a declaration of a required type is to the requester. -/
inductive Candidate (n : ℕ) where
  | admissible (item : WorkItem n)
  | boundaryFailure (failure : BoundaryFailure)
  | ownedOutsideScope

namespace Candidate

variable {n : ℕ}

def item? : Candidate n → Option (WorkItem n)
  | admissible item => some item
  | _ => none

def failure? : Candidate n → Option BoundaryFailure
  | boundaryFailure failure => some failure
  | _ => none

def isOutside : Candidate n → Bool
  | ownedOutsideScope => true
  | _ => false

end Candidate

def boundaryError (graph : ModuleGraph) (failure : BoundaryFailure) : Run Error Diagnostic := do
  let context ← Run.expect (graph.modules.find? (fun m => m.typeId = failure.context))
    "provider work context is always a reachable module"
  let condition :=
    if failure.dependency.visibility ≠ .public_ then
      "the target provider does not have unrestricted `pub` visibility"
    else "the requesting module does not declare the target owner as a direct import"
  pure
    { code := MADS009
      title := "inaccessible module provider"
      message := condition ++ "; requester `" ++ context.typeName ++ "` (" ++ context.namespace_ ++
        ") cannot access owner `" ++ failure.owner.typeName ++ "` (" ++
        failure.owner.namespace_.getD "<unknown>" ++ ")"
      subject := some failure.dependency.typeName
      location := some failure.dependency.location
      suggestions := ["dependency path: " ++ " -> ".intercalate failure.dependencyPath] }

section Selection

variable (graph : ModuleGraph) (modules : List ModuleDescriptor)
  (descriptors : List ProviderDescriptor) (satisfied : List SatisfiedProvider)

def isSatisfied (typeId : TypeId) : Bool := satisfied.any (fun s => s.typeId = typeId)

/-- Judges one declaration of a required type. -/
def classify (work : WorkItem descriptors.length) (index : Fin descriptors.length) :
    Candidate descriptors.length :=
  let descriptor := declaration descriptors index
  let path := work.dependencyPath ++ [descriptor.typeName]
  match work.context, ownerOf descriptor.namespace_ modules with
  | context, none => .admissible ⟨index, context, path⟩
  | some context, some owner =>
    if owner.typeId = context then .admissible ⟨index, some owner.typeId, path⟩
    else if canAccess graph context owner.typeId descriptor.visibility then
      .admissible ⟨index, some owner.typeId, path⟩
    else .boundaryFailure ⟨context, owner, descriptor, path⟩
  | none, some owner =>
    if graph.isReachable owner.typeId then .admissible ⟨index, some owner.typeId, path⟩
    else .ownedOutsideScope

/-- The declarations of a required type, in catalog order. -/
def candidates (work : WorkItem descriptors.length) (dependency : DependencyDescriptor) :
    List (Candidate descriptors.length) :=
  ((List.finRange descriptors.length).filter
    (fun i => (declaration descriptors i).typeId = dependency.typeId)).map
      (classify graph modules descriptors work)

/-- The data of one selection. -/
structure Selection (n : ℕ) where
  queue : List (WorkItem n)
  processed : List (Fin n × Option TypeId) := []
  selectedIndices : List (Fin n) := []
  selected : List ProviderDescriptor := []
  diagnostics : List Diagnostic := []
  coveredMissing : List TypeId := []

/-- Looks for the declarations of one dependency. Boundary failures count only where no declaration
is admissible. -/
def resolveDependency (work : WorkItem descriptors.length)
    (selection : Selection descriptors.length) (dependency : DependencyDescriptor) :
    Run Error (Selection descriptors.length) := do
  if isSatisfied satisfied dependency.typeId then pure selection
  else
    let found := candidates graph modules descriptors work dependency
    let admissible := found.filterMap Candidate.item?
    let failures := found.filterMap Candidate.failure?
    if admissible.isEmpty then
      let errors ← failures.mapM (boundaryError graph)
      let selection := { selection with diagnostics := selection.diagnostics ++ errors }
      if !found.isEmpty && (found.any Candidate.isOutside || !failures.isEmpty) &&
          dependency.typeId ∉ selection.coveredMissing then
        pure { selection with coveredMissing := selection.coveredMissing ++ [dependency.typeId] }
      else pure selection
    else pure { selection with queue := selection.queue ++ admissible }

/-- Handles one work item that was taken off the queue. -/
def processWork (selection : Selection descriptors.length) (work : WorkItem descriptors.length) :
    Run Error (Selection descriptors.length) :=
  if (work.descriptorIndex, work.context) ∈ selection.processed then pure selection
  else
    let descriptor := declaration descriptors work.descriptorIndex
    let selection := { selection with
      processed := selection.processed ++ [(work.descriptorIndex, work.context)] }
    let selection := if work.descriptorIndex ∈ selection.selectedIndices then selection
      else { selection with
        selectedIndices := selection.selectedIndices ++ [work.descriptorIndex]
        selected := selection.selected ++ [descriptor] }
    descriptor.dependencies.foldlM (resolveDependency graph modules descriptors satisfied work)
      selection

def selectLoop : ℕ → Selection descriptors.length → Run Error (Selection descriptors.length)
  | 0, _ => .error .diverge
  | fuel + 1, selection =>
    match selection.queue with
    | [] => pure selection
    | work :: queue => do
      let selection ← processWork graph modules descriptors satisfied { selection with queue } work
      selectLoop fuel selection

/-- The declarations owned by reachable modules, unless they are satisfied. -/
def seeds : List (WorkItem descriptors.length) :=
  (List.finRange descriptors.length).filterMap fun index =>
    let descriptor := declaration descriptors index
    if isSatisfied satisfied descriptor.typeId then none
    else
      let owner := ownerOf descriptor.namespace_ modules
      if owner.any (fun owner => graph.isReachable owner.typeId) then
        some ⟨index, owner.map (·.typeId), [descriptor.typeName]⟩
      else none

/-- Records the owner of each selected type, and of each satisfied type not recorded yet. -/
def ownershipWithTypes (selected : List ProviderDescriptor) : List (TypeId × ProviderOwnership) :=
  let recorded := selected.foldl (fun (found : List (TypeId × ProviderOwnership)) descriptor =>
    if found.any (fun pair => pair.1 = descriptor.typeId) then found
    else found ++ [(descriptor.typeId,
      ⟨descriptor.typeName, (ownerOf descriptor.namespace_ modules).map (·.typeName)⟩)]) []
  satisfied.foldl (fun found provider =>
    if found.all (fun pair => pair.1 ≠ provider.typeId) then
      found ++ [(provider.typeId, ⟨provider.typeName, none⟩)]
    else found) recorded

def ownership (selected : List ProviderDescriptor) : List ProviderOwnership :=
  (sortBy
    (compareLex (compareOn (·.2.providerTypeName)) (compareOn (·.2.moduleTypeName)))
    (ownershipWithTypes modules satisfied selected)).map Prod.snd

/-- Enough rounds for the loop: each declaration is processed once in each reachable module, and
queues at most every declaration for each of its dependencies. -/
def fuel : ℕ :=
  (seeds graph modules descriptors satisfied).length + descriptors.length * graph.modules.length *
    ((descriptors.map (·.dependencies.length)).sum * descriptors.length) + 1

end Selection

end Scope

/-- Selects what a rooted application can reach through providers and module boundaries. -/
def selectScopedProviders (graph : ModuleGraph) (modules : List ModuleDescriptor)
    (descriptors : List ProviderDescriptor) (satisfied : List SatisfiedProvider) :
    Run Error ScopedProviderCatalog := do
  let selection ← Scope.selectLoop graph modules descriptors satisfied
    (Scope.fuel graph modules descriptors satisfied)
    { queue := Scope.seeds graph modules descriptors satisfied }
  pure
    { descriptors := selection.selected
      ownership := Scope.ownership modules satisfied selection.selected
      diagnostics := selection.diagnostics
      coveredMissing := selection.coveredMissing }

end Mads
