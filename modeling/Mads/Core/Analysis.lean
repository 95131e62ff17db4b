import Mads.Core.Cycle
import Mads.Core.Plan

/-!
# Validation of provider descriptors and dependency edges
-/

namespace Mads

def ProviderState.order : ProviderState → ℕ
  | provided => 0
  | preconstructed => 1
  | autoConfigured => 2
  | planned => 3

/-- A diagnostic with the data it is sorted by. -/
structure PendingDiagnostic where
  diagnostic : Diagnostic
  subject : String
  location : Option SourceLocation
  deriving DecidableEq, Repr

namespace PendingDiagnostic

def duplicate (descriptor : ProviderDescriptor) : PendingDiagnostic where
  diagnostic :=
    { code := MADS001
      title := "duplicate provider declaration"
      message := "the same provider declaration was registered more than once"
      subject := some descriptor.typeName
      location := some descriptor.location
      suggestions := ["remove the repeated provider declaration"] }
  subject := descriptor.typeName
  location := some descriptor.location

def ambiguous (descriptor : ProviderDescriptor) : PendingDiagnostic where
  diagnostic :=
    { code := MADS002
      title := "ambiguous provider binding"
      message := "multiple provider declarations produce the same concrete type"
      subject := some descriptor.typeName
      location := some descriptor.location
      suggestions := ["remove one provider declaration or change its output type"] }
  subject := descriptor.typeName
  location := some descriptor.location

def missing (provider : ProviderNode) (dependency : DependencyDescriptor) :
    Run Error PendingDiagnostic := do
  let location ← Run.expect provider.location "planned providers have a location"
  pure
    { diagnostic :=
        { code := MADS003
          title := "unresolved dependency"
          message := provider.typeName ++ " requires " ++ dependency.typeName ++
            ", but no provider exists for that type"
          subject := some dependency.typeName
          location := some location
          suggestions := ["register a provider or explicitly provide the missing dependency"] }
      subject := dependency.typeName
      location := provider.location }

def cycle (cycle : Cycle) : Run Error PendingDiagnostic := do
  let subject ← Run.expect cycle.names.head? "index out of bounds"
  pure
    { diagnostic :=
        { code := MADS005
          title := "dependency cycle"
          message := "provider dependency cycle: " ++ " -> ".intercalate cycle.names
          subject := some subject
          location := some cycle.location
          suggestions := ["remove or invert one dependency in the cycle"] }
      subject := subject
      location := some cycle.location }

def order (left right : PendingDiagnostic) : Ordering :=
  (compareOn (·.diagnostic.code.value) left right).then
    ((compareOn (·.subject) left right).then
      (optionLocationOrder left.location right.location))

end PendingDiagnostic

namespace Analysis

/-! ### Declarations by identity -/

/-- What the first pass collects. -/
structure Grouping where
  diagnostics : List PendingDiagnostic := []
  unique : List ProviderDescriptor := []
  duplicates : List ProviderDescriptor := []

/-- A repeated declaration is reported once, however often it is repeated. -/
def Grouping.add (g : Grouping) (descriptor : ProviderDescriptor) : Grouping :=
  match g.unique.find? (fun unique => exactIdentity unique descriptor) with
  | some existing =>
    if g.duplicates.any (fun duplicate => exactIdentity duplicate existing) then g
    else { g with
      diagnostics := g.diagnostics ++ [.duplicate existing]
      duplicates := g.duplicates ++ [existing] }
  | none => { g with unique := g.unique ++ [descriptor] }

def group (descriptors : List ProviderDescriptor) : Grouping :=
  (sortBy descriptorOrder descriptors).foldl Grouping.add {}

/-- The declarations of one type. -/
def sameType (unique : List ProviderDescriptor) (typeId : TypeId) : List ProviderDescriptor :=
  unique.filter (fun candidate => candidate.typeId = typeId)

/-- Reports the type of a declaration that is not the only one of its type, once. -/
def addAmbiguity (unique : List ProviderDescriptor)
    (found : List PendingDiagnostic × List TypeId) (descriptor : ProviderDescriptor) :
    List PendingDiagnostic × List TypeId :=
  match sameType unique descriptor.typeId with
  | first :: _ :: _ =>
    if descriptor.typeId ∈ found.2 then found
    else (found.1 ++ [.ambiguous first], found.2 ++ [descriptor.typeId])
  | _ => found

/-- The types that several distinct declarations produce, with their diagnostics. -/
def ambiguities (unique : List ProviderDescriptor) : List PendingDiagnostic × List TypeId :=
  unique.foldl (addAmbiguity unique) ([], [])

/-! ### Nodes -/

def satisfiedOrder : SatisfiedProvider → SatisfiedProvider → Ordering :=
  compareLex (compareOn (·.typeName)) (compareOn (·.state.order))

def satisfiedNode (unique : List ProviderDescriptor) (satisfied : SatisfiedProvider) :
    ProviderNode :=
  let matching := unique.find? (fun descriptor => descriptor.typeId = satisfied.typeId)
  { typeId := satisfied.typeId
    typeName := satisfied.typeName
    origin := match satisfied.state, matching with
      | .autoConfigured, _ => .autoConfiguration
      | .provided, _ => .provided
      | _, none => .provided
      | _, some descriptor => descriptor.kind.origin
    visibility := match satisfied.state, matching with
      | .autoConfigured, _ => .public_
      | .provided, _ => .public_
      | _, none => .public_
      | _, some descriptor => descriptor.visibility
    state := satisfied.state
    location := none
    declaredDependencies := [] }

def plannedNode (descriptor : ProviderDescriptor) : ProviderNode where
  typeId := descriptor.typeId
  typeName := descriptor.typeName
  origin := descriptor.kind.origin
  visibility := descriptor.visibility
  state := .planned
  location := some descriptor.location
  declaredDependencies := descriptor.dependencies

/-- Adds a node unless its type is ambiguous or has a node already. -/
def pushNode (ambiguousTypes : List TypeId) (providers : List ProviderNode) (node : ProviderNode) :
    List ProviderNode :=
  if node.typeId ∈ ambiguousTypes ∨ providers.any (fun p => p.typeId = node.typeId) then providers
  else providers ++ [node]

def nodes (unique : List ProviderDescriptor) (ambiguousTypes : List TypeId)
    (satisfied : List SatisfiedProvider) : List ProviderNode :=
  let providers := ((sortBy satisfiedOrder satisfied).map (satisfiedNode unique)).foldl
    (pushNode ambiguousTypes) []
  let providers := (unique.map plannedNode).foldl (pushNode ambiguousTypes) providers
  sortBy (compareOn (·.typeName)) providers

/-! ### Edges -/

/-- The edges found so far and the diagnostics of missing dependencies. -/
structure Links where
  dependencies : List DependencyEdge := []
  diagnostics : List PendingDiagnostic := []

/-- Resolves one declared dependency of a planned provider. -/
def linkDependency (providers : List ProviderNode) (ambiguousTypes coveredMissing : List TypeId)
    (provider : ProviderNode) (links : Links) (dependency : DependencyDescriptor) :
    Run Error Links := do
  if dependency.typeId ∈ ambiguousTypes then pure links
  else if providers.any (fun candidate => candidate.typeId = dependency.typeId) then
    pure { links with dependencies := links.dependencies ++
      [⟨provider.typeId, provider.typeName, dependency.typeId, dependency.typeName⟩] }
  else if dependency.typeId ∉ coveredMissing then
    let missing ← PendingDiagnostic.missing provider dependency
    pure { links with diagnostics := links.diagnostics ++ [missing] }
  else pure links

def linkProvider (providers : List ProviderNode) (ambiguousTypes coveredMissing : List TypeId)
    (links : Links) (provider : ProviderNode) : Run Error Links :=
  if provider.state ≠ .planned then pure links
  else provider.declaredDependencies.foldlM
    (linkDependency providers ambiguousTypes coveredMissing provider) links

/-! ### The analysis -/

/-- Cycles are only looked for where nothing else was found. -/
def addCycles (graph : ApplicationGraph) (diagnostics : List PendingDiagnostic) :
    Run Error (List PendingDiagnostic) := do
  if diagnostics.isEmpty then
    let cycles ← Cycle.detect graph
    cycles.mapM PendingDiagnostic.cycle
  else pure diagnostics

/-- Everything before planning: the graph, the sorted diagnostics and the declarations to plan. -/
def diagnose (descriptors : List ProviderDescriptor) (satisfied : List SatisfiedProvider)
    (coveredMissing : List TypeId) :
    Run Error (ApplicationGraph × List Diagnostic × List ProviderDescriptor) := do
  let grouping := group descriptors
  let (ambiguous, ambiguousTypes) := ambiguities grouping.unique
  let providers := nodes grouping.unique ambiguousTypes satisfied
  let links ← providers.foldlM (linkProvider providers ambiguousTypes coveredMissing) {}
  let graph : ApplicationGraph := ⟨providers, links.dependencies⟩
  let diagnostics ← addCycles graph (grouping.diagnostics ++ ambiguous ++ links.diagnostics)
  pure (graph, (sortBy PendingDiagnostic.order diagnostics).map (·.diagnostic), grouping.unique)

end Analysis

/-- Validates the declarations of a build and plans their construction. -/
def analyzeParts (descriptors : List ProviderDescriptor) (satisfied : List SatisfiedProvider)
    (coveredMissing : List TypeId) : Run Error GraphAnalysis := do
  let (graph, diagnostics, unique) ← Analysis.diagnose descriptors satisfied coveredMissing
  let constructionPlan ←
    if diagnostics.isEmpty then some <$> Plan.create graph unique else pure none
  pure { graph, diagnostics, constructionPlan, autoConfigurations := [], moduleGraph := none }

end Mads
