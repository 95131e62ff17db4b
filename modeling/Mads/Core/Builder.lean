import Mads.Core.Analysis
import Mads.Core.AutoConfiguration
import Mads.Core.ModuleTraversal
import Mads.Core.Registry
import Mads.Core.Scope

/-!
# Application construction

Lifecycle hooks are left out: nothing here reads them.
-/

namespace Mads

variable {Config : Type}

/-- A Rust type as generic code sees it. -/
structure RustType where
  typeId : TypeId
  typeName : String
  deriving DecidableEq, Repr

structure AutoConfigurationApplyContext (Config : Type) where
  identifier : String
  config : Config
  inputs : AutoConfigurationInputs
  moduleGraph : Option ModuleGraph

/-- A call of a provider constructor, run to its end. -/
abbrev Constructor (Config : Type) :=
  FnPtr → ProviderRegistry → Config → Run Error ErasedProvider

/-- What a build finds outside of its builder: the linked declarations, and what the constructors
and appliers it calls hand back. -/
structure Environment (Config : Type) where
  inventory : Inventory
  autoConfigurations : List (AutoConfigurationDescriptor Config)
  construct : Constructor Config
  apply : FnPtr → AutoConfigurationApplyContext Config → Run Error ErasedProvider

structure MadsBuilder (Config : Type) where
  config : Config
  registry : ProviderRegistry
  satisfied : List SatisfiedProvider
  autoConfigurationInputs : AutoConfigurationInputs
  root : Option RustType

namespace MadsBuilder

/-- A builder that provides its configuration. -/
def new (config : Config) (configType : RustType) (value : ErasedProvider) :
    MadsBuilder Config where
  config := config
  registry := { values := [(configType.typeId, value)] }
  satisfied := [SatisfiedProvider.provided configType.typeId configType.typeName]
  autoConfigurationInputs := {}
  root := none

/-! ### Requests to a builder -/

def rootAlreadySelectedError (existing attempted : String) : Error where
  primary :=
    { code := MADS008
      title := "application root already selected"
      message := "a builder already selected `" ++ existing ++ "` and cannot select another root"
      subject := some attempted }

/-- Selects the root module. -/
def selectRoot (builder : MadsBuilder Config) (module_ : RustType) :
    Run Error (MadsBuilder Config) :=
  match builder.root with
  | some root => Run.fail (rootAlreadySelectedError root.typeName module_.typeName)
  | none => .ok { builder with root := some module_ }

/-- Provides a value. -/
def provide (builder : MadsBuilder Config) (type : RustType) (value : ErasedProvider) :
    Run Error (MadsBuilder Config) := do
  let registry ← builder.registry.insertErased type.typeId type.typeName value
  pure { builder with
    registry
    satisfied := builder.satisfied ++ [SatisfiedProvider.provided type.typeId type.typeName] }

/-- Constructs one statically declared provider from what is provided so far. -/
def construct (inventory : Inventory) (call : Constructor Config) (builder : MadsBuilder Config)
    (type : RustType) : Run Error (MadsBuilder Config) := do
  let descriptor ← Catalog.providerFor inventory type.typeId type.typeName
  let value ← call descriptor.constructor_ builder.registry builder.config
  let registry ← builder.registry.insertErased descriptor.typeId descriptor.typeName value
  pure { builder with
    registry
    satisfied := builder.satisfied ++
      [SatisfiedProvider.preconstructed type.typeId type.typeName] }

/-- Registers a private input of an integration. -/
def autoConfigurationInput (builder : MadsBuilder Config) (identifier : String)
    (value : AnyValue) : MadsBuilder Config :=
  { builder with
    autoConfigurationInputs := (builder.autoConfigurationInputs.insert identifier value).1 }

/-- One request of an application to its builder. -/
inductive Request (Config : Type) where
  | root (module_ : RustType)
  | provide (type : RustType) (value : ErasedProvider)
  | construct (type : RustType) (call : Constructor Config)
  | input (identifier : String) (value : AnyValue)

def request (inventory : Inventory) (builder : MadsBuilder Config) :
    Request Config → Run Error (MadsBuilder Config)
  | .root module_ => builder.selectRoot module_
  | .provide type value => builder.provide type value
  | .construct type call => construct inventory call builder type
  | .input identifier value => .ok (builder.autoConfigurationInput identifier value)

/-- The builder after a request. A request that fails changes nothing. -/
def after (inventory : Inventory) (builder : MadsBuilder Config) (request : Request Config) :
    MadsBuilder Config :=
  match builder.request inventory request with
  | .ok builder => builder
  | .error _ => builder

/-- The builder after a list of requests. -/
def run (inventory : Inventory) (builder : MadsBuilder Config) (requests : List (Request Config)) :
    MadsBuilder Config :=
  requests.foldl (after inventory) builder

end MadsBuilder

/-! ### Analysis -/

structure BuilderAnalysis (Config : Type) where
  analysis : GraphAnalysis
  selected : List (AutoConfigurationDescriptor Config)
  failure : Option Error

/-- The two provider selections of a rooted analysis, and the integrations chosen between them. -/
structure RootedScope (Config : Type) where
  initialScope : ScopedProviderCatalog
  autoConfiguration : AutoConfiguration.Analysis Config
  satisfied : List SatisfiedProvider
  catalog : ScopedProviderCatalog

namespace RootedScope

/-- The types whose absence was reported by a selection. -/
def coveredMissing (scope : RootedScope Config) : List TypeId :=
  scope.catalog.coveredMissing.foldl (fun covered typeId =>
    if typeId ∈ covered then covered else covered ++ [typeId])
    scope.autoConfiguration.coveredMissing

end RootedScope

namespace MadsBuilder

variable (environment : Environment Config) (builder : MadsBuilder Config)

def autoConfigure (providers : List ProviderDescriptor) (moduleGraph : Option ModuleGraph) :
    AutoConfiguration.Analysis Config :=
  AutoConfiguration.analyzeParts
    (AutoConfiguration.descriptors environment.autoConfigurations) providers builder.satisfied
    builder.config builder.autoConfigurationInputs moduleGraph

def selectRooted (moduleGraph : ModuleGraph) : Run Error (RootedScope Config) := do
  let providers := Catalog.providers environment.inventory
  let modules := Catalog.modules environment.inventory
  let initialScope ← selectScopedProviders moduleGraph modules providers builder.satisfied
  let autoConfiguration :=
    autoConfigure environment builder initialScope.descriptors (some moduleGraph)
  let satisfied := builder.satisfied ++ autoConfiguration.virtualSatisfied
  let catalog ← selectScopedProviders moduleGraph modules providers satisfied
  pure { initialScope, autoConfiguration, satisfied, catalog }

def analyzeRooted (moduleGraph : ModuleGraph) : Run Error (BuilderAnalysis Config) := do
  let scope ← selectRooted environment builder moduleGraph
  let analysis ← analyzeParts scope.catalog.descriptors scope.satisfied scope.coveredMissing
  let analysis := analysis.prependDiagnostics scope.catalog.diagnostics
  let analysis := analysis.appendDiagnostics scope.autoConfiguration.diagnostics
  let analysis := { analysis with autoConfigurations := scope.autoConfiguration.reports }
  let analysis :=
    analysis.setModuleGraph (moduleGraph.setProviderOwnership scope.catalog.ownership)
  pure
    { analysis
      selected := scope.autoConfiguration.selected
      failure := scope.autoConfiguration.failure }

/-- The diagnostics of the module catalog of a build without a root. -/
def moduleDiagnostics (modules : List ModuleDescriptor) : Run Error (List Diagnostic) :=
  match validateModuleCatalog modules with
  | .ok _ => .ok []
  | .error (.err error) => .ok error.diagnostics
  | .error halt => .error halt

def analyzeCompleteCatalog : Run Error (BuilderAnalysis Config) := do
  let providers := Catalog.providers environment.inventory
  let moduleDiagnostics ← moduleDiagnostics (Catalog.modules environment.inventory)
  let autoConfiguration := autoConfigure environment builder providers none
  let satisfied := builder.satisfied ++ autoConfiguration.virtualSatisfied
  let analysis ← analyzeParts providers satisfied autoConfiguration.coveredMissing
  let analysis := analysis.prependDiagnostics moduleDiagnostics
  let analysis := { analysis with autoConfigurations := autoConfiguration.reports }
  let analysis := analysis.appendDiagnostics autoConfiguration.diagnostics
  pure
    { analysis
      selected := autoConfiguration.selected
      failure := autoConfiguration.failure }

def analyzeBuilder : Run Error (BuilderAnalysis Config) :=
  match builder.root with
  | none => analyzeCompleteCatalog environment builder
  | some root =>
    match buildModuleGraph root.typeId (Catalog.modules environment.inventory) with
    | .ok moduleGraph => analyzeRooted environment builder moduleGraph
    | .error (.err error) => .ok
        { analysis := GraphAnalysis.invalid error.diagnostics, selected := [], failure := none }
    | .error halt => .error halt

end MadsBuilder

/-! ### Construction -/

/-- The error of a build whose analysis is not valid. -/
def buildAnalysisError (analysis : GraphAnalysis) (failure : Option Error) : Run Error Error :=
  match failure with
  | some failure =>
    .ok (failure.withRelatedDiagnostics (analysis.diagnostics.erase failure.primary))
  | none =>
    match analysis.diagnostics with
    | primary :: related => .ok (Error.fromDiagnostics primary related)
    | [] => .error (.panic "invalid analysis has diagnostics")

namespace ConsumerPath

variable (graph : ApplicationGraph)

def providerOrder : graph.Index → graph.Index → Ordering := Cycle.nodeOrder graph

/-- The providers that no other provider consumes. -/
def roots : List graph.Index :=
  sortBy (providerOrder graph)
    ((List.finRange graph.providers.length).filter (fun index =>
      graph.dependencies.all (fun edge => edge.dependencyTypeId ≠ (graph.node index).typeId)))

structure Search where
  visited : List graph.Index
  queue : List (List graph.Index)

/-- Queues the path to a dependency that was not visited before. -/
def enqueue (path : List graph.Index) (search : Search graph) (dependency : graph.Index) :
    Search graph :=
  if dependency ∈ search.visited then search
  else ⟨search.visited ++ [dependency], search.queue ++ [path ++ [dependency]]⟩

def search (target : TypeId) : ℕ → Search graph → Run Error (Option (List graph.Index))
  | 0, _ => .error .diverge
  | fuel + 1, state =>
    match state.queue with
    | [] => .ok none
    | path :: queue => do
      let provider ← Run.expect path.getLast? "paths are never empty"
      if (graph.node provider).typeId = target then pure (some path)
      else
        search target fuel
          ((Cycle.outgoing graph provider).foldl (enqueue graph path) { state with queue })

end ConsumerPath

/-- A shortest chain of consumers that leads to a failing step. -/
def consumerPath (graph : ApplicationGraph) (failingStep : ConstructionStep) :
    Run Error (Option String) := do
  if graph.dependencies.all (fun edge => edge.dependencyTypeId ≠ failingStep.typeId) then pure none
  else
    let roots := ConsumerPath.roots graph
    let path ← ConsumerPath.search graph failingStep.typeId (graph.providers.length + 1)
      ⟨roots, roots.map ([·])⟩
    pure (path.map fun path => " -> ".intercalate (path.map fun i => (graph.node i).typeName))

def providerConstructionError (step : ConstructionStep) (graph : ApplicationGraph)
    (source : Error) : Run Error Error := do
  let diagnostic : Diagnostic :=
    { code := MADS006
      title := "provider construction failed"
      message := "a provider constructor returned an error"
      subject := some step.typeName
      location := some step.location }
  let path ← consumerPath graph step
  let diagnostic := match path with
    | some path => diagnostic.withSuggestion ("construction path: " ++ path)
    | none => diagnostic
  pure { primary := diagnostic, source := some source.display }

structure ApplicationContext (Config : Type) where
  registry : ProviderRegistry
  config : Config

/-- An explicitly constructed application. -/
structure Application (Config : Type) where
  context : ApplicationContext Config
  graph : ApplicationGraph
  constructionPlan : ConstructionPlan
  autoConfigurations : List AutoConfigurationReport
  moduleGraph : Option ModuleGraph

namespace MadsBuilder

variable (environment : Environment Config) (builder : MadsBuilder Config)

/-- Applies one selected integration. -/
def applySelected (moduleGraph : Option ModuleGraph) (registry : ProviderRegistry)
    (descriptor : AutoConfigurationDescriptor Config) : Run Error ProviderRegistry := do
  let provider ← environment.apply descriptor.applier
    ⟨descriptor.identifier, builder.config, builder.autoConfigurationInputs, moduleGraph⟩
  registry.insertErased descriptor.outputTypeId descriptor.outputTypeName provider

/-- Constructs one planned provider. -/
def constructStep (graph : ApplicationGraph) (registry : ProviderRegistry)
    (step : ConstructionStep) : Run Error ProviderRegistry :=
  match environment.construct step.descriptor.constructor_ registry builder.config with
  | .ok value => registry.insertErased step.typeId step.typeName value
  | .error (.err source) => do
    let error ← providerConstructionError step graph source
    Run.fail error
  | .error halt => .error halt

/-- Validates and constructs the complete application. -/
def build : Run Error (Application Config) := do
  let ⟨analysis, selected, failure⟩ ← analyzeBuilder environment builder
  if !analysis.isValid then
    let error ← buildAnalysisError analysis failure
    Run.fail error
  else
    let (graph, constructionPlan, autoConfigurations, moduleGraph) ← analysis.intoValidParts
    let registry ← selected.foldlM (applySelected environment builder moduleGraph)
      builder.registry
    let registry ← constructionPlan.steps.foldlM (constructStep environment builder graph) registry
    pure
      { context := ⟨registry, builder.config⟩
        graph, constructionPlan, autoConfigurations, moduleGraph }

end MadsBuilder

end Mads
