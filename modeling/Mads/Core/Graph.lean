import Mads.Core.ModuleGraph

/-!
# Records of a provider graph
-/

namespace Mads

/-! ### Auto-configuration reports -/

inductive AutoConfigurationStatus where
  | active
  | skipped
  | overridden
  | failed
  deriving DecidableEq, Repr

structure AutoConfigurationReasonCode where
  value : String
  deriving DecidableEq, Repr

structure AutoConfigurationRequirement where
  providerTypeName : String
  location : Option SourceLocation
  deriving DecidableEq, Repr

structure AutoConfigurationConfigEvidence where
  key : String
  source : Option String
  deriving DecidableEq, Repr

structure AutoConfigurationReport where
  identifier : String
  outputTypeName : String
  status : AutoConfigurationStatus
  reasonCode : AutoConfigurationReasonCode
  explanation : String
  requirements : List AutoConfigurationRequirement
  configuration : List AutoConfigurationConfigEvidence
  deriving DecidableEq, Repr

/-! ### Providers -/

/-- How a provider enters an application graph. -/
inductive ProviderOrigin where
  | provided
  | autoConfiguration
  | service
  | repository
  | provider
  deriving DecidableEq, Repr

/-- Origins are ordered as they are declared. -/
def ProviderOrigin.discriminant : ProviderOrigin → ℕ
  | provided => 0
  | autoConfiguration => 1
  | service => 2
  | repository => 3
  | provider => 4

def ProviderKind.origin : ProviderKind → ProviderOrigin
  | service => .service
  | repository => .repository
  | provider => .provider

/-- How a provider value is satisfied for a specific build. -/
inductive ProviderState where
  | provided
  | preconstructed
  | autoConfigured
  | planned
  deriving DecidableEq, Repr

/-- A value that is there before construction starts. No constructor of this record leaves its
provider planned. -/
structure SatisfiedProvider where
  typeId : TypeId
  typeName : String
  state : ProviderState
  state_ne : state ≠ .planned
  deriving DecidableEq

namespace SatisfiedProvider

def provided (typeId : TypeId) (typeName : String) : SatisfiedProvider :=
  ⟨typeId, typeName, .provided, by decide⟩

def preconstructed (typeId : TypeId) (typeName : String) : SatisfiedProvider :=
  ⟨typeId, typeName, .preconstructed, by decide⟩

def autoConfigured (typeId : TypeId) (typeName : String) : SatisfiedProvider :=
  ⟨typeId, typeName, .autoConfigured, by decide⟩

end SatisfiedProvider

structure ProviderNode where
  typeId : TypeId
  typeName : String
  origin : ProviderOrigin
  visibility : ProviderVisibility
  state : ProviderState
  location : Option SourceLocation
  declaredDependencies : List DependencyDescriptor
  deriving DecidableEq, Repr

/-- A resolved dependency from one provider to a required type. -/
structure DependencyEdge where
  providerTypeId : TypeId
  providerTypeName : String
  dependencyTypeId : TypeId
  dependencyTypeName : String
  deriving DecidableEq, Repr

structure ApplicationGraph where
  providers : List ProviderNode
  dependencies : List DependencyEdge
  deriving DecidableEq, Repr

/-- One statically declared provider in construction order. -/
structure ConstructionStep where
  typeId : TypeId
  typeName : String
  origin : ProviderOrigin
  location : SourceLocation
  descriptor : ProviderDescriptor
  deriving DecidableEq, Repr

structure ConstructionPlan where
  steps : List ConstructionStep
  deriving DecidableEq, Repr

/-- The result of graph inspection and validation. -/
structure GraphAnalysis where
  graph : ApplicationGraph
  diagnostics : List Diagnostic
  constructionPlan : Option ConstructionPlan
  autoConfigurations : List AutoConfigurationReport
  moduleGraph : Option ModuleGraph
  deriving DecidableEq

namespace GraphAnalysis

def isValid (analysis : GraphAnalysis) : Bool :=
  analysis.diagnostics.isEmpty && analysis.constructionPlan.isSome

def prependDiagnostics (analysis : GraphAnalysis) (diagnostics : List Diagnostic) :
    GraphAnalysis :=
  if diagnostics.isEmpty then analysis
  else { analysis with
    constructionPlan := none
    diagnostics := diagnostics ++ analysis.diagnostics }

def appendDiagnostics (analysis : GraphAnalysis) (diagnostics : List Diagnostic) :
    GraphAnalysis :=
  if diagnostics.isEmpty then analysis
  else { analysis with
    constructionPlan := none
    diagnostics := analysis.diagnostics ++ diagnostics }

def setModuleGraph (analysis : GraphAnalysis) (moduleGraph : ModuleGraph) : GraphAnalysis :=
  { analysis with moduleGraph := some moduleGraph }

def invalid (diagnostics : List Diagnostic) : GraphAnalysis where
  graph := ⟨[], []⟩
  diagnostics := diagnostics
  constructionPlan := none
  autoConfigurations := []
  moduleGraph := none

/-- The parts of a valid analysis, or its diagnostics as one error. -/
def intoValidParts (analysis : GraphAnalysis) :
    Run Error (ApplicationGraph × ConstructionPlan × List AutoConfigurationReport ×
      Option ModuleGraph) :=
  match analysis.diagnostics, analysis.constructionPlan with
  | [], some plan => .ok (analysis.graph, plan, analysis.autoConfigurations, analysis.moduleGraph)
  | primary :: related, _ => Run.fail (Error.fromDiagnostics primary related)
  | [], none => .error (.panic "valid analysis always has a plan")

end GraphAnalysis

/-! ### Positions in the graph -/

namespace ApplicationGraph

variable (graph : ApplicationGraph)

/-- A position in the list of providers. -/
abbrev Index := Fin graph.providers.length

def node (i : graph.Index) : ProviderNode := graph.providers[i]

/-- The first provider of a type. -/
def position (typeId : TypeId) : Option graph.Index :=
  graph.providers.findFinIdx? (fun node => node.typeId = typeId)

/-- What the passes over a graph rely on: one provider for each type, edges between known
providers, and a location for every planned provider. -/
structure WellFormed : Prop where
  types_nodup : (graph.providers.map (·.typeId)).Nodup
  edges_known : ∀ e ∈ graph.dependencies, ∃ p d, graph.position e.providerTypeId = some p ∧
    (graph.node p).state = .planned ∧ graph.position e.dependencyTypeId = some d
  located : ∀ i, (graph.node i).state = .planned → (graph.node i).location.isSome

variable {graph}

theorem node_mem (i : graph.Index) : graph.node i ∈ graph.providers := List.getElem_mem i.2

theorem typeId_of_position {t : TypeId} {i : graph.Index} (h : graph.position t = some i) :
    (graph.node i).typeId = t := by
  have := (List.findFinIdx?_eq_some_iff.mp h).1
  simpa [node] using this

theorem position_isSome_iff {t : TypeId} :
    (graph.position t).isSome ↔ ∃ p ∈ graph.providers, p.typeId = t := by
  rw [position, List.isSome_findFinIdx?]
  simp

theorem WellFormed.typeId_injective (h : graph.WellFormed) {i j : graph.Index}
    (hij : (graph.node i).typeId = (graph.node j).typeId) : i = j := by
  have hnodup := List.nodup_iff_injective_get.mp h.types_nodup
  have hcast : (graph.providers.map (·.typeId)).length = graph.providers.length := by simp
  have heq : Fin.cast hcast.symm i = Fin.cast hcast.symm j := by
    apply hnodup
    simpa [node] using hij
  simpa using heq

theorem WellFormed.position_typeId (h : graph.WellFormed) (i : graph.Index) :
    graph.position (graph.node i).typeId = some i := by
  obtain ⟨j, hj⟩ := Option.isSome_iff_exists.mp
    (position_isSome_iff.mpr ⟨graph.node i, node_mem i, rfl⟩)
  rw [hj, h.typeId_injective (typeId_of_position hj)]

end ApplicationGraph

end Mads
