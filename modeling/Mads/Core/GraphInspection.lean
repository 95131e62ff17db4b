import Mads.Core.Graph
import Mads.Library.SortedMap

/-!
# Snapshots of an analysis for inspection
-/

namespace Mads

structure ModuleInspectionSnapshot where
  typeName : String
  namespace_ : String
  location : SourceLocation
  deriving DecidableEq, Repr

structure ModuleImportInspectionSnapshot where
  importer : String
  imported : String
  deriving DecidableEq, Repr

/-- A provider, with the name of the module that owns it. -/
structure ProviderInspectionSnapshot where
  typeName : String
  owner : Option String
  origin : ProviderOrigin
  visibility : ProviderVisibility
  state : ProviderState
  location : Option SourceLocation
  deriving DecidableEq, Repr

structure DependencyInspectionSnapshot where
  provider : String
  dependency : String
  deriving DecidableEq, Repr

structure AutoConfigurationInspectionSnapshot where
  identifier : String
  outputTypeName : String
  status : AutoConfigurationStatus
  reasonCode : String
  explanation : String
  configuration : List (String × Option String)
  deriving DecidableEq, Repr

/-- A deterministic snapshot of one analysis. -/
structure GraphInspectionSnapshot where
  rootModule : Option String
  modules : List ModuleInspectionSnapshot
  imports : List ModuleImportInspectionSnapshot
  providers : List ProviderInspectionSnapshot
  dependencies : List DependencyInspectionSnapshot
  constructionOrder : Option (List String)
  autoConfigurations : List AutoConfigurationInspectionSnapshot
  diagnostics : List Diagnostic
  deriving DecidableEq, Repr

namespace ModuleGraph

variable (graph : ModuleGraph)

def rootNode : ModuleNode := graph.modules.get ⟨graph.root, graph.root_lt⟩

/-- The two ends of each import. -/
def importNodes : List (ModuleNode × ModuleNode) :=
  graph.imports.attach.map fun edge =>
    (graph.modules.get ⟨edge.1.importer, (graph.imports_lt edge.1 edge.2).1⟩,
      graph.modules.get ⟨edge.1.imported, (graph.imports_lt edge.1 edge.2).2⟩)

end ModuleGraph

namespace GraphInspectionSnapshot

def diagnosticOrder : Diagnostic → Diagnostic → Ordering :=
  compareLex (compareLex (compareLex (compareLex (compareLex (compareOn (·.code.value))
    (compareOn (·.title))) (compareOn (·.message))) (compareOn (·.subject)))
    (fun left right => optionLocationOrder left.location right.location)) (compareOn (·.suggestions))

def autoConfigurationOrder :
    AutoConfigurationInspectionSnapshot → AutoConfigurationInspectionSnapshot → Ordering :=
  compareLex (compareLex (compareLex (compareOn (·.identifier)) (compareOn (·.outputTypeName)))
    (compareOn (·.reasonCode))) (compareOn (·.explanation))

section

variable (inventory : Inventory) (analysis : GraphAnalysis)

/-- The runtime name of a type. Of several declarations of the type, the last that has one counts. -/
def runtimeTypeName (typeId : TypeId) : Option String :=
  ((Catalog.providers inventory).reverse.find?
    (fun d => d.typeId = typeId && d.runtimeTypeName.isSome)).bind (·.runtimeTypeName)

def inspectionTypeName (typeId : TypeId) (fallback : String) : String :=
  (runtimeTypeName inventory typeId).getD fallback

/-- The owners of an analysis, under the names of the types that they own. -/
def owners : SortedMap String (Option String) :=
  match analysis.moduleGraph with
  | none => .empty
  | some graph => .ofList
      (graph.providerOwnership.map fun ownership =>
        (ownership.providerTypeName, ownership.moduleTypeName))

def moduleSnapshot (node : ModuleNode) : ModuleInspectionSnapshot :=
  ⟨node.typeName, node.namespace_, node.location⟩

def providerSnapshot (provider : ProviderNode) : ProviderInspectionSnapshot where
  typeName := inspectionTypeName inventory provider.typeId provider.typeName
  owner := ((owners analysis).get provider.typeName).join
  origin := provider.origin
  visibility := provider.visibility
  state := provider.state
  location := provider.location

def dependencySnapshot (edge : DependencyEdge) : DependencyInspectionSnapshot where
  provider := inspectionTypeName inventory edge.providerTypeId edge.providerTypeName
  dependency := inspectionTypeName inventory edge.dependencyTypeId edge.dependencyTypeName

def autoConfigurationSnapshot (report : AutoConfigurationReport) :
    AutoConfigurationInspectionSnapshot where
  identifier := report.identifier
  outputTypeName := report.outputTypeName
  status := report.status
  reasonCode := report.reasonCode.value
  explanation := report.explanation
  configuration := report.configuration.map fun evidence => (evidence.key, evidence.source)

/-- The snapshot of an analysis, all of whose lists are in an order of their own. -/
def fromAnalysis : GraphInspectionSnapshot where
  rootModule := analysis.moduleGraph.map (·.rootNode.typeName)
  modules := (analysis.moduleGraph.map (·.modules.map moduleSnapshot)).getD []
  imports := (analysis.moduleGraph.map fun graph => graph.importNodes.map
    fun (importer, imported) => ⟨importer.typeName, imported.typeName⟩).getD []
  providers := sortBy (compareOn (·.typeName))
    (analysis.graph.providers.map (providerSnapshot inventory analysis))
  dependencies := sortBy (compareLex (compareOn (·.provider)) (compareOn (·.dependency)))
    (analysis.graph.dependencies.map (dependencySnapshot inventory))
  constructionOrder := analysis.constructionPlan.map fun plan =>
    plan.steps.map fun step => inspectionTypeName inventory step.typeId step.typeName
  autoConfigurations := sortBy autoConfigurationOrder
    (analysis.autoConfigurations.map autoConfigurationSnapshot)
  diagnostics := sortBy diagnosticOrder analysis.diagnostics

end

/-- A record of the snapshot is the record of a provider. -/
theorem mem_providers {inventory : Inventory} {analysis : GraphAnalysis}
    {record : ProviderInspectionSnapshot} :
    record ∈ (fromAnalysis inventory analysis).providers ↔
      ∃ p ∈ analysis.graph.providers, providerSnapshot inventory analysis p = record := by
  rw [fromAnalysis, mem_sortBy, List.mem_map]

end GraphInspectionSnapshot

end Mads
