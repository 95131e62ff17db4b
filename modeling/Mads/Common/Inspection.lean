import Mathlib.Data.List.Destutter
import Mads.Common.StandardRun
import Mads.Core.GraphInspection

/-!
# Inspection of a standard application
-/

namespace Mads.Inspection

inductive InspectionKind where
  | routes
  | graph
  | doctor
  deriving DecidableEq, Repr

/-! ### Reports -/

structure DiagnosticReport where
  code : String
  title : String
  message : String
  subject : Option String
  location : Option SourceLocation
  suggestions : List String
  deriving DecidableEq, Repr

structure RouteReport where
  method : String
  path : String
  routeTrait : String
  handler : String
  controller : String
  location : SourceLocation
  guardActive : Bool
  deriving DecidableEq, Repr

structure ModuleReport where
  typeName : String
  namespace_ : String
  location : SourceLocation
  deriving DecidableEq, Repr

structure ModuleImportReport where
  importer : String
  imported : String
  deriving DecidableEq, Repr

structure ProviderReport where
  typeName : String
  owner : Option String
  origin : String
  visibility : String
  state : String
  location : Option SourceLocation
  deriving DecidableEq, Repr

structure DependencyReport where
  provider : String
  dependency : String
  deriving DecidableEq, Repr

structure AutoConfigurationReport where
  identifier : String
  outputTypeName : String
  status : String
  reasonCode : String
  explanation : String
  configuration : List (String × Option String)
  deriving DecidableEq, Repr

structure GraphReport where
  rootModule : Option String
  modules : List ModuleReport
  imports : List ModuleImportReport
  providers : List ProviderReport
  dependencies : List DependencyReport
  constructionOrder : Option (List String)
  autoConfigurations : List AutoConfigurationReport
  deriving DecidableEq, Repr

inductive DoctorStatus where
  | pass
  | skipped
  | overridden
  | failed
  deriving DecidableEq, Repr

structure DoctorCheck where
  group : String
  status : DoctorStatus
  summary : String
  deriving DecidableEq, Repr

structure InspectionReport where
  kind : InspectionKind
  graph : GraphReport
  routes : List RouteReport
  checks : List DoctorCheck
  diagnostics : List DiagnosticReport
  failed : Bool
  deriving DecidableEq, Repr

def diagnosticReport (diagnostic : Diagnostic) : DiagnosticReport where
  code := diagnostic.code.value
  title := diagnostic.title
  message := diagnostic.message
  subject := diagnostic.subject
  location := diagnostic.location
  suggestions := diagnostic.suggestions

def diagnosticReports (diagnostics : List Diagnostic) : List DiagnosticReport :=
  diagnostics.map diagnosticReport

def diagnosticReportOrder : DiagnosticReport → DiagnosticReport → Ordering :=
  compareLex (compareLex (compareLex (compareLex (compareLex (compareOn (·.code))
    (compareOn (·.title))) (compareOn (·.message))) (compareOn (·.subject)))
    (fun left right => optionLocationOrder left.location right.location)) (compareOn (·.suggestions))

def routeReportOrder : RouteReport → RouteReport → Ordering :=
  compareLex (compareLex (compareLex (compareLex (compareOn (·.method)) (compareOn (·.path)))
    (compareOn (·.controller))) (compareOn (·.routeTrait))) (compareOn (·.handler))

def providerOrigin : ProviderOrigin → String
  | .provided => "provided"
  | .autoConfiguration => "auto_configuration"
  | .service => "service"
  | .repository => "repository"
  | .provider => "provider"

def providerVisibility : ProviderVisibility → String
  | .public_ => "public"
  | .private_ => "private"

def providerState : ProviderState → String
  | .provided => "provided"
  | .preconstructed => "preconstructed"
  | .autoConfigured => "auto_configured"
  | .planned => "planned"

def autoConfigurationStatus : AutoConfigurationStatus → String
  | .active => "active"
  | .skipped => "skipped"
  | .overridden => "overridden"
  | .failed => "failed"

def autoConfigurationReport (report : AutoConfigurationInspectionSnapshot) :
    AutoConfigurationReport where
  identifier := report.identifier
  outputTypeName := report.outputTypeName
  status := autoConfigurationStatus report.status
  reasonCode := report.reasonCode
  explanation := report.explanation
  configuration := report.configuration

def graphReport (snapshot : GraphInspectionSnapshot) : GraphReport where
  rootModule := snapshot.rootModule
  modules := snapshot.modules.map fun m => ⟨m.typeName, m.namespace_, m.location⟩
  imports := snapshot.imports.map fun i => ⟨i.importer, i.imported⟩
  providers := snapshot.providers.map fun p =>
    { typeName := p.typeName
      owner := p.owner
      origin := providerOrigin p.origin
      visibility := providerVisibility p.visibility
      state := providerState p.state
      location := p.location }
  dependencies := snapshot.dependencies.map fun d => ⟨d.provider, d.dependency⟩
  constructionOrder := snapshot.constructionOrder
  autoConfigurations := snapshot.autoConfigurations.map autoConfigurationReport

/-! ### Doctor checks -/

def checkFor (ok : Bool) (group success failure : String) : DoctorCheck :=
  if ok then ⟨group, .pass, success⟩ else ⟨group, .failed, failure⟩

/-- One status for the integrations with some identifiers, or for all of them. -/
def autoConfigurationGroup (reports : List AutoConfigurationReport) (identifiers : List String)
    (emptySummary : String) : DoctorStatus × String :=
  let selected := reports.filter fun report =>
    identifiers.isEmpty || identifiers.contains report.identifier
  if selected.isEmpty then (.skipped, emptySummary)
  else
    (if selected.any (·.status = "failed") then .failed
      else if selected.any (·.status = "active") then .pass
      else if selected.any (·.status = "overridden") then .overridden
      else .skipped,
     toString selected.length ++ " auto-configuration decision(s) evaluated")

def doctorChecks (configurationOk rootOk : Bool) (snapshot : GraphInspectionSnapshot)
    (routeOk guardOk : Bool) (autoConfigurations : List AutoConfigurationReport) :
    List DoctorCheck :=
  let server := autoConfigurationGroup autoConfigurations
    [Server.SERVER_AUTO_CONFIGURATION_ID, CORS_AUTO_CONFIGURATION_ID]
    "no automatic server or CORS configuration applied"
  let auto := autoConfigurationGroup autoConfigurations [] "no auto-configurations evaluated"
  [ checkFor configurationOk "configuration" "conventional sources loaded"
      "conventional configuration could not be loaded",
    checkFor (rootOk && snapshot.rootModule.isSome) "module graph" "rooted module graph analyzed"
      "rooted module graph could not be analyzed",
    checkFor snapshot.constructionOrder.isSome "providers"
      "provider graph has a construction plan" "provider graph has no construction plan",
    checkFor routeOk "routes" "selected route metadata validated"
      "selected route metadata is invalid",
    checkFor guardOk "guards/strategies" "guard and strategy metadata validated"
      "guard or strategy metadata is invalid",
    ⟨"server/CORS", server.1, server.2⟩,
    ⟨"auto-configuration", auto.1, auto.2⟩ ]

/-! ### Inspection -/

/-- The value of a call, or the reports of its error. -/
def outcome {α : Type} : Run Error α → Run Error (Option α × List DiagnosticReport)
  | .ok a => .ok (some a, [])
  | .error (.err error) => .ok (none, diagnosticReports error.diagnostics)
  | .error halt => .error halt

def routeReport :
    ControllerRouteDescriptor × RouteContractDescriptor × RouteDescriptor → RouteReport
  | (controller, contract, route) =>
    { method := route.method.asStr
      path := route.fullPath
      routeTrait := contract.traitName
      handler := route.handler
      controller := controller.typeName
      location := route.location
      guardActive := route.guard.isSome }

structure ScopeInspection where
  routes : List RouteReport
  routeOk : Bool
  guardOk : Bool
  diagnostics : List DiagnosticReport

def inspectScope (inventory : Inventory) (strategies : List PassportStrategyDescriptor)
    (scope : HttpApplicationScope) (moduleGraph : Option ModuleGraph) :
    Run Error ScopeInspection := do
  let (controllers, routeDiagnostics) ← outcome (Route.validateScopedDescriptors scope.controllers)
  let (bindings, guardDiagnostics) ← outcome
    (PassportStrategyCatalog.preflightScoped inventory strategies moduleGraph scope.guards)
  pure
    { routes := sortBy routeReportOrder (scope.routeRecords.map routeReport)
      routeOk := controllers.isSome
      guardOk := bindings.isSome
      diagnostics := routeDiagnostics ++ guardDiagnostics }

end Mads.Inspection

namespace Mads.StandardApplication

open Inspection

variable {Config Router : Type} (app : StandardApplication Config Router)

/-- Inspects an application without building it. What fails is reported, and what can be inspected
without it still is. -/
def inspectStandardApplication (kind : Inspection.InspectionKind) :
    Run Error Inspection.InspectionReport := do
  let (config, configDiagnostics) ← outcome app.loadStandardConfig
  let builder := app.builderWithConfig (config.getD app.emptyConfig)
  let (rooted, rootDiagnostics) ← outcome (builder.selectRoot app.root)
  let builder := app.enableAutomaticCors (app.enableAutomaticServer (rooted.getD builder))
  let ⟨analysis, _, _⟩ ← MadsBuilder.analyzeBuilder app.program.environment builder
  let snapshot := GraphInspectionSnapshot.fromAnalysis app.program.environment.inventory analysis
  let scope ← inspectScope app.program.environment.inventory app.strategies
    (HttpApplicationScope.forRootedInspection app.program.modules app.program.controllers
      app.program.guards analysis.moduleGraph) analysis.moduleGraph
  let diagnostics := (sortBy diagnosticReportOrder (configDiagnostics ++ rootDiagnostics ++
    diagnosticReports snapshot.diagnostics ++ scope.diagnostics)).destutter (· ≠ ·)
  let graph := graphReport snapshot
  let checks := doctorChecks config.isSome rooted.isSome snapshot scope.routeOk scope.guardOk
    graph.autoConfigurations
  pure
    { kind, graph, checks, diagnostics
      routes := scope.routes
      failed := !diagnostics.isEmpty || checks.any (·.status = .failed) }

end Mads.StandardApplication
