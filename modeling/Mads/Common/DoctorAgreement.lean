import Mads.Common.GuardResolution
import Mads.Common.Inspection
import Mads.Common.RouteRegistration

/-!
# What doctor reports and what a run does

The two paths make their checks one by one, and most of them are the same. A run also needs a route
and the providers of the controllers it routes.
-/

namespace Mads

namespace Inspection

/-! ### What inspection looks at -/

variable {α : Type}

theorem outcome_eq_ok {call : Run Error α} {value : Option α}
    {diagnostics : List DiagnosticReport} (h : outcome call = .ok (value, diagnostics)) :
    (diagnostics = [] ↔ ∃ a, call = .ok a) ∧ ∀ a, value = some a ↔ call = .ok a := by
  cases call with
  | ok a =>
    obtain ⟨rfl, rfl⟩ := Prod.mk.inj (Except.ok.inj h)
    refine ⟨iff_of_true rfl ⟨a, rfl⟩, fun b => ?_⟩
    rw [Option.some.injEq, Except.ok.injEq]
  | error halt =>
    cases halt with
    | err error =>
      obtain ⟨rfl, rfl⟩ := Prod.mk.inj (Except.ok.inj h)
      exact ⟨iff_of_false nofun nofun, fun b => iff_of_false nofun nofun⟩
    | panic message => cases h
    | diverge => cases h

theorem diagnosticReports_eq_nil {diagnostics : List Diagnostic} :
    diagnosticReports diagnostics = [] ↔ diagnostics = [] :=
  List.map_eq_nil_iff

theorem inspectScope_eq_ok {inventory : Inventory} {strategies : List PassportStrategyDescriptor}
    {scope : HttpApplicationScope} {moduleGraph : Option ModuleGraph}
    {inspected : ScopeInspection}
    (h : inspectScope inventory strategies scope moduleGraph = .ok inspected) :
    inspected.diagnostics = [] ↔
      (∃ controllers, Route.validateScopedDescriptors scope.controllers = .ok controllers) ∧
      ∃ bindings, PassportStrategyCatalog.preflightScoped inventory strategies moduleGraph
        scope.guards = .ok bindings := by
  obtain ⟨⟨controllers, routeDiagnostics⟩, hroutes, h⟩ := Run.bind_eq_ok.mp h
  obtain ⟨⟨bindings, guardDiagnostics⟩, hguards, h⟩ := Run.bind_eq_ok.mp h
  obtain rfl := Except.ok.inj h
  show routeDiagnostics ++ guardDiagnostics = [] ↔ _
  rw [List.append_eq_nil_iff, (outcome_eq_ok hroutes).1, (outcome_eq_ok hguards).1]

theorem inspectScope_ok {inventory : Inventory} {strategies : List PassportStrategyDescriptor}
    {scope : HttpApplicationScope} {moduleGraph : Option ModuleGraph}
    (hroutes : ∃ controllers, Route.validateScopedDescriptors scope.controllers = .ok controllers)
    (hguards : ∃ bindings, PassportStrategyCatalog.preflightScoped inventory strategies moduleGraph
      scope.guards = .ok bindings) :
    ∃ inspected, inspectScope inventory strategies scope moduleGraph = .ok inspected ∧
      inspected.routeOk ∧ inspected.guardOk ∧ inspected.diagnostics = [] := by
  obtain ⟨controllers, hcontrollers⟩ := hroutes
  obtain ⟨bindings, hbindings⟩ := hguards
  refine ⟨⟨sortBy routeReportOrder (scope.routeRecords.map routeReport), true, true, []⟩, ?_, rfl,
    rfl, rfl⟩
  rw [inspectScope, hcontrollers, hbindings]
  rfl

/-- No group of integrations fails where none of the integrations did. -/
theorem autoConfigurationGroup_ne_failed {reports : List AutoConfigurationReport}
    (h : ∀ report ∈ reports, report.status ≠ "failed") (identifiers : List String)
    (emptySummary : String) :
    (autoConfigurationGroup reports identifiers emptySummary).1 ≠ .failed := by
  have hnone : (reports.filter fun report => identifiers.isEmpty ||
      identifiers.contains report.identifier).any (·.status = "failed") = false := by
    rw [List.any_eq_false]
    intro report hreport
    simpa using h report (List.mem_filter.mp hreport).1
  simp only [autoConfigurationGroup, hnone, Bool.false_eq_true, if_false]
  split_ifs <;> simp

theorem graphReport_unfailed {inventory : Inventory} {analysis : GraphAnalysis}
    (h : ∀ report ∈ analysis.autoConfigurations, report.status ≠ .failed) :
    ∀ report ∈ (graphReport (.fromAnalysis inventory analysis)).autoConfigurations,
      report.status ≠ "failed" := by
  intro report hreport
  obtain ⟨snapshot, hsnapshot, rfl⟩ := List.mem_map.mp hreport
  obtain ⟨decided, hdecided, rfl⟩ := List.mem_map.mp (mem_sortBy.mp hsnapshot)
  have hstatus := h decided hdecided
  show autoConfigurationStatus decided.status ≠ "failed"
  cases hcase : decided.status with
  | failed => exact absurd hcase hstatus
  | active => decide
  | skipped => decide
  | overridden => decide

theorem checkFor_status (ok : Bool) (group success failure : String) :
    (checkFor ok group success failure).status = .failed ↔ ok = false := by
  cases ok <;> simp [checkFor]

theorem doctorChecks_unfailed {snapshot : GraphInspectionSnapshot}
    {reports : List AutoConfigurationReport} (hroot : snapshot.rootModule.isSome)
    (hplan : snapshot.constructionOrder.isSome)
    (hreports : ∀ report ∈ reports, report.status ≠ "failed") :
    (doctorChecks true true snapshot true true reports).any (·.status = .failed) = false := by
  have hserver := autoConfigurationGroup_ne_failed hreports
    [Server.SERVER_AUTO_CONFIGURATION_ID, CORS_AUTO_CONFIGURATION_ID]
    "no automatic server or CORS configuration applied"
  have hauto := autoConfigurationGroup_ne_failed hreports [] "no auto-configurations evaluated"
  simp only [doctorChecks, List.any_cons, List.any_nil, checkFor_status, hroot, hplan,
    Bool.and_true, Bool.true_eq_false, decide_false, Bool.false_or, Bool.or_false]
  simp only [hserver, hauto, decide_false, Bool.or_false]

end Inspection

namespace StandardApplication

open MadsBuilder Inspection Server

variable {Config Router : Type} (app : StandardApplication Config Router)

/-! ### The builder of both paths -/

def standardBuilder (config : Config) : MadsBuilder Config :=
  app.enableAutomaticCors (app.enableAutomaticServer
    { app.builderWithConfig config with root := some app.root })

/-- What the analysis of the root finds. -/
def analyze (config : Config) : Run Error (BuilderAnalysis Config) :=
  analyzeBuilder app.program.environment (app.standardBuilder config)

/-- The selected scope of an analysis. -/
def scope (analysis : GraphAnalysis) : HttpApplicationScope :=
  app.program.httpScope analysis

/-- The configuration loads, the analysis of the root reports nothing, and the routes and guards of
its scope are accepted. -/
structure Healthy (config : Config) (result : BuilderAnalysis Config) : Prop where
  loads : app.loadStandardConfig = .ok config
  analyzes : app.analyze config = .ok result
  unreported : result.analysis.diagnostics = []
  routes : ∃ controllers,
    Route.validateScopedDescriptors (app.scope result.analysis).controllers = .ok controllers
  guards : ∃ bindings, PassportStrategyCatalog.preflightScoped app.program.environment.inventory
    app.strategies result.analysis.moduleGraph (app.scope result.analysis).guards = .ok bindings

variable {app}

theorem selectRoot_builderWithConfig (config : Config) :
    (app.builderWithConfig config).selectRoot app.root =
      .ok { app.builderWithConfig config with root := some app.root } := rfl

theorem root_standardBuilder (config : Config) :
    (app.standardBuilder config).root = some app.root := rfl

theorem forRootedInspection_some (modules : List ModuleDescriptor)
    (controllers : List ControllerRouteDescriptor) (guards : List GuardDescriptor)
    (graph : ModuleGraph) :
    HttpApplicationScope.forRootedInspection modules controllers guards (some graph) =
      HttpApplicationScope.forModuleGraph modules controllers guards (some graph) := rfl

/-- What an analysis that reports nothing has. -/
theorem Healthy.analysis {config : Config} {result : BuilderAnalysis Config}
    (h : app.Healthy config result) :
    result.analysis.isValid ∧ result.analysis.moduleGraph.isSome ∧
      ∀ report ∈ result.analysis.autoConfigurations, report.status ≠ .failed :=
  analyzeBuilder_of_diagnostics _ _ (root_standardBuilder config) h.analyzes h.unreported

theorem Healthy.plan {config : Config} {result : BuilderAnalysis Config}
    (h : app.Healthy config result) : ∃ plan, result.analysis.constructionPlan = some plan ∧
      Constructible app.program.environment (app.standardBuilder config) result plan := by
  obtain ⟨result', hok, hcases⟩ :=
    analyzeBuilder_cases app.program.environment (app.standardBuilder config)
  obtain rfl : result' = result := Except.ok.inj (hok.symm.trans h.analyzes)
  exact (hcases h.analysis.1).2

theorem eq_nil_of_sortBy {α : Type} {order : α → α → Ordering} {xs : List α}
    (h : sortBy order xs = []) : xs = [] := by
  have hperm := sortBy_perm order xs
  rw [h] at hperm
  exact hperm.nil_eq.symm

theorem eq_nil_of_sorted {reports : List DiagnosticReport}
    (h : ((sortBy diagnosticReportOrder reports).destutter (· ≠ ·)).isEmpty) : reports = [] :=
  eq_nil_of_sortBy ((List.destutter_eq_nil _).mp (List.isEmpty_iff.mp h))

/-- Inspection reports no failure exactly for a healthy application. -/
theorem inspect_unfailed_iff (kind : Inspection.InspectionKind) :
    (∃ report, app.inspectStandardApplication kind = .ok report ∧ report.failed = false) ↔
      ∃ config result, app.Healthy config result := by
  constructor
  · rintro ⟨report, h, hfailed⟩
    obtain ⟨⟨config, configDiagnostics⟩, hconfig, h⟩ := Run.bind_eq_ok.mp h
    obtain ⟨⟨rooted, rootDiagnostics⟩, hrooted, h⟩ := Run.bind_eq_ok.mp h
    obtain ⟨⟨analysis, selected, failure⟩, hanalysis, h⟩ := Run.bind_eq_ok.mp h
    obtain ⟨inspected, hscope, h⟩ := Run.bind_eq_ok.mp h
    obtain rfl := Except.ok.inj h
    -- without a failure no part has reported anything
    have hempty := (Bool.or_eq_false_iff.mp hfailed).1
    have hnil := eq_nil_of_sorted (by simpa using hempty)
    simp only [List.append_eq_nil_iff, diagnosticReports_eq_nil] at hnil
    obtain ⟨hconfigNil, -, hanalysisNil, hscopeNil⟩ := hnil
    obtain ⟨loaded, hloaded⟩ := (outcome_eq_ok hconfig).1.mp hconfigNil
    obtain rfl : config = some loaded := ((outcome_eq_ok hconfig).2 loaded).mpr hloaded
    obtain rfl : rooted = some { app.builderWithConfig loaded with root := some app.root } :=
      ((outcome_eq_ok hrooted).2 _).mpr (selectRoot_builderWithConfig loaded)
    have hunreported : analysis.diagnostics = [] := eq_nil_of_sortBy hanalysisNil
    have hsome := (analyzeBuilder_of_diagnostics _ _ (root_standardBuilder loaded) hanalysis
      hunreported).2.1
    obtain ⟨graph, hgraph⟩ := Option.isSome_iff_exists.mp hsome
    obtain ⟨hroutes, hguards⟩ := (inspectScope_eq_ok hscope).mp hscopeNil
    rw [hgraph, forRootedInspection_some, ← hgraph] at hroutes hguards
    exact ⟨loaded, _, hloaded, hanalysis, hunreported, hroutes, hguards⟩
  · rintro ⟨config, ⟨analysis, selected, failure⟩, h⟩
    obtain ⟨hvalid, hsome, hreports⟩ := h.analysis
    obtain ⟨graph, hgraph⟩ := Option.isSome_iff_exists.mp hsome
    have hroutes := h.routes
    have hguards := h.guards
    rw [scope, Program.httpScope, hgraph, ← forRootedInspection_some, ← hgraph] at hroutes hguards
    obtain ⟨inspected, hinspected, hrouteOk, hguardOk, hdiagnostics⟩ :=
      inspectScope_ok hroutes hguards
    obtain ⟨plan, hplan, -⟩ := h.plan
    have hconfig : outcome app.loadStandardConfig = .ok (some config, []) := by
      rw [h.loads]
      rfl
    refine ⟨_, Run.bind_eq_ok.mpr ⟨_, hconfig, Run.bind_eq_ok.mpr ⟨_, rfl,
      Run.bind_eq_ok.mpr ⟨_, h.analyzes, Run.bind_eq_ok.mpr ⟨_, hinspected, rfl⟩⟩⟩⟩, ?_⟩
    have hchecks : (doctorChecks true true (.fromAnalysis app.program.environment.inventory analysis)
        true true (graphReport (.fromAnalysis app.program.environment.inventory
          analysis)).autoConfigurations).any (·.status = .failed) = false := by
      refine doctorChecks_unfailed ?_ ?_ (graphReport_unfailed hreports)
      · rw [GraphInspectionSnapshot.fromAnalysis, hgraph]
        rfl
      · rw [GraphInspectionSnapshot.fromAnalysis, hplan]
        rfl
    have hsnapshot : (GraphInspectionSnapshot.fromAnalysis app.program.environment.inventory
        analysis).diagnostics = [] := by
      show sortBy _ analysis.diagnostics = []
      rw [h.unreported]
      rfl
    rw [hrouteOk, hguardOk, hsnapshot, hdiagnostics]
    dsimp only [Option.isSome_some]
    rw [hchecks]
    rfl

/-! ### What a run needs besides -/

variable (app)

/-- The scope has a route, and the providers of its controllers are given or reached. -/
structure Runnable (config : Config) (result : BuilderAnalysis Config) : Prop where
  routes : (app.scope result.analysis).hasRoutes
  controllers : ∀ moduleGraph,
    buildModuleGraph app.root.typeId app.program.modules = .ok moduleGraph →
    ∀ kept ∈ (app.scope result.analysis).controllers,
      Available app.program.environment (app.standardBuilder config) moduleGraph
        kept.descriptor.typeId

/-- What is linked is what the framework and its macros emit: the server integration, no integration
for configurations, functions that return what they declare, and generated registrars. -/
structure Linked : Prop where
  server : Server.descriptor app.server app.program.environment.inventory app.program.controllers
    app.program.guards ∈ app.program.environment.autoConfigurations
  outputs : ∀ d ∈ app.program.environment.autoConfigurations,
    d.outputTypeId ≠ app.configType.typeId
  typed : app.program.environment.Typed
  registrars : Route.EmitsRegistrars app.library app.code app.program.controllers

/-- The router takes the routes of an application that was built, with the providers and the
bindings that `buildRouter` has for it. -/
def RegistersQuietly : Prop :=
  ∀ config application bindings controllers message, app.loadStandardConfig = .ok config →
    build app.program.environment (app.standardBuilder config) = .ok application →
    PassportStrategyCatalog.preflightScoped app.program.environment.inventory app.strategies
      application.moduleGraph (app.program.applicationScope application).guards = .ok bindings →
    Route.validateScopedDescriptors (app.program.applicationScope application).controllers =
      .ok controllers →
    Route.registerControllers app.library app.code ⟨application.context.registry, bindings⟩
      controllers ≠ .error (.panic message)

variable {app} {config : Config}

theorem sound_standardBuilder : (app.standardBuilder config).Sound := rfl

theorem outputsNew_standardBuilder (hlinked : app.Linked) {result : BuilderAnalysis Config}
    {plan : ConstructionPlan}
    (h : Constructible app.program.environment (app.standardBuilder config) result plan) :
    OutputsNew (app.standardBuilder config) result := by
  intro d hd hthere
  exact hlinked.outputs d (h.active d hd).1 (List.mem_singleton.mp hthere)

theorem input_standardBuilder :
    ((app.standardBuilder config).autoConfigurationInputs.get SERVER_AUTO_CONFIGURATION_ID
      app.server.modeTypeId).isSome := by
  have hne : CORS_AUTO_CONFIGURATION_ID ≠ SERVER_AUTO_CONFIGURATION_ID := by decide
  simp [standardBuilder, enableAutomaticCors, enableAutomaticServer, autoConfigurationInput,
    builderWithConfig, new, automatic, AutoConfigurationInputs.insert, AutoConfigurationInputs.get,
    hne]

theorem descriptors_scope {analysis : GraphAnalysis} {graph : ModuleGraph}
    (hgraph : analysis.moduleGraph = some graph) {kept : ScopedController}
    (hkept : kept ∈ (app.scope analysis).controllers) : kept.descriptor ∈ app.program.controllers := by
  rw [scope, Program.httpScope, hgraph] at hkept
  exact (HttpApplicationScope.exists_rooted_iff.mp ⟨kept, hkept, rfl⟩).1

/-- After a preflight, the guards of a rooted scope are bound. -/
theorem bound_of_preflight {analysis : GraphAnalysis} {graph : ModuleGraph}
    (hgraph : analysis.moduleGraph = some graph) {bindings : List PassportStrategyBinding}
    (hpreflight : PassportStrategyCatalog.preflightScoped app.program.environment.inventory
      app.strategies analysis.moduleGraph (app.scope analysis).guards = .ok bindings)
    {kept : ScopedController} (hkept : kept ∈ (app.scope analysis).controllers)
    {route : RouteDescriptor} (hroute : route ∈ Route.routesOf kept.descriptor)
    (hselects : kept.selects route) {guard : GuardDescriptor} (hguard : route.guard = some guard) :
    ∃ binding, Route.bindingFor bindings guard (kept.passportContextModule route) = some binding := by
  have hscoped : ⟨guard, kept.passportContextModule route⟩ ∈ (app.scope analysis).guards := by
    rw [scope, Program.httpScope, hgraph] at hkept ⊢
    refine List.mem_flatMap.mpr ⟨kept, hkept, List.mem_filterMap.mpr ⟨route, ?_, ?_⟩⟩
    · exact List.mem_filter.mpr ⟨hroute, hselects⟩
    · rw [hguard]
      rfl
  rw [hgraph] at hpreflight
  obtain ⟨-, -, hmap⟩ := Strategy.preflightScoped_eq_ok.mp hpreflight
  obtain ⟨binding, hbinding, hbind⟩ := (Run.ok_of_mapM hmap).1 _ (mem_sortBy.mpr hscoped)
  obtain ⟨hof, hcontext⟩ := Strategy.guard_of_bindGuard hbind
  refine Option.isSome_iff_exists.mp (List.find?_isSome.mpr ⟨binding, hbinding, ?_⟩)
  simp [hof, hcontext]

/-- Controllers that the controller macro emits never lack a provider. -/
theorem Healthy.runnable (hemits : app.program.EmitsControllers) {result : BuilderAnalysis Config}
    (h : app.Healthy config result) (hroutes : (app.scope result.analysis).hasRoutes) :
    app.Runnable config result := by
  refine ⟨hroutes, fun moduleGraph hgraph kept hkept => ?_⟩
  obtain ⟨selected, result', hscope, -, hrooted, -, -, -, hcases⟩ :=
    analyzeRooted_cases app.program.environment (app.standardBuilder config) moduleGraph
  have hanalyze : app.analyze config =
      analyzeRooted app.program.environment (app.standardBuilder config) moduleGraph := by
    have hsame : buildModuleGraph app.root.typeId
        (Catalog.modules app.program.environment.inventory) = .ok moduleGraph := hgraph
    simp only [analyze, analyzeBuilder, root_standardBuilder, hsame]
  obtain rfl : result' = result :=
    Except.ok.inj ((hanalyze.trans hrooted).symm.trans h.analyzes)
  obtain ⟨-, -, hnil, -⟩ := hcases h.analysis.1
  obtain ⟨ownership, hmodules⟩ := moduleGraph_of_analyzeRooted hrooted
  rw [scope, Program.httpScope, hmodules] at hkept
  obtain ⟨hmem, hinside⟩ := HttpApplicationScope.exists_rooted_iff.mp ⟨kept, hkept, rfl⟩
  exact Program.available_of_emits hemits hscope hnil hmem hinside

/-- The listener address of a built application with routes is there. -/
theorem binding_available (hlinked : app.Linked) {moduleGraph : ModuleGraph}
    (hgraph : buildModuleGraph app.root.typeId app.program.modules = .ok moduleGraph)
    {application : Application Config}
    (hbuild : build app.program.environment (app.standardBuilder config) = .ok application)
    (hroutes : (app.program.applicationScope application).hasRoutes) :
    Available app.program.environment (app.standardBuilder config) moduleGraph
      app.server.bindingTypeId := by
  obtain ⟨selected, -, hscope, hnil, -, -, -, ⟨ownership, hmodules⟩, -⟩ :=
    build_rooted (root_standardBuilder config) hgraph hbuild
  obtain ⟨hinitial, hconfigured, -, -⟩ := selectRooted_eq_ok.mp hscope
  refine .inl (.inr ⟨_, hlinked.server, rfl, selected.initialScope, hinitial, ?_⟩)
  refine Server.active_of_routes input_standardBuilder rfl ?_ ?_
  · rw [Program.applicationScope, hmodules] at hroutes
    exact hroutes
  · exact ((autoConfigure_selects app.program.environment (app.standardBuilder config)
      selected.initialScope.descriptors (some moduleGraph)).unfailed (hconfigured ▸ hnil) _
        hlinked.server).1

theorem typed_application (hlinked : app.Linked) {application : Application Config}
    (hbuild : build app.program.environment (app.standardBuilder config) = .ok application) :
    application.context.registry.Typed := by
  have hnew : (app.standardBuilder config).registry.Typed := by
    intro typeId stored hstored
    obtain ⟨rfl, rfl⟩ := Prod.mk.inj (List.mem_singleton.mp hstored)
    rfl
  obtain ⟨moduleGraph, hgraph⟩ := exists_moduleGraph (root_standardBuilder config) hbuild
  exact typed_build hlinked.typed hnew (root_standardBuilder config) hgraph hbuild

/-- The registry of a built application resolves exactly what is available. -/
theorem resolves_iff (hlinked : app.Linked) {application : Application Config}
    (hbuild : build app.program.environment (app.standardBuilder config) = .ok application)
    {moduleGraph : ModuleGraph}
    (hgraph : buildModuleGraph app.root.typeId app.program.modules = .ok moduleGraph)
    {typeId : TypeId} {typeName : String} :
    (∃ value, application.context.registry.resolve typeId typeName = .ok value) ↔
      Available app.program.environment (app.standardBuilder config) moduleGraph typeId := by
  rw [← mem_registry_iff sound_standardBuilder (root_standardBuilder config) hgraph hbuild]
  constructor
  · rintro ⟨value, hvalue⟩
    exact ProviderRegistry.mem_keys_of_resolve hvalue
  · intro hmem
    obtain ⟨value, hvalue, -⟩ := (typed_application hlinked hbuild).resolve_ok hmem
    exact ⟨value, hvalue⟩

/-- Without a plan there is no layer, and there is no other error. -/
theorem configureRouter_ok {application : Application Config}
    (h : application.context.registry.Typed) (router : Router) :
    ∃ routed, app.configureRouter application router = .ok routed := by
  unfold configureRouter
  obtain ⟨cors, hcors⟩ | ⟨error, herror, hcode⟩ :=
    h.resolve_cases app.corsPlanType.typeId app.corsPlanType.typeName
  · rw [hcors]
    exact ⟨_, rfl⟩
  · rw [herror]
    exact ⟨router, if_pos hcode⟩

/-- The steps of a run that succeeds. -/
theorem prepareStandardRun_eq_ok :
    (∃ prepared, app.prepareStandardRun = .ok prepared) ↔
      ∃ config application, app.loadStandardConfig = .ok config ∧
        build app.program.environment (app.standardBuilder config) = .ok application ∧
        (app.program.applicationScope application).hasRoutes ∧
        ∃ router, buildRouter app.library app.code app.program.environment.inventory app.strategies
            application.context.registry application.moduleGraph
            (app.program.applicationScope application) = .ok router ∧
          (∃ routed, app.configureRouter application router = .ok routed) ∧
          ∃ binding, application.context.registry.resolve app.server.bindingTypeId
            SERVER_BINDING_TYPE_NAME = .ok binding := by
  simp only [prepareStandardRun, prepareStandardApplication, Run.bind_eq_ok, Run.mapErr_eq_ok,
    Run.ensure_eq_ok, selectRoot_builderWithConfig]
  constructor
  · rintro ⟨_, config, hload, _, hroot, application, hbuild, _, hroutes, router, hrouter, routed,
      hrouted, binding, hbinding, -⟩
    obtain rfl := Except.ok.inj hroot
    exact ⟨config, application, hload, hbuild, hroutes, router, hrouter, ⟨routed, hrouted⟩, binding,
      hbinding⟩
  · rintro ⟨config, application, hload, hbuild, hroutes, router, hrouter, ⟨routed, hrouted⟩, binding,
      hbinding⟩
    exact ⟨_, config, hload, _, rfl, application, hbuild, (), hroutes, router, hrouter, routed,
      hrouted, binding, hbinding, rfl⟩

theorem healthy_of_prepared (hlinked : app.Linked) {application : Application Config}
    (hload : app.loadStandardConfig = .ok config)
    (hbuild : build app.program.environment (app.standardBuilder config) = .ok application)
    (hroutes : (app.program.applicationScope application).hasRoutes) {router : Router}
    (hrouter : buildRouter app.library app.code app.program.environment.inventory app.strategies
      application.context.registry application.moduleGraph
      (app.program.applicationScope application) = .ok router) :
    ∃ result, app.Healthy config result ∧ app.Runnable config result := by
  obtain ⟨result, hanalyze, hvalid, -, hmodules, -⟩ := build_cases hbuild
  obtain ⟨result', hok, hcases⟩ :=
    analyzeBuilder_cases app.program.environment (app.standardBuilder config)
  obtain rfl : result' = result := Except.ok.inj (hok.symm.trans hanalyze)
  have hscope : app.program.applicationScope application = app.scope result'.analysis := by
    rw [Program.applicationScope, hmodules]
    rfl
  rw [hscope, hmodules] at hrouter
  rw [hscope] at hroutes
  obtain ⟨bindings, hbindings, hrouter⟩ := Run.bind_eq_ok.mp hrouter
  obtain ⟨controllers, hcontrollers, hregisters⟩ := Run.bind_eq_ok.mp hrouter
  refine ⟨result', ⟨hload, hanalyze, (hcases hvalid).1, ⟨controllers, hcontrollers⟩,
    ⟨bindings, hbindings⟩⟩, hroutes, fun moduleGraph hgraph kept hkept => ?_⟩
  obtain ⟨graph, hsome⟩ := Option.isSome_iff_exists.mp (analyzeBuilder_of_diagnostics _ _
    (root_standardBuilder config) hanalyze (hcases hvalid).1).2.1
  have hcode : Route.EmitsRegistrars app.library app.code
      ((app.scope result'.analysis).controllers.map (·.descriptor)) := by
    intro descriptor hdescriptor
    obtain ⟨kept, hkept, rfl⟩ := List.mem_map.mp hdescriptor
    exact hlinked.registrars kept.descriptor (descriptors_scope hsome hkept)
  exact (resolves_iff hlinked hbuild hgraph).mp
    (Route.resolves_of_registers hcode hcontrollers hregisters kept hkept)

theorem prepared_of_healthy (hlinked : app.Linked)
    (hcalls : CallsReturn app.program.environment (app.standardBuilder config))
    (hquiet : app.RegistersQuietly) {result : BuilderAnalysis Config}
    (hhealthy : app.Healthy config result) (hrunnable : app.Runnable config result) :
    ∃ prepared, app.prepareStandardRun = .ok prepared := by
  obtain ⟨hvalid, hsome, -⟩ := hhealthy.analysis
  obtain ⟨plan, -, hconstructible⟩ := hhealthy.plan
  obtain ⟨application, hbuild⟩ := build_ok sound_standardBuilder hhealthy.analyzes hvalid
    (outputsNew_standardBuilder hlinked hconstructible) hcalls
  obtain ⟨result', hanalyze, -, -, hmodules, -⟩ := build_cases hbuild
  obtain rfl : result' = result := Except.ok.inj (hanalyze.symm.trans hhealthy.analyzes)
  obtain ⟨moduleGraph, hmoduleGraph⟩ := exists_moduleGraph (root_standardBuilder config) hbuild
  obtain ⟨graph, hgraph⟩ := Option.isSome_iff_exists.mp hsome
  have hscope : app.program.applicationScope application = app.scope result'.analysis := by
    rw [Program.applicationScope, hmodules]
    rfl
  obtain ⟨controllers, hcontrollers⟩ := hhealthy.routes
  obtain ⟨bindings, hbindings⟩ := hhealthy.guards
  have hcode : Route.EmitsRegistrars app.library app.code
      ((app.scope result'.analysis).controllers.map (·.descriptor)) := by
    intro descriptor hdescriptor
    obtain ⟨kept, hkept, rfl⟩ := List.mem_map.mp hdescriptor
    exact hlinked.registrars kept.descriptor (descriptors_scope hgraph hkept)
  have hserves : Route.ServesScope (app.scope result'.analysis).controllers
      ⟨application.context.registry, bindings⟩ := by
    intro kept hkept
    refine ⟨(resolves_iff hlinked hbuild hmoduleGraph).mpr
      (hrunnable.controllers moduleGraph hmoduleGraph kept hkept), ?_⟩
    intro route hroute hselects guard hguard
    obtain ⟨binding, hbinding⟩ := bound_of_preflight hgraph hbindings hkept hroute hselects hguard
    exact ⟨binding, by rw [Route.RouterBuildContext.passportGuardState, hbinding]; rfl⟩
  -- what the controllers ask for is there, so registration could only panic in the router
  obtain ⟨router, hregisters⟩ : ∃ router, Route.registerControllers app.library app.code
      ⟨application.context.registry, bindings⟩ controllers = .ok router := by
    have hfollows := Route.registers_entries hcode hcontrollers
      ⟨application.context.registry, bindings⟩
    have hpanic := hquiet config application bindings controllers
    rw [hscope, hmodules] at hpanic
    generalize Route.registerControllers app.library app.code
      ⟨application.context.registry, bindings⟩ controllers = call at hfollows hpanic
    generalize Route.install app.library app.library.new _ = installed at hfollows
    cases hfollows with
    | returns h => exact ⟨_, rfl⟩
    | panics message =>
      exact absurd rfl (hpanic message hhealthy.loads hbuild hbindings hcontrollers)
    | fails error other h => exact absurd hserves h
  have hroutes : (app.program.applicationScope application).hasRoutes := by
    rw [hscope]
    exact hrunnable.routes
  refine prepareStandardRun_eq_ok.mpr ⟨config, application, hhealthy.loads, hbuild, hroutes, router,
    ?_, configureRouter_ok (typed_application hlinked hbuild) router, ?_⟩
  · rw [hscope, hmodules]
    exact Run.bind_eq_ok.mpr ⟨bindings, hbindings, Run.bind_eq_ok.mpr ⟨controllers, hcontrollers,
      hregisters⟩⟩
  · exact (resolves_iff hlinked hbuild hmoduleGraph).mpr
      (binding_available hlinked hmoduleGraph hbuild hroutes)

/-- Doctor agrees with a run except where a healthy application lacks a route, or the provider of a
controller. -/
theorem doctor_agrees_iff (app : StandardApplication Config Router)
    (kind : Inspection.InspectionKind)
    (hlinked : app.Linked)
    (hcalls : ∀ config, app.loadStandardConfig = .ok config →
      CallsReturn app.program.environment (app.standardBuilder config))
    (hquiet : app.RegistersQuietly) :
    ((∃ report, app.inspectStandardApplication kind = .ok report ∧ report.failed = false) ↔
        ∃ prepared, app.prepareStandardRun = .ok prepared) ↔
      ∀ config result, app.Healthy config result → app.Runnable config result := by
  rw [inspect_unfailed_iff]
  have hprepared : (∃ prepared, app.prepareStandardRun = .ok prepared) ↔
      ∃ config result, app.Healthy config result ∧ app.Runnable config result := by
    constructor
    · intro h
      obtain ⟨config, application, hload, hbuild, hroutes, router, hrouter, -⟩ :=
        prepareStandardRun_eq_ok.mp h
      exact ⟨config, healthy_of_prepared hlinked hload hbuild hroutes hrouter⟩
    · rintro ⟨config, result, hhealthy, hrunnable⟩
      exact prepared_of_healthy hlinked (hcalls config hhealthy.loads) hquiet hhealthy hrunnable
  rw [hprepared]
  constructor
  · intro h config result hhealthy
    obtain ⟨config', result', hhealthy', hrunnable⟩ := h.mp ⟨config, result, hhealthy⟩
    obtain rfl : config' = config := Except.ok.inj (hhealthy'.loads.symm.trans hhealthy.loads)
    obtain rfl : result' = result :=
      Except.ok.inj (hhealthy'.analyzes.symm.trans hhealthy.analyzes)
    exact hrunnable
  · intro h
    constructor
    · rintro ⟨config, result, hhealthy⟩
      exact ⟨config, result, hhealthy, h config result hhealthy⟩
    · rintro ⟨config, result, hhealthy, -⟩
      exact ⟨config, result, hhealthy⟩

/-! ### A root with and without a controller -/

def deskSettings : Server.Settings Unit where
  fromConfig _ := .ok ⟨"127.0.0.1", 3000⟩
  sourceOf _ _ := none
  bindingTypeId := ⟨6⟩
  modeTypeId := ⟨7⟩
  location := ⟨"server_config.rs", 1, 1⟩
  applier := 0

def deskProvider : ProviderDescriptor where
  kind := .service
  typeName := "app::Desk"
  typeId := ⟨3⟩
  runtimeTypeName := some "app::Desk"
  namespace_ := some "app"
  dependencies := []
  visibility := .private_
  location := ⟨"desk.rs", 1, 1⟩

def desk : ControllerRouteDescriptor where
  typeName := "app::Desk"
  typeId := ⟨3⟩
  namespace_ := some "app"
  contracts := [⟨"DeskRoutes", [
    { method := .get, pathPrefix := "", path := "/desk", fullPath := "/desk"
      handler := "show", location := ⟨"desk.rs", 4, 1⟩ }]⟩]
  registrar := some 1

def deskInventory : Inventory := ⟨[deskProvider], sampleModules⟩

def deskApplication (controllers : List ControllerRouteDescriptor) :
    StandardApplication Unit (List (String × HttpMethod)) where
  root := ⟨⟨10⟩, "App"⟩
  program :=
    { environment :=
        { inventory := deskInventory
          autoConfigurations := [Server.descriptor deskSettings deskInventory controllers []]
          construct := fun _ _ _ => .ok ⟨⟨3⟩, 30⟩
          apply := fun _ _ => .ok ⟨⟨6⟩, 60⟩ }
      controllers
      guards := [] }
  strategies := []
  server := deskSettings
  loadStandardConfig := .ok ()
  emptyConfig := ()
  configType := ⟨⟨0⟩, "Config"⟩
  configAddress := 0
  modeAddress := 0
  corsPlanType := ⟨⟨8⟩, "CorsPlan"⟩
  library := Route.listRouter
  layer _ router := router
  code _ router runtime iter := Route.register Route.listRouter runtime desk router iter

theorem linked_desk {controllers : List ControllerRouteDescriptor}
    (h : ∀ controller ∈ controllers, controller = desk) : (deskApplication controllers).Linked where
  server := List.mem_singleton_self _
  outputs d hd := by
    obtain rfl := List.mem_singleton.mp hd
    exact (by decide : (⟨6⟩ : TypeId) ≠ ⟨0⟩)
  typed :=
    { construct := fun d hd _ _ value hvalue => by
        obtain rfl := List.mem_singleton.mp hd
        exact congrArg (·.typeId) (Except.ok.inj hvalue).symm
      apply := fun d hd _ value hvalue => by
        obtain rfl := List.mem_singleton.mp hd
        exact congrArg (·.typeId) (Except.ok.inj hvalue).symm }
  registrars controller hcontroller _ _ := by
    obtain rfl := h controller hcontroller
    rfl

theorem callsReturn_desk (controllers : List ControllerRouteDescriptor)
    (builder : MadsBuilder Unit) :
    CallsReturn (deskApplication controllers).program.environment builder := by
  intro result plan _ _
  exact ⟨fun d _ => ⟨_, rfl⟩, fun registry _ before step rest _ current _ => ⟨_, rfl⟩⟩

theorem registersQuietly_desk {controllers : List ControllerRouteDescriptor}
    (h : ∀ controller ∈ controllers, controller = desk)
    (hinstall : ∃ router, Route.install Route.listRouter [] (Route.entries
      (HttpApplicationScope.rootedControllers (Catalog.modules deskInventory) controllers
        sampleGraph)) =
        .ok router) :
    (deskApplication controllers).RegistersQuietly := by
  intro config application bindings validated message _ hbuild _ hvalid
  have hroot : ((deskApplication controllers).standardBuilder config).root = some ⟨⟨10⟩, "App"⟩ :=
    rfl
  have hgraph : buildModuleGraph ⟨10⟩ (Catalog.modules deskInventory) = .ok sampleGraph := by
    decide +kernel
  obtain ⟨-, -, -, -, -, -, -, ⟨ownership, hmodules⟩, -⟩ := build_rooted hroot hgraph hbuild
  have hscope : ((deskApplication controllers).program.applicationScope application).controllers =
      HttpApplicationScope.rootedControllers (deskApplication controllers).program.modules
        controllers sampleGraph := by
    rw [Program.applicationScope, hmodules]
    rfl
  rw [hscope] at hvalid
  have hcode : Route.EmitsRegistrars Route.listRouter (deskApplication controllers).code
      ((HttpApplicationScope.rootedControllers (deskApplication controllers).program.modules
        controllers sampleGraph).map (·.descriptor)) := by
    intro descriptor hdescriptor _ _
    obtain ⟨kept, hkept, rfl⟩ := List.mem_map.mp hdescriptor
    obtain ⟨hmem, -⟩ := HttpApplicationScope.exists_rooted_iff.mp ⟨kept, hkept, rfl⟩
    rw [h kept.descriptor hmem]
    rfl
  have hfollows := Route.registers_entries hcode hvalid ⟨application.context.registry, bindings⟩
  obtain ⟨router, hrouter⟩ := hinstall
  change Run.Follows _ _ _ (Route.install Route.listRouter [] (Route.entries
    (HttpApplicationScope.rootedControllers (Catalog.modules deskInventory) controllers
      sampleGraph))) at hfollows
  rw [hrouter] at hfollows
  exact hfollows.no_panic message

/-- A root with a controller runs, and doctor agrees. -/
theorem doctor_agrees_iff_desk :
    (∃ report, (deskApplication [desk]).inspectStandardApplication .doctor = .ok report ∧
        report.failed = false) ↔
      ∃ prepared, (deskApplication [desk]).prepareStandardRun = .ok prepared := by
  refine (doctor_agrees_iff (deskApplication [desk]) .doctor (linked_desk (by simp))
    (fun _ _ => callsReturn_desk [desk] _)
    (registersQuietly_desk (by simp) ⟨[("/desk", .get)], by decide +kernel⟩)).mpr ?_
  rintro ⟨⟩ result h
  have hscope : ((deskApplication [desk]).analyze ()).map (fun result =>
      (((deskApplication [desk]).scope result.analysis).hasRoutes,
        ((deskApplication [desk]).scope result.analysis).controllers.map (·.descriptor.typeId))) =
      .ok (true, [⟨3⟩]) := by decide +kernel
  have hkeys : (build (deskApplication [desk]).program.environment
      ((deskApplication [desk]).standardBuilder ())).map (·.context.registry.keys) =
      .ok [⟨0⟩, ⟨6⟩, ⟨3⟩] := by decide +kernel
  rw [h.analyzes] at hscope
  obtain ⟨hroutes, hcontrollers⟩ := Prod.mk.inj (Except.ok.inj hscope)
  refine ⟨hroutes, fun moduleGraph hgraph kept hkept => ?_⟩
  cases hbuild : build (deskApplication [desk]).program.environment
      ((deskApplication [desk]).standardBuilder ()) with
  | error halt =>
    rw [hbuild] at hkeys
    cases hkeys
  | ok application =>
    rw [hbuild] at hkeys
    have hall : application.context.registry.keys = [⟨0⟩, ⟨6⟩, ⟨3⟩] := Except.ok.inj hkeys
    have hmem := List.mem_map_of_mem (f := fun kept => kept.descriptor.typeId) hkept
    rw [hcontrollers] at hmem
    rw [← mem_registry_iff sound_standardBuilder (root_standardBuilder ()) hgraph hbuild,
      List.mem_singleton.mp hmem, hall]
    decide

/-- Doctor finds nothing wrong with a root that has no controller, and it does not run. -/
theorem doctor_unaware :
    (deskApplication []).Linked ∧ (deskApplication []).RegistersQuietly ∧
    (∀ builder, CallsReturn (deskApplication []).program.environment builder) ∧
    (∃ report, (deskApplication []).inspectStandardApplication .doctor = .ok report ∧
      report.failed = false) ∧
    ∀ prepared, (deskApplication []).prepareStandardRun ≠ .ok prepared := by
  refine ⟨linked_desk (by simp), registersQuietly_desk (by simp) ⟨[], rfl⟩, callsReturn_desk [], ?_,
    fun prepared hprepared => ?_⟩
  · have hfailed : ((deskApplication []).inspectStandardApplication .doctor).map (·.failed) =
        .ok false := by decide +kernel
    cases hreport : (deskApplication []).inspectStandardApplication .doctor with
    | error halt =>
      rw [hreport] at hfailed
      cases hfailed
    | ok report =>
      rw [hreport] at hfailed
      exact ⟨report, rfl, Except.ok.inj hfailed⟩
  · have hrun : (deskApplication []).prepareStandardRun.map (·.routeCount) =
        Run.fail (.bootstrap noRunnableRouteError) := by decide +kernel
    rw [hprepared] at hrun
    cases hrun

end StandardApplication

end Mads
