import Mads.Common.Isolation
import Mads.Core.RootedRegistry

/-!
# Controllers that are built and controllers that are routed
-/

namespace Mads

variable {Config : Type}

/-- The two declarations of one controller type, as the controller macro emits them. -/
structure EmittedTogether (provider : ProviderDescriptor) (controller : ControllerRouteDescriptor) :
    Prop where
  kind : provider.kind = .service
  typeName : provider.typeName = controller.typeName
  typeId : provider.typeId = controller.typeId
  runtimeTypeName : provider.runtimeTypeName.isSome
  namespace_ : provider.namespace_ = controller.namespace_
  isSome : controller.namespace_.isSome
  registrar : controller.registrar.isSome

namespace HttpApplicationScope

variable {graph : ModuleGraph} {modules : List ModuleDescriptor}
  {controllers : List ControllerRouteDescriptor} {controller : ControllerRouteDescriptor}

theorem descriptor_of_rootedController {kept : ScopedController}
    (h : HttpScope.rootedController graph modules controller = some kept) :
    kept.descriptor = controller := by
  obtain ⟨owner, -, h⟩ := Option.bind_eq_some_iff.mp h
  split at h
  · cases h
    rfl
  · cases h

/-- A rooted scope keeps the controllers that reachable modules own. -/
theorem exists_rooted_iff :
    (∃ kept ∈ rootedControllers modules controllers graph, kept.descriptor = controller) ↔
      controller ∈ controllers ∧ Scope.Inside graph modules controller.namespace_ := by
  simp only [rootedControllers, RouteCatalog.controllers, List.mem_filterMap, mem_sortBy]
  constructor
  · rintro ⟨kept, ⟨c, hc, hrooted⟩, rfl⟩
    rw [descriptor_of_rootedController hrooted]
    obtain ⟨owner, howner, hrooted⟩ := Option.bind_eq_some_iff.mp hrooted
    split at hrooted
    · next hreach => exact ⟨hc, owner, howner, hreach⟩
    · cases hrooted
  · rintro ⟨hc, owner, howner, hreach⟩
    have hcopy : HttpScope.isReachable graph owner.typeId = true := hreach
    have hsome : (HttpScope.rootedController graph modules controller).isSome := by
      simp [HttpScope.rootedController, HttpScope.ownerForNamespace, howner, hcopy]
    obtain ⟨kept, hrooted⟩ := Option.isSome_iff_exists.mp hsome
    exact ⟨kept, ⟨controller, hc, hrooted⟩, descriptor_of_rootedController hrooted⟩

end HttpApplicationScope

namespace Program

variable (program : Program Config)

/-- The HTTP scope of a built application. -/
def applicationScope (application : Application Config) : HttpApplicationScope :=
  HttpApplicationScope.forModuleGraph program.modules program.controllers program.guards
    application.moduleGraph

/-- Every controller comes from the controller macro. -/
def EmitsControllers : Prop :=
  ∀ controller ∈ program.controllers,
    ∃ provider ∈ program.environment.inventory.providers, EmittedTogether provider controller

variable {program}

open MadsBuilder

theorem exists_applicationScope_iff {application : Application Config} {moduleGraph : ModuleGraph}
    (hgraph : ∃ ownership, application.moduleGraph =
      some (moduleGraph.setProviderOwnership ownership)) {controller : ControllerRouteDescriptor} :
    (∃ kept ∈ (program.applicationScope application).controllers,
        kept.descriptor = controller) ↔
      controller ∈ program.controllers ∧
        Scope.Inside moduleGraph program.modules controller.namespace_ := by
  obtain ⟨ownership, hgraph⟩ := hgraph
  simp only [applicationScope, hgraph, HttpApplicationScope.forModuleGraph]
  exact HttpApplicationScope.exists_rooted_iff

/-- A selection takes in what a reachable module owns, unless it is given. -/
theorem mem_catalog_of_inside {builder : MadsBuilder Config} {moduleGraph : ModuleGraph}
    {scope : RootedScope Config}
    (hscope : selectRooted program.environment builder moduleGraph = .ok scope)
    (hnil : scope.autoConfiguration.diagnostics = []) {provider : ProviderDescriptor}
    (hmem : provider ∈ program.environment.inventory.providers)
    (hinside : Scope.Inside moduleGraph program.modules provider.namespace_)
    (hgiven : ¬ Given program.environment builder moduleGraph provider.typeId) :
    provider ∈ scope.catalog.descriptors := by
  obtain ⟨scope', hscope', hfollows⟩ := selectRooted_ok program.environment builder moduleGraph
  obtain rfl : scope' = scope := Except.ok.inj (hscope'.symm.trans hscope)
  rw [← isSatisfied_iff_given hscope hnil, Bool.not_eq_true] at hgiven
  obtain ⟨i, hi, rfl⟩ := List.getElem_of_mem
    (mem_sortBy.mpr hmem : provider ∈ Catalog.providers program.environment.inventory)
  obtain ⟨owner, howner, hreach⟩ := hinside
  have hseed : Scope.ReachedFor moduleGraph program.modules
      (Catalog.providers program.environment.inventory) scope'.satisfied ⟨i, hi⟩ owner.typeId :=
    .owned hgiven howner hreach
  exact hfollows.final.selects.mem_descriptors hseed

/-- The type of a controller that a reachable module owns is there: its provider is emitted
together with it. -/
theorem available_of_emits {builder : MadsBuilder Config} {moduleGraph : ModuleGraph}
    {scope : RootedScope Config} (hemits : program.EmitsControllers)
    (hscope : selectRooted program.environment builder moduleGraph = .ok scope)
    (hnil : scope.autoConfiguration.diagnostics = []) {controller : ControllerRouteDescriptor}
    (hmem : controller ∈ program.controllers)
    (hinside : Scope.Inside moduleGraph program.modules controller.namespace_) :
    Available program.environment builder moduleGraph controller.typeId := by
  obtain ⟨provider, hprovider, hemitted⟩ := hemits controller hmem
  rw [← hemitted.namespace_] at hinside
  have hselected := mem_catalog_of_inside hscope hnil hprovider hinside
  rw [hemitted.typeId] at hselected
  rw [Available, reaches_iff hscope hnil, or_iff_not_imp_left]
  exact fun hgiven => ⟨provider, hselected hgiven, hemitted.typeId⟩

/-- In a rooted application, each controller that is routed was given or is planned and can be
resolved, and each planned controller of a reachable module is routed. -/
theorem controllers_agree (program : Program Config) (config : Config) (configType : RustType)
    (value : ErasedProvider) (requests : List (MadsBuilder.Request Config)) (root : RustType)
    (application : Application Config) (hemits : program.EmitsControllers)
    (hroot : ((new config configType value).run program.environment.inventory requests).root =
      some root)
    (hbuild : build program.environment
      ((new config configType value).run program.environment.inventory requests) =
        .ok application) :
    ∃ moduleGraph, buildModuleGraph root.typeId program.modules = .ok moduleGraph ∧
      (∀ kept ∈ (program.applicationScope application).controllers,
        kept.descriptor.typeId ∈ application.context.registry.keys ∧
        (Given program.environment
            ((new config configType value).run program.environment.inventory requests) moduleGraph
            kept.descriptor.typeId ∨
          ∃ step ∈ application.constructionPlan.steps,
            EmittedTogether step.descriptor kept.descriptor) ∧
        (program.environment.Typed → value.typeId = configType.typeId →
          (∀ request ∈ requests, request.Typed program.environment.inventory) →
          ∀ typeName, ∃ handle, application.context.registry.resolve kept.descriptor.typeId
            typeName = .ok handle)) ∧
      (∀ step ∈ application.constructionPlan.steps, ∀ controller ∈ program.controllers,
        EmittedTogether step.descriptor controller →
        Scope.Inside moduleGraph program.modules step.descriptor.namespace_ →
        ∃ kept ∈ (program.applicationScope application).controllers,
          kept.descriptor = controller) := by
  have hsound := (sound_new config configType value).run program.environment.inventory requests
  obtain ⟨moduleGraph, hgraph⟩ := exists_moduleGraph hroot hbuild
  obtain ⟨scope, -, hscope, hnil, -, -, hplans, hmodules, -⟩ := build_rooted hroot hgraph hbuild
  refine ⟨moduleGraph, hgraph, fun kept hkept => ?_, ?_⟩
  · obtain ⟨hmem, hinside⟩ := (exists_applicationScope_iff hmodules).mp ⟨kept, hkept, rfl⟩
    obtain ⟨provider, hprovider, hemitted⟩ := hemits kept.descriptor hmem
    rw [← hemitted.namespace_] at hinside
    have hselected := mem_catalog_of_inside hscope hnil hprovider hinside
    rw [hemitted.typeId] at hselected
    have hkey : kept.descriptor.typeId ∈ application.context.registry.keys := by
      rw [mem_registry_iff hsound hroot hgraph hbuild]
      exact available_of_emits hemits hscope hnil hmem (hemitted.namespace_ ▸ hinside)
    refine ⟨hkey, or_iff_not_imp_left.mpr fun hgiven => ?_,
      fun htyped hvalue hrequests typeName => ?_⟩
    · -- a controller that is not given is constructed, by the step of its provider
      have hunsatisfied : Scope.isSatisfied scope.satisfied provider.typeId = false := by
        rw [← Bool.not_eq_true, isSatisfied_iff_given hscope hnil, hemitted.typeId]
        exact hgiven
      obtain ⟨step, hstep, rfl⟩ := (hplans.steps provider).mpr
        ⟨hselected hgiven, Scope.isSatisfied_eq_false.mp hunsatisfied⟩
      exact ⟨step, hstep, hemitted⟩
    · have hnew : (new config configType value).registry.Typed := by
        intro typeId stored hstored
        obtain ⟨rfl, rfl⟩ := Prod.mk.inj (List.mem_singleton.mp hstored)
        exact hvalue
      have hall := typed_build htyped (typed_run hnew hrequests) hroot hgraph hbuild
      obtain ⟨handle, hresolve, -⟩ := hall.resolve_ok hkey
      exact ⟨handle, hresolve⟩
  · intro step hstep controller hcontroller hemitted hinside
    rw [hemitted.namespace_] at hinside
    exact (exists_applicationScope_iff hmodules).mpr ⟨hcontroller, hinside⟩

/-- The two declarations of one controller of an imported module. -/
def userControllerProvider : ProviderDescriptor where
  kind := .service
  typeName := "app::users::UserController"
  typeId := ⟨3⟩
  runtimeTypeName := some "app::users::UserController"
  namespace_ := some "app::users"
  dependencies := [⟨"UserService", ⟨2⟩⟩]
  visibility := .private_
  location := ⟨"users.rs", 8, 1⟩

def userController : ControllerRouteDescriptor where
  typeName := "app::users::UserController"
  typeId := ⟨3⟩
  namespace_ := some "app::users"
  contracts := [⟨"UserRoutes", [
    { method := .get, pathPrefix := "/users", path := "/", fullPath := "/users"
      handler := "list", location := ⟨"users.rs", 9, 1⟩ }]⟩]
  registrar := some 1

def routedProgram : Program Unit where
  environment := withProviders sampleRooted (userControllerProvider :: sampleProviders)
  controllers := [userController]
  guards := []

theorem controllers_agree_sample :
    ∃ application, build routedProgram.environment
        ((new () ⟨⟨0⟩, "Config"⟩ ⟨⟨0⟩, 0⟩).run routedProgram.environment.inventory
          [.root ⟨⟨10⟩, "App"⟩]) = .ok application ∧
      ∃ kept ∈ (routedProgram.applicationScope application).controllers,
        kept.descriptor = userController ∧
          kept.descriptor.typeId ∈ application.context.registry.keys := by
  have hok : (build routedProgram.environment
      ((new () ⟨⟨0⟩, "Config"⟩ ⟨⟨0⟩, 0⟩).run routedProgram.environment.inventory
        [.root ⟨⟨10⟩, "App"⟩])).map (fun application =>
          application.constructionPlan.steps.map (·.descriptor)) =
      .ok [sampleProviders[1], sampleProviders[0], userControllerProvider] := by decide +kernel
  cases hbuild : build routedProgram.environment
      ((new () ⟨⟨0⟩, "Config"⟩ ⟨⟨0⟩, 0⟩).run routedProgram.environment.inventory
        [.root ⟨⟨10⟩, "App"⟩]) with
  | error halt => simp [hbuild, Except.map] at hok
  | ok application =>
    rw [hbuild] at hok
    have hemitted : EmittedTogether userControllerProvider userController :=
      ⟨rfl, rfl, rfl, rfl, rfl, rfl, rfl⟩
    have hemits : routedProgram.EmitsControllers := by
      intro controller hcontroller
      obtain rfl := List.mem_singleton.mp hcontroller
      exact ⟨userControllerProvider, List.mem_cons_self, hemitted⟩
    obtain ⟨moduleGraph, hgraph, hrouted, hplanned⟩ := controllers_agree routedProgram ()
      ⟨⟨0⟩, "Config"⟩ ⟨⟨0⟩, 0⟩ [.root ⟨⟨10⟩, "App"⟩] ⟨⟨10⟩, "App"⟩ application hemits rfl hbuild
    have hsample : buildModuleGraph (TypeId.mk 10) routedProgram.modules = .ok sampleGraph := by
      decide +kernel
    obtain rfl : moduleGraph = sampleGraph := Except.ok.inj (hgraph.symm.trans hsample)
    have hsteps : application.constructionPlan.steps.map (·.descriptor) =
        [sampleProviders[1], sampleProviders[0], userControllerProvider] := Except.ok.inj hok
    obtain ⟨step, hstep, hdescriptor⟩ := List.mem_map.mp
      (show userControllerProvider ∈ application.constructionPlan.steps.map (·.descriptor) by
        rw [hsteps]; decide)
    obtain ⟨kept, hkept, hcontroller⟩ := hplanned step hstep userController
      (List.mem_singleton_self _) (hdescriptor ▸ hemitted) (by
        rw [hdescriptor]
        exact ⟨sampleModules[1], by decide +kernel, by decide +kernel⟩)
    exact ⟨application, rfl, kept, hkept, hcontroller, (hrouted kept hkept).1⟩

end Program

end Mads
