import Mads.Common.ControllerScope
import Mads.Common.JwtAutoConfiguration
import Mads.Common.StrategyIsolation

/-!
# What guards resolve when a request comes in

A guard adapter takes the JWT service and, for a strategy of the application's own, the provider of
that strategy out of the registry. The preflight judges the strategy by where it is implemented,
while the registry was filled by where its provider is declared.
-/

namespace Mads

variable {Config : Type}

/-- What the code of a guard adapter is: the built-in one, or the one that the strategy macro emits
for a provider type. -/
inductive AdapterCode where
  | builtin
  | strategy (providerTypeId : TypeId)
  deriving DecidableEq, Repr

/-- The types that an adapter resolves for a request, in order. -/
def AdapterCode.resolves (serviceTypeId : TypeId) : AdapterCode → List TypeId
  | builtin => [serviceTypeId]
  | strategy providerTypeId => [serviceTypeId, providerTypeId]

/-- The code behind the adapters of linked strategies and selected guards is what the macros
emit. -/
structure EmitsAdapters (code : FnPtr → AdapterCode) (strategies : List PassportStrategyDescriptor)
    (guards : List ScopedGuard) : Prop where
  strategy : ∀ strategy ∈ strategies, code strategy.adapter = .strategy strategy.providerTypeId
  builtin : ∀ scopedGuard ∈ guards, ∀ adapter, scopedGuard.guard.builtinAdapter = some adapter →
    code adapter = .builtin

namespace Strategy

/-! ### The binding of one guard -/

section Bind

variable {graph : ModuleGraph} {modules : List ModuleDescriptor}
  {providers : List ProviderDescriptor} {strategies : List PassportStrategyDescriptor}
  {scopedGuard : ScopedGuard} {binding : PassportStrategyBinding}

theorem adapter_of_resolveCustomStrategy {guard : GuardDescriptor}
    {strategy : PassportStrategyDescriptor} (h : resolveCustomStrategy guard strategy = .ok binding) :
    binding.adapter = strategy.adapter := by
  obtain ⟨principal, -, h⟩ := Run.bind_eq_ok.mp h
  split at h
  · obtain ⟨name, -, h⟩ := Run.bind_eq_ok.mp h
    simp [Run.fail] at h
  · cases h
    rfl

theorem adapter_of_resolveBuiltinOrMissing {guard : GuardDescriptor}
    (h : resolveBuiltinOrMissing guard = .ok binding) :
    guard.builtinAdapter = some binding.adapter := by
  unfold resolveBuiltinOrMissing at h
  split at h
  · split at h
    · next adapter hadapter =>
      cases h
      exact hadapter
    · simp [Run.fail] at h
  · simp [Run.fail] at h

/-- A binding is that of the guard it was made for. -/
theorem guard_of_bindGuard {moduleGraph : Option ModuleGraph}
    (h : bindGuard moduleGraph modules providers strategies scopedGuard = .ok binding) :
    binding.guard = scopedGuard.guard ∧ binding.contextModule = scopedGuard.contextModule := by
  obtain ⟨resolved, hresolved, hbinding⟩ := Run.bind_eq_ok.mp h
  obtain rfl := Except.ok.inj hbinding
  refine ⟨?_, rfl⟩
  obtain ⟨candidates, -, hresolved⟩ := Run.bind_eq_ok.mp hresolved
  split at hresolved
  · unfold resolveBuiltinOrMissing at hresolved
    split at hresolved
    · split at hresolved
      · cases hresolved
        rfl
      · simp [Run.fail] at hresolved
    · simp [Run.fail] at hresolved
  · obtain ⟨principal, -, hresolved⟩ := Run.bind_eq_ok.mp hresolved
    split at hresolved
    · obtain ⟨name, -, hresolved⟩ := Run.bind_eq_ok.mp hresolved
      simp [Run.fail] at hresolved
    · cases hresolved
      rfl
  · simp [Run.fail] at hresolved

/-- A guard is bound to the one strategy it names and sees, or to its built-in adapter. -/
theorem bindGuard_adapter (hmanaged : ∀ strategy ∈ strategies, WellManaged providers strategy)
    (h : bindGuard (some graph) modules providers strategies scopedGuard = .ok binding) :
    ((∀ strategy ∈ strategies, strategy.name = scopedGuard.guard.strategy →
          sees graph modules providers scopedGuard.contextModule strategy = false) ∧
        scopedGuard.guard.builtinAdapter = some binding.adapter) ∨
      ∃ strategy ∈ strategies, strategy.name = scopedGuard.guard.strategy ∧
        sees graph modules providers scopedGuard.contextModule strategy ∧
        (∀ other ∈ strategies, other.name = scopedGuard.guard.strategy →
          sees graph modules providers scopedGuard.contextModule other → other = strategy) ∧
        binding.adapter = strategy.adapter := by
  obtain ⟨resolved, hresolved, hbinding⟩ := Run.bind_eq_ok.mp h
  have hadapter : binding.adapter = resolved.adapter := by
    cases hbinding
    rfl
  have hvisible : visibleStrategies (some graph) modules providers strategies scopedGuard = _ :=
    visibleStrategies_ok hmanaged scopedGuard
  simp only [resolveScopedGuard, hvisible, Run.ok_bind] at hresolved
  rw [hadapter]
  split at hresolved
  · next hnone =>
    left
    refine ⟨fun strategy hmem hname => ?_, adapter_of_resolveBuiltinOrMissing hresolved⟩
    have hnot := List.filter_eq_nil_iff.mp hnone strategy hmem
    simpa [hname] using hnot
  · next strategy hone =>
    right
    have hmem : ∀ other, other ∈ strategies ∧ other.name = scopedGuard.guard.strategy ∧
        sees graph modules providers scopedGuard.contextModule other ↔ other = strategy := by
      intro other
      rw [← List.mem_singleton (a := other) (b := strategy), ← hone, List.mem_filter,
        Bool.and_eq_true, decide_eq_true_eq]
    obtain ⟨hstrategy, hname, hsees⟩ := (hmem strategy).mpr rfl
    exact ⟨strategy, hstrategy, hname, hsees,
      fun other hother hname hsees => (hmem other).mp ⟨hother, hname, hsees⟩,
      adapter_of_resolveCustomStrategy hresolved⟩
  · simp [Run.fail] at hresolved

end Bind

end Strategy

namespace Program

open MadsBuilder Strategy

variable (program : Program Config) (strategies : List PassportStrategyDescriptor)
  (builder : MadsBuilder Config) (moduleGraph : ModuleGraph)

/-- A declaration that the root reaches is taken for the service, by its type or by its name. -/
def StandsIn (serviceTypeId : TypeId) : Prop :=
  ∃ i context, Scope.ReachedFor moduleGraph program.modules
      (Catalog.providers program.environment.inventory) builder.satisfied i context ∧
    ((Scope.declaration (Catalog.providers program.environment.inventory) i).typeId =
        serviceTypeId ∨
      (Scope.declaration (Catalog.providers program.environment.inventory) i).runtimeTypeName =
        some Jwt.JWT_SERVICE_TYPE_NAME)

/-- What a guard resolves is there: what stands in for the service is one, and each strategy that
the guard names and sees has an available provider. -/
structure Served (serviceTypeId : TypeId) (scopedGuard : ScopedGuard) : Prop where
  service : StandsIn program builder moduleGraph serviceTypeId →
    Available program.environment builder moduleGraph serviceTypeId
  strategy : ∀ strategy ∈ strategies, strategy.name = scopedGuard.guard.strategy →
    sees moduleGraph program.modules (Catalog.providers program.environment.inventory)
      scopedGuard.contextModule strategy →
    Available program.environment builder moduleGraph strategy.providerTypeId

variable {program strategies builder moduleGraph}

/-- An integration that is linked into a finished application and required by its guards provides
the service, unless something stands in for it. -/
theorem available_service {settings : Jwt.Settings Config} {root : RustType}
    {application : Application Config}
    (hlinked : Jwt.descriptor settings program.environment.inventory program.controllers
      program.guards strategies ∈ program.environment.autoConfigurations)
    (hroot : builder.root = some root)
    (hgraph : buildModuleGraph root.typeId program.modules = .ok moduleGraph)
    (hbuild : build program.environment builder = .ok application)
    {bindings : List PassportStrategyBinding} (hne : bindings ≠ [])
    (hpreflight : PassportStrategyCatalog.preflightScoped program.environment.inventory strategies
      (some moduleGraph) (HttpApplicationScope.forModuleGraph program.modules program.controllers
        program.guards (some moduleGraph)).guards = .ok bindings)
    (hnone : ¬ StandsIn program builder moduleGraph settings.serviceTypeId) :
    Available program.environment builder moduleGraph settings.serviceTypeId := by
  left
  obtain ⟨scope, -, hscope, hnil, -⟩ := build_rooted hroot hgraph hbuild
  obtain ⟨hinitial, hconfigured, -, -⟩ := selectRooted_eq_ok.mp hscope
  obtain ⟨initialScope, hinitial', hbounded⟩ := selectScopedProviders_bounded moduleGraph
    program.modules (Catalog.providers program.environment.inventory) builder.satisfied
  obtain rfl : initialScope = scope.initialScope :=
    Except.ok.inj (hinitial'.symm.trans hinitial)
  have hunfailed := ((autoConfigure_selects program.environment builder
    scope.initialScope.descriptors (some moduleGraph)).unfailed (hconfigured ▸ hnil) _ hlinked).1
  by_cases hthere : settings.serviceTypeId ∈ builder.satisfied.map (·.typeId)
  · exact .inl hthere
  right
  refine ⟨_, hlinked, rfl, scope.initialScope, hinitial, ?_⟩
  let context := AutoConfiguration.contextFor builder.config builder.autoConfigurationInputs
    (some moduleGraph) scope.initialScope.descriptors builder.satisfied
    (Jwt.descriptor settings program.environment.inventory program.controllers program.guards
      strategies)
  have hevaluate : Jwt.evaluate settings program.environment.inventory program.controllers
      program.guards strategies context = _ := Jwt.evaluate_eq hpreflight
  change (Jwt.evaluate _ _ _ _ _ context).status ≠ .failed at hunfailed
  change (Jwt.evaluate _ _ _ _ _ context).status = .active
  rw [hevaluate] at hunfailed ⊢
  refine Jwt.active_of_required (Jwt.allRequirements_ne_nil (by simpa using hne)) ?_ hunfailed
  rw [AutoConfigurationContext.hasProvider, Bool.or_eq_false_iff]
  constructor
  · change builder.satisfied.any _ = false
    simpa using hthere
  · rw [List.any_eq_false]
    intro d hd hfound
    obtain ⟨i, context, hreached, rfl⟩ := hbounded.selects.mem_descriptors_iff.mp hd
    exact hnone ⟨i, context, hreached, by simpa using hfound⟩

/-- After a rooted build and its preflight, every guard finds what it resolves exactly where what it
names and sees is available. -/
theorem guards_resolve_iff (program : Program Config)
    (strategies : List PassportStrategyDescriptor) (settings : Jwt.Settings Config)
    (code : FnPtr → AdapterCode) (config : Config) (configType : RustType) (value : ErasedProvider)
    (requests : List (MadsBuilder.Request Config)) (root : RustType) (application : Application Config)
    (bindings : List PassportStrategyBinding)
    (hlinked : Jwt.descriptor settings program.environment.inventory program.controllers
      program.guards strategies ∈ program.environment.autoConfigurations)
    (hemits : EmitsAdapters code strategies (program.applicationScope application).guards)
    (hroot : ((new config configType value).run program.environment.inventory requests).root =
      some root)
    (hbuild : build program.environment
      ((new config configType value).run program.environment.inventory requests) =
        .ok application)
    (hpreflight : PassportStrategyCatalog.preflightScoped program.environment.inventory strategies
      application.moduleGraph (program.applicationScope application).guards = .ok bindings) :
    ∃ moduleGraph, buildModuleGraph root.typeId program.modules = .ok moduleGraph ∧
      ((∀ binding ∈ bindings, ∀ t ∈ (code binding.adapter).resolves settings.serviceTypeId,
          t ∈ application.context.registry.keys) ↔
        ∀ scopedGuard ∈ (program.applicationScope application).guards,
          Served program strategies
            ((new config configType value).run program.environment.inventory requests) moduleGraph
            settings.serviceTypeId scopedGuard) := by
  have hsound := (sound_new config configType value).run program.environment.inventory requests
  generalize (new config configType value).run program.environment.inventory requests = builder
    at hroot hbuild hsound ⊢
  obtain ⟨moduleGraph, hgraph⟩ := exists_moduleGraph hroot hbuild
  obtain ⟨-, -, -, -, -, -, -, ⟨ownership, hmodules⟩, -⟩ := build_rooted hroot hgraph hbuild
  refine ⟨moduleGraph, hgraph, ?_⟩
  rw [applicationScope, hmodules] at hpreflight hemits ⊢
  rw [preflightScoped_setProviderOwnership] at hpreflight
  obtain ⟨-, hmanaged, hmap⟩ := preflightScoped_eq_ok.mp hpreflight
  have hbound := fun scopedGuard binding => @bindGuard_adapter moduleGraph program.modules _ _
    scopedGuard binding (wellManaged_sorted hmanaged)
  obtain ⟨hforth, hback⟩ := Run.ok_of_mapM hmap
  simp only [PassportStrategyCatalog.strategies, mem_sortBy] at hforth hback hbound
  have hkey : ∀ t, t ∈ application.context.registry.keys ↔
      Available program.environment builder moduleGraph t :=
    fun _ => mem_registry_iff hsound hroot hgraph hbuild
  simp only [hkey]
  constructor
  · intro hresolved scopedGuard hguard
    obtain ⟨binding, hbinding, hok⟩ := hforth scopedGuard hguard
    refine ⟨fun _ => hresolved binding hbinding _ ?_, fun strategy hmem hname hsees => ?_⟩
    · cases code binding.adapter <;> simp [AdapterCode.resolves]
    · -- the guard is bound to this strategy
      obtain ⟨hnone, -⟩ | ⟨other, hother, -, -, hunique, hadapter⟩ := hbound scopedGuard binding hok
      · simp [hnone strategy hmem hname] at hsees
      · obtain rfl := hunique strategy hmem hname hsees
        apply hresolved binding hbinding
        rw [hadapter, hemits.strategy strategy hmem]
        simp [AdapterCode.resolves]
  · intro hserved binding hbinding
    obtain ⟨scopedGuard, hguard, hok⟩ := hback binding hbinding
    -- where nothing stands in for the service, the auto-configuration provides it
    have hservice : Available program.environment builder moduleGraph settings.serviceTypeId := by
      by_cases hstands : StandsIn program builder moduleGraph settings.serviceTypeId
      · exact (hserved scopedGuard hguard).service hstands
      · exact available_service hlinked hroot hgraph hbuild (List.ne_nil_of_mem hbinding)
          hpreflight hstands
    obtain ⟨-, hbuiltin⟩ | ⟨strategy, hmem, hname, hsees, -, hadapter⟩ :=
      hbound scopedGuard binding hok
    · rw [hemits.builtin scopedGuard hguard _ hbuiltin]
      simpa [AdapterCode.resolves] using hservice
    · rw [hadapter, hemits.strategy strategy hmem]
      have hprovider := (hserved scopedGuard hguard).strategy strategy hmem hname hsees
      simpa [AdapterCode.resolves] using ⟨hservice, hprovider⟩

/-! ### A strategy and its provider in different modules -/

def sampleSettings : Jwt.Settings Unit where
  accepts := fun _ => true
  signingConfigurationIsMissing := fun _ => false
  sourceOf := fun _ _ => none
  serviceTypeId := ⟨5⟩
  location := ⟨"jwt.rs", 1, 1⟩
  applier := 0

def guardedController : ControllerRouteDescriptor :=
  { userController with contracts := PassportStrategyCatalog.sampleGuarded.contracts }

/-- A guarded controller, and a strategy provider that an unreachable module owns. -/
def guardedInventory : Inventory where
  providers := userControllerProvider :: PassportStrategyCatalog.strayStrategyProvider ::
    sampleProviders
  modules := sampleModules

def guardedProgram (strategies : List PassportStrategyDescriptor) : Program Unit where
  environment := { sampleRooted with
    inventory := guardedInventory
    autoConfigurations :=
      [Jwt.descriptor sampleSettings guardedInventory [guardedController] [] strategies] }
  controllers := [guardedController]
  guards := []

/-- The strategy is implemented in a reachable module. -/
def misplacedStrategy : PassportStrategyDescriptor :=
  { PassportStrategyCatalog.strayStrategy with name := "jwt", namespace_ := some "app::users" }

def sampleCode (address : FnPtr) : AdapterCode := if address = 9 then .strategy ⟨4⟩ else .builtin

def buildSample (strategies : List PassportStrategyDescriptor) : Run Error (Application Unit) :=
  build (guardedProgram strategies).environment
    ((new () ⟨⟨0⟩, "Config"⟩ ⟨⟨0⟩, 0⟩).run guardedInventory [.root ⟨⟨10⟩, "App"⟩])

def preflightSample (strategies : List PassportStrategyDescriptor)
    (application : Application Unit) : Run Error (List PassportStrategyBinding) :=
  PassportStrategyCatalog.preflightScoped guardedInventory strategies application.moduleGraph
    ((guardedProgram strategies).applicationScope application).guards

/-- The registry of a sample application, the built-in adapters of its guards, and the adapters that
they are bound to. -/
def sampleOutcome (strategies : List PassportStrategyDescriptor) :
    Run Error (List TypeId × List (Option FnPtr) × List FnPtr) := do
  let application ← buildSample strategies
  let bindings ← preflightSample strategies application
  pure (application.context.registry.keys,
    ((guardedProgram strategies).applicationScope application).guards.map (·.guard.builtinAdapter),
    bindings.map (·.adapter))

theorem sampleOutcome_eq_ok {strategies : List PassportStrategyDescriptor} {keys : List TypeId}
    {adapters : List FnPtr} (h : sampleOutcome strategies = .ok (keys, [some 7], adapters)) :
    ∃ application bindings, buildSample strategies = .ok application ∧
      preflightSample strategies application = .ok bindings ∧
      application.context.registry.keys = keys ∧ bindings.map (·.adapter) = adapters ∧
      ∀ scopedGuard ∈ ((guardedProgram strategies).applicationScope application).guards,
        ∀ adapter, scopedGuard.guard.builtinAdapter = some adapter →
          sampleCode adapter = .builtin := by
  obtain ⟨application, hbuild, h⟩ := Run.bind_eq_ok.mp h
  obtain ⟨bindings, hpreflight, h⟩ := Run.bind_eq_ok.mp h
  obtain ⟨hkeys, hrest⟩ := Prod.mk.inj (Except.ok.inj h)
  obtain ⟨hbuiltin, hadapters⟩ := Prod.mk.inj hrest
  refine ⟨application, bindings, hbuild, hpreflight, hkeys, hadapters, ?_⟩
  intro scopedGuard hmem adapter hadapter
  have hseven : some adapter ∈ [some 7] := by
    rw [← hbuiltin, ← hadapter]
    exact List.mem_map_of_mem hmem
  obtain rfl : adapter = 7 := by simpa using hseven
  rfl

/-- Without the strategy, the guard uses its built-in adapter, and the integration is active for
it. -/
theorem guards_resolve_iff_sample :
    ∃ application bindings, buildSample [] = .ok application ∧
      preflightSample [] application = .ok bindings ∧ bindings ≠ [] ∧
      ∀ binding ∈ bindings,
        ∀ t ∈ (sampleCode binding.adapter).resolves sampleSettings.serviceTypeId,
          t ∈ application.context.registry.keys := by
  obtain ⟨application, bindings, hbuild, hpreflight, -, hadapters, hbuiltin⟩ :=
    @sampleOutcome_eq_ok [] [⟨0⟩, ⟨5⟩, ⟨2⟩, ⟨1⟩, ⟨3⟩] [7] (by decide +kernel)
  obtain ⟨moduleGraph, -, hiff⟩ := guards_resolve_iff (guardedProgram []) [] sampleSettings
    sampleCode () ⟨⟨0⟩, "Config"⟩ ⟨⟨0⟩, 0⟩ [.root ⟨⟨10⟩, "App"⟩] ⟨⟨10⟩, "App"⟩ application bindings
    (List.mem_singleton_self _) ⟨by simp, hbuiltin⟩ rfl hbuild hpreflight
  refine ⟨application, bindings, hbuild, hpreflight, ?_, hiff.mpr fun _ _ => ⟨?_, by simp⟩⟩
  · rintro rfl
    simp at hadapters
  · rintro ⟨i, context, -, hstands⟩
    have hnone : ∀ d ∈ Catalog.providers guardedInventory, d.typeId ≠ sampleSettings.serviceTypeId ∧
        d.runtimeTypeName ≠ some Jwt.JWT_SERVICE_TYPE_NAME := by decide +kernel
    obtain ⟨htype, hname⟩ := hnone _ (List.getElem_mem i.2)
    exact hstands.elim (absurd · htype) (absurd · hname)

/-- The guard is bound to the strategy, whose provider was never built. -/
theorem guards_unresolved_sample :
    ∃ application bindings, buildSample [misplacedStrategy] = .ok application ∧
      preflightSample [misplacedStrategy] application = .ok bindings ∧
      EmitsAdapters sampleCode [misplacedStrategy]
        ((guardedProgram [misplacedStrategy]).applicationScope application).guards ∧
      ∃ binding ∈ bindings,
        ∃ t ∈ (sampleCode binding.adapter).resolves sampleSettings.serviceTypeId,
          t ∉ application.context.registry.keys := by
  obtain ⟨application, bindings, hbuild, hpreflight, hkeys, hadapters, hbuiltin⟩ :=
    @sampleOutcome_eq_ok [misplacedStrategy] [⟨0⟩, ⟨5⟩, ⟨2⟩, ⟨1⟩, ⟨3⟩] [9] (by decide +kernel)
  have hmem : 9 ∈ bindings.map (·.adapter) := by
    rw [hadapters]
    exact List.mem_singleton_self _
  obtain ⟨binding, hbinding, hadapter⟩ := List.mem_map.mp hmem
  refine ⟨application, bindings, hbuild, hpreflight, ⟨?_, hbuiltin⟩, binding, hbinding, ⟨4⟩, ?_, ?_⟩
  · intro strategy hstrategy
    obtain rfl := List.mem_singleton.mp hstrategy
    rfl
  · rw [hadapter]
    decide
  · rw [hkeys]
    decide

end Program

end Mads
