import Mads.Common.Strategy
import Mads.Core.Isolation

/-!
# Strategies outside the scope of a root

The preflight of a rooted application validates every linked strategy, also those that no guard can
see. A strategy or provider outside of the root is noticed exactly where it does not pass.
-/

namespace Mads

/-! ### The guards of a rooted scope -/

namespace HttpScope

variable {graph : ModuleGraph} {modules : List ModuleDescriptor}

theorem reachable_of_routeContext {owner context : TypeId} {route : RouteDescriptor}
    (howner : isReachable graph owner) (h : routeContext graph modules (some owner) route =
      some context) : graph.isReachable context := by
  unfold routeContext at h
  split at h
  · split at h
    · next hreach =>
      obtain rfl := Option.some.inj h
      exact hreach
    · simp at h
  · obtain rfl := Option.some.inj h
    exact howner

theorem reachable_of_guardContext {routeContext : Option TypeId} {route : RouteDescriptor}
    (hroute : ∀ context, routeContext = some context → graph.isReachable context)
    {context : TypeId} (h : guardContext graph modules routeContext route = some context) :
    graph.isReachable context := by
  obtain ⟨guard, -, h⟩ := Option.bind_eq_some_iff.mp h
  obtain hown | ⟨-, hrest⟩ := Option.or_eq_some_iff.mp h
  · obtain ⟨owner, howner, rfl⟩ := Option.map_eq_some_iff.mp hown
    exact (Option.filter_eq_some_iff.mp howner).2
  · exact hroute context hrest

theorem reachable_of_selectRoute {descriptor : ControllerRouteDescriptor} {owner : TypeId}
    {route : RouteDescriptor} {identity : RouteIdentity} (howner : isReachable graph owner)
    (h : selectRoute graph modules descriptor (some owner) route = some identity)
    {context : TypeId} (hcontext : identity.passportContextModule = some context) :
    graph.isReachable context := by
  simp only [selectRoute] at h
  split at h
  · cases h
    exact reachable_of_guardContext (fun _ hroute => reachable_of_routeContext howner hroute)
      hcontext
  · cases h

theorem reachable_of_rootedController {descriptor : ControllerRouteDescriptor}
    {controller : ScopedController}
    (h : rootedController graph modules descriptor = some controller) {route : RouteDescriptor}
    {context : TypeId} (hcontext : controller.passportContextModule route = some context) :
    graph.isReachable context := by
  obtain ⟨owner, -, h⟩ := Option.bind_eq_some_iff.mp h
  split at h
  · next hreach =>
    cases h
    obtain ⟨identity, hfind, hidentity⟩ := Option.bind_eq_some_iff.mp hcontext
    have hmem := List.mem_of_find?_eq_some hfind
    obtain ⟨contract, -, hmem⟩ := List.mem_flatMap.mp hmem
    obtain ⟨route, -, hroute⟩ := List.mem_filterMap.mp hmem
    exact reachable_of_selectRoute hreach hroute hidentity
  · cases h

end HttpScope

/-- A guard of a rooted scope is resolved for a reachable module, or for none. -/
theorem HttpApplicationScope.reachable_of_mem_guards {graph : ModuleGraph}
    {modules : List ModuleDescriptor} {controllers : List ControllerRouteDescriptor}
    {guards : List GuardDescriptor} {scopedGuard : ScopedGuard}
    (h : scopedGuard ∈ (forModuleGraph modules controllers guards (some graph)).guards)
    {context : TypeId} (hcontext : scopedGuard.contextModule = some context) :
    graph.isReachable context := by
  obtain ⟨controller, hcontroller, hguard⟩ := List.mem_flatMap.mp h
  obtain ⟨descriptor, -, hrooted⟩ := List.mem_filterMap.mp hcontroller
  obtain ⟨route, -, hroute⟩ := List.mem_filterMap.mp hguard
  obtain ⟨guard, -, rfl⟩ := Option.map_eq_some_iff.mp hroute
  exact HttpScope.reachable_of_rootedController hrooted hcontext

/-! ### What a rooted preflight checks -/

namespace Strategy

/-- A strategy with a reserved name accepts the tokens of that name. -/
def keepsReserved (strategy : PassportStrategyDescriptor) : Bool :=
  (reservedTokenKind strategy.name).all (fun reserved => strategy.tokenKind = reserved.1)

/-- The metadata of a strategy is in order. -/
def WellManaged (providers : List ProviderDescriptor) (strategy : PassportStrategyDescriptor) :
    Prop :=
  keepsReserved strategy ∧ providers.countP (providerMatchesStrategy strategy) = 1

theorem validateReserved_eq_ok {strategy : PassportStrategyDescriptor} :
    validateReservedStrategyTokenKind strategy = .ok () ↔ keepsReserved strategy := by
  unfold validateReservedStrategyTokenKind keepsReserved
  cases reservedTokenKind strategy.name with
  | none => simp
  | some reserved =>
    by_cases hkind : strategy.tokenKind = reserved.1
    · simp [hkind]
    · simp [hkind, Run.fail]

theorem validateManagedProvider_eq_ok {providers : List ProviderDescriptor}
    {strategy : PassportStrategyDescriptor} :
    validateManagedProvider providers strategy = .ok () ↔
      providers.countP (providerMatchesStrategy strategy) = 1 := by
  rw [List.countP_eq_length_filter]
  unfold validateManagedProvider
  split
  · next h => simp [h]
  · next h => simp [h, Run.fail]
  · next hone hnone =>
    refine iff_of_false (by simp [Run.fail]) fun hlength => ?_
    obtain ⟨provider, hprovider⟩ := List.length_eq_one_iff.mp hlength
    exact hone provider hprovider

theorem validateStrategy_eq_ok {providers : List ProviderDescriptor}
    {strategy : PassportStrategyDescriptor} :
    validateStrategy providers strategy = .ok () ↔ WellManaged providers strategy := by
  unfold validateStrategy WellManaged
  rw [Run.bind_eq_ok, ← validateReserved_eq_ok, ← validateManagedProvider_eq_ok]
  exact ⟨fun ⟨_, h⟩ => h, fun h => ⟨(), h⟩⟩

theorem wellManaged_perm {providers others : List ProviderDescriptor}
    (h : providers.Perm others) {strategy : PassportStrategyDescriptor} :
    WellManaged providers strategy ↔ WellManaged others strategy := by
  rw [WellManaged, WellManaged, h.countP_eq]

theorem validateStrategyMetadata_eq_ok {inventory : Inventory}
    {registered : List PassportStrategyDescriptor} :
    validateStrategyMetadata (Catalog.providers inventory)
        (PassportStrategyCatalog.strategies registered) = .ok () ↔
      ∀ strategy ∈ registered, WellManaged inventory.providers strategy := by
  have hperm : (Catalog.providers inventory).Perm inventory.providers := sortBy_perm _ _
  unfold validateStrategyMetadata PassportStrategyCatalog.strategies
  rw [Run.forM_eq_ok]
  simp only [mem_sortBy, validateStrategy_eq_ok, wellManaged_perm hperm]

/-- Whether a guard of a rooted scope sees a strategy whose metadata is in order. -/
def sees (graph : ModuleGraph) (modules : List ModuleDescriptor)
    (providers : List ProviderDescriptor) (context : Option TypeId)
    (strategy : PassportStrategyDescriptor) : Bool :=
  match context with
  | none => true
  | some context =>
    (ownerOf strategy.namespace_ modules).any fun owner =>
      (providers.find? (providerMatchesStrategy strategy)).any fun provider =>
        strategyVisible graph context owner.typeId provider.visibility

section Visible

variable {graph : ModuleGraph} {modules : List ModuleDescriptor}
  {providers : List ProviderDescriptor} {strategies : List PassportStrategyDescriptor}

theorem scopedStrategyVisible_ok {strategy : PassportStrategyDescriptor}
    (h : WellManaged providers strategy) (context : Option TypeId) :
    scopedStrategyVisible (some graph) modules providers context strategy =
      .ok (sees graph modules providers context strategy) := by
  cases context with
  | none => rfl
  | some context =>
    have hpos : 0 < providers.countP (providerMatchesStrategy strategy) := by
      rw [h.2]
      exact Nat.one_pos
    obtain ⟨p, hp, hmatches⟩ := List.countP_pos_iff.mp hpos
    obtain ⟨provider, hprovider⟩ := Option.isSome_iff_exists.mp
      (List.find?_isSome.mpr ⟨p, hp, hmatches⟩)
    cases howner : ownerOf strategy.namespace_ modules with
    | none => simp [scopedStrategyVisible, HttpScope.ownerForNamespace, sees, howner]
    | some owner =>
      simp [scopedStrategyVisible, HttpScope.ownerForNamespace, sees, howner, hprovider]

theorem visibleStrategies_ok (h : ∀ strategy ∈ strategies, WellManaged providers strategy)
    (scopedGuard : ScopedGuard) :
    visibleStrategies (some graph) modules providers strategies scopedGuard =
      .ok (strategies.filter fun strategy => strategy.name = scopedGuard.guard.strategy &&
        sees graph modules providers scopedGuard.contextModule strategy) := by
  unfold visibleStrategies
  rw [Run.filter_ok fun strategy hmem =>
    scopedStrategyVisible_ok (h strategy (List.mem_filter.mp hmem).1) _, List.filter_filter]
  simp only [Bool.and_comm]

/-- No reachable module sees a strategy of an unreachable one. -/
theorem sees_outside {strategy : PassportStrategyDescriptor}
    (hout : Scope.Outside graph modules strategy.namespace_) {context : TypeId}
    (hcontext : graph.isReachable context) :
    sees graph modules providers (some context) strategy = false := by
  obtain ⟨owner, howner, hunreachable⟩ := hout
  have hself : context ≠ owner.typeId := by
    rintro rfl
    simp [hcontext] at hunreachable
  have himports : graph.directlyImports context owner.typeId = false := by
    cases h : graph.directlyImports context owner.typeId with
    | false => rfl
    | true => simp [ModuleGraph.isReachable_of_directlyImports h] at hunreachable
  simp [sees, howner, strategyVisible, hself, himports]

end Visible

theorem preflightScoped_eq_ok {graph : ModuleGraph} {inventory : Inventory}
    {registered : List PassportStrategyDescriptor} {guards : List ScopedGuard}
    {bindings : List PassportStrategyBinding} :
    PassportStrategyCatalog.preflightScoped inventory registered (some graph) guards =
        .ok bindings ↔
      Guard.validateDescriptors (guards.map (·.guard)) = .ok () ∧
      (∀ strategy ∈ registered, WellManaged inventory.providers strategy) ∧
      (sortBy (fun left right => Guard.guardOrder left.guard right.guard) guards).mapM
        (bindGuard (some graph) (Catalog.modules inventory) (Catalog.providers inventory)
          (PassportStrategyCatalog.strategies registered)) = .ok bindings := by
  simp only [PassportStrategyCatalog.preflightScoped, Run.bind_eq_ok]
  rw [← validateStrategyMetadata_eq_ok]
  constructor
  · rintro ⟨_, hguards, _, hmetadata, hmap⟩
    exact ⟨hguards, hmetadata, hmap⟩
  · rintro ⟨hguards, hmetadata, hmap⟩
    exact ⟨(), hguards, (), hmetadata, hmap⟩

section Ownership

variable (graph : ModuleGraph) (ownership : List ProviderOwnership)

theorem scopedStrategyVisible_setProviderOwnership (modules : List ModuleDescriptor)
    (providers : List ProviderDescriptor) :
    scopedStrategyVisible (some (graph.setProviderOwnership ownership)) modules providers =
      scopedStrategyVisible (some graph) modules providers := by
  funext context strategy
  cases context <;> rfl

theorem bindGuard_setProviderOwnership (modules : List ModuleDescriptor)
    (providers : List ProviderDescriptor) (strategies : List PassportStrategyDescriptor) :
    bindGuard (some (graph.setProviderOwnership ownership)) modules providers strategies =
      bindGuard (some graph) modules providers strategies := by
  funext scopedGuard
  unfold bindGuard resolveScopedGuard visibleStrategies
  rw [scopedStrategyVisible_setProviderOwnership]

/-- The owners recorded in a module graph play no part in the preflight. -/
theorem preflightScoped_setProviderOwnership (inventory : Inventory)
    (registered : List PassportStrategyDescriptor) (guards : List ScopedGuard) :
    PassportStrategyCatalog.preflightScoped inventory registered
        (some (graph.setProviderOwnership ownership)) guards =
      PassportStrategyCatalog.preflightScoped inventory registered (some graph) guards := by
  simp only [PassportStrategyCatalog.preflightScoped, bindGuard_setProviderOwnership]

end Ownership

/-! ### One strategy and one provider more -/

/-- An added strategy and an added provider that a rooted preflight passes over. -/
structure PassedOver (providers : List ProviderDescriptor)
    (registered : List PassportStrategyDescriptor) (guards : List ScopedGuard)
    (strategy? : Option PassportStrategyDescriptor) (provider? : Option ProviderDescriptor) :
    Prop where
  wellManaged : ∀ strategy, strategy? = some strategy → WellManaged providers strategy
  unnamed : ∀ strategy, strategy? = some strategy → ∀ scopedGuard ∈ guards,
    scopedGuard.contextModule = none → strategy.name ≠ scopedGuard.guard.strategy
  unmatched : ∀ provider, provider? = some provider → ∀ strategy ∈ registered,
    providerMatchesStrategy strategy provider = false

theorem builtin_of_resolveCustomStrategy {guard : GuardDescriptor}
    {strategy : PassportStrategyDescriptor} {binding : PassportStrategyBinding}
    (h : resolveCustomStrategy guard strategy = .ok binding) : binding.builtin = false := by
  obtain ⟨principal, -, h⟩ := Run.bind_eq_ok.mp h
  split at h
  · obtain ⟨name, -, h⟩ := Run.bind_eq_ok.mp h
    simp [Run.fail] at h
  · cases h
    rfl

theorem builtin_of_resolveBuiltinOrMissing {guard : GuardDescriptor}
    {binding : PassportStrategyBinding} (h : resolveBuiltinOrMissing guard = .ok binding) :
    binding.builtin = true := by
  unfold resolveBuiltinOrMissing at h
  split at h
  · split at h
    · cases h
      rfl
    · simp [Run.fail] at h
  · simp [Run.fail] at h

section Bind

variable {moduleGraph : Option ModuleGraph} {modules : List ModuleDescriptor}
  {providers others : List ProviderDescriptor}
  {strategies more candidates : List PassportStrategyDescriptor} {scopedGuard : ScopedGuard}
  {binding : PassportStrategyBinding}

/-- A binding is built in exactly where no strategy is visible, and otherwise one is. -/
theorem bindGuard_candidates
    (hvisible : visibleStrategies moduleGraph modules providers strategies scopedGuard =
      .ok candidates)
    (h : bindGuard moduleGraph modules providers strategies scopedGuard = .ok binding) :
    candidates.length = if binding.builtin then 0 else 1 := by
  obtain ⟨resolved, hresolved, hbinding⟩ := Run.bind_eq_ok.mp h
  have hbuiltin : binding.builtin = resolved.builtin := by
    cases hbinding
    rfl
  simp only [resolveScopedGuard, hvisible, Run.ok_bind] at hresolved
  rw [hbuiltin]
  split at hresolved
  · simp [builtin_of_resolveBuiltinOrMissing hresolved]
  · simp [builtin_of_resolveCustomStrategy hresolved]
  · simp [Run.fail] at hresolved

/-- A guard that is bound is not bound to the same strategy where it sees one more. -/
theorem bindGuard_ne {candidates' : List PassportStrategyDescriptor}
    {strategy : PassportStrategyDescriptor}
    (hfew : visibleStrategies moduleGraph modules providers strategies scopedGuard =
      .ok candidates)
    (hmany : visibleStrategies moduleGraph modules others more scopedGuard = .ok candidates')
    (hinserted : Inserted strategy candidates candidates')
    (h : bindGuard moduleGraph modules providers strategies scopedGuard = .ok binding) :
    bindGuard moduleGraph modules others more scopedGuard ≠ .ok binding := by
  intro h'
  have hlength := hinserted.length_eq
  rw [bindGuard_candidates hfew h, bindGuard_candidates hmany h'] at hlength
  omega

theorem bindGuard_congr
    (h : visibleStrategies moduleGraph modules others more scopedGuard =
      visibleStrategies moduleGraph modules providers strategies scopedGuard) :
    bindGuard moduleGraph modules others more scopedGuard =
      bindGuard moduleGraph modules providers strategies scopedGuard := by
  rw [bindGuard, bindGuard, resolveScopedGuard, resolveScopedGuard, h]

end Bind

section Added

variable {graph : ModuleGraph} {modules : List ModuleDescriptor}
  {providers others : List ProviderDescriptor}
  {strategies more : List PassportStrategyDescriptor}
  {strategy? : Option PassportStrategyDescriptor} {provider? : Option ProviderDescriptor}

/-- An added provider that matches no strategy is not looked at. -/
theorem sees_added {strategy : PassportStrategyDescriptor} {context : Option TypeId}
    (hinserted : InsertedOption provider? providers others)
    (hunmatched : ∀ provider, provider? = some provider →
      providerMatchesStrategy strategy provider = false) :
    sees graph modules others context strategy =
      sees graph modules providers context strategy := by
  cases context with
  | none => rfl
  | some context => rw [sees, sees, hinserted.find?_eq hunmatched]

/-- A guard of a reachable module sees the same strategies as before. -/
theorem visibleStrategies_added
    (hstrategies : InsertedOption strategy? strategies more)
    (hproviders : InsertedOption provider? providers others)
    (hout : ∀ strategy, strategy? = some strategy →
      Scope.Outside graph modules strategy.namespace_)
    (hold : ∀ strategy ∈ strategies, WellManaged providers strategy)
    (hnew : ∀ strategy ∈ more, WellManaged others strategy)
    (hunmatched : ∀ provider, provider? = some provider → ∀ strategy ∈ strategies,
      providerMatchesStrategy strategy provider = false)
    {scopedGuard : ScopedGuard} {context : TypeId}
    (hcontext : scopedGuard.contextModule = some context) (hreach : graph.isReachable context) :
    visibleStrategies (some graph) modules others more scopedGuard =
      visibleStrategies (some graph) modules providers strategies scopedGuard := by
  rw [visibleStrategies_ok hold, visibleStrategies_ok hnew, hcontext]
  congr 1
  rw [hstrategies.filter_eq fun strategy hstrategy => by
    rw [sees_outside (hout strategy hstrategy) hreach, Bool.and_false]]
  refine List.filter_congr fun strategy hmem => ?_
  rw [sees_added hproviders fun provider hprovider =>
    hunmatched provider hprovider strategy hmem]

/-- A guard without a module sees each strategy that it names. -/
theorem visibleStrategies_none
    (h : ∀ strategy ∈ strategies, WellManaged providers strategy) {scopedGuard : ScopedGuard}
    (hcontext : scopedGuard.contextModule = none) :
    visibleStrategies (some graph) modules providers strategies scopedGuard =
      .ok (strategies.filter fun strategy => strategy.name = scopedGuard.guard.strategy) := by
  rw [visibleStrategies_ok h, hcontext]
  simp only [sees, Bool.and_true]

end Added

theorem wellManaged_sorted {inventory : Inventory} {registered : List PassportStrategyDescriptor}
    (h : ∀ strategy ∈ registered, WellManaged inventory.providers strategy) :
    ∀ strategy ∈ PassportStrategyCatalog.strategies registered,
      WellManaged (Catalog.providers inventory) strategy :=
  fun strategy hmem => (wellManaged_perm (sortBy_perm _ _)).mpr (h strategy (mem_sortBy.mp hmem))

/-- The metadata stays in order exactly where that of the added strategy is, and where the added
provider is not a second one for a strategy that has its own. -/
theorem wellManaged_added_iff {providers others : List ProviderDescriptor}
    {registered more : List PassportStrategyDescriptor}
    {strategy? : Option PassportStrategyDescriptor} {provider? : Option ProviderDescriptor}
    (hstrategies : InsertedOption strategy? registered more)
    (hproviders : InsertedOption provider? providers others)
    (hold : ∀ strategy ∈ registered, WellManaged providers strategy) :
    (∀ strategy ∈ more, WellManaged others strategy) ↔
      (∀ strategy, strategy? = some strategy → WellManaged others strategy) ∧
      ∀ provider, provider? = some provider → ∀ strategy ∈ registered,
        providerMatchesStrategy strategy provider = false := by
  have hsame : ∀ strategy ∈ registered, (WellManaged others strategy ↔
      ∀ provider, provider? = some provider →
        providerMatchesStrategy strategy provider = false) := by
    intro strategy hmem
    obtain ⟨hkeeps, hcount⟩ := hold strategy hmem
    rw [← hproviders.countP_eq_iff, hcount, WellManaged]
    exact and_iff_right hkeeps
  constructor
  · intro h
    refine ⟨fun strategy hstrategy => h strategy (hstrategies.mem_iff.mpr (.inl hstrategy)), ?_⟩
    intro provider hprovider strategy hmem
    exact (hsame strategy hmem).mp (h strategy (hstrategies.mem_iff.mpr (.inr hmem)))
      provider hprovider
  · rintro ⟨hstrategy, hprovider⟩ strategy hmem
    cases hstrategies.mem_iff.mp hmem with
    | inl hnew => exact hstrategy strategy hnew
    | inr hmem => exact (hsame strategy hmem).mpr fun provider h => hprovider provider h _ hmem

end Strategy

namespace PassportStrategyCatalog

open Strategy

/-- A rooted preflight that succeeds goes on to succeed with the same bindings, after a strategy of
an unreachable module and a provider were linked in, exactly where it passes over them. -/
theorem preflightScoped_added_iff (graph : ModuleGraph) (inventory : Inventory)
    (providers : List ProviderDescriptor) (registered more : List PassportStrategyDescriptor)
    (controllers : List ControllerRouteDescriptor) (guards : List GuardDescriptor)
    (strategy? : Option PassportStrategyDescriptor) (provider? : Option ProviderDescriptor)
    (bindings : List PassportStrategyBinding)
    (hstrategies : InsertedOption strategy? registered more)
    (hproviders : InsertedOption provider? inventory.providers providers)
    (hout : ∀ strategy, strategy? = some strategy →
      Scope.Outside graph (Catalog.modules inventory) strategy.namespace_)
    (hok : preflightScoped inventory registered (some graph)
      (HttpApplicationScope.forModuleGraph (Catalog.modules inventory) controllers guards
        (some graph)).guards = .ok bindings) :
    preflightScoped { inventory with providers } more (some graph)
        (HttpApplicationScope.forModuleGraph (Catalog.modules inventory) controllers guards
          (some graph)).guards = .ok bindings ↔
      PassedOver providers registered
        (HttpApplicationScope.forModuleGraph (Catalog.modules inventory) controllers guards
          (some graph)).guards strategy? provider? := by
  have hreach : ∀ scopedGuard ∈ (HttpApplicationScope.forModuleGraph (Catalog.modules inventory)
      controllers guards (some graph)).guards, ∀ context,
      scopedGuard.contextModule = some context → graph.isReachable context :=
    fun _ hmem _ hcontext => HttpApplicationScope.reachable_of_mem_guards hmem hcontext
  -- the scoped guards do not depend on the strategies
  generalize (HttpApplicationScope.forModuleGraph (Catalog.modules inventory) controllers guards
    (some graph)).guards = scopedGuards at hok hreach ⊢
  obtain ⟨hguards, hold, hmap⟩ := preflightScoped_eq_ok.mp hok
  have hsorted : InsertedOption strategy? (strategies registered) (strategies more) :=
    sortBy_insertedOption strategyOrder hstrategies
  have hcatalog : InsertedOption provider? (Catalog.providers inventory)
      (Catalog.providers { inventory with providers }) :=
    sortBy_insertedOption descriptorOrder hproviders
  rw [preflightScoped_eq_ok, wellManaged_added_iff hstrategies hproviders hold,
    Run.mapM_congr_iff hmap]
  simp only [mem_sortBy]
  have hnew : ∀ h : (∀ strategy, strategy? = some strategy → WellManaged providers strategy) ∧
      ∀ provider, provider? = some provider → ∀ strategy ∈ registered,
        providerMatchesStrategy strategy provider = false,
      ∀ strategy ∈ strategies more,
        WellManaged (Catalog.providers { inventory with providers }) strategy :=
    fun h => wellManaged_sorted ((wellManaged_added_iff hstrategies hproviders hold).mpr h)
  constructor
  · -- a guard without a context that names the new strategy would be bound differently
    rintro ⟨-, hmanaged, hsame⟩
    refine ⟨hmanaged.1, ?_, hmanaged.2⟩
    rintro strategy rfl scopedGuard hmem hcontext hname
    obtain ⟨binding, -, hbinding⟩ := (Run.ok_of_mapM hmap).1 scopedGuard (mem_sortBy.mpr hmem)
    have hinserted := Inserted.filter_inserted (p := fun strategy =>
      decide (strategy.name = scopedGuard.guard.strategy)) hsorted (by simp [hname])
    have hne := bindGuard_ne (visibleStrategies_none (wellManaged_sorted hold) hcontext)
      (visibleStrategies_none (hnew hmanaged) hcontext) hinserted hbinding
    exact hne ((hsame scopedGuard hmem).trans hbinding)
  · rintro ⟨hmanaged, hunnamed, hunmatched⟩
    refine ⟨hguards, ⟨hmanaged, hunmatched⟩, fun scopedGuard hmem => ?_⟩
    apply bindGuard_congr
    cases hcontext : scopedGuard.contextModule with
    | none =>
      rw [visibleStrategies_none (wellManaged_sorted hold) hcontext,
        visibleStrategies_none (hnew ⟨hmanaged, hunmatched⟩) hcontext]
      congr 1
      exact hsorted.filter_eq fun strategy hstrategy => by
        simpa using hunnamed strategy hstrategy scopedGuard hmem hcontext
    | some context =>
      exact visibleStrategies_added hsorted hcatalog hout (wellManaged_sorted hold)
        (hnew ⟨hmanaged, hunmatched⟩)
        (fun provider hprovider strategy hmem => hunmatched provider hprovider strategy
          (mem_sortBy.mp hmem))
        hcontext (hreach scopedGuard hmem context hcontext)

def sampleGuard : GuardDescriptor where
  address := 1
  routeTrait := "UserRoutes"
  handler := "profile"
  strategy := "jwt"
  principalTypeId := some ⟨20⟩
  principalTypeName := some "User"
  source := .bearer
  roles := none
  permissions := none
  predicates := []
  location := ⟨"users.rs", 12, 1⟩
  builtinAdapter := some 7

def sampleGuarded : ControllerRouteDescriptor where
  typeName := "UserController"
  typeId := ⟨3⟩
  namespace_ := some "app::users"
  contracts := [⟨"UserRoutes", [
    { method := .get, pathPrefix := "/users", path := "/me", fullPath := "/users/me"
      handler := "profile", location := ⟨"users.rs", 11, 1⟩, guard := some sampleGuard }]⟩]

def sampleInventory : Inventory := MadsBuilder.sampleRooted.inventory

def sampleGuards : List ScopedGuard :=
  (HttpApplicationScope.forModuleGraph (Catalog.modules sampleInventory) [sampleGuarded] []
    (some MadsBuilder.sampleGraph)).guards

def sampleBinding : PassportStrategyBinding where
  guard := sampleGuard
  contextModule := some ⟨11⟩
  strategy := "jwt"
  adapter := 7
  tokenKind := .access
  builtin := true

/-- A strategy of an unreachable module. -/
def strayStrategy : PassportStrategyDescriptor where
  name := "reports"
  providerTypeId := ⟨4⟩
  providerTypeName := "ReportStrategy"
  namespace_ := some "admin"
  principalTypeId := ⟨20⟩
  principalTypeName := "User"
  tokenKind := .access
  location := ⟨"admin.rs", 8, 1⟩
  adapter := 9

/-- The provider that implements it. -/
def strayStrategyProvider : ProviderDescriptor where
  kind := .service
  typeName := "ReportStrategy"
  typeId := ⟨4⟩
  runtimeTypeName := some "ReportStrategy"
  namespace_ := some "admin"
  dependencies := []
  visibility := .private_
  location := ⟨"admin.rs", 7, 1⟩

theorem preflightScoped_added_iff_sample :
    preflightScoped { sampleInventory with
        providers := strayStrategyProvider :: MadsBuilder.sampleProviders } [strayStrategy]
      (some MadsBuilder.sampleGraph) sampleGuards = .ok [sampleBinding] := by
  refine (preflightScoped_added_iff MadsBuilder.sampleGraph sampleInventory
    (strayStrategyProvider :: MadsBuilder.sampleProviders) [] [strayStrategy] [sampleGuarded] []
    (some strayStrategy) (some strayStrategyProvider) [sampleBinding] (.here _) (.here _)
    ?_ (by decide +kernel)).mpr ⟨?_, ?_, ?_⟩
  · rintro _ ⟨⟩
    exact ⟨MadsBuilder.sampleAdmin, by decide +kernel, by decide +kernel⟩
  · rintro _ ⟨⟩
    exact ⟨by decide, by decide +kernel⟩
  · rintro _ ⟨⟩
    change ∀ scopedGuard ∈ sampleGuards, _
    decide +kernel
  · intro _ _ _ hmem
    simp at hmem

/-- Without that provider, the strategy of the unreachable module stops the preflight. -/
theorem preflightScoped_unmanaged_outside :
    buildModuleGraph ⟨10⟩ (Catalog.modules sampleInventory) = .ok MadsBuilder.sampleGraph ∧
    Scope.Outside MadsBuilder.sampleGraph (Catalog.modules sampleInventory)
      strayStrategy.namespace_ ∧
    preflightScoped sampleInventory [] (some MadsBuilder.sampleGraph) sampleGuards =
      .ok [sampleBinding] ∧
    ∃ error, error.primary.code = MADS130 ∧ error.primary.subject = some "ReportStrategy" ∧
      preflightScoped sampleInventory [strayStrategy] (some MadsBuilder.sampleGraph)
        sampleGuards = Run.fail error := by
  refine ⟨by decide +kernel, ⟨MadsBuilder.sampleAdmin, by decide +kernel, by decide +kernel⟩,
    by decide +kernel, strategyError "unmanaged_strategy" "unmanaged Passport strategy"
      "ReportStrategy"
      "the strategy implementation is not registered as exactly one managed provider"
      ⟨"admin.rs", 8, 1⟩
      "annotate the concrete strategy type with a MADS managed-provider attribute",
    rfl, rfl, by decide +kernel⟩

end PassportStrategyCatalog

end Mads
