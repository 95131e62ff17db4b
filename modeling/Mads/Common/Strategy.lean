import Mads.Common.HttpScope
import Mads.Common.Jwt.Claims

/-!
# Managed Passport strategies and their preflight
-/

namespace Mads

/-- One managed strategy. The adapter resolves the provider type when a request comes in. -/
structure PassportStrategyDescriptor where
  name : String
  providerTypeId : TypeId
  providerTypeName : String
  namespace_ : Option String := none
  principalTypeId : TypeId
  principalTypeName : String
  tokenKind : JwtTokenKind
  location : SourceLocation
  adapter : FnPtr
  deriving DecidableEq, Repr

/-- The strategy selected for one guarded route. -/
structure PassportStrategyBinding where
  guard : GuardDescriptor
  contextModule : Option TypeId := none
  strategy : String
  adapter : FnPtr
  tokenKind : JwtTokenKind
  builtin : Bool
  deriving DecidableEq, Repr

namespace Strategy

/-- Strategies are compared by name, provider type name, namespace and location. -/
def strategyOrder : PassportStrategyDescriptor → PassportStrategyDescriptor → Ordering :=
  compareLex (compareLex (compareLex (compareOn (·.name)) (compareOn (·.providerTypeName)))
    (compareOn (·.namespace_)))
    (fun left right => locationOrder left.location right.location)

instance : Std.TransCmp strategyOrder :=
  have := transCmp_on locationOrder PassportStrategyDescriptor.location
  inferInstanceAs (Std.TransCmp (compareLex _ _))

def strategyError (reason title subject message : String) (location : SourceLocation)
    (suggestion : String) : Error where
  primary :=
    { code := MADS130
      title
      message := reason ++ ": " ++ message
      subject := some subject
      location := some location
      suggestions := [suggestion] }

/-! ### Validation of the catalog -/

/-- The token kind of a reserved strategy name, and the advice where it is not used. -/
def reservedTokenKind (name : String) : Option (JwtTokenKind × String) :=
  match name with
  | "jwt" => some (.access, "declare `JwtTokenKind::Access` for the reserved `jwt` strategy")
  | "jwt-refresh" =>
    some (.refresh, "declare `JwtTokenKind::Refresh` for the reserved `jwt-refresh` strategy")
  | _ => none

def validateReservedStrategyTokenKind (strategy : PassportStrategyDescriptor) : Run Error Unit :=
  match reservedTokenKind strategy.name with
  | none => pure ()
  | some (expected, suggestion) =>
    if strategy.tokenKind = expected then pure ()
    else Run.fail (strategyError "reserved_strategy_token_kind"
      "Passport strategy token kind mismatch" strategy.name
      ("the reserved `" ++ strategy.name ++ "` strategy accepts only " ++ expected.claimValue ++
        " tokens, but its adapter declares " ++ strategy.tokenKind.claimValue ++ " tokens")
      strategy.location suggestion)

def providerMatchesStrategy (strategy : PassportStrategyDescriptor)
    (provider : ProviderDescriptor) : Bool :=
  provider.typeId = strategy.providerTypeId &&
    provider.runtimeTypeName = some strategy.providerTypeName

/-- A strategy is implemented by exactly one managed provider. -/
def validateManagedProvider (providers : List ProviderDescriptor)
    (strategy : PassportStrategyDescriptor) : Run Error Unit :=
  match providers.filter (providerMatchesStrategy strategy) with
  | [_] => pure ()
  | [] => Run.fail (strategyError "unmanaged_strategy" "unmanaged Passport strategy"
      strategy.providerTypeName
      "the strategy implementation is not registered as exactly one managed provider"
      strategy.location
      "annotate the concrete strategy type with a MADS managed-provider attribute")
  | _ => Run.fail (strategyError "ambiguous_strategy" "ambiguous Passport strategy provider"
      strategy.providerTypeName
      "more than one managed provider descriptor matches this strategy implementation"
      strategy.location
      "retain exactly one managed provider declaration for the strategy type")

def validateStrategy (providers : List ProviderDescriptor)
    (strategy : PassportStrategyDescriptor) : Run Error Unit := do
  validateReservedStrategyTokenKind strategy
  validateManagedProvider providers strategy

def validateStrategyMetadata (providers : List ProviderDescriptor)
    (strategies : List PassportStrategyDescriptor) : Run Error Unit :=
  strategies.forM (validateStrategy providers)

def duplicateStrategyError (group : List PassportStrategyDescriptor) : Run Error Diagnostic := do
  let strategy ← Run.expect group.head? "duplicate strategy groups always have an entry"
  pure
    { code := MADS130
      title := "duplicate Passport strategy"
      message := "duplicate_strategy: more than one managed strategy uses this name"
      subject := some strategy.name
      location := some strategy.location
      suggestions := ["use a unique Passport strategy name"] }

def validateUniqueStrategyNames (strategies : List PassportStrategyDescriptor) :
    Run Error Unit := do
  let groups := strategies.splitBy (fun left right => left.name = right.name)
  match groups.filter (fun group => 1 < group.length) with
  | [] => pure ()
  | first :: rest =>
    let primary ← duplicateStrategyError first
    let related ← rest.mapM duplicateStrategyError
    Run.fail (Error.fromDiagnostics primary related)

def validateStrategyCatalog (providers : List ProviderDescriptor)
    (strategies : List PassportStrategyDescriptor) : Run Error Unit := do
  validateUniqueStrategyNames strategies
  validateStrategyMetadata providers strategies

/-! ### Resolution of guards -/

def strategyVisible (graph : ModuleGraph) (guardContext strategyOwner : TypeId)
    (providerVisibility : ProviderVisibility) : Bool :=
  guardContext = strategyOwner ||
    (providerVisibility = .public_ && graph.directlyImports guardContext strategyOwner)

/-- Whether a guard sees a strategy. A guard without a context sees all of them. -/
def scopedStrategyVisible (moduleGraph : Option ModuleGraph) (modules : List ModuleDescriptor)
    (providers : List ProviderDescriptor) (guardContext : Option TypeId)
    (strategy : PassportStrategyDescriptor) : Run Error Bool :=
  match moduleGraph, guardContext with
  | some graph, some guardContext =>
    match HttpScope.ownerForNamespace strategy.namespace_ modules with
    | none => pure false
    | some strategyOwner => do
      let provider ← Run.expect (providers.find? (providerMatchesStrategy strategy))
        "strategy metadata was validated before scoped resolution"
      pure (strategyVisible graph guardContext strategyOwner.typeId provider.visibility)
  | _, _ => pure true

def resolveCustomStrategy (guard : GuardDescriptor) (strategy : PassportStrategyDescriptor) :
    Run Error PassportStrategyBinding := do
  let principalTypeId ← Run.expect guard.principalTypeId
    "guard metadata was validated before strategy resolution"
  if principalTypeId ≠ strategy.principalTypeId then
    let principalTypeName ← Run.expect guard.principalTypeName
      "guard metadata was validated before strategy resolution"
    Run.fail (strategyError "principal_mismatch" "Passport strategy principal mismatch"
      guard.requirementSubject
      ("the guard requires `" ++ principalTypeName ++ "` but strategy `" ++ strategy.name ++
        "` returns `" ++ strategy.principalTypeName ++ "`")
      guard.location "declare the strategy principal type requested by the guard")
  else
    pure
      { guard
        strategy := strategy.name
        adapter := strategy.adapter
        tokenKind := strategy.tokenKind
        builtin := false }

def missingStrategyError (guard : GuardDescriptor) : Error :=
  strategyError "missing_strategy" "missing Passport strategy" guard.requirementSubject
    ("no managed strategy named `" ++ guard.strategy ++ "` can authenticate this guard")
    guard.location
    "register a matching managed Passport strategy or use ClaimsPrincipal<C> with `jwt`"

def resolveBuiltinOrMissing (guard : GuardDescriptor) : Run Error PassportStrategyBinding :=
  if guard.strategy = "jwt" then
    match guard.builtinAdapter with
    | some adapter => pure { guard, strategy := "jwt", adapter, tokenKind := .access, builtin := true }
    | none => Run.fail (missingStrategyError guard)
  else Run.fail (missingStrategyError guard)

def ambiguousScopedStrategyError (guard : GuardDescriptor) (guardContext : Option TypeId)
    (candidates : List PassportStrategyDescriptor) : Error :=
  let contextName := match guardContext with
    | none => "complete Passport catalog"
    | some context => "TypeId(" ++ toString context.id ++ ")"
  { primary :=
      { code := MADS130
        title := "ambiguous Passport strategy"
        message := "ambiguous_strategy: guard context `" ++ contextName ++
          "` can see more than one managed strategy named `" ++ guard.strategy ++ "`"
        subject := some guard.requirementSubject
        location := some guard.location
        suggestions := ["retain one context-visible Passport strategy for this guard"] }
    related := candidates.map fun strategy =>
      { code := MADS130
        title := "visible Passport strategy candidate"
        message := "candidate_strategy: `" ++ strategy.providerTypeName ++
          "` is visible to guard context `" ++ contextName ++ "`"
        subject := some strategy.name
        location := some strategy.location } }

variable (moduleGraph : Option ModuleGraph) (modules : List ModuleDescriptor)
  (providers : List ProviderDescriptor) (strategies : List PassportStrategyDescriptor)

/-- The strategies that a guard names and sees. -/
def visibleStrategies (scopedGuard : ScopedGuard) : Run Error (List PassportStrategyDescriptor) :=
  Run.filter (scopedStrategyVisible moduleGraph modules providers scopedGuard.contextModule)
    (strategies.filter (fun strategy => strategy.name = scopedGuard.guard.strategy))

def resolveScopedGuard (scopedGuard : ScopedGuard) : Run Error PassportStrategyBinding := do
  let candidates ← visibleStrategies moduleGraph modules providers strategies scopedGuard
  match candidates with
  | [] => resolveBuiltinOrMissing scopedGuard.guard
  | [strategy] => resolveCustomStrategy scopedGuard.guard strategy
  | _ => Run.fail (ambiguousScopedStrategyError scopedGuard.guard scopedGuard.contextModule
      candidates)

/-- The binding of a guard, with the module that selected the guard. -/
def bindGuard (scopedGuard : ScopedGuard) : Run Error PassportStrategyBinding := do
  let binding ← resolveScopedGuard moduleGraph modules providers strategies scopedGuard
  pure { binding with contextModule := scopedGuard.contextModule }

end Strategy

/-- The linked strategies in a fixed order. -/
def PassportStrategyCatalog.strategies (registered : List PassportStrategyDescriptor) :
    List PassportStrategyDescriptor :=
  sortBy Strategy.strategyOrder registered

namespace PassportStrategyCatalog

open Strategy in
/-- Resolves a strategy for each of the selected guards. -/
def preflightScoped (inventory : Inventory) (registered : List PassportStrategyDescriptor)
    (moduleGraph : Option ModuleGraph) (guards : List ScopedGuard) :
    Run Error (List PassportStrategyBinding) := do
  Guard.validateDescriptors (guards.map (·.guard))
  let strategies := strategies registered
  let providers := Catalog.providers inventory
  match moduleGraph with
  | none => validateStrategyCatalog providers strategies
  | some _ => validateStrategyMetadata providers strategies
  (sortBy (fun left right => Guard.guardOrder left.guard right.guard) guards).mapM
    (bindGuard moduleGraph (Catalog.modules inventory) providers strategies)

end PassportStrategyCatalog

end Mads
