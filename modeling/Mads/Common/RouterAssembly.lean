import Mads.Common.RouteValidation
import Mads.Common.Strategy
import Mads.Core.Registry

/-!
# Registration of validated routes on a router
-/

namespace Mads

open Text

/-- The router of the library below. What it does not take it panics at, with a message. -/
structure RouterLibrary (Router : Type) where
  new : Router
  route : Router → String → HttpMethod → Except String Router

/-- A call that panics or returns. -/
def Run.orPanic {ε α : Type} : Except String α → Run ε α
  | .ok a => .ok a
  | .error message => .error (.panic message)

namespace Route

/-! ### The iterator that a registrar consumes -/

structure ValidatedRouteIter where
  routes : List ValidatedRoute
  passportContextModule : Option TypeId := none

def ValidatedController.iter (controller : ValidatedController) : ValidatedRouteIter where
  routes := controller.routes

namespace ValidatedRouteIter

/-- The path of the next route, if it is selected. -/
def next (iter : ValidatedRouteIter) (method : HttpMethod) (handler : String) :
    Run Error (Option String × ValidatedRouteIter) :=
  match iter.routes with
  | [] => Run.fail (metadataError "route registration"
      ("generated registrar requested unexpected route " ++ method.asStr ++ " `" ++ handler ++ "`")
      none)
  | route :: routes => do
    Run.ensure (route.method = method ∧ route.handler = handler) (metadataError "route registration"
      ("generated registrar requested " ++ method.asStr ++ " `" ++ handler ++
        "`, but validation supplied " ++ route.method.asStr ++ " `" ++ route.handler ++ "`") none)
    let iter : ValidatedRouteIter :=
      ⟨routes, if route.selected then route.passportContextModule else none⟩
    if route.selected then
      let path ← Run.expect route.axumPath "selected routes retain a validated Axum path"
      pure (some path, iter)
    else
      pure (none, iter)

def finish (iter : ValidatedRouteIter) : Run Error Unit :=
  match iter.routes with
  | [] => pure ()
  | route :: _ => Run.fail (metadataError "route registration"
      ("generated registrar did not register " ++ route.method.asStr ++ " `" ++ route.handler ++
        "`") none)

end ValidatedRouteIter

/-! ### Registrars -/

/-- What registrars share: the providers of the application, and the bindings of its guards. -/
structure RouterBuildContext where
  registry : ProviderRegistry
  passport : List PassportStrategyBinding

def missingScopedBindingError (guard : GuardDescriptor) : Error where
  primary :=
    { code := MADS130
      title := "missing scoped Passport binding"
      message := "the selected HTTP application has no preflight Passport strategy binding for " ++
        "this guard"
      subject := some guard.requirementSubject
      location := some guard.location
      suggestions := ["build the router from complete selected Passport guard metadata"] }

/-- Guards are static, so a binding is found by the address of its guard. -/
def bindingFor (bindings : List PassportStrategyBinding) (guard : GuardDescriptor)
    (contextModule : Option TypeId) : Option PassportStrategyBinding :=
  bindings.find? (fun binding =>
    binding.guard.address = guard.address && binding.contextModule = contextModule)

def RouterBuildContext.passportGuardState (runtime : RouterBuildContext) (guard : GuardDescriptor)
    (contextModule : Option TypeId) : Run Error PassportStrategyBinding :=
  Run.okOr (bindingFor runtime.passport guard contextModule) (missingScopedBindingError guard)

section

variable {Router : Type} (library : RouterLibrary Router) (runtime : RouterBuildContext)

/-- The code that the macro emits for one route. -/
def registerRoute (state : Router × ValidatedRouteIter) (route : RouteDescriptor) :
    Run Error (Router × ValidatedRouteIter) := do
  let (path, iter) ← state.2.next route.method route.handler
  match path with
  | none => pure (state.1, iter)
  | some path => do
    match route.guard with
    | none => pure ()
    | some guard => do
      let _ ← runtime.passportGuardState guard iter.passportContextModule
      pure ()
    let router ← Run.orPanic (library.route state.1 path route.method)
    pure (router, iter)

/-- The registrar that the macro emits for a controller. -/
def register (controller : ControllerRouteDescriptor) (router : Router)
    (iter : ValidatedRouteIter) : Run Error (Router × ValidatedRouteIter) := do
  let _ ← runtime.registry.resolve controller.typeId controller.typeName
  let (router, iter) ← (controller.contracts.flatMap (·.routes)).foldlM
    (registerRoute library runtime) (router, iter)
  iter.finish
  pure (router, iter)

end

/-- A registrar that is called with a router and the routes of its controller. -/
abbrev ControllerRegistrar (Router : Type) :=
  Router → RouterBuildContext → ValidatedRouteIter → Run Error (Router × ValidatedRouteIter)

section

variable {Router : Type} (library : RouterLibrary Router)
  (code : FnPtr → ControllerRegistrar Router) (runtime : RouterBuildContext)

def registerController (router : Router) (controller : ValidatedController) : Run Error Router := do
  let (router, iter) ← code controller.registrar router runtime controller.iter
  iter.finish
  pure router

/-- Registers all controllers on a new router. -/
def registerControllers (controllers : List ValidatedController) : Run Error Router :=
  controllers.foldlM (registerController code runtime) library.new

/-- The registrars are what the macro emits. -/
def EmitsRegistrars (controllers : List ControllerRouteDescriptor) : Prop :=
  ∀ controller ∈ controllers, ∀ registrar, controller.registrar = some registrar →
    code registrar = fun router runtime iter => register library runtime controller router iter

end

end Route

open Route in
/-- The router of an application with a registry and an HTTP scope. -/
def buildRouter {Router : Type} (library : RouterLibrary Router)
    (code : FnPtr → ControllerRegistrar Router) (inventory : Inventory)
    (strategies : List PassportStrategyDescriptor) (registry : ProviderRegistry)
    (moduleGraph : Option ModuleGraph) (scope : HttpApplicationScope) : Run Error Router := do
  let passport ← PassportStrategyCatalog.preflightScoped inventory strategies moduleGraph
    scope.guards
  let controllers ← validateScopedDescriptors scope.controllers
  registerControllers library code ⟨registry, passport⟩ controllers

end Mads
