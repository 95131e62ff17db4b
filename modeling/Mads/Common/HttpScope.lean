import Mads.Common.Route
import Mads.Core.ModuleGraph

/-!
# Controllers, routes and guards of one application
-/

namespace Mads

/-- A selected guard and the module that selected it. -/
structure ScopedGuard where
  guard : GuardDescriptor
  contextModule : Option TypeId
  deriving DecidableEq

/-- One route of one controller, with the module on whose behalf its guard is resolved. -/
structure RouteIdentity where
  controller : TypeId
  method : HttpMethod
  fullPath : String
  handler : String
  passportContextModule : Option TypeId := none
  deriving DecidableEq, Repr

namespace RouteIdentity

def new (controller : ControllerRouteDescriptor) (route : RouteDescriptor) : RouteIdentity where
  controller := controller.typeId
  method := route.method
  fullPath := route.fullPath
  handler := route.handler

def matches_ (identity : RouteIdentity) (controller : ControllerRouteDescriptor)
    (route : RouteDescriptor) : Bool :=
  identity.controller = controller.typeId && identity.method = route.method &&
    identity.fullPath = route.fullPath && identity.handler = route.handler

end RouteIdentity

/-- A controller selected for an application, with its selected routes. -/
structure ScopedController where
  descriptor : ControllerRouteDescriptor
  selectedRoutes : List RouteIdentity
  contextModule : Option TypeId
  deriving DecidableEq

namespace ScopedController

variable (controller : ScopedController)

def selects (route : RouteDescriptor) : Bool :=
  controller.selectedRoutes.any (fun identity => identity.matches_ controller.descriptor route)

def passportContextModule (route : RouteDescriptor) : Option TypeId := do
  let identity ← controller.selectedRoutes.find?
    (fun identity => identity.matches_ controller.descriptor route)
  identity.passportContextModule

def hasRoutes : Bool := !controller.selectedRoutes.isEmpty

end ScopedController

structure HttpApplicationScope where
  controllers : List ScopedController
  guards : List ScopedGuard
  deriving DecidableEq

namespace HttpScope

/-- The owner of a namespace, by the same rule as in provider selection. -/
def ownerForNamespace (namespace_ : Option String) (modules : List ModuleDescriptor) :
    Option ModuleDescriptor :=
  ownerOf namespace_ modules

def isReachable (graph : ModuleGraph) (module_ : TypeId) : Bool :=
  graph.modules.any (fun candidate => candidate.typeId = module_)

variable (graph : ModuleGraph) (modules : List ModuleDescriptor)

/-- The module of a route: its own reachable owner, or that of its controller where it is
unowned. -/
def routeContext (controllerContext : Option TypeId) (route : RouteDescriptor) : Option TypeId :=
  match ownerForNamespace route.namespace_ modules with
  | some owner => if isReachable graph owner.typeId then some owner.typeId else none
  | none => controllerContext

/-- The module on whose behalf the guard of a route is resolved. -/
def guardContext (routeContext : Option TypeId) (route : RouteDescriptor) : Option TypeId := do
  let guard ← route.guard
  (((ownerForNamespace guard.namespace_ modules).filter
    (fun owner => isReachable graph owner.typeId)).map (·.typeId)).or routeContext

def selectRoute (descriptor : ControllerRouteDescriptor) (contextModule : Option TypeId)
    (route : RouteDescriptor) : Option RouteIdentity :=
  let routeContext := routeContext graph modules contextModule route
  if routeContext.isSome then
    some { RouteIdentity.new descriptor route with
      passportContextModule := guardContext graph modules routeContext route }
  else none

def rootedController (descriptor : ControllerRouteDescriptor) : Option ScopedController := do
  let owner ← ownerForNamespace descriptor.namespace_ modules
  if isReachable graph owner.typeId then
    some
      { descriptor
        selectedRoutes := descriptor.contracts.flatMap fun contract =>
          contract.routes.filterMap (selectRoute graph modules descriptor (some owner.typeId))
        contextModule := some owner.typeId }
  else none

end HttpScope

namespace HttpApplicationScope

variable (modules : List ModuleDescriptor) (controllers : List ControllerRouteDescriptor)
  (guards : List GuardDescriptor)

def completeControllers : List ScopedController :=
  (RouteCatalog.controllers controllers).map fun descriptor =>
    { descriptor
      selectedRoutes := (descriptor.contracts.flatMap (·.routes)).map (RouteIdentity.new descriptor)
      contextModule := none }

def rootedControllers (graph : ModuleGraph) : List ScopedController :=
  (RouteCatalog.controllers controllers).filterMap (HttpScope.rootedController graph modules)

def selectedGuards (moduleGraph : Option ModuleGraph) (controllers : List ScopedController) :
    List ScopedGuard :=
  match moduleGraph with
  | none => (GuardCatalog.guards guards).map fun guard => { guard, contextModule := none }
  | some _ => controllers.flatMap fun controller =>
    ((controller.descriptor.contracts.flatMap (·.routes)).filter controller.selects).filterMap
      fun route => route.guard.map fun guard =>
        { guard, contextModule := controller.passportContextModule route }

/-- The scope of an application with or without a module graph. -/
def forModuleGraph (moduleGraph : Option ModuleGraph) : HttpApplicationScope :=
  let selected := match moduleGraph with
    | none => completeControllers controllers
    | some graph => rootedControllers modules controllers graph
  { controllers := selected
    guards := selectedGuards guards moduleGraph selected }

/-- The scope of an inspection. Without a module graph it is empty. -/
def forRootedInspection (moduleGraph : Option ModuleGraph) : HttpApplicationScope :=
  let selected := (moduleGraph.map (rootedControllers modules controllers)).getD []
  { controllers := selected
    guards := match moduleGraph with
      | some graph => selectedGuards guards (some graph) selected
      | none => [] }

section

variable (scope : HttpApplicationScope)

def hasRoutes : Bool := scope.controllers.any ScopedController.hasRoutes

/-- The selected routes, with what declares them. -/
def routeRecords :
    List (ControllerRouteDescriptor × RouteContractDescriptor × RouteDescriptor) :=
  scope.controllers.flatMap fun controller =>
    controller.descriptor.contracts.flatMap fun contract =>
      (contract.routes.filter controller.selects).map
        fun route => (controller.descriptor, contract, route)

end

end HttpApplicationScope

end Mads
