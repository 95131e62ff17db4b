import Mads.Common.Guard

/-!
# Static metadata of routes and controllers
-/

namespace Mads

inductive HttpMethod where
  | get
  | post
  | put
  | patch
  | delete
  deriving DecidableEq, Repr

structure RouteDescriptor where
  method : HttpMethod
  pathPrefix : String
  path : String
  fullPath : String
  handler : String
  namespace_ : Option String := none
  location : SourceLocation
  guard : Option GuardDescriptor := none
  deriving DecidableEq, Repr

structure RouteContractDescriptor where
  traitName : String
  routes : List RouteDescriptor
  deriving DecidableEq, Repr

/-- The routes a controller declares. The registrar is kept as an address. -/
structure ControllerRouteDescriptor where
  typeName : String
  typeId : TypeId
  namespace_ : Option String := none
  contracts : List RouteContractDescriptor
  registrar : Option FnPtr := none
  deriving DecidableEq, Repr

/-- Controllers are compared by type name, then namespace. -/
def controllerOrder : ControllerRouteDescriptor → ControllerRouteDescriptor → Ordering :=
  compareLex (compareOn (·.typeName)) (compareOn (·.namespace_))

instance : Std.TransCmp controllerOrder := inferInstanceAs (Std.TransCmp (compareLex _ _))

/-- The linked controllers in a fixed order. -/
def RouteCatalog.controllers (registered : List ControllerRouteDescriptor) :
    List ControllerRouteDescriptor :=
  sortBy controllerOrder registered

end Mads
