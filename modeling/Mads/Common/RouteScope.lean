import Mads.Common.ControllerScope
import Mads.Common.RouteConflicts

/-!
# Which routes a rooted scope selects, and for which module

A selected route is looked up again by its method, full path and handler. Two contracts of one
controller may share these, and then one route stands for the other.
-/

namespace Mads

namespace HttpScope

open Route

variable (graph : ModuleGraph) (modules : List ModuleDescriptor)

/-- The owner of a namespace, where the root reaches it. -/
def reachableOwner (namespace_ : Option String) : Option TypeId :=
  ((ownerForNamespace namespace_ modules).filter fun owner => isReachable graph owner.typeId).map
    (·.typeId)

/-- A route of a controller in scope is in scope through its own module, or if it has none. -/
def RouteInScope (route : RouteDescriptor) : Prop :=
  (reachableOwner graph modules route.namespace_).isSome ∨
    ownerForNamespace route.namespace_ modules = none

/-- The module on whose behalf a guard is to be resolved: that of the guard, else that of the route,
else that of the controller. -/
def requiredContext (controllerOwner : TypeId) (route : RouteDescriptor)
    (guard : GuardDescriptor) : TypeId :=
  (reachableOwner graph modules guard.namespace_).getD
    ((reachableOwner graph modules route.namespace_).getD controllerOwner)

/-- What a scope selects of a controller follows the owners of its routes. -/
structure SelectsByOwner (scope : HttpApplicationScope) (descriptor : ControllerRouteDescriptor) :
    Prop where
  selected : ∀ route ∈ routesOf descriptor,
    (∃ kept ∈ scope.controllers, kept.descriptor = descriptor ∧ kept.selects route) ↔
      (reachableOwner graph modules descriptor.namespace_).isSome ∧
        RouteInScope graph modules route
  context : ∀ owner, reachableOwner graph modules descriptor.namespace_ = some owner →
    ∀ kept ∈ scope.controllers, kept.descriptor = descriptor →
      ∀ route ∈ routesOf descriptor, kept.selects route → ∀ guard, route.guard = some guard →
        kept.passportContextModule route = some (requiredContext graph modules owner route guard)

/-- What a route is looked up by. -/
def SameIdentity (left right : RouteDescriptor) : Prop :=
  left.method = right.method ∧ left.fullPath = right.fullPath ∧ left.handler = right.handler

/-- The first route in scope that the lookup of a route finds. -/
def StandsFor (descriptor : ControllerRouteDescriptor) (found route : RouteDescriptor) : Prop :=
  (RouteInScope graph modules found ∧ SameIdentity found route) ∧
    ∃ front back, routesOf descriptor = front ++ found :: back ∧
      ∀ earlier ∈ front, ¬ (RouteInScope graph modules earlier ∧ SameIdentity earlier route)

/-- Routes that are looked up alike are all in scope or all out of it, and the guard of the first
one is asked for on behalf of the same module. -/
structure IdentitiesAgree (owner : TypeId) (descriptor : ControllerRouteDescriptor) : Prop where
  selected : ∀ left ∈ routesOf descriptor, ∀ right ∈ routesOf descriptor,
    SameIdentity left right → RouteInScope graph modules left → RouteInScope graph modules right
  context : ∀ route ∈ routesOf descriptor, RouteInScope graph modules route →
    ∀ guard, route.guard = some guard → ∀ found, StandsFor graph modules descriptor found route →
      found.guard.map (requiredContext graph modules owner found) =
        some (requiredContext graph modules owner route guard)

end HttpScope

namespace RouteScope

open Route HttpScope HttpApplicationScope

variable {graph : ModuleGraph} {modules : List ModuleDescriptor}
  {descriptor : ControllerRouteDescriptor} {route : RouteDescriptor} {owner : TypeId}

/-! ### One route -/

theorem matches_iff {identity : RouteIdentity} : identity.matches_ descriptor route = true ↔
    identity.controller = descriptor.typeId ∧ identity.method = route.method ∧
      identity.fullPath = route.fullPath ∧ identity.handler = route.handler := by
  simp [RouteIdentity.matches_, and_assoc]

theorem matches_new_iff {other : RouteDescriptor} {context : Option TypeId} :
    ({ RouteIdentity.new descriptor other with passportContextModule := context }).matches_
      descriptor route = true ↔ SameIdentity other route :=
  matches_iff.trans (and_iff_right rfl)

theorem routeContext_of_inScope (h : RouteInScope graph modules route) :
    routeContext graph modules (some owner) route =
      some ((reachableOwner graph modules route.namespace_).getD owner) := by
  rw [RouteInScope, reachableOwner] at h
  rw [routeContext, reachableOwner]
  cases hroute : ownerForNamespace route.namespace_ modules with
  | none => rfl
  | some module_ =>
    rw [hroute] at h
    cases hreach : isReachable graph module_.typeId with
    | true => simp [Option.filter_some, hreach]
    | false => simp [Option.filter_some, hreach] at h

theorem routeContext_of_not_inScope (h : ¬ RouteInScope graph modules route) :
    routeContext graph modules (some owner) route = none := by
  rw [RouteInScope, not_or, reachableOwner] at h
  rw [routeContext]
  cases hroute : ownerForNamespace route.namespace_ modules with
  | none => exact absurd hroute h.2
  | some module_ =>
    rw [hroute] at h
    cases hreach : isReachable graph module_.typeId with
    | true => simp [Option.filter_some, hreach] at h
    | false => simp [hreach]

/-- A route in scope is selected with the module that its guard requires. -/
theorem selectRoute_of_inScope (h : RouteInScope graph modules route) :
    selectRoute graph modules descriptor (some owner) route =
      some { RouteIdentity.new descriptor route with
        passportContextModule := route.guard.map (requiredContext graph modules owner route) } := by
  rw [selectRoute, routeContext_of_inScope h]
  dsimp only
  rw [Option.isSome_some, if_pos rfl]
  congr 2
  rw [guardContext]
  cases hguard : route.guard with
  | none => rfl
  | some guard =>
    change (reachableOwner graph modules guard.namespace_).or _ = some _
    rw [requiredContext]
    cases reachableOwner graph modules guard.namespace_ <;> rfl

theorem selectRoute_of_not_inScope (h : ¬ RouteInScope graph modules route) :
    selectRoute graph modules descriptor (some owner) route = none := by
  rw [selectRoute, routeContext_of_not_inScope h]
  rfl

/-! ### One controller -/

theorem rootedController_of_some
    (h : reachableOwner graph modules descriptor.namespace_ = some owner) :
    rootedController graph modules descriptor = some
      { descriptor
        selectedRoutes := (routesOf descriptor).filterMap
          (selectRoute graph modules descriptor (some owner))
        contextModule := some owner } := by
  rw [reachableOwner, Option.map_eq_some_iff] at h
  obtain ⟨module_, hmodule, rfl⟩ := h
  rw [Option.filter_eq_some_iff] at hmodule
  obtain ⟨howner, hreach⟩ := hmodule
  rw [rootedController, howner]
  change (if isReachable graph module_.typeId = true then _ else _) = _
  rw [if_pos hreach, routesOf, List.filterMap_flatMap]

theorem rootedController_of_none
    (h : reachableOwner graph modules descriptor.namespace_ = none) :
    rootedController graph modules descriptor = none := by
  rw [reachableOwner, Option.map_eq_none_iff] at h
  rw [rootedController]
  cases howner : ownerForNamespace descriptor.namespace_ modules with
  | none => rfl
  | some module_ =>
    rw [howner] at h
    change (if isReachable graph module_.typeId = true then _ else _) = _
    rw [if_neg]
    exact fun hreach => by simp [Option.filter_some, hreach] at h

/-- A controller selects what is looked up like one of its routes in scope. -/
theorem selects_iff {kept : ScopedController}
    (howner : reachableOwner graph modules descriptor.namespace_ = some owner)
    (hkept : rootedController graph modules descriptor = some kept) :
    kept.selects route ↔
      ∃ other ∈ routesOf descriptor, RouteInScope graph modules other ∧
        SameIdentity other route := by
  rw [rootedController_of_some howner] at hkept
  obtain rfl := Option.some.inj hkept
  rw [ScopedController.selects, List.any_eq_true]
  constructor
  · rintro ⟨identity, hidentity, hmatches⟩
    obtain ⟨other, hother, hselect⟩ := List.mem_filterMap.mp hidentity
    by_cases hscope : RouteInScope graph modules other
    · rw [selectRoute_of_inScope hscope] at hselect
      obtain rfl := Option.some.inj hselect
      exact ⟨other, hother, hscope, matches_new_iff.mp hmatches⟩
    · rw [selectRoute_of_not_inScope hscope] at hselect
      cases hselect
  · rintro ⟨other, hother, hscope, hsame⟩
    exact ⟨_, List.mem_filterMap.mpr ⟨other, hother, selectRoute_of_inScope hscope⟩,
      matches_new_iff.mpr hsame⟩

/-- The lookup of a route answers for the first route in scope that it finds. -/
theorem passportContextModule_of_standsFor {kept : ScopedController} {found : RouteDescriptor}
    (howner : reachableOwner graph modules descriptor.namespace_ = some owner)
    (hkept : rootedController graph modules descriptor = some kept)
    (hfound : StandsFor graph modules descriptor found route) :
    kept.passportContextModule route =
      found.guard.map (requiredContext graph modules owner found) := by
  rw [rootedController_of_some howner] at hkept
  obtain rfl := Option.some.inj hkept
  obtain ⟨⟨hscope, hsame⟩, front, back, hsplit, hearlier⟩ := hfound
  have hfind : ((routesOf descriptor).find? fun other =>
      (selectRoute graph modules descriptor (some owner) other).any
        fun identity => identity.matches_ descriptor route) = some found := by
    rw [List.find?_eq_some_iff_append]
    refine ⟨?_, front, back, hsplit, fun earlier hmem => ?_⟩
    · rw [selectRoute_of_inScope hscope, Option.any_some]
      exact matches_new_iff.mpr hsame
    · by_cases hin : RouteInScope graph modules earlier
      · rw [selectRoute_of_inScope hin, Option.any_some, Bool.not_eq_true', ← Bool.not_eq_true,
          matches_new_iff]
        exact fun hsame => hearlier earlier hmem ⟨hin, hsame⟩
      · rw [selectRoute_of_not_inScope hin]
        rfl
  rw [ScopedController.passportContextModule, List.find?_filterMap, hfind, Option.bind_some,
    selectRoute_of_inScope hscope]
  rfl

/-- Whatever is selected is found as some route in scope. -/
theorem exists_standsFor {other : RouteDescriptor} (hother : other ∈ routesOf descriptor)
    (hscope : RouteInScope graph modules other) (hsame : SameIdentity other route) :
    ∃ found, StandsFor graph modules descriptor found route := by
  classical
  have hsome : ((routesOf descriptor).find? fun candidate =>
      decide (RouteInScope graph modules candidate ∧ SameIdentity candidate route)).isSome := by
    rw [List.find?_isSome]
    exact ⟨other, hother, decide_eq_true ⟨hscope, hsame⟩⟩
  obtain ⟨found, hfind⟩ := Option.isSome_iff_exists.mp hsome
  obtain ⟨hfound, front, back, hsplit, hearlier⟩ := List.find?_eq_some_iff_append.mp hfind
  refine ⟨found, of_decide_eq_true hfound, front, back, hsplit, ?_⟩
  intro earlier hmem
  have hunlike := hearlier earlier hmem
  rwa [Bool.not_eq_true', decide_eq_false_iff_not] at hunlike

/-- The rooted scope holds what is made of the registered controllers. -/
theorem mem_rooted_iff {controllers : List ControllerRouteDescriptor}
    (guards : List GuardDescriptor) (hmem : descriptor ∈ controllers) {kept : ScopedController} :
    kept ∈ (forModuleGraph modules controllers guards (some graph)).controllers ∧
        kept.descriptor = descriptor ↔
      rootedController graph modules descriptor = some kept := by
  change kept ∈ rootedControllers modules controllers graph ∧ _ ↔ _
  rw [rootedControllers, RouteCatalog.controllers, List.mem_filterMap]
  constructor
  · rintro ⟨⟨other, -, hother⟩, rfl⟩
    rwa [descriptor_of_rootedController hother]
  · intro hkept
    exact ⟨⟨descriptor, mem_sortBy.mpr hmem, hkept⟩, descriptor_of_rootedController hkept⟩

/-- Routes that are looked up apart from each other agree. -/
theorem identitiesAgree_of_distinct (h : ∀ left ∈ routesOf descriptor,
    ∀ right ∈ routesOf descriptor, SameIdentity left right → left = right) :
    IdentitiesAgree graph modules owner descriptor := by
  constructor
  · intro left hleft right hright hsame hscope
    rwa [← h left hleft right hright hsame]
  · rintro route hroute - guard hguard found ⟨⟨-, hsame⟩, front, back, hsplit, -⟩
    have hfound : found ∈ routesOf descriptor := by
      rw [hsplit]
      exact List.mem_append_right _ List.mem_cons_self
    obtain rfl := h found hfound route hroute hsame
    rw [hguard, Option.map_some]

end RouteScope

open HttpScope RouteScope in
/-- A rooted scope follows the owners of a controller's routes exactly if routes that are looked up
alike agree. -/
theorem rooted_scope_selects_iff (graph : ModuleGraph) (modules : List ModuleDescriptor)
    (controllers : List ControllerRouteDescriptor) (guards : List GuardDescriptor)
    (descriptor : ControllerRouteDescriptor) (hmem : descriptor ∈ controllers) :
    SelectsByOwner graph modules
        (HttpApplicationScope.forModuleGraph modules controllers guards (some graph)) descriptor ↔
      ∀ owner, reachableOwner graph modules descriptor.namespace_ = some owner →
        IdentitiesAgree graph modules owner descriptor := by
  constructor
  · intro hselects owner howner
    have hkept := rootedController_of_some howner
    obtain ⟨hscoped, hdescriptor⟩ := (mem_rooted_iff guards hmem).mpr hkept
    constructor
    · intro left hleft right hright hsame hscope
      have hselected := (selects_iff howner hkept).mpr ⟨left, hleft, hscope, hsame⟩
      exact ((hselects.selected right hright).mp ⟨_, hscoped, hdescriptor, hselected⟩).2
    · intro route hroute hscope guard hguard found hfound
      rw [← passportContextModule_of_standsFor howner hkept hfound]
      have hselected := (selects_iff howner hkept).mpr
        ⟨route, hroute, hscope, rfl, rfl, rfl⟩
      exact hselects.context owner howner _ hscoped hdescriptor route hroute hselected guard hguard
  · intro hagree
    constructor
    · intro route hroute
      cases howner : reachableOwner graph modules descriptor.namespace_ with
      | none =>
        -- a controller without a reachable owner is not kept at all
        refine iff_of_false ?_ (by simp)
        rintro ⟨kept, hscoped, hdescriptor, -⟩
        have hkept := (mem_rooted_iff guards hmem).mp ⟨hscoped, hdescriptor⟩
        rw [rootedController_of_none howner] at hkept
        cases hkept
      | some owner =>
        rw [Option.isSome_some, eq_self, true_and]
        constructor
        · rintro ⟨kept, hscoped, hdescriptor, hselected⟩
          have hkept := (mem_rooted_iff guards hmem).mp ⟨hscoped, hdescriptor⟩
          obtain ⟨other, hother, hscope, hsame⟩ := (selects_iff howner hkept).mp hselected
          exact (hagree owner howner).selected other hother route hroute hsame hscope
        · intro hscope
          have hkept := rootedController_of_some howner
          obtain ⟨hscoped, hdescriptor⟩ := (mem_rooted_iff guards hmem).mpr hkept
          exact ⟨_, hscoped, hdescriptor,
            (selects_iff howner hkept).mpr ⟨route, hroute, hscope, rfl, rfl, rfl⟩⟩
    · intro owner howner kept hscoped hdescriptor route hroute hselected guard hguard
      have hkept := (mem_rooted_iff guards hmem).mp ⟨hscoped, hdescriptor⟩
      obtain ⟨other, hother, hotherScope, hsame⟩ := (selects_iff howner hkept).mp hselected
      have hscope := (hagree owner howner).selected other hother route hroute hsame hotherScope
      obtain ⟨found, hfound⟩ := exists_standsFor hother hotherScope hsame
      rw [passportContextModule_of_standsFor howner hkept hfound]
      exact (hagree owner howner).context route hroute hscope guard hguard found hfound

/-- A guarded route of a contract in the controller's own module. -/
def listUsers : RouteDescriptor where
  method := .get
  pathPrefix := "/users"
  path := "/"
  fullPath := "/users"
  handler := "list"
  namespace_ := some "app::users"
  location := ⟨"users.rs", 9, 1⟩
  guard := some
    { address := 1, routeTrait := "UserRoutes", handler := "list", namespace_ := some "app::users"
      strategy := "session", principalTypeId := none, principalTypeName := none, source := .bearer
      roles := none, permissions := none, predicates := [], location := ⟨"users.rs", 9, 1⟩
      builtinAdapter := none }

/-- The same route in a contract of another module. -/
def listAdmins : RouteDescriptor :=
  { listUsers with
    namespace_ := some "admin"
    location := ⟨"admin.rs", 9, 1⟩
    guard := listUsers.guard.map fun guard =>
      { guard with
        address := 2
        routeTrait := "AdminRoutes"
        namespace_ := some "admin"
        location := ⟨"admin.rs", 9, 1⟩ } }

/-- A controller whose contracts give each route its own handler. -/
def splitController : ControllerRouteDescriptor :=
  { Program.userController with
    contracts := [⟨"UserRoutes", [listUsers]⟩,
      ⟨"AdminRoutes", [{ listAdmins with handler := "list_admins" }]⟩] }

open MadsBuilder HttpScope in
theorem rooted_scope_selects_iff_sample :
    SelectsByOwner sampleGraph sampleModules
      (HttpApplicationScope.forModuleGraph sampleModules [splitController] [] (some sampleGraph))
      splitController := by
  refine (rooted_scope_selects_iff sampleGraph sampleModules [splitController] [] splitController
    (List.mem_singleton_self _)).mpr fun owner _ => RouteScope.identitiesAgree_of_distinct ?_
  have hroutes : Route.routesOf splitController =
      [listUsers, { listAdmins with handler := "list_admins" }] := rfl
  simp [hroutes, SameIdentity, listUsers, listAdmins]

def sharedController : ControllerRouteDescriptor :=
  { Program.userController with
    contracts := [⟨"UserRoutes", [listUsers]⟩, ⟨"AdminRoutes", [listAdmins]⟩] }

open MadsBuilder HttpScope in
/-- The root does not reach the module of the second contract, and its route is selected, for the
module of the first. -/
theorem unreachable_route_selected :
    reachableOwner sampleGraph sampleModules listAdmins.namespace_ = none ∧
      (∃ kept ∈ (HttpApplicationScope.forModuleGraph sampleModules [sharedController] []
          (some sampleGraph)).controllers,
        kept.selects listAdmins ∧ kept.passportContextModule listAdmins = some ⟨11⟩) ∧
      ¬ SelectsByOwner sampleGraph sampleModules
        (HttpApplicationScope.forModuleGraph sampleModules [sharedController] []
          (some sampleGraph)) sharedController := by
  have hkept : ∃ kept, rootedController sampleGraph sampleModules sharedController = some kept ∧
      kept.selects listAdmins ∧ kept.passportContextModule listAdmins = some ⟨11⟩ :=
    ⟨_, rfl, by decide +kernel, by decide +kernel⟩
  obtain ⟨kept, hrooted, hselected, hcontext⟩ := hkept
  obtain ⟨hscoped, hdescriptor⟩ :=
    (RouteScope.mem_rooted_iff [] (List.mem_singleton_self _)).mpr hrooted
  refine ⟨by decide +kernel, ⟨kept, hscoped, hselected, hcontext⟩, fun hselects => ?_⟩
  obtain ⟨-, hin | hunowned⟩ := (hselects.selected listAdmins (by decide)).mp
    ⟨kept, hscoped, hdescriptor, hselected⟩
  · exact absurd hin (by decide +kernel)
  · exact absurd hunowned (by decide +kernel)

end Mads
