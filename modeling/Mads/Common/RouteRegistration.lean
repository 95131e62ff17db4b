import Mads.Common.RouteConflicts

/-!
# Registration of what validation accepts

Registrars do nothing to the router but install the selected routes, so registration panics exactly
where the router does.
-/

namespace Mads

/-! ### Calls that only fail where they are not served -/

/-- A call returns and panics where another does, and may fail instead where it is not served. -/
inductive Run.Follows {α β : Type} (served : Prop) (R : α → β → Prop) :
    Run Error α → Except String β → Prop
  | returns {a : α} {b : β} (h : R a b) : Follows served R (.ok a) (.ok b)
  | panics (message : String) : Follows served R (.error (.panic message)) (.error message)
  | fails (error : Error) (other : Except String β) (h : ¬ served) :
    Follows served R (Run.fail error) other

namespace Run.Follows

variable {α β γ δ : Type} {served more : Prop} {R : α → β → Prop} {S : γ → δ → Prop}
  {call : Run Error α} {other : Except String β}

theorem mono (h : Follows served R call other) (himp : more → served) :
    Follows more R call other := by
  cases h with
  | returns h => exact .returns h
  | panics message => exact .panics message
  | fails error other hserved => exact .fails error other fun hmore => hserved (himp hmore)

theorem bind {f : α → Run Error γ} {g : β → Except String δ} (h : Follows served R call other)
    (hrest : ∀ a b, R a b → Follows more S (f a) (g b)) :
    Follows (served ∧ more) S (call >>= f) (other >>= g) := by
  cases h with
  | @returns a b hab => exact (hrest a b hab).mono And.right
  | panics message => exact .panics message
  | fails error other hserved => exact .fails error _ fun hboth => hserved hboth.1

theorem orPanic (f : β → α) (h : ∀ b, R (f b) b) (other : Except String β) :
    Follows served R (Run.orPanic other >>= fun b => pure (f b)) other := by
  cases other with
  | error message => exact .panics message
  | ok b => exact .returns (h b)

theorem checked {T : γ → β → Prop} {check : α → Run Error Unit} {f : α → γ}
    (h : Follows served R call other)
    (hcheck : ∀ a b, R a b → check a = .ok () ∧ T (f a) b) :
    Follows served T (call >>= fun a => check a >>= fun _ => pure (f a)) other := by
  cases h with
  | @returns a b hab =>
    obtain ⟨hok, hafter⟩ := hcheck a b hab
    rw [Run.ok_bind, hok]
    exact .returns hafter
  | panics message => exact .panics message
  | fails error other hserved => exact .fails error other hserved

/-- A call that is not followed by anything. -/
theorem of_returns (h : call.Returns) :
    Follows (∃ a, call = .ok a) (fun _ _ => True) call (.ok ()) := by
  cases hcall : call with
  | ok a => exact .returns trivial
  | error halt =>
    obtain ⟨error, rfl⟩ := h halt hcall
    exact .fails error _ nofun

theorem no_panic {b : β} (h : Follows served R call (.ok b)) (message : String) :
    call ≠ .error (.panic message) := by
  cases h <;> nofun

theorem panic_iff (h : Follows served R call other) (hserved : served) :
    (∃ message, call = .error (.panic message)) ↔ ¬ ∃ b, other = .ok b := by
  cases h with
  | @returns a b _ => exact iff_of_false (fun ⟨_, h⟩ => nomatch h) (fun h => h ⟨b, rfl⟩)
  | panics message => exact iff_of_true ⟨message, rfl⟩ (fun ⟨_, h⟩ => nomatch h)
  | fails error other h => exact absurd hserved h

end Run.Follows

theorem ProviderRegistry.resolve_returns (registry : ProviderRegistry) (typeId : TypeId)
    (typeName : String) : (registry.resolve typeId typeName).Returns := by
  unfold resolve
  split
  · exact .fail _
  · split
    · exact .ok _
    · exact .fail _

namespace Route

/-! ### Registrars -/

section

variable (runtime : RouterBuildContext)
  (selectionFor : ControllerRouteDescriptor → RouteDescriptor → RouteSelection)

/-- The guard of a route is bound for the module that selects it. -/
def Bound (selection : RouteSelection) (route : RouteDescriptor) : Prop :=
  ∀ guard, route.guard = some guard →
    ∃ binding, runtime.passportGuardState guard selection.passportContextModule = .ok binding

/-- The runtime has a controller, and the bindings of its selected routes. -/
def ServesController (controller : ControllerRouteDescriptor) : Prop :=
  (∃ value, runtime.registry.resolve controller.typeId controller.typeName = .ok value) ∧
    ∀ route ∈ selectedOf selectionFor controller (routesOf controller),
      Bound runtime (selectionFor controller route) route

def Serves (controllers : List ControllerRouteDescriptor) : Prop :=
  ∀ controller ∈ controllers, ServesController runtime selectionFor controller

variable {Router : Type} {library : RouterLibrary Router} {runtime} {selectionFor}

/-- The iterator moves on to the next route that was validated. -/
theorem next_validatedRoute {iter : ValidatedRouteIter} {selection : RouteSelection}
    {route : RouteDescriptor} {rest : List ValidatedRoute}
    (h : iter.routes = validatedRoute selection route :: rest) :
    iter.next route.method route.handler =
      .ok (if selection.selected then some (toAxumPath route.fullPath) else none,
        ⟨rest, if selection.selected then selection.passportContextModule else none⟩) := by
  unfold ValidatedRouteIter.next
  rw [h]
  by_cases hselected : selection.selected <;>
    simp [validatedRoute, hselected, Run.ensure, Run.expect]

theorem registerRoute_unselected {selection : RouteSelection} {route : RouteDescriptor}
    {rest : List ValidatedRoute} {state : Router × ValidatedRouteIter}
    (h : state.2.routes = validatedRoute selection route :: rest) (hselected : ¬ selection.selected) :
    registerRoute library runtime state route = .ok (state.1, ⟨rest, none⟩) := by
  rw [registerRoute, next_validatedRoute h, if_neg hselected, if_neg hselected]
  rfl

/-- A selected route is installed, where its guard is bound. -/
theorem registerRoute_selected {selection : RouteSelection} {route : RouteDescriptor}
    {rest : List ValidatedRoute} {state : Router × ValidatedRouteIter}
    (h : state.2.routes = validatedRoute selection route :: rest) (hselected : selection.selected) :
    Run.Follows (Bound runtime selection route) (fun after next => after.1 = next ∧
      after.2.routes = rest) (registerRoute library runtime state route)
      (library.route state.1 (toAxumPath route.fullPath) route.method) := by
  rw [registerRoute, next_validatedRoute h, if_pos hselected, if_pos hselected]
  let iter : ValidatedRouteIter := ⟨rest, selection.passportContextModule⟩
  have hroute : Run.Follows (Bound runtime selection route) (fun after next => after.1 = next ∧
      after.2.routes = rest)
      (Run.orPanic (library.route state.1 (toAxumPath route.fullPath) route.method) >>=
        fun router => pure (router, iter))
      (library.route state.1 (toAxumPath route.fullPath) route.method) :=
    Run.Follows.orPanic (fun router => (router, iter)) (fun _ => ⟨rfl, rfl⟩) _
  cases hguard : route.guard with
  | none =>
    simp only [Run.ok_bind]
    exact hroute
  | some guard =>
    simp only [Run.ok_bind]
    cases hbinding : bindingFor runtime.passport guard selection.passportContextModule with
    | none =>
      simp only [RouterBuildContext.passportGuardState, hbinding]
      refine .fails _ _ fun hbound => ?_
      obtain ⟨binding, h⟩ := hbound guard hguard
      rw [RouterBuildContext.passportGuardState, hbinding] at h
      cases h
    | some binding =>
      simp only [RouterBuildContext.passportGuardState, hbinding]
      exact hroute

/-- The routes of a controller are installed in their order. -/
theorem registerRoutes_follows {controller : ControllerRouteDescriptor}
    {routes : List RouteDescriptor} {state : Router × ValidatedRouteIter}
    (h : state.2.routes = validatedOf selectionFor controller routes) :
    Run.Follows (∀ route ∈ selectedOf selectionFor controller routes,
      Bound runtime (selectionFor controller route) route) (fun after next => after.1 = next ∧
      after.2.routes = []) (routes.foldlM (registerRoute library runtime) state)
      (install library state.1 ((selectedOf selectionFor controller routes).map entry)) := by
  induction routes generalizing state with
  | nil => exact .returns ⟨rfl, h⟩
  | cons route routes ih =>
    rw [List.foldlM_cons]
    by_cases hselected : (selectionFor controller route).selected
    · have hof : selectedOf selectionFor controller (route :: routes) =
          route :: selectedOf selectionFor controller routes := List.filter_cons_of_pos hselected
      rw [hof, List.map_cons, install_cons, List.forall_mem_cons]
      refine (registerRoute_selected h hselected).bind fun after next hafter => ?_
      rw [← hafter.1]
      exact ih hafter.2
    · have hof : selectedOf selectionFor controller (route :: routes) =
          selectedOf selectionFor controller routes := List.filter_cons_of_neg hselected
      rw [hof, registerRoute_unselected h hselected]
      exact ih rfl

theorem finish_ok {iter : ValidatedRouteIter} (h : iter.routes = []) : iter.finish = .ok () := by
  rw [ValidatedRouteIter.finish, h]
  rfl

theorem register_follows {controller : ControllerRouteDescriptor} {router : Router}
    {iter : ValidatedRouteIter}
    (h : iter.routes = validatedOf selectionFor controller (routesOf controller)) :
    Run.Follows (ServesController runtime selectionFor controller) (fun after next =>
      after.1 = next ∧ after.2.routes = []) (register library runtime controller router iter)
      (install library router
        ((selectedOf selectionFor controller (routesOf controller)).map entry)) := by
  have hresolve := Run.Follows.of_returns
    (runtime.registry.resolve_returns controller.typeId controller.typeName)
  refine hresolve.bind (g := fun _ => install library router _) fun _ _ _ => ?_
  show Run.Follows _ _ (List.foldlM (registerRoute library runtime) (router, iter)
    (routesOf controller) >>= fun after => after.2.finish >>= fun _ => pure (after.1, after.2)) _
  have hroutes : Run.Follows (∀ route ∈ selectedOf selectionFor controller (routesOf controller),
      Bound runtime (selectionFor controller route) route) (fun after next => after.1 = next ∧
      after.2.routes = [])
      ((routesOf controller).foldlM (registerRoute library runtime) (router, iter))
      (install library router
        ((selectedOf selectionFor controller (routesOf controller)).map entry)) :=
    registerRoutes_follows h
  exact hroutes.checked fun after next hafter => ⟨finish_ok hafter.2, hafter⟩

/-! ### Controllers -/

variable {code : FnPtr → ControllerRegistrar Router} {descriptors : List ControllerRouteDescriptor}

theorem registerController_follows {controller : ControllerRouteDescriptor}
    {kept : ValidatedController} (router : Router)
    (hcode : code kept.registrar =
      fun router runtime iter => register library runtime controller router iter)
    (hroutes : kept.routes = validatedOf selectionFor controller (routesOf controller)) :
    Run.Follows (ServesController runtime selectionFor controller) Eq
      (registerController code runtime router kept)
      (install library router
        ((selectedOf selectionFor controller (routesOf controller)).map entry)) := by
  rw [registerController, hcode]
  have hregister : Run.Follows (ServesController runtime selectionFor controller) (fun after next =>
      after.1 = next ∧ after.2.routes = []) (register library runtime controller router kept.iter)
      (install library router
        ((selectedOf selectionFor controller (routesOf controller)).map entry)) :=
    register_follows hroutes
  exact hregister.checked fun after next hafter => ⟨finish_ok hafter.2, hafter.1⟩

theorem registerControllers_follows {controllers : List ValidatedController} (router : Router)
    (hcode : EmitsRegistrars library code descriptors)
    (h : List.Forall₂ (fun controller kept => controller.registrar = some kept.registrar ∧
      kept.routes = validatedOf selectionFor controller (routesOf controller)) descriptors
      controllers) :
    Run.Follows (Serves runtime selectionFor descriptors) Eq
      (controllers.foldlM (registerController code runtime) router)
      (install library router ((selectedRoutes selectionFor descriptors).map entry)) := by
  induction h generalizing router with
  | nil => exact .returns rfl
  | @cons controller kept descriptors controllers hkept _ ih =>
    obtain ⟨hfirst, hrest⟩ := List.forall_mem_cons.mp hcode
    rw [List.foldlM_cons, selectedRoutes, List.flatMap_cons, List.map_append, install_append]
    have hcontroller : Run.Follows (ServesController runtime selectionFor controller) Eq _ _ :=
      registerController_follows router (hfirst kept.registrar hkept.1) hkept.2
    refine (hcontroller.bind fun after next hafter => ?_).mono List.forall_mem_cons.mp
    rw [hafter]
    exact ih next hrest

/-- Registration asks for every controller. -/
theorem resolves_of_registerControllers {controllers : List ValidatedController}
    {router after : Router} (hcode : EmitsRegistrars library code descriptors)
    (h : List.Forall₂ (fun controller kept => controller.registrar = some kept.registrar ∧
      kept.routes = validatedOf selectionFor controller (routesOf controller)) descriptors
      controllers)
    (hok : controllers.foldlM (registerController code runtime) router = .ok after) :
    ∀ controller ∈ descriptors, ∃ value,
      runtime.registry.resolve controller.typeId controller.typeName = .ok value := by
  induction h generalizing router with
  | nil => exact fun _ hnone => absurd hnone List.not_mem_nil
  | @cons controller kept descriptors controllers hkept _ ih =>
    obtain ⟨hfirst, hrest⟩ := List.forall_mem_cons.mp hcode
    rw [List.foldlM_cons] at hok
    obtain ⟨next, hnext, hok⟩ := Run.bind_eq_ok.mp hok
    rw [registerController, hfirst kept.registrar hkept.1] at hnext
    obtain ⟨state, hregister, -⟩ := Run.bind_eq_ok.mp hnext
    obtain ⟨value, hvalue, -⟩ := Run.bind_eq_ok.mp hregister
    exact List.forall_mem_cons.mpr ⟨⟨value, hvalue⟩, ih hrest hok⟩

end

/-! ### The routes of a scope -/

section

variable (controllers : List ScopedController)

def Selected (route : RouteDescriptor) : Prop :=
  ∃ kept ∈ controllers, route ∈ routesOf kept.descriptor ∧ kept.selects route

/-- Two selected routes have paths that differ in the names of parameters, and in nothing else. -/
def Clash : Prop :=
  ∃ left right, Selected controllers left ∧ Selected controllers right ∧ Clashing left right

/-- The runtime has every controller of the scope, and the bindings of its selected guards. -/
def ServesScope (runtime : RouterBuildContext) : Prop :=
  ∀ kept ∈ controllers,
    (∃ value, runtime.registry.resolve kept.descriptor.typeId kept.descriptor.typeName =
      .ok value) ∧
    ∀ route ∈ routesOf kept.descriptor, kept.selects route → ∀ guard, route.guard = some guard →
      ∃ binding, runtime.passportGuardState guard (kept.passportContextModule route) = .ok binding

variable {controllers}

/-- Distinct controllers are selected each on its own. -/
theorem scopedSelection_of_mem (hdistinct : (controllers.map (·.descriptor.typeId)).Nodup)
    {kept : ScopedController} (hkept : kept ∈ controllers) (route : RouteDescriptor) :
    scopedSelection controllers kept.descriptor route = ⟨kept.selects route,
      if kept.selects route then kept.passportContextModule route else none⟩ := by
  have hfind : controllers.find? (fun other => other.descriptor = kept.descriptor) = some kept := by
    cases hfound : controllers.find? (fun other => other.descriptor = kept.descriptor) with
    | none => simpa using List.find?_eq_none.mp hfound kept hkept
    | some other =>
      have heq : other.descriptor = kept.descriptor := by
        simpa using List.find?_some hfound
      have hother := List.mem_of_find?_eq_some hfound
      exact congrArg some (List.inj_on_of_nodup_map hdistinct hother hkept
        (congrArg (·.typeId) heq))
  rw [scopedSelection, hfind]

/-- The descriptors of a scope in the order of their registration. -/
def registrationOrder (controllers : List ScopedController) : List ControllerRouteDescriptor :=
  sortBy controllerSortOrder (controllers.map (·.descriptor))

theorem mem_registrationOrder {descriptor : ControllerRouteDescriptor} :
    descriptor ∈ registrationOrder controllers ↔
      ∃ kept ∈ controllers, kept.descriptor = descriptor := by
  rw [registrationOrder, mem_sortBy, List.mem_map]

variable {validated : List ValidatedController}

theorem accepted_of_validateScoped (h : validateScopedDescriptors controllers = .ok validated) :
    ∃ state, Accepted (scopedSelection controllers) (registrationOrder controllers) state ∧
      state.validated = validated :=
  accepted_of_validateWithSelection h

theorem typeIds_nodup (h : validateScopedDescriptors controllers = .ok validated) :
    (controllers.map (·.descriptor.typeId)).Nodup := by
  obtain ⟨state, haccepted, -⟩ := accepted_of_validateScoped h
  have hperm := (sortBy_perm controllerSortOrder (controllers.map (·.descriptor))).map (·.typeId)
  rw [List.map_map] at hperm
  exact hperm.nodup_iff.mp haccepted.types

theorem mem_selectedRoutes (h : validateScopedDescriptors controllers = .ok validated)
    {route : RouteDescriptor} :
    route ∈ selectedRoutes (scopedSelection controllers) (registrationOrder controllers) ↔
      Selected controllers route := by
  have hselection := fun kept (hkept : kept ∈ controllers) =>
    scopedSelection_of_mem (typeIds_nodup h) hkept
  rw [selectedRoutes, List.mem_flatMap]
  constructor
  · rintro ⟨descriptor, hdescriptor, hroute⟩
    obtain ⟨kept, hkept, rfl⟩ := mem_registrationOrder.mp hdescriptor
    obtain ⟨hmem, hselected⟩ := List.mem_filter.mp hroute
    rw [hselection kept hkept] at hselected
    exact ⟨kept, hkept, hmem, hselected⟩
  · rintro ⟨kept, hkept, hmem, hselected⟩
    refine ⟨kept.descriptor, mem_registrationOrder.mpr ⟨kept, hkept, rfl⟩, ?_⟩
    refine List.mem_filter.mpr ⟨hmem, ?_⟩
    rw [hselection kept hkept]
    exact hselected

theorem serves_of_servesScope (h : validateScopedDescriptors controllers = .ok validated)
    {runtime : RouterBuildContext} (hserves : ServesScope controllers runtime) :
    Serves runtime (scopedSelection controllers) (registrationOrder controllers) := by
  intro descriptor hdescriptor
  obtain ⟨kept, hkept, rfl⟩ := mem_registrationOrder.mp hdescriptor
  obtain ⟨hresolves, hguards⟩ := hserves kept hkept
  refine ⟨hresolves, fun route hroute guard hguard => ?_⟩
  obtain ⟨hmem, hselected⟩ := List.mem_filter.mp hroute
  rw [scopedSelection_of_mem (typeIds_nodup h) hkept] at hselected ⊢
  obtain ⟨binding, hbinding⟩ := hguards route hmem hselected guard hguard
  refine ⟨binding, ?_⟩
  rw [← hbinding]
  exact congrArg _ (if_pos hselected)

/-- The paths and methods that the router of a scope is asked to take. -/
def entries (controllers : List ScopedController) : List (String × HttpMethod) :=
  (selectedRoutes (scopedSelection controllers) (registrationOrder controllers)).map entry

section

variable {Router : Type} {library : RouterLibrary Router}
  {registered : Router → List (String × HttpMethod)} {code : FnPtr → ControllerRegistrar Router}

theorem install_entries (hlibrary : library.Lawful registered)
    (h : validateScopedDescriptors controllers = .ok validated) :
    (∃ router, install library library.new (entries controllers) = .ok router) ↔
      ¬ Clash controllers := by
  obtain ⟨state, haccepted, -⟩ := accepted_of_validateScoped h
  have hformed : ∀ path ∈ entries controllers, AxumPath.WellFormed path.1 := by
    intro path hpath
    obtain ⟨route, hroute, rfl⟩ := List.mem_map.mp hpath
    exact wellFormed_toAxumPath (haccepted.paths route hroute)
  rw [install_ok_iff hlibrary hformed, hlibrary.new, entries,
    pairwise_entry haccepted.paths haccepted.distinct]
  constructor
  · rintro ⟨-, hnone⟩ ⟨left, right, hleft, hright, hclashing⟩
    exact hnone left ((mem_selectedRoutes h).mpr hleft) right ((mem_selectedRoutes h).mpr hright)
      hclashing
  · intro hnone
    refine ⟨fun _ hold => absurd hold List.not_mem_nil, fun left hleft right hright hclashing => ?_⟩
    exact hnone ⟨left, right, (mem_selectedRoutes h).mp hleft, (mem_selectedRoutes h).mp hright,
      hclashing⟩

theorem registers_entries (hcode : EmitsRegistrars library code (controllers.map (·.descriptor)))
    (h : validateScopedDescriptors controllers = .ok validated) (runtime : RouterBuildContext) :
    Run.Follows (ServesScope controllers runtime) Eq
      (registerControllers library code runtime validated)
      (install library library.new (entries controllers)) := by
  obtain ⟨state, haccepted, rfl⟩ := accepted_of_validateScoped h
  have horder : EmitsRegistrars library code (registrationOrder controllers) := by
    intro descriptor hdescriptor
    exact hcode descriptor (mem_sortBy.mp hdescriptor)
  exact (registerControllers_follows library.new horder haccepted.validated).mono
    (serves_of_servesScope h)

theorem resolves_of_registers
    (hcode : EmitsRegistrars library code (controllers.map (·.descriptor)))
    (h : validateScopedDescriptors controllers = .ok validated) {runtime : RouterBuildContext}
    {router : Router} (hok : registerControllers library code runtime validated = .ok router) :
    ∀ kept ∈ controllers, ∃ value,
      runtime.registry.resolve kept.descriptor.typeId kept.descriptor.typeName = .ok value := by
  obtain ⟨state, haccepted, rfl⟩ := accepted_of_validateScoped h
  have horder : EmitsRegistrars library code (registrationOrder controllers) := by
    intro descriptor hdescriptor
    exact hcode descriptor (mem_sortBy.mp hdescriptor)
  intro kept hkept
  exact resolves_of_registerControllers horder haccepted.validated hok kept.descriptor
    (mem_registrationOrder.mpr ⟨kept, hkept, rfl⟩)

/-- Registration panics for two paths that differ in the names of parameters alone. Validation lets
them pass where their methods differ. -/
theorem registration_panics_iff (hlibrary : library.Lawful registered)
    (hcode : EmitsRegistrars library code (controllers.map (·.descriptor)))
    (h : validateScopedDescriptors controllers = .ok validated) :
    (¬ Clash controllers → ∀ runtime message,
      registerControllers library code runtime validated ≠ .error (.panic message)) ∧
    ∀ runtime, ServesScope controllers runtime →
      ((∃ message, registerControllers library code runtime validated = .error (.panic message)) ↔
        Clash controllers) := by
  have hinstall := install_entries hlibrary h
  refine ⟨fun hnone runtime message => ?_, fun runtime hserves => ?_⟩
  · obtain ⟨router, hrouter⟩ := hinstall.mpr hnone
    have hfollows := registers_entries hcode h runtime
    rw [hrouter] at hfollows
    exact hfollows.no_panic message
  · rw [(registers_entries hcode h runtime).panic_iff hserves, hinstall, not_not]

end

end

/-! ### A list of routes as a router -/

instance : DecidableRel AxumPath.Compatible := fun left right =>
  inferInstanceAs (Decidable (if left.1 = right.1 then left.2 ≠ right.2
    else AxumPath.erased left.1 ≠ AxumPath.erased right.1))

def listRouter : RouterLibrary (List (String × HttpMethod)) where
  new := []
  route router path method :=
    if ∀ entry ∈ router, AxumPath.Compatible entry (path, method) then
      .ok (router ++ [(path, method)])
    else .error ("Invalid route \"" ++ path ++ "\": insertion failed due to conflict")

theorem listRouter_lawful : listRouter.Lawful id where
  new := rfl
  takes _ _ _ _ h := ⟨_, if_pos h, rfl⟩
  rejects _ _ _ _ h := ⟨_, if_neg h⟩

def sampleRoute (method : HttpMethod) (path handler : String) : RouteDescriptor where
  method := method
  pathPrefix := "/users"
  path := path
  fullPath := "/users" ++ path
  handler := handler
  location := ⟨"src/users.rs", 4, 1⟩

def sampleController (routes : List RouteDescriptor) : ControllerRouteDescriptor where
  typeName := "app::UsersController"
  typeId := ⟨1⟩
  contracts := [⟨"Users", routes⟩]
  registrar := some 7

def sampleScope (routes : List RouteDescriptor) : List ScopedController :=
  [{ descriptor := sampleController routes
     selectedRoutes := routes.map (RouteIdentity.new (sampleController routes))
     contextModule := none }]

def sampleRegistrars (routes : List RouteDescriptor) :
    FnPtr → ControllerRegistrar (List (String × HttpMethod)) :=
  fun _ router runtime iter => register listRouter runtime (sampleController routes) router iter

def sampleRuntime : RouterBuildContext where
  registry := { values := [(⟨1⟩, ⟨⟨1⟩, 40⟩)] }
  passport := []

theorem sampleRegistrars_emits (routes : List RouteDescriptor) :
    EmitsRegistrars listRouter (sampleRegistrars routes)
      ((sampleScope routes).map (·.descriptor)) := by
  intro controller hcontroller registrar _
  obtain rfl : controller = sampleController routes := by simpa [sampleScope] using hcontroller
  rfl

def sharedRoutes : List RouteDescriptor :=
  [sampleRoute .get "/:id" "show", sampleRoute .post "/:id" "rename"]

def sharedValidated : List ValidatedController :=
  [⟨7, [⟨.get, "show", true, some "/users/\x7bid\x7d", none⟩,
    ⟨.post, "rename", true, some "/users/\x7bid\x7d", none⟩]⟩]

theorem sharedRoutes_fullPath {route : RouteDescriptor}
    (h : Selected (sampleScope sharedRoutes) route) : route.fullPath = "/users/:id" := by
  obtain ⟨kept, hkept, hroute, -⟩ := h
  obtain rfl := List.mem_singleton.mp hkept
  have hroute : route ∈ sharedRoutes := by
    simpa [routesOf, sampleController] using hroute
  simp only [sharedRoutes, List.mem_cons, List.not_mem_nil, or_false] at hroute
  obtain rfl | rfl := hroute <;> rfl

/-- One path with two methods is shared by its routes. -/
theorem registration_panics_iff_shared : ¬ ∃ message,
    registerControllers listRouter (sampleRegistrars sharedRoutes) sampleRuntime sharedValidated =
      .error (.panic message) := by
  rintro ⟨message, hpanic⟩
  have hvalid : validateScopedDescriptors (sampleScope sharedRoutes) = .ok sharedValidated := rfl
  refine (registration_panics_iff listRouter_lawful (sampleRegistrars_emits sharedRoutes)
    hvalid).1 ?_ sampleRuntime message hpanic
  rintro ⟨left, right, hleft, hright, hne, -⟩
  exact hne ((sharedRoutes_fullPath hleft).trans (sharedRoutes_fullPath hright).symm)

def clashingRoutes : List RouteDescriptor :=
  [sampleRoute .get "/:id" "show", sampleRoute .post "/:user_id" "rename"]

def clashingValidated : List ValidatedController :=
  [⟨7, [⟨.get, "show", true, some "/users/\x7bid\x7d", none⟩,
    ⟨.post, "rename", true, some "/users/\x7buser_id\x7d", none⟩]⟩]

/-- One controller that names a parameter in two ways is validated, and its registration panics. -/
theorem clashing_panics :
    listRouter.Lawful id ∧ EmitsRegistrars listRouter (sampleRegistrars clashingRoutes)
      ((sampleScope clashingRoutes).map (·.descriptor)) ∧
    validateScopedDescriptors (sampleScope clashingRoutes) = .ok clashingValidated ∧
    registerControllers listRouter (sampleRegistrars clashingRoutes) sampleRuntime
      clashingValidated = .error (.panic
        "Invalid route \"/users/\x7buser_id\x7d\": insertion failed due to conflict") :=
  ⟨listRouter_lawful, sampleRegistrars_emits clashingRoutes, rfl, rfl⟩

end Route

end Mads
