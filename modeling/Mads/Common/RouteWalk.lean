import Mads.Common.RouteRegistration

/-!
# Registrars as programs that walk the routes of their controller

A registrar sees the routes of its controller through the iterator alone: it asks for one after
another, or says that it has finished, and goes on as it is told, errors included.
-/

namespace Mads

namespace Route

/-- A failed call has moved the iterator on all the same. -/
def ValidatedRouteIter.skip (iter : ValidatedRouteIter) : ValidatedRouteIter :=
  { iter with routes := iter.routes.tail }

/-- What a registrar does next, given what the iterator tells it. -/
inductive Registrar (Router : Type) where
  | stop (outcome : Run Error Router)
  | next (method : HttpMethod) (handler : String)
      (go : Except Error (Option String × Option TypeId) → Registrar Router)
  | finish (go : Except Error Unit → Registrar Router)

/-- A call of the iterator, with what it told. -/
inductive Call where
  | next (method : HttpMethod) (handler : String) (answer : Except Error (Option String))
  | finish (answer : Except Error Unit)

namespace Call

def Succeeds : Call → Prop
  | next _ _ (.ok _) | finish (.ok _) => True
  | next _ _ (.error _) | finish (.error _) => False

/-- The route that a call asked for, and the path it got. -/
def asked : Call → Option (HttpMethod × String × Option String)
  | next method handler (.ok path) => some (method, handler, path)
  | next _ _ (.error _) | finish _ => none

end Call

namespace Registrar

variable {Router : Type}

/-- A run on an iterator. A panic ends it. -/
def run : Registrar Router → ValidatedRouteIter → Run Error (Router × ValidatedRouteIter)
  | stop outcome, iter => do
    let router ← outcome
    pure (router, iter)
  | next method handler go, iter =>
    match iter.next method handler with
    | .ok (path, after) => (go (.ok (path, after.passportContextModule))).run after
    | .error (.err error) => (go (.error error)).run iter.skip
    | .error halt => .error halt
  | finish go, iter =>
    match iter.finish with
    | .ok () => (go (.ok ())).run iter
    | .error (.err error) => (go (.error error)).run iter.skip
    | .error halt => .error halt

/-- The calls of a run. -/
def calls : Registrar Router → ValidatedRouteIter → List Call
  | stop _, _ => []
  | next method handler go, iter =>
    match iter.next method handler with
    | .ok (path, after) => .next method handler (.ok path) ::
        (go (.ok (path, after.passportContextModule))).calls after
    | .error (.err error) => .next method handler (.error error) ::
        (go (.error error)).calls iter.skip
    | .error _ => []
  | finish go, iter =>
    match iter.finish with
    | .ok () => .finish (.ok ()) :: (go (.ok ())).calls iter
    | .error (.err error) => .finish (.error error) :: (go (.error error)).calls iter.skip
    | .error _ => []

/-- The registrar returns the errors it gets. -/
def PassesErrors : Registrar Router → Prop
  | stop _ => True
  | next _ _ go => (∀ error, go (.error error) = stop (Run.fail error)) ∧
      ∀ answer, (go (.ok answer)).PassesErrors
  | finish go => (∀ error, go (.error error) = stop (Run.fail error)) ∧
      (go (.ok ())).PassesErrors

end Registrar

/-- What the iterator tells of a route. -/
def ValidatedRoute.answer (route : ValidatedRoute) : Option String × Option TypeId :=
  if route.selected then (route.axumPath, route.passportContextModule) else (none, none)

/-- What validation leaves of a route: a path exactly where it is selected. -/
def ValidatedRoute.Lawful (route : ValidatedRoute) : Prop := route.selected = route.axumPath.isSome

namespace Registrar

variable {Router : Type}

/-- Where only routes in this order are left, the registrar asks for one too many, for another than
the next, or leaves some. -/
def Mismatch : Registrar Router → List ValidatedRoute → Prop
  | stop outcome, routes => (∃ router, outcome = .ok router) ∧ routes ≠ []
  | next _ _ _, [] => True
  | next method handler go, route :: routes => (method, handler) ≠ (route.method, route.handler) ∨
      (go (.ok route.answer)).Mismatch routes
  | finish go, [] => (go (.ok ())).Mismatch []
  | finish _, _ :: _ => True

end Registrar

/-! ### Single calls -/

variable {route : ValidatedRoute} {routes : List ValidatedRoute} {iter : ValidatedRouteIter}

theorem next_nil (method : HttpMethod) (handler : String) (h : iter.routes = []) :
    ∃ error, iter.next method handler = .error (.err error) := by
  rw [ValidatedRouteIter.next, h]
  exact ⟨_, rfl⟩

/-- The next route is told where method and handler agree, and no other is. -/
theorem next_cons (method : HttpMethod) (handler : String) (hroute : route.Lawful)
    (h : iter.routes = route :: routes) :
    ((method, handler) = (route.method, route.handler) ∧
      iter.next method handler = .ok (route.answer.1, ⟨routes, route.answer.2⟩)) ∨
    ((method, handler) ≠ (route.method, route.handler) ∧
      ∃ error, iter.next method handler = .error (.err error)) := by
  rw [ValidatedRouteIter.next, h]
  by_cases hsame : route.method = method ∧ route.handler = handler
  · refine .inl ⟨by rw [hsame.1, hsame.2], ?_⟩
    rw [ValidatedRoute.Lawful] at hroute
    cases hselected : route.selected with
    | false => simp [Run.ensure, hsame, hselected, ValidatedRoute.answer]
    | true =>
      rw [hselected] at hroute
      obtain ⟨path, hpath⟩ := Option.isSome_iff_exists.mp hroute.symm
      simp [Run.ensure, hsame, hselected, hpath, ValidatedRoute.answer]
  · refine .inr ⟨fun heq => hsame ?_, ?_⟩
    · obtain ⟨rfl, rfl⟩ := Prod.mk.inj heq
      exact ⟨rfl, rfl⟩
    · simp only [Run.ensure, if_neg hsame]
      exact ⟨_, rfl⟩

theorem finish_cons (h : iter.routes = route :: routes) :
    ∃ error, iter.finish = .error (.err error) := by
  rw [ValidatedRouteIter.finish, h]
  exact ⟨_, rfl⟩

/-- The call that asks for a route in its turn, and what it gets. -/
def ValidatedRoute.request (route : ValidatedRoute) : HttpMethod × String × Option String :=
  (route.method, route.handler, route.answer.1)

/-! ### Runs -/

namespace Registrar

variable {Router : Type} {registrar : Registrar Router} {router : Router}

/-- A run in which no call fails asks for routes in their order, from the first on. -/
theorem asked_of_run {after : ValidatedRouteIter} (hlawful : ∀ route ∈ iter.routes, route.Lawful)
    (hrun : registrar.run iter = .ok (router, after))
    (hcalls : ∀ call ∈ registrar.calls iter, call.Succeeds) :
    ∃ used, iter.routes = used ++ after.routes ∧
      (registrar.calls iter).filterMap Call.asked = used.map ValidatedRoute.request := by
  induction registrar generalizing iter with
  | stop outcome =>
    rw [run] at hrun
    obtain ⟨router, -, hrun⟩ := Run.bind_eq_ok.mp hrun
    obtain ⟨-, rfl⟩ := Prod.mk.inj (Except.ok.inj hrun)
    exact ⟨[], rfl, rfl⟩
  | next method handler go ih =>
    rw [run] at hrun
    rw [calls] at hcalls ⊢
    cases hroutes : iter.routes with
    | nil =>
      obtain ⟨error, hnext⟩ := next_nil method handler hroutes
      rw [hnext] at hcalls
      exact (hcalls _ List.mem_cons_self).elim
    | cons route routes =>
      rw [hroutes, List.forall_mem_cons] at hlawful
      obtain ⟨hsame, hnext⟩ | ⟨-, error, hnext⟩ :=
        next_cons method handler hlawful.1 hroutes
      · rw [hnext] at hrun hcalls ⊢
        obtain ⟨used, hused, hasked⟩ := ih _ hlawful.2 hrun (List.forall_mem_cons.mp hcalls).2
        obtain ⟨rfl, rfl⟩ := Prod.mk.inj hsame
        refine ⟨route :: used, by rw [List.cons_append, ← hused], ?_⟩
        rw [List.map_cons, ← hasked]
        rfl
      · rw [hnext] at hcalls
        exact (hcalls _ List.mem_cons_self).elim
  | finish go ih =>
    rw [run] at hrun
    rw [calls] at hcalls ⊢
    cases hroutes : iter.routes with
    | nil =>
      rw [finish_ok hroutes] at hrun hcalls ⊢
      obtain ⟨used, hused, hasked⟩ := ih _ hlawful hrun (List.forall_mem_cons.mp hcalls).2
      refine ⟨used, by rw [← hused, hroutes], ?_⟩
      rw [← hasked]
      rfl
    | cons route routes =>
      obtain ⟨error, hfinish⟩ := finish_cons hroutes
      rw [hfinish] at hcalls
      exact (hcalls _ List.mem_cons_self).elim

/-- No call of a completed run fails where the registrar returns the errors it gets. -/
theorem succeeds_of_passesErrors {after : ValidatedRouteIter} (hpasses : registrar.PassesErrors)
    (hrun : registrar.run iter = .ok (router, after)) :
    ∀ call ∈ registrar.calls iter, call.Succeeds := by
  induction registrar generalizing iter with
  | stop outcome => exact fun call h => absurd h List.not_mem_nil
  | next method handler go ih =>
    rw [run] at hrun
    rw [calls]
    split at hrun
    · exact List.forall_mem_cons.mpr ⟨trivial, ih _ (hpasses.2 _) hrun⟩
    · next error _ =>
      rw [hpasses.1 error] at hrun
      cases hrun
    · cases hrun
  | finish go ih =>
    rw [run] at hrun
    rw [calls]
    split at hrun
    · exact List.forall_mem_cons.mpr ⟨trivial, ih _ hpasses.2 hrun⟩
    · next error _ =>
      rw [hpasses.1 error] at hrun
      cases hrun
    · cases hrun

/-- A run and the runtime's own finish after it. -/
def complete (registrar : Registrar Router) (iter : ValidatedRouteIter) : Run Error Router := do
  let (router, iter) ← registrar.run iter
  iter.finish
  pure router

theorem complete_fails {registrar : Registrar Router} {error : Error}
    (h : registrar.run iter = Run.fail error) : registrar.complete iter = Run.fail error := by
  rw [complete, h]
  rfl

/-- A completed run in which no call fails has asked for every route in its turn. -/
theorem asked_of_complete (hlawful : ∀ route ∈ iter.routes, route.Lawful)
    (hok : registrar.complete iter = .ok router)
    (hcalls : ∀ call ∈ registrar.calls iter, call.Succeeds) :
    (registrar.calls iter).filterMap Call.asked = iter.routes.map ValidatedRoute.request := by
  obtain ⟨⟨router, after⟩, hrun, hok⟩ := Run.bind_eq_ok.mp hok
  obtain ⟨_, hfinish, -⟩ := Run.bind_eq_ok.mp hok
  obtain ⟨used, hused, hasked⟩ := asked_of_run hlawful hrun hcalls
  cases hroutes : after.routes with
  | nil => rw [hasked, hused, hroutes, List.append_nil]
  | cons route routes =>
    obtain ⟨error, hfails⟩ := finish_cons hroutes
    rw [hfails] at hfinish
    cases hfinish

/-- A mismatch ends a run in an error where the registrar returns the errors it gets. -/
theorem fails_of_mismatch (hlawful : ∀ route ∈ iter.routes, route.Lawful)
    (hpasses : registrar.PassesErrors) (hmismatch : registrar.Mismatch iter.routes) :
    ∃ error, registrar.complete iter = Run.fail error := by
  induction registrar generalizing iter with
  | stop outcome =>
    obtain ⟨⟨router, rfl⟩, hleft⟩ := hmismatch
    obtain ⟨route, routes, hroutes⟩ := List.exists_cons_of_ne_nil hleft
    obtain ⟨error, hfinish⟩ := finish_cons hroutes
    refine ⟨error, ?_⟩
    rw [complete, run]
    show (iter.finish >>= fun _ => pure router) = _
    rw [hfinish]
    rfl
  | next method handler go ih =>
    -- an error that the walk is answered with is passed on
    have hfails : ∀ error, iter.next method handler = .error (.err error) →
        (next method handler go).complete iter = Run.fail error := by
      intro error hnext
      refine complete_fails ?_
      rw [run, hnext]
      show (go (.error error)).run iter.skip = _
      rw [hpasses.1 error]
      rfl
    cases hroutes : iter.routes with
    | nil =>
      obtain ⟨error, hnext⟩ := next_nil method handler hroutes
      exact ⟨error, hfails error hnext⟩
    | cons route routes =>
      rw [hroutes] at hmismatch
      rw [hroutes, List.forall_mem_cons] at hlawful
      obtain ⟨hsame, hnext⟩ | ⟨-, error, hnext⟩ :=
        next_cons method handler hlawful.1 hroutes
      · have hrest : ∃ error, (go (.ok route.answer)).complete ⟨routes, route.answer.2⟩ =
            Run.fail error :=
          ih _ hlawful.2 (hpasses.2 _) (hmismatch.resolve_left (not_not_intro hsame))
        obtain ⟨error, hrest⟩ := hrest
        refine ⟨error, ?_⟩
        rw [← hrest, complete, run, hnext]
        rfl
      · exact ⟨error, hfails error hnext⟩
  | finish go ih =>
    cases hroutes : iter.routes with
    | nil =>
      rw [hroutes] at hmismatch
      obtain ⟨error, hrest⟩ := ih _ hlawful hpasses.2 (by rw [hroutes]; exact hmismatch)
      refine ⟨error, ?_⟩
      rw [← hrest, complete, run, finish_ok hroutes]
      rfl
    | cons route routes =>
      obtain ⟨error, hfinish⟩ := finish_cons hroutes
      refine ⟨error, complete_fails ?_⟩
      rw [run, hfinish]
      show (go (.error error)).run iter.skip = _
      rw [hpasses.1 error]
      rfl

/-! ### Registrars that walk a list of routes -/

/-- Asks for each of some routes, mounts those that get a path, and finishes. -/
def walking (mount : Router → RouteDescriptor → String → Option TypeId → Run Error Router) :
    List RouteDescriptor → Router → Registrar Router
  | [], router => finish fun
    | .ok () => stop (.ok router)
    | .error error => stop (Run.fail error)
  | route :: routes, router => next route.method route.handler fun
    | .ok (none, _) => walking mount routes router
    | .ok (some path, contextModule) =>
      match mount router route path contextModule with
      | .ok router => walking mount routes router
      | .error halt => stop (.error halt)
    | .error error => stop (Run.fail error)

theorem passesErrors_walking
    (mount : Router → RouteDescriptor → String → Option TypeId → Run Error Router)
    (routes : List RouteDescriptor) (router : Router) :
    (walking mount routes router).PassesErrors := by
  induction routes generalizing router with
  | nil => exact ⟨fun _ => rfl, trivial⟩
  | cons route routes ih =>
    refine ⟨fun _ => rfl, ?_⟩
    rintro ⟨_ | path, contextModule⟩
    · exact ih router
    · dsimp only
      split
      · exact ih _
      · trivial

section

variable (library : RouterLibrary Router) (runtime : RouterBuildContext)

/-- A route is mounted behind its guard. -/
def mountRoute (router : Router) (route : RouteDescriptor) (path : String)
    (contextModule : Option TypeId) : Run Error Router := do
  match route.guard with
  | none => pure ()
  | some guard => do
    let _ ← runtime.passportGuardState guard contextModule
    pure ()
  Run.orPanic (library.route router path route.method)

/-- What the macro emits for a controller, as a registrar. -/
def emitted (controller : ControllerRouteDescriptor) (router : Router) : Registrar Router :=
  match runtime.registry.resolve controller.typeId controller.typeName with
  | .ok _ => walking (mountRoute library runtime) (routesOf controller) router
  | .error halt => stop (.error halt)

theorem passesErrors_emitted (controller : ControllerRouteDescriptor) (router : Router) :
    (emitted library runtime controller router).PassesErrors := by
  rw [emitted]
  split
  · exact passesErrors_walking _ _ _
  · trivial

theorem walking_run (routes : List RouteDescriptor) (router : Router) (iter : ValidatedRouteIter) :
    (walking (mountRoute library runtime) routes router).run iter = (do
      let (router, iter) ← routes.foldlM (registerRoute library runtime) (router, iter)
      iter.finish
      pure (router, iter)) := by
  induction routes generalizing router iter with
  | nil =>
    rw [walking, run, List.foldlM_nil]
    show _ = (iter.finish >>= fun _ => pure (router, iter))
    cases hfinish : iter.finish with
    | ok done => rfl
    | error halt => cases halt <;> rfl
  | cons route routes ih =>
    rw [walking, run, List.foldlM_cons, registerRoute]
    cases hnext : iter.next route.method route.handler with
    | error halt => cases halt <;> rfl
    | ok told =>
      obtain ⟨_ | path, after⟩ := told
      · exact ih router after
      · simp only [Run.ok_bind]
        cases hguard : route.guard with
        | none =>
          cases hroute : library.route router path route.method with
          | error message => simp [mountRoute, hguard, hroute, Run.orPanic, run]
          | ok router => simpa [mountRoute, hguard, hroute, Run.orPanic] using ih router after
        | some guard =>
          cases hstate : runtime.passportGuardState guard after.passportContextModule with
          | error halt => simp [mountRoute, hguard, hstate, run]
          | ok binding =>
            cases hroute : library.route router path route.method with
            | error message => simp [mountRoute, hguard, hstate, hroute, Run.orPanic, run]
            | ok router =>
              simpa [mountRoute, hguard, hstate, hroute, Run.orPanic] using ih router after

/-- The code that the macro emits runs as such a registrar. -/
theorem emitted_run (controller : ControllerRouteDescriptor) (router : Router)
    (iter : ValidatedRouteIter) :
    (emitted library runtime controller router).run iter =
      register library runtime controller router iter := by
  rw [emitted, register]
  cases runtime.registry.resolve controller.typeId controller.typeName with
  | error halt => rfl
  | ok value => exact walking_run library runtime _ router iter

end

/-- Notes which route is mounted on which path. -/
def note (noted : List (RouteDescriptor × String)) (route : RouteDescriptor) (path : String)
    (_ : Option TypeId) : Run Error (List (RouteDescriptor × String)) :=
  .ok (noted ++ [(route, path)])

end Registrar

/-- By what the iterator tells the routes of a controller apart. -/
def walkKeys (routes : List RouteDescriptor) : List (HttpMethod × String) :=
  routes.map fun route => (route.method, route.handler)

variable {selectionFor : ControllerRouteDescriptor → RouteDescriptor → RouteSelection}
  {controller : ControllerRouteDescriptor}

theorem lawful_validatedOf (routes : List RouteDescriptor) :
    ∀ route ∈ validatedOf selectionFor controller routes, route.Lawful := by
  intro route hroute
  obtain ⟨declared, -, rfl⟩ := List.mem_map.mp hroute
  rw [ValidatedRoute.Lawful, validatedRoute]
  cases (selectionFor controller declared).selected <;> rfl

/-- The mount of a route that stands in another's turn. -/
def mountOf (selectionFor : ControllerRouteDescriptor → RouteDescriptor → RouteSelection)
    (controller : ControllerRouteDescriptor) (turn : RouteDescriptor × RouteDescriptor) :
    Option (RouteDescriptor × String) :=
  if (selectionFor controller turn.2).selected then some (turn.1, toAxumPath turn.2.fullPath)
  else none

/-- Routes are mounted in the turns of the declared ones, if they agree in method and handler. -/
theorem complete_walking {walked declared : List RouteDescriptor}
    {noted mounted : List (RouteDescriptor × String)}
    (hroutes : iter.routes = validatedOf selectionFor controller declared) :
    (Registrar.walking Registrar.note walked noted).complete iter = .ok mounted ↔
      walkKeys walked = walkKeys declared ∧
        mounted = noted ++ (walked.zip declared).filterMap (mountOf selectionFor controller) := by
  induction walked generalizing declared noted iter with
  | nil =>
    rw [Registrar.complete, Registrar.walking, Registrar.run]
    cases declared with
    | nil =>
      rw [finish_ok hroutes]
      show (iter.finish >>= fun _ => pure noted) = _ ↔ _
      rw [finish_ok hroutes]
      simp [walkKeys, eq_comm]
    | cons route declared =>
      obtain ⟨error, hfinish⟩ := finish_cons hroutes
      rw [hfinish]
      refine iff_of_false (fun h => ?_) (by simp [walkKeys])
      cases h
  | cons route walked ih =>
    rw [Registrar.complete, Registrar.walking, Registrar.run]
    cases declared with
    | nil =>
      obtain ⟨error, hnext⟩ := next_nil route.method route.handler hroutes
      rw [hnext]
      refine iff_of_false (fun h => ?_) (by simp [walkKeys])
      cases h
    | cons turn declared =>
      have hlawful : (validatedRoute (selectionFor controller turn) turn).Lawful :=
        lawful_validatedOf (turn :: declared) _ List.mem_cons_self
      obtain ⟨hsame, hnext⟩ | ⟨hother, error, hnext⟩ :=
        next_cons route.method route.handler hlawful hroutes
      · have hkeys : walkKeys (route :: walked) = walkKeys (turn :: declared) ↔
            walkKeys walked = walkKeys declared :=
          ⟨fun h => (List.cons.inj h).2, fun h => congrArg₂ List.cons hsame h⟩
        rw [hnext, hkeys, List.zip_cons_cons, List.filterMap_cons, mountOf, ValidatedRoute.answer]
        cases hselected : (selectionFor controller turn).selected with
        | false =>
          simp only [validatedRoute, hselected, Bool.false_eq_true, if_false]
          exact ih rfl
        | true =>
          simp only [validatedRoute, hselected, if_true]
          rw [← List.singleton_append, ← List.append_assoc]
          exact ih rfl
      · rw [hnext]
        refine iff_of_false (fun h => ?_) fun hkeys => hother ?_
        · cases h
        · exact (List.cons.inj hkeys.1).1

theorem requests_validatedOf (routes : List RouteDescriptor) :
    (validatedOf selectionFor controller routes).map ValidatedRoute.request =
      routes.map fun route => (route.method, route.handler,
        if (selectionFor controller route).selected then some (toAxumPath route.fullPath)
        else none) := by
  rw [validatedOf, List.map_map]
  refine List.map_congr_left fun route _ => ?_
  rw [Function.comp_apply, ValidatedRoute.request, ValidatedRoute.answer, validatedRoute]
  cases (selectionFor controller route).selected <;> rfl

theorem mounts_self (routes : List RouteDescriptor) :
    (routes.zip routes).filterMap (mountOf selectionFor controller) =
      (selectedOf selectionFor controller routes).map fun route =>
        (route, toAxumPath route.fullPath) := by
  induction routes with
  | nil => rfl
  | cons route routes ih =>
    rw [List.zip_cons_cons, List.filterMap_cons, mountOf, ih, selectedOf, selectedOf,
      List.filter_cons]
    cases (selectionFor controller route).selected <;> rfl

/-- Of routes that the iterator tells apart, a list with the same keys is the same list. -/
theorem eq_of_walkKeys {walked declared : List RouteDescriptor}
    (hdistinct : (walkKeys declared).Nodup) (hsubset : walked ⊆ declared)
    (h : walkKeys walked = walkKeys declared) : walked = declared := by
  refine List.ext_getElem (by simpa [walkKeys] using congrArg List.length h) fun i hi hj => ?_
  refine List.inj_on_of_nodup_map hdistinct (hsubset (List.getElem_mem hi)) (List.getElem_mem hj) ?_
  have hkey := congrArg (·[i]?) h
  simpa [walkKeys, hi, hj] using hkey

section

variable {descriptors : List ControllerRouteDescriptor} {validated : List ValidatedController}
  {kept : ValidatedController} {Router : Type} {code : FnPtr → ControllerRegistrar Router}
  {registrar : Router → RouterBuildContext → Registrar Router}

theorem exists_descriptor (hvalid : validateWithSelection selectionFor descriptors = .ok validated)
    (hkept : kept ∈ validated) :
    ∃ controller ∈ descriptors, controller.registrar = some kept.registrar ∧
      kept.routes = validatedOf selectionFor controller (routesOf controller) := by
  obtain ⟨state, haccepted, rfl⟩ := accepted_of_validateWithSelection hvalid
  obtain ⟨controller, hcontroller, hregistrar, hroutes⟩ :=
    exists_of_forall₂ haccepted.validated hkept
  exact ⟨controller, mem_sortBy.mp hcontroller, hregistrar, hroutes⟩

/-- Whatever a registrar does: a run without a failed call asks for the declared routes in their
order and gets the paths of the selected ones; where it returns the errors it gets, a mismatch in
method or handler name, or in their number, ends it in an error. A registrar that walks some routes
mounts them in the turns of the declared ones; where these differ in method or handler name, every
selected route is on its own path. -/
theorem registrar_walks_routes
    (hvalid : validateWithSelection selectionFor descriptors = .ok validated)
    (hkept : kept ∈ validated)
    (hcode : code kept.registrar = fun router runtime iter => (registrar router runtime).run iter)
    (router : Router) (runtime : RouterBuildContext) :
    ∃ controller ∈ descriptors, controller.registrar = some kept.registrar ∧
      kept.routes = validatedOf selectionFor controller (routesOf controller) ∧
      (∀ after, registerController code runtime router kept = .ok after →
        (∀ call ∈ (registrar router runtime).calls kept.iter, call.Succeeds) →
        ((registrar router runtime).calls kept.iter).filterMap Call.asked =
          (routesOf controller).map fun route => (route.method, route.handler,
            if (selectionFor controller route).selected then some (toAxumPath route.fullPath)
            else none)) ∧
      ((registrar router runtime).PassesErrors →
        (∀ after, registerController code runtime router kept = .ok after →
          ∀ call ∈ (registrar router runtime).calls kept.iter, call.Succeeds) ∧
        ((registrar router runtime).Mismatch kept.routes →
          ∃ error, registerController code runtime router kept = Run.fail error)) ∧
      (∀ walked mounted,
        (Registrar.walking Registrar.note walked []).complete kept.iter = .ok mounted ↔
          walkKeys walked = walkKeys (routesOf controller) ∧
            mounted = (walked.zip (routesOf controller)).filterMap
              (mountOf selectionFor controller)) ∧
      ((walkKeys (routesOf controller)).Nodup → ∀ walked ⊆ routesOf controller, ∀ mounted,
        (Registrar.walking Registrar.note walked []).complete kept.iter = .ok mounted →
          walked = routesOf controller ∧
            mounted = (selectedOf selectionFor controller (routesOf controller)).map fun route =>
              (route, toAxumPath route.fullPath)) := by
  obtain ⟨controller, hcontroller, hregistrar, hroutes⟩ := exists_descriptor hvalid hkept
  have hlawful : ∀ route ∈ kept.iter.routes, route.Lawful := by
    rw [show kept.iter.routes = _ from hroutes]
    exact lawful_validatedOf _
  have hcomplete : registerController code runtime router kept =
      (registrar router runtime).complete kept.iter := by
    rw [registerController, hcode]
    rfl
  have hwalking : ∀ walked mounted,
      (Registrar.walking Registrar.note walked []).complete kept.iter = .ok mounted ↔
        walkKeys walked = walkKeys (routesOf controller) ∧
          mounted = (walked.zip (routesOf controller)).filterMap
            (mountOf selectionFor controller) := fun _ _ => complete_walking hroutes
  refine ⟨controller, hcontroller, hregistrar, hroutes, ?_, ?_, hwalking, ?_⟩
  · intro after hok hcalls
    rw [hcomplete] at hok
    rw [Registrar.asked_of_complete hlawful hok hcalls, ← requests_validatedOf, ← hroutes]
    rfl
  · intro hpasses
    rw [hcomplete]
    refine ⟨fun after hok => ?_, Registrar.fails_of_mismatch hlawful hpasses⟩
    obtain ⟨state, hrun, -⟩ := Run.bind_eq_ok.mp hok
    exact Registrar.succeeds_of_passesErrors hpasses hrun
  · intro hdistinct walked hsubset mounted hok
    obtain ⟨hkeys, rfl⟩ := (hwalking walked mounted).mp hok
    obtain rfl := eq_of_walkKeys hdistinct hsubset hkeys
    exact ⟨rfl, mounts_self _⟩

end

/-! ### Two contracts with one handler name -/

def listRoute (pathPrefix : String) : RouteDescriptor where
  method := .get
  pathPrefix := pathPrefix
  path := "/all"
  fullPath := pathPrefix ++ "/all"
  handler := "list"
  location := ⟨"src/listing.rs", 4, 1⟩

/-- A controller for users and posts, which are both listed by a handler called `list`. -/
def listingController : ControllerRouteDescriptor where
  typeName := "app::ListingController"
  typeId := ⟨1⟩
  contracts := [⟨"Users", [listRoute "/users"]⟩, ⟨"Posts", [listRoute "/posts"]⟩]
  registrar := some 7

def everyRoute (_ : ControllerRouteDescriptor) (_ : RouteDescriptor) : RouteSelection where
  selected := true

def listingValidated : ValidatedController where
  registrar := 7
  routes := [⟨.get, "list", true, some "/users/all", none⟩,
    ⟨.get, "list", true, some "/posts/all", none⟩]

def listingCode : FnPtr → ControllerRegistrar (List (String × HttpMethod)) :=
  fun _ router runtime iter => register listRouter runtime listingController router iter

def listingRegistrar (router : List (String × HttpMethod)) (runtime : RouterBuildContext) :
    Registrar (List (String × HttpMethod)) :=
  Registrar.emitted listRouter runtime listingController router

/-- The registrar that the macro emits for the controller completes, and asks for both routes. -/
theorem registrar_walks_routes_listing :
    ∃ after, registerController listingCode sampleRuntime [] listingValidated = .ok after ∧
      ((listingRegistrar [] sampleRuntime).calls listingValidated.iter).filterMap Call.asked =
        [(.get, "list", some "/users/all"), (.get, "list", some "/posts/all")] := by
  have hvalid : validateWithSelection everyRoute [listingController] = .ok [listingValidated] := rfl
  have hcode : listingCode listingValidated.registrar =
      fun router runtime iter => (listingRegistrar router runtime).run iter := by
    funext router runtime iter
    exact (Registrar.emitted_run listRouter runtime listingController router iter).symm
  obtain ⟨controller, hcontroller, -, -, hexact, herrors, -⟩ :=
    registrar_walks_routes hvalid (List.mem_singleton_self _) hcode [] sampleRuntime
  obtain rfl := List.mem_singleton.mp hcontroller
  have hpasses : (listingRegistrar [] sampleRuntime).PassesErrors :=
    Registrar.passesErrors_emitted _ _ _ _
  have hok : registerController listingCode sampleRuntime [] listingValidated =
      .ok [("/users/all", .get), ("/posts/all", .get)] := rfl
  refine ⟨_, hok, ?_⟩
  rw [hexact _ hok ((herrors hpasses).1 _ hok)]
  rfl

/-- A registrar that walks the contracts of the controller in the other order completes, with each
handler on the other's path; and one that goes on after an error completes without a route. -/
theorem swapped_contracts_complete :
    validateWithSelection everyRoute [listingController] = .ok [listingValidated] ∧
    (Registrar.walking Registrar.note [listRoute "/posts", listRoute "/users"] []).complete
        listingValidated.iter =
      .ok [(listRoute "/posts", "/users/all"), (listRoute "/users", "/posts/all")] ∧
    (Registrar.next .get "lost" fun _ =>
        Registrar.walking Registrar.note [listRoute "/posts"] []).complete listingValidated.iter =
      .ok [(listRoute "/posts", "/posts/all")] :=
  ⟨rfl, rfl, rfl⟩

end Route

end Mads
