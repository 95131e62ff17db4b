import Mads.Common.RouterPath
import Mathlib.Data.List.Pairwise

/-!
# Validated routes that the router rejects

Validation tells routes apart by method and pattern, the router by path alone.
-/

namespace Mads

namespace Route

/-! ### What validation accepts -/

def routesOf (controller : ControllerRouteDescriptor) : List RouteDescriptor :=
  controller.contracts.flatMap (·.routes)

def routeKey (route : RouteDescriptor) : HttpMethod × String :=
  (route.method, canonicalPattern route.fullPath)

section

variable (selectionFor : ControllerRouteDescriptor → RouteDescriptor → RouteSelection)

def selectedOf (controller : ControllerRouteDescriptor) (routes : List RouteDescriptor) :
    List RouteDescriptor :=
  routes.filter (fun route => (selectionFor controller route).selected)

def validatedOf (controller : ControllerRouteDescriptor) (routes : List RouteDescriptor) :
    List ValidatedRoute :=
  routes.map (fun route => validatedRoute (selectionFor controller route) route)

/-- The selected routes of some controllers. -/
def selectedRoutes (controllers : List ControllerRouteDescriptor) : List RouteDescriptor :=
  controllers.flatMap (fun controller => selectedOf selectionFor controller (routesOf controller))

/-- What has been checked of some controllers. -/
structure Accepted (done : List ControllerRouteDescriptor) (state : Validation) : Prop where
  identities : state.identities = done
  types : (done.map (·.typeId)).Nodup
  seenRoutes : state.seenRoutes.map Prod.fst = (selectedRoutes selectionFor done).map routeKey
  distinct : ((selectedRoutes selectionFor done).map routeKey).Nodup
  paths : ∀ route ∈ selectedRoutes selectionFor done, ValidPath route.fullPath
  validated : List.Forall₂ (fun controller kept => controller.registrar = some kept.registrar ∧
    kept.routes = validatedOf selectionFor controller (routesOf controller)) done state.validated

/-- What has been checked of some routes of a controller, after other routes. -/
structure AcceptedRoutes (controller : ControllerRouteDescriptor)
    (before done : List RouteDescriptor) (state : SeenRoutes × List ValidatedRoute) : Prop where
  seenRoutes : state.1.map Prod.fst =
    (before ++ selectedOf selectionFor controller done).map routeKey
  distinct : ((before ++ selectedOf selectionFor controller done).map routeKey).Nodup
  paths : ∀ route ∈ before ++ selectedOf selectionFor controller done, ValidPath route.fullPath
  validated : state.2 = validatedOf selectionFor controller done

variable {selectionFor}

theorem validateSelected_eq_ok {controller : ControllerRouteDescriptor} {seen after : SeenRoutes}
    {route : RouteDescriptor} (h : validateSelected controller seen route = .ok after) :
    validateRoute route = .ok () ∧ routeKey route ∉ seen.map Prod.fst ∧
      after = seen ++ [(routeKey route, (controller.typeName, route))] := by
  obtain ⟨_, hroute, h⟩ := Run.bind_eq_ok.mp h
  simp only at h
  split at h
  · simp [Run.fail] at h
  · next hlookup =>
    refine ⟨hroute, fun hmem => ?_, (Except.ok.inj h).symm⟩
    obtain ⟨entry, hentry, hkey⟩ := List.mem_map.mp hmem
    have hne := List.lookup_eq_none_iff.mp hlookup entry hentry
    exact absurd hkey.symm (by simpa [routeKey] using hne)

/-- A selected route is checked, and any other is kept as it is. -/
theorem validateControllerRoute_eq_ok {controller : ControllerRouteDescriptor}
    {state after : SeenRoutes × List ValidatedRoute} {route : RouteDescriptor}
    (h : validateControllerRoute selectionFor controller state route = .ok after) :
    (if (selectionFor controller route).selected then
      validateSelected controller state.1 route = .ok after.1 else after.1 = state.1) ∧
      after.2 = state.2 ++ [validatedRoute (selectionFor controller route) route] := by
  rw [validateControllerRoute] at h
  by_cases hselected : (selectionFor controller route).selected
  · rw [if_pos hselected] at h ⊢
    obtain ⟨seen, hseen, h⟩ := Run.bind_eq_ok.mp h
    obtain rfl := Except.ok.inj h
    exact ⟨hseen, rfl⟩
  · rw [if_neg hselected] at h ⊢
    obtain rfl := Except.ok.inj h
    exact ⟨rfl, rfl⟩

theorem AcceptedRoutes.step {controller : ControllerRouteDescriptor}
    {before done : List RouteDescriptor} {state after : SeenRoutes × List ValidatedRoute}
    {route : RouteDescriptor} (h : AcceptedRoutes selectionFor controller before done state)
    (hok : validateControllerRoute selectionFor controller state route = .ok after) :
    AcceptedRoutes selectionFor controller before (done ++ [route]) after := by
  obtain ⟨hseen, hafter⟩ := validateControllerRoute_eq_ok hok
  have hvalidated : after.2 = validatedOf selectionFor controller (done ++ [route]) := by
    rw [hafter, validatedOf, List.map_append, ← validatedOf, ← h.validated, List.map_singleton]
  by_cases hselected : (selectionFor controller route).selected
  · rw [if_pos hselected] at hseen
    obtain ⟨hroute, hnew, hseen⟩ := validateSelected_eq_ok hseen
    have hof : before ++ selectedOf selectionFor controller (done ++ [route]) =
        (before ++ selectedOf selectionFor controller done) ++ [route] := by
      rw [selectedOf, List.filter_append, List.filter_singleton, hselected, List.append_assoc]
      rfl
    rw [h.seenRoutes] at hnew
    constructor
    · rw [hof, hseen, List.map_append, List.map_append, h.seenRoutes]
      rfl
    · rw [hof, List.map_append, List.map_singleton, ← List.concat_eq_append]
      exact h.distinct.concat hnew
    · rw [hof, List.forall_mem_append, List.forall_mem_singleton]
      exact ⟨h.paths, validPath_of_validateRoute hroute⟩
    · exact hvalidated
  · rw [if_neg hselected] at hseen
    have hof : selectedOf selectionFor controller (done ++ [route]) =
        selectedOf selectionFor controller done := by
      rw [selectedOf, List.filter_append, List.filter_singleton, Bool.eq_false_iff.mpr hselected]
      exact List.append_nil _
    constructor
    · rw [hof, hseen]
      exact h.seenRoutes
    · rw [hof]
      exact h.distinct
    · rw [hof]
      exact h.paths
    · exact hvalidated

theorem typeId_new_of_validateControllerIdentity {controller : ControllerRouteDescriptor}
    {previous : List ControllerRouteDescriptor}
    (h : validateControllerIdentity controller previous = .ok ()) :
    controller.typeId ∉ previous.map (·.typeId) := by
  obtain ⟨-, h⟩ := Run.ensure_bind_eq_ok.mp h
  intro hmem
  obtain ⟨earlier, hearlier, htype⟩ := List.mem_map.mp hmem
  obtain ⟨hne, -⟩ := Run.ensure_bind_eq_ok.mp (Run.forM_eq_ok.mp h earlier hearlier)
  exact hne htype

theorem Accepted.step {done : List ControllerRouteDescriptor} {state after : Validation}
    {controller : ControllerRouteDescriptor} (h : Accepted selectionFor done state)
    (hok : validateController selectionFor state controller = .ok after) :
    Accepted selectionFor (done ++ [controller]) after := by
  obtain ⟨_, hidentity, hok⟩ := Run.bind_eq_ok.mp hok
  obtain ⟨_, -, hok⟩ := Run.bind_eq_ok.mp hok
  obtain ⟨registrar, hregistrar, hok⟩ := Run.okOr_bind_eq_ok.mp hok
  obtain ⟨⟨seenRoutes, routes⟩, hfold, hok⟩ := Run.bind_eq_ok.mp hok
  obtain rfl := Except.ok.inj hok
  have hroutes : AcceptedRoutes selectionFor controller
      (selectedRoutes selectionFor done) (routesOf controller) (seenRoutes, routes) := by
    show AcceptedRoutes selectionFor controller _ ([] ++ routesOf controller) _
    refine Run.foldlM_seen (fun _ _ _ _ hseen hok => hseen.step hok) ?_ hfold
    constructor
    · simpa [selectedOf] using h.seenRoutes
    · simpa [selectedOf] using h.distinct
    · simpa [selectedOf] using h.paths
    · rfl
  have hselected : selectedRoutes selectionFor (done ++ [controller]) =
      selectedRoutes selectionFor done ++
        selectedOf selectionFor controller (routesOf controller) := by
    rw [selectedRoutes, List.flatMap_append, List.flatMap_singleton]
    rfl
  constructor
  · rw [h.identities]
  · rw [List.map_append, List.map_singleton, ← List.concat_eq_append]
    refine h.types.concat ?_
    rw [← h.identities]
    exact typeId_new_of_validateControllerIdentity hidentity
  · rw [hselected]
    exact hroutes.seenRoutes
  · rw [hselected]
    exact hroutes.distinct
  · rw [hselected]
    exact hroutes.paths
  · exact List.rel_append h.validated (.cons ⟨hregistrar, hroutes.validated⟩ .nil)

theorem accepted_of_validateWithSelection {descriptors : List ControllerRouteDescriptor}
    {controllers : List ValidatedController}
    (h : validateWithSelection selectionFor descriptors = .ok controllers) :
    ∃ state, Accepted selectionFor (sortBy controllerSortOrder descriptors) state ∧
      state.validated = controllers := by
  obtain ⟨state, hfold, hok⟩ := Run.bind_eq_ok.mp h
  refine ⟨state, ?_, Except.ok.inj hok⟩
  show Accepted selectionFor ([] ++ sortBy controllerSortOrder descriptors) state
  refine Run.foldlM_seen (fun _ _ _ _ hseen hok => hseen.step hok) ?_ hfold
  constructor <;> simp [selectedRoutes]

end

/-! ### What the router takes -/

open AxumPath

def entry (route : RouteDescriptor) : String × HttpMethod :=
  (toAxumPath route.fullPath, route.method)

/-- Two paths that differ, but only in the names of their parameters. -/
def Clashing (left right : RouteDescriptor) : Prop :=
  left.fullPath ≠ right.fullPath ∧
    canonicalPattern left.fullPath = canonicalPattern right.fullPath

theorem compatible_entry {left right : RouteDescriptor} (hleft : ValidPath left.fullPath)
    (hright : ValidPath right.fullPath) (hkey : routeKey left ≠ routeKey right) :
    Compatible (entry left) (entry right) ↔ ¬ Clashing left right := by
  by_cases hpath : left.fullPath = right.fullPath
  · -- the methods of one path are merged, and validation has told them apart
    have hentry : (entry left).1 = (entry right).1 := congrArg toAxumPath hpath
    rw [Compatible, if_pos hentry]
    refine iff_of_true (fun hmethod => hkey ?_) (fun hclashing => hclashing.1 hpath)
    exact Prod.ext hmethod (congrArg canonicalPattern hpath)
  · have hentry : (entry left).1 ≠ (entry right).1 :=
      fun h => hpath ((toAxumPath_inj hleft hright).mp h)
    rw [Compatible, if_neg hentry]
    apply not_congr
    show erased (toAxumPath left.fullPath) = erased (toAxumPath right.fullPath) ↔ _
    rw [erased_toAxumPath hleft hright]
    exact ⟨fun h => ⟨hpath, h⟩, fun h => h.2⟩

instance : Std.Symm (fun left right => ¬ Clashing left right) where
  symm _ _ h hclashing := h ⟨Ne.symm hclashing.1, hclashing.2.symm⟩

theorem pairwise_entry {routes : List RouteDescriptor}
    (hpaths : ∀ route ∈ routes, ValidPath route.fullPath) (hkeys : (routes.map routeKey).Nodup) :
    (routes.map entry).Pairwise Compatible ↔
      ∀ left ∈ routes, ∀ right ∈ routes, ¬ Clashing left right := by
  rw [List.pairwise_map]
  have hdistinct := List.pairwise_map.mp hkeys
  constructor
  · intro hpairwise left hleft right hright
    have hnone : routes.Pairwise (fun left right => ¬ Clashing left right) := by
      refine (hdistinct.and hpairwise).imp_of_mem fun {left right} hleft hright h => ?_
      exact (compatible_entry (hpaths left hleft) (hpaths right hright) h.1).mp h.2
    exact hnone.forall_of_forall (fun route _ hclashing => hclashing.1 rfl) hleft hright
  · intro hnone
    refine hdistinct.imp_of_mem fun {left right} hleft hright hkey => ?_
    exact (compatible_entry (hpaths left hleft) (hpaths right hright) hkey).mpr
      (hnone left hleft right hright)

section

variable {Router : Type} (library : RouterLibrary Router)

/-- Some routes on a router, one after the other. -/
def install (router : Router) (entries : List (String × HttpMethod)) : Except String Router :=
  entries.foldlM (fun router entry => library.route router entry.1 entry.2) router

variable {library}

theorem install_cons (router : Router) (entry : String × HttpMethod)
    (entries : List (String × HttpMethod)) : install library router (entry :: entries) =
      library.route router entry.1 entry.2 >>= fun next => install library next entries :=
  List.foldlM_cons

theorem install_append (router : Router) (front back : List (String × HttpMethod)) :
    install library router (front ++ back) =
      install library router front >>= fun next => install library next back :=
  List.foldlM_append

theorem install_ok_iff {registered : Router → List (String × HttpMethod)}
    (h : library.Lawful registered) {entries : List (String × HttpMethod)}
    (hformed : ∀ entry ∈ entries, WellFormed entry.1) (router : Router) :
    (∃ next, install library router entries = .ok next) ↔
      (∀ old ∈ registered router, ∀ entry ∈ entries, Compatible old entry) ∧
        entries.Pairwise Compatible := by
  induction entries generalizing router with
  | nil => exact iff_of_true ⟨router, rfl⟩ ⟨fun _ _ => nofun, .nil⟩
  | cons entry entries ih =>
    obtain ⟨hentry, hentries⟩ := List.forall_mem_cons.mp hformed
    rw [install_cons]
    by_cases htakes : ∀ old ∈ registered router, Compatible old entry
    · obtain ⟨next, hnext, hregistered⟩ := h.takes router entry.1 entry.2 hentry htakes
      rw [hnext]
      show (∃ after, install library next entries = .ok after) ↔ _
      rw [ih hentries next, hregistered, List.forall_mem_append, List.forall_mem_singleton,
        List.pairwise_cons]
      constructor
      · rintro ⟨⟨hold, hnew⟩, hpairwise⟩
        refine ⟨fun old hmem => ?_, hnew, hpairwise⟩
        exact List.forall_mem_cons.mpr ⟨htakes old hmem, hold old hmem⟩
      · rintro ⟨hold, hnew, hpairwise⟩
        exact ⟨⟨fun old hmem => (List.forall_mem_cons.mp (hold old hmem)).2, hnew⟩, hpairwise⟩
    · obtain ⟨message, hmessage⟩ := h.rejects router entry.1 entry.2 hentry htakes
      rw [hmessage]
      refine iff_of_false (fun ⟨_, hnext⟩ => ?_) (fun ⟨hold, _⟩ => htakes fun old hmem => ?_)
      · cases hnext
      · exact hold old hmem entry List.mem_cons_self

end

end Route

end Mads
