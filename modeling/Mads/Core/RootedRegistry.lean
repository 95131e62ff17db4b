import Mads.Core.Boundaries
import Mads.Core.Construction

/-!
# What the registry of a rooted application holds
-/

namespace Mads

variable {Config : Type}

namespace Scope

/-- Which declarations are reached depends on the satisfied types alone. -/
theorem ReachedFor.congr {graph : ModuleGraph} {modules : List ModuleDescriptor}
    {descriptors : List ProviderDescriptor} {satisfied others : List SatisfiedProvider}
    (hsame : ∀ t, isSatisfied others t = isSatisfied satisfied t) {i : Fin descriptors.length}
    {context : TypeId} (h : ReachedFor graph modules descriptors satisfied i context) :
    ReachedFor graph modules descriptors others i context := by
  induction h with
  | owned hunsatisfied howner hreach => exact .owned ((hsame _).trans hunsatisfied) howner hreach
  | dependency _ hdeclared hunsatisfied htype hadmits ih =>
    exact .dependency ih hdeclared ((hsame _).trans hunsatisfied) htype hadmits

end Scope

namespace MadsBuilder

variable (environment : Environment Config) (builder : MadsBuilder Config)
  (moduleGraph : ModuleGraph)

/-- The evaluator of an integration, given what the root reaches, decides for its default. -/
def Integrates (d : AutoConfigurationDescriptor Config) : Prop :=
  ∃ initialScope, selectScopedProviders moduleGraph (Catalog.modules environment.inventory)
      (Catalog.providers environment.inventory) builder.satisfied = .ok initialScope ∧
    (d.evaluator (AutoConfiguration.contextFor builder.config builder.autoConfigurationInputs
      (some moduleGraph) initialScope.descriptors builder.satisfied d)).status = .active

/-- A type that is there without a declaration: provided, preconstructed, or the default of an
integration. -/
def Given (t : TypeId) : Prop :=
  t ∈ builder.satisfied.map (·.typeId) ∨
    ∃ d ∈ environment.autoConfigurations, d.outputTypeId = t ∧
      Integrates environment builder moduleGraph d

/-- A declaration of the type is reached by the module rules, which need not look for types that are
there already. -/
def Reaches (t : TypeId) : Prop :=
  ∃ satisfied, (∀ t, Scope.isSatisfied satisfied t ↔ Given environment builder moduleGraph t) ∧
    ∃ i context, Scope.ReachedFor moduleGraph (Catalog.modules environment.inventory)
      (Catalog.providers environment.inventory) satisfied i context ∧
      (Scope.declaration (Catalog.providers environment.inventory) i).typeId = t

def Available (t : TypeId) : Prop :=
  Given environment builder moduleGraph t ∨ Reaches environment builder moduleGraph t

variable {environment builder moduleGraph}

/-- The integrations that a rooted analysis without failures selects. -/
theorem mem_selected_iff {scope : RootedScope Config}
    (hscope : selectRooted environment builder moduleGraph = .ok scope)
    (hnil : scope.autoConfiguration.diagnostics = []) {d : AutoConfigurationDescriptor Config} :
    d ∈ scope.autoConfiguration.selected ↔
      d ∈ environment.autoConfigurations ∧ Integrates environment builder moduleGraph d := by
  obtain ⟨hinitial, hconfigured, -, -⟩ := selectRooted_eq_ok.mp hscope
  have hselects := autoConfigure_selects environment builder scope.initialScope.descriptors
    (some moduleGraph)
  rw [← hconfigured] at hselects
  constructor
  · intro hd
    obtain ⟨hmem, hactive⟩ := hselects.active d hd
    exact ⟨hmem, scope.initialScope, hinitial, hactive⟩
  · rintro ⟨hmem, initialScope, hinitial', hactive⟩
    obtain rfl : scope.initialScope = initialScope :=
      Except.ok.inj (hinitial.symm.trans hinitial')
    exact (hselects.unfailed hnil d hmem).2 hactive

theorem isSatisfied_iff_given {scope : RootedScope Config}
    (hscope : selectRooted environment builder moduleGraph = .ok scope)
    (hnil : scope.autoConfiguration.diagnostics = []) (t : TypeId) :
    Scope.isSatisfied scope.satisfied t ↔ Given environment builder moduleGraph t := by
  obtain ⟨-, hconfigured, hsatisfied, -⟩ := selectRooted_eq_ok.mp hscope
  have hvirtual := (autoConfigure_selects environment builder scope.initialScope.descriptors
    (some moduleGraph)).virtual
  rw [← hconfigured] at hvirtual
  have houtput : (∃ s ∈ scope.autoConfiguration.virtualSatisfied, s.typeId = t) ↔
      ∃ d ∈ environment.autoConfigurations, d.outputTypeId = t ∧
        Integrates environment builder moduleGraph d := by
    rw [hvirtual]
    constructor
    · rintro ⟨s, hs, rfl⟩
      obtain ⟨d, hd, rfl⟩ := List.mem_map.mp hs
      obtain ⟨hmem, hintegrates⟩ := (mem_selected_iff hscope hnil).mp hd
      exact ⟨d, hmem, rfl, hintegrates⟩
    · rintro ⟨d, hmem, rfl, hintegrates⟩
      have hd := (mem_selected_iff hscope hnil).mpr ⟨hmem, hintegrates⟩
      exact ⟨_, List.mem_map_of_mem hd, rfl⟩
  rw [Given, ← houtput, hsatisfied]
  simp only [Scope.isSatisfied, List.any_append, Bool.or_eq_true, List.any_eq_true,
    decide_eq_true_eq, List.mem_map]

theorem reaches_iff {scope : RootedScope Config}
    (hscope : selectRooted environment builder moduleGraph = .ok scope)
    (hnil : scope.autoConfiguration.diagnostics = []) {t : TypeId} :
    Reaches environment builder moduleGraph t ↔
      ∃ d ∈ scope.catalog.descriptors, d.typeId = t := by
  have hgiven := isSatisfied_iff_given hscope hnil
  obtain ⟨scope', hscope', hfollows⟩ := selectRooted_ok environment builder moduleGraph
  obtain rfl : scope' = scope := Except.ok.inj (hscope'.symm.trans hscope)
  have hselects := hfollows.final.selects
  constructor
  · rintro ⟨satisfied, hsatisfied, i, context, hreached, rfl⟩
    have hsame : ∀ t, Scope.isSatisfied scope'.satisfied t = Scope.isSatisfied satisfied t :=
      fun t => Bool.eq_iff_iff.mpr ((hgiven t).trans (hsatisfied t).symm)
    exact ⟨_, hselects.mem_descriptors (hreached.congr hsame), rfl⟩
  · rintro ⟨d, hd, rfl⟩
    obtain ⟨i, context, hreached, rfl⟩ := hselects.mem_descriptors_iff.mp hd
    exact ⟨scope'.satisfied, hgiven, i, context, hreached, rfl⟩

/-- A build that finishes has a module graph for its root. -/
theorem exists_moduleGraph {root : RustType} (hroot : builder.root = some root)
    {application : Application Config} (h : build environment builder = .ok application) :
    ∃ moduleGraph, buildModuleGraph root.typeId (Catalog.modules environment.inventory) =
      .ok moduleGraph := by
  obtain ⟨result, hok, hvalid, -⟩ := build_cases h
  obtain ⟨moduleGraph, hgraph, -⟩ | ⟨e, herr, -⟩ := buildModuleGraph_cases
    (Catalog.modules environment.inventory) root.typeId
  · exact ⟨moduleGraph, hgraph⟩
  · simp only [analyzeBuilder, hroot, herr] at hok
    cases hok
    simp [GraphAnalysis.isValid, GraphAnalysis.invalid] at hvalid

/-- The parts of a rooted build that finished. -/
theorem build_rooted {root : RustType} (hroot : builder.root = some root)
    (hgraph : buildModuleGraph root.typeId (Catalog.modules environment.inventory) =
      .ok moduleGraph)
    {application : Application Config} (h : build environment builder = .ok application) :
    ∃ scope result, selectRooted environment builder moduleGraph = .ok scope ∧
      scope.autoConfiguration.diagnostics = [] ∧
      analyzeBuilder environment builder = .ok result ∧
      result.selected = scope.autoConfiguration.selected ∧
      Analysis.Plans scope.catalog.descriptors scope.satisfied [] application.constructionPlan ∧
      (∃ ownership, application.moduleGraph =
        some (moduleGraph.setProviderOwnership ownership)) ∧
      ∃ applied, result.selected.foldlM
          (applySelected environment builder result.analysis.moduleGraph) builder.registry =
            .ok applied ∧
        application.constructionPlan.steps.foldlM
          (constructStep environment builder result.analysis.graph) applied =
            .ok application.context.registry := by
  obtain ⟨result, hok, hvalid, hplan, hmodules, hruns⟩ := build_cases h
  obtain ⟨scope, result', hscope, -, hrooted, hselected, -, -, hcases⟩ :=
    analyzeRooted_cases environment builder moduleGraph
  have hresult := hok
  simp only [analyzeBuilder, hroot, hgraph] at hresult
  obtain rfl : result' = result := Except.ok.inj (hrooted.symm.trans hresult)
  obtain ⟨-, -, hnil, -, plan, hplan', hplans, -, -⟩ := hcases hvalid
  obtain rfl : plan = application.constructionPlan := Option.some.inj (hplan'.symm.trans hplan)
  rw [hmodules]
  exact ⟨scope, result', hscope, hnil, hok, hselected, hplans,
    moduleGraph_of_analyzeRooted hrooted, hruns⟩

/-- A finished rooted application holds exactly the types that are given or reached. -/
theorem mem_registry_iff (hsound : builder.Sound) {root : RustType}
    (hroot : builder.root = some root)
    (hgraph : buildModuleGraph root.typeId (Catalog.modules environment.inventory) =
      .ok moduleGraph)
    {application : Application Config} (h : build environment builder = .ok application)
    {t : TypeId} :
    t ∈ application.context.registry.keys ↔ Available environment builder moduleGraph t := by
  obtain ⟨scope, result, hscope, hnil, hok, hselected, hplans, -, -⟩ := build_rooted hroot hgraph h
  obtain ⟨result', hok', -, -, hkeys⟩ := build_eq_ok hsound h
  obtain rfl : result' = result := Except.ok.inj (hok'.symm.trans hok)
  have hgiven : Given environment builder moduleGraph t ↔
      t ∈ builder.satisfied.map (·.typeId) ∨ t ∈ result'.selected.map (·.outputTypeId) := by
    rw [Given, hselected]
    refine or_congr_right ?_
    simp only [List.mem_map, mem_selected_iff hscope hnil]
    exact ⟨fun ⟨d, hmem, ht, hd⟩ => ⟨d, ⟨hmem, hd⟩, ht⟩, fun ⟨d, ⟨hmem, hd⟩, ht⟩ => ⟨d, hmem, ht, hd⟩⟩
  rw [hkeys, List.mem_append, List.mem_append, ← hgiven, Available, reaches_iff hscope hnil]
  constructor
  · rintro (hthere | hstep)
    · exact .inl hthere
    · obtain ⟨step, hmem, rfl⟩ := List.mem_map.mp hstep
      obtain ⟨hselected, -⟩ := (hplans.steps step.descriptor).mp ⟨step, hmem, rfl⟩
      exact .inr ⟨_, hselected, (hplans.typeId step hmem).symm⟩
  · rintro (hthere | ⟨d, hd, rfl⟩)
    · exact .inl hthere
    · by_cases hthere : Given environment builder moduleGraph d.typeId
      · exact .inl hthere
      · -- what is not given is planned
        rw [← isSatisfied_iff_given hscope hnil, Bool.not_eq_true] at hthere
        obtain ⟨step, hstep, hdescriptor⟩ := (hplans.steps d).mpr
          ⟨hd, Scope.isSatisfied_eq_false.mp hthere⟩
        exact .inr (List.mem_map.mpr ⟨step, hstep, by rw [hplans.typeId step hstep, hdescriptor]⟩)

/-! ### Values of their types -/

/-- A request hands over values of the types it names. -/
def Request.Typed (inventory : Inventory) : Request Config → Prop
  | .provide type value => value.typeId = type.typeId
  | .construct _ call => ∀ d ∈ inventory.providers, ∀ registry config value,
      call d.constructor_ registry config = .ok value → value.typeId = d.typeId
  | _ => True

theorem typed_after (h : builder.registry.Typed) {inventory : Inventory} {request : Request Config}
    (hrequest : request.Typed inventory) : (builder.after inventory request).registry.Typed := by
  unfold MadsBuilder.after
  cases hok : builder.request inventory request with
  | error halt => exact h
  | ok after =>
    cases request with
    | root module_ =>
      rw [MadsBuilder.request, selectRoot] at hok
      split at hok
      · simp [Run.fail] at hok
      · cases hok
        exact h
    | provide type value =>
      obtain ⟨registry, hinsert, hafter⟩ := Run.bind_eq_ok.mp hok
      cases hafter
      exact h.insertErased hrequest hinsert
    | construct type call =>
      obtain ⟨descriptor, hdescriptor, hok⟩ := Run.bind_eq_ok.mp hok
      obtain ⟨value, hvalue, hok⟩ := Run.bind_eq_ok.mp hok
      obtain ⟨registry, hinsert, hafter⟩ := Run.bind_eq_ok.mp hok
      cases hafter
      have hmem := (Catalog.providerFor_eq_ok hdescriptor).1
      exact h.insertErased (hrequest descriptor hmem _ _ _ hvalue) hinsert
    | input identifier value =>
      cases hok
      exact h

theorem typed_run (h : builder.registry.Typed) {inventory : Inventory}
    {requests : List (Request Config)} (hrequests : ∀ request ∈ requests, request.Typed inventory) :
    (builder.run inventory requests).registry.Typed := by
  induction requests generalizing builder with
  | nil => exact h
  | cons request requests ih =>
    exact ih (typed_after h (hrequests request List.mem_cons_self))
      fun r hr => hrequests r (List.mem_cons_of_mem _ hr)

end MadsBuilder

/-- Constructors and appliers return values of the types they were declared with. -/
structure Environment.Typed (environment : Environment Config) : Prop where
  construct : ∀ d ∈ environment.inventory.providers, ∀ registry config value,
    environment.construct d.constructor_ registry config = .ok value → value.typeId = d.typeId
  apply : ∀ d ∈ environment.autoConfigurations, ∀ context value,
    environment.apply d.applier context = .ok value → value.typeId = d.outputTypeId

namespace MadsBuilder

variable {environment : Environment Config} {builder : MadsBuilder Config}
  {moduleGraph : ModuleGraph}

theorem typed_build (henvironment : environment.Typed) (h : builder.registry.Typed)
    {root : RustType} (hroot : builder.root = some root)
    (hgraph : buildModuleGraph root.typeId (Catalog.modules environment.inventory) =
      .ok moduleGraph)
    {application : Application Config} (hbuild : build environment builder = .ok application) :
    application.context.registry.Typed := by
  obtain ⟨scope, result, hscope, hnil, -, hselected, hplans, -, applied, happlied, hconstructed⟩ :=
    build_rooted hroot hgraph hbuild
  have hintegrated : applied.Typed := by
    refine Run.foldlM_invariant (fun registry hregistry d hd after hafter => ?_) h happlied
    obtain ⟨value, hvalue, hinsert⟩ := Run.bind_eq_ok.mp hafter
    have hmem := ((mem_selected_iff hscope hnil).mp (hselected ▸ hd)).1
    exact hregistry.insertErased (henvironment.apply d hmem _ _ hvalue) hinsert
  refine Run.foldlM_invariant (fun registry hregistry step hstep after hafter => ?_) hintegrated
    hconstructed
  obtain ⟨scope', hscope', hfollows⟩ := selectRooted_ok environment builder moduleGraph
  obtain rfl : scope' = scope := Except.ok.inj (hscope'.symm.trans hscope)
  have hdeclared : step.descriptor ∈ environment.inventory.providers := by
    obtain ⟨hmem, -⟩ := (hplans.steps step.descriptor).mp ⟨step, hstep, rfl⟩
    obtain ⟨i, -, -, heq⟩ := hfollows.final.selects.mem_descriptors_iff.mp hmem
    rw [← heq]
    exact mem_sortBy.mp (List.getElem_mem _)
  unfold constructStep at hafter
  split at hafter
  · next value hvalue =>
    refine hregistry.insertErased ?_ hafter
    rw [hplans.typeId step hstep]
    exact henvironment.construct step.descriptor hdeclared _ _ _ hvalue
  · obtain ⟨error, -, hfail⟩ := Run.bind_eq_ok.mp hafter
    simp [Run.fail] at hfail
  · simp at hafter

end MadsBuilder

end Mads
