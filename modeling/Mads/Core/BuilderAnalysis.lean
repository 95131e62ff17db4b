import Mads.Core.AutoConfigurationSelection
import Mads.Core.Builder
import Mads.Core.ScopeSelection
import Mads.Core.ValidAnalysis

/-!
# Analyses of a builder
-/

namespace Mads

variable {Config : Type}

/-! ### Builders -/

namespace MadsBuilder

/-- What every builder keeps: it stores a value for exactly the types it calls satisfied. -/
def Sound (builder : MadsBuilder Config) : Prop :=
  builder.registry.keys = builder.satisfied.map (·.typeId)

theorem sound_new (config : Config) (configType : RustType) (value : ErasedProvider) :
    (new config configType value).Sound := rfl

theorem Sound.provide {builder after : MadsBuilder Config} (h : builder.Sound) {type : RustType}
    {value : ErasedProvider} (hok : builder.provide type value = .ok after) : after.Sound := by
  obtain ⟨registry, hinsert, hafter⟩ := Run.bind_eq_ok.mp hok
  obtain rfl := Except.ok.inj hafter
  rw [Sound] at h
  simp [Sound, ProviderRegistry.keys_of_insertErased hinsert, h, SatisfiedProvider.provided]

theorem Sound.construct {builder after : MadsBuilder Config} (h : builder.Sound)
    {inventory : Inventory} {call : Constructor Config} {type : RustType}
    (hok : MadsBuilder.construct inventory call builder type = .ok after) : after.Sound := by
  obtain ⟨descriptor, hdescriptor, hok⟩ := Run.bind_eq_ok.mp hok
  obtain ⟨value, -, hok⟩ := Run.bind_eq_ok.mp hok
  obtain ⟨registry, hinsert, hafter⟩ := Run.bind_eq_ok.mp hok
  obtain rfl := Except.ok.inj hafter
  have htype : descriptor.typeId = type.typeId := (Catalog.providerFor_eq_ok hdescriptor).2
  rw [Sound] at h
  simp [Sound, ProviderRegistry.keys_of_insertErased hinsert, h, htype,
    SatisfiedProvider.preconstructed]

theorem Sound.after {builder : MadsBuilder Config} (h : builder.Sound) (inventory : Inventory)
    (request : Request Config) : (builder.after inventory request).Sound := by
  unfold MadsBuilder.after
  cases hrequest : builder.request inventory request with
  | error halt => exact h
  | ok after =>
    cases request with
    | root module_ =>
      rw [MadsBuilder.request, selectRoot] at hrequest
      split at hrequest
      · simp [Run.fail] at hrequest
      · obtain rfl := Except.ok.inj hrequest
        exact h
    | provide type value => exact h.provide hrequest
    | construct type call => exact h.construct hrequest
    | input identifier value =>
      obtain rfl := Except.ok.inj hrequest
      exact h

theorem Sound.run {builder : MadsBuilder Config} (h : builder.Sound) (inventory : Inventory)
    (requests : List (Request Config)) : (builder.run inventory requests).Sound := by
  induction requests generalizing builder with
  | nil => exact h
  | cons request requests ih => exact ih (h.after inventory request)

end MadsBuilder

/-! ### Valid analyses -/

/-- Diagnostics that are put around an analysis take its plan away. -/
theorem GraphAnalysis.isValid_around {analysis : GraphAnalysis} (before after : List Diagnostic)
    (hplan : (analysis.diagnostics ≠ [] ∧ analysis.constructionPlan = none) ∨
      (analysis.diagnostics = [] ∧ analysis.constructionPlan.isSome)) :
    ((analysis.prependDiagnostics before).appendDiagnostics after).diagnostics =
        before ++ analysis.diagnostics ++ after ∧
      (((analysis.prependDiagnostics before).appendDiagnostics after).isValid ↔
        before = [] ∧ analysis.diagnostics = [] ∧ after = []) := by
  obtain ⟨hne, hnone⟩ | ⟨hnil, hsome⟩ := hplan <;>
    cases before <;> cases after <;>
    simp_all [GraphAnalysis.prependDiagnostics, GraphAnalysis.appendDiagnostics,
      GraphAnalysis.isValid]

theorem GraphAnalysis.prependDiagnostics_eq_self {analysis : GraphAnalysis}
    {diagnostics : List Diagnostic} (h : (analysis.prependDiagnostics diagnostics).isValid = true) :
    analysis.prependDiagnostics diagnostics = analysis := by
  cases diagnostics with
  | nil => rfl
  | cons => cases h

theorem GraphAnalysis.appendDiagnostics_eq_self {analysis : GraphAnalysis}
    {diagnostics : List Diagnostic} (h : (analysis.appendDiagnostics diagnostics).isValid = true) :
    analysis.appendDiagnostics diagnostics = analysis := by
  cases diagnostics with
  | nil => rfl
  | cons => simp [GraphAnalysis.appendDiagnostics, GraphAnalysis.isValid] at h

namespace RootedScope

theorem coveredMissing_eq_nil_iff (scope : RootedScope Config) : scope.coveredMissing = [] ↔
    scope.autoConfiguration.coveredMissing = [] ∧ scope.catalog.coveredMissing = [] := by
  have hmem : ∀ (more covered : List TypeId) (t : TypeId), t ∈ more.foldl
      (fun covered typeId => if typeId ∈ covered then covered else covered ++ [typeId]) covered ↔
        t ∈ covered ∨ t ∈ more := by
    intro more
    induction more with
    | nil => simp
    | cons a more ih =>
      intro covered t
      rw [List.foldl_cons, ih]
      by_cases ha : a ∈ covered
      · rw [if_pos ha, List.mem_cons]
        refine ⟨fun h => h.imp_right .inr, fun h => ?_⟩
        obtain h | rfl | h := h
        · exact .inl h
        · exact .inl ha
        · exact .inr h
      · rw [if_neg ha, List.mem_append, List.mem_singleton, List.mem_cons, or_assoc]
  simp only [List.eq_nil_iff_forall_not_mem, coveredMissing, hmem, not_or, forall_and]

/-- The phases of a rooted analysis, each on the results of the ones before. -/
structure Follows (environment : Environment Config) (builder : MadsBuilder Config)
    (moduleGraph : ModuleGraph) (scope : RootedScope Config) : Prop where
  initial : Scope.Bounded moduleGraph (Catalog.modules environment.inventory)
    (Catalog.providers environment.inventory) builder.satisfied scope.initialScope
  configured : scope.autoConfiguration = MadsBuilder.autoConfigure environment builder
    scope.initialScope.descriptors (some moduleGraph)
  satisfied_eq : scope.satisfied = builder.satisfied ++ scope.autoConfiguration.virtualSatisfied
  final : Scope.Bounded moduleGraph (Catalog.modules environment.inventory)
    (Catalog.providers environment.inventory) scope.satisfied scope.catalog

end RootedScope

namespace MadsBuilder

variable (environment : Environment Config) (builder : MadsBuilder Config)

theorem selectRooted_ok (moduleGraph : ModuleGraph) :
    ∃ scope, selectRooted environment builder moduleGraph = .ok scope ∧
      scope.Follows environment builder moduleGraph := by
  obtain ⟨initialScope, hinitial, hbounded⟩ := selectScopedProviders_bounded moduleGraph
    (Catalog.modules environment.inventory) (Catalog.providers environment.inventory)
    builder.satisfied
  obtain ⟨catalog, hcatalog, hbounded'⟩ := selectScopedProviders_bounded moduleGraph
    (Catalog.modules environment.inventory) (Catalog.providers environment.inventory)
    (builder.satisfied ++ (autoConfigure environment builder initialScope.descriptors
      (some moduleGraph)).virtualSatisfied)
  exact ⟨_, by simp only [selectRooted, hinitial, hcatalog, Run.ok_bind]; rfl,
    hbounded, rfl, rfl, hbounded'⟩

variable {environment builder} in
theorem selectRooted_eq_ok {moduleGraph : ModuleGraph} {scope : RootedScope Config} :
    selectRooted environment builder moduleGraph = .ok scope ↔
      selectScopedProviders moduleGraph (Catalog.modules environment.inventory)
        (Catalog.providers environment.inventory) builder.satisfied = .ok scope.initialScope ∧
      scope.autoConfiguration =
        autoConfigure environment builder scope.initialScope.descriptors (some moduleGraph) ∧
      scope.satisfied = builder.satisfied ++ scope.autoConfiguration.virtualSatisfied ∧
      selectScopedProviders moduleGraph (Catalog.modules environment.inventory)
        (Catalog.providers environment.inventory) scope.satisfied = .ok scope.catalog := by
  constructor
  · intro h
    obtain ⟨initialScope, hinitial, h⟩ := Run.bind_eq_ok.mp h
    obtain ⟨catalog, hcatalog, h⟩ := Run.bind_eq_ok.mp h
    obtain rfl := Except.ok.inj h
    exact ⟨hinitial, rfl, rfl, hcatalog⟩
  · obtain ⟨initialScope, autoConfiguration, satisfied, catalog⟩ := scope
    dsimp only
    rintro ⟨hinitial, rfl, rfl, hcatalog⟩
    simp only [selectRooted, hinitial, hcatalog, Run.ok_bind]
    rfl

/-- What an evaluation pass of a builder selects. -/
theorem autoConfigure_selects (providers : List ProviderDescriptor)
    (moduleGraph : Option ModuleGraph) :
    AutoConfiguration.Selects environment.autoConfigurations builder.config
      builder.autoConfigurationInputs moduleGraph providers builder.satisfied
      (autoConfigure environment builder providers moduleGraph) := by
  obtain ⟨hactive, hnodup, hvirtual, hcovered, hunfailed⟩ := AutoConfiguration.analyzeParts_selects
    (AutoConfiguration.descriptors environment.autoConfigurations) providers builder.satisfied
    builder.config builder.autoConfigurationInputs moduleGraph
  exact ⟨fun d hd => ⟨mem_sortBy.mp (hactive d hd).1, (hactive d hd).2⟩, hnodup, hvirtual, hcovered,
    fun hnil d hd => hunfailed hnil d (mem_sortBy.mpr hd)⟩

/-- What the construction of a valid analysis relies on: the integrations were active for this
builder and have different outputs, and the plan builds what is not there yet, dependencies first. -/
structure Constructible (result : BuilderAnalysis Config) (plan : ConstructionPlan) : Prop where
  active : ∀ d ∈ result.selected, d ∈ environment.autoConfigurations ∧
    ∃ context : AutoConfigurationContext Config, context.satisfied = builder.satisfied ∧
      (d.evaluator context).status = .active
  outputs_nodup : (result.selected.map (·.outputTypeId)).Nodup
  once : (plan.steps.map (·.typeId)).Nodup
  fresh : ∀ t ∈ plan.steps.map (·.typeId),
    t ∉ builder.satisfied.map (·.typeId) ∧ t ∉ result.selected.map (·.outputTypeId)
  resolved : ∀ front step back, plan.steps = front ++ step :: back →
    ∀ dependency ∈ step.descriptor.dependencies, dependency.typeId ∈ front.map (·.typeId) ∨
      dependency.typeId ∈ builder.satisfied.map (·.typeId) ∨
      dependency.typeId ∈ result.selected.map (·.outputTypeId)

variable {environment builder}

/-- An analysis with no missing type covered makes a plan that can be constructed. -/
theorem constructible_of_plans {result : BuilderAnalysis Config} {graph : ApplicationGraph}
    {plan : ConstructionPlan} {descriptors providers : List ProviderDescriptor}
    {moduleGraph : Option ModuleGraph}
    (hselected : result.selected =
      (autoConfigure environment builder providers moduleGraph).selected)
    (hplan : Analysis.PlanOf graph plan)
    (hplans : Analysis.Plans descriptors (builder.satisfied ++
      (autoConfigure environment builder providers moduleGraph).virtualSatisfied) [] plan) :
    Constructible environment builder result plan := by
  have hselects := autoConfigure_selects environment builder providers moduleGraph
  have houtputs : ((autoConfigure environment builder providers moduleGraph).virtualSatisfied.map
      (·.typeId)) = result.selected.map (·.outputTypeId) := by
    rw [hselects.virtual, hselected, List.map_map]
    rfl
  have hsatisfied : ∀ t, (∃ s ∈ builder.satisfied ++
      (autoConfigure environment builder providers moduleGraph).virtualSatisfied, s.typeId = t) ↔
      t ∈ builder.satisfied.map (·.typeId) ∨ t ∈ result.selected.map (·.outputTypeId) := by
    intro t
    rw [← houtputs, ← List.mem_append, ← List.map_append, List.mem_map]
  refine ⟨fun d hd => ?_, hselected ▸ hselects.outputs_nodup, hplan.once, fun t ht => ?_, ?_⟩
  · rw [hselected] at hd
    obtain ⟨hmem, hactive⟩ := hselects.active d hd
    exact ⟨hmem, _, rfl, hactive⟩
  · obtain ⟨step, hstep, rfl⟩ := List.mem_map.mp ht
    have hunsatisfied := ((hplans.steps step.descriptor).mp ⟨step, hstep, rfl⟩).2
    rw [← not_or, ← hsatisfied, hplans.typeId step hstep]
    rintro ⟨s, hs, htype⟩
    exact hunsatisfied s hs htype
  · intro front step back hsplit dependency hdependency
    obtain hfront | hthere | hcovered := hplans.resolved front step back hsplit dependency
      hdependency
    · exact .inl hfront
    · exact .inr ((hsatisfied _).mp hthere)
    · exact absurd hcovered List.not_mem_nil

variable (environment builder)

/-- A rooted analysis always returns. Where it covers a missing type it reports something, and where
it is valid neither selection nor the integrations reported anything. -/
theorem analyzeRooted_cases (moduleGraph : ModuleGraph) :
    ∃ scope result, selectRooted environment builder moduleGraph = .ok scope ∧
      scope.Follows environment builder moduleGraph ∧
      analyzeRooted environment builder moduleGraph = .ok result ∧
      result.selected = scope.autoConfiguration.selected ∧
      (scope.coveredMissing ≠ [] → result.analysis.diagnostics ≠ []) ∧
      (∀ g ∈ scope.catalog.diagnostics, g ∈ result.analysis.diagnostics) ∧
      (result.analysis.isValid → scope.catalog.diagnostics = [] ∧
        (scope.catalog.descriptors.map (·.typeId)).Nodup ∧
        scope.autoConfiguration.diagnostics = [] ∧ result.analysis.diagnostics = [] ∧
        ∃ plan, result.analysis.constructionPlan = some plan ∧
          Analysis.Plans scope.catalog.descriptors scope.satisfied [] plan ∧
          Analysis.PlanOf result.analysis.graph plan ∧
          Constructible environment builder result plan) := by
  obtain ⟨scope, hscope, hfollows⟩ := selectRooted_ok environment builder moduleGraph
  obtain ⟨inner, hinner, -, -, hcases⟩ := analyzeParts_cases scope.catalog.descriptors
    scope.satisfied scope.coveredMissing
  have hselects := autoConfigure_selects environment builder scope.initialScope.descriptors
    (some moduleGraph)
  rw [← hfollows.configured] at hselects
  obtain ⟨hdiagnostics, hvalid⟩ := inner.isValid_around scope.catalog.diagnostics
    scope.autoConfiguration.diagnostics (by
      obtain h | ⟨hnil, -, plan, hplan, -⟩ := hcases
      · exact .inl h
      · exact .inr ⟨hnil, by simp [hplan]⟩)
  -- a missing provider is left out of the analysis only where its cause is reported
  have hcovered : scope.coveredMissing ≠ [] →
      scope.catalog.diagnostics ++ inner.diagnostics ++ scope.autoConfiguration.diagnostics ≠
        [] := by
    intro hne hnil
    simp only [List.append_eq_nil_iff] at hnil
    refine hne (scope.coveredMissing_eq_nil_iff.mpr ⟨?_, ?_⟩)
    · by_contra h
      exact hselects.covered h hnil.2
    · by_contra h
      exact hfollows.final.selects.covered h hnil.1.1
  refine ⟨scope, _, hscope, hfollows, by
    simp only [analyzeRooted, hscope, hinner, Run.ok_bind]; rfl, rfl, ?_, ?_, ?_⟩
  · exact fun hne => by simpa [GraphAnalysis.setModuleGraph, hdiagnostics] using hcovered hne
  · intro g hg
    simp [GraphAnalysis.setModuleGraph, hdiagnostics, hg]
  · intro hisValid
    obtain ⟨hcatalog, hnil, hauto⟩ := hvalid.mp hisValid
    have hnone : scope.coveredMissing = [] := by
      by_contra hne
      exact hcovered hne (by simp [hcatalog, hnil, hauto])
    obtain ⟨hne, -⟩ | ⟨-, hnodup, plan, hplan, hplanOf, hplans⟩ := hcases
    · exact absurd hnil hne
    · rw [hnone] at hplans
      have hplain : (inner.prependDiagnostics scope.catalog.diagnostics).appendDiagnostics
          scope.autoConfiguration.diagnostics = inner := by
        simp [hcatalog, hauto, GraphAnalysis.prependDiagnostics, GraphAnalysis.appendDiagnostics]
      refine ⟨hcatalog, hnodup, hauto, by simp [GraphAnalysis.setModuleGraph, hplain, hnil], plan,
        ?_, hplans, ?_, ?_⟩
      · simp [GraphAnalysis.setModuleGraph, hplain, hplan]
      · simpa [GraphAnalysis.setModuleGraph, hplain] using hplanOf
      · rw [hfollows.satisfied_eq, hfollows.configured] at hplans
        exact constructible_of_plans (congrArg AutoConfiguration.Analysis.selected
          hfollows.configured) hplanOf hplans

variable {environment builder} in
/-- An analysis keeps the module graph it was made with, and adds the owners to it. -/
theorem moduleGraph_of_analyzeRooted {moduleGraph : ModuleGraph} {result : BuilderAnalysis Config}
    (h : analyzeRooted environment builder moduleGraph = .ok result) :
    ∃ ownership, result.analysis.moduleGraph =
      some (moduleGraph.setProviderOwnership ownership) := by
  obtain ⟨scope, -, h⟩ := Run.bind_eq_ok.mp h
  obtain ⟨analysis, -, h⟩ := Run.bind_eq_ok.mp h
  obtain rfl := Except.ok.inj h
  exact ⟨_, rfl⟩

/-- A rooted analysis that reports nothing is valid, and none of its integrations failed. -/
theorem analyzeRooted_of_diagnostics {moduleGraph : ModuleGraph} {result : BuilderAnalysis Config}
    (h : analyzeRooted environment builder moduleGraph = .ok result)
    (hnil : result.analysis.diagnostics = []) :
    result.analysis.isValid ∧
      ∀ report ∈ result.analysis.autoConfigurations, report.status ≠ .failed := by
  obtain ⟨scope, hscope, hfollows⟩ := selectRooted_ok environment builder moduleGraph
  obtain ⟨inner, hinner, -, -, hcases⟩ := analyzeParts_cases scope.catalog.descriptors
    scope.satisfied scope.coveredMissing
  obtain ⟨hdiagnostics, hvalid⟩ := inner.isValid_around scope.catalog.diagnostics
    scope.autoConfiguration.diagnostics (by
      obtain h | ⟨hnil, -, plan, hplan, -⟩ := hcases
      · exact .inl h
      · exact .inr ⟨hnil, by simp [hplan]⟩)
  simp only [analyzeRooted, hscope, hinner, Run.ok_bind] at h
  obtain rfl := Except.ok.inj h
  have hparts := hdiagnostics.symm.trans hnil
  rw [List.append_eq_nil_iff, List.append_eq_nil_iff] at hparts
  refine ⟨hvalid.mpr ⟨hparts.1.1, hparts.1.2, hparts.2⟩, ?_⟩
  intro report hreport
  change report ∈ scope.autoConfiguration.reports at hreport
  rw [hfollows.configured] at hreport hparts
  exact AutoConfiguration.reports_unfailed hparts.2 report hreport

theorem moduleDiagnostics_ok (modules : List ModuleDescriptor) :
    ∃ diagnostics, moduleDiagnostics modules = .ok diagnostics := by
  have hloop : ∀ xs : List (ModuleDescriptor × ℕ), ∀ f : ModuleDescriptor × ℕ → Run Error Unit,
      (∀ x ∈ xs, f x = .ok () ∨ ∃ e, f x = .error (.err e)) →
      xs.forM f = .ok () ∨ ∃ e, xs.forM f = .error (.err e) := by
    intro xs f
    induction xs with
    | nil => exact fun _ => .inl rfl
    | cons x xs ih =>
      intro h
      change (f x >>= fun _ => xs.forM f) = _ ∨ ∃ e, (f x >>= fun _ => xs.forM f) = _
      obtain hx | ⟨e, hx⟩ := h x List.mem_cons_self
      · rw [hx, Run.ok_bind]
        exact ih fun y hy => h y (List.mem_cons_of_mem _ hy)
      · exact .inr ⟨e, by rw [hx, Run.error_bind]⟩
  have hcatalog : validateModuleCatalog modules = .ok () ∨
      ∃ e, validateModuleCatalog modules = .error (.err e) := by
    refine hloop _ _ ?_
    rintro ⟨descriptor, index⟩ -
    dsimp only
    split
    · exact .inl rfl
    · next name hname =>
      split
      · exact .inl rfl
      · exact .inr (moduleNamespaceError_eq_err _ (by simp [hname]))
  unfold moduleDiagnostics
  obtain hok | ⟨e, herr⟩ := hcatalog
  · exact ⟨_, by rw [hok]⟩
  · exact ⟨_, by rw [herr]⟩

theorem analyzeCompleteCatalog_cases :
    ∃ result, analyzeCompleteCatalog environment builder = .ok result ∧
      ((autoConfigure environment builder (Catalog.providers environment.inventory)
        none).coveredMissing ≠ [] → result.analysis.diagnostics ≠ []) ∧
      (result.analysis.isValid → result.analysis.diagnostics = [] ∧
        ∃ plan, result.analysis.constructionPlan = some plan ∧
          Constructible environment builder result plan) := by
  obtain ⟨before, hbefore⟩ := moduleDiagnostics_ok (Catalog.modules environment.inventory)
  have hselects := autoConfigure_selects environment builder
    (Catalog.providers environment.inventory) none
  generalize hauto : autoConfigure environment builder (Catalog.providers environment.inventory)
    none = auto at hselects
  obtain ⟨inner, hinner, -, -, hcases⟩ := analyzeParts_cases
    (Catalog.providers environment.inventory) (builder.satisfied ++ auto.virtualSatisfied)
    auto.coveredMissing
  have hplan : (inner.diagnostics ≠ [] ∧ inner.constructionPlan = none) ∨
      (inner.diagnostics = [] ∧ inner.constructionPlan.isSome) := by
    obtain h | ⟨hnil, -, plan, hplan, -⟩ := hcases
    · exact .inl h
    · exact .inr ⟨hnil, by simp [hplan]⟩
  -- the reports do not touch the diagnostics or the plan
  have hreports : ∀ analysis : GraphAnalysis,
      ({ analysis with autoConfigurations := auto.reports }.appendDiagnostics auto.diagnostics) =
        { analysis.appendDiagnostics auto.diagnostics with
          autoConfigurations := auto.reports } := by
    intro analysis
    unfold GraphAnalysis.appendDiagnostics
    split <;> rfl
  obtain ⟨hdiagnostics, hvalid⟩ := inner.isValid_around before auto.diagnostics hplan
  refine ⟨_, by
    simp only [analyzeCompleteCatalog, hbefore, hauto, hinner, Run.ok_bind, hreports]; rfl, ?_, ?_⟩
  · intro hne
    have := hselects.covered hne
    simp [hdiagnostics, this]
  · intro hisValid
    obtain ⟨hmodules, hnil, hnone⟩ := hvalid.mp hisValid
    have hcovered : auto.coveredMissing = [] := by
      by_contra hne
      exact hselects.covered hne hnone
    obtain ⟨hne, -⟩ | ⟨-, -, plan, hsome, hplanOf, hplans⟩ := hcases
    · exact absurd hnil hne
    · have hplain : (inner.prependDiagnostics before).appendDiagnostics auto.diagnostics =
          inner := by
        simp [hmodules, hnone, GraphAnalysis.prependDiagnostics, GraphAnalysis.appendDiagnostics]
      refine ⟨by simp [hplain, hnil], plan, by simp [hplain, hsome], ?_⟩
      rw [hcovered, ← hauto] at hplans
      exact constructible_of_plans (by rw [hauto]) hplanOf hplans

/-- The analysis of a builder always returns, and a valid one can be constructed. -/
theorem analyzeBuilder_cases :
    ∃ result, analyzeBuilder environment builder = .ok result ∧
      (result.analysis.isValid → result.analysis.diagnostics = [] ∧
        ∃ plan, result.analysis.constructionPlan = some plan ∧
          Constructible environment builder result plan) := by
  unfold analyzeBuilder
  cases builder.root with
  | none =>
    obtain ⟨result, hok, -, hvalid⟩ := analyzeCompleteCatalog_cases environment builder
    exact ⟨result, hok, hvalid⟩
  | some root =>
    obtain ⟨moduleGraph, hgraph, -⟩ | ⟨e, herr, -⟩ := buildModuleGraph_cases
      (Catalog.modules environment.inventory) root.typeId
    · obtain ⟨scope, result, -, -, hok, -, -, -, hvalid⟩ :=
        analyzeRooted_cases environment builder moduleGraph
      refine ⟨result, by simp only [hgraph, hok], fun hisValid => ?_⟩
      obtain ⟨-, -, -, hnil, plan, hplan, -, -, hconstructible⟩ := hvalid hisValid
      exact ⟨hnil, plan, hplan, hconstructible⟩
    · refine ⟨_, by simp only [herr]; rfl, fun hisValid => ?_⟩
      simp [GraphAnalysis.isValid, GraphAnalysis.invalid] at hisValid

variable {environment builder} in
/-- A valid analysis of a builder shows the graph and the plan of its declarations unchanged. -/
theorem parts_of_analyzeBuilder {result : BuilderAnalysis Config}
    (h : analyzeBuilder environment builder = .ok result) (hvalid : result.analysis.isValid = true) :
    ∃ descriptors satisfied coveredMissing parts,
      analyzeParts descriptors satisfied coveredMissing = .ok parts ∧ parts.isValid = true ∧
      result.analysis.graph = parts.graph ∧
      result.analysis.constructionPlan = parts.constructionPlan := by
  rw [analyzeBuilder] at h
  split at h
  · obtain ⟨before, -, h⟩ := Run.bind_eq_ok.mp h
    obtain ⟨parts, hparts, h⟩ := Run.bind_eq_ok.mp h
    obtain rfl := Except.ok.inj h
    have hafter := GraphAnalysis.appendDiagnostics_eq_self hvalid
    rw [hafter] at hvalid ⊢
    have hbefore : parts.prependDiagnostics before = parts :=
      GraphAnalysis.prependDiagnostics_eq_self hvalid
    rw [hbefore] at hvalid ⊢
    exact ⟨_, _, _, parts, hparts, hvalid, rfl, rfl⟩
  · split at h
    · obtain ⟨scope, -, h⟩ := Run.bind_eq_ok.mp h
      obtain ⟨parts, hparts, h⟩ := Run.bind_eq_ok.mp h
      obtain rfl := Except.ok.inj h
      have hafter := GraphAnalysis.appendDiagnostics_eq_self hvalid
      dsimp only at hafter hvalid ⊢
      rw [hafter] at hvalid ⊢
      have hbefore : parts.prependDiagnostics scope.catalog.diagnostics = parts :=
        GraphAnalysis.prependDiagnostics_eq_self hvalid
      rw [hbefore] at hvalid ⊢
      exact ⟨_, _, _, parts, hparts, hvalid, rfl, rfl⟩
    · obtain rfl := Except.ok.inj h
      cases hvalid
    · cases h

/-- The analysis of a root that reports nothing has a module graph, and none of its integrations
failed. -/
theorem analyzeBuilder_of_diagnostics {root : RustType} (hroot : builder.root = some root)
    {result : BuilderAnalysis Config} (hok : analyzeBuilder environment builder = .ok result)
    (hnil : result.analysis.diagnostics = []) :
    result.analysis.isValid ∧ result.analysis.moduleGraph.isSome ∧
      ∀ report ∈ result.analysis.autoConfigurations, report.status ≠ .failed := by
  simp only [analyzeBuilder, hroot] at hok
  obtain ⟨moduleGraph, hgraph, -⟩ | ⟨e, herr, -⟩ := buildModuleGraph_cases
    (Catalog.modules environment.inventory) root.typeId
  · simp only [hgraph] at hok
    obtain ⟨ownership, hmodules⟩ := moduleGraph_of_analyzeRooted hok
    obtain ⟨hvalid, hreports⟩ := analyzeRooted_of_diagnostics environment builder hok hnil
    exact ⟨hvalid, by rw [hmodules]; rfl, hreports⟩
  · simp only [herr] at hok
    obtain rfl := Except.ok.inj hok
    cases hnil

end MadsBuilder

end Mads
