import Mads.Core.BuilderAnalysis

/-!
# The registry during a build
-/

namespace Mads

variable {Config : Type}

namespace ProviderRegistry

variable {α : Type} {insert : ProviderRegistry → α → Run Error ProviderRegistry}
  {typeOf : α → TypeId}

/-- Inserting new types one after the other succeeds as long as their values are there. -/
theorem insertAll_ok {Returns : ProviderRegistry → α → Prop}
    (hinsert : ∀ registry a, Returns registry a → typeOf a ∉ registry.keys →
      ∃ after, insert registry a = .ok after ∧ after.keys = registry.keys ++ [typeOf a])
    {xs : List α} {registry : ProviderRegistry} (hnodup : (xs.map typeOf).Nodup)
    (hnew : ∀ t ∈ xs.map typeOf, t ∉ registry.keys)
    (hreturns : ∀ before a rest, xs = before ++ a :: rest →
      ∀ current, before.foldlM insert registry = .ok current → Returns current a) :
    ∃ after, xs.foldlM insert registry = .ok after ∧
      after.keys = registry.keys ++ xs.map typeOf := by
  induction xs generalizing registry with
  | nil => exact ⟨registry, rfl, by simp⟩
  | cons a xs ih =>
    rw [List.map_cons, List.nodup_cons] at hnodup
    obtain ⟨next, hnext, hkeys⟩ := hinsert registry a (hreturns [] a xs rfl registry rfl)
      (hnew _ List.mem_cons_self)
    obtain ⟨after, hafter, hkeys'⟩ := ih hnodup.2 (fun t ht => by
      rw [hkeys, List.mem_append, List.mem_singleton, not_or]
      refine ⟨hnew t (List.mem_cons_of_mem _ ht), ?_⟩
      rintro rfl
      exact hnodup.1 ht) (fun before b rest hsplit current hcurrent => by
        refine hreturns (a :: before) b rest (by rw [hsplit]; rfl) current ?_
        rw [List.foldlM_cons, hnext, Run.ok_bind]
        exact hcurrent)
    exact ⟨after, by rw [List.foldlM_cons, hnext, Run.ok_bind, hafter], by simp [hkeys', hkeys]⟩

theorem keys_of_insertAll
    (hinsert : ∀ registry a after, insert registry a = .ok after →
      after.keys = registry.keys ++ [typeOf a])
    {xs : List α} {registry after : ProviderRegistry}
    (h : xs.foldlM insert registry = .ok after) :
    after.keys = registry.keys ++ xs.map typeOf := by
  induction xs generalizing registry with
  | nil =>
    obtain rfl := Except.ok.inj h
    simp
  | cons a xs ih =>
    rw [List.foldlM_cons] at h
    obtain ⟨next, hnext, hrest⟩ := Run.bind_eq_ok.mp h
    rw [ih hrest, hinsert registry a next hnext]
    simp

end ProviderRegistry

theorem GraphAnalysis.intoValidParts_eq {analysis : GraphAnalysis} {plan : ConstructionPlan}
    (hnil : analysis.diagnostics = []) (hplan : analysis.constructionPlan = some plan) :
    analysis.intoValidParts =
      .ok (analysis.graph, plan, analysis.autoConfigurations, analysis.moduleGraph) := by
  simp [intoValidParts, hnil, hplan]

namespace MadsBuilder

variable (environment : Environment Config) (builder : MadsBuilder Config)

/-- The applier of an integration hands back a provider. -/
def ApplierReturns (moduleGraph : Option ModuleGraph)
    (descriptor : AutoConfigurationDescriptor Config) : Prop :=
  ∃ provider, environment.apply descriptor.applier
    ⟨descriptor.identifier, builder.config, builder.autoConfigurationInputs, moduleGraph⟩ =
      .ok provider

/-- Every constructor called for `steps` hands back a provider, given the registry it sees. -/
def ConstructorsReturn (graph : ApplicationGraph) (registry : ProviderRegistry)
    (steps : List ConstructionStep) : Prop :=
  ∀ before step rest, steps = before ++ step :: rest → ∀ current,
    before.foldlM (constructStep environment builder graph) registry = .ok current →
      ∃ value, environment.construct step.descriptor.constructor_ current builder.config = .ok value

/-- The registry through a build: while the appliers and constructors return, it holds the satisfied
types, the outputs applied so far and the steps constructed so far, in that order. No insertion
conflicts, and each step finds its dependencies. -/
structure Resolves (result : BuilderAnalysis Config) (plan : ConstructionPlan) : Prop where
  applied : ∀ front back, result.selected = front ++ back →
    (∀ d ∈ front, ApplierReturns environment builder result.analysis.moduleGraph d) →
    ∃ registry, front.foldlM
        (applySelected environment builder result.analysis.moduleGraph) builder.registry =
          .ok registry ∧
      registry.keys = builder.satisfied.map (·.typeId) ++ front.map (·.outputTypeId)
  constructed : ∀ registry, result.selected.foldlM
      (applySelected environment builder result.analysis.moduleGraph) builder.registry =
        .ok registry →
    ∀ front back, plan.steps = front ++ back →
      ConstructorsReturn environment builder result.analysis.graph registry front →
      ∃ current, front.foldlM (constructStep environment builder result.analysis.graph) registry =
          .ok current ∧
        current.keys = builder.satisfied.map (·.typeId) ++
          result.selected.map (·.outputTypeId) ++ front.map (·.typeId) ∧
        ∀ step rest, back = step :: rest →
          (∀ dependency ∈ step.descriptor.dependencies, dependency.typeId ∈ current.keys) ∧
          ∀ value, ∃ next, current.insertErased step.typeId step.typeName value = .ok next

variable {environment builder}

theorem keys_of_applySelected {moduleGraph : Option ModuleGraph}
    {registry after : ProviderRegistry} {d : AutoConfigurationDescriptor Config}
    (h : applySelected environment builder moduleGraph registry d = .ok after) :
    after.keys = registry.keys ++ [d.outputTypeId] := by
  obtain ⟨provider, -, hinsert⟩ := Run.bind_eq_ok.mp h
  exact ProviderRegistry.keys_of_insertErased hinsert

theorem applySelected_ok {moduleGraph : Option ModuleGraph} {registry : ProviderRegistry}
    {d : AutoConfigurationDescriptor Config}
    (hreturns : ApplierReturns environment builder moduleGraph d)
    (hnew : d.outputTypeId ∉ registry.keys) :
    ∃ after, applySelected environment builder moduleGraph registry d = .ok after ∧
      after.keys = registry.keys ++ [d.outputTypeId] := by
  obtain ⟨provider, hprovider⟩ := hreturns
  obtain ⟨after, hinsert⟩ := ProviderRegistry.insertErased_ok hnew
  have hok : applySelected environment builder moduleGraph registry d = .ok after := by
    rw [applySelected, hprovider, Run.ok_bind]
    exact hinsert
  exact ⟨after, hok, keys_of_applySelected hok⟩

theorem keys_of_constructStep {graph : ApplicationGraph} {registry after : ProviderRegistry}
    {step : ConstructionStep}
    (h : constructStep environment builder graph registry step = .ok after) :
    after.keys = registry.keys ++ [step.typeId] := by
  unfold constructStep at h
  split at h
  · exact ProviderRegistry.keys_of_insertErased h
  · obtain ⟨error, -, hfail⟩ := Run.bind_eq_ok.mp h
    simp [Run.fail] at hfail
  · simp at h

theorem constructStep_ok {graph : ApplicationGraph} {registry : ProviderRegistry}
    {step : ConstructionStep}
    (hreturns : ∃ value, environment.construct step.descriptor.constructor_ registry
      builder.config = .ok value)
    (hnew : step.typeId ∉ registry.keys) :
    ∃ after, constructStep environment builder graph registry step = .ok after ∧
      after.keys = registry.keys ++ [step.typeId] := by
  obtain ⟨value, hvalue⟩ := hreturns
  obtain ⟨after, hinsert⟩ := ProviderRegistry.insertErased_ok hnew
  have hok : constructStep environment builder graph registry step = .ok after := by
    rw [constructStep, hvalue]
    exact hinsert
  exact ⟨after, hok, keys_of_constructStep hok⟩

/-- An evaluator is active only for an output that the application does not provide itself. -/
def ActiveOnlyIfAbsent (environment : Environment Config) : Prop :=
  ∀ d ∈ environment.autoConfigurations, ∀ context : AutoConfigurationContext Config,
    (d.evaluator context).status = .active →
      (∀ s ∈ context.satisfied, s.typeId ≠ d.outputTypeId) ∧
        ∀ p ∈ context.providers, p.typeId ≠ d.outputTypeId

/-- No integration makes what is there already. -/
def OutputsNew (builder : MadsBuilder Config) (result : BuilderAnalysis Config) : Prop :=
  ∀ d ∈ result.selected, d.outputTypeId ∉ builder.satisfied.map (·.typeId)

theorem Constructible.outputsNew {result : BuilderAnalysis Config} {plan : ConstructionPlan}
    (h : Constructible environment builder result plan)
    (habsent : ActiveOnlyIfAbsent environment) : OutputsNew builder result := by
  intro d hd hthere
  obtain ⟨hmem, context, hcontext, hactive⟩ := h.active d hd
  obtain ⟨hfree, -⟩ := habsent d hmem context hactive
  obtain ⟨s, hs, htype⟩ := List.mem_map.mp hthere
  exact hfree s (hcontext ▸ hs) htype

theorem Constructible.applied {result : BuilderAnalysis Config} {plan : ConstructionPlan}
    (h : Constructible environment builder result plan) (hsound : builder.Sound)
    (houtputs : OutputsNew builder result) {moduleGraph : Option ModuleGraph}
    {front back : List (AutoConfigurationDescriptor Config)}
    (hsplit : result.selected = front ++ back)
    (hreturns : ∀ d ∈ front, ApplierReturns environment builder moduleGraph d) :
    ∃ registry, front.foldlM (applySelected environment builder moduleGraph) builder.registry =
        .ok registry ∧
      registry.keys = builder.satisfied.map (·.typeId) ++ front.map (·.outputTypeId) := by
  have hinsert : ∀ registry d, ApplierReturns environment builder moduleGraph d →
      d.outputTypeId ∉ registry.keys → ∃ after,
        applySelected environment builder moduleGraph registry d = .ok after ∧
          after.keys = registry.keys ++ [d.outputTypeId] := fun _ _ => applySelected_ok
  have hnodup : (front.map (·.outputTypeId)).Nodup := by
    have hall := h.outputs_nodup
    rw [hsplit, List.map_append] at hall
    exact hall.of_append_left
  have hnew : ∀ t ∈ front.map (·.outputTypeId), t ∉ builder.registry.keys := by
    intro t ht hthere
    obtain ⟨d, hd, rfl⟩ := List.mem_map.mp ht
    rw [hsound] at hthere
    exact houtputs d (by simp [hsplit, hd]) hthere
  obtain ⟨registry, hok, hkeys⟩ := ProviderRegistry.insertAll_ok hinsert hnodup hnew
    fun before d rest hbefore _ _ => hreturns d (by simp [hbefore])
  exact ⟨registry, hok, by rw [hkeys, hsound]⟩

theorem Constructible.constructed {result : BuilderAnalysis Config} {plan : ConstructionPlan}
    (h : Constructible environment builder result plan) {graph : ApplicationGraph}
    {registry : ProviderRegistry}
    (hkeys : registry.keys =
      builder.satisfied.map (·.typeId) ++ result.selected.map (·.outputTypeId))
    {front back : List ConstructionStep} (hsplit : plan.steps = front ++ back)
    (hreturns : ConstructorsReturn environment builder graph registry front) :
    ∃ current, front.foldlM (constructStep environment builder graph) registry = .ok current ∧
      current.keys = builder.satisfied.map (·.typeId) ++
        result.selected.map (·.outputTypeId) ++ front.map (·.typeId) ∧
      ∀ step rest, back = step :: rest →
        (∀ dependency ∈ step.descriptor.dependencies, dependency.typeId ∈ current.keys) ∧
        ∀ value, ∃ next, current.insertErased step.typeId step.typeName value = .ok next := by
  have hinsert : ∀ registry (step : ConstructionStep),
      (∃ value, environment.construct step.descriptor.constructor_ registry builder.config =
        .ok value) → step.typeId ∉ registry.keys → ∃ after,
          constructStep environment builder graph registry step = .ok after ∧
            after.keys = registry.keys ++ [step.typeId] := fun _ _ => constructStep_ok
  have honce := h.once
  rw [hsplit, List.map_append] at honce
  -- no step replaces what is registered before construction begins
  have hnew : ∀ t ∈ front.map (·.typeId), t ∉ registry.keys := by
    intro t ht
    rw [hkeys, List.mem_append, not_or]
    refine h.fresh t ?_
    rw [hsplit, List.map_append]
    exact List.mem_append_left _ ht
  obtain ⟨current, hok, hcurrent⟩ := ProviderRegistry.insertAll_ok hinsert honce.of_append_left hnew
    hreturns
  rw [hkeys] at hcurrent
  refine ⟨current, hok, hcurrent, ?_⟩
  rintro step rest rfl
  refine ⟨fun dependency hdependency => ?_, fun value => ProviderRegistry.insertErased_ok ?_⟩
  · rw [hcurrent, List.append_assoc, List.mem_append, List.mem_append]
    obtain hfront | hsatisfied | houtput := h.resolved front step rest hsplit dependency
      hdependency
    · exact .inr (.inr hfront)
    · exact .inl hsatisfied
    · exact .inr (.inl houtput)
  · obtain ⟨hsatisfied, houtput⟩ := h.fresh step.typeId (by simp [hsplit])
    have hfront : step.typeId ∉ front.map (·.typeId) := fun hmem =>
      (List.nodup_append.mp honce).2.2 _ hmem _ (by simp) rfl
    rw [hcurrent, List.mem_append, List.mem_append]
    rintro ((hthere | hthere) | hthere)
    · exact hsatisfied hthere
    · exact houtput hthere
    · exact hfront hthere

theorem Constructible.resolves {result : BuilderAnalysis Config} {plan : ConstructionPlan}
    (h : Constructible environment builder result plan) (hsound : builder.Sound)
    (houtputs : OutputsNew builder result) : Resolves environment builder result plan := by
  refine ⟨fun front back hsplit => h.applied hsound houtputs hsplit,
    fun registry hregistry front back hsplit => h.constructed ?_ hsplit⟩
  have hinsert : ∀ registry d after,
      applySelected environment builder result.analysis.moduleGraph registry d = .ok after →
        after.keys = registry.keys ++ [d.outputTypeId] := fun _ _ _ => keys_of_applySelected
  rw [ProviderRegistry.keys_of_insertAll hinsert hregistry, hsound]

/-! ### Builds -/

variable (environment builder)

/-- The absence of a type is reported by selection or by a failed integration, not by the graph. -/
def Covers (t : TypeId) : Prop :=
  match builder.root with
  | none => t ∈ (autoConfigure environment builder (Catalog.providers environment.inventory)
      none).coveredMissing
  | some root => ∃ moduleGraph scope,
      buildModuleGraph root.typeId (Catalog.modules environment.inventory) = .ok moduleGraph ∧
      selectRooted environment builder moduleGraph = .ok scope ∧ t ∈ scope.coveredMissing

theorem diagnostics_of_covers {t : TypeId} (h : Covers environment builder t)
    {result : BuilderAnalysis Config} (hok : analyzeBuilder environment builder = .ok result) :
    result.analysis.diagnostics ≠ [] := by
  unfold Covers at h
  unfold analyzeBuilder at hok
  split at h
  · next hroot =>
    obtain ⟨result', hok', hcovered, -⟩ := analyzeCompleteCatalog_cases environment builder
    rw [hroot] at hok
    obtain rfl : result' = result := Except.ok.inj (hok'.symm.trans hok)
    exact hcovered (List.ne_nil_of_mem h)
  · next root hroot =>
    obtain ⟨moduleGraph, scope, hgraph, hscope, ht⟩ := h
    obtain ⟨scope', result', hscope', -, hok', -, hcovered, -, -⟩ :=
      analyzeRooted_cases environment builder moduleGraph
    obtain rfl : scope' = scope := Except.ok.inj (hscope'.symm.trans hscope)
    simp only [hroot, hgraph] at hok
    obtain rfl : result' = result := Except.ok.inj (hok'.symm.trans hok)
    exact hcovered (List.ne_nil_of_mem ht)

variable {environment builder}

/-- A build that finishes ran the integrations and the plan of a valid analysis. -/
theorem build_cases {application : Application Config}
    (h : build environment builder = .ok application) :
    ∃ result, analyzeBuilder environment builder = .ok result ∧ result.analysis.isValid ∧
      result.analysis.constructionPlan = some application.constructionPlan ∧
      application.moduleGraph = result.analysis.moduleGraph ∧
      ∃ applied, result.selected.foldlM
          (applySelected environment builder result.analysis.moduleGraph) builder.registry =
            .ok applied ∧
        application.constructionPlan.steps.foldlM
          (constructStep environment builder result.analysis.graph) applied =
            .ok application.context.registry := by
  obtain ⟨result, hok, hvalid⟩ := analyzeBuilder_cases environment builder
  rw [build, hok, Run.ok_bind] at h
  dsimp only at h
  by_cases hisValid : result.analysis.isValid = true
  case neg =>
    rw [if_pos (by simpa using hisValid)] at h
    obtain ⟨error, -, hfail⟩ := Run.bind_eq_ok.mp h
    simp [Run.fail] at hfail
  rw [if_neg (by simpa using hisValid)] at h
  obtain ⟨hnil, plan, hplan, -⟩ := hvalid hisValid
  rw [GraphAnalysis.intoValidParts_eq hnil hplan, Run.ok_bind] at h
  obtain ⟨applied, happlied, h⟩ := Run.bind_eq_ok.mp h
  obtain ⟨constructed, hconstructed, h⟩ := Run.bind_eq_ok.mp h
  obtain rfl := Except.ok.inj h
  exact ⟨result, hok, hisValid, hplan, rfl, applied, happlied, hconstructed⟩

/-- The appliers and constructors that a build calls all return. -/
def CallsReturn (environment : Environment Config) (builder : MadsBuilder Config) : Prop :=
  ∀ result plan, analyzeBuilder environment builder = .ok result →
    result.analysis.constructionPlan = some plan →
    (∀ d ∈ result.selected,
      ApplierReturns environment builder result.analysis.moduleGraph d) ∧
    ∀ registry, result.selected.foldlM
        (applySelected environment builder result.analysis.moduleGraph) builder.registry =
          .ok registry →
      ConstructorsReturn environment builder result.analysis.graph registry plan.steps

/-- A valid analysis is built, as long as the calls of the build return. -/
theorem build_ok (hsound : builder.Sound) {result : BuilderAnalysis Config}
    (hok : analyzeBuilder environment builder = .ok result) (hvalid : result.analysis.isValid)
    (houtputs : OutputsNew builder result) (hcalls : CallsReturn environment builder) :
    ∃ application, build environment builder = .ok application := by
  obtain ⟨result', hok', hcases⟩ := analyzeBuilder_cases environment builder
  obtain rfl : result' = result := Except.ok.inj (hok'.symm.trans hok)
  obtain ⟨hnil, plan, hplan, hconstructible⟩ := hcases hvalid
  have hresolves := hconstructible.resolves hsound houtputs
  obtain ⟨happliers, hconstructors⟩ := hcalls result' plan hok hplan
  obtain ⟨applied, happlied, -⟩ := hresolves.applied result'.selected [] (by simp) happliers
  obtain ⟨constructed, hconstructed, -⟩ := hresolves.constructed applied happlied plan.steps []
    (by simp) (hconstructors applied happlied)
  have hnot : ¬ (!result'.analysis.isValid) = true := by simp [hvalid]
  refine ⟨{ context := ⟨constructed, builder.config⟩
            graph := result'.analysis.graph
            constructionPlan := plan
            autoConfigurations := result'.analysis.autoConfigurations
            moduleGraph := result'.analysis.moduleGraph }, ?_⟩
  rw [build, hok, Run.ok_bind]
  dsimp only
  rw [if_neg hnot, GraphAnalysis.intoValidParts_eq hnil hplan, Run.ok_bind, happlied, Run.ok_bind,
    hconstructed]
  rfl

/-- The registry of a finished application. -/
theorem build_eq_ok (hsound : builder.Sound) {application : Application Config}
    (h : build environment builder = .ok application) :
    ∃ result, analyzeBuilder environment builder = .ok result ∧ result.analysis.isValid ∧
      result.analysis.constructionPlan = some application.constructionPlan ∧
      application.context.registry.keys = builder.satisfied.map (·.typeId) ++
        result.selected.map (·.outputTypeId) ++
          application.constructionPlan.steps.map (·.typeId) := by
  obtain ⟨result, hok, hvalid, hplan, -, applied, happlied, hconstructed⟩ := build_cases h
  refine ⟨result, hok, hvalid, hplan, ?_⟩
  have hinsert : ∀ registry d after,
      applySelected environment builder result.analysis.moduleGraph registry d = .ok after →
        after.keys = registry.keys ++ [d.outputTypeId] := fun _ _ _ => keys_of_applySelected
  have hinsert' : ∀ registry step after,
      constructStep environment builder result.analysis.graph registry step = .ok after →
        after.keys = registry.keys ++ [step.typeId] := fun _ _ _ => keys_of_constructStep
  rw [ProviderRegistry.keys_of_insertAll hinsert' hconstructed,
    ProviderRegistry.keys_of_insertAll hinsert happlied, hsound]

/-- Whatever an application asked of its builder, a valid analysis can be constructed step by step,
and a covered type never makes an analysis valid. -/
theorem analyzeBuilder_resolves (environment : Environment Config) (config : Config)
    (configType : RustType) (value : ErasedProvider) (requests : List (Request Config))
    (habsent : ActiveOnlyIfAbsent environment) :
    ∃ result, analyzeBuilder environment
        ((new config configType value).run environment.inventory requests) = .ok result ∧
      (result.analysis.isValid → ∃ plan, result.analysis.constructionPlan = some plan ∧
        Resolves environment ((new config configType value).run environment.inventory requests)
          result plan) ∧
      ∀ t, Covers environment ((new config configType value).run environment.inventory requests) t →
        result.analysis.diagnostics ≠ [] := by
  have hsound := (sound_new config configType value).run environment.inventory requests
  generalize (new config configType value).run environment.inventory requests = builder at hsound ⊢
  obtain ⟨result, hok, hvalid⟩ := analyzeBuilder_cases environment builder
  refine ⟨result, hok, fun hisValid => ?_, fun t ht =>
    diagnostics_of_covers environment builder ht hok⟩
  obtain ⟨-, plan, hplan, hconstructible⟩ := hvalid hisValid
  exact ⟨plan, hplan, hconstructible.resolves hsound (hconstructible.outputsNew habsent)⟩

/-- A root module with one service, which needs a value that the application gives and the output of
an integration. The integration stands back for any provider of the application's own. -/
def sampleEnvironment : Environment Unit where
  inventory :=
    { providers := [
        { kind := .service
          typeName := "app::Users"
          typeId := ⟨2⟩
          namespace_ := some "app"
          dependencies := [⟨"Clock", ⟨3⟩⟩, ⟨"Database", ⟨1⟩⟩]
          visibility := .public_
          location := ⟨"users.rs", 1, 1⟩ }]
      modules := [
        { typeName := "App"
          typeId := ⟨10⟩
          namespace_ := some "app"
          location := ⟨"app.rs", 1, 1⟩ }] }
  autoConfigurations := [
    { identifier := "database"
      outputTypeName := "Database"
      outputTypeId := ⟨1⟩
      location := ⟨"database.rs", 1, 1⟩
      evaluator := fun context =>
        if context.hasProvider ⟨1⟩ "Database" then .overridden ⟨"user_override"⟩ "" [] []
        else .active ⟨"conditions_matched"⟩ "" [] []
      applier := 0 }]
  construct := fun _ _ _ => .ok ⟨⟨2⟩, 2⟩
  apply := fun _ _ => .ok ⟨⟨1⟩, 1⟩

/-- The builder after it was given the clock and the root module. -/
def sampleRun : MadsBuilder Unit :=
  (new () ⟨⟨0⟩, "Config"⟩ ⟨⟨0⟩, 0⟩).run sampleEnvironment.inventory
    [.provide ⟨⟨3⟩, "Clock"⟩ ⟨⟨3⟩, 7⟩, .root ⟨⟨10⟩, "App"⟩]

theorem activeOnlyIfAbsent_sample : ActiveOnlyIfAbsent sampleEnvironment := by
  intro d hd context hactive
  obtain rfl := List.mem_singleton.mp hd
  by_cases hprovider : context.hasProvider ⟨1⟩ "Database" = true
  · simp [hprovider, AutoConfigurationEvaluation.overridden] at hactive
  · simp only [AutoConfigurationContext.hasProvider, Bool.or_eq_true, not_or, List.any_eq_true,
      not_exists, not_and, decide_eq_true_eq] at hprovider
    exact ⟨hprovider.1, fun p hp => (hprovider.2 p hp).1⟩

theorem analyzeBuilder_resolves_sample :
    ∃ result plan, analyzeBuilder sampleEnvironment sampleRun = .ok result ∧
      result.selected.map (·.identifier) = ["database"] ∧
      result.analysis.constructionPlan = some plan ∧
      plan.steps.map (·.typeName) = ["app::Users"] ∧
      Resolves sampleEnvironment sampleRun result plan := by
  have hrun : (analyzeBuilder sampleEnvironment sampleRun).map (fun result =>
      (result.analysis.isValid, result.selected.map (·.identifier),
        result.analysis.constructionPlan.map fun plan => plan.steps.map (·.typeName))) =
      .ok (true, ["database"], some ["app::Users"]) := by decide +kernel
  obtain ⟨result, hok, hresolves, -⟩ := analyzeBuilder_resolves sampleEnvironment ()
    ⟨⟨0⟩, "Config"⟩ ⟨⟨0⟩, 0⟩ [.provide ⟨⟨3⟩, "Clock"⟩ ⟨⟨3⟩, 7⟩, .root ⟨⟨10⟩, "App"⟩]
    activeOnlyIfAbsent_sample
  replace hok : analyzeBuilder sampleEnvironment sampleRun = .ok result := hok
  rw [hok] at hrun
  obtain ⟨hvalid, hparts⟩ := Prod.mk.inj (Except.ok.inj hrun)
  obtain ⟨hselected, hsteps⟩ := Prod.mk.inj hparts
  obtain ⟨plan, hplan, hresolved⟩ := hresolves hvalid
  rw [hplan] at hsteps
  exact ⟨result, plan, hok, hselected, hplan, Option.some.inj hsteps, hresolved⟩

end MadsBuilder

end Mads
