import Mathlib.Data.Fintype.EquivFin
import Mads.Core.BuilderAnalysis
import Mads.Library.BreadthFirst

/-!
# The chain of consumers that a construction error shows
-/

namespace Mads

variable {Config : Type}

namespace ConsumerPath

variable {graph : ApplicationGraph}

/-- A chain of consumers from a provider that nothing consumes to the provider of a type. -/
structure IsChainTo (graph : ApplicationGraph) (target : TypeId) (path : List graph.Index) :
    Prop where
  unconsumed : ∃ root ∈ path.head?,
    ∀ edge ∈ graph.dependencies, edge.dependencyTypeId ≠ (graph.node root).typeId
  linked : path.IsChain fun consumer dependency => ∃ edge ∈ graph.dependencies,
    edge.providerTypeId = (graph.node consumer).typeId ∧
      edge.dependencyTypeId = (graph.node dependency).typeId
  target : ∃ last ∈ path.getLast?, (graph.node last).typeId = target

/-! ### The search is a breadth-first search -/

def Search.state (search : Search graph) : BreadthFirst.State graph.Index :=
  ⟨search.visited, search.queue⟩

theorem state_enqueue (path : List graph.Index) (search : Search graph) (i : graph.Index) :
    (enqueue graph path search i).state = BreadthFirst.enqueue path search.state i := by
  rw [enqueue, BreadthFirst.enqueue]
  split
  · next hvisited => exact (if_pos hvisited).symm
  · next hvisited => exact (if_neg hvisited).symm

theorem state_foldl (path ws : List graph.Index) (search : Search graph) :
    (ws.foldl (enqueue graph path) search).state =
      ws.foldl (BreadthFirst.enqueue path) search.state := by
  induction ws generalizing search with
  | nil => rfl
  | cons w ws ih => rw [List.foldl_cons, List.foldl_cons, ih, state_enqueue]

theorem search_eq_ok (target : TypeId) (fuel : ℕ) (state : Search graph)
    {result : Option (List graph.Index)}
    (h : BreadthFirst.search (Cycle.outgoing graph) (fun i => (graph.node i).typeId = target) fuel
      state.state = some result) : search graph target fuel state = .ok result := by
  induction fuel generalizing state with
  | zero => cases h
  | succ fuel ih =>
    obtain ⟨visited, queue⟩ := state
    cases queue with
    | nil =>
      obtain rfl := Option.some.inj h
      rfl
    | cons path queue =>
      obtain ⟨i, hlast, h⟩ := Option.bind_eq_some_iff.mp h
      rw [search]
      dsimp only
      rw [hlast, Run.expect_some, Run.ok_bind]
      split at h
      · next htarget =>
        obtain rfl := Option.some.inj h
        rw [if_pos htarget]
        rfl
      · next htarget =>
        rw [if_neg htarget]
        refine ih _ ?_
        rw [state_foldl]
        exact h

theorem mem_roots {i : graph.Index} : i ∈ roots graph ↔
    ∀ edge ∈ graph.dependencies, edge.dependencyTypeId ≠ (graph.node i).typeId := by
  rw [roots, mem_sortBy, List.mem_filter]
  simp

theorem roots_nodup : (roots graph).Nodup :=
  (sortBy_perm _ _).nodup_iff.mpr ((List.nodup_finRange _).filter _)

/-- On every graph the search ends with an answer. -/
theorem search_answers (graph : ApplicationGraph) (target : TypeId) :
    ∃ result, search graph target (graph.providers.length + 1)
        ⟨roots graph, (roots graph).map ([·])⟩ = .ok result ∧
      BreadthFirst.Answers (Cycle.outgoing graph) (fun i => (graph.node i).typeId = target)
        (roots graph) result := by
  have hfuel : Fintype.card graph.Index < graph.providers.length + 1 := by
    rw [Fintype.card_fin]
    exact Nat.lt_succ_self _
  have hstart : ∃ result, BreadthFirst.search (Cycle.outgoing graph)
      (fun i => (graph.node i).typeId = target) (graph.providers.length + 1)
      (BreadthFirst.start (roots graph)) = some result ∧ _ :=
    BreadthFirst.search_start roots_nodup hfuel
  obtain ⟨result, hsearch, hanswers⟩ := hstart
  exact ⟨result, search_eq_ok target _ _ hsearch, hanswers⟩

/-- On every graph the chain of consumers is searched to an end. -/
theorem consumerPath_returns (graph : ApplicationGraph) (step : ConstructionStep) :
    ∃ text, consumerPath graph step = .ok text := by
  rw [consumerPath]
  split
  · exact ⟨none, rfl⟩
  · obtain ⟨result, hsearch, -⟩ := search_answers graph step.typeId
    dsimp only
    rw [hsearch, Run.ok_bind]
    exact ⟨_, rfl⟩

/-! ### Chains of consumers -/

theorem dependsOn_iff (h : graph.WellFormed) {i j : graph.Index} : Cycle.DependsOn i j ↔
    ∃ edge ∈ graph.dependencies, edge.providerTypeId = (graph.node i).typeId ∧
      edge.dependencyTypeId = (graph.node j).typeId := by
  refine exists_congr fun edge => and_congr_right fun _ => and_congr_right fun _ => ?_
  constructor
  · intro hposition
    exact (ApplicationGraph.typeId_of_position hposition).symm
  · intro htype
    rw [htype, h.position_typeId]

theorem isChainTo_iff (h : graph.WellFormed) {target : TypeId} {path : List graph.Index} :
    IsChainTo graph target path ↔
      ∃ i, BreadthFirst.Path (Cycle.outgoing graph) (roots graph) path i ∧
        (graph.node i).typeId = target := by
  have hlink : (fun i j => ∃ edge ∈ graph.dependencies,
      edge.providerTypeId = (graph.node i).typeId ∧
        edge.dependencyTypeId = (graph.node j).typeId) =
      fun i j => j ∈ Cycle.outgoing graph i := by
    funext i j
    rw [Cycle.mem_outgoing, dependsOn_iff h]
  simp only [BreadthFirst.path_iff, mem_roots]
  constructor
  · rintro ⟨hroot, hlinked, last, hlast, htarget⟩
    rw [hlink] at hlinked
    exact ⟨last, ⟨hroot, hlinked, hlast⟩, htarget⟩
  · rintro ⟨last, ⟨hroot, hlinked, hlast⟩, htarget⟩
    rw [← hlink] at hlinked
    exact ⟨hroot, hlinked, last, hlast, htarget⟩

/-- In an acyclic graph a consumed provider has a shortest chain of consumers, and it is shown. -/
theorem consumerPath_of_acyclic (h : graph.WellFormed)
    (hacyclic : ∀ i : graph.Index, Acc (fun j i => Cycle.DependsOn i j) i)
    {step : ConstructionStep} {i : graph.Index} (hi : (graph.node i).typeId = step.typeId)
    (hconsumed : ∃ edge ∈ graph.dependencies, edge.dependencyTypeId = step.typeId) :
    ∃ path, consumerPath graph step =
        .ok (some (" -> ".intercalate (path.map fun i => (graph.node i).typeName))) ∧
      IsChainTo graph step.typeId path ∧
      ∀ other, IsChainTo graph step.typeId other → path.length ≤ other.length := by
  obtain ⟨edge, hedge, htype⟩ := hconsumed
  have hguard : ¬ graph.dependencies.all (fun edge => edge.dependencyTypeId ≠ step.typeId) = true :=
    fun hall => of_decide_eq_true (List.all_eq_true.mp hall edge hedge) htype
  obtain ⟨result, hsearch, hanswers⟩ := search_answers graph step.typeId
  have hchain : ∃ path, BreadthFirst.Path (Cycle.outgoing graph) (roots graph) path i := by
    refine BreadthFirst.exists_path (fun j => ?_) (fun j hnone => ?_) i
    · refine Subrelation.accessible (fun {k j} hmem => ?_) (hacyclic j)
      exact Cycle.mem_outgoing.mp hmem
    · refine mem_roots.mpr fun edge hedge hconsumes => ?_
      obtain ⟨consumer, dependency, hconsumer, -, -⟩ := h.edges_known edge hedge
      refine hnone consumer (Cycle.mem_outgoing.mpr ((dependsOn_iff h).mpr ⟨edge, hedge, ?_, ?_⟩))
      · exact (ApplicationGraph.typeId_of_position hconsumer).symm
      · exact hconsumes
  obtain ⟨chain, hchain⟩ := hchain
  cases result with
  | none => exact absurd hi (hanswers chain i hchain)
  | some path =>
    obtain ⟨hpath, hshortest⟩ := hanswers
    refine ⟨path, ?_, (isChainTo_iff h).mpr hpath, fun other hother => ?_⟩
    · rw [consumerPath, if_neg hguard]
      dsimp only
      rw [hsearch, Run.ok_bind]
      rfl
    · obtain ⟨last, hother, hlast⟩ := (isChainTo_iff h).mp hother
      exact hshortest other last hother hlast

/-- A declared dependency on the type of a planned provider is an edge of a valid graph. -/
theorem exists_edge_of_declared {descriptors : List ProviderDescriptor}
    {satisfied : List SatisfiedProvider} {coveredMissing : List TypeId}
    {unique : List ProviderDescriptor}
    (h : Analysis.Diagnosed descriptors satisfied coveredMissing graph [] unique)
    {consumer : ProviderNode} (hconsumer : consumer ∈ graph.providers)
    (hstate : consumer.state = .planned) {dependency : DependencyDescriptor}
    (hdependency : dependency ∈ consumer.declaredDependencies) {i : graph.Index}
    (hi : (graph.node i).typeId = dependency.typeId) :
    ∃ edge ∈ graph.dependencies, edge.dependencyTypeId = dependency.typeId :=
  ⟨_, (h.edges _).mpr ⟨consumer, hconsumer, hstate, dependency, hdependency,
    ⟨graph.node i, ApplicationGraph.node_mem i, hi⟩, rfl⟩, rfl⟩

end ConsumerPath

namespace MadsBuilder

/-- The search for a chain of consumers ends on every graph. For a step of a valid analysis that a
planned provider consumes it shows a chain, and no chain of consumers is shorter. -/
theorem consumerPath_shortest :
    (∀ graph step, ∃ text, consumerPath graph step = .ok text) ∧
    ∀ (environment : Environment Config) (builder : MadsBuilder Config)
      (result : BuilderAnalysis Config) (plan : ConstructionPlan),
      analyzeBuilder environment builder = .ok result → result.analysis.isValid = true →
      result.analysis.constructionPlan = some plan → ∀ step ∈ plan.steps,
      (∃ consumer ∈ result.analysis.graph.providers, consumer.state = .planned ∧
        ∃ dependency ∈ consumer.declaredDependencies, dependency.typeId = step.typeId) →
      ∃ path : List result.analysis.graph.Index,
        consumerPath result.analysis.graph step = .ok (some (" -> ".intercalate
          (path.map fun i => (result.analysis.graph.node i).typeName))) ∧
        ConsumerPath.IsChainTo result.analysis.graph step.typeId path ∧
        ∀ other, ConsumerPath.IsChainTo result.analysis.graph step.typeId other →
          path.length ≤ other.length := by
  refine ⟨ConsumerPath.consumerPath_returns, ?_⟩
  rintro environment builder ⟨analysis, selected, failure⟩ plan hok hvalid hplan step hstep
    ⟨consumer, hconsumer, hstate, dependency, hdependency, htype⟩
  obtain ⟨_, _, _, parts, hparts, hpartsValid, hgraph, hsamePlan⟩ :=
    parts_of_analyzeBuilder hok hvalid
  obtain ⟨unique, planned, hdiagnosed, hplanned, hplanOf⟩ :=
    diagnosed_of_analyzeParts hparts hpartsValid
  dsimp only at hplan hconsumer hgraph hsamePlan ⊢
  obtain rfl := Option.some.inj (hplanned.symm.trans (hsamePlan.symm.trans hplan))
  rw [← hgraph] at hdiagnosed hplanOf
  obtain ⟨p, hp, hpType, -⟩ := (hplanOf.planned step.typeId).mp (List.mem_map_of_mem hstep)
  obtain ⟨i, rfl⟩ := Analysis.exists_index hp
  have hedge := ConsumerPath.exists_edge_of_declared hdiagnosed hconsumer hstate hdependency
    (hpType.trans htype.symm)
  rw [htype] at hedge
  exact ConsumerPath.consumerPath_of_acyclic hdiagnosed.wellFormed (hdiagnosed.clean rfl).2.2.2
    hpType hedge

/-- A service that two others need, one of them on behalf of a third. -/
def consumedEnvironment : Environment Unit where
  inventory :=
    { providers := [("Users", 1, []), ("Accounts", 2, [⟨"Users", ⟨1⟩⟩]),
        ("Api", 3, [⟨"Accounts", ⟨2⟩⟩]), ("Web", 4, [⟨"Users", ⟨1⟩⟩])].map
          fun (typeName, typeId, dependencies) =>
            { kind := .service
              typeName
              typeId := ⟨typeId⟩
              dependencies
              visibility := .public_
              location := ⟨"services.rs", typeId, 1⟩ }
      modules := [] }
  autoConfigurations := []
  construct := fun _ _ _ => .ok ⟨⟨1⟩, 1⟩
  apply := fun _ _ => .ok ⟨⟨1⟩, 1⟩

theorem consumerPath_shortest_sample : ∃ (result : BuilderAnalysis Unit) (step : ConstructionStep)
    (path : List result.analysis.graph.Index),
    analyzeBuilder consumedEnvironment (new () ⟨⟨0⟩, "Config"⟩ ⟨⟨0⟩, 0⟩) = .ok result ∧
    step.typeName = "Users" ∧
    consumerPath result.analysis.graph step = .ok (some "Web -> Users") ∧
    consumerPath result.analysis.graph step = .ok (some (" -> ".intercalate
      (path.map fun i => (result.analysis.graph.node i).typeName))) ∧
    ConsumerPath.IsChainTo result.analysis.graph step.typeId path ∧
    ∀ other, ConsumerPath.IsChainTo result.analysis.graph step.typeId other →
      path.length ≤ other.length := by
  obtain ⟨result, hok, hvalid⟩ := analyzeBuilder_cases consumedEnvironment
    (new () ⟨⟨0⟩, "Config"⟩ ⟨⟨0⟩, 0⟩)
  have hcheck : (analyzeBuilder consumedEnvironment (new () ⟨⟨0⟩, "Config"⟩ ⟨⟨0⟩, 0⟩)).map
      (fun result => result.analysis.isValid && result.analysis.constructionPlan.any fun plan =>
        plan.steps.any fun step => step.typeName = "Users" &&
          consumerPath result.analysis.graph step = .ok (some "Web -> Users") &&
          result.analysis.graph.providers.any fun consumer => consumer.state = .planned &&
            consumer.declaredDependencies.any fun dependency =>
              dependency.typeId = step.typeId) = .ok true := by decide +kernel
  rw [hok] at hcheck
  have hchecked := Except.ok.inj hcheck
  simp only [Bool.and_eq_true, Option.any_eq_true, List.any_eq_true, decide_eq_true_eq] at hchecked
  obtain ⟨hisValid, plan, hplan, step, hstep, ⟨hname, htext⟩, hconsumed⟩ := hchecked
  obtain ⟨path, hpath⟩ := consumerPath_shortest.2 consumedEnvironment _ result plan hok hisValid
    hplan step hstep hconsumed
  exact ⟨result, step, path, hok, hname, htext, hpath⟩

end MadsBuilder

end Mads
