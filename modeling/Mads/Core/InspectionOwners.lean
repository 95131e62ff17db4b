import Mads.Core.Boundaries
import Mads.Core.GraphInspection

/-!
# The owners that a snapshot shows

Owners are recorded by type and looked up by name.
-/

namespace Mads

/-- The name of the module that owns a declaration. -/
def ownerName (modules : List ModuleDescriptor) (d : ProviderDescriptor) : Option String :=
  (ownerOf d.namespace_ modules).map (·.typeName)

/-- The first declaration of a type, for which the owner of the type is recorded. -/
def firstOf (selected : List ProviderDescriptor) (typeId : TypeId) : Option ProviderDescriptor :=
  selected.find? (fun d => d.typeId = typeId)

/-- The name of the module that owns a provider: that of its selected declaration, and none where
the provider is there without one. -/
def providerOwner (modules : List ModuleDescriptor) (selected : List ProviderDescriptor)
    (p : ProviderNode) : Option String :=
  if p.state = .planned then (firstOf selected p.typeId).bind (ownerName modules) else none

/-! ### What is recorded -/

namespace Scope

variable {modules : List ModuleDescriptor} {satisfied : List SatisfiedProvider}
  {selected : List ProviderDescriptor} {t : TypeId} {o : ProviderOwnership}

/-- The pass over the selected declarations. -/
def recorded (modules : List ModuleDescriptor) (selected : List ProviderDescriptor) :
    List (TypeId × ProviderOwnership) :=
  selected.foldl (fun (found : List (TypeId × ProviderOwnership)) descriptor =>
    if found.any (fun pair => pair.1 = descriptor.typeId) then found
    else found ++ [(descriptor.typeId,
      ⟨descriptor.typeName, (ownerOf descriptor.namespace_ modules).map (·.typeName)⟩)]) []

theorem recorded_concat (d : ProviderDescriptor) : recorded modules (selected ++ [d]) =
    if (recorded modules selected).any (fun pair => pair.1 = d.typeId) then
      recorded modules selected
    else recorded modules selected ++ [(d.typeId, ⟨d.typeName, ownerName modules d⟩)] := by
  rw [recorded, List.foldl_append]
  rfl

/-- The owner of a type is that of its first declaration. -/
theorem mem_recorded : (t, o) ∈ recorded modules selected ↔
    ∃ d, firstOf selected t = some d ∧ o = ⟨d.typeName, ownerName modules d⟩ := by
  induction selected using List.reverseRecOn generalizing t o with
  | nil => simp [recorded, firstOf]
  | append_singleton selected d ih =>
    have hany : (recorded modules selected).any (fun pair => pair.1 = d.typeId) =
        (firstOf selected d.typeId).isSome := by
      rw [Bool.eq_iff_iff, List.any_eq_true, Option.isSome_iff_exists]
      constructor
      · rintro ⟨⟨t, o⟩, hmem, ht⟩
        obtain rfl : t = d.typeId := by simpa using ht
        obtain ⟨first, hfirst, -⟩ := ih.mp hmem
        exact ⟨first, hfirst⟩
      · rintro ⟨first, hfirst⟩
        exact ⟨_, ih.mpr ⟨first, hfirst, rfl⟩, by simp⟩
    have hfirst : firstOf (selected ++ [d]) t =
        (firstOf selected t).or (if d.typeId = t then some d else none) := by
      rw [firstOf, List.find?_append, firstOf, List.find?_singleton]
      simp
    rw [recorded_concat, hany, hfirst]
    by_cases ht : d.typeId = t
    · subst ht
      cases hd : firstOf selected d.typeId with
      | some first =>
        rw [Option.isSome_some, if_pos rfl, ih, hd]
        rfl
      | none =>
        have hnone : (d.typeId, o) ∉ recorded modules selected := fun hmem => by
          obtain ⟨first, hfirst, -⟩ := ih.mp hmem
          simp [hd] at hfirst
        simp [hnone]
    · rw [if_neg ht, Option.or_none, ← ih]
      split
      · exact Iff.rfl
      · simp [Ne.symm ht]

/-- Everything else that is recorded has no owner. -/
theorem mem_ownershipWithTypes (h : (t, o) ∈ ownershipWithTypes modules satisfied selected) :
    (t, o) ∈ recorded modules selected ∨ o.moduleTypeName = none := by
  have hfold : ∀ found : List (TypeId × ProviderOwnership), (t, o) ∈ satisfied.foldl
      (fun found provider => if found.all (fun pair => pair.1 ≠ provider.typeId) then
        found ++ [(provider.typeId, ⟨provider.typeName, none⟩)] else found) found →
      (t, o) ∈ found ∨ o.moduleTypeName = none := by
    clear h
    induction satisfied with
    | nil => exact fun found h => .inl h
    | cons s satisfied ih =>
      intro found h
      rw [List.foldl_cons] at h
      refine (ih _ h).elim (fun hmem => ?_) .inr
      split at hmem
      · refine (List.mem_append.mp hmem).imp id fun hlast => ?_
        obtain ⟨rfl, rfl⟩ := Prod.mk.inj (List.mem_singleton.mp hlast)
        rfl
      · exact .inl hmem
  exact hfold _ h

theorem mem_ownershipWithTypes_of_recorded (h : (t, o) ∈ recorded modules selected) :
    (t, o) ∈ ownershipWithTypes modules satisfied selected := by
  have hfold : ∀ found : List (TypeId × ProviderOwnership), (t, o) ∈ found → (t, o) ∈
      satisfied.foldl (fun found provider => if found.all (fun pair => pair.1 ≠ provider.typeId) then
        found ++ [(provider.typeId, ⟨provider.typeName, none⟩)] else found) found := by
    induction satisfied with
    | nil => exact fun found h => h
    | cons s satisfied ih =>
      intro found h
      rw [List.foldl_cons]
      apply ih
      split
      · exact List.mem_append_left _ h
      · exact h
  exact hfold _ h

/-- The owners of a selection, as the snapshot looks them up. -/
def ownersOf (modules : List ModuleDescriptor) (satisfied : List SatisfiedProvider)
    (selected : List ProviderDescriptor) : SortedMap String (Option String) :=
  .ofList ((ownership modules satisfied selected).map fun ownership =>
    (ownership.providerTypeName, ownership.moduleTypeName))

theorem mem_ownership : o ∈ ownership modules satisfied selected ↔
    ∃ t, (t, o) ∈ ownershipWithTypes modules satisfied selected := by
  rw [ownership, List.mem_map]
  constructor
  · rintro ⟨⟨t, o⟩, hmem, rfl⟩
    exact ⟨t, mem_sortBy.mp hmem⟩
  · rintro ⟨t, hmem⟩
    exact ⟨(t, o), mem_sortBy.mpr hmem, rfl⟩

/-- The owners that are recorded under one name ascend. -/
theorem pairwise_ownership : (ownership modules satisfied selected).Pairwise fun left right =>
    left.providerTypeName = right.providerTypeName →
      (compare left.moduleTypeName right.moduleTypeName).isLE := by
  refine List.pairwise_map.mpr ((pairwise_sortBy _ _).imp ?_)
  intro left right hle hname
  simpa [compareLex, compareOn, hname] using hle

/-- Under a name, the owner with the greatest name is found. -/
theorem ownersOf_spec {name : String} {owner : Option String}
    (h : (ownersOf modules satisfied selected).get name = some owner) :
    ⟨name, owner⟩ ∈ ownership modules satisfied selected ∧
      ∀ other, ⟨name, other⟩ ∈ ownership modules satisfied selected →
        (compare other owner).isLE := by
  have hmem (owner : Option String) : (name, owner) ∈ (ownership modules satisfied selected).map
      (fun ownership => (ownership.providerTypeName, ownership.moduleTypeName)) ↔
        ⟨name, owner⟩ ∈ ownership modules satisfied selected := by
    rw [List.mem_map]
    constructor
    · rintro ⟨o, ho, heq⟩
      obtain ⟨rfl, rfl⟩ := Prod.mk.inj heq
      exact ho
    · exact fun ho => ⟨_, ho, rfl⟩
  obtain ⟨hfound, hbelow⟩ := SortedMap.get_ofList_of_pairwise
    (R := fun left right => (compare left right).isLE) (fun _ => by simp)
    (List.pairwise_map.mpr pairwise_ownership) h
  exact ⟨(hmem owner).mp hfound, fun other hother => hbelow other ((hmem other).mpr hother)⟩

/-- What is found under a name is a given owner exactly if no declaration of that name has an owner
with a greater name. -/
theorem ownersOf_join_iff {name : String} {owner : Option String}
    (howner : owner = none ∨ ∃ t d, firstOf selected t = some d ∧ d.typeName = name ∧
      ownerName modules d = owner) :
    ((ownersOf modules satisfied selected).get name).join = owner ↔
      ∀ t d, firstOf selected t = some d → d.typeName = name →
        (compare (ownerName modules d) owner).isLE := by
  have hrecorded {t : TypeId} {d : ProviderDescriptor} (hd : firstOf selected t = some d) :
      ⟨d.typeName, ownerName modules d⟩ ∈ ownership modules satisfied selected :=
    mem_ownership.mpr ⟨t, mem_ownershipWithTypes_of_recorded (mem_recorded.mpr ⟨d, hd, rfl⟩)⟩
  cases hget : (ownersOf modules satisfied selected).get name with
  | none =>
    have hunrecorded : ∀ o, ⟨name, o⟩ ∉ ownership modules satisfied selected := fun o ho =>
      SortedMap.get_ofList_eq_none.mp hget (name, o) (List.mem_map.mpr ⟨_, ho, rfl⟩) rfl
    have hnone : ∀ t d, firstOf selected t = some d → d.typeName ≠ name := by
      rintro t d hd rfl
      exact hunrecorded _ (hrecorded hd)
    obtain rfl | ⟨t, d, hd, hname, -⟩ := howner
    · exact iff_of_true rfl fun t d hd hname => absurd hname (hnone t d hd)
    · exact absurd hname (hnone t d hd)
  | some found =>
    obtain ⟨hfound, hbelow⟩ := ownersOf_spec hget
    rw [Option.join_some]
    constructor
    · rintro rfl t d hd rfl
      exact hbelow _ (hrecorded hd)
    · intro habove
      -- the owner that is found is that of some declaration, or none
      have hle : (compare found owner).isLE := by
        obtain ⟨t, ht⟩ := mem_ownership.mp hfound
        obtain hrec | hnone := mem_ownershipWithTypes ht
        · obtain ⟨d, hd, heq⟩ := mem_recorded.mp hrec
          obtain ⟨rfl, rfl⟩ := ProviderOwnership.mk.inj heq
          exact habove t d hd rfl
        · obtain rfl : found = none := hnone
          cases owner <;> rfl
      have hge : (compare owner found).isLE := by
        obtain rfl | ⟨t, d, hd, rfl, rfl⟩ := howner
        · cases found <;> rfl
        · exact hbelow _ (hrecorded hd)
      exact Std.LawfulEqCmp.eq_of_compare (Std.OrientedCmp.isLE_antisymm hle hge)

end Scope

/-! ### The declarations of a graph's providers -/

namespace Analysis

theorem exactIdentity_self (d : ProviderDescriptor) : exactIdentity d d = true := by
  have hzip : ∀ ds : List DependencyDescriptor,
      (ds.zip ds).all (fun pair => pair.1.typeId = pair.2.typeId) = true := by
    intro ds
    induction ds with
    | nil => rfl
    | cons d ds ih => simpa using ih
  simp [exactIdentity, hzip]

/-- After a declaration was looked at, one that is the same is kept. -/
theorem Grouping.add_covers (g : Grouping) (d : ProviderDescriptor) :
    g.unique ⊆ (g.add d).unique ∧ ∃ u ∈ (g.add d).unique, exactIdentity u d = true := by
  unfold Grouping.add
  split
  · next existing hfind =>
    have hsame : ∃ u ∈ g.unique, exactIdentity u d = true :=
      ⟨existing, List.mem_of_find?_eq_some hfind, by simpa using List.find?_some hfind⟩
    split <;> exact ⟨List.Subset.refl _, hsame⟩
  · exact ⟨List.subset_append_left _ _, d, by simp, exactIdentity_self d⟩

theorem exists_unique_of_mem {descriptors : List ProviderDescriptor} {d : ProviderDescriptor}
    (h : d ∈ descriptors) : ∃ u ∈ (group descriptors).unique, exactIdentity u d = true := by
  have hfold : ∀ (rest : List ProviderDescriptor) (g : Grouping),
      (d ∈ rest ∨ ∃ u ∈ g.unique, exactIdentity u d = true) →
        ∃ u ∈ (rest.foldl Grouping.add g).unique, exactIdentity u d = true := by
    intro rest
    induction rest with
    | nil => exact fun g hg => hg.resolve_left List.not_mem_nil
    | cons e rest ih =>
      intro g hg
      rw [List.foldl_cons]
      apply ih
      obtain hmem | ⟨u, hu, hsame⟩ := hg
      · obtain rfl | hmem := List.mem_cons.mp hmem
        · exact .inr (g.add_covers d).2
        · exact .inl hmem
      · exact .inr ⟨u, (g.add_covers e).1 hu, hsame⟩
  exact hfold _ _ (.inl (mem_sortBy.mpr h))

/-- The first declaration of a planned provider's type is the one that the provider comes from, up
to what the analysis does not look at. -/
theorem firstOf_planned {descriptors unique : List ProviderDescriptor}
    {satisfied : List SatisfiedProvider} {coveredMissing : List TypeId} {graph : ApplicationGraph}
    {diagnostics : List Diagnostic}
    (h : Diagnosed descriptors satisfied coveredMissing graph diagnostics unique)
    {p : ProviderNode} (hp : p ∈ graph.providers) (hstate : p.state = .planned) :
    ∃ d, firstOf descriptors p.typeId = some d ∧ d.typeName = p.typeName := by
  obtain ⟨planned, hplanned, rfl, -⟩ := h.nodes.planned hp hstate
  have hunique := h.unique_eq
  have hmem : planned ∈ descriptors := by
    rw [hunique] at hplanned
    exact mem_sortBy.mp ((group_after descriptors).subset hplanned)
  obtain ⟨d, hd⟩ : ∃ d, firstOf descriptors planned.typeId = some d := by
    rw [← Option.isSome_iff_exists, firstOf, List.find?_isSome]
    exact ⟨planned, hmem, by simp⟩
  refine ⟨d, hd, ?_⟩
  -- both are the same as a declaration that is kept, and only one of the type is
  have htype : d.typeId = planned.typeId := by simpa using List.find?_some hd
  obtain ⟨u, hu, hsame⟩ := exists_unique_of_mem (List.mem_of_find?_eq_some hd)
  have honly := (ambiguities_spec unique).2 planned hplanned (h.nodes.unambiguous _ hp)
  have hmem : u ∈ sameType unique planned.typeId :=
    List.mem_filter.mpr ⟨hunique ▸ hu, by simp [exactIdentity_typeId hsame, htype]⟩
  rw [honly] at hmem
  obtain rfl := List.mem_singleton.mp hmem
  simp only [exactIdentity, Bool.and_eq_true, decide_eq_true_eq] at hsame
  exact hsame.1.1.1.1.1.2.symm

end Analysis

namespace GraphAnalysis

@[simp] theorem graph_prependDiagnostics (analysis : GraphAnalysis) (before : List Diagnostic) :
    (analysis.prependDiagnostics before).graph = analysis.graph := by
  unfold prependDiagnostics
  split <;> rfl

@[simp] theorem graph_appendDiagnostics (analysis : GraphAnalysis) (after : List Diagnostic) :
    (analysis.appendDiagnostics after).graph = analysis.graph := by
  unfold appendDiagnostics
  split <;> rfl

end GraphAnalysis

namespace MadsBuilder

variable {Config : Type} (environment : Environment Config) (builder : MadsBuilder Config)

/-- The graph of a rooted analysis comes from the selected declarations, and the owners in its
module graph are those that were recorded for them. -/
theorem analyzeRooted_owners (moduleGraph : ModuleGraph) :
    ∃ scope result diagnostics unique, selectRooted environment builder moduleGraph = .ok scope ∧
      analyzeRooted environment builder moduleGraph = .ok result ∧
      Analysis.Diagnosed scope.catalog.descriptors scope.satisfied scope.coveredMissing
        result.analysis.graph diagnostics unique ∧
      GraphInspectionSnapshot.owners result.analysis = Scope.ownersOf
        (Catalog.modules environment.inventory) scope.satisfied scope.catalog.descriptors := by
  obtain ⟨scope, hscope, hfollows⟩ := selectRooted_ok environment builder moduleGraph
  obtain ⟨graph, diagnostics, unique, hdiagnose, hdiagnosed⟩ := Analysis.diagnose_ok
    scope.catalog.descriptors scope.satisfied scope.coveredMissing
  obtain ⟨inner, hinner, hgraph⟩ : ∃ inner, analyzeParts scope.catalog.descriptors scope.satisfied
      scope.coveredMissing = .ok inner ∧ inner.graph = graph := by
    obtain ⟨_, _, _, hdiagnose', hreports, hplans⟩ := analyzeParts_plan scope.catalog.descriptors
      scope.satisfied scope.coveredMissing
    cases Except.ok.inj (hdiagnose.symm.trans hdiagnose')
    by_cases hnil : diagnostics = []
    · obtain ⟨plan, -, hok, -⟩ := hplans hnil
      exact ⟨_, hok, rfl⟩
    · exact ⟨_, hreports hnil, rfl⟩
  refine ⟨scope, _, diagnostics, unique, hscope, by
    simp only [analyzeRooted, hscope, hinner, Run.ok_bind]; rfl, ?_, ?_⟩
  · simpa [GraphAnalysis.setModuleGraph, hgraph] using hdiagnosed
  · simp only [GraphInspectionSnapshot.owners, GraphAnalysis.setModuleGraph,
      ModuleGraph.setProviderOwnership, hfollows.final.selects.ownership_eq, Scope.ownersOf]

/-- The owners in the snapshot of a rooted analysis are right exactly if no selected declaration is
spelled like a provider and has an owner whose name is greater than that of the provider's owner. -/
theorem inspectedOwner_iff (moduleGraph : ModuleGraph) :
    ∃ scope result, selectRooted environment builder moduleGraph = .ok scope ∧
      analyzeRooted environment builder moduleGraph = .ok result ∧
      let modules := Catalog.modules environment.inventory
      let selected := scope.catalog.descriptors
      let snapshot := GraphInspectionSnapshot.fromAnalysis environment.inventory result.analysis
      ((∀ p ∈ result.analysis.graph.providers, ∃ record ∈ snapshot.providers,
          record = GraphInspectionSnapshot.providerSnapshot environment.inventory result.analysis p ∧
            record.owner = providerOwner modules selected p) ↔
        ∀ p ∈ result.analysis.graph.providers, ∀ t d, firstOf selected t = some d →
          d.typeName = p.typeName →
            (compare (ownerName modules d) (providerOwner modules selected p)).isLE) := by
  obtain ⟨scope, result, diagnostics, unique, hscope, hok, hdiagnosed, howners⟩ :=
    analyzeRooted_owners environment builder moduleGraph
  refine ⟨scope, result, hscope, hok, ?_⟩
  intro modules selected snapshot
  refine forall₂_congr fun p hp => ?_
  have hrecord : (∃ record ∈ snapshot.providers, record =
      GraphInspectionSnapshot.providerSnapshot environment.inventory result.analysis p ∧
        record.owner = providerOwner modules selected p) ↔
      ((Scope.ownersOf modules scope.satisfied selected).get p.typeName).join =
        providerOwner modules selected p := by
    constructor
    · rintro ⟨_, -, rfl, howner⟩
      rwa [GraphInspectionSnapshot.providerSnapshot, howners] at howner
    · intro howner
      refine ⟨_, GraphInspectionSnapshot.mem_providers.mpr ⟨p, hp, rfl⟩, rfl, ?_⟩
      rwa [GraphInspectionSnapshot.providerSnapshot, howners]
  rw [hrecord]
  apply Scope.ownersOf_join_iff
  by_cases hstate : p.state = .planned
  · obtain ⟨d, hd, hname⟩ := Analysis.firstOf_planned hdiagnosed hp hstate
    refine .inr ⟨p.typeId, d, hd, hname, ?_⟩
    rw [providerOwner, if_pos hstate, hd, Option.bind_some]
  · exact .inl (by rw [providerOwner, if_neg hstate])

/-- Two modules with a `#[provider]` function each. Both return types are spelled `Service`. -/
def sampleNamesakes : Environment Unit where
  inventory :=
    { providers := [
        { kind := .provider, typeName := "Service", typeId := ⟨1⟩
          runtimeTypeName := some "app::Service", namespace_ := some "app", dependencies := []
          visibility := .private_, location := ⟨"app.rs", 5, 1⟩ },
        { kind := .provider, typeName := "Service", typeId := ⟨2⟩
          runtimeTypeName := some "app::users::Service", namespace_ := some "app::users"
          dependencies := [], visibility := .public_, location := ⟨"users.rs", 5, 1⟩ }]
      modules := sampleModules }
  autoConfigurations := []
  construct := fun address _ _ => .ok ⟨⟨0⟩, address⟩
  apply := fun address _ => .ok ⟨⟨0⟩, address⟩

/-- The snapshot gives the root's provider to the other module. -/
theorem namesakes_misattributed :
    ∃ scope result, selectRooted sampleNamesakes sampleBuilder sampleGraph = .ok scope ∧
      analyzeBuilder sampleNamesakes sampleBuilder = .ok result ∧ result.analysis.isValid ∧
      ∃ p ∈ result.analysis.graph.providers,
        providerOwner (Catalog.modules sampleNamesakes.inventory) scope.catalog.descriptors p =
            some "App" ∧
          GraphInspectionSnapshot.providerSnapshot sampleNamesakes.inventory result.analysis p =
            ⟨"app::Service", some "Users", .provider, .private_, .planned,
              some ⟨"app.rs", 5, 1⟩⟩ := by
  have hrun : (do
      let scope ← selectRooted sampleNamesakes sampleBuilder sampleGraph
      let result ← analyzeBuilder sampleNamesakes sampleBuilder
      pure (result.analysis.isValid, result.analysis.graph.providers.map fun p =>
        (providerOwner (Catalog.modules sampleNamesakes.inventory) scope.catalog.descriptors p,
          GraphInspectionSnapshot.providerSnapshot sampleNamesakes.inventory result.analysis p))) =
      .ok (true, [
        (none, ⟨"Config", none, .provided, .public_, .provided, none⟩),
        (some "App", ⟨"app::Service", some "Users", .provider, .private_, .planned,
          some ⟨"app.rs", 5, 1⟩⟩),
        (some "Users", ⟨"app::users::Service", some "Users", .provider, .public_, .planned,
          some ⟨"users.rs", 5, 1⟩⟩)]) := by decide +kernel
  obtain ⟨scope, hscope, hrun⟩ := Run.bind_eq_ok.mp hrun
  obtain ⟨result, hresult, hrun⟩ := Run.bind_eq_ok.mp hrun
  obtain ⟨hvalid, hproviders⟩ := Prod.mk.inj (Except.ok.inj hrun)
  have hsecond := hproviders ▸ List.mem_cons_of_mem _ List.mem_cons_self
  obtain ⟨p, hp, heq⟩ := List.mem_map.mp hsecond
  obtain ⟨howner, hrecord⟩ := Prod.mk.inj heq
  exact ⟨scope, result, hscope, hresult, hvalid, p, hp, howner, hrecord⟩

end MadsBuilder

end Mads
