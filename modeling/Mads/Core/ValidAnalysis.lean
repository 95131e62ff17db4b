import Mads.Core.Analysis

/-!
# What an analysis without diagnostics guarantees
-/

namespace Mads

namespace Analysis

/-! ### Grouping -/

/-- After a prefix of the sorted declarations: without a diagnostic none of them was left out. -/
structure Grouping.After (g : Grouping) (done : List ProviderDescriptor) : Prop where
  subset : g.unique ⊆ done
  complete : g.diagnostics = [] → g.duplicates = [] ∧ g.unique = done

theorem Grouping.After.add {g : Grouping} {done : List ProviderDescriptor} (h : g.After done)
    (d : ProviderDescriptor) : (g.add d).After (done ++ [d]) := by
  unfold Grouping.add
  split
  · next existing hfind =>
    split
    · next hany =>
      refine ⟨fun x hx => List.mem_append_left _ (h.subset hx), fun hnil => ?_⟩
      simp [(h.complete hnil).1] at hany
    · exact ⟨fun x hx => List.mem_append_left _ (h.subset hx), by simp⟩
  · refine ⟨?_, fun hnil => ⟨(h.complete hnil).1, by rw [(h.complete hnil).2]⟩⟩
    intro x hx
    obtain hx | hx := List.mem_append.mp hx
    · exact List.mem_append_left _ (h.subset hx)
    · exact List.mem_append_right _ hx

theorem group_after (descriptors : List ProviderDescriptor) :
    (group descriptors).After (sortBy descriptorOrder descriptors) := by
  have hfold : ∀ (rest done : List ProviderDescriptor) (g : Grouping), g.After done →
      (rest.foldl Grouping.add g).After (done ++ rest) := by
    intro rest
    induction rest with
    | nil => exact fun done g h => by simpa using h
    | cons d rest ih =>
      intro done g h
      simpa using ih (done ++ [d]) (g.add d) (h.add d)
  exact hfold _ [] {} ⟨by simp, by simp⟩

theorem addAmbiguity_spec (unique : List ProviderDescriptor)
    (found : List PendingDiagnostic × List TypeId) (d : ProviderDescriptor) :
    ((found.1 = [] → found.2 = []) →
        ((addAmbiguity unique found d).1 = [] → (addAmbiguity unique found d).2 = [])) ∧
      found.2 ⊆ (addAmbiguity unique found d).2 ∧
      (1 < (sameType unique d.typeId).length → d.typeId ∈ (addAmbiguity unique found d).2) := by
  unfold addAmbiguity
  split
  · split
    · next hmem => exact ⟨id, List.Subset.refl _, fun _ => hmem⟩
    · exact ⟨by simp, List.subset_append_left _ _, by simp⟩
  · next hsame =>
    refine ⟨id, List.Subset.refl _, fun hlength => ?_⟩
    match hs : sameType unique d.typeId with
    | [] => simp [hs] at hlength
    | [_] => simp [hs] at hlength
    | first :: second :: more => exact absurd hs (hsame first second more)

/-- The types reported as ambiguous cover every declaration that is not the only one of its
type. -/
theorem ambiguities_spec (unique : List ProviderDescriptor) :
    ((ambiguities unique).1 = [] → (ambiguities unique).2 = []) ∧
      ∀ d ∈ unique, d.typeId ∉ (ambiguities unique).2 → sameType unique d.typeId = [d] := by
  have hfold : ∀ (rest : List ProviderDescriptor) (found : List PendingDiagnostic × List TypeId),
      ((found.1 = [] → found.2 = []) → ((rest.foldl (addAmbiguity unique) found).1 = [] →
        (rest.foldl (addAmbiguity unique) found).2 = [])) ∧
      found.2 ⊆ (rest.foldl (addAmbiguity unique) found).2 ∧
      ∀ d ∈ rest, 1 < (sameType unique d.typeId).length →
        d.typeId ∈ (rest.foldl (addAmbiguity unique) found).2 := by
    intro rest
    induction rest with
    | nil => exact fun found => ⟨id, List.Subset.refl _, by simp⟩
    | cons d rest ih =>
      intro found
      obtain ⟨hnil, hsub, hnew⟩ := addAmbiguity_spec unique found d
      obtain ⟨hnil', hsub', hall⟩ := ih (addAmbiguity unique found d)
      refine ⟨fun h => hnil' (hnil h), fun t ht => hsub' (hsub ht), fun e he hlength => ?_⟩
      obtain rfl | he := List.mem_cons.mp he
      · exact hsub' (hnew hlength)
      · exact hall e he hlength
  obtain ⟨hnil, -, hall⟩ := hfold unique ([], [])
  refine ⟨hnil (by simp), fun d hd hnotMem => ?_⟩
  have hmem : d ∈ sameType unique d.typeId := List.mem_filter.mpr ⟨hd, by simp⟩
  match hs : sameType unique d.typeId with
  | [] => simp [hs] at hmem
  | [e] =>
    rw [hs] at hmem
    rw [List.mem_singleton.mp hmem]
  | first :: second :: more => exact absurd (hall d hd (by simp [hs])) hnotMem

/-! ### Nodes -/

/-- What pushing a list of nodes adds: nodes of new types that are not ambiguous. -/
theorem pushNodes_spec (ambiguousTypes : List TypeId) (xs ps : List ProviderNode)
    (hnodup : (ps.map (·.typeId)).Nodup) (hps : ∀ p ∈ ps, p.typeId ∉ ambiguousTypes) :
    ((xs.foldl (pushNode ambiguousTypes) ps).map (·.typeId)).Nodup ∧
      (∀ p ∈ xs.foldl (pushNode ambiguousTypes) ps,
        p.typeId ∉ ambiguousTypes ∧ (p ∈ ps ∨ p ∈ xs)) ∧
      (∀ p ∈ ps, p ∈ xs.foldl (pushNode ambiguousTypes) ps) ∧
      ∀ x ∈ xs, x.typeId ∉ ambiguousTypes →
        ∃ p ∈ xs.foldl (pushNode ambiguousTypes) ps, p.typeId = x.typeId := by
  induction xs generalizing ps with
  | nil => exact ⟨hnodup, fun p hp => ⟨hps p hp, .inl hp⟩, fun p hp => hp, by simp⟩
  | cons x xs ih =>
    rw [List.foldl_cons]
    by_cases hskip : x.typeId ∈ ambiguousTypes ∨ ps.any (fun p => p.typeId = x.typeId)
    · rw [pushNode, if_pos hskip]
      obtain ⟨hnd, horigin, hkeep, hcover⟩ := ih ps hnodup hps
      refine ⟨hnd, fun p hp => ?_, hkeep, fun y hy hout => ?_⟩
      · obtain ⟨hout, hin⟩ := horigin p hp
        exact ⟨hout, hin.imp_right (List.mem_cons_of_mem _)⟩
      · obtain rfl | hy := List.mem_cons.mp hy
        · obtain ⟨p, hp, htype⟩ := List.any_eq_true.mp (hskip.resolve_left hout)
          exact ⟨p, hkeep p hp, decide_eq_true_eq.mp htype⟩
        · exact hcover y hy hout
    · rw [pushNode, if_neg hskip]
      simp only [not_or, List.any_eq_true, decide_eq_true_eq, not_exists, not_and] at hskip
      obtain ⟨hout, hnew⟩ := hskip
      obtain ⟨hnd, horigin, hkeep, hcover⟩ := ih (ps ++ [x])
        (by
          rw [List.map_append]
          refine List.nodup_append.mpr ⟨hnodup, List.nodup_singleton _, ?_⟩
          rintro a ha b hb rfl
          obtain ⟨p, hp, rfl⟩ := List.mem_map.mp ha
          exact hnew p hp (List.mem_singleton.mp hb))
        (fun p hp => by
          obtain hp | hp := List.mem_append.mp hp
          · exact hps p hp
          · rwa [List.mem_singleton.mp hp])
      refine ⟨hnd, fun p hp => ?_, fun p hp => hkeep p (List.mem_append_left _ hp),
        fun y hy hy' => ?_⟩
      · obtain ⟨hp', hin⟩ := horigin p hp
        refine ⟨hp', ?_⟩
        obtain hin | hin := hin
        · obtain hin | hin := List.mem_append.mp hin
          · exact .inl hin
          · exact .inr (List.mem_singleton.mp hin ▸ List.mem_cons_self)
        · exact .inr (List.mem_cons_of_mem _ hin)
      · obtain rfl | hy := List.mem_cons.mp hy
        · exact ⟨y, hkeep y (by simp), rfl⟩
        · exact hcover y hy hy'

/-- The nodes of a graph: one for each type that is satisfied or declared and not ambiguous, where
a satisfied value comes before a declaration. -/
structure NodesOf (unique : List ProviderDescriptor) (ambiguousTypes : List TypeId)
    (satisfied : List SatisfiedProvider) (providers : List ProviderNode) : Prop where
  nodup : (providers.map (·.typeId)).Nodup
  unambiguous : ∀ p ∈ providers, p.typeId ∉ ambiguousTypes
  origin : ∀ p ∈ providers, (∃ s ∈ satisfied, p = satisfiedNode unique s) ∨
    ∃ d ∈ unique, p = plannedNode d ∧ ∀ s ∈ satisfied, s.typeId ≠ d.typeId
  satisfied : ∀ s ∈ satisfied, s.typeId ∉ ambiguousTypes → ∃ p ∈ providers, p.typeId = s.typeId
  declared : ∀ d ∈ unique, d.typeId ∉ ambiguousTypes → ∃ p ∈ providers, p.typeId = d.typeId

theorem eq_of_typeId_eq {providers : List ProviderNode} (h : (providers.map (·.typeId)).Nodup)
    {p q : ProviderNode} (hp : p ∈ providers) (hq : q ∈ providers) (hpq : p.typeId = q.typeId) :
    p = q :=
  List.inj_on_of_nodup_map h hp hq hpq

theorem nodes_spec (unique : List ProviderDescriptor) (ambiguousTypes : List TypeId)
    (satisfied : List SatisfiedProvider) :
    NodesOf unique ambiguousTypes satisfied (nodes unique ambiguousTypes satisfied) := by
  have hfirst := pushNodes_spec ambiguousTypes
    ((sortBy satisfiedOrder satisfied).map (satisfiedNode unique)) [] List.nodup_nil (by simp)
  set before := ((sortBy satisfiedOrder satisfied).map (satisfiedNode unique)).foldl
    (pushNode ambiguousTypes) [] with hbefore
  obtain ⟨hnd, horigin, -, hcover⟩ := hfirst
  obtain ⟨hnd', horigin', hkeep, hcover'⟩ := pushNodes_spec ambiguousTypes
    (unique.map plannedNode) before hnd (fun p hp => (horigin p hp).1)
  set after := (unique.map plannedNode).foldl (pushNode ambiguousTypes) before with hafter
  have hnodes : nodes unique ambiguousTypes satisfied = sortBy (compareOn (·.typeName)) after := rfl
  have hmem : ∀ p, p ∈ nodes unique ambiguousTypes satisfied ↔ p ∈ after := fun p => by
    rw [hnodes, mem_sortBy]
  have hsatisfied : ∀ p ∈ before, ∃ s ∈ satisfied, p = satisfiedNode unique s := by
    intro p hp
    obtain ⟨s, hs, rfl⟩ := List.mem_map.mp ((horigin p hp).2.resolve_left List.not_mem_nil)
    exact ⟨s, mem_sortBy.mp hs, rfl⟩
  have hcovered : ∀ s ∈ satisfied, s.typeId ∉ ambiguousTypes → ∃ p ∈ before, p.typeId = s.typeId :=
    fun s hs hout => hcover (satisfiedNode unique s)
      (List.mem_map.mpr ⟨s, mem_sortBy.mpr hs, rfl⟩) hout
  refine ⟨?_, fun p hp => (horigin' p ((hmem p).mp hp)).1, fun p hp => ?_, fun s hs hout => ?_,
    fun d hd hout => ?_⟩
  · rw [hnodes]
    exact ((sortBy_perm _ after).map _).nodup_iff.mpr hnd'
  · obtain ⟨hout, hin⟩ := horigin' p ((hmem p).mp hp)
    obtain hin | hin := hin
    · exact .inl (hsatisfied p hin)
    · obtain ⟨d, hd, rfl⟩ := List.mem_map.mp hin
      refine .inr ⟨d, hd, rfl, fun s hs htype => ?_⟩
      -- a satisfied value of this type would own the node
      obtain ⟨q, hq, hqtype⟩ := hcovered s hs (by rw [htype]; exact hout)
      obtain ⟨s', -, rfl⟩ := hsatisfied q hq
      have heq := eq_of_typeId_eq hnd' ((hmem _).mp hp) (hkeep _ hq) (by rw [hqtype, htype]; rfl)
      exact s'.state_ne (congrArg ProviderNode.state heq).symm
  · obtain ⟨p, hp, htype⟩ := hcovered s hs hout
    exact ⟨p, (hmem p).mpr (hkeep p hp), htype⟩
  · obtain ⟨p, hp, htype⟩ := hcover' (plannedNode d) (List.mem_map_of_mem hd) hout
    exact ⟨p, (hmem p).mpr hp, htype⟩

/-! ### Edges -/

def HasType (providers : List ProviderNode) (t : TypeId) : Prop := ∃ p ∈ providers, p.typeId = t

/-- The edge of one declared dependency. -/
def edgeOf (p : ProviderNode) (dependency : DependencyDescriptor) : DependencyEdge :=
  ⟨p.typeId, p.typeName, dependency.typeId, dependency.typeName⟩

section Link

variable (providers : List ProviderNode) (ambiguousTypes coveredMissing : List TypeId)

theorem linkDependency_ok {p : ProviderNode} (hlocated : p.location.isSome) (links : Links)
    (dependency : DependencyDescriptor) :
    ∃ after, linkDependency providers ambiguousTypes coveredMissing p links dependency =
        .ok after ∧
      (∀ e, e ∈ after.dependencies ↔ e ∈ links.dependencies ∨
        dependency.typeId ∉ ambiguousTypes ∧ HasType providers dependency.typeId ∧
          e = edgeOf p dependency) ∧
      (after.diagnostics = [] → links.diagnostics = [] ∧ (dependency.typeId ∈ ambiguousTypes ∨
        HasType providers dependency.typeId ∨ dependency.typeId ∈ coveredMissing)) := by
  unfold linkDependency
  by_cases hambiguous : dependency.typeId ∈ ambiguousTypes
  · refine ⟨links, by simp [hambiguous], fun e => by simp [hambiguous], fun h => ⟨h, .inl hambiguous⟩⟩
  · by_cases hany : providers.any (fun candidate => candidate.typeId = dependency.typeId)
    · have htype : HasType providers dependency.typeId := by simpa [HasType] using hany
      refine ⟨{ links with dependencies := links.dependencies ++ [edgeOf p dependency] },
        by simp only [if_neg hambiguous, if_pos hany]; rfl, fun e => ?_,
        fun h => ⟨h, .inr (.inl htype)⟩⟩
      simp [hambiguous, htype]
    · have htype : ¬ HasType providers dependency.typeId := by simpa [HasType] using hany
      by_cases hcovered : dependency.typeId ∈ coveredMissing
      · exact ⟨links, by simp [hambiguous, hany, hcovered], fun e => by simp [htype],
          fun h => ⟨h, .inr (.inr hcovered)⟩⟩
      · obtain ⟨location, hlocation⟩ := Option.isSome_iff_exists.mp hlocated
        obtain ⟨missing, hmissing⟩ : ∃ missing,
            PendingDiagnostic.missing p dependency = .ok missing :=
          ⟨_, by simp only [PendingDiagnostic.missing, hlocation, Run.expect_some, Run.ok_bind]; rfl⟩
        refine ⟨{ links with diagnostics := links.diagnostics ++ [missing] }, ?_,
          fun e => by simp [htype], by simp⟩
        simp only [if_neg hambiguous, if_neg hany, if_pos hcovered, hmissing]
        rfl

/-- Linking a provider never panics; it adds the edges of the dependencies that have a provider. -/
theorem linkDependencies_ok {p : ProviderNode} (hlocated : p.location.isSome)
    (dependencies : List DependencyDescriptor) (links : Links) :
    ∃ after, dependencies.foldlM
        (linkDependency providers ambiguousTypes coveredMissing p) links = .ok after ∧
      (∀ e, e ∈ after.dependencies ↔ e ∈ links.dependencies ∨ ∃ dependency ∈ dependencies,
        dependency.typeId ∉ ambiguousTypes ∧ HasType providers dependency.typeId ∧
          e = edgeOf p dependency) ∧
      (after.diagnostics = [] → links.diagnostics = [] ∧ ∀ dependency ∈ dependencies,
        dependency.typeId ∈ ambiguousTypes ∨ HasType providers dependency.typeId ∨
          dependency.typeId ∈ coveredMissing) := by
  induction dependencies generalizing links with
  | nil => exact ⟨links, rfl, by simp, by simp⟩
  | cons dependency dependencies ih =>
    obtain ⟨mid, hok, hedges, hclean⟩ := linkDependency_ok providers ambiguousTypes
      coveredMissing hlocated links dependency
    obtain ⟨after, hrest, hedges', hclean'⟩ := ih mid
    refine ⟨after, by simpa [hok] using hrest, fun e => ?_, fun h => ?_⟩
    · rw [hedges', hedges, List.exists_mem_cons_iff, or_assoc]
    · obtain ⟨hmid, hall⟩ := hclean' h
      obtain ⟨hnil, hone⟩ := hclean hmid
      exact ⟨hnil, List.forall_mem_cons.mpr ⟨hone, hall⟩⟩

theorem linkProviders_ok (ps : List ProviderNode)
    (hlocated : ∀ p ∈ ps, p.state = .planned → p.location.isSome) (links : Links) :
    ∃ after, ps.foldlM (linkProvider providers ambiguousTypes coveredMissing) links = .ok after ∧
      (∀ e, e ∈ after.dependencies ↔ e ∈ links.dependencies ∨ ∃ p ∈ ps, p.state = .planned ∧
        ∃ dependency ∈ p.declaredDependencies, dependency.typeId ∉ ambiguousTypes ∧
          HasType providers dependency.typeId ∧ e = edgeOf p dependency) ∧
      (after.diagnostics = [] → links.diagnostics = [] ∧ ∀ p ∈ ps, p.state = .planned →
        ∀ dependency ∈ p.declaredDependencies, dependency.typeId ∈ ambiguousTypes ∨
          HasType providers dependency.typeId ∨ dependency.typeId ∈ coveredMissing) := by
  induction ps generalizing links with
  | nil => exact ⟨links, rfl, by simp, by simp⟩
  | cons p ps ih =>
    have hrest := fun q hq => hlocated q (List.mem_cons_of_mem _ hq)
    by_cases hplanned : p.state = .planned
    · obtain ⟨mid, hok, hedges, hclean⟩ := linkDependencies_ok providers ambiguousTypes coveredMissing
        (hlocated p List.mem_cons_self hplanned) p.declaredDependencies links
      obtain ⟨after, hafter, hedges', hclean'⟩ := ih hrest mid
      refine ⟨after, by simpa [linkProvider, hplanned, hok] using hafter, fun e => ?_, fun h => ?_⟩
      · rw [hedges', hedges, List.exists_mem_cons_iff, or_assoc]
        simp only [hplanned, true_and]
      · obtain ⟨hmid, hall⟩ := hclean' h
        obtain ⟨hnil, hone⟩ := hclean hmid
        exact ⟨hnil, List.forall_mem_cons.mpr ⟨fun _ => hone, hall⟩⟩
    · obtain ⟨after, hafter, hedges', hclean'⟩ := ih hrest links
      refine ⟨after, by simpa [linkProvider, hplanned] using hafter, fun e => ?_, fun h => ?_⟩
      · rw [hedges', List.exists_mem_cons_iff]
        simp only [hplanned, false_and, false_or]
      · obtain ⟨hnil, hall⟩ := hclean' h
        exact ⟨hnil, List.forall_mem_cons.mpr ⟨fun hp => absurd hp hplanned, hall⟩⟩

end Link

/-! ### The diagnosed graph -/

/-- What the passes before planning establish. -/
structure Diagnosed (descriptors : List ProviderDescriptor) (satisfied : List SatisfiedProvider)
    (coveredMissing : List TypeId) (graph : ApplicationGraph) (diagnostics : List Diagnostic)
    (unique : List ProviderDescriptor) : Prop where
  unique_eq : unique = (group descriptors).unique
  nodes : NodesOf unique (ambiguities unique).2 satisfied graph.providers
  edges : ∀ e, e ∈ graph.dependencies ↔ ∃ p ∈ graph.providers, p.state = .planned ∧
    ∃ dependency ∈ p.declaredDependencies,
      HasType graph.providers dependency.typeId ∧ e = edgeOf p dependency
  wellFormed : graph.WellFormed
  clean : diagnostics = [] → (group descriptors).diagnostics = [] ∧ (ambiguities unique).1 = [] ∧
    (∀ p ∈ graph.providers, p.state = .planned → ∀ dependency ∈ p.declaredDependencies,
      HasType graph.providers dependency.typeId ∨ dependency.typeId ∈ coveredMissing) ∧
    ∀ i : graph.Index, Acc (fun j i => Cycle.DependsOn i j) i

/-- A node of a planned state records its declaration. -/
theorem NodesOf.planned {unique : List ProviderDescriptor} {ambiguousTypes : List TypeId}
    {satisfied : List SatisfiedProvider} {providers : List ProviderNode}
    (h : NodesOf unique ambiguousTypes satisfied providers) {p : ProviderNode}
    (hp : p ∈ providers) (hstate : p.state = .planned) :
    ∃ d ∈ unique, p = plannedNode d ∧ ∀ s ∈ satisfied, s.typeId ≠ d.typeId := by
  refine (h.origin p hp).resolve_left ?_
  rintro ⟨s, -, rfl⟩
  exact s.state_ne hstate

theorem wellFormed_of_nodes {unique : List ProviderDescriptor} {ambiguousTypes : List TypeId}
    {satisfied : List SatisfiedProvider} {graph : ApplicationGraph}
    (h : NodesOf unique ambiguousTypes satisfied graph.providers)
    (hedges : ∀ e ∈ graph.dependencies, ∃ p ∈ graph.providers, p.state = .planned ∧
      ∃ dependency : DependencyDescriptor,
        HasType graph.providers dependency.typeId ∧ e = edgeOf p dependency) :
    graph.WellFormed := by
  refine ⟨h.nodup, fun e he => ?_, fun i hi => ?_⟩
  · obtain ⟨p, hp, hstate, dependency, htype, rfl⟩ := hedges e he
    obtain ⟨i, hi⟩ := Option.isSome_iff_exists.mp
      (ApplicationGraph.position_isSome_iff.mpr ⟨p, hp, rfl⟩)
    obtain ⟨j, hj⟩ := Option.isSome_iff_exists.mp
      (ApplicationGraph.position_isSome_iff.mpr htype)
    have hnode : graph.node i = p := eq_of_typeId_eq h.nodup (ApplicationGraph.node_mem i) hp
      (ApplicationGraph.typeId_of_position hi)
    exact ⟨i, j, hi, by rw [hnode, hstate], hj⟩
  · obtain ⟨d, -, hd, -⟩ := h.planned (ApplicationGraph.node_mem i) hi
    rw [hd]
    rfl

theorem map_diagnostic_eq_nil {pending : List PendingDiagnostic} :
    (sortBy PendingDiagnostic.order pending).map (·.diagnostic) = [] ↔ pending = [] := by
  rw [List.map_eq_nil_iff, ← List.length_eq_zero_iff,
    (sortBy_perm PendingDiagnostic.order pending).length_eq, List.length_eq_zero_iff]

theorem addCycles_ok {graph : ApplicationGraph} (h : graph.WellFormed)
    (found : List PendingDiagnostic) :
    ∃ pending, addCycles graph found = .ok pending ∧
      (pending = [] → found = [] ∧ ∀ i : graph.Index, Acc (fun j i => Cycle.DependsOn i j) i) := by
  by_cases hempty : found = []
  · obtain ⟨cycles, hdetect, hnames, hacyclic⟩ := Cycle.detect_ok h
    have hpending : ∀ cycle ∈ cycles, ∃ pending, PendingDiagnostic.cycle cycle = .ok pending := by
      intro cycle hcycle
      obtain ⟨name, rest, hname⟩ := List.exists_cons_of_ne_nil (hnames cycle hcycle)
      exact ⟨_, by simp only [PendingDiagnostic.cycle, hname]; rfl⟩
    obtain ⟨pending, hmap, hall⟩ := Run.mapM_ok hpending
    refine ⟨pending, by simp [addCycles, hempty, hdetect, hmap],
      fun hnil => ⟨hempty, hacyclic.mp ?_⟩⟩
    rw [← List.length_eq_zero_iff, hall.length_eq, hnil, List.length_nil]
  · have hisEmpty : found.isEmpty = false := by simpa using hempty
    exact ⟨found, by simp [addCycles, hisEmpty], fun hnil => absurd hnil hempty⟩

/-- The passes before planning never panic. -/
theorem diagnose_ok (descriptors : List ProviderDescriptor) (satisfied : List SatisfiedProvider)
    (coveredMissing : List TypeId) :
    ∃ graph diagnostics unique,
      diagnose descriptors satisfied coveredMissing = .ok (graph, diagnostics, unique) ∧
      Diagnosed descriptors satisfied coveredMissing graph diagnostics unique := by
  set unique := (group descriptors).unique with hunique
  set ambiguous := ambiguities unique with hambiguous
  have hnodes := nodes_spec unique ambiguous.2 satisfied
  set providers := nodes unique ambiguous.2 satisfied with hproviders
  have hlocated : ∀ p ∈ providers, p.state = .planned → p.location.isSome := by
    intro p hp hstate
    obtain ⟨d, -, rfl, -⟩ := hnodes.planned hp hstate
    rfl
  obtain ⟨links, hlinks, hedges, hclean⟩ :=
    linkProviders_ok providers ambiguous.2 coveredMissing providers hlocated {}
  let graph : ApplicationGraph := ⟨providers, links.dependencies⟩
  have hedges' : ∀ e, e ∈ graph.dependencies ↔ ∃ p ∈ graph.providers, p.state = .planned ∧
      ∃ dependency ∈ p.declaredDependencies,
        HasType graph.providers dependency.typeId ∧ e = edgeOf p dependency := by
    intro e
    rw [show e ∈ graph.dependencies ↔ _ from hedges e, or_iff_right List.not_mem_nil]
    constructor
    · rintro ⟨p, hp, hstate, dependency, hdep, -, htype, he⟩
      exact ⟨p, hp, hstate, dependency, hdep, htype, he⟩
    · rintro ⟨p, hp, hstate, dependency, hdep, ⟨q, hq, hqtype⟩, he⟩
      exact ⟨p, hp, hstate, dependency, hdep, hqtype ▸ hnodes.unambiguous q hq, ⟨q, hq, hqtype⟩, he⟩
  have hwf : graph.WellFormed := wellFormed_of_nodes hnodes fun e he => by
    obtain ⟨p, hp, hstate, dependency, -, htype, rfl⟩ := (hedges' e).mp he
    exact ⟨p, hp, hstate, dependency, htype, rfl⟩
  -- cycles are looked for in the graph of the resolved dependencies
  obtain ⟨pending, hpending, hcycles⟩ := addCycles_ok hwf
    ((group descriptors).diagnostics ++ ambiguous.1 ++ links.diagnostics)
  refine ⟨graph, (sortBy PendingDiagnostic.order pending).map (·.diagnostic), unique, ?_,
    rfl, hnodes, hedges', hwf, fun hnil => ?_⟩
  · unfold diagnose
    simp only [← hunique, ← hambiguous, ← hproviders, hlinks, Run.ok_bind]
    rw [show addCycles ⟨providers, links.dependencies⟩ _ = .ok pending from hpending]
    rfl
  · obtain ⟨hempty, hacyclic⟩ := hcycles (map_diagnostic_eq_nil.mp hnil)
    obtain ⟨hleft, hlinksNil⟩ := List.append_eq_nil_iff.mp hempty
    obtain ⟨hgroup, hamb⟩ := List.append_eq_nil_iff.mp hleft
    refine ⟨hgroup, hamb, fun p hp hstate dependency hdep => ?_, hacyclic⟩
    have hresolved := (hclean hlinksNil).2 p hp hstate dependency hdep
    refine hresolved.resolve_left ?_
    rw [(ambiguities_spec unique).1 hamb]
    exact List.not_mem_nil

/-! ### Planning a diagnosed graph -/

section Valid

variable {descriptors : List ProviderDescriptor} {satisfied : List SatisfiedProvider}
  {coveredMissing : List TypeId} {graph : ApplicationGraph} {unique : List ProviderDescriptor}

/-- Without diagnostics every declaration is kept, and no two of them produce one type. -/
theorem Diagnosed.distinct
    (h : Diagnosed descriptors satisfied coveredMissing graph [] unique) :
    unique.Perm descriptors ∧ (unique.map (·.typeId)).Nodup ∧ (ambiguities unique).2 = [] := by
  obtain ⟨hgroup, hamb, -, -⟩ := h.clean rfl
  have hunique : unique = sortBy descriptorOrder descriptors := by
    rw [h.unique_eq]
    exact ((group_after descriptors).complete hgroup).2
  have hnone : (ambiguities unique).2 = [] := (ambiguities_spec unique).1 hamb
  refine ⟨hunique ▸ sortBy_perm _ _, ?_, hnone⟩
  -- a second declaration of a type would show up among those of that type
  have hsingle : ∀ d ∈ unique, sameType unique d.typeId = [d] := fun d hd =>
    (ambiguities_spec unique).2 d hd (by rw [hnone]; exact List.not_mem_nil)
  have hcount : ∀ t, (unique.map (·.typeId)).count t ≤ 1 := by
    intro t
    rw [List.count_eq_countP, List.countP_map, List.countP_eq_length_filter]
    have hfilter : unique.filter ((fun x => x == t) ∘ fun d => d.typeId) = sameType unique t := by
      rfl
    rw [hfilter]
    cases hs : sameType unique t with
    | nil => simp
    | cons d rest =>
      have hd : d ∈ sameType unique t := by simp [hs]
      obtain ⟨hmem, htype⟩ := List.mem_filter.mp hd
      have := hsingle d hmem
      rw [decide_eq_true_eq.mp htype, hs] at this
      simp [(List.cons.inj this).2]
  exact List.nodup_iff_count_le_one.mpr hcount

theorem Diagnosed.described
    (h : Diagnosed descriptors satisfied coveredMissing graph [] unique) :
    Plan.Described graph unique := by
  intro i hi
  obtain ⟨d, hd, hnode, -⟩ := h.nodes.planned (ApplicationGraph.node_mem i) hi
  exact ⟨d, hd, by rw [hnode]; rfl⟩

theorem Diagnosed.acyclic
    (h : Diagnosed descriptors satisfied coveredMissing graph [] unique) (i : graph.Index) :
    Acc (fun d x => (x, d) ∈ Plan.plannedEdges graph) i := by
  obtain ⟨-, -, -, hacyclic⟩ := h.clean rfl
  refine Subrelation.accessible (fun {d x} he => ?_) (hacyclic i)
  obtain ⟨-, -, edge, hedge, hp, hd⟩ := Plan.mem_plannedEdges.mp he
  exact ⟨edge, hedge, (ApplicationGraph.typeId_of_position hp).symm, hd⟩

/-- The descriptor of a step is the declaration its node was made from. -/
theorem Diagnosed.node_of_step
    (h : Diagnosed descriptors satisfied coveredMissing graph [] unique) {i : graph.Index}
    (hi : i ∈ Plan.planned graph) {step : ConstructionStep}
    (hstep : Plan.constructionStep graph unique i = .ok step) :
    graph.node i = plannedNode step.descriptor := by
  obtain ⟨-, hmem, htype⟩ := Plan.constructionStep_spec hstep
  obtain ⟨d, hd, hnode, -⟩ := h.nodes.planned (ApplicationGraph.node_mem i) (Plan.mem_planned.mp hi)
  have hsame : step.descriptor = d := by
    refine List.inj_on_of_nodup_map h.distinct.2.1 hmem hd ?_
    rw [htype, hnode]
    rfl
  rw [hsame, hnode]

/-- A plan for the planned providers of a graph: each of them once and nothing else, every planned
dependency of a step before the step, and always the least ready provider next. -/
structure PlanOf (graph : ApplicationGraph) (plan : ConstructionPlan) : Prop where
  once : (plan.steps.map (·.typeId)).Nodup
  planned : ∀ t, t ∈ plan.steps.map (·.typeId) ↔
    ∃ p ∈ graph.providers, p.typeId = t ∧ p.state = .planned
  before : ∀ front step back, plan.steps = front ++ step :: back →
    ∀ dependency ∈ step.descriptor.dependencies,
      (∃ p ∈ graph.providers, p.typeId = dependency.typeId ∧ p.state = .planned) →
        dependency.typeId ∈ front.map (·.typeId)
  greedy : ∃ order : List graph.Index,
    plan.steps.map (·.typeId) = order.map (fun i => (graph.node i).typeId) ∧
      Frontier.Greedy ReadyNode.new (Plan.planned graph) (Plan.plannedEdges graph) [] order ∧
      ∀ order', Frontier.Greedy ReadyNode.new (Plan.planned graph) (Plan.plannedEdges graph) []
        order' → order' = order

/-- What a plan says about the declarations it was made from: every one that is not satisfied is a
step, and a dependency of a step is an earlier step, satisfied, or covered. -/
structure Plans (descriptors : List ProviderDescriptor) (satisfied : List SatisfiedProvider)
    (coveredMissing : List TypeId) (plan : ConstructionPlan) : Prop where
  typeId : ∀ step ∈ plan.steps, step.typeId = step.descriptor.typeId
  steps : ∀ d, (∃ step ∈ plan.steps, step.descriptor = d) ↔
    d ∈ descriptors ∧ ∀ s ∈ satisfied, s.typeId ≠ d.typeId
  resolved : ∀ front step back, plan.steps = front ++ step :: back →
    ∀ dependency ∈ step.descriptor.dependencies, dependency.typeId ∈ front.map (·.typeId) ∨
      (∃ s ∈ satisfied, s.typeId = dependency.typeId) ∨ dependency.typeId ∈ coveredMissing

theorem typeId_mem_map_iff {order : List graph.Index} {t : TypeId} (h : graph.WellFormed)
    {i : graph.Index} (hi : (graph.node i).typeId = t) :
    t ∈ order.map (fun i => (graph.node i).typeId) ↔ i ∈ order := by
  constructor
  · intro ht
    obtain ⟨j, hj, hjt⟩ := List.mem_map.mp ht
    rwa [h.typeId_injective (hi.trans hjt.symm)]
  · intro hmem
    exact List.mem_map.mpr ⟨i, hmem, hi⟩

theorem exists_index {p : ProviderNode} (hp : p ∈ graph.providers) :
    ∃ i : graph.Index, graph.node i = p := by
  obtain ⟨i, hi, hget⟩ := List.getElem_of_mem hp
  exact ⟨⟨i, hi⟩, hget⟩

/-- A dependency of a step that has a planned provider is an edge between planned providers, hence
stands before the step. -/
theorem Diagnosed.planned_before
    (h : Diagnosed descriptors satisfied coveredMissing graph [] unique)
    {order before after : List graph.Index} {i : graph.Index}
    (hgreedy : Frontier.Greedy ReadyNode.new (Plan.planned graph) (Plan.plannedEdges graph) []
      order) (horder : order = before ++ i :: after) {step : ConstructionStep}
    (hstep : Plan.constructionStep graph unique i = .ok step)
    {dependency : DependencyDescriptor} (hdep : dependency ∈ step.descriptor.dependencies)
    {p : ProviderNode} (hp : p ∈ graph.providers) (htype : p.typeId = dependency.typeId)
    (hstate : p.state = .planned) :
    dependency.typeId ∈ before.map (fun i => (graph.node i).typeId) := by
  have hi : i ∈ Plan.planned graph := hgreedy.mem_nodes i (by simp [horder])
  have hplanned := Plan.mem_planned.mp hi
  obtain ⟨j, rfl⟩ := exists_index hp
  have hnode := h.node_of_step hi hstep
  have hdeclared : dependency ∈ (graph.node i).declaredDependencies := by
    rw [hnode]
    exact hdep
  have hedge : edgeOf (graph.node i) dependency ∈ graph.dependencies :=
    (h.edges _).mpr ⟨graph.node i, ApplicationGraph.node_mem i, hplanned, dependency, hdeclared,
      ⟨graph.node j, hp, htype⟩, rfl⟩
  have hmem : (i, j) ∈ Plan.plannedEdges graph :=
    Plan.mem_plannedEdges.mpr ⟨hplanned, hstate, _, hedge, h.wellFormed.position_typeId i,
      by rw [← h.wellFormed.position_typeId j, htype]; rfl⟩
  have hbefore := hgreedy.prerequisite_before horder hmem
  exact (typeId_mem_map_iff h.wellFormed htype).mpr (by simpa using hbefore)

/-- Read over declarations, a plan of a diagnosed graph leaves nothing out. -/
theorem Diagnosed.plans (h : Diagnosed descriptors satisfied coveredMissing graph [] unique)
    {plan : ConstructionPlan} {order : List graph.Index} (hplan : PlanOf graph plan)
    (hsteps : Plan.Steps graph unique order plan.steps)
    (horder : ∀ i ∈ order, i ∈ Plan.planned graph) :
    Plans descriptors satisfied coveredMissing plan := by
  obtain ⟨hperm, hnodup, hnone⟩ := h.distinct
  have hstep : ∀ step ∈ plan.steps, step.typeId = step.descriptor.typeId ∧
      step.descriptor ∈ unique ∧ plannedNode step.descriptor ∈ graph.providers := by
    intro step hstep
    obtain ⟨i, hi, hconstruct⟩ := exists_of_forall₂ hsteps hstep
    obtain ⟨htype, hmem, hdescriptor⟩ := Plan.constructionStep_spec hconstruct
    refine ⟨htype.trans hdescriptor.symm, hmem, ?_⟩
    rw [← h.node_of_step (horder i hi) hconstruct]
    exact ApplicationGraph.node_mem i
  refine ⟨fun step hs => (hstep step hs).1, fun d => ⟨?_, ?_⟩, ?_⟩
  · rintro ⟨step, hs, rfl⟩
    obtain ⟨-, hmem, hnode⟩ := hstep step hs
    obtain ⟨d, -, hd, hunsatisfied⟩ := h.nodes.planned hnode rfl
    have htype : step.descriptor.typeId = d.typeId := congrArg ProviderNode.typeId hd
    exact ⟨hperm.mem_iff.mp hmem, fun s hs => htype ▸ hunsatisfied s hs⟩
  · rintro ⟨hd, hunsatisfied⟩
    have hmem := hperm.mem_iff.mpr hd
    obtain ⟨p, hp, htype⟩ := h.nodes.declared d hmem (by rw [hnone]; exact List.not_mem_nil)
    have hstate : p.state = .planned := by
      obtain ⟨s, hs, rfl⟩ | ⟨d', -, rfl, -⟩ := h.nodes.origin p hp
      · exact absurd htype (hunsatisfied s hs)
      · rfl
    obtain ⟨step, hs, hstype⟩ := List.mem_map.mp ((hplan.planned d.typeId).mpr ⟨p, hp, htype, hstate⟩)
    obtain ⟨hdescriptor, hmem', -⟩ := hstep step hs
    exact ⟨step, hs, List.inj_on_of_nodup_map hnodup hmem' hmem (hdescriptor.symm.trans hstype)⟩
  · intro front step back hsplit dependency hdep
    obtain ⟨-, -, hnode⟩ := hstep step (by simp [hsplit])
    obtain ⟨-, -, hresolved, -⟩ := h.clean rfl
    obtain ⟨p, hp, htype⟩ | hcovered := hresolved _ hnode rfl dependency hdep
    · obtain ⟨s, hs, rfl⟩ | ⟨d, -, rfl, -⟩ := h.nodes.origin p hp
      · exact .inr (.inl ⟨s, hs, htype⟩)
      · exact .inl (hplan.before front step back hsplit dependency hdep ⟨_, hp, htype, rfl⟩)
    · exact .inr (.inr hcovered)

/-- Planning a graph without diagnostics succeeds. -/
theorem Diagnosed.plan (h : Diagnosed descriptors satisfied coveredMissing graph [] unique) :
    ∃ plan, Plan.create graph unique = .ok plan ∧ PlanOf graph plan ∧
      Plans descriptors satisfied coveredMissing plan := by
  obtain ⟨plan, order, hcreate, hsteps, hperm, hgreedy⟩ :=
    Plan.create_ok h.wellFormed h.described h.acyclic
  have htypes := hsteps.map_typeId
  have hplanned : ∀ t, t ∈ plan.steps.map (·.typeId) ↔
      ∃ p ∈ graph.providers, p.typeId = t ∧ p.state = .planned := by
    intro t
    rw [htypes, List.mem_map]
    constructor
    · rintro ⟨i, hi, ht⟩
      exact ⟨graph.node i, ApplicationGraph.node_mem i, ht,
        Plan.mem_planned.mp (hperm.mem_iff.mp hi)⟩
    · rintro ⟨p, hp, ht, hstate⟩
      obtain ⟨i, rfl⟩ := exists_index hp
      exact ⟨i, hperm.mem_iff.mpr (Plan.mem_planned.mpr hstate), ht⟩
  have hbefore : ∀ front step back, plan.steps = front ++ step :: back →
      ∀ dependency ∈ step.descriptor.dependencies,
        (∃ p ∈ graph.providers, p.typeId = dependency.typeId ∧ p.state = .planned) →
          dependency.typeId ∈ front.map (·.typeId) := by
    rintro front step back hsplit dependency hdep ⟨p, hp, htype, hstate⟩
    rw [hsplit] at hsteps
    obtain ⟨before, i, after, horder, hfront, hstep⟩ := hsteps.split
    rw [hfront.map_typeId]
    exact h.planned_before hgreedy horder hstep hdep hp htype hstate
  have honce : (plan.steps.map (·.typeId)).Nodup := by
    rw [htypes]
    exact hgreedy.nodup.map fun i j hij => h.wellFormed.typeId_injective hij
  have hplan : PlanOf graph plan := ⟨honce, hplanned, hbefore, order, htypes, hgreedy,
    fun order' h' => h'.unique ReadyNode.new_injective hgreedy⟩
  exact ⟨plan, hcreate, hplan, h.plans hplan hsteps hgreedy.mem_nodes⟩

end Valid

end Analysis

/-- An analysis always returns. It carries a plan exactly where it found nothing to report. -/
theorem analyzeParts_cases (descriptors : List ProviderDescriptor)
    (satisfied : List SatisfiedProvider) (coveredMissing : List TypeId) :
    ∃ analysis, analyzeParts descriptors satisfied coveredMissing = .ok analysis ∧
      analysis.autoConfigurations = [] ∧ analysis.moduleGraph = none ∧
      ((analysis.diagnostics ≠ [] ∧ analysis.constructionPlan = none) ∨
        (analysis.diagnostics = [] ∧ (descriptors.map (·.typeId)).Nodup ∧
          ∃ plan, analysis.constructionPlan = some plan ∧
            Analysis.PlanOf analysis.graph plan ∧
            Analysis.Plans descriptors satisfied coveredMissing plan)) := by
  obtain ⟨graph, diagnostics, unique, hdiagnose, hdiagnosed⟩ :=
    Analysis.diagnose_ok descriptors satisfied coveredMissing
  by_cases hempty : diagnostics = []
  · subst hempty
    obtain ⟨plan, hcreate, hplan, hplans⟩ := hdiagnosed.plan
    refine ⟨⟨graph, [], some plan, [], none⟩, by simp [analyzeParts, hdiagnose, hcreate], rfl, rfl,
      .inr ⟨rfl, ?_, plan, rfl, hplan, hplans⟩⟩
    obtain ⟨hperm, hnodup, -⟩ := hdiagnosed.distinct
    exact (hperm.map _).nodup_iff.mp hnodup
  · exact ⟨⟨graph, diagnostics, none, [], none⟩, by simp [analyzeParts, hdiagnose, hempty], rfl,
      rfl, .inl ⟨hempty, rfl⟩⟩

/-- A valid analysis is of a graph without diagnostics, and carries a plan for it. -/
theorem diagnosed_of_analyzeParts {descriptors : List ProviderDescriptor}
    {satisfied : List SatisfiedProvider} {coveredMissing : List TypeId} {analysis : GraphAnalysis}
    (h : analyzeParts descriptors satisfied coveredMissing = .ok analysis)
    (hvalid : analysis.isValid = true) :
    ∃ unique plan,
      Analysis.Diagnosed descriptors satisfied coveredMissing analysis.graph [] unique ∧
      analysis.constructionPlan = some plan ∧ Analysis.PlanOf analysis.graph plan := by
  obtain ⟨graph, diagnostics, unique, hdiagnose, hdiagnosed⟩ :=
    Analysis.diagnose_ok descriptors satisfied coveredMissing
  by_cases hempty : diagnostics = []
  · subst hempty
    obtain ⟨plan, hcreate, hplanOf, -⟩ := hdiagnosed.plan
    have hok : analyzeParts descriptors satisfied coveredMissing =
        .ok ⟨graph, [], some plan, [], none⟩ := by simp [analyzeParts, hdiagnose, hcreate]
    obtain rfl := Except.ok.inj (hok.symm.trans h)
    exact ⟨unique, plan, hdiagnosed, rfl, hplanOf⟩
  · have hok : analyzeParts descriptors satisfied coveredMissing =
        .ok ⟨graph, diagnostics, none, [], none⟩ := by simp [analyzeParts, hdiagnose, hempty]
    obtain rfl := Except.ok.inj (hok.symm.trans h)
    simp [GraphAnalysis.isValid] at hvalid

/-- The analysis reports what the passes before planning found. Where that is nothing, the planner
meets no failing check: it constructs each planned provider once and nothing else, follows the
dependencies, and always takes the least ready provider. Just the declarations of types that are not
satisfied are built, after those they depend on. -/
theorem analyzeParts_plan (descriptors : List ProviderDescriptor)
    (satisfied : List SatisfiedProvider) (coveredMissing : List TypeId) :
    ∃ graph diagnostics unique,
      Analysis.diagnose descriptors satisfied coveredMissing = .ok (graph, diagnostics, unique) ∧
      (diagnostics ≠ [] → analyzeParts descriptors satisfied coveredMissing =
        .ok ⟨graph, diagnostics, none, [], none⟩) ∧
      (diagnostics = [] → ∃ plan, Plan.create graph unique = .ok plan ∧
        analyzeParts descriptors satisfied coveredMissing = .ok ⟨graph, [], some plan, [], none⟩ ∧
        Analysis.PlanOf graph plan ∧
        Analysis.Plans descriptors satisfied coveredMissing plan) := by
  obtain ⟨graph, diagnostics, unique, hdiagnose, hdiagnosed⟩ :=
    Analysis.diagnose_ok descriptors satisfied coveredMissing
  refine ⟨graph, diagnostics, unique, hdiagnose, fun hne => ?_, fun hnil => ?_⟩
  · simp [analyzeParts, hdiagnose, hne]
  · subst hnil
    obtain ⟨plan, hcreate, hplan, hplans⟩ := hdiagnosed.plan
    exact ⟨plan, hcreate, by simp [analyzeParts, hdiagnose, hcreate], hplan, hplans⟩

end Mads
