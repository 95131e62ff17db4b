import Mathlib.Algebra.Order.BigOperators.Group.List
import Mads.Core.Scope

/-!
# What the scope selection computes
-/

namespace Mads

/-- The first occurrences of a list's elements. -/
def firsts {α : Type} [DecidableEq α] (xs : List α) : List α :=
  xs.foldl (fun found x => if x ∈ found then found else found ++ [x]) []

theorem firsts_concat {α : Type} [DecidableEq α] (xs : List α) (x : α) :
    firsts (xs ++ [x]) = if x ∈ firsts xs then firsts xs else firsts xs ++ [x] := by
  unfold firsts
  rw [List.foldl_append]
  rfl

theorem mem_firsts {α : Type} [DecidableEq α] {xs : List α} {x : α} :
    x ∈ firsts xs ↔ x ∈ xs := by
  induction xs using List.reverseRecOn with
  | nil => simp [firsts]
  | append_singleton xs y ih =>
    rw [firsts_concat]
    split
    · next hy =>
      rw [ih, List.mem_append, List.mem_singleton]
      refine ⟨.inl, fun h => h.elim id ?_⟩
      rintro rfl
      exact ih.mp hy
    · simp [ih]

theorem firsts_nodup {α : Type} [DecidableEq α] (xs : List α) : (firsts xs).Nodup := by
  induction xs using List.reverseRecOn with
  | nil => exact List.nodup_nil
  | append_singleton xs y ih =>
    rw [firsts_concat]
    split
    · exact ih
    · next hy =>
      refine List.nodup_append.mpr ⟨ih, List.nodup_singleton y, ?_⟩
      rintro a ha b hb rfl
      exact hy (List.mem_singleton.mp hb ▸ ha)

theorem firsts_map {α β : Type} [DecidableEq α] [DecidableEq β] {f : α → β}
    (hf : Function.Injective f) (xs : List α) : firsts (xs.map f) = (firsts xs).map f := by
  induction xs using List.reverseRecOn with
  | nil => rfl
  | append_singleton xs y ih =>
    rw [List.map_append, List.map_singleton, firsts_concat, firsts_concat, ih]
    by_cases hy : y ∈ firsts xs
    · rw [if_pos hy, if_pos (List.mem_map_of_mem hy)]
    · rw [if_neg hy, if_neg (fun h => hy ((List.mem_map_of_injective hf).mp h)), List.map_append,
        List.map_singleton]

namespace Scope

section Expand

variable (graph : ModuleGraph) (modules : List ModuleDescriptor)
  (descriptors : List ProviderDescriptor) (satisfied : List SatisfiedProvider)

def key {n : ℕ} (work : WorkItem n) : Fin n × Option TypeId := (work.descriptorIndex, work.context)

/-- The items a dependency queues. -/
def admissible (work : WorkItem descriptors.length) (dependency : DependencyDescriptor) :
    List (WorkItem descriptors.length) :=
  (candidates graph modules descriptors work dependency).filterMap Candidate.item?

/-- The accesses a dependency would need but may not have. -/
def failures (work : WorkItem descriptors.length) (dependency : DependencyDescriptor) :
    List BoundaryFailure :=
  (candidates graph modules descriptors work dependency).filterMap Candidate.failure?

/-- The items that processing a work item queues. -/
def next (work : WorkItem descriptors.length) : List (WorkItem descriptors.length) :=
  ((declaration descriptors work.descriptorIndex).dependencies.filter
    (fun dependency => !isSatisfied satisfied dependency.typeId)).flatMap
      (admissible graph modules descriptors work)

/-- A dependency that is declared somewhere, but only behind boundaries. -/
def Blocked (work : WorkItem descriptors.length) (dependency : DependencyDescriptor) : Prop :=
  isSatisfied satisfied dependency.typeId = false ∧
    admissible graph modules descriptors work dependency = [] ∧
    failures graph modules descriptors work dependency ≠ []

/-- The item asks on behalf of a reachable module. -/
def InScope {n : ℕ} (work : WorkItem n) : Prop :=
  ∃ context, work.context = some context ∧ graph.isReachable context

variable {graph modules descriptors satisfied}

theorem mem_candidates {work : WorkItem descriptors.length} {dependency : DependencyDescriptor}
    {candidate : Candidate descriptors.length} :
    candidate ∈ candidates graph modules descriptors work dependency ↔
      ∃ i : Fin descriptors.length, (declaration descriptors i).typeId = dependency.typeId ∧
        classify graph modules descriptors work i = candidate := by
  simp [candidates]

theorem mem_admissible {work item : WorkItem descriptors.length}
    {dependency : DependencyDescriptor} :
    item ∈ admissible graph modules descriptors work dependency ↔
      ∃ i : Fin descriptors.length, (declaration descriptors i).typeId = dependency.typeId ∧
        classify graph modules descriptors work i = .admissible item := by
  simp only [admissible, List.mem_filterMap, mem_candidates]
  constructor
  · rintro ⟨candidate, ⟨i, htype, hclassify⟩, hitem⟩
    refine ⟨i, htype, hclassify.trans ?_⟩
    cases candidate <;> simp_all [Candidate.item?]
  · rintro ⟨i, htype, hclassify⟩
    exact ⟨_, ⟨i, htype, hclassify⟩, rfl⟩

theorem mem_failures {work : WorkItem descriptors.length} {dependency : DependencyDescriptor}
    {failure : BoundaryFailure} :
    failure ∈ failures graph modules descriptors work dependency ↔
      ∃ i : Fin descriptors.length, (declaration descriptors i).typeId = dependency.typeId ∧
        classify graph modules descriptors work i = .boundaryFailure failure := by
  simp only [failures, List.mem_filterMap, mem_candidates]
  constructor
  · rintro ⟨candidate, ⟨i, htype, hclassify⟩, hfailure⟩
    refine ⟨i, htype, hclassify.trans ?_⟩
    cases candidate <;> simp_all [Candidate.failure?]
  · rintro ⟨i, htype, hclassify⟩
    exact ⟨_, ⟨i, htype, hclassify⟩, rfl⟩

/-- May a declaration be used on behalf of the module `context`? -/
def Admits (graph : ModuleGraph) (modules : List ModuleDescriptor) (context : TypeId)
    (d : ProviderDescriptor) : Prop :=
  ∀ owner, ownerOf d.namespace_ modules = some owner →
    owner.typeId = context ∨
      (d.visibility = .public_ ∧ graph.directlyImports context owner.typeId = true)

/-- The module on whose behalf a declaration asks for its own dependencies: its owner, and for an
unowned declaration the module it was asked for by. -/
def contextOf (modules : List ModuleDescriptor) (context : TypeId) (d : ProviderDescriptor) :
    TypeId :=
  ((ownerOf d.namespace_ modules).map (·.typeId)).getD context

/-- With a context, a declaration is admissible or behind a boundary, and nothing else. -/
theorem classify_spec (graph : ModuleGraph) (modules : List ModuleDescriptor)
    {work : WorkItem descriptors.length} {context : TypeId}
    (h : work.context = some context) (i : Fin descriptors.length) :
    (Admits graph modules context (declaration descriptors i) ∧
      classify graph modules descriptors work i = .admissible
        ⟨i, some (contextOf modules context (declaration descriptors i)),
          work.dependencyPath ++ [(declaration descriptors i).typeName]⟩) ∨
    (¬ Admits graph modules context (declaration descriptors i) ∧ ∃ owner,
      ownerOf (declaration descriptors i).namespace_ modules = some owner ∧
      classify graph modules descriptors work i = .boundaryFailure
        ⟨context, owner, declaration descriptors i,
          work.dependencyPath ++ [(declaration descriptors i).typeName]⟩) := by
  unfold classify
  simp only [h]
  cases howner : ownerOf (declaration descriptors i).namespace_ modules with
  | none =>
    refine .inl ⟨fun owner ho => ?_, by simp [contextOf, howner]⟩
    simp [howner] at ho
  | some owner =>
    by_cases hself : owner.typeId = context
    · refine .inl ⟨fun o ho => ?_, by simp [contextOf, howner, hself]⟩
      obtain rfl : owner = o := by simpa [howner] using ho
      exact .inl hself
    · by_cases haccess : canAccess graph context owner.typeId (declaration descriptors i).visibility
      · refine .inl ⟨fun o ho => ?_, by simp [contextOf, howner, hself, haccess]⟩
        obtain rfl : owner = o := by simpa [howner] using ho
        have := haccess
        simp only [canAccess, Bool.or_eq_true, Bool.and_eq_true, decide_eq_true_eq] at this
        exact .inr (this.resolve_left fun he => hself he.symm)
      · refine .inr ⟨fun hadmits => ?_, owner, rfl, by simp [hself, haccess]⟩
        obtain hs | ⟨hpublic, himports⟩ := hadmits owner howner
        · exact hself hs
        · simp [canAccess, hpublic, himports] at haccess

/-- An admissible declaration keeps the work inside the reachable modules. -/
theorem reachable_contextOf {context : TypeId} {d : ProviderDescriptor}
    (hcontext : graph.isReachable context) (hadmits : Admits graph modules context d) :
    graph.isReachable (contextOf modules context d) := by
  unfold contextOf
  cases howner : ownerOf d.namespace_ modules with
  | none => simpa using hcontext
  | some owner =>
    obtain hself | ⟨-, himports⟩ := hadmits owner howner
    · simpa [hself] using hcontext
    · simpa using ModuleGraph.isReachable_of_directlyImports himports

theorem admissible_iff {work item : WorkItem descriptors.length} {context : TypeId}
    (h : work.context = some context) {dependency : DependencyDescriptor} :
    item ∈ admissible graph modules descriptors work dependency ↔
      ∃ i : Fin descriptors.length, (declaration descriptors i).typeId = dependency.typeId ∧
        Admits graph modules context (declaration descriptors i) ∧
        item = ⟨i, some (contextOf modules context (declaration descriptors i)),
          work.dependencyPath ++ [(declaration descriptors i).typeName]⟩ := by
  rw [mem_admissible]
  refine exists_congr fun i => and_congr_right fun _ => ?_
  obtain ⟨hadmits, hclassify⟩ | ⟨hadmits, owner, -, hclassify⟩ :=
    classify_spec graph modules h i
  · rw [hclassify]
    simp [hadmits, eq_comm]
  · rw [hclassify]
    simp [hadmits]

theorem inScope_of_next {work item : WorkItem descriptors.length} (h : InScope graph work)
    (hitem : item ∈ next graph modules descriptors satisfied work) : InScope graph item := by
  obtain ⟨context, hcontext, hreach⟩ := h
  obtain ⟨dependency, -, hadmissible⟩ := List.mem_flatMap.mp hitem
  obtain ⟨i, -, hadmits, rfl⟩ := (admissible_iff hcontext).mp hadmissible
  exact ⟨_, rfl, reachable_contextOf hreach hadmits⟩

theorem inScope_of_seed {item : WorkItem descriptors.length}
    (h : item ∈ seeds graph modules descriptors satisfied) : InScope graph item := by
  obtain ⟨i, -, hseed⟩ := List.mem_filterMap.mp h
  dsimp only at hseed
  split at hseed
  · simp at hseed
  · split at hseed
    · next hany =>
      obtain ⟨owner, howner, hreach⟩ := (Option.any_eq_true _ _).mp hany
      obtain rfl := Option.some.inj hseed
      exact ⟨owner.typeId, by simp [howner], hreach⟩
    · simp at hseed

end Expand

/-! ### One dependency -/

section Steps

variable (graph : ModuleGraph) (modules : List ModuleDescriptor)
  (descriptors : List ProviderDescriptor) (satisfied : List SatisfiedProvider)

/-- What the diagnostics and covered types of a selection say about the dependencies of `asked`. -/
structure Reports (asked : List (WorkItem descriptors.length × DependencyDescriptor))
    (selection : Selection descriptors.length) : Prop where
  reported : ∀ e ∈ asked, Blocked graph modules descriptors satisfied e.1 e.2 →
    ∀ failure ∈ failures graph modules descriptors e.1 e.2,
      ∃ g ∈ selection.diagnostics, boundaryError graph failure = .ok g
  justified : ∀ g ∈ selection.diagnostics, g.code = MADS009 ∧
    ∃ e ∈ asked, Blocked graph modules descriptors satisfied e.1 e.2
  covered : ∀ t ∈ selection.coveredMissing,
    ∃ e ∈ asked, e.2.typeId = t ∧ Blocked graph modules descriptors satisfied e.1 e.2

variable {graph modules descriptors satisfied}

theorem boundaryError_ok {failure : BoundaryFailure}
    (h : graph.isReachable failure.context) :
    ∃ g, boundaryError graph failure = .ok g ∧ g.code = MADS009 := by
  obtain ⟨node, hnode, htype⟩ := ModuleGraph.isReachable_iff.mp h
  obtain ⟨found, hfound⟩ := Option.isSome_iff_exists.mp
    (List.find?_isSome.mpr ⟨node, hnode, decide_eq_true htype⟩ :
      (graph.modules.find? (fun m => m.typeId = failure.context)).isSome)
  exact ⟨_, by simp only [boundaryError, hfound, Run.expect_some, Run.ok_bind]; rfl, rfl⟩

theorem context_of_failure {work : WorkItem descriptors.length} {context : TypeId}
    (h : work.context = some context) {dependency : DependencyDescriptor}
    {failure : BoundaryFailure}
    (hfailure : failure ∈ failures graph modules descriptors work dependency) :
    failure.context = context := by
  obtain ⟨i, -, hclassify⟩ := mem_failures.mp hfailure
  obtain ⟨-, hspec⟩ | ⟨-, owner, -, hspec⟩ :=
    classify_spec graph modules h i
  · rw [hspec] at hclassify
    simp at hclassify
  · rw [hspec] at hclassify
    rw [← Candidate.boundaryFailure.inj hclassify]

/-- Work on behalf of a module meets no declaration outside every scope. -/
theorem not_outside {work : WorkItem descriptors.length} {context : TypeId}
    (h : work.context = some context) (dependency : DependencyDescriptor) :
    (candidates graph modules descriptors work dependency).any Candidate.isOutside = false := by
  rw [List.any_eq_false]
  intro candidate hcandidate
  obtain ⟨i, -, rfl⟩ := mem_candidates.mp hcandidate
  obtain ⟨-, hspec⟩ | ⟨-, owner, -, hspec⟩ :=
    classify_spec graph modules h i <;> simp [hspec, Candidate.isOutside]

theorem Reports.mono {asked more : List (WorkItem descriptors.length × DependencyDescriptor)}
    {selection after : Selection descriptors.length}
    (h : Reports graph modules descriptors satisfied asked selection)
    (hreported : ∀ e ∈ more, Blocked graph modules descriptors satisfied e.1 e.2 →
      ∀ failure ∈ failures graph modules descriptors e.1 e.2,
        ∃ g ∈ after.diagnostics, boundaryError graph failure = .ok g)
    (hdiagnostics : ∀ g, g ∈ after.diagnostics → g ∈ selection.diagnostics ∨ (g.code = MADS009 ∧
      ∃ e ∈ more, Blocked graph modules descriptors satisfied e.1 e.2))
    (hkeep : selection.diagnostics ⊆ after.diagnostics)
    (hcovered : ∀ t ∈ after.coveredMissing, t ∈ selection.coveredMissing ∨
      ∃ e ∈ more, e.2.typeId = t ∧ Blocked graph modules descriptors satisfied e.1 e.2) :
    Reports graph modules descriptors satisfied (asked ++ more) after := by
  refine ⟨fun e he hblocked failure hfailure => ?_, fun g hg => ?_, fun t ht => ?_⟩
  · obtain he | he := List.mem_append.mp he
    · obtain ⟨g, hg, herror⟩ := h.reported e he hblocked failure hfailure
      exact ⟨g, hkeep hg, herror⟩
    · exact hreported e he hblocked failure hfailure
  · obtain hg | ⟨hcode, e, he, hblocked⟩ := hdiagnostics g hg
    · obtain ⟨hcode, e, he, hblocked⟩ := h.justified g hg
      exact ⟨hcode, e, List.mem_append_left _ he, hblocked⟩
    · exact ⟨hcode, e, List.mem_append_right _ he, hblocked⟩
  · obtain ht | ⟨e, he, htype, hblocked⟩ := hcovered t ht
    · obtain ⟨e, he, htype, hblocked⟩ := h.covered t ht
      exact ⟨e, List.mem_append_left _ he, htype, hblocked⟩
    · exact ⟨e, List.mem_append_right _ he, htype, hblocked⟩

/-- What a step of the selection leaves as it is, and what it queues. -/
structure Queues (before after : Selection descriptors.length)
    (items : List (WorkItem descriptors.length)) : Prop where
  queue : after.queue = before.queue ++ items
  processed : after.processed = before.processed
  selectedIndices : after.selectedIndices = before.selectedIndices
  selected : after.selected = before.selected

/-- Where no declaration is admissible, the failures are reported and nothing is queued. -/
theorem resolveDependency_blocked {work : WorkItem descriptors.length} {context : TypeId}
    (hcontext : work.context = some context) (hreach : graph.isReachable context)
    (selection : Selection descriptors.length) {dependency : DependencyDescriptor}
    (hsatisfied : isSatisfied satisfied dependency.typeId = false)
    (hempty : admissible graph modules descriptors work dependency = []) :
    ∃ after, resolveDependency graph modules descriptors satisfied work selection dependency =
        .ok after ∧ Queues selection after [] ∧
      (∀ g, g ∈ after.diagnostics ↔ g ∈ selection.diagnostics ∨
        ∃ failure ∈ failures graph modules descriptors work dependency,
          boundaryError graph failure = .ok g) ∧
      ∀ t ∈ after.coveredMissing, t ∈ selection.coveredMissing ∨
        (t = dependency.typeId ∧ failures graph modules descriptors work dependency ≠ []) := by
  have hall : ∀ failure ∈ failures graph modules descriptors work dependency,
      ∃ g, boundaryError graph failure = .ok g := fun failure hfailure => by
    obtain ⟨g, hg, -⟩ := boundaryError_ok (context_of_failure hcontext hfailure ▸ hreach :
      graph.isReachable failure.context)
    exact ⟨g, hg⟩
  obtain ⟨errors, herrors, hforall⟩ := Run.mapM_ok hall
  have hdiagnostics : ∀ g, g ∈ selection.diagnostics ++ errors ↔ g ∈ selection.diagnostics ∨
      ∃ failure ∈ failures graph modules descriptors work dependency,
        boundaryError graph failure = .ok g := by
    intro g
    rw [List.mem_append]
    refine or_congr_right ⟨exists_of_forall₂ hforall, ?_⟩
    rintro ⟨failure, hfailure, herror⟩
    obtain ⟨g', hg', herror'⟩ := exists_of_forall₂ hforall.flip hfailure
    obtain rfl : g = g' := by simpa [herror] using herror'
    exact hg'
  have hstep : resolveDependency graph modules descriptors satisfied work selection dependency =
      if !(candidates graph modules descriptors work dependency).isEmpty &&
          !(failures graph modules descriptors work dependency).isEmpty &&
          dependency.typeId ∉ selection.coveredMissing then
        .ok { selection with
          diagnostics := selection.diagnostics ++ errors
          coveredMissing := selection.coveredMissing ++ [dependency.typeId] }
      else .ok { selection with diagnostics := selection.diagnostics ++ errors } := by
    unfold admissible at hempty
    unfold failures at herrors
    simp only [resolveDependency, hsatisfied, hempty, List.isEmpty_nil, if_true, herrors,
      Run.ok_bind, not_outside hcontext, Bool.false_or, failures]
    rfl
  rw [hstep]
  split
  · next hif =>
    simp only [Bool.and_eq_true, Bool.not_eq_true', decide_eq_true_eq] at hif
    refine ⟨_, rfl, ⟨by simp, rfl, rfl, rfl⟩, hdiagnostics, fun t ht => ?_⟩
    obtain ht | ht := List.mem_append.mp ht
    · exact .inl ht
    · refine .inr ⟨List.mem_singleton.mp ht, ?_⟩
      simpa using hif.1.2
  · exact ⟨_, rfl, ⟨by simp, rfl, rfl, rfl⟩, hdiagnostics, fun t ht => .inl ht⟩

theorem resolveDependency_ok {work : WorkItem descriptors.length} (hscope : InScope graph work)
    (selection : Selection descriptors.length) (dependency : DependencyDescriptor)
    {asked : List (WorkItem descriptors.length × DependencyDescriptor)}
    (h : Reports graph modules descriptors satisfied asked selection) :
    ∃ after, resolveDependency graph modules descriptors satisfied work selection dependency =
        .ok after ∧
      Queues selection after (if isSatisfied satisfied dependency.typeId then [] else
        admissible graph modules descriptors work dependency) ∧
      Reports graph modules descriptors satisfied (asked ++ [(work, dependency)]) after := by
  obtain ⟨context, hcontext, hreach⟩ := hscope
  by_cases hsatisfied : isSatisfied satisfied dependency.typeId = true
  · refine ⟨selection, by simp [resolveDependency, hsatisfied], ⟨by simp [hsatisfied], rfl, rfl, rfl⟩,
      h.mono ?_ (fun g hg => .inl hg) (List.Subset.refl _) (fun t ht => .inl ht)⟩
    rintro e he ⟨hunsatisfied, -⟩
    obtain rfl := List.mem_singleton.mp he
    simp [hsatisfied] at hunsatisfied
  replace hsatisfied : isSatisfied satisfied dependency.typeId = false := by simpa using hsatisfied
  have hfails : ∀ failure ∈ failures graph modules descriptors work dependency,
      graph.isReachable failure.context := fun failure hfailure => by
    rw [context_of_failure hcontext hfailure]
    exact hreach
  by_cases hempty : admissible graph modules descriptors work dependency = []
  · obtain ⟨after, hok, hqueues, hdiagnostics, hcovered⟩ :=
      resolveDependency_blocked hcontext hreach selection hsatisfied hempty
    refine ⟨after, hok, ⟨by simp [hqueues.queue, hsatisfied, hempty], hqueues.processed,
      hqueues.selectedIndices, hqueues.selected⟩, h.mono ?_ (fun g hg => ?_) ?_ fun t ht => ?_⟩
    · rintro e he - failure hfailure
      obtain rfl := List.mem_singleton.mp he
      obtain ⟨g, herror, -⟩ := boundaryError_ok (hfails failure hfailure)
      exact ⟨g, (hdiagnostics g).mpr (.inr ⟨failure, hfailure, herror⟩), herror⟩
    · obtain hg | ⟨failure, hfailure, herror⟩ := (hdiagnostics g).mp hg
      · exact .inl hg
      · obtain ⟨g', herror', hcode⟩ := boundaryError_ok (hfails failure hfailure)
        obtain rfl : g = g' := by simpa [herror] using herror'
        exact .inr ⟨hcode, _, List.mem_singleton_self _, hsatisfied, hempty,
          List.ne_nil_of_mem hfailure⟩
    · exact fun g hg => (hdiagnostics g).mpr (.inl hg)
    · obtain ht | ⟨rfl, hne⟩ := hcovered t ht
      · exact .inl ht
      · exact .inr ⟨_, List.mem_singleton_self _, rfl, hsatisfied, hempty, hne⟩
  · have hisEmpty : (admissible graph modules descriptors work dependency).isEmpty = false := by
      simpa using hempty
    refine ⟨{ selection with
        queue := selection.queue ++ admissible graph modules descriptors work dependency }, ?_,
      ⟨by simp [hsatisfied], rfl, rfl, rfl⟩,
      h.mono ?_ (fun g hg => .inl hg) (List.Subset.refl _) (fun t ht => .inl ht)⟩
    · unfold admissible at hisEmpty
      simp [resolveDependency, hsatisfied, hisEmpty, admissible]
    · rintro e he ⟨-, hnone, -⟩
      obtain rfl := List.mem_singleton.mp he
      exact absurd hnone hempty

theorem Queues.trans {a b c : Selection descriptors.length}
    {items more : List (WorkItem descriptors.length)} (h : Queues a b items)
    (h' : Queues b c more) : Queues a c (items ++ more) :=
  ⟨by rw [h'.queue, h.queue, List.append_assoc], h'.processed.trans h.processed,
    h'.selectedIndices.trans h.selectedIndices, h'.selected.trans h.selected⟩

theorem resolveDependencies_ok {work : WorkItem descriptors.length} (hscope : InScope graph work)
    (dependencies : List DependencyDescriptor) (selection : Selection descriptors.length)
    {asked : List (WorkItem descriptors.length × DependencyDescriptor)}
    (h : Reports graph modules descriptors satisfied asked selection) :
    ∃ after, dependencies.foldlM
        (resolveDependency graph modules descriptors satisfied work) selection = .ok after ∧
      Queues selection after ((dependencies.filter
        (fun dependency => !isSatisfied satisfied dependency.typeId)).flatMap
          (admissible graph modules descriptors work)) ∧
      Reports graph modules descriptors satisfied
        (asked ++ dependencies.map (fun dependency => (work, dependency))) after := by
  induction dependencies generalizing selection asked with
  | nil => exact ⟨selection, rfl, ⟨by simp, rfl, rfl, rfl⟩, by simpa using h⟩
  | cons dependency dependencies ih =>
    obtain ⟨mid, hok, hqueues, hreports⟩ := resolveDependency_ok hscope selection dependency h
    obtain ⟨after, hrest, hqueues', hreports'⟩ := ih mid hreports
    refine ⟨after, by simpa [hok] using hrest, ?_, by simpa using hreports'⟩
    have := hqueues.trans hqueues'
    cases hsatisfied : isSatisfied satisfied dependency.typeId <;> simpa [hsatisfied] using this

/-- The dependencies that a list of processed items asked for. -/
def askedBy (done : List (WorkItem descriptors.length)) :
    List (WorkItem descriptors.length × DependencyDescriptor) :=
  done.flatMap (fun work =>
    (declaration descriptors work.descriptorIndex).dependencies.map (fun d => (work, d)))

variable (graph modules descriptors satisfied) in
/-- What the data of a selection mean after the items of `done`. -/
structure Follows (done : List (WorkItem descriptors.length))
    (selection : Selection descriptors.length) : Prop where
  processed : selection.processed = done.map key
  selectedIndices : selection.selectedIndices = firsts (done.map (·.descriptorIndex))
  selected : selection.selected = selection.selectedIndices.map (declaration descriptors)
  reports : Reports graph modules descriptors satisfied (askedBy done) selection

theorem processWork_ok {work : WorkItem descriptors.length} (hscope : InScope graph work)
    {done : List (WorkItem descriptors.length)} {selection : Selection descriptors.length}
    (h : Follows graph modules descriptors satisfied done selection)
    (hnew : key work ∉ done.map key) :
    ∃ after, processWork graph modules descriptors satisfied selection work = .ok after ∧
      after.queue = selection.queue ++ next graph modules descriptors satisfied work ∧
      Follows graph modules descriptors satisfied (done ++ [work]) after := by
  have hprocessed : (work.descriptorIndex, work.context) ∉ selection.processed := by
    rw [h.processed]
    exact hnew
  -- the selection when the dependencies are looked at
  obtain ⟨begun, hbegun, hqueue, hprocessed', hindices, hselected, hdiagnostics, hcovered⟩ :
      ∃ begun : Selection descriptors.length,
        processWork graph modules descriptors satisfied selection work =
          (declaration descriptors work.descriptorIndex).dependencies.foldlM
            (resolveDependency graph modules descriptors satisfied work) begun ∧
        begun.queue = selection.queue ∧ begun.processed = (done ++ [work]).map key ∧
        begun.selectedIndices = firsts ((done ++ [work]).map (·.descriptorIndex)) ∧
        begun.selected = begun.selectedIndices.map (declaration descriptors) ∧
        begun.diagnostics = selection.diagnostics ∧
        begun.coveredMissing = selection.coveredMissing := by
    by_cases hseen : work.descriptorIndex ∈ selection.selectedIndices
    · refine ⟨{ selection with
        processed := selection.processed ++ [(work.descriptorIndex, work.context)] },
        by simp [processWork, hprocessed, hseen], rfl, by simp [h.processed, key], ?_,
        h.selected, rfl, rfl⟩
      rw [List.map_append, List.map_singleton, firsts_concat, ← h.selectedIndices, if_pos hseen]
    · refine ⟨{ selection with
        processed := selection.processed ++ [(work.descriptorIndex, work.context)]
        selectedIndices := selection.selectedIndices ++ [work.descriptorIndex]
        selected := selection.selected ++ [declaration descriptors work.descriptorIndex] },
        by simp [processWork, hprocessed, hseen], rfl, by simp [h.processed, key], ?_,
        by simp [h.selected], rfl, rfl⟩
      rw [List.map_append, List.map_singleton, firsts_concat, ← h.selectedIndices, if_neg hseen]
  have hreports : Reports graph modules descriptors satisfied (askedBy done) begun := by
    refine ⟨?_, ?_, ?_⟩
    · rw [hdiagnostics]
      exact h.reports.reported
    · rw [hdiagnostics]
      exact h.reports.justified
    · rw [hcovered]
      exact h.reports.covered
  obtain ⟨after, hok, hqueues, hreports'⟩ := resolveDependencies_ok hscope
    (declaration descriptors work.descriptorIndex).dependencies begun hreports
  refine ⟨after, hbegun.trans hok, by rw [hqueues.queue, hqueue]; rfl,
    hqueues.processed.trans hprocessed', hqueues.selectedIndices.trans hindices, ?_, ?_⟩
  · rw [hqueues.selected, hselected, hqueues.selectedIndices]
  · simpa [askedBy] using hreports'

/-- One round of the loop is one step of the library's work list. -/
theorem processNext_ok {done : List (WorkItem descriptors.length)}
    {selection : Selection descriptors.length} {work : WorkItem descriptors.length}
    (rest : List (WorkItem descriptors.length)) (hwork : InScope graph work)
    (h : Follows graph modules descriptors satisfied done selection) :
    ∃ after, processWork graph modules descriptors satisfied { selection with queue := rest } work =
        .ok after ∧
      after.queue = (Worklist.step key (next graph modules descriptors satisfied)
        ⟨work :: rest, done⟩).queue ∧
      Follows graph modules descriptors satisfied (Worklist.step key
        (next graph modules descriptors satisfied) ⟨work :: rest, done⟩).done after := by
  have hpopped : Follows graph modules descriptors satisfied done
      { selection with queue := rest } :=
    ⟨h.processed, h.selectedIndices, h.selected,
      ⟨h.reports.reported, h.reports.justified, h.reports.covered⟩⟩
  by_cases hnew : key work ∈ done.map key
  · have hseen : (work.descriptorIndex, work.context) ∈ selection.processed := by
      rw [h.processed]
      exact hnew
    refine ⟨{ selection with queue := rest }, by simp [processWork, hseen], ?_⟩
    simp only [Worklist.step, if_pos hnew]
    exact ⟨trivial, hpopped⟩
  · obtain ⟨after, hok, hqueue', hfollows⟩ := processWork_ok hwork hpopped hnew
    refine ⟨after, hok, ?_⟩
    simp only [Worklist.step, if_neg hnew]
    exact ⟨hqueue', hfollows⟩

variable (graph modules descriptors satisfied) in
/-- The states that the loop of a selection passes through. -/
inductive Passes : Selection descriptors.length → Prop
  | start : Passes { queue := seeds graph modules descriptors satisfied }
  | round {selection after work rest} (before : Passes selection)
      (queue_eq : selection.queue = work :: rest)
      (ok : processWork graph modules descriptors satisfied { selection with queue := rest } work =
        .ok after) : Passes after

/-- The loop runs the work list of the library. -/
theorem selectLoop_ok {seeds : List (WorkItem descriptors.length)}
    (hscope : ∀ w, Worklist.Reached (next graph modules descriptors satisfied) seeds w →
      InScope graph w) (fuel : ℕ) {done result : List (WorkItem descriptors.length)}
    {selection : Selection descriptors.length}
    (hinv : Worklist.Invariant key (next graph modules descriptors satisfied) seeds
      ⟨selection.queue, done⟩)
    (h : Follows graph modules descriptors satisfied done selection)
    (hrun : Worklist.run key (next graph modules descriptors satisfied) fuel
      ⟨selection.queue, done⟩ = some result)
    (hpasses : Passes graph modules descriptors satisfied selection) :
    ∃ after, selectLoop graph modules descriptors satisfied fuel selection = .ok after ∧
      Follows graph modules descriptors satisfied result after ∧
      Passes graph modules descriptors satisfied after ∧ after.queue = [] := by
  induction fuel generalizing done selection with
  | zero => simp [Worklist.run] at hrun
  | succ fuel ih =>
    rw [selectLoop]
    rw [Worklist.run] at hrun
    cases hqueue : selection.queue with
    | nil =>
      obtain rfl : done = result := by simpa [hqueue] using hrun
      exact ⟨selection, rfl, h, hpasses, hqueue⟩
    | cons work rest =>
      obtain ⟨after, hok, hqueue', hfollows⟩ := processNext_ok rest
        (hscope work (hinv.queued work (by simp [hqueue]))) h
      have hstep := hinv.step
      rw [hqueue] at hstep
      simp only [hqueue] at hrun
      dsimp only
      rw [hok, Run.ok_bind]
      refine ih ?_ hfollows ?_ (.round hpasses hqueue hok)
      · rw [hqueue']
        exact hstep
      · rw [hqueue']
        exact hrun

/-! ### The whole selection -/

theorem reached_inScope {w : WorkItem descriptors.length}
    (h : Worklist.Reached (next graph modules descriptors satisfied)
      (seeds graph modules descriptors satisfied) w) : InScope graph w := by
  induction h with
  | seed hw => exact inScope_of_seed hw
  | next _ hw ih => exact inScope_of_next ih hw

/-- The keys a selection can meet: every declaration on behalf of every reachable module. -/
def keys (graph : ModuleGraph) (n : ℕ) : List (Fin n × Option TypeId) :=
  (List.finRange n).flatMap (fun i => graph.modules.map (fun m => (i, some m.typeId)))

theorem length_keys (graph : ModuleGraph) (n : ℕ) :
    (keys graph n).length = n * graph.modules.length := by
  simp [keys, List.length_flatMap]

theorem key_mem_keys {n : ℕ} {w : WorkItem n} (h : InScope graph w) : key w ∈ keys graph n := by
  obtain ⟨context, hcontext, hreach⟩ := h
  obtain ⟨node, hnode, rfl⟩ := ModuleGraph.isReachable_iff.mp hreach
  refine List.mem_flatMap.mpr ⟨w.descriptorIndex, List.mem_finRange _, ?_⟩
  exact List.mem_map.mpr ⟨node, hnode, by simp [key, hcontext]⟩

theorem length_next_le (w : WorkItem descriptors.length) :
    (next graph modules descriptors satisfied w).length ≤
      (descriptors.map (·.dependencies.length)).sum * descriptors.length := by
  have hone : ∀ dependency,
      (admissible graph modules descriptors w dependency).length ≤ descriptors.length := by
    intro dependency
    refine (List.length_filterMap_le _ _).trans ?_
    rw [candidates, List.length_map]
    simpa using List.length_filter_le _ (List.finRange descriptors.length)
  have hlist : ∀ dependencies : List DependencyDescriptor,
      (dependencies.flatMap (admissible graph modules descriptors w)).length ≤
        dependencies.length * descriptors.length := by
    intro dependencies
    induction dependencies with
    | nil => simp
    | cons dependency dependencies ih =>
      have := hone dependency
      simp only [List.flatMap_cons, List.length_append, List.length_cons, Nat.add_mul, Nat.one_mul]
      omega
  refine (hlist _).trans (Nat.mul_le_mul_right _ ((List.length_filter_le _ _).trans ?_))
  exact List.single_le_sum (by simp) _ (List.mem_map.mpr
    ⟨_, List.getElem_mem w.descriptorIndex.2, rfl⟩)

theorem next_keys {v w : WorkItem descriptors.length} (hv : InScope graph v)
    (hkey : key v = key w) :
    ∀ u ∈ next graph modules descriptors satisfied v,
      ∃ u' ∈ next graph modules descriptors satisfied w, key u' = key u := by
  obtain ⟨context, hcontext, -⟩ := hv
  obtain ⟨hindex, hcontexts⟩ := Prod.mk.inj hkey
  intro u hu
  obtain ⟨dependency, hdep, hadmissible⟩ := List.mem_flatMap.mp hu
  obtain ⟨i, htype, hadmits, rfl⟩ := (admissible_iff hcontext).mp hadmissible
  refine ⟨_, List.mem_flatMap.mpr ⟨dependency, hindex ▸ hdep,
    (admissible_iff (hcontexts ▸ hcontext)).mpr ⟨i, htype, hadmits, rfl⟩⟩, rfl⟩

theorem follows_start : Follows graph modules descriptors satisfied []
    { queue := seeds graph modules descriptors satisfied } :=
  ⟨rfl, rfl, rfl, ⟨by simp [askedBy], by simp, by simp⟩⟩

/-- The selection ends, and never panics. -/
theorem select_ok (graph : ModuleGraph) (modules : List ModuleDescriptor)
    (descriptors : List ProviderDescriptor) (satisfied : List SatisfiedProvider) :
    ∃ done selection,
      Worklist.run key (next graph modules descriptors satisfied)
        (fuel graph modules descriptors satisfied) ⟨seeds graph modules descriptors satisfied, []⟩ =
          some done ∧
      Worklist.Invariant key (next graph modules descriptors satisfied)
        (seeds graph modules descriptors satisfied) ⟨[], done⟩ ∧
      selectLoop graph modules descriptors satisfied (fuel graph modules descriptors satisfied)
        { queue := seeds graph modules descriptors satisfied } = .ok selection ∧
      Follows graph modules descriptors satisfied done selection ∧
      Passes graph modules descriptors satisfied selection ∧ selection.queue = [] := by
  have hstart := Worklist.Invariant.start key (next graph modules descriptors satisfied)
    (seeds graph modules descriptors satisfied)
  obtain ⟨done, hrun, hinv⟩ := Worklist.run_ok
    (fun w hw => key_mem_keys (reached_inScope hw)) (fun w _ => length_next_le w)
    (fuel graph modules descriptors satisfied) _ hstart
    (by simp [Worklist.work, fuel, length_keys])
  obtain ⟨selection, hok, hend⟩ := selectLoop_ok (fun w hw => reached_inScope hw)
    (fuel graph modules descriptors satisfied) hstart follows_start hrun .start
  exact ⟨done, selection, hrun, hinv, hok, hend⟩

/-- Every state of the loop is one of the library's work list. -/
theorem Passes.follows {selection : Selection descriptors.length}
    (h : Passes graph modules descriptors satisfied selection) :
    ∃ done, Worklist.Invariant key (next graph modules descriptors satisfied)
        (seeds graph modules descriptors satisfied) ⟨selection.queue, done⟩ ∧
      Follows graph modules descriptors satisfied done selection := by
  induction h with
  | start => exact ⟨[], .start _ _ _, follows_start⟩
  | @round selection after work rest _ hqueue hok ih =>
    obtain ⟨done, hinv, hfollows⟩ := ih
    obtain ⟨after', hok', hqueue', hfollows'⟩ := processNext_ok rest
      (reached_inScope (hinv.queued work (by simp [hqueue]))) hfollows
    obtain rfl : after' = after := Except.ok.inj (hok'.symm.trans hok)
    have hstep := hinv.step
    rw [hqueue] at hstep
    refine ⟨_, ?_, hfollows'⟩
    rw [hqueue']
    exact hstep

/-- All work in the queue is on behalf of a reachable module. -/
theorem Passes.inScope {selection : Selection descriptors.length}
    (h : Passes graph modules descriptors satisfied selection)
    {work : WorkItem descriptors.length} (hwork : work ∈ selection.queue) : InScope graph work := by
  obtain ⟨done, hinv, -⟩ := h.follows
  exact reached_inScope (hinv.queued work hwork)

variable (graph modules descriptors satisfied) in
/-- The declaration at a position is reached on behalf of a module: it is a declaration that a
reachable module owns, or one that may be used for a dependency of a declaration reached before.
An owned declaration acts for its owner, an unowned one for the module it was reached from. -/
inductive ReachedFor : Fin descriptors.length → TypeId → Prop
  | owned {i owner} (unsatisfied : isSatisfied satisfied (declaration descriptors i).typeId = false)
      (owner_eq : ownerOf (declaration descriptors i).namespace_ modules = some owner)
      (reachable : graph.isReachable owner.typeId) : ReachedFor i owner.typeId
  | dependency {i j context dependency} (from_ : ReachedFor i context)
      (declared : dependency ∈ (declaration descriptors i).dependencies)
      (unsatisfied : isSatisfied satisfied dependency.typeId = false)
      (type_eq : (declaration descriptors j).typeId = dependency.typeId)
      (admits : Admits graph modules context (declaration descriptors j)) :
      ReachedFor j (contextOf modules context (declaration descriptors j))

theorem mem_seeds {w : WorkItem descriptors.length} :
    w ∈ seeds graph modules descriptors satisfied ↔ ∃ i owner,
      isSatisfied satisfied (declaration descriptors i).typeId = false ∧
      ownerOf (declaration descriptors i).namespace_ modules = some owner ∧
      graph.isReachable owner.typeId ∧
      w = ⟨i, some owner.typeId, [(declaration descriptors i).typeName]⟩ := by
  simp only [seeds, List.mem_filterMap, List.mem_finRange, true_and]
  refine exists_congr fun i => ?_
  cases hsatisfied : isSatisfied satisfied (declaration descriptors i).typeId with
  | true => simp
  | false =>
    cases howner : ownerOf (declaration descriptors i).namespace_ modules with
    | none => simp
    | some owner =>
      cases hreach : graph.isReachable owner.typeId with
      | false => simp [hreach]
      | true => simpa [hreach] using ⟨Eq.symm, Eq.symm⟩

/-- The work list reaches a declaration for a module exactly where the module rules do. -/
theorem reachedFor_iff {i : Fin descriptors.length} {context : TypeId} :
    ReachedFor graph modules descriptors satisfied i context ↔
      ∃ w, Worklist.Reached (next graph modules descriptors satisfied)
        (seeds graph modules descriptors satisfied) w ∧ key w = (i, some context) := by
  constructor
  · intro h
    induction h with
    | owned hunsatisfied howner hreach =>
      exact ⟨_, .seed (mem_seeds.mpr ⟨_, _, hunsatisfied, howner, hreach, rfl⟩), rfl⟩
    | @dependency i j context dependency _ hdeclared hunsatisfied htype hadmits ih =>
      obtain ⟨w, hw, hkey⟩ := ih
      obtain ⟨rfl, hcontext⟩ := Prod.mk.inj hkey
      refine ⟨_, .next hw (List.mem_flatMap.mpr ⟨dependency, List.mem_filter.mpr
        ⟨hdeclared, by simp [hunsatisfied]⟩, (admissible_iff hcontext).mpr
          ⟨j, htype, hadmits, rfl⟩⟩), rfl⟩
  · rintro ⟨w, hw, hkey⟩
    induction hw generalizing i context with
    | seed hw =>
      obtain ⟨j, owner, hunsatisfied, howner, hreach, rfl⟩ := mem_seeds.mp hw
      obtain ⟨rfl, hcontext⟩ := Prod.mk.inj hkey
      obtain rfl := Option.some.inj hcontext
      exact .owned hunsatisfied howner hreach
    | @next v w hv hw ih =>
      obtain ⟨from_, hfrom, -⟩ := reached_inScope hv
      have hreached : ReachedFor graph modules descriptors satisfied v.descriptorIndex from_ :=
        ih (by simp [key, hfrom])
      obtain ⟨dependency, hdep, hadmissible⟩ := List.mem_flatMap.mp hw
      obtain ⟨hdeclared, hunsatisfied⟩ := List.mem_filter.mp hdep
      obtain ⟨j, htype, hadmits, rfl⟩ := (admissible_iff hfrom).mp hadmissible
      obtain ⟨rfl, hcontext⟩ := Prod.mk.inj hkey
      obtain rfl := Option.some.inj hcontext
      exact .dependency hreached hdeclared (by simpa using hunsatisfied) htype hadmits

theorem ReachedFor.reachable {i : Fin descriptors.length} {context : TypeId}
    (h : ReachedFor graph modules descriptors satisfied i context) : graph.isReachable context := by
  obtain ⟨w, hw, hkey⟩ := reachedFor_iff.mp h
  obtain ⟨c, hc, hreach⟩ := reached_inScope hw
  obtain rfl : c = context := Option.some.inj (hc.symm.trans (Prod.mk.inj hkey).2)
  exact hreach

variable (graph modules descriptors satisfied) in
/-- What the selection of a rooted application guarantees. -/
structure Selects (catalog : ScopedProviderCatalog) : Prop where
  descriptors_eq : ∃ indices : List (Fin descriptors.length), indices.Nodup ∧
    (∀ i, i ∈ indices ↔ ∃ context, ReachedFor graph modules descriptors satisfied i context) ∧
    catalog.descriptors = indices.map (declaration descriptors)
  ownership_eq : catalog.ownership = ownership modules satisfied catalog.descriptors
  reported : ∀ i context, ReachedFor graph modules descriptors satisfied i context →
    ∀ dependency ∈ (declaration descriptors i).dependencies,
      isSatisfied satisfied dependency.typeId = false →
      (∀ j, (declaration descriptors j).typeId = dependency.typeId →
        ¬ Admits graph modules context (declaration descriptors j)) →
      ∀ j, (declaration descriptors j).typeId = dependency.typeId →
        ∃ g ∈ catalog.diagnostics, g.code = MADS009 ∧
          g.subject = some (declaration descriptors j).typeName
  justified : ∀ g ∈ catalog.diagnostics, g.code = MADS009 ∧ ∃ i context dependency,
    ReachedFor graph modules descriptors satisfied i context ∧
    dependency ∈ (declaration descriptors i).dependencies ∧
    isSatisfied satisfied dependency.typeId = false ∧
    (∃ j, (declaration descriptors j).typeId = dependency.typeId) ∧
    ∀ j, (declaration descriptors j).typeId = dependency.typeId →
      ¬ Admits graph modules context (declaration descriptors j)
  covered : catalog.coveredMissing ≠ [] → catalog.diagnostics ≠ []

theorem blocked_iff {work : WorkItem descriptors.length} {context : TypeId}
    (h : work.context = some context) {dependency : DependencyDescriptor} :
    Blocked graph modules descriptors satisfied work dependency ↔
      isSatisfied satisfied dependency.typeId = false ∧
      (∃ j, (declaration descriptors j).typeId = dependency.typeId) ∧
      ∀ j, (declaration descriptors j).typeId = dependency.typeId →
        ¬ Admits graph modules context (declaration descriptors j) := by
  have hadmissible : admissible graph modules descriptors work dependency = [] ↔
      ∀ j, (declaration descriptors j).typeId = dependency.typeId →
        ¬ Admits graph modules context (declaration descriptors j) := by
    rw [List.eq_nil_iff_forall_not_mem]
    constructor
    · intro hnone j htype hadmits
      exact hnone _ ((admissible_iff h).mpr ⟨j, htype, hadmits, rfl⟩)
    · rintro hnone item hitem
      obtain ⟨j, htype, hadmits, -⟩ := (admissible_iff h).mp hitem
      exact hnone j htype hadmits
  rw [Blocked, hadmissible]
  refine and_congr_right fun _ =>
    ⟨fun ⟨hnone, hne⟩ => ⟨?_, hnone⟩, fun ⟨⟨j, htype⟩, hnone⟩ => ⟨hnone, ?_⟩⟩
  · obtain ⟨failure, hfailure⟩ := List.exists_mem_of_ne_nil _ hne
    obtain ⟨j, htype, -⟩ := mem_failures.mp hfailure
    exact ⟨j, htype⟩
  · obtain ⟨hadmits, -⟩ | ⟨-, owner, -, hclassify⟩ :=
      classify_spec graph modules h j
    · exact absurd hadmits (hnone j htype)
    · exact List.ne_nil_of_mem (mem_failures.mpr ⟨j, htype, hclassify⟩)

theorem subject_of_boundaryError {failure : BoundaryFailure} {g : Diagnostic}
    (h : boundaryError graph failure = .ok g) : g.subject = some failure.dependency.typeName := by
  obtain ⟨_, -, h⟩ := Run.bind_eq_ok.mp h
  obtain rfl : _ = g := by simpa using h
  rfl

/-- The keys of the processed items are the reached declarations with their modules. -/
theorem mem_processed_iff {done : List (WorkItem descriptors.length)}
    (hinv : Worklist.Invariant key (next graph modules descriptors satisfied)
      (seeds graph modules descriptors satisfied) ⟨[], done⟩) {i : Fin descriptors.length}
    {context : TypeId} : (i, some context) ∈ done.map key ↔
      ReachedFor graph modules descriptors satisfied i context := by
  rw [reachedFor_iff]
  constructor
  · intro h
    obtain ⟨w, hw, hkey⟩ := List.mem_map.mp h
    exact ⟨w, hinv.processed w hw, hkey⟩
  · rintro ⟨w, hw, hkey⟩
    rw [← hkey]
    exact hinv.complete (fun v u hv _ huv => next_keys (reached_inScope hv) huv) hw

theorem mem_askedBy {done : List (WorkItem descriptors.length)}
    {w : WorkItem descriptors.length} {dependency : DependencyDescriptor} :
    (w, dependency) ∈ askedBy done ↔
      w ∈ done ∧ dependency ∈ (declaration descriptors w.descriptorIndex).dependencies := by
  simp only [askedBy, List.mem_flatMap, List.mem_map, Prod.mk.injEq]
  constructor
  · rintro ⟨_, hw, _, hdep, rfl, rfl⟩
    exact ⟨hw, hdep⟩
  · rintro ⟨hw, hdep⟩
    exact ⟨w, hw, dependency, hdep, rfl, rfl⟩

/-- A finished selection means what the module rules say. -/
theorem Follows.selects {done : List (WorkItem descriptors.length)}
    {selection : Selection descriptors.length}
    (h : Follows graph modules descriptors satisfied done selection)
    (hinv : Worklist.Invariant key (next graph modules descriptors satisfied)
      (seeds graph modules descriptors satisfied) ⟨[], done⟩) :
    Selects graph modules descriptors satisfied
      { descriptors := selection.selected
        ownership := ownership modules satisfied selection.selected
        diagnostics := selection.diagnostics
        coveredMissing := selection.coveredMissing } := by
  -- every item that was processed has a context, from which its declaration is reached
  have hcontext : ∀ w ∈ done, ∃ context, w.context = some context ∧
      ReachedFor graph modules descriptors satisfied w.descriptorIndex context := by
    intro w hw
    obtain ⟨context, hc, -⟩ := reached_inScope (hinv.processed w hw)
    refine ⟨context, hc, (mem_processed_iff hinv).mp (List.mem_map.mpr ⟨w, hw, ?_⟩)⟩
    simp [key, hc]
  refine ⟨⟨selection.selectedIndices, ?_, fun i => ?_, h.selected⟩, rfl, ?_, ?_, ?_⟩
  · rw [h.selectedIndices]
    exact firsts_nodup _
  · rw [h.selectedIndices, mem_firsts, List.mem_map]
    constructor
    · rintro ⟨w, hw, rfl⟩
      obtain ⟨context, -, hreached⟩ := hcontext w hw
      exact ⟨context, hreached⟩
    · rintro ⟨context, hreached⟩
      obtain ⟨w, hw, hkey⟩ := List.mem_map.mp ((mem_processed_iff hinv).mpr hreached)
      exact ⟨w, hw, (Prod.mk.inj hkey).1⟩
  · intro i context hreached dependency hdep hunsatisfied hnone j htype
    obtain ⟨w, hw, hkey⟩ := List.mem_map.mp ((mem_processed_iff hinv).mpr hreached)
    obtain ⟨rfl, hc⟩ := Prod.mk.inj hkey
    obtain ⟨hadmits, -⟩ | ⟨-, owner, -, hclassify⟩ :=
      classify_spec graph modules hc j
    · exact absurd hadmits (hnone j htype)
    · have hblocked := (blocked_iff hc).mpr ⟨hunsatisfied, ⟨j, htype⟩, hnone⟩
      obtain ⟨g, hg, herror⟩ := h.reports.reported (w, dependency) (mem_askedBy.mpr ⟨hw, hdep⟩)
        hblocked _ (mem_failures.mpr ⟨j, htype, hclassify⟩)
      exact ⟨g, hg, (h.reports.justified g hg).1, subject_of_boundaryError herror⟩
  · intro g hg
    obtain ⟨hcode, ⟨w, dependency⟩, hasked, hblocked⟩ := h.reports.justified g hg
    obtain ⟨hw, hdep⟩ := mem_askedBy.mp hasked
    obtain ⟨context, hc, hreached⟩ := hcontext w hw
    obtain ⟨hunsatisfied, hsome, hnone⟩ := (blocked_iff hc).mp hblocked
    exact ⟨hcode, _, context, dependency, hreached, hdep, hunsatisfied, hsome, hnone⟩
  · intro hne
    obtain ⟨t, ht⟩ := List.exists_mem_of_ne_nil _ hne
    obtain ⟨e, he, -, hblocked⟩ := h.reports.covered t ht
    obtain ⟨failure, hfailure⟩ := List.exists_mem_of_ne_nil _ hblocked.2.2
    obtain ⟨g, hg, -⟩ := h.reports.reported e he hblocked failure hfailure
    exact List.ne_nil_of_mem hg

end Steps

end Scope

/-- What holds while a selection runs, and at its end. The context of all queued work is a reachable
module, so that the branches for work without one are never taken. -/
structure Scope.Bounded (graph : ModuleGraph) (modules : List ModuleDescriptor)
    (descriptors : List ProviderDescriptor) (satisfied : List SatisfiedProvider)
    (catalog : ScopedProviderCatalog) : Prop where
  in_scope : ∀ selection, Passes graph modules descriptors satisfied selection →
    ∀ work ∈ selection.queue, ∃ context, work.context = some context ∧ graph.isReachable context
  named : ∀ selection, Passes graph modules descriptors satisfied selection →
    ∀ work ∈ selection.queue, ∀ dependency,
      ∀ failure ∈ failures graph modules descriptors work dependency,
        ∃ g, boundaryError graph failure = .ok g
  ended : ∃ selection, Passes graph modules descriptors satisfied selection ∧
    selection.queue = [] ∧ catalog.descriptors = selection.selected ∧
    (∀ i c, (i, c) ∈ selection.processed ↔
      ∃ context, c = some context ∧ ReachedFor graph modules descriptors satisfied i context)
  selects : Selects graph modules descriptors satisfied catalog

/-- The selection of a rooted application ends, never panics, and means what the module rules
say. -/
theorem selectScopedProviders_bounded (graph : ModuleGraph) (modules : List ModuleDescriptor)
    (descriptors : List ProviderDescriptor) (satisfied : List SatisfiedProvider) :
    ∃ catalog, selectScopedProviders graph modules descriptors satisfied = .ok catalog ∧
      Scope.Bounded graph modules descriptors satisfied catalog := by
  obtain ⟨done, selection, -, hinv, hok, hfollows, hpasses, hempty⟩ :=
    Scope.select_ok graph modules descriptors satisfied
  refine ⟨_, by simp only [selectScopedProviders, hok, Run.ok_bind]; rfl,
    fun _ hpasses _ => hpasses.inScope, ?_, ⟨selection, hpasses, hempty, rfl, ?_⟩,
    hfollows.selects hinv⟩
  · intro selection hpasses work hwork dependency failure hfailure
    obtain ⟨context, hcontext, hreach⟩ := hpasses.inScope hwork
    rw [← Scope.context_of_failure hcontext hfailure] at hreach
    obtain ⟨g, hg, -⟩ := Scope.boundaryError_ok hreach
    exact ⟨g, hg⟩
  · intro i c
    rw [hfollows.processed]
    constructor
    · intro h
      obtain ⟨w, hw, hkey⟩ := List.mem_map.mp h
      obtain ⟨rfl, rfl⟩ := Prod.mk.inj hkey
      obtain ⟨context, hcontext, -⟩ := Scope.reached_inScope (hinv.processed w hw)
      rw [hcontext] at h
      exact ⟨context, hcontext, (Scope.mem_processed_iff hinv).mp h⟩
    · rintro ⟨context, rfl, hreached⟩
      exact (Scope.mem_processed_iff hinv).mpr hreached

end Mads
