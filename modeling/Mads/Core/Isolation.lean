import Mads.Core.Boundaries

/-!
# Declarations outside the scope of a root

A declaration that an unreachable module owns takes part in nothing: two catalogs that differ in such
a declaration give the same selections and the same analysis.
-/

namespace Mads

namespace Scope

variable {graph : ModuleGraph} {modules : List ModuleDescriptor}
  {front back : List ProviderDescriptor} {d : ProviderDescriptor}
  {satisfied : List SatisfiedProvider}

/-! ### Positions -/

/-- The position of a declaration after another was put in before `back`. -/
def lift (d : ProviderDescriptor) (i : Fin (front ++ back).length) :
    Fin (front ++ d :: back).length :=
  if h : i.1 < front.length then ⟨i.1, by simp only [List.length_append]; omega⟩
  else ⟨i.1 + 1, by have := i.2; simp only [List.length_append, List.length_cons] at this ⊢; omega⟩

/-- The position of the new declaration. -/
def added (front back : List ProviderDescriptor) (d : ProviderDescriptor) :
    Fin (front ++ d :: back).length :=
  ⟨front.length, by simp⟩

theorem declaration_added : declaration (front ++ d :: back) (added front back d) = d := by
  simp [declaration, added]

theorem declaration_lift (i : Fin (front ++ back).length) :
    declaration (front ++ d :: back) (lift d i) = declaration (front ++ back) i := by
  obtain ⟨i, hi⟩ := i
  by_cases h : i < front.length
  · simp [lift, declaration, h, List.getElem_append_left]
  · have hle : front.length ≤ i := by omega
    have hsucc : i + 1 - front.length = i - front.length + 1 := by omega
    simp [lift, declaration, h, List.getElem_append_right, hle, Nat.le_succ_of_le, hsucc]

theorem lift_injective : Function.Injective (lift d : Fin (front ++ back).length → _) := by
  intro i j hij
  apply Fin.ext
  unfold lift at hij
  split at hij <;> split at hij <;> simp only [Fin.mk.injEq] at hij <;> omega

theorem finRange_inserted (front back : List ProviderDescriptor) (d : ProviderDescriptor) :
    Inserted (added front back d) ((List.finRange (front ++ back).length).map (lift d))
      (List.finRange (front ++ d :: back).length) := by
  let positions := (List.finRange (front ++ back).length).map (lift d)
  have htake : (positions.take front.length).length = front.length := by simp [positions]
  have hsplit : List.finRange (front ++ d :: back).length =
      positions.take front.length ++ added front back d :: positions.drop front.length := by
    apply List.ext_getElem
    · simp [positions]
    · intro k hk hk'
      apply Fin.ext
      by_cases hlt : k < front.length
      · rw [List.getElem_append_left (by omega)]
        simp [positions, lift, hlt]
      · rw [List.getElem_append_right (by omega)]
        by_cases heq : k = front.length
        · simp [heq, htake, added]
        · -- behind the new declaration every position moves by one
          have hsub : k - (positions.take front.length).length = k - 1 - front.length + 1 := by
            omega
          have hadd : front.length + (k - 1 - front.length) = k - 1 := by omega
          have hnot : ¬ k - 1 < front.length := by omega
          simp only [hsub, List.getElem_cons_succ, List.getElem_drop, hadd]
          simp [positions, lift, hnot]
          omega
  have happend := Inserted.append (added front back d) (positions.take front.length)
    (positions.drop front.length)
  rw [List.take_append_drop] at happend
  rw [hsplit]
  exact happend

theorem eq_added_or_lift (j : Fin (front ++ d :: back).length) :
    j = added front back d ∨ ∃ i : Fin (front ++ back).length, lift d i = j := by
  obtain h | h := (finRange_inserted front back d).mem_iff.mp (List.mem_finRange j)
  · exact .inl h
  · obtain ⟨i, -, hi⟩ := List.mem_map.mp h
    exact .inr ⟨i, hi⟩

/-! ### Selections -/

/-- A module owns the declaration, and the root does not reach that module. -/
def Outside (graph : ModuleGraph) (modules : List ModuleDescriptor) (namespace_ : Option String) :
    Prop :=
  ∃ owner, ownerOf namespace_ modules = some owner ∧ graph.isReachable owner.typeId = false

/-- A module owns the declaration, and the root reaches that module. -/
def Inside (graph : ModuleGraph) (modules : List ModuleDescriptor) (namespace_ : Option String) :
    Prop :=
  ∃ owner, ownerOf namespace_ modules = some owner ∧ graph.isReachable owner.typeId

theorem Outside.not_admits (h : Outside graph modules d.namespace_) {context : TypeId}
    (hcontext : graph.isReachable context) : ¬ Admits graph modules context d := by
  obtain ⟨owner, howner, hunreachable⟩ := h
  intro hadmits
  have hreachable : graph.isReachable owner.typeId := by
    obtain hself | ⟨-, himports⟩ := hadmits owner howner
    · rw [hself]
      exact hcontext
    · exact ModuleGraph.isReachable_of_directlyImports himports
  simp [hreachable] at hunreachable

def liftItem (d : ProviderDescriptor) (work : WorkItem (front ++ back).length) :
    WorkItem (front ++ d :: back).length :=
  ⟨lift d work.descriptorIndex, work.context, work.dependencyPath⟩

theorem key_liftItem (v w : WorkItem (front ++ back).length) :
    key (liftItem d v) = key (liftItem d w) ↔ key v = key w := by
  simp [key, liftItem, lift_injective.eq_iff]

theorem seeds_lift (hout : Outside graph modules d.namespace_) :
    seeds graph modules (front ++ d :: back) satisfied =
      (seeds graph modules (front ++ back) satisfied).map (liftItem d) := by
  obtain ⟨owner, howner, hunreachable⟩ := hout
  unfold seeds
  rw [(finRange_inserted front back d).filterMap_eq
      (by simp [declaration_added, howner, hunreachable]), List.filterMap_map, List.map_filterMap]
  refine List.filterMap_congr fun i _ => ?_
  simp only [Function.comp_apply, declaration_lift]
  split
  · rfl
  · split <;> rfl

/-- The items a dependency queues, read off the positions of the catalog. -/
theorem admissible_eq (descriptors : List ProviderDescriptor) (work : WorkItem descriptors.length)
    (dependency : DependencyDescriptor) :
    admissible graph modules descriptors work dependency =
      (List.finRange descriptors.length).filterMap fun i =>
        if (declaration descriptors i).typeId = dependency.typeId then
          (classify graph modules descriptors work i).item?
        else none := by
  rw [admissible, candidates, List.filterMap_map, List.filterMap_filter]
  refine List.filterMap_congr fun i _ => ?_
  simp

theorem classify_lift (work : WorkItem (front ++ back).length) (i : Fin (front ++ back).length) :
    (classify graph modules (front ++ d :: back) (liftItem d work) (lift d i)).item? =
      (classify graph modules (front ++ back) work i).item?.map (liftItem d) := by
  unfold classify
  simp only [declaration_lift, liftItem]
  cases work.context <;>
    cases ownerOf (declaration (front ++ back) i).namespace_ modules <;>
    dsimp only <;> repeat' split
  all_goals rfl

theorem admissible_lift (hout : Outside graph modules d.namespace_)
    {work : WorkItem (front ++ back).length} (hscope : InScope graph work)
    (dependency : DependencyDescriptor) :
    admissible graph modules (front ++ d :: back) (liftItem d work) dependency =
      (admissible graph modules (front ++ back) work dependency).map (liftItem d) := by
  obtain ⟨context, hcontext, hreach⟩ := hscope
  -- the new declaration is behind a boundary
  have hadded : (classify graph modules (front ++ d :: back) (liftItem d work)
      (added front back d)).item? = none := by
    obtain ⟨hadmits, -⟩ | ⟨-, owner, -, hclassify⟩ := classify_spec graph modules
      (by exact hcontext : (liftItem d work).context = some context) (added front back d)
    · rw [declaration_added] at hadmits
      exact absurd hadmits (hout.not_admits hreach)
    · rw [hclassify]
      rfl
  rw [admissible_eq, admissible_eq, (finRange_inserted front back d).filterMap_eq
    (by simp [hadded]), List.filterMap_map, List.map_filterMap]
  refine List.filterMap_congr fun i _ => ?_
  simp only [Function.comp_apply, declaration_lift, classify_lift]
  split <;> rfl

theorem next_lift (hout : Outside graph modules d.namespace_)
    {work : WorkItem (front ++ back).length} (hscope : InScope graph work) :
    next graph modules (front ++ d :: back) satisfied (liftItem d work) =
      (next graph modules (front ++ back) satisfied work).map (liftItem d) := by
  unfold next
  rw [List.map_flatMap]
  show List.flatMap _ (List.filter _
    (declaration (front ++ d :: back) (lift d work.descriptorIndex)).dependencies) = _
  rw [declaration_lift]
  refine List.flatMap_congr fun dependency _ => ?_
  exact admissible_lift hout hscope dependency

/-- Everything reached in the larger catalog was reached before. -/
theorem ReachedFor.of_lift (hout : Outside graph modules d.namespace_)
    {j : Fin (front ++ d :: back).length} {context : TypeId}
    (h : ReachedFor graph modules (front ++ d :: back) satisfied j context) :
    ∃ i, lift d i = j ∧ ReachedFor graph modules (front ++ back) satisfied i context := by
  induction h with
  | @owned j owner hunsatisfied howner hreach =>
    obtain rfl | ⟨i, rfl⟩ := eq_added_or_lift j
    · obtain ⟨owner', howner', hunreachable⟩ := hout
      rw [declaration_added] at howner
      obtain rfl : owner = owner' := Option.some.inj (howner.symm.trans howner')
      simp [hreach] at hunreachable
    · rw [declaration_lift] at hunsatisfied howner
      exact ⟨i, rfl, .owned hunsatisfied howner hreach⟩
  | @dependency j k context dependency _ hdeclared hunsatisfied htype hadmits ih =>
    obtain ⟨i, rfl, hreached⟩ := ih
    rw [declaration_lift] at hdeclared
    obtain rfl | ⟨l, rfl⟩ := eq_added_or_lift k
    · rw [declaration_added] at hadmits
      exact absurd hadmits (hout.not_admits hreached.reachable)
    · rw [declaration_lift] at htype hadmits ⊢
      exact ⟨l, rfl, .dependency hreached hdeclared hunsatisfied htype hadmits⟩

/-- Both catalogs select the same declarations, in the same order. -/
theorem select_lift (hout : Outside graph modules d.namespace_) {catalog : ScopedProviderCatalog}
    (hok : selectScopedProviders graph modules (front ++ back) satisfied = .ok catalog) :
    ∃ more, selectScopedProviders graph modules (front ++ d :: back) satisfied = .ok more ∧
      more.descriptors = catalog.descriptors := by
  obtain ⟨done, selection, hrun, hinv, hselect, hfollows, -⟩ :=
    select_ok graph modules (front ++ back) satisfied
  obtain ⟨done', selection', hrun', -, hselect', hfollows', -⟩ :=
    select_ok graph modules (front ++ d :: back) satisfied
  have hmap := Worklist.run_map (liftItem d) key_liftItem
    (fun w hw => next_lift hout (reached_inScope hw))
    (fuel graph modules (front ++ d :: back) satisfied) _
    (Worklist.Invariant.start key (next graph modules (front ++ back) satisfied)
      (seeds graph modules (front ++ back) satisfied))
  rw [← seeds_lift hout, List.map_nil, hrun'] at hmap
  obtain ⟨done'', hrun'', hdone⟩ := Option.map_eq_some_iff.mp hmap.symm
  obtain rfl := Worklist.run_unique hrun hrun''
  have hindices : selection'.selectedIndices = selection.selectedIndices.map (lift d) := by
    rw [hfollows'.selectedIndices, hfollows.selectedIndices, ← hdone, List.map_map,
      ← firsts_map lift_injective, List.map_map]
    rfl
  have hselected : selection'.selected = selection.selected := by
    rw [hfollows'.selected, hindices, hfollows.selected, List.map_map]
    refine List.map_congr_left fun i _ => ?_
    exact declaration_lift i
  simp only [selectScopedProviders, hselect, Run.ok_bind] at hok
  obtain rfl := Except.ok.inj hok
  exact ⟨_, by simp only [selectScopedProviders, hselect', Run.ok_bind]; rfl, hselected⟩

/-- Where every dependency has an admissible declaration, a selection reports nothing. -/
theorem Selects.eq_of_resolved {descriptors : List ProviderDescriptor}
    {catalog : ScopedProviderCatalog} (h : Selects graph modules descriptors satisfied catalog)
    (hresolved : ∀ i context, ReachedFor graph modules descriptors satisfied i context →
      ∀ dependency ∈ (declaration descriptors i).dependencies,
        isSatisfied satisfied dependency.typeId = false →
          ∃ j, (declaration descriptors j).typeId = dependency.typeId ∧
            Admits graph modules context (declaration descriptors j)) :
    catalog = ⟨catalog.descriptors, ownership modules satisfied catalog.descriptors, [], []⟩ := by
  have hnil : catalog.diagnostics = [] := by
    apply List.eq_nil_iff_forall_not_mem.mpr
    intro g hg
    obtain ⟨-, i, context, dependency, hreached, hdependency, hunsatisfied, -, hnone⟩ :=
      h.justified g hg
    obtain ⟨j, htype, hadmits⟩ := hresolved i context hreached dependency hdependency hunsatisfied
    exact hnone j htype hadmits
  have hcovered : catalog.coveredMissing = [] := by
    by_contra hne
    exact h.covered hne hnil
  have hownership := h.ownership_eq
  cases catalog
  simp only at hnil hcovered hownership ⊢
  rw [hnil, hcovered, hownership]

/-- A selection that respects all boundaries is the same in the larger catalog. -/
theorem select_isolated (hout : Outside graph modules d.namespace_)
    {catalog : ScopedProviderCatalog}
    (hok : selectScopedProviders graph modules (front ++ back) satisfied = .ok catalog)
    (hallowed : Allowed graph modules (front ++ back) satisfied catalog) :
    selectScopedProviders graph modules (front ++ d :: back) satisfied = .ok catalog := by
  obtain ⟨catalog', hok', hbounded⟩ :=
    selectScopedProviders_bounded graph modules (front ++ back) satisfied
  obtain rfl : catalog' = catalog := Except.ok.inj (hok'.symm.trans hok)
  obtain ⟨more, hmore, hdescriptors⟩ := select_lift hout hok
  obtain ⟨more', hmore', hbounded'⟩ :=
    selectScopedProviders_bounded graph modules (front ++ d :: back) satisfied
  obtain rfl : more' = more := Except.ok.inj (hmore'.symm.trans hmore)
  have hresolved : ∀ i context, ReachedFor graph modules (front ++ back) satisfied i context →
      ∀ dependency ∈ (declaration (front ++ back) i).dependencies,
        isSatisfied satisfied dependency.typeId = false →
          ∃ j, (declaration (front ++ back) j).typeId = dependency.typeId ∧
            Admits graph modules context (declaration (front ++ back) j) := by
    intro i context hreached dependency hdependency hunsatisfied
    obtain hsatisfied | ⟨e, he, htype, -, hadmits⟩ :=
      hallowed i context hreached dependency hdependency
    · simp [hunsatisfied] at hsatisfied
    · obtain ⟨indices, -, -, heq⟩ := hbounded.selects.descriptors_eq
      rw [heq] at he
      obtain ⟨j, -, rfl⟩ := List.mem_map.mp he
      exact ⟨j, htype, hadmits⟩
  have hcatalog := hbounded.selects.eq_of_resolved hresolved
  have hmoreEq : more' =
      ⟨more'.descriptors, ownership modules satisfied more'.descriptors, [], []⟩ := by
    apply hbounded'.selects.eq_of_resolved
    intro j context hreached dependency hdependency hunsatisfied
    obtain ⟨i, rfl, hbefore⟩ := hreached.of_lift hout
    rw [declaration_lift] at hdependency
    obtain ⟨k, htype, hadmits⟩ := hresolved i context hbefore dependency hdependency hunsatisfied
    exact ⟨lift d k, by rw [declaration_lift]; exact htype, by rw [declaration_lift]; exact hadmits⟩
  rw [hmore, hmoreEq, hdescriptors, ← hcatalog]

end Scope

namespace MadsBuilder

variable {Config : Type}

/-- The same program with other providers linked into it. -/
def withProviders (environment : Environment Config) (providers : List ProviderDescriptor) :
    Environment Config :=
  { environment with inventory := { environment.inventory with providers } }

variable {environment : Environment Config} {builder : MadsBuilder Config}
  {moduleGraph : ModuleGraph} {d : ProviderDescriptor} {providers : List ProviderDescriptor}

/-- A valid rooted analysis does not change with a declaration from outside. -/
theorem analyzeRooted_isolated
    (hinserted : Inserted d environment.inventory.providers providers)
    (hout : Scope.Outside moduleGraph (Catalog.modules environment.inventory) d.namespace_)
    {result : BuilderAnalysis Config}
    (hok : analyzeRooted environment builder moduleGraph = .ok result)
    (hvalid : result.analysis.isValid) :
    analyzeRooted (withProviders environment providers) builder moduleGraph = .ok result := by
  obtain ⟨scope, result', hscope, hfollows, hok', -, -, -, hcases⟩ :=
    analyzeRooted_cases environment builder moduleGraph
  obtain rfl : result' = result := Except.ok.inj (hok'.symm.trans hok)
  obtain ⟨hnil, hnodup, -, -, plan, -, hplans, -⟩ := hcases hvalid
  have hallowed := hfollows.final.selects.allowed hnil hnodup hplans
  obtain ⟨hinitial, hconfigured, hsatisfied, hcatalog⟩ := selectRooted_eq_ok.mp hscope
  obtain ⟨front, back, hfront, hback⟩ := (sortBy_inserted descriptorOrder hinserted).split
  change Catalog.providers environment.inventory = _ at hfront
  change Catalog.providers (withProviders environment providers).inventory = _ at hback
  rw [hfront] at hinitial hcatalog hallowed
  obtain ⟨more, hmore, hdescriptors⟩ := Scope.select_lift hout hinitial
  have hscope' : selectRooted (withProviders environment providers) builder moduleGraph =
      .ok { scope with initialScope := more } := by
    refine selectRooted_eq_ok.mpr ⟨?_, ?_, hsatisfied, ?_⟩
    · rw [hback]
      exact hmore
    · show scope.autoConfiguration = autoConfigure environment builder more.descriptors _
      rw [hdescriptors]
      exact hconfigured
    · rw [hback]
      exact Scope.select_isolated hout hcatalog hallowed
  simp only [analyzeRooted, hscope, Run.ok_bind] at hok
  simp only [analyzeRooted, hscope', Run.ok_bind]
  exact hok

end MadsBuilder

end Mads
