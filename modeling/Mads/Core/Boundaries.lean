import Mads.Core.BuilderAnalysis

/-!
# Module boundaries of rooted analyses
-/

namespace Mads

variable {Config : Type}

namespace Scope

variable {graph : ModuleGraph} {modules : List ModuleDescriptor}
  {descriptors : List ProviderDescriptor} {satisfied : List SatisfiedProvider}
  {catalog : ScopedProviderCatalog}

variable (graph modules descriptors satisfied catalog) in
/-- Every dependency of a reached declaration is satisfied or has one selected declaration, and the
module it was reached for may use that declaration. -/
def Allowed : Prop :=
  ∀ i context, ReachedFor graph modules descriptors satisfied i context →
    ∀ dependency ∈ (declaration descriptors i).dependencies,
      isSatisfied satisfied dependency.typeId ∨
        ∃ d ∈ catalog.descriptors, d.typeId = dependency.typeId ∧
          (∀ e ∈ catalog.descriptors, e.typeId = dependency.typeId → e = d) ∧
          Admits graph modules context d

theorem ReachedFor.unsatisfied {i : Fin descriptors.length} {context : TypeId}
    (h : ReachedFor graph modules descriptors satisfied i context) :
    isSatisfied satisfied (declaration descriptors i).typeId = false := by
  cases h with
  | owned hunsatisfied => exact hunsatisfied
  | dependency _ _ hunsatisfied htype => rw [htype]; exact hunsatisfied

theorem isSatisfied_eq_false {t : TypeId} :
    isSatisfied satisfied t = false ↔ ∀ s ∈ satisfied, s.typeId ≠ t := by
  simp [isSatisfied]

theorem Selects.mem_descriptors_iff (h : Selects graph modules descriptors satisfied catalog)
    {d : ProviderDescriptor} : d ∈ catalog.descriptors ↔
      ∃ i context, ReachedFor graph modules descriptors satisfied i context ∧
        declaration descriptors i = d := by
  obtain ⟨indices, -, hindices, heq⟩ := h.descriptors_eq
  rw [heq, List.mem_map]
  constructor
  · rintro ⟨i, hi, hd⟩
    obtain ⟨context, hreached⟩ := (hindices i).mp hi
    exact ⟨i, context, hreached, hd⟩
  · rintro ⟨i, context, hreached, hd⟩
    exact ⟨i, (hindices i).mpr ⟨context, hreached⟩, hd⟩

theorem Selects.mem_descriptors (h : Selects graph modules descriptors satisfied catalog)
    {i : Fin descriptors.length} {context : TypeId}
    (hreached : ReachedFor graph modules descriptors satisfied i context) :
    declaration descriptors i ∈ catalog.descriptors :=
  h.mem_descriptors_iff.mpr ⟨i, context, hreached, rfl⟩

/-- A selection that reports nothing, and whose plan resolves everything, respects the
boundaries. -/
theorem Selects.allowed (h : Selects graph modules descriptors satisfied catalog)
    (hnil : catalog.diagnostics = []) (hnodup : (catalog.descriptors.map (·.typeId)).Nodup)
    {plan : ConstructionPlan} (hplans : Analysis.Plans catalog.descriptors satisfied [] plan) :
    Allowed graph modules descriptors satisfied catalog := by
  intro i context hreached dependency hdependency
  cases hsatisfied : isSatisfied satisfied dependency.typeId with
  | true => exact .inl rfl
  | false =>
    right
    -- the dependency of the planned declaration is an earlier step
    obtain ⟨step, hstep, hdeclaration⟩ := (hplans.steps (declaration descriptors i)).mpr
      ⟨h.mem_descriptors hreached, isSatisfied_eq_false.mp hreached.unsatisfied⟩
    obtain ⟨front, back, hsplit⟩ := List.append_of_mem hstep
    have hearlier : dependency.typeId ∈ front.map (·.typeId) := by
      obtain hfront | ⟨s, hs, htype⟩ | hcovered := hplans.resolved front step back hsplit
        dependency (hdeclaration ▸ hdependency)
      · exact hfront
      · exact absurd htype (isSatisfied_eq_false.mp hsatisfied s hs)
      · exact absurd hcovered List.not_mem_nil
    obtain ⟨earlier, hfront, htype⟩ := List.mem_map.mp hearlier
    have hmem : earlier ∈ plan.steps := by simp [hsplit, hfront]
    obtain ⟨hselected, -⟩ := (hplans.steps earlier.descriptor).mp ⟨earlier, hmem, rfl⟩
    rw [hplans.typeId earlier hmem] at htype
    have hunique : ∀ e ∈ catalog.descriptors, e.typeId = dependency.typeId →
        e = earlier.descriptor := fun e he hetype =>
      List.inj_on_of_nodup_map hnodup he hselected (hetype.trans htype.symm)
    refine ⟨earlier.descriptor, hselected, htype, hunique, ?_⟩
    -- some declaration of the type is admissible, or the selection would have reported it
    by_contra hnot
    obtain ⟨j, -, -, hj⟩ := h.mem_descriptors_iff.mp hselected
    obtain ⟨g, hg, -⟩ := h.reported i context hreached dependency hdependency hsatisfied
      (fun k hk hadmits => hnot (by
        have hreached' := ReachedFor.dependency hreached hdependency hsatisfied hk hadmits
        rw [← hunique _ (h.mem_descriptors hreached') hk]
        exact hadmits)) j (by rw [hj]; exact htype)
    simp [hnil] at hg

end Scope

namespace MadsBuilder

/-- A rooted analysis ends. Its selections keep all work inside the reachable modules and report
each dependency that is declared only behind boundaries; a valid one has no dependency that crosses
a boundary. -/
theorem analyzeBuilder_bounded (environment : Environment Config) (builder : MadsBuilder Config)
    (root : RustType) (moduleGraph : ModuleGraph) (hroot : builder.root = some root)
    (hgraph : buildModuleGraph root.typeId (Catalog.modules environment.inventory) =
      .ok moduleGraph) :
    ∃ scope result, selectRooted environment builder moduleGraph = .ok scope ∧
      analyzeBuilder environment builder = .ok result ∧
      Scope.Bounded moduleGraph (Catalog.modules environment.inventory)
        (Catalog.providers environment.inventory) builder.satisfied scope.initialScope ∧
      Scope.Bounded moduleGraph (Catalog.modules environment.inventory)
        (Catalog.providers environment.inventory) scope.satisfied scope.catalog ∧
      (∀ g ∈ scope.catalog.diagnostics, g ∈ result.analysis.diagnostics) ∧
      (result.analysis.isValid → Scope.Allowed moduleGraph (Catalog.modules environment.inventory)
        (Catalog.providers environment.inventory) scope.satisfied scope.catalog) := by
  obtain ⟨scope, result, hscope, hfollows, hok, -, -, hreported, hvalid⟩ :=
    analyzeRooted_cases environment builder moduleGraph
  refine ⟨scope, result, hscope, by simp only [analyzeBuilder, hroot, hgraph, hok],
    hfollows.initial, hfollows.final, hreported, fun hisValid => ?_⟩
  obtain ⟨hnil, hnodup, -, -, plan, -, hplans, -⟩ := hvalid hisValid
  exact hfollows.final.selects.allowed hnil hnodup hplans

/-- A module that no other module imports. -/
def sampleAdmin : ModuleDescriptor where
  typeName := "Admin"
  typeId := ⟨12⟩
  namespace_ := some "admin"
  location := ⟨"admin.rs", 1, 1⟩

/-- The root has a private service, and may use the public one of the module it imports. It does not
reach the third module. -/
def sampleModules : List ModuleDescriptor := [
  { typeName := "App", typeId := ⟨10⟩, namespace_ := some "app"
    imports := [⟨"Users", ⟨11⟩⟩], location := ⟨"app.rs", 1, 1⟩ },
  { typeName := "Users", typeId := ⟨11⟩, namespace_ := some "app::users"
    location := ⟨"users.rs", 1, 1⟩ },
  sampleAdmin]

def sampleProviders : List ProviderDescriptor := [
  { kind := .service, typeName := "AppService", typeId := ⟨1⟩, namespace_ := some "app"
    dependencies := [⟨"UserService", ⟨2⟩⟩], visibility := .private_
    location := ⟨"app.rs", 5, 1⟩ },
  { kind := .service, typeName := "UserService", typeId := ⟨2⟩, namespace_ := some "app::users"
    dependencies := [], visibility := .public_, location := ⟨"users.rs", 5, 1⟩ }]

def sampleRooted : Environment Unit where
  inventory := { providers := sampleProviders, modules := sampleModules }
  autoConfigurations := []
  construct := fun address _ _ => .ok ⟨⟨0⟩, address⟩
  apply := fun address _ => .ok ⟨⟨0⟩, address⟩

def sampleBuilder : MadsBuilder Unit :=
  { new () ⟨⟨0⟩, "Config"⟩ ⟨⟨0⟩, 0⟩ with root := some ⟨⟨10⟩, "App"⟩ }

def sampleGraph : ModuleGraph where
  root := 0
  modules := [⟨⟨10⟩, "App", "app", ⟨"app.rs", 1, 1⟩⟩,
    ⟨⟨11⟩, "Users", "app::users", ⟨"users.rs", 1, 1⟩⟩]
  imports := [⟨0, 1⟩]
  root_lt := by decide
  imports_lt := by decide

theorem analyzeBuilder_bounded_sample :
    ∃ scope result, selectRooted sampleRooted sampleBuilder sampleGraph = .ok scope ∧
      analyzeBuilder sampleRooted sampleBuilder = .ok result ∧ result.analysis.isValid ∧
      Scope.Allowed sampleGraph (Catalog.modules sampleRooted.inventory)
        (Catalog.providers sampleRooted.inventory) scope.satisfied scope.catalog := by
  obtain ⟨scope, result, hscope, hok, -, -, -, hallowed⟩ := analyzeBuilder_bounded sampleRooted
    sampleBuilder ⟨⟨10⟩, "App"⟩ sampleGraph rfl (by decide +kernel)
  have hvalid : (analyzeBuilder sampleRooted sampleBuilder).map
      (fun result => result.analysis.isValid) = .ok true := by decide +kernel
  rw [hok] at hvalid
  have hisValid : result.analysis.isValid = true := Except.ok.inj hvalid
  exact ⟨scope, result, hscope, hok, hisValid, hallowed hisValid⟩

end MadsBuilder

end Mads
