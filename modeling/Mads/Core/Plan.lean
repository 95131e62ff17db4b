import Mathlib.Data.List.FinRange
import Mads.Core.Graph
import Mads.Library.Frontier

/-!
# Construction planning
-/

namespace Mads

/-! ### The order of ready providers -/

/-- A provider with nothing left to wait for. The fields are compared in the order they stand. -/
structure ReadyNode where
  typeName : String
  origin : ProviderOrigin
  file : String
  line : ℕ
  column : ℕ
  index : ℕ
  deriving DecidableEq, Repr

namespace ReadyNode

def fields (node : ReadyNode) : String ×ₗ ℕ ×ₗ String ×ₗ ℕ ×ₗ ℕ ×ₗ ℕ :=
  toLex (node.typeName, toLex (node.origin.discriminant, toLex (node.file,
    toLex (node.line, toLex (node.column, node.index)))))

theorem discriminant_injective : Function.Injective ProviderOrigin.discriminant := by
  intro left right h
  cases left <;> cases right <;> first | rfl | simp [ProviderOrigin.discriminant] at h

theorem fields_injective : Function.Injective fields := by
  intro left right h
  obtain ⟨_, _, _, _, _, _⟩ := left
  obtain ⟨_, _, _, _, _, _⟩ := right
  simp only [fields, EmbeddingLike.apply_eq_iff_eq, Prod.mk.injEq] at h
  obtain ⟨rfl, horigin, rfl, rfl, rfl, rfl⟩ := h
  rw [discriminant_injective horigin]

instance : LinearOrder ReadyNode := LinearOrder.lift' fields fields_injective

variable {graph : ApplicationGraph}

def new (index : graph.Index) : ReadyNode :=
  let provider := graph.node index
  let (file, line, column) := match provider.location with
    | some location => (location.file, location.line, location.column)
    | none => ("", 0, 0)
  { typeName := provider.typeName, origin := provider.origin, file, line, column, index := index }

theorem new_injective : Function.Injective (new : graph.Index → ReadyNode) := by
  intro i j h
  exact Fin.ext (congrArg ReadyNode.index h)

end ReadyNode

/-! ### Planning -/

namespace Plan

variable (graph : ApplicationGraph) (descriptors : List ProviderDescriptor)

/-- Counts an edge between two planned providers. -/
def recordEdge (links : Frontier.Links graph.Index) (edge : DependencyEdge) :
    Run Error (Frontier.Links graph.Index) := do
  let provider ← Run.expect (graph.position edge.providerTypeId)
    "dependency edges reference graph providers"
  let dependency ← Run.expect (graph.position edge.dependencyTypeId)
    "dependency edges reference graph dependencies"
  if (graph.node provider).state = .planned ∧ (graph.node dependency).state = .planned then
    pure (links.add provider dependency)
  else
    pure links

/-- The positions of the planned providers. -/
def planned : List graph.Index :=
  (List.finRange graph.providers.length).filter (fun i => (graph.node i).state = .planned)

def constructionStep (index : graph.Index) : Run Error ConstructionStep := do
  let provider := graph.node index
  let descriptor ← Run.expect
    (descriptors.find? (fun descriptor => descriptor.typeId = provider.typeId))
    "planned graph providers have descriptors"
  let location ← Run.expect provider.location "planned providers have locations"
  pure { typeId := provider.typeId, typeName := provider.typeName, origin := provider.origin,
         location, descriptor }

/-- Constructs the least ready provider and releases its consumers until none is ready. -/
def takeReady (consumers : graph.Index → List graph.Index) :
    ℕ → Frontier.State graph.Index → List ConstructionStep → Run Error (List ConstructionStep)
  | 0, _, _ => .error .diverge
  | fuel + 1, state, steps =>
    match state.ready with
    | [] => pure steps
    | index :: rest => do
      let step ← constructionStep graph descriptors index
      let state ← Run.expect
        (Frontier.releaseAll ReadyNode.new { state with ready := rest } (consumers index))
        "attempt to subtract with overflow"
      takeReady consumers fuel state (steps ++ [step])

def create : Run Error ConstructionPlan := do
  let links ← graph.dependencies.foldlM (recordEdge graph) Frontier.Links.empty
  let state := Frontier.start ReadyNode.new (planned graph) links
  let steps ← takeReady graph descriptors links.consumers ((planned graph).length + 1) state []
  if steps.length = (planned graph).length then
    pure { steps }
  else
    .error (.panic "cycle validation must precede planning")

/-! ### What the planner computes -/

/-- The edges between planned providers as `(provider, dependency)` positions, as often as they
are recorded. -/
def plannedEdges : List (graph.Index × graph.Index) :=
  graph.dependencies.filterMap fun edge => do
    let provider ← graph.position edge.providerTypeId
    let dependency ← graph.position edge.dependencyTypeId
    if (graph.node provider).state = .planned ∧ (graph.node dependency).state = .planned then
      some (provider, dependency)
    else none

variable {graph descriptors}

@[simp] theorem mem_planned {i : graph.Index} :
    i ∈ planned graph ↔ (graph.node i).state = .planned := by
  simp [planned]

theorem planned_nodup : (planned graph).Nodup := (List.nodup_finRange _).filter _

theorem mem_plannedEdges {x d : graph.Index} : (x, d) ∈ plannedEdges graph ↔
    (graph.node x).state = .planned ∧ (graph.node d).state = .planned ∧
      ∃ edge ∈ graph.dependencies, graph.position edge.providerTypeId = some x ∧
        graph.position edge.dependencyTypeId = some d := by
  simp only [plannedEdges, List.mem_filterMap, Option.bind_eq_bind, Option.bind_eq_some_iff]
  constructor
  · rintro ⟨edge, hedge, p, hp, q, hq, hif⟩
    split at hif
    · next hstate =>
      obtain ⟨rfl, rfl⟩ := Prod.mk.inj (Option.some.inj hif)
      exact ⟨hstate.1, hstate.2, edge, hedge, hp, hq⟩
    · simp at hif
  · rintro ⟨hx, hd, edge, hedge, hp, hq⟩
    exact ⟨edge, hedge, x, hp, d, hq, by simp [hx, hd]⟩

theorem planned_of_mem_edges {x d : graph.Index} (h : (x, d) ∈ plannedEdges graph) :
    x ∈ planned graph ∧ d ∈ planned graph := by
  obtain ⟨hx, hd, -⟩ := mem_plannedEdges.mp h
  exact ⟨mem_planned.mpr hx, mem_planned.mpr hd⟩

/-- Recording never meets an unknown provider, and it counts exactly the planned edges. -/
theorem recordEdges_eq (h : graph.WellFormed) :
    graph.dependencies.foldlM (recordEdge graph) Frontier.Links.empty =
      .ok (Frontier.Links.ofEdges (plannedEdges graph)) := by
  suffices hfold : ∀ (edges : List DependencyEdge), edges ⊆ graph.dependencies →
      ∀ links : Frontier.Links graph.Index, edges.foldlM (recordEdge graph) links =
        .ok ((edges.filterMap fun edge => do
          let provider ← graph.position edge.providerTypeId
          let dependency ← graph.position edge.dependencyTypeId
          if (graph.node provider).state = .planned ∧ (graph.node dependency).state = .planned then
            some (provider, dependency)
          else none).foldl (fun l e => l.add e.1 e.2) links) from
    hfold graph.dependencies (List.Subset.refl _) _
  intro edges
  induction edges with
  | nil => simp
  | cons edge edges ih =>
    intro hsub links
    obtain ⟨p, d, hp, -, hd⟩ := h.edges_known edge (hsub List.mem_cons_self)
    have hrest := ih (fun e he => hsub (List.mem_cons_of_mem _ he))
    by_cases hstate : (graph.node p).state = .planned ∧ (graph.node d).state = .planned
    · rw [List.foldlM_cons, List.filterMap_cons_some (by simp [hp, hd, hstate]; rfl),
        List.foldl_cons]
      simpa [recordEdge, hp, hd, hstate] using hrest (links.add p d)
    · rw [List.foldlM_cons, List.filterMap_cons_none (by simp [hp, hd, hstate])]
      simpa [recordEdge, hp, hd, hstate] using hrest links

/-- Every planned provider has a declaration to construct it from. -/
def Described (graph : ApplicationGraph) (descriptors : List ProviderDescriptor) : Prop :=
  ∀ i, (graph.node i).state = .planned →
    ∃ d ∈ descriptors, d.typeId = (graph.node i).typeId

theorem constructionStep_ok (h : graph.WellFormed) (hdescribed : Described graph descriptors)
    {i : graph.Index} (hi : i ∈ planned graph) :
    ∃ step, constructionStep graph descriptors i = .ok step := by
  have hplanned := mem_planned.mp hi
  obtain ⟨d, hd, htype⟩ := hdescribed i hplanned
  obtain ⟨found, hfound⟩ : ∃ found,
      descriptors.find? (fun d => d.typeId = (graph.node i).typeId) = some found := by
    rw [← Option.isSome_iff_exists, List.find?_isSome]
    exact ⟨d, hd, decide_eq_true htype⟩
  obtain ⟨location, hlocation⟩ := Option.isSome_iff_exists.mp (h.located i hplanned)
  exact ⟨_, by simp only [constructionStep, hfound, hlocation, Run.expect_some, Run.ok_bind]; rfl⟩

/-- What a step says about the provider it constructs. -/
theorem constructionStep_spec {i : graph.Index} {step : ConstructionStep}
    (h : constructionStep graph descriptors i = .ok step) :
    step.typeId = (graph.node i).typeId ∧ step.descriptor ∈ descriptors ∧
      step.descriptor.typeId = (graph.node i).typeId := by
  unfold constructionStep at h
  cases hfind : descriptors.find? (fun d => d.typeId = (graph.node i).typeId) with
  | none => simp [hfind, Run.expect] at h
  | some d =>
    cases hlocation : (graph.node i).location with
    | none => simp [hfind, hlocation, Run.expect] at h
    | some location =>
      obtain rfl : _ = step := by simpa [hfind, hlocation] using h
      exact ⟨rfl, List.mem_of_find?_eq_some hfind, by simpa using List.find?_some hfind⟩

/-- The steps of a list of positions. -/
def Steps (graph : ApplicationGraph) (descriptors : List ProviderDescriptor)
    (order : List graph.Index) (steps : List ConstructionStep) : Prop :=
  List.Forall₂ (fun i step => constructionStep graph descriptors i = .ok step) order steps

theorem Steps.split {order : List graph.Index} {front back : List ConstructionStep}
    {step : ConstructionStep} (h : Steps graph descriptors order (front ++ step :: back)) :
    ∃ before i after, order = before ++ i :: after ∧ Steps graph descriptors before front ∧
      constructionStep graph descriptors i = .ok step :=
  forall₂_split h

theorem Steps.map_typeId {order : List graph.Index} {steps : List ConstructionStep}
    (h : Steps graph descriptors order steps) :
    steps.map (·.typeId) = order.map (fun i => (graph.node i).typeId) := by
  induction h with
  | nil => rfl
  | cons hstep _ ih => rw [List.map_cons, List.map_cons, ih, (constructionStep_spec hstep).1]

/-- `takeReady` runs the counting machine of the library and turns its order into steps. -/
theorem takeReady_eq {consumers : graph.Index → List graph.Index} (fuel : ℕ)
    (state : Frontier.State graph.Index) (done order : List graph.Index)
    (steps : List ConstructionStep) (hsteps : Steps graph descriptors done steps)
    (hdrain : Frontier.drain ReadyNode.new consumers fuel state done = some order)
    (hstep : ∀ i ∈ order, ∃ step, constructionStep graph descriptors i = .ok step) :
    ∃ all, takeReady graph descriptors consumers fuel state steps = .ok all ∧
      Steps graph descriptors order all := by
  induction fuel generalizing state done steps with
  | zero => simp [Frontier.drain] at hdrain
  | succ fuel ih =>
    rw [Frontier.drain] at hdrain
    rw [takeReady]
    cases hready : state.ready with
    | nil =>
      obtain rfl : done = order := by simpa [hready] using hdrain
      exact ⟨steps, rfl, hsteps⟩
    | cons index rest =>
      simp only [hready, Option.bind_eq_bind, Option.bind_eq_some_iff] at hdrain
      obtain ⟨next, hrelease, hdrain⟩ := hdrain
      have hindex : index ∈ order := by
        obtain ⟨more, hmore⟩ := Frontier.drain_prefix hdrain
        simp [← hmore]
      obtain ⟨step, hstepIndex⟩ := hstep index hindex
      simp only [hstepIndex, hrelease, Run.ok_bind, Run.expect_some]
      exact ih next (done ++ [index]) (steps ++ [step])
        (List.rel_append hsteps (.cons hstepIndex .nil)) hdrain

/-- On a well-formed graph without cycles the planner returns: its steps are the planned providers,
each once, in the order that always takes the least ready one. -/
theorem create_ok (h : graph.WellFormed) (hdescribed : Described graph descriptors)
    (hacyclic : ∀ i, Acc (fun d x => (x, d) ∈ plannedEdges graph) i) :
    ∃ plan order, create graph descriptors = .ok plan ∧
      Steps graph descriptors order plan.steps ∧ order.Perm (planned graph) ∧
      Frontier.Greedy ReadyNode.new (planned graph) (plannedEdges graph) [] order := by
  obtain ⟨order, hdrain, hgreedy⟩ := Frontier.drain_start ReadyNode.new_injective
    (fun x d he => (planned_of_mem_edges he).1) (Nat.lt_succ_self (planned graph).length)
  have hmem : ∀ i ∈ order, i ∈ planned graph := hgreedy.mem_nodes
  have hperm : order.Perm (planned graph) := by
    refine (List.perm_ext_iff_of_nodup hgreedy.nodup planned_nodup).mpr fun i => ⟨hmem i, ?_⟩
    intro hi
    exact hgreedy.covers (fun x d he => (planned_of_mem_edges he).2) hi (hacyclic i)
  obtain ⟨steps, htake, hsteps⟩ := takeReady_eq _ _ [] order [] .nil hdrain
    (fun i hi => constructionStep_ok h hdescribed (hmem i hi))
  refine ⟨⟨steps⟩, order, ?_, hsteps, hperm, hgreedy⟩
  have hlength : steps.length = (planned graph).length := by
    rw [← hsteps.length_eq, hperm.length_eq]
  simp only [create, recordEdges_eq h, Run.ok_bind]
  simp [htake, hlength]

end Plan

end Mads
