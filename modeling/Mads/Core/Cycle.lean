import Mathlib.Data.List.Destutter
import Mathlib.Data.List.FinRange
import Mathlib.Data.List.Lex
import Mads.Core.Graph
import Mads.Library.ThreeColor

/-!
# Cycle detection in a provider graph
-/

namespace Mads

/-- A cycle of providers: the names along it, the first one repeated at the end. -/
structure Cycle where
  names : List String
  location : SourceLocation
  deriving DecidableEq, Repr

namespace Cycle

open ThreeColor (Color)

variable (graph : ApplicationGraph)

def nodeOrder (left right : graph.Index) : Ordering :=
  (compareOn (·.typeName) (graph.node left) (graph.node right)).then
    ((compareOn (·.origin.discriminant) (graph.node left) (graph.node right)).then
      (optionLocationOrder (graph.node left).location (graph.node right).location))

/-- The dependencies of a provider, each edge counted, in node order. -/
def outgoing (provider : graph.Index) : List graph.Index :=
  sortBy (nodeOrder graph)
    ((graph.dependencies.filter
      (fun edge => edge.providerTypeId = (graph.node provider).typeId)).filterMap
        (fun edge => graph.position edge.dependencyTypeId))

/-- `Iterator::min_by`: the first of the least elements. -/
def minBy {α : Type} (order : α → α → Ordering) (xs : List α) : Option α :=
  xs.foldl (fun best x =>
    match best with
    | none => some x
    | some b => if order x b = .lt then some x else some b) none

/-- Rotates an open cycle so that its least provider stands first. -/
def canonicalize (openCycle : List graph.Index) : Run Error (List graph.Index) := do
  let start ← Run.expect
    (minBy (fun left right => nodeOrder graph left.1 right.1) openCycle.zipIdx)
    "cycles are non-empty"
  pure (openCycle.drop start.2 ++ openCycle.take start.2)

/-- The report of an open cycle. -/
def close (openCycle : List graph.Index) : Run Error Cycle := do
  let canonical ← canonicalize graph openCycle
  let first ← Run.expect canonical.head? "index out of bounds"
  let location ← Run.expect (graph.node first).location "cycle providers are statically declared"
  let names := canonical.map (fun candidate => (graph.node candidate).typeName)
  pure { names := names ++ [(graph.node first).typeName], location }

/-- The data of one search. -/
structure Search where
  colors : graph.Index → Color
  stack : List graph.Index
  cycles : List Cycle

variable {graph}

def Search.fresh : Search graph := { colors := fun _ => .white, stack := [], cycles := [] }

/-- The loop body of `visit`. -/
def look (visit : graph.Index → Search graph → Run Error (Search graph)) (state : Search graph)
    (dependency : graph.Index) : Run Error (Search graph) :=
  match state.colors dependency with
  | .white => visit dependency state
  | .gray => do
    let cycleStart ← Run.expect
      (state.stack.findIdx? (fun candidate => candidate = dependency))
      "gray providers are always active"
    let cycle ← close graph (state.stack.drop cycleStart)
    pure { state with cycles := state.cycles ++ [cycle] }
  | .black => pure state

variable (graph)

def visit : ℕ → graph.Index → Search graph → Run Error (Search graph)
  | 0, _, _ => .error .diverge
  | fuel + 1, index, state => do
    let state : Search graph :=
      { state with
        colors := Function.update state.colors index .gray
        stack := state.stack ++ [index] }
    let state ← (outgoing graph index).foldlM (look (visit fuel)) state
    pure { state with
      colors := Function.update state.colors index .black
      stack := state.stack.dropLast }

/-- All cycles the search meets, sorted by their names, each name sequence once. -/
def detect : Run Error (List Cycle) := do
  let state ← (List.finRange graph.providers.length).foldlM
    (fun state index =>
      if state.colors index = .white then visit graph graph.providers.length index state
      else pure state)
    Search.fresh
  pure ((sortBy (compareOn (·.names)) state.cycles).destutter
    (fun left right => left.names ≠ right.names))

/-! ### The search follows the three-colour search of the library -/

variable {graph}

/-- The same colours and active path, and for every open cycle its report. -/
structure Follows (st : ThreeColor.State graph.Index) (state : Search graph) : Prop where
  colors : state.colors = st.colors
  stack : state.stack = st.stack
  cycles : List.Forall₂ (fun c cycle => close graph c = .ok cycle) st.cycles state.cycles

/-- Every open cycle found has a report. -/
def Closable (st : ThreeColor.State graph.Index) : Prop :=
  ∀ c ∈ st.cycles, ∃ cycle, close graph c = .ok cycle

theorem Closable.mono {st st' : ThreeColor.State graph.Index} (h : Closable st')
    (hgrown : st.cycles <+: st'.cycles) : Closable st :=
  fun c hc => h c (hgrown.subset hc)

theorem look_follows {enter : graph.Index → ThreeColor.State graph.Index →
      Option (ThreeColor.State graph.Index)}
    {visit : graph.Index → Search graph → Run Error (Search graph)}
    {st st' : ThreeColor.State graph.Index} {state : Search graph} {w : graph.Index}
    (h : Follows st state) (hlook : ThreeColor.look enter st w = some st') (hclose : Closable st')
    (hvisit : enter w st = some st' → ∃ state', visit w state = .ok state' ∧ Follows st' state') :
    ∃ state', look visit state w = .ok state' ∧ Follows st' state' := by
  rw [ThreeColor.look] at hlook
  rw [look, h.colors]
  cases hcolor : st.colors w with
  | white =>
    rw [hcolor] at hlook
    exact hvisit hlook
  | gray =>
    rw [hcolor] at hlook
    simp only [ThreeColor.openCycle, Option.map_map, Option.map_eq_some_iff] at hlook
    obtain ⟨i, hi, rfl⟩ := hlook
    obtain ⟨cycle, hcycle⟩ := hclose (st.stack.drop i) (by simp [ThreeColor.State.record])
    refine ⟨{ state with cycles := state.cycles ++ [cycle] }, ?_, h.colors, h.stack, ?_⟩
    · simp [h.stack, hi, hcycle, h.colors]
    · exact List.rel_append h.cycles (.cons hcycle .nil)
  | black =>
    rw [hcolor] at hlook
    obtain rfl : st = st' := by simpa using hlook
    exact ⟨state, rfl, h⟩

theorem looks_follow {enter : graph.Index → ThreeColor.State graph.Index →
      Option (ThreeColor.State graph.Index)}
    {visit : graph.Index → Search graph → Run Error (Search graph)} (ws : List graph.Index)
    {st st' : ThreeColor.State graph.Index} {state : Search graph} (h : Follows st state)
    (hgrown : ∀ w a b, enter w a = some b → a.cycles <+: b.cycles)
    (hlooks : ws.foldlM (ThreeColor.look enter) st = some st') (hclose : Closable st')
    (hvisit : ∀ w a b (s : Search graph), enter w a = some b → Follows a s → Closable b →
      ∃ s', visit w s = .ok s' ∧ Follows b s') :
    ∃ state', ws.foldlM (look visit) state = .ok state' ∧ Follows st' state' := by
  induction ws generalizing st state with
  | nil =>
    obtain rfl : st = st' := by simpa using hlooks
    exact ⟨state, rfl, h⟩
  | cons w ws ih =>
    rw [List.foldlM_cons, Option.bind_eq_bind, Option.bind_eq_some_iff] at hlooks
    obtain ⟨mid, hlook, hrest⟩ := hlooks
    have hmid : Closable mid := hclose.mono (ThreeColor.looks_prefix hgrown hrest)
    obtain ⟨middle, hok, hfollows⟩ := look_follows h hlook hmid
      (fun henter => hvisit w st mid state henter h hmid)
    obtain ⟨state', hrest', hfollows'⟩ := ih hfollows hrest
    exact ⟨state', by simpa [hok] using hrest', hfollows'⟩

theorem visit_follows (fuel : ℕ) (index : graph.Index) {st st' : ThreeColor.State graph.Index}
    {state : Search graph} (h : Follows st state)
    (hvisit : ThreeColor.visit (outgoing graph) fuel index st = some st')
    (hclose : Closable st') :
    ∃ state', visit graph fuel index state = .ok state' ∧ Follows st' state' := by
  induction fuel generalizing index st st' state with
  | zero => simp [ThreeColor.visit] at hvisit
  | succ fuel ih =>
    rw [ThreeColor.visit, Option.map_eq_some_iff] at hvisit
    obtain ⟨looped, hloop, rfl⟩ := hvisit
    have hentered : Follows (st.enter index)
        { state with
          colors := Function.update state.colors index .gray
          stack := state.stack ++ [index] } := by
      refine ⟨?_, ?_, h.cycles⟩ <;> simp [ThreeColor.State.enter, h.colors, h.stack]
    obtain ⟨state', hok, hfollows⟩ := looks_follow _ hentered
      (fun w a b hab => ThreeColor.visit_prefix hab) hloop hclose
      (fun w a b s hab hs hb => ih w hs hab hb)
    refine ⟨{ state' with
      colors := Function.update state'.colors index .black
      stack := state'.stack.dropLast }, by simp [visit, hok], ?_, ?_, hfollows.cycles⟩
    · simp [ThreeColor.State.leave, hfollows.colors]
    · simp [ThreeColor.State.leave, hfollows.stack]

/-! ### What the search finds -/

/-- `j` is the provider of a type that `i` depends on. -/
def DependsOn (i j : graph.Index) : Prop :=
  ∃ edge ∈ graph.dependencies, edge.providerTypeId = (graph.node i).typeId ∧
    graph.position edge.dependencyTypeId = some j

theorem mem_outgoing {i j : graph.Index} : j ∈ outgoing graph i ↔ DependsOn i j := by
  simp only [outgoing, mem_sortBy, List.mem_filterMap, List.mem_filter, decide_eq_true_eq,
    DependsOn]
  constructor
  · rintro ⟨edge, ⟨hedge, htype⟩, hposition⟩
    exact ⟨edge, hedge, htype, hposition⟩
  · rintro ⟨edge, hedge, htype, hposition⟩
    exact ⟨edge, ⟨hedge, htype⟩, hposition⟩

theorem minBy_concat {α : Type} (order : α → α → Ordering) (xs : List α) (x : α) :
    minBy order (xs ++ [x]) = match minBy order xs with
      | none => some x
      | some b => if order x b = .lt then some x else some b := by
  rw [minBy, List.foldl_append]
  rfl

theorem minBy_isSome {α : Type} (order : α → α → Ordering) {xs : List α} (h : xs ≠ []) :
    ∃ m ∈ xs, minBy order xs = some m := by
  induction xs using List.reverseRecOn with
  | nil => exact absurd rfl h
  | append_singleton xs x ih =>
    rw [minBy_concat]
    by_cases hxs : xs = []
    · subst hxs
      exact ⟨x, by simp, rfl⟩
    · obtain ⟨m, hm, hmin⟩ := ih hxs
      rw [hmin]
      by_cases hlt : order x m = .lt
      · exact ⟨x, by simp, by simp [hlt]⟩
      · exact ⟨m, by simp [hm], by simp [hlt]⟩

/-- On a well-formed graph only planned providers depend on others. -/
theorem planned_of_dependsOn (h : graph.WellFormed) {i j : graph.Index} (hij : DependsOn i j) :
    (graph.node i).state = .planned := by
  obtain ⟨edge, hedge, htype, -⟩ := hij
  obtain ⟨p, -, hp, hstate, -⟩ := h.edges_known edge hedge
  have hpi : p = i := h.typeId_injective ((ApplicationGraph.typeId_of_position hp).trans htype)
  rwa [← hpi]

/-- Every provider of a closed walk depends on another one, hence is declared somewhere. -/
theorem located_of_closedWalk (h : graph.WellFormed) {c : List graph.Index}
    (hc : ThreeColor.ClosedWalk (outgoing graph) c) :
    ∀ i ∈ c, (graph.node i).location.isSome := by
  intro i hi
  obtain ⟨first, rest, rfl, -, hchain⟩ := hc
  obtain ⟨front, back, hsplit⟩ := List.append_of_mem hi
  have hnext : ∃ j, j ∈ outgoing graph i := by
    rw [hsplit, List.append_assoc, List.isChain_append] at hchain
    obtain ⟨-, hback, -⟩ := hchain
    cases back with
    | nil => exact ⟨first, by simpa using hback⟩
    | cons j back =>
      rw [List.cons_append, List.cons_append, List.isChain_cons_cons] at hback
      exact ⟨j, hback.1⟩
  obtain ⟨j, hj⟩ := hnext
  exact h.located i (planned_of_dependsOn h (mem_outgoing.mp hj))

/-- A canonical cycle starts with one of the providers of the open cycle. -/
theorem canonicalize_ok {walk : List graph.Index} (hne : walk ≠ []) :
    ∃ head ∈ walk, ∃ tail, canonicalize graph walk = .ok (head :: tail) := by
  obtain ⟨start, hstart, hmin⟩ :=
    minBy_isSome (fun left right => nodeOrder graph left.1 right.1) (by simpa using hne :
      walk.zipIdx ≠ [])
  obtain ⟨-, hlt, -⟩ := List.mem_zipIdx hstart
  rw [Nat.zero_add] at hlt
  refine ⟨walk[start.2], List.getElem_mem hlt, walk.drop (start.2 + 1) ++ walk.take start.2, ?_⟩
  simp only [canonicalize, hmin, Run.expect_some, Run.ok_bind, Run.pure_eq_ok]
  rw [List.drop_eq_getElem_cons hlt, List.cons_append]

theorem close_ok (h : graph.WellFormed) {c : List graph.Index}
    (hc : ThreeColor.ClosedWalk (outgoing graph) c) : ∃ cycle, close graph c = .ok cycle := by
  have hlocated := located_of_closedWalk h hc
  have hne : c ≠ [] := by
    obtain ⟨first, rest, rfl, -⟩ := hc
    simp
  obtain ⟨head, hhead, tail, hcanonical⟩ := canonicalize_ok hne
  obtain ⟨location, hlocation⟩ := Option.isSome_iff_exists.mp (hlocated head hhead)
  exact ⟨_, by simp only [close, hcanonical, Run.ok_bind, List.head?_cons, Run.expect_some,
    hlocation]; rfl⟩

theorem destutter_eq_nil {xs : List Cycle} :
    (sortBy (compareOn (·.names)) xs).destutter (fun left right => left.names ≠ right.names) = [] ↔
      xs = [] := by
  rw [List.destutter_eq_nil]
  have hlength := (sortBy_perm (compareOn Cycle.names) xs).length_eq
  rw [← List.length_eq_zero_iff, ← List.length_eq_zero_iff, hlength]

theorem names_ne_nil {c : List graph.Index} {cycle : Cycle} (h : close graph c = .ok cycle) :
    cycle.names ≠ [] := by
  obtain ⟨canonical, -, h⟩ := Run.bind_eq_ok.mp h
  obtain ⟨first, -, h⟩ := Run.bind_eq_ok.mp h
  obtain ⟨location, -, h⟩ := Run.bind_eq_ok.mp h
  obtain rfl : _ = cycle := by simpa using h
  simp

/-- Running the search from every white provider follows the library's detection. -/
theorem searches_follow (nodes : List graph.Index) {st st' : ThreeColor.State graph.Index}
    {state : Search graph} (h : Follows st state) {fuel : ℕ}
    (hfold : nodes.foldlM (fun st v =>
      if st.colors v = .white then ThreeColor.visit (outgoing graph) fuel v st else some st) st =
        some st') (hclose : Closable st') :
    ∃ state', nodes.foldlM (fun state index =>
        if state.colors index = .white then visit graph fuel index state else pure state) state =
          .ok state' ∧ Follows st' state' := by
  induction nodes generalizing st state with
  | nil =>
    obtain rfl : st = st' := by simpa using hfold
    exact ⟨state, rfl, h⟩
  | cons v nodes ih =>
    rw [List.foldlM_cons, Option.bind_eq_bind, Option.bind_eq_some_iff] at hfold
    obtain ⟨mid, hmid, hrest⟩ := hfold
    have hclosable : Closable mid := hclose.mono (ThreeColor.detect_prefix hrest)
    obtain ⟨middle, hok, hfollows⟩ : ∃ middle,
        (if state.colors v = .white then visit graph fuel v state else pure state) = .ok middle ∧
          Follows mid middle := by
      rw [h.colors]
      by_cases hwhite : st.colors v = .white
      · rw [if_pos hwhite] at hmid ⊢
        exact visit_follows fuel v h hmid hclosable
      · rw [if_neg hwhite] at hmid ⊢
        obtain rfl : st = mid := by simpa using hmid
        exact ⟨state, rfl, h⟩
    obtain ⟨state', hrest', hfollows'⟩ := ih hfollows hrest
    exact ⟨state', by simpa only [List.foldlM_cons, hok, Run.ok_bind] using hrest', hfollows'⟩

/-- Detection returns on every well-formed graph: it reports the closed walks that the search
records, and outside of these every chain of dependencies ends. -/
theorem detect_searched (h : graph.WellFormed) :
    ∃ (walks : List (List graph.Index)) (reports : List Cycle),
      detect graph = .ok ((sortBy (compareOn (·.names)) reports).destutter
        (fun left right => left.names ≠ right.names)) ∧
      List.Forall₂ (fun c cycle => close graph c = .ok cycle) walks reports ∧
      (∀ c ∈ walks, ThreeColor.ClosedWalk (outgoing graph) c) ∧
      ∀ i, Acc (fun j i => ThreeColor.Remaining (outgoing graph) walks i j) i := by
  obtain ⟨after, hdetect, hadvance, hblack⟩ := ThreeColor.detect_ok (outgoing graph)
    (List.finRange graph.providers.length) graph.providers.length (by simp)
  obtain ⟨found, hfound, hclosed⟩ := hadvance.cycles
  replace hfound : after.cycles = found := by rw [hfound]; rfl
  subst hfound
  have hclose : Closable after := fun c hc => close_ok h (hclosed c hc)
  have hfresh : Follows ThreeColor.State.fresh (Search.fresh : Search graph) :=
    ⟨rfl, rfl, .nil⟩
  obtain ⟨state, hok, hfollows⟩ := searches_follow _ hfresh hdetect hclose
  refine ⟨after.cycles, state.cycles, ?_, hfollows.cycles, hclosed, fun i => ?_⟩
  · simp only [detect, hok, Run.ok_bind]
    rfl
  · exact hadvance.invariant.finished i (hblack i (List.mem_finRange i))

/-- Detection returns on every well-formed graph, and it reports no cycle exactly when every chain
of dependencies ends. -/
theorem detect_ok (h : graph.WellFormed) :
    ∃ cycles, detect graph = .ok cycles ∧ (∀ cycle ∈ cycles, cycle.names ≠ []) ∧
      (cycles = [] ↔ ∀ i : graph.Index, Acc (fun j i => DependsOn i j) i) := by
  obtain ⟨walks, reports, hdetect, hreports, hclosed, hacc⟩ := detect_searched h
  refine ⟨_, hdetect, fun cycle hcycle => ?_, ?_⟩
  · have hmem : cycle ∈ reports := mem_sortBy.mp ((List.destutter_sublist _ _).subset hcycle)
    obtain ⟨c, -, hclosed⟩ := exists_of_forall₂ hreports hmem
    exact names_ne_nil hclosed
  rw [destutter_eq_nil]
  have hnil : reports = [] ↔ walks = [] := by
    rw [← List.length_eq_zero_iff, ← List.length_eq_zero_iff, hreports.length_eq]
  rw [hnil]
  constructor
  · rintro rfl i
    refine Subrelation.accessible (fun {j k} hedge => ?_) (hacc i)
    exact ⟨mem_outgoing.mpr hedge, by simp⟩
  · intro hall
    by_contra hne
    obtain ⟨c, hc⟩ := List.exists_mem_of_ne_nil _ hne
    obtain ⟨i, hi⟩ := (hclosed c hc).not_acc
    refine hi (Subrelation.accessible (fun {j k} hedge => ?_) (hall i))
    exact mem_outgoing.mp hedge

end Cycle

end Mads
