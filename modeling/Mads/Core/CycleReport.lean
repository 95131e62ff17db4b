import Mads.Core.ValidAnalysis

/-!
# What the reported cycles say

Every report names a closed walk of distinct providers from its least provider on, and every
strongly connected part of the graph with a cycle has a report.
-/

namespace Mads

namespace Cycle

open Relation

/-! ### Orders -/

instance : Std.TransCmp optionLocationOrder where
  eq_swap {a b} := by
    cases a with
    | none => cases b <;> rfl
    | some left =>
      cases b with
      | none => rfl
      | some right => exact @Std.OrientedCmp.eq_swap _ locationOrder _ left right
  isLE_trans {a b c} hab hbc := by
    cases a with
    | none => cases c <;> rfl
    | some left =>
      -- a location is below present locations only
      cases b with
      | none => cases hab
      | some middle =>
        cases c with
        | none => cases hbc
        | some right => exact @Std.TransCmp.isLE_trans _ locationOrder _ left middle right hab hbc

/-- The order of providers that `node_order` compares two positions by. -/
def providerOrder : ProviderNode → ProviderNode → Ordering :=
  compareLex (compareOn (·.typeName)) (compareLex (compareOn (·.origin.discriminant))
    (fun left right => optionLocationOrder left.location right.location))

instance : Std.TransCmp providerOrder :=
  have : Std.TransCmp (fun left right : ProviderNode =>
      optionLocationOrder left.location right.location) := transCmp_on optionLocationOrder _
  inferInstanceAs (Std.TransCmp (compareLex _ _))

instance (graph : ApplicationGraph) : Std.TransCmp (nodeOrder graph) :=
  transCmp_on providerOrder graph.node

/-- `min_by` finds an element that no other one comes before. -/
theorem minBy_isLE {α : Type} (order : α → α → Ordering) [Std.TransCmp order] {xs : List α} {m : α}
    (h : minBy order xs = some m) : ∀ x ∈ xs, (order m x).isLE := by
  induction xs using List.reverseRecOn generalizing m with
  | nil => simp
  | append_singleton xs x ih =>
    rw [minBy_concat] at h
    intro y hy
    cases hmin : minBy order xs with
    | none =>
      have hnil : xs = [] := by
        by_contra hne
        obtain ⟨b, -, hb⟩ := minBy_isSome order hne
        rw [hmin] at hb
        cases hb
      obtain rfl : x = m := by simpa [hmin] using h
      obtain rfl : y = x := by simpa [hnil] using hy
      exact Std.ReflCmp.isLE_rfl
    | some b =>
      simp only [hmin] at h
      obtain hy | hy := List.mem_append.mp hy
      · have hby := ih hmin y hy
        by_cases hlt : order x b = .lt
        · obtain rfl : x = m := by simpa [hlt] using h
          exact Std.TransCmp.isLE_trans (by simp [hlt]) hby
        · obtain rfl : b = m := by simpa [hlt] using h
          exact hby
      · obtain rfl : y = x := by simpa using hy
        by_cases hlt : order y b = .lt
        · obtain rfl : y = m := by simpa [hlt] using h
          exact Std.ReflCmp.isLE_rfl
        · obtain rfl : b = m := by simpa [hlt] using h
          have hge : (order y b).isGE := by
            cases hc : order y b <;> simp_all
          exact Std.OrientedCmp.isLE_of_isGE hge

/-! ### One report -/

variable {graph : ApplicationGraph}

/-- The type names along a walk, the first one repeated at the end. -/
def namesAlong (walk : List graph.Index) : List String :=
  (walk ++ walk.head?.toList).map (fun i => (graph.node i).typeName)

/-- A closed walk of distinct providers along dependency edges, from its least provider on. -/
structure Canonical (walk : List graph.Index) : Prop where
  ne_nil : walk ≠ []
  nodup : walk.Nodup
  follows : (walk ++ walk.head?.toList).IsChain DependsOn
  least : ∀ first ∈ walk.head?, ∀ j ∈ walk, nodeOrder graph first j ≠ .gt

/-- `cycle` reports the walk. -/
structure ReportOf (walk : List graph.Index) (cycle : Cycle) : Prop where
  names : cycle.names = namesAlong walk
  location : ∀ first ∈ walk.head?, (graph.node first).location = some cycle.location

theorem follows_of_closedWalk {walk : List graph.Index}
    (h : ThreeColor.ClosedWalk (outgoing graph) walk) :
    walk ≠ [] ∧ walk.Nodup ∧ (walk ++ walk.head?.toList).IsChain DependsOn := by
  refine ⟨h.ne_nil, ?_⟩
  obtain ⟨first, rest, rfl, hnodup, hchain⟩ := h
  exact ⟨hnodup, hchain.imp fun _ _ hij => mem_outgoing.mp hij⟩

/-- The canonical form of a closed walk is a rotation of it. -/
theorem canonicalize_spec {walk canonical : List graph.Index}
    (h : ThreeColor.ClosedWalk (outgoing graph) walk)
    (hok : canonicalize graph walk = .ok canonical) :
    Canonical canonical ∧ canonical.Perm walk := by
  obtain ⟨start, hstart, hcanonical⟩ := Run.bind_eq_ok.mp hok
  have hmin := Run.expect_eq_ok.mp hstart
  replace hcanonical : walk.drop start.2 ++ walk.take start.2 = canonical := by
    simpa using hcanonical
  subst hcanonical
  have hperm : (walk.drop start.2 ++ walk.take start.2).Perm walk := by
    refine List.perm_append_comm.trans ?_
    rw [List.take_append_drop]
  have hrotated : ThreeColor.ClosedWalk (outgoing graph)
      (walk.drop start.2 ++ walk.take start.2) := by
    apply ThreeColor.ClosedWalk.rotate
    rwa [List.take_append_drop]
  obtain ⟨hne, hnodup, hfollows⟩ := follows_of_closedWalk hrotated
  refine ⟨⟨hne, hnodup, hfollows, fun first hfirst j hj => ?_⟩, hperm⟩
  -- the walk now starts with the element that `min_by` chose
  have hmem : start ∈ walk.zipIdx := by
    obtain ⟨m, hm, hmin'⟩ := minBy_isSome (fun left right => nodeOrder graph left.1 right.1)
      (by simpa using h.ne_nil : walk.zipIdx ≠ [])
    obtain rfl : m = start := by simpa [hmin] using hmin'.symm
    exact hm
  obtain ⟨-, hlt, hvalue⟩ := List.mem_zipIdx hmem
  rw [Nat.zero_add] at hlt
  obtain rfl : first = start.1 := by
    rw [List.drop_eq_getElem_cons hlt, List.cons_append, List.head?_cons] at hfirst
    simpa [hvalue] using hfirst.symm
  have : Std.TransCmp (fun left right : graph.Index × ℕ => nodeOrder graph left.1 right.1) :=
    transCmp_on (nodeOrder graph) Prod.fst
  obtain ⟨k, hk, rfl⟩ := List.getElem_of_mem (hperm.mem_iff.mp hj)
  have hisLE := minBy_isLE _ hmin (walk[k], k) (List.mk_mem_zipIdx_iff_getElem?.mpr (by simp [hk]))
  intro hgt
  simp [hgt] at hisLE

theorem close_spec {walk : List graph.Index} {cycle : Cycle}
    (h : ThreeColor.ClosedWalk (outgoing graph) walk) (hok : close graph walk = .ok cycle) :
    ∃ canonical, Canonical canonical ∧ canonical.Perm walk ∧ ReportOf canonical cycle := by
  obtain ⟨canonical, hcanonical, hok⟩ := Run.bind_eq_ok.mp hok
  obtain ⟨first, hfirst, hok⟩ := Run.bind_eq_ok.mp hok
  obtain ⟨location, hlocation, hok⟩ := Run.bind_eq_ok.mp hok
  replace hfirst := Run.expect_eq_ok.mp hfirst
  replace hlocation := Run.expect_eq_ok.mp hlocation
  obtain rfl : _ = cycle := by simpa using hok
  obtain ⟨hcanonical, hperm⟩ := canonicalize_spec h hcanonical
  refine ⟨canonical, hcanonical, hperm, ?_, ?_⟩
  · simp [namesAlong, hfirst]
  · intro head hhead
    obtain rfl : first = head := by simpa [hfirst] using hhead
    exact hlocation

/-! ### All reports -/

theorem names_nodup (reports : List Cycle) :
    (((sortBy (compareOn (·.names)) reports).destutter
      (fun left right => left.names ≠ right.names)).map (·.names)).Nodup :=
  nodup_destutter_sortBy Cycle.names reports

/-! ### Completeness -/

/-- The two providers depend on each other, perhaps through others, or are the same. -/
def SameComponent (i j : graph.Index) : Prop :=
  ReflTransGen DependsOn i j ∧ ReflTransGen DependsOn j i

/-- What detection says about a well-formed graph. -/
structure Detects (graph : ApplicationGraph) (cycles : List Cycle) : Prop where
  nonempty_iff : cycles ≠ [] ↔ ∃ i : graph.Index, TransGen DependsOn i i
  sound : ∀ cycle ∈ cycles, ∃ walk : List graph.Index, Canonical walk ∧ ReportOf walk cycle
  nodup : (cycles.map (·.names)).Nodup
  complete : ∀ i : graph.Index, TransGen DependsOn i i → ∃ walk : List graph.Index,
    Canonical walk ∧ (∀ j ∈ walk, SameComponent i j) ∧
      ∃ cycle ∈ cycles, cycle.names = namesAlong walk

theorem edge_outgoing : (DepthFirst.Edge (outgoing graph)) = DependsOn := by
  funext i j
  exact propext mem_outgoing

/-- The providers of a canonical walk depend on themselves. -/
theorem Canonical.transGen {walk : List graph.Index} (h : Canonical walk) {i : graph.Index}
    (hi : i ∈ walk) : TransGen DependsOn i i := by
  obtain ⟨first, rest, rfl⟩ := List.exists_cons_of_ne_nil h.ne_nil
  have hclosed : ThreeColor.ClosedWalk (outgoing graph) (first :: rest) :=
    ⟨first, rest, rfl, h.nodup, h.follows.imp fun _ _ hij => mem_outgoing.mpr hij⟩
  rw [← edge_outgoing]
  exact hclosed.reaches hi hi

/-- A provider that depends on itself shares its component with a walk that was reported. -/
theorem exists_report {walks : List (List graph.Index)} {reports : List Cycle}
    (hreports : List.Forall₂ (fun c cycle => close graph c = .ok cycle) walks reports)
    (hclosed : ∀ c ∈ walks, ThreeColor.ClosedWalk (outgoing graph) c)
    (hacc : ∀ i, Acc (fun j i => ThreeColor.Remaining (outgoing graph) walks i j) i)
    {i : graph.Index} (hi : TransGen DependsOn i i) :
    ∃ walk : List graph.Index, Canonical walk ∧ (∀ j ∈ walk, SameComponent i j) ∧
      ∃ cycle ∈ reports, ReportOf walk cycle := by
  rw [← edge_outgoing] at hi
  obtain ⟨c, hc, u, hu, hiu, hui⟩ := ThreeColor.exists_cycle_of_transGen (hacc i) hi
  obtain ⟨cycle, hcycle, hclose⟩ := exists_of_forall₂ hreports.flip hc
  obtain ⟨walk, hcanonical, hperm, hreport⟩ := close_spec (hclosed c hc) hclose
  refine ⟨walk, hcanonical, fun j hj => ?_, cycle, hcycle, hreport⟩
  have hjc : j ∈ c := hperm.mem_iff.mp hj
  rw [SameComponent, ← edge_outgoing]
  exact ⟨hiu.trans ((hclosed c hc).reaches hu hjc).to_reflTransGen,
    ((hclosed c hc).reaches hjc hu).to_reflTransGen.trans hui⟩

theorem detects (h : graph.WellFormed) :
    ∃ cycles, detect graph = .ok cycles ∧ Detects graph cycles := by
  obtain ⟨walks, reports, hdetect, hreports, hclosed, hacc⟩ := detect_searched h
  have hsound : ∀ cycle ∈ reports, ∃ walk : List graph.Index,
      Canonical walk ∧ ReportOf walk cycle := by
    intro cycle hcycle
    obtain ⟨c, hc, hclose⟩ := exists_of_forall₂ hreports hcycle
    obtain ⟨walk, hcanonical, -, hreport⟩ := close_spec (hclosed c hc) hclose
    exact ⟨walk, hcanonical, hreport⟩
  refine ⟨_, hdetect, ⟨?_, fun cycle hcycle => ?_, names_nodup reports, fun i hi => ?_⟩⟩
  · rw [ne_eq, destutter_eq_nil]
    constructor
    · intro hne
      obtain ⟨cycle, hcycle⟩ := List.exists_mem_of_ne_nil _ hne
      obtain ⟨walk, hcanonical, -⟩ := hsound cycle hcycle
      obtain ⟨i, hi⟩ := List.exists_mem_of_ne_nil _ hcanonical.ne_nil
      exact ⟨i, hcanonical.transGen hi⟩
    · rintro ⟨i, hi⟩
      obtain ⟨walk, -, -, cycle, hcycle, -⟩ := exists_report hreports hclosed hacc hi
      exact List.ne_nil_of_mem hcycle
  · exact hsound cycle (mem_sortBy.mp ((List.destutter_sublist _ _).subset hcycle))
  · obtain ⟨walk, hcanonical, hsame, cycle, hcycle, hreport⟩ :=
      exists_report hreports hclosed hacc hi
    have hsorted : cycle ∈ sortBy (compareOn Cycle.names) reports := mem_sortBy.mpr hcycle
    obtain ⟨kept, hkept, hnames⟩ := exists_mem_destutter Cycle.names hsorted
    exact ⟨walk, hcanonical, hsame, kept, hkept, hnames.trans hreport.names⟩

end Cycle

/-- Whatever is declared and satisfied, the graph that validation hands to cycle detection is
searched to the end: a cycle is reported exactly where one exists, every report names a closed walk
of distinct providers from its least provider on, no names are reported twice, and every strongly
connected part with a cycle has a report. -/
theorem Analysis.detect_handed (descriptors : List ProviderDescriptor)
    (satisfied : List SatisfiedProvider) (coveredMissing : List TypeId) :
    ∃ graph diagnostics unique cycles,
      Analysis.diagnose descriptors satisfied coveredMissing = .ok (graph, diagnostics, unique) ∧
      Cycle.detect graph = .ok cycles ∧ Cycle.Detects graph cycles := by
  obtain ⟨graph, diagnostics, unique, hdiagnose, hdiagnosed⟩ :=
    Analysis.diagnose_ok descriptors satisfied coveredMissing
  obtain ⟨cycles, hdetect, hdetects⟩ := Cycle.detects hdiagnosed.wellFormed
  exact ⟨graph, diagnostics, unique, cycles, hdiagnose, hdetect, hdetects⟩

end Mads
