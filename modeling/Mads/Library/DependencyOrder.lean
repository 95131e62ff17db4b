import Mathlib.Data.Fintype.EquivFin
import Mads.Library.DepthFirst
import Mads.Library.Frontier

/-!
# Orders in which prerequisites come first

Finitely many nodes have such an order exactly where no chain of edges returns to its start. The
greedy order of a counting run is one, wherever there is one at all.
-/

namespace Frontier

variable {α κ : Type*} {nodes : List α} {edges : List (α × α)} {order : List α}

/-- All nodes in an order in which every prerequisite comes first. -/
def Ordered (nodes : List α) (edges : List (α × α)) (order : List α) : Prop :=
  order.Perm nodes ∧ ∀ front x back, order = front ++ x :: back →
    ∀ d, (x, d) ∈ edges → d ∈ front

/-- In such an order every chain of prerequisites ends. -/
theorem Ordered.acc (h : Ordered nodes edges order) :
    ∀ x ∈ nodes, Acc (fun d x => (x, d) ∈ edges) x := by
  have hfront : ∀ n (front : List α) x back, front.length = n → order = front ++ x :: back →
      Acc (fun d x => (x, d) ∈ edges) x := by
    intro n
    induction n using Nat.strong_induction_on with
    | _ n ih =>
      intro front x back hlength horder
      refine Acc.intro x fun d hd => ?_
      obtain ⟨before, after, rfl⟩ := List.mem_iff_append.mp (h.2 front x back horder d hd)
      have hless : before.length < n := by
        simp only [← hlength, List.length_append, List.length_cons]
        omega
      exact ih _ hless before d (after ++ x :: back) rfl (by simp [horder])
  intro x hx
  obtain ⟨front, back, horder⟩ := List.mem_iff_append.mp (h.1.mem_iff.mpr hx)
  exact hfront _ front x back rfl horder

/-- The greedy order of nodes below which every chain ends is such an order. -/
theorem Greedy.ordered [LinearOrder κ] {key : α → κ} (h : Greedy key nodes edges [] order)
    (hnodup : nodes.Nodup) (hclosed : ∀ x d, (x, d) ∈ edges → d ∈ nodes)
    (hacc : ∀ x ∈ nodes, Acc (fun d x => (x, d) ∈ edges) x) : Ordered nodes edges order := by
  refine ⟨(List.perm_ext_iff_of_nodup h.nodup hnodup).mpr fun x => ⟨h.mem_nodes x, fun hx => ?_⟩,
    fun front x back horder d hd => ?_⟩
  · exact h.covers hclosed hx (hacc x hx)
  · simpa using h.prerequisite_before horder hd

/-- Among finitely many nodes every chain ends where no chain returns to its start. -/
theorem acc_of_acyclic (hnodes : ∀ x d, (x, d) ∈ edges → x ∈ nodes)
    (hacyclic : ∀ x, ¬ Relation.TransGen (fun x d => (x, d) ∈ edges) x x) (x : α) :
    Acc (fun d x => (x, d) ∈ edges) x := by
  let below : α → α → Prop := Relation.TransGen fun d x => (x, d) ∈ edges
  have hswap : ∀ a b, below a b → Relation.TransGen (fun x d => (x, d) ∈ edges) b a :=
    fun a b h => Relation.transGen_swap.mp h
  have : IsTrans {x // x ∈ nodes} (fun d x => below d.1 x.1) :=
    ⟨fun _ _ _ => Relation.TransGen.trans⟩
  have : Std.Irrefl (fun d x : {x // x ∈ nodes} => below d.1 x.1) :=
    ⟨fun x h => hacyclic x.1 (hswap _ _ h)⟩
  have : Finite {x // x ∈ nodes} :=
    Finite.of_surjective (fun i : Fin nodes.length => ⟨nodes.get i, List.get_mem nodes i⟩) (by
      rintro ⟨y, hy⟩
      obtain ⟨i, hi⟩ := List.mem_iff_get.mp hy
      exact ⟨i, Subtype.ext hi⟩)
  have hwf : WellFounded (fun d x : {x // x ∈ nodes} => below d.1 x.1) :=
    Finite.wellFounded_of_trans_of_irrefl _
  have hmember : ∀ y : {x // x ∈ nodes}, Acc (fun d x => (x, d) ∈ edges) y.1 := by
    intro y
    induction y using hwf.induction with
    | _ y ih =>
      refine Acc.intro y.1 fun d hd => ?_
      by_cases hmem : d ∈ nodes
      · exact ih ⟨d, hmem⟩ (.single hd)
      · -- a node without edges
        exact Acc.intro d fun e he => absurd (hnodes d e he) hmem
  by_cases hmem : x ∈ nodes
  · exact hmember ⟨x, hmem⟩
  · exact Acc.intro x fun d hd => absurd (hnodes x d hd) hmem

/-- A chain that returns to its start leaves no such order. -/
theorem Ordered.acyclic (h : Ordered nodes edges order)
    (hnodes : ∀ x d, (x, d) ∈ edges → x ∈ nodes) (x : α) :
    ¬ Relation.TransGen (fun x d => (x, d) ∈ edges) x x := by
  intro hcycle
  obtain ⟨d, hd, -⟩ := Relation.TransGen.head'_iff.mp hcycle
  exact DepthFirst.not_transGen_self (h.acc x (hnodes x d hd)) hcycle

end Frontier
