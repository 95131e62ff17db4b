import Mathlib.Data.List.Perm.Basic
import Mathlib.Logic.Relation

/-!
# Depth-first preorder

`Traversal succ seen v ws order edges` is the big-step meaning of a depth-first search that stands
at `v`, has entered the nodes of `seen`, and still has to look at the successors `ws` of `v`: it
enters the nodes of `order` in this order and looks at the edges of `edges` in this order.
-/

namespace DepthFirst

open Relation

variable {α : Type*}

inductive Traversal (succ : α → List α) :
    List α → α → List α → List α → List (α × α) → Prop
  | nil {seen v} : Traversal succ seen v [] [] []
  | skip {seen v w ws order edges} (hw : w ∈ seen)
      (tail : Traversal succ seen v ws order edges) :
      Traversal succ seen v (w :: ws) order ((v, w) :: edges)
  | enter {seen v w ws below under order edges} (hw : w ∉ seen)
      (inner : Traversal succ (seen ++ [w]) w (succ w) below under)
      (tail : Traversal succ (seen ++ w :: below) v ws order edges) :
      Traversal succ seen v (w :: ws) (w :: below ++ order) ((v, w) :: under ++ edges)

/-- The edge relation of a successor function. -/
def Edge (succ : α → List α) (v w : α) : Prop := w ∈ succ v

namespace Traversal

variable {succ : α → List α} {seen ws order : List α} {v : α} {edges : List (α × α)}

theorem notMem_seen (h : Traversal succ seen v ws order edges) : ∀ w ∈ order, w ∉ seen := by
  induction h with
  | nil => simp
  | skip _ _ ih => exact ih
  | enter hw _ _ ihinner ihtail =>
    intro x hx hseen
    rcases List.mem_append.mp hx with hx | hx
    · rcases List.mem_cons.mp hx with rfl | hx
      · exact hw hseen
      · exact ihinner x hx (List.mem_append_left _ hseen)
    · exact ihtail x hx (List.mem_append_left _ hseen)

theorem nodup (h : Traversal succ seen v ws order edges) : order.Nodup := by
  induction h with
  | nil => exact List.nodup_nil
  | skip _ _ ih => exact ih
  | enter hw inner tail ihinner ihtail =>
    refine List.nodup_append.mpr ⟨List.nodup_cons.mpr ⟨fun hx => ?_, ihinner⟩, ihtail, ?_⟩
    · exact inner.notMem_seen _ hx (by simp)
    · rintro a ha b hb rfl
      exact tail.notMem_seen a hb (List.mem_append_right _ ha)

/-- Every successor that was looked at has been entered. -/
theorem covers (h : Traversal succ seen v ws order edges) : ∀ w ∈ ws, w ∈ seen ++ order := by
  induction h with
  | nil => simp
  | skip hw _ ih =>
    intro x hx
    rcases List.mem_cons.mp hx with rfl | hx
    · exact List.mem_append_left _ hw
    · exact ih x hx
  | enter _ _ _ _ ih =>
    intro x hx
    rcases List.mem_cons.mp hx with rfl | hx
    · simp
    · simpa using ih x hx

/-- The entered nodes are closed under successors. -/
theorem closed (h : Traversal succ seen v ws order edges) :
    ∀ w ∈ order, ∀ u ∈ succ w, u ∈ seen ++ order := by
  induction h with
  | nil => simp
  | skip _ _ ih => exact ih
  | enter _ inner _ ihinner ihtail =>
    intro x hx u hu
    rcases List.mem_append.mp hx with hx | hx
    · rcases List.mem_cons.mp hx with rfl | hx
      · have := inner.covers u hu
        simp only [List.mem_append, List.mem_cons] at this ⊢
        tauto
      · have := ihinner x hx u hu
        simp only [List.mem_append, List.mem_cons] at this ⊢
        tauto
    · simpa using ihtail x hx u hu

theorem reachable (h : Traversal succ seen v ws order edges) :
    ∀ x ∈ order, ∃ w ∈ ws, ReflTransGen (Edge succ) w x := by
  induction h with
  | nil => simp
  | skip _ _ ih =>
    intro x hx
    obtain ⟨w, hw, hr⟩ := ih x hx
    exact ⟨w, List.mem_cons_of_mem _ hw, hr⟩
  | @enter seen v w ws below under order edges _ _ _ ihinner ihtail =>
    intro x hx
    rcases List.mem_append.mp hx with hx | hx
    · refine ⟨w, List.mem_cons_self, ?_⟩
      rcases List.mem_cons.mp hx with rfl | hx
      · exact .refl
      · obtain ⟨u, hu, hr⟩ := ihinner x hx
        exact .head hu hr
    · obtain ⟨u, hu, hr⟩ := ihtail x hx
      exact ⟨u, List.mem_cons_of_mem _ hu, hr⟩

/-- The edges looked at are those of `v` in `ws` and all edges of the entered nodes, each as often
as it is listed. -/
theorem edges_perm (h : Traversal succ seen v ws order edges) :
    edges.Perm (ws.map (fun w => (v, w)) ++
      order.flatMap (fun x => (succ x).map (fun w => (x, w)))) := by
  induction h with
  | nil => simp
  | skip _ _ ih => simpa using ih
  | enter _ _ _ ihinner ihtail =>
    simp only [List.map_cons, List.cons_append, List.flatMap_cons, List.flatMap_append]
    refine List.Perm.cons _ ((ihinner.append ihtail).trans ?_)
    refine List.perm_append_comm_assoc _ _ _ |>.trans (List.Perm.append_left _ ?_)
    exact List.Perm.refl _ |>.trans (by simp)

/-- An edge that was looked at leads to a node that has been entered. -/
theorem target_mem (h : Traversal succ seen v ws order edges) :
    ∀ edge ∈ edges, edge.2 ∈ seen ++ order := by
  intro edge hedge
  rw [h.edges_perm.mem_iff, List.mem_append] at hedge
  obtain hedge | hedge := hedge
  · obtain ⟨w, hw, rfl⟩ := List.mem_map.mp hedge
    exact h.covers w hw
  · obtain ⟨x, hx, hedge⟩ := List.mem_flatMap.mp hedge
    obtain ⟨w, hw, rfl⟩ := List.mem_map.mp hedge
    exact h.closed x hx w hw

/-- The edges of a node are looked at in the order in which they are listed. -/
theorem edges_filter [DecidableEq α] (h : Traversal succ seen v ws order edges) (hv : v ∈ seen)
    (x : α) : edges.filter (fun edge => edge.1 = x) =
      if x = v then ws.map (v, ·) else if x ∈ order then (succ x).map (x, ·) else [] := by
  induction h with
  | nil => simp
  | @skip seen v w ws order edges hw _ ih =>
    by_cases hx : x = v
    · subst hx
      simp [ih hv]
    · simp [ih hv, hx, Ne.symm hx]
  | @enter seen v w ws below under order edges hw inner tail ihinner ihtail =>
    have hwv : w ≠ v := fun heq => hw (heq ▸ hv)
    have hbelow : ∀ y ∈ below, y ∉ seen ++ [w] := inner.notMem_seen
    have horder : ∀ y ∈ order, y ∉ seen ++ w :: below := tail.notMem_seen
    rw [List.cons_append, List.filter_cons, List.filter_append, ihinner (by simp),
      ihtail (by simp [hv])]
    by_cases hx : x = v
    · subst hx
      have hnot : x ∉ below := fun hmem => hbelow x hmem (by simp [hv])
      simp [Ne.symm hwv, hnot]
    · by_cases hxw : x = w
      · subst hxw
        have hnot : x ∉ order := fun hmem => horder x hmem (by simp)
        simp [hx, Ne.symm hx, hnot]
      · by_cases hxb : x ∈ below
        · have hnot : x ∉ order := fun hmem => horder x hmem (by simp [hxb])
          simp [hx, Ne.symm hx, hxw, hxb, hnot]
        · simp [hx, Ne.symm hx, hxw, hxb]

/-- A search from a root that has entered nothing else enters exactly what the root reaches. -/
theorem mem_iff_reachable {root x : α} {order : List α} {edges : List (α × α)}
    (h : Traversal succ [root] root (succ root) order edges) :
    x ∈ root :: order ↔ ReflTransGen (Edge succ) root x := by
  constructor
  · intro hx
    rcases List.mem_cons.mp hx with rfl | hx
    · exact .refl
    · obtain ⟨w, hw, hr⟩ := h.reachable x hx
      exact .head hw hr
  · intro hr
    induction hr with
    | refl => exact List.mem_cons_self
    | tail _ he ih =>
      rcases List.mem_cons.mp ih with rfl | ih
      · simpa using h.covers _ he
      · simpa using h.closed _ ih _ he

end Traversal

/-- A node below which every chain ends lies on no cycle. -/
theorem not_transGen_self {r : α → α → Prop} {v : α} (h : Acc (fun w v => r v w) v) :
    ¬ TransGen r v v := by
  induction h with
  | intro v _ ih =>
    intro hcycle
    obtain ⟨w, hvw, hwv⟩ := TransGen.head'_iff.mp hcycle
    exact ih w hvw (TransGen.tail' hwv hvw)

end DepthFirst
