import Mathlib.Data.Fintype.Card
import Mathlib.Data.List.Chain
import Mads.Library.DepthFirst

/-!
# Breadth-first search for a path

The queue holds whole paths, in the order of their lengths. A vertex is marked when a path to it is
queued, so there is one queued path for each vertex, and it is a shortest one.
-/

namespace BreadthFirst

variable {α : Type*}

/-- The paths from a seed along the successors, and the vertices they end at. -/
inductive Path (next : α → List α) (seeds : List α) : List α → α → Prop
  | seed {v} (h : v ∈ seeds) : Path next seeds [v] v
  | step {path v w} (hpath : Path next seeds path v) (h : w ∈ next v) :
    Path next seeds (path ++ [w]) w

structure State (α : Type*) where
  visited : List α
  queue : List (List α)

def start (seeds : List α) : State α := ⟨seeds, seeds.map ([·])⟩

section Search

variable [DecidableEq α]

/-- Queues the path to a vertex that was not visited before. -/
def enqueue (path : List α) (st : State α) (v : α) : State α :=
  if v ∈ st.visited then st else ⟨st.visited ++ [v], st.queue ++ [path ++ [v]]⟩

/-- Takes paths off the queue until one ends at a goal; `none` where the fuel runs out. -/
def search (next : α → List α) (goal : α → Prop) [DecidablePred goal] :
    ℕ → State α → Option (Option (List α))
  | 0, _ => none
  | fuel + 1, st =>
    match st.queue with
    | [] => some none
    | path :: queue => do
      let v ← path.getLast?
      if goal v then some (some path)
      else search next goal fuel ((next v).foldl (enqueue path) ⟨st.visited, queue⟩)

end Search

/-- What a search is to find: a shortest path to a goal, or none where there is no path to one. -/
def Answers (next : α → List α) (goal : α → Prop) (seeds : List α) : Option (List α) → Prop
  | some path => (∃ v, Path next seeds path v ∧ goal v) ∧
      ∀ other w, Path next seeds other w → goal w → path.length ≤ other.length
  | none => ∀ path v, Path next seeds path v → ¬ goal v

/-! ### Paths -/

variable {next : α → List α} {goal : α → Prop} {seeds : List α} {path : List α} {v : α}

theorem Path.getLast? (h : Path next seeds path v) : path.getLast? = some v := by
  cases h with
  | seed => rfl
  | step => exact List.getLast?_concat

theorem Path.length_pos (h : Path next seeds path v) : 0 < path.length := by
  cases h with
  | seed => exact Nat.one_pos
  | step => simp

/-- A path begins at a seed, and each vertex of it is a successor of the one before. -/
theorem path_iff : Path next seeds path v ↔
    (∃ s ∈ path.head?, s ∈ seeds) ∧ path.IsChain (fun a b => b ∈ next a) ∧
      path.getLast? = some v := by
  constructor
  · intro h
    refine ⟨?_, ?_, h.getLast?⟩
    · induction h with
      | seed hv => exact ⟨_, rfl, hv⟩
      | step hpath _ ih =>
        obtain ⟨s, hs, hseed⟩ := ih
        exact ⟨s, by rw [List.head?_append, hs]; rfl, hseed⟩
    · induction h with
      | seed => exact .singleton _
      | step hpath hw ih =>
        refine List.isChain_append.mpr ⟨ih, .singleton _, fun a ha b hb => ?_⟩
        obtain rfl := Option.some.inj (hpath.getLast?.symm.trans ha)
        obtain rfl := Option.some.inj hb
        exact hw
  · rintro ⟨⟨s, hs, hseed⟩, hchain, hlast⟩
    induction path using List.reverseRecOn generalizing v with
    | nil => cases hlast
    | append_singleton path w ih =>
      obtain rfl : w = v := by simpa using hlast
      cases hpath : path.getLast? with
      | none =>
        obtain rfl := List.getLast?_eq_none_iff.mp hpath
        obtain rfl := Option.some.inj hs
        exact .seed hseed
      | some u =>
        obtain ⟨hchain, -, hlink⟩ := List.isChain_append.mp hchain
        refine .step (ih ?_ hchain hpath) (hlink u hpath w rfl)
        rw [List.head?_append] at hs
        cases hhead : path.head? with
        | none =>
          rw [List.head?_eq_none_iff.mp hhead] at hpath
          cases hpath
        | some first =>
          rw [hhead] at hs
          exact hs

/-- Where no chain of successors is endless, a finite graph has a path to every vertex, from one
that is no successor. -/
theorem exists_path [Finite α] (hchains : ∀ v, Acc (fun w u => w ∈ next u) v)
    (hseeds : ∀ v, (∀ u, v ∉ next u) → v ∈ seeds) (v : α) : ∃ path, Path next seeds path v := by
  let edge : α → α → Prop := fun u w => w ∈ next u
  have htrans : IsTrans α (Relation.TransGen edge) := ⟨fun _ _ _ => Relation.TransGen.trans⟩
  have hirrefl : Std.Irrefl (Relation.TransGen edge) :=
    ⟨fun w => DepthFirst.not_transGen_self (hchains w)⟩
  -- predecessors come before a vertex in an order without infinite descent
  have hwf : WellFounded (Relation.TransGen edge) := Finite.wellFounded_of_trans_of_irrefl _
  induction v using hwf.induction with
  | _ v ih =>
    by_cases hsome : ∃ u, v ∈ next u
    · obtain ⟨u, hu⟩ := hsome
      obtain ⟨path, hpath⟩ := ih u (.single hu)
      exact ⟨path ++ [v], .step hpath hu⟩
    · exact ⟨[v], .seed (hseeds v fun u hu => hsome ⟨u, hu⟩)⟩

/-! ### The invariant of the search -/

/-- The vertices that the queued paths end at. -/
def ends (queue : List (List α)) : List α := queue.filterMap List.getLast?

theorem ends_extended (path fresh : List α) : ends (fresh.map fun w => path ++ [w]) = fresh := by
  rw [ends, List.filterMap_map]
  have hlast : (List.getLast? ∘ fun w => path ++ [w]) = some := by
    funext w
    exact List.getLast?_concat
  rw [hlast, List.filterMap_some]

/-- The vertices taken off the queue, in order, with paths of at most `n` vertices: each vertex
visited is one of them or waits at the end of its path, and everything nearer was taken off. -/
structure Invariant (next : α → List α) (goal : α → Prop) (seeds : List α) (st : State α)
    (done : List α) (n : ℕ) : Prop where
  visited : st.visited = done ++ ends st.queue
  nodup : st.visited.Nodup
  seeds_visited : ∀ v ∈ seeds, v ∈ st.visited
  shortest : ∀ path ∈ st.queue, ∃ v, Path next seeds path v ∧
    ∀ other, Path next seeds other v → path.length ≤ other.length
  expanded : ∀ v ∈ done, ¬ goal v ∧ ∀ w ∈ next v, w ∈ st.visited
  lengths : ∀ path ∈ st.queue, n ≤ path.length ∧ path.length ≤ n + 1
  sorted : st.queue.Pairwise fun path other => path.length ≤ other.length
  near : ∀ path v, Path next seeds path v → path.length < n → v ∈ done

theorem Invariant.start (hseeds : seeds.Nodup) :
    Invariant next goal seeds (start seeds) [] 1 where
  visited := (ends_extended [] seeds).symm
  nodup := hseeds
  seeds_visited := fun _ hv => hv
  shortest := by
    intro path hpath
    obtain ⟨v, hv, rfl⟩ := List.mem_map.mp hpath
    exact ⟨v, .seed hv, fun other hother => hother.length_pos⟩
  expanded := by simp
  lengths := by
    intro path hpath
    obtain ⟨v, hv, rfl⟩ := List.mem_map.mp hpath
    exact ⟨le_rfl, Nat.le_succ 1⟩
  sorted := List.pairwise_map.mpr (List.pairwise_of_forall fun _ _ => le_rfl)
  near := by
    intro path v hpath hlt
    have hpos := hpath.length_pos
    omega

variable {st : State α} {done : List α} {n : ℕ}

/-- A path that is one step longer than those that were taken off ends at a visited vertex. -/
theorem Invariant.visited_of_path (h : Invariant next goal seeds st done n)
    (hpath : Path next seeds path v) (hlength : path.length ≤ n) : v ∈ st.visited := by
  cases hpath with
  | seed hv => exact h.seeds_visited v hv
  | step hpath hw =>
    rw [List.length_append, List.length_singleton] at hlength
    exact (h.expanded _ (h.near _ _ hpath (by omega))).2 _ hw

theorem Invariant.mem_ends_iff (h : Invariant next goal seeds st done n) :
    v ∈ ends st.queue ↔ ∃ path ∈ st.queue, Path next seeds path v ∧
      ∀ other, Path next seeds other v → path.length ≤ other.length := by
  rw [ends, List.mem_filterMap]
  constructor
  · rintro ⟨path, hmem, hlast⟩
    obtain ⟨w, hpath, hmin⟩ := h.shortest path hmem
    obtain rfl := Option.some.inj (hpath.getLast?.symm.trans hlast)
    exact ⟨path, hmem, hpath, hmin⟩
  · rintro ⟨path, hmem, hpath, -⟩
    exact ⟨path, hmem, hpath.getLast?⟩

/-- With no path of `n` vertices left, all vertices at the end of such a path were taken off. -/
theorem Invariant.rise (h : Invariant next goal seeds st done n) {queue : List (List α)}
    (hqueue : st.queue = path :: queue) (hlength : path.length = n + 1) :
    Invariant next goal seeds st done (n + 1) := by
  have hlengths : ∀ other ∈ st.queue, other.length = n + 1 := by
    have hsorted := h.sorted
    rw [hqueue, List.pairwise_cons] at hsorted
    intro other hother
    have hupper := (h.lengths other hother).2
    rw [hqueue, List.mem_cons] at hother
    obtain rfl | hother := hother
    · exact hlength
    · have hlower := hsorted.1 other hother
      omega
  refine { h with lengths := fun other hother => ?_, near := fun other v hother hlt => ?_ }
  · have heq := hlengths other hother
    omega
  · have hvisited := h.visited_of_path hother (by omega)
    rw [h.visited, List.mem_append] at hvisited
    refine hvisited.resolve_right fun hwaits => ?_
    -- a vertex that still waits is the end of a shortest path, which is longer than this one
    obtain ⟨queued, hqueued, -, hmin⟩ := h.mem_ends_iff.mp hwaits
    have heq := hlengths queued hqueued
    have hle := hmin other hother
    omega

theorem Invariant.level (h : Invariant next goal seeds st done n) {queue : List (List α)}
    (hqueue : st.queue = path :: queue) :
    ∃ n, Invariant next goal seeds st done n ∧ path.length = n := by
  obtain ⟨hlower, hupper⟩ := h.lengths path (hqueue ▸ List.mem_cons_self)
  obtain hlength | hlength := Nat.le_succ_iff.mp hupper
  · exact ⟨n, h, by omega⟩
  · exact ⟨n + 1, h.rise hqueue hlength, hlength⟩

/-- With an empty queue every vertex on a path was taken off. -/
theorem Invariant.exhausted (h : Invariant next goal seeds st done n) (hqueue : st.queue = [])
    (hpath : Path next seeds path v) : v ∈ done := by
  have hvisited : st.visited = done := by
    rw [h.visited, hqueue]
    exact List.append_nil _
  induction hpath with
  | seed hv => exact hvisited ▸ h.seeds_visited _ hv
  | step _ hw ih => exact hvisited ▸ (h.expanded _ ih).2 _ hw

section Search

variable [DecidableEq α]

/-- What a loop over the successors of a vertex adds. -/
theorem enqueue_spec (path ws : List α) (st : State α) (hnodup : st.visited.Nodup) :
    ∃ fresh, ws.foldl (enqueue path) st =
        ⟨st.visited ++ fresh, st.queue ++ fresh.map fun w => path ++ [w]⟩ ∧
      (st.visited ++ fresh).Nodup ∧ fresh ⊆ ws ∧ ∀ w ∈ ws, w ∈ st.visited ++ fresh := by
  induction ws generalizing st with
  | nil => exact ⟨[], by simp, by simpa using hnodup, by simp, by simp⟩
  | cons w ws ih =>
    rw [List.foldl_cons, enqueue]
    by_cases hvisited : w ∈ st.visited
    · rw [if_pos hvisited]
      obtain ⟨fresh, hfold, hfresh, hsubset, hall⟩ := ih st hnodup
      refine ⟨fresh, hfold, hfresh, fun u hu => List.mem_cons_of_mem _ (hsubset hu), ?_⟩
      exact List.forall_mem_cons.mpr ⟨List.mem_append_left _ hvisited, hall⟩
    · rw [if_neg hvisited]
      obtain ⟨fresh, hfold, hfresh, hsubset, hall⟩ := ih
        ⟨st.visited ++ [w], st.queue ++ [path ++ [w]]⟩
        (List.nodup_append.mpr ⟨hnodup, List.nodup_singleton w, fun u hu x hx => by
          rintro rfl
          exact hvisited (List.mem_singleton.mp hx ▸ hu)⟩)
      dsimp only at hfold hfresh hall
      rw [List.append_assoc, List.singleton_append] at hfold hfresh
      rw [List.append_assoc, List.singleton_append] at hfold
      refine ⟨w :: fresh, hfold, hfresh, List.cons_subset_cons _ hsubset, ?_⟩
      refine List.forall_mem_cons.mpr ⟨by simp, fun u hu => ?_⟩
      simpa using hall u hu

/-- Taking a path off the queue whose end is no goal, and queueing what it leads to. -/
theorem Invariant.expand (h : Invariant next goal seeds st done n) {queue : List (List α)}
    (hqueue : st.queue = path :: queue) (hlength : path.length = n)
    (hlast : path.getLast? = some v) (hgoal : ¬ goal v) :
    Invariant next goal seeds ((next v).foldl (enqueue path) ⟨st.visited, queue⟩)
      (done ++ [v]) n := by
  obtain ⟨fresh, hfold, hnodup, hsubset, hall⟩ := enqueue_spec path (next v)
    ⟨st.visited, queue⟩ h.nodup
  rw [hfold]
  have hpath : Path next seeds path v := by
    obtain ⟨w, hpath, -⟩ := h.shortest path (hqueue ▸ List.mem_cons_self)
    obtain rfl := Option.some.inj (hpath.getLast?.symm.trans hlast)
    exact hpath
  have hkept : ∀ other ∈ queue, other ∈ st.queue := fun other hother =>
    hqueue ▸ List.mem_cons_of_mem _ hother
  have hsorted := h.sorted
  rw [hqueue, List.pairwise_cons] at hsorted
  constructor
  case visited =>
    show st.visited ++ fresh = done ++ [v] ++ ends (queue ++ _)
    rw [h.visited, hqueue, ends, ends, List.filterMap_cons_some hlast, List.filterMap_append]
    show _ = done ++ [v] ++ (_ ++ ends _)
    rw [ends_extended]
    simp
  case nodup => exact hnodup
  case seeds_visited => exact fun u hu => List.mem_append_left _ (h.seeds_visited u hu)
  case shortest =>
    intro other hother
    obtain hother | hother := List.mem_append.mp hother
    · exact h.shortest other (hkept other hother)
    · obtain ⟨w, hw, rfl⟩ := List.mem_map.mp hother
      refine ⟨w, .step hpath (hsubset hw), fun shorter hshorter => ?_⟩
      -- a shorter path to the new vertex would have brought it among the visited ones
      by_contra hlt
      rw [List.length_append, List.length_singleton] at hlt
      have hvisited := h.visited_of_path hshorter (by omega)
      exact (List.nodup_append.mp hnodup).2.2 w hvisited w hw rfl
  case expanded =>
    intro u hu
    obtain hu | hu := List.mem_append.mp hu
    · exact ⟨(h.expanded u hu).1, fun w hw => List.mem_append_left _ ((h.expanded u hu).2 w hw)⟩
    · obtain rfl := List.mem_singleton.mp hu
      exact ⟨hgoal, hall⟩
  case lengths =>
    intro other hother
    obtain hother | hother := List.mem_append.mp hother
    · exact h.lengths other (hkept other hother)
    · obtain ⟨w, -, rfl⟩ := List.mem_map.mp hother
      rw [List.length_append, List.length_singleton]
      omega
  case sorted =>
    refine List.pairwise_append.mpr ⟨hsorted.2, ?_, fun other hother longer hlonger => ?_⟩
    · exact List.pairwise_map.mpr (List.pairwise_of_forall fun _ _ => by simp)
    · obtain ⟨w, -, rfl⟩ := List.mem_map.mp hlonger
      have hupper := (h.lengths other (hkept other hother)).2
      rw [List.length_append, List.length_singleton]
      omega
  case near =>
    exact fun other u hother hlt => List.mem_append_left _ (h.near other u hother hlt)

variable [Fintype α] [DecidablePred goal]

/-- With fuel for the vertices that are left, a search ends with an answer. -/
theorem Invariant.search (h : Invariant next goal seeds st done n) {fuel : ℕ}
    (hfuel : Fintype.card α < fuel + done.length) :
    ∃ result, search next goal fuel st = some result ∧ Answers next goal seeds result := by
  induction fuel generalizing st done n with
  | zero =>
    have hnodup : done.Nodup := (List.nodup_append.mp (h.visited ▸ h.nodup)).1
    have hle := hnodup.length_le_card
    omega
  | succ fuel ih =>
    rw [BreadthFirst.search]
    cases hqueue : st.queue with
    | nil =>
      refine ⟨none, rfl, fun path v hpath => ?_⟩
      exact (h.expanded v (h.exhausted hqueue hpath)).1
    | cons path queue =>
      obtain ⟨n, h, hlength⟩ := h.level hqueue
      obtain ⟨v, hpath, -⟩ := h.shortest path (hqueue ▸ List.mem_cons_self)
      have hlast := hpath.getLast?
      show ∃ result, (path.getLast?.bind fun v => if goal v then some (some path) else
        BreadthFirst.search next goal fuel
          ((next v).foldl (enqueue path) ⟨st.visited, queue⟩)) = some result ∧ _
      rw [hlast, Option.bind_some]
      by_cases hgoal : goal v
      · rw [if_pos hgoal]
        refine ⟨some path, rfl, ⟨v, hpath, hgoal⟩, fun other w hother hw => ?_⟩
        by_contra hlt
        exact (h.expanded w (h.near other w hother (by omega))).1 hw
      · rw [if_neg hgoal]
        refine ih (h.expand hqueue hlength hlast hgoal) ?_
        rw [List.length_append, List.length_singleton]
        omega

/-- A search from seeds ends with an answer. -/
theorem search_start (hseeds : seeds.Nodup) {fuel : ℕ} (hfuel : Fintype.card α < fuel) :
    ∃ result, search next goal fuel (start seeds) = some result ∧
      Answers next goal seeds result :=
  (Invariant.start hseeds).search (by simpa using hfuel)

end Search

end BreadthFirst
