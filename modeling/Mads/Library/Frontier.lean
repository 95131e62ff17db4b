import Mathlib.Data.List.Induction
import Mathlib.Data.List.Perm.Subperm
import Mathlib.Data.List.Sort

/-!
# Releasing nodes by counting their prerequisites

A graph is a list of edges `(dependent, prerequisite)`; an edge may occur several times. Every
node carries a counter of the edges that still hold it back, and the nodes whose counter is zero
wait in a queue that is kept in ascending order of a key. `drain` repeatedly takes the least
waiting node and releases its consumers.

`Greedy` says what such a run computes without counters: at each position the least node whose
prerequisites all stand before it, until no such node is left.
-/

namespace Frontier

section Greedy

variable {α κ : Type*} [LinearOrder κ] (key : α → κ) (nodes : List α) (edges : List (α × α))

/-- A node is ready after `done` when it is not in `done` but all its prerequisites are. -/
def IsReady (done : List α) (x : α) : Prop :=
  x ∈ nodes ∧ x ∉ done ∧ ∀ d, (x, d) ∈ edges → d ∈ done

/-- After `done`, always the least ready node is next, until no node is ready. -/
inductive Greedy : List α → List α → Prop
  | nil {done} (stuck : ∀ x, ¬ IsReady nodes edges done x) : Greedy done []
  | cons {done x rest} (ready : IsReady nodes edges done x)
      (least : ∀ y, IsReady nodes edges done y → key x ≤ key y)
      (tail : Greedy (done ++ [x]) rest) : Greedy done (x :: rest)

variable {key nodes edges}

theorem Greedy.mem_nodes {done order : List α} (h : Greedy key nodes edges done order) :
    ∀ x ∈ order, x ∈ nodes := by
  induction h with
  | nil _ => simp
  | cons ready _ _ ih => simpa using ⟨ready.1, ih⟩

theorem Greedy.notMem_done {done order : List α} (h : Greedy key nodes edges done order) :
    ∀ x ∈ order, x ∉ done := by
  induction h with
  | nil _ => simp
  | @cons done x rest ready _ _ ih =>
    intro y hy hd
    rcases List.mem_cons.mp hy with rfl | hy
    · exact ready.2.1 hd
    · exact ih y hy (List.mem_append_left _ hd)

theorem Greedy.nodup {done order : List α} (h : Greedy key nodes edges done order) :
    order.Nodup := by
  induction h with
  | nil _ => exact List.nodup_nil
  | @cons done x rest _ _ tail ih =>
    refine List.nodup_cons.mpr ⟨fun hx => ?_, ih⟩
    exact tail.notMem_done x hx (List.mem_append_right _ (List.mem_singleton_self x))

/-- Every prerequisite of a node stands before it. -/
theorem Greedy.prerequisite_before {done order : List α} (h : Greedy key nodes edges done order)
    {front back : List α} {x d : α} (horder : order = front ++ x :: back) (he : (x, d) ∈ edges) :
    d ∈ done ++ front := by
  induction h generalizing front with
  | nil _ => simp at horder
  | @cons done y rest ready _ _ ih =>
    cases front with
    | nil =>
      obtain ⟨rfl, -⟩ := List.cons.inj horder
      simpa using ready.2.2 d he
    | cons z front =>
      obtain ⟨rfl, hrest⟩ := List.cons.inj horder
      simpa using ih hrest

theorem Greedy.stuck {done order : List α} (h : Greedy key nodes edges done order) (x : α) :
    ¬ IsReady nodes edges (done ++ order) x := by
  induction h with
  | nil stuck => simpa using stuck x
  | cons _ _ _ ih => simpa using ih

/-- A greedy order leaves out no node below which every chain of prerequisites ends. -/
theorem Greedy.covers {order : List α} (h : Greedy key nodes edges [] order)
    (hclosed : ∀ x d, (x, d) ∈ edges → d ∈ nodes) {x : α} (hx : x ∈ nodes)
    (hacc : Acc (fun d x => (x, d) ∈ edges) x) : x ∈ order := by
  induction hacc with
  | intro x _ ih =>
    by_contra hout
    exact h.stuck x ⟨hx, by simpa using hout, fun d he => by
      simpa using ih d he (hclosed x d he)⟩

/-- Distinct keys leave no choice: a graph has at most one greedy order. -/
theorem Greedy.unique {done order order' : List α} (hkey : Function.Injective key)
    (h : Greedy key nodes edges done order) (h' : Greedy key nodes edges done order') :
    order = order' := by
  induction h generalizing order' with
  | nil stuck =>
    cases h' with
    | nil _ => rfl
    | cons ready _ _ => exact absurd ready (stuck _)
  | cons ready least _ ih =>
    cases h' with
    | nil stuck => exact absurd ready (stuck _)
    | cons ready' least' tail' =>
      obtain rfl := hkey (le_antisymm (least _ ready') (least' _ ready))
      rw [ih tail']

end Greedy

variable {α κ : Type*} [DecidableEq α] [LinearOrder κ]

/-- The number of edges each node starts from, and the nodes waiting for each node. -/
structure Links (α : Type*) where
  remaining : α → ℕ
  consumers : α → List α

def Links.empty : Links α := ⟨fun _ => 0, fun _ => []⟩

/-- Records one edge; a repeated edge is counted again. -/
def Links.add (l : Links α) (dependent prerequisite : α) : Links α :=
  ⟨Function.update l.remaining dependent (l.remaining dependent + 1),
    Function.update l.consumers prerequisite (l.consumers prerequisite ++ [dependent])⟩

def Links.ofEdges (edges : List (α × α)) : Links α :=
  edges.foldl (fun l e => l.add e.1 e.2) Links.empty

theorem Links.ofEdges_concat (edges : List (α × α)) (e : α × α) :
    ofEdges (edges ++ [e]) = (ofEdges edges).add e.1 e.2 := by
  simp [ofEdges]

theorem Links.ofEdges_remaining (edges : List (α × α)) (x : α) :
    (ofEdges edges).remaining x = edges.countP (fun e => e.1 = x) := by
  induction edges using List.reverseRecOn with
  | nil => rfl
  | append_singleton edges e ih =>
    rw [ofEdges_concat, List.countP_append, ← ih]
    by_cases h : e.1 = x
    · subst h
      simp [add]
    · simp [add, h, Function.update_of_ne (Ne.symm h)]

theorem Links.ofEdges_consumers (edges : List (α × α)) (x : α) :
    (ofEdges edges).consumers x = (edges.filter (fun e => e.2 = x)).map Prod.fst := by
  induction edges using List.reverseRecOn with
  | nil => rfl
  | append_singleton edges e ih =>
    rw [ofEdges_concat, List.filter_append, List.map_append, ← ih]
    by_cases h : e.2 = x
    · subst h
      simp [add]
    · simp [add, h, Function.update_of_ne (Ne.symm h)]

/-- The running counters and the ascending queue of nodes that nothing holds back. -/
structure State (α : Type*) where
  remaining : α → ℕ
  ready : List α

/-- Insertion into an ordered set: a node already waiting is not queued twice. -/
def enqueue (key : α → κ) (x : α) (ready : List α) : List α :=
  if x ∈ ready then ready else ready.orderedInsert (fun a b => key a ≤ key b) x

/-- Takes one edge off a node and queues the node with its last one. The result is `none` where
the counter would drop below zero. -/
def release (key : α → κ) (st : State α) (x : α) : Option (State α) :=
  match st.remaining x with
  | 0 => none
  | k + 1 => some
      { remaining := Function.update st.remaining x k
        ready := if k = 0 then enqueue key x st.ready else st.ready }

def releaseAll (key : α → κ) (st : State α) (xs : List α) : Option (State α) :=
  xs.foldlM (release key) st

/-- Takes queued nodes in ascending order until none is left; `none` also when the fuel runs
out. -/
def drain (key : α → κ) (consumers : α → List α) :
    ℕ → State α → List α → Option (List α)
  | 0, _, _ => none
  | fuel + 1, st, done =>
    match st.ready with
    | [] => some done
    | x :: rest => do
      let st ← releaseAll key { st with ready := rest } (consumers x)
      drain key consumers fuel st (done ++ [x])

/-- A run only ever appends to the order. -/
theorem drain_prefix {key : α → κ} {consumers : α → List α} {fuel : ℕ} {st : State α}
    {done order : List α} (h : drain key consumers fuel st done = some order) :
    done <+: order := by
  induction fuel generalizing st done with
  | zero => simp [drain] at h
  | succ fuel ih =>
    rw [drain] at h
    split at h
    · obtain rfl : done = order := by simpa using h
      exact List.prefix_rfl
    · simp only [Option.bind_eq_bind, Option.bind_eq_some_iff] at h
      obtain ⟨next, _, hdrain⟩ := h
      exact (List.prefix_append _ _).trans (ih hdrain)

/-- The counters of a fresh run, with the nodes that have no prerequisite queued. -/
def start (key : α → κ) (nodes : List α) (links : Links α) : State α where
  remaining := links.remaining
  ready := (nodes.filter (fun x => links.remaining x = 0)).foldl
    (fun ready x => enqueue key x ready) []

section Run

variable {key : α → κ} {nodes : List α} {edges : List (α × α)}

/-- Edges of `x` whose prerequisite is still missing. -/
def pending (edges : List (α × α)) (done : List α) (x : α) : ℕ :=
  edges.countP (fun e => e.1 = x ∧ e.2 ∉ done)

theorem pending_eq_zero {done : List α} {x : α} :
    pending edges done x = 0 ↔ ∀ d, (x, d) ∈ edges → d ∈ done := by
  simp only [pending, List.countP_eq_zero, decide_eq_true_eq, not_and, not_not, Prod.forall]
  constructor
  · intro h d he
    exact h x d he rfl
  · rintro h a d he rfl
    exact h d he

theorem pending_nil (x : α) : pending edges [] x = (Links.ofEdges edges).remaining x := by
  simp [pending, Links.ofEdges_remaining]

/-- Finishing `x` settles exactly the edges that end in `x`. -/
theorem pending_concat {done : List α} {x : α} (hx : x ∉ done) (y : α) :
    pending edges done y =
      pending edges (done ++ [x]) y + ((Links.ofEdges edges).consumers x).count y := by
  rw [Links.ofEdges_consumers]
  unfold pending
  induction edges with
  | nil => rfl
  | cons e edges ih =>
    simp only [List.countP_cons, ih, List.filter_cons, List.mem_append, List.mem_singleton]
    by_cases h2 : e.2 = x
    · by_cases h1 : e.1 = y
      · simp [h1, h2, hx]
        omega
      · simp [h1, h2]
    · by_cases h1 : e.1 = y
      · simp only [h1, h2, true_and, or_false, decide_false, Bool.false_eq_true, if_false]
        omega
      · simp [h1, h2]

/-- The queue holds exactly the unfinished nodes whose counter is zero, in ascending order. -/
structure Queued (key : α → κ) (nodes done : List α) (st : State α) : Prop where
  mem : ∀ x, x ∈ st.ready ↔ x ∈ nodes ∧ x ∉ done ∧ st.remaining x = 0
  sorted : st.ready.Pairwise (fun a b => key a < key b)

theorem mem_enqueue {x y : α} {ready : List α} :
    y ∈ enqueue key x ready ↔ y = x ∨ y ∈ ready := by
  unfold enqueue
  split
  · next h => exact ⟨Or.inr, by rintro (rfl | h') <;> assumption⟩
  · rw [List.mem_orderedInsert]

theorem enqueue_sorted (hkey : Function.Injective key) {x : α} {ready : List α}
    (h : ready.Pairwise (fun a b => key a < key b)) :
    (enqueue key x ready).Pairwise (fun a b => key a < key b) := by
  unfold enqueue
  split
  · exact h
  · next hx =>
    induction ready with
    | nil => simp
    | cons a ready ih =>
      obtain ⟨ha, hr⟩ := List.pairwise_cons.mp h
      have hne : key x ≠ key a := fun he => hx (by simp [hkey he])
      rw [List.orderedInsert_cons]
      split
      · next hle =>
        have hlt : key x < key a := lt_of_le_of_ne hle hne
        refine List.pairwise_cons.mpr ⟨fun b hb => ?_, h⟩
        rcases List.mem_cons.mp hb with rfl | hb
        · exact hlt
        · exact hlt.trans (ha b hb)
      · next hle =>
        refine List.pairwise_cons.mpr ⟨fun b hb => ?_, ih hr (fun hm => hx (by simp [hm]))⟩
        rcases (List.mem_orderedInsert _).mp hb with rfl | hb
        · exact lt_of_not_ge hle
        · exact ha b hb

/-- One release keeps the queue exact. -/
theorem release_queued (hkey : Function.Injective key) {done : List α} {st : State α} {x : α}
    (h : Queued key nodes done st) (hx : x ∈ nodes) (hd : x ∉ done) (hpos : 0 < st.remaining x) :
    ∃ st', release key st x = some st' ∧
      st'.remaining = Function.update st.remaining x (st.remaining x - 1) ∧
      Queued key nodes done st' := by
  obtain ⟨k, hk⟩ : ∃ k, st.remaining x = k + 1 := ⟨st.remaining x - 1, by omega⟩
  refine ⟨_, by simp only [release, hk]; rfl, by simp [hk], ⟨fun y => ?_, ?_⟩⟩
  · by_cases hy : y = x
    · subst hy
      by_cases hk0 : k = 0
      · simp [hk0, mem_enqueue, hx, hd]
      · simp [hk0, h.mem, hk]
    · by_cases hk0 : k = 0
      · simp [hk0, mem_enqueue, hy, h.mem]
      · simp [hk0, hy, h.mem]
  · dsimp only
    split
    · exact enqueue_sorted hkey h.sorted
    · exact h.sorted

/-- Releasing a list of unfinished nodes takes each counter down by the node's occurrences. -/
theorem releaseAll_queued (hkey : Function.Injective key) {done : List α} (target : α → ℕ)
    (xs : List α) (st : State α) (h : Queued key nodes done st)
    (hxs : ∀ x ∈ xs, x ∈ nodes ∧ x ∉ done)
    (hcount : ∀ y, st.remaining y = target y + xs.count y) :
    ∃ st', releaseAll key st xs = some st' ∧ st'.remaining = target ∧
      Queued key nodes done st' := by
  induction xs generalizing st with
  | nil => exact ⟨st, rfl, funext fun y => by simpa using hcount y, h⟩
  | cons x xs ih =>
    obtain ⟨hx, hd⟩ := hxs x List.mem_cons_self
    have hpos : 0 < st.remaining x := by
      have := hcount x
      simp only [List.count_cons_self] at this
      omega
    obtain ⟨st₁, hrel, hrem, hq⟩ := release_queued hkey h hx hd hpos
    obtain ⟨st', hall, htarget, hq'⟩ := ih st₁ hq (fun y hy => hxs y (List.mem_cons_of_mem _ hy))
      (fun y => by
        have hy := hcount y
        by_cases hyx : y = x
        · subst hyx
          simp only [hrem, Function.update_self, List.count_cons_self] at hy ⊢
          omega
        · rw [hrem, Function.update_of_ne hyx, hy, List.count_cons_of_ne (Ne.symm hyx)])
    exact ⟨st', by simp only [releaseAll, List.foldlM_cons, hrel]; exact hall, htarget, hq'⟩

/-- What the counters and the queue mean after the nodes of `done` were taken. -/
structure Tracks (key : α → κ) (nodes : List α) (edges : List (α × α)) (done : List α)
    (st : State α) : Prop where
  remaining : ∀ x, st.remaining x = pending edges done x
  queued : Queued key nodes done st
  closed : ∀ x ∈ done, ∀ d, (x, d) ∈ edges → d ∈ done

theorem Tracks.mem_ready {done : List α} {st : State α} (h : Tracks key nodes edges done st)
    (x : α) : x ∈ st.ready ↔ IsReady nodes edges done x := by
  rw [h.queued.mem, h.remaining, pending_eq_zero, IsReady]

/-- One round of the loop: the head of the queue is the least ready node, and releasing its
consumers tracks the longer order. -/
theorem Tracks.step (hkey : Function.Injective key)
    (hnodes : ∀ x d, (x, d) ∈ edges → x ∈ nodes) {done rest : List α} {st : State α} {x : α}
    (h : Tracks key nodes edges done st) (hready : st.ready = x :: rest) :
    IsReady nodes edges done x ∧ (∀ y, IsReady nodes edges done y → key x ≤ key y) ∧
      ∃ st', releaseAll key { st with ready := rest } ((Links.ofEdges edges).consumers x) =
          some st' ∧ Tracks key nodes edges (done ++ [x]) st' := by
  have hx : IsReady nodes edges done x := (h.mem_ready x).mp (by simp [hready])
  obtain ⟨hlt, hrest⟩ := List.pairwise_cons.mp (hready ▸ h.queued.sorted)
  have hnext : Queued key nodes (done ++ [x]) { st with ready := rest } := by
    refine ⟨fun y => ?_, hrest⟩
    have hy := h.queued.mem y
    rw [hready, List.mem_cons] at hy
    simp only [List.mem_append, List.mem_singleton, not_or]
    constructor
    · intro hm
      obtain ⟨hn, hd, hr⟩ := hy.mp (Or.inr hm)
      exact ⟨hn, ⟨hd, fun he => lt_irrefl _ (he ▸ hlt y hm)⟩, hr⟩
    · rintro ⟨hn, ⟨hd, hne⟩, hr⟩
      exact (hy.mpr ⟨hn, hd, hr⟩).resolve_left hne
  refine ⟨hx, fun y hy => ?_, ?_⟩
  · have hm := (h.mem_ready y).mpr hy
    rw [hready, List.mem_cons] at hm
    rcases hm with rfl | hm
    · exact le_rfl
    · exact (hlt y hm).le
  · -- a consumer of `x` is unfinished, since finished nodes have finished prerequisites
    have hconsumers : ∀ y ∈ (Links.ofEdges edges).consumers x, y ∈ nodes ∧ y ∉ done ++ [x] := by
      intro y hy
      have he : (y, x) ∈ edges := by
        rw [Links.ofEdges_consumers] at hy
        simpa using hy
      refine ⟨hnodes y x he, ?_⟩
      simp only [List.mem_append, List.mem_singleton, not_or]
      exact ⟨fun hd => hx.2.1 (h.closed y hd x he), by rintro rfl; exact hx.2.1 (hx.2.2 _ he)⟩
    obtain ⟨st', hall, hrem, hq⟩ := releaseAll_queued hkey (pending edges (done ++ [x])) _ _ hnext
      hconsumers (fun y => by rw [h.remaining, pending_concat hx.2.1])
    refine ⟨st', hall, ⟨fun y => by rw [hrem], hq, ?_⟩⟩
    intro y hy d he
    rcases List.mem_append.mp hy with hy | hy
    · exact List.mem_append_left _ (h.closed y hy d he)
    · obtain rfl := List.mem_singleton.mp hy
      exact List.mem_append_left _ (hx.2.2 d he)

theorem foldl_enqueue_queued (hkey : Function.Injective key) (xs : List α) (ready : List α)
    (hr : ready.Pairwise (fun a b => key a < key b)) :
    (∀ x, x ∈ xs.foldl (fun ready x => enqueue key x ready) ready ↔ x ∈ xs ∨ x ∈ ready) ∧
      (xs.foldl (fun ready x => enqueue key x ready) ready).Pairwise
        (fun a b => key a < key b) := by
  induction xs generalizing ready with
  | nil => simpa using hr
  | cons a xs ih =>
    obtain ⟨hmem, hsorted⟩ := ih (enqueue key a ready) (enqueue_sorted hkey hr)
    refine ⟨fun x => ?_, hsorted⟩
    rw [List.foldl_cons, hmem, mem_enqueue, List.mem_cons]
    tauto

/-- A fresh run tracks the empty order. -/
theorem start_tracks (hkey : Function.Injective key) :
    Tracks key nodes edges [] (start key nodes (Links.ofEdges edges)) := by
  have h := foldl_enqueue_queued hkey
    (nodes.filter (fun x => (Links.ofEdges edges).remaining x = 0)) [] List.Pairwise.nil
  refine ⟨fun x => (pending_nil x).symm, ⟨fun x => ?_, h.2⟩, by simp⟩
  simpa [start] using h.1 x

/-- With one round of fuel for each unfinished node the loop ends, and what it appends is the
greedy order of the remaining nodes. -/
theorem drain_greedy (hkey : Function.Injective key)
    (hnodes : ∀ x d, (x, d) ∈ edges → x ∈ nodes) (fuel : ℕ) (done : List α) (st : State α)
    (h : Tracks key nodes edges done st) (hnodup : done.Nodup) (hsub : done ⊆ nodes)
    (hfuel : nodes.length < fuel + done.length) :
    ∃ rest, drain key (Links.ofEdges edges).consumers fuel st done = some (done ++ rest) ∧
      Greedy key nodes edges done rest := by
  induction fuel generalizing done st with
  | zero =>
    have := (hnodup.subperm hsub).length_le
    omega
  | succ fuel ih =>
    cases hready : st.ready with
    | nil =>
      refine ⟨[], by simp [drain, hready], .nil fun x hx => ?_⟩
      simpa [hready] using (h.mem_ready x).mpr hx
    | cons x waiting =>
      obtain ⟨hx, hleast, st', hall, htracks⟩ := h.step hkey hnodes hready
      obtain ⟨rest, hdrain, hgreedy⟩ := ih (done ++ [x]) st' htracks
        (List.nodup_append.mpr ⟨hnodup, List.nodup_singleton x, by
          rintro a ha b hb rfl
          exact hx.2.1 (List.mem_singleton.mp hb ▸ ha)⟩)
        (by simpa using ⟨hsub, hx.1⟩)
        (by simp only [List.length_append, List.length_singleton]; omega)
      refine ⟨x :: rest, ?_, .cons hx hleast hgreedy⟩
      simp only [drain, hready, hall, Option.bind_eq_bind, Option.bind_some]
      rw [hdrain, List.append_assoc, List.singleton_append]

/-- A whole run from the fresh counters yields the greedy order of the graph. -/
theorem drain_start (hkey : Function.Injective key)
    (hnodes : ∀ x d, (x, d) ∈ edges → x ∈ nodes) {fuel : ℕ} (hfuel : nodes.length < fuel) :
    ∃ order, drain key (Links.ofEdges edges).consumers fuel
        (start key nodes (Links.ofEdges edges)) [] = some order ∧
      Greedy key nodes edges [] order := by
  obtain ⟨order, hdrain, hgreedy⟩ := drain_greedy hkey hnodes fuel [] _ (start_tracks hkey)
    List.nodup_nil (List.nil_subset _) (by simpa using hfuel)
  exact ⟨order, by simpa using hdrain, hgreedy⟩

end Run

end Frontier
