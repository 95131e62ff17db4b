import Mathlib.Data.List.Nodup
import Mathlib.Data.List.Pairwise
import Mathlib.Data.List.SplitBy
import Mathlib.Order.Lattice

/-!
# Runs of equal keys

A list sorted by a key falls into runs: neighbours of one key. Each run holds all elements of its
key, so that a pass over the runs sees every key once.
-/

/-- Lists that share a key inside and differ in it from each other. -/
structure Runs {α κ : Type*} (key : α → κ) (runs : List (List α)) : Prop where
  ne_nil : ∀ run ∈ runs, run ≠ []
  same : ∀ run ∈ runs, ∀ x ∈ run, ∀ y ∈ run, key x = key y
  apart : runs.Pairwise (fun run later => ∀ x ∈ run, ∀ y ∈ later, key x ≠ key y)

namespace Runs

variable {α κ : Type*} {key : α → κ}

theorem same_of_isChain {run : List α} (h : run.IsChain (fun x y => key x = key y)) :
    ∀ x ∈ run, ∀ y ∈ run, key x = key y := by
  have : IsTrans α (fun x y => key x = key y) := ⟨fun _ _ _ => Eq.trans⟩
  have : Std.Symm (fun x y : α => key x = key y) := ⟨fun _ _ => Eq.symm⟩
  intro x hx y hy
  exact List.Pairwise.forall_of_forall (R := fun x y => key x = key y) (fun _ _ => rfl)
    h.pairwise hx hy

/-- In a sorted list the keys of the runs grow. -/
theorem pairwise_lt [LinearOrder κ] {runs : List (List α)} (hne : ∀ run ∈ runs, run ≠ [])
    (hsame : ∀ run ∈ runs, ∀ x ∈ run, ∀ y ∈ run, key x = key y)
    (hle : runs.Pairwise (fun run later => ∀ x ∈ run, ∀ y ∈ later, key x ≤ key y))
    (hchain : runs.IsChain (fun run next => ∃ x ∈ run, ∃ y ∈ next, key x ≠ key y)) :
    runs.Pairwise (fun run later => ∀ x ∈ run, ∀ y ∈ later, key x < key y) := by
  induction runs with
  | nil => exact .nil
  | cons run runs ih =>
    obtain ⟨hfirst, hrest⟩ := List.pairwise_cons.mp hle
    have hlater := ih (fun r hr => hne r (List.mem_cons_of_mem _ hr))
      (fun r hr => hsame r (List.mem_cons_of_mem _ hr)) hrest hchain.tail
    refine List.pairwise_cons.mpr ⟨?_, hlater⟩
    cases runs with
    | nil => simp
    | cons next runs =>
      -- the next run starts a new key, and the later ones are above it
      obtain ⟨a, ha, b, hb, hab⟩ := (List.isChain_cons_cons.mp hchain).1
      have hnext : ∀ x ∈ run, ∀ y ∈ next, key x < key y := by
        intro x hx y hy
        have hxa := hsame run List.mem_cons_self x hx a ha
        have hyb := hsame next (by simp) y hy b hb
        rw [hxa, hyb]
        exact lt_of_le_of_ne (hfirst next List.mem_cons_self a ha b hb) hab
      intro later hmem x hx y hy
      rcases List.mem_cons.mp hmem with rfl | hmem
      · exact hnext x hx y hy
      · exact (hnext x hx b hb).trans ((List.pairwise_cons.mp hlater).1 later hmem b hb y hy)

/-- The neighbours of one key in a sorted list. -/
theorem splitBy [LinearOrder κ] {xs : List α} (h : xs.Pairwise (fun x y => key x ≤ key y)) :
    Runs key (xs.splitBy (fun x y => key x = key y)) := by
  have hflat : (xs.splitBy (fun x y => key x = key y)).flatten = xs := List.flatten_splitBy ..
  rw [← hflat] at h
  obtain ⟨-, hle⟩ := List.pairwise_flatten.mp h
  have hne : ∀ run ∈ xs.splitBy (fun x y => key x = key y), run ≠ [] :=
    fun run hrun => List.ne_nil_of_mem_splitBy hrun
  have hsame : ∀ run ∈ xs.splitBy (fun x y => key x = key y),
      ∀ x ∈ run, ∀ y ∈ run, key x = key y := fun run hrun =>
    same_of_isChain ((List.isChain_of_mem_splitBy hrun).imp fun _ _ => of_decide_eq_true)
  have hchain : (xs.splitBy (fun x y => key x = key y)).IsChain
      (fun run next => ∃ x ∈ run, ∃ y ∈ next, key x ≠ key y) := by
    refine (List.isChain_getLast_head_splitBy _ xs).imp fun run next hstep => ?_
    obtain ⟨ha, hb, hne⟩ := hstep
    exact ⟨_, List.getLast_mem ha, _, List.head_mem hb, of_decide_eq_false hne⟩
  refine ⟨hne, hsame, (pairwise_lt hne hsame hle hchain).imp ?_⟩
  intro run later hlt x hx y hy
  exact ne_of_lt (hlt x hx y hy)

variable {runs : List (List α)}

theorem tail {run : List α} (h : Runs key (run :: runs)) : Runs key runs where
  ne_nil := fun r hr => h.ne_nil r (List.mem_cons_of_mem _ hr)
  same := fun r hr => h.same r (List.mem_cons_of_mem _ hr)
  apart := (List.pairwise_cons.mp h.apart).2

theorem disjoint {run later : List α} (h : Runs key (run :: runs)) (hlater : later ∈ runs) :
    ∀ x ∈ run, ∀ y ∈ later, key x ≠ key y :=
  (List.pairwise_cons.mp h.apart).1 later hlater

/-- A run holds all elements of its key. -/
theorem countP_eq [DecidableEq κ] (h : Runs key runs) :
    ∀ run ∈ runs, ∀ x ∈ run, runs.flatten.countP (fun y => key y = key x) = run.length := by
  induction runs with
  | nil => simp
  | cons first runs ih =>
    intro run hrun x hx
    rw [List.flatten_cons, List.countP_append]
    rcases List.mem_cons.mp hrun with rfl | hrun
    · have hall : run.countP (fun y => key y = key x) = run.length := by
        apply List.countP_eq_length.mpr
        intro y hy
        exact decide_eq_true (h.same run List.mem_cons_self y hy x hx)
      have hnone : runs.flatten.countP (fun y => key y = key x) = 0 := by
        apply List.countP_eq_zero.mpr
        intro y hy
        obtain ⟨later, hlater, hy⟩ := List.mem_flatten.mp hy
        have := h.disjoint hlater x hx y hy
        simpa using this.symm
      omega
    · have hnone : first.countP (fun y => key y = key x) = 0 := by
        apply List.countP_eq_zero.mpr
        intro y hy
        simpa using h.disjoint hrun y hy x hx
      rw [hnone, ih h.tail run hrun x hx, Nat.zero_add]

/-- The elements whose key no other element has are the runs of one element. -/
theorem filter_eq [DecidableEq κ] (h : Runs key runs) :
    runs.flatten.filter (fun x => runs.flatten.countP (fun y => key y = key x) = 1) =
      runs.flatMap (fun run => if run.length = 1 then run else []) := by
  have hcount := h.countP_eq
  rw [List.filter_flatten, ← List.flatMap_def]
  apply List.flatMap_congr
  intro run hrun
  by_cases hlength : run.length = 1
  · rw [if_pos hlength]
    apply List.filter_eq_self.mpr
    intro x hx
    exact decide_eq_true ((hcount run hrun x hx).trans hlength)
  · rw [if_neg hlength]
    apply List.filter_eq_nil_iff.mpr
    intro x hx
    rw [decide_eq_true_eq, hcount run hrun x hx]
    exact hlength

/-- The first element of a run of several. -/
def repeatedHead (run : List α) : List α :=
  match run with
  | first :: _ :: _ => [first]
  | _ => []

theorem mem_repeatedHead {run : List α} {x : α} (h : x ∈ repeatedHead run) :
    x ∈ run ∧ 1 < run.length := by
  match run with
  | [] => simp [repeatedHead] at h
  | [_] => simp [repeatedHead] at h
  | first :: second :: rest =>
    obtain rfl := List.mem_singleton.mp h
    simp

/-- Every key that occurs more than once has one head. -/
theorem mem_repeatedHeads [DecidableEq κ] (h : Runs key runs) {k : κ} :
    k ∈ (runs.flatMap repeatedHead).map key ↔ 1 < runs.flatten.countP (fun y => key y = k) := by
  constructor
  · intro hk
    obtain ⟨x, hx, rfl⟩ := List.mem_map.mp hk
    obtain ⟨run, hrun, hx⟩ := List.mem_flatMap.mp hx
    obtain ⟨hx, hlength⟩ := mem_repeatedHead hx
    rwa [h.countP_eq run hrun x hx]
  · intro hk
    obtain ⟨x, hx, hkey⟩ := List.countP_pos_iff.mp (Nat.zero_lt_of_lt hk)
    obtain rfl : key x = k := of_decide_eq_true hkey
    obtain ⟨run, hrun, hx⟩ := List.mem_flatten.mp hx
    rw [h.countP_eq run hrun x hx] at hk
    match run with
    | [] => simp at hk
    | [_] => simp at hk
    | first :: second :: rest =>
      refine List.mem_map.mpr ⟨first, List.mem_flatMap.mpr ⟨_, hrun, ?_⟩, ?_⟩
      · simp [repeatedHead]
      · exact h.same _ hrun first List.mem_cons_self x hx

theorem repeatedHeads_nodup (h : Runs key runs) :
    ((runs.flatMap repeatedHead).map key).Nodup := by
  induction runs with
  | nil => simp
  | cons run runs ih =>
    rw [List.flatMap_cons, List.map_append]
    apply List.Nodup.append _ (ih h.tail)
    · intro k hk hk'
      obtain ⟨x, hx, rfl⟩ := List.mem_map.mp hk
      obtain ⟨y, hy, hkey⟩ := List.mem_map.mp hk'
      obtain ⟨later, hlater, hy⟩ := List.mem_flatMap.mp hy
      exact h.disjoint hlater x (mem_repeatedHead hx).1 y (mem_repeatedHead hy).1 hkey.symm
    · match run with
      | [] => exact .nil
      | [_] => exact .nil
      | first :: _ :: _ => exact List.nodup_singleton _

end Runs
