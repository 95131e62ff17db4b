import Mathlib.Logic.Relation
import Mads.Library.Worklist

/-!
# Lists that grow while they are read

A list is read by its index, and what an entry leads to joins the end of the list, unless it is
there already. Once the index has passed the end, the list holds what its first entries lead to.
-/

namespace Discovery

open Worklist (Reached)

variable {α : Type*}

section Run

variable [DecidableEq α] (next : α → List α)

/-- Adds what is not there yet. -/
def add (found : List α) (w : α) : List α := if w ∈ found then found else found ++ [w]

/-- Reads the list from `index` on; `none` where the fuel runs out. -/
def run : ℕ → ℕ → List α → Option (List α)
  | 0, _, _ => none
  | fuel + 1, index, found =>
    match found[index]? with
    | none => some found
    | some v => run fuel (index + 1) ((next v).foldl add found)

end Run

/-- What was found is reached from the seeds and found once, and nothing that an entry before the
index leads to is missing. -/
structure Invariant (next : α → List α) (seeds : List α) (index : ℕ) (found : List α) : Prop where
  nodup : found.Nodup
  seeds_found : seeds ⊆ found
  reached : ∀ v ∈ found, Reached next seeds v
  read : ∀ v ∈ found.take index, ∀ w ∈ next v, w ∈ found
  index_le : index ≤ found.length

variable {next : α → List α} {seeds found : List α} {index : ℕ}

theorem Invariant.start (h : seeds.Nodup) : Invariant next seeds 0 seeds :=
  ⟨h, List.Subset.refl _, fun _ => .seed, by simp, Nat.zero_le _⟩

/-- From one seed, what is reached is what a chain of steps leads to. -/
theorem reached_singleton {seed v : α} :
    Reached next [seed] v ↔ Relation.ReflTransGen (fun u w => w ∈ next u) seed v := by
  constructor
  · intro h
    induction h with
    | seed h => rw [List.mem_singleton.mp h]
    | next _ hw ih => exact ih.tail hw
  · intro h
    induction h with
    | refl => exact .seed (List.mem_singleton_self seed)
    | tail _ hw ih => exact ih.next hw

/-- A list that was read to its end holds all that is reached from the seeds. -/
theorem Invariant.mem_iff (h : Invariant next seeds index found) (hend : found.length ≤ index)
    {v : α} : v ∈ found ↔ Reached next seeds v := by
  refine ⟨h.reached v, fun hv => ?_⟩
  induction hv with
  | seed hv => exact h.seeds_found hv
  | next _ hw ih =>
    refine h.read _ ?_ _ hw
    rwa [List.take_of_length_le hend]

section Run

variable [DecidableEq α]

theorem prefix_add (found : List α) (w : α) : found <+: add found w := by
  rw [add]
  split
  · exact List.prefix_refl _
  · exact List.prefix_append _ _

theorem mem_add {v w : α} : v ∈ add found w ↔ v ∈ found ∨ v = w := by
  rw [add]
  split
  · next hw =>
    constructor
    · exact .inl
    · rintro (hv | rfl)
      · exact hv
      · exact hw
  · simp

theorem nodup_add {w : α} (h : found.Nodup) : (add found w).Nodup := by
  rw [add]
  split
  · exact h
  · next hw =>
    rw [← List.concat_eq_append]
    exact h.concat hw

theorem prefix_foldl_add (found ws : List α) : found <+: ws.foldl add found := by
  induction ws generalizing found with
  | nil => exact List.prefix_refl _
  | cons w ws ih => exact (prefix_add found w).trans (ih _)

theorem mem_foldl_add {ws : List α} {v : α} : v ∈ ws.foldl add found ↔ v ∈ found ∨ v ∈ ws := by
  induction ws generalizing found with
  | nil => simp
  | cons w ws ih => rw [List.foldl_cons, ih, mem_add, List.mem_cons, or_assoc]

theorem nodup_foldl_add {ws : List α} (h : found.Nodup) : (ws.foldl add found).Nodup := by
  induction ws generalizing found with
  | nil => exact h
  | cons w ws ih => exact ih (nodup_add h)

/-- Reading one entry keeps the invariant. -/
theorem Invariant.advance {v : α} (h : Invariant next seeds index found)
    (hv : found[index]? = some v) :
    Invariant next seeds (index + 1) ((next v).foldl add found) := by
  have hmem : v ∈ found := List.mem_of_getElem? hv
  obtain ⟨more, hmore⟩ := prefix_foldl_add found (next v)
  have hlt : index < found.length := (List.getElem?_eq_some_iff.mp hv).1
  have htake : ((next v).foldl add found).take (index + 1) = found.take index ++ [v] := by
    rw [← hmore, List.take_append_of_le_length hlt, List.take_add_one, hv]
    rfl
  refine ⟨nodup_foldl_add h.nodup, fun w hw => mem_foldl_add.mpr (.inl (h.seeds_found hw)), ?_, ?_,
    ?_⟩
  · intro w hw
    obtain hw | hw := mem_foldl_add.mp hw
    · exact h.reached w hw
    · exact .next (h.reached v hmem) hw
  · rw [htake]
    intro u hu w hw
    obtain hu | hu := List.mem_append.mp hu
    · exact mem_foldl_add.mpr (.inl (h.read u hu w hw))
    · obtain rfl := List.mem_singleton.mp hu
      exact mem_foldl_add.mpr (.inr hw)
  · rw [← hmore, List.length_append]
    omega

/-- Where what is reached lies in a finite list, as much fuel reads the list to its end. -/
theorem run_spec {all : List α} (hall : ∀ v, Reached next seeds v → v ∈ all) (fuel : ℕ)
    (h : Invariant next seeds index found) (hfuel : all.length < fuel + index) :
    ∃ last, run next fuel index found = some last ∧ last.Nodup ∧
      ∀ v, v ∈ last ↔ Reached next seeds v := by
  have hlength : ∀ {index found}, Invariant next seeds index found → found.length ≤ all.length :=
    fun h => (h.nodup.subperm fun v hv => hall v (h.reached v hv)).length_le
  induction fuel generalizing index found with
  | zero =>
    have := hlength h
    have := h.index_le
    omega
  | succ fuel ih =>
    rw [run]
    cases hv : found[index]? with
    | none => exact ⟨found, rfl, h.nodup, fun v => h.mem_iff (List.getElem?_eq_none_iff.mp hv)⟩
    | some v => exact ih (h.advance hv) (by omega)

end Run

end Discovery
