import Mathlib.Data.List.Nodup
import Mathlib.Data.List.Perm.Subperm

/-!
# Work lists that process each key once

A queue of items is taken from the front. An item whose key was processed before is dropped; any
other item is processed, and the items it leads to join the end of the queue.
-/

namespace Worklist

variable {ω κ : Type*}

/-- The items still queued and the items processed, in order. -/
structure State (ω : Type*) where
  queue : List ω
  done : List ω

/-- The items that some chain of processing leads to. -/
inductive Reached (next : ω → List ω) (seeds : List ω) : ω → Prop
  | seed {w} (h : w ∈ seeds) : Reached next seeds w
  | next {v w} (hv : Reached next seeds v) (h : w ∈ next v) : Reached next seeds w

section Run

variable [DecidableEq κ] (key : ω → κ) (next : ω → List ω)

/-- Takes one item off the queue. -/
def step (st : State ω) : State ω :=
  match st.queue with
  | [] => st
  | w :: rest =>
    if key w ∈ st.done.map key then { st with queue := rest }
    else { queue := rest ++ next w, done := st.done ++ [w] }

/-- Steps until the queue is empty; `none` where the fuel runs out. -/
def run : ℕ → State ω → Option (List ω)
  | 0, _ => none
  | fuel + 1, st =>
    match st.queue with
    | [] => some st.done
    | _ :: _ => run fuel (step key next st)

end Run

/-- Everything queued or processed is reached, each key is processed once, and nothing reached from
the seeds or a processed item was lost. -/
structure Invariant (key : ω → κ) (next : ω → List ω) (seeds : List ω) (st : State ω) :
    Prop where
  queued : ∀ w ∈ st.queue, Reached next seeds w
  processed : ∀ w ∈ st.done, Reached next seeds w
  nodup : (st.done.map key).Nodup
  seeds_kept : ∀ w ∈ seeds, key w ∈ st.done.map key ∨ key w ∈ st.queue.map key
  next_kept : ∀ v ∈ st.done, ∀ w ∈ next v, key w ∈ st.done.map key ∨ key w ∈ st.queue.map key

variable {key : ω → κ} {next : ω → List ω} {seeds : List ω} {st : State ω}

theorem Invariant.start (key : ω → κ) (next : ω → List ω) (seeds : List ω) :
    Invariant key next seeds ⟨seeds, []⟩ :=
  ⟨fun _ => .seed, by simp, List.nodup_nil, fun _ hw => .inr (List.mem_map_of_mem hw), by simp⟩

/-- Dropping an item whose key was processed loses nothing. -/
theorem Invariant.skip {w : ω} {rest : List ω} (h : Invariant key next seeds st)
    (hqueue : st.queue = w :: rest) (hw : key w ∈ st.done.map key) :
    Invariant key next seeds { st with queue := rest } := by
  have hkeep : ∀ k, k ∈ st.done.map key ∨ k ∈ st.queue.map key →
      k ∈ st.done.map key ∨ k ∈ rest.map key := by
    intro k hk
    rw [hqueue, List.map_cons, List.mem_cons] at hk
    obtain hk | rfl | hk := hk
    · exact .inl hk
    · exact .inl hw
    · exact .inr hk
  refine ⟨fun v hv => h.queued v ?_, h.processed, h.nodup, fun v hv => hkeep _ (h.seeds_kept v hv),
    fun v hv u hu => hkeep _ (h.next_kept v hv u hu)⟩
  rw [hqueue]
  exact List.mem_cons_of_mem _ hv

/-- Processing the first item with a new key queues what it leads to. -/
theorem Invariant.process {w : ω} {rest : List ω} (h : Invariant key next seeds st)
    (hqueue : st.queue = w :: rest) (hw : key w ∉ st.done.map key) :
    Invariant key next seeds ⟨rest ++ next w, st.done ++ [w]⟩ := by
  have hreached : Reached next seeds w := h.queued w (by simp [hqueue])
  have hkeep : ∀ k, k ∈ st.done.map key ∨ k ∈ st.queue.map key →
      k ∈ (st.done ++ [w]).map key ∨ k ∈ (rest ++ next w).map key := by
    intro k hk
    rw [hqueue, List.map_cons, List.mem_cons] at hk
    rw [List.map_append, List.map_append, List.mem_append, List.mem_append]
    obtain hk | rfl | hk := hk
    · exact .inl (.inl hk)
    · exact .inl (.inr (by simp))
    · exact .inr (.inl hk)
  refine ⟨fun v hv => ?_, fun v hv => ?_, ?_, fun v hv => hkeep _ (h.seeds_kept v hv),
    fun v hv u hu => ?_⟩
  · obtain hv | hv := List.mem_append.mp hv
    · exact h.queued v (by rw [hqueue]; exact List.mem_cons_of_mem _ hv)
    · exact .next hreached hv
  · obtain hv | hv := List.mem_append.mp hv
    · exact h.processed v hv
    · rwa [List.mem_singleton.mp hv]
  · rw [List.map_append]
    refine List.nodup_append.mpr ⟨h.nodup, List.nodup_singleton _, ?_⟩
    rintro a ha b hb rfl
    exact hw (List.mem_singleton.mp hb ▸ ha)
  · obtain hv | hv := List.mem_append.mp hv
    · exact hkeep _ (h.next_kept v hv u hu)
    · obtain rfl := List.mem_singleton.mp hv
      exact .inr (List.mem_map_of_mem (List.mem_append_right _ hu))

/-- Once the queue is empty, every reached key was processed, provided that the keys an item leads
to depend on its key only. -/
theorem Invariant.complete {done : List ω} (h : Invariant key next seeds ⟨[], done⟩)
    (hnext : ∀ v w, Reached next seeds v → Reached next seeds w → key v = key w →
      ∀ u ∈ next v, ∃ u' ∈ next w, key u' = key u)
    {w : ω} (hw : Reached next seeds w) : key w ∈ done.map key := by
  induction hw with
  | seed hw => exact (h.seeds_kept _ hw).resolve_right List.not_mem_nil
  | @next v w hv hw ih =>
    obtain ⟨v', hv', hkey⟩ := List.mem_map.mp ih
    obtain ⟨w', hw', hkey'⟩ := hnext v v' hv (h.processed v' hv') hkey.symm w hw
    rw [← hkey']
    exact (h.next_kept v' hv' w' hw').resolve_right List.not_mem_nil

/-- The work left: the queue, and what the keys not yet processed may still add to it. -/
def work (keys : List κ) (bound : ℕ) (st : State ω) : ℕ :=
  st.queue.length + (keys.length - st.done.length) * bound

section Run

variable [DecidableEq κ]

theorem Invariant.step (h : Invariant key next seeds st) :
    Invariant key next seeds (step key next st) := by
  unfold Worklist.step
  split
  · exact h
  · next w rest hqueue =>
    split
    · next hw => exact h.skip hqueue hw
    · next hw => exact h.process hqueue hw

/-- Every step takes work away, where the keys are finitely many. -/
theorem Invariant.work_step_lt {keys : List κ} {bound : ℕ} (h : Invariant key next seeds st)
    (hkeys : ∀ w, Reached next seeds w → key w ∈ keys)
    (hbound : ∀ w, Reached next seeds w → (next w).length ≤ bound) (hne : st.queue ≠ []) :
    work keys bound (Worklist.step key next st) < work keys bound st := by
  obtain ⟨w, rest, hqueue⟩ := List.exists_cons_of_ne_nil hne
  have hreached : Reached next seeds w := h.queued w (by simp [hqueue])
  simp only [Worklist.step, hqueue]
  split
  · simp [work, hqueue]
  · next hw =>
    have hprocess := h.process hqueue hw
    have hlength : (st.done ++ [w]).length ≤ keys.length := by
      have hsub : (st.done ++ [w]).map key ⊆ keys := fun k hk => by
        obtain ⟨v, hv, rfl⟩ := List.mem_map.mp hk
        exact hkeys v (hprocess.processed v hv)
      simpa using (hprocess.nodup.subperm hsub).length_le
    rw [List.length_append, List.length_singleton] at hlength
    obtain ⟨left, hleft⟩ : ∃ left, keys.length - st.done.length = left + 1 :=
      ⟨keys.length - st.done.length - 1, by omega⟩
    have hafter : keys.length - (st.done.length + 1) = left := by omega
    have := hbound w hreached
    simp only [work, List.length_append, hqueue, List.length_cons, List.length_nil, Nat.zero_add,
      hleft, hafter, Nat.add_mul, Nat.one_mul]
    omega

/-- With fuel for the work left, a run ends with an empty queue. -/
theorem run_ok {keys : List κ} {bound : ℕ}
    (hkeys : ∀ w, Reached next seeds w → key w ∈ keys)
    (hbound : ∀ w, Reached next seeds w → (next w).length ≤ bound) (fuel : ℕ) (st : State ω)
    (h : Invariant key next seeds st) (hfuel : work keys bound st < fuel) :
    ∃ done, run key next fuel st = some done ∧ Invariant key next seeds ⟨[], done⟩ := by
  induction fuel generalizing st with
  | zero => omega
  | succ fuel ih =>
    rw [run]
    cases hqueue : st.queue with
    | nil =>
      refine ⟨st.done, rfl, ?_⟩
      rw [← hqueue]
      exact h
    | cons w rest =>
      have hless := h.work_step_lt hkeys hbound (by simp [hqueue])
      exact ih _ h.step (by omega)

/-- More fuel does not change what a run ends with. -/
theorem run_unique {fuel more : ℕ} {st : State ω} {done done' : List ω}
    (h : run key next fuel st = some done) (h' : run key next more st = some done') :
    done = done' := by
  induction fuel generalizing more st with
  | zero => simp [run] at h
  | succ fuel ih =>
    cases more with
    | zero => simp [run] at h'
    | succ more =>
      rw [run] at h h'
      split at h
      · simp_all
      · next hqueue =>
        rw [hqueue] at h'
        exact ih h h'

/-- Two work lists whose items correspond run in step. -/
theorem run_map {ω' κ' : Type*} [DecidableEq κ'] {key' : ω' → κ'} {next' : ω' → List ω'}
    (f : ω → ω') (hkey : ∀ v w, key' (f v) = key' (f w) ↔ key v = key w)
    (hnext : ∀ w, Reached next seeds w → next' (f w) = (next w).map f) (fuel : ℕ) (st : State ω)
    (h : Invariant key next seeds st) :
    run key' next' fuel ⟨st.queue.map f, st.done.map f⟩ =
      (run key next fuel st).map (List.map f) := by
  induction fuel generalizing st with
  | zero => rfl
  | succ fuel ih =>
    rw [run, run]
    cases hqueue : st.queue with
    | nil => rfl
    | cons w rest =>
      have hmem : key' (f w) ∈ (st.done.map f).map key' ↔ key w ∈ st.done.map key := by
        simp only [List.map_map, List.mem_map, Function.comp_apply, hkey]
      rw [← ih _ h.step]
      simp only [List.map_cons]
      congr 1
      simp only [Worklist.step, hqueue]
      by_cases hw : key w ∈ st.done.map key
      · rw [if_pos hw, if_pos (hmem.mpr hw)]
      · rw [if_neg hw, if_neg (hmem.not.mpr hw), hnext w (h.queued w (by simp [hqueue]))]
        simp

end Run

end Worklist
