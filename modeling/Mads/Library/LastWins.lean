import Mathlib.Data.List.Induction

/-!
# Values that override earlier ones
-/

variable {α β : Type*} {select : α → Option β} {xs : List α} {x : α} {b : β}

/-- The value of the last element that has one. -/
def LastWins (select : α → Option β) (xs : List α) (b : β) : Prop :=
  ∃ front x back, xs = front ++ x :: back ∧ select x = some b ∧ ∀ y ∈ back, select y = none

namespace LastWins

theorem not_nil : ¬ LastWins select [] b := by
  rintro ⟨front, x, back, heq, -⟩
  simp at heq

/-- One more element overrides the others, unless it has no value. -/
theorem concat_iff : LastWins select (xs ++ [x]) b ↔
    select x = some b ∨ select x = none ∧ LastWins select xs b := by
  constructor
  · rintro ⟨front, y, back, heq, hy, hback⟩
    cases back using List.reverseRecOn with
    | nil =>
      obtain ⟨-, rfl⟩ := List.append_singleton_inj.mp heq
      exact .inl hy
    | append_singleton back last =>
      have hsplit : xs ++ [x] = front ++ y :: back ++ [last] := by simp [heq]
      obtain ⟨rfl, rfl⟩ := List.append_singleton_inj.mp hsplit
      exact .inr ⟨hback x (by simp), front, y, back, rfl, hy, fun z hz => hback z (by simp [hz])⟩
  · rintro (hx | ⟨hx, front, y, back, rfl, hy, hback⟩)
    · exact ⟨xs, x, [], rfl, hx, by simp⟩
    · refine ⟨front, y, back ++ [x], by simp, hy, fun z hz => ?_⟩
      obtain hz | hz := List.mem_append.mp hz
      · exact hback z hz
      · rw [List.mem_singleton.mp hz]
        exact hx

/-- Elements without a value do not matter, and neither does where the values are made. -/
theorem filterMap_iff {γ : Type*} {f : α → Option γ} {select : γ → Option β} :
    LastWins select (xs.filterMap f) b ↔ LastWins (fun x => (f x).bind select) xs b := by
  induction xs using List.reverseRecOn with
  | nil => exact Iff.rfl.trans (iff_of_false not_nil not_nil)
  | append_singleton xs x ih =>
    rw [List.filterMap_append, concat_iff, ← ih]
    cases hx : f x with
    | none => simp [hx]
    | some c =>
      rw [List.filterMap_cons_some hx, List.filterMap_nil, concat_iff, Option.bind_some]

theorem filter_iff {p : α → Bool} (h : ∀ x, p x = false → select x = none) :
    LastWins select (xs.filter p) b ↔ LastWins select xs b := by
  induction xs using List.reverseRecOn with
  | nil => rfl
  | append_singleton xs x ih =>
    rw [List.filter_append, concat_iff, ← ih]
    cases hp : p x with
    | false => simp [hp, h x hp]
    | true => rw [List.filter_cons_of_pos hp, List.filter_nil, concat_iff]

/-- What a loop makes of the elements, each of which overrides what was there, is the last value. -/
theorem iff_foldl {σ : Type*} (step : σ → α → σ) (read : σ → Option β) {start : σ}
    (hstart : read start = none)
    (hstep : ∀ s x, read (step s x) = (select x).or (read s)) :
    read (xs.foldl step start) = some b ↔ LastWins select xs b := by
  induction xs using List.reverseRecOn with
  | nil =>
    rw [List.foldl_nil, hstart]
    exact iff_of_false (by simp) not_nil
  | append_singleton xs x ih =>
    rw [List.foldl_append, List.foldl_cons, List.foldl_nil, hstep, concat_iff, ← ih]
    cases select x <;> simp

end LastWins
