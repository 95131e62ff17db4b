import Mathlib.Data.List.Sort

/-!
# Lists with one more element

A stable sort keeps the rest of a list as it is when an element is put in.
-/

/-- The second list is the first with `x` put in at some position. -/
inductive Inserted {α : Type*} (x : α) : List α → List α → Prop
  | here (xs : List α) : Inserted x xs (x :: xs)
  | there (a : α) {xs ys : List α} (h : Inserted x xs ys) : Inserted x (a :: xs) (a :: ys)

namespace Inserted

variable {α β : Type*} {x : α} {xs ys : List α}

theorem append (x : α) (front back : List α) : Inserted x (front ++ back) (front ++ x :: back) := by
  induction front with
  | nil => exact .here back
  | cons a front ih => exact .there a ih

theorem split (h : Inserted x xs ys) :
    ∃ front back, xs = front ++ back ∧ ys = front ++ x :: back := by
  induction h with
  | here xs => exact ⟨[], xs, rfl, rfl⟩
  | there a _ ih =>
    obtain ⟨front, back, hxs, hys⟩ := ih
    exact ⟨a :: front, back, by rw [hxs, List.cons_append], by rw [hys, List.cons_append]⟩

theorem mem_iff (h : Inserted x xs ys) {y : α} : y ∈ ys ↔ y = x ∨ y ∈ xs := by
  induction h with
  | here xs => exact List.mem_cons
  | there a _ ih =>
    rw [List.mem_cons, List.mem_cons, ih]
    tauto

theorem subset (h : Inserted x xs ys) : xs ⊆ ys := fun _ hy => h.mem_iff.mpr (.inr hy)

/-- A filter that drops the new element does not see it. -/
theorem filterMap_eq (h : Inserted x xs ys) {f : α → Option β} (hx : f x = none) :
    ys.filterMap f = xs.filterMap f := by
  induction h with
  | here xs => rw [List.filterMap_cons_none hx]
  | there a _ ih => simp only [List.filterMap_cons, ih]

theorem filter_eq (h : Inserted x xs ys) {p : α → Bool} (hx : p x = false) :
    ys.filter p = xs.filter p := by
  induction h with
  | here xs => exact List.filter_cons_of_neg (by simp [hx])
  | there a _ ih => simp only [List.filter_cons, ih]

theorem filter_inserted (h : Inserted x xs ys) {p : α → Bool} (hx : p x = true) :
    Inserted x (xs.filter p) (ys.filter p) := by
  induction h with
  | here xs =>
    rw [List.filter_cons_of_pos hx]
    exact .here _
  | there a _ ih =>
    by_cases ha : p a = true
    · rw [List.filter_cons_of_pos ha, List.filter_cons_of_pos ha]
      exact .there a ih
    · rw [List.filter_cons_of_neg ha, List.filter_cons_of_neg ha]
      exact ih

theorem countP_eq (h : Inserted x xs ys) (p : α → Bool) :
    ys.countP p = xs.countP p + if p x = true then 1 else 0 := by
  induction h with
  | here xs => rw [List.countP_cons]
  | there a _ ih =>
    rw [List.countP_cons, List.countP_cons, ih]
    omega

theorem length_eq (h : Inserted x xs ys) : ys.length = xs.length + 1 := by
  induction h with
  | here xs => rfl
  | there a _ ih => rw [List.length_cons, ih, List.length_cons]

section Sorting

variable (r : α → α → Prop) [DecidableRel r]

theorem orderedInsert_self (x : α) (xs : List α) : Inserted x xs (xs.orderedInsert r x) := by
  induction xs with
  | nil => exact .here []
  | cons a xs ih =>
    rw [List.orderedInsert_cons]
    split
    · exact .here (a :: xs)
    · exact .there a ih

/-- Inserting another element into a sorted list keeps the two lists in step. -/
theorem orderedInsert [IsTrans α r] (h : Inserted x xs ys) (a : α) (hsorted : ys.Pairwise r) :
    Inserted x (xs.orderedInsert r a) (ys.orderedInsert r a) := by
  induction h with
  | here xs =>
    rw [List.orderedInsert_cons]
    split
    · next hax =>
      -- everything behind `x` is above `a` too
      have hfirst : xs.orderedInsert r a = a :: xs := by
        cases xs with
        | nil => rfl
        | cons b xs =>
          have hxb : r x b := List.rel_of_pairwise_cons hsorted List.mem_cons_self
          exact List.orderedInsert_cons_of_le r xs (IsTrans.trans a x b hax hxb)
      rw [hfirst]
      exact .there a (.here xs)
    · exact .here _
  | there b _ ih =>
    rw [List.orderedInsert_cons, List.orderedInsert_cons]
    split
    · next h _ => exact .there a (.there b h)
    · exact .there b (ih hsorted.of_cons)

theorem insertionSort [Std.Total r] [IsTrans α r] (h : Inserted x xs ys) :
    Inserted x (xs.insertionSort r) (ys.insertionSort r) := by
  induction h with
  | here xs => exact orderedInsert_self r x _
  | there a _ ih => exact ih.orderedInsert r a (List.pairwise_insertionSort r _)

end Sorting

end Inserted

/-- Either the lists are the same, or an element was put in. -/
def InsertedOption {α : Type*} (x : Option α) (xs ys : List α) : Prop :=
  match x with
  | none => ys = xs
  | some x => Inserted x xs ys

namespace InsertedOption

variable {α : Type*} {x : Option α} {xs ys : List α}

theorem mem_iff (h : InsertedOption x xs ys) {y : α} : y ∈ ys ↔ x = some y ∨ y ∈ xs := by
  cases x with
  | none =>
    obtain rfl : ys = xs := h
    simp
  | some x => rw [Inserted.mem_iff h, Option.some.injEq, eq_comm]

theorem filter_eq (h : InsertedOption x xs ys) {p : α → Bool} (hx : ∀ a, x = some a → p a = false) :
    ys.filter p = xs.filter p := by
  cases x with
  | none => rw [show ys = xs from h]
  | some x => exact Inserted.filter_eq h (hx x rfl)

theorem find?_eq (h : InsertedOption x xs ys) {p : α → Bool} (hx : ∀ a, x = some a → p a = false) :
    ys.find? p = xs.find? p := by
  rw [← List.head?_filter, ← List.head?_filter, h.filter_eq hx]

/-- A count stays as it is exactly where the new element is not counted. -/
theorem countP_eq_iff (h : InsertedOption x xs ys) (p : α → Bool) :
    ys.countP p = xs.countP p ↔ ∀ a, x = some a → p a = false := by
  cases x with
  | none => simp [show ys = xs from h]
  | some x =>
    rw [Inserted.countP_eq h p]
    cases hx : p x <;> simp [hx]

end InsertedOption
