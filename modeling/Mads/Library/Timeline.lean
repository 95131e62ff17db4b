import Mathlib.Data.List.Basic

/-!
# A line of steps, and a place on it

Each item leads from one state to the next. From a place on the line one can go forward over the
items ahead and back over the item behind, and at its end the line can grow.
-/

namespace Timeline

variable {α σ : Type*} {leads : α → σ → σ → Prop}

/-- Items that lead, one after the other, from one state to another. -/
inductive Line (leads : α → σ → σ → Prop) : List α → σ → σ → Prop
  | nil (s : σ) : Line leads [] s s
  | cons {item : α} {rest : List α} {s mid last : σ} (h : leads item s mid)
      (hrest : Line leads rest mid last) : Line leads (item :: rest) s last

section Lines

variable {front back : List α} {item : α} {s mid last : σ}

theorem Line.append (hfront : Line leads front s mid) (hback : Line leads back mid last) :
    Line leads (front ++ back) s last := by
  induction hfront with
  | nil => exact hback
  | cons h _ ih => exact .cons h (ih hback)

theorem Line.split (h : Line leads (front ++ back) s last) :
    ∃ mid, Line leads front s mid ∧ Line leads back mid last := by
  induction front generalizing s with
  | nil => exact ⟨s, .nil s, h⟩
  | cons item front ih =>
    cases h with
    | cons hitem hrest =>
      obtain ⟨mid, hfront, hback⟩ := ih hrest
      exact ⟨mid, .cons hitem hfront, hback⟩

theorem Line.singleton (h : leads item s last) : Line leads [item] s last :=
  .cons h (.nil last)

theorem Line.of_singleton (h : Line leads [item] s last) : leads item s last := by
  cases h with
  | cons hitem hrest =>
    cases hrest
    exact hitem

/-- What every item of a line keeps holds at its end. -/
theorem Line.keeps {items : List α} {P : σ → Prop} (h : Line leads items s last)
    (hkeeps : ∀ item ∈ items, ∀ s t, leads item s t → P s → P t) (hs : P s) : P last := by
  induction h with
  | nil => exact hs
  | cons hitem _ ih =>
    refine ih (fun item hmem => hkeeps item (List.mem_cons_of_mem _ hmem)) ?_
    exact hkeeps _ List.mem_cons_self _ _ hitem hs

end Lines

/-- A state that the first items of a line lead to, with a way on over the others. -/
structure Standing (leads : α → σ → σ → Prop) (start : σ) (items : List α) (count : ℕ) (s : σ) :
    Prop where
  le : count ≤ items.length
  behind : Line leads (items.take count) start s
  ahead : ∃ last, Line leads (items.drop count) s last

variable {start s last : σ} {items : List α} {item : α} {count : ℕ}

theorem Standing.nil (start : σ) : Standing leads start [] 0 start :=
  ⟨Nat.le_refl 0, .nil start, start, .nil start⟩

theorem Standing.forward (h : Standing leads start items count s) {n : ℕ}
    (hn : count + n ≤ items.length) : ∃ next, Line leads ((items.drop count).take n) s next ∧
      Standing leads start items (count + n) next := by
  obtain ⟨last, hahead⟩ := h.ahead
  rw [← List.take_append_drop n (items.drop count)] at hahead
  obtain ⟨next, hnext, hlast⟩ := hahead.split
  rw [List.drop_drop] at hlast
  refine ⟨next, hnext, hn, ?_, last, hlast⟩
  rw [List.take_add]
  exact h.behind.append hnext

theorem Standing.back (h : Standing leads start items (count + 1) s) :
    ∃ item before, items[count]? = some item ∧ leads item before s ∧
      Standing leads start items count before := by
  have hlt : count < items.length := h.le
  have htake : items.take (count + 1) = items.take count ++ [items[count]] :=
    List.take_succ_eq_append_getElem hlt
  have hdrop : items.drop count = items[count] :: items.drop (count + 1) :=
    List.drop_eq_getElem_cons hlt
  obtain ⟨last, hahead⟩ := h.ahead
  have hbehind := h.behind
  rw [htake] at hbehind
  obtain ⟨before, hbefore, hitem⟩ := hbehind.split
  refine ⟨items[count], before, List.getElem?_eq_getElem hlt, hitem.of_singleton,
    Nat.le_of_lt hlt, hbefore, last, ?_⟩
  rw [hdrop]
  exact .cons hitem.of_singleton hahead

/-- At its end a line can grow. -/
theorem Standing.grow (h : Standing leads start items items.length s) (hitem : leads item s last) :
    Standing leads start (items ++ [item]) items.length s := by
  refine ⟨by simp, ?_, last, ?_⟩
  · have hbehind := h.behind
    rw [List.take_length] at hbehind
    rwa [List.take_left]
  · rw [List.drop_left]
    exact .singleton hitem

end Timeline
