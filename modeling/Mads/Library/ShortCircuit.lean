import Mathlib.Data.List.Basic

/-!
# Questions that are asked in turn

The answers may depend on what has been asked before, and the first refusal ends the round.
-/

variable {π ρ σ : Type*}

/-- Asks for all of the questions, up to the first refusal. -/
def askAll (ask : π → σ → Bool × σ) : List π → σ → Bool × σ
  | [], s => (true, s)
  | p :: ps, s =>
    match ask p s with
    | (true, after) => askAll ask ps after
    | (false, after) => (false, after)

/-- Each question is accepted, in the state that the ones before it leave. -/
inductive Accepted (ask : π → σ → Bool × σ) : List π → σ → σ → Prop
  | nil (s : σ) : Accepted ask [] s s
  | cons {p : π} {ps : List π} {s middle after : σ} (hp : ask p s = (true, middle))
      (hps : Accepted ask ps middle after) : Accepted ask (p :: ps) s after

variable {ask : π → σ → Bool × σ} {ps : List π} {s after : σ}

theorem askAll_eq_true : askAll ask ps s = (true, after) ↔ Accepted ask ps s after := by
  induction ps generalizing s with
  | nil =>
    constructor
    · rintro ⟨⟩
      exact .nil _
    · rintro ⟨⟩
      rfl
  | cons p ps ih =>
    rw [askAll]
    cases hp : ask p s with
    | mk answer middle =>
      cases answer with
      | true =>
        refine ih.trans ⟨.cons hp, ?_⟩
        rintro (_ | ⟨hp', hps⟩)
        cases hp.symm.trans hp'
        exact hps
      | false =>
        refine iff_of_false nofun ?_
        rintro (_ | ⟨hp', -⟩)
        cases hp.symm.trans hp'

/-- A refusal comes from the first question that is not accepted, and no later one is asked. -/
theorem askAll_eq_false : askAll ask ps s = (false, after) ↔
    ∃ front p back middle, ps = front ++ p :: back ∧ Accepted ask front s middle ∧
      ask p middle = (false, after) := by
  induction ps generalizing s with
  | nil =>
    refine iff_of_false nofun ?_
    rintro ⟨front, p, back, _, hps, -⟩
    simp at hps
  | cons p ps ih =>
    rw [askAll]
    cases hp : ask p s with
    | mk answer middle =>
      cases answer with
      | true =>
        refine ih.trans ⟨?_, ?_⟩
        · rintro ⟨front, q, back, last, rfl, hfront, hq⟩
          exact ⟨p :: front, q, back, last, rfl, .cons hp hfront, hq⟩
        · rintro ⟨front, q, back, last, hps, hfront, hq⟩
          cases hfront with
          | nil =>
            obtain ⟨rfl, -⟩ := List.cons.inj hps
            cases hp.symm.trans hq
          | cons hp' hrest =>
            obtain ⟨rfl, rfl⟩ := List.cons.inj hps
            cases hp.symm.trans hp'
            exact ⟨_, q, back, last, rfl, hrest, hq⟩
      | false =>
        constructor
        · rintro ⟨⟩
          exact ⟨[], p, ps, s, rfl, .nil _, hp⟩
        · rintro ⟨front, q, back, last, hps, hfront, hq⟩
          cases hfront with
          | nil =>
            obtain ⟨rfl, -⟩ := List.cons.inj hps
            exact hp.symm.trans hq
          | cons hp' _ =>
            obtain ⟨rfl, -⟩ := List.cons.inj hps
            cases hp.symm.trans hp'

/-- Questions that are answered alike. -/
theorem askAll_congr {other : ρ → σ → Bool × σ} {qs : List ρ}
    (h : List.Forall₂ (fun p q => ∀ s, ask p s = other q s) ps qs) :
    askAll ask ps = askAll other qs := by
  induction h with
  | nil => rfl
  | cons hpq _ ih =>
    funext s
    rw [askAll, askAll, hpq s, ih]
