import Mathlib.Data.List.Basic

/-!
# Steps that have an owner

Each owner sees a part of the state. Where a step changes what its owner sees, in a way that depends
on that part alone, and nothing of what the others see, an owner's steps among the steps of others
do what they do by themselves.
-/

namespace Ownership

variable {σ ε ω ι ν : Type*}

/-- A run of events, with what each of them puts out. -/
def run (step : σ → ε → σ × ω) : σ → List ε → σ × List (ε × ω)
  | s, [] => (s, [])
  | s, event :: rest =>
    let (last, outputs) := run step (step s event).1 rest
    (last, (event, (step s event).2) :: outputs)

/-- What every step keeps holds at the end of a run, and held before each of its steps. -/
theorem run_invariant {step : σ → ε → σ × ω} {P : σ → Prop}
    (hstep : ∀ s event, P s → P (step s event).1) (events : List ε) {s : σ} (h : P s) :
    P (run step s events).1 ∧
      ∀ entry ∈ (run step s events).2, ∃ before, P before ∧ entry.2 = (step before entry.1).2 := by
  induction events generalizing s with
  | nil => exact ⟨h, by simp [run]⟩
  | cons event rest ih =>
    obtain ⟨hlast, houtputs⟩ := ih (hstep s event h)
    refine ⟨hlast, fun entry hentry => ?_⟩
    obtain rfl | hentry := List.mem_cons.mp hentry
    · exact ⟨s, h, rfl⟩
    · exact houtputs entry hentry

/-- Steps stay within what their owner sees. -/
structure Local (owner : ε → ι) (view : ι → σ → ν) (step : σ → ε → σ × ω) : Prop where
  others : ∀ s event i, owner event ≠ i → view i (step s event).1 = view i s
  own : ∀ s t event, view (owner event) s = view (owner event) t →
    view (owner event) (step s event).1 = view (owner event) (step t event).1 ∧
      (step s event).2 = (step t event).2

variable {owner : ε → ι} {view : ι → σ → ν} {step : σ → ε → σ × ω} [DecidableEq ι]

/-- What an owner sees of a run, and what its steps put out, is what its own steps alone make of
what it sees of the start. -/
theorem Local.run_filter (h : Local owner view step) (i : ι) (events : List ε) {s t : σ}
    (hview : view i s = view i t) :
    view i (run step s events).1 =
        view i (run step t (events.filter fun event => owner event = i)).1 ∧
      (run step s events).2.filter (fun entry => owner entry.1 = i) =
        (run step t (events.filter fun event => owner event = i)).2 := by
  induction events generalizing s t with
  | nil => exact ⟨hview, rfl⟩
  | cons event rest ih =>
    by_cases howner : owner event = i
    · obtain ⟨hafter, houtput⟩ := h.own s t event (by rw [howner]; exact hview)
      rw [howner] at hafter
      obtain ⟨hlast, houtputs⟩ := ih hafter
      rw [List.filter_cons_of_pos (by simpa using howner)]
      refine ⟨hlast, ?_⟩
      rw [run, run, List.filter_cons_of_pos (by simpa using howner), houtputs, houtput]
    · rw [List.filter_cons_of_neg (by simpa using howner)]
      obtain ⟨hlast, houtputs⟩ := ih ((h.others s event i howner).trans hview)
      refine ⟨hlast, ?_⟩
      rw [run, List.filter_cons_of_neg (by simpa using howner), houtputs]

end Ownership
