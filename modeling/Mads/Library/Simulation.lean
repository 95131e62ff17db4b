import Mads.Library.Trace

/-!
# Machines that do what other machines can do

A step of the one machine is a step of the other one, or the other one does not see it.
-/

namespace Machine

variable {σ ε ω τ φ ψ : Type*}

/-- In the states that are kept, every step that is shown is a step of the other machine, and the
others leave alone what that machine sees. -/
structure Simulates (start : σ) (step : σ → ε → Option (σ × ω)) (Kept : σ → Prop) (view : σ → τ)
    (label : σ → ε → Option (φ × ψ)) (other : τ → φ → Option (τ × ψ)) : Prop where
  start : Kept start
  kept : ∀ s event t output, Kept s → step s event = some (t, output) → Kept t
  hidden : ∀ s event t output, Kept s → step s event = some (t, output) →
    label s event = none → view t = view s
  shown : ∀ s event t output event' output', Kept s → step s event = some (t, output) →
    label s event = some (event', output') → other (view s) event' = some (view t, output')

/-- A log, as the other machine sees it. -/
def seenLog (view : σ → τ) (label : σ → ε → Option (φ × ψ)) (log : List (Entry σ ε ω)) :
    List (Entry τ φ ψ) :=
  log.filterMap fun entry =>
    (label entry.before entry.event).map fun shown => ⟨view entry.before, shown.1, shown.2⟩

variable {start : σ} {step : σ → ε → Option (σ × ω)} {Kept : σ → Prop} {view : σ → τ}
  {label : σ → ε → Option (φ × ψ)} {other : τ → φ → Option (τ × ψ)}

theorem seenLog_concat (log : List (Entry σ ε ω)) (entry : Entry σ ε ω) :
    seenLog view label (log ++ [entry]) = seenLog view label log ++
      ((label entry.before entry.event).map fun shown =>
        ⟨view entry.before, shown.1, shown.2⟩).toList := by
  rw [seenLog, List.filterMap_append]
  cases hlabel : label entry.before entry.event <;> simp [seenLog, hlabel]

/-- A run is a run of the other machine. -/
theorem Simulates.reaches (h : Simulates start step Kept view label other) {s : σ}
    {log : List (Entry σ ε ω)} (hreaches : Reaches start step s log) :
    Kept s ∧ Reaches (view start) other (view s) (seenLog view label log) := by
  induction hreaches with
  | start => exact ⟨h.start, .start⟩
  | @next s t log event output _ hstep ih =>
    obtain ⟨hkept, hview⟩ := ih
    refine ⟨h.kept s event t output hkept hstep, ?_⟩
    rw [seenLog_concat]
    cases hlabel : label s event with
    | none =>
      rw [h.hidden s event t output hkept hstep hlabel]
      simpa using hview
    | some shown =>
      obtain ⟨event', output'⟩ := shown
      exact hview.next (h.shown s event t output event' output' hkept hstep hlabel)

end Machine
