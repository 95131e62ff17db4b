import Mathlib.Data.List.Basic

/-!
# Machines that react to events, and the logs of their runs

A machine is a partial step: what an event does to a state and what it puts out, or nothing where
the event cannot happen. Its runs are kept as logs of the steps taken.
-/

namespace Machine

variable {σ ε ω α : Type*}

/-- One step of a run. -/
structure Entry (σ ε ω : Type*) where
  before : σ
  event : ε
  output : ω
  deriving DecidableEq

/-- The states that runs from `start` reach, with the log of the run. -/
inductive Reaches (start : σ) (step : σ → ε → Option (σ × ω)) : σ → List (Entry σ ε ω) → Prop
  | start : Reaches start step start []
  | next {s s' : σ} {log : List (Entry σ ε ω)} {event : ε} {output : ω}
      (h : Reaches start step s log) (hstep : step s event = some (s', output)) :
      Reaches start step s' (log ++ [⟨s, event, output⟩])

/-- The run of a list of events. -/
def run (step : σ → ε → Option (σ × ω)) : σ → List ε → Option (σ × List (Entry σ ε ω))
  | s, [] => some (s, [])
  | s, event :: events =>
    match step s event with
    | none => none
    | some (s', output) => (run step s' events).map fun (s'', log) => (s'', ⟨s, event, output⟩ :: log)

section Runs

variable {start : σ} {step : σ → ε → Option (σ × ω)}

/-- What holds at the start and is kept by every step holds after every run. -/
theorem Reaches.invariant {P : σ → List (Entry σ ε ω) → Prop} (hstart : P start [])
    (hstep : ∀ s log event s' output, Reaches start step s log → P s log →
      step s event = some (s', output) → P s' (log ++ [⟨s, event, output⟩]))
    {s : σ} {log : List (Entry σ ε ω)} (h : Reaches start step s log) : P s log := by
  induction h with
  | start => exact hstart
  | next h hs ih => exact hstep _ _ _ _ _ h ih hs

end Runs

/-- The steps that lead from one state to another. -/
inductive Path (step : σ → ε → Option (σ × ω)) : σ → List (Entry σ ε ω) → σ → Prop
  | nil (s : σ) : Path step s [] s
  | cons {s mid last : σ} {event : ε} {output : ω} {log : List (Entry σ ε ω)}
      (hstep : step s event = some (mid, output)) (rest : Path step mid log last) :
      Path step s (⟨s, event, output⟩ :: log) last

section Paths

variable {start : σ} {step : σ → ε → Option (σ × ω)} {s last : σ} {log more : List (Entry σ ε ω)}

theorem Path.concat {event : ε} {output : ω} {next : σ} (h : Path step s log last)
    (hstep : step last event = some (next, output)) :
    Path step s (log ++ [⟨last, event, output⟩]) next := by
  induction h with
  | nil s => exact .cons hstep (.nil next)
  | cons hfirst _ ih => exact .cons hfirst (ih hstep)

theorem Reaches.path (h : Reaches start step s log) : Path step start log s := by
  induction h with
  | start => exact .nil start
  | next _ hstep ih => exact ih.concat hstep

theorem Path.reaches (h : Path step s more last) (hs : Reaches start step s log) :
    Reaches start step last (log ++ more) := by
  induction h generalizing log with
  | nil s => rwa [List.append_nil]
  | cons hstep _ ih =>
    have hnext := ih (hs.next hstep)
    rwa [List.append_assoc] at hnext

/-- The path of a run of a list of events. -/
theorem path_of_run {events : List ε} (h : run step s events = some (last, log)) :
    Path step s log last := by
  induction events generalizing s log with
  | nil =>
    obtain ⟨rfl, rfl⟩ := Prod.mk.inj (Option.some.inj h)
    exact .nil s
  | cons event events ih =>
    rw [run] at h
    split at h
    · simp at h
    · next hstep =>
      obtain ⟨⟨last', rest⟩, hrest, heq⟩ := Option.map_eq_some_iff.mp h
      obtain ⟨rfl, rfl⟩ := Prod.mk.inj heq
      exact .cons hstep (ih hrest)

/-- A run of a list of events reaches its last state. -/
theorem reaches_of_run {events : List ε} (h : run step start events = some (last, log)) :
    Reaches start step last log :=
  (path_of_run h).reaches .start

/-- A path can be cut at every state on its way. -/
theorem Path.split (h : Path step s (log ++ more) last) :
    ∃ mid, Path step s log mid ∧ Path step mid more last := by
  induction log generalizing s with
  | nil => exact ⟨s, .nil s, h⟩
  | cons entry log ih =>
    cases h with
    | cons hstep rest =>
      obtain ⟨mid, hfront, hback⟩ := ih rest
      exact ⟨mid, .cons hstep hfront, hback⟩

end Paths

/-- An entry of a log that grew by one is the new one or an old one. -/
theorem concat_eq_split {log pre post : List α} {e last : α} :
    log ++ [last] = pre ++ e :: post ↔
      (pre = log ∧ e = last ∧ post = []) ∨ ∃ mid, post = mid ++ [last] ∧ log = pre ++ e :: mid := by
  constructor
  · intro h
    obtain rfl | ⟨mid, x, rfl⟩ := post.eq_nil_or_concat
    · obtain ⟨hpre, hlast⟩ := List.append_inj' h rfl
      exact .inl ⟨hpre.symm, (List.cons.inj hlast).1.symm, rfl⟩
    · rw [List.concat_eq_append, ← List.cons_append, ← List.append_assoc] at h
      obtain ⟨hlog, hlast⟩ := List.append_inj' h rfl
      refine .inr ⟨mid, ?_, hlog⟩
      rw [List.concat_eq_append, hlast]
  · rintro (⟨rfl, rfl, rfl⟩ | ⟨mid, rfl, rfl⟩)
    · rfl
    · simp

/-- Every entry with `p` has an entry with `q` at or after it. -/
def Followed (p : α → Prop) (q : α → Bool) (log : List α) : Prop :=
  ∀ pre e post, log = pre ++ e :: post → p e → ∃ later ∈ e :: post, q later

variable {p : α → Prop} {q : α → Bool} {log : List α} {last : α}

theorem Followed.nil : Followed p q [] := by
  intro pre e post h
  simp at h

/-- An entry with `q` follows all entries so far. -/
theorem Followed.concat_of (hq : q last) : Followed p q (log ++ [last]) := by
  intro pre e post h _
  obtain ⟨-, rfl, -⟩ | ⟨mid, rfl, -⟩ := concat_eq_split.mp h
  · exact ⟨e, List.mem_cons_self, hq⟩
  · exact ⟨last, by simp, hq⟩

/-- An entry without `p` has nothing to be followed by. -/
theorem Followed.concat (h : Followed p q log) (hp : ¬ p last) : Followed p q (log ++ [last]) := by
  intro pre e post heq he
  obtain ⟨-, rfl, -⟩ | ⟨mid, rfl, hlog⟩ := concat_eq_split.mp heq
  · exact absurd he hp
  · obtain ⟨later, hmem, hq⟩ := h pre e mid hlog he
    refine ⟨later, ?_, hq⟩
    rw [← List.cons_append]
    exact List.mem_append_left _ hmem

end Machine
