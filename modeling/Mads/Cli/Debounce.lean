import Mads.Cli.Diagnostic
import Mads.Cli.WatchSet
import Mads.Library.Trace

/-!
# Debouncing: bursts of file events become single changes
-/

namespace Mads

/-- What the watcher's channel hands over. -/
inductive Received where
  | event (event : Event)
  | failed (source : String)
  | closed

def watchError (source : String) : CliError where
  code := "MADS220"
  title := "File watcher failed"
  message := "could not watch project files"
  source := some source

/-- `WatchEvents::recv`. -/
def Received.recv : Received → Except CliError Event
  | .event observed => .ok observed
  | .failed source => .error (watchError source)
  | .closed =>
    .error {
      code := "MADS220"
      title := "File watcher failed"
      message := "the watch event channel closed unexpectedly" }

/-- `DEBOUNCE`, in milliseconds. -/
def debounce : ℕ := 150

/-- Where the watch task stands: before the first relevant event of a burst, inside a burst with
what it asks for so far and the time at which it is over, or behind its last report. -/
inductive WatchPhase where
  | waiting
  | collecting (impact : ChangeImpact) (deadline : ℕ)
  | finished
  deriving DecidableEq

/-- The watch task and the time of its last step. -/
structure WatchTask where
  phase : WatchPhase
  clock : ℕ

/-- What the watch task hears of. Where an event is there at the deadline, either may come first. -/
inductive WatchInput where
  | received (received : Received) (now : ℕ)
  | timeout (now : ℕ)

def WatchInput.now : WatchInput → ℕ
  | received _ now => now
  | timeout now => now

abbrev Change := Except CliError ChangeImpact

namespace WatchTask

def new : WatchTask := ⟨.waiting, 0⟩

/-- One step of the task's loop around `next_change`, with the change it sends, if it does. -/
def advance (watch : WatchSet) (phase : WatchPhase) (input : WatchInput) :
    Option (WatchPhase × Option Change) :=
  match phase, input with
  | .finished, _ => none
  | .waiting, .timeout _ => none
  | .waiting, .received received now =>
    match received.recv with
    | .error error => some (.finished, some (.error error))
    | .ok event =>
      let impact := watch.classifyEvent event
      if impact ≠ .none then some (.collecting impact (now + debounce), none)
      else some (.waiting, none)
  | .collecting impact deadline, .timeout now =>
    if now < deadline then none else some (.waiting, some (.ok impact))
  | .collecting impact deadline, .received received now =>
    match received.recv with
    | .error error => some (.finished, some (.error error))
    | .ok event =>
      let next := watch.classifyEvent event
      if next ≠ .none then
        some (.collecting (ChangeImpact.merge [impact, next]) (now + debounce), none)
      else some (.collecting impact deadline, none)

/-- Time does not run backwards. -/
def step (watch : WatchSet) (task : WatchTask) (input : WatchInput) :
    Option (WatchTask × Option Change) :=
  if input.now < task.clock then none
  else (advance watch task.phase input).map fun (phase, change) => (⟨phase, input.now⟩, change)

abbrev Log := List (Machine.Entry WatchTask WatchInput (Option Change))

/-- The tasks that any order and timing of events leads to. -/
abbrev Reaches (watch : WatchSet) : WatchTask → Log → Prop := Machine.Reaches new (step watch)

/-! ### Bursts -/

/-- A relevant event, with its time. -/
def relevant (watch : WatchSet) : WatchInput → Option (ℕ × ChangeImpact)
  | .timeout _ => none
  | .received received now =>
    match received.recv with
    | .error _ => none
    | .ok event =>
      let impact := watch.classifyEvent event
      if impact ≠ .none then some (now, impact) else none

/-- The relevant events of a run. -/
def changes (watch : WatchSet) (log : Log) : List (ℕ × ChangeImpact) :=
  log.filterMap fun entry => relevant watch entry.event

/-- What was sent in a run, and when. -/
def reports (log : Log) : List (ℕ × Change) :=
  log.filterMap fun entry => entry.output.map fun change => (entry.event.now, change)

/-- What a burst asks for. -/
def impact (burst : List (ℕ × ChangeImpact)) : ChangeImpact := ChangeImpact.merge (burst.map (·.2))

/-- A burst that was reported. -/
structure Burst where
  changes : List (ℕ × ChangeImpact)
  reported : ℕ

def Burst.report (burst : Burst) : ℕ × Change := (burst.reported, .ok (impact burst.changes))

/-- A report comes once the burst has been over for as long as the task waits. -/
structure Burst.Settled (burst : Burst) : Prop where
  ne_nil : burst.changes ≠ []
  quiet : ∀ change ∈ burst.changes, change.1 + debounce ≤ burst.reported

/-- How the relevant events fall into bursts: all bursts but one that is still open were reported,
and after an error there is no further report. -/
inductive Accounts : WatchPhase → List (ℕ × ChangeImpact) → List (ℕ × Change) → Prop
  | waiting {bursts : List Burst} (h : ∀ burst ∈ bursts, burst.Settled) :
      Accounts .waiting (bursts.flatMap Burst.changes) (bursts.map Burst.report)
  | collecting {bursts : List Burst} {current : List (ℕ × ChangeImpact)} {deadline : ℕ}
      (h : ∀ burst ∈ bursts, burst.Settled) (hne : current ≠ [])
      (hdeadline : ∀ change ∈ current, change.1 + debounce ≤ deadline) :
      Accounts (.collecting (impact current) deadline)
        (bursts.flatMap Burst.changes ++ current) (bursts.map Burst.report)
  | finished {bursts : List Burst} {lost : List (ℕ × ChangeImpact)} {now : ℕ} {error : CliError}
      (h : ∀ burst ∈ bursts, burst.Settled) :
      Accounts .finished (bursts.flatMap Burst.changes ++ lost)
        (bursts.map Burst.report ++ [(now, .error error)])

theorem merge_pair (left right : ChangeImpact) :
    ChangeImpact.merge [left, right] = max left right := by
  cases left <;> cases right <;> decide

theorem impact_concat (burst : List (ℕ × ChangeImpact)) (now : ℕ) (next : ChangeImpact) :
    impact (burst ++ [(now, next)]) = ChangeImpact.merge [impact burst, next] := by
  rw [impact, List.map_append, merge_pair]
  exact ChangeImpact.merge_concat _ _

variable {watch : WatchSet} {phase phase' : WatchPhase} {input : WatchInput}
  {change : Option Change}

/-- What one step of the task does, and which relevant event it saw. -/
inductive Advances (watch : WatchSet) :
    WatchPhase → WatchInput → WatchPhase → Option Change → Option (ℕ × ChangeImpact) → Prop
  | fails {phase received now error} (hphase : phase ≠ .finished) :
      Advances watch phase (.received received now) .finished (some (.error error)) none
  | ignores {phase received now} (hphase : phase ≠ .finished) :
      Advances watch phase (.received received now) phase none none
  | opens {received now next} :
      Advances watch .waiting (.received received now) (.collecting next (now + debounce)) none
        (some (now, next))
  | joins {impact deadline received now next} :
      Advances watch (.collecting impact deadline) (.received received now)
        (.collecting (ChangeImpact.merge [impact, next]) (now + debounce)) none (some (now, next))
  | reports {impact deadline now} (h : deadline ≤ now) :
      Advances watch (.collecting impact deadline) (.timeout now) .waiting (some (.ok impact)) none

theorem relevant_of_error {received : Received} {now : ℕ} {error : CliError}
    (h : received.recv = .error error) : relevant watch (.received received now) = none := by
  rw [relevant, h]

theorem relevant_of_ok {received : Received} {now : ℕ} {event : Event}
    (h : received.recv = .ok event) :
    relevant watch (.received received now) =
      if watch.classifyEvent event ≠ .none then some (now, watch.classifyEvent event) else none := by
  rw [relevant, h]

theorem advance_advances (h : advance watch phase input = some (phase', change)) :
    Advances watch phase input phase' change (relevant watch input) := by
  cases phase with
  | finished => cases h
  | waiting =>
    cases input with
    | timeout now => cases h
    | received received now =>
      rw [advance] at h
      cases hrecv : received.recv with
      | error error =>
        simp only [hrecv, Option.some.injEq, Prod.mk.injEq] at h
        obtain ⟨rfl, rfl⟩ := h
        rw [relevant_of_error hrecv]
        exact .fails (by simp)
      | ok event =>
        simp only [hrecv] at h
        rw [relevant_of_ok hrecv]
        split at h
        · next hsome =>
          obtain ⟨rfl, rfl⟩ := Prod.mk.inj (Option.some.inj h)
          rw [if_pos hsome]
          exact .opens
        · next hnone =>
          obtain ⟨rfl, rfl⟩ := Prod.mk.inj (Option.some.inj h)
          rw [if_neg hnone]
          exact .ignores (by simp)
  | collecting impact deadline =>
    cases input with
    | timeout now =>
      rw [advance] at h
      split at h
      · cases h
      · next hover =>
        obtain ⟨rfl, rfl⟩ := Prod.mk.inj (Option.some.inj h)
        exact .reports (by omega)
    | received received now =>
      rw [advance] at h
      cases hrecv : received.recv with
      | error error =>
        simp only [hrecv, Option.some.injEq, Prod.mk.injEq] at h
        obtain ⟨rfl, rfl⟩ := h
        rw [relevant_of_error hrecv]
        exact .fails (by simp)
      | ok event =>
        simp only [hrecv] at h
        rw [relevant_of_ok hrecv]
        split at h
        · next hsome =>
          obtain ⟨rfl, rfl⟩ := Prod.mk.inj (Option.some.inj h)
          rw [if_pos hsome]
          exact .joins
        · next hnone =>
          obtain ⟨rfl, rfl⟩ := Prod.mk.inj (Option.some.inj h)
          rw [if_neg hnone]
          exact .ignores (by simp)

theorem impact_singleton (now : ℕ) (next : ChangeImpact) : impact [(now, next)] = next := by
  cases next <;> rfl

/-- Every step keeps account of the bursts. -/
theorem Accounts.advance {seen : List (ℕ × ChangeImpact)} {sent : List (ℕ × Change)}
    {saw : Option (ℕ × ChangeImpact)} (h : Accounts phase seen sent)
    (hstep : Advances watch phase input phase' change saw)
    (hclock : ∀ change ∈ seen, change.1 ≤ input.now) :
    Accounts phase' (seen ++ saw.toList)
      (sent ++ (change.map fun change => (input.now, change)).toList) := by
  cases hstep with
  | ignores => simpa using h
  | fails hphase =>
    cases h with
    | waiting h => simpa using @Accounts.finished _ [] _ _ h
    | collecting h => simpa using Accounts.finished h
    | finished => exact absurd rfl hphase
  | @opens received now next =>
    cases h with
    | @waiting bursts h =>
      have hopen : Accounts (.collecting (impact [(now, next)]) (now + debounce))
          (bursts.flatMap Burst.changes ++ [(now, next)]) (bursts.map Burst.report) :=
        .collecting h (by simp) (by simp)
      rw [impact_singleton] at hopen
      simpa using hopen
  | @joins _ _ received now next =>
    cases h with
    | @collecting bursts current deadline h hne hdeadline =>
      have hjoined : Accounts (.collecting (impact (current ++ [(now, next)])) (now + debounce))
          (bursts.flatMap Burst.changes ++ (current ++ [(now, next)]))
          (bursts.map Burst.report) := by
        refine .collecting h (by simp) fun change hchange => Nat.add_le_add_right ?_ _
        obtain hchange | hchange := List.mem_append.mp hchange
        · exact hclock change (List.mem_append_right _ hchange)
        · rw [List.mem_singleton.mp hchange]
      rw [impact_concat] at hjoined
      simpa using hjoined
  | @reports _ _ now hover =>
    cases h with
    | @collecting bursts current deadline h hne hdeadline =>
      -- the open burst becomes the last one that was reported
      have hsettled : (⟨current, now⟩ : Burst).Settled :=
        ⟨hne, fun change hchange => (hdeadline change hchange).trans hover⟩
      have hwaiting : Accounts .waiting ((bursts ++ [(⟨current, now⟩ : Burst)]).flatMap Burst.changes)
          ((bursts ++ [(⟨current, now⟩ : Burst)]).map Burst.report) := by
        refine .waiting fun burst hburst => ?_
        obtain hburst | hburst := List.mem_append.mp hburst
        · exact h burst hburst
        · rwa [List.mem_singleton.mp hburst]
      simpa [Burst.report, WatchInput.now] using hwaiting

/-- The times of the events seen so far lie before the clock. -/
theorem relevant_now {change : ℕ × ChangeImpact} (h : relevant watch input = some change) :
    change.1 = input.now := by
  cases input with
  | timeout now => cases h
  | received received now =>
    cases hrecv : received.recv with
    | error error => simp [relevant_of_error hrecv] at h
    | ok event =>
      rw [relevant_of_ok hrecv] at h
      split at h
      · rw [← Option.some.inj h]
        rfl
      · cases h

variable {task : WatchTask} {log : Log}

/-- The bursts are accounted for, and all events were seen by now. -/
structure Sound (watch : WatchSet) (task : WatchTask) (log : Log) : Prop where
  accounts : Accounts task.phase (changes watch log) (reports log)
  clock : ∀ change ∈ changes watch log, change.1 ≤ task.clock

theorem step_eq_some {after : WatchTask} (h : task.step watch input = some (after, change)) :
    task.clock ≤ input.now ∧ after.clock = input.now ∧
      Advances watch task.phase input after.phase change (relevant watch input) := by
  rw [step] at h
  split at h
  · cases h
  · next hclock =>
    obtain ⟨⟨phase, sent⟩, hadvance, heq⟩ := Option.map_eq_some_iff.mp h
    obtain ⟨rfl, rfl⟩ := Prod.mk.inj heq
    exact ⟨by omega, rfl, advance_advances hadvance⟩

theorem Reaches.sound (h : Reaches watch task log) : Sound watch task log := by
  have hstart : Sound watch new [] := ⟨@Accounts.waiting [] (by simp), by simp [changes]⟩
  refine Machine.Reaches.invariant (P := Sound watch) hstart ?_ h
  intro before log input after change _ ih hstep
  obtain ⟨hle, hafter, hadvances⟩ := step_eq_some hstep
  have hseen : ∀ change ∈ changes watch log, change.1 ≤ input.now :=
    fun change hchange => (ih.clock change hchange).trans hle
  have hchanges : changes watch (log ++ [⟨before, input, change⟩]) =
      changes watch log ++ (relevant watch input).toList := by
    cases hsaw : relevant watch input <;> simp [changes, hsaw]
  have hreports : reports (log ++ [⟨before, input, change⟩]) =
      reports log ++ (change.map fun change => (input.now, change)).toList := by
    cases change <;> simp [reports]
  constructor
  · rw [hchanges, hreports]
    exact ih.accounts.advance hadvances hseen
  · rw [hchanges, hafter]
    intro change hchange
    obtain hchange | hchange := List.mem_append.mp hchange
    · exact hseen change hchange
    · rw [Option.mem_toList] at hchange
      exact (relevant_now hchange).le

/-- However file events and waiting times interleave, the relevant events fall, in order, into
bursts, of which all but one that is still open were reported once each: with the greatest of what
their events ask for, and not before the last of them was as long ago as the task waits. An error
is reported once, after which nothing is. -/
theorem Reaches.accounted (h : Reaches watch task log) :
    Accounts task.phase (changes watch log) (reports log) :=
  h.sound.accounts

/-- Two source files are saved, and nothing more for a while. -/
def savesTwice : List WatchInput :=
  let saved (name : String) : Event := ⟨.modify, [Paths.join [] ["app", "src", name]]⟩
  [.received (.event (saved "main.rs")) 10, .received (.event (saved "lib.rs")) 90, .timeout 240]

theorem Reaches.accounted_sample :
    ∃ task log, Machine.run (step WatchSet.appLayout) new savesTwice = some (task, log) ∧
      reports log = [(240, .ok .rebuild)] ∧
      Accounts task.phase (changes WatchSet.appLayout log) (reports log) := by
  refine ⟨_, _, rfl, rfl, ?_⟩
  exact Reaches.accounted (Machine.reaches_of_run
    (show Machine.run (step WatchSet.appLayout) new savesTwice = some (_, _) from rfl))

end WatchTask

end Mads
