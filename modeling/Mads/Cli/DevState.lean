import Mads.Library.Trace

/-!
# The development supervisor: what a change, a build or an exit asks for
-/

namespace Mads

/-- What a file change asks for. -/
inductive ChangeImpact where
  | none
  | restart
  | rebuild
  deriving DecidableEq, Repr

namespace ChangeImpact

def rank : ChangeImpact → ℕ
  | none => 0
  | restart => 1
  | rebuild => 2

/-- The greatest of several impacts. -/
def merge (impacts : List ChangeImpact) : ChangeImpact :=
  impacts.foldl (fun most impact => if most.rank ≤ impact.rank then impact else most) none

@[simp] theorem merge_rebuild (impact : ChangeImpact) : merge [rebuild, impact] = rebuild := by
  cases impact <;> rfl

@[simp] theorem merge_eq_rebuild {pending impact : ChangeImpact} (h : pending ≠ rebuild) :
    merge [pending, impact] = rebuild ↔ impact = rebuild := by
  revert h
  cases pending <;> cases impact <;> decide

end ChangeImpact

/-- A built application: which binary it is, and where its executable lies. -/
structure BuiltApplication where
  packageName : String
  binaryName : String
  executable : String
  deriving DecidableEq, Repr

inductive DevEvent where
  | start
  | changed (impact : ChangeImpact)
  | buildSucceeded (built : BuiltApplication)
  | buildFailed
  | applicationExited
  | shutdown
  deriving DecidableEq, Repr

inductive DevAction where
  | build
  | start (built : BuiltApplication)
  | stop
  | restart (built : BuiltApplication)
  | exit
  deriving DecidableEq, Repr

/-- The action starts the application, or starts it again. -/
def DevAction.startsApplication : DevAction → Bool
  | .start _ => true
  | .restart _ => true
  | _ => false

structure DevState where
  lastSuccessful : Option BuiltApplication
  applicationRunning : Bool
  buildRunning : Bool
  pending : ChangeImpact
  shuttingDown : Bool
  deriving DecidableEq, Repr

namespace DevState

def new : DevState where
  lastSuccessful := none
  applicationRunning := false
  buildRunning := false
  pending := .none
  shuttingDown := false

def startBuild (state : DevState) : DevState × List DevAction :=
  if state.buildRunning then (state, [])
  else ({ state with buildRunning := true }, [.build])

def restartLastSuccessful (state : DevState) : DevState × List DevAction :=
  match state.lastSuccessful with
  | none => (state, [])
  | some built =>
    if state.applicationRunning then (state, [.restart built])
    else ({ state with applicationRunning := true }, [.start built])

def handleChange (state : DevState) (impact : ChangeImpact) : DevState × List DevAction :=
  if impact = .none then (state, [])
  else if state.buildRunning then
    ({ state with pending := ChangeImpact.merge [state.pending, impact] }, [])
  else
    match impact with
    | .none => (state, [])
    | .restart => state.restartLastSuccessful
    | .rebuild => state.startBuild

def handleBuildSucceeded (state : DevState) (built : BuiltApplication) :
    DevState × List DevAction :=
  let pending := state.pending
  let actions := if state.applicationRunning then [.stop, .start built] else [.start built]
  let state := { state with
    buildRunning := false
    pending := .none
    lastSuccessful := some built
    applicationRunning := true }
  if pending = .rebuild then
    let (state, more) := state.startBuild
    (state, actions ++ more)
  else (state, actions)

def handleBuildFailed (state : DevState) : DevState × List DevAction :=
  let pending := state.pending
  let state := { state with buildRunning := false, pending := .none }
  if pending = .rebuild then state.startBuild else (state, [])

/-- Named `shutdown` in the source, like the event. -/
def shutdown (state : DevState) : DevState × List DevAction :=
  let actions := if state.applicationRunning then [.stop] else []
  ({ state with
      shuttingDown := true
      buildRunning := false
      pending := .none
      applicationRunning := false },
    actions ++ [.exit])

def transition (state : DevState) (event : DevEvent) : DevState × List DevAction :=
  if state.shuttingDown then (state, [])
  else
    match event with
    | .start => state.startBuild
    | .changed impact => state.handleChange impact
    | .buildSucceeded built => state.handleBuildSucceeded built
    | .buildFailed => state.handleBuildFailed
    | .applicationExited => ({ state with applicationRunning := false }, [])
    | .shutdown => state.shutdown

end DevState

/-- One event of a session, with the state it came in and the actions it asked for. -/
abbrev DevEntry := Machine.Entry DevState DevEvent (List DevAction)

namespace DevEntry

def startsApplication (entry : DevEntry) : Bool := entry.output.any DevAction.startsApplication

def startsBuild (entry : DevEntry) : Bool := .build ∈ entry.output

/-- The event ends a build. -/
def endsBuild (entry : DevEntry) : Bool :=
  match entry.event with
  | .buildSucceeded _ => true
  | .buildFailed => true
  | _ => false

/-- The change is one that the supervisor takes up. -/
def accepts (impact : ChangeImpact) (entry : DevEntry) : Prop :=
  entry.event = .changed impact ∧ entry.before.shuttingDown = false

end DevEntry

namespace DevState

/-- What one event can do. -/
inductive Steps (state : DevState) : DevEvent → DevState → List DevAction → Prop
  | closed {event} (h : state.shuttingDown = true) : Steps state event state []
  | building (hopen : state.shuttingDown = false) (h : state.buildRunning = true) :
      Steps state .start state []
  | unchanged (hopen : state.shuttingDown = false) : Steps state (.changed .none) state []
  | queued {impact} (hopen : state.shuttingDown = false) (hsome : impact ≠ .none)
      (h : state.buildRunning = true) :
      Steps state (.changed impact)
        { state with pending := ChangeImpact.merge [state.pending, impact] } []
  | begun {event} (hopen : state.shuttingDown = false)
      (hevent : event = .start ∨ event = .changed .rebuild) (h : state.buildRunning = false) :
      Steps state event { state with buildRunning := true } [.build]
  | unbuilt (hopen : state.shuttingDown = false) (h : state.buildRunning = false)
      (hlast : state.lastSuccessful = none) : Steps state (.changed .restart) state []
  | restarted {built} (hopen : state.shuttingDown = false) (h : state.buildRunning = false)
      (hlast : state.lastSuccessful = some built) (hrunning : state.applicationRunning = true) :
      Steps state (.changed .restart) state [.restart built]
  | started {built} (hopen : state.shuttingDown = false) (h : state.buildRunning = false)
      (hlast : state.lastSuccessful = some built) (hrunning : state.applicationRunning = false) :
      Steps state (.changed .restart) { state with applicationRunning := true } [.start built]
  | built {built} (hopen : state.shuttingDown = false) :
      Steps state (.buildSucceeded built)
        { state with
          lastSuccessful := some built
          applicationRunning := true
          buildRunning := state.pending = .rebuild
          pending := .none }
        ((if state.applicationRunning then [.stop] else []) ++ .start built ::
          if state.pending = .rebuild then [.build] else [])
  | failed (hopen : state.shuttingDown = false) :
      Steps state .buildFailed
        { state with buildRunning := state.pending = .rebuild, pending := .none }
        (if state.pending = .rebuild then [.build] else [])
  | exited (hopen : state.shuttingDown = false) :
      Steps state .applicationExited { state with applicationRunning := false } []
  | shutdown (hopen : state.shuttingDown = false) :
      Steps state .shutdown
        { state with
          applicationRunning := false
          buildRunning := false
          pending := .none
          shuttingDown := true }
        ((if state.applicationRunning then [.stop] else []) ++ [.exit])

theorem startBuild_steps {state : DevState} {event : DevEvent} (hopen : state.shuttingDown = false)
    (hevent : event = .start ∨ event = .changed .rebuild)
    (hidle : event = .start ∨ state.buildRunning = false) :
    Steps state event state.startBuild.1 state.startBuild.2 := by
  unfold startBuild
  by_cases h : state.buildRunning = true
  · obtain rfl : event = .start := hidle.resolve_right (by simp [h])
    rw [if_pos h]
    exact .building hopen h
  · rw [if_neg h]
    exact .begun hopen hevent (by simpa using h)

theorem restartLastSuccessful_steps {state : DevState} (hopen : state.shuttingDown = false)
    (h : state.buildRunning = false) :
    Steps state (.changed .restart) state.restartLastSuccessful.1
      state.restartLastSuccessful.2 := by
  unfold restartLastSuccessful
  cases hlast : state.lastSuccessful with
  | none => exact .unbuilt hopen h hlast
  | some built =>
    by_cases hrunning : state.applicationRunning = true
    · simp only [hrunning, if_true]
      exact .restarted hopen h hlast hrunning
    · have hstarted : Steps state (.changed .restart) _ _ :=
        .started hopen h hlast (by simpa using hrunning)
      simpa [hlast, hrunning] using hstarted

theorem handleChange_steps {state : DevState} (hopen : state.shuttingDown = false)
    (impact : ChangeImpact) :
    Steps state (.changed impact) (state.handleChange impact).1 (state.handleChange impact).2 := by
  unfold handleChange
  by_cases hnone : impact = .none
  · subst hnone
    exact .unchanged hopen
  · rw [if_neg hnone]
    by_cases h : state.buildRunning = true
    · rw [if_pos h]
      exact .queued hopen hnone h
    · rw [if_neg h]
      have hidle : state.buildRunning = false := by simpa using h
      cases impact with
      | none => exact absurd rfl hnone
      | restart => exact restartLastSuccessful_steps hopen hidle
      | rebuild => exact startBuild_steps hopen (.inr rfl) (.inr hidle)

theorem handleBuildSucceeded_steps {state : DevState} (hopen : state.shuttingDown = false)
    (built : BuiltApplication) :
    Steps state (.buildSucceeded built) (state.handleBuildSucceeded built).1
      (state.handleBuildSucceeded built).2 := by
  have h : Steps state (.buildSucceeded built) _ _ := .built hopen
  unfold handleBuildSucceeded
  by_cases hpending : state.pending = .rebuild <;> cases hrunning : state.applicationRunning <;>
    simpa [startBuild, hpending, hrunning] using h

theorem handleBuildFailed_steps {state : DevState} (hopen : state.shuttingDown = false) :
    Steps state .buildFailed state.handleBuildFailed.1 state.handleBuildFailed.2 := by
  have h : Steps state .buildFailed _ _ := .failed hopen
  unfold handleBuildFailed
  by_cases hpending : state.pending = .rebuild <;> simpa [startBuild, hpending] using h

/-- Every transition is one of the steps. -/
theorem transition_steps (state : DevState) (event : DevEvent) :
    Steps state event (state.transition event).1 (state.transition event).2 := by
  unfold transition
  by_cases hclosed : state.shuttingDown = true
  · rw [if_pos hclosed]
    exact .closed hclosed
  · have hopen : state.shuttingDown = false := by simpa using hclosed
    rw [if_neg hclosed]
    cases event with
    | start => exact startBuild_steps hopen (.inl rfl) (.inl rfl)
    | changed impact => exact handleChange_steps hopen impact
    | buildSucceeded built => exact handleBuildSucceeded_steps hopen built
    | buildFailed => exact handleBuildFailed_steps hopen
    | applicationExited => exact .exited hopen
    | shutdown => exact .shutdown hopen

/-- The states that any sequence of events leads to. -/
abbrev Reaches : DevState → List DevEntry → Prop :=
  Machine.Reaches new fun state event => some (state.transition event)

theorem steps_of_eq_some {state after : DevState} {event : DevEvent} {actions : List DevAction}
    (h : some (state.transition event) = some (after, actions)) :
    Steps state event after actions := by
  have hsteps := transition_steps state event
  rw [Option.some.inj h] at hsteps
  exact hsteps

end DevState

end Mads
