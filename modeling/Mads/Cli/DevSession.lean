import Mads.Cli.DevChanges
import Mads.Cli.Diagnostic

/-!
# The development supervisor: its event loop and the processes it holds
-/

namespace Mads

/-- A build in progress: a Cargo process, or the error that kept Cargo from starting. -/
inductive BuildTask where
  | cargo (process : ℕ)
  | failed (error : CliError)
  deriving DecidableEq, Repr

def BuildTask.process? : BuildTask → Option ℕ
  | cargo process => some process
  | failed _ => none

/-- What `BuildTask::wait` can return. -/
def BuildTask.finishes : BuildTask → Except CliError BuiltApplication → Bool
  | cargo _, _ => true
  | failed error, .error reported => reported = error
  | failed _, .ok _ => false

/-- An application process, and whether it has exited on its own. -/
structure ApplicationProcess where
  process : ℕ
  built : BuiltApplication
  exited : Bool
  deriving DecidableEq, Repr

/-- A running session: the reducer's state, the actions still to perform, and what the loop and
the driver hold. The processes that were spawned and not yet stopped or waited for are listed on
the side. -/
structure Session where
  state : DevState
  actions : List DevAction
  build : Option BuildTask := none
  application : Option ApplicationProcess := none
  cargoProcesses : List ℕ := []
  applicationProcesses : List ℕ := []
  spawned : ℕ := 0
  result : Option (Except CliError Unit) := none

namespace Session

/-- How the calls of one action end: `none` where a call succeeds. -/
structure Outcome where
  spawn : Option CliError := none
  stop : Option CliError := none

/-- What happens next in a session. -/
inductive Event where
  | act (outcome : Outcome)
  | shutdown (cancel : Option CliError)
  | change (change : Except CliError ChangeImpact)
  | buildFinished (result : Except CliError BuiltApplication) (cancel : Option CliError)
  | processCheck (observed : Option CliError)
  | applicationDies

/-- What a step leaves in the history of a session. -/
inductive Note where
  | transition (entry : DevEntry)
  | performed (action : DevAction)

def Note.entry? : Note → Option DevEntry
  | transition entry => some entry
  | performed _ => none

def Note.action? : Note → Option DevAction
  | transition _ => none
  | performed action => some action

def secondApplication : CliError where
  code := "MADS220"
  title := "Development supervisor failed"
  message := "attempted to start a second application process"

section Driver

variable (session : Session)

/-- `DevDriver::build`, whose task is held by the loop. -/
def startBuild (spawn : Option CliError) : Session :=
  match spawn with
  | some error => { session with build := some (.failed error) }
  | none =>
    { session with
      build := some (.cargo session.spawned)
      cargoProcesses := session.cargoProcesses ++ [session.spawned]
      spawned := session.spawned + 1 }

/-- The held build is dropped: its process was waited for, or is killed. -/
def dropBuild : Session :=
  { session with
    build := none
    cargoProcesses :=
      session.cargoProcesses.filter (· ∉ session.build.bind BuildTask.process?) }

/-- `DevDriver::start`. -/
def start (built : BuiltApplication) (spawn : Option CliError) : Except CliError Session :=
  if session.application.isSome then .error secondApplication
  else
    match spawn with
    | some error => .error error
    | none =>
      .ok { session with
        application := some ⟨session.spawned, built, false⟩
        applicationProcesses := session.applicationProcesses ++ [session.spawned]
        spawned := session.spawned + 1 }

/-- The held application is dropped: it was waited for, or is killed. -/
def dropApplication : Session :=
  { session with
    application := none
    applicationProcesses := session.applicationProcesses.filter
      (· ∉ session.application.map ApplicationProcess.process) }

/-- `DevDriver::stop`. -/
def stop (stopped : Option CliError) : Except CliError Session :=
  match session.application, stopped with
  | some _, some error => .error error
  | _, _ => .ok session.dropApplication

end Driver

/-- The session ends with an error: the held build is cancelled and the application stopped. -/
def fail (session : Session) (error : CliError) : Session :=
  { session.dropBuild.dropApplication with actions := [], result := some (.error error) }

def settled (session : Session) (call : Except CliError Session) : Session :=
  match call with
  | .ok after => after
  | .error error => session.fail error

/-- One action of `execute_actions`. -/
def perform (session : Session) (action : DevAction) (outcome : Outcome) : Session :=
  match action with
  | .build => session.startBuild outcome.spawn
  | .start built => session.settled (session.start built outcome.spawn)
  | .stop => session.settled (session.stop outcome.stop)
  | .restart built =>
    session.settled do
      let stopped ← session.stop outcome.stop
      stopped.start built outcome.spawn
  | .exit => { session with actions := [], result := some (.ok ()) }

def react (session : Session) (event : DevEvent) : Session × Option Note :=
  let (state, actions) := session.state.transition event
  ({ session with state, actions }, some (.transition ⟨session.state, event, actions⟩))

def cancelActiveBuild (session : Session) (cancel : Option CliError) : Except CliError Session :=
  match session.build, cancel with
  | some (.cargo _), some error => .error error
  | _, _ => .ok session.dropBuild

/-- One step of the loop. The next event is taken once all actions were performed. -/
def advance (session : Session) (event : Event) : Option (Session × Option Note) :=
  match event, session.actions with
  | .applicationDies, _ =>
    some ({ session with
      application := session.application.map ({ · with exited := true }) }, none)
  | .act outcome, action :: rest =>
    some ({ session with actions := rest }.perform action outcome, some (.performed action))
  | .shutdown cancel, [] =>
    match session.cancelActiveBuild cancel with
    | .error error => some (session.fail error, none)
    | .ok cancelled => some (cancelled.react .shutdown)
  | .change (.ok impact), [] => some (session.react (.changed impact))
  | .change (.error error), [] => some (session.fail error, none)
  | .buildFinished result cancel, [] =>
    if !session.build.any (·.finishes result) then none
    else
      match result with
      | .ok built => some (session.dropBuild.react (.buildSucceeded built))
      | .error _ =>
        match session.cancelActiveBuild cancel with
        | .error error => some (session.fail error, none)
        | .ok cancelled => some (cancelled.react .buildFailed)
  | .processCheck observed, [] =>
    match session.application, observed with
    | some _, some error => some (session.fail error, none)
    | some application, none =>
      if application.exited then some (session.dropApplication.react .applicationExited)
      else some (session, none)
    | none, _ => some (session, none)
  | _, _ => none

/-- A session that ended does nothing more. -/
def step (session : Session) (event : Event) : Option (Session × Option Note) :=
  if session.result.isSome then none else session.advance event

def new : Session where
  state := (DevState.new.transition .start).1
  actions := (DevState.new.transition .start).2

abbrev Log := List (Machine.Entry Session Event (Option Note))

/-- The sessions that any order of events and any outcomes lead to. -/
abbrev Reaches : Session → Log → Prop := Machine.Reaches new step

/-- The events that reached the reducer. -/
def entries (log : Log) : List DevEntry :=
  ⟨DevState.new, .start, [.build]⟩ :: log.filterMap fun entry => entry.output.bind Note.entry?

/-- The actions that were performed. -/
def performed (log : Log) : List DevAction :=
  log.filterMap fun entry => entry.output.bind Note.action?

/-- What the loop and the driver will hold once the actions are performed; `none` where a build or
an application would be started next to another. -/
def settle : List DevAction → Bool × Bool → Option (Bool × Bool)
  | [], held => some held
  | .build :: rest, (build, application) =>
    if build then none else settle rest (true, application)
  | .start _ :: rest, (build, application) =>
    if application then none else settle rest (build, true)
  | .stop :: rest, (build, _) => settle rest (build, false)
  | .restart _ :: rest, (build, _) => settle rest (build, true)
  | .exit :: rest, held => if rest = [] then some held else none

/-- What is still held when the reducer hears of an event. -/
def released : DevEvent → Bool × Bool → Bool × Bool
  | .buildSucceeded _, (_, application) => (false, application)
  | .buildFailed, (_, application) => (false, application)
  | .applicationExited, (build, _) => (build, false)
  | .shutdown, (_, application) => (false, application)
  | .start, held => held
  | .changed _, held => held

/-- The actions of a transition bring what is held in line with the new state. -/
theorem settle_of_steps {state after : DevState} {event : DevEvent} {actions : List DevAction}
    (h : DevState.Steps state event after actions) (hopen : state.shuttingDown = false) :
    settle actions (released event (state.buildRunning, state.applicationRunning)) =
      some (after.buildRunning, after.applicationRunning) := by
  cases h with
  | closed hclosed => simp [hopen] at hclosed
  | building | unchanged | queued | unbuilt | exited => rfl
  | begun _ hevent hidle => obtain rfl | rfl := hevent <;> simp [settle, released, hidle]
  | restarted _ _ _ hrunning => simp [settle, released, hrunning]
  | started _ _ _ hrunning => simp [settle, released, hrunning]
  | failed => by_cases hpending : state.pending = .rebuild <;> simp [settle, released, hpending]
  | built | shutdown =>
    by_cases hpending : state.pending = .rebuild <;> cases hrunning : state.applicationRunning <;>
      simp [settle, released, hpending]

theorem shuttingDown_of_exit {state after : DevState} {event : DevEvent} {actions : List DevAction}
    (h : DevState.Steps state event after actions) (hexit : .exit ∈ actions) :
    after.shuttingDown = true := by
  cases h with
  | shutdown => rfl
  | built | failed =>
    by_cases hpending : state.pending = .rebuild <;> cases hrunning : state.applicationRunning <;>
      simp [hpending, hrunning] at hexit
  | _ => simp at hexit

/-- Only a shutdown closes the session, and it asks for a stop and the exit. -/
theorem closing_of_steps {state after : DevState} {event : DevEvent} {actions : List DevAction}
    (h : DevState.Steps state event after actions) (hopen : state.shuttingDown = false)
    (hclosing : after.shuttingDown = true) :
    event = .shutdown ∧
      actions = (if state.applicationRunning then [.stop] else []) ++ [.exit] := by
  cases h with
  | shutdown => exact ⟨rfl, rfl⟩
  | _ => simp [hopen] at hclosing

/-- The reducer and the loop agree on what is held, up to the actions still to perform. -/
structure Sound (session : Session) (log : Log) : Prop where
  live : session.result = none
  reaches : DevState.Reaches session.state (entries log)
  pending : (entries log).flatMap (·.output) = performed log ++ session.actions
  settles : settle session.actions (session.build.isSome, session.application.isSome) =
    some (session.state.buildRunning, session.state.applicationRunning)
  exiting : .exit ∈ session.actions → session.state.shuttingDown = true
  closing : session.state.shuttingDown = true →
    (session.actions = [.stop, .exit] ∧ session.application.isSome = true) ∨
      (session.actions = [.exit] ∧ session.application = none)
  cargo : session.cargoProcesses = (session.build.bind BuildTask.process?).toList
  applications :
    session.applicationProcesses = (session.application.map ApplicationProcess.process).toList

/-- A session that ended holds no process. -/
structure Ended (session : Session) : Prop where
  finished : session.result.isSome = true
  cargo : session.cargoProcesses = []
  applications : session.applicationProcesses = []

variable {session held : Session} {log : Log}

theorem entries_concat (session : Session) (event : Event) (note : Option Note) :
    entries (log ++ [⟨session, event, note⟩]) =
      entries log ++ (note.bind Note.entry?).toList := by
  cases hnote : note.bind Note.entry? <;> simp [entries, hnote]

theorem performed_concat (session : Session) (event : Event) (note : Option Note) :
    performed (log ++ [⟨session, event, note⟩]) =
      performed log ++ (note.bind Note.action?).toList := by
  cases hnote : note.bind Note.action? <;> simp [performed, hnote]

@[simp] theorem dropBuild_cargo
    (h : session.cargoProcesses = (session.build.bind BuildTask.process?).toList) :
    session.dropBuild.cargoProcesses = [] := by
  rw [dropBuild, h]
  cases session.build.bind BuildTask.process? <;> simp

@[simp] theorem dropApplication_processes
    (h : session.applicationProcesses =
      (session.application.map ApplicationProcess.process).toList) :
    session.dropApplication.applicationProcesses = [] := by
  rw [dropApplication, h]
  cases session.application <;> simp

theorem fail_ended {error : CliError}
    (hcargo : session.cargoProcesses = (session.build.bind BuildTask.process?).toList)
    (happlications : session.applicationProcesses =
      (session.application.map ApplicationProcess.process).toList) :
    Ended (session.fail error) where
  finished := rfl
  cargo := dropBuild_cargo hcargo
  applications := @dropApplication_processes session.dropBuild happlications

/-- Once the loop has let go of what the event ends, the reducer's answer keeps the two in line. -/
theorem Sound.after_event {event : DevEvent} {step : Event} (hlive : held.result = none)
    (hreaches : DevState.Reaches held.state (entries log))
    (hpending : (entries log).flatMap (·.output) = performed log)
    (hopen : held.state.shuttingDown = false)
    (hheld : (held.build.isSome, held.application.isSome) =
      released event (held.state.buildRunning, held.state.applicationRunning))
    (hcargo : held.cargoProcesses = (held.build.bind BuildTask.process?).toList)
    (happlications : held.applicationProcesses =
      (held.application.map ApplicationProcess.process).toList) :
    Sound (held.react event).1 (log ++ [⟨session, step, (held.react event).2⟩]) := by
  have hsteps := DevState.transition_steps held.state event
  have hentries : entries (log ++ [⟨session, step, (held.react event).2⟩]) =
      entries log ++ [⟨held.state, event, (held.state.transition event).2⟩] :=
    entries_concat _ _ _
  have hperformed : performed (log ++ [⟨session, step, (held.react event).2⟩]) = performed log :=
    (performed_concat _ _ _).trans (List.append_nil _)
  refine ⟨hlive, ?_, ?_, ?_, ?_, ?_, hcargo, happlications⟩
  · rw [hentries]
    exact hreaches.next rfl
  · rw [hentries, hperformed, List.flatMap_append, hpending]
    simp [Session.react]
  · change settle _ (held.build.isSome, held.application.isSome) = _
    rw [hheld]
    exact settle_of_steps hsteps hopen
  · exact shuttingDown_of_exit hsteps
  · intro hclosing
    obtain ⟨rfl, hactions⟩ := closing_of_steps hsteps hopen hclosing
    obtain ⟨-, happlication⟩ := Prod.mk.inj hheld
    change (held.state.transition .shutdown).2 = _ ∧ held.application.isSome = true ∨
      (held.state.transition .shutdown).2 = _ ∧ held.application = none
    rw [hactions, happlication]
    cases hup : held.state.applicationRunning with
    | true => exact .inl ⟨rfl, rfl⟩
    | false =>
      rw [hup] at happlication
      exact .inr ⟨rfl, by simpa using happlication⟩

/-- The step left the session in line, or ended it. -/
def Kept (session : Session) (log : Log) : Prop := Sound session log ∨ Ended session

/-- Performing an action moves it from what is asked for to what was done. -/
theorem Sound.after_action {step : Event} {action : DevAction} {rest : List DevAction}
    {after : Session} (h : Sound session log) (hactions : session.actions = action :: rest)
    (hlive : after.result = none) (hstate : after.state = session.state)
    (hrest : after.actions = rest)
    (hheld : settle (action :: rest) (session.build.isSome, session.application.isSome) =
      settle rest (after.build.isSome, after.application.isSome))
    (hexit : action ≠ .exit) (hstop : action = .stop → after.application = none)
    (hcargo : after.cargoProcesses = (after.build.bind BuildTask.process?).toList)
    (happlications : after.applicationProcesses =
      (after.application.map ApplicationProcess.process).toList) :
    Sound after (log ++ [⟨session, step, some (.performed action)⟩]) := by
  have hentries : entries (log ++ [⟨session, step, some (.performed action)⟩]) = entries log :=
    (entries_concat _ _ _).trans (List.append_nil _)
  have hperformed : performed (log ++ [⟨session, step, some (.performed action)⟩]) =
      performed log ++ [action] := performed_concat _ _ _
  refine ⟨hlive, ?_, ?_, ?_, ?_, ?_, hcargo, happlications⟩
  · rw [hentries, hstate]
    exact h.reaches
  · rw [hentries, hperformed, h.pending, hactions, hrest]
    simp
  · rw [hrest, ← hheld, ← hactions, h.settles, hstate]
  · intro hexit
    rw [hstate]
    refine h.exiting ?_
    rw [hactions]
    rw [hrest] at hexit
    exact List.mem_cons_of_mem _ hexit
  · intro hclosing
    rw [hstate] at hclosing
    rw [hrest]
    obtain ⟨hboth, -⟩ | ⟨hlast, -⟩ := h.closing hclosing
    · obtain ⟨rfl, rfl⟩ := List.cons.inj (hactions.symm.trans hboth)
      exact .inr ⟨rfl, hstop rfl⟩
    · exact absurd (List.cons.inj (hactions.symm.trans hlast)).1 hexit

theorem settle_build {rest : List DevAction} {build application : Bool} {held : Bool × Bool}
    (h : settle (.build :: rest) (build, application) = some held) : build = false := by
  cases build
  · rfl
  · simp [settle] at h

theorem settle_start {built : BuiltApplication} {rest : List DevAction} {build application : Bool}
    {held : Bool × Bool} (h : settle (.start built :: rest) (build, application) = some held) :
    application = false := by
  cases application
  · rfl
  · simp [settle] at h

/-- No build is held where one is to be started. -/
theorem Sound.build_none (h : Sound session log) {rest : List DevAction}
    (hactions : session.actions = .build :: rest) : session.build = none := by
  have hsettles := h.settles
  rw [hactions] at hsettles
  simpa using settle_build hsettles

/-- No application is held where one is to be started. -/
theorem Sound.application_none (h : Sound session log) {built : BuiltApplication}
    {rest : List DevAction} (hactions : session.actions = .start built :: rest) :
    session.application = none := by
  have hsettles := h.settles
  rw [hactions] at hsettles
  simpa using settle_start hsettles

/-- Without an application, a start spawns one or the session ends. -/
theorem start_cases (h : session.application = none) (built : BuiltApplication)
    (spawn : Option CliError) :
    (∃ error, session.start built spawn = .error error) ∨
      session.start built spawn = .ok
        { session with
          application := some ⟨session.spawned, built, false⟩
          applicationProcesses := session.applicationProcesses ++ [session.spawned]
          spawned := session.spawned + 1 } := by
  cases spawn with
  | none => exact .inr (by simp [start, h])
  | some error => exact .inl ⟨error, by simp [start, h]⟩

theorem stop_cases (session : Session) (stopped : Option CliError) :
    (∃ error, session.stop stopped = .error error) ∨
      session.stop stopped = .ok session.dropApplication := by
  unfold stop
  split
  · next error _ => exact .inl ⟨error, rfl⟩
  · exact .inr rfl

theorem Sound.act {step : Event} {action : DevAction} {rest : List DevAction}
    (h : Sound session log) (hactions : session.actions = action :: rest) (outcome : Outcome) :
    Kept ({ session with actions := rest }.perform action outcome)
      (log ++ [⟨session, step, some (.performed action)⟩]) := by
  -- the action leaves the batch before it is performed
  obtain ⟨popped, hpopped⟩ : ∃ popped : Session, popped = { session with actions := rest } :=
    ⟨_, rfl⟩
  have hlive : popped.result = none := by rw [hpopped]; exact h.live
  have hstate : popped.state = session.state := by rw [hpopped]
  have hrest : popped.actions = rest := by rw [hpopped]
  have hbuild : popped.build = session.build := by rw [hpopped]
  have happlication : popped.application = session.application := by rw [hpopped]
  have hcargo : popped.cargoProcesses = (popped.build.bind BuildTask.process?).toList := by
    rw [hpopped]; exact h.cargo
  have happlications : popped.applicationProcesses =
      (popped.application.map ApplicationProcess.process).toList := by
    rw [hpopped]; exact h.applications
  have hdropped := dropApplication_processes happlications
  have hfail : ∀ error, Ended (popped.fail error) := fun _ => fail_ended hcargo happlications
  rw [← hpopped]
  clear hpopped
  cases action with
  | build =>
    left
    have hnone := h.build_none hactions
    rw [hbuild, hnone] at hcargo
    unfold Session.perform startBuild
    cases outcome.spawn with
    | none =>
      refine h.after_action hactions hlive hstate hrest ?_ (by simp) (by simp) ?_ happlications
      · simp [settle, hnone, happlication]
      · simp [hcargo, BuildTask.process?]
    | some error =>
      refine h.after_action hactions hlive hstate hrest ?_ (by simp) (by simp) ?_ happlications
      · simp [settle, hnone, happlication]
      · simp [hcargo, BuildTask.process?]
  | start built =>
    have hnone := happlication.trans (h.application_none hactions)
    rw [hnone] at happlications
    obtain ⟨error, hcall⟩ | hcall := start_cases hnone built outcome.spawn
    · right
      simp only [Session.perform, hcall, settled]
      exact hfail error
    · left
      simp only [Session.perform, hcall, settled]
      refine h.after_action hactions hlive hstate hrest ?_ (by simp) (by simp) hcargo ?_
      · simp [settle, hbuild, h.application_none hactions]
      · simp [happlications]
  | stop =>
    obtain ⟨error, hcall⟩ | hcall := stop_cases popped outcome.stop
    · right
      simp only [Session.perform, hcall, settled]
      exact hfail error
    · left
      simp only [Session.perform, hcall, settled]
      refine h.after_action hactions hlive hstate hrest ?_ (by simp) (fun _ => rfl) hcargo hdropped
      simp [settle, dropApplication, hbuild]
  | restart built =>
    obtain ⟨error, hcall⟩ | hcall := stop_cases popped outcome.stop
    · right
      simp only [Session.perform, hcall, settled, bind, Except.bind]
      exact hfail error
    · have hnone : popped.dropApplication.application = none := rfl
      -- the stop worked, so the start finds no application
      obtain ⟨error, hstart⟩ | hstart := start_cases hnone built outcome.spawn
      · right
        simp only [Session.perform, hcall, hstart, settled, bind, Except.bind]
        exact hfail error
      · left
        simp only [Session.perform, hcall, hstart, settled, bind, Except.bind]
        refine h.after_action hactions hlive hstate hrest ?_ (by simp) (by simp) hcargo ?_
        · simp [settle, dropApplication, hbuild]
        · simp [hdropped]
  | exit =>
    right
    -- the exit is the last action of a closed session, which holds neither build nor application
    have hclosed := h.exiting (by rw [hactions]; exact List.mem_cons_self)
    obtain ⟨hidle, -⟩ := h.reaches.closed hclosed
    obtain ⟨hboth, -⟩ | ⟨hlast, hdown⟩ := h.closing hclosed
    · simp [hactions] at hboth
    · have hsettles := h.settles
      rw [hlast, hdown] at hsettles
      have hnone : session.build = none := by
        simpa [settle, hidle] using (Prod.mk.inj (Option.some.inj hsettles)).1
      refine ⟨rfl, ?_, ?_⟩
      · exact hcargo.trans (by rw [hbuild, hnone]; rfl)
      · exact happlications.trans (by rw [happlication, hdown]; rfl)

/-- The history does not grow where nothing is noted. -/
theorem Sound.quiet {step : Event} {after : Session} (h : Sound session log)
    (hlive : after.result = none) (hstate : after.state = session.state)
    (hactions : after.actions = session.actions) (hbuild : after.build = session.build)
    (happlication : after.application.map ApplicationProcess.process =
      session.application.map ApplicationProcess.process)
    (hcargo : after.cargoProcesses = session.cargoProcesses)
    (happlications : after.applicationProcesses = session.applicationProcesses) :
    Sound after (log ++ [⟨session, step, none⟩]) := by
  have hentries : entries (log ++ [⟨session, step, none⟩]) = entries log :=
    (entries_concat _ _ _).trans (List.append_nil _)
  have hperformed : performed (log ++ [⟨session, step, none⟩]) = performed log :=
    (performed_concat _ _ _).trans (List.append_nil _)
  have hsome : after.application.isSome = session.application.isSome := by
    simpa using congrArg Option.isSome happlication
  refine ⟨hlive, ?_, ?_, ?_, ?_, ?_, ?_, ?_⟩
  · rw [hentries, hstate]
    exact h.reaches
  · rw [hentries, hperformed, hactions, h.pending]
  · rw [hactions, hbuild, hsome, hstate, h.settles]
  · rw [hactions, hstate]
    exact h.exiting
  · rw [hactions, hstate, hsome, ← Option.isNone_iff_eq_none, ← Option.not_isSome, hsome,
      Option.not_isSome, Option.isNone_iff_eq_none]
    exact h.closing
  · rw [hcargo, hbuild, h.cargo]
  · rw [happlications, happlication, h.applications]

/-- Between batches the session is open, and what is held is what the reducer says. -/
theorem Sound.idle (h : Sound session log) (hactions : session.actions = []) :
    session.state.shuttingDown = false ∧ (entries log).flatMap (·.output) = performed log ∧
      session.state.buildRunning = session.build.isSome ∧
      session.state.applicationRunning = session.application.isSome := by
  have hpending := h.pending
  have hsettles := h.settles
  rw [hactions] at hpending hsettles
  obtain ⟨hbuild, happlication⟩ := Prod.mk.inj (Option.some.inj hsettles)
  refine ⟨?_, by simpa using hpending, hbuild.symm, happlication.symm⟩
  by_contra hclosed
  have hclosing := h.closing (by simpa using hclosed)
  simp [hactions] at hclosing

theorem cancelActiveBuild_cases (session : Session) (cancel : Option CliError) :
    (∃ error, session.cancelActiveBuild cancel = .error error) ∨
      session.cancelActiveBuild cancel = .ok session.dropBuild := by
  unfold cancelActiveBuild
  split
  · next error _ => exact .inl ⟨error, rfl⟩
  · exact .inr rfl

/-- What the loop lets go of before it reports an event to the reducer. -/
inductive Releases (session : Session) : DevEvent → Session → Prop
  | change (impact : ChangeImpact) : Releases session (.changed impact) session
  | build {event : DevEvent} (h : ∀ held, released event held = (false, held.2)) :
      Releases session event session.dropBuild
  | application : Releases session .applicationExited session.dropApplication

/-- What one step of a running session does. -/
inductive Advances (session : Session) : Event → Session → Option Note → Prop
  | dies : Advances session .applicationDies
      { session with application := session.application.map ({ · with exited := true }) } none
  | acts {action : DevAction} {rest : List DevAction} (outcome : Outcome)
      (hactions : session.actions = action :: rest) : Advances session (.act outcome)
        ({ session with actions := rest }.perform action outcome) (some (.performed action))
  | fails (event : Event) (error : CliError) : Advances session event (session.fail error) none
  | ignores (event : Event) : Advances session event session none
  | reports {event : Event} {reported : DevEvent} {held : Session}
      (hactions : session.actions = []) (hreleases : Releases session reported held) :
      Advances session event (held.react reported).1 (held.react reported).2

theorem advance_advances {event : Event} {result : Session × Option Note}
    (h : session.advance event = some result) : Advances session event result.1 result.2 := by
  unfold advance at h
  cases event with
  | applicationDies =>
    obtain rfl := Option.some.inj h
    exact .dies
  | act outcome =>
    cases hactions : session.actions with
    | nil => simp [hactions] at h
    | cons action rest =>
      simp only [hactions, Option.some.injEq] at h
      subst h
      exact .acts outcome hactions
  | shutdown cancel =>
    cases hactions : session.actions with
    | cons action rest => simp [hactions] at h
    | nil =>
      simp only [hactions] at h
      obtain ⟨error, hcancel⟩ | hcancel := cancelActiveBuild_cases session cancel
      · simp only [hcancel, Option.some.injEq] at h
        subst h
        exact .fails _ error
      · simp only [hcancel, Option.some.injEq] at h
        subst h
        exact .reports hactions (.build fun _ => rfl)
  | change change =>
    cases hactions : session.actions with
    | cons action rest => cases change <;> simp [hactions] at h
    | nil =>
      cases change with
      | ok impact =>
        simp only [hactions, Option.some.injEq] at h
        subst h
        exact .reports hactions (.change impact)
      | error error =>
        simp only [hactions, Option.some.injEq] at h
        subst h
        exact .fails _ error
  | buildFinished outcome cancel =>
    cases hactions : session.actions with
    | cons action rest => simp [hactions] at h
    | nil =>
      simp only [hactions] at h
      split at h
      · cases h
      · cases outcome with
        | ok built =>
          obtain rfl := Option.some.inj h
          exact .reports hactions (.build fun _ => rfl)
        | error failure =>
          obtain ⟨error, hcancel⟩ | hcancel := cancelActiveBuild_cases session cancel
          · simp only [hcancel, Option.some.injEq] at h
            subst h
            exact .fails _ error
          · simp only [hcancel, Option.some.injEq] at h
            subst h
            exact .reports hactions (.build fun _ => rfl)
  | processCheck observed =>
    cases hactions : session.actions with
    | cons action rest => simp [hactions] at h
    | nil =>
      simp only [hactions] at h
      split at h
      · next error _ =>
        obtain rfl := Option.some.inj h
        exact .fails _ error
      · split at h
        · obtain rfl := Option.some.inj h
          exact .reports hactions .application
        · obtain rfl := Option.some.inj h
          exact .ignores _
      · obtain rfl := Option.some.inj h
        exact .ignores _

/-- Between batches, what the loop still holds is what the reducer will take to be held. -/
theorem Sound.after_report {reported : DevEvent} {step : Event} (h : Sound session log)
    (hactions : session.actions = []) (hreleases : Releases session reported held) :
    Sound (held.react reported).1 (log ++ [⟨session, step, (held.react reported).2⟩]) := by
  obtain ⟨hopen, hdone, hbuild, happlication⟩ := h.idle hactions
  cases hreleases with
  | change impact =>
    refine Sound.after_event h.live h.reaches hdone hopen ?_ h.cargo h.applications
    rw [hbuild, happlication]
    rfl
  | build hevent =>
    refine Sound.after_event h.live h.reaches hdone hopen ?_
      (dropBuild_cargo h.cargo) h.applications
    rw [hevent]
    exact congrArg (Prod.mk false) happlication.symm
  | application =>
    refine Sound.after_event h.live h.reaches hdone hopen ?_ h.cargo
      (dropApplication_processes h.applications)
    exact congrArg (fun build => (build, false)) hbuild.symm

/-- Every step keeps the reducer and the loop in line, or ends the session. -/
theorem Sound.after_step {event : Event} {after : Session} {note : Option Note}
    (h : Sound session log) (hstep : session.step event = some (after, note)) :
    Kept after (log ++ [⟨session, event, note⟩]) := by
  have hadvance : session.advance event = some (after, note) := by
    simpa [Session.step, h.live] using hstep
  cases advance_advances hadvance with
  | dies =>
    refine .inl (h.quiet h.live rfl rfl rfl ?_ rfl rfl)
    cases session.application <;> rfl
  | acts outcome hactions => exact h.act hactions outcome
  | fails _ error => exact .inr (fail_ended h.cargo h.applications)
  | ignores => exact .inl (h.quiet h.live rfl rfl rfl rfl rfl rfl)
  | reports hactions hreleases => exact .inl (h.after_report hactions hreleases)

theorem sound_new : Sound new [] where
  live := rfl
  reaches := Machine.Reaches.start.next rfl
  pending := rfl
  settles := rfl
  exiting := by decide
  closing := by decide
  cargo := rfl
  applications := rfl

/-- What the invariant says of every session. -/
theorem Reaches.kept (h : Reaches session log) : Kept session log := by
  refine Machine.Reaches.invariant (P := Kept) (.inl sound_new) ?_ h
  intro before log event after note _ ih hstep
  cases ih with
  | inl hsound => exact hsound.after_step hstep
  | inr hended => simp [Session.step, hended.finished] at hstep

/-- At most one Cargo process and one application process exist. While a session runs, a build or an
application is started only where none is held; after each batch of actions, the reducer knows what
is held, and all that it asked for was done; the rebuilds that come in during one build lead to one
build after it; and after a shutdown only a stop of the application, if one is held, and the exit
are left to do. -/
theorem Reaches.supervised (h : Reaches session log) :
    session.cargoProcesses.length ≤ 1 ∧ session.applicationProcesses.length ≤ 1 ∧
      (session.result = none →
        (∀ rest, session.actions = .build :: rest → session.build = none) ∧
        (∀ built rest, session.actions = .start built :: rest → session.application = none) ∧
        (session.actions = [] →
          session.state.buildRunning = session.build.isSome ∧
          session.state.applicationRunning = session.application.isSome ∧
          performed log = (entries log).flatMap (·.output)) ∧
        (∀ pre mid post : List DevEntry, ∀ begun ended : DevEntry,
          entries log = pre ++ begun :: (mid ++ ended :: post) → begun.startsBuild →
          (∀ entry : DevEntry, entry ∈ mid → entry.endsBuild = false ∧ entry.event ≠ .shutdown) →
          ended.endsBuild →
          (∀ entry : DevEntry, entry ∈ mid → entry.startsBuild = false) ∧
            ended.output.count .build =
              if mid.any (fun entry => entry.event = .changed .rebuild) then 1 else 0) ∧
        (session.state.shuttingDown = true →
          (session.actions = [.stop, .exit] ∧ session.application.isSome = true) ∨
            (session.actions = [.exit] ∧ session.application = none))) := by
  cases h.kept with
  | inr hended =>
    refine ⟨by simp [hended.cargo], by simp [hended.applications], fun hlive => ?_⟩
    have hover := hended.finished
    simp [hlive] at hover
  | inl hsound =>
    refine ⟨?_, ?_, fun _ => ⟨fun _ => hsound.build_none, fun _ _ => hsound.application_none,
      fun hactions => ?_, ?_, hsound.closing⟩⟩
    · rw [hsound.cargo]
      cases session.build.bind BuildTask.process? <;> simp
    · rw [hsound.applications]
      cases session.application <;> simp
    · obtain ⟨-, hdone, hbuild, happlication⟩ := hsound.idle hactions
      exact ⟨hbuild, happlication, hdone.symm⟩
    · intro pre mid post begun ended heq hbegun hmid hended
      have hreaches := hsound.reaches
      rw [heq] at hreaches
      exact hreaches.coalesced hbegun hmid hended

/-- Two changes come in while the first build runs, which then fails. -/
def rebuildsTwice : List Event :=
  [.act {}, .change (.ok .rebuild), .change (.ok .rebuild),
    .buildFinished (.error secondApplication) none, .act {}]

/-- They lead to one more build. -/
theorem Reaches.supervised_sample :
    ∃ session log, Machine.run step new rebuildsTwice = some (session, log) ∧
      session.cargoProcesses.length ≤ 1 ∧ (entries log).flatMap (·.output) = [.build, .build] ∧
      session.state.buildRunning = session.build.isSome := by
  refine ⟨_, _, rfl, ?_⟩
  have hreaches : Reaches _ _ :=
    Machine.reaches_of_run (show Machine.run step new rebuildsTwice = some (_, _) from rfl)
  obtain ⟨hcargo, -, hlive⟩ := Reaches.supervised hreaches
  obtain ⟨-, -, hidle, -, -⟩ := hlive rfl
  obtain ⟨hbuild, -, hdone⟩ := hidle rfl
  exact ⟨hcargo, hdone.symm, hbuild⟩

end Session

end Mads
