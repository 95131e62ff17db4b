import Mads.Cli.Debounce
import Mads.Cli.DevSession

/-!
# The whole of `mads dev`: the watch task, the channel of changes and the event loop

The watch task and the loop run side by side. A change waits in the channel until the loop takes
it, and the task is aborted once the loop has ended.
-/

namespace Mads

namespace Session

/-- A rebuild is owed: it is remembered until the running build ends, or asked for, unless the
session closes. -/
inductive Owes (session : Session) : Prop
  | done (h : session.result.isSome = true)
  | closing (h : session.state.shuttingDown = true)
  | pending (h : session.state.pending = .rebuild) (hbuild : session.state.buildRunning = true)
  | asked (h : .build ∈ session.actions)

variable {session after : Session} {event : Event} {note : Option Note}

/-- The call leaves the reducer's state and the actions still to perform alone. -/
def PlanKept (session after : Session) : Prop :=
  after.state = session.state ∧ (after.result.isSome = true ∨ after.actions = session.actions)

theorem planKept_fail (error : CliError) : PlanKept session (session.fail error) := ⟨rfl, .inl rfl⟩

theorem planKept_start {built : BuiltApplication} {spawn : Option CliError}
    (h : session.start built spawn = .ok after) : PlanKept session after := by
  unfold start at h
  split at h
  · cases h
  · split at h
    · cases h
    · obtain rfl := Except.ok.inj h
      exact ⟨rfl, .inr rfl⟩

theorem planKept_stop {stopped : Option CliError} (h : session.stop stopped = .ok after) :
    PlanKept session after := by
  obtain ⟨error, hcall⟩ | hcall := stop_cases session stopped
  · rw [hcall] at h
    cases h
  · rw [hcall] at h
    obtain rfl := Except.ok.inj h
    exact ⟨rfl, .inr rfl⟩

theorem planKept_settled {call : Except CliError Session}
    (h : ∀ after, call = .ok after → PlanKept session after) :
    PlanKept session (session.settled call) := by
  cases call with
  | ok after => exact h after rfl
  | error error => exact planKept_fail error

theorem PlanKept.trans {last : Session} (h : PlanKept session after) (hnext : PlanKept after last)
    (hlive : after.result = none) : PlanKept session last := by
  refine ⟨hnext.1.trans h.1, hnext.2.imp_right fun hactions => hactions.trans ?_⟩
  exact h.2.resolve_left (by simp [hlive])

theorem planKept_perform (session : Session) (action : DevAction) (outcome : Outcome)
    (hlive : session.result = none) : PlanKept session (session.perform action outcome) := by
  cases action with
  | build =>
    unfold perform startBuild
    cases outcome.spawn <;> exact ⟨rfl, .inr rfl⟩
  | start built => exact planKept_settled fun _ => planKept_start
  | stop => exact planKept_settled fun _ => planKept_stop
  | restart built =>
    refine planKept_settled fun last hcall => ?_
    obtain ⟨error, hstop⟩ | hstop := stop_cases session outcome.stop
    · rw [hstop] at hcall
      cases hcall
    · rw [hstop] at hcall
      exact (planKept_stop hstop).trans (planKept_start hcall) hlive
  | exit => exact ⟨rfl, .inl rfl⟩

/-- A transition keeps a rebuild that the reducer remembers, or asks for it. -/
theorem owed_of_steps {before state : DevState} {reported : DevEvent} {actions : List DevAction}
    (h : DevState.Steps before reported state actions) (hpending : before.pending = .rebuild)
    (hbuild : before.buildRunning = true) :
    state.shuttingDown = true ∨ .build ∈ actions ∨
      (state.pending = .rebuild ∧ state.buildRunning = true) := by
  cases h with
  | closed hclosed => exact .inl hclosed
  | building | unchanged | exited => exact .inr (.inr ⟨hpending, hbuild⟩)
  | queued => exact .inr (.inr ⟨by rw [hpending, ChangeImpact.merge_rebuild], hbuild⟩)
  | begun _ _ hidle => simp [hbuild] at hidle
  | unbuilt _ hidle | restarted _ hidle | started _ hidle => simp [hbuild] at hidle
  | built | failed => exact .inr (.inl (by simp [hpending]))
  | shutdown => exact .inl rfl

/-- A rebuild that comes in is asked for, or remembered. -/
theorem owed_of_rebuild {before state : DevState} {actions : List DevAction}
    (h : DevState.Steps before (.changed .rebuild) state actions) :
    state.shuttingDown = true ∨ .build ∈ actions ∨
      (state.pending = .rebuild ∧ state.buildRunning = true) := by
  cases h with
  | closed hclosed => exact .inl hclosed
  | queued _ _ hbuild =>
    refine .inr (.inr ⟨?_, hbuild⟩)
    show ChangeImpact.merge [before.pending, .rebuild] = .rebuild
    cases before.pending <;> rfl
  | begun => exact .inr (.inl (List.mem_singleton_self _))

theorem Owes.react {held : Session} {reported : DevEvent}
    (h : ∀ {state actions}, DevState.Steps held.state reported state actions →
      state.shuttingDown = true ∨ .build ∈ actions ∨
        (state.pending = .rebuild ∧ state.buildRunning = true)) :
    Owes (held.react reported).1 := by
  obtain hclosing | hasked | ⟨hpending, hbuild⟩ := h (DevState.transition_steps held.state reported)
  · exact .closing hclosing
  · exact .asked hasked
  · exact .pending hpending hbuild

/-- What was owed before an action is owed after it, unless the action was the build. -/
theorem Owes.after_action {popped : Session} {action : DevAction} {rest : List DevAction}
    (h : Owes session) (hlive : session.result = none) (hactions : session.actions = action :: rest)
    (hpopped : popped = { session with actions := rest }) (hkept : PlanKept popped after) :
    action = .build ∨ Owes after := by
  have hstate : after.state = session.state := hkept.1.trans (by rw [hpopped])
  obtain hdone | hrest := hkept.2
  · exact .inr (.done hdone)
  · have hrest : after.actions = rest := hrest.trans (by rw [hpopped])
    cases h with
    | done h => simp [hlive] at h
    | closing h => exact .inr (.closing (by rw [hstate, h]))
    | pending h hbuild => exact .inr (.pending (by rw [hstate, h]) (by rw [hstate, hbuild]))
    | asked h =>
      rw [hactions] at h
      obtain rfl | h := List.mem_cons.mp h
      · exact .inl rfl
      · exact .inr (.asked (by rw [hrest]; exact h))

/-- A rebuild that is owed stays owed until it is performed. -/
theorem Owes.step (h : Owes session) (hstep : session.step event = some (after, note)) :
    note = some (.performed .build) ∨ Owes after := by
  have hlive : session.result = none := by
    rw [Session.step] at hstep
    split at hstep
    · cases hstep
    · next hlive => simpa using hlive
  have hadvance : session.advance event = some (after, note) := by
    simpa [Session.step, hlive] using hstep
  cases advance_advances hadvance with
  | dies =>
    right
    cases h with
    | done h => exact .done h
    | closing h => exact .closing h
    | pending h hbuild => exact .pending h hbuild
    | asked h => exact .asked h
  | ignores => exact .inr h
  | fails => exact .inr (.done rfl)
  | @acts action rest outcome hactions =>
    obtain rfl | howes :=
      h.after_action hlive hactions rfl (planKept_perform _ action outcome hlive)
    · exact .inl rfl
    · exact .inr howes
  | @reports _ reported held hactions hreleases =>
    right
    have hstate : held.state = session.state := by cases hreleases <;> rfl
    cases h with
    | done h => simp [hlive] at h
    | closing h =>
      refine .closing ?_
      show (held.state.transition reported).1.shuttingDown = true
      unfold DevState.transition
      rw [hstate, if_pos h]
      exact h
    | pending h hbuild =>
      refine Owes.react fun hsteps => owed_of_steps hsteps ?_ ?_
      · rw [hstate, h]
      · rw [hstate, hbuild]
    | asked h =>
      rw [hactions] at h
      cases h

end Session

def watchChannelClosed : CliError where
  code := "MADS220"
  title := "File watcher failed"
  message := "the debounced watch event channel closed unexpectedly"

/-- `run_dev_with_target`: the watch task, the channel, and the event loop. -/
structure DevRun where
  task : WatchTask
  changes : List Change
  session : Session

namespace DevRun

def new : DevRun := ⟨.new, [], .new⟩

/-- What happens next: the watch task hears of something, the loop takes the next change, or
something else happens to the loop. -/
inductive Event where
  | watch (input : WatchInput)
  | deliver
  | session (event : Session.Event)

/-- The change that the loop receives, and what stays in the channel. The channel is closed once the
task is at its end. -/
def receive (run : DevRun) : Option (Change × List Change) :=
  match run.changes with
  | change :: rest => some (change, rest)
  | [] => if run.task.phase = .finished then some (.error watchChannelClosed, []) else none

def step (watch : WatchSet) (run : DevRun) (event : Event) :
    Option (DevRun × Option Session.Note) :=
  if run.session.result.isSome then none
  else
    match event with
    | .watch input => do
      let (task, change) ← run.task.step watch input
      return ({ run with task, changes := run.changes ++ change.toList }, none)
    | .deliver => do
      let (change, changes) ← run.receive
      let (session, note) ← run.session.step (.change change)
      return ({ run with changes, session }, note)
    | .session (.change _) => none
    | .session event => do
      let (session, note) ← run.session.step event
      return ({ run with session }, note)

abbrev Log := List (Machine.Entry DevRun Event (Option Session.Note))

/-- The states that any interleaving of file events, changes, builds, exits and signals leads to. -/
abbrev Reaches (watch : WatchSet) : DevRun → Log → Prop := Machine.Reaches new (step watch)

variable {watch : WatchSet} {run after : DevRun} {event : Event} {note : Option Session.Note}
  {log : Log}

/-- What one step can do. -/
inductive Steps (watch : WatchSet) (run : DevRun) :
    Event → DevRun → Option Session.Note → Prop
  | watches {input : WatchInput} {task : WatchTask} {change : Option Change}
      (h : run.task.step watch input = some (task, change)) :
      Steps watch run (.watch input) { run with task, changes := run.changes ++ change.toList } none
  | delivers {change : Change} {changes : List Change} {session : Session}
      {note : Option Session.Note} (hreceive : run.receive = some (change, changes))
      (h : run.session.step (.change change) = some (session, note)) :
      Steps watch run .deliver { run with changes, session } note
  | continues {event : Session.Event} {session : Session} {note : Option Session.Note}
      (h : run.session.step event = some (session, note)) :
      Steps watch run (.session event) { run with session } note

theorem steps_of_step (h : step watch run event = some (after, note)) :
    Steps watch run event after note := by
  unfold step at h
  split at h
  · cases h
  · cases event with
    | watch input =>
      obtain ⟨⟨task, change⟩, htask, heq⟩ := Option.bind_eq_some_iff.mp h
      obtain ⟨rfl, rfl⟩ := Prod.mk.inj (Option.some.inj heq)
      exact .watches htask
    | deliver =>
      obtain ⟨⟨change, changes⟩, hreceive, h⟩ := Option.bind_eq_some_iff.mp h
      obtain ⟨⟨session, note⟩, hsession, heq⟩ := Option.bind_eq_some_iff.mp h
      obtain ⟨rfl, rfl⟩ := Prod.mk.inj (Option.some.inj heq)
      exact .delivers hreceive hsession
    | session event =>
      cases event with
      | change => cases h
      | _ =>
        obtain ⟨⟨session, note⟩, hsession, heq⟩ := Option.bind_eq_some_iff.mp h
        obtain ⟨rfl, rfl⟩ := Prod.mk.inj (Option.some.inj heq)
        exact .continues hsession

/-- A rebuild is owed: it is part of the open burst, waits in the channel, or the loop owes it. -/
inductive Owes (run : DevRun) : Prop
  | burst {deadline : ℕ} (h : run.task.phase = .collecting .rebuild deadline)
  | sent (h : .ok .rebuild ∈ run.changes)
  | session (h : run.session.Owes)
  | finished (h : run.task.phase = .finished)

theorem not_advances_finished {input : WatchInput} {phase : WatchPhase} {change : Option Change}
    {saw : Option (ℕ × ChangeImpact)} :
    ¬ WatchTask.Advances watch .finished input phase change saw := by
  intro h
  cases h with
  | fails hphase | ignores hphase => exact hphase rfl

/-- A burst that asks for a rebuild stays open or is reported, unless the task ends. -/
theorem advances_burst {input : WatchInput} {phase : WatchPhase} {change : Option Change}
    {saw : Option (ℕ × ChangeImpact)} {deadline : ℕ}
    (h : WatchTask.Advances watch (.collecting .rebuild deadline) input phase change saw) :
    phase = .finished ∨ (∃ deadline, phase = .collecting .rebuild deadline) ∨
      change = some (.ok .rebuild) := by
  cases h with
  | fails => exact .inl rfl
  | ignores => exact .inr (.inl ⟨_, rfl⟩)
  | joins => exact .inr (.inl ⟨_, by rw [ChangeImpact.merge_rebuild]⟩)
  | reports => exact .inr (.inr rfl)

theorem Owes.after_watch {input : WatchInput} {task : WatchTask} {change : Option Change}
    (h : run.Owes) (hstep : run.task.step watch input = some (task, change)) :
    Owes { run with task, changes := run.changes ++ change.toList } := by
  obtain ⟨-, -, hadvances⟩ := WatchTask.step_eq_some hstep
  cases h with
  | sent h => exact .sent (List.mem_append_left _ h)
  | session h => exact .session h
  | finished h =>
    rw [h] at hadvances
    exact absurd hadvances not_advances_finished
  | burst h =>
    rw [h] at hadvances
    obtain hfinished | ⟨deadline, hburst⟩ | hsent := advances_burst hadvances
    · exact .finished hfinished
    · exact .burst hburst
    · exact .sent (List.mem_append_right _ (by simp [hsent]))

/-- What the loop receives was the first change in the channel, or the channel is closed. -/
theorem receive_eq_some {change : Change} {changes : List Change}
    (h : run.receive = some (change, changes)) :
    run.changes = change :: changes ∨ (run.changes = [] ∧ changes = []) := by
  rw [receive] at h
  split at h
  · next first rest hchanges =>
    obtain ⟨rfl, rfl⟩ := Prod.mk.inj (Option.some.inj h)
    exact .inl hchanges
  · next hchanges =>
    split at h
    · obtain ⟨-, rfl⟩ := Prod.mk.inj (Option.some.inj h)
      exact .inr ⟨hchanges, rfl⟩
    · cases h

/-- The loop owes a rebuild that it was told of. -/
theorem owes_of_rebuild {session after : Session} {note : Option Session.Note}
    (h : session.step (.change (.ok .rebuild)) = some (after, note)) : after.Owes := by
  rw [Session.step] at h
  split at h
  · cases h
  · unfold Session.advance at h
    cases hactions : session.actions with
    | cons action rest => simp [hactions] at h
    | nil =>
      simp only [hactions, Option.some.injEq] at h
      have hafter : (session.react (.changed .rebuild)).1 = after := congrArg Prod.fst h
      rw [← hafter]
      exact Session.Owes.react Session.owed_of_rebuild

theorem Owes.step (h : run.Owes) (hstep : step watch run event = some (after, note)) :
    note = some (.performed .build) ∨ after.Owes := by
  cases steps_of_step hstep with
  | watches htask => exact .inr (h.after_watch htask)
  | delivers hreceive hsession =>
    cases h with
    | burst h => exact .inr (.burst h)
    | finished h => exact .inr (.finished h)
    | session h => exact (h.step hsession).imp_right .session
    | sent h =>
      right
      obtain hchanges | ⟨hchanges, -⟩ := receive_eq_some hreceive
      · rw [hchanges] at h
        obtain rfl | h := List.mem_cons.mp h
        · exact .session (owes_of_rebuild hsession)
        · exact .sent h
      · rw [hchanges] at h
        cases h
  | continues hsession =>
    cases h with
    | burst h => exact .inr (.burst h)
    | sent h => exact .inr (.sent h)
    | finished h => exact .inr (.finished h)
    | session h => exact (h.step hsession).imp_right .session

/-- The watch task receives an event that asks for a rebuild. -/
def SeesRebuild (watch : WatchSet) (event : Event) : Prop :=
  ∃ received now change, event = .watch (.received received now) ∧ received.recv = .ok change ∧
    watch.classifyEvent change = .rebuild

theorem owes_of_seesRebuild (hsees : SeesRebuild watch event)
    (hstep : step watch run event = some (after, note)) : after.Owes := by
  obtain ⟨received, now, change, rfl, hrecv, hclass⟩ := hsees
  cases steps_of_step hstep with
  | @watches _ task sent htask =>
    obtain ⟨-, -, hadvances⟩ := WatchTask.step_eq_some htask
    have hrelevant : WatchTask.relevant watch (.received received now) = some (now, .rebuild) := by
      rw [WatchTask.relevant_of_ok hrecv, hclass]
      rfl
    rw [hrelevant] at hadvances
    generalize hphase : task.phase = phase at hadvances
    generalize run.task.phase = before at hadvances
    cases hadvances with
    | opens => exact .burst hphase
    | @joins impact =>
      have hmerge : ChangeImpact.merge [impact, .rebuild] = .rebuild := by cases impact <;> rfl
      rw [hmerge] at hphase
      exact .burst hphase

/-- After an event that asks for a rebuild, a build was performed or is owed. -/
theorem Reaches.owes (h : Reaches watch run log) :
    ∀ pre entry post, log = pre ++ entry :: post → SeesRebuild watch entry.event →
      (∃ later ∈ post, later.output = some (.performed .build)) ∨ run.Owes := by
  induction h with
  | start =>
    intro pre entry post heq
    simp at heq
  | @next before after log event note h hstep ih =>
    intro pre entry post heq hsees
    obtain ⟨rfl, rfl, rfl⟩ | ⟨mid, rfl, hlog⟩ := Machine.concat_eq_split.mp heq
    · exact .inr (owes_of_seesRebuild hsees hstep)
    · obtain ⟨later, hlater, hbuilt⟩ | howes := ih pre entry mid hlog hsees
      · exact .inl ⟨later, List.mem_append_left _ hlater, hbuilt⟩
      · obtain hbuilt | howes := howes.step hstep
        · exact .inl ⟨_, List.mem_append_right _ (List.mem_singleton_self _), hbuilt⟩
        · exact .inr howes

/-- A run of the whole is a run of the event loop. -/
theorem Reaches.session (h : Reaches watch run log) : ∃ slog, Session.Reaches run.session slog := by
  induction h with
  | start => exact ⟨[], .start⟩
  | next h hstep ih =>
    obtain ⟨slog, hsession⟩ := ih
    cases steps_of_step hstep with
    | watches => exact ⟨slog, hsession⟩
    | delivers _ hnext => exact ⟨_, hsession.next hnext⟩
    | continues hnext => exact ⟨_, hsession.next hnext⟩

/-- Nothing is left to do: no burst is open, no change waits, and the loop is between batches, with
no build running. -/
structure Quiet (run : DevRun) : Prop where
  live : run.session.result = none
  phase : run.task.phase = .waiting
  changes : run.changes = []
  actions : run.session.actions = []
  build : run.session.state.buildRunning = false

/-- No saved source file is forgotten: whatever the order in which file events, waiting times,
changes, builds, exits and signals come, once the supervisor is quiet it has performed a build
after every event that asked for one. -/
theorem Reaches.rebuilt (h : Reaches watch run log) (hquiet : run.Quiet)
    {pre post : Log} {entry : Machine.Entry DevRun Event (Option Session.Note)}
    (hlog : log = pre ++ entry :: post) (hsees : SeesRebuild watch entry.event) :
    ∃ later ∈ post, later.output = some (.performed .build) := by
  obtain hbuilt | howes := h.owes pre entry post hlog hsees
  · exact hbuilt
  · exfalso
    cases howes with
    | burst hphase | finished hphase =>
      rw [hquiet.phase] at hphase
      cases hphase
    | sent hsent =>
      rw [hquiet.changes] at hsent
      cases hsent
    | session howes =>
      cases howes with
      | done hdone => simp [hquiet.live] at hdone
      | pending _ hbuild => simp [hquiet.build] at hbuild
      | asked hasked =>
        rw [hquiet.actions] at hasked
        cases hasked
      | closing hclosing =>
        obtain ⟨slog, hsession⟩ := h.session
        obtain hsound | hended := hsession.kept
        · simp [(hsound.idle hquiet.actions).1] at hclosing
        · simpa [hquiet.live] using hended.finished

/-- The application is built and started, then a source file is saved. -/
def savesSource : List Event :=
  let saved : Mads.Event := ⟨.modify, [Paths.join [] ["app", "src", "main.rs"]]⟩
  let built : Event := .session (.buildFinished (.ok DevState.sampleBuilt) none)
  let performed : Event := .session (.act {})
  [performed, built, performed, .watch (.received (.event saved) 10), .watch (.timeout 200),
    .deliver, performed, built, performed, performed]

theorem Reaches.rebuilt_sample :
    ∃ run log, Machine.run (step WatchSet.appLayout) new savesSource = some (run, log) ∧
      ∃ later ∈ log.drop 4, later.output = some (.performed .build) := by
  refine ⟨_, _, rfl, ?_⟩
  have hreaches : Reaches WatchSet.appLayout _ _ := Machine.reaches_of_run
    (show Machine.run (step WatchSet.appLayout) new savesSource = some (_, _) from rfl)
  exact Reaches.rebuilt hreaches ⟨rfl, rfl, rfl, rfl, rfl⟩
    (List.take_append_drop 3 _).symm ⟨_, _, _, rfl, rfl, rfl⟩

end DevRun

end Mads
