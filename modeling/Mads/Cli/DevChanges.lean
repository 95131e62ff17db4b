import Mads.Cli.DevState

/-!
# The development supervisor: no change is lost, and rebuilds are taken together
-/

namespace Mads

namespace DevState

variable {state : DevState} {log : List DevEntry}

/-- A running application was built before, and none runs once the session shuts down. -/
theorem Reaches.running (h : Reaches state log) :
    state.applicationRunning = true →
      state.lastSuccessful ≠ none ∧ state.shuttingDown = false := by
  refine Machine.Reaches.invariant
    (P := fun state _ => state.applicationRunning = true →
      state.lastSuccessful ≠ none ∧ state.shuttingDown = false) ?_ ?_ h
  · simp [new]
  · intro before log event after actions _ ih hstep
    cases steps_of_eq_some hstep <;> simp_all

/-- Changes wait only while a build runs. -/
theorem Reaches.pending (h : Reaches state log) :
    state.buildRunning = false → state.pending = .none := by
  refine Machine.Reaches.invariant
    (P := fun state _ => state.buildRunning = false → state.pending = .none) ?_ ?_ h
  · simp [new]
  · intro before log event after actions _ ih hstep
    cases steps_of_eq_some hstep <;> simp_all

/-- Nothing runs once the session shuts down. -/
theorem Reaches.closed (h : Reaches state log) :
    state.shuttingDown = true → state.buildRunning = false ∧ state.applicationRunning = false := by
  refine Machine.Reaches.invariant
    (P := fun state _ => state.shuttingDown = true →
      state.buildRunning = false ∧ state.applicationRunning = false) ?_ ?_ h
  · simp [new]
  · intro before log event after actions _ ih hstep
    cases steps_of_eq_some hstep <;> simp_all

/-- Where a restart that was asked for stands. -/
inductive Restart (state : DevState) (change : DevEntry) (post : List DevEntry) : Prop
  | served (h : ∃ later ∈ change :: post, later.startsApplication)
  | lost (hbuilding : change.before.buildRunning = true)
      (h : ∃ ended, post.find? DevEntry.endsBuild = some ended ∧ ended.event = .buildFailed)
  | waiting (hbuilding : change.before.buildRunning = true) (hstill : state.buildRunning = true)
      (h : post.find? DevEntry.endsBuild = none)
  | down (h : state.applicationRunning = false)

theorem Restart.of_last {change last : DevEntry} {post : List DevEntry}
    (h : last.startsApplication) : Restart state change (post ++ [last]) :=
  .served ⟨last, by simp, h⟩

/-- A restart stays served or lost; one that waits for a build is served by its success and lost
by its failure. -/
theorem Restart.step {change : DevEntry} {post : List DevEntry} {event : DevEvent}
    {after : DevState} {actions : List DevAction} (h : Restart state change post)
    (hdown : state.shuttingDown = true → state.applicationRunning = false)
    (hsteps : Steps state event after actions) :
    Restart after change (post ++ [⟨state, event, actions⟩]) := by
  cases h with
  | served h =>
    obtain ⟨later, hmem, hstarts⟩ := h
    refine .served ⟨later, ?_, hstarts⟩
    rw [← List.cons_append]
    exact List.mem_append_left _ hmem
  | lost hbuilding h =>
    obtain ⟨ended, hfind, hfailed⟩ := h
    exact .lost hbuilding ⟨ended, by rw [List.find?_append, hfind]; rfl, hfailed⟩
  | waiting hbuilding hstill h =>
    cases hsteps with
    | closed hclosed => exact .down (hdown hclosed)
    | built => exact .of_last (by simp [DevEntry.startsApplication, DevAction.startsApplication])
    | failed => exact .lost hbuilding ⟨_, by rw [List.find?_append, h]; rfl, rfl⟩
    | exited => exact .down rfl
    | shutdown => exact .down rfl
    | begun _ _ hidle => simp [hstill] at hidle
    | unbuilt _ hidle => simp [hstill] at hidle
    | restarted _ hidle => simp [hstill] at hidle
    | started _ hidle => simp [hstill] at hidle
    | building | unchanged | queued =>
      exact .waiting hbuilding hstill (by rw [List.find?_append, h]; rfl)
  | down hdead =>
    cases hsteps with
    | built => exact .of_last (by simp [DevEntry.startsApplication, DevAction.startsApplication])
    | started => exact .of_last rfl
    | exited => exact .down rfl
    | shutdown => exact .down rfl
    | closed | building | unchanged | queued | begun | unbuilt | restarted | failed =>
      exact .down hdead

/-- A restart that comes in waits for the build that runs, if one does. -/
theorem Restart.enter {after : DevState} {actions : List DevAction}
    (hlast : state.applicationRunning = true → state.lastSuccessful ≠ none)
    (hopen : state.shuttingDown = false) (hsteps : Steps state (.changed .restart) after actions) :
    Restart after ⟨state, .changed .restart, actions⟩ [] := by
  cases hsteps with
  | closed hclosed => simp [hopen] at hclosed
  | queued _ _ hbuilding => exact .waiting hbuilding hbuilding rfl
  | begun _ hevent => simp at hevent
  | unbuilt _ _ hnone =>
    refine .down ?_
    by_contra hrunning
    exact hlast (by simpa using hrunning) hnone
  | restarted => exact .served ⟨_, List.mem_cons_self, rfl⟩
  | started => exact .served ⟨_, List.mem_cons_self, rfl⟩

theorem Reaches.restart (h : Reaches state log) :
    ∀ pre change post, log = pre ++ change :: post → change.accepts .restart →
      Restart state change post := by
  refine Machine.Reaches.invariant
    (P := fun state log => ∀ pre change post, log = pre ++ change :: post →
      change.accepts .restart → Restart state change post) ?_ ?_ h
  · simp
  · intro before log event after actions hbefore ih hstep pre change post heq haccepts
    have hsteps := steps_of_eq_some hstep
    have hrunning := Reaches.running hbefore
    obtain ⟨-, rfl, rfl⟩ | ⟨mid, rfl, hlog⟩ := Machine.concat_eq_split.mp heq
    · obtain ⟨rfl, hopen⟩ := haccepts
      exact .enter (fun h => (hrunning h).1) hopen hsteps
    · refine (ih pre change mid hlog haccepts).step (fun hclosed => ?_) hsteps
      by_contra hup
      simp [hclosed] at hrunning
      exact hup hrunning

/-- Where the rebuilds that were asked for stand: all were begun, or one more build is next. -/
inductive Rebuilds (state : DevState) (log : List DevEntry) : Prop
  | begun (h : Machine.Followed (DevEntry.accepts .rebuild) DevEntry.startsBuild log)
  | next (hbuilding : state.buildRunning = true) (h : state.pending = .rebuild)
  | closed (h : state.shuttingDown = true)

theorem Rebuilds.step {event : DevEvent} {after : DevState} {actions : List DevAction}
    (h : Rebuilds state log) (hsteps : Steps state event after actions) :
    Rebuilds after (log ++ [⟨state, event, actions⟩]) := by
  have hignored : ¬ DevEntry.accepts .rebuild ⟨state, event, actions⟩ → Rebuilds state log →
      after.buildRunning = state.buildRunning → after.pending = state.pending →
      after.shuttingDown = state.shuttingDown →
      Rebuilds after (log ++ [⟨state, event, actions⟩]) := by
    intro hnot h hbuilding hpending hshutting
    cases h with
    | begun h => exact .begun (h.concat hnot)
    | next hstill h => exact .next (hbuilding.trans hstill) (hpending.trans h)
    | closed h => exact .closed (hshutting.trans h)
  cases hsteps with
  | closed hclosed => exact .closed hclosed
  | shutdown => exact .closed rfl
  | begun => exact .begun (.concat_of rfl)
  | built | failed =>
    by_cases hpending : state.pending = .rebuild
    · refine .begun (.concat_of ?_)
      simp [DevEntry.startsBuild, hpending]
    · cases h with
      | begun h => exact .begun (h.concat (by simp [DevEntry.accepts]))
      | next _ h => exact absurd h hpending
      | closed h => exact .closed h
  | @queued impact _ _ hbuilding =>
    by_cases hpending : state.pending = .rebuild
    · exact .next hbuilding (by simp [hpending])
    · by_cases himpact : impact = .rebuild
      · exact .next hbuilding (by simpa [hpending] using himpact)
      · cases h with
        | begun h => exact .begun (h.concat (by simp [DevEntry.accepts, himpact]))
        | next _ h => exact absurd h hpending
        | closed h => exact .closed h
  | building | unchanged | unbuilt | restarted | started | exited =>
    exact hignored (by simp [DevEntry.accepts]) h rfl rfl rfl

theorem Reaches.rebuilds (h : Reaches state log) : Rebuilds state log := by
  refine Machine.Reaches.invariant (P := Rebuilds) (.begun .nil) ?_ h
  intro before log event after actions _ ih hstep
  exact ih.step (steps_of_eq_some hstep)

/-- With no build running and an application up, every restart that was taken up was followed by a
start of the application, or came in during a build that then failed; and every rebuild was
followed by a build. -/
theorem Reaches.no_lost_change (h : Reaches state log) (hidle : state.buildRunning = false)
    (hup : state.applicationRunning = true) :
    (∀ pre change post, log = pre ++ change :: post → change.accepts .restart →
        (∃ later ∈ change :: post, later.startsApplication) ∨
          (change.before.buildRunning = true ∧ ∃ ended,
            post.find? DevEntry.endsBuild = some ended ∧ ended.event = .buildFailed)) ∧
      ∀ pre change post, log = pre ++ change :: post → change.accepts .rebuild →
        ∃ later ∈ change :: post, later.startsBuild := by
  constructor
  · intro pre change post heq haccepts
    cases h.restart pre change post heq haccepts with
    | served h => exact .inl h
    | lost hbuilding h => exact .inr ⟨hbuilding, h⟩
    | waiting _ hstill => simp [hidle] at hstill
    | down hdown => simp [hup] at hdown
  · cases h.rebuilds with
    | begun h => exact h
    | next hbuilding => simp [hidle] at hbuilding
    | closed hclosed => simp [h.running hup] at hclosed

/-- While a build runs, the rebuilds that come in wait together for its end. -/
theorem waiting_of_path {first last : DevState} {mid : List DevEntry}
    (h : Machine.Path (fun state event => some (transition state event)) first mid last)
    (hbuilding : first.buildRunning = true) (hopen : first.shuttingDown = false)
    (hmid : ∀ entry : DevEntry, entry ∈ mid →
      entry.endsBuild = false ∧ entry.event ≠ .shutdown) :
    last.buildRunning = true ∧ last.shuttingDown = false ∧
      (last.pending = .rebuild ↔
        first.pending = .rebuild ∨ ∃ entry ∈ mid, entry.event = .changed .rebuild) ∧
      ∀ entry : DevEntry, entry ∈ mid → entry.startsBuild = false := by
  induction h with
  | nil state => simp [hbuilding, hopen]
  | @cons state next last event actions log hstep rest ih =>
    have hsteps := steps_of_eq_some hstep
    obtain ⟨⟨hends, hevent⟩, hlog⟩ := List.forall_mem_cons.mp hmid
    have hkeeps : next.buildRunning = true ∧ next.shuttingDown = false ∧
        (next.pending = .rebuild ↔
          state.pending = .rebuild ∨ event = .changed .rebuild) ∧ .build ∉ actions := by
      cases hsteps with
      | queued =>
        refine ⟨hbuilding, hopen, ?_, by simp⟩
        by_cases hpending : state.pending = .rebuild <;> simp [hpending]
      | closed hclosed => simp [hopen] at hclosed
      | begun _ _ hidle => simp [hbuilding] at hidle
      | unbuilt _ hidle => simp [hbuilding] at hidle
      | restarted _ hidle => simp [hbuilding] at hidle
      | started _ hidle => simp [hbuilding] at hidle
      | built => simp [DevEntry.endsBuild] at hends
      | failed => simp [DevEntry.endsBuild] at hends
      | shutdown => exact absurd rfl hevent
      | building | unchanged | exited => simp [hbuilding, hopen]
    obtain ⟨hnext, hnextOpen, hpending, hnone⟩ := hkeeps
    obtain ⟨hlast, hlastOpen, hlastPending, hrest⟩ := ih hnext hnextOpen hlog
    refine ⟨hlast, hlastOpen, ?_, List.forall_mem_cons.mpr ⟨by simpa [DevEntry.startsBuild], hrest⟩⟩
    rw [hlastPending, hpending, or_assoc]
    simp

/-- The rebuilds that come in during one build lead to one build after it, however it ends, and
none before. -/
theorem Reaches.coalesced {pre mid post : List DevEntry} {begun ended : DevEntry}
    (h : Reaches state (pre ++ begun :: (mid ++ ended :: post))) (hbegun : begun.startsBuild)
    (hmid : ∀ entry : DevEntry, entry ∈ mid → entry.endsBuild = false ∧ entry.event ≠ .shutdown)
    (hended : ended.endsBuild) :
    (∀ entry : DevEntry, entry ∈ mid → entry.startsBuild = false) ∧
      ended.output.count .build =
        if mid.any (fun entry => entry.event = .changed .rebuild) then 1 else 0 := by
  obtain ⟨first, hbefore, hafter⟩ := h.path.split
  have hfirst : Reaches first pre := hbefore.reaches .start
  cases hafter with
  | @cons first building last event actions log hstep hrest =>
    obtain ⟨waiting, hwaits, hafter⟩ := hrest.split
    have hbuilding : building.buildRunning = true ∧ building.shuttingDown = false ∧
        building.pending ≠ .rebuild := by
      cases steps_of_eq_some hstep with
      | begun hopen _ hidle => exact ⟨rfl, hopen, by simp [hfirst.pending hidle]⟩
      | built hopen | failed hopen =>
        by_cases hpending : first.pending = .rebuild
        · simp [hpending, hopen]
        · cases hup : first.applicationRunning <;>
            simp [DevEntry.startsBuild, hpending, hup] at hbegun
      | shutdown => cases hup : first.applicationRunning <;>
          simp [DevEntry.startsBuild, hup] at hbegun
      | closed | building | unchanged | queued | unbuilt | restarted | started | exited =>
        simp [DevEntry.startsBuild] at hbegun
    obtain ⟨hrunning, hopen, hpending⟩ := hbuilding
    obtain ⟨-, hstillOpen, hiff, hnone⟩ := waiting_of_path hwaits hrunning hopen hmid
    refine ⟨hnone, ?_⟩
    have hany : mid.any (fun entry => entry.event = .changed .rebuild) =
        decide (waiting.pending = .rebuild) := by
      rw [Bool.eq_iff_iff, decide_eq_true_iff, hiff, List.any_eq_true]
      simp [hpending]
    rw [hany]
    cases hafter with
    | cons hlast _ =>
      cases steps_of_eq_some hlast with
      | closed hclosed => simp [hstillOpen] at hclosed
      | built =>
        by_cases hwaiting : waiting.pending = .rebuild <;> cases waiting.applicationRunning <;>
          simp [hwaiting]
      | failed => by_cases hwaiting : waiting.pending = .rebuild <;> simp [hwaiting]
      | begun _ hevent => obtain rfl | rfl := hevent <;> simp [DevEntry.endsBuild] at hended
      | building | unchanged | queued | unbuilt | restarted | started | exited | shutdown =>
        simp [DevEntry.endsBuild] at hended

section Sample

def sampleBuilt : BuiltApplication := ⟨"app", "app", "target/debug/app"⟩

def building : DevState := { new with buildRunning := true }

/-- The application is up, and nothing else goes on. -/
def up : DevState := { new with lastSuccessful := some sampleBuilt, applicationRunning := true }

def started : List DevEntry :=
  [⟨new, .start, [.build]⟩, ⟨building, .buildSucceeded sampleBuilt, [.start sampleBuilt]⟩]

/-- A restart that comes in with no build running is served at once. -/
theorem Reaches.no_lost_change_sample :
    DevEntry.startsApplication ⟨up, .changed .restart, [.restart sampleBuilt]⟩ := by
  have hrun : Machine.run (fun state event => some (state.transition event)) new
      [.start, .buildSucceeded sampleBuilt, .changed .restart] =
        some (up, started ++ [⟨up, .changed .restart, [.restart sampleBuilt]⟩]) := rfl
  have hreaches : Reaches up _ := Machine.reaches_of_run hrun
  obtain ⟨later, hmem, hstarts⟩ | ⟨hbuilding, -⟩ :=
    (Reaches.no_lost_change hreaches rfl rfl).1 started _ [] rfl ⟨rfl, rfl⟩
  · obtain rfl := List.mem_singleton.mp hmem
    exact hstarts
  · simp [up, new] at hbuilding

def rebuilding : DevState := { up with buildRunning := true }

/-- A restart comes in during a build, and then the build fails. -/
def failedRebuild : List DevEntry :=
  [⟨up, .changed .rebuild, [.build]⟩, ⟨rebuilding, .changed .restart, []⟩,
    ⟨{ rebuilding with pending := .restart }, .buildFailed, []⟩]

/-- A restart that comes in during a build is dropped when that build fails, although the old
application keeps running. -/
theorem lost_restart :
    ∃ state log, Reaches state log ∧ state.buildRunning = false ∧ state.pending = .none ∧
      state.applicationRunning = true ∧ ∃ pre post, ∃ change : DevEntry,
        log = pre ++ change :: post ∧ change.accepts .restart ∧
          ∀ later : DevEntry, later ∈ change :: post → later.startsApplication = false := by
  have hrun : Machine.run (fun state event => some (state.transition event)) new
      [.start, .buildSucceeded sampleBuilt, .changed .rebuild, .changed .restart, .buildFailed] =
        some (up, started ++ failedRebuild) := rfl
  refine ⟨up, started ++ failedRebuild, Machine.reaches_of_run hrun, rfl, rfl, rfl,
    [_, _, _], [_], _, rfl, ⟨rfl, rfl⟩, ?_⟩
  decide

end Sample

end DevState

end Mads
