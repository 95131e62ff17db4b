import Mads.Core.LifecycleRun

/-!
# The server path: start, bind, serve and shut down
-/

namespace Mads

/-- A `std::io::Error`, of which only the text is kept. -/
structure IoError where
  message : String
  deriving DecidableEq, Repr

inductive HttpRuntimeError where
  | bootstrap (error : Error)
  | lifecycle (error : Error)
  | bind (error : IoError)
  | serve (error : IoError)
  | operationAndShutdown (operation : HttpRuntimeError) (shutdown : Error)
  deriving DecidableEq, Repr

namespace Server

open LifecycleManager

section Serving

variable (outcomes : Outcomes)

def finish (operation : Except HttpRuntimeError Unit) (manager : LifecycleManager)
    (history : List HookCall) : LifecycleManager × List HookCall × Except HttpRuntimeError Unit :=
  let (manager, history, shutdown) := manager.shutdown outcomes history
  (manager, history,
    match operation, shutdown with
    | .ok (), .ok () => .ok ()
    | .ok (), .error shutdown => .error (.lifecycle shutdown)
    | .error operation, .ok () => .error operation
    | .error operation, .error shutdown => .error (.operationAndShutdown operation shutdown))

def finishAfterError (operation : HttpRuntimeError) (manager : LifecycleManager)
    (history : List HookCall) : LifecycleManager × List HookCall × Except HttpRuntimeError Unit :=
  finish outcomes (.error operation) manager history

/-- The binder and the server answer once each; the server answers when it has shut down. -/
def serveConfiguredRouterWith (binder server : Except IoError Unit) (manager : LifecycleManager)
    (history : List HookCall) : LifecycleManager × List HookCall × Except HttpRuntimeError Unit :=
  match manager.start outcomes history with
  | (manager, history, .error error) => (manager, history, .error (.lifecycle error))
  | (manager, history, .ok ()) =>
    match binder with
    | .error error => finishAfterError outcomes (.bind error) manager history
    | .ok () => finish outcomes (server.mapError .serve) manager history

end Serving

/-- The error of the operation between start and shutdown. -/
def operationError (binder server : Except IoError Unit) : Option HttpRuntimeError :=
  match binder, server with
  | .error error, _ => some (.bind error)
  | .ok (), .error error => some (.serve error)
  | .ok (), .ok () => none

/-- The two errors that a result reports after a successful start. -/
def reported : Except HttpRuntimeError Unit → Option HttpRuntimeError × Option Error
  | .ok () => (none, none)
  | .error (.lifecycle shutdown) => (none, some shutdown)
  | .error (.operationAndShutdown operation shutdown) => (some operation, some shutdown)
  | .error operation => (some operation, none)

end Server

namespace LifecycleManager

open Lifecycle Server

/-- What the server path leaves behind, from a manager with some history. -/
structure Served (outcomes : Outcomes) (binder server : Except IoError Unit)
    (order : List RegisteredHook) (manager : LifecycleManager) (history : List HookCall) : Prop where
  lawful : Lawful order (serveConfiguredRouterWith outcomes binder server manager history).1.state
    (serveConfiguredRouterWith outcomes binder server manager history).2.1
  /-- Without a start, nothing else is done. -/
  not_started {error : Error} : (manager.start outcomes history).2.2 = .error error →
    serveConfiguredRouterWith outcomes binder server manager history =
      ((manager.start outcomes history).1, (manager.start outcomes history).2.1,
        .error (.lifecycle error))
  /-- After a start, there is one shutdown, and it stops every hook. -/
  started : (manager.start outcomes history).2.2 = .ok () →
    ((serveConfiguredRouterWith outcomes binder server manager history).1,
        (serveConfiguredRouterWith outcomes binder server manager history).2.1) =
      manager.run outcomes [.start, .shutdown] history ∧
    (serveConfiguredRouterWith outcomes binder server manager history).1.state = .stopped ∧
    stopped (serveConfiguredRouterWith outcomes binder server manager history).2.1 = order.reverse ∧
    reported (serveConfiguredRouterWith outcomes binder server manager history).2.2 =
      (operationError binder server,
        (serveConfiguredRouterWith outcomes binder server manager history).2.1.findSome? stopFailure)

section

variable (outcomes : Outcomes) {order : List RegisteredHook} {manager : LifecycleManager}
  {history : List HookCall}

/-- Finishing a running application: it stops, and both errors are reported. -/
theorem finish_running (operation : Except HttpRuntimeError Unit) (sequence : ℕ)
    {starts : List HookCall} (hstarts : Starts order starts)
    (hoperation : ∀ error, operation = .error error →
      (∃ cause, error = .bind cause) ∨ ∃ cause, error = .serve cause) :
    ∃ stops shutdown result, LifecycleManager.shutdown outcomes ⟨.running, order, sequence⟩ starts =
        (⟨.stopped, order, sequence⟩, starts ++ stops, shutdown) ∧
      finish outcomes operation ⟨.running, order, sequence⟩ starts =
        (⟨.stopped, order, sequence⟩, starts ++ stops, result) ∧
      Stops order.reverse stops ∧
      reported result = (failure operation, (starts ++ stops).findSome? stopFailure) := by
  obtain ⟨stops, shutdown, heq, hstops, hfailure⟩ :=
    shutdown_running outcomes sequence hstarts
  rw [finish, heq]
  refine ⟨stops, shutdown, _, rfl, rfl, hstops, ?_⟩
  rw [← hfailure]
  cases operation with
  | ok _ =>
    cases shutdown with
    | ok _ => rfl
    | error _ => rfl
  | error error =>
    obtain ⟨cause, rfl⟩ | ⟨cause, rfl⟩ := hoperation error rfl
    · cases shutdown with
      | ok _ => rfl
      | error _ => rfl
    · cases shutdown with
      | ok _ => rfl
      | error _ => rfl

/-- The operation between start and shutdown fails with a bind or a serve error, if at all. -/
def operationOf (binder server : Except IoError Unit) : Except HttpRuntimeError Unit :=
  match binder with
  | .error error => .error (.bind error)
  | .ok () => server.mapError .serve

theorem failure_operationOf (binder server : Except IoError Unit) :
    failure (operationOf binder server) = operationError binder server := by
  cases binder with
  | error _ => rfl
  | ok _ => cases server with
    | error _ => rfl
    | ok _ => rfl

theorem operationOf_cause {binder server : Except IoError Unit} {error : HttpRuntimeError}
    (h : operationOf binder server = .error error) :
    (∃ cause, error = .bind cause) ∨ ∃ cause, error = .serve cause := by
  cases binder with
  | error cause => exact .inl ⟨cause, (Except.error.inj h).symm⟩
  | ok _ =>
    cases server with
    | error cause => exact .inr ⟨cause, (Except.error.inj h).symm⟩
    | ok _ => cases h

/-- After a start the path finishes, with the operation's error or without. -/
theorem serveConfiguredRouterWith_eq (manager : LifecycleManager) (history : List HookCall)
    (binder server : Except IoError Unit) :
    serveConfiguredRouterWith outcomes binder server manager history =
      match manager.start outcomes history with
      | (manager, history, .error error) => (manager, history, .error (.lifecycle error))
      | (manager, history, .ok ()) =>
        finish outcomes (operationOf binder server) manager history := by
  cases binder with
  | error _ => rfl
  | ok _ => rfl

theorem Ran.served (binder server : Except IoError Unit) (hnodup : order.Nodup)
    (hran : Ran order manager history) : Served outcomes binder server order manager history := by
  have hnext := hran.start outcomes
  have heq := serveConfiguredRouterWith_eq outcomes manager history binder server
  rcases hstart : manager.start outcomes history with ⟨next, after, error | _⟩
  · rw [hstart] at hnext heq
    exact {
      lawful := heq ▸ hnext.lawful hnodup
      not_started := fun h => by
        rw [hstart] at h ⊢
        obtain rfl := Except.error.inj h
        exact heq
      started := fun h => by
        rw [hstart] at h
        cases h }
  · rw [hstart] at hnext heq
    have hstate := start_ok outcomes hstart
    cases hnext with
    | running sequence hstarts =>
      obtain ⟨stops, shutdown, result, hshutdown, hfinish, hstops, hreported⟩ :=
        finish_running outcomes (operationOf binder server) sequence hstarts
          fun error herror => operationOf_cause herror
      have hserved := heq.trans hfinish
      rw [failure_operationOf] at hreported
      exact {
        lawful := by
          rw [hserved]
          exact (Ran.stopped sequence hstarts hstops).lawful hnodup
        not_started := fun h => by
          rw [hstart] at h
          cases h
        started := fun _ => by
          rw [hserved]
          refine ⟨?_, rfl, ?_, hreported⟩
          · simp [LifecycleManager.run, operate, hstart, hshutdown]
          · rw [stopped_append, hstarts.stopped, hstops.stopped, List.nil_append] }
    | created => cases hstate
    | failed => cases hstate
    | stopped => cases hstate

theorem Answered.serve {outcomes : Outcomes} (h : Answered outcomes history)
    (manager : LifecycleManager) (binder server : Except IoError Unit) :
    Answered outcomes (serveConfiguredRouterWith outcomes binder server manager history).2.1 := by
  have hstart := h.start manager
  rw [serveConfiguredRouterWith_eq]
  rcases hstarted : manager.start outcomes history with ⟨next, after, error | _⟩
  · rwa [hstarted] at hstart
  · rw [hstarted] at hstart
    -- finishing adds the calls of the shutdown and no others
    exact hstart.shutdown next

/-- A shutdown that is accepted stops the application and returns the first failure of a stop. -/
theorem Ran.shutdown_accepted (hran : Ran order manager history) (h : manager.state = .running) :
    (manager.shutdown outcomes history).1.state = .stopped ∧
      failure (manager.shutdown outcomes history).2.2 =
        (manager.shutdown outcomes history).2.1.findSome? stopFailure := by
  refine ⟨shutdown_state outcomes h, ?_⟩
  cases hran with
  | running sequence hstarts =>
    obtain ⟨stops, result, heq, -, hfailure⟩ := shutdown_running outcomes sequence hstarts
    rw [heq]
    exact hfailure
  | created => cases h
  | failed => cases h
  | stopped => cases h

/-- Whatever is registered, called and answered: the order, the laws of the history, what a start
and a shutdown do where they are accepted, the calls that are refused, and what the server path
does next. -/
theorem run_served (outcomes : Outcomes) (registrations : List (HookGroup × LifecycleHook))
    (operations : List Operation) :
    let manager := registered registrations
    let (reached, history) := manager.run outcomes operations []
    (manager.hooks.map (fun hook => (hook.group, hook.hook)) = registrations ∧
      manager.hooks.map (·.sequence) = List.range registrations.length ∧
      manager.startOrder.Perm manager.hooks ∧ manager.startOrder.Pairwise StartsBefore) ∧
    Lawful manager.startOrder reached.state history ∧ Answered outcomes history ∧
    (∀ operation, reached.state ≠ operation.from →
      reached.operate outcomes operation history =
        (reached, history, .error (invalidTransition reached.state operation.name))) ∧
    (reached.state = .created →
      history = [] ∧ Began outcomes manager.startOrder (reached.start outcomes history)) ∧
    (reached.state = .running → (reached.shutdown outcomes history).1.state = .stopped ∧
      failure (reached.shutdown outcomes history).2.2 =
        (reached.shutdown outcomes history).2.1.findSome? stopFailure) ∧
    ∀ binder server, Served outcomes binder server manager.startOrder reached history ∧
      Answered outcomes (serveConfiguredRouterWith outcomes binder server reached history).2.1 := by
  obtain ⟨-, -, hhooks, hsequences⟩ := registered_hooks registrations
  have hnodup := registered_startOrder_nodup registrations
  have hran := run_ran outcomes registrations operations
  have hnone : Answered outcomes [] := Answered.nil
  have hanswered := hnone.run (registered registrations) operations
  refine ⟨⟨hhooks, hsequences, startOrder_perm _, registered_startOrder_pairwise registrations⟩,
    hran.lawful hnodup, hanswered, fun operation h => operate_refused outcomes _ operation h,
    fun h => ?_, hran.shutdown_accepted outcomes,
    fun binder server => ⟨hran.served outcomes binder server hnodup, hanswered.serve _ _ _⟩⟩
  obtain ⟨hnil, horder⟩ := hran.of_created h
  have hbegan := start_began outcomes h
  rw [horder] at hbegan
  rw [hnil]
  exact ⟨rfl, hbegan⟩

end

/-! The application hooks `cache` and `jobs`, and an infrastructure hook that starts before them. -/

def sampleRegistrations : List (HookGroup × LifecycleHook) :=
  [(.application, ⟨"cache", 0⟩), (.infrastructure "database", ⟨"pool", 1⟩),
    (.application, ⟨"jobs", 2⟩)]

def sampleFailure : Error where
  primary := { code := MADS011, title := "unavailable", message := "the service is unavailable" }

/-- The last hook does not start, and the first does not stop. -/
def sampleOutcomes : Outcomes := fun _ action hook =>
  match action with
  | .start => if hook.hook.name = "jobs" then some sampleFailure else none
  | .stop => if hook.hook.name = "pool" then some sampleFailure else none

theorem run_served_sample :
    let manager := registered sampleRegistrations
    let (reached, history, result) := manager.start sampleOutcomes []
    Began sampleOutcomes manager.startOrder (reached, history, result) ∧
      reached.state = .stopped ∧
      history.map (fun call => (call.action, call.hook.hook.name)) =
        [(.start, "pool"), (.start, "cache"), (.start, "jobs"), (.stop, "cache"),
          (.stop, "pool")] := by
  have hbegan := ((run_served sampleOutcomes sampleRegistrations []).2.2.2.2.1 rfl).2
  exact ⟨hbegan, by decide +kernel, by decide +kernel⟩

end LifecycleManager

end Mads
