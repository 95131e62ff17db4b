import Mathlib.Data.List.Range
import Mads.Base

/-!
# Lifecycle hooks, state transitions and failure rollback
-/

namespace Mads

def MADS010 : DiagnosticCode := ⟨"MADS010"⟩
def MADS011 : DiagnosticCode := ⟨"MADS011"⟩

inductive HookGroup where
  | infrastructure (owner : String)
  | application
  deriving DecidableEq, Repr

/-- A lifecycle hook, known by its diagnostic name and its address. -/
structure LifecycleHook where
  name : String
  address : ℕ
  deriving DecidableEq, Repr

structure RegisteredHook where
  group : HookGroup
  sequence : ℕ
  hook : LifecycleHook
  deriving DecidableEq, Repr

inductive LifecycleState where
  | created
  | starting
  | running
  | stopping
  | stopped
  deriving DecidableEq, Repr

def LifecycleState.debug : LifecycleState → String
  | created => "Created"
  | starting => "Starting"
  | running => "Running"
  | stopping => "Stopping"
  | stopped => "Stopped"

inductive HookAction where
  | start
  | stop
  deriving DecidableEq, Repr

/-- A call of a hook that was awaited, and the error it returned, if any. -/
structure HookCall where
  action : HookAction
  hook : RegisteredHook
  failure : Option Error
  deriving DecidableEq, Repr

/-- How a hook answers a call, which may depend on all calls before. -/
abbrev Outcomes := List HookCall → HookAction → RegisteredHook → Option Error

structure LifecycleManager where
  state : LifecycleState
  hooks : List RegisteredHook
  nextSequence : ℕ
  deriving DecidableEq, Repr

namespace Lifecycle

/-- Infrastructure hooks come first, by owner; hooks of one kind keep their sequence. -/
def hookOrder (left right : RegisteredHook) : Ordering :=
  match left.group, right.group with
  | .infrastructure leftOwner, .infrastructure rightOwner =>
    (compare leftOwner rightOwner).then (compare left.sequence right.sequence)
  | .infrastructure _, .application => .lt
  | .application, .infrastructure _ => .gt
  | .application, .application => compare left.sequence right.sequence

def invalidTransition (state : LifecycleState) (operation : String) : Error where
  primary :=
    { code := MADS010
      title := "invalid lifecycle transition"
      message := "cannot " ++ operation ++ " an application while it is " ++ state.debug
      subject := some operation }

def hookFailureDiagnostic (name operation : String) : Diagnostic where
  code := MADS011
  title := "lifecycle hook failed"
  message := "lifecycle hook failed during " ++ operation
  subject := some name

def hookFailure (name operation : String) (error : Error) : Error where
  primary := hookFailureDiagnostic name operation
  source := some error.display

end Lifecycle

namespace LifecycleManager

open Lifecycle

def new : LifecycleManager := ⟨.created, [], 0⟩

def register (manager : LifecycleManager) (group : HookGroup) (hook : LifecycleHook) :
    LifecycleManager :=
  { manager with
    hooks := manager.hooks ++ [⟨group, manager.nextSequence, hook⟩]
    nextSequence := manager.nextSequence + 1 }

def addHook (manager : LifecycleManager) (hook : LifecycleHook) : LifecycleManager :=
  manager.register .application hook

def addInfrastructureHook (manager : LifecycleManager) (owner : String) (hook : LifecycleHook) :
    LifecycleManager :=
  manager.register (.infrastructure owner) hook

section Calls

variable (outcomes : Outcomes)

/-- Calls a hook and waits for its answer. -/
def call (action : HookAction) (hook : RegisteredHook) (history : List HookCall) :
    List HookCall × Option Error :=
  let failure := outcomes history action hook
  (history ++ [⟨action, hook, failure⟩], failure)

/-- Stops the hooks that were started, the last one first, and notes each failure. -/
def rollback : List RegisteredHook → Diagnostic → List HookCall → List HookCall × Diagnostic
  | [], diagnostic, history => (history, diagnostic)
  | hook :: rest, diagnostic, history =>
    match call outcomes .stop hook history with
    | (history, some error) =>
      rollback rest (diagnostic.withSuggestion
        ("rollback hook " ++ hook.hook.name ++ " failed: " ++ error.display)) history
    | (history, none) => rollback rest diagnostic history

/-- Starts the hooks in turn, up to the first failure. -/
def startHooks : List RegisteredHook → List RegisteredHook → List HookCall →
    List HookCall × Except Error Unit
  | [], _, history => (history, .ok ())
  | hook :: rest, started, history =>
    match call outcomes .start hook history with
    | (history, some error) =>
      let (history, diagnostic) :=
        rollback outcomes started.reverse (hookFailureDiagnostic hook.hook.name "startup") history
      (history, .error { primary := diagnostic, source := some error.display })
    | (history, none) => startHooks rest (started ++ [hook]) history

def start (manager : LifecycleManager) (history : List HookCall) :
    LifecycleManager × List HookCall × Except Error Unit :=
  if manager.state ≠ .created then
    (manager, history, .error (invalidTransition manager.state "start"))
  else
    let hooks := sortBy hookOrder manager.hooks
    match startHooks outcomes hooks [] history with
    | (history, .error error) => ({ manager with state := .stopped, hooks }, history, .error error)
    | (history, .ok ()) => ({ manager with state := .running, hooks }, history, .ok ())

/-- Stops hooks in turn, and keeps the first failure. -/
def stopHooks : List RegisteredHook → Option Error → List HookCall →
    List HookCall × Option Error
  | [], failure, history => (history, failure)
  | hook :: rest, failure, history =>
    let (history, error) := call outcomes .stop hook history
    stopHooks rest (failure.or (error.map (hookFailure hook.hook.name "shutdown"))) history

def shutdown (manager : LifecycleManager) (history : List HookCall) :
    LifecycleManager × List HookCall × Except Error Unit :=
  if manager.state ≠ .running then
    (manager, history, .error (invalidTransition manager.state "shutdown"))
  else
    let (history, failure) := stopHooks outcomes manager.hooks.reverse none history
    ({ manager with state := .stopped }, history,
      match failure with
      | some error => .error error
      | none => .ok ())

/-- A call on the manager. -/
inductive Operation where
  | start
  | shutdown
  deriving DecidableEq, Repr

def operate (operation : Operation) (manager : LifecycleManager) (history : List HookCall) :
    LifecycleManager × List HookCall × Except Error Unit :=
  match operation with
  | .start => manager.start outcomes history
  | .shutdown => manager.shutdown outcomes history

/-- Each call is awaited before the next. -/
def run : List Operation → LifecycleManager → List HookCall → LifecycleManager × List HookCall
  | [], manager, history => (manager, history)
  | operation :: rest, manager, history =>
    let (manager, history, _) := manager.operate outcomes operation history
    run rest manager history

end Calls

/-- A manager with hooks registered in a given order. -/
def registered (registrations : List (HookGroup × LifecycleHook)) : LifecycleManager :=
  registrations.foldl (fun manager (group, hook) => manager.register group hook) new

section Answers

variable (outcomes : Outcomes)

/-- These calls started these hooks, all with success. -/
def Starts (hooks : List RegisteredHook) (calls : List HookCall) : Prop :=
  calls.map (·.hook) = hooks ∧ ∀ call ∈ calls, call.action = .start ∧ call.failure = none

/-- These calls stopped these hooks, with success or not. -/
def Stops (hooks : List RegisteredHook) (calls : List HookCall) : Prop :=
  calls.map (·.hook) = hooks ∧ ∀ call ∈ calls, call.action = .stop

theorem Starts.nil : Starts [] [] := ⟨rfl, by simp⟩

theorem Stops.nil : Stops [] [] := ⟨rfl, by simp⟩

theorem Starts.cons {hook : RegisteredHook} {hooks : List RegisteredHook} {calls : List HookCall}
    (h : Starts hooks calls) : Starts (hook :: hooks) (⟨.start, hook, none⟩ :: calls) :=
  ⟨congrArg (List.cons hook) h.1, List.forall_mem_cons.mpr ⟨⟨rfl, rfl⟩, h.2⟩⟩

theorem Stops.cons {hook : RegisteredHook} {hooks : List RegisteredHook} {calls : List HookCall}
    (h : Stops hooks calls) (failure : Option Error) :
    Stops (hook :: hooks) (⟨.stop, hook, failure⟩ :: calls) :=
  ⟨congrArg (List.cons hook) h.1, List.forall_mem_cons.mpr ⟨rfl, h.2⟩⟩

/-- A rollback stops every hook it is given, whatever they answer. -/
theorem rollback_stops (hooks : List RegisteredHook) (diagnostic : Diagnostic)
    (history : List HookCall) :
    ∃ calls, (rollback outcomes hooks diagnostic history).1 = history ++ calls ∧
      Stops hooks calls := by
  induction hooks generalizing diagnostic history with
  | nil => exact ⟨[], by simp [rollback], .nil⟩
  | cons hook rest ih =>
    rw [rollback, call]
    cases outcomes history .stop hook with
    | none =>
      obtain ⟨calls, heq, hstops⟩ := ih diagnostic (history ++ [⟨.stop, hook, none⟩])
      exact ⟨_, heq.trans (List.append_assoc _ _ _), hstops.cons none⟩
    | some error =>
      obtain ⟨calls, heq, hstops⟩ := ih (diagnostic.withSuggestion
        ("rollback hook " ++ hook.hook.name ++ " failed: " ++ error.display))
        (history ++ [⟨.stop, hook, some error⟩])
      exact ⟨_, heq.trans (List.append_assoc _ _ _), hstops.cons (some error)⟩

/-- What a shutdown makes of the answer to a stop. -/
def stopFailure (call : HookCall) : Option Error :=
  if call.action = .stop then call.failure.map (hookFailure call.hook.hook.name "shutdown") else none

/-- A shutdown stops every hook, and returns the first failure. -/
theorem stopHooks_stops (hooks : List RegisteredHook) (failure : Option Error)
    (history : List HookCall) :
    ∃ calls, stopHooks outcomes hooks failure history =
        (history ++ calls, failure.or (calls.findSome? stopFailure)) ∧ Stops hooks calls := by
  induction hooks generalizing failure history with
  | nil => exact ⟨[], by simp [stopHooks], .nil⟩
  | cons hook rest ih =>
    let answer := outcomes history .stop hook
    obtain ⟨calls, heq, hstops⟩ := ih
      (failure.or (answer.map (hookFailure hook.hook.name "shutdown")))
      (history ++ [⟨.stop, hook, answer⟩])
    refine ⟨_, heq.trans (Prod.ext (List.append_assoc _ _ _) ?_), hstops.cons answer⟩
    show Option.or _ _ = failure.or (List.findSome? stopFailure (⟨.stop, hook, answer⟩ :: calls))
    rw [List.findSome?_cons, Option.or_assoc]
    apply congrArg failure.or
    cases answer with
    | none => rfl
    | some error => rfl

/-- A rollback adds suggestions only. -/
theorem rollback_diagnostic (hooks : List RegisteredHook) (diagnostic : Diagnostic)
    (history : List HookCall) :
    (rollback outcomes hooks diagnostic history).2.code = diagnostic.code ∧
      (rollback outcomes hooks diagnostic history).2.subject = diagnostic.subject := by
  induction hooks generalizing diagnostic history with
  | nil => exact ⟨rfl, rfl⟩
  | cons hook rest ih =>
    rw [rollback, call]
    cases outcomes history .stop hook with
    | none => exact ih diagnostic _
    | some error =>
      exact ih (diagnostic.withSuggestion
        ("rollback hook " ++ hook.hook.name ++ " failed: " ++ error.display)) _

/-- The calls that start these hooks, all with success. -/
def startsOf (hooks : List RegisteredHook) : List HookCall :=
  hooks.map fun hook => ⟨.start, hook, none⟩

theorem starts_startsOf (hooks : List RegisteredHook) : Starts hooks (startsOf hooks) := by
  refine ⟨by simp [startsOf, Function.comp_def], fun call hcall => ?_⟩
  obtain ⟨hook, -, rfl⟩ := List.mem_map.mp hcall
  exact ⟨rfl, rfl⟩

theorem startsOf_cons (hook : RegisteredHook) (hooks : List RegisteredHook) :
    startsOf (hook :: hooks) = ⟨.start, hook, none⟩ :: startsOf hooks := rfl

/-- Each of these hooks starts, where those before it have started. -/
def AllStart (history : List HookCall) (hooks : List RegisteredHook) : Prop :=
  ∀ front hook rest, hooks = front ++ hook :: rest →
    outcomes (history ++ startsOf front) .start hook = none

theorem AllStart.nil (history : List HookCall) : AllStart outcomes history [] := by
  intro front hook rest h
  simp at h

theorem AllStart.cons {outcomes : Outcomes} {history : List HookCall} {hook : RegisteredHook}
    {hooks : List RegisteredHook} (hfirst : outcomes history .start hook = none)
    (h : AllStart outcomes (history ++ [⟨.start, hook, none⟩]) hooks) :
    AllStart outcomes history (hook :: hooks) := by
  intro front other rest heq
  cases front with
  | nil =>
    obtain ⟨rfl, -⟩ := List.cons.inj heq
    simpa [startsOf] using hfirst
  | cons first front =>
    obtain ⟨rfl, hrest⟩ := List.cons.inj heq
    have hother := h front other rest hrest
    rwa [List.append_assoc, List.singleton_append, ← startsOf_cons] at hother

/-- The error of a start names the hook that failed and carries its error. -/
structure Reports (failed : RegisteredHook) (error report : Error) : Prop where
  code : report.primary.code = MADS011
  subject : report.primary.subject = some failed.hook.name
  source : report.source = some error.display

/-- The hooks start in turn; where one fails, those before it are stopped in reverse. -/
theorem startHooks_cases (hooks started : List RegisteredHook) (history : List HookCall) :
    (startHooks outcomes hooks started history = (history ++ startsOf hooks, .ok ()) ∧
        AllStart outcomes history hooks) ∨
      ∃ front failed rest error stops report, hooks = front ++ failed :: rest ∧
        startHooks outcomes hooks started history =
          (history ++ (startsOf front ++ ⟨.start, failed, some error⟩ :: stops), .error report) ∧
        AllStart outcomes history front ∧
        outcomes (history ++ startsOf front) .start failed = some error ∧
        Stops (started ++ front).reverse stops ∧ Reports failed error report := by
  induction hooks generalizing started history with
  | nil => exact .inl ⟨by simp [startHooks, startsOf], .nil outcomes history⟩
  | cons hook rest ih =>
    cases hanswer : outcomes history .start hook with
    | some error =>
      right
      obtain ⟨stops, heq, hstops⟩ := rollback_stops outcomes started.reverse
        (hookFailureDiagnostic hook.hook.name "startup")
        (history ++ [⟨.start, hook, some error⟩])
      obtain ⟨hcode, hsubject⟩ := rollback_diagnostic outcomes started.reverse
        (hookFailureDiagnostic hook.hook.name "startup")
        (history ++ [⟨.start, hook, some error⟩])
      refine ⟨[], hook, rest, error, stops,
        { primary := (rollback outcomes started.reverse
            (hookFailureDiagnostic hook.hook.name "startup")
            (history ++ [⟨.start, hook, some error⟩])).2
          source := some error.display }, rfl, ?_, .nil outcomes history, ?_, by simpa using hstops,
        ⟨hcode, hsubject, rfl⟩⟩
      · simp only [startHooks, call, hanswer]
        exact Prod.ext (by simpa [startsOf] using heq) rfl
      · simpa [startsOf] using hanswer
    | none =>
      have hnext : startHooks outcomes (hook :: rest) started history =
          startHooks outcomes rest (started ++ [hook]) (history ++ [⟨.start, hook, none⟩]) := by
        simp only [startHooks, call, hanswer]
      rw [hnext]
      obtain ⟨heq, hall⟩ |
        ⟨front, failed, last, error, stops, report, rfl, heq, hall, hfailed, hstops, hreport⟩ :=
          ih (started ++ [hook]) (history ++ [⟨.start, hook, none⟩])
      · exact .inl ⟨heq.trans (by simp [startsOf]), hall.cons hanswer⟩
      · refine .inr ⟨hook :: front, failed, last, error, stops, report, rfl,
          heq.trans (by simp [startsOf]), hall.cons hanswer, ?_, by simpa using hstops, hreport⟩
        rwa [List.append_assoc, List.singleton_append, ← startsOf_cons] at hfailed

end Answers

end LifecycleManager

end Mads
