import Mads.Common.Database.AutoConfiguration
import Mads.Common.Server

/-!
# The database in the lifecycle of an application
-/

namespace Mads

/-! ### The hook -/

/-- The pool and the migrations that the hook still holds. -/
structure DatabaseState where
  closed : Bool
  migrations : Option AnyValue
  deriving DecidableEq

/-- What the hook finds: whether the context has the database, and how PostgreSQL answers. -/
structure DatabaseWorld where
  resolve : Option Error
  check : List HookCall → Option DatabaseError
  runPendingMigrations : List HookCall → AnyValue → Option DatabaseError

namespace DatabaseLifecycle

def failed (operation : String) (source : DatabaseError) : Error :=
  DatabaseError.frameworkError MADS100 "database bootstrap failed" operation source

def sourceUnavailable : Error where
  primary :=
    { code := MADS100
      title := "database bootstrap failed"
      message := "database startup migration source is unavailable" }

variable (hook : DatabaseLifecycle) (world : DatabaseWorld)

def start (history : List HookCall) (state : DatabaseState) : DatabaseState × Option Error :=
  match world.resolve with
  | some error => (state, some error)
  | none =>
    match world.check history with
    | some source =>
      ({ state with closed := true }, some (failed "database readiness check failed" source))
    | none =>
      if hook.migrateOnStartup then
        match state.migrations with
        | none => ({ state with closed := true }, some sourceUnavailable)
        | some migrations =>
          match world.runPendingMigrations history migrations with
          | some source =>
            ({ closed := true, migrations := none },
              some (failed "database startup migration failed" source))
          | none => ({ state with migrations := none }, none)
      else (state, none)

def stop (state : DatabaseState) : DatabaseState × Option Error :=
  match world.resolve with
  | some error => (state, some error)
  | none => ({ state with closed := true }, none)

def answer (history : List HookCall) (state : DatabaseState) :
    HookAction → DatabaseState × Option Error
  | .start => hook.start world history state
  | .stop => stop world state

variable (registered : RegisteredHook)

/-- What calls make of the pool and the migrations, after those that were seen. -/
def replay : List HookCall → DatabaseState → List HookCall → DatabaseState
  | _, state, [] => state
  | seen, state, call :: rest =>
    replay (seen ++ [call])
      (if call.hook = registered then (hook.answer world seen state call.action).1 else state) rest

/-- The pool and the migrations after a history. -/
def stateAfter (history : List HookCall) : DatabaseState :=
  hook.replay world registered [] ⟨false, hook.migrations⟩ history

/-- The database's hook among others. -/
def outcomes (others : Outcomes) : Outcomes := fun history action called =>
  if called = registered then
    (hook.answer world history (hook.stateAfter world registered history) action).2
  else others history action called

variable {hook world registered} {history : List HookCall} {others : Outcomes}

def sampleWorld : DatabaseWorld where
  resolve := none
  check _ := none
  runPendingMigrations _ _ := none

def sampleRegistered : RegisteredHook := ⟨.infrastructure "mads.common.database.diesel", 0, ⟨"database", 0⟩⟩

def sampleRegistrations : List (HookGroup × LifecycleHook) :=
  [(.infrastructure "mads.common.database.diesel", ⟨"database", 0⟩), (.application, ⟨"mail", 1⟩)]

end DatabaseLifecycle

end Mads
