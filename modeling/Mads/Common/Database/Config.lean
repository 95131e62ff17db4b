import Mads.Core.ConfigBuilder

/-!
# The configuration of the database
-/

namespace Mads

def MADS100 : DiagnosticCode := ⟨"MADS100"⟩
def MADS101 : DiagnosticCode := ⟨"MADS101"⟩

/-- A normalized error of the database integration. What lies below it is not shown. -/
inductive DatabaseError where
  | configuration (message : String)
  | pool
  | interaction
  | query
  | migration
  deriving DecidableEq, Repr

namespace DatabaseError

def display : DatabaseError → String
  | configuration message => "database configuration is invalid: " ++ message
  | pool => "database connection could not be acquired"
  | interaction => "database blocking operation failed"
  | query => "database query failed"
  | migration => "database migration failed"

/-- `database_framework_error_with_diagnostic`. -/
def frameworkErrorWithDiagnostic (diagnostic : Diagnostic) (source : DatabaseError) : Error where
  primary := diagnostic
  source := some source.display

def frameworkError (code : DiagnosticCode) (title operation : String) (source : DatabaseError) :
    Error :=
  frameworkErrorWithDiagnostic { code, title, message := operation } source

end DatabaseError

namespace DatabaseConfig

/-- The same test as the one of the configuration's own placeholders. -/
def exactVariableName (value : String) : Option String := ConfigBuilder.exactVariableName value

def validateUrl (url : String) : Except DatabaseError Unit :=
  if url = "" then .error (.configuration "database.url must not be empty")
  else if (exactVariableName url).isSome then
    .error (.configuration "database.url must be resolved before database configuration is built")
  else .ok ()

end DatabaseConfig

/-- The configuration of a database: a URL that is neither empty nor a placeholder, and room for
at least one connection. -/
structure DatabaseConfig where
  url : String
  poolSize : UInt64
  migrateOnStartup : Bool
  url_valid : DatabaseConfig.validateUrl url = .ok ()
  poolSize_ne_zero : poolSize ≠ 0

namespace DatabaseConfig

theorem ten_ne_zero : (10 : UInt64) ≠ 0 := by decide

def new (url : String) : Except DatabaseError DatabaseConfig :=
  match h : validateUrl url with
  | .error error => .error error
  | .ok () => .ok {
      url
      poolSize := 10
      migrateOnStartup := false
      url_valid := h
      poolSize_ne_zero := ten_ne_zero }

def withPoolSize (config : DatabaseConfig) (poolSize : UInt64) :
    Except DatabaseError DatabaseConfig :=
  if h : poolSize = 0 then
    .error (.configuration "database.pool_size must be a positive integer")
  else .ok { config with poolSize, poolSize_ne_zero := h }

def withMigrateOnStartup (config : DatabaseConfig) (enabled : Bool) : DatabaseConfig :=
  { config with migrateOnStartup := enabled }

/-- `str::parse::<bool>`. -/
def parseBool (text : String) : Option Bool :=
  if text = "true" then some true else if text = "false" then some false else none

/-- The pool size that a configuration gives, if it gives one. -/
def withPoolSizeOf (database : DatabaseConfig) (poolSize : Option String) :
    Except DatabaseError DatabaseConfig :=
  match poolSize with
  | none => .ok database
  | some text =>
    match Text.parseU64 text with
    | none => .error (.configuration "database.pool_size must be a positive integer")
    | some poolSize => database.withPoolSize poolSize

/-- Whether to migrate, if a configuration says so. -/
def withMigrateOf (database : DatabaseConfig) (migrate : Option String) :
    Except DatabaseError DatabaseConfig :=
  match migrate with
  | none => .ok database
  | some text =>
    match parseBool text with
    | none => .error (.configuration "database.migrate must be true or false")
    | some enabled => .ok (database.withMigrateOnStartup enabled)

def fromConfig (config : Config) : Except DatabaseError DatabaseConfig :=
  match config.get "database.url" with
  | none => .error (.configuration "database.url is required")
  | some url => do
    let database ← new url
    let database ← database.withPoolSizeOf (config.get "database.pool_size")
    database.withMigrateOf (config.get "database.migrate")

/-! ### What does not depend on the URL -/

/-- All of a configuration but the URL. -/
def shown (config : DatabaseConfig) : UInt64 × Bool := (config.poolSize, config.migrateOnStartup)

/-- Two results that differ in the URL at most. -/
inductive Alike : Except DatabaseError DatabaseConfig → Except DatabaseError DatabaseConfig → Prop
  | error (error : DatabaseError) : Alike (.error error) (.error error)
  | ok {left right : DatabaseConfig} (h : left.shown = right.shown) : Alike (.ok left) (.ok right)

theorem Alike.bind {left right : Except DatabaseError DatabaseConfig}
    {next : DatabaseConfig → Except DatabaseError DatabaseConfig} (h : Alike left right)
    (hnext : ∀ left right : DatabaseConfig, left.shown = right.shown →
      Alike (next left) (next right)) : Alike (left >>= next) (right >>= next) := by
  cases h with
  | error error => exact .error error
  | ok h => exact hnext _ _ h

variable {left right : DatabaseConfig}

theorem alike_new {url other : String} (h : validateUrl url = validateUrl other) :
    Alike (new url) (new other) := by
  unfold new
  split
  · next error hurl =>
    split
    · next error' hother =>
      rw [hurl, hother] at h
      rw [Except.error.inj h]
      exact .error error'
    · next hother => simp [hurl, hother] at h
  · next hurl =>
    split
    · next hother => simp [hurl, hother] at h
    · exact .ok rfl

theorem alike_withPoolSize (h : left.shown = right.shown) (poolSize : UInt64) :
    Alike (left.withPoolSize poolSize) (right.withPoolSize poolSize) := by
  unfold withPoolSize
  split
  · exact .error _
  · exact .ok (congrArg (fun shown => (poolSize, shown.2)) h)

theorem alike_withPoolSizeOf (h : left.shown = right.shown) (poolSize : Option String) :
    Alike (left.withPoolSizeOf poolSize) (right.withPoolSizeOf poolSize) := by
  cases poolSize with
  | none => exact .ok h
  | some text =>
    simp only [withPoolSizeOf]
    cases Text.parseU64 text with
    | none => exact .error _
    | some poolSize => exact alike_withPoolSize h poolSize

theorem alike_withMigrateOf (h : left.shown = right.shown) (migrate : Option String) :
    Alike (left.withMigrateOf migrate) (right.withMigrateOf migrate) := by
  cases migrate with
  | none => exact .ok h
  | some text =>
    simp only [withMigrateOf]
    cases parseBool text with
    | none => exact .error _
    | some enabled => exact .ok (congrArg (fun shown => (shown.1, enabled)) h)

/-- Configurations that agree on all but the text of the URL, which is judged alike. -/
theorem alike_fromConfig {config other : Config}
    (hurl : (config.get "database.url").map validateUrl =
      (other.get "database.url").map validateUrl)
    (hrest : ∀ key ∈ ["database.pool_size", "database.migrate"],
      config.get key = other.get key) : Alike (fromConfig config) (fromConfig other) := by
  have hpool : config.get "database.pool_size" = other.get "database.pool_size" :=
    hrest _ (by simp)
  have hmigrate : config.get "database.migrate" = other.get "database.migrate" :=
    hrest _ (by simp)
  unfold fromConfig
  rw [hpool, hmigrate]
  cases hleft : config.get "database.url" with
  | none =>
    have hright : other.get "database.url" = none := by simpa [hleft, eq_comm] using hurl
    rw [hright]
    exact .error _
  | some url =>
    obtain ⟨url', hright, hvalid⟩ : ∃ url', other.get "database.url" = some url' ∧
        validateUrl url' = validateUrl url := by simpa [hleft, eq_comm] using hurl
    rw [hright]
    refine (alike_new hvalid.symm).bind fun left right h => ?_
    refine (alike_withPoolSizeOf h _).bind fun left right h => ?_
    exact alike_withMigrateOf h _

end DatabaseConfig

end Mads
