import Mads.Common.Database.Config
import Mads.Common.JwtAutoConfiguration
import Mads.Core.Builder

/-!
# The official database integration
-/

namespace Mads

/-- The lifecycle hook of a database, with the migrations it may run. -/
structure DatabaseLifecycle where
  migrateOnStartup : Bool
  migrations : Option AnyValue
  deriving DecidableEq

/-- A hook that is to migrate has something to run. -/
def DatabaseLifecycle.Supplied (hook : DatabaseLifecycle) : Prop :=
  hook.migrateOnStartup = true → hook.migrations.isSome = true

namespace Database

def DATABASE_AUTO_CONFIGURATION_ID : String := "mads.common.database.diesel"

def DATABASE_TYPE_NAME : String := "mads_common::database::pool::Database"

/-- What is fixed when the integration is linked, and whether a pool can be built. -/
structure Settings where
  databaseTypeId : TypeId
  migrationsTypeId : TypeId
  location : SourceLocation
  applier : FnPtr
  poolBuilds : DatabaseConfig → Bool

variable (settings : Settings)

/-- `Database::from_config`, which does not connect. The pool is known by its configuration. -/
def fromConfig (config : DatabaseConfig) : Except DatabaseError DatabaseConfig :=
  if settings.poolBuilds config then .ok config
  else .error (.configuration "database.pool_size could not configure the pool")

def CONFIGURATION_KEYS : List String := ["database.url", "database.pool_size", "database.migrate"]

def configurationEvidence (config : Config) : List AutoConfigurationConfigEvidence :=
  CONFIGURATION_KEYS.map fun key => ⟨key, config.sourceOf key⟩

def configurationError (missingUrl : Bool) (requirements : List AutoConfigurationRequirement)
    (source : DatabaseError) : Error :=
  let condition := if missingUrl then "is missing" else "is invalid"
  DatabaseError.frameworkErrorWithDiagnostic
    { code := MADS101
      title := "database auto-configuration is invalid"
      message := "database.url " ++ condition ++ "; required by " ++
        ", ".intercalate (requirements.map Jwt.requiringProvider)
      subject := some "database.url"
      suggestions := ["configure `database.url` with a PostgreSQL connection URL",
        "provide an explicit or custom `Database` to override the default"] }
    source

def missingMigrationSource : Error where
  primary :=
    { code := MADS101
      title := "database auto-configuration is invalid"
      message := "database.migrate requires an embedded migration source" }

def evaluate (context : AutoConfigurationContext Config) : AutoConfigurationEvaluation :=
  let requirements := context.requirements settings.databaseTypeId
  if context.hasProvider settings.databaseTypeId DATABASE_TYPE_NAME then
    .overridden ⟨"user_override"⟩ "an application provider overrides the database default"
      requirements []
  else if requirements.isEmpty then
    .skipped ⟨"requirement_absent"⟩ "no provider requires the database default" requirements []
  else
    let configuration := configurationEvidence context.config
    let missingUrl := (context.config.sourceOf "database.url").isNone
    match DatabaseConfig.fromConfig context.config with
    | .error source =>
      .failed ⟨if missingUrl then "missing_configuration" else "invalid_configuration"⟩
        "database auto-configuration could not read its configuration" requirements configuration
        (configurationError missingUrl requirements source)
    | .ok config =>
      if config.migrateOnStartup && (context.input settings.migrationsTypeId).isNone then
        .failed ⟨"missing_migration_source"⟩
          "database startup migrations require an embedded source" requirements configuration
          missingMigrationSource
      else
        .active ⟨"conditions_matched"⟩
          (if config.migrateOnStartup then "Database is required and configured"
            else "Database is required and configured with startup migrations disabled")
          requirements configuration

def descriptor : AutoConfigurationDescriptor Config where
  identifier := DATABASE_AUTO_CONFIGURATION_ID
  outputTypeName := DATABASE_TYPE_NAME
  outputTypeId := settings.databaseTypeId
  location := settings.location
  evaluator := evaluate settings
  applier := settings.applier

/-- What an integration hands to the builder. -/
structure Contribution where
  database : DatabaseConfig
  hook : DatabaseLifecycle

def provisioningError (source : DatabaseError) : Error :=
  DatabaseError.frameworkError MADS101 "database auto-configuration failed" "provisioning_failed" source

def apply (context : AutoConfigurationApplyContext Config) : Except Error Contribution := do
  let config ← (DatabaseConfig.fromConfig context.config).mapError provisioningError
  let database ← (fromConfig settings config).mapError provisioningError
  let migrations := context.inputs.get context.identifier settings.migrationsTypeId
  return ⟨database, ⟨config.migrateOnStartup, migrations⟩⟩

/-! ### The explicit database -/

structure DatabaseBootstrap where
  config : DatabaseConfig
  migrations : Option AnyValue

def DatabaseBootstrap.validate (bootstrap : DatabaseBootstrap) : Except Error Unit :=
  if bootstrap.config.migrateOnStartup && bootstrap.migrations.isNone then
    .error {
      primary :=
        { code := MADS100
          title := "database bootstrap is invalid"
          message := "database.migrate requires an embedded migration source" } }
  else .ok ()

/-- What `MadsBuilderDatabaseExt::database` provides and registers. -/
def database (bootstrap : DatabaseBootstrap) : Except Error Contribution := do
  bootstrap.validate
  let database ← (fromConfig settings bootstrap.config).mapError
    (DatabaseError.frameworkError MADS100 "database bootstrap failed" "database pool creation failed")
  return ⟨database, ⟨bootstrap.config.migrateOnStartup, bootstrap.migrations⟩⟩

variable {settings}

/-- What a context must be like for the default to stand in. -/
structure Wanted (settings : Settings) (context : AutoConfigurationContext Config)
    (database : DatabaseConfig) : Prop where
  free : context.hasProvider settings.databaseTypeId DATABASE_TYPE_NAME = false
  required : context.requirements settings.databaseTypeId ≠ []
  configured : DatabaseConfig.fromConfig context.config = .ok database
  supplied : database.migrateOnStartup = true →
    (context.input settings.migrationsTypeId).isSome = true

theorem evaluate_active_iff {context : AutoConfigurationContext Config} :
    (evaluate settings context).status = .active ↔ ∃ database, Wanted settings context database := by
  constructor
  · intro hactive
    rw [evaluate] at hactive
    split at hactive
    · cases hactive
    · next hfree =>
      split at hactive
      · cases hactive
      · next hrequired =>
        cases hconfigured : DatabaseConfig.fromConfig context.config with
        | error source =>
          simp only [hconfigured] at hactive
          cases hactive
        | ok database =>
          simp only [hconfigured] at hactive
          split at hactive
          · cases hactive
          · next hsupplied =>
            refine ⟨database, by simpa using hfree, by simpa using hrequired, hconfigured, ?_⟩
            simpa [Option.isSome_iff_ne_none] using hsupplied
  · rintro ⟨database, hfree, hrequired, hconfigured, hsupplied⟩
    have hempty : (context.requirements settings.databaseTypeId).isEmpty = false := by
      simpa using hrequired
    have hinput : (database.migrateOnStartup &&
        (context.input settings.migrationsTypeId).isNone) = false := by
      simpa [Option.isSome_iff_ne_none] using hsupplied
    simp only [evaluate, hfree, hempty, hconfigured, hinput, Bool.false_eq_true, if_false]
    rfl

/-- Where the default stands in, the same configuration and inputs provision it, unless the pool
cannot be built; and its hook has migrations to run if it is to run some. -/
theorem apply_of_wanted {config : Config} {inputs : AutoConfigurationInputs}
    {moduleGraph : Option ModuleGraph} {providers : List ProviderDescriptor}
    {satisfied : List SatisfiedProvider} {database : DatabaseConfig}
    (h : Wanted settings (AutoConfiguration.contextFor config inputs moduleGraph providers satisfied
      (descriptor settings)) database) :
    ∃ hook : DatabaseLifecycle, hook.Supplied ∧
      apply settings ⟨DATABASE_AUTO_CONFIGURATION_ID, config, inputs, moduleGraph⟩ =
        if settings.poolBuilds database then .ok ⟨database, hook⟩
        else .error (provisioningError
          (.configuration "database.pool_size could not configure the pool")) := by
  have hconfigured : DatabaseConfig.fromConfig config = .ok database := h.configured
  refine ⟨⟨database.migrateOnStartup,
    inputs.get DATABASE_AUTO_CONFIGURATION_ID settings.migrationsTypeId⟩, h.supplied, ?_⟩
  unfold apply fromConfig
  rw [hconfigured]
  cases hbuilds : settings.poolBuilds database <;>
    simp [Except.mapError, bind, Except.bind, pure, Except.pure, hbuilds]

/-- A decision, and everything that a report or a diagnostic shows of it, depends on three keys of
the configuration only, and on the text of the URL not at all beyond whether it is accepted. -/
theorem evaluate_hides_url (settings : Settings) (context : AutoConfigurationContext Config)
    (other : Config)
    (hsources : ∀ key ∈ CONFIGURATION_KEYS, context.config.sourceOf key = other.sourceOf key)
    (hurl : (context.config.get "database.url").map DatabaseConfig.validateUrl =
      (other.get "database.url").map DatabaseConfig.validateUrl)
    (hrest : ∀ key ∈ ["database.pool_size", "database.migrate"],
      context.config.get key = other.get key) :
    evaluate settings { context with config := other } = evaluate settings context := by
  have hmissing : context.config.sourceOf "database.url" = other.sourceOf "database.url" :=
    hsources _ (by simp [CONFIGURATION_KEYS])
  have hevidence : configurationEvidence other = configurationEvidence context.config := by
    apply List.map_congr_left
    intro key hkey
    rw [hsources key hkey]
  unfold evaluate
  rw [hmissing, hevidence]
  have halike := DatabaseConfig.alike_fromConfig hurl hrest
  dsimp only
  generalize DatabaseConfig.fromConfig context.config = left at halike ⊢
  generalize DatabaseConfig.fromConfig other = right at halike ⊢
  cases halike with
  | error error => rfl
  | ok hshown =>
    have hmigrate := congrArg Prod.snd hshown
    simp only [DatabaseConfig.shown] at hmigrate
    simp only [hmigrate]
    rfl

/-- A configuration that gives a URL. -/
def sampleConfig (url : String) : Config where
  values := SortedMap.empty.insert "database.url" ⟨url, ⟨"env", none⟩⟩
  stringArrays := .empty

def sampleSettings : Settings where
  databaseTypeId := ⟨1⟩
  migrationsTypeId := ⟨2⟩
  location := ⟨"auto_configuration.rs", 1, 1⟩
  applier := 0
  poolBuilds := fun _ => true

def userRepository : ProviderDescriptor where
  kind := .repository
  typeName := "app::UserRepository"
  typeId := ⟨3⟩
  dependencies := [⟨"Database", ⟨1⟩⟩]
  visibility := .private_
  location := ⟨"users.rs", 3, 1⟩

def sampleContext : AutoConfigurationContext Config where
  identifier := DATABASE_AUTO_CONFIGURATION_ID
  config := sampleConfig "postgres://app:first@db/app"
  providers := [userRepository]
  satisfied := []
  inputs := ⟨[], List.nodup_nil⟩
  moduleGraph := none

/-- Changing the password changes nothing that is shown. -/
theorem evaluate_hides_url_sample :
    evaluate sampleSettings
        { sampleContext with config := sampleConfig "postgres://app:second@db/app" } =
      evaluate sampleSettings sampleContext :=
  evaluate_hides_url sampleSettings sampleContext _ (by decide) (by decide) (by decide)

/-- A bootstrap that is accepted registers a hook that has migrations to run if it is to run some. -/
theorem supplied_of_database {bootstrap : DatabaseBootstrap} {contribution : Contribution}
    (h : database settings bootstrap = .ok contribution) : contribution.hook.Supplied := by
  unfold database DatabaseBootstrap.validate at h
  split at h
  · cases h
  · next hvalid =>
    unfold fromConfig at h
    split at h
    · obtain rfl := Except.ok.inj h
      simpa [DatabaseLifecycle.Supplied, Option.isSome_iff_ne_none] using hvalid
    · cases h

end Database

end Mads
