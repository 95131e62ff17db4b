import Mads.Common.Strategy
import Mads.Core.AutoConfiguration

/-!
# The official Passport JWT integration
-/

namespace Mads

variable {Config : Type}

def MADS121 : DiagnosticCode := ⟨"MADS121"⟩

namespace Jwt

def JWT_AUTO_CONFIGURATION_ID : String := "mads.common.passport.jwt"

def JWT_SERVICE_TYPE_NAME : String := "mads_common::jwt::service::JwtService"

def PASSPORT_CONFIGURATION_KEYS : List String := [
  "passport.secret",
  "passport.algorithms",
  "passport.active_key",
  "passport.issuer",
  "passport.audiences",
  "passport.clock_skew_seconds",
  "passport.max_token_bytes"]

/-- What the integration asks of a configuration, and what is fixed when it is linked. -/
structure Settings (Config : Type) where
  accepts : Config → Bool
  signingConfigurationIsMissing : Config → Bool
  sourceOf : Config → String → Option String
  serviceTypeId : TypeId
  location : SourceLocation
  applier : FnPtr

def configurationEvidence (settings : Settings Config) (config : Config) :
    List AutoConfigurationConfigEvidence :=
  PASSPORT_CONFIGURATION_KEYS.filterMap fun key =>
    (settings.sourceOf config key).map fun source => ⟨key, some source⟩

def requiringProvider (requirement : AutoConfigurationRequirement) : String :=
  match requirement.location with
  | some location =>
    requirement.providerTypeName ++ " at " ++ location.file ++ ":" ++ toString location.line ++
      ":" ++ toString location.column
  | none => requirement.providerTypeName

def configurationError (missing : Bool) (requirements : List AutoConfigurationRequirement) :
    Error where
  primary :=
    { code := MADS121
      title := "JWT auto-configuration is invalid"
      message := (if missing then "passport.secret is missing"
          else "Passport JWT configuration is invalid") ++
        "; required by " ++ ", ".intercalate (requirements.map requiringProvider)
      subject := some (if missing then "passport.secret" else "passport")
      suggestions := ["configure `passport.secret` or a valid named Passport key ring",
        "provide an explicit `JwtService` to override the default"] }

section Evaluate

variable (settings : Settings Config) (inventory : Inventory)
  (controllers : List ControllerRouteDescriptor) (guards : List GuardDescriptor)
  (strategies : List PassportStrategyDescriptor)

/-- One requirement for each guard of the application. -/
def guardRequirements (moduleGraph : Option ModuleGraph) :
    Run Error (List AutoConfigurationRequirement) := do
  let http := HttpApplicationScope.forModuleGraph (Catalog.modules inventory) controllers guards
    moduleGraph
  let bindings ← PassportStrategyCatalog.preflightScoped inventory strategies moduleGraph http.guards
  pure (bindings.map fun binding =>
    ⟨binding.guard.requirementSubject, some binding.guard.location⟩)

/-- The declarations and guards that require the service. -/
def allRequirements (context : AutoConfigurationContext Config)
    (guardRequirements : List AutoConfigurationRequirement) : List AutoConfigurationRequirement :=
  sortBy AutoConfigurationContext.requirementOrder
    (context.requirements settings.serviceTypeId ++ guardRequirements)

def preflightFailed (error : Error) : AutoConfigurationEvaluation :=
  .failed ⟨"passport_preflight_failed"⟩ "Passport guard and strategy preflight failed" [] [] error

/-- The decision once the guards are known. -/
def evaluateRequired (context : AutoConfigurationContext Config)
    (requirements : List AutoConfigurationRequirement) : AutoConfigurationEvaluation :=
  if context.hasProvider settings.serviceTypeId JWT_SERVICE_TYPE_NAME then
    .overridden ⟨"user_override"⟩ "an application provider overrides the Passport JWT default"
      requirements []
  else if requirements.isEmpty then
    .skipped ⟨"requirement_absent"⟩ "no provider requires the Passport JWT default" requirements []
  else
    let configuration := configurationEvidence settings context.config
    if settings.accepts context.config then
      .active ⟨"conditions_matched"⟩ "Passport JWT is required and configured" requirements
        configuration
    else
      let missing := settings.signingConfigurationIsMissing context.config
      .failed ⟨if missing then "missing_configuration" else "invalid_configuration"⟩
        "Passport JWT auto-configuration could not read its configuration" requirements
        configuration (configurationError missing requirements)

def evaluate (context : AutoConfigurationContext Config) : AutoConfigurationEvaluation :=
  match guardRequirements inventory controllers guards strategies context.moduleGraph with
  | .ok guardRequirements =>
    evaluateRequired settings context (allRequirements settings context guardRequirements)
  | .error (.err error) => preflightFailed error
  -- a preflight does not panic
  | .error _ => preflightFailed { primary := { code := MADS121, title := "", message := "" } }

def descriptor : AutoConfigurationDescriptor Config where
  identifier := JWT_AUTO_CONFIGURATION_ID
  outputTypeName := JWT_SERVICE_TYPE_NAME
  outputTypeId := settings.serviceTypeId
  location := settings.location
  evaluator := evaluate settings inventory controllers guards strategies
  applier := settings.applier

end Evaluate

/-- Where the service is required and nothing stands in for it, the integration is active or it
fails. -/
theorem active_of_required {settings : Settings Config} {context : AutoConfigurationContext Config}
    {requirements : List AutoConfigurationRequirement} (hrequired : requirements ≠ [])
    (hprovider : context.hasProvider settings.serviceTypeId JWT_SERVICE_TYPE_NAME = false)
    (hunfailed : (evaluateRequired settings context requirements).status ≠ .failed) :
    (evaluateRequired settings context requirements).status = .active := by
  have hempty : requirements.isEmpty = false := by simpa using hrequired
  unfold evaluateRequired at hunfailed ⊢
  rw [hprovider, hempty] at hunfailed ⊢
  by_cases haccepts : settings.accepts context.config = true
  · simp [haccepts, AutoConfigurationEvaluation.active]
  · simp [haccepts, AutoConfigurationEvaluation.failed] at hunfailed

theorem evaluate_eq {settings : Settings Config} {inventory : Inventory}
    {controllers : List ControllerRouteDescriptor} {guards : List GuardDescriptor}
    {strategies : List PassportStrategyDescriptor} {context : AutoConfigurationContext Config}
    {bindings : List PassportStrategyBinding}
    (h : PassportStrategyCatalog.preflightScoped inventory strategies context.moduleGraph
      (HttpApplicationScope.forModuleGraph (Catalog.modules inventory) controllers guards
        context.moduleGraph).guards = .ok bindings) :
    evaluate settings inventory controllers guards strategies context =
      evaluateRequired settings context (allRequirements settings context
        (bindings.map fun binding =>
          ⟨binding.guard.requirementSubject, some binding.guard.location⟩)) := by
  simp only [evaluate, guardRequirements, h, Run.ok_bind, Run.pure_eq_ok]

theorem allRequirements_ne_nil {settings : Settings Config}
    {context : AutoConfigurationContext Config}
    {guardRequirements : List AutoConfigurationRequirement} (h : guardRequirements ≠ []) :
    allRequirements settings context guardRequirements ≠ [] := by
  intro hnil
  have hlength := (sortBy_perm AutoConfigurationContext.requirementOrder
    (context.requirements settings.serviceTypeId ++ guardRequirements)).length_eq
  rw [allRequirements] at hnil
  rw [hnil, List.length_append] at hlength
  have hpos := List.length_pos_of_ne_nil h
  simp only [List.length_nil] at hlength
  omega

end Jwt

end Mads
