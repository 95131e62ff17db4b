import Mads.Common.HttpScope
import Mads.Core.Builder
import Mads.Library.Text

/-!
# The official HTTP server integration
-/

namespace Mads

variable {Config : Type}

namespace Server

def SERVER_AUTO_CONFIGURATION_ID : String := "mads.common.http.server"

def SERVER_BINDING_TYPE_NAME : String := "mads_common::server_config::ServerBinding"

/-- Labels of letters, digits and hyphens, perhaps with a dot behind the last. -/
def isValidHostname (host : String) : Bool :=
  let hostname := (Text.stripSuffix host ".").getD host
  hostname ≠ "" && hostname.utf8ByteSize ≤ 253 &&
    (Text.split hostname '.').all fun label =>
      label ≠ "" && label.utf8ByteSize ≤ 63 && label.toList.head? ≠ some '-' &&
        label.toList.getLast? ≠ some '-' &&
        label.toList.all fun character => character.isAlphanum || character = '-'

/-- A listener address. -/
structure ServerBinding where
  host : String
  port : UInt16
  deriving DecidableEq, Repr

/-- What the integration reads off a configuration, and what is fixed when it is linked. -/
structure Settings (Config : Type) where
  fromConfig : Config → Except Error ServerBinding
  sourceOf : Config → String → Option String
  bindingTypeId : TypeId
  modeTypeId : TypeId
  location : SourceLocation
  applier : FnPtr

variable (settings : Settings Config)

def serverEvidence (config : Config) : List AutoConfigurationConfigEvidence :=
  ["server.host", "server.port"].map fun key => ⟨key, settings.sourceOf config key⟩

section

variable (inventory : Inventory) (controllers : List ControllerRouteDescriptor)
  (guards : List GuardDescriptor)

def noManagedRoutes (config : Config) : AutoConfigurationEvaluation :=
  .skipped ⟨"no_managed_routes"⟩ "the selected application has no managed HTTP routes" []
    (serverEvidence settings config)

/-- The listener is automatic in a standard run of a root that has routes. -/
def evaluate (context : AutoConfigurationContext Config) : AutoConfigurationEvaluation :=
  let evidence := serverEvidence settings context.config
  if (context.input settings.modeTypeId).isNone then
    .overridden ⟨"explicit_listener"⟩ "the low-level runtime owns its listener address" [] evidence
  else
    match context.moduleGraph with
    | none => noManagedRoutes settings context.config
    | some moduleGraph =>
      let http := HttpApplicationScope.forModuleGraph (Catalog.modules inventory) controllers guards
        (some moduleGraph)
      if ¬ http.hasRoutes then noManagedRoutes settings context.config
      else
        match settings.fromConfig context.config with
        | .ok _ =>
          .active ⟨"conditions_matched"⟩ "automatic HTTP server conditions matched" [] evidence
        | .error error =>
          .failed ⟨"invalid_configuration"⟩ "automatic HTTP server configuration is invalid" []
            evidence error

def descriptor : AutoConfigurationDescriptor Config where
  identifier := SERVER_AUTO_CONFIGURATION_ID
  outputTypeName := SERVER_BINDING_TYPE_NAME
  outputTypeId := settings.bindingTypeId
  location := settings.location
  evaluator := evaluate settings inventory controllers guards
  applier := settings.applier

end

/-- In an automatic run of a root with routes, the integration is active or it fails. -/
theorem active_of_routes {settings : Settings Config} {inventory : Inventory}
    {controllers : List ControllerRouteDescriptor} {guards : List GuardDescriptor}
    {context : AutoConfigurationContext Config} {moduleGraph : ModuleGraph}
    (hinput : (context.input settings.modeTypeId).isSome)
    (hgraph : context.moduleGraph = some moduleGraph)
    (hroutes : (HttpApplicationScope.forModuleGraph (Catalog.modules inventory) controllers guards
      (some moduleGraph)).hasRoutes)
    (hunfailed : (evaluate settings inventory controllers guards context).status ≠ .failed) :
    (evaluate settings inventory controllers guards context).status = .active := by
  have hsome : (context.input settings.modeTypeId).isNone = false := by
    rw [← Option.not_isSome, hinput]
    rfl
  simp only [evaluate, hsome, hgraph, hroutes, Bool.false_eq_true, not_true_eq_false, if_false]
    at hunfailed ⊢
  cases hbinding : settings.fromConfig context.config with
  | ok _ => rfl
  | error error =>
    rw [hbinding] at hunfailed
    exact absurd rfl hunfailed

end Server

end Mads
