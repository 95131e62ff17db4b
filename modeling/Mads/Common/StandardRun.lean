import Mads.Common.ControllerScope
import Mads.Common.RouterAssembly
import Mads.Common.Server
import Mads.Common.ServerConfig

/-!
# Preparation of a standard run
-/

namespace Mads

/-- A standard run had no reachable managed route. -/
def MADS031 : DiagnosticCode := ⟨"MADS031"⟩

def CORS_AUTO_CONFIGURATION_ID : String := "mads.common.http.cors"

/-- A root module with everything that is linked and loaded for it. -/
structure StandardApplication (Config Router : Type) where
  root : RustType
  program : Program Config
  strategies : List PassportStrategyDescriptor
  server : Server.Settings Config
  /-- The configuration in the conventional sources, and the one without any source. -/
  loadStandardConfig : Run Error Config
  emptyConfig : Config
  configType : RustType
  configAddress : ℕ
  modeAddress : ℕ
  corsPlanType : RustType
  library : RouterLibrary Router
  layer : ErasedProvider → Router → Router
  code : FnPtr → Route.ControllerRegistrar Router

structure PreparedStandardRun (Config Router : Type) where
  application : Application Config
  router : Router
  binding : ErasedProvider
  routeCount : ℕ

def noRunnableRouteError : Error where
  primary :=
    { code := MADS031
      title := "no runnable HTTP route"
      message := "the selected application has no reachable managed HTTP route"
      subject := some "HTTP runtime"
      suggestions := ["declare a managed controller route reachable from the root module"] }

namespace StandardApplication

open Server

variable {Config Router : Type} (app : StandardApplication Config Router)

def builderWithConfig (config : Config) : MadsBuilder Config :=
  MadsBuilder.new config app.configType ⟨app.configType.typeId, app.configAddress⟩

/-- `HttpRuntimeMode::Automatic`. -/
def automatic : AnyValue := ⟨app.server.modeTypeId, app.modeAddress⟩

def enableAutomaticServer (builder : MadsBuilder Config) : MadsBuilder Config :=
  builder.autoConfigurationInput SERVER_AUTO_CONFIGURATION_ID app.automatic

def enableAutomaticCors (builder : MadsBuilder Config) : MadsBuilder Config :=
  builder.autoConfigurationInput CORS_AUTO_CONFIGURATION_ID app.automatic

/-- Adds the layer of the CORS plan, where there is a plan. -/
def configureRouter (application : Application Config) (router : Router) : Run Error Router :=
  match application.context.registry.resolve app.corsPlanType.typeId app.corsPlanType.typeName with
  | .ok cors => pure (app.layer cors router)
  | .error (.err error) =>
    if error.primary.code = MADS003 then pure router else Run.fail error
  | .error halt => .error halt

def prepareStandardApplication (application : Application Config) :
    Run HttpRuntimeError (PreparedStandardRun Config Router) := do
  let scope := app.program.applicationScope application
  Run.ensure scope.hasRoutes (.bootstrap noRunnableRouteError)
  let routeCount := scope.routeRecords.length
  let router ← Run.mapErr .bootstrap (buildRouter app.library app.code
    app.program.environment.inventory app.strategies application.context.registry
    application.moduleGraph scope)
  let router ← Run.mapErr .bootstrap (app.configureRouter application router)
  let binding ← Run.mapErr .bootstrap
    (application.context.registry.resolve app.server.bindingTypeId SERVER_BINDING_TYPE_NAME)
  pure { application, router, binding, routeCount }

def prepareStandardRun : Run HttpRuntimeError (PreparedStandardRun Config Router) := do
  let config ← Run.mapErr .bootstrap app.loadStandardConfig
  let builder ← Run.mapErr .bootstrap ((app.builderWithConfig config).selectRoot app.root)
  let builder := app.enableAutomaticCors (app.enableAutomaticServer builder)
  let application ← Run.mapErr .bootstrap (MadsBuilder.build app.program.environment builder)
  app.prepareStandardApplication application

end StandardApplication

end Mads
