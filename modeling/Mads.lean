import Mads.Cli.DevChanges
import Mads.Cli.DevSession
import Mads.Cli.DevState
import Mads.Cli.Diagnostic
import Mads.Cli.Inspection
import Mads.Cli.InspectionHandshake
import Mads.Common.ControllerScope
import Mads.Common.GuardResolution
import Mads.Common.HttpScope
import Mads.Common.Isolation
import Mads.Common.Server
import Mads.Common.Strategy
import Mads.Common.StrategyIsolation
import Mads.Core.Analysis
import Mads.Core.AutoConfiguration
import Mads.Core.AutoConfigurationSelection
import Mads.Core.Boundaries
import Mads.Core.Builder
import Mads.Core.BuilderAnalysis
import Mads.Core.Construction
import Mads.Core.Cycle
import Mads.Core.Graph
import Mads.Core.Isolation
import Mads.Core.Lifecycle
import Mads.Core.LifecycleRun
import Mads.Core.ModuleTraversal
import Mads.Core.Plan
import Mads.Core.Registry
import Mads.Core.Scope
import Mads.Core.ScopeSelection
import Mads.Core.ValidAnalysis
import Mads.Library.DepthFirst
import Mads.Library.Frontier
import Mads.Library.ThreeColor
import Mads.Library.Trace
import Mads.Library.Worklist
import Mads.Cli.Database.Schema
import Mads.Library.Text
import Mads.Cli.Database.CatalogType
import Mads.Cli.Database.Catalog
import Mads.Cli.Database.Diff
import Mads.Cli.Database.DropOrder
import Mads.Cli.Database.ForeignKeys
import Mads.Cli.Database.Migration
import Mads.Cli.Database.MigrationPass
import Mads.Cli.Database.MigrationRun
import Mads.Cli.Database.Declaration
import Mads.Cli.Database.DeclaredShape
import Mads.Cli.Database.Convergence
import Mads.Common.Jwt.Claims
import Mads.Common.Jwt.PassportConfig
import Mads.Common.Jwt.KeyRing
import Mads.Common.Jwt.KeyRingConfig
import Mads.Common.Jwt.StrictJson
import Mads.Library.Saturating
import Mads.Common.Jwt.Token
import Mads.Common.Jwt.Service
import Mads.Common.Jwt.Verification
import Mads.Common.Jwt.RoundTrip
import Mads.Core.CycleReport
import Mads.Cli.Database.Publish
import Mads.Cli.Database.PublishAtomic
import Mads.Common.Database.Migration
import Mads.Library.Decimal
import Mads.Cli.Database.MigrationVersion
import Mads.Cli.Database.Sql
import Mads.Cli.Database.TypeDenotation
import Mads.Core.GraphInspection
import Mads.Core.InspectionOwners
import Mads.Core.ConfigSource
import Mads.Core.ConfigBuilder
import Mads.Core.ConfigMerge
import Mads.Common.Cookie
import Mads.Common.PassportContext
import Mads.Common.CredentialIsolation
import Mads.Common.GuardRuntime
import Mads.Common.GuardAgreement
import Mads.Common.RouteValidation
import Mads.Common.RouterAssembly
import Mads.Common.RouteConflicts
import Mads.Common.RouteRegistration
import Mads.Common.ServerConfig
import Mads.Common.StandardRun
import Mads.Common.Inspection
import Mads.Common.DoctorAgreement
import Mads.Core.AutoConfigurationReports
import Mads.Core.DeclarationOrder
import Mads.Cli.Database.DropFeasibility
import Mads.Core.TomlFlattening
import Mads.Common.RouteScope
import Mads.Common.RoutesMacro
import Mads.Cli.Database.PlanWarnings
import Mads.Library.SqlText
import Mads.Cli.Database.SqlDocument
import Mads.Common.Jwt.StrictJsonVisitor
import Mads.Common.StrictCookies
import Mads.Cli.WatchSet
import Mads.Common.RouteWalk
import Mads.Library.IpAddress
import Mads.Common.Cors
import Mads.Core.ConsumerPath
import Mads.Cli.WatchedApplication
import Mads.Cli.DevRun
import Mads.Common.Database.Lifecycle
import Mads.Library.Ownership
import Mads.Cli.Database.PlanFrame
import Mads.Cli.Database.PostgresRun
import Mads.Cli.Database.SchemaHistory
import Mads.Cli.CargoBuild
import Mads.Cli.Command
import Mads.Cli.Database.Commands
import Mads.Cli.InspectionProtocol
import Mads.Cli.Render
