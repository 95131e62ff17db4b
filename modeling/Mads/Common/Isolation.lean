import Mads.Common.HttpScope
import Mads.Core.Isolation

/-!
# Rooted programs and declarations outside their root
-/

namespace Mads

variable {Config : Type}

/-- What is linked into a program and read when it starts with a root. -/
structure Program (Config : Type) where
  environment : Environment Config
  controllers : List ControllerRouteDescriptor
  guards : List GuardDescriptor

namespace Program

def modules (program : Program Config) : List ModuleDescriptor :=
  Catalog.modules program.environment.inventory

/-- The HTTP scope of an analyzed program. -/
def httpScope (program : Program Config) (analysis : GraphAnalysis) : HttpApplicationScope :=
  HttpApplicationScope.forModuleGraph program.modules program.controllers program.guards
    analysis.moduleGraph

/-- The second program has one more provider or controller, owned by a module that the graph does
not reach. -/
inductive AddsOutside (moduleGraph : ModuleGraph) : Program Config → Program Config → Prop
  | provider {program : Program Config} {d : ProviderDescriptor}
      {providers : List ProviderDescriptor}
      (outside : Scope.Outside moduleGraph program.modules d.namespace_)
      (inserted : Inserted d program.environment.inventory.providers providers) :
      AddsOutside moduleGraph program
        { program with environment := MadsBuilder.withProviders program.environment providers }
  | controller {program : Program Config} {c : ControllerRouteDescriptor}
      {controllers : List ControllerRouteDescriptor}
      (outside : Scope.Outside moduleGraph program.modules c.namespace_)
      (inserted : Inserted c program.controllers controllers) :
      AddsOutside moduleGraph program { program with controllers }

end Program

theorem rootedControllers_isolated {graph : ModuleGraph} {modules : List ModuleDescriptor}
    {c : ControllerRouteDescriptor} {controllers more : List ControllerRouteDescriptor}
    (hout : Scope.Outside graph modules c.namespace_) (hinserted : Inserted c controllers more) :
    HttpApplicationScope.rootedControllers modules more graph =
      HttpApplicationScope.rootedControllers modules controllers graph := by
  obtain ⟨owner, howner, hunreachable⟩ := hout
  apply (sortBy_inserted controllerOrder hinserted).filterMap_eq
  have hcopy : HttpScope.isReachable graph owner.typeId = false := hunreachable
  simp [HttpScope.rootedController, HttpScope.ownerForNamespace, howner, hcopy]

namespace Program

/-- One declaration more outside of the root changes nothing. -/
theorem AddsOutside.same {moduleGraph : ModuleGraph} {program more : Program Config}
    (h : AddsOutside moduleGraph program more) {builder : MadsBuilder Config}
    {result : BuilderAnalysis Config}
    (hok : MadsBuilder.analyzeRooted program.environment builder moduleGraph = .ok result)
    (hvalid : result.analysis.isValid) :
    more.modules = program.modules ∧
      MadsBuilder.analyzeRooted more.environment builder moduleGraph = .ok result ∧
      more.httpScope result.analysis = program.httpScope result.analysis := by
  obtain ⟨ownership, hgraph⟩ := MadsBuilder.moduleGraph_of_analyzeRooted hok
  cases h with
  | provider hout hinserted =>
    exact ⟨rfl, MadsBuilder.analyzeRooted_isolated hinserted hout hok hvalid, rfl⟩
  | @controller c controllers hout hinserted =>
    refine ⟨rfl, hok, ?_⟩
    have hsame : HttpApplicationScope.rootedControllers
        ({ program with controllers } : Program Config).modules controllers
          (moduleGraph.setProviderOwnership ownership) =
        HttpApplicationScope.rootedControllers program.modules program.controllers
          (moduleGraph.setProviderOwnership ownership) :=
      rootedControllers_isolated hout hinserted
    simp only [httpScope, hgraph, HttpApplicationScope.forModuleGraph, hsame]

/-- A rooted program whose analysis is valid does not notice what is linked outside of its root:
the whole analysis stays as it is, with its plan and its integrations, and so do the selected
controllers, routes and guards. -/
theorem rooted_isolation (program more : Program Config) (builder : MadsBuilder Config)
    (root : RustType) (moduleGraph : ModuleGraph) (result : BuilderAnalysis Config)
    (hroot : builder.root = some root)
    (hgraph : buildModuleGraph root.typeId program.modules = .ok moduleGraph)
    (hok : MadsBuilder.analyzeBuilder program.environment builder = .ok result)
    (hvalid : result.analysis.isValid)
    (hadds : Relation.ReflTransGen (AddsOutside moduleGraph) program more) :
    MadsBuilder.analyzeBuilder more.environment builder = .ok result ∧
      more.httpScope result.analysis = program.httpScope result.analysis := by
  have hrooted : ∀ p : Program Config, p.modules = program.modules →
      MadsBuilder.analyzeBuilder p.environment builder =
        MadsBuilder.analyzeRooted p.environment builder moduleGraph := by
    intro p hp
    have hsame : buildModuleGraph root.typeId (Catalog.modules p.environment.inventory) =
        .ok moduleGraph := by
      rw [← hgraph, ← hp]
      rfl
    simp only [MadsBuilder.analyzeBuilder, hroot, hsame]
  rw [hrooted program rfl] at hok
  have hall : more.modules = program.modules ∧
      MadsBuilder.analyzeRooted more.environment builder moduleGraph = .ok result ∧
      more.httpScope result.analysis = program.httpScope result.analysis := by
    induction hadds with
    | refl => exact ⟨rfl, hok, rfl⟩
    | tail _ hstep ih =>
      obtain ⟨hmodules, hanalyze, hscope⟩ := ih
      obtain ⟨hmodules', hanalyze', hscope'⟩ := hstep.same hanalyze hvalid
      exact ⟨hmodules'.trans hmodules, hanalyze', hscope'.trans hscope⟩
  obtain ⟨hmodules, hanalyze, hscope⟩ := hall
  rw [hrooted more hmodules]
  exact ⟨hanalyze, hscope⟩

/-- A public provider of an unreachable module, for a type that the root uses itself. -/
def strayProvider : ProviderDescriptor where
  kind := .service
  typeName := "UserService"
  typeId := ⟨2⟩
  namespace_ := some "admin"
  dependencies := [⟨"Missing", ⟨99⟩⟩]
  visibility := .public_
  location := ⟨"admin.rs", 5, 1⟩

def sampleProgram : Program Unit where
  environment := MadsBuilder.sampleRooted
  controllers := [
    { typeName := "UserController", typeId := ⟨3⟩, namespace_ := some "app::users"
      contracts := [⟨"UserRoutes", [
        { method := .get, pathPrefix := "/users", path := "/", fullPath := "/users"
          handler := "list", location := ⟨"users.rs", 9, 1⟩ }]⟩] }]
  guards := []

theorem rooted_isolation_sample :
    ∃ result, result.analysis.isValid ∧ MadsBuilder.analyzeBuilder
        (MadsBuilder.withProviders MadsBuilder.sampleRooted
          (strayProvider :: MadsBuilder.sampleProviders)) MadsBuilder.sampleBuilder = .ok result := by
  obtain ⟨result, hok, -⟩ :=
    MadsBuilder.analyzeBuilder_cases MadsBuilder.sampleRooted MadsBuilder.sampleBuilder
  have hvalid : (MadsBuilder.analyzeBuilder MadsBuilder.sampleRooted MadsBuilder.sampleBuilder).map
      (fun result => result.analysis.isValid) = .ok true := by decide +kernel
  rw [hok] at hvalid
  have hisValid : result.analysis.isValid = true := Except.ok.inj hvalid
  have hout : Scope.Outside MadsBuilder.sampleGraph sampleProgram.modules
      strayProvider.namespace_ := by
    refine ⟨MadsBuilder.sampleAdmin, ?_, ?_⟩ <;> decide +kernel
  have hsame := rooted_isolation sampleProgram _ MadsBuilder.sampleBuilder ⟨⟨10⟩, "App"⟩
    MadsBuilder.sampleGraph result rfl (by decide +kernel) hok hisValid
    (.single (.provider hout (.here _)))
  exact ⟨result, hisValid, hsame.1⟩

end Program

end Mads
