import Mads.Core.Descriptor

/-!
# Module graphs and their rooted traversal
-/

namespace Mads

/-- A reachable module in a rooted application graph. -/
structure ModuleNode where
  typeId : TypeId
  typeName : String
  namespace_ : String
  location : SourceLocation
  deriving DecidableEq, Repr

/-- An authored import between two reachable modules, as positions in the list of modules. -/
structure ModuleImportEdge where
  importer : ℕ
  imported : ℕ
  deriving DecidableEq, Repr

structure ProviderOwnership where
  providerTypeName : String
  moduleTypeName : Option String
  deriving DecidableEq, Repr

/-- The module scope kept for a rooted application. Root and import positions are in range. -/
structure ModuleGraph where
  root : ℕ
  modules : List ModuleNode
  imports : List ModuleImportEdge
  providerOwnership : List ProviderOwnership := []
  root_lt : root < modules.length
  imports_lt : ∀ e ∈ imports, e.importer < modules.length ∧ e.imported < modules.length
  deriving DecidableEq

namespace ModuleGraph

/-- Whether the node at a position of the graph has the given type. -/
def nodeHasType (graph : ModuleGraph) (index : ℕ) (type : TypeId) : Bool :=
  graph.modules[index]?.any (fun node => node.typeId = type)

def directlyImports (graph : ModuleGraph) (importer imported : TypeId) : Bool :=
  graph.imports.any (fun edge =>
    graph.nodeHasType edge.importer importer && graph.nodeHasType edge.imported imported)

def isReachable (graph : ModuleGraph) (module_ : TypeId) : Bool :=
  graph.modules.any (fun candidate => candidate.typeId = module_)

def setProviderOwnership (graph : ModuleGraph) (ownership : List ProviderOwnership) :
    ModuleGraph :=
  { graph with providerOwnership := ownership }

@[simp] theorem setProviderOwnership_modules (graph : ModuleGraph)
    (ownership : List ProviderOwnership) :
    (graph.setProviderOwnership ownership).modules = graph.modules := rfl

theorem isReachable_iff {graph : ModuleGraph} {module_ : TypeId} :
    graph.isReachable module_ ↔ ∃ node ∈ graph.modules, node.typeId = module_ := by
  simp [isReachable]

/-- An imported module is one of the graph's own nodes. -/
theorem isReachable_of_directlyImports {graph : ModuleGraph} {importer imported : TypeId}
    (h : graph.directlyImports importer imported = true) : graph.isReachable imported := by
  simp only [directlyImports, List.any_eq_true, Bool.and_eq_true, nodeHasType,
    Option.any_eq_true, decide_eq_true_eq] at h
  obtain ⟨edge, _, _, node, hnode, htype⟩ := h
  exact isReachable_iff.mpr ⟨node, List.mem_of_getElem? hnode, htype⟩

end ModuleGraph

/-! ### Traversal -/

/-- The traversal's own data: the modules entered so far, the active path, and the graph. -/
structure BuildState where
  visited : List TypeId := []
  stack : List TypeId := []
  modules : List ModuleNode := []
  imports : List ModuleImportEdge := []
  deriving DecidableEq

def moduleNamespaceError (descriptor : ModuleDescriptor) (conflicts : List ModuleDescriptor) :
    Run Error Unit := do
  let name ← Run.expect descriptor.namespace_
    "namespace collision candidates have namespace metadata"
  let primary : Diagnostic :=
    { code := MADS008
      title := "ambiguous module namespace"
      message := "multiple module declarations claim the same Rust namespace"
      subject := some name
      location := some descriptor.location }
  Run.fail (Error.fromDiagnostics primary (conflicts.map fun conflict =>
    { code := MADS008
      title := "conflicting module namespace declaration"
      message := "this module declaration claims the same namespace"
      subject := some name
      location := some conflict.location }))

/-- Rejects a catalog in which two declarations claim one namespace. -/
def validateModuleCatalog (modules : List ModuleDescriptor) : Run Error Unit :=
  modules.zipIdx.forM fun (descriptor, index) =>
    match descriptor.namespace_ with
    | none => pure ()
    | some name =>
      let conflicts := (modules.zipIdx.filter (fun (candidate, candidateIndex) =>
        candidateIndex ≠ index ∧ candidate.namespace_ = some name)).map Prod.fst
      if conflicts.isEmpty then pure () else moduleNamespaceError descriptor conflicts

/-- The single declaration of a module type. -/
def requireDescriptor (descriptors : List ModuleDescriptor) (typeId : TypeId) :
    Run Error ModuleDescriptor :=
  match sortBy moduleOrder (descriptors.filter (fun d => d.typeId = typeId)) with
  | [] => Run.fail (Error.fromDiagnostics
      { code := MADS008
        title := "missing module metadata"
        message := "a rooted module or direct import has no static module declaration"
        subject := some "requested module" } [])
  | [descriptor] => pure descriptor
  | first :: rest => Run.fail (Error.fromDiagnostics
      { code := MADS008
        title := "ambiguous module metadata"
        message := "a module type has more than one static declaration"
        subject := some first.typeName
        location := some first.location }
      (rest.map fun descriptor =>
        { code := MADS008
          title := "conflicting module declaration"
          message := "this declaration describes the same module type"
          subject := some descriptor.typeName
          location := some descriptor.location }))

def missingNamespaceError (descriptor : ModuleDescriptor) : Error :=
  Error.fromDiagnostics
    { code := MADS008
      title := "missing module namespace"
      message := "rooted module graphs require namespace metadata"
      subject := some descriptor.typeName
      location := some descriptor.location } []

def validateUniqueNamespace (descriptors : List ModuleDescriptor) (descriptor : ModuleDescriptor) :
    Run Error Unit :=
  match descriptor.namespace_ with
  | none => Run.fail (missingNamespaceError descriptor)
  | some name =>
    let conflicts := descriptors.filter (fun candidate =>
      candidate.typeId ≠ descriptor.typeId ∧ candidate.namespace_ = some name)
    if conflicts.isEmpty then pure () else moduleNamespaceError descriptor conflicts

def validateDuplicateDirectImports (descriptor : ModuleDescriptor) : Run Error Unit := do
  let _ ← descriptor.imports.foldlM (fun (seen : List TypeId) import_ =>
    if import_.typeId ∈ seen then
      Run.fail (Error.fromDiagnostics
        { code := MADS008
          title := "duplicate direct module import"
          message := "module `" ++ import_.typeName ++
            "` appears more than once in the direct import list"
          subject := some descriptor.typeName
          location := some descriptor.location } [])
    else pure (seen ++ [import_.typeId])) []
  pure ()

namespace BuildState

def nodeIndex (state : BuildState) (typeId : TypeId) : Option ℕ :=
  state.modules.findIdx? (fun node => node.typeId = typeId)

/-- The position of a module's node, which is appended when the module has none yet. -/
def ensureNode (state : BuildState) (descriptor : ModuleDescriptor) :
    Run Error (BuildState × ℕ) :=
  match state.nodeIndex descriptor.typeId with
  | some index => pure (state, index)
  | none =>
    match descriptor.namespace_ with
    | none => Run.fail (missingNamespaceError descriptor)
    | some name => pure
        ({ state with modules := state.modules ++
            [⟨descriptor.typeId, descriptor.typeName, name, descriptor.location⟩] },
          state.modules.length)

def pushNode (state : BuildState) (descriptor : ModuleDescriptor) :
    Run Error (BuildState × ℕ) :=
  state.ensureNode descriptor

def pushEdge (state : BuildState) (importer imported : ℕ) : BuildState :=
  { state with imports := state.imports ++ [⟨importer, imported⟩] }

end BuildState

def descriptorForStack (descriptors : List ModuleDescriptor) (typeId : TypeId) :
    Option ModuleDescriptor :=
  descriptors.find? (fun d => d.typeId = typeId)

/-- Reports the active path from a module back to itself. -/
def moduleCycleError (descriptors : List ModuleDescriptor) (cycle : List TypeId)
    (repeated : TypeId) : Run Error BuildState := do
  let chain := cycle.filterMap (descriptorForStack descriptors) ++
    (descriptorForStack descriptors repeated).toList
  let subject := " -> ".intercalate (chain.map (·.typeName))
  let primary ← Run.expect chain.head? "cycle members were already resolved during traversal"
  Run.fail (Error.fromDiagnostics
    { code := MADS008
      title := "module import cycle"
      message := "reachable module imports form a cycle"
      subject := some subject
      location := some primary.location }
    (((chain.drop 1).take (chain.length - 2)).map fun descriptor =>
      { code := MADS008
        title := "module in import cycle"
        message := "this module participates in the import cycle"
        subject := some subject
        location := some descriptor.location }))

/-- The loop body of `visit`: records one import of the module at position `node` and enters the
imported module. -/
def followImport (descriptors : List ModuleDescriptor)
    (enter : TypeId → BuildState → Run Error BuildState) (node : ℕ) (state : BuildState)
    (import_ : ModuleImportDescriptor) : Run Error BuildState := do
  let imported ← requireDescriptor descriptors import_.typeId
  let (state, importedNode) ← state.ensureNode imported
  enter import_.typeId (state.pushEdge node importedNode)

/-- Depth-first visit of one module. The fuel bounds the depth of the recursion. -/
def visit (descriptors : List ModuleDescriptor) : ℕ → TypeId → BuildState → Run Error BuildState
  | 0, _, _ => .error .diverge
  | fuel + 1, module_, state =>
    match state.stack.findIdx? (fun id => id = module_) with
    | some cycleStart => moduleCycleError descriptors (state.stack.drop cycleStart) module_
    | none =>
      if module_ ∈ state.visited then pure state
      else do
        let state := { state with visited := state.visited ++ [module_] }
        let descriptor ← requireDescriptor descriptors module_
        validateUniqueNamespace descriptors descriptor
        let (state, node) ← state.pushNode descriptor
        let state := { state with stack := state.stack ++ [module_] }
        validateDuplicateDirectImports descriptor
        let state ← descriptor.imports.foldlM
          (followImport descriptors (visit descriptors fuel) node) state
        pure { state with stack := state.stack.dropLast }

end Mads
