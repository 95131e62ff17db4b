import Mads.Core.ModuleGraph
import Mads.Library.DepthFirst
import Mathlib.Data.List.Perm.Subperm

/-!
# Rooted traversal computes the reachable module graph
-/

namespace Mads

open DepthFirst Relation

/-! ### What the checks decide -/

section Checks

variable (descriptors : List ModuleDescriptor)

/-- The imported types that a module type's declarations list, in authored order. -/
def importsOf (t : TypeId) : List TypeId :=
  (descriptors.filter (fun d => d.typeId = t)).flatMap (fun d => d.imports.map (·.typeId))

/-- `name` is claimed by no declaration of another module type. -/
def OwnsNamespace (d : ModuleDescriptor) : Prop :=
  ∃ name, d.namespace_ = some name ∧
    ∀ c ∈ descriptors, c.namespace_ = some name → c.typeId = d.typeId

/-- `d` is the one declaration of the module type `t`, with a namespace of its own and no import
listed twice. -/
structure Declares (t : TypeId) (d : ModuleDescriptor) : Prop where
  single : descriptors.filter (fun c => c.typeId = t) = [d]
  namespace_ : OwnsNamespace descriptors d
  imports : (d.imports.map (·.typeId)).Nodup

/-- A module type that passes every check on its own. -/
def ValidModule (t : TypeId) : Prop := ∃ d, Declares descriptors t d

variable {descriptors}

theorem mem_of_single {t : TypeId} {d : ModuleDescriptor}
    (h : descriptors.filter (fun c => c.typeId = t) = [d]) : d ∈ descriptors ∧ d.typeId = t := by
  have hmem : d ∈ descriptors.filter (fun c => c.typeId = t) := by simp [h]
  simpa using hmem

theorem importsOf_single {t : TypeId} {d : ModuleDescriptor}
    (h : descriptors.filter (fun c => c.typeId = t) = [d]) :
    importsOf descriptors t = d.imports.map (·.typeId) := by
  simp [importsOf, h]

theorem requireDescriptor_decides (descriptors : List ModuleDescriptor) (t : TypeId) :
    Run.Decides (requireDescriptor descriptors t)
      (fun d => descriptors.filter (fun c => c.typeId = t) = [d]) := by
  have hperm := sortBy_perm moduleOrder (descriptors.filter (fun c => c.typeId = t))
  have hlength := hperm.length_eq
  unfold requireDescriptor
  split
  · next hsorted =>
    refine Run.Decides.fail fun d hd => ?_
    rw [hsorted, hd] at hlength
    simp at hlength
  · next d hsorted =>
    rw [hsorted] at hperm
    exact List.perm_singleton.mp hperm.symm
  · next first rest hne hsorted =>
    refine Run.Decides.fail fun d hd => ?_
    rw [hsorted, hd] at hlength
    have hrest : rest = [] := by simpa using hlength
    exact hne hrest

theorem moduleNamespaceError_eq_err {d : ModuleDescriptor} (conflicts : List ModuleDescriptor)
    (h : d.namespace_.isSome) : ∃ e, moduleNamespaceError d conflicts = .error (.err e) := by
  obtain ⟨name, hname⟩ := Option.isSome_iff_exists.mp h
  exact ⟨_, by simp only [moduleNamespaceError, hname, Run.expect_some, Run.ok_bind]; rfl⟩

theorem validateUniqueNamespace_decides (descriptors : List ModuleDescriptor)
    (d : ModuleDescriptor) :
    Run.Decides (validateUniqueNamespace descriptors d)
      (fun _ => OwnsNamespace descriptors d) := by
  unfold validateUniqueNamespace
  dsimp only
  split
  · next hnone =>
    refine Run.Decides.fail fun _ => ?_
    simp [OwnsNamespace, hnone]
  · next name hname =>
    split
    · next hempty =>
      refine ⟨name, hname, fun c hc hcname => ?_⟩
      simp only [List.isEmpty_iff, List.filter_eq_nil_iff, decide_eq_true_eq, not_and] at hempty
      exact not_not.mp fun hne => hempty c hc hne hcname
    · next hconflict =>
      obtain ⟨e, he⟩ := moduleNamespaceError_eq_err (descriptors.filter
        (fun candidate => candidate.typeId ≠ d.typeId ∧ candidate.namespace_ = some name))
        (by rw [hname]; rfl : d.namespace_.isSome)
      rw [he]
      rintro - ⟨name', hname', hunique⟩
      obtain rfl : name = name' := by simpa [hname] using hname'
      refine hconflict ?_
      simp only [List.isEmpty_iff, List.filter_eq_nil_iff, decide_eq_true_eq, not_and]
      exact fun c hc hne hcname => hne (hunique c hc hcname)

theorem validateDuplicateDirectImports_decides (d : ModuleDescriptor) :
    Run.Decides (validateDuplicateDirectImports d)
      (fun _ => (d.imports.map (·.typeId)).Nodup) := by
  unfold validateDuplicateDirectImports
  -- after a prefix of the imports, `seen` lists its types
  suffices h : ∀ (rest : List ModuleImportDescriptor) (seen : List TypeId), seen.Nodup →
      Run.Decides (rest.foldlM (fun (seen : List TypeId) import_ =>
        if import_.typeId ∈ seen then
          Run.fail (Error.fromDiagnostics
            { code := MADS008
              title := "duplicate direct module import"
              message := "module `" ++ import_.typeName ++
                "` appears more than once in the direct import list"
              subject := some d.typeName
              location := some d.location } [])
        else pure (seen ++ [import_.typeId])) seen)
        (fun _ => (seen ++ rest.map (·.typeId)).Nodup) by
    rcases (h d.imports [] List.nodup_nil).cases with ⟨seen, hok, hnodup⟩ | ⟨e, herr, hdup⟩
    · rw [hok]
      exact (by simpa using hnodup : (d.imports.map (·.typeId)).Nodup)
    · rw [herr]
      intro _ hnodup
      exact hdup [] (by simpa using hnodup)
  intro rest
  induction rest with
  | nil =>
    intro seen hseen
    simpa [Run.Decides] using hseen
  | cons import_ rest ih =>
    intro seen hseen
    rw [List.foldlM_cons]
    split
    · next hmem =>
      refine Run.Decides.fail fun _ hnodup => ?_
      exact List.disjoint_of_nodup_append hnodup hmem (by simp)
    · next hnotMem =>
      have hnext : (seen ++ [import_.typeId]).Nodup := by
        refine List.nodup_append.mpr ⟨hseen, List.nodup_singleton _, ?_⟩
        rintro a ha b hb rfl
        exact hnotMem (List.mem_singleton.mp hb ▸ ha)
      simpa using ih (seen ++ [import_.typeId]) hnext

end Checks

/-! ### Nodes and positions are well formed -/

/-- The node records a module declaration. -/
def ModuleNode.Records (node : ModuleNode) (d : ModuleDescriptor) : Prop :=
  node.typeId = d.typeId ∧ node.typeName = d.typeName ∧ some node.namespace_ = d.namespace_ ∧
    node.location = d.location

/-- Both ends of every edge are positions of known nodes, and every node records a declaration. -/
structure BuildState.WellFormed (descriptors : List ModuleDescriptor) (state : BuildState) :
    Prop where
  inRange : ∀ e ∈ state.imports,
    e.importer < state.modules.length ∧ e.imported < state.modules.length
  recorded : ∀ node ∈ state.modules, ∃ d ∈ descriptors, node.Records d

/-- What a traversal step never undoes. -/
structure BuildState.Extends (descriptors : List ModuleDescriptor) (before after : BuildState) :
    Prop where
  modules : before.modules.length ≤ after.modules.length
  wellFormed : before.WellFormed descriptors → after.WellFormed descriptors

section Extends

variable {descriptors : List ModuleDescriptor}

namespace BuildState

theorem Extends.rfl {state : BuildState} : state.Extends descriptors state := ⟨le_rfl, id⟩

theorem Extends.trans {a b c : BuildState} (h : a.Extends descriptors b)
    (h' : b.Extends descriptors c) : a.Extends descriptors c :=
  ⟨h.modules.trans h'.modules, h'.wellFormed ∘ h.wellFormed⟩

theorem ensureNode_extends {state after : BuildState} {d : ModuleDescriptor} {index : ℕ}
    (hd : d ∈ descriptors) (h : state.ensureNode d = .ok (after, index)) :
    state.Extends descriptors after ∧ index < after.modules.length := by
  unfold ensureNode at h
  split at h
  · next i hi =>
    obtain ⟨rfl, rfl⟩ : state = after ∧ i = index := by simpa using h
    exact ⟨.rfl, (List.findIdx?_eq_some_iff_getElem.mp hi).1⟩
  · split at h
    · simp [Run.fail] at h
    · next name hname =>
      obtain ⟨rfl, rfl⟩ : _ = after ∧ state.modules.length = index := by simpa using h
      refine ⟨⟨by simp, fun hw => ⟨fun e he => ?_, fun node hnode => ?_⟩⟩, by simp⟩
      · have := hw.inRange e he
        simp only [List.length_append, List.length_singleton]
        omega
      · obtain hnode | hnode := List.mem_append.mp hnode
        · exact hw.recorded node hnode
        · obtain rfl := List.mem_singleton.mp hnode
          exact ⟨d, hd, by simp [ModuleNode.Records, hname]⟩

theorem pushEdge_extends {state : BuildState} {importer imported : ℕ}
    (h : importer < state.modules.length) (h' : imported < state.modules.length) :
    state.Extends descriptors (state.pushEdge importer imported) := by
  refine ⟨le_rfl, fun hw => ⟨fun e he => ?_, hw.recorded⟩⟩
  obtain he | he := List.mem_append.mp he
  · exact hw.inRange e he
  · obtain rfl := List.mem_singleton.mp he
    exact ⟨h, h'⟩

end BuildState

theorem mem_of_requireDescriptor {t : TypeId} {d : ModuleDescriptor}
    (h : requireDescriptor descriptors t = .ok d) : d ∈ descriptors ∧ d.typeId = t := by
  have hspec := requireDescriptor_decides descriptors t
  rw [h] at hspec
  exact mem_of_single hspec

theorem visit_extends {fuel : ℕ} {module_ : TypeId} {state after : BuildState}
    (h : visit descriptors fuel module_ state = .ok after) :
    state.Extends descriptors after := by
  induction fuel generalizing module_ state after with
  | zero => simp [visit] at h
  | succ fuel ih =>
    rw [visit] at h
    split at h
    · -- a cycle is never reported by a value
      next i _ =>
      obtain ⟨primary, _, hfail⟩ := Run.bind_eq_ok.mp h
      simp [Run.fail] at hfail
    · split at h
      · obtain rfl : state = after := by simpa using h
        exact .rfl
      · obtain ⟨d, hrequire, h⟩ := Run.bind_eq_ok.mp h
        obtain ⟨_, _, h⟩ := Run.bind_eq_ok.mp h
        obtain ⟨⟨pushed, node⟩, hpush, h⟩ := Run.bind_eq_ok.mp h
        obtain ⟨_, _, h⟩ := Run.bind_eq_ok.mp h
        obtain ⟨looped, hloop, h⟩ := Run.bind_eq_ok.mp h
        obtain rfl : _ = after := by simpa using h
        have hd := mem_of_requireDescriptor hrequire
        obtain ⟨hpushed, hnode⟩ := BuildState.ensureNode_extends hd.1 hpush
        have hstep : pushed.Extends descriptors looped := by
          have hstack : pushed.Extends descriptors
              { pushed with stack := pushed.stack ++ [module_] } :=
            ⟨le_rfl, fun hw => ⟨hw.inRange, hw.recorded⟩⟩
          refine Run.foldlM_invariant
            (fun b (hb : pushed.Extends descriptors b) import_ _ b' hb' => ?_) hstack hloop
          obtain ⟨imported, himported, hb'⟩ := Run.bind_eq_ok.mp hb'
          obtain ⟨⟨ensured, importedNode⟩, hensure, hvisit⟩ := Run.bind_eq_ok.mp hb'
          obtain ⟨hensured, hindex⟩ :=
            BuildState.ensureNode_extends (mem_of_requireDescriptor himported).1 hensure
          have hb₁ := hb.trans hensured
          have hedge : ensured.Extends descriptors (ensured.pushEdge node importedNode) :=
            BuildState.pushEdge_extends (hnode.trans_le hb₁.modules) hindex
          exact (hb₁.trans hedge).trans (ih hvisit)
        refine ⟨hpushed.modules.trans hstep.modules, fun hw => ?_⟩
        have hlooped := hstep.wellFormed (hpushed.wellFormed ⟨hw.inRange, hw.recorded⟩)
        exact ⟨hlooped.inRange, hlooped.recorded⟩

end Extends

theorem BuildState.WellFormed.empty (descriptors : List ModuleDescriptor) :
    ({} : BuildState).WellFormed descriptors :=
  ⟨fun _ he => absurd he List.not_mem_nil, fun _ hn => absurd hn List.not_mem_nil⟩

/-- Builds the graph of the modules that a root reaches through imports. -/
def buildModuleGraph (rootTypeId : TypeId) (modules : List ModuleDescriptor) :
    Run Error ModuleGraph :=
  match hvisit : visit modules (modules.length + 1) rootTypeId {} with
  | .error halt => .error halt
  | .ok state =>
    match hroot : state.nodeIndex rootTypeId with
    | none => .error (.panic "successful traversal records the root module")
    | some root => .ok
        { root
          modules := state.modules
          imports := state.imports
          root_lt := (List.findIdx?_eq_some_iff_getElem.mp hroot).1
          imports_lt := ((visit_extends hvisit).wellFormed (.empty modules)).inRange }

/-! ### The traversal invariant -/

/-- The types of the nodes, in the order of their positions. -/
def BuildState.types (state : BuildState) : List TypeId := state.modules.map (·.typeId)

/-- The edge between positions is the edge between module types. -/
def Labels (types : List TypeId) (e : ModuleImportEdge) (p : TypeId × TypeId) : Prop :=
  types[e.importer]? = some p.1 ∧ types[e.imported]? = some p.2

theorem Labels.mono {types more : List TypeId} {e : ModuleImportEdge} {p : TypeId × TypeId}
    (h : Labels types e p) : Labels (types ++ more) e p :=
  ⟨List.getElem?_append_left (List.getElem?_eq_some_iff.mp h.1).1 ▸ h.1,
    List.getElem?_append_left (List.getElem?_eq_some_iff.mp h.2).1 ▸ h.2⟩

section Spec

variable (descriptors : List ModuleDescriptor)

/-- The import relation between module types. -/
abbrev Imports : TypeId → TypeId → Prop := Edge (importsOf descriptors)

/-- Every module entered is valid, and no chain of imports from a module that was left again goes
on for ever. -/
structure BuildState.Invariant (state : BuildState) : Prop where
  nodup : state.visited.Nodup
  active : state.stack ⊆ state.visited
  valid : ∀ t ∈ state.visited, ValidModule descriptors t
  finished : ∀ t ∈ state.visited, t ∉ state.stack → Acc (fun w v => Imports descriptors v w) t

/-- Between two states the traversal entered `order` and looked at `edges`. -/
structure BuildState.Explored (before after : BuildState) (order : List TypeId)
    (edges : List (TypeId × TypeId)) : Prop where
  visited : after.visited = before.visited ++ order
  stack : after.stack = before.stack
  types : after.types = after.visited
  imports : ∃ fresh, after.imports = before.imports ++ fresh ∧
    List.Forall₂ (Labels after.types) fresh edges
  invariant : after.Invariant descriptors

/-- Something reachable from `m` fails a check, lies on a cycle, or is on the active path. -/
def Bad (stack : List TypeId) (m : TypeId) : Prop :=
  ∃ t, ReflTransGen (Imports descriptors) m t ∧
    (¬ ValidModule descriptors t ∨ TransGen (Imports descriptors) t t ∨ t ∈ stack)

variable {descriptors}

theorem Bad.of_invalid {stack : List TypeId} {m : TypeId} (h : ¬ ValidModule descriptors m) :
    Bad descriptors stack m := ⟨m, .refl, .inl h⟩

/-- A fault found below an import is a fault of the importing module: meeting the importer itself
again closes a cycle. -/
theorem Bad.of_import {stack : List TypeId} {m w : TypeId} (hw : w ∈ importsOf descriptors m)
    (h : Bad descriptors (stack ++ [m]) w) : Bad descriptors stack m := by
  have hedge : Imports descriptors m w := hw
  obtain ⟨t, hreach, hfault⟩ := h
  obtain hinvalid | hcycle | hactive := hfault
  · exact ⟨t, .head hedge hreach, .inl hinvalid⟩
  · exact ⟨t, .head hedge hreach, .inr (.inl hcycle)⟩
  · obtain hstack | hself := List.mem_append.mp hactive
    · exact ⟨t, .head hedge hreach, .inr (.inr hstack)⟩
    · obtain rfl := List.mem_singleton.mp hself
      exact ⟨t, .refl, .inr (.inl (.head' hedge hreach))⟩

theorem BuildState.Invariant.visited_length_le {state : BuildState}
    (h : state.Invariant descriptors) : state.visited.length ≤ descriptors.length := by
  have hsub : state.visited ⊆ descriptors.map (·.typeId) := fun t ht => by
    obtain ⟨d, hd⟩ := h.valid t ht
    obtain ⟨hmem, rfl⟩ := mem_of_single hd.single
    exact List.mem_map_of_mem hmem
  simpa using (h.nodup.subperm hsub).length_le

namespace BuildState

/-- `ensureNode` finds the node of a module or appends one; only a missing namespace stops it. -/
theorem ensureNode_cases (state : BuildState) (d : ModuleDescriptor) :
    (∃ after index, state.ensureNode d = .ok (after, index) ∧
      after.visited = state.visited ∧ after.stack = state.stack ∧
      after.imports = state.imports ∧ after.types[index]? = some d.typeId ∧
      after.types =
        if d.typeId ∈ state.types then state.types else state.types ++ [d.typeId]) ∨
    (d.namespace_ = none ∧ ∃ e, state.ensureNode d = .error (.err e)) := by
  cases hindex : state.nodeIndex d.typeId with
  | some index =>
    obtain ⟨hlt, htype, -⟩ := List.findIdx?_eq_some_iff_getElem.mp hindex
    have hget : state.types[index]? = some d.typeId := by
      simpa [types, List.getElem?_eq_getElem hlt] using htype
    have hmem : d.typeId ∈ state.types := List.mem_of_getElem? hget
    exact .inl ⟨state, index, by simp [ensureNode, hindex], rfl, rfl, rfl, hget, by simp [hmem]⟩
  | none =>
    have hnotMem : d.typeId ∉ state.types := by
      intro hmem
      obtain ⟨node, hnode, htype⟩ := List.mem_map.mp hmem
      simpa [htype] using List.findIdx?_eq_none_iff.mp hindex node hnode
    cases hname : d.namespace_ with
    | none => exact .inr ⟨rfl, _, by simp only [ensureNode, hindex, hname]; rfl⟩
    | some name =>
      refine .inl ⟨{ state with modules := state.modules ++
          [⟨d.typeId, d.typeName, name, d.location⟩] }, state.modules.length,
        by simp only [ensureNode, hindex, hname]; rfl, rfl, rfl, rfl, ?_, ?_⟩
      · simp [types]
      · simp only [if_neg hnotMem]
        simp [types]

end BuildState

/-! ### One visit -/

/-- The nodes at the entry of `visit`: those of the modules entered so far, and possibly the node
of the module to visit, which its importer appended. -/
def EntryTypes (state : BuildState) (m : TypeId) : Prop :=
  state.types = state.visited ∨ (m ∉ state.visited ∧ state.types = state.visited ++ [m])

variable (descriptors)

/-- What a visit of `m` does: nothing, or it enters `m` and then searches below it. -/
inductive Entered (visited : List TypeId) (m : TypeId) :
    List TypeId → List (TypeId × TypeId) → Prop
  | again (h : m ∈ visited) : Entered visited m [] []
  | fresh {below edges} (h : m ∉ visited)
      (search : Traversal (importsOf descriptors) (visited ++ [m]) m (importsOf descriptors m)
        below edges) : Entered visited m (m :: below) edges

/-- The outcome of a visit: it explores, or it reports an error because something is bad. -/
def VisitSpec (enter : TypeId → BuildState → Run Error BuildState) (m : TypeId)
    (state : BuildState) : Prop :=
  (∃ after order edges, enter m state = .ok after ∧ m ∉ state.stack ∧
      state.Explored descriptors after order edges ∧
      Entered descriptors state.visited m order edges) ∨
    ∃ e, enter m state = .error (.err e) ∧ Bad descriptors state.stack m

variable {descriptors}

namespace BuildState

/-- Exploring on from where an exploration ended. -/
theorem Explored.trans {before mid after : BuildState} {order₁ order₂ : List TypeId}
    {edges₁ edges₂ : List (TypeId × TypeId)} (h : before.Explored descriptors mid order₁ edges₁)
    (h' : mid.Explored descriptors after order₂ edges₂) :
    before.Explored descriptors after (order₁ ++ order₂) (edges₁ ++ edges₂) := by
  obtain ⟨fresh₁, himports₁, hlabels₁⟩ := h.imports
  obtain ⟨fresh₂, himports₂, hlabels₂⟩ := h'.imports
  refine ⟨by rw [h'.visited, h.visited, List.append_assoc], h'.stack.trans h.stack, h'.types,
    ⟨fresh₁ ++ fresh₂, by rw [himports₂, himports₁, List.append_assoc], ?_⟩, h'.invariant⟩
  have htypes : after.types = mid.types ++ order₂ := by
    rw [h'.types, h'.visited, h.types]
  exact List.rel_append (hlabels₁.imp fun _ _ hlabel => htypes ▸ hlabel.mono) hlabels₂

/-- Exploring from a state that was given one edge explores that edge first. -/
theorem Explored.of_pushEdge {before ensured after : BuildState} {node index : ℕ}
    {label : TypeId × TypeId} {order : List TypeId} {edges : List (TypeId × TypeId)}
    (hvisited : ensured.visited = before.visited) (hstack : ensured.stack = before.stack)
    (himports : ensured.imports = before.imports)
    (h : (ensured.pushEdge node index).Explored descriptors after order edges)
    (hlabel : Labels after.types ⟨node, index⟩ label) :
    before.Explored descriptors after order (label :: edges) := by
  obtain ⟨fresh, hfresh, hlabels⟩ := h.imports
  refine ⟨by rw [← hvisited]; exact h.visited, h.stack.trans hstack, h.types,
    ⟨⟨node, index⟩ :: fresh, ?_, .cons hlabel hlabels⟩, h.invariant⟩
  rw [hfresh, ← himports]
  simp [pushEdge]

end BuildState

/-- A module that is entered is in the search order, so the nodes that its importer left are a
prefix of the nodes after the visit. -/
theorem Entered.types_prefix {visited types order : List TypeId} {m : TypeId}
    {edges : List (TypeId × TypeId)} (h : Entered descriptors visited m order edges)
    (htypes : types = if m ∈ visited then visited else visited ++ [m]) :
    types <+: visited ++ order := by
  subst htypes
  cases h with
  | again h =>
    rw [if_pos h]
    exact List.prefix_append _ _
  | @fresh below _ h _ =>
    rw [if_neg h]
    exact ⟨below, by simp⟩

theorem followImport_spec {enter : TypeId → BuildState → Run Error BuildState} {m : TypeId}
    {node : ℕ} {state : BuildState} (import_ : ModuleImportDescriptor)
    (hinv : state.Invariant descriptors) (htypes : state.types = state.visited)
    (hnode : state.visited[node]? = some m)
    (henter : ∀ next : BuildState, next.Invariant descriptors →
      EntryTypes next import_.typeId → next.visited = state.visited →
      VisitSpec descriptors enter import_.typeId next) :
    (∃ after order edges, followImport descriptors enter node state import_ = .ok after ∧
        import_.typeId ∉ state.stack ∧
        state.Explored descriptors after order ((m, import_.typeId) :: edges) ∧
        Entered descriptors state.visited import_.typeId order edges) ∨
      ∃ e, followImport descriptors enter node state import_ = .error (.err e) ∧
        Bad descriptors state.stack import_.typeId := by
  obtain ⟨d, hrequire, hsingle⟩ | ⟨e, hrequire, hnone⟩ :=
    (requireDescriptor_decides descriptors import_.typeId).cases
  swap
  · exact .inr ⟨e, by simp [followImport, hrequire],
      .of_invalid fun ⟨d, hd⟩ => hnone d hd.single⟩
  obtain ⟨-, hd⟩ := mem_of_single hsingle
  obtain ⟨ensured, index, hensure, hvisited, hstack, himports, hindex, hensured⟩ |
    ⟨hname, e, hensure⟩ := state.ensureNode_cases d
  swap
  · refine .inr ⟨e, by simp [followImport, hrequire, hensure], .of_invalid ?_⟩
    rintro ⟨d', hd'⟩
    obtain rfl : d = d' := by simpa [hsingle] using hd'.single
    exact absurd hd'.namespace_ (by simp [OwnsNamespace, hname])
  rw [hd] at hindex hensured
  -- the state in which the imported module is entered
  have hentry : EntryTypes (ensured.pushEdge node index) import_.typeId := by
    by_cases hmem : import_.typeId ∈ state.visited
    · exact .inl (by rw [htypes, if_pos hmem] at hensured; exact hensured.trans hvisited.symm)
    · rw [htypes, if_neg hmem] at hensured
      exact .inr ⟨by rw [← hvisited] at hmem; exact hmem,
        hensured.trans (by rw [← hvisited]; rfl)⟩
  have hnext : (ensured.pushEdge node index).Invariant descriptors := by
    refine ⟨?_, ?_, ?_, ?_⟩ <;> simp only [BuildState.pushEdge, hvisited, hstack]
    exacts [hinv.nodup, hinv.active, hinv.valid, hinv.finished]
  have hstep : followImport descriptors enter node state import_ =
      enter import_.typeId (ensured.pushEdge node index) := by
    simp [followImport, hrequire, hensure]
  rw [hstep]
  obtain ⟨after, order, edges, hok, hactive, hexplored, hentered⟩ | ⟨e, herr, hbad⟩ :=
    henter _ hnext hentry hvisited
  · have hentered' : Entered descriptors state.visited import_.typeId order edges := by
      rwa [← hvisited]
    have hafter : after.types = state.visited ++ order := by
      rw [hexplored.types, ← hvisited]
      exact hexplored.visited
    -- both ends of the new edge keep their labels
    have himporter : after.types[node]? = some m := by
      rw [hafter]
      exact List.getElem?_append_left (List.getElem?_eq_some_iff.mp hnode).1 ▸ hnode
    have himported : after.types[index]? = some import_.typeId := by
      rw [htypes] at hensured
      obtain ⟨more, hmore⟩ := hentered'.types_prefix hensured
      rw [hafter, ← hmore]
      exact List.getElem?_append_left (List.getElem?_eq_some_iff.mp hindex).1 ▸ hindex
    exact .inl ⟨after, order, edges, hok, by rwa [← hstack],
      .of_pushEdge hvisited hstack himports hexplored ⟨himporter, himported⟩, hentered'⟩
  · refine .inr ⟨e, herr, ?_⟩
    rw [← hstack]
    exact hbad

/-- The loop over the imports of `m` searches below `m`. -/
theorem followImports_spec (enter : TypeId → BuildState → Run Error BuildState) {m : TypeId}
    {node : ℕ} (imports : List ModuleImportDescriptor) (state : BuildState)
    (hinv : state.Invariant descriptors) (htypes : state.types = state.visited)
    (hnode : state.visited[node]? = some m)
    (henter : ∀ (next : BuildState) (w : TypeId), next.Invariant descriptors →
      EntryTypes next w → state.visited.length ≤ next.visited.length →
      VisitSpec descriptors enter w next) :
    (∃ after order edges,
        imports.foldlM (followImport descriptors enter node) state = .ok after ∧
        (∀ w ∈ imports.map (·.typeId), w ∉ state.stack) ∧
        state.Explored descriptors after order edges ∧
        Traversal (importsOf descriptors) state.visited m (imports.map (·.typeId)) order edges) ∨
      ∃ e, imports.foldlM (followImport descriptors enter node) state = .error (.err e) ∧
        ∃ w ∈ imports.map (·.typeId), Bad descriptors state.stack w := by
  induction imports generalizing state with
  | nil =>
    exact .inl ⟨state, [], [], rfl, by simp,
      ⟨by simp, rfl, htypes, ⟨[], by simp, .nil⟩, hinv⟩, .nil⟩
  | cons import_ imports ih =>
    rw [List.foldlM_cons]
    obtain ⟨mid, order₁, edges₁, hfollow, hactive, hmid, hentered⟩ | ⟨e, hfollow, hbad⟩ :=
      followImport_spec import_ hinv htypes hnode
        (fun next hnext hentry hvisited => henter next _ hnext hentry (by rw [hvisited]))
    swap
    · exact .inr ⟨e, by simp [hfollow], import_.typeId, by simp, hbad⟩
    have hlength : state.visited.length ≤ mid.visited.length := by
      rw [hmid.visited, List.length_append]
      exact Nat.le_add_right _ _
    have hnode' : mid.visited[node]? = some m := by
      rw [hmid.visited]
      exact List.getElem?_append_left (List.getElem?_eq_some_iff.mp hnode).1 ▸ hnode
    obtain ⟨after, order₂, edges₂, hrest, hactive₂, hafter, htail⟩ | ⟨e, hrest, w, hw, hbad⟩ :=
      ih mid hmid.invariant hmid.types hnode'
        (fun next w hnext hentry hle => henter next w hnext hentry (hlength.trans hle))
    · rw [hmid.stack] at hactive₂
      refine .inl ⟨after, order₁ ++ order₂, (m, import_.typeId) :: edges₁ ++ edges₂,
        by simpa [hfollow] using hrest, by simpa using ⟨hactive, by simpa using hactive₂⟩,
        hmid.trans hafter, ?_⟩
      rw [hmid.visited] at htail
      cases hentered with
      | again h => exact .skip h (by simpa using htail)
      | fresh h search => exact .enter h search htail
    · exact .inr ⟨e, by simpa [hfollow] using hrest, w, List.mem_cons_of_mem _ hw,
        by rwa [← hmid.stack]⟩

theorem moduleCycleError_eq_err (cycle : List TypeId) {repeated : TypeId}
    (h : ∃ d ∈ descriptors, d.typeId = repeated) :
    ∃ e, moduleCycleError descriptors cycle repeated = .error (.err e) := by
  obtain ⟨d, hd, htype⟩ := h
  have hfind : (descriptorForStack descriptors repeated).isSome := by
    simp only [descriptorForStack, List.find?_isSome]
    exact ⟨d, hd, by simp [htype]⟩
  obtain ⟨found, hfound⟩ := Option.isSome_iff_exists.mp hfind
  unfold moduleCycleError
  rw [hfound]
  cases hchain : cycle.filterMap (descriptorForStack descriptors) with
  | nil => exact ⟨_, by simp [Run.fail]; rfl⟩
  | cons first rest => exact ⟨_, by simp [Run.fail]; rfl⟩

/-- A valid module may be entered. -/
theorem BuildState.Invariant.enter {state begun : BuildState} {m : TypeId}
    (h : state.Invariant descriptors) (hmem : m ∉ state.visited)
    (hvalid : ValidModule descriptors m) (hvisited : begun.visited = state.visited ++ [m])
    (hstack : begun.stack = state.stack ++ [m]) : begun.Invariant descriptors := by
  refine ⟨?_, ?_, ?_, ?_⟩ <;> rw [hvisited]
  · refine List.nodup_append.mpr ⟨h.nodup, List.nodup_singleton m, ?_⟩
    rintro a ha b hb rfl
    exact hmem (List.mem_singleton.mp hb ▸ ha)
  · rw [hstack]
    intro t ht
    obtain ht | ht := List.mem_append.mp ht
    · exact List.mem_append_left _ (h.active ht)
    · exact List.mem_append_right _ ht
  · intro t ht
    obtain ht | ht := List.mem_append.mp ht
    · exact h.valid t ht
    · rwa [List.mem_singleton.mp ht]
  · rw [hstack]
    intro t ht hout
    simp only [List.mem_append, List.mem_singleton, not_or] at ht hout
    exact h.finished t (ht.resolve_right hout.2) hout.1

/-- Once every import of `m` was left again, `m` itself is left: all chains below it end. -/
theorem BuildState.Explored.leave {state begun looped : BuildState} {m : TypeId}
    {below : List TypeId} {edges : List (TypeId × TypeId)}
    (h : begun.Explored descriptors looped below edges)
    (hvisited : begun.visited = state.visited ++ [m]) (hstack : begun.stack = state.stack ++ [m])
    (himports : begun.imports = state.imports)
    (hleft : ∀ w ∈ importsOf descriptors m, w ∉ begun.stack)
    (hsearch : Traversal (importsOf descriptors) (state.visited ++ [m]) m
      (importsOf descriptors m) below edges) :
    state.Explored descriptors { looped with stack := looped.stack.dropLast } (m :: below)
      edges := by
  have hlooped : looped.stack = state.stack ++ [m] := h.stack.trans hstack
  have hdrop : looped.stack.dropLast = state.stack := by rw [hlooped, List.dropLast_concat]
  have horder : looped.visited = state.visited ++ m :: below := by
    rw [h.visited, hvisited, List.append_assoc, List.singleton_append]
  refine ⟨horder, hdrop, h.types, by rw [← himports]; exact h.imports,
    h.invariant.nodup, ?_, h.invariant.valid, ?_⟩
  · rw [hdrop]
    exact fun t ht => h.invariant.active (hlooped ▸ List.mem_append_left _ ht)
  · rw [hdrop]
    intro t ht hout
    by_cases htm : t = m
    · subst htm
      refine .intro t fun w hw => h.invariant.finished w ?_ ?_
      · have := hsearch.covers w hw
        rw [horder]
        simpa using this
      · rw [h.stack]
        exact hleft w hw
    · exact h.invariant.finished t ht (by rw [hlooped]; simp [hout, htm])

/-- A module that is not on the active path and was not entered yet either passes the three checks
on its declaration, and then its imports are followed, or the visit ends with an error. -/
theorem visit_cases (fuel : ℕ) {m : TypeId} {state : BuildState}
    (hposition : state.stack.findIdx? (fun id => id = m) = none) (hmem : m ∉ state.visited) :
    (∃ (d : ModuleDescriptor) (pushed : BuildState) (node : ℕ), Declares descriptors m d ∧
      pushed.visited = state.visited ++ [m] ∧ pushed.stack = state.stack ∧
      pushed.imports = state.imports ∧ pushed.types[node]? = some m ∧
      pushed.types = (if m ∈ state.types then state.types else state.types ++ [m]) ∧
      visit descriptors (fuel + 1) m state = do
        let looped ← d.imports.foldlM (followImport descriptors (visit descriptors fuel) node)
          { pushed with stack := pushed.stack ++ [m] }
        pure { looped with stack := looped.stack.dropLast }) ∨
    (¬ ValidModule descriptors m ∧
      ∃ e, visit descriptors (fuel + 1) m state = .error (.err e)) := by
  rw [visit, hposition]
  simp only [if_neg hmem]
  obtain ⟨d, hrequire, hsingle⟩ | ⟨e, hrequire, hnone⟩ :=
    (requireDescriptor_decides descriptors m).cases
  swap
  · exact .inr ⟨fun ⟨d, hd⟩ => hnone d hd.single, e, by simp [hrequire]⟩
  have honly : ∀ d', Declares descriptors m d' → d' = d := fun d' hd' => by
    simpa [hsingle] using hd'.single.symm
  obtain ⟨-, rfl⟩ := mem_of_single hsingle
  obtain ⟨_, hunique, howns⟩ | ⟨e, hunique, hnone⟩ :=
    (validateUniqueNamespace_decides descriptors d).cases
  swap
  · exact .inr ⟨fun ⟨d', hd'⟩ => hnone () (honly d' hd' ▸ hd'.namespace_), e,
      by simp [hrequire, hunique]⟩
  obtain ⟨pushed, node, hpush, hvisited, hstack, himports, hnode, htypes⟩ | ⟨hname, -⟩ :=
    BuildState.ensureNode_cases { state with visited := state.visited ++ [d.typeId] } d
  swap
  · obtain ⟨name, hname', -⟩ := howns
    simp [hname] at hname'
  obtain ⟨_, hduplicate, hnodup⟩ | ⟨e, hduplicate, hdup⟩ :=
    (validateDuplicateDirectImports_decides d).cases
  swap
  · exact .inr ⟨fun ⟨d', hd'⟩ => hdup () (honly d' hd' ▸ hd'.imports), e,
      by simp [hrequire, hunique, BuildState.pushNode, hpush, hduplicate]⟩
  refine .inl ⟨d, pushed, node, ⟨hsingle, howns, hnodup⟩, hvisited, hstack, himports, hnode,
    htypes, ?_⟩
  simp [hrequire, hunique, BuildState.pushNode, hpush, hduplicate]

/-- With enough fuel for the modules not yet entered, a visit meets its specification. -/
theorem visit_spec (fuel : ℕ) (m : TypeId) (state : BuildState)
    (hinv : state.Invariant descriptors) (hentry : EntryTypes state m)
    (hfuel : descriptors.length < fuel + state.visited.length) :
    VisitSpec descriptors (visit descriptors fuel) m state := by
  induction fuel generalizing m state with
  | zero =>
    have := hinv.visited_length_le
    omega
  | succ fuel ih =>
    simp only [VisitSpec]
    cases hposition : state.stack.findIdx? (fun id => id = m) with
    | some i =>
      -- `m` is on the active path, which closes a cycle
      rw [visit, hposition]
      have hactive : m ∈ state.stack := by
        obtain ⟨hlt, htype, -⟩ := List.findIdx?_eq_some_iff_getElem.mp hposition
        exact (decide_eq_true_eq.mp htype) ▸ List.getElem_mem hlt
      obtain ⟨d, hd⟩ := hinv.valid m (hinv.active hactive)
      obtain ⟨e, he⟩ := moduleCycleError_eq_err (state.stack.drop i)
        ⟨d, mem_of_single hd.single⟩
      exact .inr ⟨e, he, m, .refl, .inr (.inr hactive)⟩
    | none =>
      have hactive : m ∉ state.stack := fun hmem => by
        simpa using List.findIdx?_eq_none_iff.mp hposition m hmem
      by_cases hmem : m ∈ state.visited
      · have htypes : state.types = state.visited :=
          hentry.resolve_right fun h => h.1 hmem
        refine .inl ⟨state, [], [], by rw [visit, hposition]; simp [hmem], hactive, ?_,
          .again hmem⟩
        exact ⟨by simp, rfl, htypes, ⟨[], by simp, .nil⟩, hinv⟩
      obtain ⟨d, pushed, node, hd, hvisited, hstack, himports, hnode, htypes, hvisit⟩ |
        ⟨hinvalid, e, herr⟩ := @visit_cases descriptors fuel m state hposition hmem
      swap
      · exact .inr ⟨e, herr, .of_invalid hinvalid⟩
      rw [hvisit]
      -- the node of `m` stands behind those of the modules entered before
      have htypes' : pushed.types = state.visited ++ [m] := by
        rw [htypes]
        obtain h | ⟨-, h⟩ := hentry
        · rw [if_neg (by rwa [h]), h]
        · rw [if_pos (by simp [h]), h]
      let begun : BuildState := { pushed with stack := pushed.stack ++ [m] }
      have hbegun : begun.stack = state.stack ++ [m] := congrArg (· ++ [m]) hstack
      have hnode' : begun.visited[node]? = some m := by
        rw [htypes'] at hnode
        exact hvisited ▸ hnode
      have hloop := followImports_spec (visit descriptors fuel) d.imports begun
        (hinv.enter hmem ⟨d, hd⟩ hvisited hbegun) (htypes'.trans hvisited.symm) hnode'
        (fun next w hnext hentry hle => by
          -- `m` is entered, so one unit of fuel less is enough
          refine ih w next hnext hentry ?_
          have : begun.visited.length = state.visited.length + 1 := by simp [begun, hvisited]
          omega)
      rw [← importsOf_single hd.single] at hloop
      obtain ⟨looped, below, edges, hok, hleft, hexplored, hsearch⟩ | ⟨e, herr, w, hw, hbad⟩ :=
        hloop
      · have hsearch' : Traversal (importsOf descriptors) (state.visited ++ [m]) m
            (importsOf descriptors m) below edges := hvisited ▸ hsearch
        refine .inl ⟨_, m :: below, edges, ?_, hactive,
          hexplored.leave hvisited hbegun himports hleft hsearch', .fresh hmem hsearch'⟩
        simp [begun, hok]
      · refine .inr ⟨e, ?_, .of_import hw (hbegun ▸ hbad)⟩
        simp [begun, herr]

end Spec

/-! ### The whole graph -/

section Build

variable (modules : List ModuleDescriptor) (root : TypeId)

/-- Everything the root reaches is a valid module, and no reachable module imports itself through
a chain. -/
structure Buildable : Prop where
  valid : ∀ t, ReflTransGen (Imports modules) root t → ValidModule modules t
  acyclic : ∀ t, ReflTransGen (Imports modules) root t → ¬ TransGen (Imports modules) t t

/-- The authored edges of a list of module types. -/
def authoredEdges (types : List TypeId) : List (TypeId × TypeId) :=
  types.flatMap (fun t => (importsOf modules t).map (fun w => (t, w)))

/-- The graph of a root: the reachable modules in depth-first preorder, each once, and their
authored imports in the order the search looks at them, each once. -/
structure GraphOf (graph : ModuleGraph) : Prop where
  root_node : graph.modules[graph.root]?.map (·.typeId) = some root
  nodes_nodup : (graph.modules.map (·.typeId)).Nodup
  nodes_reachable : ∀ t, t ∈ graph.modules.map (·.typeId) ↔ ReflTransGen (Imports modules) root t
  nodes_recorded : ∀ node ∈ graph.modules, ∃ d ∈ modules, node.Records d
  preorder : ∃ order edges,
    Traversal (importsOf modules) [root] root (importsOf modules root) order edges ∧
      graph.modules.map (·.typeId) = root :: order ∧
      List.Forall₂ (Labels (graph.modules.map (·.typeId))) graph.imports edges ∧
      edges.Perm (authoredEdges modules (graph.modules.map (·.typeId))) ∧ edges.Nodup

variable {modules root}

theorem authoredEdges_nodup {types : List TypeId} (h : types.Nodup)
    (hvalid : ∀ t ∈ types, ValidModule modules t) : (authoredEdges modules types).Nodup := by
  refine List.nodup_flatMap.mpr ⟨fun t ht => ?_, h.imp fun {a b} hne => ?_⟩
  · obtain ⟨d, hd⟩ := hvalid t ht
    rw [importsOf_single hd.single]
    exact hd.imports.map (fun _ _ h => (Prod.mk.inj h).2)
  · intro e ha hb
    obtain ⟨_, -, rfl⟩ := List.mem_map.mp ha
    obtain ⟨_, -, heq⟩ := List.mem_map.mp hb
    exact hne (Prod.mk.inj heq).1.symm

/-- A root that reaches nothing bad satisfies every condition, and conversely. -/
theorem buildable_iff_not_bad : Buildable modules root ↔ ¬ Bad modules [] root := by
  constructor
  · rintro h ⟨t, hreach, hinvalid | hcycle | hactive⟩
    · exact hinvalid (h.valid t hreach)
    · exact h.acyclic t hreach hcycle
    · exact List.not_mem_nil hactive
  · intro h
    refine ⟨fun t hreach => ?_, fun t hreach hcycle => h ⟨t, hreach, .inr (.inl hcycle)⟩⟩
    by_contra hinvalid
    exact h ⟨t, hreach, .inl hinvalid⟩

theorem BuildState.Invariant.empty : ({} : BuildState).Invariant modules :=
  ⟨List.nodup_nil, List.nil_subset _, by simp, by simp⟩

/-- A finished traversal gives the graph of the root. -/
theorem graphOf_of_explored {state : BuildState} {order : List TypeId}
    {edges : List (TypeId × TypeId)} {graph : ModuleGraph}
    (hexplored : ({} : BuildState).Explored modules state (root :: order) edges)
    (hsearch : Traversal (importsOf modules) [root] root (importsOf modules root) order edges)
    (hrecorded : ∀ node ∈ state.modules, ∃ d ∈ modules, node.Records d)
    (hroot : state.nodeIndex root = some graph.root) (hmodules : graph.modules = state.modules)
    (himports : graph.imports = state.imports) : GraphOf modules root graph := by
  have hvisited : state.visited = root :: order := hexplored.visited
  have htypes : graph.modules.map (·.typeId) = root :: order := by
    rw [hmodules, ← hvisited]
    exact hexplored.types
  have hnodup : (graph.modules.map (·.typeId)).Nodup := by
    rw [htypes, ← hvisited]
    exact hexplored.invariant.nodup
  obtain ⟨fresh, hfresh, hlabels⟩ := hexplored.imports
  have hperm : edges.Perm (authoredEdges modules (graph.modules.map (·.typeId))) := by
    rw [htypes]
    exact hsearch.edges_perm
  refine ⟨?_, hnodup, fun t => ?_, hmodules ▸ hrecorded, order, edges, hsearch, htypes, ?_, hperm,
    ?_⟩
  · obtain ⟨hlt, htype, -⟩ := List.findIdx?_eq_some_iff_getElem.mp hroot
    rw [hmodules, List.getElem?_eq_getElem hlt]
    exact congrArg some (decide_eq_true_eq.mp htype)
  · rw [htypes]
    exact hsearch.mem_iff_reachable
  · have : graph.imports = fresh := by rw [himports, hfresh]; rfl
    rw [this, hmodules]
    exact hlabels
  · refine hperm.nodup_iff.mpr (authoredEdges_nodup hnodup fun t ht => ?_)
    exact hexplored.invariant.valid t (by rw [hvisited, ← htypes]; exact ht)

theorem buildModuleGraph_ok {state : BuildState} {index : ℕ}
    (hvisit : visit modules (modules.length + 1) root {} = .ok state)
    (hroot : state.nodeIndex root = some index) :
    ∃ graph, buildModuleGraph root modules = .ok graph ∧ graph.root = index ∧
      graph.modules = state.modules ∧ graph.imports = state.imports := by
  unfold buildModuleGraph
  split
  · next halt herr => simp [hvisit] at herr
  · next state' hok =>
    obtain rfl : state = state' := by simpa [hvisit] using hok
    split
    · next hnone => simp [hroot] at hnone
    · next index' hsome =>
      obtain rfl : index = index' := by simpa [hroot] using hsome
      exact ⟨_, rfl, rfl, rfl, rfl⟩

/-- Building a module graph always returns: the graph of the root where the root reaches valid,
acyclic modules only, and an error for any other root. -/
theorem buildModuleGraph_cases (modules : List ModuleDescriptor) (root : TypeId) :
    (∃ graph, buildModuleGraph root modules = .ok graph ∧ Buildable modules root ∧
        GraphOf modules root graph) ∨
      (∃ e, buildModuleGraph root modules = .error (.err e) ∧ ¬ Buildable modules root) := by
  obtain ⟨state, order, edges, hok, -, hexplored, hentered⟩ | ⟨e, herr, hbad⟩ :=
    visit_spec (modules.length + 1) root {} .empty (.inl rfl) (Nat.lt_succ_self modules.length)
  · cases hentered with
    | again h => exact absurd h List.not_mem_nil
    | @fresh order _ _ hsearch =>
      have hvisited : state.visited = root :: order := hexplored.visited
      have hmem : root ∈ state.types := by
        rw [hexplored.types, hvisited]
        exact List.mem_cons_self
      obtain ⟨index, hindex⟩ : ∃ index, state.nodeIndex root = some index := by
        obtain ⟨node, hnode, htype⟩ := List.mem_map.mp hmem
        refine Option.isSome_iff_exists.mp ?_
        rw [BuildState.nodeIndex, List.findIdx?_isSome, List.any_eq_true]
        exact ⟨node, hnode, decide_eq_true htype⟩
      obtain ⟨graph, hgraph, hroot, hmodules, himports⟩ := buildModuleGraph_ok hok hindex
      have hrecorded := ((visit_extends hok).wellFormed (.empty modules)).recorded
      have hspec : GraphOf modules root graph :=
        graphOf_of_explored hexplored hsearch hrecorded (hroot ▸ hindex) hmodules himports
      refine .inl ⟨graph, hgraph, ⟨fun t ht => ?_, fun t ht => ?_⟩, hspec⟩
      · refine hexplored.invariant.valid t ?_
        rw [hvisited]
        exact hsearch.mem_iff_reachable.mpr ht
      · refine not_transGen_self (hexplored.invariant.finished t ?_ ?_)
        · rw [hvisited]
          exact hsearch.mem_iff_reachable.mpr ht
        · rw [hexplored.stack]
          exact List.not_mem_nil
  · refine .inr ⟨e, ?_, fun h => buildable_iff_not_bad.mp h hbad⟩
    unfold buildModuleGraph
    split
    · next halt hhalt =>
      obtain rfl : Halt.err e = halt := by simpa [herr] using hhalt
      rfl
    · next state hok => simp [herr] at hok

/-- A build returns a graph or an error, it returns a graph exactly for buildable roots, and the
graph is that of the root. -/
theorem buildModuleGraph_correct (modules : List ModuleDescriptor) (root : TypeId) :
    ((∃ graph, buildModuleGraph root modules = .ok graph) ∨
        ∃ e, buildModuleGraph root modules = .error (.err e)) ∧
      ((∃ graph, buildModuleGraph root modules = .ok graph) ↔ Buildable modules root) ∧
      ∀ graph, buildModuleGraph root modules = .ok graph → GraphOf modules root graph := by
  obtain ⟨graph, hok, hbuildable, hspec⟩ | ⟨e, herr, hnot⟩ := buildModuleGraph_cases modules root
  · refine ⟨.inl ⟨graph, hok⟩, iff_of_true ⟨graph, hok⟩ hbuildable, fun graph' hok' => ?_⟩
    obtain rfl : graph = graph' := by simpa [hok] using hok'
    exact hspec
  · refine ⟨.inr ⟨e, herr⟩, iff_of_false ?_ hnot, fun graph hok => ?_⟩
    · rintro ⟨graph, hok⟩
      simp [herr] at hok
    · simp [herr] at hok

end Build

end Mads
