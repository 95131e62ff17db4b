import Mads.Common.Inspection
import Mads.Core.CycleReport
import Mads.Library.DepthFirst

/-!
# Reports as text

The imports of the modules are drawn as a tree: below each module its imports, and below an import
that was not drawn before its own ones.
-/

namespace Mads.Inspection

namespace Render

/-- `{:<width$}`. -/
def padded (width : ℕ) (text : String) : String :=
  text ++ String.ofList (List.replicate (width - text.length) ' ')

def locationText (location : SourceLocation) : String :=
  location.file ++ ":" ++ toString location.line ++ ":" ++ toString location.column

def renderRoute (route : RouteReport) : String :=
  "\n" ++ padded 7 route.method ++ " " ++ padded 10 route.path ++ " " ++
    padded 24 (route.routeTrait ++ "::" ++ route.handler) ++ " " ++ padded 16 route.controller ++
    " " ++ padded 6 (if route.guardActive then "yes" else "no") ++ " " ++
    locationText route.location

def renderRoutes (report : InspectionReport) : String :=
  let header := "METHOD  PATH        ROUTE                    CONTROLLER       GUARD  SOURCE"
  let routes := sortBy routeReportOrder report.routes
  if routes = [] then header ++ "\n(none)" else header ++ String.join (routes.map renderRoute)

/-! ### Modules -/

/-- The imports of a module, ascending and each once. -/
def children (imports : List ModuleImportReport) (importer : String) : List String :=
  orderedSet ((imports.filter fun report => report.importer = importer).map (·.imported))

/-- The modules that are drawn, and the text so far. -/
structure Drawing where
  visited : List String
  output : String

def connector (last : Bool) : String := if last then "└──" else "├──"

def indentation (last : Bool) : String := if last then "    " else "│   "

/-- The loop over the imports of a module. -/
def drawChildren (enter : String → String → Drawing → Option Drawing) (indent : String) :
    List String → Drawing → Option Drawing
  | [], drawing => some drawing
  | child :: rest, ⟨visited, output⟩ =>
    let last := rest.isEmpty
    let output := output ++ ("\n" ++ indent ++ connector last ++ " " ++ child)
    if child ∈ visited then drawChildren enter indent rest ⟨visited, output⟩
    else
      (enter child (indent ++ indentation last) ⟨visited ++ [child], output⟩).bind
        (drawChildren enter indent rest)

/-- `render_imports`, so many levels deep. -/
def renderImports (imports : List ModuleImportReport) :
    ℕ → String → String → Drawing → Option Drawing
  | 0, _, _, _ => none
  | depth + 1, importer, indent, drawing =>
    drawChildren (renderImports imports depth) indent (children imports importer) drawing

def moduleNames (report : InspectionReport) : List String := report.graph.modules.map (·.typeName)

/-- No level is deeper than there are imports. -/
def renderModules (report : InspectionReport) : Option String :=
  match report.graph.rootModule with
  | none =>
    let modules := orderedSet (moduleNames report)
    some (if modules = [] then "(none)" else String.intercalate "\n" modules)
  | some root =>
    (renderImports report.graph.imports (report.graph.imports.length + 1) root "" ⟨[root], root⟩).map
      fun drawing =>
        let remaining := (moduleNames report).filter fun name => !drawing.visited.contains name
        drawing.output ++ String.join ((orderedSet remaining).map ("\n" ++ ·))

/-! ### The other parts of the graph -/

def renderProvider (width : ℕ) (provider : ProviderReport) : String :=
  padded width provider.typeName ++ "  owner=" ++ provider.owner.getD "(none)" ++ " origin=" ++
    provider.origin ++ " visibility=" ++ provider.visibility ++ " state=" ++ provider.state

def renderProviders (providers : List ProviderReport) : String :=
  let providers := sortBy (compareOn (·.typeName)) providers
  if providers = [] then "(none)"
  else
    let width := (providers.map fun provider => provider.typeName.utf8ByteSize).foldl max 0
    String.intercalate "\n" (providers.map (renderProvider width))

def dependencyOrder : DependencyReport → DependencyReport → Ordering :=
  compareLex (compareOn (·.provider)) (compareOn (·.dependency))

def renderDependencies (dependencies : List DependencyReport) : String :=
  let dependencies := sortBy dependencyOrder dependencies
  if dependencies = [] then "(none)"
  else
    String.intercalate "\n"
      (dependencies.map fun dependency => dependency.provider ++ " -> " ++ dependency.dependency)

def renderConstructionOrder (order : Option (List String)) : String :=
  match order with
  | none | some [] => "(none)"
  | some order =>
    String.intercalate "\n" (order.mapIdx fun index provider => s!"{index + 1}. {provider}")

def renderGraph (report : InspectionReport) : Option String :=
  (renderModules report).map fun modules =>
    "Modules\n" ++ modules ++ "\n\nProviders\n" ++ renderProviders report.graph.providers ++
      "\n\nDependencies\n" ++ renderDependencies report.graph.dependencies ++
      "\n\nConstruction order\n" ++ renderConstructionOrder report.graph.constructionOrder

/-! ### Checks and diagnostics -/

def doctorGroupRank (group : String) : ℕ :=
  if group = "configuration" then 0
  else if group = "module graph" then 1
  else if group = "providers" then 2
  else if group = "routes" then 3
  else if group = "guards/strategies" then 4
  else if group = "server/CORS" then 5
  else if group = "auto-configuration" then 6
  else 7

def doctorStatus : DoctorStatus → String
  | .pass => "PASS"
  | .skipped => "SKIPPED"
  | .overridden => "OVERRIDDEN"
  | .failed => "FAILED"

def checkOrder : DoctorCheck → DoctorCheck → Ordering :=
  compareLex (compareOn fun check => doctorGroupRank check.group) (compareOn (·.summary))

def renderCheck (check : DoctorCheck) : String :=
  -- the longest group has a column of its own width
  let group := if check.group = "auto-configuration" then check.group else padded 19 check.group
  padded 11 (doctorStatus check.status) ++ " " ++ group ++ " " ++ check.summary

def renderDoctor (report : InspectionReport) : String :=
  let checks := sortBy checkOrder report.checks
  if checks = [] then "(none)" else String.intercalate "\n" (checks.map renderCheck)

def renderDiagnostic (diagnostic : DiagnosticReport) : String :=
  "error[" ++ diagnostic.code ++ "]: " ++ diagnostic.title ++
    (match diagnostic.location with
      | none => ""
      | some location => "\n  --> " ++ locationText location) ++
    (match diagnostic.subject with
      | none => ""
      | some subject => "\n  = subject: " ++ subject) ++
    "\n  = " ++ diagnostic.message ++ String.join (diagnostic.suggestions.map ("\n  help: " ++ ·))

def diagnosticOrder : DiagnosticReport → DiagnosticReport → Ordering :=
  compareLex (compareLex (compareLex (compareOn (·.code))
    (fun left right => optionLocationOrder left.location right.location)) (compareOn (·.subject)))
    (compareOn (·.title))

def renderDiagnostics (report : InspectionReport) : String :=
  String.intercalate "\n\n" ((sortBy diagnosticOrder report.diagnostics).map renderDiagnostic)

/-- `render_inspection_report`: the output, the diagnostics and the exit code. -/
def renderInspectionReport (report : InspectionReport) : Option (String × String × ℕ) :=
  let body := match report.kind with
    | .routes => some (renderRoutes report)
    | .graph => renderGraph report
    | .doctor => some (renderDoctor report)
  body.map fun body => (body, renderDiagnostics report, if report.failed then 1 else 0)

/-! ### The drawing is a depth-first search -/

open DepthFirst Relation

/-- A line of the tree: which import it stands for, and where. -/
structure TreeLine where
  importer : String
  imported : String
  indent : String
  last : Bool
  deriving DecidableEq, Repr

namespace TreeLine

def edge (line : TreeLine) : String × String := (line.importer, line.imported)

def text (line : TreeLine) : String :=
  "\n" ++ line.indent ++ connector line.last ++ " " ++ line.imported

end TreeLine

def treeText (lines : List TreeLine) : String := String.join (lines.map TreeLine.text)

theorem treeText_append (lines more : List TreeLine) :
    treeText (lines ++ more) = treeText lines ++ treeText more := by
  rw [treeText, List.map_append, String.join_append]
  rfl

theorem treeText_cons (line : TreeLine) (lines : List TreeLine) :
    treeText (line :: lines) = line.text ++ treeText lines := by
  rw [treeText, List.map_cons, String.join_cons]
  rfl

variable {imports : List ModuleImportReport}

/-- A line stands below the first line for its importer, with only deeper lines between. -/
def Below (line : TreeLine) (front : List TreeLine) : Prop :=
  ∃ before above between, front = before ++ above :: between ∧
    above.imported = line.importer ∧ (∀ other ∈ before, other.imported ≠ line.importer) ∧
    line.indent = above.indent ++ indentation above.last ∧
    ∀ other ∈ between, ∃ deeper, other.indent = line.indent ++ deeper

theorem Below.append_left {line : TreeLine} {front : List TreeLine} (h : Below line front)
    {lines : List TreeLine} (hlines : ∀ other ∈ lines, other.imported ≠ line.importer) :
    Below line (lines ++ front) := by
  obtain ⟨before, above, between, rfl, habove, hbefore, hindent, hbetween⟩ := h
  refine ⟨lines ++ before, above, between, by simp, habove, fun other hother => ?_, hindent,
    hbetween⟩
  obtain hother | hother := List.mem_append.mp hother
  · exact hlines other hother
  · exact hbefore other hother

theorem Below.cons {line first : TreeLine} {front : List TreeLine} (h : Below line front)
    (hfirst : first.imported ≠ line.importer) : Below line (first :: front) :=
  have hlines : ∀ other ∈ [first], other.imported ≠ line.importer := fun other hother => by
    rwa [List.mem_singleton.mp hother]
  h.append_left hlines

/-- What is drawn below a module: the edges that a depth-first search looks at, each below the line
for its importer and marked where no other import of the module follows. -/
structure Drawn (imports : List ModuleImportReport) (importer indent : String)
    (rest : List String) (drawing after : Drawing) (lines : List TreeLine) (order : List String) :
    Prop where
  search : Traversal (children imports) drawing.visited importer rest order
    (lines.map TreeLine.edge)
  visited : after.visited = drawing.visited ++ order
  output : after.output = drawing.output ++ treeText lines
  deeper : ∀ line ∈ lines, ∃ deeper, line.indent = indent ++ deeper
  place : ∀ front line back, lines = front ++ line :: back →
    line.importer = importer ∧ line.indent = indent ∨ line.importer ∈ order ∧ Below line front
  last : ∀ line ∈ lines,
    (line.last = true ↔ (children imports line.importer).getLast? = some line.imported)

theorem Drawn.imported_mem {importer indent : String} {rest : List String}
    {drawing after : Drawing} {lines : List TreeLine} {order : List String}
    (h : Drawn imports importer indent rest drawing after lines order) :
    ∀ line ∈ lines, line.imported ∈ drawing.visited ++ order :=
  fun _ hline => h.search.target_mem _ (List.mem_map_of_mem hline)

/-- A line of two texts stands in the first or in the second. -/
theorem split_append {lines more front back : List TreeLine} {line : TreeLine}
    (h : lines ++ more = front ++ line :: back) :
    (∃ rest, lines = front ++ line :: rest) ∨
      ∃ middle, front = lines ++ middle ∧ more = middle ++ line :: back := by
  obtain ⟨middle, hfront, hmore⟩ | ⟨middle, hlines, hback⟩ := List.append_eq_append_iff.mp h
  · exact .inr ⟨middle, hfront, hmore⟩
  · cases middle with
    | nil => exact .inr ⟨[], by simpa using hlines.symm, by simpa using hback.symm⟩
    | cons first middle =>
      obtain ⟨rfl, -⟩ := List.cons.inj hback
      exact .inl ⟨middle, hlines⟩

theorem children_ascending (imports : List ModuleImportReport) (importer : String) :
    (children imports importer).Pairwise (· < ·) := pairwise_orderedSet _

theorem children_nodup (imports : List ModuleImportReport) (importer : String) :
    (children imports importer).Nodup :=
  (children_ascending imports importer).imp fun h => h.ne

theorem mem_children {importer imported : String} :
    imported ∈ children imports importer ↔
      ∃ report ∈ imports, report.importer = importer ∧ report.imported = imported := by
  simp [children, and_assoc]

/-- A child is the last one if none follows. -/
theorem isEmpty_iff_getLast? {front rest : List String} {child : String}
    (h : (front ++ child :: rest).Nodup) :
    rest.isEmpty = true ↔ (front ++ child :: rest).getLast? = some child := by
  rw [List.isEmpty_iff, List.getLast?_append_of_ne_nil _ (by simp)]
  constructor
  · rintro rfl
    rfl
  · intro hlast
    by_contra hne
    rw [List.getLast?_cons_of_ne_nil hne] at hlast
    have hmem : child ∈ rest := List.mem_of_getLast? hlast
    exact (List.nodup_cons.mp (List.nodup_append.mp h).2.1).1 hmem

section Lines

variable {importer child indent output : String} {last : Bool} {visited rest : List String}
  {after : Drawing} {lines : List TreeLine} {order : List String}

/-- Only the line of a module is drawn that was drawn before. -/
theorem Drawn.skip (hvisited : child ∈ visited)
    (hlast : last = true ↔ (children imports importer).getLast? = some child)
    (h : Drawn imports importer indent rest
      ⟨visited, output ++ TreeLine.text ⟨importer, child, indent, last⟩⟩ after lines order) :
    Drawn imports importer indent (child :: rest) ⟨visited, output⟩ after
      (⟨importer, child, indent, last⟩ :: lines) order where
  search := .skip hvisited h.search
  visited := h.visited
  output := by rw [h.output, treeText_cons, String.append_assoc]
  deeper := by
    rintro other hother
    obtain rfl | hother := List.mem_cons.mp hother
    · exact ⟨"", String.append_empty.symm⟩
    · exact h.deeper other hother
  place := by
    rintro front other back hlines
    obtain ⟨rfl, hhead⟩ | ⟨front, rfl, htail⟩ := List.cons_eq_append_iff.mp hlines
    · obtain ⟨rfl, -⟩ := List.cons.inj hhead
      exact .inl ⟨rfl, rfl⟩
    · refine (h.place front other back htail).imp_right fun ⟨horder, hbelow⟩ => ?_
      -- the module of this line was drawn before, so it is not the importer
      refine ⟨horder, hbelow.cons fun heq : child = other.importer => ?_⟩
      exact h.search.notMem_seen _ horder (heq ▸ hvisited)
  last := by
    rintro other hother
    obtain rfl | hother := List.mem_cons.mp hother
    · exact hlast
    · exact h.last other hother

/-- The lines below a module that is new stand between its own line and those of the next import. -/
theorem Drawn.enter {between : Drawing} {under : List TreeLine} {below : List String}
    (hvisited : child ∉ visited)
    (hlast : last = true ↔ (children imports importer).getLast? = some child)
    (hunder : Drawn imports child (indent ++ indentation last) (children imports child)
      ⟨visited ++ [child], output ++ TreeLine.text ⟨importer, child, indent, last⟩⟩ between
      under below)
    (h : Drawn imports importer indent rest between after lines order) :
    Drawn imports importer indent (child :: rest) ⟨visited, output⟩ after
      (⟨importer, child, indent, last⟩ :: under ++ lines) (child :: below ++ order) := by
  let line : TreeLine := ⟨importer, child, indent, last⟩
  have hbetween : between.visited = visited ++ child :: below := by
    rw [hunder.visited, List.append_assoc, List.singleton_append]
  have hbefore : ∀ other ∈ line :: under, other.imported ∈ between.visited := by
    rintro other hother
    obtain rfl | hother := List.mem_cons.mp hother
    · simp [hbetween, line]
    · rw [hunder.visited]
      exact hunder.imported_mem other hother
  refine ⟨?_, ?_, ?_, ?_, ?_, ?_⟩
  · have houterSearch := h.search
    rw [hbetween] at houterSearch
    have hedges : (line :: under ++ lines).map TreeLine.edge =
        (importer, child) :: under.map TreeLine.edge ++ lines.map TreeLine.edge := by
      simp [line, TreeLine.edge]
    rw [hedges]
    exact .enter hvisited hunder.search houterSearch
  · rw [h.visited, hbetween, List.append_assoc]
  · rw [h.output, hunder.output, List.cons_append, treeText_cons, treeText_append]
    simp only [String.append_assoc]
  · rintro other hother
    rw [List.cons_append, List.mem_cons, List.mem_append] at hother
    obtain rfl | hother | hother := hother
    · exact ⟨"", String.append_empty.symm⟩
    · obtain ⟨deeper, hdeeper⟩ := hunder.deeper other hother
      exact ⟨indentation last ++ deeper, by rw [hdeeper, String.append_assoc]⟩
    · exact h.deeper other hother
  · rintro front other back hlines
    obtain ⟨tail, hunderline⟩ | ⟨front, rfl, hrestlines⟩ := split_append hlines
    · obtain ⟨rfl, hhead⟩ | ⟨front, rfl, htail⟩ := List.cons_eq_append_iff.mp hunderline
      · obtain ⟨rfl, -⟩ := List.cons.inj hhead
        exact .inl ⟨rfl, rfl⟩
      · right
        obtain ⟨himporter, hindent⟩ | ⟨hbelow, hplace⟩ := hunder.place front other tail htail
        -- an import of the new module is drawn right below its line
        · refine ⟨by simp [himporter], [], line, front, rfl, himporter.symm, by simp, hindent,
            fun deep hdeep => ?_⟩
          rw [hindent]
          exact hunder.deeper deep (by simp [htail, hdeep])
        · refine ⟨by simp [hbelow], hplace.cons fun heq : child = other.importer => ?_⟩
          exact hunder.search.notMem_seen _ hbelow (by simp [← heq])
    · refine (h.place front other back hrestlines).imp_right fun ⟨horder, hplace⟩ => ?_
      refine ⟨by simp [horder], hplace.append_left fun first hfirst heq => ?_⟩
      exact h.search.notMem_seen _ horder (heq ▸ hbefore first hfirst)
  · rintro other hother
    rw [List.cons_append, List.mem_cons, List.mem_append] at hother
    obtain rfl | hother | hother := hother
    · exact hlast
    · exact hunder.last other hother
    · exact h.last other hother

end Lines

theorem drawChildren_drawn {enter : String → String → Drawing → Option Drawing}
    (henter : ∀ child indent drawing after, enter child indent drawing = some after →
      ∃ lines order, Drawn imports child indent (children imports child) drawing after lines order)
    {importer indent : String} {front rest : List String} {drawing after : Drawing}
    (hchildren : children imports importer = front ++ rest)
    (h : drawChildren enter indent rest drawing = some after) :
    ∃ lines order, Drawn imports importer indent rest drawing after lines order := by
  induction rest generalizing front drawing with
  | nil =>
    obtain rfl := Option.some.inj h
    exact ⟨[], [], .nil, by simp, by simp [treeText], by simp, by simp, by simp⟩
  | cons child rest ih =>
    obtain ⟨visited, output⟩ := drawing
    have hrest : children imports importer = (front ++ [child]) ++ rest := by simp [hchildren]
    have hlast : rest.isEmpty = true ↔ (children imports importer).getLast? = some child := by
      have hnodup := children_nodup imports importer
      rw [hchildren] at hnodup ⊢
      exact isEmpty_iff_getLast? hnodup
    rw [drawChildren] at h
    split at h
    · next hvisited =>
      obtain ⟨lines, order, hdrawn⟩ := ih hrest h
      exact ⟨_, _, hdrawn.skip hvisited hlast⟩
    · next hvisited =>
      obtain ⟨between, hinner, houter⟩ := Option.bind_eq_some_iff.mp h
      obtain ⟨under, below, hunder⟩ := henter _ _ _ _ hinner
      obtain ⟨lines, order, hdrawn⟩ := ih hrest houter
      exact ⟨_, _, hunder.enter hvisited hlast hdrawn⟩

theorem renderImports_drawn {depth : ℕ} {importer indent : String} {drawing after : Drawing}
    (h : renderImports imports depth importer indent drawing = some after) :
    ∃ lines order,
      Drawn imports importer indent (children imports importer) drawing after lines order := by
  induction depth generalizing importer indent drawing after with
  | zero => cases h
  | succ depth ih =>
    exact drawChildren_drawn (fun _ _ _ _ => ih) (List.nil_append _).symm h

/-! ### The drawing ends -/

/-- The imports that are still to be drawn. -/
def fresh (imports : List ModuleImportReport) (visited : List String) : List String :=
  (imports.map (·.imported)).filter fun name => !visited.contains name

theorem fresh_append (visited more : List String) :
    fresh imports (visited ++ more) =
      (fresh imports visited).filter fun name => !more.contains name := by
  rw [fresh, fresh, List.filter_filter]
  congr 1
  funext name
  by_cases hvisited : name ∈ visited <;> by_cases hmore : name ∈ more <;> simp [hvisited, hmore]

theorem length_fresh_append_le (visited more : List String) :
    (fresh imports (visited ++ more)).length ≤ (fresh imports visited).length := by
  rw [fresh_append]
  exact List.length_filter_le ..

theorem length_fresh_lt {importer child : String} {visited : List String}
    (hchild : child ∈ children imports importer) (hvisited : child ∉ visited) :
    (fresh imports (visited ++ [child])).length < (fresh imports visited).length := by
  rw [fresh_append, List.length_filter_lt_length_iff_exists]
  obtain ⟨report, hreport, -, rfl⟩ := mem_children.mp hchild
  refine ⟨report.imported, ?_, by simp⟩
  simpa [fresh, hvisited] using ⟨report, hreport, rfl⟩

theorem drawChildren_isSome {enter : String → String → Drawing → Option Drawing} {bound : ℕ}
    (henter : ∀ child indent drawing, (fresh imports drawing.visited).length < bound →
      ∃ after, enter child indent drawing = some after ∧
        ∃ order, after.visited = drawing.visited ++ order)
    {importer indent : String} {rest : List String} {drawing : Drawing}
    (hrest : ∀ child ∈ rest, child ∈ children imports importer)
    (hbound : (fresh imports drawing.visited).length ≤ bound) :
    ∃ after, drawChildren enter indent rest drawing = some after ∧
      ∃ order, after.visited = drawing.visited ++ order := by
  induction rest generalizing drawing with
  | nil => exact ⟨drawing, rfl, [], (List.append_nil _).symm⟩
  | cons child rest ih =>
    obtain ⟨visited, output⟩ := drawing
    have hrest' : ∀ other ∈ rest, other ∈ children imports importer :=
      fun other hother => hrest other (List.mem_cons_of_mem _ hother)
    rw [drawChildren]
    split
    · exact ih hrest' hbound
    · next hvisited =>
      have hlt := length_fresh_lt (hrest child List.mem_cons_self) hvisited
      obtain ⟨between, hbetween, below, hbelow⟩ := henter child
        (indent ++ indentation rest.isEmpty) ⟨visited ++ [child],
          output ++ ("\n" ++ indent ++ connector rest.isEmpty ++ " " ++ child)⟩ (by
            show (fresh imports (visited ++ [child])).length < bound
            exact lt_of_lt_of_le hlt hbound)
      have hle : (fresh imports between.visited).length ≤ bound := by
        rw [hbelow, List.append_assoc]
        exact (length_fresh_append_le ..).trans hbound
      obtain ⟨after, hafter, order, horder⟩ := ih hrest' hle
      rw [hbetween, Option.bind_some]
      exact ⟨after, hafter, child :: below ++ order, by rw [horder, hbelow]; simp⟩

theorem renderImports_isSome {depth : ℕ} {importer indent : String} {drawing : Drawing}
    (h : (fresh imports drawing.visited).length < depth) :
    ∃ after, renderImports imports depth importer indent drawing = some after ∧
      ∃ order, after.visited = drawing.visited ++ order := by
  induction depth generalizing importer indent drawing with
  | zero => omega
  | succ depth ih =>
    exact drawChildren_isSome (fun _ _ _ => ih) (fun _ hchild => hchild) (Nat.le_of_lt_succ h)

/-! ### What is drawn of the modules -/

/-- The modules that a module imports, itself or by way of others. -/
def Reaches (imports : List ModuleImportReport) : String → String → Prop :=
  ReflTransGen (Edge (children imports))

section Root

variable {root output : String} {after : Drawing} {lines : List TreeLine} {order : List String}

theorem Drawn.mem_visited (h : Drawn imports root "" (children imports root) ⟨[root], output⟩ after
    lines order) {name : String} : name ∈ after.visited ↔ Reaches imports root name := by
  rw [h.visited]
  exact h.search.mem_iff_reachable

theorem Drawn.edges_perm (h : Drawn imports root "" (children imports root) ⟨[root], output⟩ after
    lines order) : (lines.map TreeLine.edge).Perm
      ((root :: order).flatMap fun name => (children imports name).map (name, ·)) := by
  rw [List.flatMap_cons]
  exact h.search.edges_perm

/-- Each import of a reachable module has its line. -/
theorem Drawn.mem_edges (h : Drawn imports root "" (children imports root) ⟨[root], output⟩ after
    lines order) {importer imported : String} : (importer, imported) ∈ lines.map TreeLine.edge ↔
      Reaches imports root importer ∧ imported ∈ children imports importer := by
  have hvisited : importer ∈ root :: order ↔ Reaches imports root importer :=
    h.search.mem_iff_reachable
  rw [h.edges_perm.mem_iff, ← hvisited]
  simp only [List.mem_flatMap, List.mem_map, Prod.mk.injEq]
  constructor
  · rintro ⟨name, hname, child, hchild, rfl, rfl⟩
    exact ⟨hname, hchild⟩
  · rintro ⟨hname, hchild⟩
    exact ⟨importer, hname, imported, hchild, rfl, rfl⟩

theorem Drawn.nodup_edges (h : Drawn imports root "" (children imports root) ⟨[root], output⟩ after
    lines order) : (lines.map TreeLine.edge).Nodup := by
  have hroot : root ∉ order := fun hmem => h.search.notMem_seen root hmem (by simp)
  rw [h.edges_perm.nodup_iff, List.nodup_flatMap]
  refine ⟨fun name _ => (children_nodup imports name).map (Prod.mk_right_injective name), ?_⟩
  refine (List.nodup_cons.mpr ⟨hroot, h.search.nodup⟩).imp fun hne edge hleft hright => ?_
  obtain ⟨_, -, rfl⟩ := List.mem_map.mp hleft
  obtain ⟨_, -, heq⟩ := List.mem_map.mp hright
  exact hne (Prod.mk.inj heq).1.symm

theorem Drawn.pairwise_edges (h : Drawn imports root "" (children imports root) ⟨[root], output⟩
    after lines order) (importer : String) :
    ((lines.map TreeLine.edge).filter fun edge => edge.1 = importer).Pairwise
      fun above below => above.2 < below.2 := by
  rw [h.search.edges_filter (by simp)]
  split
  · next heq =>
    subst heq
    exact List.pairwise_map.mpr (children_ascending imports importer)
  · split
    · exact List.pairwise_map.mpr (children_ascending imports importer)
    · exact .nil

/-- The last element of an ascending list is the greatest one. -/
theorem getLast?_iff_le {names : List String} {name : String} (h : names.Pairwise (· < ·))
    (hmem : name ∈ names) : names.getLast? = some name ↔ ∀ other ∈ names, other ≤ name := by
  obtain ⟨front, last, rfl⟩ := (List.eq_nil_or_concat' names).resolve_left (List.ne_nil_of_mem hmem)
  rw [List.getLast?_concat, Option.some.injEq]
  have hlast : ∀ other ∈ front, other < last :=
    fun other hother => (List.pairwise_append.mp h).2.2 other hother last (by simp)
  constructor
  · rintro rfl other hother
    obtain hother | hother := List.mem_append.mp hother
    · exact (hlast other hother).le
    · exact (List.mem_singleton.mp hother).le
  · intro hle
    obtain hfront | hsame := List.mem_append.mp hmem
    · exact absurd (hle last (by simp)) (not_le_of_gt (hlast name hfront))
    · exact (List.mem_singleton.mp hsame).symm

theorem Drawn.last_iff (h : Drawn imports root "" (children imports root) ⟨[root], output⟩ after
    lines order) {line : TreeLine} (hline : line ∈ lines) : line.last = true ↔
      ∀ other ∈ lines, other.importer = line.importer → other.imported ≤ line.imported := by
  obtain ⟨hreaches, hchild⟩ := h.mem_edges.mp (List.mem_map_of_mem (f := TreeLine.edge) hline)
  rw [h.last line hline, getLast?_iff_le (children_ascending imports _) hchild]
  constructor
  · intro hle other hother himporter
    refine hle _ ?_
    have hedge := h.mem_edges.mp (List.mem_map_of_mem (f := TreeLine.edge) hother)
    rw [← himporter]
    exact hedge.2
  · intro hle imported himported
    obtain ⟨other, hother, hedge⟩ := List.mem_map.mp (h.mem_edges.mpr ⟨hreaches, himported⟩)
    obtain ⟨himporter, rfl⟩ := Prod.mk.inj hedge
    exact hle other hother himporter

theorem Drawn.place_root (h : Drawn imports root "" (children imports root) ⟨[root], output⟩ after
    lines order) {front back : List TreeLine} {line : TreeLine}
    (hlines : lines = front ++ line :: back) :
    (line.importer = root → line.indent = "") ∧ (line.importer ≠ root → Below line front) := by
  obtain ⟨himporter, hindent⟩ | ⟨horder, hbelow⟩ := h.place front line back hlines
  · exact ⟨fun _ => hindent, fun hne => absurd himporter hne⟩
  · refine ⟨fun heq => ?_, fun _ => hbelow⟩
    exact absurd (by simp [heq]) (h.search.notMem_seen _ horder)

end Root

/-- The modules of a report with a root are drawn: each import of a reachable module once, the
imports of a module in ascending order, below the first line for the module with only deeper lines
between, indented by one level more than that line, the last of them marked; and after the tree,
ascending and each once, the modules that the root does not reach. -/
theorem renderModules_draws {report : InspectionReport} {root : String}
    (hroot : report.graph.rootModule = some root) :
    ∃ (lines : List TreeLine) (remaining : List String),
      renderModules report =
        some (root ++ treeText lines ++ String.join (remaining.map ("\n" ++ ·))) ∧
      (lines.map TreeLine.edge).Nodup ∧
      (∀ importer imported, (importer, imported) ∈ lines.map TreeLine.edge ↔
        Reaches report.graph.imports root importer ∧ ∃ found ∈ report.graph.imports,
          found.importer = importer ∧ found.imported = imported) ∧
      (∀ importer, ((lines.map TreeLine.edge).filter fun edge => edge.1 = importer).Pairwise
        fun above below => above.2 < below.2) ∧
      (∀ front line back, lines = front ++ line :: back →
        (line.importer = root → line.indent = "") ∧ (line.importer ≠ root → Below line front)) ∧
      (∀ line ∈ lines, line.last = true ↔
        ∀ other ∈ lines, other.importer = line.importer → other.imported ≤ line.imported) ∧
      remaining.Pairwise (· < ·) ∧
      ∀ name, name ∈ remaining ↔
        name ∈ moduleNames report ∧ ¬ Reaches report.graph.imports root name := by
  have hdepth : (fresh report.graph.imports [root]).length < report.graph.imports.length + 1 := by
    have hle := List.length_filter_le (fun name => !([root].contains name))
      (report.graph.imports.map (·.imported))
    rw [List.length_map] at hle
    exact Nat.lt_succ_of_le hle
  obtain ⟨after, hafter, -⟩ : ∃ after, renderImports report.graph.imports
      (report.graph.imports.length + 1) root "" ⟨[root], root⟩ = some after ∧
        ∃ order, after.visited = [root] ++ order := renderImports_isSome hdepth
  obtain ⟨lines, order, hdrawn⟩ := renderImports_drawn hafter
  refine ⟨lines, orderedSet ((moduleNames report).filter fun name => !after.visited.contains name),
    ?_, hdrawn.nodup_edges, fun importer imported => ?_, hdrawn.pairwise_edges,
    fun _ _ _ hlines => hdrawn.place_root hlines, fun line hline => hdrawn.last_iff hline,
    pairwise_orderedSet _, fun name => ?_⟩
  · rw [renderModules, hroot]
    dsimp only
    rw [hafter, Option.map_some, hdrawn.output]
  · rw [hdrawn.mem_edges, mem_children]
  · rw [mem_orderedSet, List.mem_filter, ← hdrawn.mem_visited]
    simp

section Sample

def sampleModule (name : String) : ModuleReport := ⟨name, name, ⟨"src/main.rs", 1, 1⟩⟩

/-- Two ways lead to one module, which leads back; and one module is not imported. -/
def sampleReport : InspectionReport where
  kind := .graph
  graph := {
    rootModule := some "App"
    modules := [sampleModule "App", sampleModule "Unused", sampleModule "Users", sampleModule "Db"]
    imports := [⟨"App", "Users"⟩, ⟨"Users", "Db"⟩, ⟨"Db", "App"⟩, ⟨"App", "Db"⟩]
    providers := []
    dependencies := []
    constructionOrder := none
    autoConfigurations := [] }
  routes := []
  checks := []
  diagnostics := []
  failed := false

example : renderModules sampleReport =
    some "App\n├── Db\n│   └── App\n└── Users\n    └── Db\nUnused" := by decide

theorem renderModules_draws_sample : ∃ (lines : List TreeLine) (remaining : List String),
    renderModules sampleReport =
      some ("App" ++ treeText lines ++ String.join (remaining.map ("\n" ++ ·))) ∧
    (lines.map TreeLine.edge).Nodup ∧
    ∃ front line back, lines = front ++ line :: back ∧ line.edge = ("Db", "App") ∧
      Below line front := by
  obtain ⟨lines, remaining, htext, hnodup, hedges, -, hplace, -⟩ :=
    renderModules_draws (show sampleReport.graph.rootModule = some "App" from rfl)
  have hreaches : Reaches sampleReport.graph.imports "App" "Db" :=
    .single (mem_children.mpr ⟨⟨"App", "Db"⟩, by decide, rfl, rfl⟩)
  have hmem : ("Db", "App") ∈ lines.map TreeLine.edge :=
    (hedges "Db" "App").mpr ⟨hreaches, ⟨"Db", "App"⟩, by decide, rfl, rfl⟩
  obtain ⟨line, hline, hedge⟩ := List.mem_map.mp hmem
  obtain ⟨front, back, hlines⟩ := List.append_of_mem hline
  have hne : line.importer ≠ "App" := by
    rw [show line.importer = "Db" from (Prod.mk.inj hedge).1]
    decide
  exact ⟨lines, remaining, htext, hnodup, front, line, back, hlines, hedge,
    (hplace front line back hlines).2 hne⟩

end Sample

/-! ### The order of a report does not matter -/

theorem orderedSet_congr {names other : List String} (h : ∀ name, name ∈ names ↔ name ∈ other) :
    orderedSet names = orderedSet other :=
  orderedSet_eq (pairwise_orderedSet other) fun name => by rw [mem_orderedSet, h]

theorem children_congr {other : List ModuleImportReport} (h : imports.Perm other) :
    children imports = children other := by
  funext importer
  exact orderedSet_congr fun name => (((h.filter _).map _).mem_iff)

theorem renderImports_congr {other : List ModuleImportReport} (h : imports.Perm other) (depth : ℕ) :
    renderImports imports depth = renderImports other depth := by
  induction depth with
  | zero => rfl
  | succ depth ih =>
    funext importer indent drawing
    rw [renderImports, renderImports, ih, children_congr h]

/-- Two reports say the same, in orders of their own. -/
structure SameContent (report other : InspectionReport) : Prop where
  kind : report.kind = other.kind
  rootModule : report.graph.rootModule = other.graph.rootModule
  modules : report.graph.modules.Perm other.graph.modules
  imports : report.graph.imports.Perm other.graph.imports
  providers : report.graph.providers.Perm other.graph.providers
  dependencies : report.graph.dependencies.Perm other.graph.dependencies
  constructionOrder : report.graph.constructionOrder = other.graph.constructionOrder
  routes : report.routes.Perm other.routes
  checks : report.checks.Perm other.checks
  diagnostics : report.diagnostics.Perm other.diagnostics
  failed : report.failed = other.failed

/-- The entries of a list are told apart by what they are sorted by. -/
def DistinguishedBy {α : Type} (order : α → α → Ordering) (entries : List α) : Prop :=
  ∀ x ∈ entries, ∀ y ∈ entries, order x y = .eq → x = y

instance transCmp_routeReportOrder : Std.TransCmp routeReportOrder :=
  inferInstanceAs (Std.TransCmp (compareLex _ _))

instance transCmp_dependencyOrder : Std.TransCmp dependencyOrder :=
  inferInstanceAs (Std.TransCmp (compareLex _ _))

instance transCmp_checkOrder : Std.TransCmp checkOrder :=
  inferInstanceAs (Std.TransCmp (compareLex _ _))

instance transCmp_diagnosticOrder : Std.TransCmp diagnosticOrder :=
  have := transCmp_on optionLocationOrder DiagnosticReport.location
  inferInstanceAs (Std.TransCmp (compareLex _ _))

variable {report other : InspectionReport}

theorem renderModules_congr (h : SameContent report other) :
    renderModules report = renderModules other := by
  have hnames (keep : String → Bool) (name : String) :
      name ∈ (moduleNames report).filter keep ↔ name ∈ (moduleNames other).filter keep :=
    ((h.modules.map _).filter keep).mem_iff
  have hmodules : orderedSet (moduleNames report) = orderedSet (moduleNames other) :=
    orderedSet_congr fun name => (h.modules.map _).mem_iff
  unfold renderModules
  rw [h.rootModule, hmodules, renderImports_congr h.imports, h.imports.length_eq]
  split
  · rfl
  · congr 1
    funext drawing
    dsimp only
    rw [orderedSet_congr (hnames _)]

theorem dependencyOrder_eq {left right : DependencyReport}
    (h : dependencyOrder left right = .eq) : left = right := by
  obtain ⟨provider, dependency⟩ := left
  obtain ⟨provider', dependency'⟩ := right
  simpa [dependencyOrder, compareLex_eq_eq, compareOn] using h

theorem renderGraph_congr (h : SameContent report other)
    (hproviders : DistinguishedBy (compareOn (·.typeName)) report.graph.providers) :
    renderGraph report = renderGraph other := by
  have hprovidersText : renderProviders report.graph.providers =
      renderProviders other.graph.providers := by
    rw [renderProviders, renderProviders, sortBy_eq_of_perm _ h.providers hproviders]
  have hdependenciesText : renderDependencies report.graph.dependencies =
      renderDependencies other.graph.dependencies := by
    rw [renderDependencies, renderDependencies,
      sortBy_eq_of_perm _ h.dependencies fun _ _ _ _ => dependencyOrder_eq]
  rw [renderGraph, renderGraph, renderModules_congr h, hprovidersText, hdependenciesText,
    h.constructionOrder]

/-- What is shown of a report, and how the command exits, does not depend on the order in which the
application lists what it reports, as long as no two entries are sorted alike. -/
theorem renderInspectionReport_congr (h : SameContent report other)
    (hproviders : DistinguishedBy (compareOn (·.typeName)) report.graph.providers)
    (hroutes : DistinguishedBy routeReportOrder report.routes)
    (hchecks : DistinguishedBy checkOrder report.checks)
    (hdiagnostics : DistinguishedBy diagnosticOrder report.diagnostics) :
    renderInspectionReport report = renderInspectionReport other := by
  have hroutesText : renderRoutes report = renderRoutes other := by
    rw [renderRoutes, renderRoutes, sortBy_eq_of_perm _ h.routes hroutes]
  have hdoctorText : renderDoctor report = renderDoctor other := by
    rw [renderDoctor, renderDoctor, sortBy_eq_of_perm _ h.checks hchecks]
  have hdiagnosticsText : renderDiagnostics report = renderDiagnostics other := by
    rw [renderDiagnostics, renderDiagnostics, sortBy_eq_of_perm _ h.diagnostics hdiagnostics]
  rw [renderInspectionReport, renderInspectionReport, h.kind, hroutesText, hdoctorText,
    hdiagnosticsText, renderGraph_congr h hproviders, h.failed]

section Sample

def sampleRoute (method : String) : RouteReport where
  method := method
  path := "/users"
  routeTrait := "UserRoutes"
  handler := "handle"
  controller := "UserController"
  location := ⟨"src/users.rs", 4, 1⟩
  guardActive := false

def sampleProvider (typeName : String) : ProviderReport :=
  ⟨typeName, some "Users", "declared", "module", "selected", none⟩

/-- One path with two methods, and two providers of one module. -/
def sampleRouted : InspectionReport :=
  { sampleReport with
    graph := { sampleReport.graph with
      providers := [sampleProvider "Repository", sampleProvider "Mailer"] }
    routes := [sampleRoute "POST", sampleRoute "GET"] }

def sampleReordered : InspectionReport :=
  { sampleRouted with
    graph := { sampleRouted.graph with
      modules := sampleReport.graph.modules.reverse
      imports := sampleReport.graph.imports.reverse
      providers := sampleRouted.graph.providers.reverse }
    routes := sampleRouted.routes.reverse }

theorem renderInspectionReport_congr_sample :
    renderInspectionReport sampleRouted = renderInspectionReport sampleReordered :=
  renderInspectionReport_congr
    ⟨rfl, rfl, (List.reverse_perm _).symm, (List.reverse_perm _).symm, (List.reverse_perm _).symm,
      .nil, rfl, (List.reverse_perm _).symm, .nil, .nil, rfl⟩
    (by unfold DistinguishedBy; decide) (by unfold DistinguishedBy; decide) (fun _ h => by cases h)
    fun _ h => by cases h

end Sample

end Render

end Mads.Inspection
