import Mads.Common.HttpScope
import Mads.Library.Text

/-!
# Validation of the routes of an application
-/

namespace Mads

open Text

def MADS030 : DiagnosticCode := ⟨"MADS030"⟩

def HttpMethod.asStr : HttpMethod → String
  | .get => "GET"
  | .post => "POST"
  | .put => "PUT"
  | .patch => "PATCH"
  | .delete => "DELETE"

namespace Route

def metadataDiagnostic (subject message : String) (location : Option SourceLocation) :
    Diagnostic where
  code := MADS030
  title := "invalid route metadata"
  message
  subject := some subject
  location
  suggestions := ["correct the route metadata before starting the HTTP runtime"]

def metadataError (subject message : String) (location : Option SourceLocation) : Error :=
  ⟨metadataDiagnostic subject message location, [], none⟩

/-! ### Paths -/

/-- `char::is_whitespace`. -/
def isWhitespace (c : Char) : Bool :=
  let code := c.toNat
  (9 ≤ code && code ≤ 13) || code ∈ [0x20, 0x85, 0xA0, 0x1680, 0x2028, 0x2029, 0x202F, 0x205F,
    0x3000] || (0x2000 ≤ code && code ≤ 0x200A)

def pathError (subject message : String) (location : SourceLocation) : Error :=
  metadataError subject (subject ++ " " ++ message) (some location)

/-- A parameter name is an identifier, and new. -/
def validateParameter (subject : String) (location : SourceLocation) (parameters : List String)
    (parameter : String) : Run Error (List String) :=
  match parameter.toList with
  | [] => Run.fail (pathError subject "contains an empty parameter" location)
  | first :: rest => do
    Run.ensure ((first = '_' ∨ first.isAlpha) ∧ rest.all (fun c => c = '_' || c.isAlphanum))
      (pathError subject "parameters must use `[A-Za-z_][A-Za-z0-9_]*`" location)
    Run.ensure (parameter ∉ parameters)
      (pathError subject ("must not repeat parameter `:" ++ parameter ++ "`") location)
    pure (parameter :: parameters)

/-- One segment, after those with some parameters. -/
def validateSegment (subject : String) (location : SourceLocation) (parameters : List String)
    (segment : String) : Run Error (List String) := do
  Run.ensure (segment ≠ "" ∧ segment ≠ "." ∧ segment ≠ "..")
    (pathError subject "must not contain empty, `.` or `..` segments" location)
  Run.ensure (segment.toList.head? ≠ some '*' ∧ '\x7b' ∉ segment.toList ∧ '\x7d' ∉ segment.toList)
    (pathError subject
      "must not use Axum wildcard or brace-capture syntax; use `:parameter` captures" location)
  match Text.stripPrefix segment ":" with
  | some parameter => validateParameter subject location parameters parameter
  | none => do
    Run.ensure (':' ∉ segment.toList)
      (pathError subject "parameters must occupy an entire path segment" location)
    pure parameters

def validatePath (value : String) (isPrefix : Bool) (subject : String) (location : SourceLocation) :
    Run Error Unit := do
  if isPrefix ∧ value = "" then
    pure ()
  else
    Run.ensure (value.toList.head? = some '/')
      (pathError subject "must be non-empty and start with `/`" location)
    Run.ensure ('?' ∉ value.toList ∧ '#' ∉ value.toList)
      (pathError subject "must not contain a query string or fragment" location)
    Run.ensure (¬ value.toList.any Guard.isControl)
      (pathError subject "must not contain control characters" location)
    Run.ensure ('\\' ∉ value.toList ∧ '%' ∉ value.toList ∧ ¬ value.toList.any isWhitespace)
      (pathError subject "must not contain backslashes, percent-encoding, or whitespace" location)
    Run.ensure (value = "/" ∨ value.toList.getLast? ≠ some '/')
      (pathError subject "must not end with `/`; use `/` only for the root route" location)
    if value = "/" then
      pure ()
    else
      let _ ← ((split value '/').drop 1).foldlM (validateSegment subject location) []
      Run.ensure (¬ (isPrefix ∧ ':' ∈ value.toList)) (metadataError subject
        "route prefix must not contain parameters; declare them on the endpoint path"
        (some location))

def canonicalJoin (front path : String) : String :=
  if front = "" ∨ front = "/" then path
  else if path = "/" then front
  else front ++ path

def validateSourceLocation (location : SourceLocation) : Run Error Unit :=
  Run.ensure (location.file ≠ "" ∧ location.line ≠ 0 ∧ location.column ≠ 0)
    (metadataError "route source location" "route source file, line, and column must be present"
      none)

def validateRoute (route : RouteDescriptor) : Run Error Unit := do
  validatePath route.pathPrefix true "route prefix" route.location
  validatePath route.path false "route path" route.location
  validatePath route.fullPath false "route full path" route.location
  Run.ensure (canonicalJoin route.pathPrefix route.path = route.fullPath)
    (metadataError (route.method.asStr ++ " " ++ route.fullPath)
      "route full path does not match the canonical prefix and endpoint join" (some route.location))
  validateSourceLocation route.location

/-- A segment without the name of its parameter. -/
def canonicalSegment (segment : String) : String :=
  match Text.stripPrefix segment ":" with
  | some _ => ":*"
  | none => segment

def canonicalPattern (path : String) : String :=
  "/".intercalate ((split path '/').map canonicalSegment)

def axumSegment (segment : String) : String :=
  match Text.stripPrefix segment ":" with
  | some parameter => "\x7b" ++ parameter ++ "\x7d"
  | none => segment

def toAxumPath (path : String) : String :=
  "/".intercalate ((split path '/').map axumSegment)

/-! ### Controllers -/

def controllerLocation (controller : ControllerRouteDescriptor) : Option SourceLocation :=
  controller.contracts.findSome? (fun contract => contract.routes.head?.map (·.location))

/-- Controllers are compared by type name, namespace and the location of their first route. -/
def controllerSortOrder : ControllerRouteDescriptor → ControllerRouteDescriptor → Ordering :=
  compareLex (compareLex (compareOn (·.typeName)) (compareOn (·.namespace_)))
    (fun left right => locationOrder ((controllerLocation left).getD ⟨"", 0, 0⟩)
      ((controllerLocation right).getD ⟨"", 0, 0⟩))

def duplicateControllerIdentity (subject : String) (current previous : ControllerRouteDescriptor) :
    Error :=
  Error.fromDiagnostics
    (metadataDiagnostic subject ("`" ++ current.typeName ++
      "` conflicts with previously registered controller `" ++ previous.typeName ++ "`")
      (controllerLocation current))
    [metadataDiagnostic "first controller declaration"
      "the conflicting controller was first declared here" (controllerLocation previous)]

def validateControllerIdentity (controller : ControllerRouteDescriptor)
    (previous : List ControllerRouteDescriptor) : Run Error Unit := do
  Run.ensure (controller.typeName ≠ "") (metadataError "controller identity"
    "controller type name must not be empty" (controllerLocation controller))
  previous.forM fun earlier => do
    Run.ensure (earlier.typeId ≠ controller.typeId)
      (duplicateControllerIdentity "controller type identifier" controller earlier)
    Run.ensure (earlier.typeName ≠ controller.typeName)
      (duplicateControllerIdentity "controller type name" controller earlier)

/-- One contract, after those with some names. -/
def validateContractName (controller : ControllerRouteDescriptor) (names : List String)
    (contract : RouteContractDescriptor) : Run Error (List String) := do
  Run.ensure (contract.traitName ≠ "") (metadataError controller.typeName
    "route contract name must not be empty" (controllerLocation controller))
  Run.ensure (contract.routes ≠ []) (metadataError contract.traitName
    "route contract must declare at least one active route" (controllerLocation controller))
  Run.ensure (contract.traitName ∉ names) (metadataError contract.traitName
    "controller contains a duplicate route contract descriptor" (controllerLocation controller))
  pure (contract.traitName :: names)

def validateContract (controller : ControllerRouteDescriptor) : Run Error Unit := do
  Run.ensure (controller.contracts ≠ []) (metadataError controller.typeName
    "controller must declare at least one route contract" (controllerLocation controller))
  let _ ← controller.contracts.foldlM (validateContractName controller) []
  pure ()

/-! ### Selected routes -/

structure RouteSelection where
  selected : Bool
  passportContextModule : Option TypeId := none

structure ValidatedRoute where
  method : HttpMethod
  handler : String
  selected : Bool
  axumPath : Option String
  passportContextModule : Option TypeId

structure ValidatedController where
  registrar : FnPtr
  routes : List ValidatedRoute

/-- The first route of each method and pattern, with its controller. -/
abbrev SeenRoutes := List ((HttpMethod × String) × (String × RouteDescriptor))

def conflictingRoutes (controller : String) (route : RouteDescriptor) (previousController : String)
    (previousRoute : RouteDescriptor) (scope : String) : Error :=
  let name := route.method.asStr ++ " " ++ route.fullPath
  Error.fromDiagnostics
    { code := MADS030
      title := "conflicting routes"
      message := name ++ " is declared by both `" ++ previousController ++ "` and `" ++
        controller ++ "` in `" ++ scope ++ "`"
      subject := some name
      location := some route.location
      suggestions := ["use a unique HTTP method and canonical path for each controller route"] }
    [{ code := MADS030
       title := "first route declaration"
       message := "the conflicting route was first declared here"
       subject := some previousController
       location := some previousRoute.location }]

def validateSelected (controller : ControllerRouteDescriptor) (seen : SeenRoutes)
    (route : RouteDescriptor) : Run Error SeenRoutes := do
  validateRoute route
  let key := (route.method, canonicalPattern route.fullPath)
  match seen.lookup key with
  | some (previousController, previousRoute) => Run.fail (conflictingRoutes controller.typeName
      route previousController previousRoute "application")
  | none => pure (seen ++ [(key, (controller.typeName, route))])

def validatedRoute (selection : RouteSelection) (route : RouteDescriptor) : ValidatedRoute where
  method := route.method
  handler := route.handler
  selected := selection.selected
  axumPath := if selection.selected then some (toAxumPath route.fullPath) else none
  passportContextModule := selection.passportContextModule

section

variable (selectionFor : ControllerRouteDescriptor → RouteDescriptor → RouteSelection)

def validateControllerRoute (controller : ControllerRouteDescriptor)
    (state : SeenRoutes × List ValidatedRoute) (route : RouteDescriptor) :
    Run Error (SeenRoutes × List ValidatedRoute) := do
  let selection := selectionFor controller route
  let seen ← if selection.selected then validateSelected controller state.1 route else pure state.1
  pure (seen, state.2 ++ [validatedRoute selection route])

structure Validation where
  identities : List ControllerRouteDescriptor := []
  seenRoutes : SeenRoutes := []
  validated : List ValidatedController := []

def validateController (state : Validation) (controller : ControllerRouteDescriptor) :
    Run Error Validation := do
  validateControllerIdentity controller state.identities
  validateContract controller
  let registrar ← Run.okOr controller.registrar (metadataError controller.typeName
    "controller metadata does not include a typed HTTP registrar" (controllerLocation controller))
  let (seenRoutes, routes) ← (controller.contracts.flatMap (·.routes)).foldlM
    (validateControllerRoute selectionFor controller) (state.seenRoutes, [])
  pure
    { identities := state.identities ++ [controller]
      seenRoutes
      validated := state.validated ++ [⟨registrar, routes⟩] }

def validateWithSelection (descriptors : List ControllerRouteDescriptor) :
    Run Error (List ValidatedController) := do
  let state ← (sortBy controllerSortOrder descriptors).foldlM (validateController selectionFor) {}
  pure state.validated

end

/-- What the scope selects of a route. Descriptors are static, and those that are equal are selected
alike. -/
def scopedSelection (descriptors : List ScopedController) (controller : ControllerRouteDescriptor)
    (route : RouteDescriptor) : RouteSelection :=
  match descriptors.find? (fun kept => kept.descriptor = controller) with
  | none => ⟨false, none⟩
  | some kept =>
    let selected := kept.selects route
    ⟨selected, if selected then kept.passportContextModule route else none⟩

def validateScopedDescriptors (descriptors : List ScopedController) :
    Run Error (List ValidatedController) :=
  validateWithSelection (scopedSelection descriptors) (descriptors.map (·.descriptor))

end Route

end Mads
