import Mads.Base

/-!
# Static metadata of Passport guards
-/

namespace Mads

def MADS130 : DiagnosticCode := ⟨"MADS130"⟩
def MADS131 : DiagnosticCode := ⟨"MADS131"⟩

inductive TokenSource where
  | bearer
  | cookie (name : String)
  deriving DecidableEq, Repr

inductive PolicyMode where
  | any
  | all
  deriving DecidableEq, Repr

structure PolicyClause where
  mode : PolicyMode
  values : List String
  deriving DecidableEq, Repr

structure GuardPredicate where
  name : String
  adapter : Option FnPtr
  deriving DecidableEq, Repr

/-- One effective route guard. Descriptors are static, so they are told apart by address. -/
structure GuardDescriptor where
  address : ℕ
  routeTrait : String
  handler : String
  requirementSubject : String := "manual Passport guard"
  namespace_ : Option String := none
  strategy : String
  principalTypeId : Option TypeId
  principalTypeName : Option String
  source : TokenSource
  roles : Option PolicyClause
  permissions : Option PolicyClause
  predicates : List GuardPredicate
  location : SourceLocation
  builtinAdapter : Option FnPtr
  deriving DecidableEq, Repr

namespace Guard

/-- Guards are compared by route trait, handler, namespace and location. -/
def guardOrder : GuardDescriptor → GuardDescriptor → Ordering :=
  compareLex (compareLex (compareLex (compareOn (·.routeTrait)) (compareOn (·.handler)))
    (compareOn (·.namespace_)))
    (fun left right => locationOrder left.location right.location)

def validStrategyName (value : String) : Bool :=
  value ≠ "" && value.toList.all (fun c => c.isLower || c.isDigit || c ∈ "._-".toList)

def validCookieName (value : String) : Bool :=
  value ≠ "" && value.toList.all (fun c => c.isAlphanum ||
    c ∈ "!#$%&'*+-.^_`|~".toList)

/-- `char::is_control`. -/
def isControl (c : Char) : Bool := c.toNat < 32 || (127 ≤ c.toNat && c.toNat < 160)

def metadataError (guard : GuardDescriptor) (message : String) : Error where
  primary :=
    { code := MADS131
      title := "invalid Passport guard metadata"
      message
      subject := some (guard.routeTrait ++ "::" ++ guard.handler)
      location := some guard.location
      suggestions := ["correct the guard metadata before starting the application"] }

def invalidClause (clause : PolicyClause) : Bool :=
  clause.values.isEmpty || clause.values.any (fun value => value = "" || value.toList.any isControl)

def validateGuard (guard : GuardDescriptor) : Run Error Unit := do
  if guard.routeTrait = "" || guard.handler = "" then
    Run.fail (metadataError guard "route trait and handler names must be present")
  if !validStrategyName guard.strategy then
    Run.fail (metadataError guard
      "guard strategy name must be non-empty lowercase ASCII `[a-z0-9._-]`")
  if guard.principalTypeId.isNone || guard.principalTypeName.all (· = "") then
    Run.fail (metadataError guard "guard principal type metadata must be present")
  match guard.source with
  | .bearer => pure ()
  | .cookie name =>
    if !validCookieName name then
      Run.fail (metadataError guard
        "guard cookie token source must use a non-empty RFC cookie name")
  for (label, clause) in [("roles", guard.roles), ("permissions", guard.permissions)] do
    if clause.any invalidClause then
      Run.fail (metadataError guard ("guard " ++ label ++ " policy must contain non-empty values"))
  if guard.predicates.any (fun predicate => predicate.name = "" || predicate.adapter.isNone) then
    Run.fail (metadataError guard "guard predicates must have a name and generated adapter")
  if guard.location.file = "" || guard.location.line = 0 || guard.location.column = 0 then
    Run.fail (metadataError guard "guard source file, line, and column must be present")

/-- Validates the guards in turn, up to the first that is not valid. -/
def validateDescriptors (descriptors : List GuardDescriptor) : Run Error Unit :=
  descriptors.forM validateGuard

end Guard

/-- The linked guards in a fixed order. -/
def GuardCatalog.guards (registered : List GuardDescriptor) : List GuardDescriptor :=
  sortBy Guard.guardOrder registered

end Mads
