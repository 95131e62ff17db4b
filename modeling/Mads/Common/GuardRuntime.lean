import Mads.Common.PassportContext
import Mads.Common.Strategy
import Mads.Library.ShortCircuit

/-!
# Guards at request time

A route is guarded by the layer that the macro generates, or by a layer built by hand. Code that
application authors write, such as a predicate, may read and change a world of its own.
-/

namespace Mads

/-- An application identity that answers policies. -/
class PassportPrincipal (α : Type) where
  hasRole : α → String → Bool
  hasPermission : α → String → Bool

/-- A principal of some type, known by its answers only. -/
structure DynPrincipal where
  hasRole : String → Bool
  hasPermission : String → Bool

/-- A value behind `Arc<dyn Any>`. -/
structure AnyArc (Val : TypeId → Type) where
  typeId : TypeId
  value : Val typeId

def AnyArc.downcast {Val : TypeId → Type} (any : AnyArc Val) (typeId : TypeId) :
    Option (Val typeId) :=
  if h : any.typeId = typeId then some (h ▸ any.value) else none

@[simp] theorem AnyArc.downcast_self {Val : TypeId → Type} (typeId : TypeId) (value : Val typeId) :
    (AnyArc.mk typeId value).downcast typeId = some value :=
  dif_pos rfl

/-- The typed values that guards and extractors share, by their types. `Verified` has the verified
tokens of each type of claims. -/
structure Extensions (Val Verified : TypeId → Type) where
  authenticated : ∀ principal, Option (Val principal)
  verifiedToken : ∀ claims, Option (Verified claims)

structure Request (Val Verified : TypeId → Type) where
  metadata : RequestMetadata
  extensions : Extensions Val Verified

/-! ### Authentications -/

section Erased

variable {Val Verified : TypeId → Type}

/-- The result of a strategy, with the type arguments that its installer was made with. -/
structure ErasedAuthentication (Val Verified : TypeId → Type) where
  principal : DynPrincipal
  exactPrincipal : AnyArc Val
  exactVerified : AnyArc Verified
  installExtensions : TypeId × TypeId

namespace ErasedAuthentication

def new (P : TypeId) [PassportPrincipal (Val P)] (principal : Val P) (C : TypeId)
    (verified : Verified C) : ErasedAuthentication Val Verified where
  principal := ⟨PassportPrincipal.hasRole principal, PassportPrincipal.hasPermission principal⟩
  exactPrincipal := ⟨P, principal⟩
  exactVerified := ⟨C, verified⟩
  installExtensions := (P, C)

variable (authentication : ErasedAuthentication Val Verified)

def principalAs (P : TypeId) : Option (Val P) := authentication.exactPrincipal.downcast P

def verifiedAs (C : TypeId) : Option (Verified C) := authentication.exactVerified.downcast C

def installTypedExtensions (P C : TypeId) (extensions : Extensions Val Verified) :
    Bool × Extensions Val Verified :=
  match authentication.principalAs P with
  | none => (false, extensions)
  | some principal =>
    match authentication.verifiedAs C with
    | none => (false, extensions)
    | some verified => (true,
        { authenticated := Function.update extensions.authenticated P (some principal)
          verifiedToken := Function.update extensions.verifiedToken C (some verified) })

def install (extensions : Extensions Val Verified) : Bool × Extensions Val Verified :=
  authentication.installTypedExtensions authentication.installExtensions.1
    authentication.installExtensions.2 extensions

end ErasedAuthentication

/-- The code of the application: what strategies do, and what the predicate adapters of the macros
do. -/
structure GuardCode (Val Verified : TypeId → Type) (Jar σ : Type) where
  strategy : FnPtr → PassportContext Jar → String → σ →
    Run PassportError (ErasedAuthentication Val Verified) × σ
  predicate : FnPtr → ErasedAuthentication Val Verified → σ → Bool × σ

/-- What a layer makes of a request that it may change. -/
structure Authorized (Val Verified : TypeId → Type) (σ : Type) where
  result : Run PassportError Unit
  request : Request Val Verified
  world : σ

variable {Cookie Jar σ : Type} (library : CookieLibrary Cookie Jar)

/-- Takes the credential out of a request and runs the strategy on it. -/
def authenticate (code : GuardCode Val Verified Jar σ) (source : TokenSource) (adapter : FnPtr)
    (metadata : RequestMetadata) (world : σ) :
    Run PassportError (ErasedAuthentication Val Verified) × σ :=
  match authenticateRequest library source
      (fun context token => .ok (code.strategy adapter context token)) metadata with
  | .ok run => run world
  | .error halt => (.error halt, world)

/-! ### The generated layer -/

def matchesClause (clause : Option PolicyClause) (holds : String → Bool) : Bool :=
  match clause with
  | none => true
  | some clause =>
    match clause.mode with
    | .any => clause.values.any holds
    | .all => clause.values.all holds

/-- Calls the adapter of a predicate, if there is one. -/
def GuardPredicate.ask (code : GuardCode Val Verified Jar σ)
    (authentication : ErasedAuthentication Val Verified) (predicate : GuardPredicate) (world : σ) :
    Bool × σ :=
  match predicate.adapter with
  | none => (false, world)
  | some adapter => code.predicate adapter authentication world

def authorizes (code : GuardCode Val Verified Jar σ) (guard : GuardDescriptor)
    (authentication : ErasedAuthentication Val Verified) (world : σ) : Bool × σ :=
  if !matchesClause guard.roles authentication.principal.hasRole ||
      !matchesClause guard.permissions authentication.principal.hasPermission then
    (false, world)
  else askAll (GuardPredicate.ask code authentication) guard.predicates world

structure PassportGuardState where
  guard : GuardDescriptor
  adapter : FnPtr

def PassportGuardState.fromBinding (binding : PassportStrategyBinding) : PassportGuardState where
  guard := binding.guard
  adapter := binding.adapter

def PassportGuardState.authorize (code : GuardCode Val Verified Jar σ) (state : PassportGuardState)
    (request : Request Val Verified) (world : σ) : Authorized Val Verified σ :=
  match authenticate library code state.guard.source state.adapter request.metadata world with
  | (.error halt, world) => ⟨.error halt, request, world⟩
  | (.ok authentication, world) =>
    match authorizes code state.guard authentication world with
    | (false, world) => ⟨Run.fail .forbidden, request, world⟩
    | (true, world) =>
      match authentication.install request.extensions with
      | (false, extensions) => ⟨Run.fail (.internal "guard authentication type binding failed"),
          { request with extensions }, world⟩
      | (true, extensions) => ⟨.ok (), { request with extensions }, world⟩

/-! ### The native layer -/

structure NativePolicyClause where
  mode : PolicyMode
  values : List String

def matchesNativeClause (clause : Option NativePolicyClause) (holds : String → Bool) : Bool :=
  match clause with
  | none => true
  | some clause =>
    match clause.mode with
    | .any => clause.values.any holds
    | .all => clause.values.all holds

/-- The native layer for principals of one type. -/
structure NativePassportGuardState (σ α : Type) where
  source : TokenSource
  adapter : FnPtr
  roles : Option NativePolicyClause
  permissions : Option NativePolicyClause
  predicates : List (α → σ → Bool × σ)

def NativePassportGuardState.authorize {P : TypeId} [PassportPrincipal (Val P)]
    (code : GuardCode Val Verified Jar σ) (state : NativePassportGuardState σ (Val P))
    (request : Request Val Verified) (world : σ) : Authorized Val Verified σ :=
  match authenticate library code state.source state.adapter request.metadata world with
  | (.error halt, world) => ⟨.error halt, request, world⟩
  | (.ok authentication, world) =>
    match authentication.principalAs P with
    | none => ⟨Run.fail (.internal "native guard authentication type binding failed"), request,
        world⟩
    | some principal =>
      if !matchesNativeClause state.roles (PassportPrincipal.hasRole principal) ||
          !matchesNativeClause state.permissions (PassportPrincipal.hasPermission principal) then
        ⟨Run.fail .forbidden, request, world⟩
      else
        match askAll (fun predicate => predicate principal) state.predicates world with
        | (false, world) => ⟨Run.fail .forbidden, request, world⟩
        | (true, world) =>
          match authentication.install request.extensions with
          | (false, extensions) =>
            ⟨Run.fail (.internal "native guard authentication type binding failed"),
              { request with extensions }, world⟩
          | (true, extensions) => ⟨.ok (), { request with extensions }, world⟩

end Erased

/-! ### The builder of native layers -/

def Strategy.resolveGuard (strategies : List PassportStrategyDescriptor) (guard : GuardDescriptor) :
    Run Error PassportStrategyBinding :=
  match strategies.find? (fun strategy => strategy.name = guard.strategy) with
  | some strategy => resolveCustomStrategy guard strategy
  | none => resolveBuiltinOrMissing guard

/-- Resolves a strategy out of the complete catalog for each guard. -/
def PassportStrategyCatalog.preflight (inventory : Inventory)
    (registered : List PassportStrategyDescriptor) (guards : List GuardDescriptor) :
    Run Error (List PassportStrategyBinding) := do
  Guard.validateDescriptors guards
  let strategies := strategies registered
  Strategy.validateStrategyCatalog (Catalog.providers inventory) strategies
  (sortBy Guard.guardOrder guards).mapM (Strategy.resolveGuard strategies)

structure PassportGuardBuilder (σ α : Type) where
  strategy : Option String := none
  source : TokenSource := .bearer
  roles : Option NativePolicyClause := none
  permissions : Option NativePolicyClause := none
  predicates : List (α → σ → Bool × σ) := []
  builtinAdapter : Option FnPtr := none

def nativeGuardError (message : String) : Error where
  primary := ((⟨MADS131, "invalid native Passport guard", message, none, none, []⟩ :
    Diagnostic).withSubject "native Axum PassportGuard").withLocation
      ⟨"native Axum PassportGuard", 1, 1⟩

def validateNativePolicy (clause : Option NativePolicyClause) (label : String) :
    Run Error Unit :=
  match clause with
  | none => pure ()
  | some clause =>
    if clause.values.isEmpty ||
        clause.values.any (fun value => value = "" || value.toList.any Guard.isControl) then
      Run.fail (nativeGuardError ("native guard " ++ label ++
        " policy must contain non-empty values without control characters"))
    else pure ()

namespace PassportGuardBuilder

variable {σ α : Type} (builder : PassportGuardBuilder σ α)

def rolesAny (values : List String) : PassportGuardBuilder σ α :=
  { builder with roles := some ⟨.any, values⟩ }

def rolesAll (values : List String) : PassportGuardBuilder σ α :=
  { builder with roles := some ⟨.all, values⟩ }

def permissionsAny (values : List String) : PassportGuardBuilder σ α :=
  { builder with permissions := some ⟨.any, values⟩ }

def permissionsAll (values : List String) : PassportGuardBuilder σ α :=
  { builder with permissions := some ⟨.all, values⟩ }

def predicate (predicate : α → σ → Bool × σ) : PassportGuardBuilder σ α :=
  { builder with predicates := builder.predicates ++ [predicate] }

/-- The descriptor that stands for the layer in the preflight. -/
def descriptor (principalTypeId : TypeId) (principalTypeName strategy : String) :
    GuardDescriptor where
  address := 0
  routeTrait := "native Axum"
  handler := "PassportGuard"
  strategy
  principalTypeId := some principalTypeId
  principalTypeName := some principalTypeName
  source := builder.source
  roles := none
  permissions := none
  predicates := []
  location := ⟨"native Axum PassportGuard", 1, 1⟩
  builtinAdapter := builder.builtinAdapter

/-- The layer of a builder whose strategy has an adapter. -/
def state (adapter : FnPtr) : NativePassportGuardState σ α where
  source := builder.source
  adapter
  roles := builder.roles
  permissions := builder.permissions
  predicates := builder.predicates

def build (inventory : Inventory) (registered : List PassportStrategyDescriptor)
    (serviceAvailable : Bool) (principalTypeId : TypeId) (principalTypeName : String) :
    Run Error (NativePassportGuardState σ α) := do
  let strategy ← Run.okOr builder.strategy (nativeGuardError
    "native Passport guards require a strategy selected with `strategy`")
  validateNativePolicy builder.roles "roles"
  validateNativePolicy builder.permissions "permissions"
  let descriptor := builder.descriptor principalTypeId principalTypeName strategy
  let preflight ← PassportStrategyCatalog.preflight inventory registered [descriptor]
  let binding ← Run.expect (preflight.find? (fun binding =>
      binding.guard.address = descriptor.address ∧ binding.contextModule = none))
    "native guard preflight must retain the requested descriptor"
  Run.ensure serviceAvailable (nativeGuardError
    "native Passport guards require an available JwtService")
  pure (builder.state binding.adapter)

end PassportGuardBuilder

/-! ### What the macro emits -/

/-- A predicate as it is written in a guard attribute, and the function that the path names. -/
structure PredicatePath (σ α : Type) where
  path : String
  function : α → σ → Bool × σ

/-- A completely resolved route guard. -/
structure EffectiveGuard (σ α : Type) where
  strategy : String
  source : TokenSource
  roles : Option PolicyClause
  permissions : Option PolicyClause
  predicates : List (PredicatePath σ α)

/-- Where an expansion stands, and the addresses of what it emits. -/
structure Expansion where
  address : ℕ
  routeTrait : String
  handler : String
  namespace_ : String
  principalTypeId : TypeId
  principalTypeName : String
  location : SourceLocation
  predicateAdapter : ℕ → FnPtr
  builtinAdapter : Option FnPtr

def EffectiveGuard.staticTokens {σ α : Type} (guard : EffectiveGuard σ α) (expansion : Expansion) :
    GuardDescriptor where
  address := expansion.address
  routeTrait := expansion.routeTrait
  handler := expansion.handler
  requirementSubject := expansion.routeTrait ++ "::" ++ expansion.handler
  namespace_ := some expansion.namespace_
  strategy := guard.strategy
  principalTypeId := some expansion.principalTypeId
  principalTypeName := some expansion.principalTypeName
  source := guard.source
  roles := guard.roles
  permissions := guard.permissions
  predicates := guard.predicates.mapIdx (fun index predicate =>
    ⟨predicate.path, some (expansion.predicateAdapter index)⟩)
  location := expansion.location
  builtinAdapter := expansion.builtinAdapter

/-- The adapter of one predicate. -/
def predicateAdapter {Val Verified : TypeId → Type} {σ : Type} {P : TypeId}
    (function : Val P → σ → Bool × σ) (authentication : ErasedAuthentication Val Verified)
    (world : σ) : Bool × σ :=
  match authentication.principalAs P with
  | none => (false, world)
  | some principal => function principal world

/-- The same policy, given to a builder. -/
def EffectiveGuard.native {σ α : Type} (guard : EffectiveGuard σ α) : PassportGuardBuilder σ α :=
  let builder : PassportGuardBuilder σ α := { strategy := some guard.strategy, source := guard.source }
  let builder := match guard.roles with
    | none => builder
    | some ⟨.any, values⟩ => builder.rolesAny values
    | some ⟨.all, values⟩ => builder.rolesAll values
  let builder := match guard.permissions with
    | none => builder
    | some ⟨.any, values⟩ => builder.permissionsAny values
    | some ⟨.all, values⟩ => builder.permissionsAll values
  guard.predicates.foldl (fun builder predicate => builder.predicate predicate.function) builder

/-! ### Requests -/

/-- A response to a request. -/
structure Response where
  status : ℕ
  wwwAuthenticate : Option String
  body : String
  deriving DecidableEq, Repr

def PassportRejection.intoResponse : PassportErrorKind → Response
  | .rejected => ⟨401, some "Bearer", "Unauthorized"⟩
  | .forbidden => ⟨403, none, "Forbidden"⟩
  | .internal => ⟨500, none, "Internal Server Error"⟩

section Call

variable {Val Verified : TypeId → Type} {Cookie Jar σ ε : Type} (library : CookieLibrary Cookie Jar)

/-- What is behind a layer. -/
abbrev Inner (Val Verified : TypeId → Type) (σ ε : Type) :=
  Request Val Verified → σ → Run ε Response × σ

/-- Answers in place of what is behind, unless the request is authorized. -/
def callAuthorized (inner : Inner Val Verified σ ε) (authorized : Authorized Val Verified σ) :
    Run ε Response × σ :=
  match authorized.result with
  | .ok () => inner authorized.request authorized.world
  | .error (.err error) => (.ok (PassportRejection.intoResponse error.kind), authorized.world)
  | .error (.panic message) => (.error (.panic message), authorized.world)
  | .error .diverge => (.error .diverge, authorized.world)

def PassportGuardState.call (code : GuardCode Val Verified Jar σ) (state : PassportGuardState)
    (inner : Inner Val Verified σ ε) (request : Request Val Verified) (world : σ) :
    Run ε Response × σ :=
  callAuthorized inner (state.authorize library code request world)

def NativePassportGuardState.call {P : TypeId} [PassportPrincipal (Val P)]
    (code : GuardCode Val Verified Jar σ) (state : NativePassportGuardState σ (Val P))
    (inner : Inner Val Verified σ ε) (request : Request Val Verified) (world : σ) :
    Run ε Response × σ :=
  callAuthorized inner (state.authorize library code request world)

end Call

end Mads
