import Mads.Common.CredentialIsolation
import Mads.Common.GuardRuntime

/-!
# Native and generated guards agree

A guard grants a request exactly if the policy does, whichever of the two layers carries it.
-/

namespace Mads

variable {Val Verified : TypeId → Type} {Cookie Jar σ : Type} {P : TypeId}
  [PassportPrincipal (Val P)] {library : CookieLibrary Cookie Jar}
  {code : GuardCode Val Verified Jar σ} {guard : EffectiveGuard σ (Val P)} {adapter : FnPtr}

/-! ### The policy -/

/-- Some value of the clause holds, or each of them does. -/
def PolicyClause.Holds (clause : PolicyClause) (holds : String → Bool) : Prop :=
  match clause.mode with
  | .any => ∃ value ∈ clause.values, holds value
  | .all => ∀ value ∈ clause.values, holds value

/-- A principal has the roles and the permissions that a guard asks for. -/
def EffectiveGuard.Permits (guard : EffectiveGuard σ (Val P)) (principal : Val P) : Prop :=
  (∀ clause ∈ guard.roles, clause.Holds (PassportPrincipal.hasRole principal)) ∧
    ∀ clause ∈ guard.permissions, clause.Holds (PassportPrincipal.hasPermission principal)

variable (library code) in
/-- The credential of a request is accepted by the strategy. -/
def Authenticates (source : TokenSource) (adapter : FnPtr) (metadata : RequestMetadata) (world : σ)
    (authentication : ErasedAuthentication Val Verified) (after : σ) : Prop :=
  ∃ context token, handed library source metadata = .ok (context, token) ∧
    code.strategy adapter context token world = (.ok authentication, after)

variable (library code guard adapter) in
/-- The policy grants a request. The handler is shown the principal and the token. -/
def Grants (request : Request Val Verified) (world : σ) (granted : Request Val Verified)
    (after : σ) : Prop :=
  ∃ principal C verified middle,
    Authenticates library code guard.source adapter request.metadata world
      (.new P principal C verified) middle ∧
    guard.Permits principal ∧
    Accepted (fun predicate => predicate.function principal) guard.predicates middle after ∧
    granted.metadata = request.metadata ∧
    granted.extensions.authenticated =
      Function.update request.extensions.authenticated P (some principal) ∧
    granted.extensions.verifiedToken =
      Function.update request.extensions.verifiedToken C (some verified)

variable (library code guard adapter) in
/-- Why the policy does not grant a request, and what has been done by then. -/
inductive Refuses (request : Request Val Verified) (world : σ) : Halt PassportError → σ → Prop
  | extraction {halt : Halt PassportError}
      (h : handed library guard.source request.metadata = .error halt) :
      Refuses request world halt world
  | strategy {halt : Halt PassportError} {context : PassportContext Jar} {token : String} {after : σ}
      (h : handed library guard.source request.metadata = .ok (context, token))
      (hstrategy : code.strategy adapter context token world = (.error halt, after)) :
      Refuses request world halt after
  | clause {principal : Val P} {C : TypeId} {verified : Verified C} {after : σ}
      (h : Authenticates library code guard.source adapter request.metadata world
        (.new P principal C verified) after)
      (hpermits : ¬ guard.Permits principal) :
      Refuses request world (.err .forbidden) after
  | predicate {principal : Val P} {C : TypeId} {verified : Verified C} {middle last after : σ}
      {front back : List (PredicatePath σ (Val P))} {refusing : PredicatePath σ (Val P)}
      (h : Authenticates library code guard.source adapter request.metadata world
        (.new P principal C verified) middle)
      (hpermits : guard.Permits principal)
      (hpredicates : guard.predicates = front ++ refusing :: back)
      (hfront : Accepted (fun predicate => predicate.function principal) front middle last)
      (hrefusing : refusing.function principal last = (false, after)) :
      Refuses request world (.err .forbidden) after

/-! ### Clauses -/

theorem matchesClause_eq_true {clause : Option PolicyClause} {holds : String → Bool} :
    matchesClause clause holds = true ↔ ∀ c ∈ clause, c.Holds holds := by
  cases clause with
  | none => simp [matchesClause]
  | some clause =>
    obtain ⟨mode, values⟩ := clause
    cases mode with
    | any => simp [matchesClause, PolicyClause.Holds]
    | all => simp [matchesClause, PolicyClause.Holds]

def PolicyClause.native (clause : PolicyClause) : NativePolicyClause := ⟨clause.mode, clause.values⟩

theorem matchesNativeClause_native (clause : Option PolicyClause) (holds : String → Bool) :
    matchesNativeClause (clause.map PolicyClause.native) holds = matchesClause clause holds := by
  cases clause <;> rfl

/-- Both sides demand the same of a clause before they use it. -/
theorem validateNativePolicy_native {clause : Option PolicyClause} {label : String} :
    validateNativePolicy (clause.map PolicyClause.native) label = .ok () ↔
      clause.any Guard.invalidClause = false := by
  cases clause with
  | none => exact iff_of_true rfl rfl
  | some clause =>
    show (if Guard.invalidClause clause then _ else _) = _ ↔ Guard.invalidClause clause = false
    by_cases hinvalid : Guard.invalidClause clause
    · rw [if_pos hinvalid, hinvalid]
      exact iff_of_false nofun nofun
    · rw [if_neg hinvalid]
      exact iff_of_true rfl (Bool.eq_false_of_not_eq_true hinvalid)

theorem PassportGuardBuilder.foldl_predicate {α : Type} (predicates : List (PredicatePath σ α))
    (builder : PassportGuardBuilder σ α) :
    predicates.foldl (fun builder predicate => builder.predicate predicate.function) builder =
      { builder with predicates := builder.predicates ++ predicates.map (·.function) } := by
  induction predicates generalizing builder with
  | nil => simp
  | cons predicate predicates ih =>
    rw [List.foldl_cons, ih, PassportGuardBuilder.predicate, List.map_cons]
    simp

/-- What is built from a policy. -/
theorem EffectiveGuard.native_state {α : Type} (guard : EffectiveGuard σ α) (adapter : FnPtr) :
    guard.native.state adapter =
      { source := guard.source
        adapter
        roles := guard.roles.map PolicyClause.native
        permissions := guard.permissions.map PolicyClause.native
        predicates := guard.predicates.map (·.function) } := by
  obtain ⟨strategy, source, roles, permissions, predicates⟩ := guard
  rw [EffectiveGuard.native, PassportGuardBuilder.foldl_predicate]
  rcases roles with _ | ⟨_ | _, _⟩ <;> rcases permissions with _ | ⟨_ | _, _⟩ <;> rfl

/-! ### Predicates -/

variable {expansion : Expansion}

variable (code guard) in
/-- The adapters that an expansion names are what the macro emits for the predicates. -/
def EmitsPredicates (expansion : Expansion) : Prop :=
  ∀ index predicate, guard.predicates[index]? = some predicate →
    code.predicate (expansion.predicateAdapter index) = predicateAdapter predicate.function

variable (code P adapter) in
/-- The strategy behind an adapter answers with principals of one type. -/
def Produces : Prop :=
  ∀ context token world authentication after,
    code.strategy adapter context token world = (.ok authentication, after) →
      ∃ (principal : Val P) (C : TypeId) (verified : Verified C),
        authentication = .new P principal C verified

/-- The emitted adapters ask what the policy asks. -/
theorem askAll_staticTokens (hemits : EmitsPredicates code guard expansion) (principal : Val P)
    (C : TypeId) (verified : Verified C) :
    askAll (GuardPredicate.ask code (.new P principal C verified))
        (guard.staticTokens expansion).predicates =
      askAll (fun predicate => predicate.function principal) guard.predicates := by
  apply askAll_congr
  rw [List.forall₂_iff_get]
  refine ⟨List.length_mapIdx, fun index hindex hindex' world => ?_⟩
  have hadapter := hemits index _ (List.getElem?_eq_getElem hindex')
  simp only [EffectiveGuard.staticTokens, List.get_eq_getElem, List.getElem_mapIdx,
    GuardPredicate.ask, hadapter, predicateAdapter, ErasedAuthentication.principalAs,
    ErasedAuthentication.new, AnyArc.downcast_self]

/-- What the generated layer makes of a principal. -/
theorem authorizes_new (hemits : EmitsPredicates code guard expansion) (principal : Val P)
    (C : TypeId) (verified : Verified C) (world : σ) :
    authorizes code (guard.staticTokens expansion) (.new P principal C verified) world =
      if !matchesClause guard.roles (PassportPrincipal.hasRole principal) ||
          !matchesClause guard.permissions (PassportPrincipal.hasPermission principal) then
        (false, world)
      else askAll (fun predicate => predicate.function principal) guard.predicates world := by
  rw [authorizes, askAll_staticTokens hemits]
  rfl

theorem authenticate_eq (source : TokenSource) (metadata : RequestMetadata) (world : σ) :
    authenticate library code source adapter metadata world =
      match handed library source metadata with
      | .ok (context, token) => code.strategy adapter context token world
      | .error halt => (.error halt, world) := by
  rw [authenticate, authenticateRequest_eq]
  cases handed library source metadata <;> rfl

theorem authenticate_eq_ok {source : TokenSource} {metadata : RequestMetadata} {world after : σ}
    {authentication : ErasedAuthentication Val Verified} :
    authenticate library code source adapter metadata world = (.ok authentication, after) ↔
      Authenticates library code source adapter metadata world authentication after := by
  rw [authenticate_eq, Authenticates]
  cases handed library source metadata with
  | ok pair =>
    constructor
    · exact fun h => ⟨pair.1, pair.2, rfl, h⟩
    · rintro ⟨context, token, hpair, h⟩
      cases hpair
      exact h
  | error halt =>
    refine iff_of_false nofun ?_
    rintro ⟨_, _, hpair, -⟩
    cases hpair

/-! ### The two layers -/

omit [PassportPrincipal (Val P)] in
theorem askAll_map (principal : Val P) (predicates : List (PredicatePath σ (Val P))) :
    askAll (fun predicate => predicate principal) (predicates.map (·.function)) =
      askAll (fun predicate => predicate.function principal) predicates :=
  askAll_congr (List.forall₂_map_left_iff.mpr (List.forall₂_same.mpr fun _ _ _ => rfl))

theorem install_new (principal : Val P) (C : TypeId) (verified : Verified C)
    (extensions : Extensions Val Verified) :
    (ErasedAuthentication.new P principal C verified).install extensions =
      (true,
        { authenticated := Function.update extensions.authenticated P (some principal)
          verifiedToken := Function.update extensions.verifiedToken C (some verified) }) := by
  simp [ErasedAuthentication.install, ErasedAuthentication.installTypedExtensions,
    ErasedAuthentication.principalAs, ErasedAuthentication.verifiedAs, ErasedAuthentication.new]

theorem permits_iff {principal : Val P} :
    (!matchesClause guard.roles (PassportPrincipal.hasRole principal) ||
      !matchesClause guard.permissions (PassportPrincipal.hasPermission principal)) = false ↔
      guard.Permits principal := by
  rw [EffectiveGuard.Permits, ← matchesClause_eq_true, ← matchesClause_eq_true]
  simp

section Generated

variable {request granted : Request Val Verified} {world after : σ}

variable (guard adapter expansion) in
/-- The layer that the macro generates for a guard. -/
def EffectiveGuard.generated : PassportGuardState := ⟨guard.staticTokens expansion, adapter⟩

/-- The generated layer on a principal that the strategy has accepted. -/
theorem authorize_of_authenticates (hemits : EmitsPredicates code guard expansion)
    {principal : Val P} {C : TypeId} {verified : Verified C} {middle : σ}
    (h : Authenticates library code guard.source adapter request.metadata world
      (.new P principal C verified) middle) :
    (guard.generated adapter expansion).authorize library code request world =
      if !matchesClause guard.roles (PassportPrincipal.hasRole principal) ||
          !matchesClause guard.permissions (PassportPrincipal.hasPermission principal) then
        ⟨Run.fail .forbidden, request, middle⟩
      else
        match askAll (fun predicate => predicate.function principal) guard.predicates middle with
        | (false, after) => ⟨Run.fail .forbidden, request, after⟩
        | (true, after) => ⟨.ok (), { request with extensions :=
            { authenticated := Function.update request.extensions.authenticated P (some principal)
              verifiedToken := Function.update request.extensions.verifiedToken C
                (some verified) } }, after⟩ := by
  have hrun : authenticate library code (guard.staticTokens expansion).source adapter
      request.metadata world = (.ok (.new P principal C verified), middle) :=
    authenticate_eq_ok.mpr h
  simp only [EffectiveGuard.generated, PassportGuardState.authorize, hrun, authorizes_new hemits,
    install_new]
  split_ifs
  · rfl
  · cases askAll (fun predicate => predicate.function principal) guard.predicates middle with
    | mk answer after => cases answer <;> rfl

theorem authorize_of_grants (hemits : EmitsPredicates code guard expansion)
    (h : Grants library code guard adapter request world granted after) :
    (guard.generated adapter expansion).authorize library code request world =
      ⟨.ok (), granted, after⟩ := by
  obtain ⟨principal, C, verified, middle, hauthenticates, hpermits, haccepted, hmetadata,
    hauthenticated, htoken⟩ := h
  rw [authorize_of_authenticates hemits hauthenticates, permits_iff.mpr hpermits,
    if_neg Bool.false_ne_true, askAll_eq_true.mpr haccepted]
  obtain ⟨metadata, ⟨authenticated, verifiedToken⟩⟩ := granted
  simp only at hmetadata hauthenticated htoken
  rw [hmetadata, hauthenticated, htoken]

omit [PassportPrincipal (Val P)] in
theorem authorize_of_error {halt : Halt PassportError}
    (h : authenticate library code guard.source adapter request.metadata world =
      (.error halt, after)) :
    (guard.generated adapter expansion).authorize library code request world =
      ⟨.error halt, request, after⟩ := by
  have hrun : authenticate library code (guard.staticTokens expansion).source adapter
      request.metadata world = (.error halt, after) := h
  simp only [EffectiveGuard.generated, PassportGuardState.authorize, hrun]

theorem authorize_of_refuses (hemits : EmitsPredicates code guard expansion)
    {halt : Halt PassportError}
    (h : Refuses library code guard adapter request world halt after) :
    (guard.generated adapter expansion).authorize library code request world =
      ⟨.error halt, request, after⟩ := by
  cases h with
  | extraction h =>
    apply authorize_of_error
    rw [authenticate_eq, h]
  | strategy h hstrategy =>
    apply authorize_of_error
    rw [authenticate_eq, h]
    exact hstrategy
  | clause h hpermits =>
    rw [authorize_of_authenticates hemits h, if_pos]
    · rfl
    · exact Bool.of_not_eq_false (permits_iff.not.mpr hpermits)
  | predicate h hpermits hpredicates hfront hrefusing =>
    have hasked := askAll_eq_false.mpr ⟨_, _, _, _, hpredicates, hfront, hrefusing⟩
    rw [authorize_of_authenticates hemits h, permits_iff.mpr hpermits, if_neg Bool.false_ne_true,
      hasked]
    rfl

variable (library guard) in
/-- The policy settles each request. -/
theorem grants_or_refuses (hproduces : Produces P code adapter) (request : Request Val Verified)
    (world : σ) :
    (∃ granted after, Grants library code guard adapter request world granted after) ∨
      ∃ halt after, Refuses library code guard adapter request world halt after := by
  cases hhanded : handed library guard.source request.metadata with
  | error halt => exact .inr ⟨halt, world, .extraction hhanded⟩
  | ok pair =>
    cases hrun : code.strategy adapter pair.1 pair.2 world with
    | mk result middle =>
      cases result with
      | error halt => exact .inr ⟨halt, middle, .strategy hhanded hrun⟩
      | ok authentication =>
        obtain ⟨principal, C, verified, rfl⟩ := hproduces _ _ _ _ _ hrun
        have hauthenticates : Authenticates library code guard.source adapter request.metadata world
            (.new P principal C verified) middle := ⟨pair.1, pair.2, hhanded, hrun⟩
        by_cases hpermits : guard.Permits principal
        · cases hasked : askAll (fun predicate => predicate.function principal) guard.predicates
              middle with
          | mk answer after =>
            cases answer with
            | true =>
              let extensions : Extensions Val Verified :=
                { authenticated := Function.update request.extensions.authenticated P
                    (some principal)
                  verifiedToken := Function.update request.extensions.verifiedToken C
                    (some verified) }
              exact .inl ⟨{ request with extensions }, after, principal, C, verified, middle,
                hauthenticates, hpermits, askAll_eq_true.mp hasked, rfl, rfl, rfl⟩
            | false =>
              obtain ⟨front, p, back, last, hpredicates, hfront, hp⟩ := askAll_eq_false.mp hasked
              exact .inr ⟨_, after, .predicate hauthenticates hpermits hpredicates hfront hp⟩
        · exact .inr ⟨_, middle, .clause hauthenticates hpermits⟩

end Generated

variable (library) in
/-- The native layer does what the generated one does. -/
theorem native_authorize (hproduces : Produces P code adapter)
    (hemits : EmitsPredicates code guard expansion) (request : Request Val Verified) (world : σ) :
    (guard.native.state adapter).authorize library code request world =
      (guard.generated adapter expansion).authorize library code request world := by
  rw [EffectiveGuard.native_state]
  cases hrun : authenticate library code guard.source adapter request.metadata world with
  | mk result middle =>
    cases result with
    | error halt =>
      rw [authorize_of_error hrun]
      simp only [NativePassportGuardState.authorize, hrun]
    | ok authentication =>
      have hauthenticates := authenticate_eq_ok.mp hrun
      have hproduced : ∃ (principal : Val P) (C : TypeId) (verified : Verified C),
          authentication = .new P principal C verified := by
        obtain ⟨context, token, -, hstrategy⟩ := hauthenticates
        exact hproduces _ _ _ _ _ hstrategy
      obtain ⟨principal, C, verified, rfl⟩ := hproduced
      have hprincipal : (.new P principal C verified :
          ErasedAuthentication Val Verified).principalAs P = some principal :=
        AnyArc.downcast_self P principal
      rw [authorize_of_authenticates hemits hauthenticates]
      cases hasked : askAll (fun predicate => predicate.function principal) guard.predicates
        middle with
      | mk answer after =>
        cases answer <;> simp only [NativePassportGuardState.authorize, hrun, hprincipal,
          matchesNativeClause_native, install_new, askAll_map, hasked]

/-- Both layers grant the requests that the policy grants, refuse the others for the reason that the
policy has, and let nothing but a granted request through to what is behind. -/
theorem guards_agree (hproduces : Produces P code adapter)
    (hemits : EmitsPredicates code guard expansion) (request : Request Val Verified) (world : σ) :
    (guard.native.state adapter).authorize library code request world =
      (guard.generated adapter expansion).authorize library code request world ∧
    (∀ granted after, (guard.generated adapter expansion).authorize library code request world =
        ⟨.ok (), granted, after⟩ ↔ Grants library code guard adapter request world granted after) ∧
    (∀ halt failed after, (guard.generated adapter expansion).authorize library code request world =
        ⟨.error halt, failed, after⟩ ↔
      failed = request ∧ Refuses library code guard adapter request world halt after) ∧
    ∀ (ε : Type) (inner : Inner Val Verified σ ε),
      (guard.native.state adapter).call library code inner request world =
        (guard.generated adapter expansion).call library code inner request world ∧
      (∀ granted after, Grants library code guard adapter request world granted after →
        (guard.generated adapter expansion).call library code inner request world =
          inner granted after) ∧
      ∀ halt after, Refuses library code guard adapter request world halt after →
        ∀ other, (guard.generated adapter expansion).call library code inner request world =
          (guard.generated adapter expansion).call library code other request world := by
  have hnative := native_authorize library hproduces hemits request world
  refine ⟨hnative, fun granted after => ⟨fun h => ?_, authorize_of_grants hemits⟩,
    fun halt failed after => ⟨fun h => ?_, ?_⟩, fun ε inner => ⟨?_, ?_, ?_⟩⟩
  · obtain ⟨granted', after', hgrants⟩ | ⟨halt, after', hrefuses⟩ :=
      grants_or_refuses library guard hproduces request world
    · cases h.symm.trans (authorize_of_grants hemits hgrants)
      exact hgrants
    · cases h.symm.trans (authorize_of_refuses hemits hrefuses)
  · obtain ⟨granted', after', hgrants⟩ | ⟨halt, after', hrefuses⟩ :=
      grants_or_refuses library guard hproduces request world
    · cases h.symm.trans (authorize_of_grants hemits hgrants)
    · cases h.symm.trans (authorize_of_refuses hemits hrefuses)
      exact ⟨rfl, hrefuses⟩
  · rintro ⟨rfl, hrefuses⟩
    exact authorize_of_refuses hemits hrefuses
  · exact congrArg (callAuthorized inner) hnative
  · intro granted after hgrants
    rw [PassportGuardState.call, authorize_of_grants hemits hgrants]
    rfl
  · intro halt after hrefuses other
    rw [PassportGuardState.call, PassportGuardState.call, authorize_of_refuses hemits hrefuses]
    cases halt <;> rfl

/-- A layer that is built has the adapter of some binding, and a policy that a descriptor may have
too. -/
theorem native_build {α : Type} {guard : EffectiveGuard σ α} {inventory : Inventory}
    {registered : List PassportStrategyDescriptor} {serviceAvailable : Bool} {principalTypeId : TypeId}
    {principalTypeName : String} {state : NativePassportGuardState σ α}
    (h : guard.native.build inventory registered serviceAvailable principalTypeId
      principalTypeName = .ok state) :
    (∃ adapter, state = guard.native.state adapter) ∧
      guard.roles.any Guard.invalidClause = false ∧
      guard.permissions.any Guard.invalidClause = false := by
  have hstate := guard.native_state 0
  have hroles : guard.native.roles = guard.roles.map PolicyClause.native :=
    congrArg NativePassportGuardState.roles hstate
  have hpermissions : guard.native.permissions = guard.permissions.map PolicyClause.native :=
    congrArg NativePassportGuardState.permissions hstate
  obtain ⟨strategy, -, h⟩ := Run.okOr_bind_eq_ok.mp h
  obtain ⟨_, hvalid, h⟩ := Run.bind_eq_ok.mp h
  obtain ⟨_, hvalid', h⟩ := Run.bind_eq_ok.mp h
  obtain ⟨preflight, -, h⟩ := Run.bind_eq_ok.mp h
  obtain ⟨binding, -, h⟩ := Run.bind_eq_ok.mp h
  obtain ⟨-, h⟩ := Run.ensure_bind_eq_ok.mp h
  rw [hroles] at hvalid
  rw [hpermissions] at hvalid'
  exact ⟨⟨binding.adapter, (Except.ok.inj h).symm⟩, validateNativePolicy_native.mp hvalid,
    validateNativePolicy_native.mp hvalid'⟩

/-! ### A sample -/

/-- Principals are the lists of their roles. -/
def SampleVal (_ : TypeId) : Type := List String

def SampleVerified (_ : TypeId) : Type := String

instance (P : TypeId) : PassportPrincipal (SampleVal P) where
  hasRole roles role := List.elem role (show List String from roles)
  hasPermission _ _ := false

/-- Predicates that note their names in the world. -/
def samplePredicate (path : String) (answer : Bool) :
    PredicatePath (List String) (SampleVal ⟨1⟩) :=
  ⟨path, fun _ asked => (answer, asked ++ [path])⟩

def sampleGuard : EffectiveGuard (List String) (SampleVal ⟨1⟩) where
  strategy := "session"
  source := .bearer
  roles := some ⟨.any, ["admin", "staff"]⟩
  permissions := none
  predicates := [samplePredicate "active" true, samplePredicate "verified" false,
    samplePredicate "rested" true]

def sampleExpansion : Expansion where
  address := 1
  routeTrait := "Desk"
  handler := "show"
  namespace_ := "app::desk"
  principalTypeId := ⟨1⟩
  principalTypeName := "app::Principal"
  location := ⟨"src/desk.rs", 3, 1⟩
  predicateAdapter index := index
  builtinAdapter := none

def sampleGuardCode : GuardCode SampleVal SampleVerified
    (SortedMap String (String × String)) (List String) where
  strategy _ _ token world :=
    let principal : SampleVal ⟨1⟩ := (["staff"] : List String)
    let verified : SampleVerified ⟨2⟩ := token
    (.ok (.new ⟨1⟩ principal ⟨2⟩ verified), world)
  predicate adapter :=
    match sampleGuard.predicates[adapter]? with
    | none => fun _ world => (false, world)
    | some predicate => predicateAdapter predicate.function

def sampleRequest : Request SampleVal SampleVerified where
  metadata :=
    { requestOf [] (some "Bearer abc") with uri := "/desk" }
  extensions := ⟨fun _ => none, fun _ => none⟩

theorem sampleGuard_produces : Produces ⟨1⟩ sampleGuardCode 0 := by
  rintro context token world authentication after h
  cases h
  exact ⟨_, _, _, rfl⟩

theorem sampleGuard_emits : EmitsPredicates sampleGuardCode sampleGuard sampleExpansion := by
  intro index predicate h
  show (match sampleGuard.predicates[index]? with
    | none => fun _ world => (false, world)
    | some predicate => predicateAdapter predicate.function) = _
  rw [h]

/-- The second predicate refuses, and the third is not asked. -/
theorem guards_agree_sample :
    (sampleGuard.native.state 0).authorize plainCookies sampleGuardCode sampleRequest [] =
      ⟨Run.fail .forbidden, sampleRequest, ["active", "verified"]⟩ := by
  have hpermits : sampleGuard.Permits (show SampleVal ⟨1⟩ from ["staff"]) := by
    refine ⟨fun clause hclause => ?_, fun clause hclause => by cases hclause⟩
    cases hclause
    exact ⟨"staff", by simp, rfl⟩
  obtain ⟨context, hhanded⟩ : ∃ context,
      handed plainCookies .bearer sampleRequest.metadata = .ok (context, "abc") :=
    handed_of_token (by decide +kernel)
  have hactive : Accepted (fun predicate => predicate.function (show SampleVal ⟨1⟩ from ["staff"]))
      [samplePredicate "active" true] [] ["active"] := .cons rfl (.nil _)
  have hrefuses : Refuses plainCookies sampleGuardCode sampleGuard 0 sampleRequest []
      (.err .forbidden) ["active", "verified"] :=
    .predicate ⟨context, "abc", hhanded, rfl⟩ hpermits rfl hactive rfl
  rw [(guards_agree sampleGuard_produces sampleGuard_emits sampleRequest []).1]
  exact ((guards_agree sampleGuard_produces sampleGuard_emits sampleRequest []).2.2.1 _ _ _).mpr
    ⟨rfl, hrefuses⟩

end Mads
