import Mads.Common.Jwt.StrictJson
import Mads.Library.Text

/-!
# The parts of a token

A token is cut into three parts; the first is read as a header, the second as claims.
-/

namespace Mads

open Json (Value)

/-! ## Taking members out of an object -/

section Take

variable (object : SortedMap String Value) (name : String)

/-- Takes a member out; where it is there, it has to be of a given form. -/
def takeOptional {α : Type} (read : Value → Option α) :
    JwtResult (Option α × SortedMap String Value) := do
  let value ← match object.get name with
    | none => pure none
    | some value => some <$> Run.okOr (read value) .malformedToken
  pure (value, object.erase name)

def takeRequiredU64 (missing : JwtErrorKind) : JwtResult (UInt64 × SortedMap String Value) := do
  let value ← Run.okOr (object.get name) missing
  let number ← Run.okOr value.asU64 .malformedToken
  pure (number, object.erase name)

def takeOptionalU64 : JwtResult (Option UInt64 × SortedMap String Value) :=
  takeOptional object name Value.asU64

def takeString : JwtResult (Option String × SortedMap String Value) :=
  takeOptional object name Value.asString

/-- One audience, or a list of them. -/
def audiencesOf : Value → Option (List String)
  | .string audience => some [audience]
  | .array audiences => audiences.mapM Value.asString
  | _ => none

def takeAudiences : JwtResult (List String × SortedMap String Value) := do
  let (audiences, rest) ← takeOptional object "aud" audiencesOf
  pure (audiences.getD [], rest)

end Take

section TakeEqOk

variable {object rest : SortedMap String Value} {name : String}

theorem takeOptional_eq_ok {α : Type} {read : Value → Option α} {value : Option α} :
    takeOptional object name read = .ok (value, rest) ↔
      Option.Rel (fun member a => read member = some a) (object.get name) value ∧
        rest = object.erase name := by
  unfold takeOptional
  cases object.get name with
  | none =>
    constructor
    · intro h
      cases h
      exact ⟨.none, rfl⟩
    · rintro ⟨⟨⟩, rfl⟩
      rfl
  | some member =>
    constructor
    · intro h
      obtain ⟨_, hread, h⟩ := Run.bind_eq_ok.mp h
      cases hmember : read member with
      | none =>
        rw [hmember] at hread
        cases hread
      | some a =>
        rw [hmember] at hread
        cases hread
        cases h
        exact ⟨.some hmember, rfl⟩
    · rintro ⟨hrel, rfl⟩
      cases hrel with
      | some hmember =>
        simp only [hmember]
        rfl

/-- A member of a form with one value. -/
theorem rel_iff_eq_map {α : Type} {read : Value → Option α} {make : α → Value}
    (hread : ∀ {member a}, read member = some a ↔ member = make a) {member : Option Value}
    {value : Option α} :
    Option.Rel (fun member a => read member = some a) member value ↔ member = value.map make := by
  constructor
  · intro h
    cases h with
    | some h => rw [hread.mp h, Option.map_some]
    | none => rfl
  · rintro rfl
    cases value with
    | none => exact .none
    | some a => exact .some (hread.mpr rfl)

theorem takeString_eq_ok {value : Option String} :
    takeString object name = .ok (value, rest) ↔
      object.get name = value.map .string ∧ rest = object.erase name := by
  rw [takeString, takeOptional_eq_ok, rel_iff_eq_map Value.asString_eq_some]

theorem takeOptionalU64_eq_ok {value : Option UInt64} :
    takeOptionalU64 object name = .ok (value, rest) ↔
      object.get name = value.map (fun n => .number (.posInt n)) ∧ rest = object.erase name := by
  rw [takeOptionalU64, takeOptional_eq_ok, rel_iff_eq_map Value.asU64_eq_some]

theorem takeRequiredU64_eq_ok {missing : JwtErrorKind} {value : UInt64} :
    takeRequiredU64 object name missing = .ok (value, rest) ↔
      object.get name = some (.number (.posInt value)) ∧ rest = object.erase name := by
  simp only [takeRequiredU64, Run.okOr_bind_eq_ok, Value.asU64_eq_some, Run.pure_eq_ok,
    Except.ok.injEq, Prod.mk.injEq]
  constructor
  · rintro ⟨_, hget, _, rfl, rfl, rfl⟩
    exact ⟨hget, rfl⟩
  · rintro ⟨hget, rfl⟩
    exact ⟨_, hget, _, rfl, rfl, rfl⟩

/-- The audiences that a member stands for. -/
inductive HasAudiences : Option Value → List String → Prop
  | none : HasAudiences none []
  | one (audience : String) : HasAudiences (some (.string audience)) [audience]
  | many (audiences : List String) :
      HasAudiences (some (.array (audiences.map .string))) audiences

theorem audiencesOf_eq_some {member : Value} {audiences : List String} :
    audiencesOf member = some audiences ↔ HasAudiences (some member) audiences := by
  constructor
  · intro h
    unfold audiencesOf at h
    split at h
    · cases h
      exact .one _
    · rw [Json.mapM_asString_eq_some.mp h]
      exact .many audiences
    · cases h
  · intro h
    cases h with
    | one audience => rfl
    | many => exact Json.mapM_asString_eq_some.mpr rfl

theorem takeAudiences_eq_ok {audiences : List String} :
    takeAudiences object = .ok (audiences, rest) ↔
      HasAudiences (object.get "aud") audiences ∧ rest = object.erase "aud" := by
  simp only [takeAudiences, Run.bind_eq_ok, Prod.exists, takeOptional_eq_ok, audiencesOf_eq_some,
    Run.pure_eq_ok, Except.ok.injEq, Prod.mk.injEq]
  constructor
  · rintro ⟨_, _, ⟨hrel, rfl⟩, rfl, rfl⟩
    refine ⟨?_, rfl⟩
    generalize object.get "aud" = member at hrel ⊢
    cases hrel with
    | some h => exact h
    | none => exact .none
  · rintro ⟨h, rfl⟩
    generalize object.get "aud" = member at h ⊢
    cases h with
    | none => exact ⟨none, _, ⟨.none, rfl⟩, rfl, rfl⟩
    | one audience => exact ⟨some [audience], _, ⟨.some (.one audience), rfl⟩, rfl, rfl⟩
    | many => exact ⟨some audiences, _, ⟨.some (.many audiences), rfl⟩, rfl, rfl⟩

end TakeEqOk

/-! ## Cutting a token -/

def jwtParts (token : String) : JwtResult (String × String × String) :=
  match Text.split token '.' with
  | [header, payload, signature] => do
    Run.ensure (header ≠ "" ∧ payload ≠ "" ∧ signature ≠ "") .malformedToken
    pure (header, payload, signature)
  | _ => Run.fail .malformedToken

/-- A token has three parts, none of them empty, and no part has a dot. -/
structure TokenParts (token header payload signature : String) : Prop where
  token : token = header ++ "." ++ payload ++ "." ++ signature
  nonempty : ∀ part ∈ [header, payload, signature], part ≠ ""
  dotless : ∀ part ∈ [header, payload, signature], '.' ∉ part.toList

theorem toList_parts (header payload signature : String) :
    (header ++ "." ++ payload ++ "." ++ signature).toList =
      ['.'].intercalate ([header, payload, signature].map String.toList) := by
  have hdot : ".".toList = ['.'] := rfl
  simp [String.toList_append, hdot, List.intercalate]

theorem jwtParts_eq_ok {token header payload signature : String} :
    jwtParts token = .ok (header, payload, signature) ↔
      TokenParts token header payload signature := by
  constructor
  · intro h
    unfold jwtParts at h
    split at h
    · next hsplit =>
      obtain ⟨⟨hheader, hpayload, hsignature⟩, h⟩ := Run.ensure_bind_eq_ok.mp h
      cases h
      obtain ⟨-, hdotless, htoken⟩ := Text.split_eq_iff.mp hsplit
      rw [← toList_parts, String.toList_inj] at htoken
      exact ⟨htoken, by simp [hheader, hpayload, hsignature], hdotless⟩
    · cases h
  · rintro ⟨htoken, hnonempty, hdotless⟩
    have hsplit : Text.split token '.' = [header, payload, signature] := by
      apply Text.split_eq_iff.mpr
      exact ⟨List.cons_ne_nil _ _, hdotless, by rw [htoken, toList_parts]⟩
    unfold jwtParts
    rw [hsplit]
    refine Run.ensure_bind_eq_ok.mpr ⟨?_, rfl⟩
    simpa using hnonempty

/-- What is signed stands before the last dot. -/
theorem TokenParts.rsplitOnce_eq {token header payload signature : String}
    (h : TokenParts token header payload signature) :
    Text.rsplitOnce token '.' = some (header ++ "." ++ payload, signature) := by
  have hdot : ".".toList = ['.'] := rfl
  apply Text.rsplitOnce_eq_some.mpr
  refine ⟨?_, h.dotless signature (by simp)⟩
  simp [h.token, String.toList_append, hdot]

/-! ## The header and the claims -/

variable (encodings : Encodings)

def decodeJwtHeader (encodedHeader : String) : JwtResult JwtHeader := do
  let object ← decodeJsonObject encodings encodedHeader
  Run.ensure (∀ key ∈ object.keys, key ∈ ["alg", "kid", "typ"]) .malformedToken
  let (algorithm, object) ← takeString object "alg"
  let algorithm ← Run.okOr algorithm .malformedToken
  let algorithm ← JwtAlgorithm.fromStr algorithm
  let (keyId, object) ← takeString object "kid"
  let (tokenType, _) ← takeString object "typ"
  pure { algorithm, keyId, tokenType }

def RESERVED_CLAIMS : List String := ["iss", "sub", "aud", "exp", "nbf", "iat", "jti", "token_use"]

/-- The kind that a token is used as. -/
def tokenKindOf : Option String → JwtResult JwtTokenKind
  | some "access" => pure .access
  | some "refresh" => pure .refresh
  | _ => Run.fail .tokenKindMismatch

def decodeClaims {C : Type} (deserialize : Value → Option C) (encodedPayload : String) :
    JwtResult (JwtClaims C) := do
  let claims ← decodeJsonObject encodings encodedPayload
  let (expiresAt, claims) ← takeRequiredU64 claims "exp" .missingExpiration
  let (issuedAt, claims) ← takeRequiredU64 claims "iat" .missingIssuedAt
  let (notBefore, claims) ← takeOptionalU64 claims "nbf"
  let (issuer, claims) ← takeString claims "iss"
  let (subject, claims) ← takeString claims "sub"
  let (audiences, claims) ← takeAudiences claims
  let (jwtId, claims) ← takeString claims "jti"
  let (tokenUse, claims) ← takeString claims "token_use"
  let tokenKind ← tokenKindOf tokenUse
  let custom ← Run.okOr (deserialize (.object claims.entries)) .deserialization
  pure {
    registered := {
      issuer, subject, audiences, expiresAt, notBefore, issuedAt, jwtId, tokenKind }
    custom }

variable {encodings}

/-- The members of a header. -/
structure HeaderMembers (object : SortedMap String Value) (header : JwtHeader) : Prop where
  only : ∀ key ∈ object.keys, key ∈ ["alg", "kid", "typ"]
  algorithm : object.get "alg" = some (.string header.algorithm.asStr)
  keyId : object.get "kid" = header.keyId.map .string
  tokenType : object.get "typ" = header.tokenType.map .string

theorem decodeJwtHeader_eq_ok {encodedHeader : String} {header : JwtHeader} :
    decodeJwtHeader encodings encodedHeader = .ok header ↔
      ∃ object, encodings.Reads encodedHeader object ∧ HeaderMembers object header := by
  simp only [decodeJwtHeader, Run.bind_eq_ok, Run.ensure_eq_ok, Run.okOr_eq_ok, exists_const,
    decodeJsonObject_eq_ok, Prod.exists, takeString_eq_ok, JwtAlgorithm.fromStr_eq_ok]
  constructor
  · rintro ⟨object, hobject, honly, _, _, ⟨halgorithm, rfl⟩, _, rfl, algorithm, rfl, keyId, _,
      ⟨hkeyId, rfl⟩, tokenType, _, ⟨htokenType, rfl⟩, h⟩
    cases h
    rw [SortedMap.get_erase, if_neg (by decide)] at hkeyId
    rw [SortedMap.get_erase, if_neg (by decide), SortedMap.get_erase, if_neg (by decide)]
      at htokenType
    exact ⟨object, hobject, honly, halgorithm, hkeyId, htokenType⟩
  · rintro ⟨object, hobject, honly, halgorithm, hkeyId, htokenType⟩
    refine ⟨object, hobject, honly, some header.algorithm.asStr, _, ⟨halgorithm, rfl⟩, _, rfl,
      header.algorithm, rfl, header.keyId, _, ⟨?_, rfl⟩, header.tokenType, _, ⟨?_, rfl⟩, rfl⟩
    · rw [SortedMap.get_erase, if_neg (by decide), hkeyId]
    · rw [SortedMap.get_erase, if_neg (by decide), SortedMap.get_erase, if_neg (by decide),
        htokenType]

theorem tokenKindOf_eq_ok {value : Option String} {kind : JwtTokenKind} :
    tokenKindOf value = .ok kind ↔ value = some kind.claimValue := by
  constructor
  · intro h
    unfold tokenKindOf at h
    split at h <;> cases h <;> rfl
  · rintro rfl
    cases kind <;> rfl

/-- The members of a payload that are claims of the framework. -/
structure RegisteredMembers (object : SortedMap String Value) (claims : RegisteredJwtClaims) :
    Prop where
  issuer : object.get "iss" = claims.issuer.map .string
  subject : object.get "sub" = claims.subject.map .string
  audiences : HasAudiences (object.get "aud") claims.audiences
  expiresAt : object.get "exp" = some (.number (.posInt claims.expiresAt))
  notBefore : object.get "nbf" = claims.notBefore.map fun n => .number (.posInt n)
  issuedAt : object.get "iat" = some (.number (.posInt claims.issuedAt))
  jwtId : object.get "jti" = claims.jwtId.map .string
  tokenKind : object.get "token_use" = some (.string claims.tokenKind.claimValue)

/-- The members of a payload that are left to the application. -/
def customMembers (object : SortedMap String Value) : SortedMap String Value :=
  RESERVED_CLAIMS.foldl SortedMap.erase object

/-- Members are taken in another order than that of the list. -/
theorem customMembers_eq (object : SortedMap String Value) :
    ["exp", "iat", "nbf", "iss", "sub", "aud", "jti", "token_use"].foldl SortedMap.erase object =
      customMembers object := by
  apply SortedMap.ext_get
  intro key
  rw [customMembers, SortedMap.get_foldl_erase, SortedMap.get_foldl_erase]
  congr 1
  simp only [RESERVED_CLAIMS, List.mem_cons, List.not_mem_nil, eq_iff_iff]
  tauto

theorem decodeClaims_eq_ok {C : Type} {deserialize : Value → Option C} {encodedPayload : String}
    {claims : JwtClaims C} : decodeClaims encodings deserialize encodedPayload = .ok claims ↔
      ∃ object, encodings.Reads encodedPayload object ∧ RegisteredMembers object claims.registered ∧
        deserialize (.object (customMembers object).entries) = some claims.custom := by
  simp only [decodeClaims, Run.bind_eq_ok, Run.okOr_eq_ok, decodeJsonObject_eq_ok, Prod.exists,
    takeString_eq_ok, takeOptionalU64_eq_ok, takeRequiredU64_eq_ok, takeAudiences_eq_ok,
    tokenKindOf_eq_ok]
  constructor
  · rintro ⟨object, hobject, exp, _, ⟨hexp, rfl⟩, iat, _, ⟨hiat, rfl⟩, nbf, _, ⟨hnbf, rfl⟩,
      iss, _, ⟨hiss, rfl⟩, sub, _, ⟨hsub, rfl⟩, aud, _, ⟨haud, rfl⟩, jti, _, ⟨hjti, rfl⟩,
      use, _, ⟨huse, rfl⟩, kind, rfl, custom, hcustom, h⟩
    cases h
    -- what was taken out before has another name
    simp only [SortedMap.get_erase, String.reduceEq, if_false] at hiat hnbf hiss hsub haud hjti huse
    refine ⟨object, hobject, ⟨hiss, hsub, haud, hexp, hnbf, hiat, hjti, huse⟩, ?_⟩
    rw [← customMembers_eq]
    exact hcustom
  · rintro ⟨object, hobject, hmembers, hcustom⟩
    obtain ⟨registered, custom⟩ := claims
    refine ⟨object, hobject, registered.expiresAt, _, ⟨hmembers.expiresAt, rfl⟩,
      registered.issuedAt, _, ⟨?_, rfl⟩, registered.notBefore, _, ⟨?_, rfl⟩,
      registered.issuer, _, ⟨?_, rfl⟩, registered.subject, _, ⟨?_, rfl⟩,
      registered.audiences, _, ⟨?_, rfl⟩, registered.jwtId, _, ⟨?_, rfl⟩,
      some registered.tokenKind.claimValue, _, ⟨?_, rfl⟩, registered.tokenKind, rfl, custom, ?_, rfl⟩
    · simp [SortedMap.get_erase, hmembers.issuedAt]
    · simp [SortedMap.get_erase, hmembers.notBefore]
    · simp [SortedMap.get_erase, hmembers.issuer]
    · simp [SortedMap.get_erase, hmembers.subject]
    · simpa [SortedMap.get_erase] using hmembers.audiences
    · simp [SortedMap.get_erase, hmembers.jwtId]
    · simp [SortedMap.get_erase, hmembers.tokenKind]
    · rw [← customMembers_eq] at hcustom
      exact hcustom

end Mads
