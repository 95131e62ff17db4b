import Mads.Common.Jwt.KeyRing
import Mads.Common.Jwt.Token
import Mads.Library.Saturating

/-!
# The JWT service

Signing merges registered and custom claims into one object.  Verification reads the header, selects
a key, and checks the signature before it looks at the claims.
-/

namespace Mads

open Json (Value)

structure JwtValidationPolicy where
  issuer : Option String
  audiences : List String
  clockSkewSeconds : UInt64
  maxTokenBytes : UInt64
  deriving DecidableEq, Repr

structure JwtService (EncodingKey DecodingKey : Type) where
  keyRing : KeyRing EncodingKey DecodingKey
  policy : JwtValidationPolicy

/-- The clock, where it does not stand before the epoch. -/
def unixNow (clock : Option UInt64) : JwtResult UInt64 := Run.okOr clock .serialization

def mapSigningError : JsonwebtokenError → JwtErrorKind
  | .invalidAlgorithm | .invalidKeyFormat => .unavailableSigningKey
  | _ => .serialization

def mapVerificationError : JsonwebtokenError → JwtErrorKind
  | .invalidSignature => .invalidSignature
  | .invalidAlgorithm | .missingAlgorithm => .algorithmMismatch
  | _ => .malformedToken

/-- A call of the JWT library whose errors are categorised. -/
def mapLibraryError {α : Type} (kind : JsonwebtokenError → JwtErrorKind)
    (call : Except JsonwebtokenError α) : JwtResult α :=
  match call with
  | .ok value => pure value
  | .error error => Run.fail (kind error)

/-! ## Claims that are signed -/

/-- The claims of the application, if they are an object that leaves the reserved names alone. -/
def objectCustomClaims (value : Option Value) : JwtResult (SortedMap String Value) := do
  let value ← Run.okOr value .serialization
  match value with
  | .object members => do
    let object := members.foldl (fun object (key, member) => object.insert key member) .empty
    Run.ensure (∀ key ∈ object.keys, key ∉ RESERVED_CLAIMS) .serialization
    pure object
  | _ => Run.fail .serialization

/-- Inserts a claim that may be absent. -/
def insertClaim (claims : SortedMap String Value) (name : String) (value : Option Value) :
    SortedMap String Value :=
  match value with
  | some value => claims.insert name value
  | none => claims

def insertRegisteredClaims (claims : SortedMap String Value) (registered : RegisteredJwtClaims) :
    SortedMap String Value :=
  let claims := insertClaim claims "iss" (registered.issuer.map .string)
  let claims := insertClaim claims "sub" (registered.subject.map .string)
  let claims := insertClaim claims "aud" (if registered.audiences = [] then none
    else some (.array (registered.audiences.map .string)))
  let claims := claims.insert "exp" (.number (.posInt registered.expiresAt))
  let claims := insertClaim claims "nbf" (registered.notBefore.map fun n => .number (.posInt n))
  let claims := claims.insert "iat" (.number (.posInt registered.issuedAt))
  let claims := insertClaim claims "jti" (registered.jwtId.map .string)
  claims.insert "token_use" (.string registered.tokenKind.claimValue)

/-! ## The service -/

namespace JwtService

variable {EncodingKey DecodingKey : Type} (library : Jsonwebtoken EncodingKey DecodingKey)
  (encodings : Encodings)

def fromPassportConfig (platform : Platform) (config : PassportConfig) :
    JwtResult (JwtService EncodingKey DecodingKey) := do
  let keyRing ← KeyRing.fromConfig library platform config
  pure {
    keyRing
    policy := {
      issuer := config.issuer
      audiences := config.audiences
      clockSkewSeconds := config.clockSkewSeconds
      maxTokenBytes := config.maxTokenBytes } }

def fromConfig (platform : Platform) (config : Config) :
    JwtResult (JwtService EncodingKey DecodingKey) := do
  let config ← PassportConfig.fromConfig library platform config
  fromPassportConfig library platform config

variable (service : JwtService EncodingKey DecodingKey)

/-- Signs claims; what `serde_json::to_value` makes of them is given. -/
def sign (clock : Option UInt64) (customClaims : Option Value) (options : JwtSignOptions) :
    JwtResult String := do
  let lifetime := options.lifetime.secs
  Run.ensure (lifetime ≠ 0) .serialization
  let issuedAt ← unixNow clock
  let expiresAt ← Run.okOr (Saturating.checkedAdd issuedAt lifetime) .serialization
  let claims ← objectCustomClaims customClaims
  let claims := insertRegisteredClaims claims {
    issuer := service.policy.issuer
    subject := options.subject
    audiences := service.policy.audiences
    expiresAt
    notBefore := options.notBefore
    issuedAt
    jwtId := options.jwtId
    tokenKind := options.kind }
  let (key, algorithm, keyId) ← service.keyRing.activeSigner
  let header : JsonwebtokenHeader := {
    alg := algorithm, typ := some options.kind.headerType, kid := keyId }
  mapLibraryError mapSigningError (library.encode header claims key)

def ensureTokenSize (token : String) : JwtResult Unit :=
  Run.ensure (token.utf8ByteSize ≤ service.policy.maxTokenBytes.toNat) .tokenTooLarge

def decodeHeader (token : String) : JwtResult JwtHeader := do
  service.ensureTokenSize token
  let (header, _, _) ← jwtParts token
  decodeJwtHeader encodings header

def decodeUnverified {C : Type} (deserialize : Value → Option C) (token : String) :
    JwtResult (JwtClaims C) := do
  service.ensureTokenSize token
  let (header, payload, _) ← jwtParts token
  let _ ← decodeJwtHeader encodings header
  decodeClaims encodings deserialize payload

def verifySignature (token : String) (key : DecodingKey) (algorithm : JwtAlgorithm) :
    JwtResult Unit := do
  let (message, signature) ← Run.okOr (Text.rsplitOnce token '.') .malformedToken
  let valid ← mapLibraryError mapVerificationError
    (library.verify signature message.toUTF8 key algorithm)
  Run.ensure (valid = true) .invalidSignature

-- an optional number is looked at, never all numbers
local instance (priority := high) decidableForallMem {α : Type} {P : α → Prop} [DecidablePred P]
    (value : Option α) : Decidable (∀ a ∈ value, P a) :=
  Option.decidableForallMem value

def validateClaims (header : JwtHeader) (claims : RegisteredJwtClaims) (validation : JwtValidation)
    (now : UInt64) : JwtResult Unit := do
  let policy := service.policy
  Run.ensure (header.tokenType = some validation.kind.headerType ∧
    claims.tokenKind = validation.kind) .tokenKindMismatch
  Run.ensure (¬ claims.expiresAt ≤ Saturating.sub now policy.clockSkewSeconds) .expired
  Run.ensure (∀ notBefore ∈ claims.notBefore,
    ¬ notBefore > Saturating.add now policy.clockSkewSeconds) .invalidNotBefore
  Run.ensure (∀ expected ∈ policy.issuer, claims.issuer = some expected) .issuerMismatch
  Run.ensure (∀ expected ∈ validation.issuer, claims.issuer = some expected) .issuerMismatch
  Run.ensure (policy.audiences ≠ [] → ∃ audience ∈ claims.audiences,
    audience ∈ policy.audiences) .audienceMismatch
  Run.ensure (∀ expected ∈ validation.audience, expected ∈ claims.audiences) .audienceMismatch
  Run.ensure (validation.requireSubject = true → claims.subject.isSome) .subjectMismatch
  Run.ensure (∀ expected ∈ validation.subject, claims.subject = some expected) .subjectMismatch
  Run.ensure (validation.requireJwtId = true → claims.jwtId.isSome) .jwtIdMismatch
  Run.ensure (∀ expected ∈ validation.jwtId, claims.jwtId = some expected) .jwtIdMismatch

/-- Verifies a token; how the claims of the application are deserialized is given. -/
def verify {C : Type} (deserialize : Value → Option C) (clock : Option UInt64) (token : String)
    (validation : JwtValidation) : JwtResult (VerifiedJwt C) := do
  service.ensureTokenSize token
  let (encodedHeader, encodedPayload, _) ← jwtParts token
  let header ← decodeJwtHeader encodings encodedHeader
  let (key, keyAlgorithm) ← service.keyRing.verifier header.keyId
  Run.ensure (header.algorithm = keyAlgorithm) .algorithmMismatch
  verifySignature library token key keyAlgorithm
  let claims ← decodeClaims encodings deserialize encodedPayload
  let now ← unixNow clock
  service.validateClaims header claims.registered validation now
  pure { header, claims }

end JwtService

end Mads
