import Mads.Base

/-!
# Algorithms, claims and options of JSON web tokens
-/

namespace Mads

/-- A stable category for a failure; what caused it is not kept. -/
inductive JwtErrorKind where
  | invalidConfiguration
  | invalidKeyMaterial
  | unavailableSigningKey
  | serialization
  | deserialization
  | malformedToken
  | tokenTooLarge
  | disallowedAlgorithm
  | algorithmMismatch
  | missingKeyId
  | unknownKeyId
  | invalidSignature
  | missingExpiration
  | expired
  | missingIssuedAt
  | invalidNotBefore
  | issuerMismatch
  | audienceMismatch
  | subjectMismatch
  | jwtIdMismatch
  | tokenKindMismatch
  deriving DecidableEq, Repr

abbrev JwtResult (α : Type) := Run JwtErrorKind α

inductive JwtAlgorithm where
  | hs256
  | hs384
  | hs512
  | rs256
  | rs384
  | rs512
  | es256
  | es384
  deriving DecidableEq, Repr

namespace JwtAlgorithm

def asStr : JwtAlgorithm → String
  | hs256 => "HS256"
  | hs384 => "HS384"
  | hs512 => "HS512"
  | rs256 => "RS256"
  | rs384 => "RS384"
  | rs512 => "RS512"
  | es256 => "ES256"
  | es384 => "ES384"

def fromStr : String → JwtResult JwtAlgorithm
  | "HS256" => pure hs256
  | "HS384" => pure hs384
  | "HS512" => pure hs512
  | "RS256" => pure rs256
  | "RS384" => pure rs384
  | "RS512" => pure rs512
  | "ES256" => pure es256
  | "ES384" => pure es384
  | _ => Run.fail .disallowedAlgorithm

theorem fromStr_asStr (algorithm : JwtAlgorithm) : fromStr algorithm.asStr = .ok algorithm := by
  cases algorithm <;> rfl

theorem fromStr_eq_ok {value : String} {algorithm : JwtAlgorithm} :
    fromStr value = .ok algorithm ↔ value = algorithm.asStr := by
  constructor
  · intro h
    unfold fromStr at h
    split at h <;> first | cases h; rfl | cases h
  · rintro rfl
    exact fromStr_asStr algorithm

/-- HMAC with a shared secret. -/
def isHmac : JwtAlgorithm → Bool
  | hs256 | hs384 | hs512 => true
  | rs256 | rs384 | rs512 | es256 | es384 => false

end JwtAlgorithm

inductive JwtTokenKind where
  | access
  | refresh
  deriving DecidableEq, Repr

namespace JwtTokenKind

def headerType : JwtTokenKind → String
  | access => "mads-access+jwt"
  | refresh => "mads-refresh+jwt"

def claimValue : JwtTokenKind → String
  | access => "access"
  | refresh => "refresh"

theorem headerType_injective : Function.Injective headerType := by
  intro left right h
  cases left <;> cases right <;> first | rfl | exact absurd h (by decide)

end JwtTokenKind

structure RegisteredJwtClaims where
  issuer : Option String
  subject : Option String
  audiences : List String
  expiresAt : UInt64
  notBefore : Option UInt64
  issuedAt : UInt64
  jwtId : Option String
  tokenKind : JwtTokenKind
  deriving DecidableEq, Repr

structure JwtClaims (C : Type) where
  registered : RegisteredJwtClaims
  custom : C

structure JwtHeader where
  algorithm : JwtAlgorithm
  keyId : Option String
  tokenType : Option String
  deriving DecidableEq, Repr

structure VerifiedJwt (C : Type) where
  header : JwtHeader
  claims : JwtClaims C

structure Duration where
  secs : UInt64
  nanos : UInt32
  deriving DecidableEq, Repr

structure JwtSignOptions where
  kind : JwtTokenKind
  lifetime : Duration
  notBefore : Option UInt64 := none
  subject : Option String := none
  jwtId : Option String := none
  deriving DecidableEq, Repr

structure JwtValidation where
  kind : JwtTokenKind
  requireSubject : Bool := false
  subject : Option String := none
  issuer : Option String := none
  audience : Option String := none
  requireJwtId : Bool := false
  jwtId : Option String := none
  deriving DecidableEq, Repr

end Mads
