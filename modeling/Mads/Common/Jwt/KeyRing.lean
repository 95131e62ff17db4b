import Mads.Common.Jwt.PassportConfig

/-!
# Cached signing and verification keys
-/

namespace Mads

structure CachedKey (EncodingKey DecodingKey : Type) where
  algorithm : JwtAlgorithm
  encodingKey : Option EncodingKey
  decodingKey : DecodingKey

inductive KeyRing (EncodingKey DecodingKey : Type) where
  | simple (algorithm : JwtAlgorithm) (encodingKey : EncodingKey) (decodingKey : DecodingKey)
  | named (activeKey : String) (keys : SortedMap String (CachedKey EncodingKey DecodingKey))

namespace KeyRing

variable {EncodingKey DecodingKey : Type}

section FromConfig

variable (library : Jsonwebtoken EncodingKey DecodingKey) (platform : Platform)

/-- The key that signs, where there is private material. -/
def cachedEncodingKey (algorithm : JwtAlgorithm) :
    Option KeyMaterial → JwtResult (Option EncodingKey)
  | none => pure none
  | some material => do
    let bytes ← Passport.KeyMaterial.read platform material
    let key ← Passport.encodingKey library algorithm bytes
    pure (some key)

/-- `CachedKey::from_configured`. -/
def fromConfigured (configured : ConfiguredKey) : JwtResult (CachedKey EncodingKey DecodingKey) :=
  match configured.secret with
  | some secret => pure {
      algorithm := configured.algorithm
      encodingKey := some (library.encodingFromSecret secret)
      decodingKey := library.decodingFromSecret secret }
  | none => do
    let publicMaterial ← Run.okOr configured.publicKey .unavailableSigningKey
    let publicBytes ← Passport.KeyMaterial.read platform publicMaterial
    let decodingKey ← Passport.decodingKey library configured.algorithm publicBytes
    let encodingKey ← cachedEncodingKey library platform configured.algorithm configured.privateKey
    pure { algorithm := configured.algorithm, encodingKey, decodingKey }

def fromConfig (config : PassportConfig) : JwtResult (KeyRing EncodingKey DecodingKey) :=
  match config.mode with
  | .simpleHmac secret => do
    let algorithm ← Run.okOr config.algorithms.head? .unavailableSigningKey
    pure (.simple algorithm (library.encodingFromSecret secret)
      (library.decodingFromSecret secret))
  | .named activeKey keys => do
    let cached ← collect (fun _ key => fromConfigured library platform key) keys
    pure (.named activeKey cached)

end FromConfig

variable (ring : KeyRing EncodingKey DecodingKey)

/-- The key that signs, its algorithm, and its id in a named ring. -/
def activeSigner : JwtResult (EncodingKey × JwtAlgorithm × Option String) :=
  match ring with
  | simple algorithm encodingKey _ => pure (encodingKey, algorithm, none)
  | named activeKey keys => do
    let key ← Run.okOr (keys.get activeKey) .unavailableSigningKey
    let encodingKey ← Run.okOr key.encodingKey .unavailableSigningKey
    pure (encodingKey, key.algorithm, some activeKey)

/-- The key that verifies a token with a key id, and its algorithm. -/
def verifier (keyId : Option String) : JwtResult (DecodingKey × JwtAlgorithm) :=
  match ring with
  | simple algorithm _ decodingKey => pure (decodingKey, algorithm)
  | named _ keys => do
    let keyId ← Run.okOr keyId .missingKeyId
    let key ← Run.okOr (keys.get keyId) .unknownKeyId
    pure (key.decodingKey, key.algorithm)

end KeyRing

end Mads
