import Mads.Common.Jwt.Claims
import Mads.Core.Config
import Mads.Library.Json
import Mads.Library.Text

/-!
# The configuration of Passport keys
-/

namespace Mads

/-- What the JWT library says about a call that fails. -/
inductive JsonwebtokenError where
  | invalidSignature
  | invalidAlgorithm
  | missingAlgorithm
  | invalidKeyFormat
  | invalidToken
  | base64
  | json
  | utf8
  | other
  deriving DecidableEq, Repr

/-- What the JWT library writes into the header of a token. -/
structure JsonwebtokenHeader where
  typ : Option String := some "JWT"
  alg : JwtAlgorithm
  kid : Option String := none
  deriving DecidableEq, Repr

/-- The keys, signatures and tokens of the JWT library. -/
structure Jsonwebtoken (EncodingKey DecodingKey : Type) where
  encodingFromSecret : ByteArray → EncodingKey
  decodingFromSecret : ByteArray → DecodingKey
  encodingFromRsaPem : ByteArray → Except JsonwebtokenError EncodingKey
  decodingFromRsaPem : ByteArray → Except JsonwebtokenError DecodingKey
  encodingFromEcPem : ByteArray → Except JsonwebtokenError EncodingKey
  decodingFromEcPem : ByteArray → Except JsonwebtokenError DecodingKey
  sign : ByteArray → EncodingKey → JwtAlgorithm → Except JsonwebtokenError String
  verify : String → ByteArray → DecodingKey → JwtAlgorithm → Except JsonwebtokenError Bool
  encode : JsonwebtokenHeader → SortedMap String Json.Value → EncodingKey →
    Except JsonwebtokenError String

/-- The files that can be read, and the working directory. -/
structure Platform where
  read : String → Option ByteArray
  currentDir : Option String

def DEFAULT_MAX_TOKEN_BYTES : UInt64 := 8192

inductive KeyMaterial where
  | inline (bytes : ByteArray)
  | file (path : String)

structure ConfiguredKey where
  algorithm : JwtAlgorithm
  secret : Option ByteArray
  privateKey : Option KeyMaterial
  publicKey : Option KeyMaterial

inductive PassportKeyMode where
  | simpleHmac (secret : ByteArray)
  | named (activeKey : String) (keys : SortedMap String ConfiguredKey)

structure PassportConfig where
  mode : PassportKeyMode
  algorithms : List JwtAlgorithm
  issuer : Option String
  audiences : List String
  clockSkewSeconds : UInt64
  maxTokenBytes : UInt64

namespace Passport

open Text

def minimumHmacSecretBytes : JwtAlgorithm → ℕ
  | .hs256 => 32
  | .hs384 => 48
  | .hs512 => 64
  | .rs256 | .rs384 | .rs512 | .es256 | .es384 => 0

section Values

variable (config : Config)

def optionalScalar (key : String) : JwtResult (Option String) := do
  Run.ensure ((config.getStringArray key).isNone ∧ config.get key ≠ some "") .invalidConfiguration
  pure (config.get key)

def requiredScalar (key : String) : JwtResult String := do
  let value ← optionalScalar config key
  Run.okOr value .invalidConfiguration

def optionalStringArray (key : String) : JwtResult (Option (List String)) := do
  Run.ensure ((config.get key).isNone ∧
    ∀ values ∈ config.getStringArray key, values ≠ [] ∧ "" ∉ values) .invalidConfiguration
  pure (config.getStringArray key)

/-- A number, where a value is given. -/
def parseOptionalU64 (key : String) : JwtResult (Option UInt64) := do
  let value ← optionalScalar config key
  match value with
  | none => pure none
  | some value => some <$> Run.okOr (parseU64 value) .invalidConfiguration

end Values

def parseAlgorithm (value : String) : JwtResult JwtAlgorithm :=
  match JwtAlgorithm.fromStr value with
  | .ok algorithm => pure algorithm
  | .error _ => Run.fail .invalidConfiguration

theorem parseAlgorithm_eq_ok {value : String} {algorithm : JwtAlgorithm} :
    parseAlgorithm value = .ok algorithm ↔ value = algorithm.asStr := by
  rw [← JwtAlgorithm.fromStr_eq_ok, parseAlgorithm]
  cases JwtAlgorithm.fromStr value with
  | ok found => rfl
  | error e => exact iff_of_false nofun nofun

def deduplicateAlgorithms (values : List String) : JwtResult (List JwtAlgorithm) :=
  values.foldlM (fun algorithms value => do
    let algorithm ← parseAlgorithm value
    pure (if algorithm ∈ algorithms then algorithms else algorithms ++ [algorithm])) []

def deduplicateStrings (values : List String) : List String :=
  values.foldl (fun kept value => if value ∈ kept then kept else kept ++ [value]) []

/-- The algorithm of a single secret. -/
def simpleAlgorithm : List JwtAlgorithm → JwtResult JwtAlgorithm
  | [algorithm] => do
    Run.ensure (algorithm.isHmac = true) .invalidConfiguration
    pure algorithm
  | _ => Run.fail .invalidConfiguration

def parseSimpleHmacMode (config : Config) : JwtResult (PassportKeyMode × List JwtAlgorithm) := do
  let secret ← requiredScalar config "passport.secret"
  let values ← optionalStringArray config "passport.algorithms"
  let algorithms ← (values.map deduplicateAlgorithms).getD (pure [.hs256])
  let algorithm ← simpleAlgorithm algorithms
  Run.ensure (minimumHmacSecretBytes algorithm ≤ secret.utf8ByteSize) .invalidConfiguration
  pure (.simpleHmac secret.toUTF8, algorithms)

/-! ## Named keys -/

def namedKeyPrefix (key : String) : Bool :=
  key = "passport.active_key" || (Text.stripPrefix key "passport.keys.").isSome

def hasNamedKeyFields (config : Config) : Bool :=
  config.values.keys.any namedKeyPrefix || config.stringArrays.keys.any namedKeyPrefix

def namedAlgorithms (config : Config) : JwtResult (List JwtAlgorithm) := do
  let values ← optionalStringArray config "passport.algorithms"
  let values ← Run.okOr values .invalidConfiguration
  let algorithms ← values.foldlM (fun algorithms value => do
    let algorithm ← parseAlgorithm value
    Run.ensure (algorithm ∉ algorithms) .invalidConfiguration
    pure (algorithms ++ [algorithm])) []
  Run.ensure (algorithms ≠ []) .invalidConfiguration
  pure algorithms

/-- A key id and a field, which stands after the last dot. -/
def namedKeyField (key : String) : Option (String × String) :=
  (Text.stripPrefix key "passport.keys.").bind (rsplitOnce · '.')

/-- The key under which a field of a named key stands. -/
def fieldKey (keyId field : String) : String := "passport.keys." ++ keyId ++ "." ++ field

theorem namedKeyField_eq_some {key keyId field : String} :
    namedKeyField key = some (keyId, field) ↔
      key = fieldKey keyId field ∧ '.' ∉ field.toList := by
  have hsplit (rest : String) : rest.toList = keyId.toList ++ '.' :: field.toList ↔
      rest = keyId ++ "." ++ field := by
    have hdot : ".".toList = ['.'] := rfl
    rw [← String.toList_inj, String.toList_append, String.toList_append, hdot, List.append_assoc,
      List.singleton_append]
  simp only [namedKeyField, Option.bind_eq_some_iff, stripPrefix_eq_some, rsplitOnce_eq_some,
    hsplit, fieldKey]
  constructor
  · rintro ⟨rest, rfl, rfl, hdot⟩
    exact ⟨by simp only [String.append_assoc], hdot⟩
  · rintro ⟨rfl, hdot⟩
    exact ⟨_, by simp only [String.append_assoc], rfl, hdot⟩

def validKeyId (keyId : String) : Bool :=
  keyId ≠ "" && keyId.utf8ByteSize ≤ 128 &&
    keyId.toList.all fun c => c.isAlphanum || c ∈ ['.', '_', '-']

structure NamedKeyFields where
  algorithm : Option String := none
  secret : Option String := none
  privateKey : Option String := none
  privateKeyFile : Option String := none
  publicKey : Option String := none
  publicKeyFile : Option String := none
  deriving DecidableEq, Repr

namespace NamedKeyFields

/-- Fills a field that is still empty. -/
def replace (old : Option String) (next : NamedKeyFields) : JwtResult NamedKeyFields := do
  Run.ensure (old = none) .invalidConfiguration
  pure next

def insert (fields : NamedKeyFields) (field value : String) : JwtResult NamedKeyFields :=
  match field with
  | "algorithm" => replace fields.algorithm { fields with algorithm := some value }
  | "secret" => replace fields.secret { fields with secret := some value }
  | "private_key" => replace fields.privateKey { fields with privateKey := some value }
  | "private_key_file" => replace fields.privateKeyFile { fields with privateKeyFile := some value }
  | "public_key" => replace fields.publicKey { fields with publicKey := some value }
  | "public_key_file" => replace fields.publicKeyFile { fields with publicKeyFile := some value }
  | _ => Run.fail .invalidConfiguration

end NamedKeyFields

/-- Groups one value under the id of its key. -/
def groupField (fieldsByKey : SortedMap String NamedKeyFields) (entry : String × ConfigValue) :
    JwtResult (SortedMap String NamedKeyFields) :=
  match namedKeyField entry.1 with
  | none => pure fieldsByKey
  | some (keyId, field) => do
    Run.ensure (validKeyId keyId = true) .invalidConfiguration
    let fields ← ((fieldsByKey.get keyId).getD {}).insert field entry.2.value
    pure (fieldsByKey.insert keyId fields)

/-! ## Key material -/

section Material

variable {EncodingKey DecodingKey : Type} (library : Jsonwebtoken EncodingKey DecodingKey)
  (platform : Platform) (config : Config)

/-- A call of the library on key material. -/
def keyMaterial {α : Type} (call : Except JsonwebtokenError α) : JwtResult α :=
  match call with
  | .ok value => pure value
  | .error _ => Run.fail .invalidKeyMaterial

def KeyMaterial.read : KeyMaterial → JwtResult ByteArray
  | .inline bytes => pure bytes
  | .file path => Run.okOr (platform.read path) .invalidKeyMaterial

def encodingKey (algorithm : JwtAlgorithm) (bytes : ByteArray) : JwtResult EncodingKey :=
  match algorithm with
  | .rs256 | .rs384 | .rs512 => keyMaterial (library.encodingFromRsaPem bytes)
  | .es256 | .es384 => keyMaterial (library.encodingFromEcPem bytes)
  | .hs256 | .hs384 | .hs512 => Run.fail .invalidKeyMaterial

def decodingKey (algorithm : JwtAlgorithm) (bytes : ByteArray) : JwtResult DecodingKey :=
  match algorithm with
  | .rs256 | .rs384 | .rs512 => keyMaterial (library.decodingFromRsaPem bytes)
  | .es256 | .es384 => keyMaterial (library.decodingFromEcPem bytes)
  | .hs256 | .hs384 | .hs512 => Run.fail .invalidKeyMaterial

def VALIDATION_MESSAGE : ByteArray := "mads-passport-key-validation".toUTF8

def validateDecodingKey (algorithm : JwtAlgorithm) (key : DecodingKey) : JwtResult Unit := do
  let _ ← keyMaterial (library.verify "" VALIDATION_MESSAGE key algorithm)
  pure ()

/-- A private key signs what the public key verifies. -/
def validateKeyPair (algorithm : JwtAlgorithm) (decodingKey : DecodingKey)
    (privateMaterial : KeyMaterial) : JwtResult Unit := do
  let privateBytes ← KeyMaterial.read platform privateMaterial
  let encodingKey ← encodingKey library algorithm privateBytes
  let signature ← keyMaterial (library.sign VALIDATION_MESSAGE encodingKey algorithm)
  let same ← keyMaterial (library.verify signature VALIDATION_MESSAGE decodingKey algorithm)
  Run.ensure (same = true) .invalidKeyMaterial

def validateAsymmetricMaterial (algorithm : JwtAlgorithm) (publicMaterial : KeyMaterial)
    (privateMaterial : Option KeyMaterial) : JwtResult Unit := do
  let publicBytes ← KeyMaterial.read platform publicMaterial
  let decodingKey ← decodingKey library algorithm publicBytes
  validateDecodingKey library algorithm decodingKey
  match privateMaterial with
  | some privateMaterial => validateKeyPair library platform algorithm decodingKey privateMaterial
  | none => pure ()

/-- Key material is given inline or as a file, not as both, and is not empty. -/
def materialSource (keyId : String) (inline : Option String) (fileField : String)
    (file : Option String) : JwtResult (Option KeyMaterial) :=
  match inline, file with
  | some _, some _ => Run.fail .invalidConfiguration
  | some value, none =>
    if value = "" then Run.fail .invalidConfiguration else pure (some (.inline value.toUTF8))
  | none, some value =>
    if value = "" then Run.fail .invalidConfiguration
    else do
      let path ← Run.okOr (config.resolvePath platform.currentDir (fieldKey keyId fileField))
        .invalidConfiguration
      pure (some (.file path))
  | none, none => pure none

/-- A key with a secret, and without key material. -/
def hmacKey (algorithm : JwtAlgorithm) (fields : NamedKeyFields)
    (privateKey publicKey : Option KeyMaterial) : JwtResult ConfiguredKey := do
  Run.ensure (privateKey.isNone ∧ publicKey.isNone) .invalidConfiguration
  let secret ← Run.okOr fields.secret .invalidConfiguration
  Run.ensure (secret ≠ "" ∧ minimumHmacSecretBytes algorithm ≤ secret.utf8ByteSize)
    .invalidConfiguration
  pure ⟨algorithm, some secret.toUTF8, none, none⟩

/-- A key with key material, and without a secret. -/
def asymmetricKey (algorithm : JwtAlgorithm) (fields : NamedKeyFields)
    (privateKey publicKey : Option KeyMaterial) (active : Bool) : JwtResult ConfiguredKey := do
  Run.ensure (fields.secret.isNone) .invalidConfiguration
  let publicKey ← Run.okOr publicKey .invalidConfiguration
  Run.ensure (active = true → privateKey.isSome) .invalidConfiguration
  validateAsymmetricMaterial library platform algorithm publicKey privateKey
  pure ⟨algorithm, none, privateKey, some publicKey⟩

def configuredKey (keyId : String) (fields : NamedKeyFields) (algorithms : List JwtAlgorithm)
    (active : Bool) : JwtResult ConfiguredKey := do
  let text ← Run.okOr fields.algorithm .invalidConfiguration
  let algorithm ← parseAlgorithm text
  Run.ensure (algorithm ∈ algorithms) .invalidConfiguration
  let privateKey ← materialSource platform config keyId fields.privateKey "private_key_file"
    fields.privateKeyFile
  let publicKey ← materialSource platform config keyId fields.publicKey "public_key_file"
    fields.publicKeyFile
  if algorithm.isHmac then hmacKey algorithm fields privateKey publicKey
  else asymmetricKey library platform algorithm fields privateKey publicKey active

def parseNamedKeyMode : JwtResult (PassportKeyMode × List JwtAlgorithm) := do
  Run.ensure (config.stringArrays.keys.any namedKeyPrefix = false) .invalidConfiguration
  let algorithms ← namedAlgorithms config
  let activeKey ← requiredScalar config "passport.active_key"
  Run.ensure (validKeyId activeKey = true) .invalidConfiguration
  let fieldsByKey ← config.values.entries.foldlM groupField .empty
  Run.ensure (fieldsByKey.entries ≠ [] ∧ activeKey ∈ fieldsByKey.keys) .invalidConfiguration
  let keys ← collect (fun keyId fields =>
    configuredKey library platform config keyId fields algorithms (keyId = activeKey)) fieldsByKey
  pure (.named activeKey keys, algorithms)

def parseKeyMode : JwtResult (PassportKeyMode × List JwtAlgorithm) :=
  if hasNamedKeyFields config then do
    Run.ensure ((config.get "passport.secret").isNone ∧
      (config.getStringArray "passport.secret").isNone) .invalidConfiguration
    parseNamedKeyMode library platform config
  else parseSimpleHmacMode config

end Material

end Passport

/-- `PassportConfig::from_config`. -/
def PassportConfig.fromConfig {EncodingKey DecodingKey : Type}
    (library : Jsonwebtoken EncodingKey DecodingKey) (platform : Platform) (config : Config) :
    JwtResult PassportConfig := do
  let (mode, algorithms) ← Passport.parseKeyMode library platform config
  let issuer ← Passport.optionalScalar config "passport.issuer"
  let audiences ← Passport.optionalStringArray config "passport.audiences"
  let clockSkewSeconds ← Passport.parseOptionalU64 config "passport.clock_skew_seconds"
  let maxTokenBytes ← Passport.parseOptionalU64 config "passport.max_token_bytes"
  let maxTokenBytes := maxTokenBytes.getD DEFAULT_MAX_TOKEN_BYTES
  Run.ensure (maxTokenBytes ≠ 0) .invalidConfiguration
  pure {
    mode
    algorithms
    issuer
    audiences := (audiences.map Passport.deduplicateStrings).getD []
    clockSkewSeconds := clockSkewSeconds.getD 0
    maxTokenBytes }

end Mads
