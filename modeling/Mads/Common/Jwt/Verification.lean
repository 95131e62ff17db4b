import Mathlib
import Mads.Common.Jwt.Service

/-!
# The tokens that are verified

Each step of verification succeeds under one condition; a token is verified where all of them hold.
-/

namespace Mads

open Json (Value)

variable {EncodingKey DecodingKey : Type}

/-! ## The key that is tried -/

/-- The key of a ring for the key id in a header.  A single key is tried for every header. -/
inductive KeyRing.Selects :
    KeyRing EncodingKey DecodingKey → Option Value → DecodingKey → JwtAlgorithm → Prop
  | simple (algorithm : JwtAlgorithm) (encodingKey : EncodingKey) (decodingKey : DecodingKey)
      (keyId : Option Value) :
      Selects (.simple algorithm encodingKey decodingKey) keyId decodingKey algorithm
  | named (activeKey : String) (keys : SortedMap String (CachedKey EncodingKey DecodingKey))
      (keyId : String) (key : CachedKey EncodingKey DecodingKey) (hkey : keys.get keyId = some key) :
      Selects (.named activeKey keys) (some (.string keyId)) key.decodingKey key.algorithm

theorem KeyRing.verifier_eq_ok {ring : KeyRing EncodingKey DecodingKey} {keyId : Option String}
    {key : DecodingKey} {algorithm : JwtAlgorithm} :
    ring.verifier keyId = .ok (key, algorithm) ↔
      ring.Selects (keyId.map .string) key algorithm := by
  cases ring with
  | simple ringAlgorithm encodingKey decodingKey =>
    constructor
    · intro h
      cases h
      exact .simple _ _ _ _
    · rintro ⟨⟩
      rfl
  | named activeKey keys =>
    simp only [verifier, Run.okOr_bind_eq_ok, Run.pure_eq_ok, Except.ok.injEq, Prod.mk.injEq]
    constructor
    · rintro ⟨keyId, rfl, cached, hcached, rfl, rfl⟩
      exact .named activeKey keys keyId cached hcached
    · intro h
      cases keyId with
      | none => cases h
      | some keyId =>
        cases h with
        | named _ _ _ cached hcached => exact ⟨keyId, rfl, cached, hcached, rfl, rfl⟩

/-! ## The claims that are admitted -/

/-- What the policy of a service and a caller ask of registered claims. -/
structure JwtValidationPolicy.Admits (policy : JwtValidationPolicy) (validation : JwtValidation)
    (now : UInt64) (claims : RegisteredJwtClaims) : Prop where
  tokenKind : claims.tokenKind = validation.kind
  unexpired : now.toNat < claims.expiresAt.toNat + policy.clockSkewSeconds.toNat
  notBefore : ∀ notBefore ∈ claims.notBefore,
    notBefore.toNat ≤ now.toNat + policy.clockSkewSeconds.toNat
  issuer : ∀ expected ∈ policy.issuer, claims.issuer = some expected
  callerIssuer : ∀ expected ∈ validation.issuer, claims.issuer = some expected
  audience : policy.audiences ≠ [] → ∃ audience ∈ claims.audiences, audience ∈ policy.audiences
  callerAudience : ∀ expected ∈ validation.audience, expected ∈ claims.audiences
  subjectGiven : validation.requireSubject = true → claims.subject.isSome
  callerSubject : ∀ expected ∈ validation.subject, claims.subject = some expected
  jwtIdGiven : validation.requireJwtId = true → claims.jwtId.isSome
  callerJwtId : ∀ expected ∈ validation.jwtId, claims.jwtId = some expected

namespace JwtService

variable {library : Jsonwebtoken EncodingKey DecodingKey} {encodings : Encodings}
  {service : JwtService EncodingKey DecodingKey}

theorem validateClaims_eq_ok {header : JwtHeader} {claims : RegisteredJwtClaims}
    {validation : JwtValidation} {now : UInt64} (hskew : service.policy.clockSkewSeconds ≤ now) :
    service.validateClaims header claims validation now = .ok () ↔
      header.tokenType = some validation.kind.headerType ∧
        service.policy.Admits validation now claims := by
  have hexpiry : ¬ claims.expiresAt ≤ Saturating.sub now service.policy.clockSkewSeconds ↔
      now.toNat < claims.expiresAt.toNat + service.policy.clockSkewSeconds.toNat := by
    rw [UInt64.le_iff_toNat_le] at hskew ⊢
    rw [Saturating.toNat_sub]
    omega
  simp only [validateClaims, Run.ensure_bind_eq_ok, Run.ensure_eq_ok, hexpiry, gt_iff_lt,
    UInt64.not_lt, Saturating.le_add_iff]
  constructor
  · rintro ⟨⟨htype, hkind⟩, hexp, hnbf, hiss, hiss', haud, haud', hsub, hsub', hjti, hjti'⟩
    exact ⟨htype, hkind, hexp, hnbf, hiss, hiss', haud, haud', hsub, hsub', hjti, hjti'⟩
  · rintro ⟨htype, hkind, hexp, hnbf, hiss, hiss', haud, haud', hsub, hsub', hjti, hjti'⟩
    exact ⟨⟨htype, hkind⟩, hexp, hnbf, hiss, hiss', haud, haud', hsub, hsub', hjti, hjti'⟩

theorem mapLibraryError_eq_ok {α : Type} {kind : JsonwebtokenError → JwtErrorKind}
    {call : Except JsonwebtokenError α} {value : α} :
    mapLibraryError kind call = .ok value ↔ call = .ok value := by
  cases call with
  | ok found => rw [mapLibraryError, Run.pure_eq_ok, Except.ok.injEq, Except.ok.injEq]
  | error error => exact iff_of_false nofun nofun

theorem verifySignature_eq_ok {token header payload signature : String} {key : DecodingKey}
    {algorithm : JwtAlgorithm} (hparts : TokenParts token header payload signature) :
    verifySignature library token key algorithm = .ok () ↔
      library.verify signature (header ++ "." ++ payload).toUTF8 key algorithm = .ok true := by
  unfold verifySignature
  rw [hparts.rsplitOnce_eq, Run.okOr_bind_eq_ok]
  simp only [Run.bind_eq_ok, mapLibraryError_eq_ok, Run.ensure_eq_ok]
  constructor
  · rintro ⟨_, heq, _, hverify, rfl⟩
    cases heq
    exact hverify
  · intro hverify
    exact ⟨_, rfl, true, hverify, rfl⟩

/-! ## The tokens that are admitted -/

/-- The parts of a token, and the objects that its header and its payload encode. -/
structure Reading where
  encodedHeader : String
  encodedPayload : String
  signature : String
  header : SortedMap String Value
  claims : SortedMap String Value

/-- The conditions on a token, its key and its claims, apart from the form of an unused key id. -/
structure Admits (library : Jsonwebtoken EncodingKey DecodingKey) (encodings : Encodings)
    (service : JwtService EncodingKey DecodingKey) {C : Type} (deserialize : Value → Option C)
    (now : UInt64) (token : String) (validation : JwtValidation) (reading : Reading)
    (key : DecodingKey) (algorithm : JwtAlgorithm) (claims : JwtClaims C) : Prop where
  size : token.utf8ByteSize ≤ service.policy.maxTokenBytes.toNat
  parts : TokenParts token reading.encodedHeader reading.encodedPayload reading.signature
  header : encodings.Reads reading.encodedHeader reading.header
  headerNames : ∀ name ∈ reading.header.keys, name ∈ ["alg", "kid", "typ"]
  selected : service.keyRing.Selects (reading.header.get "kid") key algorithm
  algorithmName : reading.header.get "alg" = some (.string algorithm.asStr)
  signature : library.verify reading.signature
    (reading.encodedHeader ++ "." ++ reading.encodedPayload).toUTF8 key algorithm = .ok true
  payload : encodings.Reads reading.encodedPayload reading.claims
  registered : RegisteredMembers reading.claims claims.registered
  custom : deserialize (.object (customMembers reading.claims).entries) = some claims.custom
  tokenType : reading.header.get "typ" = some (.string validation.kind.headerType)
  requirements : service.policy.Admits validation now claims.registered

section Verify

variable {C : Type} {deserialize : Value → Option C} {now : UInt64} {token : String}
  {validation : JwtValidation}

theorem verify_eq_ok {verified : VerifiedJwt C} (hskew : service.policy.clockSkewSeconds ≤ now) :
    service.verify library encodings deserialize (some now) token validation = .ok verified ↔
      ∃ reading key, Admits library encodings service deserialize now token validation reading key
          verified.header.algorithm verified.claims ∧
        HeaderMembers reading.header verified.header := by
  simp only [verify, ensureTokenSize, Run.bind_eq_ok, Run.ensure_eq_ok, exists_const, Prod.exists,
    jwtParts_eq_ok, decodeJwtHeader_eq_ok, KeyRing.verifier_eq_ok, decodeClaims_eq_ok, unixNow,
    Run.okOr_eq_ok, Option.some.injEq]
  constructor
  · rintro ⟨hsize, encodedHeader, encodedPayload, signature, hparts, header,
      ⟨object, hobject, hheader⟩, key, algorithm, hkey, halgorithm, _, hsignature, claims,
      ⟨members, hmembers, hregistered, hcustom⟩, _, rfl, _, hvalid, h⟩
    cases h
    obtain rfl : header.algorithm = algorithm := halgorithm
    obtain ⟨htype, hadmits⟩ := (validateClaims_eq_ok hskew).mp hvalid
    refine ⟨⟨encodedHeader, encodedPayload, signature, object, members⟩, key, ?_, hheader⟩
    exact {
      size := hsize
      parts := hparts
      header := hobject
      headerNames := hheader.only
      selected := hheader.keyId ▸ hkey
      algorithmName := hheader.algorithm
      signature := (verifySignature_eq_ok hparts).mp hsignature
      payload := hmembers
      registered := hregistered
      custom := hcustom
      tokenType := by rw [hheader.tokenType, htype, Option.map_some]
      requirements := hadmits }
  · rintro ⟨reading, key, h, hheader⟩
    have htype : verified.header.tokenType = some validation.kind.headerType := by
      apply Option.map_injective (fun _ _ => Value.string.inj)
      rw [← hheader.tokenType, h.tokenType, Option.map_some]
    refine ⟨h.size, reading.encodedHeader, reading.encodedPayload, reading.signature, h.parts,
      verified.header, ⟨reading.header, h.header, hheader⟩, key, verified.header.algorithm,
      hheader.keyId ▸ h.selected, rfl, (), (verifySignature_eq_ok h.parts).mpr h.signature,
      verified.claims, ⟨reading.claims, h.payload, h.registered, h.custom⟩, now, rfl, (),
      (validateClaims_eq_ok hskew).mpr ⟨htype, h.requirements⟩, rfl⟩

/-- The outcome rests on what the library says about the key and the algorithm of the key id. -/
theorem verify_congr {other : Jsonwebtoken EncodingKey DecodingKey} {clock : Option UInt64}
    (h : ∀ header key algorithm, service.decodeHeader encodings token = .ok header →
      service.keyRing.Selects (header.keyId.map .string) key algorithm → ∀ signature message,
        other.verify signature message key algorithm =
          library.verify signature message key algorithm) :
    service.verify other encodings deserialize clock token validation =
      service.verify library encodings deserialize clock token validation := by
  unfold verify
  unfold decodeHeader at h
  cases hsize : service.ensureTokenSize token with
  | error e => rfl
  | ok done =>
    cases hparts : jwtParts token with
    | error e => rfl
    | ok parts =>
      obtain ⟨encodedHeader, encodedPayload, signature⟩ := parts
      cases hheader : decodeJwtHeader encodings encodedHeader with
      | error e => simp only [Run.ok_bind, hheader, Run.error_bind]
      | ok header =>
        cases hkey : service.keyRing.verifier header.keyId with
        | error e => simp only [Run.ok_bind, hheader, hkey, Run.error_bind]
        | ok selected =>
          obtain ⟨key, algorithm⟩ := selected
          have hsame (signature : String) (message : ByteArray) :
              other.verify signature message key algorithm =
                library.verify signature message key algorithm := by
            refine h header key algorithm ?_ (KeyRing.verifier_eq_ok.mp hkey) signature message
            simp only [hsize, hparts, Run.ok_bind, hheader]
          simp only [Run.ok_bind, hheader, hkey, verifySignature, hsame]

/-- A token is verified exactly where it is admitted and its key id, if there is one, is a string;
nothing else in a header bears on the key and the algorithm that are tried. -/
theorem verify_ok_iff (library : Jsonwebtoken EncodingKey DecodingKey) (encodings : Encodings)
    (service : JwtService EncodingKey DecodingKey) (deserialize : Value → Option C) (now : UInt64)
    (token : String) (validation : JwtValidation)
    (hskew : service.policy.clockSkewSeconds ≤ now) :
    ((∃ verified, service.verify library encodings deserialize (some now) token validation =
        .ok verified) ↔
      ∃ reading key algorithm claims, Admits library encodings service deserialize now token
          validation reading key algorithm claims ∧
        ∀ keyId, reading.header.get "kid" = some keyId → ∃ text, keyId = .string text) ∧
    ∀ other : Jsonwebtoken EncodingKey DecodingKey,
      (∀ header key algorithm, service.decodeHeader encodings token = .ok header →
        service.keyRing.Selects (header.keyId.map .string) key algorithm → ∀ signature message,
          other.verify signature message key algorithm =
            library.verify signature message key algorithm) →
      service.verify other encodings deserialize (some now) token validation =
        service.verify library encodings deserialize (some now) token validation := by
  refine ⟨⟨?_, ?_⟩, fun other => verify_congr⟩
  · rintro ⟨verified, hverified⟩
    obtain ⟨reading, key, hadmits, hheader⟩ := (verify_eq_ok hskew).mp hverified
    refine ⟨reading, key, _, _, hadmits, fun keyId hkeyId => ?_⟩
    rw [hheader.keyId] at hkeyId
    obtain ⟨text, -, htext⟩ := Option.map_eq_some_iff.mp hkeyId
    exact ⟨text, htext.symm⟩
  · rintro ⟨reading, key, algorithm, claims, hadmits, htext⟩
    have hkeyId : ∃ keyId : Option String, reading.header.get "kid" = keyId.map .string := by
      cases hkid : reading.header.get "kid" with
      | none => exact ⟨none, rfl⟩
      | some value =>
        obtain ⟨text, rfl⟩ := htext value hkid
        exact ⟨some text, rfl⟩
    obtain ⟨keyId, hkeyId⟩ := hkeyId
    let header : JwtHeader := ⟨algorithm, keyId, some validation.kind.headerType⟩
    exact ⟨⟨header, claims⟩, (verify_eq_ok hskew).mpr ⟨reading, key, hadmits,
      hadmits.headerNames, hadmits.algorithmName, hkeyId, hadmits.tokenType⟩⟩

/-- A token that is verified is decoded to the same claims without verification. -/
theorem decodeUnverified_of_verify {clock : Option UInt64} {verified : VerifiedJwt C}
    (h : service.verify library encodings deserialize clock token validation = .ok verified) :
    service.decodeHeader encodings token = .ok verified.header ∧
      service.decodeUnverified encodings deserialize token = .ok verified.claims := by
  unfold verify at h
  obtain ⟨_, hsize, h⟩ := Run.bind_eq_ok.mp h
  obtain ⟨⟨encodedHeader, encodedPayload, signature⟩, hparts, h⟩ := Run.bind_eq_ok.mp h
  obtain ⟨header, hheader, h⟩ := Run.bind_eq_ok.mp h
  obtain ⟨⟨key, algorithm⟩, -, h⟩ := Run.bind_eq_ok.mp h
  obtain ⟨-, h⟩ := Run.ensure_bind_eq_ok.mp h
  obtain ⟨_, -, h⟩ := Run.bind_eq_ok.mp h
  obtain ⟨claims, hclaims, h⟩ := Run.bind_eq_ok.mp h
  obtain ⟨now, -, h⟩ := Run.bind_eq_ok.mp h
  obtain ⟨_, -, h⟩ := Run.bind_eq_ok.mp h
  obtain rfl := Except.ok.inj h
  constructor
  · simp only [decodeHeader, hsize, hparts, hheader, Run.ok_bind]
  · simp only [decodeUnverified, hsize, hparts, hheader, hclaims, Run.ok_bind]

end Verify

/-! ### A service with one secret -/

section Sample

open Json (Document)

def sampleSecret : ByteArray := "01234567890123456789012345678901".toUTF8

/-- An encoded part of a token, its text, and the members that the text denotes; for a header, the
signature over it and the payload. -/
structure SamplePart where
  encoded : String
  text : String
  members : List (String × Document)
  signature : String := ""

def accessHeader : SamplePart where
  encoded := "eyJ0eXAiOiJtYWRzLWFjY2Vzcytqd3QiLCJhbGciOiJIUzI1NiJ9"
  text := "\x7b\"typ\":\"mads-access+jwt\",\"alg\":\"HS256\"\x7d"
  members := [("typ", .string "mads-access+jwt"), ("alg", .string "HS256")]
  signature := "KjPy8zuPk11OwmcJPakdsPccyr2hDPGqxPqvc_GsfKg"

def namedHeader : SamplePart where
  encoded := "eyJ0eXAiOiJtYWRzLWFjY2Vzcytqd3QiLCJhbGciOiJIUzI1NiIsImtpZCI6Im1haW4ifQ"
  text := "\x7b\"typ\":\"mads-access+jwt\",\"alg\":\"HS256\",\"kid\":\"main\"\x7d"
  members := [("typ", .string "mads-access+jwt"), ("alg", .string "HS256"),
    ("kid", .string "main")]
  signature := "_bKs_j8_d5TEgsIEjaLoozZ4eYobQi1AoFQTYTBYdEg"

/-- A header whose key id is a number. -/
def numberedHeader : SamplePart where
  encoded := "eyJ0eXAiOiJtYWRzLWFjY2Vzcytqd3QiLCJhbGciOiJIUzI1NiIsImtpZCI6NX0"
  text := "\x7b\"typ\":\"mads-access+jwt\",\"alg\":\"HS256\",\"kid\":5\x7d"
  members := [("typ", .string "mads-access+jwt"), ("alg", .string "HS256"),
    ("kid", .number (.posInt 5))]
  signature := "vWZXkrdKAwzHHnjWAuLdVvUq9IuQvNuy80gn5hUrwCE"

def accessPayload : SamplePart where
  encoded := "eyJleHAiOjE3MDAwMDA2MDAsImlhdCI6MTcwMDAwMDAwMCwicm9sZSI6ImFkbWluIiwidG9rZW5fdXNl" ++
    "IjoiYWNjZXNzIn0"
  text := "\x7b\"exp\":1700000600,\"iat\":1700000000,\"role\":\"admin\"," ++
    "\"token_use\":\"access\"\x7d"
  members := [("exp", .number (.posInt 1700000600)), ("iat", .number (.posInt 1700000000)),
    ("role", .string "admin"), ("token_use", .string "access")]

def sampleHeaders : List SamplePart := [accessHeader, namedHeader, numberedHeader]

def sampleEncodings : Encodings where
  base64 encoded := ((accessPayload :: sampleHeaders).find? fun part =>
    part.encoded = encoded).map (·.text.toUTF8)
  json bytes := ((accessPayload :: sampleHeaders).find? fun part =>
    part.text.toUTF8 = bytes).map (.object ·.members)

def sampleMessage (header : SamplePart) : String := header.encoded ++ "." ++ accessPayload.encoded

def sampleToken (header : SamplePart) : String := sampleMessage header ++ "." ++ header.signature

/-- A library that knows the signatures of the sample headers, and signs with a named key. -/
def sampleLibrary : Jsonwebtoken ByteArray ByteArray where
  encodingFromSecret secret := secret
  decodingFromSecret secret := secret
  encodingFromRsaPem _ := .error .invalidKeyFormat
  decodingFromRsaPem _ := .error .invalidKeyFormat
  encodingFromEcPem _ := .error .invalidKeyFormat
  decodingFromEcPem _ := .error .invalidKeyFormat
  sign _ _ _ := .error .other
  verify signature message key algorithm := .ok (key = sampleSecret ∧ algorithm = .hs256 ∧
    ∃ header ∈ sampleHeaders, message = (sampleMessage header).toUTF8 ∧
      signature = header.signature)
  encode header _ key :=
    if key = sampleSecret ∧ header = ⟨some "mads-access+jwt", .hs256, some "main"⟩ then
      .ok (sampleToken namedHeader)
    else .error .other

def sampleService : JwtService ByteArray ByteArray where
  keyRing := .simple .hs256 sampleSecret sampleSecret
  policy := { issuer := none, audiences := [], clockSkewSeconds := 0, maxTokenBytes := 8192 }

def sampleClaims : JwtClaims Value where
  registered := {
    issuer := none
    subject := none
    audiences := []
    expiresAt := 1700000600
    notBefore := none
    issuedAt := 1700000000
    jwtId := none
    tokenKind := .access }
  custom := .object [("role", .string "admin")]

def sampleReading (header : SamplePart) : Reading where
  encodedHeader := header.encoded
  encodedPayload := accessPayload.encoded
  signature := header.signature
  header := Json.memberValues header.members .empty
  claims := Json.memberValues accessPayload.members .empty

theorem sample_reads : ∀ part ∈ accessPayload :: sampleHeaders,
    sampleEncodings.Reads part.encoded (Json.memberValues part.members .empty) := by
  simp only [sampleHeaders, List.forall_mem_cons, List.not_mem_nil, false_imp_iff, implies_true,
    and_true]
  refine ⟨⟨_, _, rfl, rfl, ?_, rfl⟩, ⟨_, _, rfl, rfl, ?_, rfl⟩, ⟨_, _, rfl, rfl, ?_, rfl⟩,
    ⟨_, _, rfl, rfl, ?_, rfl⟩⟩
  · exact ⟨by decide, trivial, trivial, trivial, trivial, trivial⟩
  · exact ⟨by decide, trivial, trivial, trivial⟩
  · exact ⟨by decide, trivial, trivial, trivial, trivial⟩
  · exact ⟨by decide, trivial, trivial, trivial, trivial⟩

theorem sample_parts : ∀ header ∈ sampleHeaders,
    (sampleToken header).utf8ByteSize ≤ 8192 ∧ TokenParts (sampleToken header) header.encoded
      accessPayload.encoded header.signature := by
  have hparts : ∀ header ∈ sampleHeaders, (sampleToken header).utf8ByteSize ≤ 8192 ∧
      ∀ part ∈ [header.encoded, accessPayload.encoded, header.signature],
        part ≠ "" ∧ '.' ∉ part.toList := by decide +kernel
  intro header hheader
  obtain ⟨hsize, hpart⟩ := hparts header hheader
  exact ⟨hsize, rfl, fun part hmem => (hpart part hmem).1, fun part hmem => (hpart part hmem).2⟩

theorem sample_admits : ∀ header ∈ sampleHeaders,
    Admits sampleLibrary sampleEncodings sampleService some 1700000300 (sampleToken header)
      { kind := .access } (sampleReading header) sampleSecret .hs256 sampleClaims := by
  intro header hheader
  have hmembers : (∀ name ∈ (sampleReading header).header.keys, name ∈ ["alg", "kid", "typ"]) ∧
      (sampleReading header).header.get "alg" = some (.string "HS256") ∧
      (sampleReading header).header.get "typ" = some (.string "mads-access+jwt") := by
    revert header
    simp only [sampleHeaders, List.forall_mem_cons, List.not_mem_nil, false_imp_iff, implies_true,
      and_true]
    exact ⟨⟨by decide +kernel, rfl, rfl⟩, ⟨by decide +kernel, rfl, rfl⟩, by decide +kernel, rfl, rfl⟩
  exact {
    size := (sample_parts header hheader).1
    parts := (sample_parts header hheader).2
    header := sample_reads header (List.mem_cons_of_mem _ hheader)
    headerNames := hmembers.1
    selected := .simple _ _ _ _
    algorithmName := hmembers.2.1
    signature := by
      show Except.ok _ = Except.ok true
      rw [Except.ok.injEq, decide_eq_true_eq]
      exact ⟨rfl, rfl, header, hheader, rfl, rfl⟩
    payload := sample_reads accessPayload List.mem_cons_self
    registered := ⟨rfl, rfl, .none, rfl, rfl, rfl, rfl, rfl⟩
    custom := rfl
    tokenType := hmembers.2.2
    requirements := by constructor <;> simp [sampleService, sampleClaims] }

theorem verify_ok_iff_sample : ∃ verified, sampleService.verify sampleLibrary sampleEncodings
    (some : Value → Option Value) (some 1700000300) (sampleToken accessHeader)
      { kind := .access } = .ok verified :=
  (verify_ok_iff sampleLibrary sampleEncodings sampleService some 1700000300 _ _
    (by decide)).1.mpr ⟨_, _, _, _, sample_admits accessHeader List.mem_cons_self, nofun⟩

/-- A single key does not need a key id, but a key id that is no string is refused all the same. -/
theorem numbered_key_id_refused :
    (∃ reading key algorithm claims, Admits sampleLibrary sampleEncodings sampleService
      (some : Value → Option Value) 1700000300 (sampleToken numberedHeader)
      { kind := .access } reading key algorithm claims) ∧
    ¬ ∃ verified, sampleService.verify sampleLibrary sampleEncodings
      (some : Value → Option Value) (some 1700000300) (sampleToken numberedHeader)
      { kind := .access } = .ok verified := by
  have hnumbered : numberedHeader ∈ sampleHeaders := by simp [sampleHeaders]
  refine ⟨⟨_, _, _, _, sample_admits numberedHeader hnumbered⟩, ?_⟩
  rintro ⟨verified, hverified⟩
  obtain ⟨hheader, -⟩ := decodeUnverified_of_verify hverified
  unfold decodeHeader at hheader
  obtain ⟨_, -, hheader⟩ := Run.bind_eq_ok.mp hheader
  rw [jwtParts_eq_ok.mpr (sample_parts numberedHeader hnumbered).2, Run.ok_bind] at hheader
  obtain ⟨object, hobject, hmembers⟩ := decodeJwtHeader_eq_ok.mp hheader
  -- the header denotes one object, and its key id is a number
  have hread := decodeJsonObject_eq_ok.mpr (sample_reads numberedHeader (List.mem_cons_of_mem _ hnumbered))
  rw [decodeJsonObject_eq_ok.mpr hobject, Except.ok.injEq] at hread
  have hkeyId : object.get "kid" = some (.number (.posInt 5)) := hread ▸ rfl
  rw [hmembers.keyId] at hkeyId
  obtain ⟨text, -, htext⟩ := Option.map_eq_some_iff.mp hkeyId
  cases htext

end Sample

end JwtService

end Mads
