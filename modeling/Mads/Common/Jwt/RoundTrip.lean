import Mads.Common.Jwt.Verification

/-!
# Signed tokens are verified

The claims that are signed are read back, whether they are present or not.  The key that signed is
found again under its id, also when another key is active.
-/

namespace Mads

open Json (Value)

variable {EncodingKey DecodingKey : Type}

/-! ## The claims that are signed -/

theorem get_insertClaim {claims : SortedMap String Value} {name key : String}
    {value : Option Value} : (insertClaim claims name value).get key =
      (if key = name then value else none).or (claims.get key) := by
  cases value with
  | none => simp [insertClaim]
  | some value =>
    rw [insertClaim, SortedMap.get_insert]
    split <;> rfl

/-- A set of claims that leaves the reserved names alone. -/
def Unreserved (claims : SortedMap String Value) : Prop :=
  ∀ name ∈ claims.keys, name ∉ RESERVED_CLAIMS

section Claims

variable {claims : SortedMap String Value} {registered : RegisteredJwtClaims}

theorem Unreserved.get_eq_none (h : Unreserved claims) {name : String}
    (hname : name ∈ RESERVED_CLAIMS) : claims.get name = none :=
  SortedMap.get_eq_none.mpr fun hmem => h name hmem hname

/-- Registered claims are found where they were inserted. -/
theorem registeredMembers_insert (h : Unreserved claims) :
    RegisteredMembers (insertRegisteredClaims claims registered) registered := by
  have hnone : ∀ name ∈ RESERVED_CLAIMS, claims.get name = none := fun _ => h.get_eq_none
  simp only [RESERVED_CLAIMS, List.forall_mem_cons] at hnone
  constructor
  case audiences =>
    simp only [insertRegisteredClaims, get_insertClaim, SortedMap.get_insert, String.reduceEq,
      if_false, if_true, hnone, Option.none_or, Option.or_none]
    split
    · next hempty => exact hempty ▸ .none
    · exact .many registered.audiences
  case expiresAt | issuedAt | tokenKind =>
    simp [insertRegisteredClaims, get_insertClaim, SortedMap.get_insert]
  case issuer | subject | notBefore | jwtId =>
    simp [insertRegisteredClaims, get_insertClaim, SortedMap.get_insert, hnone]

/-- What is left without the registered claims is what they were inserted into. -/
theorem customMembers_insert (h : Unreserved claims) :
    customMembers (insertRegisteredClaims claims registered) = claims := by
  apply SortedMap.ext_get
  intro name
  rw [customMembers, SortedMap.get_foldl_erase]
  split
  · next hname => exact (h.get_eq_none hname).symm
  · next hname =>
    simp only [RESERVED_CLAIMS, List.mem_cons, List.not_mem_nil, or_false, not_or] at hname
    simp [insertRegisteredClaims, get_insertClaim, SortedMap.get_insert, hname]

theorem integerNumbers_insertClaim {name : String} {value : Option Value}
    (hclaims : (Value.object claims.entries).IntegerNumbers)
    (hvalue : ∀ found ∈ value, found.IntegerNumbers) :
    (Value.object (insertClaim claims name value).entries).IntegerNumbers := by
  cases value with
  | none => exact hclaims
  | some value => exact Json.integerNumbers_insert hclaims (hvalue value rfl)

theorem integerNumbers_insertRegisteredClaims
    (h : (Value.object claims.entries).IntegerNumbers) :
    (Value.object (insertRegisteredClaims claims registered).entries).IntegerNumbers := by
  have hstring (value : Option String) : ∀ found ∈ value.map Value.string, found.IntegerNumbers := by
    intro found hfound
    obtain ⟨text, -, rfl⟩ := Option.map_eq_some_iff.mp hfound
    trivial
  have hnumber (value : Option UInt64) :
      ∀ found ∈ value.map fun n => Value.number (.posInt n), found.IntegerNumbers := by
    intro found hfound
    obtain ⟨n, -, rfl⟩ := Option.map_eq_some_iff.mp hfound
    trivial
  have haudiences : ∀ found ∈ if registered.audiences = [] then none
      else some (Value.array (registered.audiences.map .string)), found.IntegerNumbers := by
    intro found hfound
    split at hfound
    · cases hfound
    · obtain rfl := Option.some.inj hfound
      apply Json.itemsIntegerNumbers_iff.mpr
      intro item hitem
      obtain ⟨text, -, rfl⟩ := List.mem_map.mp hitem
      trivial
  -- from the claim that is inserted last to the one that is inserted first
  refine Json.integerNumbers_insert ?_ trivial
  refine integerNumbers_insertClaim ?_ (hstring registered.jwtId)
  refine Json.integerNumbers_insert ?_ trivial
  refine integerNumbers_insertClaim ?_ (hnumber registered.notBefore)
  refine Json.integerNumbers_insert ?_ trivial
  refine integerNumbers_insertClaim ?_ haudiences
  refine integerNumbers_insertClaim ?_ (hstring registered.subject)
  exact integerNumbers_insertClaim h (hstring registered.issuer)

theorem objectCustomClaims_eq_ok {claims object : SortedMap String Value} :
    objectCustomClaims (some (.object claims.entries)) = .ok object ↔
      Unreserved claims ∧ object = claims := by
  simp only [objectCustomClaims, Run.okOr_bind_eq_ok, Option.some.injEq, exists_eq_left',
    SortedMap.foldl_insert_entries, Run.ensure_bind_eq_ok, Run.pure_eq_ok, Except.ok.injEq]
  exact and_congr_right fun _ => eq_comm

end Claims

/-! ## The library -/

/-- The members that the JWT library writes for a header. -/
def headerObject (header : JsonwebtokenHeader) : SortedMap String Value :=
  insertClaim (insertClaim (SortedMap.empty.insert "alg" (.string header.alg.asStr))
    "typ" (header.typ.map .string)) "kid" (header.kid.map .string)

theorem headerMembers_headerObject (header : JsonwebtokenHeader) :
    HeaderMembers (headerObject header) ⟨header.alg, header.kid, header.typ⟩ where
  only := by
    intro name hname
    obtain ⟨value, hvalue⟩ := SortedMap.mem_keys.mp hname
    rw [headerObject, get_insertClaim, get_insertClaim, SortedMap.get_insert] at hvalue
    by_contra hnot
    simp only [List.mem_cons, List.not_mem_nil, or_false, not_or] at hnot
    simp [hnot] at hvalue
  algorithm := by simp [headerObject, get_insertClaim]
  keyId := by simp [headerObject, get_insertClaim, SortedMap.get_insert]
  tokenType := by simp [headerObject, get_insertClaim, SortedMap.get_insert]

/-- What the library writes with an encoding key for claims without floats is a token of three parts:
its header and the claims read back, and its signature is valid for a decoding key. -/
def SignsFor (library : Jsonwebtoken EncodingKey DecodingKey) (encodings : Encodings)
    (encodingKey : EncodingKey) (decodingKey : DecodingKey) (algorithm : JwtAlgorithm)
    (claims : SortedMap String Value) : Prop :=
  ∀ (header : JsonwebtokenHeader) (token : String), header.alg = algorithm →
    (Value.object claims.entries).IntegerNumbers →
    library.encode header claims encodingKey = .ok token →
    ∃ encodedHeader encodedPayload signature,
      TokenParts token encodedHeader encodedPayload signature ∧
      encodings.Reads encodedHeader (headerObject header) ∧
      encodings.Reads encodedPayload claims ∧
      library.verify signature (encodedHeader ++ "." ++ encodedPayload).toUTF8 decodingKey
        algorithm = .ok true

/-- The signer of a ring can be verified with another: a single key is the same, and under the id of
a named key there is a key that verifies the same. -/
inductive KeyRing.KeepsSigner :
    KeyRing EncodingKey DecodingKey → KeyRing EncodingKey DecodingKey → Prop
  | simple (algorithm : JwtAlgorithm) (encodingKey : EncodingKey) (decodingKey : DecodingKey) :
      KeepsSigner (.simple algorithm encodingKey decodingKey)
        (.simple algorithm encodingKey decodingKey)
  | named (activeKey otherKey : String)
      (keys otherKeys : SortedMap String (CachedKey EncodingKey DecodingKey))
      (key kept : CachedKey EncodingKey DecodingKey) (hkey : keys.get activeKey = some key)
      (hkept : otherKeys.get activeKey = some kept) (halgorithm : kept.algorithm = key.algorithm)
      (hdecoding : kept.decodingKey = key.decodingKey) :
      KeepsSigner (.named activeKey keys) (.named otherKey otherKeys)

theorem KeyRing.KeepsSigner.verifier_eq {ring other : KeyRing EncodingKey DecodingKey}
    (h : ring.KeepsSigner other) {encodingKey : EncodingKey} {algorithm : JwtAlgorithm}
    {keyId : Option String} (hsigner : ring.activeSigner = .ok (encodingKey, algorithm, keyId)) :
    ∃ decodingKey, ring.verifier keyId = .ok (decodingKey, algorithm) ∧
      other.verifier keyId = .ok (decodingKey, algorithm) := by
  cases h with
  | simple ringAlgorithm encodingKey decodingKey =>
    cases hsigner
    exact ⟨decodingKey, rfl, rfl⟩
  | named activeKey otherKey keys otherKeys key kept hkey hkept halgorithm hdecoding =>
    simp only [activeSigner, Run.okOr_bind_eq_ok, hkey, Option.some.injEq, exists_eq_left',
      Run.pure_eq_ok, Except.ok.injEq, Prod.mk.injEq] at hsigner
    obtain ⟨_, -, -, rfl, rfl⟩ := hsigner
    refine ⟨key.decodingKey, ?_, ?_⟩
    · simp [verifier, Run.okOr, hkey]
    · simp [verifier, Run.okOr, hkept, halgorithm, hdecoding]

/-! ## The round trip -/

namespace JwtService

variable {library : Jsonwebtoken EncodingKey DecodingKey} {encodings : Encodings}
  {signer verifier : JwtService EncodingKey DecodingKey}

/-- The claims that a service signs at a time. -/
def registeredClaims (signer : JwtService EncodingKey DecodingKey) (issuedAt : UInt64)
    (options : JwtSignOptions) : RegisteredJwtClaims where
  issuer := signer.policy.issuer
  subject := options.subject
  audiences := signer.policy.audiences
  expiresAt := issuedAt + options.lifetime.secs
  notBefore := options.notBefore
  issuedAt := issuedAt
  jwtId := options.jwtId
  tokenKind := options.kind

/-- What a signed token is encoded from. -/
structure SignedFrom (library : Jsonwebtoken EncodingKey DecodingKey)
    (signer : JwtService EncodingKey DecodingKey) (issuedAt : UInt64)
    (custom : SortedMap String Value) (options : JwtSignOptions) (token : String)
    (encodingKey : EncodingKey) (algorithm : JwtAlgorithm) (keyId : Option String) : Prop where
  lifetime : (issuedAt + options.lifetime.secs).toNat =
    issuedAt.toNat + options.lifetime.secs.toNat
  unreserved : Unreserved custom
  active : signer.keyRing.activeSigner = .ok (encodingKey, algorithm, keyId)
  encoded : library.encode ⟨some options.kind.headerType, algorithm, keyId⟩
    (insertRegisteredClaims custom (signer.registeredClaims issuedAt options)) encodingKey =
      .ok token

theorem signedFrom_of_sign {issuedAt : UInt64} {custom : SortedMap String Value}
    {options : JwtSignOptions} {token : String}
    (h : signer.sign library (some issuedAt) (some (.object custom.entries)) options =
      .ok token) : ∃ encodingKey algorithm keyId,
        SignedFrom library signer issuedAt custom options token encodingKey algorithm keyId := by
  unfold sign at h
  obtain ⟨-, h⟩ := Run.ensure_bind_eq_ok.mp h
  obtain ⟨now, hnow, h⟩ := Run.okOr_bind_eq_ok.mp h
  obtain ⟨expiresAt, hexpiresAt, h⟩ := Run.okOr_bind_eq_ok.mp h
  obtain ⟨object, hobject, h⟩ := Run.bind_eq_ok.mp h
  obtain ⟨⟨encodingKey, algorithm, keyId⟩, hactive, h⟩ := Run.bind_eq_ok.mp h
  have hencoded := mapLibraryError_eq_ok.mp h
  obtain rfl := Option.some.inj hnow
  obtain ⟨hunreserved, rfl⟩ := objectCustomClaims_eq_ok.mp hobject
  have hlifetime := Saturating.checkedAdd_eq_some.mp hexpiresAt
  have hsum : expiresAt = issuedAt + options.lifetime.secs := by
    apply UInt64.toNat_inj.mp
    rw [Saturating.toNat_add_of_lt (hlifetime ▸ expiresAt.toNat_lt), hlifetime]
  subst hsum
  exact ⟨encodingKey, algorithm, keyId, hlifetime, hunreserved, hactive, hencoded⟩

/-- A verified token is of the kind that was asked for. -/
theorem tokenType_of_verify {C : Type} {deserialize : Value → Option C} {clock : Option UInt64}
    {token : String} {validation : JwtValidation} {verified : VerifiedJwt C}
    (h : verifier.verify library encodings deserialize clock token validation = .ok verified) :
    verified.header.tokenType = some validation.kind.headerType := by
  unfold verify at h
  obtain ⟨_, -, h⟩ := Run.bind_eq_ok.mp h
  obtain ⟨⟨encodedHeader, encodedPayload, signature⟩, -, h⟩ := Run.bind_eq_ok.mp h
  obtain ⟨header, -, h⟩ := Run.bind_eq_ok.mp h
  obtain ⟨⟨key, algorithm⟩, -, h⟩ := Run.bind_eq_ok.mp h
  obtain ⟨-, h⟩ := Run.ensure_bind_eq_ok.mp h
  obtain ⟨_, -, h⟩ := Run.bind_eq_ok.mp h
  obtain ⟨claims, -, h⟩ := Run.bind_eq_ok.mp h
  obtain ⟨now, -, h⟩ := Run.bind_eq_ok.mp h
  obtain ⟨_, hvalid, h⟩ := Run.bind_eq_ok.mp h
  obtain rfl := Except.ok.inj h
  exact (Run.ensure_bind_eq_ok.mp hvalid).1.1

/-- A service admits what it signs, at the times that the claims allow. -/
theorem admits_registeredClaims {issuedAt now : UInt64} {options : JwtSignOptions}
    (hnotBefore : ∀ notBefore ∈ options.notBefore,
      notBefore.toNat ≤ now.toNat + signer.policy.clockSkewSeconds.toNat)
    (hexpiry : now.toNat < (issuedAt + options.lifetime.secs).toNat +
      signer.policy.clockSkewSeconds.toNat) :
    signer.policy.Admits { kind := options.kind } now
      (signer.registeredClaims issuedAt options) where
  tokenKind := rfl
  unexpired := hexpiry
  notBefore := hnotBefore
  issuer _ h := h
  callerIssuer := nofun
  audience h := (List.exists_mem_of_ne_nil _ h).imp fun _ hmem => ⟨hmem, hmem⟩
  callerAudience := nofun
  subjectGiven := nofun
  callerSubject := nofun
  jwtIdGiven := nofun
  callerJwtId := nofun

/-- A token that is signed is verified with the claims that were signed, wherever its signer is kept,
and it is not verified as a token of the other kind. -/
theorem verify_sign (library : Jsonwebtoken EncodingKey DecodingKey) (encodings : Encodings)
    (signer verifier : JwtService EncodingKey DecodingKey) {C : Type}
    (deserialize : Value → Option C) (issuedAt now : UInt64) (custom : SortedMap String Value)
    (claims : C) (options : JwtSignOptions) (token : String)
    (hsign : signer.sign library (some issuedAt) (some (.object custom.entries)) options =
      .ok token)
    (hinteger : (Value.object custom.entries).IntegerNumbers)
    (hclaims : deserialize (.object custom.entries) = some claims)
    (hpolicy : verifier.policy = signer.policy)
    (hring : signer.keyRing.KeepsSigner verifier.keyRing)
    (hlibrary : ∀ encodingKey algorithm keyId decodingKey,
      signer.keyRing.activeSigner = .ok (encodingKey, algorithm, keyId) →
      signer.keyRing.verifier keyId = .ok (decodingKey, algorithm) →
      SignsFor library encodings encodingKey decodingKey algorithm
        (insertRegisteredClaims custom (signer.registeredClaims issuedAt options)))
    (hsize : token.utf8ByteSize ≤ signer.policy.maxTokenBytes.toNat)
    (hskew : signer.policy.clockSkewSeconds ≤ now)
    (hnotBefore : ∀ notBefore ∈ options.notBefore,
      notBefore.toNat ≤ now.toNat + signer.policy.clockSkewSeconds.toNat)
    (hexpiry : now.toNat < issuedAt.toNat + options.lifetime.secs.toNat +
      signer.policy.clockSkewSeconds.toNat) :
    (∃ header, verifier.verify library encodings deserialize (some now) token
      { kind := options.kind } =
        .ok ⟨header, ⟨signer.registeredClaims issuedAt options, claims⟩⟩) ∧
    ∀ clock validation verified, validation.kind ≠ options.kind →
      verifier.verify library encodings deserialize clock token validation ≠ .ok verified := by
  obtain ⟨encodingKey, algorithm, keyId, hsigned⟩ := signedFrom_of_sign hsign
  obtain ⟨decodingKey, hsigning, hverifying⟩ := hring.verifier_eq hsigned.active
  obtain ⟨encodedHeader, encodedPayload, signature, hparts, hheader, hpayload, hsignature⟩ :=
    hlibrary encodingKey algorithm keyId decodingKey hsigned.active hsigning _ _ rfl
      (integerNumbers_insertRegisteredClaims hinteger) hsigned.encoded
  have hmembers := headerMembers_headerObject ⟨some options.kind.headerType, algorithm, keyId⟩
  constructor
  · refine ⟨⟨algorithm, keyId, some options.kind.headerType⟩, ?_⟩
    rw [← hpolicy] at hsize hskew
    apply (verify_eq_ok hskew).mpr
    let reading : Reading := ⟨encodedHeader, encodedPayload, signature,
      headerObject ⟨some options.kind.headerType, algorithm, keyId⟩,
      insertRegisteredClaims custom (signer.registeredClaims issuedAt options)⟩
    refine ⟨reading, decodingKey, ?_, hmembers⟩
    exact {
      size := hsize
      parts := hparts
      header := hheader
      headerNames := hmembers.only
      selected := hmembers.keyId ▸ KeyRing.verifier_eq_ok.mp hverifying
      algorithmName := hmembers.algorithm
      signature := hsignature
      payload := hpayload
      registered := registeredMembers_insert hsigned.unreserved
      custom := by rw [customMembers_insert hsigned.unreserved, hclaims]
      tokenType := hmembers.tokenType
      requirements := hpolicy ▸
        admits_registeredClaims hnotBefore (hsigned.lifetime.symm ▸ hexpiry) }
  · -- the type in the header tells the two kinds of token apart
    intro clock validation verified hkind hverified
    have htype := tokenType_of_verify hverified
    obtain ⟨hdecoded, -⟩ := decodeUnverified_of_verify hverified
    unfold decodeHeader at hdecoded
    obtain ⟨_, -, hdecoded⟩ := Run.bind_eq_ok.mp hdecoded
    rw [jwtParts_eq_ok.mpr hparts, Run.ok_bind] at hdecoded
    change decodeJwtHeader encodings encodedHeader = .ok verified.header at hdecoded
    rw [decodeJwtHeader_eq_ok.mpr ⟨_, hheader, hmembers⟩, Except.ok.injEq] at hdecoded
    rw [← hdecoded, Option.some.injEq] at htype
    exact hkind (JwtTokenKind.headerType_injective htype).symm

/-! ### A key that is no longer active -/

section Sample

def sampleCachedKey : CachedKey ByteArray ByteArray :=
  ⟨.hs256, some sampleSecret, sampleSecret⟩

/-- A service that signs with a named key. -/
def samplePreviousService : JwtService ByteArray ByteArray where
  keyRing := .named "main" (SortedMap.empty.insert "main" sampleCachedKey)
  policy := sampleService.policy

/-- A service with a new key, which keeps the other one. -/
def sampleNextService : JwtService ByteArray ByteArray where
  keyRing := .named "next" ((SortedMap.empty.insert "main" sampleCachedKey).insert "next"
    ⟨.hs512, some "next".toUTF8, "next".toUTF8⟩)
  policy := sampleService.policy

def sampleCustom : SortedMap String Value := SortedMap.empty.insert "role" (.string "admin")

theorem verify_sign_sample : ∃ header, sampleNextService.verify sampleLibrary sampleEncodings some
    (some 1700000300) (sampleToken namedHeader) { kind := .access } =
      .ok ⟨header, sampleClaims⟩ := by
  have hnamed : namedHeader ∈ sampleHeaders := by simp [sampleHeaders]
  refine (verify_sign sampleLibrary sampleEncodings samplePreviousService sampleNextService some
    1700000000 1700000300 sampleCustom (.object [("role", .string "admin")])
    { kind := .access, lifetime := ⟨600, 0⟩ } (sampleToken namedHeader) ?_ ?_ rfl rfl ?_ ?_
    (sample_parts namedHeader hnamed).1 (by decide) ?_ (by decide)).1
  · decide +kernel
  · exact ⟨trivial, trivial⟩
  · exact .named "main" "next" _ _ sampleCachedKey sampleCachedKey (by simp) rfl rfl rfl
  · intro encodingKey algorithm keyId decodingKey hactive hverifier header token _ _ hencode
    have hsigner : samplePreviousService.keyRing.activeSigner =
        .ok (sampleSecret, .hs256, some "main") := rfl
    rw [hsigner] at hactive
    cases hactive
    have hkey : samplePreviousService.keyRing.verifier (some "main") =
        .ok (sampleSecret, .hs256) := rfl
    rw [hkey] at hverifier
    cases hverifier
    -- the library signs nothing but the sample
    simp only [sampleLibrary] at hencode
    split at hencode
    · next hheader =>
      obtain ⟨-, rfl⟩ := hheader
      cases hencode
      refine ⟨_, _, _, (sample_parts namedHeader hnamed).2,
        sample_reads namedHeader (List.mem_cons_of_mem _ hnamed),
        sample_reads accessPayload List.mem_cons_self,
        (sample_admits namedHeader hnamed).signature⟩
    · cases hencode
  · intro notBefore hnone
    cases hnone

end Sample

end JwtService

end Mads
