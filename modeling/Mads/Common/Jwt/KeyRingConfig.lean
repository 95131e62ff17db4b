import Mads.Common.Jwt.Service

/-!
# A key ring for every configuration

Flat configuration keys are grouped by key id, each group is validated, and the ring caches a key
for each group.  The lookups of the grouped fields are the lookups of the configuration.
-/

namespace Mads

namespace Passport

/-! ## Grouping the fields of a key -/

namespace NamedKeyFields

/-- What stands in the field of a name. -/
def value (fields : NamedKeyFields) (field : String) : Option String :=
  if field = "algorithm" then fields.algorithm
  else if field = "secret" then fields.secret
  else if field = "private_key" then fields.privateKey
  else if field = "private_key_file" then fields.privateKeyFile
  else if field = "public_key" then fields.publicKey
  else if field = "public_key_file" then fields.publicKeyFile
  else none

@[simp] theorem value_default (field : String) : ({} : NamedKeyFields).value field = none := by
  simp [value]

theorem replace_eq_ok {old : Option String} {next fields : NamedKeyFields} :
    replace old next = .ok fields ↔ old = none ∧ next = fields := by
  rw [replace, Run.ensure_bind_eq_ok, Run.pure_eq_ok, Except.ok.injEq]

/-- A field is filled once, and no other field with it. -/
theorem value_of_insert {fields next : NamedKeyFields} {field value : String}
    (h : fields.insert field value = .ok next) :
    fields.value field = none ∧
      ∀ name, next.value name = if name = field then some value else fields.value name := by
  unfold insert at h
  split at h
  all_goals first
    | cases h
    | obtain ⟨hold, rfl⟩ := replace_eq_ok.mp h
      refine ⟨by simpa [NamedKeyFields.value] using hold, fun name => ?_⟩
      unfold NamedKeyFields.value
      split_ifs <;> simp_all

end NamedKeyFields

/-- The values that were seen, under the ids and fields of their keys. -/
structure Grouped (seen : List (String × ConfigValue)) (map : SortedMap String NamedKeyFields) :
    Prop where
  keys : ∀ keyId, keyId ∈ map.keys ↔
    ∃ entry ∈ seen, ∃ field, namedKeyField entry.1 = some (keyId, field)
  value : ∀ keyId field value, ((map.get keyId).getD {}).value field = some value ↔
    ∃ entry ∈ seen, namedKeyField entry.1 = some (keyId, field) ∧ entry.2.value = value

theorem Grouped.empty : Grouped [] .empty where
  keys := by simp [SortedMap.mem_keys]
  value := by simp

theorem Grouped.step {seen : List (String × ConfigValue)} {map next : SortedMap String NamedKeyFields}
    {entry : String × ConfigValue} (hmap : Grouped seen map) (h : groupField map entry = .ok next) :
    Grouped (seen ++ [entry]) next := by
  unfold groupField at h
  split at h
  · next hnone =>
    obtain rfl : map = next := Except.ok.inj h
    -- a key of something else is skipped
    constructor
    · intro keyId
      simp [hmap.keys, List.mem_append, or_and_right, exists_or, hnone]
    · intro keyId field value
      simp [hmap.value, List.mem_append, or_and_right, exists_or, hnone]
  · next keyId field hfield =>
    obtain ⟨_, _, h⟩ := Run.bind_eq_ok.mp h
    obtain ⟨fields, hinsert, h⟩ := Run.bind_eq_ok.mp h
    obtain rfl : map.insert keyId fields = next := Except.ok.inj h
    obtain ⟨hempty, hvalue⟩ := NamedKeyFields.value_of_insert hinsert
    constructor
    · intro id
      rw [SortedMap.mem_keys_insert, hmap.keys]
      simp [List.mem_append, or_and_right, exists_or, hfield, or_comm, eq_comm]
    · intro id name value
      simp only [List.mem_append, or_and_right, exists_or, List.mem_singleton, exists_eq_left,
        ← hmap.value, hfield, Option.some.injEq, Prod.mk.injEq]
      by_cases hid : id = keyId
      · subst hid
        rw [SortedMap.get_insert_self, Option.getD_some, hvalue]
        by_cases hname : name = field
        · subst hname
          simp [hempty]
        · simp [hname, Ne.symm hname]
      · rw [SortedMap.get_insert_of_ne hid]
        simp [Ne.symm hid]

section Entries

variable {config : Config} {map : SortedMap String NamedKeyFields}
  (h : config.values.entries.foldlM groupField .empty = .ok map)

include h

theorem groupField_grouped : Grouped config.values.entries map :=
  Run.foldlM_seen (fun _ _ _ _ => Grouped.step) Grouped.empty h

/-- The ids of the groups are the ids that occur in the configuration. -/
theorem mem_keys_groupField (keyId : String) : keyId ∈ map.keys ↔
    ∃ field, '.' ∉ field.toList ∧ fieldKey keyId field ∈ config.values.keys := by
  rw [(groupField_grouped h).keys]
  simp only [namedKeyField_eq_some, SortedMap.keys, List.mem_map]
  constructor
  · rintro ⟨entry, hentry, field, hkey, hdot⟩
    exact ⟨field, hdot, entry, hentry, hkey⟩
  · rintro ⟨field, hdot, entry, hentry, hkey⟩
    exact ⟨entry, hentry, field, hkey, hdot⟩

/-- A group holds what the configuration says about its own id. -/
theorem value_groupField {keyId : String} {fields : NamedKeyFields}
    (hfields : map.get keyId = some fields) (field : String) (hdot : '.' ∉ field.toList) :
    fields.value field = config.get (fieldKey keyId field) := by
  ext value
  have hvalue := (groupField_grouped h).value keyId field value
  rw [hfields, Option.getD_some] at hvalue
  simp only [hvalue, namedKeyField_eq_some, Config.get, Option.map_eq_some_iff,
    SortedMap.get_eq_some]
  constructor
  · rintro ⟨⟨key, value⟩, hentry, ⟨rfl, -⟩, hvalue⟩
    exact ⟨value, hentry, hvalue⟩
  · rintro ⟨value, hentry, hvalue⟩
    exact ⟨⟨_, value⟩, hentry, ⟨rfl, hdot⟩, hvalue⟩

end Entries

/-! ## From the fields of a key to the cached key -/

section Material

variable {EncodingKey DecodingKey : Type} (library : Jsonwebtoken EncodingKey DecodingKey)
  (platform : Platform) (config : Config) (keyId : String)

/-- Key material stands under one field of a key, or in the file that another field names. -/
inductive MaterialAt (inlineField fileField : String) (bytes : ByteArray) : Prop
  | inline (value : String) (hinline : config.get (fieldKey keyId inlineField) = some value)
      (hfile : config.get (fieldKey keyId fileField) = none) (hbytes : bytes = value.toUTF8)
  | file (path : String) (hinline : config.get (fieldKey keyId inlineField) = none)
      (hfile : config.resolvePath platform.currentDir (fieldKey keyId fileField) = some path)
      (hbytes : platform.read path = some bytes)

/-- A cached key is built from the fields of its own id: from a secret that is long enough, or
from key material and no secret. -/
inductive BuiltFromFields (key : CachedKey EncodingKey DecodingKey) : Prop
  | hmac (secret : String)
      (halgorithm : config.get (fieldKey keyId "algorithm") = some key.algorithm.asStr)
      (hhmac : key.algorithm.isHmac = true)
      (hsecret : config.get (fieldKey keyId "secret") = some secret)
      (hlength : minimumHmacSecretBytes key.algorithm ≤ secret.utf8ByteSize)
      (hmaterial : ∀ field ∈ ["private_key", "private_key_file", "public_key", "public_key_file"],
        config.get (fieldKey keyId field) = none)
      (hencoding : key.encodingKey = some (library.encodingFromSecret secret.toUTF8))
      (hdecoding : key.decodingKey = library.decodingFromSecret secret.toUTF8)
  | asymmetric (publicBytes : ByteArray)
      (halgorithm : config.get (fieldKey keyId "algorithm") = some key.algorithm.asStr)
      (hhmac : key.algorithm.isHmac = false)
      (hsecret : config.get (fieldKey keyId "secret") = none)
      (hpublic : MaterialAt platform config keyId "public_key" "public_key_file" publicBytes)
      (hdecoding : decodingKey library key.algorithm publicBytes = .ok key.decodingKey)
      (hprivate : ∀ encoding ∈ key.encodingKey, ∃ privateBytes,
        MaterialAt platform config keyId "private_key" "private_key_file" privateBytes ∧
          encodingKey library key.algorithm privateBytes = .ok encoding)
      (hverifier : key.encodingKey = none → config.get (fieldKey keyId "private_key") = none ∧
        config.get (fieldKey keyId "private_key_file") = none)

variable {library platform config keyId}

/-- The fields of a group, read from the configuration. -/
structure FieldsOf (config : Config) (keyId : String) (fields : NamedKeyFields) : Prop where
  algorithm : fields.algorithm = config.get (fieldKey keyId "algorithm")
  secret : fields.secret = config.get (fieldKey keyId "secret")
  privateKey : fields.privateKey = config.get (fieldKey keyId "private_key")
  privateKeyFile : fields.privateKeyFile = config.get (fieldKey keyId "private_key_file")
  publicKey : fields.publicKey = config.get (fieldKey keyId "public_key")
  publicKeyFile : fields.publicKeyFile = config.get (fieldKey keyId "public_key_file")

theorem fieldsOf_groupField {map : SortedMap String NamedKeyFields}
    (h : config.values.entries.foldlM groupField .empty = .ok map) {fields : NamedKeyFields}
    (hfields : map.get keyId = some fields) : FieldsOf config keyId fields where
  algorithm := value_groupField h hfields "algorithm" (by decide)
  secret := value_groupField h hfields "secret" (by decide)
  privateKey := value_groupField h hfields "private_key" (by decide)
  privateKeyFile := value_groupField h hfields "private_key_file" (by decide)
  publicKey := value_groupField h hfields "public_key" (by decide)
  publicKeyFile := value_groupField h hfields "public_key_file" (by decide)

theorem materialSource_eq_none {inline file : Option String} {fileField : String}
    (h : materialSource platform config keyId inline fileField file = .ok none) :
    inline = none ∧ file = none := by
  unfold materialSource at h
  split at h
  · cases h
  · split at h <;> cases h
  · split at h
    · cases h
    · obtain ⟨path, -, h⟩ := Run.okOr_bind_eq_ok.mp h
      cases h
  · exact ⟨rfl, rfl⟩

theorem materialAt_of_materialSource {inlineField fileField : String} {material : KeyMaterial}
    (h : materialSource platform config keyId (config.get (fieldKey keyId inlineField)) fileField
      (config.get (fieldKey keyId fileField)) = .ok (some material)) {bytes : ByteArray}
    (hread : KeyMaterial.read platform material = .ok bytes) :
    MaterialAt platform config keyId inlineField fileField bytes := by
  unfold materialSource at h
  split at h
  · cases h
  · next value hinline hfile =>
    split at h
    · cases h
    · cases h
      exact .inline value hinline hfile (Except.ok.inj hread).symm
  · next value hinline hfile =>
    split at h
    · cases h
    · obtain ⟨path, hpath, h⟩ := Run.okOr_bind_eq_ok.mp h
      cases h
      exact .file path hinline hpath (Run.okOr_eq_ok.mp hread)
  · cases h

/-- Material that was accepted is read again, with the same keys. -/
theorem validateAsymmetricMaterial_ok {algorithm : JwtAlgorithm} {publicMaterial : KeyMaterial}
    {privateMaterial : Option KeyMaterial}
    (h : validateAsymmetricMaterial library platform algorithm publicMaterial privateMaterial =
      .ok ()) :
    (∃ bytes key, KeyMaterial.read platform publicMaterial = .ok bytes ∧
      decodingKey library algorithm bytes = .ok key) ∧
    ∀ material ∈ privateMaterial, ∃ bytes key, KeyMaterial.read platform material = .ok bytes ∧
      encodingKey library algorithm bytes = .ok key := by
  unfold validateAsymmetricMaterial at h
  obtain ⟨publicBytes, hpublic, h⟩ := Run.bind_eq_ok.mp h
  obtain ⟨decoding, hdecoding, h⟩ := Run.bind_eq_ok.mp h
  obtain ⟨_, -, h⟩ := Run.bind_eq_ok.mp h
  refine ⟨⟨publicBytes, decoding, hpublic, hdecoding⟩, ?_⟩
  rintro material rfl
  obtain ⟨privateBytes, hprivate, h⟩ := Run.bind_eq_ok.mp h
  obtain ⟨encoding, hencoding, -⟩ := Run.bind_eq_ok.mp h
  exact ⟨privateBytes, encoding, hprivate, hencoding⟩

/-- What validation says of a configured key: caching it succeeds. -/
structure Cacheable (library : Jsonwebtoken EncodingKey DecodingKey) (platform : Platform)
    (config : Config) (keyId : String) (algorithms : List JwtAlgorithm) (active : Bool)
    (key : CachedKey EncodingKey DecodingKey) : Prop where
  allowed : key.algorithm ∈ algorithms
  built : BuiltFromFields library platform config keyId key
  signs : active = true → key.encodingKey.isSome

section Configured

variable {fields : NamedKeyFields} {algorithms : List JwtAlgorithm} {algorithm : JwtAlgorithm}
  {privateKey publicKey : Option KeyMaterial} {active : Bool} {configured : ConfiguredKey}
  (hfields : FieldsOf config keyId fields) (hallowed : algorithm ∈ algorithms)
  (halgorithm : fields.algorithm = some algorithm.asStr)
  (hprivate : materialSource platform config keyId fields.privateKey "private_key_file"
    fields.privateKeyFile = .ok privateKey)
  (hpublic : materialSource platform config keyId fields.publicKey "public_key_file"
    fields.publicKeyFile = .ok publicKey)

include hfields hallowed halgorithm hprivate hpublic

theorem cacheable_of_hmacKey (hhmac : algorithm.isHmac = true)
    (h : hmacKey algorithm fields privateKey publicKey = .ok configured) :
    ∃ key, KeyRing.fromConfigured library platform configured = .ok key ∧
      Cacheable library platform config keyId algorithms active key := by
  obtain ⟨⟨hnoPrivate, hnoPublic⟩, h⟩ := Run.ensure_bind_eq_ok.mp h
  obtain ⟨secret, hsecret, h⟩ := Run.okOr_bind_eq_ok.mp h
  obtain ⟨⟨-, hlength⟩, h⟩ := Run.ensure_bind_eq_ok.mp h
  obtain rfl := Except.ok.inj h
  rw [Option.isNone_iff_eq_none] at hnoPrivate hnoPublic
  subst hnoPrivate hnoPublic
  obtain ⟨hprivateKey, hprivateFile⟩ := materialSource_eq_none hprivate
  obtain ⟨hpublicKey, hpublicFile⟩ := materialSource_eq_none hpublic
  refine ⟨_, rfl, hallowed, ?_, fun _ => rfl⟩
  refine .hmac secret (hfields.algorithm ▸ halgorithm) hhmac (hfields.secret ▸ hsecret) hlength ?_
    rfl rfl
  simp [← hfields.privateKey, ← hfields.privateKeyFile, ← hfields.publicKey,
    ← hfields.publicKeyFile, hprivateKey, hprivateFile, hpublicKey, hpublicFile]

theorem cacheable_of_asymmetricKey (hhmac : algorithm.isHmac = false)
    (h : asymmetricKey library platform algorithm fields privateKey publicKey active =
      .ok configured) :
    ∃ key, KeyRing.fromConfigured library platform configured = .ok key ∧
      Cacheable library platform config keyId algorithms active key := by
  obtain ⟨hsecret, h⟩ := Run.ensure_bind_eq_ok.mp h
  obtain ⟨publicMaterial, rfl, h⟩ := Run.okOr_bind_eq_ok.mp h
  obtain ⟨hactive, h⟩ := Run.ensure_bind_eq_ok.mp h
  obtain ⟨_, hvalid, h⟩ := Run.bind_eq_ok.mp h
  obtain rfl := Except.ok.inj h
  obtain ⟨⟨publicBytes, decoding, hread, hdecoding⟩, hencodings⟩ :=
    validateAsymmetricMaterial_ok hvalid
  rw [hfields.publicKey, hfields.publicKeyFile] at hpublic
  rw [hfields.privateKey, hfields.privateKeyFile] at hprivate
  have hnoSecret := Option.isNone_iff_eq_none.mp hsecret
  have hpublicAt := materialAt_of_materialSource hpublic hread
  cases privateKey with
  | none =>
    refine ⟨⟨algorithm, none, decoding⟩, ?_, hallowed, ?_, fun h => ?_⟩
    · simp [KeyRing.fromConfigured, KeyRing.cachedEncodingKey, Run.okOr, hread, hdecoding]
    · refine .asymmetric publicBytes (hfields.algorithm ▸ halgorithm) hhmac
        (hfields.secret ▸ hnoSecret) hpublicAt hdecoding (fun _ hmem => ?_)
        fun _ => materialSource_eq_none hprivate
      cases hmem
    · exact absurd (hactive h) Bool.false_ne_true
  | some material =>
    obtain ⟨privateBytes, encoding, hreadPrivate, hencoding⟩ := hencodings material rfl
    refine ⟨⟨algorithm, some encoding, decoding⟩, ?_, hallowed, ?_, fun _ => rfl⟩
    · simp [KeyRing.fromConfigured, KeyRing.cachedEncodingKey, Run.okOr, hread, hdecoding,
        hreadPrivate, hencoding]
    · refine .asymmetric publicBytes (hfields.algorithm ▸ halgorithm) hhmac
        (hfields.secret ▸ hnoSecret) hpublicAt hdecoding (fun _ hmem => ?_) fun hnone => ?_
      · obtain rfl := Option.some.inj hmem
        exact ⟨privateBytes, materialAt_of_materialSource hprivate hreadPrivate, hencoding⟩
      · cases hnone

end Configured

/-- A key that the configuration is accepted with can be cached. -/
theorem cacheable_of_configuredKey {fields : NamedKeyFields} {algorithms : List JwtAlgorithm}
    {active : Bool} {configured : ConfiguredKey} (hfields : FieldsOf config keyId fields)
    (h : configuredKey library platform config keyId fields algorithms active = .ok configured) :
    ∃ key, KeyRing.fromConfigured library platform configured = .ok key ∧
      Cacheable library platform config keyId algorithms active key := by
  obtain ⟨text, htext, h⟩ := Run.okOr_bind_eq_ok.mp h
  obtain ⟨algorithm, hparse, h⟩ := Run.bind_eq_ok.mp h
  rw [parseAlgorithm_eq_ok.mp hparse] at htext
  obtain ⟨hallowed, h⟩ := Run.ensure_bind_eq_ok.mp h
  obtain ⟨privateKey, hprivate, h⟩ := Run.bind_eq_ok.mp h
  obtain ⟨publicKey, hpublic, h⟩ := Run.bind_eq_ok.mp h
  split at h
  · next hhmac => exact cacheable_of_hmacKey hfields hallowed htext hprivate hpublic hhmac h
  · next hhmac =>
    rw [Bool.not_eq_true] at hhmac
    exact cacheable_of_asymmetricKey hfields hallowed htext hprivate hpublic hhmac h

end Material

/-! ## The allowlist -/

/-- The algorithms that a configuration allows; without a list there is one. -/
def Allowed (config : Config) (algorithm : JwtAlgorithm) : Prop :=
  match config.getStringArray "passport.algorithms" with
  | some values => algorithm.asStr ∈ values
  | none => algorithm = .hs256

theorem mem_of_deduplicateAlgorithms {values : List String} {algorithms : List JwtAlgorithm}
    (h : deduplicateAlgorithms values = .ok algorithms) :
    ∀ algorithm ∈ algorithms, algorithm.asStr ∈ values := by
  refine Run.foldlM_invariant (P := fun kept => ∀ algorithm ∈ kept, algorithm.asStr ∈ values)
    ?_ (by simp) h
  intro kept hkept value hvalue next hnext
  obtain ⟨algorithm, hparse, hnext⟩ := Run.bind_eq_ok.mp hnext
  obtain rfl := Except.ok.inj hnext
  split
  · exact hkept
  · intro other hother
    obtain hother | hother := List.mem_append.mp hother
    · exact hkept other hother
    · rw [List.mem_singleton.mp hother, ← parseAlgorithm_eq_ok.mp hparse]
      exact hvalue

theorem optionalScalar_eq_ok {config : Config} {key : String} {value : Option String}
    (h : optionalScalar config key = .ok value) : config.get key = value := by
  obtain ⟨-, h⟩ := Run.ensure_bind_eq_ok.mp h
  exact Except.ok.inj h

theorem requiredScalar_eq_ok {config : Config} {key value : String}
    (h : requiredScalar config key = .ok value) : config.get key = some value := by
  obtain ⟨found, hfound, h⟩ := Run.bind_eq_ok.mp h
  rw [optionalScalar_eq_ok hfound]
  exact Run.okOr_eq_ok.mp h

theorem optionalStringArray_eq_ok {config : Config} {key : String} {values : Option (List String)}
    (h : optionalStringArray config key = .ok values) : config.getStringArray key = values := by
  obtain ⟨-, h⟩ := Run.ensure_bind_eq_ok.mp h
  exact Except.ok.inj h

theorem allowed_of_namedAlgorithms {config : Config} {algorithms : List JwtAlgorithm}
    (h : namedAlgorithms config = .ok algorithms) :
    ∀ algorithm ∈ algorithms, Allowed config algorithm := by
  unfold namedAlgorithms at h
  obtain ⟨given, hgiven, h⟩ := Run.bind_eq_ok.mp h
  obtain ⟨values, hvalues, h⟩ := Run.okOr_bind_eq_ok.mp h
  obtain ⟨found, hloop, h⟩ := Run.bind_eq_ok.mp h
  obtain ⟨-, h⟩ := Run.ensure_bind_eq_ok.mp h
  obtain rfl := Except.ok.inj h
  unfold Allowed
  rw [optionalStringArray_eq_ok hgiven, hvalues]
  refine Run.foldlM_invariant (P := fun kept => ∀ algorithm ∈ kept, algorithm.asStr ∈ values)
    ?_ (by simp) hloop
  intro kept hkept value hvalue next hnext
  obtain ⟨algorithm, hparse, hnext⟩ := Run.bind_eq_ok.mp hnext
  obtain ⟨-, hnext⟩ := Run.ensure_bind_eq_ok.mp hnext
  obtain rfl := Except.ok.inj hnext
  intro other hother
  obtain hother | hother := List.mem_append.mp hother
  · exact hkept other hother
  · rw [List.mem_singleton.mp hother, ← parseAlgorithm_eq_ok.mp hparse]
    exact hvalue

end Passport

/-! ## The ring -/

section Ring

open Passport

variable {EncodingKey DecodingKey : Type} (library : Jsonwebtoken EncodingKey DecodingKey)
  (platform : Platform) (config : Config)

/-- What a ring holds of a configuration: one secret, or a key for each id that occurs. -/
inductive KeyRing.BuiltFrom (algorithms : List JwtAlgorithm) :
    KeyRing EncodingKey DecodingKey → Prop
  | simple (algorithm : JwtAlgorithm) (secret : String) (hnamed : hasNamedKeyFields config = false)
      (hallowed : algorithm ∈ algorithms) (hhmac : algorithm.isHmac = true)
      (hsecret : config.get "passport.secret" = some secret)
      (hlength : minimumHmacSecretBytes algorithm ≤ secret.utf8ByteSize) :
      BuiltFrom algorithms (.simple algorithm (library.encodingFromSecret secret.toUTF8)
        (library.decodingFromSecret secret.toUTF8))
  | named (activeKey : String) (keys : SortedMap String (CachedKey EncodingKey DecodingKey))
      (hnamed : hasNamedKeyFields config = true)
      (hactive : config.get "passport.active_key" = some activeKey)
      (hids : ∀ keyId, keyId ∈ keys.keys ↔
        ∃ field, '.' ∉ field.toList ∧ fieldKey keyId field ∈ config.values.keys)
      (hallowed : ∀ keyId key, keys.get keyId = some key → key.algorithm ∈ algorithms)
      (hkeys : ∀ keyId key, keys.get keyId = some key →
        BuiltFromFields library platform config keyId key) :
      BuiltFrom algorithms (.named activeKey keys)

variable {library platform config}

/-- The groups of the configuration and the keys that are configured for them. -/
structure Configured (platform : Platform) (library : Jsonwebtoken EncodingKey DecodingKey)
    (config : Config) (activeKey : String) (algorithms : List JwtAlgorithm)
    (keys : SortedMap String ConfiguredKey) : Prop where
  active : activeKey ∈ keys.keys
  ids : ∀ keyId, keyId ∈ keys.keys ↔
    ∃ field, '.' ∉ field.toList ∧ fieldKey keyId field ∈ config.values.keys
  cacheable : ∀ keyId configured, keys.get keyId = some configured →
    ∃ key, KeyRing.fromConfigured library platform configured = .ok key ∧
      Cacheable library platform config keyId algorithms (keyId = activeKey) key

theorem parseNamedKeyMode_ok {mode : PassportKeyMode} {algorithms : List JwtAlgorithm}
    (h : parseNamedKeyMode library platform config = .ok (mode, algorithms)) :
    ∃ activeKey keys, mode = .named activeKey keys ∧
      config.get "passport.active_key" = some activeKey ∧
      (∀ algorithm ∈ algorithms, Allowed config algorithm) ∧
      Configured platform library config activeKey algorithms keys := by
  unfold parseNamedKeyMode at h
  obtain ⟨-, h⟩ := Run.ensure_bind_eq_ok.mp h
  obtain ⟨allowed, hallowed, h⟩ := Run.bind_eq_ok.mp h
  obtain ⟨activeKey, hactive, h⟩ := Run.bind_eq_ok.mp h
  obtain ⟨-, h⟩ := Run.ensure_bind_eq_ok.mp h
  obtain ⟨map, hmap, h⟩ := Run.bind_eq_ok.mp h
  obtain ⟨⟨-, hmem⟩, h⟩ := Run.ensure_bind_eq_ok.mp h
  obtain ⟨keys, hkeys, h⟩ := Run.bind_eq_ok.mp h
  cases h
  refine ⟨activeKey, keys, rfl, requiredScalar_eq_ok hactive, allowed_of_namedAlgorithms hallowed,
    (mem_keys_of_collect hkeys activeKey).mpr hmem, fun keyId => ?_,
    fun keyId configured hconfigured => ?_⟩
  · rw [mem_keys_of_collect hkeys, mem_keys_groupField hmap]
  · obtain ⟨fields, hfields, hcall⟩ := (get_of_collect hkeys keyId configured).mp hconfigured
    exact cacheable_of_configuredKey (fieldsOf_groupField hmap hfields) hcall

/-- Keys that were accepted can be cached, and the active one signs. -/
theorem Configured.cached {activeKey : String} {algorithms : List JwtAlgorithm}
    {keys : SortedMap String ConfiguredKey}
    (h : Configured platform library config activeKey algorithms keys) :
    ∃ cached, collect (fun _ key => KeyRing.fromConfigured library platform key) keys =
        .ok cached ∧ (∃ signer, (KeyRing.named activeKey cached).activeSigner = .ok signer) ∧
      (∀ keyId, keyId ∈ cached.keys ↔ keyId ∈ keys.keys) ∧
      ∀ keyId key, cached.get keyId = some key → key.algorithm ∈ algorithms ∧
        BuiltFromFields library platform config keyId key := by
  obtain ⟨cached, hcached⟩ := collect_ok fun keyId configured hconfigured =>
    (h.cacheable keyId configured hconfigured).imp fun _ hkey => hkey.1
  have hcacheable (keyId : String) (key : CachedKey EncodingKey DecodingKey)
      (hkey : cached.get keyId = some key) :
      Cacheable library platform config keyId algorithms (keyId = activeKey) key := by
    obtain ⟨configured, hconfigured, hcall⟩ := (get_of_collect hcached keyId key).mp hkey
    obtain ⟨key', hcall', hcacheable⟩ := h.cacheable keyId configured hconfigured
    rw [hcall, Except.ok.injEq] at hcall'
    exact hcall' ▸ hcacheable
  refine ⟨cached, hcached, ?_, mem_keys_of_collect hcached,
    fun keyId key hkey => ⟨(hcacheable keyId key hkey).allowed, (hcacheable keyId key hkey).built⟩⟩
  obtain ⟨key, hkey⟩ := SortedMap.mem_keys.mp ((mem_keys_of_collect hcached activeKey).mpr h.active)
  obtain ⟨encoding, hencoding⟩ := Option.isSome_iff_exists.mp
    ((hcacheable activeKey key hkey).signs (decide_eq_true rfl))
  exact ⟨(encoding, key.algorithm, some activeKey), by
    simp [KeyRing.activeSigner, Run.okOr, hkey, hencoding]⟩

theorem simpleAlgorithm_eq_ok {algorithms : List JwtAlgorithm} {algorithm : JwtAlgorithm}
    (h : simpleAlgorithm algorithms = .ok algorithm) :
    algorithms = [algorithm] ∧ algorithm.isHmac = true := by
  unfold simpleAlgorithm at h
  split at h
  · obtain ⟨hhmac, h⟩ := Run.ensure_bind_eq_ok.mp h
    obtain rfl := Except.ok.inj h
    exact ⟨rfl, hhmac⟩
  · cases h

theorem parseSimpleHmacMode_ok {mode : PassportKeyMode} {algorithms : List JwtAlgorithm}
    (h : parseSimpleHmacMode config = .ok (mode, algorithms)) :
    ∃ secret algorithm, mode = .simpleHmac secret.toUTF8 ∧ algorithms = [algorithm] ∧
      config.get "passport.secret" = some secret ∧ algorithm.isHmac = true ∧
      minimumHmacSecretBytes algorithm ≤ secret.utf8ByteSize ∧ Allowed config algorithm := by
  unfold parseSimpleHmacMode at h
  obtain ⟨secret, hsecret, h⟩ := Run.bind_eq_ok.mp h
  obtain ⟨values, hvalues, h⟩ := Run.bind_eq_ok.mp h
  obtain ⟨parsed, hparsed, h⟩ := Run.bind_eq_ok.mp h
  obtain ⟨algorithm, halgorithm, h⟩ := Run.bind_eq_ok.mp h
  obtain ⟨hlength, h⟩ := Run.ensure_bind_eq_ok.mp h
  cases h
  obtain ⟨rfl, hhmac⟩ := simpleAlgorithm_eq_ok halgorithm
  refine ⟨secret, algorithm, rfl, rfl, requiredScalar_eq_ok hsecret, hhmac, hlength, ?_⟩
  unfold Allowed
  rw [optionalStringArray_eq_ok hvalues]
  cases values with
  | none => exact (List.cons.inj (Except.ok.inj hparsed)).1.symm
  | some values => exact mem_of_deduplicateAlgorithms hparsed algorithm List.mem_cons_self

/-- Any mode that a configuration selects has a ring, whatever else the parsed configuration says. -/
theorem keyRing_of_parseKeyMode {mode : PassportKeyMode} {algorithms : List JwtAlgorithm}
    (hmode : parseKeyMode library platform config = .ok (mode, algorithms))
    {passport : PassportConfig} (hpassport : passport.mode = mode)
    (halgorithms : passport.algorithms = algorithms) :
    ∃ ring, KeyRing.fromConfig library platform passport = .ok ring ∧
      (∃ signer, ring.activeSigner = .ok signer) ∧
      KeyRing.BuiltFrom library platform config algorithms ring ∧
      ∀ algorithm ∈ algorithms, Allowed config algorithm := by
  unfold parseKeyMode at hmode
  split at hmode
  · next hnamed =>
    obtain ⟨-, hmode⟩ := Run.ensure_bind_eq_ok.mp hmode
    obtain ⟨activeKey, keys, rfl, hactive, hallowed, hkeys⟩ := parseNamedKeyMode_ok hmode
    obtain ⟨cached, hcached, hsigner, hids, hbuilt⟩ := hkeys.cached
    refine ⟨.named activeKey cached, ?_, hsigner, ?_, hallowed⟩
    · rw [KeyRing.fromConfig, hpassport]
      simp only [hcached]
      rfl
    · exact .named activeKey cached hnamed hactive (fun keyId => (hids keyId).trans (hkeys.ids keyId))
        (fun keyId key hkey => (hbuilt keyId key hkey).1)
        fun keyId key hkey => (hbuilt keyId key hkey).2
  · next hnamed =>
    obtain ⟨secret, algorithm, rfl, rfl, hsecret, hhmac, hlength, hallowed⟩ :=
      parseSimpleHmacMode_ok hmode
    refine ⟨.simple algorithm (library.encodingFromSecret secret.toUTF8)
      (library.decodingFromSecret secret.toUTF8), ?_, ⟨_, rfl⟩, ?_, by simpa using hallowed⟩
    · rw [KeyRing.fromConfig, hpassport, halgorithms]
      rfl
    · exact .simple algorithm secret (by simpa using hnamed) List.mem_cons_self hhmac hsecret
        hlength

theorem parseKeyMode_of_fromConfig {passport : PassportConfig}
    (h : PassportConfig.fromConfig library platform config = .ok passport) :
    parseKeyMode library platform config = .ok (passport.mode, passport.algorithms) ∧
      passport.maxTokenBytes ≠ 0 := by
  unfold PassportConfig.fromConfig at h
  obtain ⟨⟨mode, algorithms⟩, hmode, h⟩ := Run.bind_eq_ok.mp h
  obtain ⟨issuer, -, h⟩ := Run.bind_eq_ok.mp h
  obtain ⟨audiences, -, h⟩ := Run.bind_eq_ok.mp h
  obtain ⟨clockSkew, -, h⟩ := Run.bind_eq_ok.mp h
  obtain ⟨maxTokenBytes, -, h⟩ := Run.bind_eq_ok.mp h
  obtain ⟨hbytes, h⟩ := Run.ensure_bind_eq_ok.mp h
  obtain rfl := Except.ok.inj h
  exact ⟨hmode, hbytes⟩

/-- A configuration that is accepted has a key ring: it signs, its algorithms are allowed, and its
keys are built from their own fields. -/
theorem PassportConfig.fromConfig_keyRing (library : Jsonwebtoken EncodingKey DecodingKey)
    (platform : Platform) (config : Config) (passport : PassportConfig)
    (h : PassportConfig.fromConfig library platform config = .ok passport) :
    ∃ ring, KeyRing.fromConfig library platform passport = .ok ring ∧
      (∃ signer, ring.activeSigner = .ok signer) ∧
      KeyRing.BuiltFrom library platform config passport.algorithms ring ∧
      ∀ algorithm ∈ passport.algorithms, Allowed config algorithm :=
  keyRing_of_parseKeyMode (parseKeyMode_of_fromConfig h).1 rfl rfl

/-- The service is there for every configuration that is accepted: it signs, it takes tokens of some
length, and it asks for what the configuration says. -/
theorem JwtService.fromConfig_eq_ok {service : JwtService EncodingKey DecodingKey} :
    JwtService.fromConfig library platform config = .ok service ↔
      ∃ passport, PassportConfig.fromConfig library platform config = .ok passport ∧
        KeyRing.fromConfig library platform passport = .ok service.keyRing ∧
        (∃ signer, service.keyRing.activeSigner = .ok signer) ∧
        service.policy.maxTokenBytes ≠ 0 ∧
        service.policy = ⟨passport.issuer, passport.audiences, passport.clockSkewSeconds,
          passport.maxTokenBytes⟩ := by
  rw [JwtService.fromConfig, Run.bind_eq_ok]
  refine exists_congr fun passport => and_congr_right fun hpassport => ?_
  obtain ⟨hmode, hbytes⟩ := parseKeyMode_of_fromConfig hpassport
  obtain ⟨ring, hring, hsigner, -⟩ := keyRing_of_parseKeyMode hmode rfl rfl
  rw [fromPassportConfig, hring, Run.ok_bind]
  constructor
  · intro h
    obtain rfl := Except.ok.inj h
    exact ⟨rfl, hsigner, hbytes, rfl⟩
  · rintro ⟨hkeys, -, -, hpolicy⟩
    obtain ⟨keyRing, policy⟩ := service
    obtain rfl : ring = keyRing := Except.ok.inj hkeys
    obtain rfl := hpolicy
    rfl

end Ring

/-! ### A configuration with two named keys -/

/-- Keys of HMAC are their secrets; no key material is read, and nothing is signed. -/
def secretLibrary : Jsonwebtoken ByteArray ByteArray where
  encodingFromSecret secret := secret
  decodingFromSecret secret := secret
  encodingFromRsaPem _ := .error .invalidKeyFormat
  decodingFromRsaPem _ := .error .invalidKeyFormat
  encodingFromEcPem _ := .error .invalidKeyFormat
  decodingFromEcPem _ := .error .invalidKeyFormat
  sign _ _ _ := .error .other
  verify _ _ _ _ := .error .other
  encode _ _ _ := .error .other

def namedEntries : List (String × ConfigValue) :=
  [("passport.active_key", "main"),
    ("passport.keys.2026.01.algorithm", "HS256"),
    ("passport.keys.2026.01.secret", "01234567890123456789012345678901"),
    ("passport.keys.main.algorithm", "HS256"),
    ("passport.keys.main.secret", "abcdefghijabcdefghijabcdefghijab")].map fun (key, value) =>
      (key, ⟨value, ⟨"mads.toml", none⟩⟩)

theorem namedEntries_sorted : namedEntries.Pairwise fun left right => left.1 < right.1 := by
  decide +kernel

def namedConfig : Config where
  values := ⟨namedEntries, namedEntries_sorted⟩
  stringArrays := {
    entries := [("passport.algorithms", ⟨["HS256"], ⟨"mads.toml", none⟩⟩)]
    sorted := List.pairwise_singleton _ _ }

theorem PassportConfig.fromConfig_keyRing_sample : ∃ passport ring,
    PassportConfig.fromConfig secretLibrary ⟨fun _ => none, none⟩ namedConfig = .ok passport ∧
      KeyRing.fromConfig secretLibrary ⟨fun _ => none, none⟩ passport = .ok ring ∧
      KeyRing.BuiltFrom secretLibrary ⟨fun _ => none, none⟩ namedConfig passport.algorithms ring := by
  have hok : (PassportConfig.fromConfig secretLibrary ⟨fun _ => none, none⟩ namedConfig).isOk =
      true := by decide +kernel
  cases h : PassportConfig.fromConfig secretLibrary ⟨fun _ => none, none⟩ namedConfig with
  | error e =>
    rw [h] at hok
    cases hok
  | ok passport =>
    obtain ⟨ring, hring, -, hbuilt, -⟩ := PassportConfig.fromConfig_keyRing _ _ _ _ h
    exact ⟨passport, ring, rfl, hring, hbuilt⟩

end Mads
