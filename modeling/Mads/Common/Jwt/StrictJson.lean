import Mads.Common.Jwt.Claims
import Mads.Library.Json

/-!
# Strict JSON objects

The parts of a token are JSON objects in base64.  Reading is strict: it succeeds where no object has
a duplicate key, and then the value is that of the document.
-/

namespace Mads

open Json (Document Value)

/-- The decoder of base64 and the parser of JSON. -/
structure Encodings where
  base64 : String → Option ByteArray
  json : ByteArray → Option Document

mutual

/-- The value of what `StrictJsonVisitor` builds. -/
def strictValue : Document → Option Value
  | .null => some .null
  | .bool value => some (.bool value)
  | .number value => some (.number value)
  | .string value => some (.string value)
  | .array items => (strictItems items).map .array
  | .object members => (strictMembers members .empty).map fun values => .object values.entries

/-- `visit_seq`. -/
def strictItems : List Document → Option (List Value)
  | [] => some []
  | item :: items => do
    let value ← strictValue item
    let values ← strictItems items
    pure (value :: values)

/-- `visit_map`: a key that is there already is an error. -/
def strictMembers :
    List (String × Document) → SortedMap String Value → Option (SortedMap String Value)
  | [], values => some values
  | (key, member) :: members, values => do
    let value ← strictValue member
    if key ∈ values.keys then none else strictMembers members (values.insert key value)

end

mutual

theorem strictValue_eq_some (document : Document) (value : Value) :
    strictValue document = some value ↔ document.DuplicateFree ∧ value = document.value := by
  cases document with
  | null | bool | number | string =>
    simp [strictValue, Document.DuplicateFree, Document.value, eq_comm]
  | array items =>
    simp only [strictValue, Document.DuplicateFree, Document.value, Option.map_eq_some_iff,
      strictItems_eq_some items]
    constructor
    · rintro ⟨_, ⟨hfree, rfl⟩, rfl⟩
      exact ⟨hfree, rfl⟩
    · rintro ⟨hfree, rfl⟩
      exact ⟨_, ⟨hfree, rfl⟩, rfl⟩
  | object members =>
    simp only [strictValue, Document.DuplicateFree, Document.value, Option.map_eq_some_iff,
      strictMembers_eq_some members]
    constructor
    · rintro ⟨_, ⟨-, hnodup, hfree, rfl⟩, rfl⟩
      exact ⟨⟨hnodup, hfree⟩, rfl⟩
    · rintro ⟨⟨hnodup, hfree⟩, rfl⟩
      exact ⟨_, ⟨by simp [SortedMap.keys, SortedMap.empty], hnodup, hfree, rfl⟩, rfl⟩

theorem strictItems_eq_some (items : List Document) (values : List Value) :
    strictItems items = some values ↔
      Json.ItemsDuplicateFree items ∧ values = Json.itemValues items := by
  cases items with
  | nil => simp [strictItems, Json.ItemsDuplicateFree, Json.itemValues, eq_comm]
  | cons item items =>
    simp only [strictItems, Json.ItemsDuplicateFree, Json.itemValues, Option.bind_eq_bind,
      Option.bind_eq_some_iff, strictValue_eq_some item, strictItems_eq_some items]
    constructor
    · rintro ⟨_, ⟨hitem, rfl⟩, _, ⟨hitems, rfl⟩, h⟩
      exact ⟨⟨hitem, hitems⟩, (Option.some.inj h).symm⟩
    · rintro ⟨⟨hitem, hitems⟩, rfl⟩
      exact ⟨_, ⟨hitem, rfl⟩, _, ⟨hitems, rfl⟩, rfl⟩

theorem strictMembers_eq_some (members : List (String × Document))
    (values values' : SortedMap String Value) :
    strictMembers members values = some values' ↔
      (∀ key ∈ values.keys, key ∉ members.map (·.1)) ∧ (members.map (·.1)).Nodup ∧
        Json.MembersDuplicateFree members ∧ values' = Json.memberValues members values := by
  cases members with
  | nil => simp [strictMembers, Json.MembersDuplicateFree, Json.memberValues, eq_comm]
  | cons first members =>
    obtain ⟨key, member⟩ := first
    simp only [strictMembers, Json.MembersDuplicateFree, Json.memberValues, Option.bind_eq_bind,
      Option.bind_eq_some_iff, strictValue_eq_some member, Option.ite_none_left_eq_some,
      strictMembers_eq_some members, SortedMap.mem_keys_insert, List.map_cons, List.mem_cons,
      List.nodup_cons]
    constructor
    · rintro ⟨_, ⟨hmember, rfl⟩, hkey, hfresh, hnodup, hmembers, rfl⟩
      refine ⟨fun k hk => ?_, ⟨hfresh key (.inl rfl), hnodup⟩, ⟨hmember, hmembers⟩, rfl⟩
      rintro (rfl | hmem)
      · exact hkey hk
      · exact hfresh k (.inr hk) hmem
    · rintro ⟨hfresh, ⟨hkey, hnodup⟩, ⟨hmember, hmembers⟩, rfl⟩
      refine ⟨_, ⟨hmember, rfl⟩, fun hk => hfresh key hk (.inl rfl), ?_, hnodup, hmembers, rfl⟩
      rintro k (rfl | hk)
      · exact hkey
      · exact fun hmem => hfresh k hk (.inr hmem)

end

/-- The members of a strict document that is an object. -/
def strictObject : Document → Option (SortedMap String Value)
  | .object members => strictMembers members .empty
  | _ => none

variable (encodings : Encodings)

/-- What cannot be decoded, what has a duplicate key and what is no object is malformed alike. -/
def decodeJsonObject (encoded : String) : JwtResult (SortedMap String Value) := do
  let bytes ← Run.okOr (encodings.base64 encoded) .malformedToken
  let document ← Run.okOr (encodings.json bytes) .malformedToken
  Run.okOr (strictObject document) .malformedToken

/-- A part of a token is the encoded text of an object without duplicate keys. -/
def Encodings.Reads (encoded : String) (object : SortedMap String Value) : Prop :=
  ∃ bytes members, encodings.base64 encoded = some bytes ∧
    encodings.json bytes = some (.object members) ∧ (Document.object members).DuplicateFree ∧
    object = Json.memberValues members .empty

variable {encodings}

theorem decodeJsonObject_eq_ok {encoded : String} {object : SortedMap String Value} :
    decodeJsonObject encodings encoded = .ok object ↔ encodings.Reads encoded object := by
  simp only [decodeJsonObject, Run.okOr_bind_eq_ok, Run.okOr_eq_ok]
  constructor
  · rintro ⟨bytes, hbytes, document, hdocument, h⟩
    unfold strictObject at h
    split at h
    · next members =>
      obtain ⟨-, hnodup, hfree, rfl⟩ := (strictMembers_eq_some members .empty object).mp h
      exact ⟨bytes, members, hbytes, hdocument, ⟨hnodup, hfree⟩, rfl⟩
    · cases h
  · rintro ⟨bytes, members, hbytes, hdocument, ⟨hnodup, hfree⟩, rfl⟩
    refine ⟨bytes, hbytes, _, hdocument, ?_⟩
    refine (strictMembers_eq_some members .empty _).mpr ⟨?_, hnodup, hfree, rfl⟩
    simp [SortedMap.keys, SortedMap.empty]

end Mads
