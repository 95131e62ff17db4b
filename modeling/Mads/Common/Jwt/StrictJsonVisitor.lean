import Mathlib
import Mads.Common.Jwt.StrictJson
import Mads.Library.JsonInput

/-!
# The visitor of strict JSON

What the visitor makes of a text is what `strictValue` makes of its document.
-/

namespace Mads

open Json (Document Input Number Value Visitor)

/-- An object is a map, given by its ascending entries. -/
inductive StrictJsonValue where
  | null
  | bool (value : Bool)
  | number (value : Number)
  | string (value : String)
  | array (values : List StrictJsonValue)
  | object (values : List (String × StrictJsonValue))

namespace StrictJsonValue

mutual

def intoValue : StrictJsonValue → Value
  | null => .null
  | bool value => .bool value
  | number value => .number value
  | string value => .string value
  | array values => .array (intoValues values)
  | object values => .object (SortedMap.ofList (intoMembers values)).entries

def intoValues : List StrictJsonValue → List Value
  | [] => []
  | value :: values => value.intoValue :: intoValues values

def intoMembers : List (String × StrictJsonValue) → List (String × Value)
  | [] => []
  | (key, value) :: values => (key, value.intoValue) :: intoMembers values

end

theorem intoMembers_eq_map (members : List (String × StrictJsonValue)) :
    intoMembers members = members.map fun member => (member.1, member.2.intoValue) := by
  induction members with
  | nil => rfl
  | cons member members ih => exact congrArg ((member.1, member.2.intoValue) :: ·) ih

/-- The loop of `visit_seq`. -/
def pushNext (values : List StrictJsonValue) (next : Option StrictJsonValue) :
    Option (List StrictJsonValue) :=
  next.map (values ++ [·])

/-- The loop of `visit_map`: a key that is there already is an error. -/
def insertNext (values : SortedMap String StrictJsonValue)
    (next : Option (String × StrictJsonValue)) : Option (SortedMap String StrictJsonValue) := do
  let (key, value) ← next
  if (values.get key).isSome then none else some (values.insert key value)

end StrictJsonValue

open StrictJsonValue

def strictJsonVisitor : Visitor StrictJsonValue where
  visitUnit := some .null
  visitNone := some .null
  visitBool value := some (.bool value)
  visitI64 value := some (.number (.fromI64 value))
  visitU64 value := some (.number (.posInt value))
  visitF64 bits := (Number.fromF64 bits).map .number
  visitStr value := some (.string value)
  visitString value := some (.string value)
  visitSeq sequence := (sequence.foldlM pushNext []).map .array
  visitMap map := (map.foldlM insertNext .empty).map fun values => .object values.entries

/-! ### Sequences -/

theorem foldlM_pushNext (results : List (Option StrictJsonValue))
    (values : List StrictJsonValue) :
    results.foldlM pushNext values = (results.mapM id).map (values ++ ·) := by
  induction results generalizing values with
  | nil => simp
  | cons next results ih =>
    cases next with
    | none => rfl
    | some value =>
      rw [List.foldlM_cons, List.mapM_cons]
      change results.foldlM pushNext (values ++ [value]) = _
      rw [ih]
      cases results.mapM id with
      | none => rfl
      | some rest =>
        exact congrArg some (List.append_assoc values [value] rest)

/-- An access that is not closed ends in an error. -/
theorem foldlM_access {α β : Type} (step : β → Option α → Option β)
    (hstep : ∀ b, step b none = none) (results : List (Option α)) (closed : Bool) (b : β) :
    (Json.access results closed).foldlM step b =
      if closed then results.foldlM step b else none := by
  cases closed with
  | true => rfl
  | false =>
    rw [Json.access, if_neg Bool.false_ne_true, if_neg Bool.false_ne_true, List.foldlM_append]
    cases results.foldlM step b with
    | none => rfl
    | some b' =>
      rw [Option.bind_eq_bind, Option.bind_some, List.foldlM_cons, hstep]
      rfl

/-! ### Maps -/

/-- The values of a map, as they are collected into the map of a `Value`. -/
def collected (values : SortedMap String StrictJsonValue) : SortedMap String Value :=
  .ofList (intoMembers values.entries)

theorem get_collected (values : SortedMap String StrictJsonValue) (key : String) :
    (collected values).get key = (values.get key).map intoValue := by
  rw [collected, intoMembers_eq_map, SortedMap.ofList]
  rw [SortedMap.get_foldl_insert_map]
  exact Option.or_none

theorem collected_insert (values : SortedMap String StrictJsonValue) (key : String)
    (value : StrictJsonValue) :
    collected (values.insert key value) = (collected values).insert key value.intoValue := by
  apply SortedMap.ext_get
  intro k
  rw [get_collected, SortedMap.get_insert, SortedMap.get_insert, get_collected]
  split <;> rfl

theorem mem_keys_collected {values : SortedMap String StrictJsonValue} {key : String} :
    key ∈ (collected values).keys ↔ (values.get key).isSome := by
  rw [SortedMap.mem_keys, get_collected, ← Option.isSome_iff_exists, Option.isSome_map]

/-! ### The visitor and the document -/

/-- It makes no difference whether an item is checked before the items behind it are read. -/
theorem bind_itemDocuments (item : Input) (items : List Input) :
    (Input.itemDocuments (item :: items)).bind strictItems =
      (item.document.bind strictValue).bind fun value =>
        ((Input.itemDocuments items).bind strictItems).map (value :: ·) := by
  rw [Input.itemDocuments]
  cases item.document with
  | none => rfl
  | some document =>
    cases Input.itemDocuments items with
    | none => cases hvalue : strictValue document <;> simp [hvalue]
    | some documents => simp [strictItems, Option.map_eq_bind]

theorem bind_memberDocuments (key : String) (member : Input) (members : List (String × Input))
    (values : SortedMap String Value) :
    (Input.memberDocuments ((key, member) :: members)).bind (strictMembers · values) =
      (member.document.bind strictValue).bind fun value =>
        if key ∈ values.keys then none
        else (Input.memberDocuments members).bind (strictMembers · (values.insert key value)) := by
  rw [Input.memberDocuments]
  cases member.document with
  | none => rfl
  | some document =>
    cases Input.memberDocuments members with
    | none => cases hvalue : strictValue document <;> simp [hvalue]
    | some documents => simp [strictMembers]

mutual

/-- What the visitor builds is the value of a document without duplicate keys. -/
theorem visit_intoValue (input : Input) :
    (input.visit strictJsonVisitor).map intoValue = input.document.bind strictValue := by
  cases input with
  | unit | none | bool | i64 | u64 | str | string | broken => rfl
  | f64 bits =>
    change ((Number.fromF64 bits).map StrictJsonValue.number).map intoValue =
      ((Number.fromF64 bits).map Document.number).bind strictValue
    cases Number.fromF64 bits <;> rfl
  | seq items closed =>
    have hitems := visitItems_intoValues items
    change (((Json.access (Input.visitItems strictJsonVisitor items) closed).foldlM pushNext
      []).map StrictJsonValue.array).map intoValue =
        (if closed then (Input.itemDocuments items).map .array else none).bind strictValue
    rw [foldlM_access pushNext (fun _ => rfl), foldlM_pushNext]
    cases closed with
    | false => rfl
    | true =>
      calc ((((Input.visitItems strictJsonVisitor items).mapM id).map ([] ++ ·)).map
            StrictJsonValue.array).map intoValue
          = (((Input.visitItems strictJsonVisitor items).mapM id).map intoValues).map .array := by
            rw [Option.map_map, Option.map_map, Option.map_map]
            rfl
        _ = ((Input.itemDocuments items).bind strictItems).map .array := by rw [hitems]
        _ = ((Input.itemDocuments items).map .array).bind strictValue := by
            rw [Option.map_bind, Option.bind_map]
            rfl
  | map members closed =>
    have hmembers := visitMembers_collected members .empty
    change (((Json.access (Input.visitMembers strictJsonVisitor members) closed).foldlM insertNext
      .empty).map fun values => StrictJsonValue.object values.entries).map intoValue =
        (if closed then (Input.memberDocuments members).map .object else none).bind strictValue
    rw [foldlM_access insertNext (fun _ => rfl)]
    cases closed with
    | false => rfl
    | true =>
      calc (((Input.visitMembers strictJsonVisitor members).foldlM insertNext .empty).map
            fun values => StrictJsonValue.object values.entries).map intoValue
          = (((Input.visitMembers strictJsonVisitor members).foldlM insertNext .empty).map
              collected).map (fun values => .object values.entries) := by
            rw [Option.map_map, Option.map_map]
            rfl
        _ = ((Input.memberDocuments members).bind fun documents =>
              strictMembers documents .empty).map (fun values => .object values.entries) := by
            rw [hmembers]
            rfl
        _ = ((Input.memberDocuments members).map .object).bind strictValue := by
            rw [Option.map_bind, Option.bind_map]
            rfl

theorem visitItems_intoValues (items : List Input) :
    ((Input.visitItems strictJsonVisitor items).mapM id).map intoValues =
      (Input.itemDocuments items).bind strictItems := by
  cases items with
  | nil => rfl
  | cons item items =>
    rw [bind_itemDocuments, ← visit_intoValue item, ← visitItems_intoValues items]
    rw [Input.visitItems, List.mapM_cons]
    cases item.visit strictJsonVisitor with
    | none => rfl
    | some value => cases (Input.visitItems strictJsonVisitor items).mapM id <;> rfl

theorem visitMembers_collected (members : List (String × Input))
    (values : SortedMap String StrictJsonValue) :
    ((Input.visitMembers strictJsonVisitor members).foldlM insertNext values).map collected =
      (Input.memberDocuments members).bind (strictMembers · (collected values)) := by
  cases members with
  | nil => rfl
  | cons member members =>
    obtain ⟨key, member⟩ := member
    rw [bind_memberDocuments, ← visit_intoValue member, Input.visitMembers, List.foldlM_cons]
    cases member.visit strictJsonVisitor with
    | none => rfl
    | some value =>
      have hmembers := visitMembers_collected members (values.insert key value)
      rw [collected_insert] at hmembers
      rw [Option.map_some, Option.map_some, Option.bind_some, ← hmembers]
      by_cases hkey : (values.get key).isSome
      · rw [if_pos (mem_keys_collected.mpr hkey)]
        simp [insertNext, hkey]
      · rw [if_neg fun h => hkey (mem_keys_collected.mp h)]
        simp [insertNext, hkey]

end

/-! ### Texts -/

section Texts

variable (deserializer : Json.Deserializer)

/-- `serde_json::from_slice` of a strict value. -/
def strictFromSlice (bytes : ByteArray) : Option StrictJsonValue :=
  deserializer.fromSlice strictJsonVisitor bytes

/-- The strict reader of a text is the strict reader of its document. -/
theorem strictFromSlice_intoValue (bytes : ByteArray) :
    (strictFromSlice deserializer bytes).map intoValue =
      (deserializer.document bytes).bind strictValue := by
  rw [strictFromSlice, Json.Deserializer.fromSlice, Json.Deserializer.document]
  cases deserializer.ended bytes with
  | false => cases (deserializer.input bytes).visit strictJsonVisitor <;> rfl
  | true =>
    rw [if_pos rfl, ← visit_intoValue]
    cases (deserializer.input bytes).visit strictJsonVisitor <;> rfl

/-- A part of a token is read by the visitor, and must be an object. -/
theorem decodeJsonObject_eq_ok_iff_visitor {base64 : String → Option ByteArray} {encoded : String}
    {object : SortedMap String Value} :
    decodeJsonObject ⟨base64, deserializer.document⟩ encoded = .ok object ↔
      ∃ bytes value, base64 encoded = some bytes ∧
        strictFromSlice deserializer bytes = some value ∧
        value.intoValue = .object object.entries := by
  rw [decodeJsonObject_eq_ok]
  constructor
  · rintro ⟨bytes, members, hbytes, hdocument, hfree, rfl⟩
    have hstrict := strictFromSlice_intoValue deserializer bytes
    change deserializer.document bytes = _ at hdocument
    rw [hdocument, Option.bind_some, (strictValue_eq_some _ _).mpr ⟨hfree, rfl⟩,
      Option.map_eq_some_iff] at hstrict
    obtain ⟨value, hvalue, hinto⟩ := hstrict
    exact ⟨bytes, value, hbytes, hvalue, hinto⟩
  · rintro ⟨bytes, value, hbytes, hvalue, hinto⟩
    have hstrict := strictFromSlice_intoValue deserializer bytes
    rw [hvalue, Option.map_some, hinto, eq_comm, Option.bind_eq_some_iff] at hstrict
    obtain ⟨document, hdocument, hstrict⟩ := hstrict
    obtain ⟨hfree, heq⟩ := (strictValue_eq_some document _).mp hstrict
    cases document with
    | object members =>
      have hentries := Value.object.inj heq
      refine ⟨bytes, members, hbytes, hdocument, hfree, SortedMap.ext_get fun key => ?_⟩
      rw [SortedMap.get, SortedMap.get, hentries]
    | null | bool | number | string | array => cases heq

/-- Strict JSON takes the documents whose objects, at any depth, have no key twice, and reads them as
the ordinary reader does. The ordinary reader is known to give such a document its value. -/
theorem strictFromSlice_iff (ordinary : ByteArray → Option Value)
    (hordinary : ∀ bytes document, deserializer.document bytes = some document →
      document.DuplicateFree → ordinary bytes = some document.value) (bytes : ByteArray) :
    ((strictFromSlice deserializer bytes).isSome ↔
        ∃ document, deserializer.document bytes = some document ∧ document.DistinctKeys) ∧
      ∀ value, strictFromSlice deserializer bytes = some value →
        ordinary bytes = some value.intoValue := by
  have hstrict := strictFromSlice_intoValue deserializer bytes
  constructor
  · simp only [← Document.duplicateFree_iff]
    rw [← Option.isSome_map, hstrict, Option.isSome_iff_exists]
    simp only [Option.bind_eq_some_iff, strictValue_eq_some]
    constructor
    · rintro ⟨_, document, hdocument, hfree, -⟩
      exact ⟨document, hdocument, hfree⟩
    · rintro ⟨document, hdocument, hfree⟩
      exact ⟨document.value, document, hdocument, hfree, rfl⟩
  · intro value hvalue
    rw [hvalue, Option.map_some, eq_comm, Option.bind_eq_some_iff] at hstrict
    obtain ⟨document, hdocument, hstrict⟩ := hstrict
    obtain ⟨hfree, heq⟩ := (strictValue_eq_some document _).mp hstrict
    rw [heq]
    exact hordinary bytes document hdocument hfree

end Texts

/-- A reader of one text, with an object in an array in an object. -/
def sampleText : ByteArray := "\x7b\"roles\":[\x7b\"id\":1\x7d]\x7d".toUTF8

def sampleReader : Json.Deserializer where
  input bytes :=
    if bytes = sampleText then .map [("roles", .seq [.map [("id", .u64 1)] true] true)] true
    else .broken
  ended bytes := bytes = sampleText

theorem strictFromSlice_iff_sample :
    ∃ value, strictFromSlice sampleReader sampleText = some value ∧
      (sampleReader.document sampleText).map Document.value = some value.intoValue := by
  have hvalue : strictFromSlice sampleReader sampleText =
      some (.object [("roles", .array [.object [("id", .number (.posInt 1))]])]) := by
    have hended : sampleReader.ended sampleText = true := by simp [sampleReader]
    rw [strictFromSlice, Json.Deserializer.fromSlice, hended]
    simp only [sampleReader, if_true]
    rfl
  refine ⟨_, hvalue, ?_⟩
  exact (strictFromSlice_iff sampleReader
    (fun bytes => (sampleReader.document bytes).map Document.value)
    (fun _ _ h _ => by rw [h]; rfl) sampleText).2 _ hvalue

end Mads
