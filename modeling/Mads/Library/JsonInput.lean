import Mads.Library.Json

/-!
# JSON as a visitor gets it

A deserializer goes through a text and calls a visitor with what it finds. The text can break off at
any place, and a number can be too large for a float.
-/

namespace Json

/-- `Number::from` of a signed integer. -/
def Number.fromI64 (value : Int64) : Number :=
  if value < 0 then .negInt value else .posInt value.toUInt64

/-- `Number::from_f64`: infinities and what is no number have all exponent bits set. -/
def Number.fromF64 (bits : UInt64) : Option Number :=
  if (bits >>> 52) &&& 0x7ff = 0x7ff then none else some (.float bits)

/-- What a deserializer finds, in the order in which it finds it. What is not closed breaks off behind
its last part. -/
inductive Input where
  | unit
  | none
  | bool (value : Bool)
  | i64 (value : Int64)
  | u64 (value : UInt64)
  | f64 (bits : UInt64)
  | str (value : String)
  | string (value : String)
  | seq (items : List Input) (closed : Bool)
  | map (members : List (String × Input)) (closed : Bool)
  | broken

/-- A `serde` visitor. The accesses to sequences and maps are given by the results of their calls, up
to the end or to the first error. -/
structure Visitor (α : Type) where
  visitUnit : Option α
  visitNone : Option α
  visitBool : Bool → Option α
  visitI64 : Int64 → Option α
  visitU64 : UInt64 → Option α
  visitF64 : UInt64 → Option α
  visitStr : String → Option α
  visitString : String → Option α
  visitSeq : List (Option α) → Option α
  visitMap : List (Option (String × α)) → Option α

/-- The results of an access, with an error where the input is not closed. -/
def access {α : Type} (results : List (Option α)) (closed : Bool) : List (Option α) :=
  if closed then results else results ++ [Option.none]

namespace Input

variable {α : Type} (visitor : Visitor α)

mutual

/-- `deserialize_any`, for a type whose parts are deserialized with the same visitor. -/
def visit : Input → Option α
  | unit => visitor.visitUnit
  | none => visitor.visitNone
  | bool value => visitor.visitBool value
  | i64 value => visitor.visitI64 value
  | u64 value => visitor.visitU64 value
  | f64 bits => visitor.visitF64 bits
  | str value => visitor.visitStr value
  | string value => visitor.visitString value
  | seq items closed => visitor.visitSeq (access (visitItems items) closed)
  | map members closed => visitor.visitMap (access (visitMembers members) closed)
  | broken => Option.none

def visitItems : List Input → List (Option α)
  | [] => []
  | item :: items => item.visit :: visitItems items

def visitMembers : List (String × Input) → List (Option (String × α))
  | [] => []
  | (key, member) :: members => (member.visit).map (key, ·) :: visitMembers members

end

mutual

/-- The document that an input is, where it is one. -/
def document : Input → Option Document
  | unit | none => some .null
  | bool value => some (.bool value)
  | i64 value => some (.number (.fromI64 value))
  | u64 value => some (.number (.posInt value))
  | f64 bits => (Number.fromF64 bits).map .number
  | str value | string value => some (.string value)
  | seq items closed => if closed then (itemDocuments items).map .array else Option.none
  | map members closed => if closed then (memberDocuments members).map .object else Option.none
  | broken => Option.none

def itemDocuments : List Input → Option (List Document)
  | [] => some []
  | item :: items => do
    let document ← item.document
    let documents ← itemDocuments items
    some (document :: documents)

def memberDocuments : List (String × Input) → Option (List (String × Document))
  | [] => some []
  | (key, member) :: members => do
    let document ← member.document
    let documents ← memberDocuments members
    some ((key, document) :: documents)

end

end Input

/-- A reader of JSON: what it finds in a text, and whether only white space stands behind it. -/
structure Deserializer where
  input : ByteArray → Input
  ended : ByteArray → Bool

namespace Deserializer

variable (deserializer : Deserializer)

/-- `serde_json::from_slice`. -/
def fromSlice {α : Type} (visitor : Visitor α) (bytes : ByteArray) : Option α := do
  let value ← (deserializer.input bytes).visit visitor
  if deserializer.ended bytes then some value else none

/-- The document in a text. -/
def document (bytes : ByteArray) : Option Document :=
  if deserializer.ended bytes then (deserializer.input bytes).document else none

end Deserializer

/-! ## Objects inside a document -/

/-- A document is in itself, and in what it is a part of. -/
inductive Document.Inside : Document → Document → Prop
  | self (document : Document) : Inside document document
  | item {inner item : Document} {items : List Document} (hmem : item ∈ items)
    (h : Inside inner item) : Inside inner (.array items)
  | member {inner member : Document} {key : String} {members : List (String × Document)}
    (hmem : (key, member) ∈ members) (h : Inside inner member) : Inside inner (.object members)

theorem itemsDuplicateFree_iff {items : List Document} :
    ItemsDuplicateFree items ↔ ∀ item ∈ items, item.DuplicateFree := by
  induction items with
  | nil => simp [ItemsDuplicateFree]
  | cons item items ih => simp [ItemsDuplicateFree, ih]

theorem membersDuplicateFree_iff {members : List (String × Document)} :
    MembersDuplicateFree members ↔ ∀ member ∈ members, member.2.DuplicateFree := by
  induction members with
  | nil => simp [MembersDuplicateFree]
  | cons member members ih => simp [MembersDuplicateFree, ih]

/-- What is inside a document without duplicate keys has none. -/
theorem Document.Inside.duplicateFree {inner document : Document} (h : Inside inner document)
    (hfree : document.DuplicateFree) : inner.DuplicateFree := by
  induction h with
  | self => exact hfree
  | item hmem _ ih => exact ih (itemsDuplicateFree_iff.mp hfree _ hmem)
  | member hmem _ ih => exact ih (membersDuplicateFree_iff.mp hfree.2 _ hmem)

/-- The keys of an object differ, wherever in the document it is. -/
def Document.DistinctKeys (document : Document) : Prop :=
  ∀ members, Inside (.object members) document → (members.map (·.1)).Nodup

mutual

theorem Document.duplicateFree_of_distinctKeys (document : Document)
    (h : document.DistinctKeys) : document.DuplicateFree := by
  cases document with
  | null | bool | number | string => trivial
  | array items =>
    exact items_duplicateFree items fun item hitem members hmembers =>
      h members (.item hitem hmembers)
  | object members =>
    exact ⟨h members (.self _), members_duplicateFree members fun member hmember inner hinner =>
      h inner (.member hmember hinner)⟩

theorem items_duplicateFree (items : List Document) (h : ∀ item ∈ items, item.DistinctKeys) :
    ItemsDuplicateFree items := by
  cases items with
  | nil => trivial
  | cons item items =>
    rw [List.forall_mem_cons] at h
    exact ⟨item.duplicateFree_of_distinctKeys h.1, items_duplicateFree items h.2⟩

theorem members_duplicateFree (members : List (String × Document))
    (h : ∀ member ∈ members, member.2.DistinctKeys) : MembersDuplicateFree members := by
  cases members with
  | nil => trivial
  | cons member members =>
    rw [List.forall_mem_cons] at h
    exact ⟨member.2.duplicateFree_of_distinctKeys h.1, members_duplicateFree members h.2⟩

end

theorem Document.duplicateFree_iff {document : Document} :
    document.DuplicateFree ↔ document.DistinctKeys := by
  constructor
  · exact fun hfree _ hinside => (hinside.duplicateFree hfree).1
  · exact document.duplicateFree_of_distinctKeys

end Json
