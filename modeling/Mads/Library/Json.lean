import Mads.Library.SortedMap
import Mathlib.Data.String.Basic

/-!
# JSON documents and values

A document is what a parser finds in a text: an object has its members in order, and a key may
occur twice.  A value has ascending keys.  A document without duplicate keys denotes one value.
-/

namespace Json

/-- An integer of 64 bits, or the bits of a finite float. -/
inductive Number where
  | posInt (value : UInt64)
  | negInt (value : Int64)
  | float (bits : UInt64)
  deriving DecidableEq, Repr

inductive Value where
  | null
  | bool (value : Bool)
  | number (value : Number)
  | string (value : String)
  | array (items : List Value)
  | object (members : List (String × Value))
  deriving Repr

inductive Document where
  | null
  | bool (value : Bool)
  | number (value : Number)
  | string (value : String)
  | array (items : List Document)
  | object (members : List (String × Document))
  deriving Repr

/-! ## The value of a document -/

mutual

/-- Of members with the same key, the last one counts. -/
def Document.value : Document → Value
  | .null => .null
  | .bool value => .bool value
  | .number value => .number value
  | .string value => .string value
  | .array items => .array (itemValues items)
  | .object members => .object (memberValues members .empty).entries

def itemValues : List Document → List Value
  | [] => []
  | item :: items => item.value :: itemValues items

def memberValues : List (String × Document) → SortedMap String Value → SortedMap String Value
  | [], values => values
  | (key, member) :: members, values => memberValues members (values.insert key member.value)

end

mutual

/-- No object has two members with the same key, at any depth. -/
def Document.DuplicateFree : Document → Prop
  | .array items => ItemsDuplicateFree items
  | .object members => (members.map (·.1)).Nodup ∧ MembersDuplicateFree members
  | _ => True

def ItemsDuplicateFree : List Document → Prop
  | [] => True
  | item :: items => item.DuplicateFree ∧ ItemsDuplicateFree items

def MembersDuplicateFree : List (String × Document) → Prop
  | [] => True
  | (_, member) :: members => member.DuplicateFree ∧ MembersDuplicateFree members

end

/-! ## Strings and numbers -/

def Value.asString : Value → Option String
  | .string text => some text
  | _ => none

theorem Value.asString_eq_some {value : Value} {text : String} :
    value.asString = some text ↔ value = .string text := by
  constructor
  · intro h
    unfold asString at h
    split at h
    · rw [Option.some.inj h]
    · cases h
  · rintro rfl
    rfl

/-- Strings are read where each item is one. -/
theorem mapM_asString_eq_some {items : List Value} {texts : List String} :
    items.mapM Value.asString = some texts ↔ items = texts.map .string := by
  induction items generalizing texts with
  | nil => cases texts <;> simp
  | cons item items ih =>
    simp only [List.mapM_cons, Option.bind_eq_bind, Option.bind_eq_some_iff,
      Value.asString_eq_some, ih]
    constructor
    · rintro ⟨text, rfl, rest, rfl, h⟩
      rw [← Option.some.inj h, List.map_cons]
    · intro h
      obtain ⟨text, rest, rfl, rfl, rfl⟩ := List.map_eq_cons_iff.mp h.symm
      exact ⟨text, rfl, rest, rfl, rfl⟩

/-- `Value::as_u64`. -/
def Value.asU64 : Value → Option UInt64
  | .number (.posInt value) => some value
  | _ => none

theorem Value.asU64_eq_some {value : Value} {n : UInt64} :
    value.asU64 = some n ↔ value = .number (.posInt n) := by
  constructor
  · intro h
    unfold asU64 at h
    split at h
    · rw [Option.some.inj h]
    · cases h
  · rintro rfl
    rfl

mutual

/-- No number is a float, at any depth. -/
def Value.IntegerNumbers : Value → Prop
  | .number (.float _) => False
  | .array items => ItemsIntegerNumbers items
  | .object members => MembersIntegerNumbers members
  | _ => True

def ItemsIntegerNumbers : List Value → Prop
  | [] => True
  | item :: items => item.IntegerNumbers ∧ ItemsIntegerNumbers items

def MembersIntegerNumbers : List (String × Value) → Prop
  | [] => True
  | (_, member) :: members => member.IntegerNumbers ∧ MembersIntegerNumbers members

end

theorem itemsIntegerNumbers_iff {items : List Value} :
    ItemsIntegerNumbers items ↔ ∀ item ∈ items, item.IntegerNumbers := by
  induction items with
  | nil => simp [ItemsIntegerNumbers]
  | cons item items ih => simp [ItemsIntegerNumbers, ih]

theorem membersIntegerNumbers_iff {members : List (String × Value)} :
    MembersIntegerNumbers members ↔ ∀ member ∈ members, member.2.IntegerNumbers := by
  induction members with
  | nil => simp [MembersIntegerNumbers]
  | cons member members ih => simp [MembersIntegerNumbers, ih]

theorem integerNumbers_object {object : SortedMap String Value} :
    (Value.object object.entries).IntegerNumbers ↔
      ∀ name value, object.get name = some value → value.IntegerNumbers := by
  simp only [Value.IntegerNumbers, membersIntegerNumbers_iff, SortedMap.get_eq_some, Prod.forall]

theorem integerNumbers_insert {object : SortedMap String Value} {name : String} {value : Value}
    (hobject : (Value.object object.entries).IntegerNumbers) (hvalue : value.IntegerNumbers) :
    (Value.object (object.insert name value).entries).IntegerNumbers := by
  rw [integerNumbers_object] at hobject ⊢
  intro key found h
  rw [SortedMap.get_insert] at h
  split at h
  · exact Option.some.inj h ▸ hvalue
  · exact hobject key found h

end Json
