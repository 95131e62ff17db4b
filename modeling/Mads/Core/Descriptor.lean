import Mathlib.Data.List.Induction
import Mads.Base

/-!
# Static metadata of providers and modules
-/

namespace Mads

/-- One direct module import, in authored order. -/
structure ModuleImportDescriptor where
  typeName : String
  typeId : TypeId
  deriving DecidableEq, Repr

inductive ProviderKind where
  | service
  | repository
  | provider
  deriving DecidableEq, Repr

def ProviderKind.discriminant : ProviderKind → ℕ
  | service => 0
  | repository => 1
  | provider => 2

inductive ProviderVisibility where
  | public_
  | private_
  deriving DecidableEq, Repr

structure DependencyDescriptor where
  typeName : String
  typeId : TypeId
  deriving DecidableEq, Repr

/-- A statically declared provider. The constructor is kept as an address; what a call of it
returns belongs to the environment of a build. -/
structure ProviderDescriptor where
  kind : ProviderKind
  typeName : String
  typeId : TypeId
  runtimeTypeName : Option String := none
  namespace_ : Option String := none
  dependencies : List DependencyDescriptor
  visibility : ProviderVisibility
  location : SourceLocation
  constructor_ : FnPtr := 0
  deriving DecidableEq, Repr

structure ModuleDescriptor where
  typeName : String
  typeId : TypeId
  namespace_ : Option String := none
  imports : List ModuleImportDescriptor := []
  location : SourceLocation
  deriving DecidableEq, Repr

/-- Providers are compared by type name, then kind, then location. -/
def descriptorOrder : ProviderDescriptor → ProviderDescriptor → Ordering :=
  compareLex (compareLex (compareOn (·.typeName)) (compareOn (·.kind.discriminant)))
    (fun left right => locationOrder left.location right.location)

instance : Std.TransCmp descriptorOrder :=
  have := transCmp_on locationOrder ProviderDescriptor.location
  inferInstanceAs (Std.TransCmp (compareLex _ _))

/-- Modules are compared by type name, then location. -/
def moduleOrder : ModuleDescriptor → ModuleDescriptor → Ordering :=
  compareLex (compareOn (·.typeName))
    (fun left right => locationOrder left.location right.location)

/-- Two declarations agree in everything but their constructor and runtime type name. -/
def exactIdentity (left right : ProviderDescriptor) : Bool :=
  left.typeId = right.typeId && left.kind = right.kind && left.typeName = right.typeName &&
    left.namespace_ = right.namespace_ && left.visibility = right.visibility &&
    left.location = right.location &&
    left.dependencies.length = right.dependencies.length &&
    (left.dependencies.zip right.dependencies).all (fun pair => pair.1.typeId = pair.2.typeId)

theorem exactIdentity_typeId {left right : ProviderDescriptor}
    (h : exactIdentity left right = true) : left.typeId = right.typeId := by
  simp only [exactIdentity, Bool.and_eq_true, decide_eq_true_eq] at h
  exact h.1.1.1.1.1.1.1

/-- The descriptors linked into the program, in the order the linker left them. -/
structure Inventory where
  providers : List ProviderDescriptor
  modules : List ModuleDescriptor

namespace Catalog

/-- Every registered provider in declaration order. -/
def providers (inventory : Inventory) : List ProviderDescriptor :=
  sortBy descriptorOrder inventory.providers

/-- Every registered module in declaration order. -/
def modules (inventory : Inventory) : List ModuleDescriptor :=
  sortBy moduleOrder inventory.modules

end Catalog

/-! ### Namespaces -/

/-- `str::strip_prefix` on characters. -/
def stripPrefix (text parent : List Char) : Option (List Char) :=
  if parent.isPrefixOf text then some (text.drop parent.length) else none

/-- A namespace contains itself and every path below it. -/
def namespaceContains (parent child : String) : Bool :=
  child == parent ||
    (stripPrefix child.toList parent.toList).any (fun suffix => "::".toList.isPrefixOf suffix)

/-- `Iterator::max_by_key`: the last of the greatest elements. -/
def maxByKey {α : Type} (key : α → ℕ) (xs : List α) : Option α :=
  xs.foldl (fun best x =>
    match best with
    | none => some x
    | some b => if key b ≤ key x then some x else some b) none

/-- The module whose namespace contains `namespace_` and is the longest to do so. -/
def ownerOf (namespace_ : Option String) (modules : List ModuleDescriptor) :
    Option ModuleDescriptor := do
  let name ← namespace_
  maxByKey (fun m => (m.namespace_.map String.utf8ByteSize).getD 0)
    (modules.filter (fun m => m.namespace_.any (fun owner => namespaceContains owner name)))

theorem maxByKey_concat {α : Type} (key : α → ℕ) (xs : List α) (x : α) :
    maxByKey key (xs ++ [x]) = match maxByKey key xs with
      | none => some x
      | some b => if key b ≤ key x then some x else some b := by
  simp [maxByKey]

@[simp] theorem maxByKey_eq_none {α : Type} {key : α → ℕ} {xs : List α} :
    maxByKey key xs = none ↔ xs = [] := by
  cases xs using List.reverseRecOn with
  | nil => simp [maxByKey]
  | append_singleton xs x =>
    rw [maxByKey_concat]
    cases maxByKey key xs with
    | none => simp
    | some best =>
      dsimp only
      split <;> simp

theorem maxByKey_eq_some {α : Type} {key : α → ℕ} {xs : List α} {m : α}
    (h : maxByKey key xs = some m) : m ∈ xs ∧ ∀ x ∈ xs, key x ≤ key m := by
  induction xs using List.reverseRecOn generalizing m with
  | nil => simp [maxByKey] at h
  | append_singleton xs a ih =>
    rw [maxByKey_concat] at h
    cases hb : maxByKey key xs with
    | none =>
      rw [hb] at h
      obtain rfl := Option.some.inj h
      simp [maxByKey_eq_none.mp hb]
    | some b =>
      obtain ⟨hmem, hmax⟩ := ih hb
      rw [hb] at h
      dsimp only at h
      split at h
      · next hle =>
        obtain rfl := Option.some.inj h
        refine ⟨by simp, fun x hx => ?_⟩
        rcases List.mem_append.mp hx with hx | hx
        · exact (hmax x hx).trans hle
        · rw [List.mem_singleton.mp hx]
      · next hle =>
        obtain rfl := Option.some.inj h
        refine ⟨by simp [hmem], fun x hx => ?_⟩
        rcases List.mem_append.mp hx with hx | hx
        · exact hmax x hx
        · rw [List.mem_singleton.mp hx]
          omega

/-- Of two lists the later one gives the greatest element where it has one as great. -/
theorem maxByKey_append {α : Type} (key : α → ℕ) (xs ys : List α) :
    maxByKey key (xs ++ ys) = match maxByKey key xs, maxByKey key ys with
      | best, none => best
      | none, some last => some last
      | some best, some last => if key best ≤ key last then some last else some best := by
  induction ys using List.reverseRecOn with
  | nil => simp [maxByKey]
  | append_singleton ys y ih =>
    rw [← List.append_assoc, maxByKey_concat, ih, maxByKey_concat]
    cases maxByKey key xs <;> cases maxByKey key ys <;> grind

/-- A renaming of the elements that keeps how they compare commutes with the choice. -/
theorem maxByKey_map {α β : Type} {key : α → ℕ} {key' : β → ℕ} {f : α → β}
    (h : ∀ a b, key' (f a) ≤ key' (f b) ↔ key a ≤ key b) (xs : List α) :
    maxByKey key' (xs.map f) = (maxByKey key xs).map f := by
  induction xs using List.reverseRecOn with
  | nil => rfl
  | append_singleton xs x ih =>
    rw [List.map_append, List.map_singleton, maxByKey_concat, maxByKey_concat, ih]
    cases maxByKey key xs with
    | none => rfl
    | some best =>
      simp only [Option.map_some, h]
      split <;> rfl

/-- An owner is a catalog module whose namespace contains the declaration and is the longest of
all catalog namespaces that do. -/
theorem ownerOf_eq_some {name : String} {modules : List ModuleDescriptor} {owner : ModuleDescriptor}
    (h : ownerOf (some name) modules = some owner) :
    owner ∈ modules ∧ (∃ n, owner.namespace_ = some n ∧ namespaceContains n name) ∧
      ∀ m ∈ modules, ∀ n, m.namespace_ = some n → namespaceContains n name →
        n.utf8ByteSize ≤ ((owner.namespace_.map String.utf8ByteSize).getD 0) := by
  obtain ⟨hmem, hmax⟩ := maxByKey_eq_some (by simpa [ownerOf] using h)
  obtain ⟨howner, hcontains⟩ := List.mem_filter.mp hmem
  refine ⟨howner, by simpa [Option.any_eq_true] using hcontains, fun m hm n hn hc => ?_⟩
  simpa [hn] using hmax m (List.mem_filter.mpr ⟨hm, by simp [hn, hc]⟩)

end Mads
