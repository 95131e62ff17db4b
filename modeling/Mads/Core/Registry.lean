import Mads.Core.Descriptor

/-!
# Provider storage and lookup by type
-/

namespace Mads

/-- A type-erased provider allocation. -/
abbrev ErasedProvider := AnyValue

/-- At most one provider for each type. -/
structure ProviderRegistry where
  values : List (TypeId × ErasedProvider) := []
  keys_nodup : (values.map Prod.fst).Nodup := by simp
  deriving DecidableEq

namespace ProviderRegistry

def keys (registry : ProviderRegistry) : List TypeId := registry.values.map Prod.fst

def duplicateProvider (typeName : String) : Error where
  primary :=
    { code := MADS001
      title := "duplicate provider"
      message := "an application-scoped provider is already registered for this type"
      subject := some typeName }

/-- Stores an erased provider under an explicit type. -/
def insertErased (registry : ProviderRegistry) (typeId : TypeId) (typeName : String)
    (value : ErasedProvider) : Run Error ProviderRegistry :=
  if h : typeId ∈ registry.keys then Run.fail (duplicateProvider typeName)
  else .ok
    { values := registry.values ++ [(typeId, value)]
      keys_nodup := by
        rw [List.map_append, List.map_singleton, ← List.concat_eq_append]
        exact registry.keys_nodup.concat h }

/-- Looks a provider up by its type and checks that the value has that type. -/
def resolve (registry : ProviderRegistry) (typeId : TypeId) (typeName : String) :
    Run Error ErasedProvider :=
  match registry.values.lookup typeId with
  | none => Run.fail
      { primary :=
          { code := MADS003
            title := "missing provider"
            message := "no application-scoped provider is registered for this type"
            subject := some typeName } }
  | some provider =>
    if provider.typeId = typeId then .ok provider
    else Run.fail
      { primary :=
          { code := MADS004
            title := "provider type mismatch"
            message :=
              "the provider registry contains a value that does not match its type identifier"
            subject := some typeName } }

variable {registry after : ProviderRegistry} {typeId : TypeId} {typeName : String}
  {value : ErasedProvider}

/-- A type is stored exactly once, so storing succeeds for new types only. -/
theorem insertErased_eq_ok :
    registry.insertErased typeId typeName value = .ok after ↔
      typeId ∉ registry.keys ∧ after.values = registry.values ++ [(typeId, value)] := by
  unfold insertErased
  by_cases h : typeId ∈ registry.keys
  · simp [h, Run.fail]
  · obtain ⟨values, hnodup⟩ := after
    simp [h, eq_comm]

theorem keys_of_insertErased (h : registry.insertErased typeId typeName value = .ok after) :
    after.keys = registry.keys ++ [typeId] := by
  simp [keys, (insertErased_eq_ok.mp h).2]

theorem insertErased_ok (h : typeId ∉ registry.keys) :
    ∃ after, registry.insertErased typeId typeName value = .ok after :=
  ⟨_, by rw [insertErased, dif_neg h]⟩

/-- Every value has the type it is stored under. -/
def Typed (registry : ProviderRegistry) : Prop :=
  ∀ typeId value, (typeId, value) ∈ registry.values → value.typeId = typeId

theorem Typed.insertErased (h : registry.Typed) (hvalue : value.typeId = typeId)
    (hok : registry.insertErased typeId typeName value = .ok after) : after.Typed := by
  intro storedId stored hmem
  rw [(insertErased_eq_ok.mp hok).2, List.mem_append, List.mem_singleton] at hmem
  cases hmem with
  | inl hbefore => exact h storedId stored hbefore
  | inr hnew =>
    obtain ⟨rfl, rfl⟩ := Prod.mk.inj hnew
    exact hvalue

/-- What is stored resolves, and to a value of its type. -/
theorem Typed.resolve_ok (h : registry.Typed) (hmem : typeId ∈ registry.keys) :
    ∃ value, registry.resolve typeId typeName = .ok value ∧ value.typeId = typeId := by
  obtain ⟨⟨storedId, stored⟩, hstored, rfl⟩ := List.mem_map.mp hmem
  cases hlookup : registry.values.lookup storedId with
  | none =>
    have hne := List.lookup_eq_none_iff.mp hlookup _ hstored
    simp at hne
  | some value =>
    obtain ⟨front, back, hsplit, -⟩ := List.lookup_eq_some_iff.mp hlookup
    have htype : value.typeId = storedId := h storedId value (by simp [hsplit])
    exact ⟨value, by simp [resolve, hlookup, htype], htype⟩

theorem mem_keys_of_resolve (h : registry.resolve typeId typeName = .ok value) :
    typeId ∈ registry.keys := by
  unfold resolve at h
  split at h
  · simp [Run.fail] at h
  · next hlookup =>
    obtain ⟨front, back, hsplit, -⟩ := List.lookup_eq_some_iff.mp hlookup
    simp [keys, hsplit]

/-- What does not resolve in a typed registry is missing. -/
theorem Typed.resolve_cases (h : registry.Typed) (typeId : TypeId) (typeName : String) :
    (∃ value, registry.resolve typeId typeName = .ok value) ∨
      ∃ error, registry.resolve typeId typeName = Run.fail error ∧ error.primary.code = MADS003 := by
  by_cases hmem : typeId ∈ registry.keys
  · obtain ⟨value, hok, -⟩ := h.resolve_ok hmem
    exact .inl ⟨value, hok⟩
  · right
    cases hlookup : registry.values.lookup typeId with
    | none => exact ⟨_, by rw [resolve, hlookup], rfl⟩
    | some value =>
      obtain ⟨front, back, hsplit, -⟩ := List.lookup_eq_some_iff.mp hlookup
      exact absurd (by simp [keys, hsplit]) hmem

end ProviderRegistry

namespace Catalog

/-- Selects the single provider declared for a type. -/
def providerFor (inventory : Inventory) (typeId : TypeId) (typeName : String) :
    Run Error ProviderDescriptor :=
  match (providers inventory).filter (fun descriptor => descriptor.typeId = typeId) with
  | [] => Run.fail
      { primary :=
          { code := MADS003
            title := "missing provider"
            message := "no statically declared provider exists for this type"
            subject := some typeName } }
  | [provider] => .ok provider
  | first :: rest =>
    if rest.all (exactIdentity first) then Run.fail
      { primary :=
          { code := MADS001
            title := "duplicate provider declaration"
            message := "the same provider declaration was registered more than once"
            subject := some typeName } }
    else Run.fail
      { primary :=
          { code := MADS002
            title := "ambiguous provider binding"
            message := "multiple provider declarations produce the same concrete type"
            subject := some typeName } }

/-- The selected provider is a declaration of the type. -/
theorem providerFor_eq_ok {inventory : Inventory} {typeId : TypeId} {typeName : String}
    {provider : ProviderDescriptor} (h : providerFor inventory typeId typeName = .ok provider) :
    provider ∈ inventory.providers ∧ provider.typeId = typeId := by
  unfold providerFor at h
  split at h
  · simp [Run.fail] at h
  · next found hfound =>
    obtain rfl : found = provider := Except.ok.inj h
    have hmem : found ∈ (providers inventory).filter (fun d => d.typeId = typeId) := by
      rw [hfound]
      exact List.mem_singleton_self found
    obtain ⟨hprovider, htype⟩ := List.mem_filter.mp hmem
    exact ⟨mem_sortBy.mp hprovider, by simpa using htype⟩
  · split at h <;> simp [Run.fail] at h

end Catalog

end Mads
