import Mads.Base
import Mads.Library.SortedMap

/-!
# Merged configuration
-/

namespace Mads

structure ConfigOrigin where
  label : String
  relativePathBase : Option String
  deriving DecidableEq, Repr

structure ConfigValue where
  value : String
  origin : ConfigOrigin
  deriving DecidableEq, Repr

structure ConfigStringArrayValue where
  value : List String
  origin : ConfigOrigin
  deriving DecidableEq, Repr

/-- Configuration values under their keys, scalars and arrays apart, and the declared tables. -/
structure Config where
  values : SortedMap String ConfigValue
  stringArrays : SortedMap String ConfigStringArrayValue
  tables : SortedMap String ConfigOrigin := .empty

/-- `Path::is_absolute`. -/
def isAbsolutePath (path : String) : Bool := path.toList.head? = some '/'

/-- `Path::join`. -/
def joinPath (base path : String) : String :=
  if isAbsolutePath path ∨ base = "" then path
  else if base.toList.getLast? = some '/' then base ++ path
  else base ++ "/" ++ path

namespace Config

variable (config : Config)

def get (key : String) : Option String := (config.values.get key).map (·.value)

def getStringArray (key : String) : Option (List String) :=
  (config.stringArrays.get key).map (·.value)

def sourceOf (key : String) : Option String := (config.values.get key).map (·.origin.label)

def sourceOfStringArray (key : String) : Option String :=
  (config.stringArrays.get key).map (·.origin.label)

/-- A path stands relative to the source that supplied it, or to the working directory. -/
def resolvePath (currentDir : Option String) (key : String) : Option String := do
  let value ← config.values.get key
  if isAbsolutePath value.value then some value.value
  else
    let base ← value.origin.relativePathBase <|> currentDir
    some (joinPath base value.value)

end Config

/-! ### Building a map with a call for each entry -/

section Collect

/-- Builds a map with a call for each entry, in order. -/
def collect {α β ε : Type} (call : String → α → Run ε β) (map : SortedMap String α) :
    Run ε (SortedMap String β) :=
  map.entries.foldlM (fun built (key, value) => do
    let value ← call key value
    pure (built.insert key value)) .empty

variable {α β ε : Type} {call : String → α → Run ε β}

/-- What a loop over entries with different keys adds to a map. -/
theorem get_of_collect_entries {xs : List (String × α)} (hnodup : (xs.map (·.1)).Nodup)
    {built built' : SortedMap String β}
    (h : xs.foldlM (fun built (entry : String × α) => do
      let value ← call entry.1 entry.2
      pure (built.insert entry.1 value)) built = .ok built') (key : String) (value : β) :
    built'.get key = some value ↔
      (∃ a, (key, a) ∈ xs ∧ call key a = .ok value) ∨
        key ∉ xs.map (·.1) ∧ built.get key = some value := by
  induction xs generalizing built with
  | nil =>
    obtain rfl : built = built' := by simpa using h
    simp
  | cons entry xs ih =>
    obtain ⟨first, a⟩ := entry
    obtain ⟨hfirst, hrest⟩ := List.nodup_cons.mp hnodup
    rw [List.foldlM_cons] at h
    obtain ⟨next, hnext, h⟩ := Run.bind_eq_ok.mp h
    obtain ⟨b, hcall, hnext⟩ := Run.bind_eq_ok.mp hnext
    obtain rfl : built.insert first b = next := Except.ok.inj hnext
    rw [ih hrest h]
    by_cases heq : key = first
    · subst heq
      have hnone : ∀ a, (key, a) ∉ xs := fun a ha => hfirst (List.mem_map_of_mem (f := (·.1)) ha)
      simp only [SortedMap.get_insert_self, Option.some.injEq, List.map_cons, List.mem_cons,
        Prod.mk.injEq, true_and, hnone, or_false, false_and, exists_false, false_or]
      constructor
      · rintro ⟨-, rfl⟩
        exact .inl ⟨a, rfl, hcall⟩
      · rintro (⟨_, rfl, hvalue⟩ | ⟨hnot, -⟩)
        · rw [hcall, Except.ok.injEq] at hvalue
          exact ⟨hfirst, hvalue⟩
        · exact absurd (Or.inl trivial) hnot
    · rw [SortedMap.get_insert_of_ne heq]
      simp [heq]

theorem get_of_collect {map : SortedMap String α} {built : SortedMap String β}
    (h : collect call map = .ok built) (key : String) (value : β) :
    built.get key = some value ↔ ∃ a, map.get key = some a ∧ call key a = .ok value := by
  rw [get_of_collect_entries SortedMap.keys_nodup h]
  simp [SortedMap.get_eq_some]

theorem mem_keys_of_collect {map : SortedMap String α} {built : SortedMap String β}
    (h : collect call map = .ok built) (key : String) : key ∈ built.keys ↔ key ∈ map.keys := by
  have hempty : key ∈ (SortedMap.empty : SortedMap String β).keys ↔
      key ∈ ([] : List (String × α)).map (·.1) := Iff.rfl
  refine Run.foldlM_seen (P := fun (seen : List (String × α)) (built : SortedMap String β) =>
    key ∈ built.keys ↔ key ∈ seen.map (·.1)) ?_ hempty h
  intro seen built entry next hseen hnext
  obtain ⟨value, -, hnext⟩ := Run.bind_eq_ok.mp hnext
  obtain rfl := Except.ok.inj hnext
  rw [SortedMap.mem_keys_insert, hseen, List.map_append, List.mem_append, List.map_singleton,
    List.mem_singleton, or_comm]

theorem collect_ok {map : SortedMap String α}
    (h : ∀ key a, map.get key = some a → ∃ value, call key a = .ok value) :
    ∃ built, collect call map = .ok built := by
  have hloop (xs : List (String × α)) (hxs : ∀ entry ∈ xs, entry ∈ map.entries)
      (built : SortedMap String β) : ∃ built', xs.foldlM (fun built (entry : String × α) => do
        let value ← call entry.1 entry.2
        pure (built.insert entry.1 value)) built = .ok built' := by
    induction xs generalizing built with
    | nil => exact ⟨built, rfl⟩
    | cons entry xs ih =>
      obtain ⟨value, hvalue⟩ := h entry.1 entry.2
        (SortedMap.get_eq_some.mpr (hxs entry List.mem_cons_self))
      rw [List.foldlM_cons, hvalue]
      exact ih (fun entry hentry => hxs entry (List.mem_cons_of_mem _ hentry)) _
  exact hloop map.entries (fun _ h => h) .empty

end Collect

end Mads
