import Mathlib.Data.List.Induction
import Mathlib.Data.List.Nodup
import Mathlib.Data.List.Sort
import Mathlib.Order.Lattice
import Mads.Library.LastWins

/-!
# Maps as ascending lists

An ordered map is the list of its entries, with ascending keys.  Maps with the same lookups are
equal.
-/

/-- What is found under a key that is there once. -/
theorem find?_key_eq_some {α κ : Type*} [DecidableEq κ] {key : α → κ} {xs : List α} {k : κ} {x : α}
    (h : (xs.map key).Nodup) : xs.find? (fun x => key x = k) = some x ↔ x ∈ xs ∧ key x = k := by
  induction xs with
  | nil => simp
  | cons first rest ih =>
    obtain ⟨hfirst, hrest⟩ := List.nodup_cons.mp h
    by_cases hkey : key first = k
    · rw [List.find?_cons_of_pos (by simpa using hkey), Option.some.injEq, List.mem_cons]
      refine ⟨fun heq => ⟨.inl heq.symm, heq ▸ hkey⟩, fun ⟨hmem, hx⟩ => ?_⟩
      refine (hmem.resolve_right fun hx' => hfirst ?_).symm
      exact List.mem_map.mpr ⟨x, hx', hx.trans hkey.symm⟩
    · rw [List.find?_cons_of_neg (by simpa using hkey), ih hrest, List.mem_cons]
      refine and_congr_left fun hx => ⟨.inr, fun hmem => hmem.resolve_left ?_⟩
      rintro rfl
      exact hkey hx

structure SortedMap (κ α : Type*) [LinearOrder κ] where
  entries : List (κ × α)
  sorted : entries.Pairwise (fun left right => left.1 < right.1)

namespace SortedMap

variable {κ α : Type*} [LinearOrder κ]

def empty : SortedMap κ α := ⟨[], .nil⟩

def keys (map : SortedMap κ α) : List κ := map.entries.map (·.1)

def get (map : SortedMap κ α) (key : κ) : Option α :=
  (map.entries.find? fun entry => entry.1 = key).map (·.2)

/-- The value of a key that is there is replaced. -/
def insert (map : SortedMap κ α) (key : κ) (value : α) : SortedMap κ α where
  entries := map.entries.filter (fun entry => entry.1 < key) ++
    (key, value) :: map.entries.filter (fun entry => key < entry.1)
  sorted := by
    have hfilter (keep : κ × α → Bool) := map.sorted.sublist (List.filter_sublist (p := keep))
    refine List.pairwise_append.mpr ⟨hfilter _, List.pairwise_cons.mpr ⟨?_, hfilter _⟩, ?_⟩
    · intro entry hentry
      simpa using (List.mem_filter.mp hentry).2
    · intro left hleft right hright
      have hlt : left.1 < key := by simpa using (List.mem_filter.mp hleft).2
      obtain rfl | hright := List.mem_cons.mp hright
      · exact hlt
      · exact hlt.trans (by simpa using (List.mem_filter.mp hright).2)

def erase (map : SortedMap κ α) (key : κ) : SortedMap κ α :=
  ⟨map.entries.filter fun entry => entry.1 ≠ key, map.sorted.sublist List.filter_sublist⟩

variable {map other : SortedMap κ α} {key k : κ} {value v : α}

theorem keys_nodup : map.keys.Nodup :=
  List.pairwise_map.mpr (map.sorted.imp fun h => ne_of_lt h)

theorem get_eq_some : map.get key = some value ↔ (key, value) ∈ map.entries := by
  rw [get, Option.map_eq_some_iff]
  simp only [find?_key_eq_some keys_nodup]
  constructor
  · rintro ⟨⟨_, _⟩, ⟨hmem, rfl⟩, rfl⟩
    exact hmem
  · exact fun hmem => ⟨_, ⟨hmem, rfl⟩, rfl⟩

theorem mem_keys : key ∈ map.keys ↔ ∃ value, map.get key = some value := by
  simp [keys, get_eq_some]

theorem get_eq_none : map.get key = none ↔ key ∉ map.keys := by
  rw [mem_keys, Option.eq_none_iff_forall_ne_some, not_exists]

@[simp] theorem get_empty : (empty : SortedMap κ α).get key = none := rfl

theorem get_insert : (map.insert key value).get k = if k = key then some value else map.get k := by
  ext v
  rw [get_eq_some]
  simp only [insert, List.mem_append, List.mem_cons, List.mem_filter, Prod.mk.injEq,
    decide_eq_true_eq]
  split
  · next heq =>
    subst heq
    simp [eq_comm]
  · next hne =>
    rw [get_eq_some]
    constructor
    · rintro (⟨hmem, -⟩ | ⟨heq, -⟩ | ⟨hmem, -⟩)
      · exact hmem
      · exact absurd heq hne
      · exact hmem
    · intro hmem
      obtain hlt | hlt := lt_or_gt_of_ne hne
      · exact .inl ⟨hmem, hlt⟩
      · exact .inr (.inr ⟨hmem, hlt⟩)

@[simp] theorem get_insert_self : (map.insert key value).get key = some value := by
  rw [get_insert, if_pos rfl]

theorem get_insert_of_ne (h : k ≠ key) : (map.insert key value).get k = map.get k := by
  rw [get_insert, if_neg h]

theorem get_erase : (map.erase key).get k = if k = key then none else map.get k := by
  ext v
  rw [get_eq_some]
  split
  · next heq =>
    subst heq
    simp [erase]
  · next hne => simp [erase, get_eq_some, hne]

/-- Erasing keys one after the other. -/
theorem get_foldl_erase {erased : List κ} {map : SortedMap κ α} :
    (erased.foldl erase map).get k = if k ∈ erased then none else map.get k := by
  induction erased generalizing map with
  | nil => simp
  | cons key erased ih =>
    rw [List.foldl_cons, ih, get_erase]
    by_cases hkey : k = key <;> by_cases herased : k ∈ erased <;> simp [hkey, herased]

theorem mem_keys_insert : k ∈ (map.insert key value).keys ↔ k = key ∨ k ∈ map.keys := by
  by_cases h : k = key
  · simp [mem_keys, h]
  · simp [mem_keys, get_insert_of_ne h, h]

/-- A map is known by its lookups. -/
theorem ext_get (h : ∀ key, map.get key = other.get key) : map = other := by
  have hnodup (map : SortedMap κ α) : map.entries.Nodup := .of_map Prod.fst keys_nodup
  have hperm : map.entries.Perm other.entries :=
    (List.perm_ext_iff_of_nodup (hnodup map) (hnodup other)).mpr fun ⟨key, value⟩ => by
      rw [← get_eq_some, ← get_eq_some, h]
  obtain ⟨entries, sorted⟩ := map
  obtain ⟨otherEntries, otherSorted⟩ := other
  congr 1
  exact hperm.eq_of_pairwise (fun _ _ _ _ hlt hgt => absurd hgt hlt.asymm) sorted otherSorted

theorem get_foldl_insert {entries : List (κ × α)} {map : SortedMap κ α}
    (h : (entries.map (·.1)).Nodup) :
    (entries.foldl (fun map (key, value) => map.insert key value) map).get k = some v ↔
      (k, v) ∈ entries ∨ k ∉ entries.map (·.1) ∧ map.get k = some v := by
  induction entries generalizing map with
  | nil => simp
  | cons entry entries ih =>
    obtain ⟨key, value⟩ := entry
    obtain ⟨hkey, hentries⟩ := List.nodup_cons.mp h
    rw [List.foldl_cons, ih hentries]
    by_cases heq : k = key
    · subst heq
      have hnone : (k, v) ∉ entries := fun hmem => hkey (List.mem_map_of_mem (f := (·.1)) hmem)
      simp [hnone, eq_comm, show k ∉ entries.map (·.1) from hkey]
    · simp [get_insert_of_ne heq, heq]

/-- Inserting what is made of the entries of another map. -/
theorem get_foldl_insert_map {β : Type*} (f : α → β) (map : SortedMap κ α) (other : SortedMap κ β)
    (k : κ) : ((map.entries.map fun entry => (entry.1, f entry.2)).foldl
      (fun other (key, value) => other.insert key value) other).get k =
        ((map.get k).map f).or (other.get k) := by
  have hkeys : (map.entries.map fun entry => (entry.1, f entry.2)).map (·.1) = map.keys := by
    rw [List.map_map]
    rfl
  have hmem (value : β) : (k, value) ∈ (map.entries.map fun entry => (entry.1, f entry.2)) ↔
      ∃ a, map.get k = some a ∧ f a = value := by
    rw [List.mem_map]
    constructor
    · rintro ⟨⟨_, a⟩, ha, heq⟩
      obtain ⟨rfl, rfl⟩ := Prod.mk.inj heq
      exact ⟨a, get_eq_some.mpr ha, rfl⟩
    · rintro ⟨a, ha, rfl⟩
      exact ⟨(k, a), get_eq_some.mp ha, rfl⟩
  ext value
  rw [get_foldl_insert (hkeys ▸ keys_nodup), hkeys, hmem, ← get_eq_none]
  cases map.get k <;> simp

/-- Erasing the keys of another map. -/
theorem get_foldl_erase_keys {β : Type*} (map : SortedMap κ α) (other : SortedMap κ β) (k : κ) :
    (map.keys.foldl erase other).get k = if (map.get k).isSome then none else other.get k := by
  rw [get_foldl_erase]
  exact if_congr (by rw [mem_keys, Option.isSome_iff_exists]) rfl rfl

/-- The map of a list of entries, in which a later entry replaces an earlier one. -/
def ofList (entries : List (κ × α)) : SortedMap κ α :=
  entries.foldl (fun map (key, value) => map.insert key value) empty

theorem ofList_concat (entries : List (κ × α)) (entry : κ × α) :
    ofList (entries ++ [entry]) = (ofList entries).insert entry.1 entry.2 := by
  rw [ofList, List.foldl_append]
  rfl

theorem get_ofList_eq_none {entries : List (κ × α)} :
    (ofList entries).get k = none ↔ ∀ entry ∈ entries, entry.1 ≠ k := by
  induction entries using List.reverseRecOn with
  | nil => simp [ofList]
  | append_singleton entries entry ih =>
    rw [ofList_concat, get_insert, List.forall_mem_append, ← ih, List.forall_mem_singleton]
    by_cases hk : k = entry.1
    · simp [hk]
    · simp [hk, Ne.symm hk]

/-- Under a key stands its last value. -/
theorem get_ofList_eq_some {entries : List (κ × α)} : (ofList entries).get k = some v ↔
    LastWins (fun entry => if entry.1 = k then some entry.2 else none) entries v := by
  refine LastWins.iff_foldl _ (fun map : SortedMap κ α => map.get k) get_empty fun map entry => ?_
  rw [get_insert]
  by_cases hk : k = entry.1
  · rw [if_pos hk, if_pos hk.symm, Option.some_or]
  · rw [if_neg hk, if_neg (Ne.symm hk), Option.none_or]

/-- Where the values of each key are in order, the map has the last of them. -/
theorem get_ofList_of_pairwise {entries : List (κ × α)} {R : α → α → Prop}
    (hrefl : ∀ value, R value value)
    (h : entries.Pairwise (fun left right => left.1 = right.1 → R left.2 right.2))
    (hget : (ofList entries).get k = some v) :
    (k, v) ∈ entries ∧ ∀ value, (k, value) ∈ entries → R value v := by
  induction entries using List.reverseRecOn with
  | nil => simp [ofList] at hget
  | append_singleton entries entry ih =>
    obtain ⟨hentries, -, hlast⟩ := List.pairwise_append.mp h
    rw [ofList_concat, get_insert] at hget
    by_cases hk : k = entry.1
    · subst hk
      rw [if_pos rfl] at hget
      obtain rfl := Option.some.inj hget
      refine ⟨by simp, fun value hvalue => ?_⟩
      obtain hvalue | hvalue := List.mem_append.mp hvalue
      · exact hlast _ hvalue entry (List.mem_singleton.mpr rfl) rfl
      · rw [← List.mem_singleton.mp hvalue]
        exact hrefl _
    · rw [if_neg hk] at hget
      obtain ⟨hmem, hbelow⟩ := ih hentries hget
      refine ⟨List.mem_append_left _ hmem, fun value hvalue => ?_⟩
      obtain hvalue | hvalue := List.mem_append.mp hvalue
      · exact hbelow value hvalue
      · exact absurd (congrArg Prod.fst (List.mem_singleton.mp hvalue)) hk

/-- Inserting the entries of a map one after the other builds the map. -/
theorem foldl_insert_entries :
    map.entries.foldl (fun map (key, value) => map.insert key value) empty = map := by
  apply ext_get
  intro key
  ext value
  rw [get_foldl_insert keys_nodup, get_empty]
  simp [get_eq_some]

end SortedMap
