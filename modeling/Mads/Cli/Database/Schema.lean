import Mathlib.Data.List.Dedup
import Mathlib.Data.List.Sort
import Mathlib.Data.Prod.Lex
import Mathlib.Data.String.Basic
import Mads.Base
import Mads.Library.SortedMap

/-!
# Table shapes, as declared and as found in a database
-/

namespace Mads

structure QualifiedTableName where
  schema : String
  table : String
  deriving DecidableEq, Repr

namespace QualifiedTableName

/-- Names are compared by schema, then by table. -/
def fields (name : QualifiedTableName) : String ×ₗ String := toLex (name.schema, name.table)

theorem fields_injective : Function.Injective fields := by
  intro left right h
  obtain ⟨_, _⟩ := left
  obtain ⟨_, _⟩ := right
  simp only [fields, EmbeddingLike.apply_eq_iff_eq, Prod.mk.injEq] at h
  rw [h.1, h.2]

instance : LinearOrder QualifiedTableName := LinearOrder.lift' fields fields_injective

def displayName (name : QualifiedTableName) : String := name.schema ++ "." ++ name.table

end QualifiedTableName

inductive PgType where
  | bool
  | smallInt
  | integer
  | bigInt
  | real
  | doublePrecision
  | numeric
  | text
  | varChar (length : Option UInt32)
  | char (length : Option UInt32)
  | bytea
  | date
  | time
  | timestamp
  | timestampWithTimeZone
  | json
  | jsonb
  | uuid
  | inet
  | cidr
  | macAddr
  | array (element : PgType)
  deriving DecidableEq, Repr

structure ColumnSchema where
  name : String
  sqlType : PgType
  nullable : Bool
  ordinal : ℕ
  deriving DecidableEq, Repr

structure TableSchema where
  name : QualifiedTableName
  columns : List ColumnSchema
  primaryKey : List String
  deriving DecidableEq, Repr

/-- No two columns have one name. -/
def TableSchema.DistinctColumns (table : TableSchema) : Prop := (table.columns.map (·.name)).Nodup

instance (table : TableSchema) : Decidable table.DistinctColumns :=
  inferInstanceAs (Decidable (List.Nodup _))

/-- The key is made of columns of the table. -/
def TableSchema.KeyNamesColumns (table : TableSchema) : Prop :=
  ∀ name ∈ table.primaryKey, name ∈ table.columns.map (·.name)

instance (table : TableSchema) : Decidable table.KeyNamesColumns :=
  inferInstanceAs (Decidable (∀ name ∈ table.primaryKey, _))

/-- `BTreeMap<QualifiedTableName, TableSchema>`, with every table under its own name. -/
structure TableMap where
  tables : List TableSchema
  sorted : tables.Pairwise (fun left right => left.name < right.name)
  deriving DecidableEq

namespace TableMap

def empty : TableMap := ⟨[], .nil⟩

def keys (map : TableMap) : List QualifiedTableName := map.tables.map (·.name)

def get (map : TableMap) (name : QualifiedTableName) : Option TableSchema :=
  map.tables.find? (fun table => table.name = name)

variable {map : TableMap} {name : QualifiedTableName} {table : TableSchema}

theorem keys_nodup : map.keys.Nodup :=
  List.pairwise_map.mpr (map.sorted.imp fun h => ne_of_lt h)

theorem name_of_get (h : map.get name = some table) : table.name = name := by
  simpa using List.find?_some h

theorem mem_of_get (h : map.get name = some table) : table ∈ map.tables :=
  List.mem_of_find?_eq_some h

theorem get_eq_some : map.get name = some table ↔ table ∈ map.tables ∧ table.name = name :=
  find?_key_eq_some keys_nodup

theorem get_of_mem (h : table ∈ map.tables) : map.get table.name = some table :=
  get_eq_some.mpr ⟨h, rfl⟩

theorem mem_keys : name ∈ map.keys ↔ ∃ table, map.get name = some table := by
  simp only [keys, List.mem_map, get_eq_some]

theorem get_eq_none : map.get name = none ↔ name ∉ map.keys := by
  rw [mem_keys, Option.eq_none_iff_forall_ne_some, not_exists]

/-- `entry(name).or_insert(table)`, and then an update of the entry. -/
def upsertInto (name : QualifiedTableName) (update : TableSchema → TableSchema)
    (table : TableSchema) : List TableSchema → List TableSchema
  | [] => [update table]
  | first :: rest =>
    if name < first.name then update table :: first :: rest
    else if name = first.name then update first :: rest
    else first :: upsertInto name update table rest

theorem mem_upsertInto {update : TableSchema → TableSchema} {tables : List TableSchema}
    {found : TableSchema} (h : found ∈ upsertInto name update table tables) :
    found = update table ∨ found ∈ tables ∨
      ∃ first ∈ tables, name = first.name ∧ found = update first := by
  induction tables with
  | nil => exact .inl (List.mem_singleton.mp h)
  | cons first rest ih =>
    rw [upsertInto] at h
    split at h
    · exact (List.mem_cons.mp h).imp_right .inl
    · split at h
      · next heq =>
        obtain rfl | hrest := List.mem_cons.mp h
        · exact .inr (.inr ⟨first, List.mem_cons_self, heq, rfl⟩)
        · exact .inr (.inl (List.mem_cons_of_mem _ hrest))
      · obtain rfl | hrest := List.mem_cons.mp h
        · exact .inr (.inl List.mem_cons_self)
        · obtain hnew | hold | ⟨other, hmem, heq⟩ := ih hrest
          · exact .inl hnew
          · exact .inr (.inl (List.mem_cons_of_mem _ hold))
          · exact .inr (.inr ⟨other, List.mem_cons_of_mem _ hmem, heq⟩)

theorem upsertInto_sorted {update : TableSchema → TableSchema} {tables : List TableSchema}
    (hupdate : ∀ table, (update table).name = table.name) (htable : table.name = name)
    (h : tables.Pairwise (fun left right => left.name < right.name)) :
    (upsertInto name update table tables).Pairwise (fun left right => left.name < right.name) := by
  induction tables with
  | nil => exact List.pairwise_singleton _ _
  | cons first rest ih =>
    have hfirst {other : TableSchema} (hother : other ∈ rest) : first.name < other.name :=
      List.rel_of_pairwise_cons h hother
    rw [upsertInto]
    split
    · next hlt =>
      refine List.pairwise_cons.mpr ⟨fun other hother => ?_, h⟩
      rw [hupdate, htable]
      obtain rfl | hrest := List.mem_cons.mp hother
      · exact hlt
      · exact hlt.trans (hfirst hrest)
    · split
      · refine List.pairwise_cons.mpr ⟨fun other hother => ?_, h.of_cons⟩
        rw [hupdate]
        exact hfirst hother
      · next hge hne =>
        refine List.pairwise_cons.mpr ⟨fun other hother => ?_, ih h.of_cons⟩
        obtain rfl | hold | ⟨found, hfound, -, rfl⟩ := mem_upsertInto hother
        · rw [hupdate, htable]
          exact lt_of_le_of_ne (not_lt.mp hge) (Ne.symm hne)
        · exact hfirst hold
        · rw [hupdate]
          exact hfirst hfound

theorem keys_upsertInto {update : TableSchema → TableSchema} {tables : List TableSchema}
    (hupdate : ∀ table, (update table).name = table.name) (htable : table.name = name)
    {other : QualifiedTableName} :
    other ∈ (upsertInto name update table tables).map (·.name) ↔
      other = name ∨ other ∈ tables.map (·.name) := by
  induction tables with
  | nil => simp [upsertInto, hupdate, htable]
  | cons first rest ih =>
    rw [upsertInto]
    split
    · simp only [List.map_cons, List.mem_cons, hupdate, htable]
    · split
      · next heq =>
        simp only [List.map_cons, List.mem_cons, hupdate, heq]
        tauto
      · rw [List.map_cons, List.mem_cons, ih, List.map_cons, List.mem_cons]
        tauto

/-- Updates an entry, or a new one for a table that is not there. -/
def upsert (map : TableMap) (table : TableSchema) (update : TableSchema → TableSchema)
    (hupdate : ∀ table, (update table).name = table.name) : TableMap :=
  ⟨upsertInto table.name update table map.tables, upsertInto_sorted hupdate rfl map.sorted⟩

theorem mem_keys_upsert {update : TableSchema → TableSchema}
    (hupdate : ∀ table, (update table).name = table.name) :
    name ∈ (map.upsert table update hupdate).keys ↔ name = table.name ∨ name ∈ map.keys :=
  keys_upsertInto hupdate rfl

def insert (map : TableMap) (table : TableSchema) : TableMap :=
  map.upsert table (fun old => { table with name := old.name }) fun _ => rfl

theorem mem_upsertInto_new {update : TableSchema → TableSchema} {tables : List TableSchema}
    (hname : name ∉ tables.map (·.name)) {found : TableSchema} :
    found ∈ upsertInto name update table tables ↔ found = update table ∨ found ∈ tables := by
  induction tables with
  | nil => simp [upsertInto]
  | cons first rest ih =>
    obtain ⟨hne, hrest⟩ := List.ne_and_not_mem_of_not_mem_cons hname
    rw [upsertInto, if_neg hne]
    split
    · exact List.mem_cons
    · rw [List.mem_cons, ih hrest, List.mem_cons]
      tauto

theorem mem_keys_insert : name ∈ (map.insert table).keys ↔ name = table.name ∨ name ∈ map.keys := by
  rw [insert]
  exact mem_keys_upsert _

theorem mem_insert (h : table.name ∉ map.keys) {found : TableSchema} :
    found ∈ (map.insert table).tables ↔ found = table ∨ found ∈ map.tables :=
  mem_upsertInto_new h

/-- `BTreeMap::values_mut`, where the names stay. -/
def mapTables (map : TableMap) (update : TableSchema → TableSchema)
    (hupdate : ∀ table, (update table).name = table.name) : TableMap :=
  ⟨map.tables.map update, List.pairwise_map.mpr (by simpa only [hupdate] using map.sorted)⟩

theorem mem_keys_mapTables {update : TableSchema → TableSchema}
    (hupdate : ∀ table, (update table).name = table.name) :
    name ∈ (map.mapTables update hupdate).keys ↔ name ∈ map.keys := by
  simp only [keys, mapTables, List.map_map, Function.comp_def, hupdate]

end TableMap

/-- The schema that the sources declare. -/
structure DesiredSchema where
  tables : TableMap
  deriving DecidableEq

def DesiredSchema.namespaces (desired : DesiredSchema) : List String :=
  orderedSet (desired.tables.keys.map (·.schema))

end Mads
