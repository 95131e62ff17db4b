import Mads.Base
import Mads.Cli.Database.CatalogType
import Mads.Cli.Diagnostic

/-!
# The snapshot of a live database
-/

namespace Mads

def MADS211 : String := "MADS211"

inductive UnsupportedKind where
  | default
  | index
  | check
  | trigger
  | foreignKey
  deriving DecidableEq, Repr

/-- The derived order of the kinds is the order in which they are listed. -/
def UnsupportedKind.discriminant : UnsupportedKind → ℕ
  | default => 0
  | index => 1
  | check => 2
  | trigger => 3
  | foreignKey => 4

structure UnsupportedObject where
  kind : UnsupportedKind
  table : QualifiedTableName
  name : String
  columns : List String
  deriving DecidableEq, Repr

/-- Objects are compared by table, then by kind, then by name. -/
def UnsupportedObject.fields (object : UnsupportedObject) : QualifiedTableName ×ₗ ℕ ×ₗ String :=
  toLex (object.table, toLex (object.kind.discriminant, object.name))

structure ForeignKeyDependency where
  name : String
  child : QualifiedTableName
  parent : QualifiedTableName
  deriving DecidableEq, Repr

/-- Dependencies are compared by child, then by parent, then by name. -/
def ForeignKeyDependency.fields (dependency : ForeignKeyDependency) :
    QualifiedTableName ×ₗ QualifiedTableName ×ₗ String :=
  toLex (dependency.child, toLex (dependency.parent, dependency.name))

structure LiveSchema where
  tables : TableMap
  unsupported : List UnsupportedObject
  foreignKeys : List ForeignKeyDependency
  deriving DecidableEq

/-! ## Rows -/

structure ColumnRow where
  schema : String
  table : String
  ordinal : ℤ
  name : String
  catalogType : String
  nullable : Bool
  primaryKeyPosition : Option ℤ
  hasDefault : Bool
  deriving DecidableEq, Repr

structure IndexRow where
  schema : String
  table : String
  name : String
  columns : List String
  isPrimary : Bool
  deriving DecidableEq, Repr

structure NamedObjectRow where
  schema : String
  table : String
  name : String
  columns : List String
  deriving DecidableEq, Repr

structure ForeignKeyRow where
  name : String
  childSchema : String
  childTable : String
  parentSchema : String
  parentTable : String
  columns : List String
  deriving DecidableEq, Repr

structure CatalogRows where
  columns : List ColumnRow
  indexes : List IndexRow
  checks : List NamedObjectRow
  triggers : List NamedObjectRow
  foreignKeys : List ForeignKeyRow
  deriving DecidableEq, Repr

namespace Catalog

def catalogError (message : String) (subject : Option String) : CliError where
  code := MADS211
  title := "PostgreSQL catalog could not be inspected"
  message := message
  subject := subject

/-- Sorts by a key; what has equal keys keeps its order. -/
def sortByKey {α κ : Type} [Ord κ] (key : α → κ) : List α → List α := sortBy (compareOn key)

theorem sortByKey_perm {α κ : Type} [Ord κ] (key : α → κ) (xs : List α) :
    (sortByKey key xs).Perm xs := sortBy_perm _ xs

@[simp] theorem mem_sortByKey {α κ : Type} [Ord κ] {key : α → κ} {xs : List α} {x : α} :
    x ∈ sortByKey key xs ↔ x ∈ xs := mem_sortBy

/-- The loop over the column rows collects tables, key columns and defaults. -/
structure Collected where
  tables : TableMap
  primaryKeys : List (QualifiedTableName × ℤ × String)
  unsupported : List UnsupportedObject

def pushColumn (column : ColumnSchema) (table : TableSchema) : TableSchema :=
  { table with columns := table.columns ++ [column] }

theorem pushColumn_name (column : ColumnSchema) (table : TableSchema) :
    (pushColumn column table).name = table.name := rfl

def addColumnRow (collected : Collected) (row : ColumnRow) : Run CliError Collected := do
  let tableName : QualifiedTableName := ⟨row.schema, row.table⟩
  let subject := some (tableName.schema ++ "." ++ tableName.table ++ "." ++ row.name)
  let sqlType ← Run.okOr (parseCatalogType row.catalogType)
    (catalogError "a column uses an unsupported PostgreSQL SQL type" subject)
  let ordinal ← Run.okOr (row.ordinal - 1).toNat?
    (catalogError "PostgreSQL returned an invalid column ordinal" subject)
  let column : ColumnSchema := { name := row.name, sqlType, nullable := row.nullable, ordinal }
  pure {
    tables := collected.tables.upsert ⟨tableName, [], []⟩
      (pushColumn column) (pushColumn_name column)
    primaryKeys := match row.primaryKeyPosition with
      | some position => collected.primaryKeys ++ [(tableName, position, row.name)]
      | none => collected.primaryKeys
    unsupported := if row.hasDefault then
        collected.unsupported ++ [⟨.default, tableName, row.name, [row.name]⟩]
      else collected.unsupported }

/-- The columns of a table by ordinal, and its key by position. -/
def finishTable (primaryKeys : List (QualifiedTableName × ℤ × String)) (table : TableSchema) :
    TableSchema :=
  let keys := primaryKeys.filterMap fun (name, key) => if name = table.name then some key else none
  { table with
    columns := sortByKey (·.ordinal) table.columns
    primaryKey := (sortByKey (·.1) keys).map (·.2) }

theorem finishTable_name (primaryKeys : List (QualifiedTableName × ℤ × String))
    (table : TableSchema) : (finishTable primaryKeys table).name = table.name := rfl

def namedObjects (rows : List NamedObjectRow) (namespaces : List String) (kind : UnsupportedKind) :
    List UnsupportedObject :=
  (rows.filter (·.schema ∈ namespaces)).map fun row =>
    ⟨kind, ⟨row.schema, row.table⟩, row.name, row.columns⟩

def snapshotFromRows (namespaces : List String) (rows : CatalogRows) : Run CliError LiveSchema := do
  let collected ← (rows.columns.filter (·.schema ∈ namespaces)).foldlM addColumnRow
    ⟨.empty, [], []⟩
  let tables := collected.tables.mapTables (finishTable collected.primaryKeys)
    (finishTable_name collected.primaryKeys)
  let indexes := (rows.indexes.filter fun row => !row.isPrimary && row.schema ∈ namespaces).map
    fun row => (⟨.index, ⟨row.schema, row.table⟩, row.name, row.columns⟩ : UnsupportedObject)
  let foreignKeyRows := rows.foreignKeys.filter (·.childSchema ∈ namespaces)
  let foreignKeyObjects := foreignKeyRows.map fun row =>
    (⟨.foreignKey, ⟨row.childSchema, row.childTable⟩, row.name, row.columns⟩ : UnsupportedObject)
  let foreignKeys := foreignKeyRows.map fun row =>
    (⟨row.name, ⟨row.childSchema, row.childTable⟩, ⟨row.parentSchema, row.parentTable⟩⟩ :
      ForeignKeyDependency)
  pure {
    tables
    unsupported := sortByKey UnsupportedObject.fields (collected.unsupported ++ indexes ++
      namedObjects rows.checks namespaces .check ++
      namedObjects rows.triggers namespaces .trigger ++ foreignKeyObjects)
    foreignKeys := sortByKey ForeignKeyDependency.fields foreignKeys }

/-! ## The database that is asked -/

structure CatalogColumn where
  ordinal : ℤ
  name : String
  catalogType : String
  nullable : Bool
  primaryKeyPosition : Option ℤ
  hasDefault : Bool
  deriving DecidableEq, Repr

structure CatalogIndex where
  name : String
  columns : List String
  isPrimary : Bool
  deriving DecidableEq, Repr

structure CatalogObject where
  name : String
  columns : List String
  deriving DecidableEq, Repr

/-- An ordinary or partitioned table, with the columns that were not dropped. -/
structure CatalogTable where
  name : QualifiedTableName
  columns : List CatalogColumn
  indexes : List CatalogIndex
  checks : List CatalogObject
  triggers : List CatalogObject
  deriving DecidableEq, Repr

structure CatalogForeignKey where
  name : String
  child : QualifiedTableName
  parent : QualifiedTableName
  columns : List String
  deriving DecidableEq, Repr

/-- The catalog of a database: all tables of all namespaces, and the foreign keys among them.  A
foreign key stands between tables that are there, each with a column. -/
structure DatabaseCatalog where
  tables : List CatalogTable
  foreignKeys : List CatalogForeignKey
  child_exists : ∀ key ∈ foreignKeys, ∃ table ∈ tables, table.name = key.child ∧ table.columns ≠ []
  parent_exists : ∀ key ∈ foreignKeys, ∃ table ∈ tables, table.name = key.parent ∧ table.columns ≠ []

def MIGRATIONS_TABLE : String := "__diesel_schema_migrations"

/-- `nspname = ANY($1)` and `relname <> '__diesel_schema_migrations'`. -/
def Queried (namespaces : List String) (name : QualifiedTableName) : Prop :=
  name.schema ∈ namespaces ∧ name.table ≠ MIGRATIONS_TABLE

instance (namespaces : List String) (name : QualifiedTableName) :
    Decidable (Queried namespaces name) :=
  inferInstanceAs (Decidable (_ ∧ _))

def columnRows (table : CatalogTable) : List ColumnRow :=
  table.columns.map fun column =>
    { schema := table.name.schema, table := table.name.table, ordinal := column.ordinal,
      name := column.name, catalogType := column.catalogType, nullable := column.nullable,
      primaryKeyPosition := column.primaryKeyPosition, hasDefault := column.hasDefault }

def loadRows (namespaces : List String) (database : DatabaseCatalog) : CatalogRows :=
  let tables := database.tables.filter fun table => Queried namespaces table.name
  let named (objects : CatalogTable → List CatalogObject) : List NamedObjectRow :=
    tables.flatMap fun table => (objects table).map fun object =>
      ⟨table.name.schema, table.name.table, object.name, object.columns⟩
  { columns := sortByKey
      (fun row : ColumnRow => toLex (row.schema, toLex (row.table, row.ordinal)))
      (tables.flatMap columnRows)
    indexes := tables.flatMap fun table =>
      (table.indexes.filter fun index => !index.isPrimary).map fun index =>
        ⟨table.name.schema, table.name.table, index.name, index.columns, index.isPrimary⟩
    checks := named (·.checks)
    triggers := named (·.triggers)
    foreignKeys := (database.foreignKeys.filter fun key => Queried namespaces key.child).map
      fun key => ⟨key.name, key.child.schema, key.child.table, key.parent.schema,
        key.parent.table, key.columns⟩ }

end Catalog

/-- `LiveSchema::load`, where the queries can be completed. -/
def LiveSchema.load (database : Catalog.DatabaseCatalog) (namespaces : List String) :
    Run CliError LiveSchema :=
  Catalog.snapshotFromRows namespaces (Catalog.loadRows namespaces database)

/-! ## What a snapshot holds -/

namespace Catalog

theorem addColumnRow_ok {collected next : Collected} {row : ColumnRow}
    (h : addColumnRow collected row = .ok next) {name : QualifiedTableName} :
    name ∈ next.tables.keys ↔ name = ⟨row.schema, row.table⟩ ∨ name ∈ collected.tables.keys := by
  unfold addColumnRow at h
  obtain ⟨sqlType, -, h⟩ := Run.bind_eq_ok.mp h
  obtain ⟨ordinal, -, h⟩ := Run.bind_eq_ok.mp h
  rw [← Except.ok.inj h]
  exact TableMap.mem_keys_upsert (pushColumn_name _)

/-- The tables of a snapshot are those of which a column was found. -/
theorem addColumnRows_ok {rows : List ColumnRow} {collected next : Collected}
    (h : rows.foldlM addColumnRow collected = .ok next) {name : QualifiedTableName} :
    name ∈ next.tables.keys ↔
      (∃ row ∈ rows, name = ⟨row.schema, row.table⟩) ∨ name ∈ collected.tables.keys := by
  induction rows generalizing collected with
  | nil =>
    obtain rfl := Except.ok.inj h
    simp
  | cons row rows ih =>
    rw [List.foldlM_cons] at h
    obtain ⟨mid, hmid, hrest⟩ := Run.bind_eq_ok.mp h
    rw [ih hrest, addColumnRow_ok hmid, List.exists_mem_cons_iff, or_left_comm, or_assoc]

variable {database : DatabaseCatalog} {namespaces : List String} {live : LiveSchema}

theorem mem_keys_load (h : LiveSchema.load database namespaces = .ok live)
    {name : QualifiedTableName} : name ∈ live.tables.keys ↔
      Queried namespaces name ∧ ∃ table ∈ database.tables, table.name = name ∧ table.columns ≠ [] := by
  unfold LiveSchema.load snapshotFromRows at h
  obtain ⟨collected, hcollected, h⟩ := Run.bind_eq_ok.mp h
  rw [← Except.ok.inj h]
  have hempty : name ∉ TableMap.empty.keys := List.not_mem_nil
  refine (TableMap.mem_keys_mapTables (finishTable_name collected.primaryKeys)).trans ?_
  rw [addColumnRows_ok hcollected, or_iff_left hempty]
  simp only [loadRows, List.mem_filter, mem_sortByKey, List.mem_flatMap, columnRows, List.mem_map,
    decide_eq_true_eq]
  constructor
  · rintro ⟨row, ⟨⟨table, ⟨htable, hqueried⟩, column, hcolumn, rfl⟩, -⟩, rfl⟩
    exact ⟨hqueried, table, htable, rfl, List.ne_nil_of_mem hcolumn⟩
  · rintro ⟨hqueried, table, htable, rfl, hcolumns⟩
    obtain ⟨column, hcolumn⟩ := List.exists_mem_of_ne_nil _ hcolumns
    exact ⟨_, ⟨⟨table, ⟨htable, hqueried⟩, column, hcolumn, rfl⟩, hqueried.1⟩, rfl⟩

theorem mem_foreignKeys_load (h : LiveSchema.load database namespaces = .ok live)
    {dependency : ForeignKeyDependency} : dependency ∈ live.foreignKeys ↔
      ∃ key ∈ database.foreignKeys, Queried namespaces key.child ∧
        dependency = ⟨key.name, key.child, key.parent⟩ := by
  unfold LiveSchema.load snapshotFromRows at h
  obtain ⟨collected, -, h⟩ := Run.bind_eq_ok.mp h
  rw [← Except.ok.inj h]
  simp only [loadRows, mem_sortByKey, List.mem_map, List.mem_filter, decide_eq_true_eq]
  constructor
  · rintro ⟨row, ⟨⟨key, ⟨hkey, hqueried⟩, rfl⟩, -⟩, rfl⟩
    exact ⟨key, hkey, hqueried, rfl⟩
  · rintro ⟨key, hkey, hqueried, rfl⟩
    exact ⟨_, ⟨⟨key, ⟨hkey, hqueried⟩, rfl⟩, hqueried.1⟩, rfl⟩

end Catalog

end Mads
