import Mathlib.Data.List.Destutter
import Mads.Cli.Database.Catalog
import Mads.Library.Frontier

/-!
# The plan from a live schema to a desired one
-/

namespace Mads

def MADS212 : String := "MADS212"

inductive Operation where
  | createTable (table : TableSchema)
  | dropTable (table : TableSchema)
  | addColumn (table : QualifiedTableName) (column : ColumnSchema)
  | dropColumn (table : QualifiedTableName) (column : ColumnSchema)
  | alterType (table : QualifiedTableName) (column : String) («from» «to» : PgType)
  | setNotNull (table : QualifiedTableName) (column : String)
  | dropNotNull (table : QualifiedTableName) (column : String)
  deriving DecidableEq, Repr

def Operation.inverse : Operation → Operation
  | createTable table => dropTable table
  | dropTable table => createTable table
  | addColumn table column => dropColumn table column
  | dropColumn table column => addColumn table column
  | alterType table column «from» «to» => alterType table column «to» «from»
  | setNotNull table column => dropNotNull table column
  | dropNotNull table column => setNotNull table column

structure MigrationWarning where
  subject : String
  message : String
  deriving DecidableEq, Repr

def MigrationWarning.fields (warning : MigrationWarning) : String ×ₗ String :=
  toLex (warning.subject, warning.message)

structure MigrationPlan where
  up : List Operation
  down : List Operation
  warnings : List MigrationWarning
  deriving DecidableEq, Repr

def MigrationPlan.isEmpty (plan : MigrationPlan) : Bool := plan.up.isEmpty

namespace Diff

open Catalog

def tableSubject (table : QualifiedTableName) : String := table.schema ++ "." ++ table.table

def columnSubject (table : QualifiedTableName) (column : String) : String :=
  table.schema ++ "." ++ table.table ++ "." ++ column

def diffError (message subject : String) : CliError where
  code := MADS212
  title := "Schema difference is unsafe or unsupported"
  message := message
  subject := some subject
  suggestions := ["adjust the schema manually before generating a migration"]

/-- The column under a name; of several columns with one name, the last. -/
def columnsByName (table : TableSchema) (name : String) : Option ColumnSchema :=
  table.columns.reverse.find? (·.name = name)

def rejectPrimaryKeyChanges (live desired : TableMap) : Run CliError Unit :=
  live.tables.forM fun liveTable =>
    match desired.get liveTable.name with
    | none => pure ()
    | some desiredTable =>
      if liveTable.primaryKey ≠ desiredTable.primaryKey then
        Run.fail (diffError "changing an existing table primary key is unsupported"
          (tableSubject liveTable.name))
      else
        match liveTable.primaryKey.find? (fun column => (columnsByName desiredTable column).isNone)
        with
        | some column => Run.fail (diffError
            "dropping a primary-key column from a retained table is unsupported"
            (columnSubject liveTable.name column))
        | none => pure ()

def rejectRetainedForeignKeyReferences (dropped : List QualifiedTableName)
    (foreignKeys : List ForeignKeyDependency) : Run CliError Unit :=
  match foreignKeys.find? (fun key => key.parent ∈ dropped ∧ key.child ∉ dropped) with
  | some key => Run.fail (diffError
      "a retained table still references a table selected for drop"
      (key.child.schema ++ "." ++ key.name))
  | none => pure ()

/-- The edges among dropped tables, as `(child, parent)`. -/
def droppedEdges (dropped : List QualifiedTableName) (foreignKeys : List ForeignKeyDependency) :
    List (QualifiedTableName ×ₗ QualifiedTableName) :=
  orderedSet ((foreignKeys.filter fun key => key.child ∈ dropped ∧ key.parent ∈ dropped).map
    fun key => toLex (key.child, key.parent))

/-- Each parent waits for its children. -/
def dropLinks (dropped : List QualifiedTableName) (foreignKeys : List ForeignKeyDependency) :
    Frontier.Links QualifiedTableName :=
  Frontier.Links.ofEdges ((droppedEdges dropped foreignKeys).map fun edge =>
    ((ofLex edge).2, (ofLex edge).1))

def orderDroppedTables (dropped : List QualifiedTableName)
    (foreignKeys : List ForeignKeyDependency) : Run CliError (List QualifiedTableName) := do
  let links := dropLinks dropped foreignKeys
  let ordered ← Run.expect
    (Frontier.drain id links.consumers (dropped.length + 1) (Frontier.start id dropped links) [])
    "attempt to subtract with overflow"
  if ordered.length ≠ dropped.length then
    Run.fail (diffError "foreign-key cycle among dropped tables is unsupported" "dropped tables")
  else pure ordered

/-- What one pass of the planner adds: an operation, perhaps with a warning. -/
structure Step where
  operation : Operation
  warning : Option MigrationWarning := none
  deriving DecidableEq, Repr

/-- The loop of a pass over tables that are on both sides. -/
def overRetained (tables others : TableMap) (steps : TableSchema → TableSchema → List Step) :
    List Step :=
  tables.tables.flatMap fun table =>
    match others.get table.name with
    | none => []
    | some other => steps table other

/-- The order of the columns of a table. -/
def columnFields (column : ColumnSchema) : ℕ ×ₗ String := toLex (column.ordinal, column.name)

def additions (liveTable desiredTable : TableSchema) : List ColumnSchema :=
  sortByKey columnFields
    (desiredTable.columns.filter fun column => (columnsByName liveTable column.name).isNone)

/-- The columns on both sides, in live order. -/
def common (liveTable desiredTable : TableSchema) : List (ColumnSchema × ColumnSchema) :=
  sortByKey (fun pair => columnFields pair.1) (liveTable.columns.filterMap fun liveColumn =>
    (columnsByName desiredTable liveColumn.name).map fun desiredColumn =>
      (liveColumn, desiredColumn))

/-- The columns that are no longer declared, the last one first. -/
def removals (liveTable desiredTable : TableSchema) : List ColumnSchema :=
  sortBy (fun left right => compare (columnFields right) (columnFields left))
    (liveTable.columns.filter fun column => (columnsByName desiredTable column.name).isNone)

section Passes

variable (live desired : TableMap)

def createTables : List Step :=
  (desired.tables.filter fun table => (live.get table.name).isNone).map fun table =>
    { operation := .createTable table }

def addColumns : List Step :=
  overRetained desired live fun desiredTable liveTable =>
    (additions liveTable desiredTable).map fun column =>
      { operation := .addColumn desiredTable.name column
        warning := if column.nullable then none
          else some ⟨columnSubject desiredTable.name column.name,
            "adding a non-null column requires a manual backfill or data-safety review"⟩ }

def alterTypes : List Step :=
  overRetained live desired fun liveTable desiredTable =>
    ((common liveTable desiredTable).filter fun pair => pair.1.sqlType ≠ pair.2.sqlType).map
      fun (liveColumn, desiredColumn) =>
        { operation := .alterType liveTable.name liveColumn.name liveColumn.sqlType
            desiredColumn.sqlType
          warning := some ⟨columnSubject liveTable.name liveColumn.name,
            "changing a column type may require a risky cast; review the generated SQL"⟩ }

def alterNullability : List Step :=
  overRetained live desired fun liveTable desiredTable =>
    ((common liveTable desiredTable).filter fun pair => pair.1.nullable ≠ pair.2.nullable).map
      fun (liveColumn, desiredColumn) =>
        { operation := if desiredColumn.nullable then .dropNotNull liveTable.name liveColumn.name
            else .setNotNull liveTable.name liveColumn.name }

def dropColumns : List Step :=
  overRetained live desired fun liveTable desiredTable =>
    (removals liveTable desiredTable).map fun column =>
      { operation := .dropColumn liveTable.name column
        warning := some ⟨columnSubject liveTable.name column.name,
          "dropping a column may discard data; down.sql restores shape, not data"⟩ }

def dropTables (order : List QualifiedTableName) : Run CliError (List Step) :=
  order.mapM fun name => do
    let table ← Run.expect (live.get name)
      "dropped table names are derived from the live snapshot"
    pure { operation := .dropTable table
           warning := some ⟨tableSubject name,
             "dropping a table may discard data; down.sql restores shape, not data"⟩ }

def droppedTables : List QualifiedTableName :=
  live.keys.filter fun name => (desired.get name).isNone

end Passes

/-! ## Warnings about what is not synthesized -/

structure AffectedShape where
  tables : List QualifiedTableName
  columns : List (QualifiedTableName × String)

namespace AffectedShape

def mark (affected : AffectedShape) : Operation → AffectedShape
  | .createTable _ => affected
  | .dropTable table => { affected with tables := affected.tables ++ [table.name] }
  | .addColumn table column | .dropColumn table column =>
    { affected with columns := affected.columns ++ [(table, column.name)] }
  | .alterType table column _ _ | .setNotNull table column | .dropNotNull table column =>
    { affected with columns := affected.columns ++ [(table, column)] }

variable (affected : AffectedShape)

def touches (object : UnsupportedObject) : Bool :=
  object.table ∈ affected.tables ||
    (object.columns.isEmpty && object.table ∈ affected.columns.map (·.1)) ||
    object.columns.any fun column => (object.table, column) ∈ affected.columns

def touchesTableOrColumn (table : QualifiedTableName) : Bool :=
  table ∈ affected.tables || table ∈ affected.columns.map (·.1)

end AffectedShape

def unsupportedKindName : UnsupportedKind → String
  | .default => "default"
  | .index => "index"
  | .check => "check constraint"
  | .trigger => "trigger"
  | .foreignKey => "foreign key"

def unsupportedWarnings (unsupported : List UnsupportedObject)
    (foreignKeys : List ForeignKeyDependency) (affected : AffectedShape) :
    List MigrationWarning :=
  (sortByKey UnsupportedObject.fields (unsupported.filter affected.touches)).map
      (fun object => ⟨columnSubject object.table object.name,
        "unsupported " ++ unsupportedKindName object.kind ++
          " is affected and will not be synthesized; review it manually"⟩) ++
    (foreignKeys.filter fun key => affected.touchesTableOrColumn key.parent).map fun key =>
      ⟨columnSubject key.child key.name,
        "unsupported foreign key is affected and will not be synthesized; review it manually"⟩

def planTablesRef (live : TableMap) (unsupported : List UnsupportedObject)
    (foreignKeys : List ForeignKeyDependency) (desired : TableMap) :
    Run CliError MigrationPlan := do
  rejectPrimaryKeyChanges live desired
  let dropped := droppedTables live desired
  rejectRetainedForeignKeyReferences dropped foreignKeys
  let order ← orderDroppedTables dropped foreignKeys
  let drops ← dropTables live order
  let steps := createTables live desired ++ addColumns live desired ++ alterTypes live desired ++
    alterNullability live desired ++ dropColumns live desired ++ drops
  let up := steps.map (·.operation)
  let warnings := steps.filterMap (·.warning) ++
    unsupportedWarnings unsupported foreignKeys (up.foldl AffectedShape.mark ⟨[], []⟩)
  pure {
    up
    down := up.reverse.map Operation.inverse
    warnings := (sortByKey MigrationWarning.fields warnings).destutter (· ≠ ·) }

end Diff

def planDiff (desired : DesiredSchema) (live : LiveSchema) : Run CliError MigrationPlan :=
  Diff.planTablesRef live.tables live.unsupported live.foreignKeys desired.tables

end Mads
