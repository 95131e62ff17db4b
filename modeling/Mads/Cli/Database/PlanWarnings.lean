import Mads.Cli.Database.DropOrder

/-!
# The warnings of a plan

Each step of a plan comes from one difference between the schemas, and most steps come with a
warning.
-/

namespace Mads

open Catalog Diff

/-! ## What operations touch -/

namespace Operation

/-- The column of an existing table that an operation changes. -/
def changedColumn : Operation → Option (QualifiedTableName × String)
  | addColumn table column | dropColumn table column => some (table, column.name)
  | alterType table column _ _ | setNotNull table column | dropNotNull table column =>
    some (table, column)
  | createTable _ | dropTable _ => none

def droppedTable : Operation → Option QualifiedTableName
  | dropTable table => some table.name
  | _ => none

/-- What an operation touches, by name. -/
def subject : Operation → String
  | createTable table | dropTable table => tableSubject table.name
  | addColumn table column | dropColumn table column => columnSubject table column.name
  | alterType table column _ _ | setNotNull table column | dropNotNull table column =>
    columnSubject table column

/-- Whether an operation can lose data, or fail on the rows that there are. -/
def isRisky : Operation → Bool
  | dropTable _ | dropColumn _ _ | alterType _ _ _ _ | setNotNull _ _ => true
  | addColumn _ column => !column.nullable
  | createTable _ | dropNotNull _ _ => false

end Operation

namespace Diff

section Touched

variable (dropped : QualifiedTableName → Prop) (changed : QualifiedTableName → String → Prop)

/-- A table goes, or one of its columns is changed. -/
def TouchesTable (table : QualifiedTableName) : Prop :=
  dropped table ∨ ∃ column, changed table column

/-- The table of an object goes, or one of its columns is changed. An object without columns belongs
to all columns of its table. -/
def TouchesObject (object : UnsupportedObject) : Prop :=
  dropped object.table ∨ (object.columns = [] ∧ ∃ column, changed object.table column) ∨
    ∃ column ∈ object.columns, changed object.table column

end Touched

def ColumnChanged (up : List Operation) (table : QualifiedTableName) (column : String) : Prop :=
  ∃ operation ∈ up, operation.changedColumn = some (table, column)

def TableDropped (up : List Operation) (table : QualifiedTableName) : Prop :=
  ∃ operation ∈ up, operation.droppedTable = some table

abbrev TableChanged (up : List Operation) : QualifiedTableName → Prop :=
  TouchesTable (TableDropped up) (ColumnChanged up)

abbrev ObjectChanged (up : List Operation) : UnsupportedObject → Prop :=
  TouchesObject (TableDropped up) (ColumnChanged up)

/-- Warnings are complete and minimal. -/
structure WarnsExactly (live : LiveSchema) (plan : MigrationPlan) : Prop where
  operations : ∀ operation ∈ plan.up, operation.isRisky →
    ∃ warning ∈ plan.warnings, warning.subject = operation.subject
  objects : ∀ object ∈ live.unsupported, ObjectChanged plan.up object →
    ∃ warning ∈ plan.warnings, warning.subject = columnSubject object.table object.name
  foreignKeys : ∀ key ∈ live.foreignKeys,
    TableDropped plan.up key.child ∨ TableChanged plan.up key.parent →
      ∃ warning ∈ plan.warnings, warning.subject = columnSubject key.child key.name
  minimal : ∀ warning ∈ plan.warnings,
    (∃ operation ∈ plan.up, operation.subject = warning.subject) ∨
      (∃ object ∈ live.unsupported, ObjectChanged plan.up object ∧
        warning.subject = columnSubject object.table object.name) ∨
      ∃ key ∈ live.foreignKeys, TableChanged plan.up key.parent ∧
        warning.subject = columnSubject key.child key.name

end Diff

/-- Each foreign key of a snapshot is also one of its unsupported objects. -/
def LiveSchema.ListsForeignKeys (live : LiveSchema) : Prop :=
  ∀ key ∈ live.foreignKeys, ∃ object ∈ live.unsupported,
    object.kind = .foreignKey ∧ object.table = key.child ∧ object.name = key.name

theorem listsForeignKeys_of_load {database : DatabaseCatalog} {namespaces : List String}
    {live : LiveSchema} (h : LiveSchema.load database namespaces = .ok live) :
    live.ListsForeignKeys := by
  unfold LiveSchema.load snapshotFromRows at h
  obtain ⟨collected, -, h⟩ := Run.bind_eq_ok.mp h
  obtain rfl := Except.ok.inj h
  intro key hkey
  rw [mem_sortByKey] at hkey
  obtain ⟨row, hrow, rfl⟩ := List.mem_map.mp hkey
  refine ⟨⟨.foreignKey, ⟨row.childSchema, row.childTable⟩, row.name, row.columns⟩, ?_, rfl, rfl, rfl⟩
  rw [mem_sortByKey]
  exact List.mem_append_right _ (List.mem_map_of_mem hrow)

/-! ## Where steps come from -/

namespace Diff

section Differences

variable (live desired : TableMap)

/-- A column that a retained table gets. -/
def Added (table : QualifiedTableName) (column : ColumnSchema) : Prop :=
  ∃ desiredTable ∈ desired.tables, desiredTable.name = table ∧
    ∃ liveTable, live.get desiredTable.name = some liveTable ∧
      column ∈ additions liveTable desiredTable

/-- A column of a retained table on both sides. -/
def Kept (table : QualifiedTableName) (liveColumn desiredColumn : ColumnSchema) : Prop :=
  ∃ liveTable ∈ live.tables, liveTable.name = table ∧
    ∃ desiredTable, desired.get liveTable.name = some desiredTable ∧
      (liveColumn, desiredColumn) ∈ common liveTable desiredTable

/-- A column that a retained table loses. -/
def Removed (table : QualifiedTableName) (column : ColumnSchema) : Prop :=
  ∃ liveTable ∈ live.tables, liveTable.name = table ∧
    ∃ desiredTable, desired.get liveTable.name = some desiredTable ∧
      column ∈ removals liveTable desiredTable

/-- A table that the schema no longer declares. -/
def Undeclared (table : QualifiedTableName) : Prop :=
  table ∈ live.keys ∧ desired.get table = none

/-- A column that a retained table gets, loses or changes. -/
def ColumnDiffers (table : QualifiedTableName) (name : String) : Prop :=
  (∃ column, Added live desired table column ∧ column.name = name) ∨
    (∃ column, Removed live desired table column ∧ column.name = name) ∨
    ∃ liveColumn desiredColumn, Kept live desired table liveColumn desiredColumn ∧
      liveColumn.name = name ∧ (liveColumn.sqlType ≠ desiredColumn.sqlType ∨
        liveColumn.nullable ≠ desiredColumn.nullable)

end Differences

/-! ### The steps for the differences -/

def addStep (table : QualifiedTableName) (column : ColumnSchema) : Step where
  operation := .addColumn table column
  warning := if column.nullable then none
    else some ⟨columnSubject table column.name,
      "adding a non-null column requires a manual backfill or data-safety review"⟩

def typeStep (table : QualifiedTableName) (liveColumn desiredColumn : ColumnSchema) : Step where
  operation := .alterType table liveColumn.name liveColumn.sqlType desiredColumn.sqlType
  warning := some ⟨columnSubject table liveColumn.name,
    "changing a column type may require a risky cast; review the generated SQL"⟩

def nullStep (table : QualifiedTableName) (liveColumn desiredColumn : ColumnSchema) : Step where
  operation := if desiredColumn.nullable then .dropNotNull table liveColumn.name
    else .setNotNull table liveColumn.name

def removeStep (table : QualifiedTableName) (column : ColumnSchema) : Step where
  operation := .dropColumn table column
  warning := some ⟨columnSubject table column.name,
    "dropping a column may discard data; down.sql restores shape, not data"⟩

def dropStep (table : TableSchema) : Step where
  operation := .dropTable table
  warning := some ⟨tableSubject table.name,
    "dropping a table may discard data; down.sql restores shape, not data"⟩

/-- One step for each difference. -/
inductive Planned (live desired : TableMap) : Step → Prop
  | created {table : TableSchema} (h : table ∈ desired.tables ∧ live.get table.name = none) :
    Planned live desired { operation := .createTable table }
  | added {table : QualifiedTableName} {column : ColumnSchema}
    (h : Added live desired table column) : Planned live desired (addStep table column)
  | retyped {table : QualifiedTableName} {liveColumn desiredColumn : ColumnSchema}
    (h : Kept live desired table liveColumn desiredColumn)
    (hne : liveColumn.sqlType ≠ desiredColumn.sqlType) :
    Planned live desired (typeStep table liveColumn desiredColumn)
  | renulled {table : QualifiedTableName} {liveColumn desiredColumn : ColumnSchema}
    (h : Kept live desired table liveColumn desiredColumn)
    (hne : liveColumn.nullable ≠ desiredColumn.nullable) :
    Planned live desired (nullStep table liveColumn desiredColumn)
  | removed {table : QualifiedTableName} {column : ColumnSchema}
    (h : Removed live desired table column) : Planned live desired (removeStep table column)
  | dropped {table : TableSchema} (h : table ∈ live.tables ∧ desired.get table.name = none) :
    Planned live desired (dropStep table)

variable {live desired : TableMap} {step : Step}

theorem mem_createTables : step ∈ createTables live desired ↔
    ∃ table, (table ∈ desired.tables ∧ live.get table.name = none) ∧
      { operation := .createTable table } = step := by
  simp only [createTables, List.mem_map, List.mem_filter, Option.isNone_iff_eq_none]

theorem mem_addColumns : step ∈ addColumns live desired ↔
    ∃ table column, Added live desired table column ∧ addStep table column = step := by
  rw [addColumns, mem_overRetained]
  constructor
  · rintro ⟨desiredTable, hdesired, liveTable, hlive, hstep⟩
    obtain ⟨column, hcolumn, rfl⟩ := List.mem_map.mp hstep
    exact ⟨desiredTable.name, column, ⟨desiredTable, hdesired, rfl, liveTable, hlive, hcolumn⟩, rfl⟩
  · rintro ⟨table, column, ⟨desiredTable, hdesired, rfl, liveTable, hlive, hcolumn⟩, rfl⟩
    exact ⟨desiredTable, hdesired, liveTable, hlive, List.mem_map.mpr ⟨column, hcolumn, rfl⟩⟩

/-- The two passes over kept columns take the pairs that differ in one property. -/
theorem mem_overKept (differ : ColumnSchema → ColumnSchema → Prop)
    [∀ left right, Decidable (differ left right)]
    (make : QualifiedTableName → ColumnSchema → ColumnSchema → Step) :
    step ∈ overRetained live desired (fun liveTable desiredTable =>
        ((common liveTable desiredTable).filter fun pair => differ pair.1 pair.2).map
          fun (liveColumn, desiredColumn) => make liveTable.name liveColumn desiredColumn) ↔
      ∃ table liveColumn desiredColumn, Kept live desired table liveColumn desiredColumn ∧
        differ liveColumn desiredColumn ∧ make table liveColumn desiredColumn = step := by
  rw [mem_overRetained]
  constructor
  · rintro ⟨liveTable, hlive, desiredTable, hdesired, hstep⟩
    obtain ⟨⟨liveColumn, desiredColumn⟩, hpair, rfl⟩ := List.mem_map.mp hstep
    obtain ⟨hcommon, hdiffer⟩ := List.mem_filter.mp hpair
    exact ⟨liveTable.name, liveColumn, desiredColumn,
      ⟨liveTable, hlive, rfl, desiredTable, hdesired, hcommon⟩, of_decide_eq_true hdiffer, rfl⟩
  · rintro ⟨table, liveColumn, desiredColumn, ⟨liveTable, hlive, rfl, desiredTable, hdesired,
      hcommon⟩, hdiffer, rfl⟩
    exact ⟨liveTable, hlive, desiredTable, hdesired, List.mem_map.mpr
      ⟨(liveColumn, desiredColumn), List.mem_filter.mpr ⟨hcommon, decide_eq_true hdiffer⟩, rfl⟩⟩

theorem mem_alterTypes : step ∈ alterTypes live desired ↔
    ∃ table liveColumn desiredColumn, Kept live desired table liveColumn desiredColumn ∧
      liveColumn.sqlType ≠ desiredColumn.sqlType ∧
        typeStep table liveColumn desiredColumn = step :=
  mem_overKept (fun liveColumn desiredColumn => liveColumn.sqlType ≠ desiredColumn.sqlType) typeStep

theorem mem_alterNullability : step ∈ alterNullability live desired ↔
    ∃ table liveColumn desiredColumn, Kept live desired table liveColumn desiredColumn ∧
      liveColumn.nullable ≠ desiredColumn.nullable ∧
        nullStep table liveColumn desiredColumn = step :=
  mem_overKept (fun liveColumn desiredColumn => liveColumn.nullable ≠ desiredColumn.nullable)
    nullStep

theorem mem_dropColumns : step ∈ dropColumns live desired ↔
    ∃ table column, Removed live desired table column ∧ removeStep table column = step := by
  rw [dropColumns, mem_overRetained]
  constructor
  · rintro ⟨liveTable, hlive, desiredTable, hdesired, hstep⟩
    obtain ⟨column, hcolumn, rfl⟩ := List.mem_map.mp hstep
    exact ⟨liveTable.name, column, ⟨liveTable, hlive, rfl, desiredTable, hdesired, hcolumn⟩, rfl⟩
  · rintro ⟨table, column, ⟨liveTable, hlive, rfl, desiredTable, hdesired, hcolumn⟩, rfl⟩
    exact ⟨liveTable, hlive, desiredTable, hdesired, List.mem_map.mpr ⟨column, hcolumn, rfl⟩⟩

/-- The last pass drops each undeclared table. -/
theorem mem_dropTables {order : List QualifiedTableName} {drops : List Step}
    (hperm : order.Perm (droppedTables live desired)) (h : dropTables live order = .ok drops) :
    step ∈ drops ↔ ∃ table, (table ∈ live.tables ∧ desired.get table.name = none) ∧
      dropStep table = step := by
  have hforall := Run.forall₂_of_mapM h
  constructor
  · intro hstep
    obtain ⟨name, hname, hdrop⟩ := exists_of_forall₂ hforall hstep
    obtain ⟨table, htable, hdrop⟩ := Run.bind_eq_ok.mp hdrop
    have hget := Run.expect_eq_ok.mp htable
    have hundeclared := (mem_droppedTables.mp (hperm.mem_iff.mp hname)).2
    obtain rfl := TableMap.name_of_get hget
    exact ⟨table, ⟨TableMap.mem_of_get hget, hundeclared⟩, Except.ok.inj hdrop⟩
  · rintro ⟨table, ⟨htable, hundeclared⟩, rfl⟩
    have hname : table.name ∈ order := hperm.mem_iff.mpr
      (mem_droppedTables.mpr ⟨List.mem_map_of_mem htable, hundeclared⟩)
    obtain ⟨step, hstep, hdrop⟩ := exists_of_forall₂ hforall.flip hname
    obtain ⟨found, hfound, hdrop⟩ := Run.bind_eq_ok.mp hdrop
    obtain rfl := Option.some.inj ((TableMap.get_of_mem htable).symm.trans
      (Run.expect_eq_ok.mp hfound))
    rwa [← Except.ok.inj hdrop] at hstep

/-- The steps of a plan are those for the differences. -/
theorem mem_steps_iff {order : List QualifiedTableName} {drops : List Step}
    (hperm : order.Perm (droppedTables live desired)) (h : dropTables live order = .ok drops) :
    step ∈ shapeSteps live desired ++ drops ↔ Planned live desired step := by
  simp only [shapeSteps, List.mem_append, mem_createTables, mem_addColumns, mem_alterTypes,
    mem_alterNullability, mem_dropColumns, mem_dropTables hperm h]
  constructor
  · rintro (((((⟨table, hcreated, rfl⟩ | ⟨table, column, hadded, rfl⟩) |
      ⟨table, liveColumn, desiredColumn, hkept, hne, rfl⟩) |
      ⟨table, liveColumn, desiredColumn, hkept, hne, rfl⟩) | ⟨table, column, hremoved, rfl⟩) |
      ⟨table, hdropped, rfl⟩)
    · exact .created hcreated
    · exact .added hadded
    · exact .retyped hkept hne
    · exact .renulled hkept hne
    · exact .removed hremoved
    · exact .dropped hdropped
  · intro hplanned
    cases hplanned with
    | created hcreated => exact .inl (.inl (.inl (.inl (.inl ⟨_, hcreated, rfl⟩))))
    | added hadded => exact .inl (.inl (.inl (.inl (.inr ⟨_, _, hadded, rfl⟩))))
    | retyped hkept hne => exact .inl (.inl (.inl (.inr ⟨_, _, _, hkept, hne, rfl⟩)))
    | renulled hkept hne => exact .inl (.inl (.inr ⟨_, _, _, hkept, hne, rfl⟩))
    | removed hremoved => exact .inl (.inr ⟨_, _, hremoved, rfl⟩)
    | dropped hdropped => exact .inr ⟨_, hdropped, rfl⟩

/-! ## What is affected -/

theorem mem_tables_foldl_mark {up : List Operation} {affected : AffectedShape}
    {table : QualifiedTableName} : table ∈ (up.foldl AffectedShape.mark affected).tables ↔
      table ∈ affected.tables ∨ TableDropped up table := by
  induction up generalizing affected with
  | nil => simp [TableDropped]
  | cons operation up ih =>
    have hmark : table ∈ (affected.mark operation).tables ↔
        table ∈ affected.tables ∨ operation.droppedTable = some table := by
      cases operation <;> simp [AffectedShape.mark, Operation.droppedTable, eq_comm]
    rw [List.foldl_cons, ih, hmark, TableDropped, TableDropped, List.exists_mem_cons_iff, or_assoc]

theorem mem_columns_foldl_mark {up : List Operation} {affected : AffectedShape}
    {table : QualifiedTableName} {column : String} :
    (table, column) ∈ (up.foldl AffectedShape.mark affected).columns ↔
      (table, column) ∈ affected.columns ∨ ColumnChanged up table column := by
  induction up generalizing affected with
  | nil => simp [ColumnChanged]
  | cons operation up ih =>
    have hmark : (table, column) ∈ (affected.mark operation).columns ↔
        (table, column) ∈ affected.columns ∨ operation.changedColumn = some (table, column) := by
      cases operation <;> simp [AffectedShape.mark, Operation.changedColumn, eq_comm]
    rw [List.foldl_cons, ih, hmark, ColumnChanged, ColumnChanged, List.exists_mem_cons_iff, or_assoc]

/-- The affected shape of a plan knows the tables that its operations change. -/
theorem touchesTableOrColumn_iff {up : List Operation} {table : QualifiedTableName} :
    (up.foldl AffectedShape.mark ⟨[], []⟩).touchesTableOrColumn table ↔ TableChanged up table := by
  simp [AffectedShape.touchesTableOrColumn, TouchesTable, mem_tables_foldl_mark,
    mem_columns_foldl_mark]

theorem touches_iff {up : List Operation} {object : UnsupportedObject} :
    (up.foldl AffectedShape.mark ⟨[], []⟩).touches object ↔ ObjectChanged up object := by
  simp [AffectedShape.touches, TouchesObject, mem_tables_foldl_mark, mem_columns_foldl_mark,
    or_assoc]

/-! ## The warnings of a plan -/

def objectWarning (object : UnsupportedObject) : MigrationWarning :=
  ⟨columnSubject object.table object.name, "unsupported " ++ unsupportedKindName object.kind ++
    " is affected and will not be synthesized; review it manually"⟩

def keyWarning (key : ForeignKeyDependency) : MigrationWarning :=
  ⟨columnSubject key.child key.name,
    "unsupported foreign key is affected and will not be synthesized; review it manually"⟩

theorem mem_unsupportedWarnings {up : List Operation} {unsupported : List UnsupportedObject}
    {foreignKeys : List ForeignKeyDependency} {warning : MigrationWarning} :
    warning ∈ unsupportedWarnings unsupported foreignKeys
        (up.foldl AffectedShape.mark ⟨[], []⟩) ↔
      (∃ object ∈ unsupported, ObjectChanged up object ∧ objectWarning object = warning) ∨
        ∃ key ∈ foreignKeys, TableChanged up key.parent ∧ keyWarning key = warning := by
  simp only [unsupportedWarnings, List.mem_append, List.mem_map, mem_sortByKey, List.mem_filter,
    touches_iff, touchesTableOrColumn_iff, and_assoc]
  rfl

variable {unsupported : List UnsupportedObject} {foreignKeys : List ForeignKeyDependency}
  {plan : MigrationPlan}

/-- The operations and the warnings of a plan. -/
theorem planTablesRef_steps (h : planTablesRef live unsupported foreignKeys desired = .ok plan) :
    (∀ operation, operation ∈ plan.up ↔
        ∃ step, Planned live desired step ∧ step.operation = operation) ∧
      ∀ warning, warning ∈ plan.warnings ↔
        (∃ step, Planned live desired step ∧ step.warning = some warning) ∨
          (∃ object ∈ unsupported, ObjectChanged plan.up object ∧ objectWarning object = warning) ∨
          ∃ key ∈ foreignKeys, TableChanged plan.up key.parent ∧ keyWarning key = warning := by
  unfold planTablesRef at h
  obtain ⟨⟨⟩, -, h⟩ := Run.bind_eq_ok.mp h
  obtain ⟨⟨⟩, -, h⟩ := Run.bind_eq_ok.mp h
  obtain ⟨order, horder, h⟩ := Run.bind_eq_ok.mp h
  obtain ⟨drops, hdrops, h⟩ := Run.bind_eq_ok.mp h
  obtain rfl := Except.ok.inj h
  have hsteps {step : Step} : step ∈ shapeSteps live desired ++ drops ↔
      Planned live desired step := mem_steps_iff (orderDroppedTables_ok horder).1 hdrops
  constructor
  · intro operation
    change operation ∈ (shapeSteps live desired ++ drops).map (·.operation) ↔ _
    simp only [List.mem_map, hsteps]
  · intro warning
    rw [mem_destutter, mem_sortByKey, List.mem_append, mem_unsupportedWarnings]
    apply or_congr_left
    change warning ∈ (shapeSteps live desired ++ drops).filterMap (·.warning) ↔ _
    simp only [List.mem_filterMap, hsteps]

/-! ### The changes of a plan are the differences -/

theorem operation_nullStep {table : QualifiedTableName} {liveColumn desiredColumn : ColumnSchema} :
    (nullStep table liveColumn desiredColumn).operation = if desiredColumn.nullable
      then .dropNotNull table liveColumn.name else .setNotNull table liveColumn.name := rfl

theorem tableDropped_iff (h : planTablesRef live unsupported foreignKeys desired = .ok plan)
    {table : QualifiedTableName} :
    TableDropped plan.up table ↔ Undeclared live desired table := by
  simp only [TableDropped, (planTablesRef_steps h).1]
  constructor
  · rintro ⟨_, ⟨step, hplanned, rfl⟩, hdropped⟩
    cases hplanned with
    | dropped hundeclared =>
      obtain rfl := Option.some.inj hdropped
      exact ⟨List.mem_map_of_mem hundeclared.1, hundeclared.2⟩
    | renulled =>
      rw [operation_nullStep] at hdropped
      split at hdropped <;> cases hdropped
    | created | added | retyped | removed => cases hdropped
  · rintro ⟨hkey, hnone⟩
    obtain ⟨found, hfound, rfl⟩ := List.mem_map.mp hkey
    exact ⟨_, ⟨_, .dropped ⟨hfound, hnone⟩, rfl⟩, rfl⟩

theorem columnChanged_iff (h : planTablesRef live unsupported foreignKeys desired = .ok plan)
    {table : QualifiedTableName} {name : String} :
    ColumnChanged plan.up table name ↔ ColumnDiffers live desired table name := by
  simp only [ColumnChanged, (planTablesRef_steps h).1]
  constructor
  · rintro ⟨_, ⟨step, hplanned, rfl⟩, hchanged⟩
    cases hplanned with
    | created | dropped => cases hchanged
    | added hadded =>
      obtain ⟨rfl, rfl⟩ := Prod.mk.inj (Option.some.inj hchanged)
      exact .inl ⟨_, hadded, rfl⟩
    | removed hremoved =>
      obtain ⟨rfl, rfl⟩ := Prod.mk.inj (Option.some.inj hchanged)
      exact .inr (.inl ⟨_, hremoved, rfl⟩)
    | retyped hkept hne =>
      obtain ⟨rfl, rfl⟩ := Prod.mk.inj (Option.some.inj hchanged)
      exact .inr (.inr ⟨_, _, hkept, rfl, .inl hne⟩)
    | renulled hkept hne =>
      rw [operation_nullStep] at hchanged
      split at hchanged <;>
        (obtain ⟨rfl, rfl⟩ := Prod.mk.inj (Option.some.inj hchanged)
         exact .inr (.inr ⟨_, _, hkept, rfl, .inr hne⟩))
  · rintro (⟨column, hadded, rfl⟩ | ⟨column, hremoved, rfl⟩ |
      ⟨liveColumn, desiredColumn, hkept, rfl, hne | hne⟩)
    · exact ⟨_, ⟨_, .added hadded, rfl⟩, rfl⟩
    · exact ⟨_, ⟨_, .removed hremoved, rfl⟩, rfl⟩
    · exact ⟨_, ⟨_, .retyped hkept hne, rfl⟩, rfl⟩
    · refine ⟨_, ⟨_, .renulled hkept hne, rfl⟩, ?_⟩
      rw [operation_nullStep]
      split <;> rfl

/-- What the steps warn about, by the differences: whatever they name, but a column that may no
longer be null. -/
def StepReported (live desired : TableMap) (subject : String) : Prop :=
  (∃ table, Undeclared live desired table ∧ tableSubject table = subject) ∨
    (∃ table column, Added live desired table column ∧ column.nullable = false ∧
      columnSubject table column.name = subject) ∨
    (∃ table column, Removed live desired table column ∧
      columnSubject table column.name = subject) ∨
    ∃ table liveColumn desiredColumn, Kept live desired table liveColumn desiredColumn ∧
      liveColumn.sqlType ≠ desiredColumn.sqlType ∧ columnSubject table liveColumn.name = subject

/-- What a plan warns about, by the differences. -/
def Reported (live desired : TableMap) (unsupported : List UnsupportedObject)
    (foreignKeys : List ForeignKeyDependency) (subject : String) : Prop :=
  StepReported live desired subject ∨
    (∃ object ∈ unsupported,
      TouchesObject (Undeclared live desired) (ColumnDiffers live desired) object ∧
      columnSubject object.table object.name = subject) ∨
    ∃ key ∈ foreignKeys,
      TouchesTable (Undeclared live desired) (ColumnDiffers live desired) key.parent ∧
      columnSubject key.child key.name = subject

theorem addStep_warning (table : QualifiedTableName) {column : ColumnSchema}
    (h : column.nullable = false) : (addStep table column).warning =
      some ⟨columnSubject table column.name,
        "adding a non-null column requires a manual backfill or data-safety review"⟩ := by
  rw [addStep, h]
  rfl

/-- The subjects of the steps that come with a warning. -/
theorem exists_step_warning_iff {subject : String} :
    (∃ step, Planned live desired step ∧ ∃ warning, step.warning = some warning ∧
      warning.subject = subject) ↔ StepReported live desired subject := by
  constructor
  · rintro ⟨step, hplanned, warning, hwarning, rfl⟩
    cases hplanned with
    | created | renulled => cases hwarning
    | @added table column hadded =>
      have hnullable : column.nullable = false := by
        by_contra hnot
        rw [addStep, if_pos (Bool.not_eq_false _ ▸ hnot)] at hwarning
        cases hwarning
      rw [addStep_warning table hnullable] at hwarning
      obtain rfl := Option.some.inj hwarning
      exact .inr (.inl ⟨table, column, hadded, hnullable, rfl⟩)
    | removed hremoved =>
      obtain rfl := Option.some.inj hwarning
      exact .inr (.inr (.inl ⟨_, _, hremoved, rfl⟩))
    | retyped hkept hne =>
      obtain rfl := Option.some.inj hwarning
      exact .inr (.inr (.inr ⟨_, _, _, hkept, hne, rfl⟩))
    | dropped hdropped =>
      obtain rfl := Option.some.inj hwarning
      exact .inl ⟨_, ⟨List.mem_map_of_mem hdropped.1, hdropped.2⟩, rfl⟩
  · rintro (⟨table, ⟨hkey, hnone⟩, rfl⟩ | ⟨table, column, hadded, hnullable, rfl⟩ |
      ⟨table, column, hremoved, rfl⟩ | ⟨table, liveColumn, desiredColumn, hkept, hne, rfl⟩)
    · obtain ⟨found, hfound, rfl⟩ := List.mem_map.mp hkey
      exact ⟨_, .dropped ⟨hfound, hnone⟩, _, rfl, rfl⟩
    · have hwarning := addStep_warning table hnullable
      exact ⟨_, .added hadded, _, hwarning, rfl⟩
    · exact ⟨_, .removed hremoved, _, rfl, rfl⟩
    · exact ⟨_, .retyped hkept hne, _, rfl, rfl⟩

theorem exists_warning_iff (h : planTablesRef live unsupported foreignKeys desired = .ok plan)
    {subject : String} : (∃ warning ∈ plan.warnings, warning.subject = subject) ↔
      Reported live desired unsupported foreignKeys subject := by
  have htables : TableDropped plan.up = Undeclared live desired :=
    funext fun table => propext (tableDropped_iff h)
  have hcolumns : ColumnChanged plan.up = ColumnDiffers live desired :=
    funext fun table => funext fun name => propext (columnChanged_iff h)
  simp only [(planTablesRef_steps h).2, ObjectChanged, TableChanged, htables, hcolumns, Reported,
    ← exists_step_warning_iff]
  constructor
  · rintro ⟨warning, ⟨step, hplanned, hwarning⟩ | ⟨object, hobject, htouched, rfl⟩ |
      ⟨key, hkey, htouched, rfl⟩, rfl⟩
    · exact .inl ⟨step, hplanned, warning, hwarning, rfl⟩
    · exact .inr (.inl ⟨object, hobject, htouched, rfl⟩)
    · exact .inr (.inr ⟨key, hkey, htouched, rfl⟩)
  · rintro (⟨step, hplanned, warning, hwarning, rfl⟩ | ⟨object, hobject, htouched, rfl⟩ |
      ⟨key, hkey, htouched, rfl⟩)
    · exact ⟨warning, .inl ⟨step, hplanned, hwarning⟩, rfl⟩
    · exact ⟨_, .inr (.inl ⟨object, hobject, htouched, rfl⟩), rfl⟩
    · exact ⟨_, .inr (.inr ⟨key, hkey, htouched, rfl⟩), rfl⟩

/-- A risky operation that sets no column non-null is reported. -/
theorem reported_of_risky (h : planTablesRef live unsupported foreignKeys desired = .ok plan)
    {operation : Operation} (hmem : operation ∈ plan.up) (hrisky : operation.isRisky) :
    StepReported live desired operation.subject ∨
      ∃ table liveColumn desiredColumn, Kept live desired table liveColumn desiredColumn ∧
        liveColumn.nullable = true ∧ desiredColumn.nullable = false ∧
        operation.subject = columnSubject table liveColumn.name := by
  obtain ⟨step, hplanned, rfl⟩ := ((planTablesRef_steps h).1 operation).mp hmem
  cases hplanned with
  | created => cases hrisky
  | @added table column hadded =>
    have hnullable : column.nullable = false := by
      simpa [addStep, Operation.isRisky] using hrisky
    exact .inl (.inr (.inl ⟨table, column, hadded, hnullable, rfl⟩))
  | removed hremoved => exact .inl (.inr (.inr (.inl ⟨_, _, hremoved, rfl⟩)))
  | retyped hkept hne => exact .inl (.inr (.inr (.inr ⟨_, _, _, hkept, hne, rfl⟩)))
  | dropped hdropped => exact .inl (.inl ⟨_, ⟨List.mem_map_of_mem hdropped.1, hdropped.2⟩, rfl⟩)
  | @renulled table liveColumn desiredColumn hkept hne =>
    rw [operation_nullStep] at hrisky ⊢
    split at hrisky
    · cases hrisky
    · next hnot =>
      have hdesired : desiredColumn.nullable = false := Bool.not_eq_true _ ▸ hnot
      rw [hdesired, Ne, Bool.not_eq_false] at hne
      rw [if_neg hnot]
      exact .inr ⟨table, liveColumn, desiredColumn, hkept, hne, hdesired, rfl⟩

theorem isRisky_setNotNull (h : planTablesRef live unsupported foreignKeys desired = .ok plan)
    {table : QualifiedTableName} {liveColumn desiredColumn : ColumnSchema}
    (hkept : Kept live desired table liveColumn desiredColumn)
    (hlive : liveColumn.nullable = true) (hdesired : desiredColumn.nullable = false) :
    .setNotNull table liveColumn.name ∈ plan.up := by
  have hne : liveColumn.nullable ≠ desiredColumn.nullable := by
    rw [hlive, hdesired]
    decide
  refine ((planTablesRef_steps h).1 _).mpr ⟨_, .renulled hkept hne, ?_⟩
  rw [operation_nullStep, hdesired]
  rfl

end Diff

/-- Warnings are complete and minimal exactly if each column that may no longer be null is named in
some other warning. -/
theorem planDiff_warns_exactly_iff {desired : DesiredSchema} {live : LiveSchema}
    {plan : MigrationPlan} (hlisted : live.ListsForeignKeys)
    (hplan : planDiff desired live = .ok plan) :
    WarnsExactly live plan ↔
      ∀ table liveColumn desiredColumn,
        Kept live.tables desired.tables table liveColumn desiredColumn →
        liveColumn.nullable = true → desiredColumn.nullable = false →
          Reported live.tables desired.tables live.unsupported live.foreignKeys
            (columnSubject table liveColumn.name) := by
  rw [planDiff] at hplan
  constructor
  · intro hwarns table liveColumn desiredColumn hkept hlive hdesired
    exact (exists_warning_iff hplan).mp (hwarns.operations _
      (isRisky_setNotNull hplan hkept hlive hdesired) rfl)
  · intro hnamed
    have hobjects : ∀ object ∈ live.unsupported, ObjectChanged plan.up object →
        ∃ warning ∈ plan.warnings, warning.subject = columnSubject object.table object.name := by
      intro object hobject hchanged
      exact ⟨objectWarning object, ((planTablesRef_steps hplan).2 _).mpr
        (.inr (.inl ⟨object, hobject, hchanged, rfl⟩)), rfl⟩
    refine ⟨fun operation hmem hrisky => ?_, hobjects, fun key hkey htouched => ?_,
      fun warning hwarning => ?_⟩
    · rw [exists_warning_iff hplan]
      obtain hreported | ⟨table, liveColumn, desiredColumn, hkept, hlive, hdesired, hsubject⟩ :=
        reported_of_risky hplan hmem hrisky
      · exact .inl hreported
      · rw [hsubject]
        exact hnamed table liveColumn desiredColumn hkept hlive hdesired
    · obtain hdropped | hparent := htouched
      · -- the foreign key goes with its own table, as an unsupported object
        obtain ⟨object, hobject, -, htable, hname⟩ := hlisted key hkey
        rw [← htable, ← hname]
        exact hobjects object hobject (.inl (htable ▸ hdropped))
      · exact ⟨keyWarning key, ((planTablesRef_steps hplan).2 _).mpr
          (.inr (.inr ⟨key, hkey, hparent, rfl⟩)), rfl⟩
    · obtain ⟨step, hplanned, hstep⟩ | ⟨object, hobject, hchanged, rfl⟩ |
        ⟨key, hkey, hchanged, rfl⟩ := ((planTablesRef_steps hplan).2 warning).mp hwarning
      · refine .inl ⟨step.operation, ((planTablesRef_steps hplan).1 _).mpr ⟨step, hplanned, rfl⟩, ?_⟩
        cases hplanned with
        | created | renulled => cases hstep
        | added =>
          rw [addStep] at hstep
          obtain ⟨-, hstep⟩ := Option.ite_none_left_eq_some.mp hstep
          obtain rfl := Option.some.inj hstep
          rfl
        | removed | retyped | dropped =>
          obtain rfl := Option.some.inj hstep
          rfl
      · exact .inr (.inl ⟨object, hobject, hchanged, rfl⟩)
      · exact .inr (.inr ⟨key, hkey, hchanged, rfl⟩)

/-- A table of users with one column. -/
def usersWith (column : ColumnSchema) : TableMap :=
  ⟨[⟨⟨"public", "users"⟩, [column], []⟩], List.pairwise_singleton _ _⟩

/-- The users before and after their identifiers become larger. -/
def indexedUsers : LiveSchema where
  tables := usersWith ⟨"id", .integer, false, 0⟩
  unsupported := [⟨.index, ⟨"public", "users"⟩, "users_id", ["id"]⟩]
  foreignKeys := []

theorem planDiff_warns_exactly_iff_sample : ∃ plan,
    planDiff ⟨usersWith ⟨"id", .bigInt, false, 0⟩⟩ indexedUsers = .ok plan ∧
      plan.warnings.map (·.subject) = ["public.users.id", "public.users.users_id"] ∧
      WarnsExactly indexedUsers plan := by
  obtain ⟨plan, hplan, hsubjects⟩ : ∃ plan,
      planDiff ⟨usersWith ⟨"id", .bigInt, false, 0⟩⟩ indexedUsers = .ok plan ∧
        plan.warnings.map (·.subject) = ["public.users.id", "public.users.users_id"] :=
    ⟨_, rfl, by decide +kernel⟩
  refine ⟨plan, hplan, hsubjects, (planDiff_warns_exactly_iff ?_ hplan).mpr ?_⟩
  · exact fun _ hkey => absurd hkey List.not_mem_nil
  · rintro table liveColumn desiredColumn ⟨liveTable, hmem, -, desiredTable, hget, hcommon⟩ hlive
    obtain rfl := List.mem_singleton.mp hmem
    obtain rfl := Option.some.inj hget
    obtain ⟨rfl, -⟩ := Prod.mk.inj (List.mem_singleton.mp hcommon)
    cases hlive

/-- A column that may no longer be null fails on the rows that are null, and nothing is said. -/
theorem set_not_null_unwarned : ∃ plan,
    planDiff ⟨usersWith ⟨"email", .text, false, 0⟩⟩ ⟨usersWith ⟨"email", .text, true, 0⟩, [], []⟩ =
        .ok plan ∧
      plan.up = [.setNotNull ⟨"public", "users"⟩ "email"] ∧ plan.warnings = [] ∧
      ¬ WarnsExactly ⟨usersWith ⟨"email", .text, true, 0⟩, [], []⟩ plan := by
  obtain ⟨plan, hplan, hup, hnil⟩ : ∃ plan,
      planDiff ⟨usersWith ⟨"email", .text, false, 0⟩⟩
          ⟨usersWith ⟨"email", .text, true, 0⟩, [], []⟩ = .ok plan ∧
        plan.up = [.setNotNull ⟨"public", "users"⟩ "email"] ∧ plan.warnings = [] :=
    ⟨_, rfl, by decide +kernel, by decide +kernel⟩
  refine ⟨plan, hplan, hup, hnil, fun hwarns => ?_⟩
  obtain ⟨warning, hwarning, -⟩ := hwarns.operations (.setNotNull ⟨"public", "users"⟩ "email")
    (hup ▸ List.mem_singleton_self _) rfl
  rw [hnil] at hwarning
  exact List.not_mem_nil hwarning

end Mads
