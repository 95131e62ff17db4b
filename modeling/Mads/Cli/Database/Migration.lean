import Mathlib.Logic.Function.Basic
import Mads.Cli.Database.DropOrder

/-!
# What the operations of a plan do to tables

Tables are taken up to the order of their columns.  A step that finds what it captured can be taken
back by the inverse operation.
-/

namespace Mads

/-- What a column is apart from its name and its place. -/
structure ColumnShape where
  sqlType : PgType
  nullable : Bool
  deriving DecidableEq, Repr

def ColumnSchema.shape (column : ColumnSchema) : ColumnShape := ⟨column.sqlType, column.nullable⟩

/-- A table up to the order of its columns. -/
@[ext]
structure TableShape where
  columns : String → Option ColumnShape
  primaryKey : List String

def TableSchema.shape (table : TableSchema) : TableShape :=
  ⟨fun name => (Diff.columnsByName table name).map ColumnSchema.shape, table.primaryKey⟩

/-- The tables of a database, by name. -/
abbrev Shapes := QualifiedTableName → Option TableShape

def TableMap.shapes (map : TableMap) : Shapes := fun name => (map.get name).map TableSchema.shape

/-- Changes one column of a table that is there. -/
def Shapes.editColumn (shapes : Shapes) (table : QualifiedTableName) (column : String)
    (edit : TableShape → Option (Option ColumnShape)) : Option Shapes := do
  let shape ← shapes table
  let value ← edit shape
  some (Function.update shapes table
    (some { shape with columns := Function.update shape.columns column value }))

/-- What an operation does where it is enabled: nothing is created or added that is there, nothing
is dropped or altered that is not, a type is changed from the type that the column has, and a key
column is not dropped. -/
def Operation.apply (operation : Operation) (shapes : Shapes) : Option Shapes :=
  match operation with
  | createTable table =>
    match shapes table.name with
    | some _ => none
    | none => some (Function.update shapes table.name (some table.shape))
  | dropTable table =>
    match shapes table.name with
    | some _ => some (Function.update shapes table.name none)
    | none => none
  | addColumn table column => shapes.editColumn table column.name fun shape =>
    match shape.columns column.name with
    | some _ => none
    | none => some (some column.shape)
  | dropColumn table column => shapes.editColumn table column.name fun shape =>
    match shape.columns column.name with
    | some _ => if column.name ∈ shape.primaryKey then none else some none
    | none => none
  | alterType table column «from» «to» => shapes.editColumn table column fun shape =>
    match shape.columns column with
    | some found =>
      if found.sqlType = «from» then some (some { found with sqlType := «to» }) else none
    | none => none
  | setNotNull table column => shapes.editColumn table column fun shape =>
    match shape.columns column with
    | some found => if found.nullable then some (some { found with nullable := false }) else none
    | none => none
  | dropNotNull table column => shapes.editColumn table column fun shape =>
    match shape.columns column with
    | some found => if found.nullable then none else some (some { found with nullable := true })
    | none => none

/-- Runs operations in order, as long as each is enabled. -/
def runOperations (operations : List Operation) (shapes : Shapes) : Option Shapes :=
  operations.foldlM (fun shapes operation => operation.apply shapes) shapes

namespace Migration

/-- An operation takes one column of a table with this key from one shape to another, and has
captured what it takes away. -/
inductive Edits (key : List String) :
    Operation → QualifiedTableName → String → Option ColumnShape → Option ColumnShape → Prop
  | addColumn (table : QualifiedTableName) (column : ColumnSchema) (hkey : column.name ∉ key) :
      Edits key (.addColumn table column) table column.name none (some column.shape)
  | dropColumn (table : QualifiedTableName) (column : ColumnSchema) (hkey : column.name ∉ key) :
      Edits key (.dropColumn table column) table column.name (some column.shape) none
  | alterType (table : QualifiedTableName) (column : String) (left right : PgType) (nullable : Bool)
      (hne : left ≠ right) : Edits key (.alterType table column left right) table column
        (some ⟨left, nullable⟩) (some ⟨right, nullable⟩)
  | setNotNull (table : QualifiedTableName) (column : String) (sqlType : PgType) :
      Edits key (.setNotNull table column) table column (some ⟨sqlType, true⟩)
        (some ⟨sqlType, false⟩)
  | dropNotNull (table : QualifiedTableName) (column : String) (sqlType : PgType) :
      Edits key (.dropNotNull table column) table column (some ⟨sqlType, false⟩)
        (some ⟨sqlType, true⟩)

theorem Edits.inverse {key : List String} {operation : Operation} {table : QualifiedTableName}
    {column : String} {before after : Option ColumnShape}
    (h : Edits key operation table column before after) :
    Edits key operation.inverse table column after before := by
  cases h with
  | addColumn _ column hkey => exact .dropColumn table column hkey
  | dropColumn _ column hkey => exact .addColumn table column hkey
  | alterType _ _ left right nullable hne => exact .alterType table column right left nullable hne.symm
  | setNotNull _ _ sqlType => exact .dropNotNull table column sqlType
  | dropNotNull _ _ sqlType => exact .setNotNull table column sqlType

/-- An edit changes its column. -/
theorem Edits.ne {key : List String} {operation : Operation} {table : QualifiedTableName}
    {column : String} {before after : Option ColumnShape}
    (h : Edits key operation table column before after) : before ≠ after := by
  cases h with
  | addColumn => simp
  | dropColumn => simp
  | alterType _ _ left right nullable hne => simp [hne]
  | setNotNull => simp
  | dropNotNull => simp

/-- A step that finds what it captured. -/
inductive Takes : Operation → Shapes → Shapes → Prop
  | create {s : Shapes} (table : TableSchema) (h : s table.name = none) :
      Takes (.createTable table) s (Function.update s table.name (some table.shape))
  | drop {s : Shapes} (table : TableSchema) (h : s table.name = some table.shape) :
      Takes (.dropTable table) s (Function.update s table.name none)
  | edit {s : Shapes} {operation : Operation} {table : QualifiedTableName} {column : String}
      {shape : TableShape} {after : Option ColumnShape} (hshape : s table = some shape)
      (hedit : Edits shape.primaryKey operation table column (shape.columns column) after) :
      Takes operation s (Function.update s table
        (some { shape with columns := Function.update shape.columns column after }))

theorem Takes.apply {operation : Operation} {s t : Shapes} (h : Takes operation s t) :
    operation.apply s = some t := by
  cases h with
  | create table h => simp [Operation.apply, h]
  | drop table h => simp [Operation.apply, h]
  | @edit _ _ table column shape after hshape hedit =>
    generalize hbefore : shape.columns column = before at hedit
    cases hedit with
    | addColumn _ column hkey => simp [Operation.apply, Shapes.editColumn, hshape, hbefore]
    | dropColumn _ column hkey =>
      simp [Operation.apply, Shapes.editColumn, hshape, hbefore, hkey]
    | alterType _ _ left right nullable hne =>
      simp [Operation.apply, Shapes.editColumn, hshape, hbefore]
    | setNotNull _ _ sqlType => simp [Operation.apply, Shapes.editColumn, hshape, hbefore]
    | dropNotNull _ _ sqlType => simp [Operation.apply, Shapes.editColumn, hshape, hbefore]

/-- The inverse takes such a step back. -/
theorem Takes.inverse {operation : Operation} {s t : Shapes} (h : Takes operation s t) :
    Takes operation.inverse t s := by
  cases h with
  | create table h =>
    have hback := Takes.drop (s := Function.update s table.name (some table.shape)) table
      (Function.update_self _ _ _)
    rwa [Function.update_idem, ← h, Function.update_eq_self] at hback
  | drop table h =>
    have hback := Takes.create (s := Function.update s table.name none) table
      (Function.update_self _ _ _)
    rwa [Function.update_idem, ← h, Function.update_eq_self] at hback
  | @edit _ _ table column shape after hshape hedit =>
    let changed : TableShape :=
      { shape with columns := Function.update shape.columns column after }
    have hafter : changed.columns column = after := Function.update_self _ _ _
    have hinverse : Edits changed.primaryKey operation.inverse table column
        (changed.columns column) (shape.columns column) := hafter.symm ▸ hedit.inverse
    have hback := Takes.edit (s := Function.update s table (some changed))
      (Function.update_self _ _ _) hinverse
    have hrestored : Function.update changed.columns column (shape.columns column) =
        shape.columns := by
      rw [Function.update_idem, Function.update_eq_self]
    rw [Function.update_idem, hrestored] at hback
    have hfinal : Takes operation.inverse (Function.update s table (some changed))
        (Function.update s table (some shape)) := hback
    rwa [← hshape, Function.update_eq_self] at hfinal

/-- Steps in a row, each of which finds what it captured. -/
inductive Chain : List Operation → Shapes → Shapes → Prop
  | nil (s : Shapes) : Chain [] s s
  | cons {operation : Operation} {rest : List Operation} {s mid t : Shapes}
      (hstep : Takes operation s mid) (hrest : Chain rest mid t) : Chain (operation :: rest) s t

theorem Chain.append {front back : List Operation} {s mid t : Shapes} (hfront : Chain front s mid)
    (hback : Chain back mid t) : Chain (front ++ back) s t := by
  induction hfront with
  | nil => exact hback
  | cons hstep _ ih => exact .cons hstep (ih hback)

theorem Chain.run {operations : List Operation} {s t : Shapes} (h : Chain operations s t) :
    runOperations operations s = some t := by
  induction h with
  | nil => rfl
  | cons hstep _ ih =>
    rw [runOperations, List.foldlM_cons, hstep.apply]
    exact ih

/-- The inverses in reverse order lead back. -/
theorem Chain.inverse {operations : List Operation} {s t : Shapes} (h : Chain operations s t) :
    Chain (operations.reverse.map Operation.inverse) t s := by
  induction h with
  | nil s => exact .nil s
  | cons hstep _ ih =>
    rw [List.reverse_cons, List.map_append]
    exact ih.append (.cons hstep.inverse (.nil _))

end Migration

end Mads
