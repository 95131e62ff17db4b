import Mads.Cli.Database.CatalogType
import Mads.Cli.Database.Diff

/-!
# Operations written as SQL
-/

namespace Mads

namespace Sql

/-- The identifier in double quotes, with the ones inside doubled. -/
def quoteIdentifier (identifier : String) : String :=
  "\"" ++ String.ofList (identifier.toList.flatMap (fun c => if c = '"' then [c, c] else [c])) ++
    "\""

def qualified (table : QualifiedTableName) : String :=
  quoteIdentifier table.schema ++ "." ++ quoteIdentifier table.table

def renderColumn (column : ColumnSchema) : String :=
  quoteIdentifier column.name ++ " " ++ column.sqlType.toSql ++
    (if column.nullable then "" else " NOT NULL")

/-- What stands between the parentheses of `CREATE TABLE`. -/
def declarations (table : TableSchema) : List String :=
  table.columns.map renderColumn ++
    if table.primaryKey.isEmpty then []
    else ["PRIMARY KEY (" ++ ", ".intercalate (table.primaryKey.map quoteIdentifier) ++ ")"]

def renderCreateTable (table : TableSchema) : String :=
  "CREATE TABLE " ++ qualified table.name ++ " (\n    " ++
    ",\n    ".intercalate (declarations table) ++ "\n);"

def renderOperation : Operation → String
  | .createTable table => renderCreateTable table
  | .dropTable table => "DROP TABLE " ++ qualified table.name ++ ";"
  | .addColumn table column =>
    "ALTER TABLE " ++ qualified table ++ " ADD COLUMN " ++ renderColumn column ++ ";"
  | .dropColumn table column =>
    "ALTER TABLE " ++ qualified table ++ " DROP COLUMN " ++ quoteIdentifier column.name ++ ";"
  | .alterType table column _ «to» =>
    "ALTER TABLE " ++ qualified table ++ " ALTER COLUMN " ++ quoteIdentifier column ++ " TYPE " ++
      «to».toSql ++ " USING " ++ quoteIdentifier column ++ "::" ++ «to».toSql ++ ";"
  | .setNotNull table column =>
    "ALTER TABLE " ++ qualified table ++ " ALTER COLUMN " ++ quoteIdentifier column ++
      " SET NOT NULL;"
  | .dropNotNull table column =>
    "ALTER TABLE " ++ qualified table ++ " ALTER COLUMN " ++ quoteIdentifier column ++
      " DROP NOT NULL;"

/-! ### The types that an operation writes -/

/-- The columns that an operation gives a type, with that type. -/
def typed : Operation → List (QualifiedTableName × String × PgType)
  | .createTable table =>
    table.columns.map (fun column => (table.name, column.name, column.sqlType))
  | .addColumn table column => [(table, column.name, column.sqlType)]
  | .alterType table column _ «to» => [(table, column, «to»)]
  | _ => []

/-- The live columns that an operation takes a type from, with that type. -/
def untyped : Operation → List (QualifiedTableName × String × PgType)
  | .dropTable table => table.columns.map (fun column => (table.name, column.name, column.sqlType))
  | .dropColumn table column => [(table, column.name, column.sqlType)]
  | .alterType table column «from» _ => [(table, column, «from»)]
  | _ => []

/-- Taking an operation back gives the columns the types that it took from them. -/
theorem typed_inverse (operation : Operation) : typed operation.inverse = untyped operation := by
  cases operation <;> rfl

/-- The statement gives the column of the table this type: as one declaration of `CREATE TABLE`, as
the one of `ADD COLUMN`, or as what `TYPE` and the cast of `USING` name. -/
inductive Declares (table : QualifiedTableName) (column sqlType : String) : String → Prop
  | created (before after : List String) {constraint : String}
      (h : constraint ∈ ["", " NOT NULL"]) :
      Declares table column sqlType ("CREATE TABLE " ++ qualified table ++ " (\n    " ++
        ",\n    ".intercalate (before ++
          (quoteIdentifier column ++ " " ++ sqlType ++ constraint) :: after) ++ "\n);")
  | added {constraint : String} (h : constraint ∈ ["", " NOT NULL"]) :
      Declares table column sqlType ("ALTER TABLE " ++ qualified table ++ " ADD COLUMN " ++
        (quoteIdentifier column ++ " " ++ sqlType ++ constraint) ++ ";")
  | altered :
      Declares table column sqlType ("ALTER TABLE " ++ qualified table ++ " ALTER COLUMN " ++
        quoteIdentifier column ++ " TYPE " ++ sqlType ++ " USING " ++ quoteIdentifier column ++
        "::" ++ sqlType ++ ";")

theorem constraint_mem (column : ColumnSchema) :
    (if column.nullable then "" else " NOT NULL") ∈ ["", " NOT NULL"] := by
  cases column.nullable <;> simp

theorem declares_renderCreateTable {table : TableSchema} {column : ColumnSchema}
    (h : column ∈ table.columns) :
    Declares table.name column.name column.sqlType.toSql (renderCreateTable table) := by
  have hmem : renderColumn column ∈ declarations table :=
    List.mem_append_left _ (List.mem_map_of_mem h)
  obtain ⟨before, after, hsplit⟩ := List.append_of_mem hmem
  rw [renderCreateTable, hsplit]
  exact .created before after (constraint_mem column)

/-- What an operation gives a type is declared with it in the statement. -/
theorem declares_of_typed {operation : Operation} {table : QualifiedTableName} {column : String}
    {kind : PgType} (h : (table, column, kind) ∈ typed operation) :
    Declares table column kind.toSql (renderOperation operation) := by
  cases operation with
  | createTable created =>
    obtain ⟨c, hc, heq⟩ := List.mem_map.mp h
    obtain ⟨rfl, rfl, rfl⟩ : created.name = table ∧ c.name = column ∧ c.sqlType = kind := by
      simpa using heq
    exact declares_renderCreateTable hc
  | addColumn altered c =>
    obtain ⟨rfl, rfl, rfl⟩ : table = altered ∧ column = c.name ∧ kind = c.sqlType := by
      simpa [typed] using h
    exact .added (constraint_mem c)
  | alterType altered c «from» «to» =>
    obtain ⟨rfl, rfl, rfl⟩ : table = altered ∧ column = c ∧ kind = «to» := by simpa [typed] using h
    exact .altered
  | _ => cases h

end Sql

end Mads
