import Mads.Base
import Mads.Cli.Database.Schema
import Mads.Cli.Diagnostic
import Mads.Library.Text

/-!
# Declared tables

What the macro parser hands over is data here: attributes, identifiers and types as they are written.
-/

namespace Mads

def MADS210 : String := "MADS210"

/-! ## Rust syntax -/

/-- An identifier, perhaps a raw one. -/
structure Ident where
  name : String
  raw : Bool := false
  deriving DecidableEq, Repr

/-- The identifier as it is written. -/
def Ident.toString (ident : Ident) : String :=
  if ident.raw then "r#" ++ ident.name else ident.name

/-- `ident_name`, which takes the raw marker off. -/
def identName (ident : Ident) : String := ident.name

mutual

/-- A path in a type, perhaps behind a `qself` or two colons. -/
inductive TypePath where
  | mk (qself leadingColon : Bool) (segments : List PathSegment)

inductive PathSegment where
  | mk (ident : Ident) (arguments : PathArguments)

inductive PathArguments where
  | none
  | angleBracketed (args : List GenericArgument)
  | parenthesized

/-- An argument in angle brackets, which is a path or something else. -/
inductive GenericArgument where
  | path (nested : TypePath)
  | other

end

def PathSegment.ident : PathSegment → Ident
  | mk ident _ => ident

def PathSegment.arguments : PathSegment → PathArguments
  | mk _ arguments => arguments

namespace TypePath

def qself : TypePath → Bool
  | mk qself _ _ => qself

def leadingColon : TypePath → Bool
  | mk _ leadingColon _ => leadingColon

def segments : TypePath → List PathSegment
  | mk _ _ segments => segments

/-- The path that is one plain name. -/
def ofName (name : String) : TypePath := mk false false [.mk ⟨name, false⟩ .none]

/-- `Path::is_ident`. -/
def isIdent (path : TypePath) (name : String) : Bool :=
  match path with
  | mk _ false [.mk ident .none] => ident.toString = name
  | _ => false

end TypePath

/-- An attribute, by its path. -/
structure Attribute where
  path : TypePath

structure ColumnDef where
  «meta» : List Attribute
  columnName : Ident
  sqlName : String
  tpe : TypePath
  /-- The digits of `max_length`. -/
  maxLength : Option String

structure TableDecl where
  «meta» : List Attribute
  /-- The attributes of each use statement. -/
  useStatements : List (List Attribute)
  schema : Option Ident
  sqlName : String
  primaryKeys : Option (List Ident)
  columnDefs : List ColumnDef

namespace Declaration

open Text

def schemaError (message : String) (subject : Option String) : CliError where
  code := MADS210
  title := "Diesel schema source could not be loaded"
  message := message
  subject := subject

variable (source : String)

def rejectConditionalAttributes (attributes : List Attribute) : Run CliError Unit :=
  if attributes.any fun attr =>
      attr.path.isIdent "cfg" || attr.path.isIdent "cfg_attr" then
    Run.fail (schemaError "`cfg` and `cfg_attr` are unsupported in schema sources" (some source))
  else pure ()

def rejectInertAttributes (attributes : List Attribute) : Run CliError Unit :=
  if attributes.all fun attr =>
      ["doc", "allow", "warn", "deny", "forbid", "expect"].any attr.path.isIdent then pure ()
  else Run.fail
    (schemaError "a `table!` declaration contains an unsupported attribute" (some source))

/-! ## Types -/

def unknownType : CliError :=
  schemaError "a column uses an unsupported PostgreSQL SQL type" (some source)

def typeName (typePath : TypePath) : Option String :=
  typePath.segments.getLast?.map fun segment => identName segment.ident

/-- The only argument of a type, which is a path. -/
def nestedType (typePath : TypePath) : Run CliError TypePath :=
  match typePath.segments.getLast? with
  | some (.mk _ (.angleBracketed [.path nested])) => pure nested
  | _ => Run.fail (unknownType source)

theorem sizeOf_nestedType {typePath nested : TypePath}
    (h : nestedType source typePath = .ok nested) : sizeOf nested < sizeOf typePath := by
  obtain ⟨qself, leadingColon, segments⟩ := typePath
  unfold nestedType at h
  split at h
  · next ident found hlast =>
    obtain rfl := Except.ok.inj h
    have hmem : PathSegment.mk ident (.angleBracketed [.path found]) ∈ segments :=
      List.mem_of_getLast? hlast
    have hsize := List.sizeOf_lt_of_mem hmem
    simp only [PathSegment.mk.sizeOf_spec, PathArguments.angleBracketed.sizeOf_spec,
      List.cons.sizeOf_spec, GenericArgument.path.sizeOf_spec, TypePath.mk.sizeOf_spec] at hsize ⊢
    omega
  · cases h

/-- The loop that takes off `Nullable`. -/
def unwrapNullable (current : TypePath) (nullable : Bool) : Run CliError (TypePath × Bool) :=
  if typeName current = some "Nullable" then
    match _h : nestedType source current with
    | .ok nested => unwrapNullable nested true
    | .error error => .error error
  else pure (current, nullable)
termination_by sizeOf current
decreasing_by exact sizeOf_nestedType source _h

theorem unwrapNullable_ok {current inner : TypePath} {nullable found : Bool}
    (h : unwrapNullable source current nullable = .ok (inner, found)) :
    sizeOf inner ≤ sizeOf current ∧
      found = (nullable || decide (typeName current = some "Nullable")) := by
  fun_induction unwrapNullable source current nullable with
  | case1 current nullable hname nested hnested ih =>
    obtain ⟨hsize, hfound⟩ := ih h
    exact ⟨hsize.trans (sizeOf_nestedType source hnested).le, by simp [hfound, hname]⟩
  | case2 => cases h
  | case3 current nullable hname =>
    obtain ⟨rfl, rfl⟩ := Prod.mk.inj (Except.ok.inj h)
    simp [hname]

structure ParsedSqlType where
  sqlType : PgType
  nullable : Bool
  deriving DecidableEq, Repr

/-- The types that are known by name. -/
def parseTypeName : String → Option PgType
  | "Bool" => some .bool
  | "Int2" | "SmallInt" => some .smallInt
  | "Int4" | "Integer" => some .integer
  | "Int8" | "BigInt" => some .bigInt
  | "Float4" | "Float" | "Real" => some .real
  | "Double" | "DoublePrecision" | "Float8" => some .doublePrecision
  | "Numeric" => some .numeric
  | "Text" => some .text
  | "VarChar" | "Varchar" => some (.varChar none)
  | "Char" => some (.char none)
  | "Bytea" => some .bytea
  | "Date" => some .date
  | "Time" => some .time
  | "Timestamp" => some .timestamp
  | "TimestampWithTimeZone" | "Timestamptz" => some .timestampWithTimeZone
  | "Json" => some .json
  | "Jsonb" => some .jsonb
  | "Uuid" => some .uuid
  | "Inet" => some .inet
  | "Cidr" => some .cidr
  | "MacAddr" => some .macAddr
  | _ => none

/-- The last segment has no arguments. -/
def noArguments (typePath : TypePath) : Bool :=
  match typePath.segments.getLast? with
  | some (.mk _ .none) => true
  | _ => false

/-- What `parse_non_nullable_type` makes of a type that is no array. -/
def parseScalarType (typePath : TypePath) (name : String) : Run CliError PgType :=
  if noArguments typePath then Run.okOr (parseTypeName name) (unknownType source)
  else Run.fail (unknownType source)

mutual

def parseSqlType (typePath : TypePath) : Run CliError ParsedSqlType :=
  if typePath.qself || typePath.leadingColon || typePath.segments.length ≠ 1 then
    Run.fail (unknownType source)
  else
    match _h : unwrapNullable source typePath false with
    | .error error => .error error
    | .ok (current, nullable) => do
      let sqlType ← parseNonNullableType current
      pure ⟨sqlType, nullable⟩
termination_by (sizeOf typePath, 1)
decreasing_by
  have hsize := (unwrapNullable_ok source _h).1
  simp only [Prod.lex_def]
  omega

def parseNonNullableType (typePath : TypePath) : Run CliError PgType :=
  match typeName typePath with
  | none => Run.fail (unknownType source)
  | some "Array" =>
    match _h : nestedType source typePath with
    | .error error => .error error
    | .ok nested => do
      let parsed ← parseSqlType nested
      if parsed.nullable then Run.fail (schemaError
        "`Nullable` may wrap only the complete SQL type, not an array element" (some source))
      else pure (.array parsed.sqlType)
  | some name => parseScalarType source typePath name
termination_by (sizeOf typePath, 0)
decreasing_by
  have hsize := sizeOf_nestedType source _h
  simp only [Prod.lex_def]
  omega

end

/-- A column is nullable where its type is written as such. -/
theorem parseSqlType_nullable {typePath : TypePath} {parsed : ParsedSqlType}
    (h : parseSqlType source typePath = .ok parsed) :
    parsed.nullable = decide (typeName typePath = some "Nullable") := by
  rw [parseSqlType] at h
  split at h
  · cases h
  · split at h
    · cases h
    · next current nullable hunwrap =>
      obtain ⟨sqlType, -, hparsed⟩ := Run.bind_eq_ok.mp h
      rw [← Except.ok.inj hparsed]
      exact (unwrapNullable_ok source hunwrap).2

/-! ## Tables -/

/-- A length bounds character types only. -/
def limitLength (sqlType : PgType) (maxLength : Option String) : Run CliError PgType :=
  match maxLength with
  | none => pure sqlType
  | some digits => do
    let length ← Run.okOr (parseU32 digits)
      (schemaError "`max_length` must be a valid unsigned 32-bit integer" (some source))
    match sqlType with
    | .varChar _ => pure (.varChar (some length))
    | .char _ => pure (.char (some length))
    | _ => Run.fail (schemaError
        "`max_length` is supported only for `VarChar` and `Char` columns" (some source))

def readColumn (column : ColumnDef) (ordinal : ℕ) : Run CliError ColumnSchema := do
  rejectInertAttributes source column.«meta»
  let parsed ← parseSqlType source column.tpe
  let sqlType ← limitLength source parsed.sqlType column.maxLength
  pure ⟨column.sqlName, sqlType, parsed.nullable, ordinal⟩

/-- The identifiers of the key. -/
def keyNames (declaration : TableDecl) : List String :=
  match declaration.primaryKeys with
  | some keys => keys.map identName
  | none => ["id"]

def primaryKey (declaration : TableDecl) (columns : List ColumnSchema) :
    Run CliError (List String) :=
  (keyNames declaration).mapM fun key =>
    Run.okOr (((declaration.columnDefs.findIdx? fun column => identName column.columnName = key).bind
        (columns[·]?)).map (·.name))
      (schemaError "a primary-key column is not declared by its `table!` declaration" (some source))

/-- The table that a declaration stands for. -/
def readTable (declaration : TableDecl) : Run CliError TableSchema := do
  rejectInertAttributes source declaration.«meta»
  declaration.useStatements.forM (rejectConditionalAttributes source)
  let name : QualifiedTableName :=
    ⟨(declaration.schema.map identName).getD "public", declaration.sqlName⟩
  let columns ← declaration.columnDefs.zipIdx.mapM fun (column, ordinal) =>
    readColumn source column ordinal
  let primaryKey ← primaryKey source declaration columns
  pure ⟨name, columns, primaryKey⟩

/-- The tables read so far, and the source of each. -/
structure Loaded where
  tables : TableMap
  tableSources : List (QualifiedTableName × String)
  sourced : ∀ name, tableSources.lookup name = none ↔ name ∉ tables.keys

namespace Loaded

def empty : Loaded := ⟨.empty, [], fun _ => iff_of_true rfl List.not_mem_nil⟩

def add (loaded : Loaded) (table : TableSchema) : Loaded where
  tables := loaded.tables.insert table
  tableSources := (table.name, source) :: loaded.tableSources
  sourced := by
    intro name
    rw [TableMap.mem_keys_insert, List.lookup_cons, not_or, ← loaded.sourced]
    by_cases heq : name = table.name
    · simp [heq]
    · rw [beq_eq_false_iff_ne.mpr heq, and_iff_right heq]

end Loaded

/-- `add_table`; a declaration that the macro parser rejects is none. -/
def addTable (loaded : Loaded) (declaration : Option TableDecl) : Run CliError Loaded := do
  let declaration ← Run.okOr declaration
    (schemaError "a `table!` declaration has unsupported or malformed syntax" (some source))
  let table ← readTable source declaration
  match loaded.tableSources.lookup table.name with
  | some previousSource => Run.fail (schemaError
      "a qualified table is declared by more than one schema source"
      (some (previousSource ++ " and " ++ source)))
  | none => pure (loaded.add source table)

/-- Adds declarations, each with the source that it stands in. -/
def loadTables (declarations : List (String × Option TableDecl)) : Run CliError Loaded :=
  declarations.foldlM (fun loaded (source, declaration) => addTable source loaded declaration)
    .empty

end Declaration

end Mads
