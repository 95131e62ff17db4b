import Mads.Cli.Database.DeclaredShape
import Mads.Cli.Database.MigrationRun

/-!
# Planning again after a migration

A migrated database is read through the types that PostgreSQL reports.
-/

namespace Mads

open Catalog Diff Migration PgType

/-- A column as it is read, after it was created. -/
structure ColumnReadsBack (reported : String → Option String) (created found : ColumnShape) :
    Prop where
  nullable : found.nullable = created.nullable
  sqlType : ∃ text, reported created.sqlType.toSql = some text ∧
    parseCatalogType text = some found.sqlType

structure TableReadsBack (reported : String → Option String) (created found : TableShape) :
    Prop where
  primaryKey : found.primaryKey = created.primaryKey
  columns (name : String) :
    Option.Rel (ColumnReadsBack reported) (created.columns name) (found.columns name)

/-- A database as it is read, after it was created. -/
def ReadsBack (reported : String → Option String) (created found : Shapes) : Prop :=
  ∀ name, Option.Rel (TableReadsBack reported) (created name) (found name)

/-- Every column has a type that is read as it was written. -/
def TableMap.Converges (map : TableMap) : Prop :=
  ∀ table ∈ map.tables, ∀ column ∈ table.columns, column.sqlType.converges = true

theorem exists_of_rel {α β : Type} {R : α → β → Prop} {x : Option α} {y : Option β} {a : α}
    (h : Option.Rel R x y) (hx : x = some a) : ∃ b, y = some b ∧ R a b := by
  subst hx
  cases h with
  | some hab => exact ⟨_, rfl, hab⟩

/-- What is related to an optional value is the same value where this can be seen from it. -/
theorem rel_eq_iff {α : Type} {R : α → α → Prop} {P : α → Prop} {x y : Option α}
    (h : Option.Rel R x y) (hP : ∀ a b, R a b → (b = a ↔ P a)) :
    y = x ↔ ∀ a, x = some a → P a := by
  cases h with
  | none => simp
  | some hab => simp [hP _ _ hab]

section ReadsBack

variable {reported : String → Option String} (h : FormatType reported)
include h

theorem parseCatalogType_eq_iff {kind : PgType} {text : String}
    (htext : reported kind.toSql = some text) :
    parseCatalogType text = some kind ↔ kind.converges = true := by
  rw [parseCatalogType_reported h htext, Option.some.injEq, readBack_eq_iff]

theorem ColumnReadsBack.eq_iff {created found : ColumnShape}
    (hread : ColumnReadsBack reported created found) :
    found = created ↔ created.sqlType.converges = true := by
  obtain ⟨text, htext, hparse⟩ := hread.sqlType
  rw [← parseCatalogType_eq_iff h htext, hparse, Option.some.injEq]
  obtain ⟨createdType, createdNullable⟩ := created
  obtain ⟨foundType, foundNullable⟩ := found
  obtain rfl : foundNullable = createdNullable := hread.nullable
  simp

theorem TableReadsBack.eq_iff {created found : TableShape}
    (hread : TableReadsBack reported created found) : found = created ↔
      ∀ name column, created.columns name = some column → column.sqlType.converges = true := by
  rw [TableShape.ext_iff, and_iff_left hread.primaryKey, funext_iff]
  refine forall_congr' fun name => ?_
  exact rel_eq_iff (hread.columns name) fun _ _ hcolumn => hcolumn.eq_iff h

/-- A database reads as it was created exactly where its types converge. -/
theorem ReadsBack.eq_iff {map : TableMap} {found : Shapes}
    (hdistinct : ∀ table ∈ map.tables, table.DistinctColumns)
    (hread : ReadsBack reported map.shapes found) : found = map.shapes ↔ map.Converges := by
  have hshapes : found = map.shapes ↔ ∀ name shape, map.shapes name = some shape →
      ∀ columnName column, shape.columns columnName = some column →
        column.sqlType.converges = true := by
    rw [funext_iff]
    refine forall_congr' fun name => ?_
    exact rel_eq_iff (hread name) fun _ _ htable => htable.eq_iff h
  rw [hshapes]
  constructor
  · intro hall table htable column hcolumn
    refine hall table.name table.shape ?_ column.name column.shape ?_
    · rw [TableMap.shapes, TableMap.get_of_mem htable, Option.map_some]
    · rw [shape_columns, columnsByName_of_mem (hdistinct table htable) hcolumn, Option.map_some]
  · intro hconverges name shape hshape columnName columnShape hcolumnShape
    obtain ⟨table, hget, rfl⟩ := Option.map_eq_some_iff.mp hshape
    obtain ⟨column, hcolumn, rfl⟩ := Option.map_eq_some_iff.mp hcolumnShape
    have htable := TableMap.mem_of_get hget
    exact hconverges table htable column
      ((columnsByName_eq_some (hdistinct table htable)).mp hcolumn).1

end ReadsBack

/-- Where all types converge and are accepted, a database may read as it was created. -/
theorem readsBack_self {reported : String → Option String} (h : FormatType reported)
    {map : TableMap} (hconverges : map.Converges)
    (haccepted : ∀ table ∈ map.tables, ∀ column ∈ table.columns,
      ∃ text, reported column.sqlType.toSql = some text) :
    ReadsBack reported map.shapes map.shapes := by
  intro name
  cases hget : map.get name with
  | none =>
    rw [TableMap.shapes, hget]
    exact .none
  | some table =>
    rw [TableMap.shapes, hget]
    refine .some ⟨rfl, fun columnName => ?_⟩
    rw [shape_columns]
    cases hcolumn : columnsByName table columnName with
    | none => exact .none
    | some column =>
      have htable := TableMap.mem_of_get hget
      have hmem : column ∈ table.columns :=
        List.mem_reverse.mp (List.mem_of_find?_eq_some hcolumn)
      obtain ⟨text, htext⟩ := haccepted table htable column hmem
      refine .some ⟨rfl, text, htext, ?_⟩
      exact (parseCatalogType_eq_iff h htext).mpr (hconverges table htable column hmem)

/-! ## The next plan -/

section Next

variable {reported : String → Option String} {desired : DesiredSchema} {again : LiveSchema}
  (hread : ReadsBack reported desired.tables.shapes again.tables.shapes)
include hread

theorem droppedTables_of_readsBack : droppedTables again.tables desired.tables = [] := by
  rw [List.eq_nil_iff_forall_not_mem]
  intro name hname
  obtain ⟨hkey, hnone⟩ := mem_droppedTables.mp hname
  obtain ⟨table, htable⟩ := TableMap.mem_keys.mp hkey
  have hrel := hread name
  rw [TableMap.shapes, TableMap.shapes, hnone, htable, Option.map_none, Option.map_some] at hrel
  cases hrel

theorem exists_desired {found : TableSchema} (hfound : found ∈ again.tables.tables) :
    ∃ created, desired.tables.get found.name = some created ∧
      TableReadsBack reported created.shape found.shape := by
  have hget := TableMap.get_of_mem hfound
  have hrel := hread found.name
  rw [TableMap.shapes, TableMap.shapes, hget, Option.map_some] at hrel
  cases hcreated : desired.tables.get found.name with
  | none =>
    rw [hcreated] at hrel
    cases hrel
  | some created =>
    rw [hcreated] at hrel
    cases hrel with
    | some htable => exact ⟨created, rfl, htable⟩

theorem key_of_readsBack (hkeys : ∀ table ∈ desired.tables.tables, table.KeyNamesColumns)
    {found created : TableSchema} (hfound : found ∈ again.tables.tables)
    (hget : desired.tables.get found.name = some created) :
    found.primaryKey = created.primaryKey ∧ found.KeyNamesColumns ∧
      ∀ name ∈ found.primaryKey, columnsByName created name ≠ none := by
  obtain ⟨other, hother, htable⟩ := exists_desired hread hfound
  obtain rfl := Option.some.inj (hget.symm.trans hother)
  have hkey : found.primaryKey = created.primaryKey := htable.primaryKey
  have hcreated : ∀ name ∈ found.primaryKey, columnsByName created name ≠ none := by
    intro name hname hnone
    exact columnsByName_eq_none.mp hnone
      (hkeys created (TableMap.mem_of_get hget) name (hkey ▸ hname))
  refine ⟨hkey, fun name hname => ?_, hcreated⟩
  obtain ⟨column, hcolumn⟩ := Option.ne_none_iff_exists'.mp (hcreated name hname)
  obtain ⟨shape, hshape, -⟩ := exists_of_rel (htable.columns name)
    (shape_columns created name ▸ congrArg (Option.map ColumnSchema.shape) hcolumn)
  by_contra hmissing
  rw [shape_columns, columnsByName_eq_none.mpr hmissing] at hshape
  cases hshape

/-- After a migration there is a next plan, and it has no operations exactly where the types of the
schema converge. -/
theorem exists_next (h : FormatType reported)
    (hkeys : ∀ table ∈ desired.tables.tables, table.KeyNamesColumns)
    (hdesired : ∀ table ∈ desired.tables.tables, table.DistinctColumns)
    (hagain : ∀ table ∈ again.tables.tables, table.DistinctColumns) :
    ∃ next, planDiff desired again = .ok next ∧
      (next.isEmpty = true ↔ desired.tables.Converges) := by
  have hretained : rejectPrimaryKeyChanges again.tables desired.tables = .ok () := by
    rw [rejectPrimaryKeyChanges_ok]
    intro found hfound created hget
    obtain ⟨hkey, -, hcreated⟩ := key_of_readsBack hread hkeys hfound hget
    exact ⟨hkey, hcreated⟩
  obtain ⟨next, hnext⟩ := planDiff_of_retained hretained (droppedTables_of_readsBack hread)
  refine ⟨next, hnext, ?_⟩
  rw [planDiff_isEmpty_iff hagain ?_ hdesired hnext, hread.eq_iff h hdesired]
  intro found hfound
  obtain ⟨created, hget, -⟩ := exists_desired hread hfound
  exact (key_of_readsBack hread hkeys hfound hget).2.1

end Next

/-- A type that can be created is read as it was written exactly where it converges; and after a
migration the next plan has no operations exactly where all types of the schema do. -/
theorem types_converge_iff {reported : String → Option String} (h : FormatType reported) :
    (∀ kind text, reported kind.toSql = some text →
      (parseCatalogType text = some kind ↔ kind.converges = true)) ∧
    ∀ (desired : DesiredSchema) (live again : LiveSchema) (plan : MigrationPlan) (migrated : Shapes),
      (∀ table ∈ live.tables.tables, table.DistinctColumns) →
      (∀ table ∈ live.tables.tables, table.KeyNamesColumns) →
      (∀ table ∈ desired.tables.tables, table.DistinctColumns) →
      (∀ table ∈ desired.tables.tables, table.KeyNamesColumns) →
      planDiff desired live = .ok plan →
      runOperations plan.up live.tables.shapes = some migrated →
      (∀ table ∈ again.tables.tables, table.DistinctColumns) →
      ReadsBack reported migrated again.tables.shapes →
        ∃ next, planDiff desired again = .ok next ∧
          (next.isEmpty = true ↔ desired.tables.Converges) := by
  refine ⟨fun kind text htext => parseCatalogType_eq_iff h htext, ?_⟩
  intro desired live again plan migrated hlive hkeys hdesired hdesiredKeys hplan hrun hagain hread
  have hchain := planDiff_chain hlive hkeys hdesired hplan
  obtain rfl := Option.some.inj (hchain.run.symm.trans hrun)
  exact exists_next hread h hdesiredKeys hdesired hagain

section Sample

open Declaration Text

/-- The brackets of an array type come off. -/
def elementType (sql : String) : String :=
  match _h : stripSuffix sql "[]" with
  | some element => elementType element
  | none => sql
termination_by sql.length
decreasing_by
  have hlength := length_of_stripSuffix _h
  have hbrackets : "[]".length = 2 := rfl
  omega

def formatName : String → String
  | "varchar" => "character varying"
  | "char" => "character(1)"
  | "time" => "time without time zone"
  | "timestamp" => "timestamp without time zone"
  | name => name

/-- What PostgreSQL reports for a type that is no array. -/
def formatScalar (sql : String) : Option String :=
  match Text.stripPrefix sql "varchar(" with
  | some length => some ("character varying(" ++ length)
  | none =>
    match Text.stripPrefix sql "char(" with
    | some length => some ("character(" ++ length)
    | none => some (formatName sql)

/-- What PostgreSQL reports for a type. -/
def formatType (sql : String) : Option String :=
  match stripSuffix sql "[]" with
  | some element => (formatScalar (elementType element)).map (· ++ "[]")
  | none => formatScalar sql

theorem elementType_array (element : String) :
    elementType (element ++ "[]") = elementType element := by
  rw [elementType]
  split
  · next found heq =>
    rw [stripSuffix_append] at heq
    rw [Option.some.inj heq]
  · next heq => simp at heq

theorem elementType_scalar {sql : String} (hsql : stripSuffix sql "[]" = none) :
    elementType sql = sql := by
  rw [elementType]
  split
  · next found heq => simp [hsql] at heq
  · rfl

theorem stripSuffix_toSql {kind : PgType} (hkind : kind.isArray = false) :
    stripSuffix kind.toSql "[]" = none := by
  cases kind with
  | array element => cases hkind
  | varChar length =>
    cases length with
    | none => decide
    | some length => exact stripSuffix_sized "varchar" length
  | char length =>
    cases length with
    | none => decide
    | some length => exact stripSuffix_sized "char" length
  | _ => decide

theorem formatType_varchar (length : UInt32) :
    formatType ("varchar" ++ "(" ++ toString length.toNat ++ ")") =
      some ("character varying" ++ "(" ++ toString length.toNat ++ ")") := by
  have hopen : "varchar" ++ "(" = "varchar(" := rfl
  have hreported : "character varying" ++ "(" = "character varying(" := rfl
  rw [formatType, stripSuffix_sized, hopen, hreported, String.append_assoc, formatScalar,
    stripPrefix_append, String.append_assoc]

theorem formatType_char (length : UInt32) :
    formatType ("char" ++ "(" ++ toString length.toNat ++ ")") =
      some ("character" ++ "(" ++ toString length.toNat ++ ")") := by
  have hopen : "char" ++ "(" = "char(" := rfl
  have hreported : "character" ++ "(" = "character(" := rfl
  have hother : Text.stripPrefix ("char(" ++ (toString length.toNat ++ ")")) "varchar(" = none :=
    stripPrefix_eq_none (by simp [String.toList_append])
  rw [formatType, stripSuffix_sized, hopen, hreported, String.append_assoc, formatScalar, hother,
    stripPrefix_append, String.append_assoc]

theorem formatType_spec : FormatType formatType where
  same := by decide
  varchar := by decide
  varcharLength length text htext :=
    (Option.some.inj ((formatType_varchar length).symm.trans htext)).symm
  char := by decide
  charLength length text htext :=
    (Option.some.inj ((formatType_char length).symm.trans htext)).symm
  time := by decide
  timestamp := by decide
  array element helement := by
    rw [formatType, stripSuffix_append, formatType, stripSuffix_toSql helement]
    dsimp only
    rw [elementType_scalar (stripSuffix_toSql helement)]
  dimensions element := by
    simp only [formatType, stripSuffix_append, elementType_array]

/-- A table of posts, with a title of at most 20 characters. -/
def postsTables : TableMap :=
  ⟨[⟨⟨"public", "posts"⟩, [⟨"id", .integer, false, 0⟩, ⟨"title", .varChar (some 20), false, 1⟩],
    ["id"]⟩], List.pairwise_singleton _ _⟩

/-- Nothing is left to do after the table was created. -/
theorem types_converge_iff_sample :
    parseCatalogType "character varying(20)" = some (.varChar (some 20)) ∧
      ∃ plan migrated next, planDiff ⟨postsTables⟩ ⟨.empty, [], []⟩ = .ok plan ∧
        runOperations plan.up TableMap.empty.shapes = some migrated ∧
          planDiff ⟨postsTables⟩ ⟨postsTables, [], []⟩ = .ok next ∧ next.isEmpty = true := by
  obtain ⟨hparse, hnext⟩ := types_converge_iff formatType_spec
  refine ⟨(hparse (.varChar (some 20)) _ (formatType_varchar 20)).mpr rfl, ?_⟩
  obtain ⟨plan, hplan⟩ : ∃ plan, planDiff ⟨postsTables⟩ ⟨.empty, [], []⟩ = .ok plan := ⟨_, rfl⟩
  have hrun := (planDiff_chain (by decide) (by decide) (by decide) hplan).run
  have hconverges : postsTables.Converges := by
    unfold TableMap.Converges
    decide
  have haccepted : ∀ table ∈ postsTables.tables, ∀ column ∈ table.columns,
      ∃ text, formatType column.sqlType.toSql = some text :=
    List.forall_mem_singleton.mpr (List.forall_mem_cons.mpr
      ⟨⟨"integer", by decide⟩, List.forall_mem_singleton.mpr ⟨_, formatType_varchar 20⟩⟩)
  obtain ⟨next, hplanned, hempty⟩ := hnext ⟨postsTables⟩ ⟨.empty, [], []⟩ ⟨postsTables, [], []⟩
    plan _ (by decide) (by decide) (by decide) (by decide) hplan hrun (by decide)
    (readsBack_self formatType_spec hconverges haccepted)
  exact ⟨plan, _, next, hplan, hrun, hplanned, hempty.mpr hconverges⟩

/-- An unsized `Char` is read as `char(1)`. -/
theorem char_diverges : ∃ text,
    parseSqlType "src/schema.rs" (.ofName "Char") = .ok ⟨.char none, false⟩ ∧
      formatType (PgType.char none).toSql = some text ∧
        parseCatalogType text ≠ some (.char none) := by
  have hchar : Declaration.parseTypeName "Char" = some (.char none) := rfl
  refine ⟨"character(1)", parseSqlType_name hchar false, by decide, by decide +kernel⟩

end Sample

end Mads
