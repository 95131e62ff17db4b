import Mads.Cli.Database.Declaration

/-!
# The tables that declarations stand for
-/

namespace Mads

/-- A table that PostgreSQL can hold as it is. -/
structure TableSchema.Holdable (table : TableSchema) : Prop where
  columns : table.DistinctColumns
  key : table.primaryKey ≠ []
  keyDistinct : table.primaryKey.Nodup
  keyNamesColumns : table.KeyNamesColumns
  keyNotNull : ∀ column ∈ table.columns, column.name ∈ table.primaryKey → column.nullable = false

instance decidableHoldable (table : TableSchema) : Decidable table.Holdable :=
  decidable_of_iff (table.DistinctColumns ∧ table.primaryKey ≠ [] ∧ table.primaryKey.Nodup ∧
      table.KeyNamesColumns ∧
      ∀ column ∈ table.columns, column.name ∈ table.primaryKey → column.nullable = false)
    ⟨fun h => ⟨h.1, h.2.1, h.2.2.1, h.2.2.2.1, h.2.2.2.2⟩,
      fun h => ⟨h.columns, h.key, h.keyDistinct, h.keyNamesColumns, h.keyNotNull⟩⟩

namespace Declaration

/-- A declaration whose columns have names of their own in SQL, and whose key is made of different
columns that are not declared nullable. -/
structure Consistent (declaration : TableDecl) : Prop where
  columns : (declaration.columnDefs.map (·.sqlName)).Nodup
  key : keyNames declaration ≠ []
  keyDistinct : (keyNames declaration).Nodup
  keyNotNull : ∀ key ∈ keyNames declaration, ∀ column,
    declaration.columnDefs.find? (fun column => identName column.columnName = key) = some column →
      typeName column.tpe ≠ some "Nullable"

/-- The part of a column that the shape of a table depends on. -/
def Declares (declared : ColumnDef) (column : ColumnSchema) : Prop :=
  column.name = declared.sqlName ∧
    column.nullable = decide (typeName declared.tpe = some "Nullable")

/-- A key column is found under its identifier, and named as in SQL. -/
def KeyColumn (declaration : TableDecl) (key name : String) : Prop :=
  ∃ column, declaration.columnDefs.find? (fun column => identName column.columnName = key) =
    some column ∧ name = column.sqlName

variable {source : String} {declaration : TableDecl} {table : TableSchema}

theorem readColumn_ok {declared : ColumnDef} {ordinal : ℕ} {column : ColumnSchema}
    (h : readColumn source declared ordinal = .ok column) : Declares declared column := by
  obtain ⟨⟨⟩, -, h⟩ := Run.bind_eq_ok.mp h
  obtain ⟨parsed, hparsed, h⟩ := Run.bind_eq_ok.mp h
  obtain ⟨sqlType, -, h⟩ := Run.bind_eq_ok.mp h
  rw [← Except.ok.inj h]
  exact ⟨rfl, parseSqlType_nullable source hparsed⟩

theorem primaryKey_ok {columns : List ColumnSchema} {names : List String}
    (hcolumns : List.Forall₂ Declares declaration.columnDefs columns)
    (h : primaryKey source declaration columns = .ok names) :
    List.Forall₂ (KeyColumn declaration) (keyNames declaration) names := by
  refine (Run.forall₂_of_mapM h).imp fun key name hname => ?_
  obtain ⟨column, hcolumn, rfl⟩ := Option.map_eq_some_iff.mp (Run.okOr_eq_ok.mp hname)
  obtain ⟨i, hi, hget⟩ := Option.bind_eq_some_iff.mp hcolumn
  obtain ⟨declared, hdeclared, hname, -⟩ := getElem?_of_forall₂ hcolumns hget
  refine ⟨declared, ?_, hname⟩
  rw [List.find?_eq_bind_findIdx?_getElem?, hi, Option.bind_some, hdeclared]

theorem readTable_ok (h : readTable source declaration = .ok table) :
    List.Forall₂ Declares declaration.columnDefs table.columns ∧
      List.Forall₂ (KeyColumn declaration) (keyNames declaration) table.primaryKey := by
  unfold readTable at h
  obtain ⟨⟨⟩, -, h⟩ := Run.bind_eq_ok.mp h
  obtain ⟨⟨⟩, -, h⟩ := Run.bind_eq_ok.mp h
  obtain ⟨columns, hcolumns, h⟩ := Run.bind_eq_ok.mp h
  obtain ⟨names, hnames, h⟩ := Run.bind_eq_ok.mp h
  rw [← Except.ok.inj h]
  have hdeclares : List.Forall₂ Declares declaration.columnDefs columns := by
    have hread := (Run.forall₂_of_mapM hcolumns).imp fun declared column hcolumn =>
      readColumn_ok hcolumn
    rwa [← List.forall₂_map_left_iff, List.zipIdx_map_fst] at hread
  exact ⟨hdeclares, primaryKey_ok hdeclares hnames⟩

theorem names_of_declares {declared : List ColumnDef} {columns : List ColumnSchema}
    (h : List.Forall₂ Declares declared columns) :
    columns.map (·.name) = declared.map (·.sqlName) := by
  induction h with
  | nil => rfl
  | cons hfirst _ ih => rw [List.map_cons, List.map_cons, hfirst.1, ih]

/-- The columns of a key that is looked up by identifier. -/
theorem names_of_keyColumns {keys names : List String}
    (h : List.Forall₂ (KeyColumn declaration) keys names) :
    names.map some = keys.map fun key =>
      (declaration.columnDefs.find? fun column => identName column.columnName = key).map
        (·.sqlName) := by
  induction h with
  | nil => rfl
  | cons hfirst _ ih =>
    obtain ⟨column, hfind, rfl⟩ := hfirst
    rw [List.map_cons, List.map_cons, hfind, ih, Option.map_some]

/-- A table can be held exactly where its declaration is consistent. -/
theorem readTable_holdable_iff (h : readTable source declaration = .ok table) :
    table.Holdable ↔ Consistent declaration := by
  obtain ⟨hcolumns, hkeys⟩ := readTable_ok h
  have hnames := names_of_declares hcolumns
  have hkeyNames := names_of_keyColumns hkeys
  constructor
  · intro hold
    refine ⟨hnames ▸ hold.columns, ?_, ?_, ?_⟩
    · intro hnil
      rw [hnil, List.map_nil, List.map_eq_nil_iff] at hkeyNames
      exact hold.key hkeyNames
    · have hnodup := hold.keyDistinct.map (Option.some_injective _)
      rw [hkeyNames] at hnodup
      exact hnodup.of_map
    · intro key hkey declared hfind hnullable
      obtain ⟨name, hname, found, hfound, rfl⟩ := exists_of_forall₂ hkeys.flip hkey
      obtain rfl := Option.some.inj (hfind.symm.trans hfound)
      obtain ⟨column, hcolumn, hsame, hdeclared⟩ :=
        exists_of_forall₂ hcolumns.flip (List.mem_of_find?_eq_some hfind)
      have hnotNull := hold.keyNotNull column hcolumn (hsame ▸ hname)
      simp [hdeclared, hnullable] at hnotNull
  · intro hconsistent
    -- a declared column is known by its name in SQL
    have hsame {left right : ColumnDef} (hleft : left ∈ declaration.columnDefs)
        (hright : right ∈ declaration.columnDefs) (heq : left.sqlName = right.sqlName) :
        left = right := List.inj_on_of_nodup_map hconsistent.columns hleft hright heq
    refine ⟨?_, ?_, ?_, ?_, ?_⟩
    · rw [TableSchema.DistinctColumns, hnames]
      exact hconsistent.columns
    · intro hnil
      rw [hnil, List.map_nil, eq_comm, List.map_eq_nil_iff] at hkeyNames
      exact hconsistent.key hkeyNames
    · refine .of_map some ?_
      rw [hkeyNames]
      refine List.Nodup.map_on ?_ hconsistent.keyDistinct
      intro left hleft right hright heq
      obtain ⟨-, -, leftColumn, hleftFind, -⟩ := exists_of_forall₂ hkeys.flip hleft
      obtain ⟨-, -, rightColumn, hrightFind, -⟩ := exists_of_forall₂ hkeys.flip hright
      rw [hleftFind, hrightFind, Option.map_some, Option.map_some, Option.some.injEq] at heq
      obtain rfl := hsame (List.mem_of_find?_eq_some hleftFind)
        (List.mem_of_find?_eq_some hrightFind) heq
      have hleftName : identName leftColumn.columnName = left := by
        simpa using List.find?_some hleftFind
      have hrightName : identName leftColumn.columnName = right := by
        simpa using List.find?_some hrightFind
      rw [← hleftName, hrightName]
    · intro name hname
      obtain ⟨key, -, declared, hfind, rfl⟩ := exists_of_forall₂ hkeys hname
      rw [hnames]
      exact List.mem_map_of_mem (List.mem_of_find?_eq_some hfind)
    · intro column hcolumn hname
      obtain ⟨key, hkey, keyColumn, hfind, heq⟩ := exists_of_forall₂ hkeys hname
      obtain ⟨declared, hdeclared, hsql, hnullable⟩ := exists_of_forall₂ hcolumns hcolumn
      obtain rfl := hsame hdeclared (List.mem_of_find?_eq_some hfind) (hsql.symm.trans heq)
      rw [hnullable]
      exact decide_eq_false (hconsistent.keyNotNull key hkey declared hfind)

/-- An accepted declaration adds its table, and nothing else. -/
theorem addTable_ok {loaded next : Loaded} {declared : Option TableDecl}
    (h : addTable source loaded declared = .ok next) :
    ∃ declaration table, declared = some declaration ∧ readTable source declaration = .ok table ∧
      ∀ found, found ∈ next.tables.tables ↔ found = table ∨ found ∈ loaded.tables.tables := by
  unfold addTable at h
  obtain ⟨declaration, hdeclared, h⟩ := Run.bind_eq_ok.mp h
  obtain ⟨table, htable, h⟩ := Run.bind_eq_ok.mp h
  refine ⟨declaration, table, Run.okOr_eq_ok.mp hdeclared, htable, ?_⟩
  split at h
  · cases h
  · next hnew =>
    rw [← Except.ok.inj h]
    intro found
    exact TableMap.mem_insert ((loaded.sourced table.name).mp hnew)

/-- All tables of a run can be held exactly where all its declarations are consistent, and those
from before can be held. -/
theorem addTables_holdable_iff {declarations : List (String × Option TableDecl)}
    {loaded next : Loaded}
    (h : declarations.foldlM (fun loaded (source, declaration) =>
      addTable source loaded declaration) loaded = .ok next) :
    (∀ table ∈ next.tables.tables, table.Holdable) ↔
      (∀ table ∈ loaded.tables.tables, table.Holdable) ∧
        ∀ source declaration, (source, some declaration) ∈ declarations →
          Consistent declaration := by
  induction declarations generalizing loaded with
  | nil =>
    obtain rfl := Except.ok.inj h
    simp
  | cons first rest ih =>
    obtain ⟨source, declared⟩ := first
    rw [List.foldlM_cons] at h
    obtain ⟨mid, hmid, hrest⟩ := Run.bind_eq_ok.mp h
    obtain ⟨declaration, table, rfl, htable, hmem⟩ := addTable_ok hmid
    have hmidHoldable : (∀ found ∈ mid.tables.tables, found.Holdable) ↔
        Consistent declaration ∧ ∀ found ∈ loaded.tables.tables, found.Holdable := by
      simp only [hmem, forall_eq_or_imp, readTable_holdable_iff htable]
    rw [ih hrest, hmidHoldable]
    constructor
    · rintro ⟨⟨hfirst, hloaded⟩, hothers⟩
      refine ⟨hloaded, fun other otherDeclaration hother => ?_⟩
      obtain heq | hother := List.mem_cons.mp hother
      · obtain ⟨-, hsame⟩ := Prod.mk.inj heq
        exact Option.some.inj hsame ▸ hfirst
      · exact hothers other otherDeclaration hother
    · rintro ⟨hloaded, hall⟩
      exact ⟨⟨hall source declaration List.mem_cons_self, hloaded⟩,
        fun other otherDeclaration hother =>
          hall other otherDeclaration (List.mem_cons_of_mem _ hother)⟩

/-- The tables that accepted declarations stand for can all be held exactly where each declaration
is consistent. -/
theorem loadTables_holdable_iff {declarations : List (String × Option TableDecl)} {loaded : Loaded}
    (h : loadTables declarations = .ok loaded) :
    (∀ table ∈ loaded.tables.tables, table.Holdable) ↔
      ∀ source declaration, (source, some declaration) ∈ declarations →
        Consistent declaration := by
  rw [addTables_holdable_iff h]
  exact and_iff_right nofun

/-- A type that is known by name, perhaps in `Nullable`. -/
theorem parseSqlType_name {name : String} {kind : PgType} (hkind : parseTypeName name = some kind)
    (nullable : Bool) : parseSqlType source (if nullable then
        .mk false false [.mk ⟨"Nullable", false⟩ (.angleBracketed [.path (.ofName name)])]
      else .ofName name) = .ok ⟨kind, nullable⟩ := by
  have hplain (found : Bool) :
      unwrapNullable source (.ofName name) found = .ok (.ofName name, found) := by
    have hne : typeName (.ofName name) ≠ some "Nullable" := by
      rintro heq
      obtain rfl : name = "Nullable" := Option.some.inj heq
      cases hkind
    rw [unwrapNullable, if_neg hne]
    rfl
  have hscalar : parseNonNullableType source (.ofName name) = .ok kind := by
    have hname : typeName (.ofName name) = some name := rfl
    rw [parseNonNullableType, hname]
    split
    · next heq => cases heq
    · next heq =>
      obtain rfl := Option.some.inj heq
      cases hkind
    · next found _ heq =>
      obtain rfl := Option.some.inj heq
      exact Run.okOr_eq_ok.mpr hkind
  have hparse {typePath : TypePath} {found : Bool}
      (hpath : (typePath.qself || typePath.leadingColon || typePath.segments.length ≠ 1) = false)
      (hunwrap : unwrapNullable source typePath false = .ok (.ofName name, found)) :
      parseSqlType source typePath = .ok ⟨kind, found⟩ := by
    rw [parseSqlType, if_neg (by rw [hpath]; exact Bool.false_ne_true)]
    split
    · next heq => cases hunwrap.symm.trans heq
    · next heq =>
      obtain ⟨rfl, rfl⟩ := Prod.mk.inj (Except.ok.inj (hunwrap.symm.trans heq))
      rw [hscalar]
      rfl
  cases nullable with
  | false => exact hparse rfl (hplain false)
  | true =>
    refine hparse rfl ?_
    rw [unwrapNullable, if_pos rfl]
    exact hplain true

section Sample

/-- `users { id -> Nullable<Int4>, }` or `users { id -> Int4, }`. -/
def usersDeclaration (nullable : Bool) : TableDecl where
  «meta» := []
  useStatements := []
  schema := none
  sqlName := "users"
  primaryKeys := none
  columnDefs := [{
    «meta» := []
    columnName := ⟨"id", false⟩
    sqlName := "id"
    tpe := if nullable then
        .mk false false [.mk ⟨"Nullable", false⟩ (.angleBracketed [.path (.ofName "Int4")])]
      else .ofName "Int4"
    maxLength := none }]

def usersSource (nullable : Bool) : List (String × Option TableDecl) :=
  [("src/schema.rs", some (usersDeclaration nullable))]

def usersTable (nullable : Bool) : TableSchema :=
  ⟨⟨"public", "users"⟩, [⟨"id", .integer, nullable, 0⟩], ["id"]⟩

theorem loadTables_users (nullable : Bool) : loadTables (usersSource nullable) =
    .ok (Loaded.empty.add "src/schema.rs" (usersTable nullable)) := by
  have hcolumn : (usersDeclaration nullable).columnDefs.zipIdx.mapM (fun entry =>
      readColumn "src/schema.rs" entry.1 entry.2) = .ok [⟨"id", .integer, nullable, 0⟩] := by
    have hinteger : parseTypeName "Int4" = some .integer := rfl
    simp [usersDeclaration, readColumn, parseSqlType_name hinteger, rejectInertAttributes,
      limitLength]
  have hread : readTable "src/schema.rs" (usersDeclaration nullable) = .ok (usersTable nullable) := by
    show ((usersDeclaration nullable).columnDefs.zipIdx.mapM (fun entry =>
      readColumn "src/schema.rs" entry.1 entry.2) >>= _) = _
    rw [hcolumn]
    rfl
  have hadd : addTable "src/schema.rs" .empty (some (usersDeclaration nullable)) =
      .ok (Loaded.empty.add "src/schema.rs" (usersTable nullable)) := by
    rw [addTable, Run.okOr, Run.ok_bind, hread]
    rfl
  rw [loadTables, usersSource, List.foldlM_cons]
  show (addTable "src/schema.rs" .empty (some (usersDeclaration nullable)) >>= _) = _
  rw [hadd]
  rfl

/-- A key that is not nullable is accepted, and can be held. -/
theorem loadTables_holdable_iff_sample : ∃ loaded, loadTables (usersSource false) = .ok loaded ∧
    ∀ table ∈ loaded.tables.tables, table.Holdable := by
  refine ⟨_, loadTables_users false, (loadTables_holdable_iff (loadTables_users false)).mpr ?_⟩
  intro source declaration hmem
  obtain ⟨rfl, rfl⟩ : source = "src/schema.rs" ∧ declaration = usersDeclaration false := by
    simpa [usersSource] using hmem
  refine ⟨by decide, by decide, by decide, ?_⟩
  intro key hkey column hfind
  have hname : typeName column.tpe = some "Int4" := by
    rw [List.mem_singleton.mp (List.mem_of_find?_eq_some hfind)]
    rfl
  simp [hname]

/-- A nullable key is accepted as well, and cannot be held. -/
theorem nullable_key_accepted : ∃ loaded, loadTables (usersSource true) = .ok loaded ∧
    ¬ ∀ table ∈ loaded.tables.tables, table.Holdable := by
  refine ⟨_, loadTables_users true, fun hold => ?_⟩
  have hmem : usersTable true ∈ (Loaded.empty.add "src/schema.rs" (usersTable true)).tables.tables :=
    List.mem_singleton_self _
  exact absurd ((hold _ hmem).keyNotNull ⟨"id", .integer, true, 0⟩ (List.mem_singleton_self _)
    (List.mem_singleton_self _)) (by decide)

end Sample

end Declaration

end Mads
