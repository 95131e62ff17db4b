import Mads.Cli.Database.Convergence
import Mads.Cli.Database.PlanFrame

/-!
# Plans on PostgreSQL

PostgreSQL is taken by what it promises about single statements.  It is an idealised one: the
schemas are there, every name will do and is kept as it is written, nothing is too long or too many,
and besides the tables with their columns and keys there is nothing that a statement could fail on:
no rows, no defaults, no other objects.
-/

namespace Mads

open Catalog Diff Migration PgType

/-- What a statement makes of the tables, the name that `format_type` gives a type that is known,
the types that can be cast, and the types that a key can be made of. -/
structure Postgres where
  execute : Operation → Shapes → Option Shapes
  reported : String → Option String
  casts : PgType → PgType → Bool
  indexes : PgType → Bool

/-- Puts a column in the place of what a table has under its name. -/
def Shapes.setColumn (shapes : Shapes) (table : QualifiedTableName) (shape : TableShape)
    (column : String) (value : Option ColumnShape) : Shapes :=
  Function.update shapes table
    (some { shape with columns := Function.update shape.columns column value })

/-- Columns with names of their own, and a key that is made of some of them. -/
structure TableSchema.Tidy (table : TableSchema) : Prop where
  columns : table.DistinctColumns
  keyDistinct : table.primaryKey.Nodup
  keyNamesColumns : table.KeyNamesColumns

/-- The tables that are created or dropped are tidy. -/
def Operation.Tidy : Operation → Prop
  | createTable table | dropTable table => table.Tidy
  | _ => True

theorem Operation.Tidy.inverse {operation : Operation} (h : operation.Tidy) :
    operation.inverse.Tidy := by
  cases operation <;> exact h

namespace Postgres

variable (postgres : Postgres)

def Knows (kind : PgType) : Prop := ∃ text, postgres.reported kind.toSql = some text

/-- A type that is known, and read as it was written. -/
def Keeps (kind : PgType) : Prop := postgres.Knows kind ∧ kind.converges = true

/-- A column that can be in a key without a change. -/
structure InKey (column : ColumnShape) : Prop where
  notNull : column.nullable = false
  indexed : postgres.indexes column.sqlType = true

/-- The cast that a change of type asks for is there. -/
def accepts : Operation → Bool
  | .alterType _ _ «from» «to» => postgres.casts «from» «to»
  | _ => true

/-- The statements of a script, one after another. -/
def executeAll (operations : List Operation) (shapes : Shapes) : Option Shapes :=
  operations.foldlM (fun shapes operation => postgres.execute operation shapes) shapes

/-- The statements of a migration, as PostgreSQL documents them. -/
structure Documented : Prop where
  formatType : FormatType postgres.reported
  /-- The columns of a key are made NOT NULL, so nothing is said where one was to be nullable. -/
  createTable {shapes : Shapes} {table : TableSchema} (habsent : shapes table.name = none)
    (htidy : table.Tidy) (hknown : ∀ column ∈ table.columns, postgres.Knows column.sqlType)
    (hkey : ∀ column ∈ table.columns, column.name ∈ table.primaryKey →
      postgres.InKey column.shape) :
    postgres.execute (.createTable table) shapes =
      some (Function.update shapes table.name (some table.shape))
  dropTable {shapes : Shapes} {table : TableSchema} {shape : TableShape}
    (hshape : shapes table.name = some shape) :
    postgres.execute (.dropTable table) shapes = some (Function.update shapes table.name none)
  addColumn {shapes : Shapes} {table : QualifiedTableName} {shape : TableShape}
    {column : ColumnSchema} (hshape : shapes table = some shape)
    (habsent : shape.columns column.name = none) (hknown : postgres.Knows column.sqlType) :
    postgres.execute (.addColumn table column) shapes =
      some (shapes.setColumn table shape column.name (some column.shape))
  dropColumn {shapes : Shapes} {table : QualifiedTableName} {shape : TableShape}
    {column : ColumnSchema} {found : ColumnShape} (hshape : shapes table = some shape)
    (hfound : shape.columns column.name = some found) (hkey : column.name ∉ shape.primaryKey) :
    postgres.execute (.dropColumn table column) shapes =
      some (shapes.setColumn table shape column.name none)
  alterType {shapes : Shapes} {table : QualifiedTableName} {shape : TableShape} {column : String}
    {left right : PgType} {nullable : Bool} (hshape : shapes table = some shape)
    (hfound : shape.columns column = some ⟨left, nullable⟩) (hknown : postgres.Knows right)
    (hkey : column ∈ shape.primaryKey → postgres.indexes right = true) :
    postgres.execute (.alterType table column left right) shapes =
      if postgres.casts left right then
        some (shapes.setColumn table shape column (some ⟨right, nullable⟩))
      else none
  setNotNull {shapes : Shapes} {table : QualifiedTableName} {shape : TableShape} {column : String}
    {kind : PgType} (hshape : shapes table = some shape)
    (hfound : shape.columns column = some ⟨kind, true⟩) :
    postgres.execute (.setNotNull table column) shapes =
      some (shapes.setColumn table shape column (some ⟨kind, false⟩))
  /-- A column of the key cannot be made nullable. -/
  dropNotNull {shapes : Shapes} {table : QualifiedTableName} {shape : TableShape} {column : String}
    {kind : PgType} (hshape : shapes table = some shape)
    (hfound : shape.columns column = some ⟨kind, false⟩) (hkey : column ∉ shape.primaryKey) :
    postgres.execute (.dropNotNull table column) shapes =
      some (shapes.setColumn table shape column (some ⟨kind, true⟩))

end Postgres

/-- All types of a table are known and read as they were written, and the columns of its key can be
in a key. -/
structure TableShape.Sound (postgres : Postgres) (shape : TableShape) : Prop where
  keeps {name : String} {column : ColumnShape} :
    shape.columns name = some column → postgres.Keeps column.sqlType
  key {name : String} {column : ColumnShape} :
    shape.columns name = some column → name ∈ shape.primaryKey → postgres.InKey column

def Shapes.Sound (postgres : Postgres) (shapes : Shapes) : Prop :=
  ∀ name shape, shapes name = some shape → shape.Sound postgres

variable {postgres : Postgres} {s t : Shapes} {name : QualifiedTableName} {shape : TableShape}

theorem Shapes.Sound.update (h : s.Sound postgres) (hshape : shape.Sound postgres) :
    Shapes.Sound postgres (Function.update s name (some shape)) := by
  intro other found hfound
  by_cases hother : other = name
  · rw [hother, Function.update_self] at hfound
    exact Option.some.inj hfound ▸ hshape
  · rw [Function.update_of_ne hother] at hfound
    exact h other found hfound

theorem Shapes.Sound.drop (h : s.Sound postgres) :
    Shapes.Sound postgres (Function.update s name none) := by
  intro other found hfound
  by_cases hother : other = name
  · rw [hother, Function.update_self] at hfound
    cases hfound
  · rw [Function.update_of_ne hother] at hfound
    exact h other found hfound

/-- A column is put into a sound table, with a type that is kept. -/
theorem TableShape.Sound.setColumn (h : shape.Sound postgres) {column : String}
    {value : Option ColumnShape}
    (hkeeps : ∀ found, value = some found → postgres.Keeps found.sqlType)
    (hkey : ∀ found, value = some found → column ∈ shape.primaryKey → postgres.InKey found) :
    TableShape.Sound postgres
      { shape with columns := Function.update shape.columns column value } := by
  constructor
  · intro other found hfound
    by_cases hother : other = column
    · exact hkeeps found (by simpa [hother] using hfound)
    · exact h.keeps (by simpa [hother] using hfound)
  · intro other found hfound hmem
    by_cases hother : other = column
    · exact hkey found (by simpa [hother] using hfound) (hother ▸ hmem)
    · exact h.key (by simpa [hother] using hfound) hmem

namespace Migration

variable {operation : Operation} {operations rest : List Operation} {mid : Shapes}

/-- A step between sound tables is executed, unless it asks for a cast that is not there. -/
theorem Takes.execute (hdocumented : postgres.Documented) (h : Takes operation s t)
    (hs : s.Sound postgres) (ht : t.Sound postgres) (htidy : operation.Tidy) :
    postgres.execute operation s = if postgres.accepts operation then some t else none := by
  cases h with
  | create table habsent =>
    have hsound := ht table.name table.shape (Function.update_self _ _ _)
    have hcolumn {column : ColumnSchema} (hmem : column ∈ table.columns) :
        table.shape.columns column.name = some column.shape := by
      rw [shape_columns, columnsByName_of_mem htidy.columns hmem, Option.map_some]
    exact hdocumented.createTable habsent htidy
      (fun column hmem => (hsound.keeps (hcolumn hmem)).1)
      fun column hmem => hsound.key (hcolumn hmem)
  | drop table hshape => exact hdocumented.dropTable hshape
  | @edit _ _ table column shape after hshape hedit =>
    have hbefore := hs table shape hshape
    have hafter := ht table _ (Function.update_self _ _ _)
    have hvalue : (Function.update shape.columns column after) column = after :=
      Function.update_self _ _ _
    generalize hcolumn : shape.columns column = before at hedit
    cases hedit with
    | addColumn _ column hkey =>
      exact hdocumented.addColumn hshape hcolumn (hafter.keeps hvalue).1
    | dropColumn _ column hkey => exact hdocumented.dropColumn hshape hcolumn hkey
    | alterType _ _ left right nullable hne =>
      exact hdocumented.alterType hshape hcolumn (hafter.keeps hvalue).1
        fun hkey => (hafter.key hvalue hkey).indexed
    | setNotNull _ _ kind => exact hdocumented.setNotNull hshape hcolumn
    | dropNotNull _ _ kind =>
      -- the column is nullable afterwards, so it is not in the key
      refine hdocumented.dropNotNull hshape hcolumn fun hkey => ?_
      cases (hafter.key hvalue hkey).notNull

/-- Steps in a row, between sound tables all the way. -/
inductive Course (postgres : Postgres) : List Operation → Shapes → Shapes → Prop
  | nil {s : Shapes} (hs : s.Sound postgres) : Course postgres [] s s
  | cons {operation : Operation} {rest : List Operation} {s mid t : Shapes}
      (hs : s.Sound postgres) (htidy : operation.Tidy) (hstep : Takes operation s mid)
      (hrest : Course postgres rest mid t) : Course postgres (operation :: rest) s t

theorem Course.sound (h : Course postgres operations s t) : s.Sound postgres := by
  cases h with
  | nil hs => exact hs
  | cons hs => exact hs

theorem Course.append (hfront : Course postgres operations s mid)
    (hback : Course postgres rest mid t) : Course postgres (operations ++ rest) s t := by
  induction hfront with
  | nil => exact hback
  | cons hs htidy hstep _ ih => exact .cons hs htidy hstep (ih hback)

/-- The inverses in reverse order lead back. -/
theorem Course.inverse (h : Course postgres operations s t) :
    Course postgres (operations.reverse.map Operation.inverse) t s := by
  induction h with
  | nil hs => exact .nil hs
  | cons hs htidy hstep hrest ih =>
    rw [List.reverse_cons, List.map_append]
    exact ih.append (.cons hrest.sound htidy.inverse hstep.inverse (.nil hs))

/-- A script leads where its steps lead, or it fails at a cast. -/
theorem Course.executeAll (hdocumented : postgres.Documented)
    (h : Course postgres operations s t) :
    postgres.executeAll operations s =
      if operations.all postgres.accepts then some t else none := by
  induction h with
  | nil => rfl
  | @cons operation rest s mid t hs htidy hstep hrest ih =>
    rw [Postgres.executeAll, List.foldlM_cons, hstep.execute hdocumented hs hrest.sound htidy,
      List.all_cons]
    cases postgres.accepts operation with
    | true => exact ih
    | false => rfl

/-! ### The course of a plan -/

/-- A table on both sides has the key that is declared. -/
def KeepsKeys (desired : TableMap) (shapes : Shapes) : Prop :=
  ∀ name shape table, shapes name = some shape → desired.get name = some table →
    shape.primaryKey = table.primaryKey

/-- Tables that can be held, of types that are kept, with keys of types that can be in a key. -/
structure Held (postgres : Postgres) (desired : TableMap) : Prop where
  holdable : ∀ table ∈ desired.tables, table.Holdable
  keeps : ∀ table ∈ desired.tables, ∀ column ∈ table.columns, postgres.Keeps column.sqlType
  indexed : ∀ table ∈ desired.tables, ∀ column ∈ table.columns, column.name ∈ table.primaryKey →
    postgres.indexes column.sqlType = true

variable {live desired : TableMap}

theorem Held.sound (h : Held postgres desired) {table : TableSchema}
    (hmem : table ∈ desired.tables) : table.shape.Sound postgres := by
  have hold := h.holdable table hmem
  constructor
  · intro name column hcolumn
    obtain ⟨found, hfound, rfl⟩ := Option.map_eq_some_iff.mp hcolumn
    exact h.keeps table hmem found ((columnsByName_eq_some hold.columns).mp hfound).1
  · intro name column hcolumn hkey
    obtain ⟨found, hfound, rfl⟩ := Option.map_eq_some_iff.mp hcolumn
    obtain ⟨hin, rfl⟩ := (columnsByName_eq_some hold.columns).mp hfound
    exact ⟨hold.keyNotNull found hin hkey, h.indexed table hmem found hin hkey⟩

theorem Takes.keepsKeys (h : Takes operation s t) (hplanned : operation.Planned live desired)
    (hkeys : KeepsKeys desired s) : KeepsKeys desired t := by
  have hupdate {name : QualifiedTableName} {value : Option TableShape}
      (hvalue : ∀ shape table, value = some shape → desired.get name = some table →
        shape.primaryKey = table.primaryKey) :
      KeepsKeys desired (Function.update s name value) := by
    intro other shape table hshape htable
    by_cases hother : other = name
    · subst hother
      rw [Function.update_self] at hshape
      exact hvalue shape table hshape htable
    · rw [Function.update_of_ne hother] at hshape
      exact hkeys other shape table hshape htable
  cases h with
  | create created habsent =>
    refine hupdate fun shape table hshape htable => ?_
    obtain rfl := Option.some.inj hshape
    obtain rfl := Option.some.inj ((TableMap.get_of_mem hplanned).symm.trans htable)
    rfl
  | drop => exact hupdate nofun
  | edit hshape hedit =>
    refine hupdate fun edited table heq htable => ?_
    obtain rfl := Option.some.inj heq
    have hkey := hkeys _ _ table hshape htable
    exact hkey

/-- A planned step leaves the tables sound. -/
theorem Takes.sound (hheld : Held postgres desired) (h : Takes operation s t)
    (hplanned : operation.Planned live desired) (hkeys : KeepsKeys desired s)
    (hs : s.Sound postgres) : t.Sound postgres := by
  cases h with
  | create table habsent => exact hs.update (hheld.sound hplanned)
  | drop table hshape => exact hs.drop
  | @edit _ _ table column shape after hshape hedit =>
    have hbefore := hs table shape hshape
    refine hs.update ?_
    generalize hcolumn : shape.columns column = before at hedit
    cases hedit with
    | addColumn _ column hkey =>
      obtain ⟨declared, hget, hmem⟩ := hplanned
      refine hbefore.setColumn ?_ ?_
      · rintro found ⟨⟩
        exact hheld.keeps declared (TableMap.mem_of_get hget) column hmem
      · rintro found ⟨⟩ hmem
        exact absurd hmem hkey
    | dropColumn _ column hkey => exact hbefore.setColumn nofun nofun
    | alterType _ _ left right nullable hne =>
      obtain ⟨declared, hget, found, hmem, rfl, rfl⟩ := hplanned
      have hdeclared := TableMap.mem_of_get hget
      refine hbefore.setColumn ?_ ?_
      · rintro changed ⟨⟩
        exact hheld.keeps declared hdeclared found hmem
      · rintro changed ⟨⟩ hkey
        have hdeclaredKey := hkey
        rw [hkeys _ _ declared hshape hget] at hdeclaredKey
        exact ⟨(hbefore.key hcolumn hkey).notNull,
          hheld.indexed declared hdeclared found hmem hdeclaredKey⟩
    | setNotNull _ _ kind =>
      refine hbefore.setColumn ?_ ?_
      · rintro changed ⟨⟩
        have hkeeps := hbefore.keeps hcolumn
        exact hkeeps
      · rintro changed ⟨⟩ hkey
        exact ⟨rfl, (hbefore.key hcolumn hkey).indexed⟩
    | dropNotNull _ _ kind =>
      obtain ⟨declared, hget, found, hmem, rfl, hnullable⟩ := hplanned
      refine hbefore.setColumn ?_ ?_
      · rintro changed ⟨⟩
        have hkeeps := hbefore.keeps hcolumn
        exact hkeeps
      · rintro changed ⟨⟩ hkey
        rw [hkeys _ _ declared hshape hget] at hkey
        have hold := hheld.holdable declared (TableMap.mem_of_get hget)
        have hnotNull := hold.keyNotNull found hmem hkey
        rw [hnullable] at hnotNull
        cases hnotNull

theorem Chain.course (hheld : Held postgres desired) (hlive : ∀ table ∈ live.tables, table.Tidy)
    (h : Chain operations s t) (hplanned : ∀ operation ∈ operations, operation.Planned live desired)
    (hkeys : KeepsKeys desired s) (hs : s.Sound postgres) : Course postgres operations s t := by
  induction h with
  | nil => exact .nil hs
  | @cons operation rest s mid t hstep _ ih =>
    have hfirst := hplanned operation List.mem_cons_self
    have htidy : operation.Tidy := by
      cases operation with
      | createTable table =>
        have hold := hheld.holdable table hfirst
        exact ⟨hold.columns, hold.keyDistinct, hold.keyNamesColumns⟩
      | dropTable table => exact hlive table hfirst
      | _ => trivial
    refine .cons hs htidy hstep (ih ?_ (hstep.keepsKeys hfirst hkeys)
      (hstep.sound hheld hfirst hkeys hs))
    exact fun operation hmem => hplanned operation (List.mem_cons_of_mem _ hmem)

end Migration

/-! ### A plan on the whole database -/

/-- A schema that PostgreSQL can hold as it is, apart from the runner's own table. -/
structure DesiredSchema.Declarable (postgres : Postgres) (desired : DesiredSchema) : Prop where
  holdable : ∀ table ∈ desired.tables.tables, table.Holdable
  known : ∀ table ∈ desired.tables.tables, ∀ column ∈ table.columns, postgres.Knows column.sqlType
  indexed : ∀ table ∈ desired.tables.tables, ∀ column ∈ table.columns,
    column.name ∈ table.primaryKey → postgres.indexes column.sqlType = true
  converges : desired.tables.Converges
  not_runner : ∀ table ∈ desired.tables.tables, table.name.table ≠ MIGRATIONS_TABLE

/-- What `LiveSchema::load` may find out about such an idealised database: the listed tables with a
column, each with the types that are read from what PostgreSQL reports. -/
structure Snapshot (postgres : Postgres) (namespaces : List String) (tables : Shapes)
    (live : LiveSchema) : Prop where
  found {name : QualifiedTableName} {shape : TableShape} :
    live.tables.shapes name = some shape → Queried namespaces name ∧ ∃ created,
      tables name = some created ∧ (∃ column, created.columns column ≠ none) ∧
        TableReadsBack postgres.reported created shape
  listed {name : QualifiedTableName} {created : TableShape} : Queried namespaces name →
    tables name = some created → (∃ column, created.columns column ≠ none) →
      live.tables.shapes name ≠ none
  tidy : ∀ table ∈ live.tables.tables, table.Tidy

variable {namespaces : List String} {inner outer tables : Shapes} {desired : DesiredSchema}
  {live : LiveSchema} {plan : MigrationPlan}

theorem DesiredSchema.Declarable.held (h : desired.Declarable postgres) :
    Held postgres desired.tables where
  holdable := h.holdable
  keeps table hmem column hcolumn :=
    ⟨h.known table hmem column hcolumn, h.converges table hmem column hcolumn⟩
  indexed := h.indexed

theorem DesiredSchema.Declarable.distinct (h : desired.Declarable postgres) :
    ∀ table ∈ desired.tables.tables, table.DistinctColumns :=
  fun table hmem => (h.holdable table hmem).columns

theorem DesiredSchema.Declarable.within (h : desired.Declarable postgres) :
    desired.tables.shapes.Within desired.namespaces := by
  intro name hsome
  obtain ⟨shape, hshape⟩ := Option.ne_none_iff_exists'.mp hsome
  obtain ⟨table, htable, rfl⟩ := Option.map_eq_some_iff.mp hshape
  obtain ⟨hmem, rfl⟩ := TableMap.get_eq_some.mp htable
  refine ⟨?_, h.not_runner table hmem⟩
  rw [DesiredSchema.namespaces, mem_orderedSet]
  exact List.mem_map_of_mem (List.mem_map_of_mem hmem)

/-- A declared table has the columns of its key. -/
theorem DesiredSchema.Declarable.covered (h : desired.Declarable postgres) :
    desired.tables.shapes.Covered := by
  intro name shape hshape
  obtain ⟨table, htable, rfl⟩ := Option.map_eq_some_iff.mp hshape
  obtain ⟨hmem, rfl⟩ := TableMap.get_eq_some.mp htable
  have hold := h.holdable table hmem
  obtain ⟨key, hkey⟩ := List.exists_mem_of_ne_nil _ hold.key
  obtain ⟨column, hcolumn, rfl⟩ := List.mem_map.mp (hold.keyNamesColumns key hkey)
  refine ⟨column.name, ?_⟩
  rw [shape_columns, columnsByName_of_mem hold.columns hcolumn]
  simp

theorem DesiredSchema.Declarable.sound (h : desired.Declarable postgres) :
    desired.tables.shapes.Sound postgres := by
  intro name shape hshape
  obtain ⟨table, htable, rfl⟩ := Option.map_eq_some_iff.mp hshape
  exact h.held.sound (TableMap.mem_of_get htable)

/-- What holds of each table of both sides holds of each table of the overlay. -/
theorem forall_overlay {P : TableShape → Prop}
    (hinner : ∀ name shape, inner name = some shape → P shape)
    (houter : ∀ name shape, outer name = some shape → P shape) :
    ∀ name shape, overlay namespaces inner outer name = some shape → P shape := by
  intro name shape hshape
  unfold overlay at hshape
  split at hshape
  · exact hinner name shape hshape
  · exact houter name shape hshape

section Snapshots

variable (hdocumented : postgres.Documented)
include hdocumented

/-- Sound tables are found as they are. -/
theorem Snapshot.shapes_iff (h : Snapshot postgres namespaces tables live)
    (hsound : tables.Sound postgres) : live.tables.shapes name = some shape ↔
      Queried namespaces name ∧ tables name = some shape ∧
        ∃ column, shape.columns column ≠ none := by
  have hsame {created found : TableShape} (hcreated : tables name = some created)
      (hread : TableReadsBack postgres.reported created found) : found = created :=
    (hread.eq_iff hdocumented.formatType).mpr fun _ _ hcolumn =>
      ((hsound name created hcreated).keeps hcolumn).2
  constructor
  · intro hlive
    obtain ⟨hqueried, created, hcreated, hcolumn, hread⟩ := h.found hlive
    obtain rfl := hsame hcreated hread
    exact ⟨hqueried, hcreated, hcolumn⟩
  · rintro ⟨hqueried, hshape, hcolumn⟩
    obtain ⟨found, hfound⟩ := Option.ne_none_iff_exists'.mp (h.listed hqueried hshape hcolumn)
    obtain ⟨-, created, hcreated, -, hread⟩ := h.found hfound
    obtain rfl := Option.some.inj (hshape.symm.trans hcreated)
    obtain rfl := hsame hshape hread
    exact hfound

theorem Snapshot.overlay_eq (h : Snapshot postgres namespaces tables live)
    (hsound : tables.Sound postgres) (hcovered : tables.Covered) :
    overlay namespaces live.tables.shapes tables = tables := by
  funext name
  unfold overlay
  split
  · next hqueried =>
    ext shape
    rw [h.shapes_iff hdocumented hsound]
    constructor
    · exact fun hlive => hlive.2.1
    · exact fun hshape => ⟨hqueried, hshape, hcovered name shape hshape⟩
  · rfl

omit hdocumented in
theorem Snapshot.within (h : Snapshot postgres namespaces tables live) :
    live.tables.shapes.Within namespaces := by
  intro name hsome
  obtain ⟨shape, hshape⟩ := Option.ne_none_iff_exists'.mp hsome
  exact (h.found hshape).1

/-- A table on both sides has kept its key. -/
theorem Snapshot.keepsKeys (h : Snapshot postgres desired.namespaces tables live)
    (hdesired : desired.Declarable postgres) (hsound : tables.Sound postgres)
    (hcovered : tables.Covered) (hplan : planDiff desired live = .ok plan) :
    KeepsKeys desired.tables tables := by
  obtain ⟨hretained, -⟩ := planTablesRef_ok hplan
  intro name shape table hshape htable
  have hqueried : Queried desired.namespaces name := by
    apply hdesired.within
    rw [TableMap.shapes, htable]
    simp
  have hlive := (h.shapes_iff hdocumented hsound).mpr
    ⟨hqueried, hshape, hcovered name shape hshape⟩
  obtain ⟨liveTable, hget, rfl⟩ := Option.map_eq_some_iff.mp hlive
  obtain ⟨hmem, rfl⟩ := TableMap.get_eq_some.mp hget
  exact (rejectPrimaryKeyChanges_ok.mp hretained liveTable hmem table htable).1

/-- A plan that was made from a snapshot leads the whole database to the declared tables, through
sound tables only, and leaves all tables that the query does not list as they are. -/
theorem planDiff_overlay (hdesired : desired.Declarable postgres)
    (hsnapshot : Snapshot postgres desired.namespaces tables live) (hsound : tables.Sound postgres)
    (hcovered : tables.Covered) (hplan : planDiff desired live = .ok plan) :
    Course postgres plan.up tables (overlay desired.namespaces desired.tables.shapes tables) := by
  have hplanned := planDiff_planned hplan
  have hchain := planDiff_chain (fun table hmem => (hsnapshot.tidy table hmem).columns)
    (fun table hmem => (hsnapshot.tidy table hmem).keyNamesColumns) hdesired.distinct hplan
  have hcreate : ∀ table, .createTable table ∈ plan.up →
      Queried desired.namespaces table.name := by
    intro table hmem
    apply hdesired.within
    rw [TableMap.shapes, TableMap.get_of_mem (hplanned _ hmem)]
    simp
  have hwhole := hchain.overlay hsnapshot.within hcreate tables
  rw [hsnapshot.overlay_eq hdocumented hsound hcovered] at hwhole
  exact hwhole.course hdesired.held hsnapshot.tidy hplanned
    (hsnapshot.keepsKeys hdocumented hdesired hsound hcovered hplan) hsound

/-- There is nothing to plan where the listed tables are the declared ones. -/
theorem planDiff_up_to_date (hdesired : desired.Declarable postgres)
    (hsnapshot : Snapshot postgres desired.namespaces tables live) (hsound : tables.Sound postgres)
    (hagree : ∀ name, Queried desired.namespaces name → tables name = desired.tables.shapes name) :
    ∃ plan, planDiff desired live = .ok plan ∧ plan.isEmpty = true := by
  have hshapes : live.tables.shapes = desired.tables.shapes := by
    funext name
    ext shape
    rw [hsnapshot.shapes_iff hdocumented hsound]
    constructor
    · rintro ⟨hqueried, hshape, -⟩
      rw [← hagree name hqueried, hshape]
    · intro hshape
      have hqueried : Queried desired.namespaces name := hdesired.within name (by simp [hshape])
      exact ⟨hqueried, (hagree name hqueried).trans hshape, hdesired.covered name shape hshape⟩
  have hkeys : ∀ table ∈ live.tables.tables, table.KeyNamesColumns :=
    fun table hmem => (hsnapshot.tidy table hmem).keyNamesColumns
  obtain ⟨plan, hplan⟩ := planDiff_of_retained (rejectPrimaryKeyChanges_of_agree hkeys hshapes)
    (droppedTables_of_agree hshapes)
  exact ⟨plan, hplan, (planDiff_isEmpty_iff (fun table hmem => (hsnapshot.tidy table hmem).columns)
    hkeys hdesired.distinct hplan).mpr hshapes⟩

end Snapshots

end Mads
