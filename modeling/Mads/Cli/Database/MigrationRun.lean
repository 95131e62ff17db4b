import Mads.Cli.Database.MigrationPass

/-!
# The run of a plan
-/

namespace Mads

namespace Diff

theorem columnsByName_eq_none {table : TableSchema} {name : String} :
    columnsByName table name = none ↔ name ∉ table.columns.map (·.name) := by
  simp [columnsByName]

theorem columnsByName_eq_some {table : TableSchema} (h : table.DistinctColumns) {name : String}
    {column : ColumnSchema} : columnsByName table name = some column ↔
      column ∈ table.columns ∧ column.name = name := by
  have hreverse : (table.columns.reverse.map (·.name)).Nodup := by
    rw [List.map_reverse]
    exact List.nodup_reverse.mpr h
  rw [columnsByName, find?_key_eq_some hreverse, List.mem_reverse]

theorem columnsByName_of_mem {table : TableSchema} (h : table.DistinctColumns)
    {column : ColumnSchema} (hmem : column ∈ table.columns) :
    columnsByName table column.name = some column :=
  (columnsByName_eq_some h).mpr ⟨hmem, rfl⟩

/-- A retained table keeps its key, and all columns of it. -/
theorem rejectPrimaryKeyChanges_ok {live desired : TableMap} :
    rejectPrimaryKeyChanges live desired = .ok () ↔
      ∀ liveTable ∈ live.tables, ∀ desiredTable, desired.get liveTable.name = some desiredTable →
        liveTable.primaryKey = desiredTable.primaryKey ∧
          ∀ name ∈ liveTable.primaryKey, columnsByName desiredTable name ≠ none := by
  rw [rejectPrimaryKeyChanges, Run.forM_eq_ok]
  refine forall₂_congr fun liveTable _ => ?_
  cases hget : desired.get liveTable.name with
  | none => simp
  | some desiredTable =>
    simp only [Option.some.injEq, forall_eq']
    by_cases hkey : liveTable.primaryKey = desiredTable.primaryKey
    · rw [if_neg (not_not.mpr hkey)]
      cases hfind : liveTable.primaryKey.find?
          (fun column => (columnsByName desiredTable column).isNone) with
      | none =>
        simp only [List.find?_eq_none, Option.isNone_iff_eq_none] at hfind
        exact iff_of_true rfl ⟨hkey, hfind⟩
      | some column =>
        have hmissing : columnsByName desiredTable column = none := by
          simpa using List.find?_some hfind
        refine iff_of_false nofun fun h => ?_
        exact h.2 column (List.mem_of_find?_eq_some hfind) hmissing
    · rw [if_pos hkey]
      exact iff_of_false nofun fun h => hkey h.1

end Diff

namespace Migration

open Catalog Diff

/-! ## Stages of a retained table -/

/-- A column at a stage, from what it is in the live and in the desired table. -/
abbrev Stage := Option ColumnShape → Option ColumnShape → Option ColumnShape

def atLive : Stage := fun live _ => live

def withAdditions : Stage := fun live desired => live.or desired

def withTypes : Stage
  | some live, some desired => some ⟨desired.sqlType, live.nullable⟩
  | live, desired => live.or desired

def withNullability : Stage := fun live desired => desired.or live

def atDesired : Stage := fun _ desired => desired

def staged (stage : Stage) (liveTable desiredTable : TableSchema) : TableShape :=
  { liveTable.shape with
    columns := fun name => stage (liveTable.shape.columns name) (desiredTable.shape.columns name) }

/-- The tables of both sides, with those on both sides at a stage. -/
def between (stage : Stage) (live desired : TableMap) : Shapes := fun name =>
  match live.get name, desired.get name with
  | some liveTable, some desiredTable => some (staged stage liveTable desiredTable)
  | some liveTable, none => some liveTable.shape
  | none, desiredTable => desiredTable.map TableSchema.shape

/-- What a pass does to one table. -/
structure TablePass (operations : List Operation) (table : QualifiedTableName)
    (before after : TableShape) : Prop where
  edits : ∀ operation ∈ operations, ∃ column,
    Edits before.primaryKey operation table column (before.columns column) (after.columns column)
  distinct : operations.Pairwise (·.target ≠ ·.target)
  unchanged : ∀ column, (∀ operation ∈ operations, operation.target ≠ some (table, column)) →
    before.columns column = after.columns column

/-- One operation for each column of a list. -/
theorem tablePass_of_columns {α : Type} {xs : List α} {name : α → String} {edit : α → Operation}
    {table : QualifiedTableName} {before after : TableShape} (hnodup : (xs.map name).Nodup)
    (hedit : ∀ x ∈ xs, Edits before.primaryKey (edit x) table (name x)
      (before.columns (name x)) (after.columns (name x)))
    (hrest : ∀ column ∉ xs.map name, before.columns column = after.columns column) :
    TablePass (xs.map edit) table before after where
  edits := List.forall_mem_map.mpr fun x hx => ⟨name x, hedit x hx⟩
  distinct := by
    rw [List.pairwise_map]
    refine List.Pairwise.imp_of_mem ?_ (List.pairwise_map.mp hnodup)
    intro x y hx hy hne heq
    rw [(hedit x hx).target, (hedit y hy).target] at heq
    simp [hne] at heq
  unchanged column hnone := by
    apply hrest
    intro hmem
    obtain ⟨x, hx, rfl⟩ := List.mem_map.mp hmem
    exact hnone (edit x) (List.mem_map_of_mem hx) (hedit x hx).target

section Table

variable {liveTable desiredTable : TableSchema}

@[simp] theorem shape_columns (table : TableSchema) (name : String) :
    table.shape.columns name = (columnsByName table name).map ColumnSchema.shape := rfl

@[simp] theorem shape_primaryKey (table : TableSchema) :
    table.shape.primaryKey = table.primaryKey := rfl

theorem additions_nodup (hdesired : desiredTable.DistinctColumns) :
    ((additions liveTable desiredTable).map (·.name)).Nodup := by
  rw [additions, ((sortByKey_perm _ _).map _).nodup_iff]
  exact hdesired.sublist (List.filter_sublist.map _)

theorem mem_additions {column : ColumnSchema} : column ∈ additions liveTable desiredTable ↔
    column ∈ desiredTable.columns ∧ columnsByName liveTable column.name = none := by
  simp [additions]

theorem removals_nodup (hlive : liveTable.DistinctColumns) :
    ((removals liveTable desiredTable).map (·.name)).Nodup := by
  rw [removals, ((sortBy_perm _ _).map _).nodup_iff]
  exact hlive.sublist (List.filter_sublist.map _)

theorem mem_removals {column : ColumnSchema} : column ∈ removals liveTable desiredTable ↔
    column ∈ liveTable.columns ∧ columnsByName desiredTable column.name = none := by
  simp [removals]

theorem mem_common {pair : ColumnSchema × ColumnSchema} : pair ∈ common liveTable desiredTable ↔
    pair.1 ∈ liveTable.columns ∧ columnsByName desiredTable pair.1.name = some pair.2 := by
  obtain ⟨liveColumn, desiredColumn⟩ := pair
  simp only [common, mem_sortByKey, List.mem_filterMap, Option.map_eq_some_iff]
  constructor
  · rintro ⟨column, hmem, other, hget, heq⟩
    obtain ⟨rfl, rfl⟩ := Prod.mk.inj heq
    exact ⟨hmem, hget⟩
  · rintro ⟨hmem, hget⟩
    exact ⟨liveColumn, hmem, desiredColumn, hget, rfl⟩

theorem common_nodup (hlive : liveTable.DistinctColumns) :
    ((common liveTable desiredTable).map (·.1.name)).Nodup := by
  rw [common, ((sortByKey_perm _ _).map _).nodup_iff, List.Nodup, List.pairwise_map,
    List.pairwise_filterMap]
  refine (List.pairwise_map.mp hlive).imp ?_
  intro left right hne pair hpair other hother
  obtain ⟨_, -, rfl⟩ := Option.map_eq_some_iff.mp hpair
  obtain ⟨_, -, rfl⟩ := Option.map_eq_some_iff.mp hother
  exact hne

theorem addColumns_pass (hkey : liveTable.KeyNamesColumns)
    (hdesired : desiredTable.DistinctColumns) :
    TablePass ((additions liveTable desiredTable).map fun column =>
        Operation.addColumn desiredTable.name column) desiredTable.name
      (staged atLive liveTable desiredTable) (staged withAdditions liveTable desiredTable) := by
  apply tablePass_of_columns (additions_nodup hdesired)
  · intro column hcolumn
    obtain ⟨hmem, hl⟩ := mem_additions.mp hcolumn
    have hd := columnsByName_of_mem hdesired hmem
    have hnew : column.name ∉ liveTable.primaryKey := fun h =>
      columnsByName_eq_none.mp hl (hkey _ h)
    simpa [staged, atLive, withAdditions, hl, hd] using
      Edits.addColumn desiredTable.name column hnew
  · intro name hname
    cases hl : columnsByName liveTable name with
    | some column => simp [staged, atLive, withAdditions, hl]
    | none =>
      cases hd : columnsByName desiredTable name with
      | none => simp [staged, atLive, withAdditions, hl, hd]
      | some column =>
        obtain ⟨hmem, rfl⟩ := (columnsByName_eq_some hdesired).mp hd
        exact absurd (List.mem_map_of_mem (mem_additions.mpr ⟨hmem, hl⟩)) hname

/-- A pass over the columns on both sides, those that differ in some part. -/
theorem common_pass {differ : ColumnSchema × ColumnSchema → Bool}
    {edit : ColumnSchema × ColumnSchema → Operation} {before after : Stage}
    (hlive : liveTable.DistinctColumns)
    (hedit : ∀ pair, differ pair = true → Edits liveTable.primaryKey (edit pair) liveTable.name
      pair.1.name (before (some pair.1.shape) (some pair.2.shape))
        (after (some pair.1.shape) (some pair.2.shape)))
    (hsame : ∀ pair, differ pair = false → before (some pair.1.shape) (some pair.2.shape) =
      after (some pair.1.shape) (some pair.2.shape))
    (halone : ∀ column, before column none = after column none ∧
      before none column = after none column) :
    TablePass (((common liveTable desiredTable).filter differ).map edit) liveTable.name
      (staged before liveTable desiredTable) (staged after liveTable desiredTable) := by
  refine tablePass_of_columns ((common_nodup hlive).sublist (List.filter_sublist.map _)) ?_ ?_
  · intro pair hpair
    obtain ⟨hcommon, hdiffer⟩ := List.mem_filter.mp hpair
    obtain ⟨hmem, hd⟩ := mem_common.mp hcommon
    have hl := columnsByName_of_mem hlive hmem
    simpa [staged, hl, hd] using hedit pair hdiffer
  · intro name hname
    cases hl : columnsByName liveTable name with
    | none => simpa [staged, hl] using (halone _).2
    | some liveColumn =>
      cases hd : columnsByName desiredTable name with
      | none => simpa [staged, hd] using (halone _).1
      | some desiredColumn =>
        obtain ⟨hmem, rfl⟩ := (columnsByName_eq_some hlive).mp hl
        have hcommon : (liveColumn, desiredColumn) ∈ common liveTable desiredTable :=
          mem_common.mpr ⟨hmem, hd⟩
        cases hdiffer : differ (liveColumn, desiredColumn) with
        | false => simpa [staged, hl, hd] using hsame _ hdiffer
        | true =>
          exact absurd (List.mem_map_of_mem (List.mem_filter.mpr ⟨hcommon, hdiffer⟩)) hname

theorem alterTypes_pass (hlive : liveTable.DistinctColumns) :
    TablePass (((common liveTable desiredTable).filter fun pair =>
        pair.1.sqlType ≠ pair.2.sqlType).map fun pair =>
          Operation.alterType liveTable.name pair.1.name pair.1.sqlType pair.2.sqlType)
      liveTable.name (staged withAdditions liveTable desiredTable)
      (staged withTypes liveTable desiredTable) := by
  apply common_pass hlive
  · intro pair hdiffer
    exact .alterType _ _ _ _ _ (by simpa using hdiffer)
  · intro pair hsame
    have htype : pair.1.sqlType = pair.2.sqlType := by simpa using hsame
    simp [withAdditions, withTypes, ColumnSchema.shape, htype]
  · intro column
    cases column <;> exact ⟨rfl, rfl⟩

theorem alterNullability_pass (hlive : liveTable.DistinctColumns) :
    TablePass (((common liveTable desiredTable).filter fun pair =>
        pair.1.nullable ≠ pair.2.nullable).map fun pair =>
          if pair.2.nullable then Operation.dropNotNull liveTable.name pair.1.name
          else Operation.setNotNull liveTable.name pair.1.name)
      liveTable.name (staged withTypes liveTable desiredTable)
      (staged withNullability liveTable desiredTable) := by
  apply common_pass hlive
  · rintro ⟨liveColumn, desiredColumn⟩ hdiffer
    have hne : liveColumn.nullable ≠ desiredColumn.nullable := by simpa using hdiffer
    cases hd : desiredColumn.nullable with
    | true =>
      have hl : liveColumn.nullable = false := by simpa [hd] using hne
      simpa [withTypes, withNullability, ColumnSchema.shape, hl, hd] using
        Edits.dropNotNull liveTable.name liveColumn.name desiredColumn.sqlType
    | false =>
      have hl : liveColumn.nullable = true := by simpa [hd] using hne
      simpa [withTypes, withNullability, ColumnSchema.shape, hl, hd] using
        Edits.setNotNull liveTable.name liveColumn.name desiredColumn.sqlType
  · intro pair hsame
    have hnullable : pair.1.nullable = pair.2.nullable := by simpa using hsame
    simp [withTypes, withNullability, ColumnSchema.shape, hnullable]
  · intro column
    cases column <;> exact ⟨rfl, rfl⟩

theorem dropColumns_pass (hlive : liveTable.DistinctColumns)
    (hkept : ∀ name ∈ liveTable.primaryKey, columnsByName desiredTable name ≠ none) :
    TablePass ((removals liveTable desiredTable).map fun column =>
        Operation.dropColumn liveTable.name column) liveTable.name
      (staged withNullability liveTable desiredTable)
      (staged atDesired liveTable desiredTable) := by
  apply tablePass_of_columns (removals_nodup hlive)
  · intro column hcolumn
    obtain ⟨hmem, hd⟩ := mem_removals.mp hcolumn
    have hl := columnsByName_of_mem hlive hmem
    have hloose : column.name ∉ liveTable.primaryKey := fun h => hkept _ h hd
    simpa [staged, withNullability, atDesired, hl, hd] using
      Edits.dropColumn liveTable.name column hloose
  · intro name hname
    cases hd : columnsByName desiredTable name with
    | some column => simp [staged, withNullability, atDesired, hd]
    | none =>
      cases hl : columnsByName liveTable name with
      | none => simp [staged, withNullability, atDesired, hl, hd]
      | some column =>
        obtain ⟨hmem, rfl⟩ := (columnsByName_eq_some hlive).mp hl
        exact absurd (List.mem_map_of_mem (mem_removals.mpr ⟨hmem, hd⟩)) hname

end Table

/-- A loop over the retained tables is a pass where it is one for each of them. -/
theorem pass_overRetained {tables others : TableMap} {steps : TableSchema → TableSchema → List Step}
    {s t : Shapes}
    (hretained : ∀ table ∈ tables.tables, ∀ other, others.get table.name = some other →
      ∃ before after, s table.name = some before ∧ t table.name = some after ∧
        before.primaryKey = after.primaryKey ∧
          TablePass ((steps table other).map (·.operation)) table.name before after)
    (hrest : ∀ name, tables.get name = none ∨ others.get name = none → s name = t name) :
    Pass ((overRetained tables others steps).map (·.operation)) s t where
  edits := by
    intro operation hoperation
    obtain ⟨step, hstep, rfl⟩ := List.mem_map.mp hoperation
    obtain ⟨table, htable, other, hother, hmem⟩ := mem_overRetained.mp hstep
    obtain ⟨before, after, hs, ht, hkey, hpass⟩ := hretained table htable other hother
    obtain ⟨column, hedit⟩ := hpass.edits _ (List.mem_map_of_mem hmem)
    exact ⟨table.name, column, before, after, hs, ht, hkey, hedit⟩
  distinct := by
    -- operations of one table are on distinct columns, and those of two are on distinct tables
    have htarget {table other : TableSchema} (htable : table ∈ tables.tables)
        (hother : others.get table.name = some other) {step : Step}
        (hstep : step ∈ steps table other) :
        ∃ column, step.operation.target = some (table.name, column) := by
      obtain ⟨before, after, -, -, -, hpass⟩ := hretained table htable other hother
      obtain ⟨column, hedit⟩ := hpass.edits _ (List.mem_map_of_mem hstep)
      exact ⟨column, hedit.target⟩
    rw [overRetained, List.pairwise_map, List.pairwise_flatMap]
    constructor
    · intro table htable
      cases hother : others.get table.name with
      | none => exact .nil
      | some other =>
        obtain ⟨before, after, -, -, -, hpass⟩ := hretained table htable other hother
        have hdistinct := hpass.distinct
        rwa [List.pairwise_map] at hdistinct
    · refine List.Pairwise.imp_of_mem ?_ tables.sorted
      intro left right hleft hright hlt step hstep step' hstep' heq
      cases hother : others.get left.name with
      | none => simp [hother] at hstep
      | some other =>
        cases hother' : others.get right.name with
        | none => simp [hother'] at hstep'
        | some other' =>
          rw [hother] at hstep
          rw [hother'] at hstep'
          obtain ⟨column, hcolumn⟩ := htarget hleft hother hstep
          obtain ⟨column', hcolumn'⟩ := htarget hright hother' hstep'
          rw [hcolumn, hcolumn'] at heq
          exact hlt.ne (Prod.mk.inj (Option.some.inj heq)).1
  unchanged := by
    intro name
    by_cases hboth : tables.get name = none ∨ others.get name = none
    · have hsame := hrest name hboth
      cases hs : s name with
      | none => exact .inl ⟨rfl, hsame ▸ hs⟩
      | some shape => exact .inr ⟨shape, shape, rfl, hsame ▸ hs, rfl, fun _ _ => rfl⟩
    · obtain ⟨htable, hother⟩ := not_or.mp hboth
      obtain ⟨table, htable⟩ := Option.ne_none_iff_exists'.mp htable
      obtain ⟨other, hother⟩ := Option.ne_none_iff_exists'.mp hother
      obtain ⟨hmem, rfl⟩ := TableMap.get_eq_some.mp htable
      obtain ⟨before, after, hs, ht, hkey, hpass⟩ := hretained table hmem other hother
      refine .inr ⟨before, after, hs, ht, hkey, fun column hnone => ?_⟩
      refine hpass.unchanged column (List.forall_mem_map.mpr fun step hstep => hnone _ ?_)
      exact List.mem_map_of_mem (mem_overRetained.mpr ⟨table, hmem, other, hother, hstep⟩)

section Plan

variable {live desired : TableMap}

theorem between_retained {stage : Stage} {name : QualifiedTableName}
    {liveTable desiredTable : TableSchema} (hlive : live.get name = some liveTable)
    (hdesired : desired.get name = some desiredTable) :
    between stage live desired name = some (staged stage liveTable desiredTable) := by
  simp only [between, hlive, hdesired]

/-- A table that is not on both sides is at every stage the same. -/
theorem between_single {stage stage' : Stage} {name : QualifiedTableName}
    (h : live.get name = none ∨ desired.get name = none) :
    between stage live desired name = between stage' live desired name := by
  obtain h | h := h
  · simp only [between, h]
  · cases hlive : live.get name <;> simp only [between, h, hlive]

theorem between_self {stage : Stage} (hstage : ∀ column, stage column column = column)
    (h : live.shapes = desired.shapes) : between stage live desired = live.shapes := by
  funext name
  have hname := congrFun h name
  simp only [TableMap.shapes] at hname ⊢
  cases hlive : live.get name with
  | none =>
    simp only [between, hlive]
    rw [← hname, hlive]
  | some liveTable =>
    cases hdesired : desired.get name with
    | none => simp only [between, hlive, hdesired, Option.map_some]
    | some desiredTable =>
      rw [hlive, hdesired, Option.map_some, Option.map_some, Option.some.injEq] at hname
      simp only [between, hlive, hdesired, Option.map_some, staged, ← hname, hstage]

theorem get_eq_none_of_agree (h : live.shapes = desired.shapes) {name : QualifiedTableName} :
    live.get name = none ↔ desired.get name = none := by
  have hname := congrFun h name
  simp only [TableMap.shapes] at hname
  rw [← Option.map_eq_none_iff, hname, Option.map_eq_none_iff]

theorem droppedTables_of_agree (h : live.shapes = desired.shapes) :
    droppedTables live desired = [] := by
  rw [List.eq_nil_iff_forall_not_mem]
  intro name hname
  obtain ⟨hkey, hnone⟩ := mem_droppedTables.mp hname
  exact TableMap.get_eq_none.mp ((get_eq_none_of_agree h).mpr hnone) hkey

theorem rejectPrimaryKeyChanges_of_agree (hkeys : ∀ table ∈ live.tables, table.KeyNamesColumns)
    (h : live.shapes = desired.shapes) : rejectPrimaryKeyChanges live desired = .ok () := by
  rw [rejectPrimaryKeyChanges_ok]
  intro liveTable hmem desiredTable hget
  have hshape : liveTable.shape = desiredTable.shape := by
    have hname := congrFun h liveTable.name
    rwa [TableMap.shapes, TableMap.shapes, TableMap.get_of_mem hmem, hget, Option.map_some,
      Option.map_some, Option.some.injEq] at hname
  refine ⟨congrArg TableShape.primaryKey hshape, fun name hname hmissing => ?_⟩
  have hcolumn : (columnsByName liveTable name).map ColumnSchema.shape = none := by
    rw [← shape_columns, hshape, shape_columns, hmissing, Option.map_none]
  exact columnsByName_eq_none.mp (Option.map_eq_none_iff.mp hcolumn) (hkeys _ hmem _ hname)

/-- The passes over the retained tables, each from one stage to the next. -/
theorem stage_passes (hlive : ∀ table ∈ live.tables, table.DistinctColumns)
    (hkeys : ∀ table ∈ live.tables, table.KeyNamesColumns)
    (hdesired : ∀ table ∈ desired.tables, table.DistinctColumns)
    (hretained : rejectPrimaryKeyChanges live desired = .ok ()) :
    Pass ((addColumns live desired).map (·.operation)) (between atLive live desired)
        (between withAdditions live desired) ∧
      Pass ((alterTypes live desired).map (·.operation)) (between withAdditions live desired)
        (between withTypes live desired) ∧
      Pass ((alterNullability live desired).map (·.operation)) (between withTypes live desired)
        (between withNullability live desired) ∧
      Pass ((dropColumns live desired).map (·.operation)) (between withNullability live desired)
        (between atDesired live desired) := by
  have hpass {stage stage' : Stage} {steps : TableSchema → TableSchema → List Step}
      (hsteps : ∀ liveTable ∈ live.tables, ∀ desiredTable,
        desired.get liveTable.name = some desiredTable →
          TablePass ((steps liveTable desiredTable).map (·.operation)) liveTable.name
            (staged stage liveTable desiredTable) (staged stage' liveTable desiredTable)) :
      Pass ((overRetained live desired steps).map (·.operation)) (between stage live desired)
        (between stage' live desired) := by
    apply pass_overRetained
    · intro liveTable hmem desiredTable hget
      have hfound := TableMap.get_of_mem hmem
      exact ⟨_, _, between_retained hfound hget, between_retained hfound hget, rfl,
        hsteps liveTable hmem desiredTable hget⟩
    · exact fun name hname => between_single hname
  refine ⟨?_, ?_, ?_, ?_⟩
  · apply pass_overRetained
    · intro desiredTable hmem liveTable hget
      have hfound := TableMap.get_of_mem hmem
      refine ⟨_, _, between_retained hget hfound, between_retained hget hfound, rfl, ?_⟩
      rw [List.map_map]
      exact addColumns_pass (hkeys _ (TableMap.mem_of_get hget)) (hdesired _ hmem)
    · exact fun name hname => between_single hname.symm
  · apply hpass
    intro liveTable hmem desiredTable _
    rw [List.map_map]
    exact alterTypes_pass (hlive _ hmem)
  · apply hpass
    intro liveTable hmem desiredTable _
    rw [List.map_map]
    exact alterNullability_pass (hlive _ hmem)
  · apply hpass
    intro liveTable hmem desiredTable hget
    rw [List.map_map]
    exact dropColumns_pass (hlive _ hmem)
      (rejectPrimaryKeyChanges_ok.mp hretained _ hmem _ hget).2

theorem createTables_chain : Chain ((createTables live desired).map (·.operation)) live.shapes
    (between atLive live desired) := by
  rw [createTables, List.map_map]
  apply chain_creates
  · exact desired.keys_nodup.sublist (List.filter_sublist.map _)
  · intro table htable
    have habsent : live.get table.name = none := by simpa using (List.mem_filter.mp htable).2
    rw [TableMap.shapes, habsent, Option.map_none]
  · intro table htable
    obtain ⟨hmem, habsent⟩ := List.mem_filter.mp htable
    have hlive : live.get table.name = none := by simpa using habsent
    simp only [between, hlive, TableMap.get_of_mem hmem, Option.map_some]
  · intro name hname
    cases hlive : live.get name with
    | some liveTable =>
      cases hdesired : desired.get name with
      | none => simp only [TableMap.shapes, between, hlive, hdesired, Option.map_some]
      | some desiredTable =>
        rw [between_retained hlive hdesired, TableMap.shapes, hlive]
        rfl
    | none =>
      cases hdesired : desired.get name with
      | none => simp only [TableMap.shapes, between, hlive, hdesired, Option.map_none]
      | some desiredTable =>
        obtain ⟨hmem, rfl⟩ := TableMap.get_eq_some.mp hdesired
        refine absurd (List.mem_map_of_mem (List.mem_filter.mpr ⟨hmem, ?_⟩)) hname
        rw [hlive]
        rfl

/-- The tables that the last steps drop. -/
theorem drops_tables {order : List QualifiedTableName} {drops : List Step}
    (h : List.Forall₂ (Drops live) order drops) :
    ∃ tables : List TableSchema, tables.map (·.name) = order ∧ (∀ table ∈ tables, table ∈ live.tables) ∧
      drops.map (·.operation) = tables.map .dropTable := by
  induction h with
  | nil => exact ⟨[], rfl, nofun, rfl⟩
  | cons hdrop _ ih =>
    obtain ⟨table, hget, hstep⟩ := hdrop
    obtain ⟨tables, hnames, hmem, hdrops⟩ := ih
    refine ⟨table :: tables, ?_, ?_, ?_⟩
    · rw [List.map_cons, hnames, TableMap.name_of_get hget]
    · exact List.forall_mem_cons.mpr ⟨TableMap.mem_of_get hget, hmem⟩
    · rw [List.map_cons, List.map_cons, hdrops, hstep]

theorem dropTables_chain {order : List QualifiedTableName} {drops : List Step}
    (hretained : rejectPrimaryKeyChanges live desired = .ok ())
    (horder : order.Perm (droppedTables live desired))
    (hdrops : List.Forall₂ (Drops live) order drops) :
    Chain (drops.map (·.operation)) (between atDesired live desired) desired.shapes := by
  obtain ⟨tables, rfl, hmem, hoperations⟩ := drops_tables hdrops
  have hundeclared {table : TableSchema} (htable : table ∈ tables) :
      desired.get table.name = none :=
    (mem_droppedTables.mp (horder.mem_iff.mp (List.mem_map_of_mem htable))).2
  rw [hoperations]
  apply chain_drops
  · exact horder.nodup_iff.mpr droppedTables_nodup
  · intro table htable
    simp only [between, TableMap.get_of_mem (hmem table htable), hundeclared htable]
  · intro table htable
    rw [TableMap.shapes, hundeclared htable, Option.map_none]
  · intro name hname
    cases hlive : live.get name with
    | none => simp only [between, hlive, TableMap.shapes]
    | some liveTable =>
      cases hdesired : desired.get name with
      | none =>
        refine absurd (horder.mem_iff.mpr (mem_droppedTables.mpr ⟨?_, hdesired⟩)) hname
        exact TableMap.mem_keys.mpr ⟨liveTable, hlive⟩
      | some desiredTable =>
        obtain ⟨hfound, rfl⟩ := TableMap.get_eq_some.mp hlive
        have hkey := (rejectPrimaryKeyChanges_ok.mp hretained _ hfound _ hdesired).1
        rw [between_retained hlive hdesired, TableMap.shapes, hdesired, Option.map_some,
          Option.some.injEq]
        exact TableShape.ext rfl hkey

end Plan

end Migration

section Plan

open Migration Diff

variable {live : LiveSchema} {desired : DesiredSchema} {plan : MigrationPlan}

/-- The operations of a plan lead from the live tables to the desired ones, and each of them finds
what it has captured. -/
theorem planDiff_chain (hlive : ∀ table ∈ live.tables.tables, table.DistinctColumns)
    (hkeys : ∀ table ∈ live.tables.tables, table.KeyNamesColumns)
    (hdesired : ∀ table ∈ desired.tables.tables, table.DistinctColumns)
    (hplan : planDiff desired live = .ok plan) :
    Chain plan.up live.tables.shapes desired.tables.shapes := by
  obtain ⟨hretained, -, order, drops, horder, hdrops, hup, -⟩ := planTablesRef_ok hplan
  obtain ⟨hadd, htype, hnull, hdrop⟩ := stage_passes hlive hkeys hdesired hretained
  rw [hup]
  simp only [shapeSteps, List.map_append]
  refine Chain.append ?_ (dropTables_chain hretained (orderDroppedTables_ok horder).1 hdrops)
  exact (((createTables_chain.append hadd.chain).append htype.chain).append hnull.chain).append
    hdrop.chain

/-- There is nothing to plan between tables that agree. -/
theorem planDiff_eq_nil (hlive : ∀ table ∈ live.tables.tables, table.DistinctColumns)
    (hkeys : ∀ table ∈ live.tables.tables, table.KeyNamesColumns)
    (hdesired : ∀ table ∈ desired.tables.tables, table.DistinctColumns)
    (hplan : planDiff desired live = .ok plan)
    (hagree : live.tables.shapes = desired.tables.shapes) : plan.up = [] := by
  obtain ⟨hretained, -, order, drops, horder, hdrops, hup, -⟩ := planTablesRef_ok hplan
  obtain ⟨hadd, htype, hnull, hdrop⟩ := stage_passes hlive hkeys hdesired hretained
  have hself {stage : Stage} (hstage : ∀ column, stage column column = column) :
      between stage live.tables desired.tables = live.tables.shapes := between_self hstage hagree
  rw [hself (by simp [atLive]), hself (by simp [withAdditions])] at hadd
  rw [hself (by simp [withAdditions]), hself (by rintro (_ | _) <;> rfl)] at htype
  rw [hself (by rintro (_ | _) <;> rfl), hself (by simp [withNullability])] at hnull
  rw [hself (by simp [withNullability]), hself (by simp [atDesired])] at hdrop
  have hcreates : createTables live.tables desired.tables = [] := by
    rw [createTables, List.map_eq_nil_iff, List.filter_eq_nil_iff]
    intro table htable
    simp [get_eq_none_of_agree hagree, TableMap.get_of_mem htable]
  obtain rfl : order = [] :=
    (droppedTables_of_agree hagree ▸ (orderDroppedTables_ok horder).1).eq_nil
  cases hdrops
  rw [hup]
  simp only [shapeSteps, List.map_append, hcreates, hadd.eq_nil, htype.eq_nil, hnull.eq_nil,
    hdrop.eq_nil, List.map_nil, List.append_nil]

/-- A plan has no operations exactly where the tables agree. -/
theorem planDiff_isEmpty_iff (hlive : ∀ table ∈ live.tables.tables, table.DistinctColumns)
    (hkeys : ∀ table ∈ live.tables.tables, table.KeyNamesColumns)
    (hdesired : ∀ table ∈ desired.tables.tables, table.DistinctColumns)
    (hplan : planDiff desired live = .ok plan) :
    plan.isEmpty = true ↔ live.tables.shapes = desired.tables.shapes := by
  have hchain := planDiff_chain hlive hkeys hdesired hplan
  rw [MigrationPlan.isEmpty, List.isEmpty_iff]
  constructor
  · intro hempty
    rw [hempty] at hchain
    exact Option.some.inj hchain.run
  · exact planDiff_eq_nil hlive hkeys hdesired hplan

/-- A plan is found where no table is dropped and the keys stay. -/
theorem planDiff_of_retained (hretained : rejectPrimaryKeyChanges live.tables desired.tables = .ok ())
    (hnone : droppedTables live.tables desired.tables = []) :
    ∃ plan, planDiff desired live = .ok plan := by
  have hreferences : rejectRetainedForeignKeyReferences [] live.foreignKeys = .ok () := by
    rw [rejectRetainedForeignKeyReferences, List.find?_eq_none.mpr (by simp)]
    rfl
  have horder : orderDroppedTables [] live.foreignKeys = .ok [] := rfl
  have hdrops : dropTables live.tables [] = .ok [] := rfl
  rw [planDiff, planTablesRef, hretained, hnone, Run.ok_bind]
  dsimp only
  rw [hreferences, Run.ok_bind, horder, Run.ok_bind, hdrops, Run.ok_bind]
  exact ⟨_, rfl⟩

/-- A plan migrates: its operations can be run one after another, they end in the desired tables,
and there are none exactly where nothing is to be done. -/
theorem planDiff_migrates (hlive : ∀ table ∈ live.tables.tables, table.DistinctColumns)
    (hkeys : ∀ table ∈ live.tables.tables, table.KeyNamesColumns)
    (hdesired : ∀ table ∈ desired.tables.tables, table.DistinctColumns)
    (hplan : planDiff desired live = .ok plan) :
    runOperations plan.up live.tables.shapes = some desired.tables.shapes ∧
      (plan.isEmpty = true ↔ live.tables.shapes = desired.tables.shapes) ∧
      ∀ again : LiveSchema, (∀ table ∈ again.tables.tables, table.DistinctColumns) →
        (∀ table ∈ again.tables.tables, table.KeyNamesColumns) →
          again.tables.shapes = desired.tables.shapes →
            ∃ next, planDiff desired again = .ok next ∧ next.isEmpty = true := by
  refine ⟨(planDiff_chain hlive hkeys hdesired hplan).run,
    planDiff_isEmpty_iff hlive hkeys hdesired hplan, fun again hdistinct hagain hagree => ?_⟩
  obtain ⟨next, hnext⟩ := planDiff_of_retained (rejectPrimaryKeyChanges_of_agree hagain hagree)
    (droppedTables_of_agree hagree)
  exact ⟨next, hnext, (planDiff_isEmpty_iff hdistinct hagain hdesired hnext).mpr hagree⟩

section Sample

def accounts : QualifiedTableName := ⟨"public", "accounts"⟩

/-- Accounts with an old column, and a table of sessions. -/
def accountsLive : LiveSchema where
  tables := ⟨[⟨accounts, [⟨"id", .integer, false, 0⟩, ⟨"name", .varChar (some 10), true, 1⟩,
    ⟨"legacy", .text, true, 2⟩], ["id"]⟩, ⟨⟨"public", "sessions"⟩, [⟨"token", .uuid, false, 0⟩], []⟩], by decide⟩
  unsupported := []
  foreignKeys := [⟨"sessions_account_fkey", ⟨"public", "sessions"⟩, accounts⟩]

/-- Accounts whose name changes in type and in nullability, and a table of posts. -/
def accountsSchema : DesiredSchema where
  tables := ⟨[⟨accounts, [⟨"name", .text, false, 0⟩, ⟨"id", .integer, false, 1⟩,
    ⟨"age", .smallInt, true, 2⟩], ["id"]⟩, ⟨⟨"public", "posts"⟩, [⟨"id", .bigInt, false, 0⟩],
    ["id"]⟩], by decide⟩

theorem planDiff_migrates_sample : ∃ plan, planDiff accountsSchema accountsLive = .ok plan ∧
    runOperations plan.up accountsLive.tables.shapes = some accountsSchema.tables.shapes := by
  obtain ⟨plan, hplan⟩ : ∃ plan, planDiff accountsSchema accountsLive = .ok plan := ⟨_, rfl⟩
  exact ⟨plan, hplan, (planDiff_migrates (by decide) (by decide) (by decide) hplan).1⟩

end Sample

/-- The way back: after the operations of a plan, those of its reverse can be run one after another
and end in the tables that were there before. -/
theorem planDiff_reverts (hlive : ∀ table ∈ live.tables.tables, table.DistinctColumns)
    (hkeys : ∀ table ∈ live.tables.tables, table.KeyNamesColumns)
    (hdesired : ∀ table ∈ desired.tables.tables, table.DistinctColumns)
    (hplan : planDiff desired live = .ok plan) :
    ∃ migrated, runOperations plan.up live.tables.shapes = some migrated ∧
      runOperations plan.down migrated = some live.tables.shapes := by
  have hchain := planDiff_chain hlive hkeys hdesired hplan
  obtain ⟨-, -, order, drops, -, -, -, hdown⟩ := planTablesRef_ok hplan
  refine ⟨desired.tables.shapes, hchain.run, ?_⟩
  rw [hdown]
  exact hchain.inverse.run

theorem planDiff_reverts_sample : ∃ plan migrated,
    planDiff accountsSchema accountsLive = .ok plan ∧
      runOperations plan.up accountsLive.tables.shapes = some migrated ∧
        runOperations plan.down migrated = some accountsLive.tables.shapes := by
  obtain ⟨plan, hplan⟩ : ∃ plan, planDiff accountsSchema accountsLive = .ok plan := ⟨_, rfl⟩
  obtain ⟨migrated, hup, hdown⟩ :=
    planDiff_reverts (by decide) (by decide) (by decide) hplan
  exact ⟨plan, migrated, hplan, hup, hdown⟩

end Plan

end Mads
