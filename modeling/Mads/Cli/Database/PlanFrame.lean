import Mads.Cli.Database.MigrationRun

/-!
# Plans leave other tables alone

A plan is made from the tables that the catalog query lists, and it is run on the whole database.
-/

namespace Mads

open Catalog Diff Migration

/-- The tables of one side where the query lists them, and those of the other side elsewhere. -/
def overlay (namespaces : List String) (inner outer : Shapes) : Shapes := fun name =>
  if Queried namespaces name then inner name else outer name

/-- The query lists all of the tables. -/
def Shapes.Within (shapes : Shapes) (namespaces : List String) : Prop :=
  ∀ name, shapes name ≠ none → Queried namespaces name

/-- Every table has a column. -/
def Shapes.Covered (shapes : Shapes) : Prop :=
  ∀ name shape, shapes name = some shape → ∃ column, shape.columns column ≠ none

variable {namespaces : List String} {inner outer s t : Shapes} {name : QualifiedTableName}

theorem overlay_of_queried (h : Queried namespaces name) :
    overlay namespaces inner outer name = inner name :=
  if_pos h

theorem overlay_update (h : Queried namespaces name) (value : Option TableShape) :
    overlay namespaces (Function.update inner name value) outer =
      Function.update (overlay namespaces inner outer) name value := by
  funext other
  by_cases hother : other = name
  · subst hother
    rw [overlay_of_queried h, Function.update_self, Function.update_self]
  · rw [Function.update_of_ne hother, overlay, overlay, Function.update_of_ne hother]

theorem Shapes.Within.update (hwithin : s.Within namespaces) (h : Queried namespaces name)
    (value : Option TableShape) : Shapes.Within (Function.update s name value) namespaces := by
  intro other hsome
  by_cases hother : other = name
  · exact hother ▸ h
  · rw [Function.update_of_ne hother] at hsome
    exact hwithin other hsome

namespace Migration

variable {operation : Operation} {operations : List Operation}

/-- A step on listed tables is the same step on the whole database. -/
theorem Takes.overlay (h : Takes operation s t) (hwithin : s.Within namespaces)
    (hcreate : ∀ table, operation = .createTable table → Queried namespaces table.name)
    (outer : Shapes) :
    Takes operation (overlay namespaces s outer) (overlay namespaces t outer) ∧
      t.Within namespaces := by
  cases h with
  | create table hnone =>
    have hqueried := hcreate table rfl
    rw [overlay_update hqueried]
    refine ⟨.create table ?_, hwithin.update hqueried _⟩
    rw [overlay_of_queried hqueried, hnone]
  | drop table hsome =>
    have hqueried := hwithin table.name (by simp [hsome])
    rw [overlay_update hqueried]
    refine ⟨.drop table ?_, hwithin.update hqueried _⟩
    rw [overlay_of_queried hqueried, hsome]
  | @edit _ _ table column shape after hshape hedit =>
    have hqueried := hwithin table (by simp [hshape])
    rw [overlay_update hqueried]
    refine ⟨.edit ?_ hedit, hwithin.update hqueried _⟩
    rw [overlay_of_queried hqueried, hshape]

theorem Chain.overlay (h : Chain operations s t) (hwithin : s.Within namespaces)
    (hcreate : ∀ table, .createTable table ∈ operations → Queried namespaces table.name)
    (outer : Shapes) :
    Chain operations (overlay namespaces s outer) (overlay namespaces t outer) := by
  induction h with
  | nil s => exact .nil _
  | cons hstep _ ih =>
    obtain ⟨hstep, hmid⟩ := hstep.overlay hwithin
      (fun table heq => hcreate table (heq ▸ List.mem_cons_self)) outer
    exact .cons hstep (ih hmid fun table hmem => hcreate table (List.mem_cons_of_mem _ hmem))

end Migration

/-! ### What is planned -/

/-- What an operation of a plan takes from the live tables and from the declared ones. -/
def Operation.Planned (live desired : TableMap) : Operation → Prop
  | createTable table => table ∈ desired.tables
  | dropTable table => table ∈ live.tables
  | addColumn name column => ∃ table, desired.get name = some table ∧ column ∈ table.columns
  | alterType name column _ «to» => ∃ table, desired.get name = some table ∧
      ∃ found ∈ table.columns, found.name = column ∧ found.sqlType = «to»
  | dropNotNull name column => ∃ table, desired.get name = some table ∧
      ∃ found ∈ table.columns, found.name = column ∧ found.nullable = true
  | dropColumn _ _ | setNotNull _ _ => True

variable {live desired : TableMap}

/-- The columns on both sides are declared, under the name they have. -/
theorem declared_of_common {liveTable desiredTable : TableSchema}
    {pair : ColumnSchema × ColumnSchema} (h : pair ∈ common liveTable desiredTable) :
    pair.2 ∈ desiredTable.columns ∧ pair.2.name = pair.1.name := by
  have hfound : columnsByName desiredTable pair.1.name = some pair.2 := (mem_common.mp h).2
  exact ⟨List.mem_reverse.mp (List.mem_of_find?_eq_some hfound),
    by simpa using List.find?_some hfound⟩

theorem shapeSteps_planned {step : Step} (h : step ∈ shapeSteps live desired) :
    step.operation.Planned live desired := by
  simp only [shapeSteps, List.mem_append] at h
  obtain (((hcreate | hadd) | htype) | hnull) | hdrop := h
  · obtain ⟨table, htable, rfl⟩ := List.mem_map.mp hcreate
    exact (List.mem_filter.mp htable).1
  · obtain ⟨table, htable, other, -, hstep⟩ := mem_overRetained.mp hadd
    obtain ⟨column, hcolumn, rfl⟩ := List.mem_map.mp hstep
    exact ⟨table, TableMap.get_of_mem htable, (mem_additions.mp hcolumn).1⟩
  · obtain ⟨liveTable, -, table, htable, hstep⟩ := mem_overRetained.mp htype
    obtain ⟨pair, hpair, rfl⟩ := List.mem_map.mp hstep
    obtain ⟨hmem, hname⟩ := declared_of_common (List.mem_filter.mp hpair).1
    exact ⟨table, htable, pair.2, hmem, hname, rfl⟩
  · obtain ⟨liveTable, -, table, htable, hstep⟩ := mem_overRetained.mp hnull
    obtain ⟨⟨liveColumn, column⟩, hpair, rfl⟩ := List.mem_map.mp hstep
    obtain ⟨hmem, hname⟩ := declared_of_common (List.mem_filter.mp hpair).1
    cases hnullable : column.nullable with
    | true =>
      simp only [hnullable, if_true]
      exact ⟨table, htable, column, hmem, hname, hnullable⟩
    | false => simp [hnullable, Operation.Planned]
  · obtain ⟨_, -, _, -, hstep⟩ := mem_overRetained.mp hdrop
    obtain ⟨column, -, rfl⟩ := List.mem_map.mp hstep
    trivial

theorem planDiff_planned {desired : DesiredSchema} {live : LiveSchema} {plan : MigrationPlan}
    (hplan : planDiff desired live = .ok plan) :
    ∀ operation ∈ plan.up, operation.Planned live.tables desired.tables := by
  intro operation h
  obtain ⟨-, -, order, drops, -, hdrops, hup, -⟩ := planTablesRef_ok hplan
  rw [hup] at h
  obtain ⟨step, hstep, rfl⟩ := List.mem_map.mp h
  obtain hstep | hstep := List.mem_append.mp hstep
  · exact shapeSteps_planned hstep
  · obtain ⟨name, -, table, htable, hoperation⟩ := exists_of_forall₂ hdrops hstep
    rw [hoperation]
    exact TableMap.mem_of_get htable

end Mads
