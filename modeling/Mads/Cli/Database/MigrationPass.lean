import Mads.Cli.Database.Migration

/-!
# The passes of the planner, as runs

Each pass takes the tables that are on both sides from one stage to the next.
-/

namespace Mads

/-- The column that an operation is about. -/
def Operation.target : Operation → Option (QualifiedTableName × String)
  | createTable _ | dropTable _ => none
  | addColumn table column | dropColumn table column => some (table, column.name)
  | alterType table column _ _ | setNotNull table column | dropNotNull table column =>
    some (table, column)

namespace Migration

open Diff

theorem Edits.target {key : List String} {operation : Operation} {table : QualifiedTableName}
    {column : String} {before after : Option ColumnShape}
    (h : Edits key operation table column before after) :
    operation.target = some (table, column) := by
  cases h <;> rfl

/-- Operations on distinct columns that take some tables to others. -/
structure Pass (operations : List Operation) (s t : Shapes) : Prop where
  edits : ∀ operation ∈ operations, ∃ table column before after, s table = some before ∧
    t table = some after ∧ before.primaryKey = after.primaryKey ∧
      Edits before.primaryKey operation table column (before.columns column) (after.columns column)
  distinct : operations.Pairwise (·.target ≠ ·.target)
  unchanged : ∀ table, (s table = none ∧ t table = none) ∨
    ∃ before after, s table = some before ∧ t table = some after ∧
      before.primaryKey = after.primaryKey ∧
        ∀ column, (∀ operation ∈ operations, operation.target ≠ some (table, column)) →
          before.columns column = after.columns column

theorem Pass.done {s t : Shapes} (h : Pass [] s t) : s = t := by
  funext table
  obtain ⟨hs, ht⟩ | ⟨before, after, hs, ht, hkey, hcolumns⟩ := h.unchanged table
  · rw [hs, ht]
  · rw [hs, ht]
    congr 1
    ext1
    · funext column
      exact hcolumns column nofun
    · exact hkey

/-- After the first operation, the others are a pass. -/
theorem Pass.step {operation : Operation} {rest : List Operation} {s t : Shapes}
    (h : Pass (operation :: rest) s t) : ∃ mid, Takes operation s mid ∧ Pass rest mid t := by
  obtain ⟨table, column, before, after, hs, ht, hkey, hedit⟩ := h.edits _ List.mem_cons_self
  obtain ⟨hfirst, hrest⟩ := List.pairwise_cons.mp h.distinct
  refine ⟨_, .edit hs hedit, ?_, hrest, ?_⟩
  · intro other hother
    obtain ⟨otherTable, otherColumn, otherBefore, otherAfter, hs', ht', hkey', hedit'⟩ :=
      h.edits other (List.mem_cons_of_mem _ hother)
    refine ⟨otherTable, otherColumn, ?_⟩
    by_cases htable : otherTable = table
    · subst htable
      obtain rfl := Option.some.inj (hs.symm.trans hs')
      obtain rfl := Option.some.inj (ht.symm.trans ht')
      refine ⟨_, after, Function.update_self _ _ _, ht, hkey, ?_⟩
      have hcolumn : otherColumn ≠ column := by
        rintro rfl
        exact hfirst other hother (hedit.target.trans hedit'.target.symm)
      show Edits before.primaryKey other otherTable otherColumn
        (Function.update before.columns column (after.columns column) otherColumn) _
      rwa [Function.update_of_ne hcolumn]
    · exact ⟨otherBefore, otherAfter, by rwa [Function.update_of_ne htable], ht', hkey', hedit'⟩
  · intro otherTable
    by_cases htable : otherTable = table
    · subst htable
      refine .inr ⟨_, after, Function.update_self _ _ _, ht, hkey, fun otherColumn hnone => ?_⟩
      by_cases hcolumn : otherColumn = column
      · rw [hcolumn]
        exact Function.update_self _ _ _
      · refine (Function.update_of_ne hcolumn _ _).trans ?_
        obtain ⟨hs', -⟩ | ⟨otherBefore, otherAfter, hs', ht', -, hcolumns⟩ :=
          h.unchanged otherTable
        · cases hs.symm.trans hs'
        · obtain rfl := Option.some.inj (hs.symm.trans hs')
          obtain rfl := Option.some.inj (ht.symm.trans ht')
          refine hcolumns otherColumn (List.forall_mem_cons.mpr ⟨?_, hnone⟩)
          rw [hedit.target]
          simpa using fun h => hcolumn h.symm
    · rw [Function.update_of_ne htable]
      refine (h.unchanged otherTable).imp_right ?_
      rintro ⟨otherBefore, otherAfter, hs', ht', hkey', hcolumns⟩
      refine ⟨otherBefore, otherAfter, hs', ht', hkey', fun otherColumn hnone =>
        hcolumns otherColumn (List.forall_mem_cons.mpr ⟨?_, hnone⟩)⟩
      rw [hedit.target]
      simpa using fun h => absurd h.symm htable

theorem Pass.chain {operations : List Operation} {s t : Shapes} (h : Pass operations s t) :
    Chain operations s t := by
  induction operations generalizing s with
  | nil =>
    obtain rfl := h.done
    exact .nil s
  | cons operation rest ih =>
    obtain ⟨mid, hstep, hrest⟩ := h.step
    exact .cons hstep (ih hrest)

/-- A pass between equal tables has nothing to do. -/
theorem Pass.eq_nil {operations : List Operation} {s : Shapes} (h : Pass operations s s) :
    operations = [] := by
  refine List.eq_nil_iff_forall_not_mem.mpr fun operation hmem => ?_
  obtain ⟨table, column, before, after, hs, ht, -, hedit⟩ := h.edits operation hmem
  obtain rfl := Option.some.inj (hs.symm.trans ht)
  exact hedit.ne rfl

/-- Tables that are not there can be created, each under its own name. -/
theorem chain_creates {tables : List TableSchema} {s t : Shapes}
    (hdistinct : (tables.map (·.name)).Nodup) (habsent : ∀ table ∈ tables, s table.name = none)
    (hcreated : ∀ table ∈ tables, t table.name = some table.shape)
    (hrest : ∀ name ∉ tables.map (·.name), s name = t name) :
    Chain (tables.map .createTable) s t := by
  induction tables generalizing s with
  | nil =>
    obtain rfl : s = t := funext fun name => hrest name List.not_mem_nil
    exact .nil s
  | cons first rest ih =>
    obtain ⟨hfirst, hdistinct⟩ := List.nodup_cons.mp hdistinct
    refine .cons (.create first (habsent first List.mem_cons_self)) (ih hdistinct ?_ ?_ ?_)
    · intro table htable
      have hne : table.name ≠ first.name := by
        intro h
        apply hfirst
        show first.name ∈ rest.map (·.name)
        rw [← h]
        exact List.mem_map_of_mem htable
      rw [Function.update_of_ne hne]
      exact habsent table (List.mem_cons_of_mem _ htable)
    · exact fun table htable => hcreated table (List.mem_cons_of_mem _ htable)
    · intro name hname
      by_cases heq : name = first.name
      · rw [heq, Function.update_self, hcreated first List.mem_cons_self]
      · rw [Function.update_of_ne heq]
        exact hrest name (by simpa [heq] using hname)

/-- Tables that are there can be dropped, each once. -/
theorem chain_drops {tables : List TableSchema} {s t : Shapes}
    (hdistinct : (tables.map (·.name)).Nodup)
    (hpresent : ∀ table ∈ tables, s table.name = some table.shape)
    (hdropped : ∀ table ∈ tables, t table.name = none)
    (hrest : ∀ name ∉ tables.map (·.name), s name = t name) :
    Chain (tables.map .dropTable) s t := by
  have hcreates : Chain (tables.reverse.map .createTable) t s := by
    refine chain_creates ?_ ?_ ?_ ?_
    · rw [List.map_reverse]
      exact List.nodup_reverse.mpr hdistinct
    · exact fun table htable => hdropped table (List.mem_reverse.mp htable)
    · exact fun table htable => hpresent table (List.mem_reverse.mp htable)
    · intro name hname
      exact (hrest name (by simpa using hname)).symm
  simpa [Function.comp_def, Operation.inverse] using hcreates.inverse

end Migration

end Mads
