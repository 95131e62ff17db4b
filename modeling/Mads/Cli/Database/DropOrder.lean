import Mads.Cli.Database.Diff

/-!
# The order in which tables are dropped
-/

namespace Mads

namespace Diff

variable {dropped : List QualifiedTableName} {foreignKeys : List ForeignKeyDependency}

/-- The edges as `(parent, child)`. -/
def dependencyEdges (dropped : List QualifiedTableName) (foreignKeys : List ForeignKeyDependency) :
    List (QualifiedTableName × QualifiedTableName) :=
  (droppedEdges dropped foreignKeys).map fun edge => ((ofLex edge).2, (ofLex edge).1)

theorem mem_dependencyEdges {parent child : QualifiedTableName} :
    (parent, child) ∈ dependencyEdges dropped foreignKeys ↔
      child ∈ dropped ∧ parent ∈ dropped ∧
        ∃ key ∈ foreignKeys, key.child = child ∧ key.parent = parent := by
  simp only [dependencyEdges, droppedEdges, List.mem_map, mem_orderedSet, List.mem_filter,
    decide_eq_true_eq]
  constructor
  · rintro ⟨-, ⟨key, ⟨hkey, hchild, hparent⟩, rfl⟩, heq⟩
    obtain ⟨rfl, rfl⟩ := Prod.mk.inj heq
    exact ⟨hchild, hparent, key, hkey, rfl, rfl⟩
  · rintro ⟨hchild, hparent, key, hkey, rfl, rfl⟩
    exact ⟨_, ⟨key, ⟨hkey, hchild, hparent⟩, rfl⟩, rfl⟩

/-- A successful order holds each dropped table once, with the children of a table before it. -/
theorem orderDroppedTables_ok {order : List QualifiedTableName}
    (h : orderDroppedTables dropped foreignKeys = .ok order) :
    order.Perm dropped ∧
      ∀ front parent back, order = front ++ parent :: back → ∀ key ∈ foreignKeys,
        key.parent = parent → key.child ∈ dropped → key.child ∈ front := by
  obtain ⟨found, hdrain, hgreedy⟩ : ∃ found,
      Frontier.drain id (dropLinks dropped foreignKeys).consumers (dropped.length + 1)
          (Frontier.start id dropped (dropLinks dropped foreignKeys)) [] = some found ∧
        Frontier.Greedy id dropped (dependencyEdges dropped foreignKeys) [] found :=
    Frontier.drain_start Function.injective_id
      (fun parent child hedge => (mem_dependencyEdges.mp hedge).2.1)
      (Nat.lt_succ_self dropped.length)
  rw [orderDroppedTables, hdrain, Run.expect_some, Run.ok_bind] at h
  split at h
  · cases h
  · next hlength =>
    obtain rfl := Except.ok.inj h
    have hperm : found.Perm dropped :=
      (List.subperm_of_subset hgreedy.nodup hgreedy.mem_nodes).perm_of_length_le
        (not_not.mp hlength).ge
    refine ⟨hperm, fun front parent back hsplit key hkey hparent hchild => ?_⟩
    have hmem : parent ∈ dropped := hperm.mem_iff.mp (by simp [hsplit])
    have hedge : (parent, key.child) ∈ dependencyEdges dropped foreignKeys :=
      mem_dependencyEdges.mpr ⟨hchild, hmem, key, hkey, rfl, hparent⟩
    simpa using hgreedy.prerequisite_before hsplit hedge

/-! ## The parts of a plan -/

variable {live desired : TableMap}

/-- All passes but the last. -/
def shapeSteps (live desired : TableMap) : List Step :=
  createTables live desired ++ addColumns live desired ++ alterTypes live desired ++
    alterNullability live desired ++ dropColumns live desired

/-- A step that drops a table of this name. -/
def Drops (live : TableMap) (name : QualifiedTableName) (step : Step) : Prop :=
  ∃ table, live.get name = some table ∧ step.operation = .dropTable table

theorem dropTables_ok {order : List QualifiedTableName} {steps : List Step}
    (h : dropTables live order = .ok steps) : List.Forall₂ (Drops live) order steps := by
  refine (Run.forall₂_of_mapM h).imp fun name step hstep => ?_
  obtain ⟨table, htable, hstep⟩ := Run.bind_eq_ok.mp hstep
  exact ⟨table, Run.expect_eq_ok.mp htable, by rw [← Except.ok.inj hstep]⟩

theorem planTablesRef_ok {unsupported : List UnsupportedObject} {plan : MigrationPlan}
    (h : planTablesRef live unsupported foreignKeys desired = .ok plan) :
    rejectPrimaryKeyChanges live desired = .ok () ∧
      rejectRetainedForeignKeyReferences (droppedTables live desired) foreignKeys = .ok () ∧
      ∃ order drops, orderDroppedTables (droppedTables live desired) foreignKeys = .ok order ∧
        List.Forall₂ (Drops live) order drops ∧
        plan.up = (shapeSteps live desired ++ drops).map (·.operation) ∧
        plan.down = plan.up.reverse.map Operation.inverse := by
  unfold planTablesRef at h
  obtain ⟨⟨⟩, hkeys, h⟩ := Run.bind_eq_ok.mp h
  obtain ⟨⟨⟩, hretained, h⟩ := Run.bind_eq_ok.mp h
  obtain ⟨order, horder, h⟩ := Run.bind_eq_ok.mp h
  obtain ⟨drops, hdrops, h⟩ := Run.bind_eq_ok.mp h
  rw [← Except.ok.inj h]
  exact ⟨hkeys, hretained, order, drops, horder, dropTables_ok hdrops, rfl, rfl⟩

theorem droppedTables_nodup : (droppedTables live desired).Nodup :=
  TableMap.keys_nodup.filter _

theorem mem_droppedTables {name : QualifiedTableName} :
    name ∈ droppedTables live desired ↔ name ∈ live.keys ∧ desired.get name = none := by
  simp [droppedTables]

theorem mem_overRetained {tables others : TableMap}
    {steps : TableSchema → TableSchema → List Step} {step : Step} :
    step ∈ overRetained tables others steps ↔
      ∃ table ∈ tables.tables, ∃ other, others.get table.name = some other ∧
        step ∈ steps table other := by
  rw [overRetained, List.mem_flatMap]
  apply exists_congr
  intro table
  apply and_congr_right
  intro _
  cases others.get table.name <;> simp

/-- No pass but the last drops a table, and only columns of live tables are dropped. -/
theorem mem_shapeSteps {step : Step} (h : step ∈ shapeSteps live desired) :
    (∀ table, step.operation ≠ .dropTable table) ∧
      ∀ name column, step.operation = .dropColumn name column → name ∈ live.keys := by
  simp only [shapeSteps, List.mem_append] at h
  obtain (((h | h) | h) | h) | h := h
  · obtain ⟨table, -, rfl⟩ := List.mem_map.mp h
    exact ⟨nofun, nofun⟩
  · obtain ⟨table, -, other, -, h⟩ := mem_overRetained.mp h
    obtain ⟨column, -, rfl⟩ := List.mem_map.mp h
    exact ⟨nofun, nofun⟩
  · obtain ⟨table, -, other, -, h⟩ := mem_overRetained.mp h
    obtain ⟨pair, -, rfl⟩ := List.mem_map.mp h
    exact ⟨nofun, nofun⟩
  · obtain ⟨table, -, other, -, h⟩ := mem_overRetained.mp h
    obtain ⟨⟨liveColumn, desiredColumn⟩, -, rfl⟩ := List.mem_map.mp h
    cases hnullable : desiredColumn.nullable <;> simp [hnullable]
  · obtain ⟨table, htable, other, -, h⟩ := mem_overRetained.mp h
    obtain ⟨column, -, rfl⟩ := List.mem_map.mp h
    refine ⟨nofun, fun name other heq => ?_⟩
    rw [← (Operation.dropColumn.inj heq).1]
    exact List.mem_map_of_mem htable

end Diff

end Mads
