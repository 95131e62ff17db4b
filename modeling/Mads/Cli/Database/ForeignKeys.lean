import Mads.Cli.Database.DropOrder

/-!
# Foreign keys to tables that are dropped

The planner sees the foreign keys of the tables that the snapshot asks for.  The database has others.
-/

namespace Mads

open Catalog Diff

/-- A constraint goes with its table, and with each of its columns. -/
def Operation.removesForeignKey (operation : Operation) (key : CatalogForeignKey) : Bool :=
  match operation with
  | dropTable table => key.child = table.name
  | dropColumn table column => key.child = table && column.name ∈ key.columns
  | _ => false

/-- The foreign keys of a database after some operations. -/
def foreignKeysAfter (keys : List CatalogForeignKey) (operations : List Operation) :
    List CatalogForeignKey :=
  operations.foldl (fun keys operation => keys.filter fun key => !operation.removesForeignKey key)
    keys

theorem mem_foreignKeysAfter {keys : List CatalogForeignKey} {operations : List Operation}
    {key : CatalogForeignKey} : key ∈ foreignKeysAfter keys operations ↔
      key ∈ keys ∧ ∀ operation ∈ operations, operation.removesForeignKey key = false := by
  unfold foreignKeysAfter
  induction operations generalizing keys with
  | nil => simp
  | cons operation rest ih =>
    rw [List.foldl_cons, ih, List.mem_filter, Bool.not_eq_true', List.forall_mem_cons, and_assoc]

/-- When a table is dropped, no other table refers to it. -/
def DropsUnreferenced (database : DatabaseCatalog) (up : List Operation) : Prop :=
  ∀ front table back, up = front ++ .dropTable table :: back →
    ∀ key ∈ foreignKeysAfter database.foreignKeys front, key.parent = table.name →
      key.child = table.name

namespace Diff

theorem rejectRetainedForeignKeyReferences_ok {dropped : List QualifiedTableName}
    {foreignKeys : List ForeignKeyDependency}
    (h : rejectRetainedForeignKeyReferences dropped foreignKeys = .ok ())
    {key : ForeignKeyDependency} (hkey : key ∈ foreignKeys) (hparent : key.parent ∈ dropped) :
    key.child ∈ dropped := by
  unfold rejectRetainedForeignKeyReferences at h
  split at h
  · cases h
  · next hnone =>
    have hfound := List.find?_eq_none.mp hnone key hkey
    simpa [hparent] using hfound

end Diff

section Snapshot

variable {database : DatabaseCatalog} {desired : DesiredSchema} {live : LiveSchema}
  {plan : MigrationPlan}

/-- The parts of a plan in which tables are dropped. -/
theorem planDiff_drops (hplan : planDiff desired live = .ok plan) :
    ∃ shape order drops, plan.up = shape ++ drops.map (·.operation) ∧
      (∀ operation ∈ shape, ∀ table, operation ≠ .dropTable table) ∧
      (∀ operation ∈ shape, ∀ key : CatalogForeignKey, operation.removesForeignKey key = true →
        key.child ∈ live.tables.keys) ∧
      List.Forall₂ (Drops live.tables) order drops ∧
      order.Perm (droppedTables live.tables desired.tables) ∧
      ∀ front parent back, order = front ++ parent :: back → ∀ key ∈ live.foreignKeys,
        key.parent = parent → key.child ∈ front := by
  obtain ⟨-, hretained, order, drops, horder, hdrops, hup, -⟩ := planTablesRef_ok hplan
  obtain ⟨hperm, hbefore⟩ := orderDroppedTables_ok horder
  refine ⟨(shapeSteps live.tables desired.tables).map (·.operation), order, drops,
    by rw [hup, List.map_append], ?_, ?_, hdrops, hperm, ?_⟩
  · intro operation hoperation
    obtain ⟨step, hstep, rfl⟩ := List.mem_map.mp hoperation
    exact (mem_shapeSteps hstep).1
  · intro operation hoperation key hremoves
    obtain ⟨step, hstep, rfl⟩ := List.mem_map.mp hoperation
    obtain ⟨hkept, hcolumns⟩ := mem_shapeSteps hstep
    cases hcase : step.operation with
    | dropTable table => exact absurd hcase (hkept table)
    | dropColumn table column =>
      rw [hcase] at hremoves
      obtain ⟨hchild, -⟩ : key.child = table ∧ _ := by
        simpa [Operation.removesForeignKey] using hremoves
      exact hchild ▸ hcolumns table column hcase
    | _ =>
      rw [hcase] at hremoves
      cases hremoves
  · intro front parent back hsplit key hkey hparent
    have hdropped : key.parent ∈ droppedTables live.tables desired.tables :=
      hperm.mem_iff.mp (by simp [hsplit, hparent])
    exact hbefore front parent back hsplit key hkey hparent
      (rejectRetainedForeignKeyReferences_ok hretained hkey hdropped)

/-- Tables are dropped unreferenced exactly where the snapshot asks for every table that refers to
an undeclared one. -/
theorem drops_unreferenced_iff (hload : LiveSchema.load database desired.namespaces = .ok live)
    (hplan : planDiff desired live = .ok plan) :
    DropsUnreferenced database plan.up ↔
      ∀ key ∈ database.foreignKeys, key.child ≠ key.parent →
        Queried desired.namespaces key.parent → desired.tables.get key.parent = none →
          Queried desired.namespaces key.child := by
  obtain ⟨shape, order, drops, hup, hshape, hremoved, hdrops, hperm, hbefore⟩ :=
    planDiff_drops hplan
  constructor
  · -- a key that the snapshot leaves out is still there when its parent is dropped
    intro hunreferenced key hkey hne hparent hundeclared
    by_contra hchild
    have hlost : key.child ∉ live.tables.keys := fun hmem =>
      hchild ((mem_keys_load hload).mp hmem).1
    have horder : key.parent ∈ order := hperm.mem_iff.mpr (mem_droppedTables.mpr
      ⟨(mem_keys_load hload).mpr ⟨hparent, database.parent_exists key hkey⟩, hundeclared⟩)
    obtain ⟨before, after, rfl⟩ := List.append_of_mem horder
    obtain ⟨front, step, back, rfl, hfront, table, htable, hstep⟩ := forall₂_split hdrops.flip
    refine hne ?_
    have hname := TableMap.name_of_get htable
    rw [← hname]
    refine hunreferenced (shape ++ front.map (·.operation)) table (back.map (·.operation)) ?_
      key ?_ hname.symm
    · simp [hup, hstep]
    · refine mem_foreignKeysAfter.mpr ⟨hkey, fun operation hoperation => ?_⟩
      refine Bool.eq_false_iff.mpr fun hremoves => hlost ?_
      obtain hoperation | hoperation := List.mem_append.mp hoperation
      · exact hremoved operation hoperation key hremoves
      · obtain ⟨other, hother, rfl⟩ := List.mem_map.mp hoperation
        obtain ⟨name, -, dropped, hdropped, hcase⟩ := exists_of_forall₂ hfront.flip hother
        rw [hcase] at hremoves
        have hsame : key.child = dropped.name := by
          simpa [Operation.removesForeignKey] using hremoves
        rw [hsame]
        exact List.mem_map_of_mem (TableMap.mem_of_get hdropped)
  · intro hvisible front table back hsplit key hkey hparent
    by_contra hne
    have hkeyed := mem_foreignKeysAfter.mp hkey
    rw [hup] at hsplit
    -- the table is dropped in the last pass
    obtain ⟨middle, rfl, hmiddle⟩ : ∃ middle, front = shape ++ middle ∧
        drops.map (·.operation) = middle ++ .dropTable table :: back := by
      obtain ⟨middle, hfront, hmiddle⟩ | ⟨middle, hfront, hmiddle⟩ :=
        List.append_eq_append_iff.mp hsplit
      · exact ⟨middle, hfront, hmiddle⟩
      · cases middle with
        | nil => exact ⟨[], by simpa using hfront.symm, by simpa using hmiddle.symm⟩
        | cons first rest =>
          obtain ⟨rfl, -⟩ := List.cons.inj hmiddle
          exact absurd rfl (hshape (.dropTable table) (by simp [hfront]) table)
    obtain ⟨before, after, rfl, hbeforeMap, hafter⟩ := List.map_eq_append_iff.mp hmiddle
    obtain ⟨step, rest, rfl, hstep, -⟩ := List.map_eq_cons_iff.mp hafter
    obtain ⟨earlier, name, later, hearlier, hforall, found, hfound, hoperation⟩ :=
      forall₂_split hdrops
    obtain rfl : table = found := Operation.dropTable.inj (hstep.symm.trans hoperation)
    have hname := TableMap.name_of_get hfound
    have horder : name ∈ order := by simp [hearlier]
    have hdropped := mem_droppedTables.mp (hperm.mem_iff.mp horder)
    -- so the snapshot holds the foreign key, and its child was dropped before
    have hqueried : Queried desired.namespaces key.child :=
      hvisible key hkeyed.1 (by rwa [hparent])
        (by rw [hparent, hname]; exact ((mem_keys_load hload).mp hdropped.1).1)
        (by rw [hparent, hname]; exact hdropped.2)
    have hchild : key.child ∈ earlier :=
      hbefore earlier name later hearlier ⟨key.name, key.child, key.parent⟩
        ((mem_foreignKeys_load hload).mpr ⟨key, hkeyed.1, hqueried, rfl⟩) (hparent.trans hname)
    obtain ⟨dropping, hmem, dropped, hget, hcase⟩ := exists_of_forall₂ hforall.flip hchild
    have hkept := hkeyed.2 (.dropTable dropped)
      (List.mem_append_right _ (hbeforeMap ▸ hcase ▸ List.mem_map_of_mem hmem))
    simp [Operation.removesForeignKey, TableMap.name_of_get hget] at hkept

end Snapshot

section Sample

def users : QualifiedTableName := ⟨"public", "users"⟩

def sampleColumn (name : String) : CatalogColumn := ⟨1, name, "integer", false, none, false⟩

def sampleTable (name : QualifiedTableName) (column : String) : TableSchema :=
  ⟨name, [⟨column, .integer, false, 0⟩], []⟩

/-- A log refers to the users. -/
def loggedDatabase (log : QualifiedTableName) : DatabaseCatalog where
  tables := [⟨users, [sampleColumn "id"], [], [], []⟩, ⟨log, [sampleColumn "user_id"], [], [], []⟩]
  foreignKeys := [⟨"log_user_id_fkey", log, users, ["user_id"]⟩]
  child_exists := by simp [sampleColumn]
  parent_exists := by simp [sampleColumn]

def posts : TableSchema := sampleTable ⟨"public", "posts"⟩ "id"

/-- A schema that declares a table of posts, and no users. -/
def postsSchema : DesiredSchema := ⟨⟨[posts], List.pairwise_singleton _ _⟩⟩

/-- The log is dropped with the users, and before them. -/
theorem drops_unreferenced_iff_sample : ∃ live plan,
    LiveSchema.load (loggedDatabase ⟨"public", "log"⟩) postsSchema.namespaces = .ok live ∧
      planDiff postsSchema live = .ok plan ∧
      DropsUnreferenced (loggedDatabase ⟨"public", "log"⟩) plan.up := by
  let log := sampleTable ⟨"public", "log"⟩ "user_id"
  let live : LiveSchema := ⟨⟨[log, sampleTable users "id"], by decide⟩,
    [⟨.foreignKey, log.name, "log_user_id_fkey", ["user_id"]⟩],
    [⟨"log_user_id_fkey", log.name, users⟩]⟩
  have hload : LiveSchema.load (loggedDatabase ⟨"public", "log"⟩) postsSchema.namespaces =
      .ok live := by decide +kernel
  obtain ⟨plan, hplan⟩ : ∃ plan, planDiff postsSchema live = .ok plan := ⟨_, rfl⟩
  exact ⟨live, plan, hload, hplan, (drops_unreferenced_iff hload hplan).mpr (by decide)⟩

/-- A log in another namespace is not seen, and the users are dropped under it. -/
theorem dropped_while_referenced : ∃ live plan,
    LiveSchema.load (loggedDatabase ⟨"audit", "log"⟩) postsSchema.namespaces = .ok live ∧
      planDiff postsSchema live = .ok plan ∧
      ¬ DropsUnreferenced (loggedDatabase ⟨"audit", "log"⟩) plan.up := by
  let live : LiveSchema := ⟨⟨[sampleTable users "id"], List.pairwise_singleton _ _⟩, [], []⟩
  have hload : LiveSchema.load (loggedDatabase ⟨"audit", "log"⟩) postsSchema.namespaces =
      .ok live := by decide +kernel
  let plan : MigrationPlan := ⟨[.createTable posts, .dropTable (sampleTable users "id")],
    [.createTable (sampleTable users "id"), .dropTable posts],
    [⟨"public.users", "dropping a table may discard data; down.sql restores shape, not data"⟩]⟩
  have hplan : planDiff postsSchema live = .ok plan := by decide +kernel
  refine ⟨live, plan, hload, hplan, fun hdrops => ?_⟩
  have hchild := hdrops [.createTable posts] (sampleTable users "id") [] rfl
    ⟨"log_user_id_fkey", ⟨"audit", "log"⟩, users, ["user_id"]⟩ (by decide) rfl
  exact absurd hchild (by decide)

end Sample

end Mads
