import Mads.Cli.Database.DropOrder
import Mads.Library.DependencyOrder

/-!
# Which tables can be dropped at all

A table can be dropped when no other table refers to it any more. A foreign key of a table to
itself goes with the table, but the planner counts it like any other.
-/

namespace Mads

open Frontier

namespace Diff

variable {dropped : List QualifiedTableName} {foreignKeys : List ForeignKeyDependency}

/-- Each table is dropped when no other table that is still there refers to it. -/
def Feasible (dropped : List QualifiedTableName) (foreignKeys : List ForeignKeyDependency)
    (order : List QualifiedTableName) : Prop :=
  order.Perm dropped ∧ ∀ front table back, order = front ++ table :: back →
    ∀ key ∈ foreignKeys, key.parent = table → key.child ∉ back

/-- Another dropped table refers to a dropped table. -/
def HeldBy (dropped : List QualifiedTableName) (foreignKeys : List ForeignKeyDependency)
    (table other : QualifiedTableName) : Prop :=
  table ∈ dropped ∧ other ∈ dropped ∧ other ≠ table ∧
    ∃ key ∈ foreignKeys, key.parent = table ∧ key.child = other

/-- The edges between different tables. -/
def heldEdges (dropped : List QualifiedTableName) (foreignKeys : List ForeignKeyDependency) :
    List (QualifiedTableName × QualifiedTableName) :=
  (dependencyEdges dropped foreignKeys).filter fun edge => edge.2 ≠ edge.1

theorem mem_heldEdges {table other : QualifiedTableName} :
    (table, other) ∈ heldEdges dropped foreignKeys ↔ HeldBy dropped foreignKeys table other := by
  rw [heldEdges, List.mem_filter, mem_dependencyEdges, decide_eq_true_eq, HeldBy]
  constructor
  · rintro ⟨⟨hother, htable, key, hkey, hchild, hparent⟩, hne⟩
    exact ⟨htable, hother, hne, key, hkey, hparent, hchild⟩
  · rintro ⟨htable, hother, hne, key, hkey, hparent, hchild⟩
    exact ⟨⟨hother, htable, key, hkey, hchild, hparent⟩, hne⟩

/-- An order is feasible when the other tables that refer to a table come before it. -/
theorem feasible_iff (hnodup : dropped.Nodup) {order : List QualifiedTableName} :
    Feasible dropped foreignKeys order ↔ Ordered dropped (heldEdges dropped foreignKeys) order := by
  refine and_congr_right fun hperm => ?_
  have honce : order.Nodup := hperm.nodup_iff.mpr hnodup
  constructor
  · intro h front table back horder other hedge
    obtain ⟨-, hother, hne, key, hkey, hparent, rfl⟩ := mem_heldEdges.mp hedge
    have hmem : key.child ∈ front ++ table :: back := horder ▸ hperm.mem_iff.mpr hother
    rcases List.mem_append.mp hmem with hfront | hback
    · exact hfront
    · rcases List.mem_cons.mp hback with heq | hback
      · exact absurd heq hne
      · exact absurd hback (h front table back horder key hkey hparent)
  · intro h front table back horder key hkey hparent hback
    -- a child after its parent would have to stand before it as well
    have hdrop : ∀ other ∈ front ++ table :: back, other ∈ dropped := fun other hother =>
      hperm.mem_iff.mp (horder ▸ hother)
    rw [horder, List.nodup_append] at honce
    obtain ⟨-, htail, hdisjoint⟩ := honce
    have hne : key.child ≠ table := by
      rintro rfl
      exact (List.nodup_cons.mp htail).1 hback
    have hedge : (table, key.child) ∈ heldEdges dropped foreignKeys :=
      mem_heldEdges.mpr ⟨hdrop table (by simp), hdrop key.child (by simp [hback]), hne, key, hkey,
        hparent, rfl⟩
    have hfront := h front table back horder key.child hedge
    exact hdisjoint key.child hfront key.child (List.mem_cons_of_mem _ hback) rfl

/-- Some order is feasible exactly where no tables refer to one another in a circle. -/
theorem exists_feasible_iff (hnodup : dropped.Nodup) :
    (∃ order, Feasible dropped foreignKeys order) ↔
      ∀ table, ¬ Relation.TransGen (HeldBy dropped foreignKeys) table table := by
  have hedges : (fun table other => (table, other) ∈ heldEdges dropped foreignKeys) =
      HeldBy dropped foreignKeys := by
    funext table other
    exact propext mem_heldEdges
  have hnodes : ∀ table other, (table, other) ∈ heldEdges dropped foreignKeys →
      table ∈ dropped := fun _ _ h => (mem_heldEdges.mp h).1
  have hclosed : ∀ table other, (table, other) ∈ heldEdges dropped foreignKeys →
      other ∈ dropped := fun _ _ h => (mem_heldEdges.mp h).2.1
  rw [← hedges]
  constructor
  · rintro ⟨order, horder⟩
    exact ((feasible_iff hnodup).mp horder).acyclic hnodes
  · intro hacyclic
    obtain ⟨order, -, hgreedy⟩ := drain_start Function.injective_id hnodes
      (Nat.lt_succ_self dropped.length)
    refine ⟨order, (feasible_iff hnodup).mpr (hgreedy.ordered hnodup hclosed fun table _ => ?_)⟩
    exact acc_of_acyclic hnodes hacyclic table

/-! ### What the planner computes -/

/-- The worklist ends without an underflow. It orders the tables where it covers them all, and fails
elsewhere. -/
theorem orderDroppedTables_cases : ∃ found,
    Greedy id dropped (dependencyEdges dropped foreignKeys) [] found ∧
      (found.length = dropped.length → orderDroppedTables dropped foreignKeys = .ok found) ∧
      (found.length ≠ dropped.length → orderDroppedTables dropped foreignKeys =
        Run.fail (diffError "foreign-key cycle among dropped tables is unsupported"
          "dropped tables")) := by
  obtain ⟨found, hdrain, hgreedy⟩ : ∃ found,
      drain id (dropLinks dropped foreignKeys).consumers (dropped.length + 1)
          (start id dropped (dropLinks dropped foreignKeys)) [] = some found ∧
        Greedy id dropped (dependencyEdges dropped foreignKeys) [] found :=
    drain_start Function.injective_id (fun _ _ hedge => (mem_dependencyEdges.mp hedge).2.1)
      (Nat.lt_succ_self dropped.length)
  refine ⟨found, hgreedy, fun hlength => ?_, fun hlength => ?_⟩
  · rw [orderDroppedTables, hdrain, Run.expect_some, Run.ok_bind, if_neg (not_not.mpr hlength)]
    rfl
  · rw [orderDroppedTables, hdrain, Run.expect_some, Run.ok_bind, if_pos hlength]

/-- The planner orders the dropped tables where that is possible, and reports an error where it is
not. -/
def OrdersDrops (dropped : List QualifiedTableName) (foreignKeys : List ForeignKeyDependency) :
    Prop :=
  (∃ order, orderDroppedTables dropped foreignKeys = .ok order ∧
      Feasible dropped foreignKeys order) ∨
    (∃ error, orderDroppedTables dropped foreignKeys = Run.fail error) ∧
      ¬ ∃ order, Feasible dropped foreignKeys order

/-- No dropped table has a foreign key to itself. -/
def NoSelfReference (dropped : List QualifiedTableName)
    (foreignKeys : List ForeignKeyDependency) : Prop :=
  ∀ key ∈ foreignKeys, key.child = key.parent → key.parent ∉ dropped

theorem heldEdges_eq (h : NoSelfReference dropped foreignKeys) :
    heldEdges dropped foreignKeys = dependencyEdges dropped foreignKeys := by
  apply List.filter_eq_self.mpr
  rintro ⟨table, other⟩ hedge
  obtain ⟨-, htable, key, hkey, rfl, rfl⟩ := mem_dependencyEdges.mp hedge
  exact decide_eq_true fun heq => h key hkey heq htable

theorem ordersDrops_of_noSelfReference (hnodup : dropped.Nodup)
    (h : NoSelfReference dropped foreignKeys) : OrdersDrops dropped foreignKeys := by
  obtain ⟨found, hgreedy, hok, hfail⟩ := @orderDroppedTables_cases dropped foreignKeys
  have hclosed : ∀ table other, (table, other) ∈ dependencyEdges dropped foreignKeys →
      other ∈ dropped := fun _ _ hedge => (mem_dependencyEdges.mp hedge).1
  by_cases hlength : found.length = dropped.length
  · left
    refine ⟨found, hok hlength, (feasible_iff hnodup).mpr ⟨?_, fun front table back horder other
      hedge => ?_⟩⟩
    · exact (List.subperm_of_subset hgreedy.nodup hgreedy.mem_nodes).perm_of_length_le hlength.ge
    · rw [heldEdges_eq h] at hedge
      simpa using hgreedy.prerequisite_before horder hedge
  · right
    refine ⟨⟨_, hfail hlength⟩, ?_⟩
    rintro ⟨order, horder⟩
    have hordered := (feasible_iff hnodup).mp horder
    rw [heldEdges_eq h] at hordered
    have hcovered := hgreedy.ordered hnodup hclosed hordered.acc
    exact hlength hcovered.1.length_eq

/-- A table with a foreign key to itself waits for itself. -/
theorem fails_of_selfReference {key : ForeignKeyDependency} (hkey : key ∈ foreignKeys)
    (hself : key.child = key.parent) (hdropped : key.parent ∈ dropped) :
    ∃ error, orderDroppedTables dropped foreignKeys = Run.fail error := by
  obtain ⟨found, hgreedy, -, hfail⟩ := @orderDroppedTables_cases dropped foreignKeys
  have hedge : (key.parent, key.parent) ∈ dependencyEdges dropped foreignKeys :=
    mem_dependencyEdges.mpr ⟨hdropped, hdropped, key, hkey, hself, rfl⟩
  have hmissing : key.parent ∉ found := by
    intro hmem
    obtain ⟨front, back, horder⟩ := List.mem_iff_append.mp hmem
    have hfront : key.parent ∈ front := by simpa using hgreedy.prerequisite_before horder hedge
    have hnodup := hgreedy.nodup
    rw [horder, List.nodup_append] at hnodup
    exact hnodup.2.2 _ hfront _ List.mem_cons_self rfl
  refine ⟨_, hfail fun hlength => hmissing ?_⟩
  have hperm : found.Perm dropped :=
    (List.subperm_of_subset hgreedy.nodup hgreedy.mem_nodes).perm_of_length_le hlength.ge
  exact hperm.mem_iff.mpr hdropped

end Diff

open Diff

/-- The planner orders what can be ordered and rejects what cannot exactly where no dropped table
has a foreign key to itself, or other foreign keys form a circle anyway. -/
theorem drops_ordered_iff {dropped : List QualifiedTableName} (hnodup : dropped.Nodup)
    (foreignKeys : List ForeignKeyDependency) :
    OrdersDrops dropped foreignKeys ↔ NoSelfReference dropped foreignKeys ∨
      ∃ table, Relation.TransGen (HeldBy dropped foreignKeys) table table := by
  constructor
  · intro h
    by_cases hself : NoSelfReference dropped foreignKeys
    · exact .inl hself
    · right
      unfold NoSelfReference at hself
      push Not at hself
      obtain ⟨key, hkey, hsame, hdropped⟩ := hself
      obtain ⟨error, herror⟩ := fails_of_selfReference hkey hsame hdropped
      rcases h with ⟨order, hok, -⟩ | ⟨-, hnone⟩
      · rw [herror] at hok
        cases hok
      · rw [exists_feasible_iff hnodup] at hnone
        push Not at hnone
        exact hnone
  · rintro (hself | hcircle)
    · exact ordersDrops_of_noSelfReference hnodup hself
    · by_cases hself : NoSelfReference dropped foreignKeys
      · exact ordersDrops_of_noSelfReference hnodup hself
      · right
        unfold NoSelfReference at hself
        push Not at hself
        obtain ⟨key, hkey, hsame, hdropped⟩ := hself
        refine ⟨fails_of_selfReference hkey hsame hdropped, ?_⟩
        rw [exists_feasible_iff hnodup]
        push Not
        exact hcircle

/-- A table of pages that refers to its parent page, and one of links between pages. -/
def samplePages : QualifiedTableName := ⟨"public", "pages"⟩
def sampleLinks : QualifiedTableName := ⟨"public", "links"⟩

theorem drops_ordered_iff_sample :
    OrdersDrops [sampleLinks, samplePages]
      [⟨"links_from_fkey", sampleLinks, samplePages⟩, ⟨"links_to_fkey", sampleLinks, samplePages⟩] :=
  (drops_ordered_iff (by decide) _).mpr (.inl (by unfold NoSelfReference; decide))

/-- The foreign key of a table to itself keeps the planner from dropping the table. -/
theorem self_reference_rejected :
    ¬ OrdersDrops [samplePages] [⟨"pages_parent_fkey", samplePages, samplePages⟩] := by
  let key : ForeignKeyDependency := ⟨"pages_parent_fkey", samplePages, samplePages⟩
  obtain ⟨error, herror⟩ := @fails_of_selfReference [samplePages] [key] key
    (List.mem_singleton_self _) rfl (List.mem_singleton_self _)
  rintro (⟨order, hok, -⟩ | ⟨-, hnone⟩)
  · rw [herror] at hok
    cases hok
  · refine hnone ⟨[samplePages], List.Perm.refl _, fun front table back horder key _ _ => ?_⟩
    have hback : back = [] := by
      cases front with
      | nil => exact (List.cons.inj horder).2.symm
      | cons first front => simp at horder
    rw [hback]
    exact List.not_mem_nil

end Mads
