import Mads.Cli.Database.MigrationVersion
import Mads.Cli.Database.PostgresRun
import Mads.Common.Database.MigrationOperations
import Mads.Library.Timeline

/-!
# The history of a project's schema

A project whose migrations are all generated, and its database, over edits of the declared schema
and `generate`, `migrate` and `rollback` commands in any order.  The database is an idealised one:
it has its tables, with the types and the nullability of their columns and with their keys, and
nothing else.
-/

namespace Mads

open Catalog Database Migration Timeline

/-- A migration that was generated: when, what it does, and the schema that was declared. -/
structure GeneratedMigration where
  nanos : ℕ
  fits : (Nat.toDigits 10 nanos).length ≤ 20
  plan : MigrationPlan
  wanted : DesiredSchema

/-- The directory that the migration is published in. -/
def GeneratedMigration.directory (generated : GeneratedMigration) : String :=
  Publish.padded generated.nanos ++ "_schema_diff"

structure SchemaHistory where
  wanted : DesiredSchema
  published : List GeneratedMigration
  applied : List String
  tables : Shapes

namespace SchemaHistory

variable (postgres : Postgres) (runner : Runner)

def versionOf (generated : GeneratedMigration) : String := runner.version generated.directory

/-- The migrations directory, as the runner loads it. -/
def source (history : SchemaHistory) : List Migration :=
  runner.load (history.published.map (·.directory))

/-- The `up.sql` of these versions are run, one after another. -/
inductive RunsUp (published : List GeneratedMigration) : List String → Shapes → Shapes → Prop
  | nil (s : Shapes) : RunsUp published [] s s
  | cons {generated : GeneratedMigration} {rest : List String} {s mid last : Shapes}
      (hmem : generated ∈ published) (hrun : postgres.executeAll generated.plan.up s = some mid)
      (hrest : RunsUp published rest mid last) :
      RunsUp published (versionOf runner generated :: rest) s last

inductive Action where
  | edit (wanted : DesiredSchema)
  | generate (nanos : ℕ)
  | migrate (connection : Connection)
  | rollback (connection : Connection)

/-- What becomes of a project and its database. A migration runs in a transaction, so it is run and
recorded, or neither. -/
inductive Performs (s : SchemaHistory) : Action → SchemaHistory → Prop
  | edit (wanted : DesiredSchema) : Performs s (.edit wanted) { s with wanted }
  -- it fails before the migration is published, or the schema is up to date
  | generatesNothing (nanos : ℕ) : Performs s (.generate nanos) s
  | generate {nanos : ℕ} {live : LiveSchema} {plan : MigrationPlan}
      (hfits : (Nat.toDigits 10 nanos).length ≤ 20)
      (hlive : Snapshot postgres s.wanted.namespaces s.tables live)
      (hplan : planDiff s.wanted live = .ok plan) (hne : plan.isEmpty = false) :
      Performs s (.generate nanos)
        { s with published := s.published ++ [⟨nanos, hfits, plan, s.wanted⟩] }
  | migrate {connection : Connection} {versions : List String} {tables : Shapes}
      (happlied : (runPendingMigrations runner (s.source runner) s.applied connection).1 =
        s.applied ++ versions)
      (hruns : RunsUp postgres runner s.published versions s.tables tables) :
      Performs s (.migrate connection) { s with applied := s.applied ++ versions, tables }
  | revertsNothing {connection : Connection}
      (h : (revertLast (s.source runner) s.applied connection).1 = s.applied) :
      Performs s (.rollback connection) s
  | rollback {connection : Connection} {migration : Migration} {generated : GeneratedMigration}
      {tables : Shapes}
      (hfound : revertLastMigration (s.source runner) s.applied = .ok migration)
      (happlied : (revertLast (s.source runner) s.applied connection).1 =
        unapply s.applied migration.version)
      (hmem : generated ∈ s.published) (hversion : versionOf runner generated = migration.version)
      (hrun : postgres.executeAll generated.plan.down s.tables = some tables) :
      Performs s (.rollback connection)
        { s with applied := unapply s.applied migration.version, tables }

/-- The schema can be declared; and a migration is generated where none is pending, later than all
the others. -/
def Orderly (s : SchemaHistory) : Action → Prop
  | .edit wanted => wanted.Declarable postgres
  | .generate nanos => (∀ generated ∈ s.published, generated.nanos < nanos) ∧
      ∀ generated ∈ s.published, versionOf runner generated ∈ s.applied
  | .migrate _ | .rollback _ => True

/-- The histories of a project that starts with these tables and declarations. -/
inductive Reaches (start : Shapes) (first : DesiredSchema) : SchemaHistory → Prop
  | start : Reaches start first ⟨first, [], [], start⟩
  | next {s t : SchemaHistory} {action : Action} (h : Reaches start first s)
      (horderly : Orderly postgres runner s action) (hstep : Performs postgres runner s action t) :
      Reaches start first t

/-! ### Versions -/

variable {postgres} {runner}

theorem versionOf_lt (hdocumented : runner.Documented) {left right : GeneratedMigration}
    (h : left.nanos < right.nanos) : versionOf runner left < versionOf runner right := by
  have hversion (generated : GeneratedMigration) :
      versionOf runner generated = Publish.padded generated.nanos := by
    rw [versionOf, hdocumented.version_eq]
    exact Publish.directoryVersion_published generated.fits
  obtain ⟨hleft, hleftDigits, hleftValue⟩ := Publish.leftpad_digits left.fits
  obtain ⟨hright, hrightDigits, hrightValue⟩ := Publish.leftpad_digits right.fits
  rw [hversion, hversion, String.lt_iff, Publish.padded, Publish.padded, String.toList_ofList,
    String.toList_ofList, Decimal.lt_iff_value_lt (hleft.trans hright.symm) hleftDigits
      hrightDigits, hleftValue, hrightValue]
  exact h

/-- The migrations stand in the order of their times. -/
def Ordered (published : List GeneratedMigration) : Prop := published.Pairwise (·.nanos < ·.nanos)

variable {published : List GeneratedMigration} {count : ℕ}

theorem Ordered.versions (h : Ordered published) (hdocumented : runner.Documented) :
    (published.map (versionOf runner)).Pairwise (· < ·) :=
  List.pairwise_map.mpr (h.imp (versionOf_lt hdocumented))

theorem Ordered.versionOf_inj (h : Ordered published) (hdocumented : runner.Documented)
    {left right : GeneratedMigration} (hleft : left ∈ published) (hright : right ∈ published)
    (heq : versionOf runner left = versionOf runner right) : left = right := by
  have hnodup : (published.map (versionOf runner)).Nodup :=
    (h.versions hdocumented).imp fun hlt => hlt.ne
  exact List.inj_on_of_nodup_map hnodup hleft hright heq

theorem versionsOf_source (history : SchemaHistory) :
    Database.versionsOf (history.source runner) = history.published.map (versionOf runner) := by
  simp only [Database.versionsOf, source, Runner.load, List.map_map]
  rfl

/-- Where the first versions are applied, the others are pending. -/
theorem pendingVersions_of_count (hdocumented : runner.Documented) (hskips : runner.SkipsApplied)
    {history : SchemaHistory} (hordered : Ordered history.published)
    (happlied : history.applied = (history.published.take count).map (versionOf runner)) :
    pendingVersions runner (history.source runner) history.applied =
      (history.published.drop count).map (versionOf runner) := by
  have hversions := hordered.versions hdocumented
  rw [← List.take_append_drop count history.published, List.map_append,
    List.pairwise_append] at hversions
  rw [pendingVersions_eq hdocumented hskips]
  apply orderedSet_eq hversions.2.1
  intro version
  have hsplit : version ∈ Database.versionsOf (history.source runner) ↔
      version ∈ history.applied ∨
        version ∈ (history.published.drop count).map (versionOf runner) := by
    rw [versionsOf_source, happlied, ← List.mem_append, ← List.map_append, List.take_append_drop]
  rw [List.mem_filter, decide_eq_true_eq, hsplit]
  constructor
  · intro hpending
    refine ⟨.inr hpending, fun hold => ?_⟩
    rw [happlied] at hold
    exact (hversions.2.2 version hold version hpending).false
  · rintro ⟨hold | hpending, hnew⟩
    · exact absurd hold hnew
    · exact hpending

/-- What is reverted is the last one that is applied. -/
theorem revertLastMigration_of_count (hdocumented : runner.Documented) {history : SchemaHistory}
    (hordered : Ordered history.published) {last : GeneratedMigration}
    (hlast : history.published[count]? = some last)
    (happlied : history.applied = (history.published.take (count + 1)).map (versionOf runner)) :
    (∃ migration, revertLastMigration (history.source runner) history.applied = .ok migration) ∧
      ∀ migration, revertLastMigration (history.source runner) history.applied = .ok migration →
        migration.version = versionOf runner last ∧
          unapply history.applied migration.version =
            (history.published.take count).map (versionOf runner) := by
  have htake : history.published.take (count + 1) = history.published.take count ++ [last] := by
    rw [List.take_add_one, hlast]
    rfl
  rw [htake, List.map_append] at happlied
  have hfront : Ordered (history.published.take (count + 1)) :=
    hordered.sublist (List.take_sublist _ _)
  have hversions := hfront.versions hdocumented
  rw [htake, List.map_append, List.pairwise_append] at hversions
  have hself : versionOf runner last ∈ [last].map (versionOf runner) := by simp
  have hin : versionOf runner last ∈ history.applied := by simp [happlied]
  have hown : versionOf runner last ∈ Database.versionsOf (history.source runner) := by
    rw [versionsOf_source]
    exact List.mem_map_of_mem (List.mem_of_getElem? hlast)
  constructor
  · cases hfound : revertLastMigration (history.source runner) history.applied with
    | ok migration => exact ⟨migration, rfl⟩
    | error error => exact absurd hin ((revertLastMigration_eq_error hfound).2 _ hown)
  · intro migration hfound
    obtain ⟨-, hreverted, hmax⟩ := revertLastMigration_eq_ok hfound
    have hversion : migration.version = versionOf runner last := by
      rw [happlied, List.mem_append] at hreverted
      obtain hearlier | hreverted := hreverted
      · exact absurd (hmax _ hown hin) (hversions.2.2 _ hearlier _ hself).not_ge
      · simpa using hreverted
    refine ⟨hversion, ?_⟩
    rw [hversion, happlied, unapply, List.filter_append]
    have hkept : ((history.published.take count).map (versionOf runner)).filter
        (· ≠ versionOf runner last) = (history.published.take count).map (versionOf runner) :=
      List.filter_eq_self.mpr fun version hversion =>
        decide_eq_true (hversions.2.2 version hversion _ hself).ne
    rw [hkept]
    simp

/-! ### The stages of a history -/

/-- A migration leads from one database to the next, and its `down.sql` back. -/
structure Leads (postgres : Postgres) (generated : GeneratedMigration) (s t : Shapes) : Prop where
  declarable : generated.wanted.Declarable postgres
  up : Course postgres generated.plan.up s t
  down : generated.plan.down = generated.plan.up.reverse.map Operation.inverse
  result : t = overlay generated.wanted.namespaces generated.wanted.tables.shapes s

section Scripts

variable (hpostgres : postgres.Documented)
include hpostgres

theorem Leads.executeAll_up {generated : GeneratedMigration} {s t : Shapes}
    (h : Leads postgres generated s t) : postgres.executeAll generated.plan.up s =
      if generated.plan.up.all postgres.accepts then some t else none :=
  h.up.executeAll hpostgres

theorem Leads.executeAll_down {generated : GeneratedMigration} {s t : Shapes}
    (h : Leads postgres generated s t) : postgres.executeAll generated.plan.down t =
      if generated.plan.down.all postgres.accepts then some s else none := by
  rw [h.down]
  exact h.up.inverse.executeAll hpostgres

/-- Where all casts are there, the versions of a line can be run to its end. -/
theorem Line.runsUp {items : List GeneratedMigration} {s t : Shapes}
    (h : Line (Leads postgres) items s t) (hsubset : ∀ item ∈ items, item ∈ published)
    (haccepts : ∀ item ∈ items, item.plan.up.all postgres.accepts = true) :
    RunsUp postgres runner published (items.map (versionOf runner)) s t := by
  induction h with
  | nil s => exact .nil s
  | cons hitem _ ih =>
    have hrun := hitem.executeAll_up hpostgres
    rw [if_pos (haccepts _ List.mem_cons_self)] at hrun
    refine .cons (hsubset _ List.mem_cons_self) hrun ?_
    exact ih (fun item hmem => hsubset item (List.mem_cons_of_mem _ hmem))
      fun item hmem => haccepts item (List.mem_cons_of_mem _ hmem)

/-- The versions of a line can be run to its end only. -/
theorem Line.eq_of_runsUp (hdocumented : runner.Documented) (hordered : Ordered published)
    {items : List GeneratedMigration} {s t last : Shapes} (h : Line (Leads postgres) items s t)
    (hsubset : ∀ item ∈ items, item ∈ published)
    (hruns : RunsUp postgres runner published (items.map (versionOf runner)) s last) :
    last = t := by
  generalize hversions : items.map (versionOf runner) = versions at hruns
  induction h generalizing versions with
  | nil s =>
    subst hversions
    cases hruns
    rfl
  | @cons item rest s mid t hitem _ ih =>
    cases hruns with
    | nil => cases hversions
    | @cons generated tail _ mid' _ hmem hrun hrest =>
      obtain ⟨hversion, htail⟩ := List.cons.inj hversions
      obtain rfl : item = generated :=
        hordered.versionOf_inj hdocumented (hsubset item List.mem_cons_self) hmem hversion
      have hmid := hitem.executeAll_up hpostgres
      rw [hrun, eq_comm, Option.ite_none_right_eq_some] at hmid
      obtain rfl := Option.some.inj hmid.2
      exact ih (fun item hmem => hsubset item (List.mem_cons_of_mem _ hmem)) tail htail hrest

end Scripts

/-- The database stands after the applied ones of the published migrations. -/
structure Consistent (postgres : Postgres) (runner : Runner) (start : Shapes)
    (history : SchemaHistory) (count : ℕ) : Prop where
  wanted : history.wanted.Declarable postgres
  ordered : Ordered history.published
  applied : history.applied = (history.published.take count).map (versionOf runner)
  standing : Standing (Leads postgres) start history.published count history.tables

/-- What holds of the tables from the start and of all that are declared. -/
theorem Consistent.forall_tables {start : Shapes} {history : SchemaHistory} {P : TableShape → Prop}
    (h : Consistent postgres runner start history count)
    (hdeclared : ∀ desired : DesiredSchema, desired.Declarable postgres →
      ∀ name shape, desired.tables.shapes name = some shape → P shape)
    (hstart : ∀ name shape, start name = some shape → P shape) :
    ∀ name shape, history.tables name = some shape → P shape := by
  refine h.standing.behind.keeps (P := fun tables : Shapes =>
    ∀ name shape, tables name = some shape → P shape) (fun item _ s t hleads hs => ?_) hstart
  rw [hleads.result]
  exact forall_overlay (hdeclared _ hleads.declarable) hs

theorem Consistent.covered {start : Shapes} {history : SchemaHistory}
    (h : Consistent postgres runner start history count) (hstart : start.Covered) :
    history.tables.Covered :=
  h.forall_tables (fun _ hdeclared => hdeclared.covered) hstart

theorem Consistent.sound {start : Shapes} {history : SchemaHistory}
    (h : Consistent postgres runner start history count) (hstart : start.Sound postgres) :
    history.tables.Sound postgres :=
  h.forall_tables (fun _ hdeclared => hdeclared.sound) hstart

/-- Where none is pending, all are applied. -/
theorem Consistent.count_eq_length (hdocumented : runner.Documented) {start : Shapes}
    {history : SchemaHistory} (h : Consistent postgres runner start history count)
    (hnone : ∀ generated ∈ history.published, versionOf runner generated ∈ history.applied) :
    count = history.published.length := by
  by_contra hne
  have hlt : count < history.published.length := lt_of_le_of_ne h.standing.le hne
  have hpending : history.published[count] ∈ history.published.drop count := by
    rw [List.drop_eq_getElem_cons hlt]
    exact List.mem_cons_self
  have hversions := h.ordered.versions hdocumented
  rw [← List.take_append_drop count history.published, List.map_append,
    List.pairwise_append] at hversions
  have hin := hnone _ (List.getElem_mem hlt)
  rw [h.applied] at hin
  exact (hversions.2.2 _ hin _ (List.mem_map_of_mem hpending)).false

/-- What is appended by migrating are the first of the pending versions. -/
theorem runPendingMigrations_appends {source : List Migration} {applied versions : List String}
    {connection : Connection}
    (h : (runPendingMigrations runner source applied connection).1 = applied ++ versions) :
    ∃ n, versions = (pendingVersions runner source applied).take n := by
  cases connection with
  | refused => exact ⟨0, by simpa [runPendingMigrations] using h⟩
  | broken done => exact ⟨done, (List.append_cancel_left h).symm⟩
  | failing done => exact ⟨done, (List.append_cancel_left h).symm⟩
  | answering =>
    refine ⟨(pendingVersions runner source applied).length, ?_⟩
    rw [List.take_length]
    exact (List.append_cancel_left h).symm

/-- Rolling back moves back over the last of the applied migrations. -/
theorem Consistent.rollback (hpostgres : postgres.Documented) (hdocumented : runner.Documented)
    {start : Shapes} {history : SchemaHistory}
    (h : Consistent postgres runner start history count) {migration : Migration}
    {generated : GeneratedMigration} {tables : Shapes}
    (hfound : revertLastMigration (history.source runner) history.applied = .ok migration)
    (hmem : generated ∈ history.published)
    (hversion : versionOf runner generated = migration.version)
    (hrun : postgres.executeAll generated.plan.down history.tables = some tables) :
    ∃ less, count = less + 1 ∧ Consistent postgres runner start
      { history with applied := unapply history.applied migration.version, tables } less := by
  cases count with
  | zero =>
    obtain ⟨-, hin, -⟩ := revertLastMigration_eq_ok hfound
    rw [h.applied] at hin
    cases hin
  | succ less =>
    obtain ⟨item, before, hitem, hleads, hstanding⟩ := h.standing.back
    obtain ⟨hlast, hunapplied⟩ := (revertLastMigration_of_count hdocumented h.ordered hitem
      h.applied).2 migration hfound
    obtain rfl : generated = item := h.ordered.versionOf_inj hdocumented hmem
      (List.mem_of_getElem? hitem) (hversion.trans hlast)
    have hbefore := hleads.executeAll_down hpostgres
    rw [hrun, eq_comm, Option.ite_none_right_eq_some] at hbefore
    obtain rfl := Option.some.inj hbefore.2
    exact ⟨less, rfl, h.wanted, h.ordered, hunapplied, hstanding⟩

section Steps

variable (hpostgres : postgres.Documented) (hdocumented : runner.Documented)
  (hskips : runner.SkipsApplied)
include hpostgres hdocumented hskips

/-- Migrating moves on over as many of the pending migrations as are run. -/
theorem Consistent.migrate {start : Shapes} {history : SchemaHistory}
    (h : Consistent postgres runner start history count) {connection : Connection}
    {versions : List String} {tables : Shapes}
    (happlied : (runPendingMigrations runner (history.source runner) history.applied
      connection).1 = history.applied ++ versions)
    (hruns : RunsUp postgres runner history.published versions history.tables tables) :
    ∃ more, versions = ((history.published.drop count).take more).map (versionOf runner) ∧
      Consistent postgres runner start
        { history with applied := history.applied ++ versions, tables } (count + more) := by
  obtain ⟨n, rfl⟩ := runPendingMigrations_appends happlied
  rw [pendingVersions_of_count hdocumented hskips h.ordered h.applied, ← List.map_take] at hruns ⊢
  have hmin : (history.published.drop count).take n =
      (history.published.drop count).take (min n (history.published.length - count)) := by
    rw [List.take_eq_take_iff, List.length_drop]
    omega
  refine ⟨min n (history.published.length - count), by rw [hmin], ?_⟩
  have hle := h.standing.le
  obtain ⟨next, hline, hstanding⟩ := h.standing.forward
    (show count + min n (history.published.length - count) ≤ history.published.length by omega)
  have hsubset : ∀ item ∈ (history.published.drop count).take
      (min n (history.published.length - count)), item ∈ history.published :=
    fun item hmem => List.mem_of_mem_drop (List.mem_of_mem_take hmem)
  rw [hmin] at hruns ⊢
  obtain rfl := Line.eq_of_runsUp hpostgres hdocumented h.ordered hline hsubset hruns
  refine ⟨h.wanted, h.ordered, ?_, hstanding⟩
  rw [h.applied, ← List.map_append, ← List.take_add]

theorem Consistent.performs {start : Shapes} {s t : SchemaHistory} {action : Action}
    (hsound : start.Sound postgres) (hcovered : start.Covered)
    (h : Consistent postgres runner start s count) (horderly : Orderly postgres runner s action)
    (hstep : Performs postgres runner s action t) :
    ∃ count, Consistent postgres runner start t count := by
  cases hstep with
  | edit wanted => exact ⟨count, horderly, h.ordered, h.applied, h.standing⟩
  | generatesNothing => exact ⟨count, h⟩
  | @generate nanos live plan hfits hlive hplan hne =>
    obtain ⟨hlater, hnone⟩ := horderly
    have hcount := h.count_eq_length hdocumented hnone
    subst hcount
    have hleads : Leads postgres ⟨nanos, hfits, plan, s.wanted⟩ s.tables
        (overlay s.wanted.namespaces s.wanted.tables.shapes s.tables) := by
      obtain ⟨-, -, -, -, -, -, -, hdown⟩ := Diff.planTablesRef_ok hplan
      have hcourse := planDiff_overlay hpostgres h.wanted hlive (h.sound hsound)
        (h.covered hcovered) hplan
      exact ⟨h.wanted, hcourse, hdown, rfl⟩
    refine ⟨s.published.length, h.wanted, ?_, ?_, h.standing.grow hleads⟩
    · refine List.pairwise_append.mpr ⟨h.ordered, List.pairwise_singleton _ _, ?_⟩
      intro earlier hearlier later hlast
      rw [List.mem_singleton.mp hlast]
      exact hlater earlier hearlier
    · rw [List.take_left]
      exact h.applied.trans (by rw [List.take_length])
  | migrate happlied hruns =>
    obtain ⟨more, -, hnext⟩ := h.migrate hpostgres hdocumented hskips happlied hruns
    exact ⟨count + more, hnext⟩
  | revertsNothing => exact ⟨count, h⟩
  | rollback hfound happlied hmem hversion hrun =>
    obtain ⟨less, -, hnext⟩ := h.rollback hpostgres hdocumented hfound hmem hversion hrun
    exact ⟨less, hnext⟩

theorem Reaches.consistent {start : Shapes} {first : DesiredSchema} {history : SchemaHistory}
    (hfirst : first.Declarable postgres) (hsound : start.Sound postgres) (hcovered : start.Covered)
    (h : Reaches postgres runner start first history) :
    ∃ count, Consistent postgres runner start history count := by
  induction h with
  | start => exact ⟨0, hfirst, .nil, rfl, .nil start⟩
  | next _ horderly hstep ih =>
    obtain ⟨count, hcount⟩ := ih
    exact hcount.performs hpostgres hdocumented hskips hsound hcovered horderly hstep

/-! ### What a maintainer may rely on -/

variable (runner) in
/-- The last published migration that is applied. -/
def current (history : SchemaHistory) : Option GeneratedMigration :=
  (history.published.filter fun generated =>
    versionOf runner generated ∈ history.applied).getLast?

omit hpostgres hskips in
theorem Consistent.current_eq {start : Shapes} {history : SchemaHistory}
    (h : Consistent postgres runner start history count) :
    history.current runner = (history.published.take count).getLast? := by
  have hversions := h.ordered.versions hdocumented
  rw [← List.take_append_drop count history.published, List.map_append,
    List.pairwise_append] at hversions
  have hfront : (history.published.take count).filter (fun generated =>
      versionOf runner generated ∈ history.applied) = history.published.take count := by
    refine List.filter_eq_self.mpr fun generated hmem => decide_eq_true ?_
    rw [h.applied]
    exact List.mem_map_of_mem hmem
  have hback : (history.published.drop count).filter (fun generated =>
      versionOf runner generated ∈ history.applied) = [] := by
    refine List.filter_eq_nil_iff.mpr fun generated hmem happlied => ?_
    have happlied := of_decide_eq_true happlied
    rw [h.applied] at happlied
    exact (hversions.2.2 _ happlied _ (List.mem_map_of_mem hmem)).false
  have hsplit : history.published.filter (fun generated =>
      versionOf runner generated ∈ history.applied) = history.published.take count := by
    conv_lhs => rw [← List.take_append_drop count history.published]
    rw [List.filter_append, hfront, hback, List.append_nil]
  rw [current, hsplit]

omit hpostgres hskips in
theorem Consistent.tables_of_current {start : Shapes} {history : SchemaHistory}
    (h : Consistent postgres runner start history count) :
    (history.current runner = none → history.tables = start) ∧
      ∀ generated, history.current runner = some generated → ∀ name,
        Queried generated.wanted.namespaces name →
          history.tables name = generated.wanted.tables.shapes name := by
  rw [h.current_eq hdocumented]
  cases count with
  | zero =>
    have hbehind := h.standing.behind
    rw [List.take_zero] at hbehind ⊢
    refine ⟨fun _ => ?_, fun generated hnone => by simp at hnone⟩
    cases hbehind
    rfl
  | succ count =>
    obtain ⟨item, before, hitem, hleads, -⟩ := h.standing.back
    rw [List.take_add_one, hitem, Option.toList_some, List.getLast?_concat]
    refine ⟨fun hnone => by simp at hnone, fun generated hsome name hqueried => ?_⟩
    obtain rfl := Option.some.inj hsome
    rw [hleads.result, overlay_of_queried hqueried]

/-- Whatever has been migrated and rolled back, and wherever that has failed: the tables that the
last applied migration is about are those that were declared when it was generated. Before the first
one they are those from the start. -/
theorem Reaches.schema_of_applied {start : Shapes} {first : DesiredSchema}
    {history : SchemaHistory} (hfirst : first.Declarable postgres) (hsound : start.Sound postgres)
    (hcovered : start.Covered) (h : Reaches postgres runner start first history) :
    (history.current runner = none → history.tables = start) ∧
      ∀ generated, history.current runner = some generated → ∀ name,
        Queried generated.wanted.namespaces name →
          history.tables name = generated.wanted.tables.shapes name := by
  obtain ⟨count, hconsistent⟩ :=
    h.consistent hpostgres hdocumented hskips hfirst hsound hcovered
  exact hconsistent.tables_of_current hdocumented

theorem Consistent.can_migrate {start : Shapes} {history : SchemaHistory}
    (h : Consistent postgres runner start history count)
    (haccepts : ∀ generated ∈ history.published, versionOf runner generated ∉ history.applied →
      generated.plan.up.all postgres.accepts = true) :
    ∃ next, Performs postgres runner history (.migrate .answering) next := by
  have hle := h.standing.le
  obtain ⟨next, hline, -⟩ := h.standing.forward (n := history.published.length - count) (by omega)
  rw [← List.length_drop, List.take_length] at hline
  have hpending : ∀ item ∈ history.published.drop count,
      versionOf runner item ∉ history.applied := by
    intro item hmem happlied
    have hversions := h.ordered.versions hdocumented
    rw [← List.take_append_drop count history.published, List.map_append,
      List.pairwise_append] at hversions
    rw [h.applied] at happlied
    exact (hversions.2.2 _ happlied _ (List.mem_map_of_mem hmem)).false
  have hruns : RunsUp postgres runner history.published
      ((history.published.drop count).map (versionOf runner)) history.tables next :=
    Line.runsUp hpostgres hline (fun item hmem => List.mem_of_mem_drop hmem)
      fun item hmem => haccepts item (List.mem_of_mem_drop hmem) (hpending item hmem)
  rw [← pendingVersions_of_count hdocumented hskips h.ordered h.applied] at hruns
  exact ⟨_, .migrate rfl hruns⟩

/-- A migration that goes through applies all that is published. -/
theorem Consistent.migrate_answering {start : Shapes} {history next : SchemaHistory}
    (h : Consistent postgres runner start history count)
    (hstep : Performs postgres runner history (.migrate .answering) next) :
    next.applied = history.published.map (versionOf runner) ∧
      next.published = history.published ∧
        ∃ count, Consistent postgres runner start next count := by
  cases hstep with
  | @migrate _ versions tables happlied hruns =>
    have hversions : versions = (history.published.drop count).map (versionOf runner) := by
      rw [← pendingVersions_of_count hdocumented hskips h.ordered h.applied]
      exact (List.append_cancel_left happlied).symm
    obtain ⟨more, -, hnext⟩ := h.migrate hpostgres hdocumented hskips happlied hruns
    refine ⟨?_, rfl, count + more, hnext⟩
    show history.applied ++ versions = _
    rw [h.applied, hversions, ← List.map_append, List.take_append_drop]

omit hskips in
theorem Consistent.can_rollback {start : Shapes} {history : SchemaHistory}
    (h : Consistent postgres runner start history count) (hne : history.applied ≠ [])
    (haccepts : ∀ generated, history.current runner = some generated →
      generated.plan.down.all postgres.accepts = true) :
    ∃ next, Performs postgres runner history (.rollback .answering) next ∧
      next.applied = history.applied.dropLast := by
  cases count with
  | zero => exact absurd h.applied hne
  | succ less =>
    obtain ⟨item, before, hitem, hleads, -⟩ := h.standing.back
    obtain ⟨⟨migration, hfound⟩, hlast⟩ :=
      revertLastMigration_of_count hdocumented h.ordered hitem h.applied
    obtain ⟨hversion, hunapplied⟩ := hlast migration hfound
    have hrevert : (revertLast (history.source runner) history.applied .answering).1 =
        unapply history.applied migration.version := by
      simp only [revertLast, hfound]
    have hcurrent : history.current runner = some item := by
      rw [h.current_eq hdocumented, List.take_add_one, hitem, Option.toList_some,
        List.getLast?_concat]
    have hrun := hleads.executeAll_down hpostgres
    rw [if_pos (haccepts item hcurrent)] at hrun
    refine ⟨_, .rollback hfound hrevert (List.mem_of_getElem? hitem) hversion.symm hrun, ?_⟩
    show unapply history.applied migration.version = _
    rw [hunapplied, h.applied, List.take_add_one, hitem, Option.toList_some, List.map_append,
      List.map_singleton, List.dropLast_concat]

/-- Where PostgreSQL has the casts, migrating can always go through. Where it does, all migrations
are applied, and if the schema is still the one that the last of them was generated for, there is
nothing more to generate. And where a migration is applied, rolling the last one back can go
through. -/
theorem Reaches.moves {start : Shapes} {first : DesiredSchema} {history : SchemaHistory}
    (hfirst : first.Declarable postgres) (hsound : start.Sound postgres) (hcovered : start.Covered)
    (h : Reaches postgres runner start first history) :
    ((∀ generated ∈ history.published, versionOf runner generated ∉ history.applied →
        generated.plan.up.all postgres.accepts = true) →
      ∃ next, Performs postgres runner history (.migrate .answering) next) ∧
      (∀ next, Performs postgres runner history (.migrate .answering) next →
        next.applied = history.published.map (versionOf runner) ∧
          ∀ generated, history.published.getLast? = some generated →
            generated.wanted = history.wanted → ∀ live,
              Snapshot postgres history.wanted.namespaces next.tables live →
                ∃ plan, planDiff history.wanted live = .ok plan ∧ plan.isEmpty = true) ∧
      (history.applied ≠ [] →
        (∀ generated, history.current runner = some generated →
          generated.plan.down.all postgres.accepts = true) →
        ∃ next, Performs postgres runner history (.rollback .answering) next ∧
          next.applied = history.applied.dropLast) := by
  obtain ⟨count, hconsistent⟩ :=
    h.consistent hpostgres hdocumented hskips hfirst hsound hcovered
  refine ⟨hconsistent.can_migrate hpostgres hdocumented hskips, fun next hstep => ?_,
    fun hne => hconsistent.can_rollback hpostgres hdocumented hne⟩
  obtain ⟨happlied, hpublished, total, hnext⟩ :=
    hconsistent.migrate_answering hpostgres hdocumented hskips hstep
  refine ⟨happlied, fun generated hlast hwanted live hlive => ?_⟩
  have htotal : total = next.published.length := by
    apply hnext.count_eq_length hdocumented
    intro published hmem
    rw [happlied, ← hpublished]
    exact List.mem_map_of_mem hmem
  have hcurrent : next.current runner = some generated := by
    rw [hnext.current_eq hdocumented, htotal, List.take_length, hpublished, hlast]
  rw [← hwanted] at hlive ⊢
  refine planDiff_up_to_date hpostgres (hwanted ▸ hconsistent.wanted) hlive (hnext.sound hsound) ?_
  exact (hnext.tables_of_current hdocumented).2 generated hcurrent

end Steps

/-! ### The accounts, migrated -/

section Sample

/-- A PostgreSQL that runs a statement where it finds what the plan captured, and has all casts; all
types but `json` can be in a key. -/
def samplePostgres : Postgres where
  execute := Operation.apply
  reported := formatType
  casts _ _ := true
  indexes kind := decide (kind ≠ .json)

theorem samplePostgres_documented : samplePostgres.Documented where
  formatType := formatType_spec
  createTable habsent _ _ _ := by simp [samplePostgres, Operation.apply, habsent]
  dropTable hshape := by simp [samplePostgres, Operation.apply, hshape]
  addColumn hshape habsent _ := by
    simp [samplePostgres, Operation.apply, Shapes.editColumn, Shapes.setColumn, hshape, habsent]
  dropColumn hshape hfound hkey := by
    simp [samplePostgres, Operation.apply, Shapes.editColumn, Shapes.setColumn, hshape, hfound,
      hkey]
  alterType hshape hfound _ _ := by
    simp [samplePostgres, Operation.apply, Shapes.editColumn, Shapes.setColumn, hshape, hfound]
  setNotNull hshape hfound := by
    simp [samplePostgres, Operation.apply, Shapes.editColumn, Shapes.setColumn, hshape, hfound]
  dropNotNull hshape hfound _ := by
    simp [samplePostgres, Operation.apply, Shapes.editColumn, Shapes.setColumn, hshape, hfound]

/-- Accounts with an old column, and a table of sessions. -/
def accountsStart : LiveSchema where
  tables := ⟨[⟨accounts, [⟨"id", .integer, false, 0⟩, ⟨"name", .varChar (some 10), true, 1⟩,
    ⟨"legacy", .text, true, 2⟩], ["id"]⟩,
    ⟨⟨"public", "sessions"⟩, [⟨"token", .uuid, false, 0⟩], ["token"]⟩], by decide⟩
  unsupported := []
  foreignKeys := []

theorem samplePostgres_knows (kind : PgType) : samplePostgres.Knows kind := by
  show ∃ text, formatType kind.toSql = some text
  unfold formatType formatScalar
  repeat' split
  all_goals exact ⟨_, rfl⟩

theorem sample_declarable {desired : DesiredSchema}
    (hholdable : ∀ table ∈ desired.tables.tables, table.Holdable)
    (hindexed : ∀ table ∈ desired.tables.tables, ∀ column ∈ table.columns,
      column.name ∈ table.primaryKey → samplePostgres.indexes column.sqlType = true)
    (hconverges : desired.tables.Converges)
    (hrunner : ∀ table ∈ desired.tables.tables, table.name.table ≠ MIGRATIONS_TABLE) :
    desired.Declarable samplePostgres :=
  ⟨hholdable, fun _ _ column _ => samplePostgres_knows column.sqlType, hindexed, hconverges,
    hrunner⟩

theorem accountsSchema_declarable : accountsSchema.Declarable samplePostgres :=
  sample_declarable (by decide) (by decide) (by unfold TableMap.Converges; decide) (by decide)

theorem accountsStart_declarable :
    DesiredSchema.Declarable samplePostgres ⟨accountsStart.tables⟩ :=
  sample_declarable (by decide) (by decide) (by unfold TableMap.Converges; decide) (by decide)

theorem accountsStart_snapshot :
    Snapshot samplePostgres accountsSchema.namespaces accountsStart.tables.shapes
      accountsStart := by
  have hnamespaces : DesiredSchema.namespaces ⟨accountsStart.tables⟩ =
      accountsSchema.namespaces := by decide
  have hqueried (name : QualifiedTableName) (h : accountsStart.tables.shapes name ≠ none) :
      Queried accountsSchema.namespaces name :=
    hnamespaces ▸ accountsStart_declarable.within name h
  refine ⟨fun {name shape} hshape => ?_, fun _ hshape _ => by simp [hshape], ?_⟩
  · have hread := readsBack_self formatType_spec accountsStart_declarable.converges
      (fun _ _ column _ => samplePostgres_knows column.sqlType) name
    rw [hshape] at hread
    refine ⟨hqueried name (by simp [hshape]), shape, hshape,
      accountsStart_declarable.covered name shape hshape, ?_⟩
    cases hread with
    | some hread => exact hread
  · intro table hmem
    have hold := accountsStart_declarable.holdable table hmem
    exact ⟨hold.columns, hold.keyDistinct, hold.keyNamesColumns⟩

theorem reaches_generated : ∃ generated,
    Reaches samplePostgres .byVersion accountsStart.tables.shapes accountsSchema
      ⟨accountsSchema, [generated], [], accountsStart.tables.shapes⟩ ∧
      generated.wanted = accountsSchema := by
  obtain ⟨plan, hplan, hne⟩ : ∃ plan, planDiff accountsSchema accountsStart = .ok plan ∧
      plan.isEmpty = false := ⟨_, rfl, rfl⟩
  have hfits : (Nat.toDigits 10 1788200000123456789).length ≤ 20 := by decide
  refine ⟨⟨1788200000123456789, hfits, plan, accountsSchema⟩, ?_, rfl⟩
  have horderly : Orderly samplePostgres .byVersion
      ⟨accountsSchema, [], [], accountsStart.tables.shapes⟩ (.generate 1788200000123456789) :=
    ⟨by simp, by simp⟩
  exact .next .start horderly (.generate hfits accountsStart_snapshot hplan hne)

theorem accepts_all (operations : List Operation) :
    operations.all samplePostgres.accepts = true := by
  rw [List.all_eq_true]
  intro operation _
  cases operation <;> rfl

theorem reaches_migrated : ∃ history generated,
    Reaches samplePostgres .byVersion accountsStart.tables.shapes accountsSchema history ∧
      history.current .byVersion = some generated ∧ generated.wanted = accountsSchema := by
  obtain ⟨generated, hreaches, hwanted⟩ := reaches_generated
  obtain ⟨count, hconsistent⟩ := hreaches.consistent samplePostgres_documented
    Runner.byVersion_documented Runner.byVersion_skipsApplied accountsSchema_declarable
    accountsStart_declarable.sound accountsStart_declarable.covered
  obtain ⟨next, hstep⟩ := hconsistent.can_migrate samplePostgres_documented
    Runner.byVersion_documented Runner.byVersion_skipsApplied fun _ _ _ => accepts_all _
  obtain ⟨happlied, hpublished, -⟩ := hconsistent.migrate_answering samplePostgres_documented
    Runner.byVersion_documented Runner.byVersion_skipsApplied hstep
  have horderly (history : SchemaHistory) :
      Orderly samplePostgres .byVersion history (.migrate .answering) := trivial
  refine ⟨next, generated, hreaches.next (horderly _) hstep, ?_, hwanted⟩
  rw [current, happlied, hpublished]
  simp

theorem Reaches.schema_of_applied_sample : ∃ history,
    Reaches samplePostgres .byVersion accountsStart.tables.shapes accountsSchema history ∧
      history.tables accounts = accountsSchema.tables.shapes accounts := by
  obtain ⟨history, generated, hreaches, hcurrent, hwanted⟩ := reaches_migrated
  refine ⟨history, hreaches, ?_⟩
  have htables := (Reaches.schema_of_applied samplePostgres_documented Runner.byVersion_documented
    Runner.byVersion_skipsApplied accountsSchema_declarable accountsStart_declarable.sound
    accountsStart_declarable.covered hreaches).2 generated hcurrent
  rw [hwanted] at htables
  exact htables accounts (by decide)

theorem Reaches.moves_sample : ∃ history,
    Reaches samplePostgres .byVersion accountsStart.tables.shapes accountsSchema history ∧
      ∃ next, Performs samplePostgres .byVersion history (.migrate .answering) next := by
  obtain ⟨generated, hreaches, -⟩ := reaches_generated
  exact ⟨_, hreaches, (Reaches.moves samplePostgres_documented Runner.byVersion_documented
    Runner.byVersion_skipsApplied accountsSchema_declarable accountsStart_declarable.sound
    accountsStart_declarable.covered hreaches).1 fun _ _ _ => accepts_all _⟩

end Sample

end SchemaHistory

end Mads
