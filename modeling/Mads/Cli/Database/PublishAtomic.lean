import Mads.Cli.Database.Publish
import Mads.Library.StagedDirectory

/-!
# Publication happens as a whole or not at all
-/

namespace Mads

open FileTree

namespace Publish

/-- Everything that was there is still there. -/
def Keeps (before t : Tree) : Prop := ∀ p e, before.entry p = some e → t.entry p = some e

/-- The files of a published migration, the last one written first. -/
def filesOf (rendered : RenderedMigration) : List (String × List UInt8) :=
  [("down.sql", bytes rendered.downSql), ("up.sql", bytes rendered.upSql)]

/-- The error that leaves open whether the migration survives a crash. -/
def Uncertain (error : CliError) : Prop :=
  error.title = "Migration publication durability is uncertain"

theorem not_uncertain (message : String) (kind : ErrorKind) :
    ¬ Uncertain (publicationError message kind) := by
  simp [Uncertain, publicationError, publicationMessage]

/-- `base` is the tree with a migrations directory, which this call created where `created`. -/
inductive Opened (before : Tree) (migrations : Path) : Bool → Tree → Prop
  | present (h : before.isDir migrations) : Opened before migrations false before
  | created (hv : before.Vacant migrations) :
      Opened before migrations true (before.insert migrations .directory hv)

variable {before base : Tree} {migrations : Path} {created : Bool}

theorem keeps_self : Keeps before before := fun _ _ h => h

theorem Opened.keeps (h : Opened before migrations created base) : Keeps before base := by
  cases h with
  | present => exact keeps_self
  | created hv => exact fun p e hp => (Holds.of_insert hv).keeps hv.1 hp

theorem Opened.isDir (h : Opened before migrations created base) : base.isDir migrations := by
  cases h with
  | present hdir => exact hdir
  | created hv => simp [Tree.insert, Tree.isDir, Entry.isDir]

/-- A directory filled over the opened tree keeps what was there. -/
theorem Opened.keeps_holds (h : Opened before migrations created base) {dir : Path}
    (hfresh : base.entry dir = none) {files : List (String × List UInt8)} {t : Tree}
    (ht : Holds base dir files t) : Keeps before t :=
  fun p e hp => ht.keeps hfresh (h.keeps p e hp)

theorem ensureMigrations_meets :
    Op.Meets (ensureMigrations migrations) (Keeps before) (· = before)
      (Opened before migrations) (fun e t => t = before ∧ ¬ Uncertain e) := by
  unfold ensureMigrations
  refine .bind (.attempt (.createDir keeps_self ?_)) ?_
  · exact fun hv p e hp => (Holds.of_insert hv).keeps hv.1 hp
  · intro result
    cases result with
    | ok =>
      refine .pure ?_
      rintro t ⟨hv, rfl⟩
      exact .created hv
    | error kind =>
      -- the answer only counts where the directory is there
      have hpresent : Op.Meets (if kind = .alreadyExists then Op.ask (·.isDir migrations)
          else pure false : Op CliError Bool) (Keeps before) (· = before)
          (fun present t => t = before ∧ (present = true → before.isDir migrations))
          (fun e t => t = before ∧ ¬ Uncertain e) := by
        by_cases hkind : kind = .alreadyExists
        · rw [if_pos hkind]
          refine .ask ?_
          rintro t rfl
          exact ⟨⟨rfl, id⟩, rfl, by simp⟩
        · rw [if_neg hkind]
          refine .pure ?_
          rintro t rfl
          exact ⟨rfl, by simp⟩
      refine .bind hpresent ?_
      · intro present
        cases present with
        | true =>
          refine .pure ?_
          rintro t ⟨rfl, hdir⟩
          exact .present (hdir rfl)
        | false =>
          refine .throw ?_
          rintro t ⟨rfl, -⟩
          exact ⟨rfl, not_uncertain _ _⟩

/-! ### Staging -/

section Stage

variable {always : Tree → Prop} {dir : Path} {files : List (String × List UInt8)}

theorem writeNewFile_meets (halways : ∀ files t, Holds base dir files t → always t) {name : String}
    (contents : List UInt8) (hname : files.lookup name = none) :
    Op.Meets (writeNewFile (dir ++ [name]) contents) always (Holds base dir files)
      (fun _ => Holds base dir ((name, contents) :: files))
      (fun _ t => ∃ files', Holds base dir files' t) := by
  unfold writeNewFile
  refine .bind ((Op.Meets.createNew halways hname).weaken (fun _ => id) (fun _ _ => id)
    (fun _ t ht => ⟨files, ht⟩)) fun _ => ?_
  refine .bind (Op.Meets.writeAll halways contents) fun _ => ?_
  exact (Op.Meets.syncAll (halways _)).weaken (fun _ => id) (fun _ _ => id) (fun _ t ht => ⟨_, ht⟩)

theorem syncDirectory_meets {pre : Tree → Prop} (p : Path) (halways : ∀ t, pre t → always t) :
    Op.Meets (syncDirectory p) always pre (fun _ => pre) (fun _ => pre) := by
  unfold syncDirectory
  refine .bind (.attempt (.bind (.openPath halways) fun _ => .syncAll halways)) fun result => ?_
  rcases result with (_ | _ | _ | _ | _ | _ | _) | _
  all_goals first | exact .pure fun _ => id | exact .throw fun _ => id

end Stage

/-- What the guarded part leaves when it fails: a finished migration that could not be made
durable, or a staging directory. -/
def StageFails (base : Tree) (finalPath temporaryPath : Path) (rendered : RenderedMigration)
    (error : CliError) (t : Tree) : Prop :=
  (Uncertain error ∧ Holds base finalPath (filesOf rendered) t ∧ base.entry finalPath = none) ∨
    (¬ Uncertain error ∧ ∃ files, Holds base temporaryPath files t)

variable {finalPath temporaryPath : Path}

theorem stage_meets (h : Opened before migrations created base) (root : Path)
    (rendered : RenderedMigration) (hfresh : base.entry temporaryPath = none)
    (hout : ¬ temporaryPath <+: finalPath) :
    Op.Meets (stage root rendered finalPath temporaryPath migrations writeNewFile
        (fun _ => pure ()) syncDirectory) (Keeps before) (Holds base temporaryPath [])
      (fun path t => path = finalPath ∧ Holds base finalPath (filesOf rendered) t ∧
        base.entry finalPath = none)
      (StageFails base finalPath temporaryPath rendered) := by
  have hstaged : ∀ files t, Holds base temporaryPath files t → Keeps before t :=
    fun files t => h.keeps_holds hfresh
  have hpublished : ∀ t, Holds base finalPath (filesOf rendered) t ∧ base.entry finalPath = none →
      Keeps before t := fun t ht => h.keeps_holds ht.2 ht.1
  -- before the rename every failure leaves the staging directory
  have hfails : ∀ message (kind : ErrorKind) t, (∃ files, Holds base temporaryPath files t) →
      StageFails base finalPath temporaryPath rendered (publicationError message kind) t :=
    fun message kind t ht => .inr ⟨not_uncertain message kind, ht⟩
  unfold stage
  refine .bind (.mapErr ((writeNewFile_meets hstaged _ rfl).weaken (fun _ => id) (fun _ _ => id)
    (fun kind t => hfails _ kind t))) fun _ => ?_
  refine .bind (.mapErr ((writeNewFile_meets hstaged _ rfl).weaken (fun _ => id)
    (fun _ _ => id) (fun kind t => hfails _ kind t))) fun _ => ?_
  refine .bind (.mapErr ((syncDirectory_meets _ (hstaged _)).weaken (fun _ => id) (fun _ _ => id)
    (fun kind t ht => hfails _ kind t ⟨_, ht⟩))) fun _ => ?_
  have hprepared : Op.Meets (pure () : Op ErrorKind Unit) (Keeps before)
      (Holds base temporaryPath (filesOf rendered))
      (fun _ => Holds base temporaryPath (filesOf rendered))
      (fun _ t => ∃ files, Holds base temporaryPath files t) := .pure fun _ => id
  refine .bind (.mapErr (hprepared.weaken (fun _ => id) (fun _ _ => id)
    (fun kind t => hfails _ kind t))) fun _ => ?_
  refine .bind (.mapErr ((Op.Meets.renameNoReplace hstaged hfresh hout ?_).weaken (fun _ => id)
    (fun _ _ => id) (fun kind t ht => hfails _ kind t ⟨_, ht⟩))) fun _ => ?_
  · exact fun t ht hnone => hpublished t ⟨ht, hnone⟩
  refine .bind (.mapErr ((syncDirectory_meets _ hpublished).weaken (fun _ => id) (fun _ _ => id)
    (fun kind t ht => .inl ⟨rfl, ht⟩))) fun _ => ?_
  exact .pure fun t ht => ⟨rfl, ht⟩

/-! ### Cleaning up -/

/-- Where this call created the migrations directory and it is empty, it is removed again. -/
theorem removeMigrations_meets {fails : CliError → Tree → Prop}
    (h : Opened before migrations created base) :
    Op.Meets (removeCreated created migrations) (Keeps before) (· = base)
      (fun _ t => t = before) fails := by
  cases h with
  | present => exact .pure fun t ht => ht
  | created hv =>
    have hbare : (before.insert migrations .directory hv).Bare migrations := by
      intro p hp hbelow
      by_contra hne
      rw [Tree.mem_paths] at hp
      simp [Tree.insert, hne, Tree.entry_eq_none_below hv.1 hbelow] at hp
    have hentry : (before.insert migrations .directory hv).entry migrations = some .directory :=
      (Holds.of_insert hv).entry_dir
    refine .ignore (.certain ?_ ?_)
    · rintro t t' rfl hok
      rw [if_neg (by simp [hentry]), if_neg (by simp [hentry]), if_pos hbare] at hok
      obtain rfl : _ = t' := by simpa using hok
      rw [(Holds.of_insert hv).erase hv.1]
      exact ⟨rfl, keeps_self⟩
    · rintro t k rfl hk
      rw [if_neg (by simp [hentry]), if_neg (by simp [hentry]), if_pos hbare] at hk
      cases hk

theorem drop_staged {fails : CliError → Tree → Prop} (h : Opened before migrations created base)
    (hfresh : base.entry temporaryPath = none) :
    Op.Meets (PublishGuard.drop { temporaryPath, migrations, parentCreated := created })
      (Keeps before) (fun t => ∃ files, Holds base temporaryPath files t)
      (fun _ t => t = before) fails := by
  have hremove : Op.Meets (Op.removeDirAll temporaryPath) (Keeps before)
      (fun t => ∃ files, Holds base temporaryPath files t) (fun _ t => t = base)
      (fun _ t => t = base) := by
    refine .certain ?_ ?_
    · rintro t t' ⟨files, ht⟩ hok
      rw [ht.entry_dir] at hok
      obtain rfl : t.erase temporaryPath = t' := by simpa using hok
      rw [ht.erase hfresh]
      exact ⟨rfl, h.keeps⟩
    · rintro t k ⟨files, ht⟩ hk
      rw [ht.entry_dir] at hk
      cases hk
  exact .bind (.ignore hremove) fun _ => removeMigrations_meets h

/-- After the rename there is no staging directory, and a directory with a migration stays. -/
theorem drop_published {fails : CliError → Tree → Prop} (h : Opened before migrations created base)
    {files : List (String × List UInt8)} {t : Tree} (ht : Holds base finalPath files t)
    (hfresh : base.entry temporaryPath = none) (hout : ¬ finalPath <+: temporaryPath)
    (hbelow : migrations <+: finalPath) (hne : finalPath ≠ migrations) :
    Op.Meets (PublishGuard.drop { temporaryPath, migrations, parentCreated := created })
      (Keeps before) (· = t) (fun _ u => u = t) fails := by
  have hgone : t.entry temporaryPath = none := by rw [ht.outside _ hout, hfresh]
  have hbare : ¬ t.Bare migrations := by
    intro hbare
    refine hne (hbare finalPath ((t.mem_paths _).mpr ?_) hbelow)
    simp [ht.entry_dir]
  have hstaging : Op.Meets (Op.removeDirAll temporaryPath) (Keeps before) (· = t)
      (fun _ u => u = t) (fun _ u => u = t) := by
    refine .certain ?_ fun u k hu _ => hu
    rintro u u' rfl hok
    rw [hgone] at hok
    cases hok
  have hmigrations : Op.Meets (Op.removeDir migrations) (Keeps before) (· = t)
      (fun _ u => u = t) (fun _ u => u = t) := by
    refine .certain ?_ fun u k hu _ => hu
    rintro u u' rfl hok
    by_cases hnone : u.entry migrations = none
    · simp [hnone] at hok
    · by_cases hdir : u.entry migrations = some .directory
      · simp [hdir, hbare] at hok
      · simp [hnone, hdir] at hok
  refine .bind (.ignore hstaging) fun _ => ?_
  cases created with
  | true => exact .ignore hmigrations
  | false => exact .pure fun u hu => hu

/-! ### The whole call -/

/-- The tree after a publication: a directory with the two files is new, together with the
migrations directory where that was missing, and everything else is as before. -/
structure Published (root : Path) (rendered : RenderedMigration) (timestamp : String)
    (before after : Tree) : Prop where
  fresh : before.entry (finalPathOf root timestamp) = none
  directory : after.entry (finalPathOf root timestamp) = some .directory
  up : after.entry (finalPathOf root timestamp ++ ["up.sql"]) =
    some (.file (bytes rendered.upSql))
  down : after.entry (finalPathOf root timestamp ++ ["down.sql"]) =
    some (.file (bytes rendered.downSql))
  exact : ∀ rest, (after.entry (finalPathOf root timestamp ++ rest)).isSome →
    rest ∈ [[], ["up.sql"], ["down.sql"]]
  migrations : after.entry (migrationsOf root) =
    some ((before.entry (migrationsOf root)).getD .directory)
  frame : ∀ p, ¬ finalPathOf root timestamp <+: p → p ≠ migrationsOf root →
    after.entry p = before.entry p

theorem published_of_holds {root : Path} {rendered : RenderedMigration} {timestamp : String}
    {t : Tree} (h : Opened before (migrationsOf root) created base)
    (ht : Holds base (finalPathOf root timestamp) (filesOf rendered) t)
    (hfresh : base.entry (finalPathOf root timestamp) = none) :
    Published root rendered timestamp before t := by
  have hlong : ¬ finalPathOf root timestamp <+: migrationsOf root := by
    intro hprefix
    have := hprefix.length_le
    simp only [finalPathOf, List.length_append, List.length_singleton] at this
    omega
  refine ⟨?_, ht.entry_dir, ?_, ?_, ?_, ?_, fun p hp hne => ?_⟩
  · by_contra hsome
    obtain ⟨e, he⟩ := Option.ne_none_iff_exists'.mp hsome
    rw [h.keeps _ e he] at hfresh
    cases hfresh
  · rw [ht.inside]
    rfl
  · rw [ht.inside]
    rfl
  · intro rest hsome
    rw [ht.inside] at hsome
    rcases rest with _ | ⟨name, _ | ⟨_, _⟩⟩
    · simp
    · by_contra hname
      simp only [List.mem_cons, List.cons.injEq, and_true, List.not_mem_nil, or_false, not_or,
        reduceCtorEq, false_or] at hname
      simp [listing, filesOf, lookup_cons_eq_ite, hname] at hsome
    · simp [listing] at hsome
  · rw [ht.outside _ hlong]
    cases h with
    | present hdir =>
      obtain ⟨e, he, -⟩ := (Option.any_eq_true _ _).mp hdir
      simp [he]
    | created hv => simp [Tree.insert, hv.1]
  · rw [ht.outside p hp]
    cases h with
    | present => rfl
    | created => simp [Tree.insert, hne]

/-- Neither the staging directory nor the final one lies inside the other. -/
theorem paths_apart (root : Path) (timestamp : String) :
    ¬ temporaryPathOf root timestamp <+: finalPathOf root timestamp ∧
      ¬ finalPathOf root timestamp <+: temporaryPathOf root timestamp := by
  have hne : ".mads-" ++ timestamp ++ "-schema-diff.tmp" ≠ timestamp ++ "_schema_diff" := by
    intro h
    have hlength := congrArg String.length h
    have hleft : (".mads-" : String).length = 6 := rfl
    have hmiddle : ("-schema-diff.tmp" : String).length = 16 := rfl
    have hright : ("_schema_diff" : String).length = 12 := rfl
    rw [String.length_append, String.length_append, String.length_append] at hlength
    omega
  unfold temporaryPathOf finalPathOf
  constructor
  · intro hprefix
    have := hprefix.eq_of_length (by simp)
    exact hne (by simpa using this)
  · intro hprefix
    have := hprefix.eq_of_length (by simp)
    exact hne (by simpa using this.symm)

theorem createStaging_meets (h : Opened before migrations created base) :
    Op.Meets (createStaging temporaryPath migrations created) (Keeps before) (· = base)
      (fun _ t => base.entry temporaryPath = none ∧ Holds base temporaryPath [] t)
      (fun error t => ¬ Uncertain error ∧ t = before) := by
  unfold createStaging
  refine .bind (.attempt (.createDir h.keeps fun hv => ?_)) fun result => ?_
  · exact h.keeps_holds hv.1 (Holds.of_insert hv)
  · cases result with
    | ok =>
      refine .pure ?_
      rintro t ⟨hv, rfl⟩
      exact ⟨hv.1, Holds.of_insert hv⟩
    | error kind =>
      exact .bind (removeMigrations_meets h) fun _ =>
        .throw fun t ht => ⟨not_uncertain _ _, ht⟩

theorem checkedTimestamp_eq_ok {clock : Except CliError String} {timestamp : String}
    (h : checkedTimestamp clock = .ok timestamp) : clock = .ok timestamp := by
  cases clock with
  | error => cases h
  | ok text =>
    by_cases hdigits : text.utf8ByteSize = 20 ∧ text.toList.all Char.isDigit
    · rw [← h, checkedTimestamp]
      exact (if_pos hdigits).symm
    · have hfail : checkedTimestamp (.ok text) = .error (publicationMessage
          "the migration clock did not return exactly 20 ASCII digits") := if_neg hdigits
      rw [hfail] at h
      cases h

theorem checkedTimestamp_error {reading : Except ErrorKind ℕ} {error : CliError}
    (h : checkedTimestamp (systemTimestamp reading) = .error error) : ¬ Uncertain error := by
  have hmessage : ∀ message, ¬ Uncertain (publicationMessage message) := fun message => by
    simp [Uncertain, publicationMessage]
  cases hclock : systemTimestamp reading with
  | ok text =>
    rw [hclock] at h
    by_cases hdigits : text.utf8ByteSize = 20 ∧ text.toList.all Char.isDigit
    · have hok : checkedTimestamp (.ok text) = .ok text := if_pos hdigits
      rw [hok] at h
      cases h
    · have hfail : checkedTimestamp (.ok text) = .error (publicationMessage
          "the migration clock did not return exactly 20 ASCII digits") := if_neg hdigits
      rw [hfail] at h
      cases h
      exact hmessage _
  | error cause =>
    rw [hclock] at h
    obtain rfl : cause = error := by injection h
    cases reading with
    | error kind =>
      obtain rfl : publicationError _ kind = cause := by injection hclock
      exact not_uncertain _ _
    | ok nanos =>
      replace hclock : timestampFromNanos nanos = .error cause := hclock
      by_cases hwide : (Nat.toDigits 10 nanos).length > 20
      · rw [timestampFromNanos, if_pos hwide] at hclock
        cases hclock
        exact hmessage _
      · rw [timestampFromNanos, if_neg hwide] at hclock
        cases hclock

/-- What a call leaves when it fails. -/
def Fails (root : Path) (rendered : RenderedMigration) (reading : Except ErrorKind ℕ)
    (before : Tree) (error : CliError) (t : Tree) : Prop :=
  (Uncertain error ∧ ∃ timestamp, systemTimestamp reading = .ok timestamp ∧
    Published root rendered timestamp before t) ∨ (¬ Uncertain error ∧ t = before)

theorem publishMigration_meets (root : Path) (rendered : RenderedMigration)
    (reading : Except ErrorKind ℕ) :
    Op.Meets (publishMigration root rendered reading) (Keeps before) (· = before)
      (fun path t => ∃ timestamp, systemTimestamp reading = .ok timestamp ∧
        path = finalPathOf root timestamp ∧ Published root rendered timestamp before t)
      (Fails root rendered reading before) := by
  unfold publishMigration publishMigrationWithOperations
  have hclock : Op.Meets (Op.ofExcept (checkedTimestamp (systemTimestamp reading))) (Keeps before)
      (· = before) (fun timestamp t => systemTimestamp reading = .ok timestamp ∧ t = before)
      (Fails root rendered reading before) :=
    .ofExcept (fun timestamp t ht hok => ⟨checkedTimestamp_eq_ok hok, ht⟩)
      (fun error t ht herror => .inr ⟨checkedTimestamp_error herror, ht⟩)
  refine .bind hclock fun timestamp => .of_pre fun t₀ ht₀ => ?_
  obtain ⟨hreading, rfl⟩ := ht₀
  obtain ⟨hstaging, hfinal⟩ := paths_apart root timestamp
  refine .bind (ensureMigrations_meets.weaken (fun _ => id) (fun _ _ => id)
    (fun error t ht => .inr ht.symm)) fun created => .of_pre fun base hopened => ?_
  refine .bind ((createStaging_meets hopened).weaken (fun _ => id) (fun _ _ => id)
    (fun error t ht => .inr ht)) fun _ => .of_pre fun staged hstaged => ?_
  obtain ⟨hfresh, hstaged⟩ := hstaged
  refine .bind (.attempt ((stage_meets hopened root rendered hfresh hstaging).weaken
    (fun t ht => ht ▸ hstaged) (fun _ _ => id) (fun _ _ => id))) fun result => ?_
  cases result with
  | ok path =>
    refine .pure ?_
    rintro t ⟨rfl, ht, hnone⟩
    exact ⟨timestamp, hreading, rfl, published_of_holds hopened ht hnone⟩
  | error error =>
    refine .of_pre fun t ht => ?_
    obtain ⟨hsure, ht, hnone⟩ | ⟨hsure, ht⟩ := ht
    · refine .bind (drop_published hopened ht hfresh hfinal (List.prefix_append _ _)
        (by simp [finalPathOf])) fun _ => .throw fun u hu => .inl ⟨hsure, timestamp, hreading, ?_⟩
      rw [hu]
      exact published_of_holds hopened ht hnone
    · refine .bind ((drop_staged hopened hfresh).weaken (fun u hu => hu ▸ ht) (fun _ _ => id)
        (fun _ _ => id)) fun _ => .throw fun u hu => .inr ⟨hsure, hu⟩

/-! ### A call that nothing interrupts -/

/-- Nothing stands at the two places of the migration, and the migrations directory is there or may
be made. -/
structure Ready (root : Path) (timestamp : String) (before : Tree) : Prop where
  migrations : before.isDir (migrationsOf root) ∨ before.Vacant (migrationsOf root)
  final : before.entry (finalPathOf root timestamp) = none
  temporary : before.entry (temporaryPathOf root timestamp) = none

theorem ensureMigrations_delivers (h : before.isDir migrations ∨ before.Vacant migrations) :
    Op.Delivers (ensureMigrations migrations) (· = before) (Opened before migrations) := by
  unfold ensureMigrations
  obtain hdir | hv := h
  · -- the directory is there, which the refused `create_dir` finds out
    intro d hscript hpre
    have hsome : (d.tree.entry migrations).isSome := by
      obtain ⟨e, he, -⟩ := (Option.any_eq_true _ _).mp hdir
      simp [hpre, he]
    have hrefused : (Op.createDir migrations).run' d = (.error .alreadyExists, d) := by
      have hv : ¬ d.tree.Vacant migrations := fun hv => by simp [hv.1] at hsome
      rw [Op.createDir, Op.run'_step hscript, Op.perform, dif_neg hv, Op.refusal, if_pos hsome]
    have hattempt : (Op.attempt (Op.createDir migrations) : Op CliError _).run' d =
        (.ok (.error .alreadyExists), d) := by
      show (Except.ok ((Op.createDir migrations).run' d).1, _) = _
      rw [hrefused]
    refine ⟨false, d, ?_, hscript, ?_⟩
    · rw [Op.run'_bind_ok hattempt]
      simp only [if_pos]
      rw [Op.run'_bind_ok (Op.run'_ask hscript), hpre, hdir]
      rfl
    · rw [hpre]
      exact .present hdir
  · refine .bind (.attempt (.createDir hv)) fun result => ?_
    refine .of_pre fun t₀ ht₀ => ?_
    obtain ⟨-, rfl, -, rfl⟩ := ht₀
    refine .pure ?_
    rintro t rfl
    exact .created hv

theorem writeNewFile_delivers {dir : Path} {files : List (String × List UInt8)} {name : String}
    (contents : List UInt8) (hname : files.lookup name = none) :
    Op.Delivers (writeNewFile (dir ++ [name]) contents) (Holds base dir files)
      (fun _ => Holds base dir ((name, contents) :: files)) := by
  unfold writeNewFile
  exact .bind (.createNew hname) fun _ => .bind (.writeAll contents) fun _ => .syncAll

theorem syncDirectory_delivers {pre : Tree → Prop} {p : Path}
    (hp : ∀ t, pre t → (t.entry p).isSome) :
    Op.Delivers (syncDirectory p) pre (fun _ => pre) := by
  unfold syncDirectory
  refine .bind (.attempt (.bind (.openPath hp) fun _ => .syncAll)) fun result => ?_
  refine .of_pre fun t₀ ht₀ => ?_
  obtain ⟨-, rfl, hpre⟩ := ht₀
  refine .pure ?_
  rintro t rfl
  exact hpre

theorem createStaging_delivers (hv : base.Vacant temporaryPath) :
    Op.Delivers (createStaging temporaryPath migrations created) (· = base)
      (fun _ => Holds base temporaryPath []) := by
  unfold createStaging
  refine .bind (.attempt (.createDir hv)) fun result => .of_pre fun t₀ ht₀ => ?_
  obtain ⟨-, rfl, -, rfl⟩ := ht₀
  refine .pure ?_
  rintro t rfl
  exact Holds.of_insert hv

theorem stage_delivers (h : Opened before migrations created base) (root : Path)
    (rendered : RenderedMigration) (hfresh : base.entry temporaryPath = none)
    (hout : ¬ temporaryPath <+: finalPath) (hv : base.Vacant finalPath) :
    Op.Delivers (stage root rendered finalPath temporaryPath migrations writeNewFile
        (fun _ => pure ()) syncDirectory) (Holds base temporaryPath [])
      (fun path t => path = finalPath ∧ Holds base finalPath (filesOf rendered) t) := by
  have hstaging : ∀ t, Holds base temporaryPath (filesOf rendered) t →
      (t.entry temporaryPath).isSome := fun t ht => by simp [ht.entry_dir]
  have hmigrations : ∀ t, Holds base finalPath (filesOf rendered) t →
      (t.entry migrations).isSome := by
    intro t ht
    obtain ⟨e, he, -⟩ := (Option.any_eq_true _ _).mp h.isDir
    simp [ht.keeps hv.1 he]
  unfold stage
  refine .bind (.mapErr (writeNewFile_delivers _ rfl)) fun _ => ?_
  refine .bind (.mapErr (writeNewFile_delivers _ rfl)) fun _ => ?_
  refine .bind (.mapErr (syncDirectory_delivers hstaging)) fun _ => ?_
  have hprepared : Op.Delivers (pure () : Op ErrorKind Unit)
      (Holds base temporaryPath (filesOf rendered))
      (fun _ => Holds base temporaryPath (filesOf rendered)) := .pure fun _ => id
  refine .bind (.mapErr hprepared) fun _ => ?_
  refine .bind (.mapErr (.renameNoReplace hfresh hout hv)) fun _ => ?_
  refine .bind (.mapErr (syncDirectory_delivers hmigrations)) fun _ => ?_
  exact .pure fun t ht => ⟨rfl, ht⟩

/-- A place in the migrations directory where nothing stood is vacant once that is opened. -/
theorem Opened.vacant (h : Opened before migrations created base) {name : String}
    (hnone : before.entry (migrations ++ [name]) = none) : base.Vacant (migrations ++ [name]) := by
  refine ⟨?_, by simp, by rw [List.dropLast_concat]; exact h.isDir⟩
  cases h with
  | present => exact hnone
  | created hv => simpa [Tree.insert] using hnone

theorem publish_delivers (root : Path) (rendered : RenderedMigration) {timestamp : String}
    {clock : Except CliError String} (hclock : checkedTimestamp clock = .ok timestamp)
    (h : Ready root timestamp before) :
    Op.Delivers (publishMigrationWithOperations root rendered clock writeNewFile
        (fun _ => pure ()) syncDirectory) (· = before)
      (fun path t => path = finalPathOf root timestamp ∧
        Published root rendered timestamp before t) := by
  unfold publishMigrationWithOperations
  rw [hclock]
  have hread : Op.Delivers (Op.ofExcept (.ok timestamp) : Op CliError String) (· = before)
      (fun a t => a = timestamp ∧ t = before) := .ofExcept fun t ht => ⟨rfl, ht⟩
  refine .bind hread fun _ => .of_pre fun t₀ ht₀ => ?_
  obtain ⟨rfl, rfl⟩ := ht₀
  refine .bind (ensureMigrations_delivers h.migrations) fun created =>
    .of_pre fun base hopened => ?_
  have hstaging := hopened.vacant h.temporary
  have hfinal := hopened.vacant h.final
  refine .bind (createStaging_delivers hstaging) fun _ => ?_
  refine .bind (.attempt (stage_delivers hopened root rendered hstaging.1
    (paths_apart root _).1 hfinal)) fun result => .of_pre fun t₀ ht₀ => ?_
  obtain ⟨path, rfl, rfl, ht⟩ := ht₀
  refine .pure ?_
  rintro t rfl
  exact ⟨rfl, published_of_holds hopened ht hfinal.1⟩

/-- A reading of the clock with at most twenty digits is written with exactly twenty. -/
theorem checkedTimestamp_padded {nanos : ℕ} (h : (Nat.toDigits 10 nanos).length ≤ 20) :
    checkedTimestamp (systemTimestamp (.ok nanos)) = .ok (padded nanos) := by
  obtain ⟨hlength, hdigits, -⟩ := leftpad_digits h
  have hread : systemTimestamp (.ok nanos) = .ok (padded nanos) := if_neg (Nat.not_lt.mpr h)
  have hchecked : (padded nanos).utf8ByteSize = 20 ∧ (padded nanos).toList.all Char.isDigit := by
    rw [padded, Decimal.utf8ByteSize_ofList hdigits, hlength, String.toList_ofList]
    exact ⟨rfl, List.all_eq_true.mpr hdigits⟩
  rw [hread]
  exact if_pos hchecked

/-- On a tree with room for the migration a call that nothing interrupts publishes it. -/
theorem publishMigration_delivers (root : Path) (rendered : RenderedMigration) {nanos : ℕ}
    (hnanos : (Nat.toDigits 10 nanos).length ≤ 20) (h : Ready root (padded nanos) before) :
    ∃ after, (publishMigration root rendered (.ok nanos)).run' (.start before []) =
        (.ok (finalPathOf root (padded nanos)), after) ∧
      Published root rendered (padded nanos) before after.tree := by
  obtain ⟨path, after, hrun, -, rfl, hpublished⟩ :=
    publish_delivers root rendered (checkedTimestamp_padded hnanos) h (.start before []) rfl rfl
  exact ⟨after, hrun, hpublished⟩

/-- For every tree and every script of interruptions: at no moment is anything missing that was
there before the call. A call that returns, or that fails without knowing whether the migration
survives a crash, leaves the migration's directory with exactly its two files and nothing else
changed; one that fails otherwise leaves the tree as it was. -/
theorem publishMigration_atomic (root : Path) (rendered : RenderedMigration)
    (reading : Except ErrorKind ℕ) (before : Tree) (script : List (Option Interrupt)) :
    (∀ t ∈ ((publishMigration root rendered reading).run' (.start before script)).2.history,
      Keeps before t) ∧
    match (publishMigration root rendered reading).run' (.start before script) with
    | (.ok path, after) => ∃ timestamp, systemTimestamp reading = .ok timestamp ∧
        path = finalPathOf root timestamp ∧ Published root rendered timestamp before after.tree
    | (.error error, after) =>
      (Uncertain error → ∃ timestamp, systemTimestamp reading = .ok timestamp ∧
        Published root rendered timestamp before after.tree) ∧
      (¬ Uncertain error → after.tree = before) := by
  have hstart : ∀ t ∈ (Disk.start before script).history, Keeps before t := by
    intro t ht
    obtain rfl : t = before := by simpa [Disk.start] using ht
    exact keeps_self
  obtain ⟨hhistory, hresult⟩ := publishMigration_meets root rendered reading
    (.start before script) rfl hstart
  refine ⟨hhistory, ?_⟩
  generalize (publishMigration root rendered reading).run' (.start before script) = outcome
    at hresult
  obtain ⟨error | path, after⟩ := outcome
  · obtain ⟨hsure, hpublished⟩ | ⟨hsure, hsame⟩ := hresult
    · exact ⟨fun _ => hpublished, fun h => absurd hsure h⟩
    · exact ⟨fun h => absurd h hsure, fun _ => hsame⟩
  · exact hresult

end Publish

end Mads
