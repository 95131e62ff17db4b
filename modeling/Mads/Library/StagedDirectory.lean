import Mads.Library.FileTree

/-!
# A directory of plain files over a tree

A new directory is filled with files while nothing else changes. Such a directory can be erased or
moved as a whole.
-/

namespace FileTree

/-- What a directory with these files shows at a path below it. -/
def listing (files : List (String × List UInt8)) : Path → Option Entry
  | [] => some .directory
  | [name] => (files.lookup name).map .file
  | _ => none

theorem lookup_cons_eq_ite (name : String) (contents : List UInt8)
    (files : List (String × List UInt8)) (n : String) :
    ((name, contents) :: files).lookup n = if n = name then some contents else files.lookup n := by
  by_cases hn : n = name
  · simp [hn]
  · have hbeq : (n == name) = false := by simpa using hn
    simp [List.lookup_cons, hbeq, hn]

/-- The tree is `base` with a new directory of plain files. -/
structure Holds (base : Tree) (dir : Path) (files : List (String × List UInt8)) (t : Tree) :
    Prop where
  inside : ∀ rest, t.entry (dir ++ rest) = listing files rest
  outside : ∀ p, ¬ dir <+: p → t.entry p = base.entry p

namespace Holds

variable {base t : Tree} {dir : Path} {files : List (String × List UInt8)}

theorem entry_dir (h : Holds base dir files t) : t.entry dir = some .directory := by
  simpa [listing] using h.inside []

/-- A new directory is empty. -/
theorem of_insert (hv : base.Vacant dir) : Holds base dir [] (base.insert dir .directory hv) := by
  constructor
  · intro rest
    cases rest with
    | nil => simp [Tree.insert, listing]
    | cons name rest =>
      have hnone := Tree.entry_eq_none_below hv.1 (List.prefix_append dir (name :: rest))
      have hlisting : listing [] (name :: rest) = none := by cases rest <;> rfl
      rw [hlisting]
      simpa [Tree.insert] using hnone
  · intro p hp
    have hne : p ≠ dir := fun he => hp (he ▸ List.prefix_rfl)
    simp [Tree.insert, hne]

/-- Any entry of the base tree that is not at the place of the directory stays. -/
theorem keeps (h : Holds base dir files t) (hfresh : base.entry dir = none) {p : Path} {e : Entry}
    (hp : base.entry p = some e) : t.entry p = some e := by
  rw [h.outside p ?_, hp]
  intro hbelow
  rw [Tree.entry_eq_none_below hfresh hbelow] at hp
  cases hp

theorem vacant (h : Holds base dir files t) {name : String} (hname : files.lookup name = none) :
    t.Vacant (dir ++ [name]) := by
  refine ⟨?_, by simp, ?_⟩
  · rw [h.inside [name]]
    simp [listing, hname]
  · rw [List.dropLast_concat, Tree.isDir, h.entry_dir]
    rfl

/-- Changing the entry of one name in the directory. -/
theorem update (h : Holds base dir files t) {t' : Tree} {name : String} {contents : List UInt8}
    {files' : List (String × List UInt8)}
    (hentry : t'.entry = Function.update t.entry (dir ++ [name]) (some (.file contents)))
    (hfiles : ∀ n, files'.lookup n = if n = name then some contents else files.lookup n) :
    Holds base dir files' t' := by
  constructor
  · intro rest
    rw [hentry]
    by_cases hrest : rest = [name]
    · subst hrest
      simp [listing, hfiles]
    · have hne : dir ++ rest ≠ dir ++ [name] := by simpa using hrest
      rw [Function.update_of_ne hne, h.inside]
      rcases rest with _ | ⟨n, _ | ⟨m, rest⟩⟩
      · rfl
      · have hn : n ≠ name := by simpa using hrest
        simp [listing, hfiles, hn]
      · rfl
  · intro p hp
    have hne : p ≠ dir ++ [name] := fun he => hp (he ▸ List.prefix_append dir [name])
    rw [hentry, Function.update_of_ne hne, h.outside p hp]

/-- Erasing the directory gives back the tree from before. -/
theorem erase (h : Holds base dir files t) (hfresh : base.entry dir = none) :
    t.erase dir = base := by
  ext1 p
  by_cases hp : dir <+: p
  · rw [Tree.entry_eq_none_below hfresh hp]
    simp [Tree.erase, hp]
  · simp [Tree.erase, hp, h.outside p hp]

/-- Moving the directory to another place is as if it had been made there. -/
theorem move (h : Holds base dir files t) (hfresh : base.entry dir = none) {target : Path}
    (hv : t.Vacant target) (hout : ¬ dir <+: target) :
    Holds base target files (t.move dir target hv hout) := by
  constructor
  · intro rest
    simp [Tree.move, h.inside]
  · intro p hp
    simp only [Tree.move, if_neg hp]
    by_cases hdir : dir <+: p
    · rw [if_pos hdir, Tree.entry_eq_none_below hfresh hdir]
    · rw [if_neg hdir, h.outside p hdir]

/-- A place outside of the directory that was vacant still is. -/
theorem vacant_of_base (h : Holds base dir files t) (hfresh : base.entry dir = none) {p : Path}
    (hout : ¬ dir <+: p) (hv : base.Vacant p) : t.Vacant p := by
  refine ⟨(h.outside p hout).trans hv.1, hv.2.1, ?_⟩
  obtain ⟨e, he, hdir⟩ := (Option.any_eq_true _ _).mp hv.2.2
  rw [Tree.isDir, h.keeps hfresh he]
  exact hdir

/-- What stands at a place outside of the directory stood there before. -/
theorem vacant_base (h : Holds base dir files t) {p : Path} (hv : t.Vacant p)
    (hout : ¬ dir <+: p) : base.entry p = none := by
  rw [← h.outside p hout]
  exact hv.1

end Holds

/-! ### Steps inside and around the directory -/

namespace Op.Meets

variable {always : Tree → Prop} {base : Tree} {dir : Path} {files : List (String × List UInt8)}

/-- A step that only reads. -/
theorem reads {pre : Tree → Prop} {act : Tree → Except ErrorKind Tree}
    (hact : ∀ t t', act t = .ok t' → t' = t) (halways : ∀ t, pre t → always t) :
    Meets (Op.step act (fun _ t => t)) always pre (fun _ => pre) (fun _ => pre) := by
  refine Meets.step ?_ (fun t _ ht _ => ht) (fun t _ _ ht => ⟨ht, halways t ht⟩)
  intro t t' ht hok
  obtain rfl := hact t t' hok
  exact ⟨ht, halways _ ht⟩

theorem openPath {pre : Tree → Prop} {p : Path} (halways : ∀ t, pre t → always t) :
    Meets (Op.openPath p) always pre (fun _ => pre) (fun _ => pre) := by
  refine reads (fun t t' hok => ?_) halways
  by_cases hp : (t.entry p).isSome
  · simpa [hp] using hok.symm
  · simp [hp] at hok

theorem syncAll {pre : Tree → Prop} (halways : ∀ t, pre t → always t) :
    Meets Op.syncAll always pre (fun _ => pre) (fun _ => pre) :=
  reads (fun t t' hok => by simpa using hok.symm) halways

theorem createDir {p : Path} (hbase : always base)
    (hnew : ∀ hv, always (base.insert p .directory hv)) :
    Meets (Op.createDir p) always (· = base) (fun _ t => ∃ hv, t = base.insert p .directory hv)
      (fun _ t => t = base) := by
  refine Meets.step ?_ (fun t _ ht _ => ht) (fun t _ _ ht => ⟨ht, ht ▸ hbase⟩)
  rintro t t' rfl hok
  by_cases hv : t.Vacant p
  · obtain rfl : t.insert p .directory hv = t' := by simpa [hv] using hok
    exact ⟨⟨hv, rfl⟩, hnew hv⟩
  · simp [hv] at hok

variable (halways : ∀ files t, Holds base dir files t → always t)
include halways

theorem createNew {name : String} (hname : files.lookup name = none) :
    Meets (Op.createNew (dir ++ [name])) always (Holds base dir files)
      (fun _ => Holds base dir ((name, []) :: files)) (fun _ => Holds base dir files) := by
  refine Meets.step ?_ (fun t _ ht _ => ht) (fun t _ _ ht => ⟨ht, halways _ t ht⟩)
  intro t t' ht hok
  have hv := ht.vacant hname
  obtain rfl : t.insert (dir ++ [name]) (.file []) hv = t' := by simpa [hv] using hok
  have hnew : Holds base dir ((name, []) :: files) (t.insert (dir ++ [name]) (.file []) hv) := by
    exact ht.update rfl (lookup_cons_eq_ite name [] files)
  exact ⟨hnew, halways _ _ hnew⟩

theorem writeAll {name : String} (contents : List UInt8) :
    Meets (Op.writeAll (dir ++ [name]) contents) always (Holds base dir ((name, []) :: files))
      (fun _ => Holds base dir ((name, contents) :: files))
      (fun _ t => ∃ files', Holds base dir files' t) := by
  have hwritten : ∀ t stored, Holds base dir ((name, []) :: files) t →
      Holds base dir ((name, stored) :: files) (rewritten (dir ++ [name]) stored t) := by
    intro t stored ht
    have hfile : t.entry (dir ++ [name]) = some (.file []) := by
      rw [ht.inside]
      simp [listing]
    have hrewritten : rewritten (dir ++ [name]) stored t =
        t.write (dir ++ [name]) stored [] hfile := by
      unfold rewritten
      split
      · next old hold =>
        obtain rfl : [] = old := by simpa [hfile] using hold
        rfl
      · next hnone => exact absurd hfile (hnone [])
    rw [hrewritten]
    refine ht.update rfl fun n => ?_
    rw [lookup_cons_eq_ite, lookup_cons_eq_ite]
    by_cases hn : n = name
    · rw [if_pos hn, if_pos hn]
    · rw [if_neg hn, if_neg hn, if_neg hn]
  refine Meets.step ?_ (fun t k ht hk => by simp at hk) (fun t n _ ht => ?_)
  · intro t t' ht hok
    obtain rfl : rewritten (dir ++ [name]) contents t = t' := by simpa using hok
    exact ⟨hwritten t contents ht, halways _ _ (hwritten t contents ht)⟩
  · have := hwritten t (contents.take n) ht
    exact ⟨⟨_, this⟩, halways _ _ this⟩

/-- A rename either leaves the directory where it is or takes it to a place that was free. -/
theorem renameNoReplace {target : Path} (hfresh : base.entry dir = none)
    (hout : ¬ dir <+: target)
    (hmoved : ∀ t, Holds base target files t → base.entry target = none → always t) :
    Meets (Op.renameNoReplace dir target) always (Holds base dir files)
      (fun _ t => Holds base target files t ∧ base.entry target = none)
      (fun _ => Holds base dir files) := by
  refine Meets.step ?_ (fun t _ ht _ => ht) (fun t _ _ ht => ⟨ht, halways _ t ht⟩)
  intro t t' ht hok
  have hsome : (t.entry dir).isNone = false := by simp [ht.entry_dir]
  by_cases hv : t.Vacant target
  · obtain rfl : t.move dir target hv hout = t' := by simpa [hsome, hout, hv] using hok
    have hmove := ht.move hfresh hv hout
    have hnone := ht.vacant_base hv hout
    exact ⟨⟨hmove, hnone⟩, hmoved _ hmove hnone⟩
  · simp [hsome, hout, hv] at hok

end Op.Meets

/-! ### The same steps where nothing interrupts -/

namespace Op.Delivers

variable {base : Tree} {dir : Path} {files : List (String × List UInt8)}

theorem createDir {p : Path} (hv : base.Vacant p) :
    Delivers (Op.createDir p) (· = base) (fun _ t => ∃ hv, t = base.insert p .directory hv) := by
  refine .step (Meets.createDir trivial fun _ => trivial) ?_
  rintro t rfl
  exact ⟨_, dif_pos hv⟩

theorem createNew {name : String} (hname : files.lookup name = none) :
    Delivers (Op.createNew (dir ++ [name])) (Holds base dir files)
      (fun _ => Holds base dir ((name, []) :: files)) := by
  refine .step (Meets.createNew (fun _ _ _ => trivial) hname) fun t ht => ?_
  exact ⟨_, dif_pos (ht.vacant hname)⟩

theorem writeAll {name : String} (contents : List UInt8) :
    Delivers (Op.writeAll (dir ++ [name]) contents) (Holds base dir ((name, []) :: files))
      (fun _ => Holds base dir ((name, contents) :: files)) :=
  .step (Meets.writeAll (fun _ _ _ => trivial) contents) fun _ _ => ⟨_, rfl⟩

theorem openPath {pre : Tree → Prop} {p : Path} (hp : ∀ t, pre t → (t.entry p).isSome) :
    Delivers (Op.openPath p) pre (fun _ => pre) :=
  .step (Meets.openPath fun _ _ => trivial) fun t ht => ⟨t, if_pos (hp t ht)⟩

theorem syncAll {pre : Tree → Prop} : Delivers Op.syncAll pre (fun _ => pre) :=
  .step (Meets.syncAll fun _ _ => trivial) fun t _ => ⟨t, rfl⟩

/-- The directory can be moved to a place that was vacant before it was made. -/
theorem renameNoReplace {target : Path} (hfresh : base.entry dir = none)
    (hout : ¬ dir <+: target) (hv : base.Vacant target) :
    Delivers (Op.renameNoReplace dir target) (Holds base dir files)
      (fun _ => Holds base target files) := by
  refine .step ((Meets.renameNoReplace (fun _ _ _ => trivial) hfresh hout
    fun _ _ _ => trivial).weaken (fun _ => id) (fun _ _ h => h.1) (fun _ _ => id)) fun t ht => ?_
  have hvacant : t.Vacant target := ht.vacant_of_base hfresh hout hv
  have hsome : (t.entry dir).isNone = false := by simp [ht.entry_dir]
  exact ⟨t.move dir target hvacant hout, by simp [hsome, hout, hvacant]⟩

end Op.Delivers

end FileTree
