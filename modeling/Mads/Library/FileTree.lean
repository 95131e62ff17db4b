import Mathlib.Data.Finset.Image
import Mathlib.Data.List.Induction
import Mathlib.Logic.Function.Basic

/-!
# File trees and operations that may be interrupted

A tree maps paths to entries. An operation runs on a disk that holds a tree and a script of the
interruptions to come; whatever happens, the disk keeps the trees it went through. `Meets` states
what an operation does to the tree when it succeeds, when it fails, and at every moment between.
-/

namespace FileTree

abbrev Path := List String

/-- What stands at a path; of a link only whether it leads to a directory is known. -/
inductive Entry where
  | directory
  | file (contents : List UInt8)
  | link (toDirectory : Bool)
  deriving DecidableEq, Repr

/-- `Path::is_dir`, which follows links. -/
def Entry.isDir : Entry → Bool
  | directory => true
  | file _ => false
  | link toDirectory => toDirectory

/-- Finitely many entries by path; what has something below it is a directory or leads to one. -/
structure Tree where
  entry : Path → Option Entry
  paths : Finset Path
  mem_paths : ∀ p, p ∈ paths ↔ (entry p).isSome
  parent : ∀ p name, (entry (p ++ [name])).isSome → (entry p).any Entry.isDir

namespace Tree

@[ext] theorem ext_entry {a b : Tree} (h : ∀ p, a.entry p = b.entry p) : a = b := by
  have hentry : a.entry = b.entry := funext h
  have hpaths : a.paths = b.paths := by
    ext p
    rw [a.mem_paths, b.mem_paths, h]
  cases a
  cases b
  subst hentry hpaths
  rfl

def isDir (t : Tree) (p : Path) : Bool := (t.entry p).any Entry.isDir

/-- Nothing stands at `p`, and something may be put there. -/
def Vacant (t : Tree) (p : Path) : Prop := t.entry p = none ∧ p ≠ [] ∧ t.isDir p.dropLast

instance (t : Tree) (p : Path) : Decidable (t.Vacant p) := inferInstanceAs (Decidable (_ ∧ _ ∧ _))

/-- Nothing stands below `p`. -/
def Bare (t : Tree) (p : Path) : Prop := ∀ q ∈ t.paths, p <+: q → q = p

instance (t : Tree) (p : Path) : Decidable (t.Bare p) := inferInstanceAs (Decidable (∀ q ∈ _, _))

theorem entry_eq_none_below {t : Tree} {p q : Path} (h : t.entry p = none) (hpq : p <+: q) :
    t.entry q = none := by
  obtain ⟨rest, rfl⟩ := hpq
  induction rest using List.reverseRecOn with
  | nil => simpa using h
  | append_singleton rest name ih =>
    by_contra hsome
    have hdir := t.parent (p ++ rest) name (by
      rw [List.append_assoc]
      exact Option.isSome_iff_ne_none.mpr hsome)
    rw [ih] at hdir
    cases hdir

/-! ### Changing a tree -/

/-- Puts an entry at a vacant path. -/
def insert (t : Tree) (p : Path) (e : Entry) (h : t.Vacant p) : Tree where
  entry := Function.update t.entry p (some e)
  paths := Insert.insert p t.paths
  mem_paths q := by
    by_cases hq : q = p
    · simp [hq]
    · simp [hq, t.mem_paths]
  parent q name hsome := by
    by_cases hq : q ++ [name] = p
    · subst hq
      have hne : q ≠ q ++ [name] := by simp
      have hdir : (t.entry q).any Entry.isDir := by simpa [isDir] using h.2.2
      simpa [hne] using hdir
    · rw [Function.update_of_ne hq] at hsome
      by_cases hqp : q = p
      · subst hqp
        rw [entry_eq_none_below h.1 (List.prefix_append q [name])] at hsome
        cases hsome
      · simpa [hqp] using t.parent q name hsome

/-- Replaces the contents of a file. -/
def write (t : Tree) (p : Path) (contents old : List UInt8) (h : t.entry p = some (.file old)) :
    Tree where
  entry := Function.update t.entry p (some (.file contents))
  paths := t.paths
  mem_paths q := by
    by_cases hq : q = p
    · simp [hq, t.mem_paths, h]
    · simp [hq, t.mem_paths]
  parent q name hsome := by
    have hparent : (t.entry (q ++ [name])).isSome := by
      by_cases hq : q ++ [name] = p
      · rw [hq, h]
        rfl
      · rwa [Function.update_of_ne hq] at hsome
    have hdir := t.parent q name hparent
    by_cases hqp : q = p
    · rw [hqp, h] at hdir
      cases hdir
    · simpa [hqp] using hdir

/-- Removes an entry with everything below it. -/
def erase (t : Tree) (p : Path) : Tree where
  entry q := if p <+: q then none else t.entry q
  paths := t.paths.filter (fun q => ¬ p <+: q)
  mem_paths q := by
    by_cases hq : p <+: q
    · simp [hq]
    · simp [hq, t.mem_paths]
  parent q name hsome := by
    by_cases hq : p <+: q ++ [name]
    · simp [hq] at hsome
    · have hpq : ¬ p <+: q := fun h => hq (h.trans (List.prefix_append q [name]))
      rw [if_neg hq] at hsome
      rw [if_neg hpq]
      exact t.parent q name hsome

/-- Moves an entry with everything below it to a vacant path outside of it. -/
def move (t : Tree) (source target : Path) (h : t.Vacant target) (hout : ¬ source <+: target) :
    Tree where
  entry p :=
    if target <+: p then t.entry (source ++ p.drop target.length)
    else if source <+: p then none else t.entry p
  paths := (t.paths.filter (fun p => ¬ target <+: p ∧ ¬ source <+: p)) ∪
    (t.paths.filter (fun p => source <+: p)).image (fun p => target ++ p.drop source.length)
  mem_paths p := by
    by_cases ht : target <+: p
    · obtain ⟨rest, rfl⟩ := ht
      simp only [Finset.mem_union, Finset.mem_filter, List.prefix_append, not_true_eq_false,
        false_and, and_false, false_or, Finset.mem_image, if_true, List.drop_left]
      constructor
      · rintro ⟨q, ⟨hq, back, rfl⟩, heq⟩
        obtain rfl : back = rest := by simpa using heq
        exact (t.mem_paths _).mp hq
      · intro hsome
        exact ⟨source ++ rest, ⟨(t.mem_paths _).mpr hsome, List.prefix_append _ _⟩, by simp⟩
    · have hnot : ∀ q ∈ t.paths, source <+: q → target ++ q.drop source.length ≠ p := by
        rintro q - - rfl
        exact ht (List.prefix_append _ _)
      by_cases hs : source <+: p
      · simp only [Finset.mem_union, Finset.mem_filter, hs, not_true_eq_false, and_false,
          false_or, Finset.mem_image, if_neg ht, if_true, Option.isSome_none, Bool.false_eq_true,
          iff_false]
        rintro ⟨q, ⟨hq, hsq⟩, heq⟩
        exact hnot q hq hsq heq
      · simp only [Finset.mem_union, Finset.mem_filter, ht, hs, not_false_eq_true, and_true,
          if_false, Finset.mem_image, t.mem_paths]
        refine or_iff_left ?_
        rintro ⟨q, ⟨hq, hsq⟩, heq⟩
        exact hnot q ((t.mem_paths q).mpr hq) hsq heq
  parent q name hsome := by
    by_cases htq : target <+: q
    · obtain ⟨rest, rfl⟩ := htq
      have hbelow : target <+: target ++ rest ++ [name] := by simp [List.append_assoc]
      rw [if_pos hbelow] at hsome
      rw [if_pos (List.prefix_append target rest)]
      have := t.parent (source ++ rest) name (by simpa [List.append_assoc] using hsome)
      simpa using this
    · by_cases ht : target <+: q ++ [name]
      · -- the new place itself: its directory stays where it is
        obtain htarget : target = q ++ [name] := by
          obtain htarget | hshort := List.prefix_concat_iff.mp ht
          · exact htarget
          · exact absurd hshort htq
        have hq : ¬ source <+: q := fun hs =>
          hout (htarget ▸ hs.trans (List.prefix_append q [name]))
        have hdir := h.2.2
        rw [htarget, List.dropLast_concat] at hdir
        rw [if_neg htq, if_neg hq]
        exact hdir
      · rw [if_neg ht] at hsome
        by_cases hs : source <+: q ++ [name]
        · simp [hs] at hsome
        · have hq : ¬ source <+: q := fun h' => hs (h'.trans (List.prefix_append q [name]))
          rw [if_neg hs] at hsome
          rw [if_neg htq, if_neg hq]
          exact t.parent q name hsome

end Tree

/-! ### Operations -/

inductive ErrorKind where
  | alreadyExists
  | notFound
  | notADirectory
  | directoryNotEmpty
  | invalidInput
  | unsupported
  | other (text : String)
  deriving DecidableEq, Repr

/-- The failure of a step for a reason outside the tree; a write has stored `written` bytes. -/
structure Interrupt where
  kind : ErrorKind
  written : ℕ
  deriving DecidableEq, Repr

/-- The tree, the interruptions to come, one for each step, and the trees there were so far. -/
structure Disk where
  tree : Tree
  script : List (Option Interrupt)
  history : List Tree

def Disk.start (tree : Tree) (script : List (Option Interrupt)) : Disk := ⟨tree, script, [tree]⟩

/-- The disk with a changed tree. -/
def Disk.become (d : Disk) (tree : Tree) : Disk :=
  { d with tree, history := d.history ++ [tree] }

/-- A program on a disk; one that fails keeps what it did. -/
abbrev Op (ε α : Type) := ExceptT ε (StateM Disk) α

namespace Op

variable {ε ε' α β : Type}

def run' (op : Op ε α) (d : Disk) : Except ε α × Disk := (ExceptT.run op).run d

def perform (act : Tree → Except ErrorKind Tree) (d : Disk) : Except ErrorKind Unit × Disk :=
  match act d.tree with
  | .ok tree => (.ok (), d.become tree)
  | .error kind => (.error kind, d)

/-- One step of the file system: what it does, and what is left of it where it is interrupted. -/
def step (act : Tree → Except ErrorKind Tree) (left : ℕ → Tree → Tree) : Op ErrorKind Unit :=
  ExceptT.mk fun d =>
    let d' := { d with script := d.script.tail }
    match d.script.head? with
    | some (some interrupt) => (.error interrupt.kind, d'.become (left interrupt.written d.tree))
    | _ => perform act d'

/-- A step that fails only where the tree forbids it. -/
def certain (act : Tree → Except ErrorKind Tree) : Op ErrorKind Unit := ExceptT.mk (perform act)

/-- A question to the file system, answered by `false` where it is interrupted. -/
def ask (question : Tree → Bool) : Op ε Bool :=
  ExceptT.mk fun d =>
    let d' := { d with script := d.script.tail }
    match d.script.head? with
    | some (some _) => (.ok false, d')
    | _ => (.ok (question d.tree), d')

def ofExcept (result : Except ε α) : Op ε α := ExceptT.mk (pure result)

/-- The result of a program as a value. -/
def attempt (op : Op ε α) : Op ε' (Except ε α) :=
  ExceptT.mk fun d => (.ok (op.run' d).1, (op.run' d).2)

/-- Runs a program for what it does to the tree only, as `let _ =` does. -/
def ignore (op : Op ε α) : Op ε' Unit := do
  let _ ← (attempt op : Op ε' (Except ε α))

def mapErr (f : ε → ε') (op : Op ε α) : Op ε' α :=
  ExceptT.mk fun d => ((op.run' d).1.mapError f, (op.run' d).2)

/-! ### Steps on paths -/

/-- Why nothing can be put at a path. -/
def refusal (t : Tree) (p : Path) : ErrorKind :=
  if (t.entry p).isSome then .alreadyExists
  else if (t.entry p.dropLast).isSome then .notADirectory
  else .notFound

/-- `fs::create_dir`. -/
def createDir (p : Path) : Op ErrorKind Unit :=
  step (fun t => if h : t.Vacant p then .ok (t.insert p .directory h) else .error (refusal t p))
    (fun _ t => t)

/-- `OpenOptions::new().write(true).create_new(true).open`. -/
def createNew (p : Path) : Op ErrorKind Unit :=
  step (fun t => if h : t.Vacant p then .ok (t.insert p (.file []) h) else .error (refusal t p))
    (fun _ t => t)

/-- The tree with the contents of the open file at `p` replaced. -/
def rewritten (p : Path) (contents : List UInt8) (t : Tree) : Tree :=
  match h : t.entry p with
  | some (.file old) => t.write p contents old h
  | _ => t

/-- `Write::write_all` to a file just created; an interrupted write leaves some first bytes. -/
def writeAll (p : Path) (contents : List UInt8) : Op ErrorKind Unit :=
  step (fun t => .ok (rewritten p contents t)) (fun n t => rewritten p (contents.take n) t)

/-- `File::open` and `File::sync_all`, which change nothing. -/
def openPath (p : Path) : Op ErrorKind Unit :=
  step (fun t => if (t.entry p).isSome then .ok t else .error .notFound) (fun _ t => t)

def syncAll : Op ErrorKind Unit := step (fun t => .ok t) (fun _ t => t)

/-- A rename that refuses to replace anything. -/
def renameNoReplace (source target : Path) : Op ErrorKind Unit :=
  step (fun t =>
    if (t.entry source).isNone then .error .notFound
    else if hout : source <+: target then .error .invalidInput
    else if h : t.Vacant target then .ok (t.move source target h hout)
    else .error (refusal t target))
    (fun _ t => t)

/-- `fs::remove_dir`. -/
def removeDir (p : Path) : Op ErrorKind Unit :=
  certain fun t =>
    if t.entry p = none then .error .notFound
    else if t.entry p ≠ some .directory then .error .notADirectory
    else if t.Bare p then .ok (t.erase p)
    else .error .directoryNotEmpty

/-- `fs::remove_dir_all`, which removes a link itself and not what it leads to. -/
def removeDirAll (p : Path) : Op ErrorKind Unit :=
  certain fun t =>
    match t.entry p with
    | none => .error .notFound
    | some (.file _) => .error .notADirectory
    | some _ => .ok (t.erase p)

theorem run'_bind_ok {op : Op ε α} {next : α → Op ε β} {d d' : Disk} {a : α}
    (h : op.run' d = (.ok a, d')) : (op >>= next).run' d = (next a).run' d' := by
  have hop : op d = (.ok a, d') := h
  show (ExceptT.bindCont next (op d).1) (op d).2 = _
  rw [hop]
  rfl

theorem run'_bind_error {op : Op ε α} {next : α → Op ε β} {d d' : Disk} {e : ε}
    (h : op.run' d = (.error e, d')) : (op >>= next).run' d = (.error e, d') := by
  have hop : op d = (.error e, d') := h
  show (ExceptT.bindCont next (op d).1) (op d).2 = _
  rw [hop]
  rfl

/-- Where nothing interrupts it, a step does what it does to the tree. -/
theorem run'_step {act : Tree → Except ErrorKind Tree} {left : ℕ → Tree → Tree} {d : Disk}
    (h : d.script = []) : (step act left).run' d = perform act d := by
  obtain ⟨tree, script, history⟩ := d
  obtain rfl : script = [] := h
  rfl

theorem run'_ask {question : Tree → Bool} {d : Disk} (h : d.script = []) :
    (ask question : Op ε Bool).run' d = (.ok (question d.tree), d) := by
  obtain ⟨tree, script, history⟩ := d
  obtain rfl : script = [] := h
  rfl

/-! ### Rules -/

/-- From a tree with `pre`, the program leaves one with `post` where it succeeds and one with
`fails` where it fails; it only goes through trees with `always`. -/
def Meets (op : Op ε α) (always pre : Tree → Prop) (post : α → Tree → Prop)
    (fails : ε → Tree → Prop) : Prop :=
  ∀ d : Disk, pre d.tree → (∀ t ∈ d.history, always t) →
    (∀ t ∈ (op.run' d).2.history, always t) ∧
      match (op.run' d).1 with
      | .ok a => post a (op.run' d).2.tree
      | .error e => fails e (op.run' d).2.tree

namespace Meets

variable {always pre : Tree → Prop} {post : α → Tree → Prop} {fails : ε → Tree → Prop}

protected theorem pure {a : α} (h : ∀ t, pre t → post a t) :
    Meets (pure a : Op ε α) always pre post fails :=
  fun d hpre hall => ⟨hall, h d.tree hpre⟩

protected theorem throw {e : ε} (h : ∀ t, pre t → fails e t) :
    Meets (throw e : Op ε α) always pre post fails :=
  fun d hpre hall => ⟨hall, h d.tree hpre⟩

theorem ofExcept {result : Except ε α} (hok : ∀ a t, pre t → result = .ok a → post a t)
    (herror : ∀ e t, pre t → result = .error e → fails e t) :
    Meets (ofExcept result) always pre post fails := by
  intro d hpre hall
  have hrun : (Op.ofExcept result : Op ε α).run' d = (result, d) := rfl
  rw [hrun]
  refine ⟨hall, ?_⟩
  cases result with
  | ok a => exact hok a _ hpre rfl
  | error e => exact herror e _ hpre rfl

protected theorem bind {op : Op ε α} {next : α → Op ε β} {mid : α → Tree → Prop}
    {post : β → Tree → Prop} (h : Meets op always pre mid fails)
    (hnext : ∀ a, Meets (next a) always (mid a) post fails) :
    Meets (op >>= next) always pre post fails := by
  intro d hpre hall
  obtain ⟨hall', hresult⟩ := h d hpre hall
  cases hop : op.run' d with
  | mk result d' =>
    rw [hop] at hall' hresult
    cases result with
    | error e =>
      rw [run'_bind_error hop]
      exact ⟨hall', hresult⟩
    | ok a =>
      rw [run'_bind_ok hop]
      exact hnext a d' hresult hall'

theorem weaken {op : Op ε α} {pre' : Tree → Prop} {post' : α → Tree → Prop}
    {fails' : ε → Tree → Prop} (h : Meets op always pre' post' fails')
    (hpre : ∀ t, pre t → pre' t) (hpost : ∀ a t, post' a t → post a t)
    (hfails : ∀ e t, fails' e t → fails e t) : Meets op always pre post fails := by
  intro d hd hall
  obtain ⟨hall', hresult⟩ := h d (hpre _ hd) hall
  refine ⟨hall', ?_⟩
  split at hresult
  · exact hpost _ _ hresult
  · exact hfails _ _ hresult

/-- What the precondition says besides the tree may be used. -/
theorem of_pre {op : Op ε α} (h : ∀ t₀, pre t₀ → Meets op always (· = t₀) post fails) :
    Meets op always pre post fails :=
  fun d hd hall => h d.tree hd d rfl hall

theorem attempt {op : Op ε α} {fails' : ε' → Tree → Prop} (h : Meets op always pre post fails) :
    Meets (attempt op) always pre (fun result t => match result with
      | .ok a => post a t
      | .error e => fails e t) fails' :=
  fun d hd hall => h d hd hall

theorem ignore {op : Op ε α} {post : Tree → Prop} {fails' : ε' → Tree → Prop}
    (h : Meets op always pre (fun _ => post) (fun _ => post)) :
    Meets (ignore op) always pre (fun _ => post) fails' := by
  refine Meets.bind (Meets.attempt h) fun result => ?_
  cases result with
  | ok => exact .pure fun _ => id
  | error => exact .pure fun _ => id

theorem mapErr {op : Op ε α} {f : ε → ε'} {fails : ε' → Tree → Prop}
    (h : Meets op always pre post (fun e => fails (f e))) :
    Meets (mapErr f op) always pre post fails := by
  intro d hd hall
  obtain ⟨hall', hresult⟩ := h d hd hall
  refine ⟨hall', ?_⟩
  show match ((op.run' d).1.mapError f) with
    | .ok a => post a (op.run' d).2.tree
    | .error e => fails e (op.run' d).2.tree
  cases hrun : (op.run' d).1 with
  | ok a => simpa [hrun, Except.mapError] using hresult
  | error e => simpa [hrun, Except.mapError] using hresult

/-- Becoming a tree that may be there keeps the history within bounds. -/
theorem always_become {d : Disk} {t : Tree} (hall : ∀ u ∈ d.history, always u) (ht : always t) :
    ∀ u ∈ (d.become t).history, always u := by
  intro u hu
  obtain hu | hu := List.mem_append.mp hu
  · exact hall u hu
  · rwa [List.mem_singleton.mp hu]

theorem certain {act : Tree → Except ErrorKind Tree} {post : Unit → Tree → Prop}
    {fails : ErrorKind → Tree → Prop}
    (hok : ∀ t t', pre t → act t = .ok t' → post () t' ∧ always t')
    (herror : ∀ t k, pre t → act t = .error k → fails k t) :
    Meets (certain act) always pre post fails := by
  intro d hd hall
  have hrun : (Op.certain act).run' d = perform act d := rfl
  rw [hrun, perform]
  cases hact : act d.tree with
  | ok t =>
    obtain ⟨hpost, ht⟩ := hok d.tree t hd hact
    exact ⟨always_become hall ht, hpost⟩
  | error k => exact ⟨hall, herror d.tree k hd hact⟩

/-- A step does what it does to the tree, or leaves what an interrupted step leaves. -/
theorem step {act : Tree → Except ErrorKind Tree} {left : ℕ → Tree → Tree}
    {post : Unit → Tree → Prop} {fails : ErrorKind → Tree → Prop}
    (hok : ∀ t t', pre t → act t = .ok t' → post () t' ∧ always t')
    (herror : ∀ t k, pre t → act t = .error k → fails k t)
    (hleft : ∀ t n k, pre t → fails k (left n t) ∧ always (left n t)) :
    Meets (step act left) always pre post fails := by
  intro d hd hall
  have hrun : (Op.step act left).run' d = match d.script.head? with
      | some (some interrupt) => (.error interrupt.kind,
          { d with script := d.script.tail }.become (left interrupt.written d.tree))
      | _ => (Op.certain act).run' { d with script := d.script.tail } := rfl
  rw [hrun]
  split
  · next interrupt _ =>
    obtain ⟨hfails, ht⟩ := hleft d.tree interrupt.written interrupt.kind hd
    exact ⟨always_become hall ht, hfails⟩
  · exact certain hok herror { d with script := d.script.tail } hd hall

theorem ask {question : Tree → Bool} {post : Bool → Tree → Prop}
    (h : ∀ t, pre t → post (question t) t ∧ post false t) :
    Meets (ask question : Op ε Bool) always pre post fails := by
  intro d hd hall
  have hrun : (Op.ask question : Op ε Bool).run' d = match d.script.head? with
      | some (some _) => (.ok false, { d with script := d.script.tail })
      | _ => (.ok (question d.tree), { d with script := d.script.tail }) := rfl
  rw [hrun]
  split
  · exact ⟨hall, (h d.tree hd).2⟩
  · exact ⟨hall, (h d.tree hd).1⟩

end Meets

/-! ### Where nothing interrupts -/

/-- With no interruption to come, the program succeeds and leaves a tree with `post`. -/
def Delivers (op : Op ε α) (pre : Tree → Prop) (post : α → Tree → Prop) : Prop :=
  ∀ d : Disk, d.script = [] → pre d.tree →
    ∃ a d', op.run' d = (.ok a, d') ∧ d'.script = [] ∧ post a d'.tree

namespace Delivers

variable {pre : Tree → Prop} {post : α → Tree → Prop}

protected theorem pure {a : α} (h : ∀ t, pre t → post a t) :
    Delivers (pure a : Op ε α) pre post :=
  fun d hscript hpre => ⟨a, d, rfl, hscript, h d.tree hpre⟩

theorem ofExcept {a : α} (h : ∀ t, pre t → post a t) :
    Delivers (ofExcept (.ok a) : Op ε α) pre post :=
  fun d hscript hpre => ⟨a, d, rfl, hscript, h d.tree hpre⟩

protected theorem bind {op : Op ε α} {next : α → Op ε β} {mid : α → Tree → Prop}
    {post : β → Tree → Prop} (h : Delivers op pre mid)
    (hnext : ∀ a, Delivers (next a) (mid a) post) : Delivers (op >>= next) pre post := by
  intro d hscript hpre
  obtain ⟨a, d', hrun, hscript', hmid⟩ := h d hscript hpre
  obtain ⟨b, d'', hrun', hdone⟩ := hnext a d' hscript' hmid
  refine ⟨b, d'', ?_, hdone⟩
  rw [run'_bind_ok hrun]
  exact hrun'

theorem weaken {op : Op ε α} {pre' : Tree → Prop} {post' : α → Tree → Prop}
    (h : Delivers op pre' post') (hpre : ∀ t, pre t → pre' t)
    (hpost : ∀ a t, post' a t → post a t) : Delivers op pre post := by
  intro d hscript hd
  obtain ⟨a, d', hrun, hscript', hmid⟩ := h d hscript (hpre _ hd)
  exact ⟨a, d', hrun, hscript', hpost a _ hmid⟩

/-- What the precondition says besides the tree may be used. -/
theorem of_pre {op : Op ε α} (h : ∀ t₀, pre t₀ → Delivers op (· = t₀) post) :
    Delivers op pre post :=
  fun d hscript hd => h d.tree hd d hscript rfl

theorem attempt {op : Op ε α} (h : Delivers op pre post) :
    Delivers (attempt op : Op ε' (Except ε α)) pre
      (fun result t => ∃ a, result = .ok a ∧ post a t) := by
  intro d hscript hpre
  obtain ⟨a, d', hrun, hscript', hpost⟩ := h d hscript hpre
  refine ⟨.ok a, d', ?_, hscript', a, rfl, hpost⟩
  show (Except.ok (op.run' d).1, (op.run' d).2) = _
  rw [hrun]

theorem mapErr {op : Op ε α} {f : ε → ε'} (h : Delivers op pre post) :
    Delivers (mapErr f op) pre post := by
  intro d hscript hpre
  obtain ⟨a, d', hrun, hscript', hpost⟩ := h d hscript hpre
  refine ⟨a, d', ?_, hscript', hpost⟩
  show ((op.run' d).1.mapError f, (op.run' d).2) = _
  rw [hrun]
  rfl

/-- A step that the tree allows does what `Meets` says of it. -/
theorem step {act : Tree → Except ErrorKind Tree} {left : ℕ → Tree → Tree}
    {post : Unit → Tree → Prop} {fails : ErrorKind → Tree → Prop}
    (hmeets : Meets (step act left) (fun _ => True) pre post fails)
    (hok : ∀ t, pre t → ∃ t', act t = .ok t') : Delivers (step act left) pre post := by
  intro d hscript hpre
  obtain ⟨t', hact⟩ := hok d.tree hpre
  have hrun : (Op.step act left).run' d = (.ok (), d.become t') := by
    rw [run'_step hscript, perform, hact]
  have hpost := (hmeets d hpre fun _ _ => trivial).2
  rw [hrun] at hpost
  exact ⟨(), d.become t', hrun, hscript, hpost⟩

theorem ask {question : Tree → Bool} :
    Delivers (ask question : Op ε Bool) pre (fun answer t => answer = question t ∧ pre t) := by
  intro d hscript hpre
  exact ⟨question d.tree, d, run'_ask hscript, hscript, rfl, hpre⟩

end Delivers

end Op

end FileTree
