import Mathlib.Data.List.DropRight
import Mathlib.Data.List.Infix

/-!
# Paths as lists of components

What a path is called, what lies above it and below which directories it stands, and that
what is asked of the part below a directory does not depend on the directory.
-/

namespace Paths

/-- The bytes of a file name. -/
abbrev Name := List UInt8

def osStr (text : String) : Name := text.toUTF8.data.toList

inductive Component where
  | rootDir
  | curDir
  | parentDir
  | normal (name : Name)
  deriving DecidableEq, Repr

abbrev Path := List Component

/-- `Path::join` with a relative path of plain names. -/
def join (path : Path) (names : List String) : Path :=
  path ++ names.map fun name => .normal (osStr name)

/-- `Path::starts_with`, which compares whole components. -/
def startsWith (path root : Path) : Bool := root.isPrefixOf path

/-- `Path::parent`. -/
def parent (path : Path) : Option Path :=
  match path.getLast? with
  | none | some .rootDir => none
  | some _ => some path.dropLast

/-- `Path::file_name`. -/
def fileName (path : Path) : Option Name :=
  match path.getLast? with
  | some (.normal name) => some name
  | _ => none

def dot : UInt8 := 46

/-- What follows the last dot of a name, if something stands before it. -/
def Name.extension (name : Name) : Option Name :=
  if name = [dot, dot] ∨ (name.rdropWhile (· ≠ dot)).length ≤ 1 then none
  else some (name.rtakeWhile (· ≠ dot))

/-- `Path::extension`. -/
def extension (path : Path) : Option Name := (fileName path).bind Name.extension

example : Name.extension (osStr "main.rs") = some (osStr "rs") := by decide
example : Name.extension (osStr ".env") = none := by decide

variable {base path root : Path}

@[simp] theorem startsWith_iff : startsWith path root = true ↔ root <+: path :=
  List.isPrefixOf_iff_prefix

@[simp] theorem startsWith_append :
    startsWith (base ++ path) (base ++ root) = startsWith path root := by
  rw [Bool.eq_iff_iff, startsWith_iff, startsWith_iff, List.prefix_append_right_inj]

@[simp] theorem join_append (names : List String) :
    join (base ++ path) names = base ++ join path names :=
  List.append_assoc ..

@[simp] theorem join_eq_nil {names : List String} :
    join path names = [] ↔ path = [] ∧ names = [] := by
  rw [join, List.append_eq_nil_iff, List.map_eq_nil_iff]

/-- A directory does not lie below what it contains. -/
theorem startsWith_join_append {names : List String} (h : names ≠ []) :
    startsWith base (join (base ++ root) names) = false := by
  rw [Bool.eq_false_iff, Ne, startsWith_iff]
  intro hprefix
  have hlength := hprefix.length_le
  have hpos := List.length_pos_of_ne_nil h
  rw [join, List.length_append, List.length_append, List.length_map] at hlength
  omega

/-- A path below a directory is called as it is without the directory. -/
theorem fileName_append (h : path ≠ []) : fileName (base ++ path) = fileName path := by
  rw [fileName, List.getLast?_append_of_ne_nil _ h, fileName]

theorem extension_append (h : path ≠ []) : extension (base ++ path) = extension path := by
  rw [extension, fileName_append h, extension]

theorem parent_append (h : path ≠ []) :
    parent (base ++ path) = (parent path).map (base ++ ·) := by
  rw [parent, List.getLast?_append_of_ne_nil _ h, parent]
  split
  · rfl
  · rfl
  · rw [List.dropLast_append_of_ne_nil h]
    rfl

theorem parent_append_eq_some (h : path ≠ []) :
    parent (base ++ path) = some (base ++ root) ↔ parent path = some root := by
  rw [parent_append h]
  cases parent path with
  | none => simp
  | some above => simp

theorem length_of_parent {above : Path} (h : parent path = some above) :
    path.length = above.length + 1 := by
  unfold parent at h
  split at h
  · cases h
  · cases h
  · next last hlast =>
    obtain rfl := Option.some.inj h
    have hne : path ≠ [] := by
      rintro rfl
      simp at hlast
    rw [List.length_dropLast]
    have := List.length_pos_of_ne_nil hne
    omega

/-- No directory lies above itself or above what it lies above. -/
theorem parent_ne_append : parent base ≠ some (base ++ root) := by
  intro h
  have hlength := length_of_parent h
  rw [List.length_append] at hlength
  omega

end Paths
