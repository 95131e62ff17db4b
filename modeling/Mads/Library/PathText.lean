import Mads.Library.Paths

/-!
# Paths as they are written

A path is its names with slashes between them.  Slashes that follow on each other, and dots that
stand for the directory they are in, do not count.
-/

namespace Paths

def slash : UInt8 := 47

/-- What a name between two slashes stands for, if it counts. -/
def component (name : Name) : Option Component :=
  if name = [] ∨ name = [dot] then none
  else if name = [dot, dot] then some .parentDir
  else some (.normal name)

def ofNames : List Name → Path
  | [] => []
  | first :: rest =>
    (if first = [] then if rest = [] then [] else [.rootDir]
    -- a dot counts where the path begins with it
    else if first = [dot] then [.curDir]
    else (component first).toList) ++ rest.filterMap component

/-- `Path::components`. -/
def components (text : Name) : Path := ofNames (text.splitOn slash)

/-- `Path::join`. -/
def push (text name : Name) : Name :=
  if name.head? = some slash then name
  else if text = [] ∨ text.getLast? = some slash then text ++ name
  else text ++ slash :: name

/-- `OsString::into_string`. -/
def intoString (bytes : Name) : Option String := String.fromUTF8? ⟨bytes.toArray⟩

example : components (osStr "./src//./main.rs/") =
    [.curDir, .normal (osStr "src"), .normal (osStr "main.rs")] := by decide

variable {text name : Name} {names : List Name}

/-- A last name does not change what stands above it. -/
theorem ofNames_concat (h : names ≠ []) :
    ofNames (names ++ [name]) = ofNames (names ++ [[]]) ++ (component name).toList := by
  obtain ⟨first, rest, rfl⟩ := List.exists_cons_of_ne_nil h
  have hempty : component [] = none := by simp [component]
  cases hname : component name <;> simp [ofNames, hname, hempty]

/-- A slash at the end does not count, unless it is all there is. -/
theorem ofNames_concat_nil (h : names ≠ []) (htext : names ≠ [[]]) :
    ofNames (names ++ [[]]) = ofNames names := by
  obtain ⟨first, rest, rfl⟩ := List.exists_cons_of_ne_nil h
  have hempty : component [] = none := by simp [component]
  by_cases hfirst : first = []
  · subst hfirst
    have hrest : rest ≠ [] := by simpa using htext
    simp [ofNames, hrest, hempty]
  · simp [ofNames, hfirst, hempty]

/-- What is joined to a path is its last component. -/
theorem components_push (hslash : slash ∉ name) (h : component name = some (.normal name)) :
    components (push text name) = components text ++ [.normal name] := by
  have hsplit : name.splitOn slash = [name] := List.splitOn_eq_singleton hslash
  have hhead : name.head? ≠ some slash := fun heq => hslash (List.mem_of_mem_head? heq)
  rw [push, if_neg hhead]
  split
  · next hjoin =>
    obtain rfl | hlast := hjoin
    · have hne : name ≠ [] := by
        rintro rfl
        simp [component] at h
      have hdot : name ≠ [dot] := by
        rintro rfl
        simp [component] at h
      simp [components, hsplit, ofNames, h, hne, hdot]
    · obtain ⟨front, rfl⟩ := List.getLast?_eq_some_iff.mp hlast
      rw [components, List.append_assoc, List.singleton_append, List.splitOn_append_cons_self,
        hsplit, ofNames_concat (List.splitOn_ne_nil _ _), h, components,
        List.splitOn_append_cons_self, List.splitOn_nil]
      rfl
  · next hjoin =>
    have hne : text.splitOn slash ≠ [[]] := by
      intro hnil
      have htext : [slash].intercalate (text.splitOn slash) = text := List.intercalate_splitOn slash
      rw [hnil] at htext
      exact hjoin (.inl htext.symm)
    rw [components, List.splitOn_append_cons_self, hsplit,
      ofNames_concat (List.splitOn_ne_nil _ _), ofNames_concat_nil (List.splitOn_ne_nil _ _) hne, h,
      components]
    rfl

theorem intoString_eq_some {bytes : Name} {text : String} :
    intoString bytes = some text ↔ bytes = osStr text := by
  unfold intoString String.fromUTF8? osStr
  constructor
  · intro h
    split at h
    · next hvalid =>
      obtain rfl := Option.some.inj h
      rfl
    · cases h
  · rintro rfl
    exact dif_pos text.isValidUTF8

theorem osStr_injective : Function.Injective osStr := fun _ _ h =>
  Option.some.inj ((intoString_eq_some.mpr rfl).symm.trans (intoString_eq_some.mpr h))

end Paths
