import Mads.Common.RouterAssembly

/-!
# Paths of the router

Validated paths, their patterns and the paths that the router gets for them are the same segment by
segment, up to how a parameter is written.
-/

namespace Mads

open Text

/-! ### Paths of the router -/

namespace AxumPath

def NoBraces (text : String) : Prop := '\x7b' ∉ text.toList ∧ '\x7d' ∉ text.toList

/-- Each segment is a text, or a capture as a whole. -/
def WellFormed (path : String) : Prop :=
  path.toList.head? = some '/' ∧ ∀ segment ∈ split path '/',
    (NoBraces segment ∧ segment.toList.head? ≠ some ':' ∧ segment.toList.head? ≠ some '*') ∨
      ∃ name, segment = "\x7b" ++ name ++ "\x7d" ∧ name ≠ "" ∧ NoBraces name

/-- The segments of a path, without the names of its captures. -/
def erased (path : String) : List String :=
  (split path '/').map (fun segment => if segment.toList.head? = some '\x7b' then "\x7b\x7d"
    else segment)

/-- Two routes that a router holds at once: methods merge where the paths are the same, and
different paths must differ in more than the names of their captures. -/
def Compatible (left right : String × HttpMethod) : Prop :=
  if left.1 = right.1 then left.2 ≠ right.2 else erased left.1 ≠ erased right.1

end AxumPath

open AxumPath

/-- A router has the routes that it took, and takes those that are compatible with them. -/
structure RouterLibrary.Lawful {Router : Type} (library : RouterLibrary Router)
    (registered : Router → List (String × HttpMethod)) : Prop where
  new : registered library.new = []
  takes : ∀ router path method, WellFormed path →
    (∀ entry ∈ registered router, Compatible entry (path, method)) →
    ∃ next, library.route router path method = .ok next ∧
      registered next = registered router ++ [(path, method)]
  rejects : ∀ router path method, WellFormed path →
    ¬ (∀ entry ∈ registered router, Compatible entry (path, method)) →
    ∃ message, library.route router path method = .error message

namespace Route

/-! ### Segments -/

/-- A segment as validation accepts it. -/
def ValidSegment (segment : String) : Prop :=
  (∃ name, segment = ":" ++ name ∧ name ≠ "" ∧ NoBraces name) ∨
    (':' ∉ segment.toList ∧ NoBraces segment ∧ segment.toList.head? ≠ some '*')

/-- A path as validation accepts it. -/
def ValidPath (path : String) : Prop :=
  path.toList.head? = some '/' ∧ ∀ segment ∈ split path '/', ValidSegment segment

theorem validSegment_of_validateSegment {subject : String} {location : SourceLocation}
    {parameters after : List String} {segment : String}
    (h : validateSegment subject location parameters segment = .ok after) :
    ValidSegment segment := by
  obtain ⟨-, h⟩ := Run.ensure_bind_eq_ok.mp h
  obtain ⟨⟨hstar, hopen, hclose⟩, h⟩ := Run.ensure_bind_eq_ok.mp h
  split at h
  · next name hname =>
    have hsegment := stripPrefix_eq_some.mp hname
    left
    refine ⟨name, hsegment, ?_, ?_⟩
    · rintro rfl
      simp [validateParameter, Run.fail] at h
    · rw [hsegment, String.toList_append, List.mem_append, not_or] at hopen hclose
      exact ⟨hopen.2, hclose.2⟩
  · obtain ⟨hcolon, -⟩ := Run.ensure_bind_eq_ok.mp h
    exact .inr ⟨hcolon, ⟨hopen, hclose⟩, hstar⟩

/-- The first segment of a path is the empty one before its leading slash. -/
theorem split_of_head {path : String} (h : path.toList.head? = some '/') :
    ∃ first rest, split path '/' = "" :: first :: rest := by
  obtain ⟨chars, hchars⟩ : ∃ chars, path.toList = '/' :: chars := List.head?_eq_some_iff.mp h
  have hsplit : split path '/' = "" :: (chars.splitOn '/').map String.ofList := by
    rw [split, hchars, List.splitOn_cons_eq_if_modifyHead, if_pos (by simp)]
    rfl
  cases hparts : chars.splitOn '/' with
  | nil => exact absurd hparts (List.splitOn_ne_nil '/' chars)
  | cons first rest =>
    rw [hparts] at hsplit
    exact ⟨_, _, hsplit⟩

theorem validPath_of_validatePath {value subject : String} {location : SourceLocation}
    (h : validatePath value false subject location = .ok ()) : ValidPath value := by
  rw [validatePath, if_neg (by simp)] at h
  obtain ⟨hstart, h⟩ := Run.ensure_bind_eq_ok.mp h
  obtain ⟨-, h⟩ := Run.ensure_bind_eq_ok.mp h
  obtain ⟨-, h⟩ := Run.ensure_bind_eq_ok.mp h
  obtain ⟨-, h⟩ := Run.ensure_bind_eq_ok.mp h
  obtain ⟨-, h⟩ := Run.ensure_bind_eq_ok.mp h
  have hempty : ValidSegment "" := .inr (by simp [NoBraces])
  refine ⟨hstart, ?_⟩
  obtain ⟨first, rest, hsplit⟩ := split_of_head hstart
  by_cases hroot : value = "/"
  · subst hroot
    have hall : split "/" '/' = ["", ""] := by decide
    rw [hall]
    simpa using hempty
  · rw [if_neg hroot] at h
    obtain ⟨parameters, hfold, -⟩ := Run.bind_eq_ok.mp h
    have hrest : ∀ segment ∈ (split value '/').drop 1, ValidSegment segment :=
      Run.foldlM_seen (P := fun seen (_ : List String) => ∀ segment ∈ seen, ValidSegment segment)
        (fun seen _ segment _ hseen hok => by
          rw [List.forall_mem_append, List.forall_mem_singleton]
          exact ⟨hseen, validSegment_of_validateSegment hok⟩)
        (fun _ hnone => absurd hnone List.not_mem_nil) hfold
    rw [hsplit] at hrest ⊢
    rw [List.forall_mem_cons]
    exact ⟨hempty, hrest⟩

theorem validPath_of_validateRoute {route : RouteDescriptor} (h : validateRoute route = .ok ()) :
    ValidPath route.fullPath := by
  obtain ⟨_, -, h⟩ := Run.bind_eq_ok.mp h
  obtain ⟨_, -, h⟩ := Run.bind_eq_ok.mp h
  obtain ⟨_, hpath, -⟩ := Run.bind_eq_ok.mp h
  exact validPath_of_validatePath hpath

/-! ### Patterns and router paths -/

theorem head_ne_brace {text : String} (h : NoBraces text) : text.toList.head? ≠ some '\x7b' :=
  fun hhead => h.1 (List.mem_of_mem_head? hhead)

theorem stripPrefix_colon (name : String) : Text.stripPrefix (":" ++ name) ":" = some name :=
  stripPrefix_append

theorem stripPrefix_static {segment : String} (h : ':' ∉ segment.toList) :
    Text.stripPrefix segment ":" = none := by
  apply stripPrefix_eq_none
  rintro ⟨rest, hrest⟩
  rw [← hrest] at h
  simp at h

/-- What becomes of a valid segment. -/
theorem segment_cases {segment : String} (h : ValidSegment segment) :
    (∃ name, segment = ":" ++ name ∧ name ≠ "" ∧ NoBraces name ∧ canonicalSegment segment = ":*" ∧
      axumSegment segment = "\x7b" ++ name ++ "\x7d") ∨
    (':' ∉ segment.toList ∧ NoBraces segment ∧ segment.toList.head? ≠ some '*' ∧
      canonicalSegment segment = segment ∧ axumSegment segment = segment) := by
  obtain ⟨name, rfl, hname, hbraces⟩ | ⟨hcolon, hbraces, hstar⟩ := h
  · left
    refine ⟨name, rfl, hname, hbraces, ?_, ?_⟩
    · rw [canonicalSegment, stripPrefix_colon]
    · rw [axumSegment, stripPrefix_colon]
  · right
    refine ⟨hcolon, hbraces, hstar, ?_, ?_⟩
    · rw [canonicalSegment, stripPrefix_static hcolon]
    · rw [axumSegment, stripPrefix_static hcolon]

/-- A segment of a router path, without the name of its capture. -/
def erasedSegment (segment : String) : String :=
  if segment.toList.head? = some '\x7b' then "\x7b\x7d" else segment

theorem erasedSegment_capture (name : String) :
    erasedSegment ("\x7b" ++ name ++ "\x7d") = "\x7b\x7d" := by
  rw [erasedSegment, if_pos]
  simp

theorem erasedSegment_static {segment : String} (h : NoBraces segment) :
    erasedSegment segment = segment :=
  if_neg (head_ne_brace h)

theorem axumSegment_inj {left right : String} (hleft : ValidSegment left)
    (hright : ValidSegment right) : axumSegment left = axumSegment right ↔ left = right := by
  refine ⟨fun h => ?_, congrArg axumSegment⟩
  obtain ⟨name, rfl, -, -, -, haxum⟩ | ⟨-, hbraces, -, -, haxum⟩ := segment_cases hleft
  · obtain ⟨name', rfl, -, -, -, haxum'⟩ | ⟨-, hbraces', -, -, haxum'⟩ := segment_cases hright
    · rw [haxum, haxum'] at h
      have hname : name = name' := by simpa [← String.toList_inj] using h
      rw [hname]
    · rw [haxum, haxum'] at h
      exact absurd (by rw [← h]; simp) hbraces'.1
  · obtain ⟨name', rfl, -, -, -, haxum'⟩ | ⟨-, -, -, -, haxum'⟩ := segment_cases hright
    · rw [haxum, haxum'] at h
      exact absurd (by rw [h]; simp) hbraces.1
    · rwa [haxum, haxum'] at h

theorem erasedSegment_inj {left right : String} (hleft : ValidSegment left)
    (hright : ValidSegment right) : erasedSegment (axumSegment left) =
      erasedSegment (axumSegment right) ↔ canonicalSegment left = canonicalSegment right := by
  obtain ⟨name, rfl, -, -, hcanonical, haxum⟩ | ⟨hcolon, hbraces, -, hcanonical, haxum⟩ :=
    segment_cases hleft
  · obtain ⟨name', rfl, -, -, hcanonical', haxum'⟩ | ⟨hcolon', hbraces', -, hcanonical', haxum'⟩ :=
      segment_cases hright
    · rw [haxum, haxum', hcanonical, hcanonical', erasedSegment_capture, erasedSegment_capture]
      exact iff_of_true rfl rfl
    · rw [haxum, haxum', hcanonical, hcanonical', erasedSegment_capture,
        erasedSegment_static hbraces']
      refine iff_of_false (fun h => ?_) (fun h => ?_)
      · exact absurd (by rw [← h]; simp) hbraces'.1
      · exact absurd (by rw [← h]; simp) hcolon'
  · obtain ⟨name', rfl, -, -, hcanonical', haxum'⟩ | ⟨-, hbraces', -, hcanonical', haxum'⟩ :=
      segment_cases hright
    · rw [haxum, haxum', hcanonical, hcanonical', erasedSegment_capture,
        erasedSegment_static hbraces]
      refine iff_of_false (fun h => ?_) (fun h => ?_)
      · exact absurd (by rw [h]; simp) hbraces.1
      · exact absurd (by rw [h]; simp) hcolon
    · rw [haxum, haxum', hcanonical, hcanonical', erasedSegment_static hbraces,
        erasedSegment_static hbraces']

/-! ### Whole paths -/

theorem map_eq_map_iff {α β γ : Type} {f : α → β} {g : α → γ} {xs ys : List α}
    (h : ∀ a ∈ xs, ∀ b ∈ ys, f a = f b ↔ g a = g b) : xs.map f = ys.map f ↔ xs.map g = ys.map g := by
  induction xs generalizing ys with
  | nil => simp
  | cons a xs ih =>
    cases ys with
    | nil => simp
    | cons b ys =>
      have hrest := ih fun a ha b hb => h a (List.mem_cons_of_mem _ ha) b (List.mem_cons_of_mem _ hb)
      rw [List.map_cons, List.map_cons, List.map_cons, List.map_cons, List.cons.injEq,
        List.cons.injEq, hrest, h a List.mem_cons_self b List.mem_cons_self]

/-- Changing the segments of a path one by one. -/
theorem split_map {change : String → String} {path : String}
    (h : ∀ segment, '/' ∉ segment.toList → '/' ∉ (change segment).toList) :
    split ("/".intercalate ((split path '/').map change)) '/' = (split path '/').map change := by
  obtain ⟨hne, hsegments, -⟩ := split_eq_iff.mp (rfl : split path '/' = split path '/')
  refine split_eq_iff.mpr ⟨by simpa using hne, ?_, by simp⟩
  intro segment hsegment
  obtain ⟨old, hold, rfl⟩ := List.mem_map.mp hsegment
  exact h old (hsegments old hold)

theorem split_toAxumPath (path : String) :
    split (toAxumPath path) '/' = (split path '/').map axumSegment := by
  apply split_map
  intro segment hsegment
  unfold axumSegment
  split
  · next name hname =>
    rw [stripPrefix_eq_some.mp hname] at hsegment
    simpa using hsegment
  · exact hsegment

theorem split_canonicalPattern (path : String) :
    split (canonicalPattern path) '/' = (split path '/').map canonicalSegment := by
  apply split_map
  intro segment hsegment
  unfold canonicalSegment
  split
  · decide
  · exact hsegment

theorem toAxumPath_inj {left right : String} (hleft : ValidPath left) (hright : ValidPath right) :
    toAxumPath left = toAxumPath right ↔ left = right := by
  have hmap : (split left '/').map axumSegment = (split right '/').map axumSegment ↔
      (split left '/').map id = (split right '/').map id :=
    map_eq_map_iff fun a ha b hb => axumSegment_inj (hleft.2 a ha) (hright.2 b hb)
  have hcut : split (toAxumPath left) '/' = split (toAxumPath right) '/' ↔ _ := split_inj
  rw [← hcut, split_toAxumPath, split_toAxumPath, hmap, List.map_id, List.map_id, split_inj]

/-- Patterns are the same exactly if the router paths are, up to the names of captures. -/
theorem erased_toAxumPath {left right : String} (hleft : ValidPath left)
    (hright : ValidPath right) : erased (toAxumPath left) = erased (toAxumPath right) ↔
      canonicalPattern left = canonicalPattern right := by
  have herased : ∀ path, erased (toAxumPath path) =
      (split path '/').map (fun segment => erasedSegment (axumSegment segment)) := by
    intro path
    rw [erased, split_toAxumPath, List.map_map]
    rfl
  have hcut : split (canonicalPattern left) '/' = split (canonicalPattern right) '/' ↔ _ :=
    split_inj
  rw [herased, herased, ← hcut, split_canonicalPattern, split_canonicalPattern]
  exact map_eq_map_iff fun a ha b hb => erasedSegment_inj (hleft.2 a ha) (hright.2 b hb)

theorem wellFormed_toAxumPath {path : String} (h : ValidPath path) :
    WellFormed (toAxumPath path) := by
  constructor
  · obtain ⟨first, rest, hsplit⟩ := split_of_head h.1
    have hempty : axumSegment "" = "" := by decide
    rw [toAxumPath, hsplit, List.map_cons, List.map_cons, hempty, String.toList_intercalate]
    simp
  · rw [split_toAxumPath, List.forall_mem_map]
    intro segment hsegment
    obtain ⟨name, rfl, hname, hbraces, -, haxum⟩ | ⟨hcolon, hbraces, hstar, -, haxum⟩ :=
      segment_cases (h.2 segment hsegment)
    · exact .inr ⟨name, haxum, hname, hbraces⟩
    · rw [haxum]
      exact .inl ⟨hbraces, fun hhead => hcolon (List.mem_of_mem_head? hhead), hstar⟩

end Route

end Mads
