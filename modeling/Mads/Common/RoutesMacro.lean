import Mads.Common.RouterPath
import Mathlib.Data.Set.Function

/-!
# Paths that the routes macro accepts

The macro checks the literals of a trait when it is compiled, and validation checks the declared
paths again when the application starts.
-/

namespace Mads

open Text

namespace AxumPath

/-- The parameter that a segment of a router path captures. -/
def captureName (segment : String) : Option String := do
  let name ← Text.stripPrefix segment "\x7b"
  Text.stripSuffix name "\x7d"

def captures (path : String) : List String := (split path '/').filterMap captureName

def renameSegment (rename : String → String) (segment : String) : String :=
  match captureName segment with
  | some name => "\x7b" ++ rename name ++ "\x7d"
  | none => segment

/-- Two router paths that are equal up to renaming of parameters. -/
def RenamedTo (left right : String) : Prop :=
  ∃ rename : String → String, Set.InjOn rename {name | name ∈ captures left} ∧
    (split left '/').map (renameSegment rename) = split right '/'

end AxumPath

/-! ### The macro -/

namespace RoutesMacro

def joinPaths (front path : String) : String :=
  if front = "" ∨ front = "/" then path
  else if path = "/" then front
  else front ++ path

def pathMessage (subject message : String) : String := subject ++ " " ++ message

def validateParameter (subject : String) (parameters : List String) (parameter : String) :
    Run String (List String) :=
  match parameter.toList with
  | [] => Run.fail (pathMessage subject "contains an empty parameter")
  | first :: rest => do
    Run.ensure ((first = '_' ∨ first.isAlpha) ∧ rest.all (fun c => c = '_' || c.isAlphanum))
      (pathMessage subject "parameters must use `[A-Za-z_][A-Za-z0-9_]*`")
    Run.ensure (parameter ∉ parameters)
      (pathMessage subject ("must not repeat parameter `:" ++ parameter ++ "`"))
    pure (parameter :: parameters)

def validateSegment (subject : String) (parameters : List String) (segment : String) :
    Run String (List String) := do
  Run.ensure (segment ≠ "" ∧ segment ≠ "." ∧ segment ≠ "..")
    (pathMessage subject "must not contain empty, `.` or `..` segments")
  Run.ensure (segment.toList.head? ≠ some '*' ∧ '\x7b' ∉ segment.toList ∧ '\x7d' ∉ segment.toList)
    (pathMessage subject
      "must not use Axum wildcard or brace-capture syntax; use `:parameter` captures")
  match Text.stripPrefix segment ":" with
  | some parameter => validateParameter subject parameters parameter
  | none => do
    Run.ensure (':' ∉ segment.toList)
      (pathMessage subject "parameters must occupy an entire path segment")
    pure parameters

def validatePath (value subject : String) (isPrefix : Bool) : Run String Unit := do
  Run.ensure (value.toList.head? = some '/') (pathMessage subject "must be non-empty and start with `/`")
  Run.ensure ('?' ∉ value.toList ∧ '#' ∉ value.toList)
    (pathMessage subject "must not contain a query string or fragment")
  Run.ensure (¬ value.toList.any Guard.isControl)
    (pathMessage subject "must not contain control characters")
  Run.ensure ('\\' ∉ value.toList ∧ '%' ∉ value.toList ∧ ¬ value.toList.any Route.isWhitespace)
    (pathMessage subject "must not contain backslashes, percent-encoding, or whitespace")
  Run.ensure (value = "/" ∨ value.toList.getLast? ≠ some '/')
    (pathMessage subject "must not end with `/`; use `/` only for the root route")
  if value = "/" then
    pure ()
  else
    let _ ← ((split value '/').drop 1).foldlM (validateSegment subject) []
    Run.ensure (¬ (isPrefix ∧ ':' ∈ value.toList))
      "route prefix must not contain parameters; declare them on the endpoint path"

/-- The paths of one declared route. -/
structure DeclaredRoute where
  method : HttpMethod
  pathPrefix : String
  path : String
  fullPath : String

/-- One method of a trait, after those with some verbs and paths. -/
def validateMethod (front : String) (declared : List DeclaredRoute)
    (method : HttpMethod × String) : Run String (List DeclaredRoute) := do
  validatePath method.2 "route path" false
  let fullPath := joinPaths front method.2
  Run.ensure (∀ earlier ∈ declared, (earlier.method, earlier.fullPath) ≠ (method.1, fullPath))
    "duplicate HTTP verb and path in this route contract"
  pure (declared ++ [⟨method.1, front, method.2, fullPath⟩])

/-- The routes of a trait with the verbs and paths of its methods. -/
def expand (front : Option String) (methods : List (HttpMethod × String)) :
    Run String (List DeclaredRoute) := do
  front.forM fun front => validatePath front "route prefix" true
  let declared ← methods.foldlM (validateMethod (front.getD "")) []
  Run.ensure (methods ≠ []) "`#[routes]` requires at least one route method"
  pure declared

end RoutesMacro

open AxumPath

namespace Route

variable {value subject front path : String} {isPrefix : Bool} {location : SourceLocation}

/-! ### One grammar -/

/-- What validation reports where the macro reports a message. -/
def reported (subject : String) (location : SourceLocation) (message : String) : Error :=
  metadataError subject message (some location)

theorem validateParameter_eq (parameters : List String) (parameter : String) :
    validateParameter subject location parameters parameter =
      (RoutesMacro.validateParameter subject parameters parameter).mapErr
        (reported subject location) := by
  unfold validateParameter RoutesMacro.validateParameter
  cases parameter.toList with
  | nil => rfl
  | cons first rest =>
    simp only [Run.mapErr_bind, Run.mapErr_ensure]
    rfl

theorem validateSegment_eq (parameters : List String) (segment : String) :
    validateSegment subject location parameters segment =
      (RoutesMacro.validateSegment subject parameters segment).mapErr
        (reported subject location) := by
  unfold validateSegment RoutesMacro.validateSegment
  cases hname : Text.stripPrefix segment ":" with
  | some parameter =>
    simp only [Run.mapErr_bind, Run.mapErr_ensure, validateParameter_eq]
    rfl
  | none =>
    simp only [Run.mapErr_bind, Run.mapErr_ensure]
    rfl

/-- Validation is the check of the macro, but for an empty prefix, which it takes. -/
theorem validatePath_eq (h : ¬ (isPrefix ∧ value = "")) :
    validatePath value isPrefix subject location =
      (RoutesMacro.validatePath value subject isPrefix).mapErr (reported subject location) := by
  have hsegments : ∀ segments : List String,
      segments.foldlM (validateSegment subject location) [] =
        (segments.foldlM (RoutesMacro.validateSegment subject) []).mapErr
          (reported subject location) := by
    intro segments
    rw [Run.mapErr_foldlM]
    simp only [← validateSegment_eq]
  rw [validatePath, if_neg h, RoutesMacro.validatePath]
  by_cases hroot : value = "/"
  · simp only [if_pos hroot, Run.mapErr_bind, Run.mapErr_ensure]
    rfl
  · simp only [if_neg hroot, Run.mapErr_bind, Run.mapErr_ensure, hsegments]
    rfl

theorem validatePath_of_macro (h : RoutesMacro.validatePath value subject isPrefix = .ok ()) :
    validatePath value isPrefix subject location = .ok () := by
  by_cases hempty : isPrefix ∧ value = ""
  · rw [validatePath, if_pos hempty]
    rfl
  · rw [validatePath_eq hempty, h]
    rfl

/-! ### The grammar -/

def Identifier (name : String) : Prop :=
  ∃ first rest, name.toList = first :: rest ∧ (first = '_' ∨ first.isAlpha) ∧
    rest.all (fun c => c = '_' || c.isAlphanum)

def parameterName (segment : String) : Option String := Text.stripPrefix segment ":"

/-- A segment that is a text or one parameter. -/
structure GoodSegment (segment : String) : Prop where
  proper : segment ≠ "" ∧ segment ≠ "." ∧ segment ≠ ".."
  plain : segment.toList.head? ≠ some '*' ∧ '\x7b' ∉ segment.toList ∧ '\x7d' ∉ segment.toList
  named : ∀ name, parameterName segment = some name → Identifier name
  unnamed : parameterName segment = none → ':' ∉ segment.toList

def PathCharacter (c : Char) : Prop :=
  (c ≠ '?' ∧ c ≠ '#') ∧ Guard.isControl c = false ∧ c ≠ '\\' ∧ c ≠ '%' ∧ isWhitespace c = false

/-- A path that validation accepts. -/
structure AcceptedPath (value : String) : Prop where
  head : value.toList.head? = some '/'
  characters : ∀ c ∈ value.toList, PathCharacter c
  last : value = "/" ∨ value.toList.getLast? ≠ some '/'
  segments : value = "/" ∨ ∀ segment ∈ (split value '/').drop 1, GoodSegment segment
  parameters : ((split value '/').filterMap parameterName).Nodup

theorem validateParameter_eq_ok {parameters after : List String} {parameter : String} :
    validateParameter subject location parameters parameter = .ok after ↔
      Identifier parameter ∧ parameter ∉ parameters ∧ after = parameter :: parameters := by
  rw [validateParameter, Identifier]
  cases parameter.toList with
  | nil =>
    refine iff_of_false (fun h => ?_) (by simp)
    cases h
  | cons first rest =>
    dsimp only
    rw [Run.ensure_bind_eq_ok, Run.ensure_bind_eq_ok]
    constructor
    · rintro ⟨hname, hnew, h⟩
      exact ⟨⟨first, rest, rfl, hname⟩, hnew, (Except.ok.inj h).symm⟩
    · rintro ⟨⟨first', rest', heq, hname⟩, hnew, rfl⟩
      obtain ⟨rfl, rfl⟩ := List.cons.inj heq
      exact ⟨hname, hnew, rfl⟩

/-- What one segment adds to the parameters. -/
theorem validateSegment_eq_ok {parameters after : List String} {segment : String} :
    validateSegment subject location parameters segment = .ok after ↔
      GoodSegment segment ∧ (∀ name, parameterName segment = some name → name ∉ parameters) ∧
        after = (parameterName segment).toList ++ parameters := by
  rw [validateSegment, Run.ensure_bind_eq_ok, Run.ensure_bind_eq_ok]
  cases hname : parameterName segment with
  | some name =>
    rw [parameterName] at hname
    rw [hname]
    dsimp only
    rw [validateParameter_eq_ok]
    constructor
    · rintro ⟨hproper, hplain, hidentifier, hnew, rfl⟩
      refine ⟨⟨hproper, hplain, ?_, ?_⟩, ?_, rfl⟩
      · rintro other hother
        obtain rfl := Option.some.inj (hname.symm.trans hother)
        exact hidentifier
      · exact fun hnone => absurd (hname.symm.trans hnone) (Option.some_ne_none name)
      · rintro _ ⟨⟩
        exact hnew
    · rintro ⟨hgood, hnew, rfl⟩
      exact ⟨hgood.proper, hgood.plain, hgood.named name hname, hnew name rfl, rfl⟩
  | none =>
    rw [parameterName] at hname
    rw [hname]
    dsimp only
    rw [Run.ensure_bind_eq_ok]
    constructor
    · rintro ⟨hproper, hplain, hcolon, h⟩
      refine ⟨⟨hproper, hplain, ?_, fun _ => hcolon⟩, nofun, (Except.ok.inj h).symm⟩
      exact fun name hsome => absurd (hname.symm.trans hsome) (Option.some_ne_none name).symm
    · rintro ⟨hgood, -, rfl⟩
      exact ⟨hgood.proper, hgood.plain, hgood.unnamed hname, rfl⟩

/-- A run over segments takes good ones whose parameters are all new. -/
theorem segments_eq_ok {segments parameters after : List String} :
    segments.foldlM (validateSegment subject location) parameters = .ok after ↔
      (∀ segment ∈ segments, GoodSegment segment) ∧ (segments.filterMap parameterName).Nodup ∧
        (∀ name ∈ segments.filterMap parameterName, name ∉ parameters) ∧
        after = (segments.filterMap parameterName).reverse ++ parameters := by
  induction segments generalizing parameters with
  | nil => simp [eq_comm]
  | cons segment segments ih =>
    rw [List.foldlM_cons, Run.bind_eq_ok]
    simp only [validateSegment_eq_ok, ih]
    cases hname : parameterName segment with
    | none =>
      rw [List.filterMap_cons_none hname, List.forall_mem_cons]
      constructor
      · rintro ⟨_, ⟨hgood, -, rfl⟩, hall, hnodup, hnew, rfl⟩
        exact ⟨⟨hgood, hall⟩, hnodup, hnew, rfl⟩
      · rintro ⟨⟨hgood, hall⟩, hnodup, hnew, rfl⟩
        refine ⟨_, ⟨hgood, fun name hnone => ?_, rfl⟩, hall, hnodup, hnew, rfl⟩
        cases hnone
    | some name =>
      rw [List.filterMap_cons_some hname, List.forall_mem_cons, List.nodup_cons,
        List.forall_mem_cons]
      constructor
      · rintro ⟨_, ⟨hgood, hfresh, rfl⟩, hall, hnodup, hnew, rfl⟩
        refine ⟨⟨hgood, hall⟩, ⟨fun hmem => ?_, hnodup⟩, ⟨hfresh name rfl, ?_⟩, by simp⟩
        · exact hnew name hmem (List.mem_append_left _ (by simp))
        · exact fun other hother hmem => hnew other hother (List.mem_append_right _ hmem)
      · rintro ⟨⟨hgood, hall⟩, ⟨hlater, hnodup⟩, ⟨hfresh, hnew⟩, rfl⟩
        refine ⟨_, ⟨hgood, ?_, rfl⟩, hall, hnodup, ?_, by simp⟩
        · intro other hother
          obtain rfl := Option.some.inj hother
          exact hfresh
        · intro other hother hmem
          obtain rfl | hmem := List.mem_cons.mp hmem
          · exact hlater hother
          · exact hnew other hother hmem

theorem characters_iff {chars : List Char} :
    (∀ c ∈ chars, PathCharacter c) ↔ ('?' ∉ chars ∧ '#' ∉ chars) ∧
      ¬ chars.any Guard.isControl ∧ '\\' ∉ chars ∧ '%' ∉ chars ∧ ¬ chars.any isWhitespace := by
  have hnotMem : ∀ c : Char, c ∉ chars ↔ ∀ x ∈ chars, x ≠ c := fun c =>
    ⟨fun h x hx heq => h (heq ▸ hx), fun h hc => h c hc rfl⟩
  simp only [PathCharacter, hnotMem, List.any_eq_true, not_exists, not_and, Bool.not_eq_true,
    forall_and]

theorem filterMap_drop_one {value : String} (h : value.toList.head? = some '/') :
    ((split value '/').drop 1).filterMap parameterName =
      (split value '/').filterMap parameterName := by
  obtain ⟨first, rest, hsplit⟩ := split_of_head h
  rw [hsplit]
  rfl

/-- What validation takes: an empty prefix, and paths, which have no parameter in a prefix. -/
theorem validatePath_eq_ok : validatePath value isPrefix subject location = .ok () ↔
    (isPrefix ∧ value = "") ∨ AcceptedPath value ∧ ¬ (isPrefix ∧ ':' ∈ value.toList) := by
  rw [validatePath]
  by_cases hempty : isPrefix ∧ value = ""
  · rw [if_pos hempty]
    exact iff_of_true rfl (.inl hempty)
  · rw [if_neg hempty, or_iff_right hempty]
    simp only [Run.ensure_bind_eq_ok]
    by_cases hroot : value = "/"
    · rw [if_pos hroot]
      subst hroot
      refine iff_of_true ⟨by decide, by decide, by decide, by decide, by decide, rfl⟩
        ⟨⟨by decide, characters_iff.mpr (by decide), .inl rfl, .inl rfl, by decide⟩, by simp⟩
    · rw [if_neg hroot]
      simp only [Run.bind_eq_ok, Run.ensure_eq_ok, segments_eq_ok]
      constructor
      · rintro ⟨hhead, hquery, hcontrol, hspecial, hlast, _, ⟨hall, hnodup, -, -⟩, hprefix⟩
        refine ⟨⟨hhead, characters_iff.mpr ⟨hquery, hcontrol, hspecial⟩, hlast, .inr hall, ?_⟩,
          hprefix⟩
        rwa [filterMap_drop_one hhead] at hnodup
      · rintro ⟨hpath, hprefix⟩
        obtain ⟨hquery, hcontrol, hspecial⟩ := characters_iff.mp hpath.characters
        refine ⟨hpath.head, hquery, hcontrol, hspecial, hpath.last, _,
          ⟨hpath.segments.resolve_left hroot, ?_, fun name _ => List.not_mem_nil, rfl⟩, hprefix⟩
        rw [filterMap_drop_one hpath.head]
        exact hpath.parameters

/-! ### Joined paths -/

theorem split_append_of_head (h : path.toList.head? = some '/') :
    split (front ++ path) '/' = split front '/' ++ (split path '/').drop 1 := by
  obtain ⟨chars, hchars⟩ : ∃ chars, path.toList = '/' :: chars := List.head?_eq_some_iff.mp h
  have hpath : split path '/' = "" :: (chars.splitOn '/').map String.ofList := by
    rw [split, hchars, List.splitOn_cons_eq_if_modifyHead, if_pos (by simp)]
    rfl
  rw [hpath, split, split, String.toList_append, hchars, List.splitOn_append_cons_self,
    List.map_append]
  rfl

theorem parameterName_colon (name : String) : parameterName (":" ++ name) = some name :=
  stripPrefix_colon name

theorem parameterName_of_notMem {segment : String} (h : ':' ∉ segment.toList) :
    parameterName segment = none := stripPrefix_static h

theorem mem_intercalate {α : Type} {separator part : List α} {parts : List (List α)} {c : α}
    (hpart : part ∈ parts) (hc : c ∈ part) : c ∈ separator.intercalate parts := by
  induction parts with
  | nil => cases hpart
  | cons first parts ih =>
    cases parts with
    | nil =>
      rw [List.mem_singleton.mp hpart] at hc
      rwa [List.intercalate_singleton]
    | cons next parts =>
      rw [List.intercalate_cons_cons, List.mem_append, List.mem_append]
      obtain rfl | hpart := List.mem_cons.mp hpart
      · exact .inl (.inl hc)
      · exact .inr (ih hpart)

theorem notMem_of_mem_split {c : Char} (h : c ∉ value.toList) {segment : String}
    (hsegment : segment ∈ split value '/') : c ∉ segment.toList := by
  obtain ⟨-, -, hvalue⟩ := split_eq_iff.mp (rfl : split value '/' = split value '/')
  rw [hvalue] at h
  exact fun hc => h (mem_intercalate (List.mem_map_of_mem hsegment) hc)

/-- The join of a prefix without parameters and a path. -/
theorem AcceptedPath.join (hfront : AcceptedPath front) (hcolon : ':' ∉ front.toList)
    (hpath : AcceptedPath path) : AcceptedPath (canonicalJoin front path) := by
  rw [canonicalJoin]
  split
  · exact hpath
  · next hne =>
    rw [not_or] at hne
    split
    · exact hfront
    · next hroot =>
      have hsplit : split (front ++ path) _ = _ := split_append_of_head hpath.head
      obtain ⟨first, rest, hfrontSplit⟩ := split_of_head hfront.head
      have hnames : (split front '/').filterMap parameterName = [] := by
        rw [List.filterMap_eq_nil_iff]
        exact fun segment hsegment => parameterName_of_notMem (notMem_of_mem_split hcolon hsegment)
      refine ⟨?_, ?_, .inr ?_, .inr ?_, ?_⟩
      · rw [String.toList_append, List.head?_append, hfront.head]
        rfl
      · intro c hc
        rw [String.toList_append, List.mem_append] at hc
        exact hc.elim (hfront.characters c) (hpath.characters c)
      · rw [String.toList_append, List.getLast?_append_of_ne_nil]
        · exact hpath.last.resolve_left hroot
        · exact List.ne_nil_of_mem (List.mem_of_mem_head? hpath.head)
      · intro segment hsegment
        rw [hsplit, hfrontSplit, List.cons_append, List.drop_one, List.tail_cons,
          List.mem_append] at hsegment
        obtain hsegment | hsegment := hsegment
        · refine (hfront.segments.resolve_left hne.2) segment ?_
          rwa [hfrontSplit]
        · exact (hpath.segments.resolve_left hroot) segment hsegment
      · rw [hsplit, List.filterMap_append, hnames, filterMap_drop_one hpath.head]
        exact hpath.parameters

/-- What the macro declares: each method under the prefix, with paths that validation accepts. -/
theorem declared_of_expand {front : Option String} {methods : List (HttpMethod × String)}
    {declared : List RoutesMacro.DeclaredRoute}
    (h : RoutesMacro.expand front methods = .ok declared) :
    declared = methods.map (fun method => ⟨method.1, front.getD "", method.2,
        canonicalJoin (front.getD "") method.2⟩) ∧
      (front.getD "" = "" ∨ AcceptedPath (front.getD "") ∧ ':' ∉ (front.getD "").toList) ∧
      ∀ method ∈ methods, AcceptedPath method.2 := by
  obtain ⟨_, hfront, h⟩ := Run.bind_eq_ok.mp h
  obtain ⟨found, hfold, h⟩ := Run.bind_eq_ok.mp h
  obtain ⟨-, h⟩ := Run.ensure_bind_eq_ok.mp h
  obtain rfl := Except.ok.inj h
  have haccepted : ∀ path, RoutesMacro.validatePath path "route path" false = .ok () →
      AcceptedPath path := by
    intro path hpath
    have hok : validatePath path false "route path" ⟨"", 0, 0⟩ = .ok () :=
      validatePath_of_macro hpath
    obtain ⟨hempty, -⟩ | ⟨hpath, -⟩ := validatePath_eq_ok.mp hok
    · cases hempty
    · exact hpath
  have hdeclared : found = methods.map (fun method => ⟨method.1, front.getD "", method.2,
      canonicalJoin (front.getD "") method.2⟩) ∧ ∀ method ∈ methods, AcceptedPath method.2 := by
    refine Run.foldlM_seen (P := fun seen (found : List RoutesMacro.DeclaredRoute) =>
      found = seen.map (fun method => ⟨method.1, front.getD "", method.2,
        canonicalJoin (front.getD "") method.2⟩) ∧ ∀ method ∈ seen, AcceptedPath method.2)
      ?_ ⟨rfl, fun _ hnone => absurd hnone List.not_mem_nil⟩ hfold
    rintro seen found method next ⟨rfl, hseen⟩ hok
    obtain ⟨_, hpath, hok⟩ := Run.bind_eq_ok.mp hok
    obtain ⟨-, hok⟩ := Run.ensure_bind_eq_ok.mp hok
    obtain rfl := Except.ok.inj hok
    rw [List.map_append, List.forall_mem_append, List.forall_mem_singleton]
    exact ⟨rfl, hseen, haccepted method.2 hpath⟩
  refine ⟨hdeclared.1, ?_, hdeclared.2⟩
  cases front with
  | none => exact .inl rfl
  | some front =>
    have hok : validatePath front true "route prefix" ⟨"", 0, 0⟩ = .ok () :=
      validatePath_of_macro hfront
    obtain ⟨-, hempty⟩ | ⟨hpath, hcolon⟩ := validatePath_eq_ok.mp hok
    · exact .inl hempty
    · exact .inr ⟨hpath, fun hc => hcolon ⟨rfl, hc⟩⟩

/-! ### Patterns and renaming -/

theorem captureName_capture (name : String) :
    captureName ("\x7b" ++ name ++ "\x7d") = some name := by
  rw [captureName, String.append_assoc, stripPrefix_append]
  exact stripSuffix_append

theorem captureName_static {segment : String} (h : NoBraces segment) :
    captureName segment = none := by
  rw [captureName, stripPrefix_eq_none]
  · rfl
  · rintro ⟨rest, hrest⟩
    exact h.1 (by rw [← hrest]; simp)

/-- The parameters of a valid path are what its router path captures. -/
theorem captures_toAxumPath (h : ValidPath path) :
    captures (toAxumPath path) = (split path '/').filterMap parameterName := by
  rw [captures, split_toAxumPath, List.filterMap_map]
  apply List.filterMap_congr
  intro segment hsegment
  obtain ⟨name, rfl, -, -, -, haxum⟩ | ⟨hcolon, hbraces, -, -, haxum⟩ :=
    segment_cases (h.2 segment hsegment)
  · rw [Function.comp_apply, haxum, captureName_capture, parameterName_colon]
  · rw [Function.comp_apply, haxum, captureName_static hbraces, parameterName_of_notMem hcolon]

theorem erasedSegment_renameSegment (rename : String → String) (segment : String) :
    erasedSegment (renameSegment rename segment) = erasedSegment segment := by
  rw [renameSegment]
  cases hname : captureName segment with
  | none => rfl
  | some name =>
    obtain ⟨inner, hopen, hclose⟩ := Option.bind_eq_some_iff.mp hname
    rw [stripPrefix_eq_some.mp hopen, stripSuffix_eq_some.mp hclose, ← String.append_assoc,
      erasedSegment_capture, erasedSegment_capture]

/-- Two valid segments of one pattern are two parameters or the same text. -/
theorem same_pattern_cases {left right : String} (hleft : ValidSegment left)
    (hright : ValidSegment right) (h : canonicalSegment left = canonicalSegment right) :
    (∃ name name', left = ":" ++ name ∧ right = ":" ++ name' ∧
        axumSegment left = "\x7b" ++ name ++ "\x7d" ∧
        axumSegment right = "\x7b" ++ name' ++ "\x7d") ∨
      (left = right ∧ ':' ∉ left.toList ∧ NoBraces left ∧ axumSegment left = left) := by
  obtain ⟨name, rfl, -, -, hcanonical, haxum⟩ | ⟨hcolon, hbraces, -, hcanonical, haxum⟩ :=
    segment_cases hleft
  · obtain ⟨name', rfl, -, -, -, haxum'⟩ | ⟨hcolon', -, -, hcanonical', -⟩ := segment_cases hright
    · exact .inl ⟨name, name', rfl, rfl, haxum, haxum'⟩
    · rw [hcanonical, hcanonical'] at h
      exact absurd (by rw [← h]; simp) hcolon'
  · obtain ⟨name', rfl, -, -, hcanonical', -⟩ | ⟨-, -, -, hcanonical', -⟩ := segment_cases hright
    · rw [hcanonical, hcanonical'] at h
      exact absurd (by rw [h]; simp) hcolon
    · rw [hcanonical, hcanonical'] at h
      exact .inr ⟨h, hcolon, hbraces, haxum⟩

/-- A map of names takes segments of one pattern to each other exactly if it takes their parameters
to each other. -/
theorem map_renameSegment_iff {rename : String → String} {lefts rights : List String}
    (hlefts : ∀ segment ∈ lefts, ValidSegment segment)
    (hrights : ∀ segment ∈ rights, ValidSegment segment)
    (h : lefts.map canonicalSegment = rights.map canonicalSegment) :
    (lefts.map axumSegment).map (renameSegment rename) = rights.map axumSegment ↔
      (lefts.filterMap parameterName).map rename = rights.filterMap parameterName := by
  induction lefts generalizing rights with
  | nil =>
    obtain rfl : rights = [] := List.map_eq_nil_iff.mp h.symm
    exact iff_of_true rfl rfl
  | cons left lefts ih =>
    cases rights with
    | nil => cases h
    | cons right rights =>
      rw [List.map_cons, List.map_cons, List.cons.injEq] at h
      rw [List.forall_mem_cons] at hlefts hrights
      have hrest := ih hlefts.2 hrights.2 h.2
      obtain ⟨name, name', rfl, rfl, haxum, haxum'⟩ | ⟨rfl, hcolon, hbraces, haxum⟩ :=
        same_pattern_cases hlefts.1 hrights.1 h.1
      · rw [List.map_cons, List.map_cons, List.map_cons, List.cons.injEq, haxum, haxum', hrest,
          List.filterMap_cons_some (parameterName_colon name),
          List.filterMap_cons_some (parameterName_colon name'), List.map_cons, List.cons.injEq,
          renameSegment, captureName_capture]
        simp [← String.toList_inj]
      · have hnone := parameterName_of_notMem hcolon
        rw [List.map_cons, List.map_cons, List.map_cons, List.cons.injEq, haxum, hrest,
          List.filterMap_cons_none hnone, List.filterMap_cons_none hnone, renameSegment,
          captureName_static hbraces]
        exact and_iff_right rfl

theorem length_parameters {lefts rights : List String}
    (hlefts : ∀ segment ∈ lefts, ValidSegment segment)
    (hrights : ∀ segment ∈ rights, ValidSegment segment)
    (h : lefts.map canonicalSegment = rights.map canonicalSegment) :
    (lefts.filterMap parameterName).length = (rights.filterMap parameterName).length := by
  induction lefts generalizing rights with
  | nil =>
    obtain rfl : rights = [] := List.map_eq_nil_iff.mp h.symm
    rfl
  | cons left lefts ih =>
    cases rights with
    | nil => cases h
    | cons right rights =>
      rw [List.map_cons, List.map_cons, List.cons.injEq] at h
      rw [List.forall_mem_cons] at hlefts hrights
      have hrest := ih hlefts.2 hrights.2 h.2
      obtain ⟨name, name', rfl, rfl, -, -⟩ | ⟨rfl, hcolon, -, -⟩ :=
        same_pattern_cases hlefts.1 hrights.1 h.1
      · rw [List.filterMap_cons_some (parameterName_colon name),
          List.filterMap_cons_some (parameterName_colon name'), List.length_cons, List.length_cons,
          hrest]
      · have hnone := parameterName_of_notMem hcolon
        rw [List.filterMap_cons_none hnone, List.filterMap_cons_none hnone, hrest]

/-- Distinct names can be mapped to any names. -/
theorem exists_rename {names names' : List String} (hnodup : names.Nodup)
    (hlength : names.length = names'.length) : ∃ rename : String → String,
      names.map rename = names' := by
  induction names generalizing names' with
  | nil => exact ⟨id, (List.length_eq_zero_iff.mp hlength.symm).symm⟩
  | cons name names ih =>
    cases names' with
    | nil => cases hlength
    | cons name' names' =>
      rw [List.nodup_cons] at hnodup
      obtain ⟨rename, hrename⟩ := ih hnodup.2 (Nat.succ.inj hlength)
      refine ⟨Function.update rename name name', ?_⟩
      rw [List.map_cons, Function.update_self, List.cons.injEq]
      refine ⟨rfl, ?_⟩
      rw [← hrename]
      apply List.map_congr_left
      intro other hother
      have hne : other ≠ name := fun heq => hnodup.1 (heq ▸ hother)
      exact Function.update_of_ne hne _ _

/-- Accepted paths have one pattern exactly if their router paths are equal up to renaming. -/
theorem canonicalPattern_eq_iff_renamedTo {left right : String} (hleft : ValidPath left)
    (hright : ValidPath right) (hleftNames : ((split left '/').filterMap parameterName).Nodup)
    (hrightNames : ((split right '/').filterMap parameterName).Nodup) :
    canonicalPattern left = canonicalPattern right ↔
      RenamedTo (toAxumPath left) (toAxumPath right) := by
  constructor
  · intro h
    have hsegments : (split left '/').map canonicalSegment =
        (split right '/').map canonicalSegment := by
      rw [← split_canonicalPattern, ← split_canonicalPattern, h]
    obtain ⟨rename, hrename⟩ := exists_rename hleftNames
      (length_parameters hleft.2 hright.2 hsegments)
    refine ⟨rename, ?_, ?_⟩
    · intro name hname name' hname' heq
      change name ∈ captures (toAxumPath left) at hname
      change name' ∈ captures (toAxumPath left) at hname'
      rw [captures_toAxumPath hleft] at hname hname'
      rw [← hrename] at hrightNames
      exact List.inj_on_of_nodup_map hrightNames hname hname' heq
    · rw [split_toAxumPath, split_toAxumPath]
      exact (map_renameSegment_iff hleft.2 hright.2 hsegments).mpr hrename
  · rintro ⟨rename, -, hrename⟩
    rw [← erased_toAxumPath hleft hright]
    have herased : ∀ path, erased path = (split path '/').map erasedSegment := fun path => rfl
    rw [herased, herased, ← hrename, List.map_map]
    apply List.map_congr_left
    intro segment _
    exact (erasedSegment_renameSegment rename segment).symm

end Route

open Route in
/-- What the macro accepts, validation accepts, and patterns tell accepted paths apart as the router
does. -/
theorem routes_macro_agrees :
    (∀ front methods declared, RoutesMacro.expand front methods = .ok declared →
      ∀ method ∈ methods, ∀ location,
        validatePath method.2 false "route path" location = .ok () ∧
        validatePath (front.getD "") true "route prefix" location = .ok () ∧
        validatePath (canonicalJoin (front.getD "") method.2) false "route full path" location =
          .ok () ∧
        ∃ route ∈ declared, route = ⟨method.1, front.getD "", method.2,
          canonicalJoin (front.getD "") method.2⟩) ∧
    ∀ left right subject location, validatePath left false subject location = .ok () →
      validatePath right false subject location = .ok () →
      (canonicalPattern left = canonicalPattern right ↔
        AxumPath.RenamedTo (toAxumPath left) (toAxumPath right)) := by
  constructor
  · intro front methods declared h method hmethod location
    obtain ⟨rfl, hfront, hpaths⟩ := declared_of_expand h
    have hpath := hpaths method hmethod
    refine ⟨validatePath_eq_ok.mpr (.inr ⟨hpath, by simp⟩), validatePath_eq_ok.mpr ?_,
      validatePath_eq_ok.mpr (.inr ⟨?_, by simp⟩), _, List.mem_map_of_mem hmethod, rfl⟩
    · exact hfront.imp (⟨rfl, ·⟩) fun ⟨haccepted, hcolon⟩ => ⟨haccepted, fun hc => hcolon hc.2⟩
    · obtain hempty | ⟨haccepted, hcolon⟩ := hfront
      · rw [hempty, canonicalJoin, if_pos (.inl rfl)]
        exact hpath
      · exact haccepted.join hcolon hpath
  · intro left right subject location hleft hright
    have haccepted {path} (h : validatePath path false subject location = .ok ()) :
        AcceptedPath path := by
      obtain ⟨hempty, -⟩ | ⟨hpath, -⟩ := validatePath_eq_ok.mp h
      · cases hempty
      · exact hpath
    exact canonicalPattern_eq_iff_renamedTo (validPath_of_validatePath hleft)
      (validPath_of_validatePath hright) (haccepted hleft).parameters (haccepted hright).parameters

open Route in
theorem routes_macro_agrees_sample :
    validatePath "/api/users/:id" false "route full path" ⟨"users.rs", 9, 1⟩ = .ok () ∧
      (canonicalPattern "/users/:id" = canonicalPattern "/users/:name" ↔
        AxumPath.RenamedTo (toAxumPath "/users/:id") (toAxumPath "/users/:name")) := by
  obtain ⟨haccepts, hpatterns⟩ := routes_macro_agrees
  have hexpand : RoutesMacro.expand (some "/api") [(.get, "/users/:id")] =
      .ok [⟨.get, "/api", "/users/:id", "/api/users/:id"⟩] := rfl
  obtain ⟨-, -, hfull, -⟩ := haccepts _ _ _ hexpand (.get, "/users/:id")
    (List.mem_singleton_self _) ⟨"users.rs", 9, 1⟩
  exact ⟨hfull, hpatterns "/users/:id" "/users/:name" "route full path" ⟨"users.rs", 9, 1⟩ rfl rfl⟩

end Mads
