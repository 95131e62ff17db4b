import Mads.Core.ConfigMerge
import Mads.Library.LastWins
import Mathlib.Data.List.MinMax

/-!
# What flattening a TOML file keeps

The keys of nested tables are joined by dots. The values of the file lie under different keys
unless quoted keys contain dots, and an empty key at the top vanishes from the joined key.
-/

namespace Mads

open Text

namespace TomlValue

mutual

/-- The values below a value that are no tables, with their paths. -/
def leaves : TomlValue → List (List String × TomlValue)
  | .table entries => entryLeaves entries
  | .string value => [([], .string value)]
  | .integer value => [([], .integer value)]
  | .float value => [([], .float value)]
  | .boolean value => [([], .boolean value)]
  | .array values => [([], .array values)]
  | .datetime => [([], .datetime)]

def entryLeaves : List (String × TomlValue) → List (List String × TomlValue)
  | [] => []
  | (segment, value) :: entries =>
    value.leaves.map (fun (path, leaf) => (segment :: path, leaf)) ++ entryLeaves entries

end

mutual

/-- No table holds a key twice. -/
def DistinctKeys : TomlValue → Prop
  | .table entries => (entries.map Prod.fst).Nodup ∧ DistinctEntries entries
  | _ => True

def DistinctEntries : List (String × TomlValue) → Prop
  | [] => True
  | (_, value) :: entries => value.DistinctKeys ∧ DistinctEntries entries

end

def asString : TomlValue → Option String
  | .string text => some text
  | _ => none

/-- The entry that holds a leaf. -/
def written : TomlValue → Option ConfigEntry
  | .string value => some (.scalar value)
  | .integer value => some (.scalar (toString value))
  | .float value => some (.scalar value)
  | .boolean value => some (.scalar (toString value))
  | .array values => (values.mapM asString).map .stringArray
  | .table _ => none
  | .datetime => none

/-- The key of a path in a file. -/
def joined (path : List String) : String := ".".intercalate path

/-- A document says what the leaves say, each under its own path. -/
structure Lossless (value : TomlValue) (document : ConfigDocument) : Prop where
  apart : ∀ left ∈ value.leaves, ∀ right ∈ value.leaves, joined left.1 = joined right.1 →
    left.1 = right.1
  kept : ∀ leaf ∈ value.leaves, ∃ entry,
    leaf.2.written = some entry ∧ document.entry (joined leaf.1) = some entry
  only : ∀ key entry, document.entry key = some entry →
    ∃ leaf ∈ value.leaves, joined leaf.1 = key ∧ leaf.2.written = some entry

/-- The segments of a path, where a quoted key is cut at its dots. -/
def pieces (path : List String) : List String := path.flatMap (split · '.')

/-- No table at the top has an empty key, and quoted keys with dots hide no other path. -/
structure UnambiguousPaths (value : TomlValue) : Prop where
  named : ∀ leaf ∈ value.leaves, ∀ segment rest, leaf.1 ≠ "" :: segment :: rest
  apart : ∀ left ∈ value.leaves, ∀ right ∈ value.leaves, pieces left.1 = pieces right.1 →
    left.1 = right.1

end TomlValue

/-- A parsed file is a table, and no table of it holds a key twice. -/
def TomlParsers.Lawful (parsers : TomlParsers) : Prop :=
  ∀ input value, parsers.value input = some value →
    (∃ entries, value = .table entries) ∧ value.DistinctKeys

namespace TomlFlattening

open TomlValue

variable {parent key : String} {output document : ConfigDocument} {value : TomlValue}
  {entries : List (String × TomlValue)} {path : List String}

/-! ### The leaves -/

theorem head_of_mem_entryLeaves {leaf : List String × TomlValue} (h : leaf ∈ entryLeaves entries) :
    ∃ segment ∈ entries.map Prod.fst, ∃ rest, leaf.1 = segment :: rest := by
  induction entries with
  | nil => cases h
  | cons entry entries ih =>
    rw [entryLeaves, List.mem_append, List.mem_map] at h
    obtain ⟨below, -, rfl⟩ | h := h
    · exact ⟨entry.1, List.mem_cons_self, below.1, rfl⟩
    · obtain ⟨segment, hsegment, hrest⟩ := ih h
      exact ⟨segment, List.mem_cons_of_mem _ hsegment, hrest⟩

mutual

/-- Different leaves have different paths. -/
theorem nodup_paths : ∀ value : TomlValue, value.DistinctKeys →
    (value.leaves.map Prod.fst).Nodup
  | .table entries, h => by
    rw [DistinctKeys] at h
    rw [leaves]
    exact nodup_entryPaths entries h.1 h.2
  | .string _, _ | .integer _, _ | .float _, _ | .boolean _, _ | .array _, _ | .datetime, _ => by
    simp [leaves]

theorem nodup_entryPaths : ∀ entries : List (String × TomlValue), (entries.map Prod.fst).Nodup →
    DistinctEntries entries → ((entryLeaves entries).map Prod.fst).Nodup
  | [], _, _ => by simp [entryLeaves]
  | (segment, value) :: entries, hkeys, h => by
    rw [DistinctEntries] at h
    rw [List.map_cons, List.nodup_cons] at hkeys
    have hvalue := nodup_paths value h.1
    have hrest := nodup_entryPaths entries hkeys.2 h.2
    rw [entryLeaves, List.map_append, List.map_map, List.nodup_append]
    refine ⟨?_, hrest, ?_⟩
    · have hcons := hvalue.map (List.cons_injective (a := segment))
      rwa [List.map_map] at hcons
    · -- a leaf of another entry starts with another key
      rintro _ hleft right hright rfl
      obtain ⟨below, -, heq⟩ := List.mem_map.mp hleft
      obtain ⟨leaf, hleaf, rfl⟩ := List.mem_map.mp hright
      obtain ⟨other, hother, rest, hpath⟩ := head_of_mem_entryLeaves hleaf
      rw [hpath] at heq
      obtain ⟨rfl, -⟩ := List.cons.inj heq
      exact hkeys.1 hother

end

/-! ### The entries -/

/-- The key of a leaf below a key. -/
def keyBelow (parent : String) (path : List String) : String := path.foldl childKey parent

/-- What a leaf says about a key. -/
def tells (parent key : String) (leaf : List String × TomlValue) : Option ConfigEntry :=
  if keyBelow parent leaf.1 = key then leaf.2.written else none

/-- What is said about each key after some more leaves. -/
def overlaid (parent : String) (read : String → Option ConfigEntry)
    (leaves : List (List String × TomlValue)) : String → Option ConfigEntry :=
  leaves.foldl (fun read leaf key => (tells parent key leaf).or (read key)) read

/-- A document with an entry of either shape put at a key. -/
def withEntry (output : ConfigDocument) (key : String) : ConfigEntry → ConfigDocument
  | .scalar text => output.insertScalar key text
  | .stringArray texts => output.insertStringArray key texts

/-- An entry that is put at a key is there, and the other keys keep theirs. -/
theorem entry_withEntry (entry : ConfigEntry) : (withEntry output parent entry).entry =
    fun key => (if parent = key then some entry else none).or (output.entry key) := by
  funext key
  by_cases hkey : key = parent
  · subst hkey
    cases entry <;> simp [withEntry, ConfigDocument.entry, ConfigDocument.insertScalar,
      ConfigDocument.insertStringArray, SortedMap.get_erase]
  · rw [if_neg (Ne.symm hkey)]
    cases entry <;> simp [withEntry, ConfigDocument.entry, ConfigDocument.insertScalar,
      ConfigDocument.insertStringArray, SortedMap.get_erase, SortedMap.get_insert_of_ne hkey, hkey]

theorem mapM_asString_of_ok {values : List TomlValue} {texts : List String}
    (h : stringElements parent values = .ok texts) : values.mapM asString = some texts := by
  rw [stringElements] at h
  induction values generalizing texts with
  | nil =>
    obtain rfl : [] = texts := Except.ok.inj h
    rfl
  | cons value values ih =>
    rw [List.mapM_cons] at h
    obtain ⟨text, htext, h⟩ := Run.bind_eq_ok.mp h
    obtain ⟨rest, hrest, h⟩ := Run.bind_eq_ok.mp h
    obtain rfl := Except.ok.inj h
    rw [List.mapM_cons, ih hrest]
    have hvalue : value.asString = some text := by
      cases value with
      | string found =>
        obtain rfl := Except.ok.inj htext
        rfl
      | table | integer | float | boolean | array | datetime => cases htext
    rw [hvalue]
    rfl

/-- A scalar that a document takes is its entry at the key. -/
theorem scalar_flattened {text : String}
    (h : insertRootedScalar parent text output = .ok document) :
    document.entry =
      fun key => (if parent = key then some (.scalar text) else none).or (output.entry key) := by
  rw [insertRootedScalar] at h
  split at h
  · cases h
  · obtain rfl := Except.ok.inj h
    exact entry_withEntry (.scalar text)

mutual

/-- Flattening puts each leaf under the key below which it lies. -/
theorem flattenToml_entry : ∀ (value : TomlValue) (parent : String)
    (output document : ConfigDocument), flattenToml parent output value = .ok document →
    (∀ leaf ∈ value.leaves, leaf.2.written.isSome) ∧
      document.entry = overlaid parent output.entry value.leaves
  | .table entries, parent, output, document, h => by
    rw [flattenToml] at h
    have hentries := flattenEntries_entry entries _ _ _ h
    rw [leaves]
    by_cases hparent : parent = ""
    · rwa [if_pos hparent] at hentries
    · rwa [if_neg hparent] at hentries
  | .string text, _, _, _, h => ⟨by simp [leaves, written], scalar_flattened h⟩
  | .integer value, _, _, _, h => ⟨by simp [leaves, written], scalar_flattened h⟩
  | .float text, _, _, _, h => ⟨by simp [leaves, written], scalar_flattened h⟩
  | .boolean value, _, _, _, h => ⟨by simp [leaves, written], scalar_flattened h⟩
  | .array values, parent, output, document, h => by
    rw [flattenToml] at h
    obtain ⟨texts, htexts, h⟩ := Run.bind_eq_ok.mp h
    obtain rfl := Except.ok.inj h
    have hwritten : (TomlValue.array values).written = some (.stringArray texts) := by
      rw [written, mapM_asString_of_ok htexts, Option.map_some]
    constructor
    · simp [leaves, hwritten]
    · refine (entry_withEntry (.stringArray texts)).trans ?_
      rw [← hwritten]
      rfl
  | .datetime, _, _, _, h => by cases h

theorem flattenEntries_entry : ∀ (entries : List (String × TomlValue)) (parent : String)
    (output document : ConfigDocument), flattenEntries parent output entries = .ok document →
    (∀ leaf ∈ entryLeaves entries, leaf.2.written.isSome) ∧
      document.entry = overlaid parent output.entry (entryLeaves entries)
  | [], _, _, _, h => by
    obtain rfl := Except.ok.inj h
    exact ⟨nofun, rfl⟩
  | (segment, value) :: entries, parent, output, document, h => by
    rw [flattenEntries] at h
    obtain ⟨middle, hmiddle, h⟩ := Run.bind_eq_ok.mp h
    obtain ⟨hvalue, hread⟩ := flattenToml_entry value _ _ _ hmiddle
    obtain ⟨hrest, heq⟩ := flattenEntries_entry entries _ _ _ h
    constructor
    · intro leaf hleaf
      rw [entryLeaves, List.mem_append, List.mem_map] at hleaf
      obtain ⟨below, hbelow, rfl⟩ | hleaf := hleaf
      · exact hvalue below hbelow
      · exact hrest leaf hleaf
    · rw [heq, hread, entryLeaves, overlaid, overlaid, overlaid, List.foldl_append, List.foldl_map]
      rfl

end

/-- What an accepted file says about a key is what the last leaf under that key says. -/
theorem entry_eq_some_iff (h : flattenToml "" .new value = .ok document) {entry : ConfigEntry} :
    document.entry key = some entry ↔ LastWins (tells "" key) value.leaves entry := by
  rw [(flattenToml_entry value _ _ _ h).2]
  exact LastWins.iff_foldl _ (fun read : String → Option ConfigEntry => read key) rfl fun _ _ => rfl

/-! ### The keys of paths -/

@[simp] theorem joined_nil : joined [] = "" := rfl

@[simp] theorem joined_singleton (segment : String) : joined [segment] = segment :=
  String.intercalate_singleton

theorem joined_cons_cons (segment next : String) (path : List String) :
    joined (segment :: next :: path) = segment ++ "." ++ joined (next :: path) :=
  String.intercalate_cons_cons

theorem childKey_empty (segment : String) : childKey "" segment = segment := if_pos rfl

theorem keyBelow_of_ne (h : parent ≠ "") : keyBelow parent path = joined (parent :: path) := by
  induction path generalizing parent with
  | nil => exact (joined_singleton parent).symm
  | cons segment path ih =>
    have hchild : childKey parent segment = parent ++ "." ++ segment := if_neg h
    have hne : parent ++ "." ++ segment ≠ "" := by simp [h]
    rw [joined_cons_cons]
    change keyBelow (childKey parent segment) path = _
    rw [hchild, ih hne]
    cases path with
    | nil => rw [joined_singleton, joined_singleton]
    | cons next path =>
      rw [joined_cons_cons, joined_cons_cons]
      simp only [String.append_assoc]

/-- A key is the path of its leaf unless the path starts with an empty key. -/
theorem keyBelow_eq_joined (h : ∀ segment rest, path ≠ "" :: segment :: rest) :
    keyBelow "" path = joined path := by
  cases path with
  | nil => rfl
  | cons segment path =>
    change keyBelow (childKey "" segment) path = _
    rw [childKey_empty]
    by_cases hsegment : segment = ""
    · subst hsegment
      cases path with
      | nil => rfl
      | cons next path => exact absurd rfl (h next path)
    · exact keyBelow_of_ne hsegment

theorem length_keyBelow_le (path : List String) :
    (keyBelow "" path).length ≤ (joined path).length := by
  induction path with
  | nil => exact le_rfl
  | cons segment path ih =>
    change (keyBelow (childKey "" segment) path).length ≤ _
    rw [childKey_empty]
    by_cases hsegment : segment = ""
    · subst hsegment
      cases path with
      | nil => exact le_rfl
      | cons next path =>
        rw [joined_cons_cons, String.length_append]
        omega
    · rw [keyBelow_of_ne hsegment]

theorem length_keyBelow_lt (segment : String) (path : List String) :
    (keyBelow "" ("" :: segment :: path)).length < (joined ("" :: segment :: path)).length := by
  have hle := length_keyBelow_le (segment :: path)
  have hlength : (joined ("" :: segment :: path)).length =
      1 + (joined (segment :: path)).length := by
    rw [joined_cons_cons, String.length_append]
    rfl
  have hkey : keyBelow "" ("" :: segment :: path) = keyBelow "" (segment :: path) := rfl
  rw [hkey, hlength]
  omega

/-- Two paths have one key exactly if they have the same pieces. -/
theorem joined_eq_iff {left right : List String} (hleft : left ≠ []) (hright : right ≠ []) :
    joined left = joined right ↔ pieces left = pieces right := by
  have hcut : split (joined left) '.' = split (joined right) '.' ↔ joined left = joined right :=
    split_inj
  rw [← hcut, pieces, pieces, ← split_intercalate hleft, ← split_intercalate hright]
  rfl

/-! ### Which files are kept -/

/-- Where an accepted file is kept, no table at its top has an empty key. -/
theorem named_of_lossless (h : flattenToml "" .new value = .ok document)
    (hlossless : value.Lossless document) :
    ∀ leaf ∈ value.leaves, ∀ segment rest, leaf.1 ≠ "" :: segment :: rest := by
  classical
  let unnamed := value.leaves.filter fun leaf => ∃ segment rest, leaf.1 = "" :: segment :: rest
  have hmem {leaf} : leaf ∈ unnamed ↔
      leaf ∈ value.leaves ∧ ∃ segment rest, leaf.1 = "" :: segment :: rest := by
    simp [unnamed]
  -- the entry for the longest path that starts so belongs to a longer one
  have hlonger : ∀ leaf ∈ unnamed, ∃ other ∈ unnamed,
      (joined leaf.1).length < (joined other.1).length := by
    intro leaf hleaf
    obtain ⟨hleaf, segment, rest, hpath⟩ := hmem.mp hleaf
    obtain ⟨entry, -, hentry⟩ := hlossless.kept leaf hleaf
    obtain ⟨front, other, back, hsplit, hother, -⟩ := (entry_eq_some_iff h).mp hentry
    obtain ⟨hkey, -⟩ := Option.ite_none_right_eq_some.mp hother
    have hin : other ∈ value.leaves := by
      rw [hsplit]
      exact List.mem_append_right _ List.mem_cons_self
    by_cases hunnamed : ∃ segment rest, other.1 = "" :: segment :: rest
    · refine ⟨other, hmem.mpr ⟨hin, hunnamed⟩, ?_⟩
      obtain ⟨segment, rest, hpath⟩ := hunnamed
      rw [← hkey, hpath]
      exact length_keyBelow_lt segment rest
    · rw [keyBelow_eq_joined fun segment rest heq => hunnamed ⟨segment, rest, heq⟩] at hkey
      have heq := hlossless.apart other hin leaf hleaf hkey
      exact absurd ⟨segment, rest, heq.trans hpath⟩ hunnamed
  intro leaf hleaf segment rest hpath
  have hne : unnamed ≠ [] := List.ne_nil_of_mem (hmem.mpr ⟨hleaf, segment, rest, hpath⟩)
  obtain ⟨longest, hlongest⟩ := Option.ne_none_iff_exists'.mp fun hnone =>
    hne (List.argmax_eq_none (f := fun leaf => (joined leaf.1).length).mp hnone)
  obtain ⟨other, hother, hlt⟩ := hlonger longest (List.argmax_mem hlongest)
  exact List.not_lt_of_mem_argmax hother hlongest hlt

/-- A file without ambiguous paths is kept. -/
theorem lossless_of_unambiguous (hkeys : value.DistinctKeys)
    (h : flattenToml "" .new value = .ok document) (hpaths : value.UnambiguousPaths)
    (hjoined : ∀ left ∈ value.leaves, ∀ right ∈ value.leaves,
      joined left.1 = joined right.1 → left.1 = right.1) :
    value.Lossless document := by
  have hkey : ∀ leaf ∈ value.leaves, keyBelow "" leaf.1 = joined leaf.1 := fun leaf hleaf =>
    keyBelow_eq_joined (hpaths.named leaf hleaf)
  refine ⟨hjoined, ?_, ?_⟩
  · intro leaf hleaf
    obtain ⟨entry, hentry⟩ :=
      Option.isSome_iff_exists.mp ((flattenToml_entry value _ _ _ h).1 leaf hleaf)
    refine ⟨entry, hentry, (entry_eq_some_iff h).mpr ?_⟩
    obtain ⟨front, back, hsplit⟩ := List.append_of_mem hleaf
    refine ⟨front, leaf, back, hsplit, ?_, ?_⟩
    · rw [tells, if_pos (hkey leaf hleaf), hentry]
    · intro other hother
      have hmem : other ∈ value.leaves := by
        rw [hsplit]
        exact List.mem_append_right _ (List.mem_cons_of_mem _ hother)
      -- another leaf has another path
      have hnodup := nodup_paths value hkeys
      rw [hsplit, List.map_append, List.map_cons, List.nodup_append] at hnodup
      have hne : other.1 ≠ leaf.1 := by
        intro heq
        apply (List.nodup_cons.mp hnodup.2.1).1
        rw [← heq]
        exact List.mem_map_of_mem hother
      rw [tells, if_neg]
      rw [hkey other hmem]
      exact fun heq => hne (hjoined other hmem leaf hleaf heq)
  · intro key entry hentry
    obtain ⟨front, leaf, back, hsplit, hleaf, -⟩ := (entry_eq_some_iff h).mp hentry
    have hmem : leaf ∈ value.leaves := by
      rw [hsplit]
      exact List.mem_append_right _ List.mem_cons_self
    obtain ⟨hkeyed, hwritten⟩ := Option.ite_none_right_eq_some.mp hleaf
    exact ⟨leaf, hmem, (hkey leaf hmem).symm.trans hkeyed, hwritten⟩

theorem joined_eq_iff_of_table {left right : List String × TomlValue}
    (hleft : left ∈ (TomlValue.table entries).leaves)
    (hright : right ∈ (TomlValue.table entries).leaves) :
    joined left.1 = joined right.1 ↔ pieces left.1 = pieces right.1 := by
  rw [leaves] at hleft hright
  obtain ⟨segment, -, rest, hpath⟩ := head_of_mem_entryLeaves hleft
  obtain ⟨segment', -, rest', hpath'⟩ := head_of_mem_entryLeaves hright
  rw [hpath, hpath']
  exact joined_eq_iff (List.cons_ne_nil _ _) (List.cons_ne_nil _ _)

end TomlFlattening

namespace TomlSource

open TomlFlattening

variable {parsers : TomlParsers} {input name : String} {document : ConfigDocument}
  {read : FileRead} {source : TomlSource}

/-- A file that is taken has no inline table, and is flattened from the root. -/
theorem flattenToml_of_parse (h : parseTomlDocument parsers input name = .ok document) :
    ∃ value syntaxEntries, parsers.value input = some value ∧
      parsers.syntaxTree input = some syntaxEntries ∧ inlineTableKey "" syntaxEntries = none ∧
      flattenToml "" .new value = .ok document := by
  rw [parseTomlDocument] at h
  obtain ⟨value, hvalue, h⟩ := Run.okOr_bind_eq_ok.mp h
  obtain ⟨syntaxEntries, hsyntax, h⟩ := Run.okOr_bind_eq_ok.mp h
  cases hinline : inlineTableKey "" syntaxEntries with
  | some key =>
    rw [hinline] at h
    cases h
  | none =>
    rw [hinline] at h
    exact ⟨value, syntaxEntries, hvalue, hsyntax, hinline, h⟩

/-- A file that loads is not there and not required, and supplies nothing, or it was read and
supplies its leaves, each of which can be written. -/
theorem loadDocument_file
    (h : (source.toSource parsers read).loadDocument = .ok document) :
    (∃ error, read = .notFound error) ∧ source.required = false ∧ document = .new ∨
      ∃ text value, read = .text text ∧ parsers.value text = some value ∧
        (∀ leaf ∈ value.leaves, leaf.2.written.isSome) ∧
        document.entry = overlaid "" (fun _ => none) value.leaves := by
  cases read with
  | text input =>
    obtain ⟨value, -, hvalue, -, -, hflat⟩ := flattenToml_of_parse h
    obtain ⟨hwritten, hentry⟩ := flattenToml_entry value "" .new document hflat
    exact .inr ⟨input, value, rfl, hvalue, hwritten, hentry⟩
  | notFound error =>
    cases hrequired : source.required with
    | true =>
      replace h : (if source.required then _ else _) = _ := h
      rw [hrequired] at h
      cases h
    | false =>
      replace h : (if source.required then _ else _) = _ := h
      rw [hrequired] at h
      exact .inl ⟨⟨error, rfl⟩, rfl, (Except.ok.inj h).symm⟩
  | failed error => cases h

end TomlSource

open TomlFlattening in
/-- An accepted file is kept, leaf by leaf, exactly if its paths are unambiguous. -/
theorem parseTomlDocument_lossless_iff {parsers : TomlParsers} (hparsers : parsers.Lawful)
    {input name : String} {value : TomlValue} {document : ConfigDocument}
    (hvalue : parsers.value input = some value)
    (h : TomlSource.parseTomlDocument parsers input name = .ok document) :
    value.Lossless document ↔ value.UnambiguousPaths := by
  obtain ⟨⟨entries, rfl⟩, hkeys⟩ := hparsers input value hvalue
  obtain ⟨parsed, -, hparsed, -, -, hflat⟩ := TomlSource.flattenToml_of_parse h
  obtain rfl := Option.some.inj (hvalue.symm.trans hparsed)
  constructor
  · intro hlossless
    refine ⟨named_of_lossless hflat hlossless, fun left hleft right hright hpieces => ?_⟩
    exact hlossless.apart left hleft right hright
      ((joined_eq_iff_of_table hleft hright).mpr hpieces)
  · intro hpaths
    refine lossless_of_unambiguous hkeys hflat hpaths fun left hleft right hright heq => ?_
    exact hpaths.apart left hleft right hright ((joined_eq_iff_of_table hleft hright).mp heq)

/-- Parsers that know one file. -/
def oneFileParsers (text : String) (entries : List (String × TomlValue))
    (syntaxEntries : List (String × TomlItem)) : TomlParsers where
  value input := if input = text then some (.table entries) else none
  syntaxTree input := if input = text then some syntaxEntries else none

theorem oneFileParsers_lawful {text : String} {entries : List (String × TomlValue)}
    {syntaxEntries : List (String × TomlItem)} (h : (TomlValue.table entries).DistinctKeys) :
    (oneFileParsers text entries syntaxEntries).Lawful := by
  intro input value hvalue
  obtain ⟨-, heq⟩ := Option.ite_none_right_eq_some.mp hvalue
  obtain rfl := Option.some.inj heq
  exact ⟨⟨entries, rfl⟩, h⟩

/-- A table with two keys, one of them quoted, and a key that holds an array. -/
def sampleSettings : List (String × TomlValue) :=
  [("server", .table [("health.path", .string "/up"), ("port", .integer 8080)]),
    ("tenants", .table [("names", .array [.string "a", .string "b"])])]

def sampleSettingsText : String :=
  "[server]\n'health.path' = '/up'\nport = 8080\n[tenants]\nnames = ['a', 'b']\n"

/-- The leaves of the sample, as its document has them. -/
theorem parseTomlDocument_lossless_iff_sample :
    (TomlValue.table sampleSettings).Lossless
      ((((ConfigDocument.new.insertTable "server").insertScalar "server.health.path" "/up"
        |>.insertScalar "server.port" "8080").insertTable "tenants").insertStringArray
          "tenants.names" ["a", "b"]) := by
  refine (@parseTomlDocument_lossless_iff
    (oneFileParsers sampleSettingsText sampleSettings
      [("server", .table [("health.path", .value false), ("port", .value false)]),
        ("tenants", .table [("names", .value false)])])
    ?_ sampleSettingsText "mads.toml" _ _ rfl rfl).mpr ?_
  · exact oneFileParsers_lawful
      (by simp [sampleSettings, TomlValue.DistinctKeys, TomlValue.DistinctEntries])
  · constructor
    · simp [sampleSettings, TomlValue.leaves, TomlValue.entryLeaves]
    · simp only [sampleSettings, TomlValue.leaves, TomlValue.entryLeaves]
      decide

/-- A quoted key with a dot takes the place of a key in a table, and nothing is reported. -/
theorem dotted_key_overwritten :
    let entries := [("a", .table [("b", .string "2")]), ("a.b", .string "1")]
    let parsers := oneFileParsers "'a.b' = '1'\n[a]\nb = '2'\n" entries
      [("a.b", .value false), ("a", .table [("b", .value false)])]
    let document := ((ConfigDocument.new.insertTable "a").insertScalar "a.b" "2").insertScalar
      "a.b" "1"
    parsers.Lawful ∧
      TomlSource.parseTomlDocument parsers "'a.b' = '1'\n[a]\nb = '2'\n" "mads.toml" =
        .ok document ∧
      ¬ (TomlValue.table entries).Lossless document := by
  refine ⟨?_, rfl, fun hlossless => ?_⟩
  · exact oneFileParsers_lawful (by simp [TomlValue.DistinctKeys, TomlValue.DistinctEntries])
  · have heq := hlossless.apart (["a", "b"], .string "2")
      (by simp [TomlValue.leaves, TomlValue.entryLeaves]) (["a.b"], .string "1")
      (by simp [TomlValue.leaves, TomlValue.entryLeaves]) rfl
    simp at heq

end Mads
