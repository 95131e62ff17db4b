import Mads.Core.ConfigBuilder

/-!
# What a merge of configuration sources keeps

Each key is left with what the last source says about it, and only that is interpolated.
-/

namespace Mads

open Text

/-- A value in one of its two shapes. -/
inductive ConfigEntry where
  | scalar (value : String)
  | stringArray (values : List String)
  deriving DecidableEq, Repr

def ConfigEntry.texts : ConfigEntry → List String
  | .scalar text => [text]
  | .stringArray texts => texts

/-- What a document says about a key. -/
def ConfigDocument.entry (document : ConfigDocument) (key : String) : Option ConfigEntry :=
  ((document.stringArrays.get key).map .stringArray).or ((document.scalars.get key).map .scalar)

namespace Config

/-- What stands under a key, and where it comes from. -/
def entry (config : Config) (key : String) : Option (ConfigOrigin × ConfigEntry) :=
  ((config.stringArrays.get key).map fun found => (found.origin, .stringArray found.value)).or
    ((config.values.get key).map fun found => (found.origin, .scalar found.value))

/-- No key has two shapes. -/
def OneShape (config : Config) : Prop :=
  ∀ key, config.values.get key = none ∨ config.stringArrays.get key = none

end Config

namespace ConfigBuilder

variable {config : Config} {layer : ConfigOrigin × ConfigDocument} {key : String}

theorem entry_eq_scalar (h : config.OneShape) {origin : ConfigOrigin} {text : String} :
    config.entry key = some (origin, .scalar text) ↔ config.values.get key = some ⟨text, origin⟩ := by
  rw [Config.entry]
  obtain hvalue | harray := h key
  · rw [hvalue]
    cases config.stringArrays.get key <;> simp
  · rw [harray]
    cases config.values.get key with
    | none => simp
    | some value =>
      obtain ⟨found, source⟩ := value
      simp [and_comm]

theorem entry_eq_stringArray {origin : ConfigOrigin} {texts : List String} :
    config.entry key = some (origin, .stringArray texts) ↔
      config.stringArrays.get key = some ⟨texts, origin⟩ := by
  rw [Config.entry]
  cases config.stringArrays.get key with
  | none => cases config.values.get key <;> simp
  | some value =>
    obtain ⟨found, source⟩ := value
    simp [and_comm]

/-! ### One document -/

theorem foldl_insertScalar (origin : ConfigOrigin) (entries : List (String × String))
    (config : Config) :
    (entries.foldl (insertScalar origin) config).values =
        (entries.map fun entry => (entry.1, (⟨entry.2, origin⟩ : ConfigValue))).foldl
          (fun map (key, value) => map.insert key value) config.values ∧
      (entries.foldl (insertScalar origin) config).stringArrays =
        (entries.map (·.1)).foldl SortedMap.erase config.stringArrays := by
  induction entries generalizing config with
  | nil => exact ⟨rfl, rfl⟩
  | cons entry entries ih => exact ih _

theorem foldl_insertStringArray (origin : ConfigOrigin) (entries : List (String × List String))
    (config : Config) :
    (entries.foldl (insertStringArray origin) config).values =
        (entries.map (·.1)).foldl SortedMap.erase config.values ∧
      (entries.foldl (insertStringArray origin) config).stringArrays =
        (entries.map fun entry => (entry.1, (⟨entry.2, origin⟩ : ConfigStringArrayValue))).foldl
          (fun map (key, value) => map.insert key value) config.stringArrays := by
  induction entries generalizing config with
  | nil => exact ⟨rfl, rfl⟩
  | cons entry entries ih => exact ih _

theorem foldl_insertTable (origin : ConfigOrigin) (entries : List (String × Unit))
    (config : Config) :
    (entries.foldl (insertTable origin) config).values = config.values ∧
      (entries.foldl (insertTable origin) config).stringArrays = config.stringArrays := by
  induction entries generalizing config with
  | nil => exact ⟨rfl, rfl⟩
  | cons entry entries ih => exact ih _

/-- The scalars after a merge. The arrays of a document come after its scalars. -/
theorem values_mergeDocument : (mergeDocument config layer).values.get key =
    if (layer.2.stringArrays.get key).isSome then none
    else ((layer.2.scalars.get key).map (⟨·, layer.1⟩)).or (config.values.get key) := by
  rw [mergeDocument, (foldl_insertTable _ _ _).1, (foldl_insertStringArray _ _ _).1,
    (foldl_insertScalar _ _ _).1]
  rw [← SortedMap.get_foldl_insert_map]
  exact SortedMap.get_foldl_erase_keys _ _ _

theorem stringArrays_mergeDocument : (mergeDocument config layer).stringArrays.get key =
    ((layer.2.stringArrays.get key).map (⟨·, layer.1⟩)).or
      (if (layer.2.scalars.get key).isSome then none else config.stringArrays.get key) := by
  rw [mergeDocument, (foldl_insertTable _ _ _).2, (foldl_insertStringArray _ _ _).2,
    (foldl_insertScalar _ _ _).2]
  rw [← SortedMap.get_foldl_erase_keys]
  exact SortedMap.get_foldl_insert_map (fun values => (⟨values, layer.1⟩ : ConfigStringArrayValue))
    _ _ _

/-- What a document says about a key replaces what was there, whatever shape it had. -/
theorem entry_mergeDocument : (mergeDocument config layer).entry key =
    ((layer.2.entry key).map (layer.1, ·)).or (config.entry key) := by
  rw [Config.entry, values_mergeDocument, stringArrays_mergeDocument, ConfigDocument.entry,
    Config.entry]
  cases layer.2.stringArrays.get key with
  | some values => rfl
  | none => cases layer.2.scalars.get key <;> rfl

theorem oneShape_mergeDocument (h : config.OneShape) : (mergeDocument config layer).OneShape := by
  intro key
  rw [values_mergeDocument, stringArrays_mergeDocument]
  cases harray : layer.2.stringArrays.get key with
  | some values => exact .inl rfl
  | none =>
    cases layer.2.scalars.get key with
    | some value => exact .inr rfl
    | none => exact h key

/-! ### All documents -/

/-- The last document that says something about a key says this. -/
def Survives (layers : List (ConfigOrigin × ConfigDocument)) (key : String) :
    ConfigOrigin × ConfigEntry → Prop :=
  LastWins (fun layer => (layer.2.entry key).map (layer.1, ·)) layers

variable {layers : List (ConfigOrigin × ConfigDocument)}

def merged (layers : List (ConfigOrigin × ConfigDocument)) : Config :=
  layers.foldl mergeDocument ⟨.empty, .empty, .empty⟩

theorem entry_merged {found : ConfigOrigin × ConfigEntry} :
    (merged layers).entry key = some found ↔ Survives layers key found :=
  LastWins.iff_foldl mergeDocument (fun config : Config => config.entry key) rfl
    fun _ _ => entry_mergeDocument

theorem oneShape_merged : (merged layers).OneShape := by
  unfold merged
  induction layers using List.reverseRecOn with
  | nil => exact fun _ => .inl rfl
  | append_singleton layers layer ih =>
    rw [List.foldl_append]
    exact oneShape_mergeDocument ih

theorem foldlM_mergeSource {sources : List ConfigSource} {documents : List ConfigDocument}
    (h : List.Forall₂ (fun source document => source.loadDocument = .ok document) sources documents)
    (config : Config) : sources.foldlM mergeSource config =
      .ok (((sources.map origin).zip documents).foldl mergeDocument config) := by
  induction h generalizing config with
  | nil => rfl
  | @cons source document sources documents hload _ ih =>
    rw [List.foldlM_cons, mergeSource, hload]
    exact ih _

/-! ### Variables -/

/-- What a file of variables gives: nothing where it may be missing and is. -/
def LoadsEntries (files : String → DotenvFile) (source : DotenvSource)
    (entries : List (String × String)) : Prop :=
  files source.path = .opened (entries.map some) ∨
    source.required = false ∧ (∃ error, files source.path = .unreadable true error) ∧ entries = []

/-- The last definition of a variable counts. Those of the process come after all files. -/
def Variable (dotenvs : List (List (String × String))) (environment : List (OsString × OsString))
    (name value : String) : Prop :=
  LastWins (fun entry : String × String => if entry.1 = name then some entry.2 else none)
    (dotenvs.flatten ++ environment.filterMap textVariable) value

theorem loadDotenv_ok {files : String → DotenvFile} {source : DotenvSource}
    {entries : List (String × String)} (h : LoadsEntries files source entries)
    (variables_ : SortedMap String String) : loadDotenv files variables_ source =
      .ok (entries.foldl (fun map (key, value) => map.insert key value) variables_) := by
  unfold loadDotenv
  obtain hopened | ⟨hrequired, ⟨error, hunreadable⟩, rfl⟩ := h
  · rw [hopened]
    dsimp only
    clear hopened
    induction entries generalizing variables_ with
    | nil => rfl
    | cons entry entries ih => exact ih _
  · rw [hunreadable]
    simp [hrequired]

theorem loadVariables_ok {files : String → DotenvFile} {builder : ConfigBuilder}
    {dotenvs : List (List (String × String))}
    (h : List.Forall₂ (LoadsEntries files) builder.dotenvSources dotenvs)
    (environment : List (OsString × OsString)) : loadVariables files environment builder =
      .ok (.ofList (dotenvs.flatten ++ environment.filterMap textVariable)) := by
  have hfiles : ∀ (sources : List DotenvSource) (dotenvs : List (List (String × String))),
      List.Forall₂ (LoadsEntries files) sources dotenvs → ∀ variables_,
        sources.foldlM (loadDotenv files) variables_ =
          .ok (dotenvs.flatten.foldl (fun map (key, value) => map.insert key value) variables_) := by
    intro sources dotenvs h
    induction h with
    | nil => exact fun _ => rfl
    | cons hload _ ih =>
      intro variables_
      rw [List.foldlM_cons, loadDotenv_ok hload, Run.ok_bind, ih, List.flatten_cons,
        List.foldl_append]
  rw [loadVariables, hfiles _ _ h, SortedMap.ofList, List.foldl_append]
  rfl

/-! ### Interpolation -/

/-- A text that is one placeholder and nothing else. -/
def Placeholder (text name : String) : Prop :=
  text = "$\x7b" ++ name ++ "\x7d" ∧ name ≠ "" ∧ ¬ "$\x7b".toList <:+: name.toList ∧
    '\x7d' ∉ name.toList ∧ ¬ ":-".toList <:+: name.toList

theorem exactVariableName_eq_some {text name : String} :
    exactVariableName text = some name ↔ Placeholder text name := by
  unfold exactVariableName Placeholder
  simp only [Option.bind_eq_bind, Option.bind_eq_some_iff, stripPrefix_eq_some,
    stripSuffix_eq_some, Option.ite_none_right_eq_some, Option.some.injEq]
  constructor
  · rintro ⟨_, rfl, _, rfl, hname, rfl⟩
    exact ⟨by rw [String.append_assoc], hname⟩
  · rintro ⟨rfl, hname⟩
    exact ⟨_, by rw [String.append_assoc], name, rfl, hname, rfl⟩

/-- A placeholder becomes the value of its variable as it is, and any other text stays. -/
def Interpolated (defined : String → String → Prop) (text result : String) : Prop :=
  (∃ name, Placeholder text name ∧ defined name result) ∨
    (∀ name, ¬ Placeholder text name) ∧ result = text

/-- An entry keeps its shape, and each text of it is interpolated. -/
inductive Interpolates (defined : String → String → Prop) : ConfigEntry → ConfigEntry → Prop
  | scalar {text result : String} (h : Interpolated defined text result) :
      Interpolates defined (.scalar text) (.scalar result)
  | stringArray {texts results : List String}
      (h : List.Forall₂ (Interpolated defined) texts results) :
      Interpolates defined (.stringArray texts) (.stringArray results)

variable {variables_ : SortedMap String String} {defined : String → String → Prop}

theorem resolveText_eq_ok {text result : String} :
    resolveText variables_ key text = .ok result ↔
      Interpolated (fun name value => variables_.get name = some value) text result := by
  unfold resolveText Interpolated
  split
  · next name hname =>
    rw [resolveVariable, Run.okOr_eq_ok]
    constructor
    · exact fun h => .inl ⟨name, exactVariableName_eq_some.mp hname, h⟩
    · rintro (⟨other, hother, h⟩ | ⟨hnone, -⟩)
      · obtain rfl : name = other :=
          Option.some.inj (hname.symm.trans (exactVariableName_eq_some.mpr hother))
        exact h
      · exact absurd (exactVariableName_eq_some.mp hname) (hnone name)
  · next hname =>
    have hnone : ∀ name, ¬ Placeholder text name := fun name h => by
      rw [exactVariableName_eq_some.mpr h] at hname
      cases hname
    rw [Except.ok.injEq]
    constructor
    · exact fun h => .inr ⟨hnone, h.symm⟩
    · rintro (⟨name, h, -⟩ | ⟨-, rfl⟩)
      · exact absurd h (hnone name)
      · rfl

/-- A value that is resolved anew and keeps its origin, whatever the shape of the value. -/
theorem resolved_eq_ok {α V : Type} {make : α → ConfigOrigin → V} {value : V → α}
    {origin : V → ConfigOrigin} (hmake : ∀ v, make (value v) (origin v) = v)
    (hvalue : ∀ a o, value (make a o) = a) (horigin : ∀ a o, origin (make a o) = o)
    {resolved : Run Error α} {source : ConfigOrigin} {result : V} :
    (resolved >>= fun found => pure (make found source)) = .ok result ↔
      origin result = source ∧ resolved = .ok (value result) := by
  rw [Run.bind_eq_ok]
  constructor
  · rintro ⟨found, hfound, h⟩
    obtain rfl := Except.ok.inj h
    exact ⟨horigin _ _, by rw [hvalue, hfound]⟩
  · rintro ⟨rfl, hresolved⟩
    exact ⟨value result, hresolved, congrArg Except.ok (hmake result)⟩

theorem resolveScalar_eq_ok {value result : ConfigValue} :
    resolveScalar variables_ key value = .ok result ↔ result.origin = value.origin ∧
      Interpolated (fun name value => variables_.get name = some value) value.value
        result.value := by
  rw [← resolveText_eq_ok]
  exact resolved_eq_ok (fun _ => rfl) (fun _ _ => rfl) (fun _ _ => rfl)

theorem mapM_resolveText {texts results : List String} :
    texts.mapM (resolveText variables_ key) = .ok results ↔ List.Forall₂
      (Interpolated fun name value => variables_.get name = some value) texts results := by
  constructor
  · exact fun h => (Run.forall₂_of_mapM h).imp fun _ _ => resolveText_eq_ok.mp
  · intro h
    induction h with
    | nil => rfl
    | cons htext _ ih => rw [List.mapM_cons, resolveText_eq_ok.mpr htext, ih]; rfl

theorem resolveStringArray_eq_ok {value result : ConfigStringArrayValue} :
    resolveStringArray variables_ key value = .ok result ↔ result.origin = value.origin ∧
      List.Forall₂ (Interpolated fun name value => variables_.get name = some value) value.value
        result.value := by
  rw [← mapM_resolveText]
  exact resolved_eq_ok (fun _ => rfl) (fun _ _ => rfl) (fun _ _ => rfl)

theorem returns_resolveText (text : String) : (resolveText variables_ key text).Returns := by
  unfold resolveText
  split
  · exact .okOr _ _
  · exact .ok _

/-- A map that is built with a call for each entry has no other keys. -/
theorem get_collect_eq_none {α β : Type} {call : String → α → Run Error β}
    {map : SortedMap String α} {built : SortedMap String β} (h : collect call map = .ok built) :
    built.get key = none ↔ map.get key = none := by
  rw [SortedMap.get_eq_none, SortedMap.get_eq_none, mem_keys_of_collect h]

theorem returns_collect {α β : Type} {call : String → α → Run Error β}
    (hcall : ∀ key a, (call key a).Returns) (map : SortedMap String α) :
    (collect call map).Returns := by
  refine Run.Returns.foldlM ?_ _ _
  rintro built ⟨key, a⟩
  exact (hcall key a).bind fun _ _ => .ok _

/-- The interpolation of what was merged. -/
def interpolate (variables_ : SortedMap String String) (merged : Config) : Run Error Config := do
  let values ← collect (resolveScalar variables_) merged.values
  let stringArrays ← collect (resolveStringArray variables_) merged.stringArrays
  pure { merged with values, stringArrays }

theorem returns_interpolate (merged : Config) : (interpolate variables_ merged).Returns := by
  have hscalar : ∀ key value, (resolveScalar variables_ key value).Returns := fun key value =>
    (returns_resolveText _).bind fun _ _ => .ok _
  have harray : ∀ key value, (resolveStringArray variables_ key value).Returns := fun key value =>
    (Run.Returns.mapM returns_resolveText _).bind fun _ _ => .ok _
  exact (returns_collect hscalar _).bind fun _ _ => (returns_collect harray _).bind fun _ _ => .ok _

/-- Every entry is interpolated, and keeps its origin. -/
theorem entry_interpolate {merged : Config} (hshape : merged.OneShape) {config : Config}
    (h : interpolate variables_ merged = .ok config) : config.OneShape ∧
      ∀ key origin result, config.entry key = some (origin, result) ↔
        ∃ entry, merged.entry key = some (origin, entry) ∧
          Interpolates (fun name value => variables_.get name = some value) entry result := by
  obtain ⟨values, hvalues, h⟩ := Run.bind_eq_ok.mp h
  obtain ⟨stringArrays, harrays, h⟩ := Run.bind_eq_ok.mp h
  obtain rfl := Except.ok.inj h
  have hshape' : Config.OneShape { merged with values, stringArrays } := fun key =>
    (hshape key).imp (get_collect_eq_none hvalues).mpr (get_collect_eq_none harrays).mpr
  refine ⟨hshape', fun key origin result => ?_⟩
  cases result with
  | scalar text =>
    rw [entry_eq_scalar hshape', get_of_collect hvalues]
    constructor
    · rintro ⟨value, hget, hresolve⟩
      obtain ⟨rfl, htext⟩ := resolveScalar_eq_ok.mp hresolve
      exact ⟨.scalar value.value, (entry_eq_scalar hshape).mpr hget, .scalar htext⟩
    · rintro ⟨_, hentry, @⟨source, _, htext⟩⟩
      exact ⟨⟨source, origin⟩, (entry_eq_scalar hshape).mp hentry,
        resolveScalar_eq_ok.mpr ⟨rfl, htext⟩⟩
  | stringArray texts =>
    rw [entry_eq_stringArray, get_of_collect harrays]
    constructor
    · rintro ⟨value, hget, hresolve⟩
      obtain ⟨rfl, htexts⟩ := resolveStringArray_eq_ok.mp hresolve
      exact ⟨.stringArray value.value, entry_eq_stringArray.mpr hget, .stringArray htexts⟩
    · rintro ⟨_, hentry, hresolve⟩
      cases hresolve with
      | stringArray htexts =>
        exact ⟨_, entry_eq_stringArray.mp hentry, resolveStringArray_eq_ok.mpr ⟨rfl, htexts⟩⟩

theorem exists_interpolated_iff {text : String} : (∃ result, Interpolated defined text result) ↔
    ∀ name, Placeholder text name → ∃ value, defined name value := by
  constructor
  · rintro ⟨result, ⟨name, hname, hvalue⟩ | ⟨hnone, -⟩⟩ other hother
    · obtain rfl : name = other := Option.some.inj
        ((exactVariableName_eq_some.mpr hname).symm.trans (exactVariableName_eq_some.mpr hother))
      exact ⟨result, hvalue⟩
    · exact absurd hother (hnone other)
  · intro h
    by_cases hname : ∃ name, Placeholder text name
    · obtain ⟨name, hname⟩ := hname
      obtain ⟨value, hvalue⟩ := h name hname
      exact ⟨value, .inl ⟨name, hname, hvalue⟩⟩
    · exact ⟨text, .inr ⟨not_exists.mp hname, rfl⟩⟩

/-- An entry can be interpolated if no text of it is a placeholder for an undefined variable. -/
theorem exists_interpolates_iff {entry : ConfigEntry} : (∃ result, Interpolates defined entry result) ↔
    ∀ text ∈ entry.texts, ∀ name, Placeholder text name → ∃ value, defined name value := by
  simp only [← exists_interpolated_iff]
  cases entry with
  | scalar text =>
    constructor
    · rintro ⟨_, @⟨_, result, h⟩⟩ other hother
      rw [List.mem_singleton.mp hother]
      exact ⟨result, h⟩
    · intro h
      obtain ⟨result, hresult⟩ := h text (List.mem_singleton.mpr rfl)
      exact ⟨.scalar result, .scalar hresult⟩
  | stringArray texts =>
    constructor
    · rintro ⟨_, h⟩ text htext
      cases h with
      | stringArray h =>
        obtain ⟨result, -, hresult⟩ := exists_of_forall₂ h.flip htext
        exact ⟨result, hresult⟩
    · intro h
      choose! result hresult using h
      exact ⟨.stringArray (texts.map result), .stringArray (List.forall₂_map_right_iff.mpr
        (List.forall₂_same.mpr hresult))⟩

/-- An interpolation succeeds exactly if every entry can be interpolated. -/
theorem interpolate_ok_iff {merged : Config} (hshape : merged.OneShape) :
    (∃ config, interpolate variables_ merged = .ok config) ↔
      ∀ key origin entry, merged.entry key = some (origin, entry) → ∃ result,
        Interpolates (fun name value => variables_.get name = some value) entry result := by
  constructor
  · rintro ⟨config, h⟩ key origin entry hentry
    obtain ⟨values, hvalues, h⟩ := Run.bind_eq_ok.mp h
    obtain ⟨stringArrays, harrays, -⟩ := Run.bind_eq_ok.mp h
    cases entry with
    | scalar text =>
      rw [entry_eq_scalar hshape] at hentry
      have hne : values.get key ≠ none := by
        rw [Ne, get_collect_eq_none hvalues, hentry]
        simp
      obtain ⟨value, hvalue⟩ := Option.ne_none_iff_exists'.mp hne
      obtain ⟨found, hfound, hresolve⟩ := (get_of_collect hvalues key value).mp hvalue
      obtain rfl := Option.some.inj (hentry.symm.trans hfound)
      exact ⟨_, .scalar (resolveScalar_eq_ok.mp hresolve).2⟩
    | stringArray texts =>
      rw [entry_eq_stringArray] at hentry
      have hne : stringArrays.get key ≠ none := by
        rw [Ne, get_collect_eq_none harrays, hentry]
        simp
      obtain ⟨value, hvalue⟩ := Option.ne_none_iff_exists'.mp hne
      obtain ⟨found, hfound, hresolve⟩ := (get_of_collect harrays key value).mp hvalue
      obtain rfl := Option.some.inj (hentry.symm.trans hfound)
      exact ⟨_, .stringArray (resolveStringArray_eq_ok.mp hresolve).2⟩
  · intro h
    have hvalues : ∀ key value, merged.values.get key = some value →
        ∃ result, resolveScalar variables_ key value = .ok result := by
      intro key value hvalue
      obtain ⟨_, @⟨_, result, hresult⟩⟩ := h key value.origin (.scalar value.value)
        ((entry_eq_scalar hshape).mpr hvalue)
      exact ⟨⟨result, value.origin⟩, resolveScalar_eq_ok.mpr ⟨rfl, hresult⟩⟩
    have harrays : ∀ key value, merged.stringArrays.get key = some value →
        ∃ result, resolveStringArray variables_ key value = .ok result := by
      intro key value hvalue
      obtain ⟨_, hresult⟩ := h key value.origin (.stringArray value.value)
        (entry_eq_stringArray.mpr hvalue)
      cases hresult with
      | @stringArray _ results hresult =>
        exact ⟨⟨results, value.origin⟩, resolveStringArray_eq_ok.mpr ⟨rfl, hresult⟩⟩
    obtain ⟨values, hvalues⟩ := collect_ok hvalues
    obtain ⟨stringArrays, harrays⟩ := collect_ok harrays
    exact ⟨{ merged with values, stringArrays }, by rw [interpolate, hvalues, harrays]; rfl⟩

/-! ### The environment as a source -/

/-- What a variable says about a key, where its name has the prefix and both texts are UTF-8. -/
def supplies (source : EnvSource) (key : String) (variable_ : OsString × OsString) :
    Option String := do
  let name ← variable_.1.toStr
  let suffix ← Text.stripPrefix name source.keyPrefix
  let value ← variable_.2.toStr
  if normalizeEnvironmentKey suffix = key then some value else none

/-- The environment never fails to load, has scalars only, and says about a key what its last
variable for this key says. -/
theorem loadDocument_environment (source : EnvSource) :
    ∃ document, source.toSource.loadDocument = .ok document ∧ ∀ key entry,
      document.entry key = some entry ↔
        ∃ text, entry = .scalar text ∧ LastWins (supplies source key) source.vars text := by
  refine ⟨_, rfl, fun key entry => ?_⟩
  have hvalue (text : String) : (SortedMap.ofList source.values).get key = some text ↔
      LastWins (supplies source key) source.vars text := by
    rw [SortedMap.get_ofList_eq_some, EnvSource.values, LastWins.filterMap_iff]
    refine iff_of_eq (congrArg (LastWins · source.vars text) (funext fun variable_ => ?_))
    obtain ⟨⟨name⟩, ⟨value⟩⟩ := variable_
    rw [supplies]
    cases name with
    | none => rfl
    | some name => cases value <;> simp [Option.bind_assoc]
  show (Option.map .scalar _) = some entry ↔ _
  rw [Option.map_eq_some_iff]
  constructor
  · rintro ⟨text, htext, rfl⟩
    exact ⟨text, rfl, (hvalue text).mp htext⟩
  · rintro ⟨text, rfl, htext⟩
    exact ⟨text, (hvalue text).mpr htext, rfl⟩

/-! ### The build -/

/-- A build of sources that load leaves each key with what the last source says about it, in one
shape and with its origin. Only what is left is interpolated, once, and the build fails exactly if
something that is left is a placeholder for an undefined variable. -/
theorem buildWithEnvironment_merges {files : String → DotenvFile} {builder : ConfigBuilder}
    {dotenvs : List (List (String × String))} {documents : List ConfigDocument}
    (hdotenvs : List.Forall₂ (LoadsEntries files) builder.dotenvSources dotenvs)
    (hdocuments : List.Forall₂ (fun source document => source.loadDocument = .ok document)
      builder.sources documents) (environment : List (OsString × OsString)) :
    let build := buildWithEnvironment files environment builder
    let layers := (builder.sources.map origin).zip documents
    let defined := Variable dotenvs environment
    (∀ config, build = .ok config → config.OneShape ∧
      ∀ key origin result, config.entry key = some (origin, result) ↔
        ∃ entry, Survives layers key (origin, entry) ∧ Interpolates defined entry result) ∧
    ((∃ config, build = .ok config) ∨ ∃ error, build = .error (.err error)) ∧
    ((∃ error, build = .error (.err error)) ↔
      ∃ key origin entry, Survives layers key (origin, entry) ∧ ∃ text ∈ entry.texts,
        ∃ name, Placeholder text name ∧ ∀ value, ¬ defined name value) := by
  intro build layers defined
  set variables_ : SortedMap String String :=
    .ofList (dotenvs.flatten ++ environment.filterMap textVariable) with hvariables
  have hbuild : build = interpolate variables_ (merged layers) := by
    show buildWithEnvironment files environment builder = _
    rw [buildWithEnvironment, loadVariables_ok hdotenvs, foldlM_mergeSource hdocuments]
    rfl
  have hdefined : (fun name value => variables_.get name = some value) = defined := by
    funext name value
    rw [hvariables, SortedMap.get_ofList_eq_some]
    rfl
  have hreturns : build.Returns := hbuild ▸ returns_interpolate _
  refine ⟨fun config hconfig => ?_, ?_, ?_⟩
  · obtain ⟨hshape, hentry⟩ := entry_interpolate oneShape_merged (hbuild.symm.trans hconfig)
    rw [hdefined] at hentry
    refine ⟨hshape, fun key origin result => (hentry key origin result).trans ?_⟩
    simp only [entry_merged]
  · by_cases hok : ∃ config, build = .ok config
    · exact .inl hok
    · exact .inr (hreturns.fails_iff.mpr (not_exists.mp hok))
  · have hok : (∃ config, build = .ok config) ↔ ∀ key origin entry,
        Survives layers key (origin, entry) → ∀ text ∈ entry.texts, ∀ name,
          Placeholder text name → ∃ value, defined name value := by
      rw [hbuild, interpolate_ok_iff oneShape_merged, hdefined]
      simp only [entry_merged, exists_interpolates_iff]
    rw [hreturns.fails_iff, ← not_exists, hok]
    push Not
    rfl

/-- Two sources with a key in both shapes, and a file of variables that names another one. -/
def sampleBuilder : ConfigBuilder :=
  (((new.dotenv ⟨".env", true, ".env"⟩).dotenv ⟨"local.env", false, "local.env"⟩).source
    (MapSource.new "defaults" [("a", "$\x7bMISSING\x7d"), ("b", "$\x7bB\x7d")]).toSource).source
    ((MapSource.new "file" []).withStringArray "a" ["$\x7bA\x7d", "x$\x7bA\x7d"]).toSource

def sampleFiles : String → DotenvFile
  | ".env" => .opened [some ("A", "dotenv"), some ("B", "$\x7bA\x7d")]
  | _ => .unreadable true "not found"

def sampleEnvironment : List (OsString × OsString) :=
  [(⟨some "A"⟩, ⟨some "process"⟩), (⟨some "B"⟩, ⟨none⟩)]

theorem buildWithEnvironment_merges_sample : ∃ config,
    buildWithEnvironment sampleFiles sampleEnvironment sampleBuilder = .ok config ∧
      config.OneShape ∧
      config.entry "a" = some (⟨"file", none⟩, .stringArray ["process", "x$\x7bA\x7d"]) ∧
      config.entry "b" = some (⟨"defaults", none⟩, .scalar "$\x7bA\x7d") := by
  have hdotenvs : List.Forall₂ (LoadsEntries sampleFiles) sampleBuilder.dotenvSources
      [[("A", "dotenv"), ("B", "$\x7bA\x7d")], []] :=
    .cons (.inl rfl) (.cons (.inr ⟨rfl, ⟨"not found", rfl⟩, rfl⟩) .nil)
  have hdocuments : List.Forall₂ (fun source document => source.loadDocument = .ok document)
      sampleBuilder.sources _ := .cons rfl (.cons rfl .nil)
  obtain ⟨hconfig, -, -⟩ := buildWithEnvironment_merges hdotenvs hdocuments sampleEnvironment
  have hrun : (buildWithEnvironment sampleFiles sampleEnvironment sampleBuilder).map
      (fun config => (config.entry "a", config.entry "b")) =
        .ok (some (⟨"file", none⟩, .stringArray ["process", "x$\x7bA\x7d"]),
          some (⟨"defaults", none⟩, .scalar "$\x7bA\x7d")) := by decide +kernel
  cases hbuild : buildWithEnvironment sampleFiles sampleEnvironment sampleBuilder with
  | error halt => simp [hbuild, Except.map] at hrun
  | ok config =>
    rw [hbuild] at hrun
    obtain ⟨ha, hb⟩ := Prod.mk.inj (Except.ok.inj hrun)
    exact ⟨config, rfl, (hconfig config hbuild).1, ha, hb⟩

end ConfigBuilder

end Mads
