import Mads.Base
import Mads.Core.Config
import Mads.Library.Text

/-!
# Configuration documents and their sources
-/

namespace Mads

def MADS020 : DiagnosticCode := ⟨"MADS020"⟩

/-- The values that one source supplies. A key has one shape. -/
structure ConfigDocument where
  scalars : SortedMap String String
  stringArrays : SortedMap String (List String)
  tables : SortedMap String Unit
  disjoint : ∀ key, scalars.get key = none ∨ stringArrays.get key = none

namespace ConfigDocument

def new : ConfigDocument := ⟨.empty, .empty, .empty, fun _ => .inl rfl⟩

def fromScalars (values : SortedMap String String) : ConfigDocument :=
  ⟨values, .empty, .empty, fun _ => .inr rfl⟩

variable (document : ConfigDocument)

/-- Inserts a scalar, replacing any value at the same key. -/
def insertScalar (key value : String) : ConfigDocument where
  scalars := document.scalars.insert key value
  stringArrays := document.stringArrays.erase key
  tables := document.tables
  disjoint := fun k => by
    rw [SortedMap.get_erase]
    by_cases hk : k = key
    · exact .inr (if_pos hk)
    · rw [SortedMap.get_insert_of_ne hk, if_neg hk]
      exact document.disjoint k

/-- Inserts a string array, replacing any value at the same key. -/
def insertStringArray (key : String) (values : List String) : ConfigDocument where
  scalars := document.scalars.erase key
  stringArrays := document.stringArrays.insert key values
  tables := document.tables
  disjoint := fun k => by
    rw [SortedMap.get_erase]
    by_cases hk : k = key
    · exact .inl (if_pos hk)
    · rw [SortedMap.get_insert_of_ne hk, if_neg hk]
      exact document.disjoint k

def insertTable (key : String) : ConfigDocument :=
  { document with tables := document.tables.insert key () }

end ConfigDocument

/-- A source of configuration values, with what it loads. -/
structure ConfigSource where
  name : String
  relativePathBase : Option String
  loadDocument : Run Error ConfigDocument

/-! ### Fixed values -/

structure MapSource where
  name : String
  scalars : SortedMap String String
  stringArrays : SortedMap String (List String)
  disjoint : ∀ key, scalars.get key = none ∨ stringArrays.get key = none

namespace MapSource

def new (name : String) (values : List (String × String)) : MapSource :=
  ⟨name, .ofList values, .empty, fun _ => .inr rfl⟩

/-- Adds a string array, replacing any scalar at the same key. -/
def withStringArray (source : MapSource) (key : String) (values : List String) : MapSource where
  name := source.name
  scalars := source.scalars.erase key
  stringArrays := source.stringArrays.insert key values
  disjoint := fun k => by
    rw [SortedMap.get_erase]
    by_cases hk : k = key
    · exact .inl (if_pos hk)
    · rw [SortedMap.get_insert_of_ne hk, if_neg hk]
      exact source.disjoint k

def toSource (source : MapSource) : ConfigSource where
  name := source.name
  relativePathBase := none
  loadDocument := .ok ⟨source.scalars, source.stringArrays, .empty, source.disjoint⟩

end MapSource

/-! ### The environment -/

/-- A string of the operating system, known by its text where it is UTF-8. -/
structure OsString where
  toStr : Option String
  deriving DecidableEq, Repr

/-- `str::replace` of two underscores by a dot. -/
def dotted : List Char → List Char
  | '_' :: '_' :: rest => '.' :: dotted rest
  | c :: rest => c :: dotted rest
  | [] => []

def normalizeEnvironmentKey (key : String) : String :=
  String.ofList (dotted (key.toList.map Char.toLower))

structure EnvSource where
  keyPrefix : String
  vars : List (OsString × OsString)

namespace EnvSource

def values (source : EnvSource) : List (String × String) :=
  source.vars.filterMap fun (key, value) => do
    let key ← key.toStr
    let key ← Text.stripPrefix key source.keyPrefix
    let value ← value.toStr
    some (normalizeEnvironmentKey key, value)

def toSource (source : EnvSource) : ConfigSource where
  name := "environment"
  relativePathBase := none
  loadDocument := .ok (.fromScalars (.ofList source.values))

end EnvSource

/-! ### TOML files -/

/-- A parsed TOML value. Floats are known by how they are written out. -/
inductive TomlValue where
  | table (entries : List (String × TomlValue))
  | string (value : String)
  | integer (value : ℤ)
  | float (value : String)
  | boolean (value : Bool)
  | array (values : List TomlValue)
  | datetime

/-- An item of the parsed syntax, as far as inline tables are looked for in it. -/
inductive TomlItem where
  | none
  | value (isInlineTable : Bool)
  | table (entries : List (String × TomlItem))
  | arrayOfTables

def unsupportedValue (key kind : String) : Error where
  primary :=
    { code := MADS020
      title := "unsupported configuration value"
      message := "configuration value has unsupported type " ++ "`" ++ kind ++ "`"
      subject := some key }

def childKey (parent segment : String) : String :=
  if parent = "" then segment else parent ++ "." ++ segment

mutual

/-- The first inline table below a table. -/
def inlineTableKey (parent : String) : List (String × TomlItem) → Option String
  | [] => Option.none
  | (segment, item) :: entries =>
    (inlineTableItem (childKey parent segment) item).or (inlineTableKey parent entries)

def inlineTableItem (key : String) : TomlItem → Option String
  | .value true => some key
  | .table nested => inlineTableKey key nested
  | _ => Option.none

end

/-- The elements of an array, which have to be strings. -/
def stringElements (key : String) (values : List TomlValue) : Run Error (List String) :=
  values.mapM fun value => match value with
    | .string text => .ok text
    | _ => Run.fail (unsupportedValue key "non-string array")

def insertRootedScalar (key value : String) (output : ConfigDocument) : Run Error ConfigDocument :=
  if key = "" then Run.fail (unsupportedValue key "root scalar")
  else .ok (output.insertScalar key value)

mutual

/-- Puts a value and what is below it into a document, with string arrays. -/
def flattenToml (parent : String) (output : ConfigDocument) : TomlValue → Run Error ConfigDocument
  | .table entries =>
    flattenEntries parent (if parent = "" then output else output.insertTable parent) entries
  | .string value => insertRootedScalar parent value output
  | .integer value => insertRootedScalar parent (toString value) output
  | .float value => insertRootedScalar parent value output
  | .boolean value => insertRootedScalar parent (toString value) output
  | .array values => do
    let values ← stringElements parent values
    .ok (output.insertStringArray parent values)
  | .datetime => Run.fail (unsupportedValue parent "datetime")

def flattenEntries (parent : String) (output : ConfigDocument) :
    List (String × TomlValue) → Run Error ConfigDocument
  | [] => .ok output
  | (segment, value) :: entries => do
    let output ← flattenToml (childKey parent segment) output value
    flattenEntries parent output entries

end

/-- What reading a file gives. -/
inductive FileRead where
  | text (input : String)
  | notFound (error : String)
  | failed (error : String)

/-- The parsers of the TOML libraries. -/
structure TomlParsers where
  value : String → Option TomlValue
  syntaxTree : String → Option (List (String × TomlItem))

/-- A TOML file, with the directory that it lies in. -/
structure TomlSource where
  name : String
  parent : Option String
  required : Bool

namespace TomlSource

def unparsed (name : String) : Error where
  primary :=
    { code := MADS020
      title := "configuration file could not be parsed"
      message := "configuration file `" ++ name ++ "` is not valid TOML"
      subject := some name }

def unread (name source : String) : Error where
  primary :=
    { code := MADS020
      title := "configuration file could not be read"
      message := "could not read configuration file `" ++ name ++ "`"
      subject := some name }
  source := some source

def parseTomlDocument (parsers : TomlParsers) (input name : String) : Run Error ConfigDocument := do
  let parsed ← Run.okOr (parsers.value input) (unparsed name)
  let entries ← Run.okOr (parsers.syntaxTree input) (unparsed name)
  match inlineTableKey "" entries with
  | some key => Run.fail (unsupportedValue key "inline table")
  | none => flattenToml "" .new parsed

def parse (parsers : TomlParsers) (read : FileRead) (source : TomlSource) :
    Run Error ConfigDocument :=
  match read with
  | .text input => parseTomlDocument parsers input source.name
  | .notFound error => if source.required then Run.fail (unread source.name error) else .ok .new
  | .failed error => Run.fail (unread source.name error)

def toSource (parsers : TomlParsers) (read : FileRead) (source : TomlSource) : ConfigSource where
  name := source.name
  relativePathBase := source.parent
  loadDocument := source.parse parsers read

end TomlSource

end Mads
