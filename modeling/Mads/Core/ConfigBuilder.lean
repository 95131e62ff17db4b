import Mads.Core.ConfigSource

/-!
# Merging configuration sources

Sources are merged in order, and what is left is interpolated once.
-/

namespace Mads

open Text

/-- A file of variables for interpolation. -/
structure DotenvSource where
  path : String
  required : Bool
  name : String
  deriving DecidableEq, Repr

/-- What opening a file of variables gives: its entries, of which those that cannot be parsed are
none, or an error. -/
inductive DotenvFile where
  | opened (entries : List (Option (String × String)))
  | unreadable (isNotFound : Bool) (error : String)
  | invalid

structure ConfigBuilder where
  dotenvSources : List DotenvSource := []
  sources : List ConfigSource := []

namespace ConfigBuilder

def new : ConfigBuilder := {}

def source (builder : ConfigBuilder) (source : ConfigSource) : ConfigBuilder :=
  { builder with sources := builder.sources ++ [source] }

def dotenv (builder : ConfigBuilder) (source : DotenvSource) : ConfigBuilder :=
  { builder with dotenvSources := builder.dotenvSources ++ [source] }

/-! ### Variables -/

def dotenvParseError (source : DotenvSource) : Error where
  primary :=
    { code := MADS020
      title := "configuration variable file could not be parsed"
      message := "configuration variable file `" ++ source.name ++ "` is not valid dotenv syntax"
      subject := some source.name }

def dotenvReadError (source : DotenvSource) (error : String) : Error where
  primary :=
    { code := MADS020
      title := "configuration variable file could not be read"
      message := "could not read configuration variable file `" ++ source.name ++ "`"
      subject := some source.name }
  source := some error

/-- Adds the variable of one entry of a file. -/
def loadEntry (source : DotenvSource) (variables_ : SortedMap String String)
    (entry : Option (String × String)) : Run Error (SortedMap String String) := do
  let (key, value) ← Run.okOr entry (dotenvParseError source)
  pure (variables_.insert key value)

def loadDotenv (files : String → DotenvFile) (variables_ : SortedMap String String)
    (source : DotenvSource) : Run Error (SortedMap String String) :=
  match files source.path with
  | .opened entries => entries.foldlM (loadEntry source) variables_
  | .unreadable isNotFound error =>
    if !source.required && isNotFound then .ok variables_
    else Run.fail (dotenvReadError source error)
  | .invalid => Run.fail (dotenvParseError source)

/-- Variables of the process that are not UTF-8 are left out. -/
def textVariable (entry : OsString × OsString) : Option (String × String) := do
  let key ← entry.1.toStr
  let value ← entry.2.toStr
  some (key, value)

def loadVariables (files : String → DotenvFile) (environment : List (OsString × OsString))
    (builder : ConfigBuilder) : Run Error (SortedMap String String) := do
  let variables_ ← builder.dotenvSources.foldlM (loadDotenv files) .empty
  pure ((environment.filterMap textVariable).foldl
    (fun variables_ (key, value) => variables_.insert key value) variables_)

/-! ### Sources -/

def insertScalar (origin : ConfigOrigin) (config : Config) (entry : String × String) : Config :=
  { config with
    stringArrays := config.stringArrays.erase entry.1
    values := config.values.insert entry.1 ⟨entry.2, origin⟩ }

def insertStringArray (origin : ConfigOrigin) (config : Config) (entry : String × List String) :
    Config :=
  { config with
    values := config.values.erase entry.1
    stringArrays := config.stringArrays.insert entry.1 ⟨entry.2, origin⟩ }

def insertTable (origin : ConfigOrigin) (config : Config) (entry : String × Unit) : Config :=
  { config with tables := config.tables.insert entry.1 origin }

/-- Puts a document over what was merged before. -/
def mergeDocument (config : Config) (layer : ConfigOrigin × ConfigDocument) : Config :=
  let config := layer.2.scalars.entries.foldl (insertScalar layer.1) config
  let config := layer.2.stringArrays.entries.foldl (insertStringArray layer.1) config
  layer.2.tables.entries.foldl (insertTable layer.1) config

def origin (source : ConfigSource) : ConfigOrigin := ⟨source.name, source.relativePathBase⟩

def mergeSource (config : Config) (source : ConfigSource) : Run Error Config := do
  let document ← source.loadDocument
  pure (mergeDocument config (origin source, document))

/-! ### Interpolation -/

/-- The name in a value that is a placeholder and nothing else. -/
def exactVariableName (value : String) : Option String := do
  let rest ← Text.stripPrefix value "$\x7b"
  let variable_ ← stripSuffix rest "\x7d"
  if variable_ ≠ "" ∧ ¬ "$\x7b".toList <:+: variable_.toList ∧ '\x7d' ∉ variable_.toList ∧
      ¬ ":-".toList <:+: variable_.toList then some variable_
  else none

def resolveVariable (key variable_ : String) (variables_ : SortedMap String String) :
    Run Error String :=
  Run.okOr (variables_.get variable_)
    { primary :=
        { code := MADS020
          title := "configuration variable is missing"
          message := "configuration variable `" ++ variable_ ++ "` is not defined"
          subject := some key } }

/-- The text of a value after interpolation. -/
def resolveText (variables_ : SortedMap String String) (key text : String) : Run Error String :=
  match exactVariableName text with
  | some variable_ => resolveVariable key variable_ variables_
  | none => .ok text

def resolveScalar (variables_ : SortedMap String String) (key : String) (value : ConfigValue) :
    Run Error ConfigValue := do
  let resolved ← resolveText variables_ key value.value
  pure { value with value := resolved }

def resolveStringArray (variables_ : SortedMap String String) (key : String)
    (value : ConfigStringArrayValue) : Run Error ConfigStringArrayValue := do
  let resolved ← value.value.mapM (resolveText variables_ key)
  pure { value with value := resolved }

def buildWithEnvironment (files : String → DotenvFile) (environment : List (OsString × OsString))
    (builder : ConfigBuilder) : Run Error Config := do
  let variables_ ← loadVariables files environment builder
  let merged ← builder.sources.foldlM mergeSource ⟨.empty, .empty, .empty⟩
  let values ← collect (resolveScalar variables_) merged.values
  let stringArrays ← collect (resolveStringArray variables_) merged.stringArrays
  pure { merged with values, stringArrays }

end ConfigBuilder

end Mads
