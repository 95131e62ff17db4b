import Mads.Cli.Diagnostic
import Mads.Library.Decimal
import Mads.Library.FileTree

/-!
# Publication of a rendered migration
-/

namespace Mads

open FileTree Decimal

def MADS213 : String := "MADS213"

/-- The rendered SQL of one migration. -/
structure RenderedMigration where
  upSql : String
  downSql : String
  deriving DecidableEq, Repr

namespace Publish

/-- How the standard library describes an error kind. -/
def describe : ErrorKind → String
  | .alreadyExists => "entity already exists"
  | .notFound => "entity not found"
  | .notADirectory => "not a directory"
  | .directoryNotEmpty => "directory not empty"
  | .invalidInput => "invalid input parameter"
  | .unsupported => "unsupported"
  | .other text => text

def publicationMessage (message : String) : CliError where
  code := MADS213
  title := "Migration publication failed"
  message := message

def publicationError (message : String) (error : ErrorKind) : CliError :=
  { publicationMessage message with source := some (describe error) }

/-- `Path::display`. -/
def display (path : Path) : String := "/".intercalate path

/-- `Path::strip_prefix`, with the whole path where it does not start with the root. -/
def publishedPath (root finalPath : Path) : String :=
  if root.isPrefixOf finalPath then display (finalPath.drop root.length) else display finalPath

def publicationUncertainError (root finalPath : Path) (error : ErrorKind) : CliError where
  code := MADS213
  title := "Migration publication durability is uncertain"
  message := "migration was published at " ++ publishedPath root finalPath ++
    ", but the migrations directory could not be synchronized; " ++
    "inspect the generated files before retrying"
  source := some (describe error)

/-! ### The clock -/

/-- `format!("{nanos:020}")`. -/
def padded (nanos : ℕ) : String := String.ofList (List.leftpad 20 '0' (Nat.toDigits 10 nanos))

theorem leftpad_digits {nanos : ℕ} (h : (Nat.toDigits 10 nanos).length ≤ 20) :
    (List.leftpad 20 '0' (Nat.toDigits 10 nanos)).length = 20 ∧
      (∀ c ∈ List.leftpad 20 '0' (Nat.toDigits 10 nanos), c.isDigit) ∧
      value (List.leftpad 20 '0' (Nat.toDigits 10 nanos)) = nanos := by
  refine ⟨by simp [List.leftpad, h], fun c hc => ?_, ?_⟩
  · obtain hc | hc := List.mem_append.mp hc
    · rw [(List.mem_replicate.mp hc).2]
      rfl
    · exact Nat.isDigit_of_mem_toDigits (by decide) (by decide) hc
  · rw [List.leftpad, value_append]
    simp [value]

def timestampFromNanos (nanos : ℕ) : Except CliError String :=
  if (Nat.toDigits 10 nanos).length > 20 then
    .error (publicationMessage "the system clock timestamp is wider than 20 digits")
  else .ok (padded nanos)

/-- `SystemMigrationClock::timestamp`; the reading is an error before the UNIX epoch. -/
def systemTimestamp (reading : Except ErrorKind ℕ) : Except CliError String := do
  let nanos ← reading.mapError (publicationError "the system clock is before the UNIX epoch")
  timestampFromNanos nanos

/-- The clock has to answer with exactly twenty digits. -/
def checkedTimestamp (clock : Except CliError String) : Except CliError String := do
  let timestamp ← clock
  if timestamp.utf8ByteSize = 20 ∧ timestamp.toList.all Char.isDigit then pure timestamp
  else throw (publicationMessage "the migration clock did not return exactly 20 ASCII digits")

/-! ### Steps -/

def writeNewFile (path : Path) (contents : List UInt8) : Op ErrorKind Unit := do
  Op.createNew path
  Op.writeAll path contents
  Op.syncAll

/-- Where a directory cannot be synchronized at all, that is not an error. -/
def syncDirectory (path : Path) : Op ErrorKind Unit := do
  let opened : Op ErrorKind Unit := do
    Op.openPath path
    Op.syncAll
  match ← Op.attempt opened with
  | .ok () => pure ()
  | .error .invalidInput => pure ()
  | .error .unsupported => pure ()
  | .error kind => throw kind

/-- Removes the migrations directory where this call created it. -/
def removeCreated (parentCreated : Bool) (migrations : Path) : Op CliError Unit :=
  if parentCreated then Op.ignore (Op.removeDir migrations) else pure ()

structure PublishGuard where
  temporaryPath : Path
  migrations : Path
  parentCreated : Bool

/-- `Drop` of a guard that is still armed; what fails here is ignored. -/
def PublishGuard.drop (guard : PublishGuard) : Op CliError Unit := do
  Op.ignore (Op.removeDirAll guard.temporaryPath)
  removeCreated guard.parentCreated guard.migrations

def migrationsOf (root : Path) : Path := root ++ ["migrations"]

def finalPathOf (root : Path) (timestamp : String) : Path :=
  migrationsOf root ++ [timestamp ++ "_schema_diff"]

def temporaryPathOf (root : Path) (timestamp : String) : Path :=
  migrationsOf root ++ [".mads-" ++ timestamp ++ "-schema-diff.tmp"]

def bytes (text : String) : List UInt8 := text.toUTF8.toList

/-- Whether the migrations directory was created by this call. -/
def ensureMigrations (migrations : Path) : Op CliError Bool := do
  match ← Op.attempt (Op.createDir migrations) with
  | .ok () => pure true
  | .error kind =>
    let present ← (if kind = .alreadyExists then Op.ask (·.isDir migrations) else pure false :
      Op CliError Bool)
    if present then pure false
    else throw (publicationError "the migrations directory could not be created" kind)

def createStaging (temporaryPath migrations : Path) (parentCreated : Bool) : Op CliError Unit := do
  match ← Op.attempt (Op.createDir temporaryPath) with
  | .ok () => pure ()
  | .error kind => do
    removeCreated parentCreated migrations
    throw (publicationError "the private migration staging directory could not be created" kind)

/-- The part that the guard watches over. -/
def stage (root : Path) (rendered : RenderedMigration) (finalPath temporaryPath migrations : Path)
    (writeFile : Path → List UInt8 → Op ErrorKind Unit) (beforePublish : Path → Op ErrorKind Unit)
    (sync : Path → Op ErrorKind Unit) : Op CliError Path := do
  Op.mapErr (publicationError "up.sql could not be written")
    (writeFile (temporaryPath ++ ["up.sql"]) (bytes rendered.upSql))
  Op.mapErr (publicationError "down.sql could not be written")
    (writeFile (temporaryPath ++ ["down.sql"]) (bytes rendered.downSql))
  Op.mapErr (publicationError
    "the private migration staging directory could not be synchronized") (sync temporaryPath)
  Op.mapErr (publicationError "the completed migration could not be prepared for publication")
    (beforePublish finalPath)
  Op.mapErr (publicationError "the completed migration could not be published")
    (Op.renameNoReplace temporaryPath finalPath)
  Op.mapErr (publicationUncertainError root finalPath) (sync migrations)
  pure finalPath

def publishMigrationWithOperations (root : Path) (rendered : RenderedMigration)
    (clock : Except CliError String) (writeFile : Path → List UInt8 → Op ErrorKind Unit)
    (beforePublish : Path → Op ErrorKind Unit) (sync : Path → Op ErrorKind Unit) :
    Op CliError Path := do
  let timestamp ← Op.ofExcept (checkedTimestamp clock)
  let migrations := migrationsOf root
  let finalPath := finalPathOf root timestamp
  let temporaryPath := temporaryPathOf root timestamp
  let parentCreated ← ensureMigrations migrations
  createStaging temporaryPath migrations parentCreated
  let guard : PublishGuard := { temporaryPath, migrations, parentCreated }
  match ← Op.attempt
      (stage root rendered finalPath temporaryPath migrations writeFile beforePublish sync) with
  | .ok path => pure path
  | .error error =>
    guard.drop
    throw error

/-- Publishes with the operations of production and the system clock. -/
def publishMigration (root : Path) (rendered : RenderedMigration) (reading : Except ErrorKind ℕ) :
    Op CliError Path :=
  publishMigrationWithOperations root rendered (systemTimestamp reading) writeNewFile
    (fun _ => pure ()) syncDirectory

end Publish

end Mads
